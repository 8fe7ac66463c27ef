import MsrSafe.BatchRequest

/-! Which ops of a batch are executed. Processors may go offline between the
check pass and the dispatch of the handlers, and a refused op keeps the others
from being executed: an op that was left out shows as one that went well. -/

namespace MsrSafe

open Interleave

/-- Each op of the array was executed exactly once, on its processor: what a
processor executed are the array's ops for it, one for one. -/
def AllExecutedOnce (ops : List MsrBatchOp) (trace : List MsrAction) : Prop :=
  ∀ cpu, List.Forall₂ SameRequest (opsFor cpu ops) (executedOn cpu trace)

def WasExecuted (ops : List MsrBatchOp) (trace : List MsrAction) (index : Nat) : Prop :=
  ∃ op, ops[index]? = some op ∧
    ∃ executed, SameRequest op executed ∧
      (executedOn op.cpu.toNat trace)[(opsFor op.cpu.toNat (ops.take index)).length]? = some executed

/-- A return value of 0 stands for a batch that was executed, and an op that was
not executed has its error set in the array that is copied back. -/
structure NoSilentSkip (ops : List MsrBatchOp) (trace : List MsrAction)
    (result : Int × Option (List MsrBatchOp)) : Prop where
  returned : result.1 = 0 → AllExecutedOnce ops trace
  marked : ∀ out, result.2 = some out → ∀ index op', out[index]? = some op' →
    ¬WasExecuted ops trace index → op'.err ≠ 0

theorem opsFor_checked (allow : AllowMap) (pl : Platform) (cpu : Nat) (ops : List MsrBatchOp) :
    opsFor cpu (ops.map (checkedOp allow pl)) = (opsFor cpu ops).map (checkedOp allow pl) :=
  List.filter_map

theorem checkedOp_request (allow : AllowMap) (pl : Platform) (op : MsrBatchOp) :
    SameRequest op (checkedOp allow pl op) := ⟨rfl, rfl, rfl, rfl⟩

theorem checkedOp_clean {allow : AllowMap} {pl : Platform} {op : MsrBatchOp}
    (accepted : refusal allow pl op = none) : (checkedOp allow pl op).err = 0 := by
  rw [checkedOp, accepted]
  rfl

theorem checked_getElem (allow : AllowMap) (pl : Platform) {ops : List MsrBatchOp} {index : Nat}
    {op : MsrBatchOp} (at_index : ops[index]? = some op) :
    (ops.map (checkedOp allow pl))[index]? = some (checkedOp allow pl op) := by
  rw [List.getElem?_map, at_index, Option.map_some]

theorem opsFor_getElem {ops : List MsrBatchOp} {index : Nat} {op : MsrBatchOp}
    (at_index : ops[index]? = some op) :
    (opsFor op.cpu.toNat ops)[(opsFor op.cpu.toNat (ops.take index)).length]? = some op := by
  obtain ⟨inside, here⟩ := List.getElem?_eq_some_iff.mp at_index
  have parts : ops = ops.take index ++ op :: ops.drop (index + 1) := by
    rw [← here, ← List.drop_eq_getElem_cons inside, List.take_append_drop]
  have own : opsFor op.cpu.toNat (op :: ops.drop (index + 1)) =
      op :: opsFor op.cpu.toNat (ops.drop (index + 1)) := List.filter_cons_of_pos (by simp)
  conv_lhs => rw [parts]
  rw [opsFor_append, own, ← parts, List.getElem?_append_right (Nat.le_refl _), Nat.sub_self]
  rfl

theorem wasExecuted_of_all {ops : List MsrBatchOp} {trace : List MsrAction} {index : Nat}
    (all : AllExecutedOnce ops trace) (inside : index < ops.length) :
    WasExecuted ops trace index := by
  have at_index : ops[index]? = some ops[index] := List.getElem?_eq_getElem inside
  have place := opsFor_getElem at_index
  have same := all ops[index].cpu.toNat
  obtain ⟨before, here⟩ := List.getElem?_eq_some_iff.mp place
  have before' := same.length_eq ▸ before
  refine ⟨_, at_index, _, ?_, List.getElem?_eq_getElem before'⟩
  have related := same.get before before'
  rw [List.get_eq_getElem, List.get_eq_getElem, here] at related
  exact related

theorem not_wasExecuted {ops : List MsrBatchOp} {trace : List MsrAction} {index : Nat}
    {op : MsrBatchOp} (at_index : ops[index]? = some op)
    (idle : executedOn op.cpu.toNat trace = []) : ¬WasExecuted ops trace index := by
  rintro ⟨op', at_index', executed, -, here⟩
  rw [at_index] at at_index'
  cases at_index'
  rw [idle] at here
  cases here

theorem executeOps_idle (pl : Platform) (on : Nat → Bool) {ops : List MsrBatchOp} {index : Nat}
    {op : MsrBatchOp} (at_index : ops[index]? = some op) (idle : on op.cpu.toNat = false)
    (regs : Nat → CpuRegs) : (executeOps pl on ops regs).1[index]? = some op := by
  induction ops generalizing index regs with
  | nil => cases at_index
  | cons first ops ih =>
      cases index with
      | zero =>
          cases at_index
          rw [executeOps, idle]
          rfl
      | succ index =>
          have later : ops[index]? = some op := at_index
          rw [executeOps]
          split
          · exact ih later _
          · exact ih later _

theorem not_noSilentSkip {ops out : List MsrBatchOp} {trace : List MsrAction} {ret : Int}
    {index : Nat} {op op' : MsrBatchOp} (at_index : ops[index]? = some op)
    (at_out : out[index]? = some op') (clean : op'.err = 0)
    (idle : executedOn op.cpu.toNat trace = []) : ¬NoSilentSkip ops trace (ret, some out) :=
  fun covered => covered.marked out rfl index op' at_out (not_wasExecuted at_index idle) clean

theorem noSilentSkip_uncopied (ops : List MsrBatchOp) (trace : List MsrAction) (call : IoctlCall)
    (uncopied : call.opsCopiedOut = false) (out : List MsrBatchOp) (err : Int) :
    NoSilentSkip ops trace (copyoutAndReturn call out err) := by
  rw [copyoutAndReturn, uncopied]
  refine ⟨fun returned => ?_, fun _ nothing => (by cases nothing)⟩
  simp only [Bool.not_false, if_true] at returned
  split at returned
  · exact absurd returned (Errno.ret_ne_zero .efault)
  · contradiction

section Ioctl

variable (allow : AllowMap) (checked pl : Platform) {call : IoctlCall} {oa : MsrBatchArray}
  (m : Machine)

theorem skip_refused (enters : call.Enters) (copied : call.opsCopiedOut = true)
    (refused : ∃ op ∈ oa.ops, refusal allow checked op ≠ none) :
    NoSilentSkip oa.ops (actions (kernel allow pl) (msrbatchIoctl checked pl call oa) m)
        (run (kernel allow pl) (msrbatchIoctl checked pl call oa) m).1 ↔
      ∀ op ∈ oa.ops, refusal allow checked op ≠ none := by
  obtain ⟨err, last⟩ := getLast?_refused refused
  have some_op : oa.ops ≠ [] := by
    obtain ⟨op, member, -⟩ := refused
    exact List.ne_nil_of_mem member
  have executed := executedOn_ioctl allow pl checked enters some_op m
  have not_all : ¬∀ op ∈ oa.ops, refusal allow checked op = none := by
    obtain ⟨op, member, verdict⟩ := refused
    exact fun accepted => verdict (accepted op member)
  simp only [not_all, false_and, if_false] at executed
  rw [run_msrbatchIoctl_enters allow checked pl enters some_op, last, Option.elim_some,
    msrbatchExecute, if_pos err.ret_ne_zero]
  simp only [run_done, copyoutAndReturn, copied, Bool.not_true, Bool.false_eq_true, if_false]
  constructor
  · intro covered op member accepted
    obtain ⟨index, at_index⟩ := List.getElem?_of_mem member
    have clean := checkedOp_clean accepted
    exact not_noSilentSkip at_index (checked_getElem allow checked at_index) clean (executed _)
      covered
  · intro all
    refine ⟨fun returned => absurd returned err.ret_ne_zero, ?_⟩
    intro out same index op' at_out _
    cases same
    obtain ⟨op, member, rfl⟩ := List.mem_map.mp (List.mem_of_getElem? at_out)
    obtain ⟨verdict, because⟩ := Option.ne_none_iff_exists'.mp (all op member)
    rw [checkedOp, because]
    exact verdict.ret_ne_zero

theorem all_executed_once (enters : call.Enters) (some_op : oa.ops ≠ [])
    (accepted : ∀ op ∈ oa.ops, refusal allow checked op = none)
    (mask : call.maskAllocated = true) (all : ∀ op ∈ oa.ops, pl.online op.cpu.toNat = true) :
    AllExecutedOnce oa.ops (actions (kernel allow pl) (msrbatchIoctl checked pl call oa) m) := by
  have executed := executedOn_ioctl allow pl checked enters some_op m
  simp only [eq_true accepted, mask, true_and] at executed
  intro cpu
  have here : executedOn cpu (actions (kernel allow pl) (msrbatchIoctl checked pl call oa) m) =
      opsFor cpu (oa.ops.map (checkedOp allow checked)) := by
    rw [executed]
    split
    · rfl
    · rename_i offline
      rw [opsFor_checked]
      have none : opsFor cpu oa.ops = [] := by
        refine List.filter_eq_nil_iff.mpr fun op member own => offline ?_
        rw [← of_decide_eq_true own]
        exact all op member
      rw [none, List.map_nil]
  rw [here, opsFor_checked, List.forall₂_map_right_iff]
  exact List.forall₂_same.mpr fun op _ => checkedOp_request allow checked op

/-- When no op is refused all are dispatched, and those of an offline processor are skipped. -/
theorem skip_accepted (enters : call.Enters) (copied : call.opsCopiedOut = true)
    (some_op : oa.ops ≠ []) (accepted : ∀ op ∈ oa.ops, refusal allow checked op = none) :
    NoSilentSkip oa.ops (actions (kernel allow pl) (msrbatchIoctl checked pl call oa) m)
        (run (kernel allow pl) (msrbatchIoctl checked pl call oa) m).1 ↔
      call.maskAllocated = true ∧ ∀ op ∈ oa.ops, pl.online op.cpu.toNat = true := by
  have executed := executedOn_ioctl allow pl checked enters some_op m
  have no_verdict : oa.ops.filterMap (refusal allow checked) = [] :=
    List.filterMap_eq_nil_iff.mpr accepted
  simp only [eq_true accepted, true_and] at executed
  rw [run_msrbatchIoctl_enters allow checked pl enters some_op, no_verdict, List.getLast?_nil,
    Option.elim_none, msrbatchExecute, if_neg (not_not.mpr rfl)]
  simp only [copyoutAndReturn, copied, Bool.not_true, Bool.false_eq_true, if_false]
  cases mask : call.maskAllocated with
  | false =>
      obtain ⟨op, rest, shape⟩ := List.exists_cons_of_ne_nil some_op
      have first : oa.ops[0]? = some op := by rw [shape, List.getElem?_cons_zero]
      have clean := checkedOp_clean (accepted op (List.mem_of_getElem? first))
      have idle : executedOn op.cpu.toNat
          (actions (kernel allow pl) (msrbatchIoctl checked pl call oa) m) = [] := by
        rw [executed, mask]
        rfl
      refine iff_of_false ?_ (fun all => Bool.false_ne_true all.1)
      exact not_noSilentSkip first (checked_getElem allow checked first) clean idle
  | true =>
      obtain ⟨array, -⟩ := onEachCpuMask_executes allow pl
        (cpusToRunOn (oa.ops.map (checkedOp allow checked))) call.schedule
        (oa.ops.map (checkedOp allow checked)) m
      simp only [msrSafeBatch, Bool.not_true, Bool.false_eq_true, if_false, run_bind, Prog.pure_eq,
        run_done, array, true_and]
      simp only [mask, true_and] at executed
      constructor
      · intro covered op member
        by_contra offline
        rw [Bool.not_eq_true] at offline
        obtain ⟨index, at_index⟩ := List.getElem?_of_mem member
        have at_out := executeOps_idle pl (fun cpu => cpusToRunOn (oa.ops.map
          (checkedOp allow checked)) cpu && pl.online cpu) (checked_getElem allow checked at_index)
          (Bool.and_eq_false_iff.mpr (.inr offline)) m.regs
        have idle := executed op.cpu.toNat
        rw [offline, if_neg Bool.false_ne_true] at idle
        exact not_noSilentSkip at_index at_out (checkedOp_clean (accepted op member)) idle covered
      · intro all
        have once := all_executed_once allow checked pl m enters some_op accepted mask all
        refine ⟨fun _ => once, ?_⟩
        intro out same index op' at_out skipped
        cases same
        obtain ⟨inside, -⟩ := List.getElem?_eq_some_iff.mp at_out
        rw [length_executeOps, List.length_map] at inside
        exact absurd (wasExecuted_of_all once inside) skipped

/-- No op is skipped silently exactly when there is no array to tell of it, the
call stops before the check pass, every op is refused, or none is refused, the
mask is allocated and no processor of the batch has gone offline. -/
theorem no_silent_skip_iff (call : IoctlCall) (oa : MsrBatchArray) :
    NoSilentSkip oa.ops (actions (kernel allow pl) (msrbatchIoctl checked pl call oa) m)
        (run (kernel allow pl) (msrbatchIoctl checked pl call oa) m).1 ↔
      call.opsCopiedOut = false ∨ ¬call.Enters ∨
      (∀ op ∈ oa.ops, refusal allow checked op ≠ none) ∨
      ((∀ op ∈ oa.ops, refusal allow checked op = none) ∧ call.maskAllocated = true ∧
        ∀ op ∈ oa.ops, pl.online op.cpu.toNat = true) := by
  by_cases gets_in : call.Enters ∧ oa.ops ≠ []
  swap
  · obtain ⟨err, stops⟩ := msrbatchIoctl_stops checked pl gets_in
    have stopped : msrbatchIoctl checked pl call oa = .done (err.ret, none) :=
      stops call.schedule oa rfl
    rw [stopped]
    refine iff_of_true ⟨fun returned => absurd returned err.ret_ne_zero, fun _ nothing =>
      (by cases nothing)⟩ (.inr ?_)
    by_cases enters : call.Enters
    · have empty : oa.ops = [] := not_not.mp fun some_op => gets_in ⟨enters, some_op⟩
      rw [empty]
      exact .inr (.inl (List.forall_mem_nil _))
    · exact .inl enters
  obtain ⟨enters, some_op⟩ := gets_in
  cases copied : call.opsCopiedOut with
  | false =>
      rw [run_msrbatchIoctl_enters allow checked pl enters some_op]
      exact iff_of_true (noSilentSkip_uncopied _ _ call copied _ _) (.inl rfl)
  | true =>
      simp only [Bool.true_eq_false, enters, not_true_eq_false, false_or]
      by_cases accepted : ∀ op ∈ oa.ops, refusal allow checked op = none
      · rw [skip_accepted allow checked pl m enters copied some_op accepted]
        refine ⟨fun dispatched => .inr ⟨accepted, dispatched⟩, fun either => ?_⟩
        rcases either with all | dispatched
        · obtain ⟨op, member⟩ := List.exists_mem_of_ne_nil oa.ops some_op
          exact absurd (accepted op member) (all op member)
        · exact dispatched.2
      · rw [skip_refused allow checked pl m enters copied (by simpa using accepted)]
        refine ⟨.inl, fun either => ?_⟩
        rcases either with all | dispatched
        · exact all
        · exact absurd dispatched.1 accepted

end Ioctl

/-- A read on processor 1, which goes offline after the check pass: the ioctl
returns 0 and the op has no error, though nothing was executed. -/
theorem silent_skip :
    let checked : Platform := ⟨2, fun _ => true, fun _ _ _ => false, fun _ _ _ _ => false⟩
    let pl : Platform := ⟨2, fun cpu => cpu = 0, fun _ _ _ => false, fun _ _ _ _ => false⟩
    let oa : MsrBatchArray := ⟨0, [⟨1, 1, 0, 16, 0, 0⟩]⟩
    let result := (run (kernel readOnly16 pl) (msrbatchIoctl checked pl plainIoctl oa)
      ⟨fun _ _ => 7, []⟩).1
    let trace := actions (kernel readOnly16 pl) (msrbatchIoctl checked pl plainIoctl oa)
      ⟨fun _ _ => 7, []⟩
    result = (0, some [⟨1, 1, 0, 16, 0, 0⟩]) ∧ executedOn 1 trace = [] ∧
      ¬NoSilentSkip oa.ops trace result := by
  intro checked pl oa result trace
  have returned : result = (0, some [⟨1, 1, 0, 16, 0, 0⟩]) := by decide +kernel
  have idle : executedOn 1 trace = [] := rfl
  refine ⟨returned, idle, fun covered => ?_⟩
  have executed := covered.returned (congrArg Prod.fst returned) 1
  rw [idle] at executed
  cases executed

end MsrSafe
