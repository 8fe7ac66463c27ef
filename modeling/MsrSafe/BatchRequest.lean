import MsrSafe.BatchTrace
import Mathlib.Data.List.Forall2

/-! Two batches that ask for the same ops and differ in the fields the driver
fills in: `err`, `wmask` and the version of the array. The check pass overwrites
these fields before anything looks at them. -/

namespace MsrSafe

open Interleave

structure SameRequest (op op' : MsrBatchOp) : Prop where
  cpu : op.cpu = op'.cpu
  isrdmsr : op.isrdmsr = op'.isrdmsr
  msr : op.msr = op'.msr
  msrdata : op.msrdata = op'.msrdata

/-- Ops that agree on what the caller gets back; a mask is got back for a valid
processor and a listed address. -/
structure SameReply (allow : AllowMap) (pl : Platform) (op op' : MsrBatchOp) : Prop where
  request : SameRequest op op'
  err : op.err = op'.err
  wmask : pl.online op.cpu.toNat = true → allow.maskexists (op.msr.setWidth 64) = true →
    op.wmask = op'.wmask

theorem SameReply.refl (allow : AllowMap) (pl : Platform) (op : MsrBatchOp) :
    SameReply allow pl op op := ⟨⟨rfl, rfl, rfl, rfl⟩, rfl, fun _ _ => rfl⟩

section Check

variable {allow : AllowMap} {pl : Platform}

theorem refusal_same {op op' : MsrBatchOp} (same : SameRequest op op') :
    refusal allow pl op = refusal allow pl op' := by
  rw [refusal, refusal, same.cpu, same.msr, same.isrdmsr]

theorem refusals_same {ops ops' : List MsrBatchOp} (same : List.Forall₂ SameRequest ops ops') :
    ops.filterMap (refusal allow pl) = ops'.filterMap (refusal allow pl) := by
  induction same with
  | nil => rfl
  | cons head _ ih => rw [List.filterMap_cons, List.filterMap_cons, refusal_same head, ih]

theorem checkedOp_same {op op' : MsrBatchOp} (same : SameRequest op op') :
    SameReply allow pl (checkedOp allow pl op) (checkedOp allow pl op') := by
  refine ⟨⟨same.cpu, same.isrdmsr, same.msr, same.msrdata⟩, ?_, fun online listed => ?_⟩
  · dsimp only [checkedOp]
    rw [refusal_same same]
  · dsimp only [checkedOp] at online listed ⊢
    rw [← same.cpu, ← same.msr, online, listed]
    rfl

theorem checkedOp_accepted {op op' : MsrBatchOp} (same : SameRequest op op')
    (accepted : refusal allow pl op = none) : checkedOp allow pl op = checkedOp allow pl op' := by
  have online := online_of_accepted accepted
  have listed : allow.maskexists (op.msr.setWidth 64) = true := by
    rw [refusal, if_neg (by rw [online]; decide)] at accepted
    by_contra unlisted
    rw [if_pos (Bool.not_eq_true _ ▸ unlisted)] at accepted
    cases accepted
  have reply : SameReply allow pl _ _ := checkedOp_same same
  have wmask := reply.wmask online listed
  obtain ⟨cpu, isrdmsr, msr, msrdata⟩ := reply.request
  have err := reply.err
  cases left : checkedOp allow pl op
  cases right : checkedOp allow pl op'
  rw [left, right] at cpu isrdmsr msr msrdata err wmask
  dsimp only at cpu isrdmsr msr msrdata err wmask
  rw [cpu, isrdmsr, msr, msrdata, err, wmask]

theorem checked_accepted {ops ops' : List MsrBatchOp} (same : List.Forall₂ SameRequest ops ops')
    (accepted : ∀ op ∈ ops, refusal allow pl op = none) :
    ops.map (checkedOp allow pl) = ops'.map (checkedOp allow pl) := by
  induction same with
  | nil => rfl
  | cons head _ ih =>
      rw [List.map_cons, List.map_cons, checkedOp_accepted head (accepted _ List.mem_cons_self),
        ih fun op member => accepted op (List.mem_cons_of_mem _ member)]

end Check

theorem msrbatchIoctl_stops (checked pl : Platform) {call : IoctlCall} {oa : MsrBatchArray}
    (stops : ¬(call.Enters ∧ oa.ops ≠ [])) :
    ∃ err : Errno, ∀ (schedule : List Nat) (oa' : MsrBatchArray), oa'.ops.length = oa.ops.length →
      msrbatchIoctl checked pl { call with schedule := schedule } oa' = .done (err.ret, none) := by
  by_cases command : call.ioc = X86_IOC_MSR_BATCH
  swap
  · exact ⟨.enotty, fun _ _ _ => if_pos command⟩
  cases reading : call.fmodeRead with
  | false => exact ⟨.ebadf, fun _ _ _ => by simp [msrbatchIoctl, command]⟩
  | true =>
  cases desc : call.descCopied with
  | false => exact ⟨.efault, fun _ _ _ => by simp [msrbatchIoctl, command]⟩
  | true =>
  by_cases empty : oa.ops = []
  · refine ⟨.einval, fun _ oa' length => ?_⟩
    have none : oa'.ops = [] := List.length_eq_zero_iff.mp (by rw [length, empty]; rfl)
    simp [msrbatchIoctl, command, none]
  have some_op : ∀ oa' : MsrBatchArray, oa'.ops.length = oa.ops.length → oa'.ops ≠ [] := by
    intro oa' length none
    rw [none] at length
    exact empty (List.length_eq_zero_iff.mp length.symm)
  cases allocated : call.opsAllocated with
  | false =>
      refine ⟨.e2big, fun _ oa' length => ?_⟩
      simp [msrbatchIoctl, command, some_op oa' length]
  | true =>
  cases copied : call.opsCopiedIn with
  | false =>
      refine ⟨.efault, fun _ oa' length => ?_⟩
      simp [msrbatchIoctl, command, some_op oa' length]
  | true => exact absurd ⟨⟨command, reading, desc, allocated, copied⟩, empty⟩ stops

theorem copyoutAndReturn_rel {R : MsrBatchOp → MsrBatchOp → Prop} (call : IoctlCall)
    (schedule : List Nat) {ops ops' : List MsrBatchOp} (related : List.Forall₂ R ops ops')
    (err : Int) :
    (copyoutAndReturn call ops err).1 =
        (copyoutAndReturn { call with schedule := schedule } ops' err).1 ∧
      Option.Rel (List.Forall₂ R) (copyoutAndReturn call ops err).2
        (copyoutAndReturn { call with schedule := schedule } ops' err).2 := by
  rw [copyoutAndReturn, copyoutAndReturn]
  cases call.opsCopiedOut with
  | false => exact ⟨rfl, .none⟩
  | true => exact ⟨rfl, .some related⟩

theorem msrSafeBatch_schedule (allow : AllowMap) (pl : Platform) (maskAllocated : Bool)
    (schedule schedule' : List Nat) (ops : List MsrBatchOp) (m : Machine) :
    let first := run (kernel allow pl) (msrSafeBatch pl maskAllocated schedule ops) m
    let second := run (kernel allow pl) (msrSafeBatch pl maskAllocated schedule' ops) m
    first.1 = second.1 ∧ first.2.regs = second.2.regs ∧
      ∀ cpu, instructionsOn cpu first.2.log = instructionsOn cpu second.2.log := by
  cases maskAllocated with
  | false => exact ⟨rfl, rfl, fun _ => rfl⟩
  | true =>
      obtain ⟨array, regs⟩ := onEachCpuMask_executes allow pl (cpusToRunOn ops) schedule ops m
      obtain ⟨array', regs'⟩ := onEachCpuMask_executes allow pl (cpusToRunOn ops) schedule' ops m
      have trace := onEachCpuMask_trace allow pl (cpusToRunOn ops) schedule ops m
      have trace' := onEachCpuMask_trace allow pl (cpusToRunOn ops) schedule' ops m
      simp only [msrSafeBatch, Bool.not_true, Bool.false_eq_true, if_false, run_bind, Prog.pure_eq,
        run_done]
      refine ⟨?_, regs.trans regs'.symm, fun cpu => (trace cpu).2.trans (trace' cpu).2.symm⟩
      rw [array, array']

/-- The caller's `err` and `wmask` and the version of the array make no
difference, in whatever orders the handlers run. -/
theorem batch_ignores_outputs (allow : AllowMap) (checked pl : Platform) (call : IoctlCall)
    (schedule : List Nat) {oa oa' : MsrBatchArray}
    (same : List.Forall₂ SameRequest oa.ops oa'.ops) (m : Machine) :
    let first := run (kernel allow pl) (msrbatchIoctl checked pl call oa) m
    let second := run (kernel allow pl)
      (msrbatchIoctl checked pl { call with schedule := schedule } oa') m
    (∀ cpu, instructionsOn cpu first.2.log = instructionsOn cpu second.2.log) ∧
      first.2.regs = second.2.regs ∧ first.1.1 = second.1.1 ∧
      Option.Rel (List.Forall₂ (SameReply allow checked)) first.1.2 second.1.2 := by
  intro first second
  by_cases enters : call.Enters ∧ oa.ops ≠ []
  swap
  · obtain ⟨err, stops⟩ := msrbatchIoctl_stops checked pl enters
    have one : first = ((err.ret, none), m) :=
      congrArg (run (kernel allow pl) · m) (stops call.schedule oa rfl)
    have two : second = ((err.ret, none), m) :=
      congrArg (run (kernel allow pl) · m) (stops schedule oa' same.length_eq.symm)
    rw [one, two]
    exact ⟨fun _ => rfl, rfl, rfl, .none⟩
  obtain ⟨enters, some_op⟩ := enters
  have enters' : IoctlCall.Enters { call with schedule := schedule } :=
    ⟨enters.command, enters.reading, enters.descCopied, enters.opsAllocated, enters.opsCopiedIn⟩
  have some_op' : oa'.ops ≠ [] := by
    intro empty
    rw [empty, List.forall₂_nil_right_iff] at same
    exact some_op same
  have one := run_msrbatchIoctl_enters allow checked pl enters some_op m
  have two := run_msrbatchIoctl_enters allow checked pl enters' some_op' m
  rw [← refusals_same same] at two
  cases refused : (oa.ops.filterMap (refusal allow checked)).getLast? with
  | some err =>
      have checks : List.Forall₂ (SameReply allow checked) (oa.ops.map (checkedOp allow checked))
          (oa'.ops.map (checkedOp allow checked)) := by
        rw [List.forall₂_map_left_iff, List.forall₂_map_right_iff]
        exact same.imp fun _ _ => checkedOp_same
      have copied := copyoutAndReturn_rel call schedule checks err.ret
      rw [refused, Option.elim_some, msrbatchExecute, if_pos err.ret_ne_zero] at one two
      rw [show first = _ from one, show second = _ from two]
      exact ⟨fun _ => rfl, rfl, copied⟩
  | none =>
      have accepted : ∀ op ∈ oa.ops, refusal allow checked op = none := by
        simpa [List.getLast?_eq_none_iff] using refused
      rw [← checked_accepted same accepted] at two
      rw [refused, Option.elim_none, msrbatchExecute, if_neg (not_not.mpr rfl)] at one two
      obtain ⟨array, regs, logs⟩ := msrSafeBatch_schedule allow pl call.maskAllocated call.schedule
        schedule (oa.ops.map (checkedOp allow checked)) m
      rw [show first = _ from one, show second = _ from two]
      refine ⟨logs, regs, ?_⟩
      dsimp only
      rw [← array]
      exact copyoutAndReturn_rel call schedule
        (List.forall₂_same.mpr fun op _ => SameReply.refl allow checked op) _

theorem batch_ignores_outputs_two_processors :
    let allow : AllowMap := fun _ => some 0xF0
    let pl : Platform := ⟨2, fun _ => true, fun _ _ _ => false, fun _ _ _ _ => false⟩
    let oa : MsrBatchArray := ⟨0, [⟨0, 1, 0, 16, 0, 0⟩, ⟨1, 0, 0, 16, 5, 0⟩]⟩
    let oa' : MsrBatchArray := ⟨9, [⟨0, 1, -5, 16, 0, 3⟩, ⟨1, 0, 77, 16, 5, BitVec.allOnes 64⟩]⟩
    let first := run (kernel allow pl) (msrbatchIoctl pl pl plainIoctl oa) ⟨fun _ _ => 7, []⟩
    let second := run (kernel allow pl)
      (msrbatchIoctl pl pl { plainIoctl with schedule := [1, 0] } oa') ⟨fun _ _ => 7, []⟩
    first.2.regs = second.2.regs ∧ first.1.1 = second.1.1 := by
  intro allow pl oa oa' first second
  have same : List.Forall₂ SameRequest oa.ops oa'.ops :=
    .cons ⟨rfl, rfl, rfl, rfl⟩ (.cons ⟨rfl, rfl, rfl, rfl⟩ .nil)
  have equal := batch_ignores_outputs allow pl pl plainIoctl [1, 0] same ⟨fun _ _ => 7, []⟩
  exact ⟨equal.2.1, equal.2.2.1⟩

end MsrSafe
