import MsrSafe.BatchCheck

/-! What the handlers of a batch do on each processor: they execute the ops of
the array that are for it, in the order of the array, and so issue the same
instructions whatever the schedule is. -/

namespace MsrSafe

open Interleave

def opsFor (cpu : Nat) (ops : List MsrBatchOp) : List MsrBatchOp :=
  ops.filter fun op => op.cpu.toNat = cpu

def executedOn (cpu : Nat) (trace : List MsrAction) : List MsrBatchOp :=
  trace.filterMap fun
    | .batchOp on op => if on = cpu then some op else none
    | _ => none

def Access.cpu : Access → Nat
  | .rdmsr cpu _ => cpu
  | .wrmsr cpu _ _ => cpu

def instructionsOn (cpu : Nat) (log : List Access) : List Access :=
  log.filter fun access => access.cpu = cpu

def opInstructions (pl : Platform) (op : MsrBatchOp) (own : CpuRegs) : List Access :=
  let cpu := op.cpu.toNat
  if pl.rdFault cpu own op.msr = true ∨ op.isrdmsr ≠ 0 then [.rdmsr cpu op.msr]
  else [.rdmsr cpu op.msr, .wrmsr cpu op.msr (Mask.merge op.wmask (own op.msr) op.msrdata)]

def instructions (pl : Platform) : List MsrBatchOp → CpuRegs → List Access
  | [], _ => []
  | op :: ops, own => opInstructions pl op own ++ instructions pl ops (executeOp pl op own).2

theorem executedOn_append (cpu : Nat) (first second : List MsrAction) :
    executedOn cpu (first ++ second) = executedOn cpu first ++ executedOn cpu second :=
  List.filterMap_append

theorem opsFor_append (cpu : Nat) (first second : List MsrBatchOp) :
    opsFor cpu (first ++ second) = opsFor cpu first ++ opsFor cpu second :=
  List.filter_append ..

theorem opsFor_seen {cpu : Nat} {ops ops' : List MsrBatchOp}
    (same : seenBy cpu ops = seenBy cpu ops') : opsFor cpu ops = opsFor cpu ops' := by
  induction ops generalizing ops' with
  | nil => rw [List.map_eq_nil_iff.mp same.symm]
  | cons op ops ih =>
      cases ops' with
      | nil => cases same
      | cons op' ops' =>
          obtain ⟨heads, tails⟩ := List.cons.inj same
          rw [opsFor, opsFor, List.filter_cons, List.filter_cons, ← opsFor, ← opsFor, ih tails,
            cpu_eq_of_seen heads]
          by_cases own : op'.cpu.toNat = cpu
          · rw [eq_of_seen heads (by rw [cpu_eq_of_seen heads, own])]
          · simp only [own, decide_false, Bool.false_eq_true, if_false]

theorem safeBatchOp_log (pl : Platform) (op : MsrBatchOp) (m : Machine) :
    (safeBatchOp pl op.cpu.toNat op m).2.log =
      m.log ++ opInstructions pl op (m.regs op.cpu.toNat) := by
  rw [opInstructions]
  by_cases rd : pl.rdFault op.cpu.toNat (m.regs op.cpu.toNat) op.msr = true
  · rw [safeBatchOp_unread rd, if_pos (Or.inl rd), Machine.issue_log]
  by_cases read : op.isrdmsr ≠ 0
  · rw [safeBatchOp_read rd read, if_pos (Or.inr read), Machine.issue_log]
  rw [safeBatchOp_write rd (not_not.mp read), if_neg (not_or.mpr ⟨rd, read⟩)]
  split
  · rw [Machine.issue_log, Machine.issue_log, List.append_assoc, List.singleton_append]
  · rw [Machine.setReg, Machine.issue_log, Machine.issue_log, List.append_assoc,
      List.singleton_append]

theorem opInstructions_cpu (pl : Platform) (op : MsrBatchOp) (own : CpuRegs) :
    ∀ access ∈ opInstructions pl op own, access.cpu = op.cpu.toNat := by
  intro access member
  rw [opInstructions] at member
  split at member <;> simp only [List.mem_cons, List.not_mem_nil, or_false] at member
  · rw [member, Access.cpu]
  · rcases member with rfl | rfl <;> rfl

theorem instructionsOn_op (pl : Platform) (cpu : Nat) (op : MsrBatchOp) (m : Machine) :
    instructionsOn cpu (safeBatchOp pl op.cpu.toNat op m).2.log =
      instructionsOn cpu m.log ++
        if op.cpu.toNat = cpu then opInstructions pl op (m.regs op.cpu.toNat) else [] := by
  have issued := opInstructions_cpu pl op (m.regs op.cpu.toNat)
  rw [safeBatchOp_log, instructionsOn, List.filter_append]
  congr 1
  split
  · rename_i own
    rw [List.filter_eq_self]
    intro access member
    exact decide_eq_true ((issued access member).trans own)
  · rename_i other
    rw [List.filter_eq_nil_iff]
    intro access member
    rw [issued access member]
    simpa using other

def pendingOps (on : Nat → Bool) (cpu : Nat) (h : Handlers) : List MsrBatchOp :=
  if on cpu then opsFor cpu (h.ops.drop (h.next cpu)) else []

theorem pendingOps_congr (on : Nat → Bool) {cpu : Nat} {h h' : Handlers}
    (same_next : h'.next cpu = h.next cpu) (same_ops : seenBy cpu h'.ops = seenBy cpu h.ops) :
    pendingOps on cpu h' = pendingOps on cpu h := by
  have dropped : seenBy cpu (h'.ops.drop (h.next cpu)) = seenBy cpu (h.ops.drop (h.next cpu)) := by
    simp only [seenBy] at same_ops ⊢
    rw [List.map_drop, List.map_drop, same_ops]
  rw [pendingOps, pendingOps, same_next, opsFor_seen dropped]

section Handlers

variable (allow : AllowMap) (pl : Platform)

theorem handlerStep_pending (on : Nat → Bool) {actor : Nat} (dispatched : on actor = true)
    (h : Handlers) (m : Machine) :
    let after := run (kernel allow pl) (handlerStep actor h) m
    let trace := actions (kernel allow pl) (handlerStep actor h) m
    (trace = [] ∧ after.2 = m ∧ ∀ cpu, pendingOps on cpu after.1 = pendingOps on cpu h) ∨
      ∃ op, op.cpu.toNat = actor ∧ trace = [.batchOp actor op] ∧
        after.2 = (safeBatchOp pl actor op m).2 ∧
        pendingOps on actor h = op :: pendingOps on actor after.1 ∧
        ∀ cpu, cpu ≠ actor → pendingOps on cpu after.1 = pendingOps on cpu h := by
  rw [handlerStep]
  cases here : h.ops[h.next actor]? with
  | none => exact .inl ⟨rfl, rfl, fun _ => rfl⟩
  | some op =>
      obtain ⟨inside, at_op⟩ := List.getElem?_eq_some_iff.mp here
      have rest : h.ops.drop (h.next actor) = op :: h.ops.drop (h.next actor + 1) := by
        rw [List.drop_eq_getElem_cons inside, at_op]
      by_cases foreign : op.cpu.toNat ≠ actor
      · dsimp only
        rw [if_pos foreign]
        refine .inl ⟨rfl, rfl, fun cpu => ?_⟩
        by_cases same : cpu = actor
        · subst same
          simp [pendingOps, opsFor, rest, foreign]
        · exact pendingOps_congr on (Function.update_of_ne same _ _) rfl
      · dsimp only
        rw [if_neg foreign]
        rw [not_not] at foreign
        subst foreign
        refine .inr ⟨op, rfl, rfl, rfl, ?_, fun cpu other => ?_⟩
        · rw [Msr.batchOp_bind, run_perform]
          simp [pendingOps, opsFor, rest, dispatched, List.drop_set_of_lt]
        · rw [Msr.batchOp_bind, run_perform]
          refine pendingOps_congr on (Function.update_of_ne other _ _) (seenBy_set_other ?_)
          intro op' at_op'
          rw [here] at at_op'
          cases at_op'
          refine ⟨Ne.symm other, ?_⟩
          dsimp only [kernel]
          rw [(safeBatchOp_executes pl op m).1]
          exact (executeOp_fixed pl op _).symm

/-- What has been executed and issued on a processor, and what is pending there,
make up the same whole before and after a step. -/
theorem handlerStep_progress (on : Nat → Bool) {actor : Nat} (dispatched : on actor = true)
    (cpu : Nat) (h : Handlers) (m : Machine) :
    let after := run (kernel allow pl) (handlerStep actor h) m
    executedOn cpu (actions (kernel allow pl) (handlerStep actor h) m) ++
        pendingOps on cpu after.1 = pendingOps on cpu h ∧
      instructionsOn cpu after.2.log ++
          instructions pl (pendingOps on cpu after.1) (after.2.regs cpu) =
        instructionsOn cpu m.log ++ instructions pl (pendingOps on cpu h) (m.regs cpu) := by
  dsimp only
  rcases handlerStep_pending allow pl on dispatched h m with
    ⟨trace, same, pending⟩ | ⟨op, own, trace, after, pending, others⟩
  · rw [trace, same, pending cpu]
    exact ⟨rfl, rfl⟩
  · subst own
    have issued := instructionsOn_op pl cpu op m
    have registers := (safeBatchOp_executes pl op m).2
    rw [trace, after, issued, registers]
    by_cases same : cpu = op.cpu.toNat
    · subst same
      rw [pending, if_pos rfl, Function.update_self, instructions, List.append_assoc]
      simp [executedOn]
    · rw [others cpu same, if_neg (Ne.symm same), Function.update_of_ne same, List.append_nil]
      simp [executedOn, Ne.symm same]

theorem runHandlers_progress (mask : Nat → Bool) (cpu : Nat) (schedule : List Nat) (h : Handlers)
    (m : Machine) :
    let on := fun cpu => mask cpu && pl.online cpu
    let after := run (kernel allow pl) (runHandlers pl mask schedule h) m
    executedOn cpu (actions (kernel allow pl) (runHandlers pl mask schedule h) m) ++
        pendingOps on cpu after.1 = pendingOps on cpu h ∧
      instructionsOn cpu after.2.log ++
          instructions pl (pendingOps on cpu after.1) (after.2.regs cpu) =
        instructionsOn cpu m.log ++ instructions pl (pendingOps on cpu h) (m.regs cpu) := by
  induction schedule generalizing h m with
  | nil => exact ⟨rfl, rfl⟩
  | cons actor schedule ih =>
      dsimp only
      rw [runHandlers]
      split
      · rename_i dispatched
        obtain ⟨executed, issued⟩ := handlerStep_progress allow pl
          (fun cpu => mask cpu && pl.online cpu) dispatched cpu h m
        obtain ⟨executed', issued'⟩ := ih (run (kernel allow pl) (handlerStep actor h) m).1
          (run (kernel allow pl) (handlerStep actor h) m).2
        rw [run_bind, actions_bind, executedOn_append, List.append_assoc]
        exact ⟨(congrArg _ executed').trans executed, issued'.trans issued⟩
      · exact ih h m

/-- The ops executed on a processor are the array's ops for it if its handler is
dispatched, and none otherwise; the instructions are theirs. -/
theorem onEachCpuMask_trace (mask : Nat → Bool) (schedule : List Nat) (ops : List MsrBatchOp)
    (m : Machine) (cpu : Nat) :
    let executed := if mask cpu && pl.online cpu then opsFor cpu ops else []
    executedOn cpu (actions (kernel allow pl) (onEachCpuMask pl mask schedule ops) m) = executed ∧
      instructionsOn cpu (run (kernel allow pl) (onEachCpuMask pl mask schedule ops) m).2.log =
        instructionsOn cpu m.log ++ instructions pl executed (m.regs cpu) := by
  have progress := runHandlers_progress allow pl mask cpu
    (schedule ++ (List.range pl.nrCpuIds).flatMap (List.replicate ops.length)) ⟨fun _ => 0, ops⟩ m
  dsimp only at progress ⊢
  rw [onEachCpuMask, run_bind, actions_bind, Prog.pure_eq, actions_done, List.append_nil, run_done]
  have nothing : pendingOps (fun cpu => mask cpu && pl.online cpu) cpu (run (kernel allow pl)
      (runHandlers pl mask (schedule ++ (List.range pl.nrCpuIds).flatMap
        (List.replicate ops.length)) ⟨fun _ => 0, ops⟩) m).1 = [] := by
    rw [pendingOps]
    split
    · rename_i dispatched
      have through := runHandlers_through allow pl mask dispatched schedule ops m
      dsimp only at through
      rw [List.drop_of_length_le through]
      rfl
    · rfl
  rw [nothing, List.append_nil, instructions, List.append_nil] at progress
  exact progress

theorem opsFor_masked (cpu : Nat) (ops : List MsrBatchOp) (online : Bool) :
    (if cpusToRunOn ops cpu && online then opsFor cpu ops else []) =
      if online then opsFor cpu ops else [] := by
  cases online with
  | false => rw [Bool.and_false]
  | true =>
      rw [Bool.and_true, if_pos rfl]
      split
      · rfl
      · rename_i absent
        refine (List.filter_eq_nil_iff.mpr fun op member own => ?_).symm
        exact absent (List.any_eq_true.mpr ⟨op, member, own⟩)

theorem executedOn_check (checked : Platform) (cpu : Nat) (op : MsrBatchOp) (err : Int)
    (m : Machine) :
    executedOn cpu (actions (kernel allow pl) (msrbatchCheckOp checked op err) m) = [] := by
  rw [msrbatchCheckOp_eq]
  split
  · rfl
  · rw [actions_maskexists]
    split
    · rfl
    · rw [actions_writemask]
      split <;> rfl

theorem executedOn_apply (checked : Platform) (cpu : Nat) (ops : List MsrBatchOp) (err : Int)
    (m : Machine) :
    executedOn cpu (actions (kernel allow pl) (msrbatchApplyAllowlist checked ops err) m) = [] := by
  induction ops generalizing err m with
  | nil => rfl
  | cons op ops ih =>
      rw [msrbatchApplyAllowlist, actions_bind, executedOn_append, executedOn_check]
      dsimp only
      rw [actions_bind, executedOn_append, ih]
      rfl

/-- An ioctl executes what `msr_safe_batch` executes, and that only if no op is refused. -/
theorem executedOn_ioctl (checked : Platform) {call : IoctlCall} (enters : call.Enters)
    {oa : MsrBatchArray} (some_op : oa.ops ≠ []) (m : Machine) (cpu : Nat) :
    executedOn cpu (actions (kernel allow pl) (msrbatchIoctl checked pl call oa) m) =
      if (∀ op ∈ oa.ops, refusal allow checked op = none) ∧ call.maskAllocated = true ∧
          pl.online cpu = true then opsFor cpu (oa.ops.map (checkedOp allow checked))
      else [] := by
  obtain ⟨command, reading, desc, allocated, copied⟩ := enters
  rw [msrbatchIoctl, command, reading, desc, allocated, copied]
  simp only [ne_eq, not_true_eq_false, if_false, Bool.not_true, Bool.false_eq_true,
    List.length_eq_zero_iff, some_op]
  rw [actions_bind, executedOn_append, executedOn_apply, List.nil_append, actions_bind,
    executedOn_append, run_msrbatchApplyAllowlist, Prog.pure_eq, actions_done]
  dsimp only
  rw [msrbatchExecute]
  cases refused : (oa.ops.filterMap (refusal allow checked)).getLast? with
  | some err =>
      rw [Option.elim_some, if_pos err.ret_ne_zero, actions_done, if_neg]
      · rfl
      · rintro ⟨accepted, -⟩
        rw [List.filterMap_eq_nil_iff.mpr accepted] at refused
        cases refused
  | none =>
      have accepted : ∀ op ∈ oa.ops, refusal allow checked op = none := by
        simpa [List.getLast?_eq_none_iff] using refused
      rw [Option.elim_none, if_neg (not_not.mpr rfl), msrSafeBatch]
      simp only [eq_true accepted, true_and]
      cases call.maskAllocated with
      | false => rfl
      | true =>
          have trace := (onEachCpuMask_trace allow pl (cpusToRunOn (oa.ops.map
            (checkedOp allow checked))) call.schedule (oa.ops.map (checkedOp allow checked)) m cpu).1
          rw [opsFor_masked] at trace
          simp only [Bool.not_true, Bool.false_eq_true, if_false, actions_bind, Prog.pure_eq,
            actions_done, List.append_nil, true_and]
          rw [trace]
          exact List.append_nil _

end Handlers

end MsrSafe
