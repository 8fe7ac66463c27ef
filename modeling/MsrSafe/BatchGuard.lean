import MsrSafe.BatchCheck

/-! What a batch ioctl can come to issue: its lookups, and the ops that they let
through. -/

namespace MsrSafe

open Interleave

variable {permitted : MsrAction → Prop} {known : (action : MsrAction) → action.Answer → Prop}
  {Good : MsrBatchOp → Prop}

theorem msrbatchCheckOp_guarded (pl : Platform) (op : MsrBatchOp) (err : Int)
    (lookups : ∀ reg, permitted (.maskexists reg) ∧ permitted (.writemask reg))
    (passes : ∀ mask : Word, known (.maskexists (op.msr.setWidth 64)) true →
      known (.writemask (op.msr.setWidth 64)) mask → (op.isrdmsr = 0 → mask ≠ 0) →
        Good { op with err := 0, wmask := mask }) :
    Guarded permitted known (fun result => result.2 = 0 → err = 0 ∧ Good result.1)
      (msrbatchCheckOp pl op err) := by
  rw [msrbatchCheckOp_eq]
  split
  · exact fun passed => absurd passed (Errno.ret_ne_zero _)
  refine ⟨(lookups _).1, fun listed found => ?_⟩
  cases listed with
  | false => exact fun passed => absurd passed (Errno.ret_ne_zero _)
  | true =>
      refine ⟨(lookups _).2, fun mask mask_known => ?_⟩
      dsimp only
      split
      · exact fun passed => absurd passed (Errno.ret_ne_zero _)
      · rename_i writable
        intro passed
        refine ⟨passed, passes mask found mask_known fun write zero => writable ?_⟩
        simp [zero, write]

theorem msrbatchApplyAllowlist_guarded (pl : Platform) (ops : List MsrBatchOp) (err : Int)
    (lookups : ∀ reg, permitted (.maskexists reg) ∧ permitted (.writemask reg))
    (passes : ∀ op ∈ ops, ∀ mask : Word, known (.maskexists (op.msr.setWidth 64)) true →
      known (.writemask (op.msr.setWidth 64)) mask → (op.isrdmsr = 0 → mask ≠ 0) →
        Good { op with err := 0, wmask := mask }) :
    Guarded permitted known (fun result => result.2 = 0 → err = 0 ∧ ∀ op ∈ result.1, Good op)
      (msrbatchApplyAllowlist pl ops err) := by
  induction ops generalizing err with
  | nil => exact fun passed => ⟨passed, fun _ member => absurd member List.not_mem_nil⟩
  | cons op ops ih =>
      apply guarded_bind _ _
        (msrbatchCheckOp_guarded pl op err lookups (passes op List.mem_cons_self))
      intro first checked
      apply guarded_bind _ _
        (ih first.2 fun op' member => passes op' (List.mem_cons_of_mem op member))
      intro rest rest_checked passed
      obtain ⟨first_passed, rest_good⟩ := rest_checked passed
      obtain ⟨start, first_good⟩ := checked first_passed
      exact ⟨start, List.forall_mem_cons.mpr ⟨first_good, rest_good⟩⟩

section Handlers

variable (executes : ∀ op, Good op → permitted (.batchOp op.cpu.toNat op) ∧
  ∀ op', known (.batchOp op.cpu.toNat op) op' → Good op')

include executes

theorem handlerStep_guarded (cpu : Nat) {h : Handlers} (good : ∀ op ∈ h.ops, Good op) :
    Guarded permitted known (fun h' : Handlers => ∀ op ∈ h'.ops, Good op) (handlerStep cpu h) := by
  rw [handlerStep]
  split
  · exact good
  · rename_i op found
    have now := executes op (good op (List.mem_of_getElem? found))
    split
    · exact good
    · rename_i here
      rw [not_not] at here
      rw [here] at now
      refine ⟨now.1, fun op' answer op'' member => ?_⟩
      rcases List.mem_or_eq_of_mem_set member with old | rfl
      · exact good op'' old
      · exact now.2 op'' answer

theorem runHandlers_guarded (pl : Platform) (mask : Nat → Bool) (schedule : List Nat)
    {h : Handlers} (good : ∀ op ∈ h.ops, Good op) :
    Guarded permitted known (fun h' : Handlers => ∀ op ∈ h'.ops, Good op)
      (runHandlers pl mask schedule h) := by
  induction schedule generalizing h with
  | nil => exact good
  | cons cpu schedule ih =>
      rw [runHandlers]
      split
      · exact guarded_bind _ _ (handlerStep_guarded executes cpu good) fun h' good' => ih good'
      · exact ih good

theorem msrbatchExecute_guarded (pl : Platform) (call : IoctlCall) {ops : List MsrBatchOp}
    {err : Int} (good : err = 0 → ∀ op ∈ ops, Good op) :
    Guarded permitted known (fun _ => True) (msrbatchExecute pl call ops err) := by
  rw [msrbatchExecute]
  split
  · trivial
  rename_i accepted
  rw [msrSafeBatch]
  split
  · trivial
  have dispatched : Guarded permitted known (fun _ => True)
      (onEachCpuMask pl (cpusToRunOn ops) call.schedule ops) :=
    guarded_bind _ _ (runHandlers_guarded executes pl _ _ (good (not_not.mp accepted)))
      fun _ _ => trivial
  exact guarded_bind _ _ dispatched fun _ _ => trivial

end Handlers

/-- An ioctl executes ops that its lookups have let through. -/
theorem msrbatchIoctl_guarded (Good : MsrBatchOp → Prop) (checked pl : Platform) (call : IoctlCall)
    (oa : MsrBatchArray)
    (lookups : ∀ reg, permitted (.maskexists reg) ∧ permitted (.writemask reg))
    (passes : ∀ op ∈ oa.ops, ∀ mask : Word, known (.maskexists (op.msr.setWidth 64)) true →
      known (.writemask (op.msr.setWidth 64)) mask → (op.isrdmsr = 0 → mask ≠ 0) →
        Good { op with err := 0, wmask := mask })
    (executes : ∀ op, Good op → permitted (.batchOp op.cpu.toNat op) ∧
      ∀ op', known (.batchOp op.cpu.toNat op) op' → Good op') :
    Guarded permitted known (fun _ => True) (msrbatchIoctl checked pl call oa) := by
  unfold msrbatchIoctl
  split; · trivial
  split; · trivial
  split; · trivial
  split; · trivial
  split; · trivial
  split; · trivial
  apply guarded_bind _ _ (msrbatchApplyAllowlist_guarded checked oa.ops 0 lookups passes)
  intro first passed
  apply guarded_bind _ _
    (msrbatchExecute_guarded executes pl call fun accepted => (passed accepted).2)
  exact fun _ _ => trivial

end MsrSafe
