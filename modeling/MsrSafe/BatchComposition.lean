import MsrSafe.AccessPaths
import MsrSafe.Lib.Lanes

/-! Batches made of other batches: cut in two, put together, and with the ops of
different processors in another order. -/

namespace MsrSafe

open Interleave Lanes

def MsrBatchOp.processor (op : MsrBatchOp) : Nat := op.cpu.toNat

theorem executeOp_processor (pl : Platform) (op : MsrBatchOp) (own : CpuRegs) :
    (executeOp pl op own).1.processor = op.processor := by
  have fixed := congrArg MsrBatchOp.cpu (executeOp_fixed pl op own)
  exact congrArg BitVec.toNat fixed

theorem executeOps_lanes (pl : Platform) (ops : List MsrBatchOp) (regs : Nat → CpuRegs) :
    executeOps pl (fun _ => true) ops regs =
      exec MsrBatchOp.processor (executeOp pl) ops regs := by
  induction ops generalizing regs with
  | nil => rfl
  | cons op ops ih =>
      rw [executeOps, if_pos rfl, exec, ← ih]
      rfl

section Refused

variable {allow : AllowMap} {pl : Platform} {ops : List MsrBatchOp}

theorem refused_iff : (ops.filterMap (refusal allow pl)).getLast? = none ↔
    ∀ op ∈ ops, refusal allow pl op = none := by
  rw [List.getLast?_eq_none_iff, List.filterMap_eq_nil_iff]

end Refused

section Ioctl

variable (allow : AllowMap) (pl : Platform) {call call' : IoctlCall}

theorem run_accepted (succeeds : call.Succeeds) (oa : MsrBatchArray) (some_op : oa.ops ≠ [])
    (accepted : ∀ op ∈ oa.ops, refusal allow pl op = none) (m : Machine) :
    let executed := exec MsrBatchOp.processor (executeOp pl) (oa.ops.map (checkedOp allow pl)) m.regs
    let result := run (kernel allow pl) (msrbatchIoctl pl pl call oa) m
    result.1 = (firstError executed.1, some executed.1) ∧ result.2.regs = executed.2 := by
  have result := run_msrbatchIoctl allow pl succeeds some_op m
  dsimp only at result ⊢
  rw [refused_iff.mpr accepted, executeOps_lanes] at result
  exact result

/-- Two batches that give each processor the same ops in the same order return
the same ops of each processor, fail together and leave the same registers,
however the ops of different processors are mixed and in whatever order the
handlers run. -/
theorem batch_order_between_processors (succeeds : call.Succeeds) (succeeds' : call'.Succeeds)
    {oa oa' : MsrBatchArray} (some_op : oa.ops ≠ [])
    (same : SameLanes MsrBatchOp.processor oa.ops oa'.ops) (m : Machine) :
    let result := run (kernel allow pl) (msrbatchIoctl pl pl call oa) m
    let result' := run (kernel allow pl) (msrbatchIoctl pl pl call' oa') m
    ∃ ret out ret' out', result.1 = (ret, some out) ∧ result'.1 = (ret', some out') ∧
      SameLanes MsrBatchOp.processor out out' ∧ (ret = 0 ↔ ret' = 0) ∧
      result.2.regs = result'.2.regs := by
  intro result result'
  have some_op' : oa'.ops ≠ [] := by
    obtain ⟨op, member⟩ := List.exists_mem_of_ne_nil _ some_op
    exact List.ne_nil_of_mem ((same.mem_iff op).mp member)
  have checked : SameLanes MsrBatchOp.processor (oa.ops.map (checkedOp allow pl))
      (oa'.ops.map (checkedOp allow pl)) := same.map fun _ => rfl
  by_cases accepted : ∀ op ∈ oa.ops, refusal allow pl op = none
  · have accepted' : ∀ op ∈ oa'.ops, refusal allow pl op = none :=
      fun op member => accepted op ((same.mem_iff op).mpr member)
    obtain ⟨answer, regs⟩ := run_accepted allow pl succeeds oa some_op accepted m
    obtain ⟨answer', regs'⟩ := run_accepted allow pl succeeds' oa' some_op' accepted' m
    obtain ⟨outs, states⟩ := exec_sameLanes (executeOp_processor pl) checked m.regs
    refine ⟨_, _, _, _, answer, answer', outs, ?_, ?_⟩
    · rw [firstError_eq_zero, firstError_eq_zero]
      exact forall_congr' fun op => imp_congr_left (outs.mem_iff op)
    · exact regs.trans (states.trans regs'.symm)
  · obtain ⟨op, member, refused⟩ := not_forall₂.mp accepted
    obtain ⟨err, last⟩ := getLast?_refused ⟨op, member, refused⟩
    obtain ⟨err', last'⟩ := getLast?_refused ⟨op, (same.mem_iff op).mp member, refused⟩
    have stops := run_msrbatchIoctl allow pl succeeds some_op m
    have stops' := run_msrbatchIoctl allow pl succeeds' some_op' m
    rw [last] at stops
    rw [last'] at stops'
    have answers : result = _ := stops
    have answers' : result' = _ := stops'
    rw [answers, answers']
    exact ⟨_, _, _, _, rfl, rfl, checked,
      iff_of_false err.ret_ne_zero err'.ret_ne_zero, rfl⟩

end Ioctl

theorem batch_order_between_processors_three_ops :
    let pl : Platform := ⟨2, fun _ => true, fun _ _ _ => false, fun _ _ _ _ => false⟩
    let write : MsrBatchOp := ⟨0, 0, 0, 16, 0x1234, 0⟩
    let read : MsrBatchOp := ⟨0, 1, 0, 16, 0, 0⟩
    let other : MsrBatchOp := ⟨1, 1, 0, 16, 0, 0⟩
    let m : Machine := ⟨fun _ _ => 0x5600, []⟩
    let result := run (kernel lowByte16 pl)
      (msrbatchIoctl pl pl plainIoctl ⟨0, [write, other, read]⟩) m
    let result' := run (kernel lowByte16 pl)
      (msrbatchIoctl pl pl plainIoctl ⟨0, [other, write, read]⟩) m
    result.2.regs 0 16 = 0x5634 ∧ result.2.regs = result'.2.regs := by
  intro pl write read other m result result'
  obtain ⟨ret, out, ret', out', -, -, -, -, regs⟩ := batch_order_between_processors lowByte16 pl
    plainIoctl_succeeds plainIoctl_succeeds
    (show (⟨0, [write, other, read]⟩ : MsrBatchArray).ops ≠ [] by decide)
    (show SameLanes _ _ (⟨0, [other, write, read]⟩ : MsrBatchArray).ops from
      sameLanes_swap (show write.processor ≠ other.processor by decide) [] [read]) m
  exact ⟨by decide +kernel, regs⟩

end MsrSafe
