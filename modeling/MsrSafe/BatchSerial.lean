import MsrSafe.AccessPaths

/-! A batch beside the same accesses made one after the other through the
msr_safe files of the processors. -/

namespace MsrSafe

open Interleave

def MsrBatchOp.answer (op : MsrBatchOp) : Int × Word := (op.err, op.msrdata)

section Serial

variable (allow : AllowMap) (pl : Platform)

/-- A write that is let through whole, of a register that can be written and not read. -/
def BlindWrite (op : MsrBatchOp) (own : CpuRegs) : Prop :=
  op.isrdmsr = 0 ∧ allow.writemask (op.msr.setWidth 64) = 0xffffffffffffffff ∧
    pl.rdFault op.cpu.toNat own op.msr = true ∧
    pl.wrFault op.cpu.toNat own op.msr op.msrdata = false

instance (op : MsrBatchOp) (own : CpuRegs) : Decidable (BlindWrite allow pl op own) :=
  inferInstanceAs (Decidable (_ ∧ _))

def afterOp (op : MsrBatchOp) (regs : Nat → CpuRegs) : Nat → CpuRegs :=
  Function.update regs op.cpu.toNat (executeOp pl (checkedOp allow pl op) (regs op.cpu.toNat)).2

def NoBlindWrites : List MsrBatchOp → (Nat → CpuRegs) → Prop
  | [], _ => True
  | op :: ops, regs =>
    ¬BlindWrite allow pl op (regs op.cpu.toNat) ∧ NoBlindWrites ops (afterOp allow pl op regs)

instance decidableNoBlindWrites :
    (ops : List MsrBatchOp) → (regs : Nat → CpuRegs) → Decidable (NoBlindWrites allow pl ops regs)
  | [], _ => inferInstanceAs (Decidable True)
  | op :: ops, regs =>
    have := decidableNoBlindWrites ops (afterOp allow pl op regs)
    inferInstanceAs (Decidable (_ ∧ _))

variable {allow pl} {op : MsrBatchOp}

end Serial

end MsrSafe
