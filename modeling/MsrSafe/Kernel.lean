import MsrSafe.Lib.Interleave

/-! What the driver code stands on: error numbers, the processors with their
registers and faults, and the atomic actions through which msr_safe and
msr_batch reach the allowlist and the registers. -/

namespace MsrSafe

open Interleave

abbrev Word := BitVec 64
abbrev Addr := BitVec 32

inductive Errno where
  | eio | enxio | e2big | ebadf | enomem | eacces | efault | einval | enotty
  | erofs | erange | enomsg | enotuniq | eilseq
  deriving DecidableEq, Repr

namespace Errno

def number : Errno → Int
  | eio => 5
  | enxio => 6
  | e2big => 7
  | ebadf => 9
  | enomem => 12
  | eacces => 13
  | efault => 14
  | einval => 22
  | enotty => 25
  | erofs => 30
  | erange => 34
  | enomsg => 42
  | enotuniq => 76
  | eilseq => 84

def ret (e : Errno) : Int := -e.number

@[simp] theorem ret_ne_zero (e : Errno) : e.ret ≠ 0 := by cases e <;> decide

theorem ret_injective : Function.Injective ret := by
  intro left right same
  cases left <;> cases right <;> first | rfl | exact absurd same (by decide)

@[simp] theorem ret_inj {left right : Errno} : left.ret = right.ret ↔ left = right :=
  ret_injective.eq_iff

end Errno

/-- An allowlist as its users see it: the write mask of each listed address. -/
abbrev AllowMap := Word → Option Word

namespace AllowMap

def maskexists (allow : AllowMap) (reg : Word) : Bool := (allow reg).isSome

def writemask (allow : AllowMap) (reg : Word) : Word := (allow reg).getD 0

theorem maskexists_of_writemask {allow : AllowMap} {reg : Word}
    (nonzero : allow.writemask reg ≠ 0) : allow.maskexists reg = true := by
  cases found : allow reg with
  | none => exact absurd (by simp [writemask, found]) nonzero
  | some mask => simp [maskexists, found]

theorem writemask_of_not_maskexists {allow : AllowMap} {reg : Word}
    (absent : allow.maskexists reg = false) : allow.writemask reg = 0 := by
  by_contra nonzero
  rw [maskexists_of_writemask nonzero] at absent
  cases absent

end AllowMap

/-- `struct msr_batch_op`; `err` holds any value the caller left in it. -/
structure MsrBatchOp where
  cpu : BitVec 16
  isrdmsr : BitVec 16
  err : Int
  msr : Addr
  msrdata : Word
  wmask : Word
  deriving DecidableEq, Repr

abbrev CpuRegs := Addr → Word

/-- The processors: which are online, and on which register contents,
address and value rdmsr and wrmsr raise a fault. -/
structure Platform where
  nrCpuIds : Nat
  cpuOnline : Nat → Bool
  rdFault : Nat → CpuRegs → Addr → Bool
  wrFault : Nat → CpuRegs → Addr → Word → Bool

def Platform.online (pl : Platform) (cpu : Nat) : Bool :=
  decide (cpu < pl.nrCpuIds) && pl.cpuOnline cpu

inductive Access where
  | rdmsr (cpu : Nat) (reg : Addr)
  | wrmsr (cpu : Nat) (reg : Addr) (value : Word)
  deriving DecidableEq, Repr

structure Machine where
  regs : Nat → CpuRegs
  log : List Access

namespace Machine

def issue (m : Machine) (access : Access) : Machine := { m with log := m.log ++ [access] }

def setReg (m : Machine) (cpu : Nat) (reg : Addr) (value : Word) : Machine :=
  { m with regs := Function.update m.regs cpu (Function.update (m.regs cpu) reg value) }

@[simp] theorem issue_regs (m : Machine) (access : Access) : (m.issue access).regs = m.regs := rfl

@[simp] theorem issue_log (m : Machine) (access : Access) :
    (m.issue access).log = m.log ++ [access] := rfl

theorem setReg_regs (m : Machine) (cpu : Nat) (reg : Addr) (value : Word)
    (cpu' : Nat) (reg' : Addr) :
    (m.setReg cpu reg value).regs cpu' reg' =
      if cpu' = cpu ∧ reg' = reg then value else m.regs cpu' reg' := by
  unfold setReg
  by_cases atCpu : cpu' = cpu
  · subst atCpu
    by_cases atReg : reg' = reg <;> simp [atReg]
  · simp [atCpu]

/-- `rdmsr_safe` on processor `cpu`; `none` is a fault. -/
def rdmsrSafe (pl : Platform) (cpu : Nat) (reg : Addr) (m : Machine) : Option Word × Machine :=
  (if pl.rdFault cpu (m.regs cpu) reg then none else some (m.regs cpu reg),
    m.issue (.rdmsr cpu reg))

/-- `wrmsr_safe` on processor `cpu`; `true` is a fault. -/
def wrmsrSafe (pl : Platform) (cpu : Nat) (reg : Addr) (value : Word) (m : Machine) :
    Bool × Machine :=
  if pl.wrFault cpu (m.regs cpu) reg value then (true, m.issue (.wrmsr cpu reg value))
  else (false, (m.issue (.wrmsr cpu reg value)).setReg cpu reg value)

end Machine

/-- `rdmsr_safe_on_cpu`: the instruction runs on processor `cpu`, if that is online. -/
def rdmsrSafeOnCpu (pl : Platform) (cpu : Nat) (reg : Addr) (m : Machine) :
    Except Errno Word × Machine :=
  if pl.online cpu then
    match m.rdmsrSafe pl cpu reg with
    | (some value, m) => (.ok value, m)
    | (none, m) => (.error .eio, m)
  else (.error .enxio, m)

def wrmsrSafeOnCpu (pl : Platform) (cpu : Nat) (reg : Addr) (value : Word) (m : Machine) :
    Except Errno Unit × Machine :=
  if pl.online cpu then
    match m.wrmsrSafe pl cpu reg value with
    | (false, m) => (.ok (), m)
    | (true, m) => (.error .eio, m)
  else (.error .enxio, m)

/-- The body of the loop of `__msr_safe_batch` for one of the processor's own ops. -/
def safeBatchOp (pl : Platform) (cpu : Nat) (op : MsrBatchOp) (m : Machine) :
    MsrBatchOp × Machine :=
  let op := { op with err := 0 }
  match m.rdmsrSafe pl cpu op.msr with
  | (none, m) => ({ op with err := Errno.eio.ret }, m)
  | (some oldmsr, m) =>
    if op.isrdmsr ≠ 0 then ({ op with msrdata := oldmsr }, m)
    else
      let newmsr := op.msrdata &&& op.wmask
      let newmsr := newmsr ||| (oldmsr &&& ~~~op.wmask)
      match m.wrmsrSafe pl cpu op.msr newmsr with
      | (true, m) => ({ op with err := Errno.eio.ret }, m)
      | (false, m) => (op, m)

theorem safeBatchOp_keeps (pl : Platform) (cpu : Nat) (op : MsrBatchOp) (m : Machine) :
    (safeBatchOp pl cpu op m).1.cpu = op.cpu ∧ (safeBatchOp pl cpu op m).1.msr = op.msr ∧
      (safeBatchOp pl cpu op m).1.isrdmsr = op.isrdmsr ∧
      (safeBatchOp pl cpu op m).1.wmask = op.wmask := by
  unfold safeBatchOp
  dsimp only
  split
  · exact ⟨rfl, rfl, rfl, rfl⟩
  · split
    · exact ⟨rfl, rfl, rfl, rfl⟩
    · split <;> exact ⟨rfl, rfl, rfl, rfl⟩

/-- What a system call does atomically: a lookup under the allowlist mutex, an
instruction on some processor, or one op of a batch on the op's processor. -/
inductive MsrAction where
  | maskexists (reg : Word)
  | writemask (reg : Word)
  | rdmsr (cpu : Nat) (reg : Addr)
  | wrmsr (cpu : Nat) (reg : Addr) (value : Word)
  | batchOp (cpu : Nat) (op : MsrBatchOp)

@[reducible] def MsrAction.Answer : MsrAction → Type
  | .maskexists _ => Bool
  | .writemask _ => Word
  | .rdmsr _ _ => Except Errno Word
  | .wrmsr _ _ _ => Except Errno Unit
  | .batchOp _ _ => MsrBatchOp

abbrev Msr : Interface := ⟨MsrAction, MsrAction.Answer⟩

def NoWrmsr : MsrAction → Prop
  | .wrmsr _ _ _ => False
  | _ => True

abbrev WithoutWrmsr {α : Type} (p : Prog Msr α) : Prop :=
  Guarded NoWrmsr (fun _ _ => True) (fun _ => True) p

theorem withoutWrmsr_bind {α β : Type} {p : Prog Msr α} {f : α → Prog Msr β}
    (first : WithoutWrmsr p) (rest : ∀ result, WithoutWrmsr (f result)) :
    WithoutWrmsr (p >>= f) := guarded_bind p f first fun result _ => rest result

def kernel (allow : AllowMap) (pl : Platform) : Handler Msr Machine
  | .maskexists reg, m => (allow.maskexists reg, m)
  | .writemask reg, m => (allow.writemask reg, m)
  | .rdmsr cpu reg, m => rdmsrSafeOnCpu pl cpu reg m
  | .wrmsr cpu reg value, m => wrmsrSafeOnCpu pl cpu reg value m
  | .batchOp cpu op, m => safeBatchOp pl cpu op m

section Run

variable {α : Type} (allow : AllowMap) (pl : Platform) (m : Machine)

@[simp] theorem run_maskexists (reg : Word) (next : Bool → Prog Msr α) :
    run (kernel allow pl) (.perform (.maskexists reg) next) m =
      run (kernel allow pl) (next (allow.maskexists reg)) m := rfl

@[simp] theorem run_writemask (reg : Word) (next : Word → Prog Msr α) :
    run (kernel allow pl) (.perform (.writemask reg) next) m =
      run (kernel allow pl) (next (allow.writemask reg)) m := rfl

@[simp] theorem actions_maskexists (reg : Word) (next : Bool → Prog Msr α) :
    actions (kernel allow pl) (.perform (.maskexists reg) next) m =
      .maskexists reg :: actions (kernel allow pl) (next (allow.maskexists reg)) m := rfl

@[simp] theorem actions_writemask (reg : Word) (next : Word → Prog Msr α) :
    actions (kernel allow pl) (.perform (.writemask reg) next) m =
      .writemask reg :: actions (kernel allow pl) (next (allow.writemask reg)) m := rfl

@[simp] theorem run_rdmsr (cpu : Nat) (reg : Addr) (next : Except Errno Word → Prog Msr α) :
    run (kernel allow pl) (.perform (.rdmsr cpu reg) next) m =
      run (kernel allow pl) (next (rdmsrSafeOnCpu pl cpu reg m).1)
        (rdmsrSafeOnCpu pl cpu reg m).2 := rfl

@[simp] theorem run_wrmsr (cpu : Nat) (reg : Addr) (value : Word)
    (next : Except Errno Unit → Prog Msr α) :
    run (kernel allow pl) (.perform (.wrmsr cpu reg value) next) m =
      run (kernel allow pl) (next (wrmsrSafeOnCpu pl cpu reg value m).1)
        (wrmsrSafeOnCpu pl cpu reg value m).2 := rfl

end Run

namespace Msr

def maskexists (reg : Word) : Prog Msr Bool := Prog.ask (I := Msr) (.maskexists reg)

def writemask (reg : Word) : Prog Msr Word := Prog.ask (I := Msr) (.writemask reg)

def rdmsr (cpu : Nat) (reg : Addr) : Prog Msr (Except Errno Word) :=
  Prog.ask (I := Msr) (.rdmsr cpu reg)

def wrmsr (cpu : Nat) (reg : Addr) (value : Word) : Prog Msr (Except Errno Unit) :=
  Prog.ask (I := Msr) (.wrmsr cpu reg value)

def batchOp (cpu : Nat) (op : MsrBatchOp) : Prog Msr MsrBatchOp :=
  Prog.ask (I := Msr) (.batchOp cpu op)

variable {α : Type}

@[simp] theorem maskexists_bind (reg : Word) (f : Bool → Prog Msr α) :
    (maskexists reg >>= f) = .perform (.maskexists reg) f := rfl

@[simp] theorem writemask_bind (reg : Word) (f : Word → Prog Msr α) :
    (writemask reg >>= f) = .perform (.writemask reg) f := rfl

@[simp] theorem batchOp_bind (cpu : Nat) (op : MsrBatchOp) (f : MsrBatchOp → Prog Msr α) :
    (batchOp cpu op >>= f) = .perform (.batchOp cpu op) f := rfl

end Msr

end MsrSafe
