import MsrSafe.Entry
import MsrSafe.BatchGuard

/-! Mediation of register access: whatever system calls any number of clients
make, interleaved in any way, no register is touched outside the allowlist. -/

namespace MsrSafe

open Interleave

inductive SystemCall where
  | read (cpu : Nat) (ppos : BitVec 64) (count : Nat) (copied : Bool)
  | write (cpu : Nat) (ppos : BitVec 64) (count : Nat) (copied : Bool) (data : Word)
  | ioctl (checked pl : Platform) (call : IoctlCall) (oa : MsrBatchArray)

inductive SystemReturn where
  | read (result : Except Errno Word)
  | write (result : Except Errno Unit)
  | ioctl (result : Int × Option (List MsrBatchOp))

def SystemCall.prog : SystemCall → Prog Msr SystemReturn
  | .read cpu ppos count copied => do return .read (← msrRead cpu ppos count copied)
  | .write cpu ppos count copied data => do return .write (← msrWrite cpu ppos count copied data)
  | .ioctl checked pl call oa => do return .ioctl (← msrbatchIoctl checked pl call oa)

/-- The kernel under one allowlist. Which processors are online and which
accesses fault may be different at every action. -/
def hardware (ι : Type) (allow : AllowMap) : Semantics ι Msr Machine :=
  fun _ m action answer m' => ∃ pl, kernel allow pl action m = (answer, m')

section Mediation

variable (allow : AllowMap) (regs₀ : Nat → CpuRegs)

def maskOf (reg : Addr) : Word := allow.writemask (reg.setWidth 64)

def Listed (reg : Addr) : Prop := allow.maskexists (reg.setWidth 64) = true

def OpAllowed (op : MsrBatchOp) : Prop :=
  Listed allow op.msr ∧
    (op.isrdmsr = 0 → op.wmask = maskOf allow op.msr ∧ maskOf allow op.msr ≠ 0)

def Permitted : MsrAction → Prop
  | .maskexists _ => True
  | .writemask _ => True
  | .rdmsr _ reg => Listed allow reg
  | .wrmsr cpu reg value =>
      maskOf allow reg ≠ 0 ∧ Mask.AgreeOff (maskOf allow reg) value (regs₀ cpu reg)
  | .batchOp _ op => OpAllowed allow op

def Known : (action : MsrAction) → action.Answer → Prop
  | .maskexists reg, listed => listed = allow.maskexists reg
  | .writemask reg, mask => mask = allow.writemask reg
  | .rdmsr cpu reg, answer => ∀ value, answer = .ok value →
      Mask.AgreeOff (maskOf allow reg) value (regs₀ cpu reg)
  | .wrmsr _ _ _, _ => True
  | .batchOp _ op, op' => OpAllowed allow op → OpAllowed allow op'

def AccessAllowed : Access → Prop
  | .rdmsr _ reg => Listed allow reg
  | .wrmsr _ reg _ => Listed allow reg ∧ maskOf allow reg ≠ 0

structure Protected (m : Machine) : Prop where
  log : ∀ access ∈ m.log, AccessAllowed allow access
  regs : ∀ cpu reg, Mask.AgreeOff (maskOf allow reg) (m.regs cpu reg) (regs₀ cpu reg)

variable {allow regs₀}

theorem listed_of_maskOf {reg : Addr} (nonzero : maskOf allow reg ≠ 0) : Listed allow reg :=
  AllowMap.maskexists_of_writemask nonzero

theorem protected_issue {m : Machine} (access : Access) (safe : Protected allow regs₀ m)
    (allowed : AccessAllowed allow access) : Protected allow regs₀ (m.issue access) := by
  refine ⟨?_, safe.regs⟩
  intro other member
  rw [Machine.issue_log, List.mem_append, List.mem_singleton] at member
  rcases member with old | rfl
  · exact safe.log other old
  · exact allowed

theorem protected_setReg {m : Machine} (cpu : Nat) (reg : Addr) (value : Word)
    (safe : Protected allow regs₀ m)
    (agree : Mask.AgreeOff (maskOf allow reg) value (regs₀ cpu reg)) :
    Protected allow regs₀ (m.setReg cpu reg value) := by
  refine ⟨safe.log, ?_⟩
  intro cpu' reg'
  rw [Machine.setReg_regs]
  split
  · rename_i same
    rw [same.1, same.2]
    exact agree
  · exact safe.regs cpu' reg'

theorem protected_rdmsrSafe {m : Machine} (pl : Platform) (cpu : Nat) (reg : Addr)
    (safe : Protected allow regs₀ m) (listed : Listed allow reg) :
    Protected allow regs₀ (m.rdmsrSafe pl cpu reg).2 ∧
      ∀ value, (m.rdmsrSafe pl cpu reg).1 = some value → value = m.regs cpu reg := by
  refine ⟨protected_issue _ safe listed, ?_⟩
  intro value answer
  simp only [Machine.rdmsrSafe] at answer
  split at answer
  · cases answer
  · exact (Option.some.inj answer).symm

theorem protected_wrmsrSafe {m : Machine} (pl : Platform) (cpu : Nat) (reg : Addr) (value : Word)
    (safe : Protected allow regs₀ m) (nonzero : maskOf allow reg ≠ 0)
    (agree : Mask.AgreeOff (maskOf allow reg) value (regs₀ cpu reg)) :
    Protected allow regs₀ (m.wrmsrSafe pl cpu reg value).2 := by
  have issued := protected_issue (.wrmsr cpu reg value) safe ⟨listed_of_maskOf nonzero, nonzero⟩
  unfold Machine.wrmsrSafe
  split
  · exact issued
  · exact protected_setReg cpu reg value issued agree

theorem protected_safeBatchOp {m : Machine} (pl : Platform) (cpu : Nat) (op : MsrBatchOp)
    (safe : Protected allow regs₀ m) (allowed : OpAllowed allow op) :
    Protected allow regs₀ (safeBatchOp pl cpu op m).2 := by
  have read := protected_rdmsrSafe pl cpu op.msr safe allowed.1
  unfold safeBatchOp
  dsimp only
  split
  · rename_i m' answer
    rw [answer] at read
    exact read.1
  · rename_i oldmsr m' answer
    rw [answer] at read
    have old : oldmsr = m.regs cpu op.msr := read.2 oldmsr rfl
    split
    · exact read.1
    · rename_i write
      obtain ⟨wmask, nonzero⟩ := allowed.2 (not_not.mp write)
      have agree : Mask.AgreeOff (maskOf allow op.msr)
          (Mask.merge op.wmask oldmsr op.msrdata) (regs₀ cpu op.msr) := by
        rw [wmask]
        exact (Mask.merge_agreeOff _ _ _).trans (old ▸ safe.regs cpu op.msr)
      have written := protected_wrmsrSafe pl cpu op.msr _ read.1 nonzero agree
      unfold Mask.merge at written
      split <;> rename_i answer' <;> rw [answer'] at written <;> exact written

/-- The step lemma: a permitted action keeps the machine protected and answers
only what is known of it. -/
theorem kernel_protected (pl : Platform) (action : MsrAction) (m : Machine)
    (safe : Protected allow regs₀ m) (permitted : Permitted allow regs₀ action) :
    Protected allow regs₀ (kernel allow pl action m).2 ∧
      Known allow regs₀ action (kernel allow pl action m).1 := by
  cases action with
  | maskexists reg => exact ⟨safe, rfl⟩
  | writemask reg => exact ⟨safe, rfl⟩
  | rdmsr cpu reg =>
      have read := protected_rdmsrSafe pl cpu reg safe permitted
      simp only [kernel, rdmsrSafeOnCpu]
      split
      · split
        · rename_i value m' answer
          rw [answer] at read
          refine ⟨read.1, ?_⟩
          intro value' same
          cases same
          rw [read.2 value rfl]
          exact safe.regs cpu reg
        · rename_i m' answer
          rw [answer] at read
          refine ⟨read.1, ?_⟩
          intro value same
          cases same
      · refine ⟨safe, ?_⟩
        intro value same
        cases same
  | wrmsr cpu reg value =>
      have written := protected_wrmsrSafe pl cpu reg value safe permitted.1 permitted.2
      simp only [kernel, wrmsrSafeOnCpu]
      refine ⟨?_, trivial⟩
      split
      · split <;> rename_i answer <;> rw [answer] at written <;> exact written
      · exact safe
  | batchOp cpu op =>
      refine ⟨protected_safeBatchOp pl cpu op safe permitted, ?_⟩
      intro allowed
      obtain ⟨-, msr, isrdmsr, wmask⟩ := safeBatchOp_keeps pl cpu op m
      simp only [kernel, OpAllowed, msr, isrdmsr, wmask]
      exact allowed

theorem guarded_msrRead (cpu : Nat) (ppos : BitVec 64) (count : Nat) (copied : Bool) :
    Guarded (Permitted allow regs₀) (Known allow regs₀) (fun _ => True)
      (msrRead cpu ppos count copied) := by
  apply msrRead_guarded cpu ppos count copied trivial
  intro listed known passed
  have same : listed = allow.maskexists ((ppos.setWidth 32).setWidth 64) := known
  exact same.symm.trans passed

theorem guarded_msrWrite (cpu : Nat) (ppos : BitVec 64) (count : Nat) (copied : Bool)
    (data : Word) :
    Guarded (Permitted allow regs₀) (Known allow regs₀) (fun _ => True)
      (msrWrite cpu ppos count copied data) := by
  have found : ∀ mask, Known allow regs₀ (.writemask ((ppos.setWidth 32).setWidth 64)) mask →
      mask = maskOf allow (ppos.setWidth 32) := fun _ known => known
  apply msrWrite_guarded cpu ppos count copied data trivial
  · intro mask known nonzero
    rw [found mask known] at nonzero
    exact listed_of_maskOf nonzero
  · intro mask curdata known nonzero read
    rw [found mask known] at nonzero ⊢
    -- the current value may be stale, but its protected bits are the initial ones
    exact ⟨nonzero, (Mask.merge_agreeOff _ curdata data).trans (read curdata rfl)⟩
  · intro mask known full
    have whole := (found mask known).symm.trans full
    refine ⟨?_, ?_⟩
    · rw [whole]
      decide
    · rw [whole]
      exact Mask.agreeOff_allOnes _ _

theorem guarded_msrbatchIoctl (checked pl : Platform) (call : IoctlCall) (oa : MsrBatchArray) :
    Guarded (Permitted allow regs₀) (Known allow regs₀) (fun _ => True)
      (msrbatchIoctl checked pl call oa) := by
  apply msrbatchIoctl_guarded (OpAllowed allow) checked pl call oa
  · exact fun reg => ⟨trivial, trivial⟩
  · intro op _ mask found mask_known writable
    have listed : Listed allow op.msr := Eq.symm found
    have same : mask = maskOf allow op.msr := mask_known
    exact ⟨listed, fun write => ⟨same, same ▸ writable write⟩⟩
  · exact fun op allowed => ⟨allowed, fun op' answer => answer allowed⟩

theorem guarded_systemCall (call : SystemCall) :
    Guarded (Permitted allow regs₀) (Known allow regs₀) (fun _ => True) call.prog := by
  cases call with
  | read cpu ppos count copied =>
      exact guarded_bind _ _ (guarded_msrRead cpu ppos count copied) (fun _ _ => trivial)
  | write cpu ppos count copied data =>
      exact guarded_bind _ _ (guarded_msrWrite cpu ppos count copied data) (fun _ _ => trivial)
  | ioctl checked pl call oa =>
      exact guarded_bind _ _ (guarded_msrbatchIoctl checked pl call oa) (fun _ _ => trivial)

end Mediation

theorem systemCall_alone {ι : Type} [DecidableEq ι] (allow : AllowMap) (pl : Platform)
    (client : ι) (call : SystemCall) (m : Machine) (clients : ι → Prog Msr SystemReturn)
    {last : SystemReturn} (idle : clients client = .done last) :
    Steps (hardware ι allow) (Set.range SystemCall.prog) (m, clients)
      ((run (kernel allow pl) call.prog m).2,
        Function.update clients client (.done (run (kernel allow pl) call.prog m).1)) := by
  have start : Step (hardware ι allow) (Set.range SystemCall.prog) (m, clients)
      (m, Function.update clients client call.prog) :=
    .call client last call.prog idle ⟨call, rfl⟩
  have finish : Steps (handled fun _ => kernel allow pl) ∅ _ _ :=
    thread_finishes client call.prog m (Function.update clients client call.prog) (by simp)
  rw [Function.update_idem] at finish
  refine .head start (steps_mono finish ?_ (Set.empty_subset _))
  intro thread s action answer s' moved
  exact ⟨pl, moved⟩

/-- The run lemma: every state that interleaved system calls reach is protected. -/
theorem steps_protected {ι : Type} [DecidableEq ι] (allow : AllowMap) (regs₀ : Nat → CpuRegs)
    (idle : ι → SystemReturn) {m : Machine} {clients : ι → Prog Msr SystemReturn}
    (steps : Steps (hardware ι allow) (Set.range SystemCall.prog)
      (⟨regs₀, []⟩, fun client => .done (idle client)) (m, clients)) :
    Protected allow regs₀ m := by
  have initial : Protected allow regs₀ ⟨regs₀, []⟩ := by
    refine ⟨?_, fun cpu reg => Mask.agreeOff_refl _ _⟩
    intro access member
    cases member
  have guarded : ∀ client, Guarded (Permitted allow regs₀) (Known allow regs₀) (fun _ => True)
      (Prog.done (idle client) : Prog Msr SystemReturn) := fun _ => trivial
  refine (steps_guarded (Protected allow regs₀) ?_ ?_ steps initial guarded).1
  · rintro client m action answer m' safe permitted ⟨pl, moved⟩
    have kept := kernel_protected pl action m safe permitted
    rw [moved] at kept
    exact kept
  · rintro p ⟨call, rfl⟩
    exact guarded_systemCall call

/-- Whatever the clients do, rdmsr and wrmsr reach listed registers only, wrmsr
only those with a writable bit, and bits outside the masks keep their values. -/
theorem mediation {ι : Type} [DecidableEq ι] (allow : AllowMap) (regs₀ : Nat → CpuRegs)
    (idle : ι → SystemReturn) {m : Machine} {clients : ι → Prog Msr SystemReturn}
    (steps : Steps (hardware ι allow) (Set.range SystemCall.prog)
      (⟨regs₀, []⟩, fun client => .done (idle client)) (m, clients)) :
    (∀ cpu reg, Access.rdmsr cpu reg ∈ m.log → allow.maskexists (reg.setWidth 64) = true) ∧
    (∀ cpu reg value, Access.wrmsr cpu reg value ∈ m.log →
      allow.maskexists (reg.setWidth 64) = true ∧ allow.writemask (reg.setWidth 64) ≠ 0) ∧
    (∀ cpu reg, m.regs cpu reg &&& ~~~allow.writemask (reg.setWidth 64) =
      regs₀ cpu reg &&& ~~~allow.writemask (reg.setWidth 64)) ∧
    (∀ cpu reg, allow.maskexists (reg.setWidth 64) = false → m.regs cpu reg = regs₀ cpu reg) := by
  have safe := steps_protected allow regs₀ idle steps
  refine ⟨?_, ?_, safe.regs, ?_⟩
  · intro cpu reg member
    exact safe.log _ member
  · intro cpu reg value member
    exact safe.log _ member
  · intro cpu reg unlisted
    have agree := safe.regs cpu reg
    rw [maskOf, AllowMap.writemask_of_not_maskexists unlisted] at agree
    exact Mask.eq_of_agreeOff_zero agree

theorem mediation_low_byte :
    let allow : AllowMap := fun reg => if reg = 0x10 then some 0xFF else none
    let pl : Platform := ⟨1, fun _ => true, fun _ _ _ => false, fun _ _ _ _ => false⟩
    let call : SystemCall := .write 0 0x10 8 true 0xAB34
    let m := (run (kernel allow pl) call.prog ⟨fun _ _ => 0x1200, []⟩).2
    m.log = [.rdmsr 0 0x10, .wrmsr 0 0x10 0x1234] ∧
    (∀ cpu reg, Access.rdmsr cpu reg ∈ m.log → allow.maskexists (reg.setWidth 64) = true) ∧
    (∀ cpu reg, m.regs cpu reg &&& ~~~allow.writemask (reg.setWidth 64) =
      0x1200 &&& ~~~allow.writemask (reg.setWidth 64)) := by
  intro allow pl call m
  have steps := systemCall_alone allow pl () call ⟨fun _ _ => 0x1200, []⟩
    (fun _ => .done (.read (.error .einval))) rfl
  have safe := mediation allow (fun _ _ => 0x1200) (fun _ => .read (.error .einval)) steps
  exact ⟨by decide +kernel, safe.1, safe.2.2.1⟩

end MsrSafe
