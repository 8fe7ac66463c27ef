import MsrSafe.BatchCheck
import MsrSafe.Entry

/-! The two ways to a register, a read or write of the msr_safe file and a
batch of one op: where they succeed together and where they do not. -/

namespace MsrSafe

open Interleave

theorem firstError_singleton (op : MsrBatchOp) : firstError [op] = op.err := by
  by_cases passed : op.err = 0 <;> simp [firstError, passed]

theorem run_oneOp (allow : AllowMap) (pl : Platform) {call : IoctlCall} (succeeds : call.Succeeds)
    (version : BitVec 32) (op : MsrBatchOp) (m : Machine) :
    let result := run (kernel allow pl) (msrbatchIoctl pl pl call ⟨version, [op]⟩) m
    let executed := executeOp pl (checkedOp allow pl op) (m.regs op.cpu.toNat)
    match refusal allow pl op with
    | some err => result = ((err.ret, some [checkedOp allow pl op]), m)
    | none =>
      result.1 = (executed.1.err, some [executed.1]) ∧
        result.2.regs = Function.update m.regs op.cpu.toNat executed.2 := by
  have batch := run_msrbatchIoctl allow pl succeeds
    (show (⟨version, [op]⟩ : MsrBatchArray).ops ≠ [] by simp) m
  dsimp only at batch ⊢
  cases refused : refusal allow pl op with
  | some err =>
      rw [List.filterMap_cons_some refused] at batch
      exact batch
  | none =>
      rw [List.filterMap_cons_none refused] at batch
      obtain ⟨returned, regs⟩ := batch
      refine ⟨?_, regs⟩
      rw [returned]
      exact congrArg (·, _) (firstError_singleton _)

section OneOp

variable (allow : AllowMap) {pl : Platform} {call : IoctlCall} (version : BitVec 32)
  {op : MsrBatchOp} (m : Machine)

theorem run_readOp (succeeds : call.Succeeds) (online : pl.online op.cpu.toNat = true)
    (read : op.isrdmsr ≠ 0) :
    let result := run (kernel allow pl) (msrbatchIoctl pl pl call ⟨version, [op]⟩) m
    ∃ op', result.1.2 = some [op'] ∧ result.2.regs = m.regs ∧
      if allow.maskexists (op.msr.setWidth 64) = false then result.1.1 = Errno.eacces.ret
      else if pl.rdFault op.cpu.toNat (m.regs op.cpu.toNat) op.msr then
        result.1.1 = Errno.eio.ret
      else result.1.1 = 0 ∧ op'.msrdata = m.regs op.cpu.toNat op.msr := by
  have batch := run_oneOp allow pl succeeds version op m
  dsimp only at batch ⊢
  by_cases unlisted : allow.maskexists (op.msr.setWidth 64) = false
  · have refused : refusal allow pl op = some .eacces := by simp [refusal, online, unlisted]
    rw [refused] at batch
    refine ⟨_, congrArg (·.1.2) batch, congrArg (·.2.regs) batch, ?_⟩
    rw [if_pos unlisted]
    exact congrArg (·.1.1) batch
  have accepted : refusal allow pl op = none := by
    rw [refusal]
    rw [if_neg (by simp [online]), if_neg unlisted, if_neg fun readonly => read readonly.2]
  rw [accepted] at batch
  obtain ⟨returned, regs⟩ := batch
  refine ⟨_, congrArg Prod.snd returned, ?_⟩
  rw [if_neg unlisted, regs, returned]
  by_cases fault : pl.rdFault op.cpu.toNat (m.regs op.cpu.toNat) op.msr = true
  · have executed := executeOp_failed pl (checkedOp allow pl op) (m.regs op.cpu.toNat) (.inl fault)
    rw [executed, if_pos fault, Function.update_eq_self]
    exact ⟨rfl, rfl⟩
  · have executed := executeOp_read pl (checkedOp allow pl op) (m.regs op.cpu.toNat) fault read
    rw [executed, if_neg fault, Function.update_eq_self]
    exact ⟨rfl, rfl, rfl⟩

theorem run_writeOp (succeeds : call.Succeeds) (online : pl.online op.cpu.toNat = true)
    (write : op.isrdmsr = 0) :
    let mask := allow.writemask (op.msr.setWidth 64)
    let own := m.regs op.cpu.toNat
    let new := Mask.merge mask (own op.msr) op.msrdata
    let result := run (kernel allow pl) (msrbatchIoctl pl pl call ⟨version, [op]⟩) m
    (∃ out, result.1.2 = some out) ∧
      if mask = 0 then
        result.2 = m ∧ result.1.1 =
          (if allow.maskexists (op.msr.setWidth 64) then Errno.erofs else Errno.eacces).ret
      else if pl.rdFault op.cpu.toNat own op.msr = true ∨
          pl.wrFault op.cpu.toNat own op.msr new = true then
        result.1.1 = Errno.eio.ret ∧ result.2.regs = m.regs
      else
        result.1.1 = 0 ∧ result.2.regs =
          Function.update m.regs op.cpu.toNat (Function.update own op.msr new) := by
  have batch := run_oneOp allow pl succeeds version op m
  dsimp only at batch ⊢
  by_cases readonly : allow.writemask (op.msr.setWidth 64) = 0
  · have refused : refusal allow pl op =
        some (if allow.maskexists (op.msr.setWidth 64) then .erofs else .eacces) := by
      rw [refusal]
      cases allow.maskexists (op.msr.setWidth 64) <;> simp [online, readonly, write]
    rw [refused] at batch
    refine ⟨⟨_, congrArg (·.1.2) batch⟩, ?_⟩
    rw [if_pos readonly]
    exact ⟨congrArg (·.2) batch, congrArg (·.1.1) batch⟩
  have listed := AllowMap.maskexists_of_writemask readonly
  have accepted : refusal allow pl op = none := by
    rw [refusal]
    rw [if_neg (by simp [online]), if_neg (by simp [listed]), if_neg fun both => readonly both.1]
  have recorded : (checkedOp allow pl op).wmask = allow.writemask (op.msr.setWidth 64) := by
    simp [checkedOp, online, listed]
  rw [accepted] at batch
  obtain ⟨returned, regs⟩ := batch
  refine ⟨⟨_, congrArg Prod.snd returned⟩, ?_⟩
  rw [if_neg readonly, returned, regs]
  by_cases fails : pl.rdFault op.cpu.toNat (m.regs op.cpu.toNat) op.msr = true ∨
      pl.wrFault op.cpu.toNat (m.regs op.cpu.toNat) op.msr
        (Mask.merge (allow.writemask (op.msr.setWidth 64)) (m.regs op.cpu.toNat op.msr)
          op.msrdata) = true
  · have executed := executeOp_failed pl (checkedOp allow pl op) (m.regs op.cpu.toNat)
    rw [recorded] at executed
    have failed := executed (fails.imp_right fun unwritten => ⟨write, unwritten⟩)
    rw [if_pos fails, failed, Function.update_eq_self]
    exact ⟨rfl, rfl⟩
  · obtain ⟨readable, writable⟩ := not_or.mp fails
    have executed := executeOp_write pl (checkedOp allow pl op) (m.regs op.cpu.toNat) readable write
    rw [recorded] at executed
    rw [if_neg fails, executed writable]
    exact ⟨rfl, rfl⟩

end OneOp

/-- An `msr_read` of the op's register on its processor and a batch of this op:
one succeeds when the other does, with the same value, fails with the same
error, and the registers are the same afterwards. -/
def ReadsAgree (allow : AllowMap) (pl : Platform) (call : IoctlCall) (version : BitVec 32)
    (op : MsrBatchOp) (m : Machine) : Prop :=
  let single := run (kernel allow pl) (msrRead op.cpu.toNat (op.msr.setWidth 64) 8 true) m
  let batch := run (kernel allow pl) (msrbatchIoctl pl pl call ⟨version, [op]⟩) m
  (∀ value, single.1 = .ok value ↔ ∃ op', batch.1 = (0, some [op']) ∧ op'.msrdata = value) ∧
    (∀ err, single.1 = .error err ↔ batch.1.1 = err.ret) ∧ single.2.regs = batch.2.regs

/-- An `msr_write` of the op's data and a batch of this op: one succeeds when
the other does, the registers are the same afterwards, and a failure is the
same except that the batch has an error of its own for a read-only register. -/
def WritesAgree (allow : AllowMap) (pl : Platform) (call : IoctlCall) (version : BitVec 32)
    (op : MsrBatchOp) (m : Machine) : Prop :=
  let single := run (kernel allow pl)
    (msrWrite op.cpu.toNat (op.msr.setWidth 64) 8 true op.msrdata) m
  let batch := run (kernel allow pl) (msrbatchIoctl pl pl call ⟨version, [op]⟩) m
  (single.1 = .ok () ↔ ∃ out, batch.1 = (0, some out)) ∧
    (∀ err, single.1 = .error err → batch.1.1 = err.ret ∨
      allow (op.msr.setWidth 64) = some 0 ∧ err = .eacces ∧ batch.1.1 = Errno.erofs.ret) ∧
    single.2.regs = batch.2.regs

def PathsAgree (allow : AllowMap) (pl : Platform) (call : IoctlCall) (version : BitVec 32)
    (op : MsrBatchOp) (m : Machine) : Prop :=
  if op.isrdmsr ≠ 0 then ReadsAgree allow pl call version op m
  else WritesAgree allow pl call version op m

section Agree

variable (allow : AllowMap) {pl : Platform} {call : IoctlCall} (version : BitVec 32)
  {op : MsrBatchOp} (m : Machine)

theorem reads_agree (succeeds : call.Succeeds) (online : pl.online op.cpu.toNat = true)
    (read : op.isrdmsr ≠ 0) : ReadsAgree allow pl call version op m := by
  have same : (op.msr.setWidth 64).setWidth 32 = op.msr := by simp
  obtain ⟨single, single_regs⟩ := run_msrRead allow online (op.msr.setWidth 64) m
  rw [same] at single
  obtain ⟨op', out, batch_regs, batch⟩ := run_readOp allow version m succeeds online read
  unfold ReadsAgree
  dsimp only at batch ⊢
  rw [single, single_regs, batch_regs]
  generalize (run (kernel allow pl) (msrbatchIoctl pl pl call ⟨version, [op]⟩) m).1 = result at *
  obtain ⟨ret, array⟩ := result
  subst out
  split at batch
  · rename_i unlisted
    subst batch
    simp [if_pos unlisted]
  · rename_i listed
    rw [if_neg listed]
    split at batch
    · rename_i fault
      subst batch
      simp [if_pos fault]
    · rename_i readable
      obtain ⟨rfl, value⟩ := batch
      rw [if_neg readable]
      refine ⟨by simp [value], fun err => ?_, rfl⟩
      exact iff_of_false (by simp) (Errno.ret_ne_zero err).symm

theorem writes_agree_iff (succeeds : call.Succeeds) (online : pl.online op.cpu.toNat = true)
    (write : op.isrdmsr = 0) :
    WritesAgree allow pl call version op m ↔
      ¬(allow.writemask (op.msr.setWidth 64) = 0xffffffffffffffff ∧
        pl.rdFault op.cpu.toNat (m.regs op.cpu.toNat) op.msr = true ∧
        pl.wrFault op.cpu.toNat (m.regs op.cpu.toNat) op.msr op.msrdata = false) := by
  have same : (op.msr.setWidth 64).setWidth 32 = op.msr := by simp
  have single := run_msrWrite allow online (op.msr.setWidth 64) op.msrdata m
  obtain ⟨⟨out, array⟩, batch⟩ := run_writeOp allow version m succeeds online write
  rw [WritesAgree]
  dsimp only at single batch ⊢
  rw [same] at single
  generalize run (kernel allow pl) (msrWrite op.cpu.toNat (op.msr.setWidth 64) 8 true op.msrdata) m
    = file at single ⊢
  generalize run (kernel allow pl) (msrbatchIoctl pl pl call ⟨version, [op]⟩) m = ioctl at *
  obtain ⟨⟨ret, copied⟩, m'⟩ := ioctl
  obtain ⟨answer, m''⟩ := file
  dsimp only at array batch single ⊢
  subst array
  by_cases readonly : allow.writemask (op.msr.setWidth 64) = 0
  · rw [if_pos readonly] at batch single
    obtain ⟨rfl, rfl⟩ := batch
    obtain ⟨rfl, rfl⟩ := Prod.mk.inj single
    rw [readonly]
    refine iff_of_true ⟨by simp, ?_, rfl⟩ fun defect => absurd defect.1 (by decide)
    rintro _ ⟨⟩
    unfold AllowMap.writemask at readonly
    rw [AllowMap.maskexists]
    cases found : allow (op.msr.setWidth 64) with
    | none => exact .inl rfl
    | some mask =>
        rw [found] at readonly
        exact .inr ⟨congrArg some readonly, rfl, rfl⟩
  rw [if_neg readonly] at batch single
  have whole : allow.writemask (op.msr.setWidth 64) = 0xffffffffffffffff →
      Mask.merge (allow.writemask (op.msr.setWidth 64)) (m.regs op.cpu.toNat op.msr) op.msrdata =
        op.msrdata := fun full => by
    rw [full]
    exact Mask.merge_allOnes _ _
  generalize Mask.merge (allow.writemask (op.msr.setWidth 64)) (m.regs op.cpu.toNat op.msr)
    op.msrdata = new at batch single whole
  by_cases defect : allow.writemask (op.msr.setWidth 64) = 0xffffffffffffffff ∧
      pl.rdFault op.cpu.toNat (m.regs op.cpu.toNat) op.msr = true ∧
      pl.wrFault op.cpu.toNat (m.regs op.cpu.toNat) op.msr op.msrdata = false
  · obtain ⟨full, unread, written⟩ := defect
    rw [if_pos (.inl unread)] at batch
    rw [if_neg (by simp [full, whole full, written])] at single
    refine iff_of_false (fun agree => ?_) fun none => none ⟨full, unread, written⟩
    obtain ⟨_, returned⟩ := agree.1.mp single.1
    exact Errno.ret_ne_zero .eio (batch.1.symm.trans (congrArg Prod.fst returned))
  refine iff_of_true ?_ defect
  by_cases fails : pl.rdFault op.cpu.toNat (m.regs op.cpu.toNat) op.msr = true ∨
      pl.wrFault op.cpu.toNat (m.regs op.cpu.toNat) op.msr new = true
  · have fails' : (allow.writemask (op.msr.setWidth 64) ≠ 0xffffffffffffffff ∧
        pl.rdFault op.cpu.toNat (m.regs op.cpu.toNat) op.msr = true) ∨
        pl.wrFault op.cpu.toNat (m.regs op.cpu.toNat) op.msr new = true := by
      by_cases full : allow.writemask (op.msr.setWidth 64) = 0xffffffffffffffff
      · rcases fails with unread | unwritten
        · refine .inr (by_contra fun written => defect ⟨full, unread, ?_⟩)
          rw [← whole full]
          exact Bool.not_eq_true _ ▸ written
        · exact .inr unwritten
      · exact fails.imp_left fun unread => ⟨full, unread⟩
    rw [if_pos fails] at batch
    rw [if_pos fails'] at single
    obtain ⟨rfl, regs⟩ := batch
    obtain ⟨rfl, regs'⟩ := single
    exact ⟨by simp, by simp, regs'.trans regs.symm⟩
  · rw [if_neg fails] at batch
    rw [if_neg fun fails' => fails (fails'.imp_left And.right)] at single
    obtain ⟨rfl, regs⟩ := batch
    obtain ⟨rfl, regs'⟩ := single
    exact ⟨by simp, by simp, regs'.trans regs.symm⟩

/-- The two ways agree, except on a write that is let through whole, of a
register that cannot be read and can be written. -/
theorem access_paths_agree_iff (succeeds : call.Succeeds)
    (online : pl.online op.cpu.toNat = true) :
    PathsAgree allow pl call version op m ↔
      ¬(op.isrdmsr = 0 ∧ allow.writemask (op.msr.setWidth 64) = 0xffffffffffffffff ∧
        pl.rdFault op.cpu.toNat (m.regs op.cpu.toNat) op.msr = true ∧
        pl.wrFault op.cpu.toNat (m.regs op.cpu.toNat) op.msr op.msrdata = false) := by
  rw [PathsAgree]
  by_cases read : op.isrdmsr ≠ 0
  · rw [if_pos read]
    exact iff_of_true (reads_agree allow version m succeeds online read) fun defect =>
      read defect.1
  · rw [if_neg read, writes_agree_iff allow version m succeeds online (not_not.mp read)]
    rw [not_not] at read
    simp only [read, true_and]

end Agree

def lowByte16 : AllowMap := fun reg => if reg = 16 then some 0xff else none

theorem access_paths_agree_iff_low_byte :
    PathsAgree lowByte16 oneProcessor plainIoctl 0 ⟨0, 0, 7, 16, 0x1234, 0⟩ ⟨fun _ _ => 0, []⟩ :=
  (access_paths_agree_iff lowByte16 0 ⟨fun _ _ => 0, []⟩ plainIoctl_succeeds (by decide)).mpr
    (by decide)

def whole16 : AllowMap := fun reg => if reg = 16 then some 0xffffffffffffffff else none

def writeOnly : Platform := ⟨1, fun _ => true, fun _ _ _ => true, fun _ _ _ _ => false⟩

/-- The file writes the register, and the batch returns `-EIO`. -/
theorem access_paths_disagree :
    ¬∀ (allow : AllowMap) (pl : Platform) (call : IoctlCall) (version : BitVec 32)
      (op : MsrBatchOp) (m : Machine), call.Succeeds → pl.online op.cpu.toNat = true →
        PathsAgree allow pl call version op m := by
  intro always
  have agree : (Except.ok () : Except Errno Unit) = .ok () ↔
      ∃ out, ((-5 : Int), some [(⟨0, 0, -5, 16, 1, 0xffffffffffffffff⟩ : MsrBatchOp)]) =
        (0, some out) :=
    (always whole16 writeOnly plainIoctl 0 ⟨0, 0, 0, 16, 1, 0⟩ ⟨fun _ _ => 0, []⟩
      plainIoctl_succeeds (by decide)).1
  obtain ⟨out, returned⟩ := agree.mp rfl
  exact absurd (Prod.mk.inj returned).1 (by decide)

end MsrSafe
