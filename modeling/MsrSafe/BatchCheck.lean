import MsrSafe.BatchExecution

/-! The check pass of the batch device and the value its ioctl returns. -/

namespace MsrSafe

open Interleave

def refusal (allow : AllowMap) (pl : Platform) (op : MsrBatchOp) : Option Errno :=
  if pl.online op.cpu.toNat = false then some .enxio
  else if allow.maskexists (op.msr.setWidth 64) = false then some .eacces
  else if allow.writemask (op.msr.setWidth 64) = 0 ∧ op.isrdmsr = 0 then some .erofs
  else none

/-- The op as the check pass leaves it: its verdict, and the mask of an address
that was looked up and found. -/
def checkedOp (allow : AllowMap) (pl : Platform) (op : MsrBatchOp) : MsrBatchOp :=
  { op with
    err := (refusal allow pl op).elim 0 Errno.ret
    wmask :=
      if pl.online op.cpu.toNat && allow.maskexists (op.msr.setWidth 64) then
        allow.writemask (op.msr.setWidth 64)
      else op.wmask }

theorem msrbatchCheckOp_eq (pl : Platform) (op : MsrBatchOp) (err : Int) :
    msrbatchCheckOp pl op err =
      if pl.nrCpuIds ≤ op.cpu.toNat || !pl.cpuOnline op.cpu.toNat then
        .done ({ op with err := Errno.enxio.ret }, Errno.enxio.ret)
      else .perform (.maskexists (op.msr.setWidth 64)) fun listed : Bool =>
        if !listed then .done ({ op with err := Errno.eacces.ret }, Errno.eacces.ret)
        else .perform (.writemask (op.msr.setWidth 64)) fun mask : Word =>
          if mask = 0 && op.isrdmsr = 0 then
            .done ({ op with err := Errno.erofs.ret, wmask := mask }, Errno.erofs.ret)
          else .done ({ op with err := 0, wmask := mask }, err) := by
  rw [msrbatchCheckOp]
  dsimp only
  split <;> rfl

theorem offline_iff (pl : Platform) (cpu : Nat) :
    (pl.nrCpuIds ≤ cpu || !pl.cpuOnline cpu) = true ↔ pl.online cpu = false := by
  simp only [Platform.online, Bool.or_eq_true, decide_eq_true_eq, Bool.not_eq_true',
    Bool.and_eq_false_iff, decide_eq_false_iff_not, not_lt]

theorem run_msrbatchCheckOp (allow : AllowMap) (checked pl : Platform) (op : MsrBatchOp)
    (err : Int) (m : Machine) :
    run (kernel allow pl) (msrbatchCheckOp checked op err) m =
      ((checkedOp allow checked op, (refusal allow checked op).elim err Errno.ret), m) := by
  rw [msrbatchCheckOp_eq]
  rw [checkedOp, refusal]
  by_cases offline : checked.online op.cpu.toNat = false
  · rw [if_pos ((offline_iff checked _).mpr offline), if_pos offline, offline]
    rfl
  rw [if_neg (mt (offline_iff checked _).mp offline), if_neg offline, run_maskexists]
  rw [Bool.not_eq_false] at offline
  by_cases unlisted : allow.maskexists (op.msr.setWidth 64) = false
  · simp only [unlisted, offline, Bool.not_false, Bool.and_false, if_true, run_done]
    rfl
  rw [Bool.not_eq_false] at unlisted
  simp only [unlisted, offline, Bool.not_true, Bool.false_eq_true, if_false, run_writemask]
  by_cases readonly : allow.writemask (op.msr.setWidth 64) = 0 ∧ op.isrdmsr = 0
  · simp only [Bool.and_eq_true, decide_eq_true_eq, if_pos readonly, run_done]
    rfl
  · simp only [Bool.and_eq_true, decide_eq_true_eq, if_neg readonly, run_done]
    rfl

/-- The check pass under one allowlist: each op gets its own verdict, and the
error kept is the one of the last op that was refused. -/
theorem run_msrbatchApplyAllowlist (allow : AllowMap) (checked pl : Platform)
    (ops : List MsrBatchOp) (err : Int) (m : Machine) :
    run (kernel allow pl) (msrbatchApplyAllowlist checked ops err) m =
      ((ops.map (checkedOp allow checked),
        (ops.filterMap (refusal allow checked)).getLast?.elim err Errno.ret), m) := by
  induction ops generalizing err with
  | nil => rfl
  | cons op ops ih =>
      rw [msrbatchApplyAllowlist, run_bind, run_msrbatchCheckOp]
      dsimp only
      rw [run_bind, ih]
      dsimp only
      rw [Prog.pure_eq, run_done, List.map_cons, List.filterMap_cons]
      cases refusal allow checked op with
      | none => rfl
      | some e =>
          dsimp only
          rw [List.getLast?_cons]
          cases (ops.filterMap (refusal allow checked)).getLast? <;> rfl

/-- A batch ioctl that gets to the check pass. -/
structure IoctlCall.Enters (call : IoctlCall) : Prop where
  command : call.ioc = X86_IOC_MSR_BATCH
  reading : call.fmodeRead = true
  descCopied : call.descCopied = true
  opsAllocated : call.opsAllocated = true
  opsCopiedIn : call.opsCopiedIn = true

/-- One whose other allocation and copy succeed too. -/
structure IoctlCall.Succeeds (call : IoctlCall) : Prop extends call.Enters where
  maskAllocated : call.maskAllocated = true
  opsCopiedOut : call.opsCopiedOut = true

theorem run_msrbatchIoctl_enters (allow : AllowMap) (checked pl : Platform) {call : IoctlCall}
    (enters : call.Enters) {oa : MsrBatchArray} (some_op : oa.ops ≠ []) (m : Machine) :
    run (kernel allow pl) (msrbatchIoctl checked pl call oa) m =
      let executed := run (kernel allow pl)
        (msrbatchExecute pl call (oa.ops.map (checkedOp allow checked))
          ((oa.ops.filterMap (refusal allow checked)).getLast?.elim 0 Errno.ret)) m
      (copyoutAndReturn call executed.1.1 executed.1.2, executed.2) := by
  obtain ⟨command, reading, desc, allocated, copied⟩ := enters
  rw [msrbatchIoctl, command, reading, desc, allocated, copied]
  simp only [ne_eq, not_true_eq_false, if_false, Bool.not_true, Bool.false_eq_true,
    List.length_eq_zero_iff, some_op]
  rw [run_bind, run_msrbatchApplyAllowlist, run_bind]
  rfl

theorem online_of_accepted {allow : AllowMap} {pl : Platform} {op : MsrBatchOp}
    (accepted : refusal allow pl op = none) : pl.online op.cpu.toNat = true := by
  unfold refusal at accepted
  by_contra offline
  rw [Bool.not_eq_true] at offline
  rw [if_pos offline] at accepted
  cases accepted

theorem run_msrbatchIoctl (allow : AllowMap) (pl : Platform) {call : IoctlCall}
    (succeeds : call.Succeeds) {oa : MsrBatchArray} (some_op : oa.ops ≠ []) (m : Machine) :
    let checked := oa.ops.map (checkedOp allow pl)
    let result := run (kernel allow pl) (msrbatchIoctl pl pl call oa) m
    match (oa.ops.filterMap (refusal allow pl)).getLast? with
    | some err => result = ((err.ret, some checked), m)
    | none =>
      result.1 = (firstError (executeOps pl (fun _ => true) checked m.regs).1,
          some (executeOps pl (fun _ => true) checked m.regs).1) ∧
        result.2.regs = (executeOps pl (fun _ => true) checked m.regs).2 := by
  have mask := succeeds.maskAllocated
  have out := succeeds.opsCopiedOut
  dsimp only
  rw [run_msrbatchIoctl_enters allow pl pl succeeds.toEnters some_op]
  cases refused : (oa.ops.filterMap (refusal allow pl)).getLast? with
  | some err =>
      simp [msrbatchExecute, copyoutAndReturn, out]
  | none =>
      have accepted : ∀ op ∈ oa.ops, refusal allow pl op = none := by
        simpa [List.getLast?_eq_none_iff] using refused
      have passed : ∀ op ∈ oa.ops.map (checkedOp allow pl), pl.online op.cpu.toNat = true := by
        intro op member
        obtain ⟨asked, listed, rfl⟩ := List.mem_map.mp member
        exact online_of_accepted (accepted asked listed)
      obtain ⟨returned, regs⟩ := run_msrSafeBatch allow pl call.schedule passed m
      dsimp only [Option.elim_none]
      rw [msrbatchExecute, mask]
      simp only [ne_eq, not_true_eq_false, if_false, returned, regs, copyoutAndReturn, out,
        Bool.not_true, Bool.false_eq_true, and_self]

theorem firstError_checked (allow : AllowMap) (pl : Platform) (ops : List MsrBatchOp) :
    firstError (ops.map (checkedOp allow pl)) =
      (ops.filterMap (refusal allow pl)).head?.elim 0 Errno.ret := by
  induction ops with
  | nil => rfl
  | cons op ops ih =>
      have verdict : (checkedOp allow pl op).err = (refusal allow pl op).elim 0 Errno.ret := rfl
      rw [List.map_cons, firstError_cons, List.filterMap_cons, verdict]
      cases refusal allow pl op with
      | none => exact ih
      | some err =>
          rw [Option.elim_some, if_pos err.ret_ne_zero]
          rfl

/-- The ioctl returns the first error of the array it copies back exactly when
the first and the last op that the check pass refuses are refused alike. -/
theorem ioctl_reports_first_error_iff (allow : AllowMap) (pl : Platform) {call : IoctlCall}
    (succeeds : call.Succeeds) {oa : MsrBatchArray} (some_op : oa.ops ≠ []) (m : Machine) :
    ∃ ret out, (run (kernel allow pl) (msrbatchIoctl pl pl call oa) m).1 = (ret, some out) ∧
      ((ret = firstError out ∧ (ret = 0 ↔ ∀ op ∈ out, op.err = 0)) ↔
        (oa.ops.filterMap (refusal allow pl)).head? =
          (oa.ops.filterMap (refusal allow pl)).getLast?) := by
  have result := run_msrbatchIoctl allow pl succeeds some_op m
  dsimp only at result
  cases refused : oa.ops.filterMap (refusal allow pl) with
  | nil =>
      rw [refused] at result
      exact ⟨_, _, result.1, iff_of_true ⟨rfl, firstError_eq_zero _⟩ rfl⟩
  | cons first rest =>
      have some_last : (first :: rest).getLast? = some ((first :: rest).getLast (by simp)) :=
        List.getLast?_eq_some_getLast (by simp)
      have reported := firstError_checked allow pl oa.ops
      rw [refused, some_last] at result
      rw [refused, List.head?_cons, Option.elim_some] at reported
      refine ⟨_, _, congrArg Prod.fst result, ?_⟩
      rw [some_last, List.head?_cons, ← firstError_eq_zero, reported, Option.some.injEq,
        Errno.ret_inj]
      generalize (first :: rest).getLast (by simp) = last
      simp only [Errno.ret_ne_zero, and_true]
      exact eq_comm

def plainIoctl : IoctlCall := ⟨X86_IOC_MSR_BATCH, true, true, true, true, true, true, []⟩

theorem plainIoctl_succeeds : plainIoctl.Succeeds := ⟨⟨rfl, rfl, rfl, rfl, rfl⟩, rfl, rfl⟩

def oneProcessor : Platform := ⟨1, fun _ => true, fun _ _ _ => false, fun _ _ _ _ => false⟩

def readOnly16 : AllowMap := fun reg => if reg = 16 then some 0 else none

theorem ioctl_reports_first_error_iff_two_writes :
    let ops : List MsrBatchOp := [⟨0, 0, 0, 16, 1, 0⟩, ⟨0, 1, 0, 16, 0, 0⟩, ⟨0, 0, 0, 16, 2, 0⟩]
    ∃ ret out, (run (kernel readOnly16 oneProcessor)
        (msrbatchIoctl oneProcessor oneProcessor plainIoctl ⟨0, ops⟩) ⟨fun _ _ => 0, []⟩).1 =
          (ret, some out) ∧ ret = firstError out := by
  intro ops
  obtain ⟨ret, out, returned, first⟩ := ioctl_reports_first_error_iff readOnly16 oneProcessor
    plainIoctl_succeeds (show (⟨0, ops⟩ : MsrBatchArray).ops ≠ [] by decide) ⟨fun _ _ => 0, []⟩
  exact ⟨ret, out, returned, (first.mpr (by decide)).1⟩

/-- An unlisted address and then a write to a read-only one: the ioctl returns
`-EROFS`, and the first error of the array is `-EACCES`. -/
theorem ioctl_reports_last_refusal :
    ¬∀ (allow : AllowMap) (pl : Platform) (call : IoctlCall) (oa : MsrBatchArray) (m : Machine),
      call.Succeeds → oa.ops ≠ [] → ∀ ret out,
        (run (kernel allow pl) (msrbatchIoctl pl pl call oa) m).1 = (ret, some out) →
          ret = firstError out ∧ (ret = 0 ↔ ∀ op ∈ out, op.err = 0) := by
  intro always
  let ops : List MsrBatchOp := [⟨0, 1, 0, 32, 0, 0⟩, ⟨0, 0, 0, 16, 1, 0⟩]
  have first := (always readOnly16 oneProcessor plainIoctl ⟨0, ops⟩ ⟨fun _ _ => 0, []⟩
    plainIoctl_succeeds (by decide) (-30) [⟨0, 1, -13, 32, 0, 0⟩, ⟨0, 0, -30, 16, 1, 0⟩] rfl).1
  exact absurd first (by decide)

theorem apply_singleton (allow : AllowMap) (checked pl : Platform) (op : MsrBatchOp) (m : Machine) :
    run (kernel allow pl) (msrbatchApplyAllowlist checked [op] 0) m =
      (([checkedOp allow checked op], (checkedOp allow checked op).err), m) := by
  rw [run_msrbatchApplyAllowlist]
  cases verdict : refusal allow checked op <;> simp [checkedOp, verdict]

theorem getLast?_refused {allow : AllowMap} {pl : Platform} {ops : List MsrBatchOp}
    (refused : ∃ op ∈ ops, refusal allow pl op ≠ none) :
    ∃ err, (ops.filterMap (refusal allow pl)).getLast? = some err := by
  obtain ⟨op, member, refused⟩ := refused
  obtain ⟨err, verdict⟩ := Option.ne_none_iff_exists'.mp refused
  have here : err ∈ ops.filterMap (refusal allow pl) := List.mem_filterMap.mpr ⟨op, member, verdict⟩
  rw [← Option.isSome_iff_exists, List.getLast?_isSome]
  exact List.ne_nil_of_mem here

/-- With an op refused the machine stays as it is, its log of instructions
included, and of each op the caller gets back the verdict on this op alone. -/
theorem refused_batch_has_no_effect (allow : AllowMap) (pl : Platform) {call : IoctlCall}
    (enters : call.Enters) (opsCopiedOut : call.opsCopiedOut = true) (oa : MsrBatchArray)
    (m : Machine) (refused : ∃ op ∈ oa.ops, refusal allow pl op ≠ none) :
    ∃ ret out, run (kernel allow pl) (msrbatchIoctl pl pl call oa) m = ((ret, some out), m) ∧
      ret ≠ 0 ∧
      List.Forall₂ (fun op op' =>
        (op'.cpu = op.cpu ∧ op'.isrdmsr = op.isrdmsr ∧ op'.msr = op.msr ∧
          op'.msrdata = op.msrdata) ∧
        op'.err = (if pl.online op.cpu.toNat = false then Errno.enxio.ret
          else if allow.maskexists (op.msr.setWidth 64) = false then Errno.eacces.ret
          else if allow.writemask (op.msr.setWidth 64) = 0 ∧ op.isrdmsr = 0 then Errno.erofs.ret
          else 0) ∧
        run (kernel allow pl) (msrbatchApplyAllowlist pl [op] 0) m = (([op'], op'.err), m) ∧
        op'.wmask = (if pl.online op.cpu.toNat && allow.maskexists (op.msr.setWidth 64) then
          allow.writemask (op.msr.setWidth 64) else op.wmask)) oa.ops out := by
  obtain ⟨err, last⟩ := getLast?_refused refused
  have some_op : oa.ops ≠ [] := by
    obtain ⟨op, member, -⟩ := refused
    exact List.ne_nil_of_mem member
  refine ⟨err.ret, oa.ops.map (checkedOp allow pl), ?_, err.ret_ne_zero, ?_⟩
  · rw [run_msrbatchIoctl_enters allow pl pl enters some_op, last, Option.elim_some,
      msrbatchExecute, if_pos err.ret_ne_zero]
    simp [copyoutAndReturn, opsCopiedOut]
  · rw [List.forall₂_map_right_iff]
    refine List.forall₂_same.mpr fun op _ => ⟨⟨rfl, rfl, rfl, rfl⟩, ?_,
      apply_singleton allow pl pl op m, rfl⟩
    dsimp only [checkedOp, refusal]
    split_ifs <;> rfl

theorem refused_batch_has_no_effect_three_ops :
    let ops : List MsrBatchOp := [⟨0, 1, 7, 16, 0, 9⟩, ⟨0, 0, 0, 16, 5, 9⟩, ⟨0, 1, 0, 32, 0, 9⟩]
    ∃ ret out, run (kernel readOnly16 oneProcessor)
        (msrbatchIoctl oneProcessor oneProcessor plainIoctl ⟨0, ops⟩) ⟨fun _ _ => 1, []⟩ =
          ((ret, some out), ⟨fun _ _ => 1, []⟩) ∧ ret ≠ 0 := by
  intro ops
  obtain ⟨ret, out, result, failed, -⟩ := refused_batch_has_no_effect readOnly16 oneProcessor
    plainIoctl_succeeds.toEnters rfl ⟨0, ops⟩ ⟨fun _ _ => 1, []⟩ ⟨_, List.mem_cons_of_mem _
      List.mem_cons_self, by decide⟩
  exact ⟨ret, out, result, failed⟩

end MsrSafe
