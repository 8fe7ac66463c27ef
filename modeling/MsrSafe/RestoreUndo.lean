import MsrSafe.JobIsolation

/-! Between `msr_save` and `msr_restore` the registers may change in any way:
the bits that were saved come back, and nothing else is written. -/

namespace MsrSafe

open Interleave

def Granted : (action : MsrAction) → action.Answer → Prop
  | .maskexists _, listed => listed = true
  | .writemask _, mask => mask ≠ 0
  | .rdmsr _ _, answer => answer.isOk = true
  | .wrmsr _ _ _, answer => answer.isOk = true
  | .batchOp _ _, _ => True

instance (action : MsrAction) (answer : action.Answer) : Decidable (Granted action answer) :=
  match action, answer with
  | .maskexists _, listed => inferInstanceAs (Decidable (listed = true))
  | .writemask _, mask => inferInstanceAs (Decidable (mask ≠ 0))
  | .rdmsr _ _, answer => inferInstanceAs (Decidable (answer.isOk = true))
  | .wrmsr _ _ _, answer => inferInstanceAs (Decidable (answer.isOk = true))
  | .batchOp _ _, _ => inferInstanceAs (Decidable True)

def ReadFails (exec : Handler Msr Machine) (vfs : Word → Bool) (m : Machine) (cpu : Nat)
    (e : AllowlistEntry) : Prop :=
  (run exec (pread vfs cpu e.msr) m).1.isOk = false

instance (exec : Handler Msr Machine) (vfs : Word → Bool) (m : Machine) (cpu : Nat)
    (e : AllowlistEntry) : Decidable (ReadFails exec vfs m cpu e) :=
  inferInstanceAs (Decidable (_ = false))

/-- What stores the register lets every bit of the entry's mask through. -/
def Covers (allow : AllowMap) (e : AllowlistEntry) : Prop :=
  Listed allow e.register → e.wmask &&& maskOf allow e.register = e.wmask

instance (allow : AllowMap) (e : AllowlistEntry) : Decidable (Covers allow e) :=
  inferInstanceAs (Decidable (allow.maskexists _ = true → _))

structure Stored (failed : Nat → AllowlistEntry → Prop) (S : Nat → CpuRegs) (cpu : Nat)
    (e : AllowlistEntry) (word : Word) : Prop where
  good : isGoodValue word e.wmask = true ↔ ¬failed cpu e
  value : ¬failed cpu e → word = S cpu e.register &&& e.wmask

/-- From `regs` to `regs'` by the actions of `trace`, the bits of the pairs have
come back from `S`, as far as they were saved and all was granted, and nothing
else is written. -/
structure Undone (S : Nat → CpuRegs) (failed pair : Nat → AllowlistEntry → Prop)
    (granted : Prop) (regs regs' : Nat → CpuRegs) (trace : List MsrAction) : Prop where
  restored : granted → ∀ cpu e, pair cpu e → ¬failed cpu e →
    regs' cpu e.register = Mask.merge e.wmask (regs cpu e.register) (S cpu e.register)
  kept : ∀ cpu reg, (∀ e, pair cpu e → e.register = reg → failed cpu e) →
    regs' cpu reg = regs cpu reg
  written : ∀ cpu reg value, .wrmsr cpu reg value ∈ trace →
    ∃ e, pair cpu e ∧ e.register = reg ∧ ¬failed cpu e ∧
      S cpu reg &&& e.wmask ≠ regs cpu reg &&& e.wmask

section Compose

variable {S regs regs₁ regs₂ : Nat → CpuRegs}
  {failed pair pair₁ pair₂ : Nat → AllowlistEntry → Prop}
  {granted granted₁ granted₂ : Prop} {trace₁ trace₂ : List MsrAction}

theorem Undone.idle (granted : Prop) (halted : ¬granted) :
    Undone S failed pair granted regs regs [] where
  restored yes := absurd yes halted
  kept _ _ _ := rfl
  written _ _ _ member := by cases member

theorem Undone.nothing (none : ∀ cpu e, ¬pair cpu e) :
    Undone S failed pair granted regs regs [] where
  restored _ cpu e inPair := absurd inPair (none cpu e)
  kept _ _ _ := rfl
  written _ _ _ member := by cases member

theorem Undone.append (first : Undone S failed pair₁ granted₁ regs regs₁ trace₁)
    (second : Undone S failed pair₂ granted₂ regs₁ regs₂ trace₂)
    (apart : ∀ cpu e e', pair₁ cpu e → pair₂ cpu e' → e.register ≠ e'.register)
    (pairs : ∀ cpu e, pair cpu e ↔ pair₁ cpu e ∨ pair₂ cpu e)
    (both : granted → granted₁ ∧ granted₂) :
    Undone S failed pair granted regs regs₂ (trace₁ ++ trace₂) := by
  have before : ∀ cpu e, pair₂ cpu e → regs₁ cpu e.register = regs cpu e.register := by
    intro cpu e inSecond
    apply first.kept
    intro e' inFirst same
    exact absurd same (apart cpu e' e inFirst inSecond)
  have after : ∀ cpu e, pair₁ cpu e → regs₂ cpu e.register = regs₁ cpu e.register := by
    intro cpu e inFirst
    apply second.kept
    intro e' inSecond same
    exact absurd same.symm (apart cpu e e' inFirst inSecond)
  constructor
  · intro yes cpu e inPair saved
    rcases (pairs cpu e).mp inPair with inFirst | inSecond
    · rw [after cpu e inFirst]
      exact first.restored (both yes).1 cpu e inFirst saved
    · rw [← before cpu e inSecond]
      exact second.restored (both yes).2 cpu e inSecond saved
  · intro cpu reg onlyFailed
    calc
      regs₂ cpu reg = regs₁ cpu reg := second.kept cpu reg
        fun e inSecond => onlyFailed e ((pairs cpu e).mpr (.inr inSecond))
      _ = regs cpu reg := first.kept cpu reg
        fun e inFirst => onlyFailed e ((pairs cpu e).mpr (.inl inFirst))
  · intro cpu reg value member
    rcases List.mem_append.mp member with inFirst | inSecond
    · obtain ⟨e, inPair, rest⟩ := first.written cpu reg value inFirst
      exact ⟨e, (pairs cpu e).mpr (.inl inPair), rest⟩
    · obtain ⟨e, inPair, rfl, saved, differs⟩ := second.written cpu reg value inSecond
      rw [before cpu e inPair] at differs
      exact ⟨e, (pairs cpu e).mpr (.inr inPair), rfl, saved, differs⟩

end Compose

section Files

variable {allow : AllowMap} {vfs : Word → Bool} {pl : Platform} {cpu : Nat}

theorem saveMsr_stored {m₀ : Machine} (e : AllowlistEntry) {m m' : Machine} {word : Word}
    (same : m.regs = m₀.regs)
    (finished : run (kernel allow pl) (saveMsr vfs cpu e).run m = (.ok word, m')) :
    m'.regs = m₀.regs ∧ Stored (ReadFails (kernel allow pl) vfs m₀) m₀.regs cpu e word := by
  obtain ⟨rfl, stored⟩ := saveMsr_word e finished
  refine ⟨(pread_regs allow vfs pl cpu e.msr m).trans same, ?_⟩
  have answer := (run_kernel_regs allow pl (pread vfs cpu e.msr) same).1
  rw [answer] at stored
  cases read : (run (kernel allow pl) (pread vfs cpu e.msr) m₀).1 with
  | error err =>
      rw [read] at stored
      have failed : ReadFails (kernel allow pl) vfs m₀ cpu e := by
        rw [ReadFails, read]
        rfl
      constructor
      · rw [stored]
        exact iff_of_false (by decide) (not_not.mpr failed)
      · exact fun saved => absurd failed saved
  | ok value =>
      rw [read] at stored
      have saved : ¬ReadFails (kernel allow pl) vfs m₀ cpu e := by
        intro failed
        rw [ReadFails, read] at failed
        cases failed
      constructor
      · exact iff_of_true stored.2 saved
      · intro _
        rw [stored.1, pread_ok read]
        rfl

/-! ## Restoring -/

section Granted

variable {α : Type} (allow : AllowMap) (pl : Platform) (m : Machine)

@[simp] theorem along_maskexists (reg : Word) (next : Bool → Prog Msr α) :
    Along Granted (kernel allow pl) (.perform (.maskexists reg) next) m ↔
      allow.maskexists reg = true ∧
        Along Granted (kernel allow pl) (next (allow.maskexists reg)) m := Iff.rfl

@[simp] theorem along_writemask (reg : Word) (next : Word → Prog Msr α) :
    Along Granted (kernel allow pl) (.perform (.writemask reg) next) m ↔
      allow.writemask reg ≠ 0 ∧
        Along Granted (kernel allow pl) (next (allow.writemask reg)) m := Iff.rfl

@[simp] theorem along_rdmsr (cpu : Nat) (reg : Addr) (next : Except Errno Word → Prog Msr α) :
    Along Granted (kernel allow pl) (.perform (.rdmsr cpu reg) next) m ↔
      (rdmsrSafeOnCpu pl cpu reg m).1.isOk = true ∧
        Along Granted (kernel allow pl) (next (rdmsrSafeOnCpu pl cpu reg m).1)
          (rdmsrSafeOnCpu pl cpu reg m).2 := Iff.rfl

@[simp] theorem along_wrmsr (cpu : Nat) (reg : Addr) (value : Word)
    (next : Except Errno Unit → Prog Msr α) :
    Along Granted (kernel allow pl) (.perform (.wrmsr cpu reg value) next) m ↔
      (wrmsrSafeOnCpu pl cpu reg value m).1.isOk = true ∧
        Along Granted (kernel allow pl) (next (wrmsrSafeOnCpu pl cpu reg value m).1)
          (wrmsrSafeOnCpu pl cpu reg value m).2 := Iff.rfl

end Granted

theorem Except.eq_ok_of_isOk {ε α : Type} {answer : Except ε α} (ok : answer.isOk = true) :
    ∃ value, answer = .ok value := by
  cases answer with
  | error err => cases ok
  | ok value => exact ⟨value, rfl⟩

theorem granted_rdmsr {reg : Addr} {m : Machine}
    (granted : (rdmsrSafeOnCpu pl cpu reg m).1.isOk = true) :
    (rdmsrSafeOnCpu pl cpu reg m).1 = .ok (m.regs cpu reg) := by
  obtain ⟨value, answer⟩ := Except.eq_ok_of_isOk granted
  rw [answer, rdmsrSafeOnCpu_ok answer]

theorem granted_wrmsr {reg : Addr} {value : Word} {m : Machine}
    (granted : (wrmsrSafeOnCpu pl cpu reg value m).1.isOk = true) :
    (wrmsrSafeOnCpu pl cpu reg value m).2.regs =
      Function.update m.regs cpu (Function.update (m.regs cpu) reg value) := by
  obtain ⟨⟨⟩, answer⟩ := Except.eq_ok_of_isOk granted
  rw [wrmsrSafeOnCpu_ok answer, Machine.setReg, Machine.issue_regs]

theorem granted_pread {offset : Word} {m : Machine} (passed : vfs offset = true)
    (granted : Along Granted (kernel allow pl) (pread vfs cpu offset) m) :
    (run (kernel allow pl) (pread vfs cpu offset) m).1 = .ok (m.regs cpu (offset.setWidth 32)) ∧
      Listed allow (offset.setWidth 32) := by
  rw [pread, if_pos passed, msrRead_eq, if_neg (by decide), along_maskexists] at granted
  obtain ⟨listed, granted⟩ := granted
  rw [listed, if_neg (by decide), along_rdmsr] at granted
  rw [pread, if_pos passed, msrRead_eq, if_neg (by decide), run_maskexists, listed,
    if_neg (by decide), run_rdmsr, granted_rdmsr granted.1]
  exact ⟨rfl, listed⟩

theorem granted_pwrite {offset data : Word} {m : Machine} (passed : vfs offset = true)
    (granted : Along Granted (kernel allow pl) (pwrite vfs cpu offset data) m) :
    let reg : Addr := offset.setWidth 32
    (run (kernel allow pl) (pwrite vfs cpu offset data) m).2.regs =
      Function.update m.regs cpu (Function.update (m.regs cpu) reg
        (Mask.merge (maskOf allow reg) (m.regs cpu reg) data)) := by
  intro reg
  rw [pwrite, if_pos passed, msrWrite_eq, if_neg (by decide)] at granted ⊢
  rw [along_writemask] at granted
  rw [run_writemask]
  rw [show allow.writemask ((offset.setWidth 32).setWidth 64) = maskOf allow reg from rfl]
    at granted ⊢
  rw [if_neg granted.1, if_neg (by decide)] at granted ⊢
  by_cases full : maskOf allow reg = 0xffffffffffffffff
  · rw [if_neg (not_not.mpr full), along_wrmsr] at granted
    rw [if_neg (not_not.mpr full), run_wrmsr, full]
    exact (granted_wrmsr granted.2.1).trans (by rw [show (0xffffffffffffffff : Word) =
      BitVec.allOnes 64 from rfl, Mask.merge_allOnes])
  · rw [if_pos full, along_rdmsr] at granted
    obtain ⟨-, read, granted⟩ := granted
    have kept := rdmsrSafeOnCpu_regs pl cpu reg m
    rw [if_pos full, run_rdmsr, granted_rdmsr read, run_wrmsr]
    rw [granted_rdmsr read, along_wrmsr] at granted
    exact (granted_wrmsr granted.1).trans (by rw [kept])

theorem restoreMsr_frame (allow : AllowMap) {e : AllowlistEntry} {cpu' : Nat} {reg : Addr}
    (other : ¬(cpu' = cpu ∧ reg = e.register)) (word : Word) (m : Machine) :
    (run (kernel allow pl) (restoreMsr vfs cpu e word) m).2.regs cpu' reg = m.regs cpu' reg := by
  cases good : isGoodValue word e.wmask with
  | false =>
      rw [restoreMsr_bad good]
      rfl
  | true =>
      have kept := congrFun (congrFun (pread_regs allow vfs pl cpu e.msr m) cpu') reg
      rw [restoreMsr, good, if_pos rfl, run_bind]
      cases (run (kernel allow pl) (pread vfs cpu e.msr) m).1 with
      | error err => exact kept
      | ok readVal =>
          dsimp only
          split
          · rw [run_bind]
            exact (pwrite_frame allow other _ _).trans kept
          · exact kept

/-- The step lemma: a turn undoes the pair of its processor and entry. -/
theorem restoreMsr_undone (allow : AllowMap) (pl : Platform) {S : Nat → CpuRegs}
    {failed : Nat → AllowlistEntry → Prop}
    {e : AllowlistEntry} (passed : ¬failed cpu e → vfs e.msr = true) {word : Word}
    (stored : Stored failed S cpu e word) (m : Machine) :
    let exec := kernel allow pl
    Undone S failed (fun c e' => c = cpu ∧ e' = e)
      (Covers allow e ∧ Along Granted exec (restoreMsr vfs cpu e word) m)
      m.regs (run exec (restoreMsr vfs cpu e word) m).2.regs
      (actions exec (restoreMsr vfs cpu e word) m) := by
  intro exec
  constructor
  · rintro ⟨covers, granted⟩ c e' ⟨rfl, rfl⟩ saved
    have good := stored.good.mpr saved
    rw [stored.value saved] at good granted ⊢
    rw [restoreMsr, good, if_pos rfl, along_bind] at granted
    obtain ⟨read, rest⟩ := granted
    obtain ⟨answer, listed⟩ := granted_pread (passed saved) read
    rw [answer] at rest
    have kept := pread_regs allow vfs pl c e'.msr m
    rw [restoreMsr_merges good (Prod.ext answer rfl) kept, Function.update_self,
      Function.update_self, covers listed]
    intro changed
    have differs : S c e'.register &&& e'.wmask ≠ m.regs c (e'.msr.setWidth 32) &&& e'.wmask :=
      changed
    dsimp only at rest
    rw [if_pos differs, along_bind] at rest
    exact granted_pwrite (passed saved) rest.1
  · intro c reg onlyFailed
    by_cases here : c = cpu ∧ reg = e.register
    · obtain ⟨rfl, rfl⟩ := here
      have failing := onlyFailed e ⟨rfl, rfl⟩ rfl
      have bad := mt stored.good.mp (not_not.mpr failing)
      rw [restoreMsr_bad (Bool.not_eq_true _ ▸ bad)]
      rfl
    · exact restoreMsr_frame allow here word m
  · intro c reg value member
    obtain ⟨rfl, rfl, good, readVal, old, read, differs, -⟩ := wrmsr_mem_restoreMsr member
    have saved := stored.good.mp good
    rw [stored.value saved, pread_ok read] at differs
    exact ⟨e, ⟨rfl, rfl⟩, rfl, saved, differs⟩

theorem restoreMsrs_undone (allow : AllowMap) (pl : Platform) {S : Nat → CpuRegs}
    {failed : Nat → AllowlistEntry → Prop}
    {buffer : Nat → Word} (base : Nat) (entries : List AllowlistEntry) (j : Nat)
    (distinct : (entries.map AllowlistEntry.register).Nodup)
    (passed : ∀ e ∈ entries, ¬failed cpu e → vfs e.msr = true)
    (stored : ∀ t e, entries[t]? = some e → Stored failed S cpu e (buffer (base + j + t)))
    (m : Machine) :
    let exec := kernel allow pl
    let prog := restoreMsrs vfs cpu base buffer entries j
    Undone S failed (fun c e => c = cpu ∧ e ∈ entries)
      ((∀ e ∈ entries, Covers allow e) ∧ Along Granted exec prog m)
      m.regs (run exec prog m).2.regs (actions exec prog m) := by
  induction entries generalizing j m with
  | nil =>
      apply Undone.nothing
      rintro c e ⟨-, member⟩
      cases member
  | cons e entries ih =>
      rw [List.map_cons, List.nodup_cons] at distinct
      have here := restoreMsr_undone allow pl (passed e List.mem_cons_self) (stored 0 e rfl) m
      have later := ih (j + 1) distinct.2
        (fun e' member => passed e' (List.mem_cons_of_mem e member))
        (fun t e' at_t => by
          rw [show base + (j + 1) + t = base + j + (t + 1) by omega]
          exact stored (t + 1) e' at_t)
        (run (kernel allow pl) (restoreMsr vfs cpu e (buffer (base + j))) m).2
      dsimp only
      rw [restoreMsrs, run_bind, actions_bind]
      apply here.append later
      · rintro c e₁ e₂ ⟨-, rfl⟩ ⟨-, member⟩ same
        rw [same] at distinct
        exact distinct.1 (List.mem_map_of_mem member)
      · intro c e'
        rw [List.mem_cons, and_or_left]
      · rintro ⟨covers, granted⟩
        obtain ⟨now, then_⟩ := (along_bind _ _ m).mp granted
        rw [List.forall_mem_cons] at covers
        exact ⟨⟨covers.1, now⟩, covers.2, then_⟩

theorem restoreCpus_undone (allow : AllowMap) (pl : Platform) {S : Nat → CpuRegs}
    {failed : Nat → AllowlistEntry → Prop}
    {buffer : Nat → Word} (faults : MsrFaults) (entries : List AllowlistEntry) (left i : Nat)
    (distinct : (entries.map AllowlistEntry.register).Nodup)
    (passed : ∀ c, ∀ e ∈ entries, ¬failed c e → vfs e.msr = true)
    (stored : ∀ c, i ≤ c → c < i + left → ∀ t e, entries[t]? = some e →
      Stored failed S c e (buffer (c * entries.length + t)))
    (m : Machine) :
    let exec := kernel allow pl
    let prog := (restoreCpus vfs pl faults entries buffer left i).run
    Undone S failed (fun c e => (i ≤ c ∧ c < i + left) ∧ e ∈ entries)
      ((run exec prog m).1 = .ok () ∧ (∀ e ∈ entries, Covers allow e) ∧ Along Granted exec prog m)
      m.regs (run exec prog m).2.regs (actions exec prog m) := by
  induction left generalizing i m with
  | zero =>
      apply Undone.nothing
      rintro c e ⟨⟨from_i, below⟩, -⟩
      omega
  | succ left ih =>
      dsimp only
      rw [restoreCpus]
      cases opened : openMsr pl faults i with
      | error failure =>
          rw [lift_error_bind]
          apply Undone.idle
          rintro ⟨ok, -⟩
          cases ok
      | ok =>
          rw [lift_ok_bind]
          have row := restoreMsrs_undone allow pl (i * entries.length) entries 0 distinct
            (passed i) (stored i (Nat.le_refl i) (by omega)) m
          have rest := ih (i + 1) (fun c from_i below => stored c (by omega) (by omega))
            (run (kernel allow pl) (restoreMsrs vfs i (i * entries.length) buffer entries 0) m).2
          have apart : ∀ c (e e' : AllowlistEntry), c = i ∧ e ∈ entries →
              (i + 1 ≤ c ∧ c < i + 1 + left) ∧ e' ∈ entries → e.register ≠ e'.register := by
            rintro c e e' ⟨rfl, -⟩ ⟨⟨further, -⟩, -⟩
            omega
          have pairs : ∀ c (e : AllowlistEntry), (i ≤ c ∧ c < i + (left + 1)) ∧ e ∈ entries ↔
              c = i ∧ e ∈ entries ∨ (i + 1 ≤ c ∧ c < i + 1 + left) ∧ e ∈ entries := by
            intro c e
            rw [← or_and_right]
            apply and_congr_left'
            omega
          rw [run_except_bind, actions_except_bind, along_except_bind, run_except_lift,
            actions_except_lift, along_except_lift]
          dsimp only
          cases closed : attempt [faults.closeMsr i] with
          | error failure =>
              rw [lift_error_bind]
              apply row.append (Undone.idle False not_false) apart pairs
              rintro ⟨ok, -⟩
              cases ok
          | ok =>
              rw [lift_ok_bind]
              apply row.append rest apart pairs
              rintro ⟨ok, covers, now, then_⟩
              exact ⟨⟨covers, now⟩, ok, covers, then_⟩

theorem openMsr_quiet (online : pl.online cpu = true) : openMsr pl .quiet cpu = .ok () := by
  rw [Platform.online, Bool.and_eq_true, decide_eq_true_eq] at online
  have opened : msrOpen pl cpu = .ok () := by
    rw [msrOpen, if_neg]
    simp [online.1, online.2]
  rw [openMsr, opened]
  rfl

theorem restoreCpus_quiet {σ : Type} (exec : Handler Msr σ) (vfs : Word → Bool)
    (entries : List AllowlistEntry) (buffer : Nat → Word) (left i : Nat)
    (online : ∀ c < i + left, pl.online c = true) (s : σ) :
    (run exec (restoreCpus vfs pl .quiet entries buffer left i).run s).1 = .ok () := by
  induction left generalizing i s with
  | zero => rfl
  | succ left ih =>
      rw [restoreCpus, openMsr_quiet (online i (by omega)), lift_ok_bind, run_except_bind,
        run_except_lift]
      exact ih (i + 1) (fun c below => online c (by omega)) _

end Files

def plainFiles : AllowMap := fun _ => some (BitVec.allOnes 64)

theorem plainFiles_covers (e : AllowlistEntry) : Covers plainFiles e :=
  fun _ => BitVec.and_allOnes

def RestoreFaults.quietAt (restoreMtime allowlistMtime parseErrno errno : Int) : RestoreFaults :=
  { RestoreFaults.quiet with
    parse := { ParseFaults.quiet with errno := parseErrno }
    restoreMtime := restoreMtime
    allowlistMtime := allowlistMtime
    errno := errno }

section Parsed

variable {g : Globals} {entries : List AllowlistEntry}
  {vfs : Word → Bool} {pl : Platform} {numCpu : Nat} {restoreMtime allowlistMtime : Int}

theorem readFile_quiet (restoreMtime allowlistMtime parseErrno errno : Int) (count : Nat)
    (words : Nat → Word) :
    ∃ buffer, readFile (.quietAt restoreMtime allowlistMtime parseErrno errno) count
      (((List.range count).map words).flatMap wordBytes) = .ok buffer := by
  refine ⟨_, readFile_whole rfl rfl ?_⟩
  rw [LittleEndian.length_flatMap wordBytes (fun word => LittleEndian.length_bytes 8 _),
    List.length_map, List.length_range]

theorem msrRestore_quiet (vfs : Word → Bool) (pl : Platform) (shows : Shows g entries)
    (nonempty : entries ≠ [])
    (notOlder : allowlistMtime ≤ restoreMtime) (parseErrno errno : Int) {file : List UInt8}
    {buffer : Nat → Word}
    (read : readFile (.quietAt restoreMtime allowlistMtime parseErrno errno)
      (entries.length * numCpu) file = .ok buffer) :
    msrRestore vfs pl (.quietAt restoreMtime allowlistMtime parseErrno errno) g numCpu file =
      some <$> (restoreCpus vfs pl .quiet entries buffer numCpu 0).run := by
  have parsed := msrParseAllowlist_quiet shows nonempty parseErrno
  rw [msrRestore]
  rw [show (RestoreFaults.quietAt restoreMtime allowlistMtime parseErrno errno).parse =
    { ParseFaults.quiet with errno := parseErrno } from rfl, parsed]
  dsimp only
  rw [restoreFile, read]
  have younger : ¬restoreMtime < allowlistMtime := not_lt.mpr notOlder
  exact congrArg (fun prog : Tool Unit => some <$> prog.run) (if_neg younger)

theorem msrRestore_finishes (exec : Handler Msr Machine) (vfs : Word → Bool) {pl : Platform}
    (shows : Shows g entries) (nonempty : entries ≠ [])
    (notOlder : allowlistMtime ≤ restoreMtime) (parseErrno errno : Int) {count : Nat}
    (sizes : entries.length * numCpu = count) (words : Nat → Word)
    (online : ∀ cpu < numCpu, pl.online cpu = true) (m : Machine) :
    (run exec (msrRestore vfs pl (.quietAt restoreMtime allowlistMtime parseErrno errno) g numCpu
      (((List.range count).map words).flatMap wordBytes)) m).1 = some (.ok ()) := by
  obtain ⟨buffer, read⟩ := readFile_quiet restoreMtime allowlistMtime parseErrno errno count words
  rw [← sizes] at read ⊢
  have loops := msrRestore_quiet vfs pl shows nonempty notOlder parseErrno errno read
  have ended := restoreCpus_quiet exec vfs entries buffer numCpu 0
    (fun c below => online c (by omega)) m
  rw [loops, run_map]
  exact congrArg some ended

theorem msrRestore_undone (allow : AllowMap) (pl : Platform) (shows : Shows g entries)
    (distinct : (entries.map AllowlistEntry.register).Nodup) {S : Nat → CpuRegs}
    {failed : Nat → AllowlistEntry → Prop}
    (passed : ∀ c, ∀ e ∈ entries, ¬failed c e → vfs e.msr = true) {words : Nat → Word}
    (stored : ∀ c < numCpu, ∀ t e, entries[t]? = some e →
      Stored failed S c e (words (c * entries.length + t)))
    (faults : RestoreFaults) (m : Machine) :
    let exec := kernel allow pl
    let prog := msrRestore vfs pl faults g numCpu
      (((List.range (entries.length * numCpu)).map words).flatMap wordBytes)
    Undone S failed (fun c e => c < numCpu ∧ e ∈ entries)
      ((run exec prog m).1 = some (.ok ()) ∧ (∀ e ∈ entries, Covers allow e) ∧
        Along Granted exec prog m)
      m.regs (run exec prog m).2.regs (actions exec prog m) := by
  dsimp only
  rcases msrRestore_cases vfs pl shows faults numCpu
    (((List.range (entries.length * numCpu)).map words).flatMap wordBytes) with
    ⟨failure, failed⟩ | ⟨nonempty, -, buffer, read, loops⟩
  · rw [failed]
    apply Undone.idle
    rintro ⟨ok, -⟩
    cases ok
  · have in_file : ∀ c, 0 ≤ c → c < 0 + numCpu → ∀ t e, entries[t]? = some e →
        Stored failed S c e (buffer (c * entries.length + t)) := by
      intro c _ below t e at_t
      rw [Nat.zero_add] at below
      rw [(readFile_reads read).2 _ (row_inside below (List.getElem?_eq_some_iff.mp at_t).1)]
      exact stored c below t e at_t
    have undone := restoreCpus_undone allow pl faults.msr entries numCpu 0 distinct
      passed in_file m
    rw [loops, run_map, actions_map, along_map, Option.some_inj]
    simpa only [Nat.zero_le, true_and, Nat.zero_add] using undone

theorem msrSave_stores (shows : Shows g entries) {pl₀ : Platform} {faults : SaveFaults}
    {buffer : Nat → Word} {m₀ : Machine} {file : List UInt8} {allow : AllowMap}
    (saved : (run (kernel allow pl₀) (msrSave vfs pl₀ faults g numCpu buffer) m₀).1 =
      some (.ok file)) :
    entries ≠ [] ∧ ∃ words,
      file = ((List.range (entries.length * numCpu)).map words).flatMap wordBytes ∧
        ∀ c < numCpu, ∀ t e, entries[t]? = some e →
          Stored (ReadFails (kernel allow pl₀) vfs m₀) m₀.regs c e
            (words (c * entries.length + t)) := by
  obtain ⟨nonempty, saving⟩ := msrSave_parsed shows (Prod.ext saved rfl)
  obtain ⟨words, written, loops⟩ := saveFile_saves saving
  have rows := saveCpus_stores (S := m₀.regs)
    (fun cpu _ e m m' word same finished => saveMsr_stored e same finished)
    faults.msr entries numCpu 0 buffer rfl loops
  refine ⟨nonempty, words, written, fun c below => ?_⟩
  exact (rows.2.2 c (Nat.zero_le c) (by omega)).2

end Parsed

theorem passed_of_not_readFails {exec : Handler Msr Machine} {vfs : Word → Bool} {m : Machine}
    {cpu : Nat} {e : AllowlistEntry} (read : ¬ReadFails exec vfs m cpu e) : vfs e.msr = true := by
  by_contra blocked
  apply read
  rw [ReadFails, pread, if_neg blocked]
  rfl

theorem Stored.unmarked {failed : Nat → AllowlistEntry → Prop} {S : Nat → CpuRegs} {cpu : Nat}
    {e : AllowlistEntry} {word : Word} (stored : Stored failed S cpu e word)
    (saved : ¬failed cpu e) (full : e.wmask = BitVec.allOnes 64) :
    S cpu e.register ≠ G_COOKIE_BAD_READ := by
  intro marked
  have good := stored.good.mpr saved
  rw [stored.value saved, full, marked] at good
  exact absurd good (by decide)

/-- From a file that `msr_save` has written, `msr_restore` undoes whatever has
happened to the registers: the bits of the masks come back where the read had
not failed, nothing else is written, and a second time nothing at all. In the
file no value is taken for the mark of a failed read, nor such a mark for a value.
The files written may store more than the bits of the list, as plain files do. -/
theorem restore_undoes {entries : List AllowlistEntry}
    (distinct : (entries.map AllowlistEntry.register).Nodup) (vfs : Word → Bool) (numCpu : Nat)
    {g₀ g : Globals} (shows₀ : Shows g₀ entries) (shows : Shows g entries) (allow₀ : AllowMap)
    {allow : AllowMap} (covers : ∀ e ∈ entries, Covers allow e) (pl₀ pl : Platform)
    (online : ∀ cpu < numCpu, pl.online cpu = true) (saveFaults : SaveFaults)
    (buffer : Nat → Word) {restoreMtime allowlistMtime : Int}
    (notOlder : allowlistMtime ≤ restoreMtime) (parseErrno errno : Int) (m₀ m : Machine) :
    let exec₀ := kernel allow₀ pl₀
    let exec := kernel allow pl
    let failed := ReadFails exec₀ vfs m₀
    ∀ file, (run exec₀ (msrSave vfs pl₀ saveFaults g₀ numCpu buffer) m₀).1 = some (.ok file) →
      let prog := msrRestore vfs pl (.quietAt restoreMtime allowlistMtime parseErrno errno) g
        numCpu file
      let restored := run exec prog m
      Along Granted exec prog m →
        restored.1 = some (.ok ()) ∧
        (∀ cpu < numCpu, ∀ e ∈ entries, ¬failed cpu e → restored.2.regs cpu e.register =
          (m₀.regs cpu e.register &&& e.wmask) ||| (m.regs cpu e.register &&& ~~~e.wmask)) ∧
        (∀ cpu reg, (cpu < numCpu → ∀ e ∈ entries, e.register = reg → failed cpu e) →
          restored.2.regs cpu reg = m.regs cpu reg ∧
            ∀ value, .wrmsr cpu reg value ∉ actions exec prog m) ∧
        (∀ cpu, ∀ e ∈ entries,
          m₀.regs cpu e.register &&& e.wmask = m.regs cpu e.register &&& e.wmask →
            ∀ value, .wrmsr cpu e.register value ∉ actions exec prog m) ∧
        (∀ allow' pl' g' faults, Shows g' entries → ∀ cpu reg value,
          .wrmsr cpu reg value ∉ actions (kernel allow' pl')
            (msrRestore vfs pl' faults g' numCpu file) restored.2) ∧
        ∃ words, file =
            ((List.range (entries.length * numCpu)).map words).flatMap wordBytes ∧
          ∀ cpu < numCpu, ∀ t e, entries[t]? = some e →
            let word := words (cpu * entries.length + t)
            (isGoodValue word e.wmask = true ↔ ¬failed cpu e) ∧
              (¬failed cpu e → word = m₀.regs cpu e.register &&& e.wmask ∧
                (e.wmask = BitVec.allOnes 64 →
                  m₀.regs cpu e.register ≠ G_COOKIE_BAD_READ)) := by
  intro exec₀ exec failed file saved prog restored granted
  obtain ⟨nonempty, words, rfl, stored⟩ := msrSave_stores shows₀ saved
  have passed : ∀ c, ∀ e ∈ entries, ¬failed c e → vfs e.msr = true :=
    fun c e _ read => passed_of_not_readFails read
  have undone := msrRestore_undone allow pl shows distinct passed stored
    (.quietAt restoreMtime allowlistMtime parseErrno errno) m
  have finished : restored.1 = some (.ok ()) :=
    msrRestore_finishes exec vfs shows nonempty notOlder parseErrno errno rfl words online m
  have back := undone.restored ⟨finished, covers, granted⟩
  refine ⟨finished, ?_, ?_, ?_, ?_, words, rfl, ?_⟩
  · exact fun cpu below e member read => back cpu e ⟨below, member⟩ read
  · intro cpu reg onlyFailed
    constructor
    · exact undone.kept cpu reg fun e inPair same => onlyFailed inPair.1 e inPair.2 same
    · intro value member
      obtain ⟨e, inPair, same, read, -⟩ := undone.written cpu reg value member
      exact read (onlyFailed inPair.1 e inPair.2 same)
  · intro cpu e member agree value written
    obtain ⟨e', inPair, same, -, differs⟩ := undone.written cpu e.register value written
    rw [List.inj_on_of_nodup_map distinct inPair.2 member same] at differs
    exact differs agree
  · intro allow' pl' g' faults shows' cpu reg value member
    have again := msrRestore_undone allow' pl' shows' distinct passed stored faults restored.2
    obtain ⟨e, inPair, rfl, read, differs⟩ := again.written cpu reg value member
    rw [back cpu e inPair read, Mask.merge_and] at differs
    exact differs rfl
  · intro cpu below t e at_t word
    have told := stored cpu below t e at_t
    exact ⟨told.good, fun read => ⟨told.value read, told.unmarked read⟩⟩

def twoRegisters : List AllowlistEntry :=
  [{ wmask := 0xFF00, msr := 16 }, { wmask := BitVec.allOnes 64, msr := 32 }]

theorem restore_undoes_two_registers :
    let g : Globals := ⟨[⟨twoRegisters, true⟩], some 0, 2, fun _ => []⟩
    let pl : Platform := ⟨2, fun _ => true, fun _ _ _ => false, fun _ _ _ _ => false⟩
    let exec := kernel plainFiles pl
    let file := [0x1200, 0x1234, 0x1200, G_COOKIE_BAD_READ].flatMap wordBytes
    let prog := msrRestore (fun _ => true) pl (.quietAt 1 1 0 0) g 2 file
    let restored := (run exec prog ⟨fun _ _ => 0xFFFF, []⟩).2
    restored.regs 0 16 = 0x12FF ∧ restored.regs 0 32 = 0x1234 ∧
      restored.regs 1 16 = 0x12FF ∧ restored.regs 1 32 = 0xFFFF := by
  intro g pl exec file prog restored
  let pl₀ : Platform :=
    ⟨2, fun _ => true, fun cpu _ reg => cpu = 1 && reg = 32, fun _ _ _ _ => false⟩
  have shows : Shows g twoRegisters := ⟨fun _ => ⟨0, rfl, rfl⟩, rfl⟩
  obtain ⟨-, back, kept, -⟩ := restore_undoes (by decide) (fun _ => true) 2 shows shows plainFiles
    (fun e _ => plainFiles_covers e) pl₀ pl (by decide) .quiet (fun _ => 7) (Int.le_refl 1) 0 0
    ⟨fun _ _ => 0x1234, []⟩ ⟨fun _ _ => 0xFFFF, []⟩ file (by decide +kernel) (by decide +kernel)
  have first := back 0 (by decide) ⟨0xFF00, 16⟩ (by decide) (by decide +kernel)
  have second := back 0 (by decide) ⟨BitVec.allOnes 64, 32⟩ (by decide) (by decide +kernel)
  have third := back 1 (by decide) ⟨0xFF00, 16⟩ (by decide) (by decide +kernel)
  have fourth := kept 1 32 (by decide +kernel)
  exact ⟨first, second, third, fourth.1⟩

end MsrSafe
