import MsrSafe.Mediation
import MsrSafe.Msrsave

/-! The loops of `msr_save` and `msr_restore`, whatever the register files do:
the buffer is filled row by row, and every write to a register comes from the
word of its own processor and entry. -/

namespace MsrSafe

open Interleave

variable {vfs : Word → Bool} {pl : Platform} {exec : Handler Msr Machine} {cpu : Nat}

theorem openMsr_online {faults : MsrFaults} (opened : openMsr pl faults cpu = .ok ()) :
    pl.online cpu = true := by
  unfold openMsr at opened
  cases answer : msrOpen pl cpu with
  | error err =>
      rw [answer] at opened
      cases opened
  | ok => exact msrOpen_online pl cpu answer

theorem row_inside {length numCpu c t : Nat} (row : c < numCpu) (column : t < length) :
    c * length + t < length * numCpu := by
  calc
    c * length + t < (c + 1) * length := by
      rw [Nat.succ_mul]
      omega
    _ ≤ numCpu * length := Nat.mul_le_mul_right _ row
    _ = length * numCpu := Nat.mul_comm _ _

theorem isGoodValue_mark (mask : Word) :
    isGoodValue (if ~~~mask ≠ 0 then ~~~mask else G_COOKIE_BAD_READ) mask = false := by
  unfold isGoodValue
  by_cases partial_mask : ~~~mask ≠ 0
  · rw [if_pos partial_mask, if_pos partial_mask, BitVec.and_not_self]
    exact decide_eq_false partial_mask
  · rw [if_neg partial_mask, if_neg partial_mask]
    decide

theorem isGoodValue_masked {value mask : Word}
    (unmarked : ¬(~~~mask = 0 ∧ value &&& mask = G_COOKIE_BAD_READ)) :
    isGoodValue (value &&& mask) mask = true := by
  unfold isGoodValue
  by_cases partial_mask : ~~~mask ≠ 0
  · rw [if_pos partial_mask]
    refine decide_eq_true ?_
    rw [BitVec.and_comm mask, BitVec.and_assoc, BitVec.and_self]
  · rw [if_neg partial_mask]
    exact decide_eq_true fun cookie => unmarked ⟨not_not.mp partial_mask, cookie⟩

theorem saveMsr_word (e : AllowlistEntry) {m m' : Machine} {word : Word}
    (finished : run exec (saveMsr vfs cpu e).run m = (.ok word, m')) :
    m' = (run exec (pread vfs cpu e.msr) m).2 ∧
      match (run exec (pread vfs cpu e.msr) m).1 with
      | .ok value => word = value &&& e.wmask ∧ isGoodValue word e.wmask = true
      | .error _ => isGoodValue word e.wmask = false := by
  obtain ⟨answer, between, asked, stored⟩ := run_except_bind_ok finished
  rw [run_except_lift] at asked
  obtain ⟨answered, rfl⟩ := Prod.mk.inj asked
  rw [Except.ok.injEq] at answered
  rw [answered]
  cases answer with
  | error err =>
      cases stored
      exact ⟨rfl, isGoodValue_mark e.wmask⟩
  | ok value =>
      dsimp only at stored
      split at stored
      · cases stored
      · rename_i unmarked
        simp only [Bool.and_eq_true, decide_eq_true_eq] at unmarked
        cases stored
        exact ⟨rfl, rfl, isGoodValue_masked unmarked⟩

/-- The loop over the list: when each turn leaves the registers alone and stores
a word with `P`, the buffer has such words behind what it had before. -/
theorem saveMsrs_stores {S : Nat → CpuRegs} {P : AllowlistEntry → Word → Prop}
    (step : ∀ e m m' word, m.regs = S →
      run exec (saveMsr vfs cpu e).run m = (.ok word, m') → m'.regs = S ∧ P e word)
    (base : Nat) (entries : List AllowlistEntry) (j : Nat) (buffer : Nat → Word)
    {m m' : Machine} {buffer' : Nat → Word} (start : m.regs = S)
    (finished : run exec (saveMsrs vfs cpu base entries j buffer).run m = (.ok buffer', m')) :
    m'.regs = S ∧ (∀ k < base + j, buffer' k = buffer k) ∧
      ∀ t e, entries[t]? = some e → P e (buffer' (base + j + t)) := by
  induction entries generalizing j buffer m with
  | nil =>
      cases finished
      exact ⟨start, fun _ _ => rfl, fun t e at_t => by cases at_t⟩
  | cons e entries ih =>
      obtain ⟨word, between, saved, rest⟩ := run_except_bind_ok finished
      obtain ⟨regs, word_saved⟩ := step e m between word start saved
      obtain ⟨regs', before, behind⟩ := ih (j + 1) _ regs rest
      refine ⟨regs', fun k bound => ?_, fun t e' at_t => ?_⟩
      · rw [before k (by omega), Function.update_of_ne (by omega)]
      · cases t with
        | zero =>
            cases at_t
            rw [Nat.add_zero, before _ (by omega), Function.update_self]
            exact word_saved
        | succ t =>
            have later := behind t e' at_t
            rw [show base + j + (t + 1) = base + (j + 1) + t by omega]
            exact later

/-- The loop over the processors: it gets to its end only if all of them are
online, and the buffer has a row of words for each. -/
theorem saveCpus_stores {S : Nat → CpuRegs} {P : Nat → AllowlistEntry → Word → Prop}
    (step : ∀ cpu, pl.online cpu = true → ∀ e m m' word, m.regs = S →
      run exec (saveMsr vfs cpu e).run m = (.ok word, m') → m'.regs = S ∧ P cpu e word)
    (faults : MsrFaults) (entries : List AllowlistEntry) (left i : Nat) (buffer : Nat → Word)
    {m m' : Machine} {buffer' : Nat → Word} (start : m.regs = S)
    (finished : run exec (saveCpus vfs pl faults entries left i buffer).run m = (.ok buffer', m')) :
    m'.regs = S ∧ (∀ k < i * entries.length, buffer' k = buffer k) ∧
      ∀ c, i ≤ c → c < i + left → pl.online c = true ∧
        ∀ t e, entries[t]? = some e → P c e (buffer' (c * entries.length + t)) := by
  induction left generalizing i buffer m with
  | zero =>
      cases finished
      exact ⟨start, fun _ _ => rfl, fun c from_i below => absurd below (by omega)⟩
  | succ left ih =>
      obtain ⟨⟨⟩, between, opened, finished⟩ := run_except_bind_ok finished
      obtain ⟨accepted, rfl⟩ := Prod.mk.inj opened
      have online := openMsr_online accepted
      obtain ⟨row, between, saved, finished⟩ := run_except_bind_ok finished
      obtain ⟨regs, before, words⟩ := saveMsrs_stores (step i online) _ entries 0 buffer start saved
      obtain ⟨⟨⟩, between, closed, finished⟩ := run_except_bind_ok finished
      obtain ⟨-, rfl⟩ := Prod.mk.inj closed
      obtain ⟨regs', before', rows⟩ := ih (i + 1) row regs finished
      have next : (i + 1) * entries.length = i * entries.length + entries.length :=
        Nat.succ_mul i entries.length
      refine ⟨regs', fun k bound => ?_, fun c from_i below => ?_⟩
      · rw [before' k (by omega), before k (by omega)]
      · rcases Nat.eq_or_lt_of_le from_i with rfl | further
        · refine ⟨online, fun t e at_t => ?_⟩
          have inside := (List.getElem?_eq_some_iff.mp at_t).1
          rw [before' _ (by omega)]
          exact words t e at_t
        · exact rows c further (by omega)

/-! ## Restoring -/

theorem restoreMsr_bad {e : AllowlistEntry} {word : Word}
    (bad : isGoodValue word e.wmask = false) : restoreMsr vfs cpu e word = .done () := by
  rw [restoreMsr, bad]
  rfl

def MergesInto (allow : AllowMap) (cpu : Nat) (reg : Addr) (data : Word) : MsrAction → Prop
  | .wrmsr c r value => c = cpu ∧ r = reg ∧ ∃ old, value = Mask.merge (maskOf allow reg) old data
  | .batchOp _ _ => False
  | _ => True

def KnownMask (allow : AllowMap) : (action : MsrAction) → action.Answer → Prop
  | .writemask reg, mask => mask = allow.writemask reg
  | .maskexists _, _ => True
  | .rdmsr _ _, _ => True
  | .wrmsr _ _ _, _ => True
  | .batchOp _ _, _ => True

theorem kernel_knownMask (allow : AllowMap) (pl : Platform) (m : Machine) (action : MsrAction) :
    KnownMask allow action (kernel allow pl action m).1 := by
  cases action with
  | writemask reg => rfl
  | _ => trivial

theorem guarded_pread (offset : Word) :
    WithoutWrmsr (pread vfs cpu offset) := by
  rw [pread]
  split
  · exact withoutWrmsr_msrRead cpu offset 8 true
  · trivial

theorem guarded_pwrite (allow : AllowMap) (offset data : Word) :
    Guarded (MergesInto allow cpu (offset.setWidth 32) data) (KnownMask allow) (fun _ => True)
      (pwrite vfs cpu offset data) := by
  have found : ∀ mask, KnownMask allow (.writemask ((offset.setWidth 32).setWidth 64)) mask →
      mask = maskOf allow (offset.setWidth 32) := fun _ known => known
  rw [pwrite]
  split
  swap
  · trivial
  apply msrWrite_guarded cpu offset 8 true data trivial
  · exact fun _ _ _ => trivial
  · intro mask curdata known _ _
    exact ⟨rfl, rfl, curdata, by rw [found mask known]⟩
  · intro mask known full
    refine ⟨rfl, rfl, 0, ?_⟩
    rw [← found mask known, full]
    exact (Mask.merge_allOnes _ _).symm

theorem pread_regs (allow : AllowMap) (vfs : Word → Bool) (pl : Platform) (cpu : Nat)
    (offset : Word) (m : Machine) :
    (run (kernel allow pl) (pread vfs cpu offset) m).2.regs = m.regs := by
  rw [pread]
  split
  swap
  · rfl
  rw [msrRead_eq, if_neg (by decide), run_maskexists]
  split
  · rfl
  · rw [run_rdmsr]
    have kept := rdmsrSafeOnCpu_regs pl cpu (offset.setWidth 32) m
    split <;> exact kept

theorem pread_ok {allow : AllowMap} {offset value : Word} {m : Machine}
    (answered : (run (kernel allow pl) (pread vfs cpu offset) m).1 = .ok value) :
    value = m.regs cpu (offset.setWidth 32) := by
  rw [pread] at answered
  split at answered
  swap
  · cases answered
  rw [msrRead_eq, if_neg (by decide), run_maskexists] at answered
  split at answered
  · cases answered
  rw [run_rdmsr] at answered
  split at answered
  · cases answered
  · rename_i data read
    cases answered
    exact rdmsrSafeOnCpu_ok read

theorem pwrite_frame (allow : AllowMap) {offset : Word} {cpu' : Nat} {reg : Addr}
    (other : ¬(cpu' = cpu ∧ reg = offset.setWidth 32)) (data : Word) (m : Machine) :
    (run (kernel allow pl) (pwrite vfs cpu offset data) m).2.regs cpu' reg = m.regs cpu' reg := by
  have step : ∀ (s : Machine) action, s.regs cpu' reg = m.regs cpu' reg →
      MergesInto allow cpu (offset.setWidth 32) data action →
      (kernel allow pl action s).2.regs cpu' reg = m.regs cpu' reg ∧
        KnownMask allow action (kernel allow pl action s).1 := by
    intro s action same permitted
    refine ⟨?_, kernel_knownMask allow pl s action⟩
    cases action with
    | maskexists => exact same
    | writemask => exact same
    | rdmsr c r =>
        exact (congrFun (congrFun (rdmsrSafeOnCpu_regs pl c r s) cpu') reg).trans same
    | wrmsr c r value =>
        obtain ⟨rfl, rfl, -⟩ := permitted
        exact (wrmsrSafeOnCpu_frame pl other value s).trans same
    | batchOp => exact permitted.elim
  exact (run_guarded (kernel allow pl) _ step _ m rfl (guarded_pwrite allow offset data)).1

/-- A turn writes only when the word is a value that differs from what is read,
and then this word over the other bits of what was read. -/
theorem wrmsr_mem_restoreMsr {allow : AllowMap} {e : AllowlistEntry} {word value : Word} {c : Nat}
    {reg : Addr} {m : Machine}
    (member : .wrmsr c reg value ∈ actions (kernel allow pl) (restoreMsr vfs cpu e word) m) :
    c = cpu ∧ reg = e.msr.setWidth 32 ∧ isGoodValue word e.wmask = true ∧
      ∃ readVal old, (run (kernel allow pl) (pread vfs cpu e.msr) m).1 = .ok readVal ∧
        word ≠ readVal &&& e.wmask ∧
        value = Mask.merge (maskOf allow reg) old (word ||| (readVal &&& ~~~e.wmask)) := by
  cases good : isGoodValue word e.wmask with
  | false =>
      rw [restoreMsr_bad good] at member
      cases member
  | true =>
      rw [restoreMsr, good, if_pos rfl, actions_bind] at member
      rcases List.mem_append.mp member with read | written
      · exact (actions_guarded (kernel allow pl) (fun _ _ => trivial) _ _ (guarded_pread _) _
          read).elim
      · cases answer : (run (kernel allow pl) (pread vfs cpu e.msr) m).1 with
        | error err =>
            rw [answer] at written
            cases written
        | ok readVal =>
            rw [answer] at written
            dsimp only at written
            by_cases changed : word ≠ readVal &&& e.wmask
            swap
            · rw [if_neg changed] at written
              cases written
            rw [if_pos changed, actions_bind, Prog.pure_eq, actions_done, List.append_nil]
              at written
            obtain ⟨sameCpu, sameReg, old, merged⟩ := actions_guarded (kernel allow pl)
              (kernel_knownMask allow pl) _ _ (guarded_pwrite allow _ _) _ written
            subst sameReg
            exact ⟨sameCpu, rfl, rfl, readVal, old, rfl, changed, merged⟩

theorem mem_actions_restoreMsrs {buffer : Nat → Word} (base : Nat) (entries : List AllowlistEntry)
    (j : Nat) {m : Machine} {action : MsrAction}
    (member : action ∈ actions exec (restoreMsrs vfs cpu base buffer entries j) m) :
    ∃ t e between, entries[t]? = some e ∧
      action ∈ actions exec (restoreMsr vfs cpu e (buffer (base + j + t))) between := by
  induction entries generalizing j m with
  | nil => cases member
  | cons e entries ih =>
      rw [restoreMsrs, actions_bind] at member
      rcases List.mem_append.mp member with here | later
      · exact ⟨0, e, m, rfl, here⟩
      · obtain ⟨t, e', between, at_t, there⟩ := ih (j + 1) later
        refine ⟨t + 1, e', between, at_t, ?_⟩
        rw [show base + j + (t + 1) = base + (j + 1) + t by omega]
        exact there

def fileWords (count : Nat) (file : List UInt8) (k : Nat) : Word :=
  ((LittleEndian.items 8 count file).1.map bytesWord).getD k 0

theorem readFile_ok {faults : RestoreFaults} {count : Nat} {file : List UInt8}
    {buffer : Nat → Word} (read : readFile faults count file = .ok buffer) :
    attempt [faults.openFile, faults.readFile] = .ok () ∧ attempt [faults.closeFile] = .ok () ∧
      file.length = 8 * count ∧ buffer = fileWords count file := by
  rw [readFile] at read
  split at read
  · cases read
  rename_i opened
  dsimp only at read
  split at read
  · cases read
  rename_i complete
  simp only [Bool.or_eq_true, decide_eq_true_eq, not_or, not_not] at complete
  split at read
  · cases read
  rename_i closed
  cases read
  exact ⟨opened, closed, (LittleEndian.items_complete 8 count file).mp complete, rfl⟩

theorem readFile_whole {faults : RestoreFaults} {count : Nat} {file : List UInt8}
    (opened : attempt [faults.openFile, faults.readFile] = .ok ())
    (closed : attempt [faults.closeFile] = .ok ()) (size : file.length = 8 * count) :
    readFile faults count file = .ok (fileWords count file) := by
  have complete := (LittleEndian.items_complete 8 count file).mpr size
  rw [readFile, opened, closed]
  dsimp only
  rw [if_neg]
  · rfl
  · simp [complete]

theorem lift_ok_bind {α β : Type} (result : α) (f : α → Tool β) :
    (Tool.lift (.ok result) >>= f) = f result := rfl

theorem lift_error_bind {α β : Type} (failure : Failure) (f : α → Tool β) :
    (Tool.lift (.error failure) >>= f) = Tool.lift (.error failure) := rfl

theorem actions_lift {α σ : Type} {exec : Handler Msr σ} (result : Except Failure α) (s : σ) :
    actions exec (Tool.lift result).run s = [] := rfl

/-- An action of the loop over the processors belongs to a turn of the loops,
with the word of this processor and entry. -/
theorem mem_actions_restoreCpus {faults : MsrFaults} {buffer : Nat → Word}
    (entries : List AllowlistEntry) (left i : Nat) {m : Machine} {action : MsrAction}
    (member : action ∈
      actions exec (restoreCpus vfs pl faults entries buffer left i).run m) :
    ∃ c t e between, i ≤ c ∧ c < i + left ∧ entries[t]? = some e ∧
      action ∈ actions exec (restoreMsr vfs c e (buffer (c * entries.length + t))) between := by
  induction left generalizing i m with
  | zero => cases member
  | succ left ih =>
      rw [restoreCpus, actions_except_bind, actions_lift, List.nil_append] at member
      split at member
      swap
      · cases member
      rw [actions_except_bind, actions_except_lift] at member
      rcases List.mem_append.mp member with here | later
      · obtain ⟨t, e, between, at_t, there⟩ := mem_actions_restoreMsrs _ entries 0 here
        exact ⟨i, t, e, between, Nat.le_refl i, by omega, at_t, there⟩
      · split at later
        swap
        · cases later
        rw [actions_except_bind, actions_lift, List.nil_append] at later
        split at later
        · obtain ⟨c, t, e, between, from_i, below, at_t, there⟩ := ih (i + 1) later
          exact ⟨c, t, e, between, by omega, by omega, at_t, there⟩
        · cases later

theorem restoreFile_cases (vfs : Word → Bool) (pl : Platform) (faults : RestoreFaults)
    (entries : List AllowlistEntry) (numCpu : Nat) (file : List UInt8) :
    (∃ failure, restoreFile vfs pl faults entries numCpu file = Tool.lift (.error failure)) ∨
      attempt [faults.statRestore, faults.statAllowlist] = .ok () ∧
        faults.allowlistMtime ≤ faults.restoreMtime ∧ attempt [faults.mallocBuffer] = .ok () ∧
        ∃ buffer, readFile faults (entries.length * numCpu) file = .ok buffer ∧
          restoreFile vfs pl faults entries numCpu file =
            restoreCpus vfs pl faults.msr entries buffer numCpu 0 := by
  rw [restoreFile]
  rcases attempt_ok_or [faults.statRestore, faults.statAllowlist] with looked | ⟨failure, failed⟩
  swap
  · rw [failed]
    exact .inl ⟨failure, rfl⟩
  rw [looked, lift_ok_bind]
  by_cases older : faults.restoreMtime < faults.allowlistMtime
  · rw [if_pos older]
    exact .inl ⟨_, rfl⟩
  rw [if_neg older]
  rcases attempt_ok_or [faults.mallocBuffer] with allocated | ⟨failure, failed⟩
  swap
  · rw [failed]
    exact .inl ⟨failure, rfl⟩
  rw [allocated]
  cases read : readFile faults (entries.length * numCpu) file with
  | error failure => exact .inl ⟨failure, rfl⟩
  | ok buffer => exact .inr ⟨rfl, not_lt.mp older, rfl, buffer, rfl, rfl⟩

theorem msrRestore_cases (vfs : Word → Bool) (pl : Platform) {g : Globals}
    {entries : List AllowlistEntry} (shows : Shows g entries) (faults : RestoreFaults)
    (numCpu : Nat) (file : List UInt8) :
    (∃ failure, msrRestore vfs pl faults g numCpu file = .done (some (.error failure))) ∨
      entries ≠ [] ∧ faults.allowlistMtime ≤ faults.restoreMtime ∧
        ∃ buffer, readFile faults (entries.length * numCpu) file = .ok buffer ∧
          msrRestore vfs pl faults g numCpu file =
            some <$> (restoreCpus vfs pl faults.msr entries buffer numCpu 0).run := by
  rw [msrRestore]
  by_cases empty : entries = []
  · subst empty
    obtain ⟨failure, failed⟩ := msrParseAllowlist_nil shows faults.parse
    rw [failed]
    exact .inl ⟨failure, rfl⟩
  rcases msrParseAllowlist_installed shows empty faults.parse with parsed | ⟨failure, failed⟩
  swap
  · rw [failed]
    exact .inl ⟨failure, rfl⟩
  rw [parsed]
  dsimp only
  rcases restoreFile_cases vfs pl faults entries numCpu file with
    ⟨failure, failed⟩ | ⟨-, notOlder, -, buffer, read, loops⟩
  · rw [failed]
    exact .inl ⟨failure, rfl⟩
  · rw [loops]
    exact .inr ⟨empty, notOlder, buffer, read, rfl⟩

end MsrSafe
