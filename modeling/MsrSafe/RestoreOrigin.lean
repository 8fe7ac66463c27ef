import MsrSafe.RestoreUndo

/-! Where the values that `msr_restore` writes come from. The file holds words
and nothing else, so that its word for a processor and an address is found only
if the list and the number of processors are those of `msr_save`. -/

namespace MsrSafe

open Interleave

/-- The list from `msr_save` to `msr_restore`: what it was and since when, the
time at which the file was written, and how it changed afterwards. -/
structure Timeline where
  entries : List AllowlistEntry
  listedAt : Int
  savedAt : Int
  changes : List (Int × List AllowlistEntry)
  listed_before : listedAt ≤ savedAt
  changes_after : ∀ change ∈ changes, savedAt ≤ change.1

namespace Timeline

variable (t : Timeline)

def current : List AllowlistEntry := (t.changes.getLast?.map (·.2)).getD t.entries

def mtime : Int := (t.changes.getLast?.map (·.1)).getD t.listedAt

def Changed : Prop := ∃ change ∈ t.changes, change.2 ≠ t.entries

instance : Decidable t.Changed :=
  inferInstanceAs (Decidable (∃ change ∈ t.changes, change.2 ≠ t.entries))

/-- A change in the second in which the file was written, to a list that needs
as many words of the file. -/
def Undetected (n₁ n₂ : Nat) : Prop :=
  t.Changed ∧ t.mtime = t.savedAt ∧ t.current ≠ [] ∧
    t.current.length * n₂ = t.entries.length * n₁

variable {t : Timeline}

theorem current_of_not_changed (unchanged : ¬t.Changed) : t.current = t.entries := by
  rw [current]
  cases last : t.changes.getLast? with
  | none => rfl
  | some change =>
      by_contra other
      exact unchanged ⟨change, List.mem_of_getLast? last, other⟩

theorem mtime_eq_savedAt (changed : t.Changed) (notOlder : t.mtime ≤ t.savedAt) :
    t.mtime = t.savedAt := by
  obtain ⟨change, member, -⟩ := changed
  cases last : t.changes.getLast? with
  | none =>
      rw [List.getLast?_eq_none_iff.mp last] at member
      cases member
  | some final =>
      have after := t.changes_after final (List.mem_of_getLast? last)
      rw [mtime, last] at notOlder ⊢
      exact le_antisymm notOlder after

end Timeline

/-- Every write of the trace takes the value that was saved from the same
register of the same processor, under the same mask; and when the list or the
number of processors is another one, the program fails and writes nothing. -/
def RestoresOwn (t : Timeline) (n₁ n₂ : Nat) (allow : AllowMap) (S : Nat → CpuRegs)
    (result : Option (Except Failure Unit)) (trace : List MsrAction) : Prop :=
  (∀ cpu reg value, .wrmsr cpu reg value ∈ trace →
    ∃ (j : Nat) (e : AllowlistEntry) (readVal old : Word),
      t.entries[j]? = some e ∧ t.current[j]? = some e ∧ cpu < n₁ ∧ reg = e.register ∧
        value = Mask.merge (maskOf allow reg) old
          ((S cpu reg &&& e.wmask) ||| (readVal &&& ~~~e.wmask))) ∧
  (t.Changed ∨ n₁ ≠ n₂ ∧ t.entries ≠ [] →
    (∃ failure, result = some (.error failure)) ∧
      ∀ cpu reg value, .wrmsr cpu reg value ∉ trace)

theorem RestoresOwn.of_failed {t : Timeline} {n₁ n₂ : Nat} {allow : AllowMap}
    {S : Nat → CpuRegs} (failure : Failure) :
    RestoresOwn t n₁ n₂ allow S (some (.error failure)) [] := by
  constructor
  · intro cpu reg value member
    cases member
  · intro _
    refine ⟨⟨failure, rfl⟩, ?_⟩
    intro cpu reg value member
    cases member

theorem restoreCpus_origin {entries : List AllowlistEntry} {numCpu : Nat} {allow : AllowMap}
    {vfs : Word → Bool} {pl : Platform} {failed : Nat → AllowlistEntry → Prop}
    {S : Nat → CpuRegs} {words : Nat → Word}
    (stored : ∀ c < numCpu, ∀ t e, entries[t]? = some e →
      Stored failed S c e (words (c * entries.length + t)))
    (faults : MsrFaults) {m : Machine} {cpu : Nat} {reg : Addr} {value : Word}
    (member : .wrmsr cpu reg value ∈
      actions (kernel allow pl) (restoreCpus vfs pl faults entries words numCpu 0).run m) :
    ∃ (j : Nat) (e : AllowlistEntry) (readVal old : Word),
      entries[j]? = some e ∧ cpu < numCpu ∧ reg = e.register ∧
        value = Mask.merge (maskOf allow reg) old
          ((S cpu reg &&& e.wmask) ||| (readVal &&& ~~~e.wmask)) := by
  obtain ⟨c, j, e, between, -, below, at_j, inTurn⟩ :=
    mem_actions_restoreCpus entries numCpu 0 member
  rw [Nat.zero_add] at below
  obtain ⟨rfl, rfl, good, readVal, old, -, -, merged⟩ := wrmsr_mem_restoreMsr inTurn
  have word := stored cpu below j e at_j
  rw [word.value (word.good.mp good)] at merged
  exact ⟨j, e, readVal, old, at_j, below, rfl, merged⟩

/-- `msr_restore` writes no value into a register it is not from, and notices
that the list or the number of processors is another one, however its calls turn
out, unless the list was changed in the second in which the file was written and
needs as many words; and then, if no call fails, it does not notice. -/
theorem restores_own_iff (t : Timeline) (n₁ n₂ : Nat) {g₀ g : Globals}
    (shows₀ : Shows g₀ t.entries) (shows : Shows g t.current) (allow₀ allow : AllowMap)
    (vfs₀ vfs : Word → Bool) (pl₀ pl : Platform) (saveFaults : SaveFaults)
    (buffer : Nat → Word) (m₀ m : Machine) :
    let exec := kernel allow pl
    ∀ file, (run (kernel allow₀ pl₀) (msrSave vfs₀ pl₀ saveFaults g₀ n₁ buffer) m₀).1 =
      some (.ok file) →
      let holds := fun faults : RestoreFaults =>
        let prog := msrRestore vfs pl
          { faults with restoreMtime := t.savedAt, allowlistMtime := t.mtime } g n₂ file
        RestoresOwn t n₁ n₂ allow m₀.regs (run exec prog m).1 (actions exec prog m)
      (¬t.Undetected n₁ n₂ → ∀ faults, holds faults) ∧
        ((∀ cpu < n₂, pl.online cpu = true) → ∀ parseErrno errno,
          holds (.quietAt t.savedAt t.mtime parseErrno errno) ↔ ¬t.Undetected n₁ n₂) := by
  intro exec file saved holds
  obtain ⟨listed, words, rfl, stored⟩ := msrSave_stores shows₀ saved
  have enough : ¬t.Undetected n₁ n₂ → ∀ faults, holds faults := by
    intro detected faults
    change RestoresOwn t n₁ n₂ allow m₀.regs _ _
    rcases msrRestore_cases vfs pl shows
      { faults with restoreMtime := t.savedAt, allowlistMtime := t.mtime } n₂ _ with
      ⟨failure, failed⟩ | ⟨nonempty, notOlder, filled, read, loops⟩
    · rw [failed]
      exact RestoresOwn.of_failed failure
    obtain ⟨sizes, same⟩ := readFile_reads read
    have unchanged : ¬t.Changed := fun changed =>
      detected ⟨changed, Timeline.mtime_eq_savedAt changed notOlder, nonempty, sizes.symm⟩
    have current := Timeline.current_of_not_changed unchanged
    rw [current] at sizes same loops
    have numCpu : n₁ = n₂ :=
      Nat.eq_of_mul_eq_mul_left (List.length_pos_iff.mpr listed) sizes
    subst numCpu
    constructor
    · intro cpu reg value member
      rw [loops, actions_map] at member
      obtain ⟨j, e, readVal, old, at_j, below, origin⟩ := restoreCpus_origin
        (fun c row j e at_j => by
          rw [same _ (row_inside row (List.getElem?_eq_some_iff.mp at_j).1)]
          exact stored c row j e at_j) faults.msr member
      exact ⟨j, e, readVal, old, at_j, current ▸ at_j, below, origin⟩
    · rintro (changed | ⟨other, -⟩)
      · exact absurd changed unchanged
      · exact absurd rfl other
  refine ⟨enough, fun online parseErrno errno => ⟨?_, fun detected => enough detected _⟩⟩
  rintro own ⟨changed, sameSecond, nonempty, sizes⟩
  obtain ⟨⟨failure, failed⟩, -⟩ := own.2 (.inl changed)
  have finished := msrRestore_finishes exec vfs shows nonempty sameSecond.le parseErrno errno
    sizes words online m
  cases failed.symm.trans finished

def sameSecond : Timeline where
  entries := [{ wmask := 0xFF, msr := 16 }]
  listedAt := 0
  savedAt := 5
  changes := [(5, [{ wmask := 0xFF, msr := 32 }])]
  listed_before := by decide
  changes_after := by decide

/-- `msr_restore` succeeds, and the register of the new list has the value of
the one of the old list. -/
theorem restores_into_other_register :
    let g₀ : Globals := ⟨[⟨sameSecond.entries, true⟩], some 0, 1, fun _ => []⟩
    let g : Globals := ⟨[⟨sameSecond.current, true⟩], some 0, 1, fun _ => []⟩
    let pl : Platform := ⟨1, fun _ => true, fun _ _ _ => false, fun _ _ _ _ => false⟩
    let m : Machine := ⟨fun _ reg => if reg = 16 then 0x1234 else 0xFFFF, []⟩
    let exec := kernel (.ofEntries sameSecond.current) pl
    let prog := msrRestore (fun _ => true) pl
      (.quietAt sameSecond.savedAt sameSecond.mtime 0 0) g 1 (wordBytes 0x34)
    Shows g₀ sameSecond.entries ∧ Shows g sameSecond.current ∧
      (run (kernel (.ofEntries sameSecond.entries) pl)
        (msrSave (fun _ => true) pl .quiet g₀ 1 fun _ => 7) m).1 =
          some (.ok (wordBytes 0x34)) ∧
      (run exec prog m).2.regs 0 32 = 0xFF34 ∧
      ¬RestoresOwn sameSecond 1 1 (.ofEntries sameSecond.current) m.regs (run exec prog m).1
        (actions exec prog m) := by
  intro g₀ g pl m exec prog
  have succeeds : (run exec prog m).1 = some (.ok ()) := by decide +kernel
  refine ⟨⟨fun _ => ⟨0, rfl, rfl⟩, rfl⟩, ⟨fun _ => ⟨0, rfl, rfl⟩, rfl⟩, by decide +kernel,
    by decide +kernel, ?_⟩
  intro own
  obtain ⟨⟨failure, failed⟩, -⟩ := own.2 (.inl (by decide))
  cases failed.symm.trans succeeds

theorem restores_own_iff_next_second :
    let t : Timeline := ⟨[{ wmask := 0xFF, msr := 16 }], 0, 5, [(6, [{ wmask := 0xFF, msr := 32 }])],
      by decide, by decide⟩
    let g : Globals := ⟨[⟨t.current, true⟩], some 0, 1, fun _ => []⟩
    let pl : Platform := ⟨1, fun _ => true, fun _ _ _ => false, fun _ _ _ _ => false⟩
    let exec := kernel (.ofEntries t.current) pl
    let prog := msrRestore (fun _ => true) pl (.quietAt t.savedAt t.mtime 0 0) g 1 (wordBytes 0x34)
    let m : Machine := ⟨fun _ _ => 0x1234, []⟩
    RestoresOwn t 1 1 (.ofEntries t.current) m.regs (run exec prog m).1 (actions exec prog m) := by
  intro t g pl exec prog m
  have shows₀ : Shows ⟨[⟨t.entries, true⟩], some 0, 1, fun _ => []⟩ t.entries :=
    ⟨fun _ => ⟨0, rfl, rfl⟩, rfl⟩
  have shows : Shows g t.current := ⟨fun _ => ⟨0, rfl, rfl⟩, rfl⟩
  have noticed : ¬t.Undetected 1 1 := fun undetected => absurd undetected.2.1 (by decide)
  exact ((restores_own_iff t 1 1 shows₀ shows (.ofEntries t.entries) (.ofEntries t.current)
    (fun _ => true) (fun _ => true) pl pl .quiet (fun _ => 7) m m (wordBytes 0x34)
    (by decide +kernel)).2 (by decide) 0 0).mpr noticed

end MsrSafe
