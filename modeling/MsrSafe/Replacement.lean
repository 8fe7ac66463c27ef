import MsrSafe.AllowlistInvariant

/-! Calls that run while the allowlist is replaced. A mask lookup reads the
entry it found after it has left the critical section. -/

namespace MsrSafe

/-- A write that gets as far as freeing the installed array: it clears the list
or gets to `create_allowlist`. -/
def WriteCall.replaces (call : WriteCall) : Bool :=
  decide (call.text.length ≤ 2) || call.creates

structure Retains (n : Nat) (g g' : Globals) : Prop where
  length : g.heap.length ≤ g'.heap.length
  slots : ∀ array < n, g'.slots array = g.slots array
  live : ∀ array < n, g'.live array = true → g.live array = true

theorem Retains.refl (n : Nat) (g : Globals) : Retains n g g :=
  ⟨le_rfl, fun _ _ => rfl, fun _ _ living => living⟩

theorem Retains.trans {n : Nat} {g g' g'' : Globals} (first : Retains n g g')
    (second : Retains n g' g'') : Retains n g g'' :=
  ⟨first.length.trans second.length,
    fun array old => (second.slots array old).trans (first.slots array old),
    fun array old living => first.live array old (second.live array old living)⟩

theorem retains_deleteAllowlist (n : Nat) (g : Globals) : Retains n g (deleteAllowlist g) := by
  unfold deleteAllowlist
  cases present : g.allowlist with
  | none => exact .refl n g
  | some array =>
      refine ⟨by simp, fun other _ => ?_, fun other _ => ?_⟩
      · unfold Globals.slots
        dsimp only
        rw [List.getElem?_modify]
        cases g.heap[other]? with
        | none => rfl
        | some a => by_cases same : array = other <;> simp [same]
      · unfold Globals.live
        dsimp only
        rw [List.getElem?_modify]
        cases g.heap[other]? with
        | none => exact id
        | some a => by_cases same : array = other <;> simp [same]

theorem retains_store {n array : Nat} (g : Globals) (index : Nat) (entry : AllowlistEntry)
    (new : n ≤ array) : Retains n g (g.store ⟨array, index⟩ entry) := by
  refine ⟨by simp [Globals.store], fun other old => ?_, fun other _ living => ?_⟩
  · have different : array ≠ other := by omega
    unfold Globals.store Globals.slots
    dsimp only
    rw [List.getElem?_modify]
    cases g.heap[other]? <;> simp [different]
  · rwa [Globals.live_store] at living

theorem retains_secondPass (bucket : Word → Fin 64) {n array : Nat} (new : n ≤ array)
    (fuel : Nat) (g : Globals) (index : Nat) (buf : List UInt8) (s : Nat) :
    Retains n g (secondPass bucket array fuel g index buf s).1 := by
  induction fuel generalizing g index buf s with
  | zero => exact .refl n g
  | succ fuel ih =>
      rw [secondPass]
      split
      · exact .refl n g
      · exact retains_deleteAllowlist n g
      · rename_i buf' next e parsed
        have stored := retains_store g index e new
        dsimp only
        split
        · exact stored.trans (retains_deleteAllowlist n _)
        · have rest := ih (addToAllowlist bucket (g.store ⟨array, index⟩ e) ⟨array, index⟩)
            (index + 1) buf' next
          exact stored.trans ⟨rest.length, rest.slots, rest.live⟩

theorem retains_installEntries (bucket : Word → Fin 64) (call : WriteCall) (buf : List UInt8)
    (numEntries : Nat) (g : Globals) :
    Retains g.heap.length (deleteAllowlist g.hashInit)
      (installEntries bucket call buf numEntries g).1 := by
  have length : (deleteAllowlist g.hashInit).heap.length = g.heap.length := by
    unfold deleteAllowlist Globals.hashInit
    dsimp only
    split <;> simp
  unfold installEntries createAllowlist
  dsimp only
  generalize deleteAllowlist g.hashInit = cleared at length ⊢
  cases call.arrayAllocated with
  | false => exact ⟨le_rfl, fun _ _ => rfl, fun _ _ living => living⟩
  | true =>
      refine Retains.trans ?_ (retains_secondPass bucket length.ge _ _ _ _ _)
      refine ⟨by simp, fun array old => ?_, fun array old living => ?_⟩
      · unfold Globals.slots
        dsimp only
        rw [List.getElem?_append_left (by omega)]
      · unfold Globals.live at living ⊢
        dsimp only at living
        rwa [List.getElem?_append_left (by omega)] at living

theorem writeAllowlist_retains (bucket : Word → Fin 64) (call : WriteCall) (g : Globals) :
    if call.replaces then
      Retains g.heap.length (deleteAllowlist g) (writeAllowlist bucket call g).1
    else (writeAllowlist bucket call g).1 = g := by
  have cleared : ∀ n, Retains n (deleteAllowlist g) (deleteAllowlist g.hashInit) := by
    intro n
    unfold deleteAllowlist Globals.hashInit
    dsimp only
    cases g.allowlist <;> exact ⟨le_rfl, fun _ _ => rfl, fun _ _ living => living⟩
  unfold WriteCall.replaces
  by_cases small : call.text.length ≤ 2
  · unfold writeAllowlist
    dsimp only
    rw [if_pos small, if_pos (by simp [small])]
    exact ⟨le_rfl, fun _ _ => rfl, fun _ _ living => living⟩
  rw [decide_eq_false small, Bool.false_or]
  cases creates : call.creates with
  | false => exact writeAllowlist_unchanged bucket g small creates
  | true =>
      obtain ⟨numEntries, -, same⟩ := writeAllowlist_installEntries bucket g creates
      rw [if_pos rfl, same]
      exact (cleared _).trans (retains_installEntries bucket call call.kbuf numEntries g)

/-- A call of `msr_allowlist_writemask` that has released the mutex. Beside the
entry it found stands what it will be judged by: the map in force at the lookup
and the number of replacements until then. -/
structure PendingLookup where
  reg : Word
  entry : Option EntryRef
  inForce : AllowMap
  foundAt : Nat

/-- A call that returned; `live` tells whether the array of its entry still was
when `value` was read, and `readAt` counts the replacements until then. -/
structure CompletedLookup extends PendingLookup where
  value : Word
  live : Bool
  readAt : Nat

structure LookupSystem where
  globals : Globals
  inForce : AllowMap
  replacements : Nat
  pending : Nat → Option PendingLookup
  completed : List CompletedLookup

inductive LookupAction where
  | lookup (caller : Nat) (reg : Word)
  | read (caller : Nat)
  | write (call : WriteCall)

namespace LookupSystem

def initial : LookupSystem :=
  { globals := .initial, inForce := .empty, replacements := 0, pending := fun _ => none,
    completed := [] }

/-- Critical sections and the read behind them are one step each. -/
def step (bucket : Word → Fin 64) (σ : LookupSystem) : LookupAction → LookupSystem
  | .lookup caller reg =>
    match σ.pending caller with
    | some _ => σ
    | none =>
      let call : PendingLookup :=
        { reg := reg, entry := findInAllowlist bucket σ.globals reg, inForce := σ.inForce,
          foundAt := σ.replacements }
      { σ with pending := Function.update σ.pending caller (some call) }
  | .read caller =>
    match σ.pending caller with
    | none => σ
    | some call =>
      let result : CompletedLookup :=
        { call with
          value := entryWmask σ.globals call.entry
          live := call.entry.all fun r => σ.globals.live r.array
          readAt := σ.replacements }
      { σ with
        pending := Function.update σ.pending caller none
        completed := result :: σ.completed }
  | .write call =>
    { σ with
      globals := (writeAllowlist bucket call σ.globals).1
      inForce := σ.inForce.afterWrite call
      replacements := if call.replaces then σ.replacements + 1 else σ.replacements }

def run (bucket : Word → Fin 64) (actions : List LookupAction) : LookupSystem :=
  actions.foldl (step bucket) initial

end LookupSystem

def CompletedLookup.Correct (result : CompletedLookup) : Prop :=
  result.live = true ∧ result.value = result.inForce.writemask result.reg

/-- The address was not listed at the lookup, or no write replaced the list
between the lookup and the read. -/
def CompletedLookup.Undisturbed (result : CompletedLookup) : Prop :=
  result.inForce.maskexists result.reg = false ∨ result.foundAt = result.readAt

structure PendingLookup.Sound (g : Globals) (replacements : Nat) (call : PendingLookup) : Prop where
  entry : call.inForce call.reg = call.entry.map fun r => (g.load r).wmask
  inside : ∀ r ∈ call.entry, r.array < g.heap.length
  live : ∀ r ∈ call.entry, g.live r.array = true ↔ call.foundAt = replacements
  past : call.foundAt ≤ replacements

structure LookupSystem.Sound (bucket : Word → Fin 64) (σ : LookupSystem) : Prop where
  represents : Represents bucket σ.globals σ.inForce
  pending : ∀ caller, ∀ call ∈ σ.pending caller, call.Sound σ.globals σ.replacements
  completed : ∀ result ∈ σ.completed, result.Correct ↔ result.Undisturbed

theorem PendingLookup.sound_found {bucket : Word → Fin 64} {g : Globals} {allow : AllowMap}
    (represents : Represents bucket g allow) (reg : Word) (replacements : Nat) :
    PendingLookup.Sound g replacements
      { reg := reg, entry := findInAllowlist bucket g reg, inForce := allow,
        foundAt := replacements } := by
  have installed : ∀ r ∈ findInAllowlist bucket g reg, g.live r.array = true :=
    fun r found => (find_installed represents found).2.1
  refine ⟨find_represents represents reg, ?_, ?_, le_rfl⟩
  · intro r found
    have living := installed r found
    unfold Globals.live at living
    by_contra outside
    rw [List.getElem?_eq_none (Nat.le_of_not_lt outside)] at living
    cases living
  · intro r found
    simp [installed r found]

theorem PendingLookup.sound_write {bucket : Word → Fin 64} {g : Globals} {allow : AllowMap}
    (represents : Represents bucket g allow) (write : WriteCall) {replacements : Nat}
    {call : PendingLookup} (sound : call.Sound g replacements) :
    call.Sound (writeAllowlist bucket write g).1
      (if write.replaces then replacements + 1 else replacements) := by
  have retained := writeAllowlist_retains bucket write g
  split at retained <;> rename_i replaces
  · rw [if_pos replaces]
    have freed := deleteAllowlist_cleared represents.owner
    have kept := (retains_deleteAllowlist g.heap.length g).trans retained
    have past := sound.past
    refine ⟨?_, fun r found => (sound.inside r found).trans_le kept.length, ?_, by omega⟩
    · rw [sound.entry]
      cases found : call.entry with
      | none => rfl
      | some r =>
          have slots := kept.slots r.array (sound.inside r found)
          simp only [Option.map_some, Globals.load, slots]
    · intro r found
      have dead : ¬(writeAllowlist bucket write g).1.live r.array = true := by
        intro living
        have before := retained.live r.array (sound.inside r found) living
        rw [freed.dead] at before
        cases before
      exact iff_of_false dead (by omega)
  · rw [if_neg replaces, retained]
    exact sound

theorem LookupSystem.step_sound {bucket : Word → Fin 64} {σ : LookupSystem}
    (sound : σ.Sound bucket) (action : LookupAction) : (σ.step bucket action).Sound bucket := by
  cases action with
  | lookup caller reg =>
      unfold step
      dsimp only
      split
      · exact sound
      · refine ⟨sound.represents, ?_, sound.completed⟩
        intro other call member
        dsimp only at member ⊢
        by_cases same : other = caller
        · subst same
          rw [Function.update_self] at member
          cases member
          exact PendingLookup.sound_found sound.represents reg σ.replacements
        · rw [Function.update_of_ne same] at member
          exact sound.pending other call member
  | read caller =>
      unfold step
      dsimp only
      split
      · exact sound
      · rename_i call held
        have holds := sound.pending caller call held
        refine ⟨sound.represents, ?_, ?_⟩
        · intro other call' member
          dsimp only at member ⊢
          by_cases same : other = caller
          · subst same
            rw [Function.update_self] at member
            cases member
          · rw [Function.update_of_ne same] at member
            exact sound.pending other call' member
        · intro result member
          rcases List.mem_cons.mp member with rfl | old
          · have mask := holds.entry
            unfold CompletedLookup.Correct CompletedLookup.Undisturbed
            unfold AllowMap.writemask AllowMap.maskexists
            dsimp only
            rw [mask]
            cases found : call.entry with
            | none => simp [entryWmask]
            | some r => simp [entryWmask, holds.live r found]
          · exact sound.completed result old
  | write call =>
      refine ⟨writeAllowlist_represents bucket call sound.represents, ?_, sound.completed⟩
      intro caller pending member
      exact PendingLookup.sound_write sound.represents call (sound.pending caller pending member)

theorem LookupSystem.run_sound (bucket : Word → Fin 64) (actions : List LookupAction) :
    (LookupSystem.run bucket actions).Sound bucket := by
  have steps : ∀ σ : LookupSystem, σ.Sound bucket →
      (actions.foldl (LookupSystem.step bucket) σ).Sound bucket := by
    induction actions with
    | nil => exact fun σ sound => sound
    | cons action rest ih => exact fun σ sound => ih _ (LookupSystem.step_sound sound action)
  refine steps _ ⟨initial_represents bucket, ?_, ?_⟩
  · intro caller call member
    cases member
  · intro result member
    cases member

/-- In every run, a mask lookup is right exactly when no write replaced the list
between its critical section and its read of the entry. -/
theorem writemask_correct_iff (bucket : Word → Fin 64) (actions : List LookupAction)
    (result : CompletedLookup) (completed : result ∈ (LookupSystem.run bucket actions).completed) :
    result.Correct ↔ result.Undisturbed :=
  (LookupSystem.run_sound bucket actions).completed result completed

def clearedBetween : List LookupAction :=
  [.write ⟨['1', '0', ' ', '2', '5', '5', ' '].map ascii, true, true, true⟩,
    .lookup 0 10, .lookup 1 10, .read 1, .write ⟨[newline], true, true, true⟩, .read 0]

theorem writemask_correct_iff_two_callers :
    ∃ result ∈ (LookupSystem.run (fun _ => 0) clearedBetween).completed,
      result.live = true ∧ (result.Correct ↔ result.Undisturbed) := by
  have timely : (LookupSystem.run (fun _ => 0) clearedBetween).completed.any
      (fun result => result.live) = true := by decide
  obtain ⟨result, completed, live⟩ := List.any_eq_true.mp timely
  exact ⟨result, completed, live, writemask_correct_iff _ clearedBetween result completed⟩

/-- A clear between the lookup and the read leaves the entry in a freed array. -/
theorem writemask_reads_freed_entry :
    ¬∀ (bucket : Word → Fin 64) (actions : List LookupAction),
      ∀ result ∈ (LookupSystem.run bucket actions).completed, result.Correct := by
  intro always
  have late : (LookupSystem.run (fun _ => 0) clearedBetween).completed.any
      (fun result => !result.live) = true := by decide
  obtain ⟨result, completed, freed⟩ := List.any_eq_true.mp late
  rw [(always _ clearedBetween result completed).1] at freed
  cases freed

end MsrSafe
