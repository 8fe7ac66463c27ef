import MsrSafe.AllowlistInvariant

/-! The entry count beside the array pointer. `create_allowlist` sets the count
before it allocates, so a failed allocation leaves a count without an array, and
neither a clear nor a failing write takes it away. -/

namespace MsrSafe

inductive DeviceCall
  | write (call : WriteCall)
  | read (count : Nat) (copied : Bool) (ppos : Int)

structure Counted (g : Globals) : Prop where
  inside : ∀ array, g.allowlist = some array → g.allowlistNumentries ≤ (g.slots array).length
  absent : g.allowlist = none → g.allowlistNumentries = 0

structure Stale (g : Globals) : Prop where
  absent : g.allowlist = none
  counted : 0 < g.allowlistNumentries

def DeviceCall.created : DeviceCall → Option WriteCall
  | .write call => if call.creates then some call else none
  | .read _ _ _ => none

def creating (calls : List DeviceCall) : List WriteCall := calls.filterMap DeviceCall.created

def LastAllocated (calls : List DeviceCall) : Prop :=
  ∀ call, (creating calls).getLast? = some call → call.arrayAllocated = true

theorem Stale.not_counted {g : Globals} (stale : Stale g) : ¬Counted g := by
  intro counted
  have zero := counted.absent stale.absent
  have positive := stale.counted
  omega

theorem readAllowlist_inside {g : Globals} (counted : Counted g) (count : Nat) (copied : Bool)
    (ppos : Int) : readAllowlist g count copied ppos ≠ none := by
  rw [readAllowlist]
  simp only [Bool.or_eq_true, decide_eq_true_eq]
  split
  · exact Option.some_ne_none _
  · rename_i within
    cases present : g.allowlist with
    | none =>
        have zero := counted.absent present
        omega
    | some array =>
        have inside := counted.inside array present
        dsimp only
        rw [List.getElem?_eq_getElem (by omega)]
        dsimp only
        repeat' split
        all_goals exact Option.some_ne_none _

theorem readAllowlist_stale {g : Globals} (stale : Stale g) (count : Nat) (copied : Bool) :
    readAllowlist g count copied 0 = none := by
  have positive := stale.counted
  have within : ¬((0 : Int) ≥ (g.allowlistNumentries : Int) ∨ (0 : Int) < 0) := by omega
  rw [readAllowlist]
  simp only [Bool.or_eq_true, decide_eq_true_eq]
  rw [if_neg within, stale.absent]

section Writes

variable {g : Globals}

theorem deleteAllowlist_counted (counted : Counted g) : Counted (deleteAllowlist g) := by
  cases present : g.allowlist with
  | none =>
      rw [deleteAllowlist, present]
      exact counted
  | some array =>
      rw [deleteAllowlist, present]
      exact ⟨fun _ nothing => (by cases nothing), fun _ => rfl⟩

theorem deleteAllowlist_stale (stale : Stale g) : deleteAllowlist g = g := by
  rw [deleteAllowlist, stale.absent]

theorem counted_hashInit (counted : Counted g) : Counted g.hashInit :=
  ⟨counted.inside, counted.absent⟩

theorem createAllowlist_stale {nentries : Nat} (some_entry : 0 < nentries) (g : Globals) :
    Stale (createAllowlist false nentries g).1 := by
  have absent : (deleteAllowlist g.hashInit).allowlist = none := by
    cases present : g.hashInit.allowlist with
    | none => rw [deleteAllowlist, present, present]
    | some array => rw [deleteAllowlist, present]
  exact ⟨absent, some_entry⟩

theorem createAllowlist_counted (nentries : Nat) (g : Globals) :
    Counted (createAllowlist true nentries g).1 := by
  constructor
  · intro array installed
    cases installed
    simp [createAllowlist, Globals.slots]
  · intro absent
    cases absent

theorem counted_store (counted : Counted g) (r : EntryRef) (entry : AllowlistEntry) :
    Counted (g.store r entry) := by
  constructor
  · intro array installed
    have inside := counted.inside array installed
    have length : ((g.store r entry).slots array).length = (g.slots array).length := by
      simp only [Globals.slots, Globals.store, List.getElem?_modify]
      cases g.heap[array]? with
      | none => rfl
      | some a => by_cases same : r.array = array <;> simp [same]
    rw [length]
    exact inside
  · exact counted.absent

theorem secondPass_counted (bucket : Word → Fin 64) (array fuel : Nat) (index : Nat)
    (buf : List UInt8) (s : Nat) (counted : Counted g) :
    Counted (secondPass bucket array fuel g index buf s).1 := by
  induction fuel generalizing g index buf s with
  | zero => exact counted
  | succ fuel ih =>
      rw [secondPass]
      split
      · exact counted
      · exact deleteAllowlist_counted counted
      · rename_i next entry parsed
        have stored := counted_store counted ⟨array, index⟩ entry
        dsimp only
        split
        · exact deleteAllowlist_counted stored
        · exact ih _ _ _ ⟨stored.inside, stored.absent⟩

theorem installEntries_counted (bucket : Word → Fin 64) {call : WriteCall} (buf : List UInt8)
    (numEntries : Nat) (g : Globals) (allocated : call.arrayAllocated = true) :
    Counted (installEntries bucket call buf numEntries g).1 := by
  have created := createAllowlist_counted numEntries g
  rw [installEntries, allocated]
  cases shape : createAllowlist true numEntries g with
  | mk g' outcome =>
      rw [shape] at created
      cases outcome with
      | error err => exact created
      | ok array => exact secondPass_counted bucket array _ _ _ _ created

theorem installEntries_stale (bucket : Word → Fin 64) {call : WriteCall} (buf : List UInt8)
    {numEntries : Nat} (some_entry : 0 < numEntries) (g : Globals)
    (failed : call.arrayAllocated = false) :
    Stale (installEntries bucket call buf numEntries g).1 := by
  have created := createAllowlist_stale some_entry g
  rw [installEntries, failed]
  exact created

theorem writeAllowlist_creates (bucket : Word → Fin 64) {call : WriteCall} (g : Globals)
    (creates : call.creates = true) :
    (call.arrayAllocated = true → Counted (writeAllowlist bucket call g).1) ∧
      (call.arrayAllocated = false → Stale (writeAllowlist bucket call g).1) := by
  obtain ⟨numEntries, some_entry, same⟩ := writeAllowlist_installEntries bucket g creates
  rw [same]
  exact ⟨installEntries_counted bucket _ _ g, installEntries_stale bucket _ some_entry g⟩

theorem writeAllowlist_other (bucket : Word → Fin 64) {call : WriteCall} (g : Globals)
    (other : call.creates = false) :
    (writeAllowlist bucket call g).1 = (deleteAllowlist g).hashInit ∨
      (writeAllowlist bucket call g).1 = g := by
  by_cases small : call.text.length ≤ 2
  · rw [writeAllowlist]
    dsimp only
    rw [if_pos small]
    exact .inl rfl
  · exact .inr (writeAllowlist_unchanged bucket g small other)

end Writes

section Runs

variable (bucket : Word → Fin 64)

/-- The store after a call on the device: a read leaves it alone. One that faults
leaves it alone as well, and a run goes on behind it, though in the kernel the
mutex stays locked. -/
def DeviceCall.after (g : Globals) : DeviceCall → Globals
  | .write call => (writeAllowlist bucket call g).1
  | .read _ _ _ => g

def deviceAfter (calls : List DeviceCall) : Globals :=
  calls.foldl (fun g call => call.after bucket g) .initial

theorem created_some {call : DeviceCall} {write : WriteCall} (created : call.created = some write) :
    call = .write write ∧ write.creates = true := by
  cases call with
  | read count copied ppos => cases created
  | write call =>
      rw [DeviceCall.created] at created
      split at created
      · rename_i creates
        cases created
        exact ⟨rfl, creates⟩
      · cases created

theorem after_keeps (g : Globals) (call : DeviceCall) (other : call.created = none) :
    (Counted g → Counted (call.after bucket g)) ∧ (Stale g → Stale (call.after bucket g)) := by
  cases call with
  | read count copied ppos => exact ⟨id, id⟩
  | write call =>
      have creates : call.creates = false := by
        by_contra creates
        rw [DeviceCall.created, if_pos (Bool.not_eq_false _ ▸ creates)] at other
        cases other
      rw [DeviceCall.after]
      rcases writeAllowlist_other bucket g creates with cleared | kept
      · rw [cleared]
        refine ⟨fun counted => counted_hashInit (deleteAllowlist_counted counted), fun stale => ?_⟩
        rw [deleteAllowlist_stale stale]
        exact ⟨stale.absent, stale.counted⟩
      · rw [kept]
        exact ⟨id, id⟩

theorem last_creating (calls : List DeviceCall) (call : DeviceCall) :
    (creating (calls ++ [call])).getLast? = call.created.or (creating calls).getLast? := by
  rw [creating, List.filterMap_append, ← creating]
  cases created : call.created with
  | none => simp [created]
  | some write => simp [created]

/-- By the last write that creates, the count is right or stale. -/
theorem deviceAfter_counted (calls : List DeviceCall) :
    (LastAllocated calls → Counted (deviceAfter bucket calls)) ∧
      (¬LastAllocated calls → Stale (deviceAfter bucket calls)) := by
  induction calls using List.reverseRecOn with
  | nil =>
      refine ⟨fun _ => ⟨fun _ nothing => (by cases nothing), fun _ => rfl⟩, fun failed => ?_⟩
      exact absurd (fun _ nothing => by cases nothing) failed
  | append_singleton calls call ih =>
      have last : deviceAfter bucket (calls ++ [call]) =
          call.after bucket (deviceAfter bucket calls) := by
        simp [deviceAfter]
      rw [last]
      simp only [LastAllocated, last_creating] at ih ⊢
      cases created : call.created with
      | none =>
          have kept := after_keeps bucket (deviceAfter bucket calls) call created
          rw [Option.none_or]
          exact ⟨fun allocated => kept.1 (ih.1 allocated), fun failed => kept.2 (ih.2 failed)⟩
      | some write =>
          obtain ⟨rfl, creates⟩ := created_some created
          have written := writeAllowlist_creates bucket (deviceAfter bucket calls) creates
          rw [Option.some_or]
          simp only [Option.some.injEq, forall_eq']
          exact ⟨written.1, fun failed => written.2 (Bool.not_eq_true _ ▸ failed)⟩

/-- The count is right, and every read meets an element, as long as the last
write that got to `create_allowlist` got its array; so in every state of a run if
all of them did. -/
theorem dump_inside_iff (calls : List DeviceCall) :
    (Counted (deviceAfter bucket calls) ↔ LastAllocated calls) ∧
    ((∀ count copied ppos, readAllowlist (deviceAfter bucket calls) count copied ppos ≠ none) ↔
      LastAllocated calls) ∧
    ((∀ earlier, earlier <+: calls → Counted (deviceAfter bucket earlier)) ↔
      ∀ call ∈ creating calls, call.arrayAllocated = true) := by
  have counted_iff : ∀ calls, Counted (deviceAfter bucket calls) ↔ LastAllocated calls := by
    intro calls
    obtain ⟨counted, stale⟩ := deviceAfter_counted bucket calls
    refine ⟨fun right => ?_, counted⟩
    by_contra failed
    exact (stale failed).not_counted right
  refine ⟨counted_iff calls, ⟨fun inside => ?_, fun allocated => ?_⟩, ?_⟩
  · by_contra failed
    have stale := (deviceAfter_counted bucket calls).2 failed
    exact inside 0 true 0 (readAllowlist_stale stale 0 true)
  · exact readAllowlist_inside ((counted_iff calls).mpr allocated)
  · constructor
    · intro counted write member
      obtain ⟨call, here, created⟩ := List.mem_filterMap.mp member
      obtain ⟨earlier, later, split⟩ := List.append_of_mem here
      have before : earlier ++ [call] <+: calls := ⟨later, by simp [split]⟩
      apply (counted_iff _).mp (counted _ before)
      rw [last_creating, created, Option.some_or]
    · intro allocated earlier before
      apply (counted_iff earlier).mpr
      intro call last
      obtain ⟨later, rfl⟩ := before
      refine allocated call ?_
      rw [creating, List.filterMap_append]
      exact List.mem_append_left _ (List.mem_of_getLast? last)

end Runs

def failedAllocation : List DeviceCall :=
  let text := ['1', '0', ' ', '0', 'x', 'f', ' '].map ascii
  [.write ⟨text, true, true, false⟩, .write ⟨[], true, true, true⟩,
    .write ⟨text, false, true, true⟩, .read 100 true 5]

/-- The count of 1 is still there, and a read takes the first entry of no array. -/
theorem dump_outside :
    let g := deviceAfter (fun _ => 0) failedAllocation
    g.allowlist = none ∧ g.allowlistNumentries = 1 ∧ ¬Counted g ∧
      readAllowlist g 100 true 0 = none := by
  have absent : (deviceAfter (fun _ => 0) failedAllocation).allowlist = none := by decide +kernel
  have count : (deviceAfter (fun _ => 0) failedAllocation).allowlistNumentries = 1 := by
    decide +kernel
  have stale : Stale (deviceAfter (fun _ => 0) failedAllocation) := ⟨absent, count ▸ Nat.one_pos⟩
  exact ⟨absent, count, stale.not_counted, readAllowlist_stale stale 100 true⟩

end MsrSafe
