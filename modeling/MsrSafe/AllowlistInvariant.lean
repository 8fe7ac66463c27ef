import MsrSafe.AllowlistGrammar
import MsrSafe.Kernel
import Mathlib.Data.List.Nodup

/-! The allowlist store as a finite map. Whatever order writes fail and succeed
in, the hash chains reach the installed array only, and lookups answer as the
list of entries that was installed last. -/

namespace MsrSafe

namespace AllowMap

def empty : AllowMap := fun _ => none

def ofEntries (entries : List AllowlistEntry) : AllowMap :=
  fun reg => (entries.find? fun e => e.msr = reg).map (·.wmask)

def Distinct (entries : List AllowlistEntry) : Prop := (entries.map (·.msr)).Nodup

instance (entries : List AllowlistEntry) : Decidable (Distinct entries) :=
  inferInstanceAs (Decidable (List.Nodup _))

theorem Distinct.index_inj {entries : List AllowlistEntry} (distinct : Distinct entries)
    {i j : Nat} {e e' : AllowlistEntry} (at_i : entries[i]? = some e)
    (at_j : entries[j]? = some e') (same : e.msr = e'.msr) : i = j := by
  have inside : i < (entries.map (·.msr)).length := by
    rw [List.length_map]
    exact (List.getElem?_eq_some_iff.mp at_i).1
  exact (List.getElem?_inj inside distinct).mp (by simp [at_i, at_j, same])

theorem ofEntries_eq_some {entries : List AllowlistEntry} (distinct : Distinct entries)
    {i : Nat} {e : AllowlistEntry} (at_i : entries[i]? = some e) :
    ofEntries entries e.msr = some e.wmask := by
  rw [ofEntries]
  cases found : entries.find? fun e' => e'.msr = e.msr with
  | none =>
      have absent := List.find?_eq_none.mp found e (List.mem_of_getElem? at_i)
      simp at absent
  | some e' =>
      have same : e'.msr = e.msr := by simpa using List.find?_some found
      obtain ⟨j, at_j⟩ := List.getElem?_of_mem (List.mem_of_find?_eq_some found)
      have index := distinct.index_inj at_i at_j same.symm
      subst index
      rw [at_i] at at_j
      cases at_j
      rfl

theorem ofEntries_eq_none {entries : List AllowlistEntry} {reg : Word}
    (absent : ∀ e ∈ entries, e.msr ≠ reg) : ofEntries entries reg = none := by
  rw [ofEntries]
  rw [List.find?_eq_none.mpr (by simpa using absent)]
  rfl

end AllowMap

/-! ## Arrays of the heap -/

namespace Globals

theorem slots_store (g : Globals) (r : EntryRef) (entry : AllowlistEntry) :
    (g.store r entry).slots r.array = (g.slots r.array).set r.index entry := by
  unfold slots store
  dsimp only
  rw [List.getElem?_modify_eq]
  cases g.heap[r.array]? <;> rfl

theorem live_store (g : Globals) (r : EntryRef) (entry : AllowlistEntry) (array : Nat) :
    (g.store r entry).live array = g.live array := by
  unfold live store
  dsimp only
  rw [List.getElem?_modify]
  cases g.heap[array]? with
  | none => rfl
  | some a => by_cases same : r.array = array <;> simp [same]

end Globals

/-- The store holds no array: what the hash chains hold is not looked at. -/
structure Cleared (g : Globals) : Prop where
  absent : g.allowlist = none
  dead : ∀ array, g.live array = false

/-- The array of the store is the only live one, its first slots hold the given
entries of different addresses, and the hash chains hold exactly these slots. -/
structure Filled (bucket : Word → Fin 64) (g : Globals) (array size : Nat)
    (entries : List AllowlistEntry) : Prop where
  installed : g.allowlist = some array
  only : ∀ other, g.live other = true ↔ other = array
  count : g.allowlistNumentries = size
  slots : ∃ unused, g.slots array = entries ++ unused ∧ entries.length + unused.length = size
  chains : ∀ b r, r ∈ g.allowlistHash b ↔
    r.array = array ∧ ∃ e, entries[r.index]? = some e ∧ bucket e.msr = b
  distinct : AllowMap.Distinct entries

theorem deleteAllowlist_cleared {g : Globals}
    (only : ∀ other, g.live other = true → g.allowlist = some other) :
    Cleared (deleteAllowlist g) := by
  rw [deleteAllowlist]
  cases present : g.allowlist with
  | none =>
      refine ⟨present, fun array => ?_⟩
      by_contra living
      have installed := only array (by simpa using living)
      rw [present] at installed
      cases installed
  | some array =>
      refine ⟨rfl, fun other => ?_⟩
      rw [Globals.live]
      dsimp only
      rw [List.getElem?_modify]
      by_cases same : array = other
      · subst same
        cases g.heap[array]? <;> simp
      · have dead : g.live other = false := by
          by_contra living
          have installed := only other (by simpa using living)
          rw [present] at installed
          exact same (Option.some.inj installed)
        unfold Globals.live at dead
        cases shape : g.heap[other]? with
        | none => rfl
        | some a =>
            rw [shape] at dead
            simpa [same] using dead

section Chains

variable {bucket : Word → Fin 64} {g : Globals} {array size : Nat} {entries : List AllowlistEntry}

theorem Filled.load (filled : Filled bucket g array size entries) {i : Nat}
    {e : AllowlistEntry} (at_i : entries[i]? = some e) : g.load ⟨array, i⟩ = e := by
  obtain ⟨unused, slots, -⟩ := filled.slots
  have inside := (List.getElem?_eq_some_iff.mp at_i).1
  rw [Globals.load]
  rw [slots, List.getD_eq_getElem?_getD, List.getElem?_append_left inside, at_i]
  rfl

theorem Filled.find_some (filled : Filled bucket g array size entries) {reg : Word}
    {r : EntryRef} (found : findInAllowlist bucket g reg = some r) :
    r.array = array ∧ ∃ e, entries[r.index]? = some e ∧ e.msr = reg := by
  unfold findInAllowlist at found
  rw [filled.installed] at found
  dsimp only at found
  obtain ⟨here, e, at_r, -⟩ := (filled.chains _ r).mp (List.mem_of_find?_eq_some found)
  have same : (g.load r).msr = reg := by simpa using List.find?_some found
  refine ⟨here, e, at_r, ?_⟩
  rw [← filled.load at_r, ← here]
  exact same

theorem Filled.find_none (filled : Filled bucket g array size entries) {reg : Word}
    (missed : findInAllowlist bucket g reg = none) : ∀ e ∈ entries, e.msr ≠ reg := by
  intro e member same
  unfold findInAllowlist at missed
  rw [filled.installed] at missed
  obtain ⟨i, at_i⟩ := List.getElem?_of_mem member
  have node : (⟨array, i⟩ : EntryRef) ∈ g.allowlistHash (bucket reg) :=
    (filled.chains _ _).mpr ⟨rfl, e, at_i, by rw [same]⟩
  have passed := List.find?_eq_none.mp missed _ node
  rw [filled.load at_i] at passed
  simp [same] at passed

/-- Pass 2 writes the slot behind the entries before it looks for a duplicate. -/
theorem Filled.store (filled : Filled bucket g array size entries) (e : AllowlistEntry)
    (room : entries.length < size) :
    Filled bucket (g.store ⟨array, entries.length⟩ e) array size entries ∧
      ∃ unused, (g.store ⟨array, entries.length⟩ e).slots array = entries ++ e :: unused ∧
        entries.length + (e :: unused).length = size := by
  obtain ⟨unused, slots, length⟩ := filled.slots
  cases unused with
  | nil =>
      rw [List.length_nil] at length
      omega
  | cons old unused =>
      have written : (g.store ⟨array, entries.length⟩ e).slots array = entries ++ e :: unused := by
        have stored := g.slots_store ⟨array, entries.length⟩ e
        rw [slots] at stored
        rw [stored, List.set_append_right _ _ le_rfl, Nat.sub_self, List.set_cons_zero]
      refine ⟨?_, unused, written, length⟩
      exact
        { installed := filled.installed
          only := fun other => by rw [Globals.live_store, filled.only]
          count := filled.count
          slots := ⟨e :: unused, written, length⟩
          chains := filled.chains
          distinct := filled.distinct }

theorem Filled.add (filled : Filled bucket g array size entries) {e : AllowlistEntry}
    {unused : List AllowlistEntry} (slots : g.slots array = entries ++ e :: unused)
    (length : entries.length + (e :: unused).length = size)
    (fresh : ∀ e' ∈ entries, e'.msr ≠ e.msr) :
    Filled bucket (addToAllowlist bucket g ⟨array, entries.length⟩) array size
      (entries ++ [e]) := by
  have here : g.load ⟨array, entries.length⟩ = e := by
    rw [Globals.load]
    rw [slots, List.getD_eq_getElem?_getD, List.getElem?_append_right le_rfl, Nat.sub_self]
    rfl
  refine
    { installed := filled.installed
      only := filled.only
      count := filled.count
      slots := ⟨unused, ?_, ?_⟩
      chains := ?_
      distinct := ?_ }
  · rw [List.append_assoc]
    exact slots
  · rw [List.length_append]
    rw [List.length_cons] at length
    rw [List.length_singleton]
    omega
  · intro b r
    have node : r ∈ (addToAllowlist bucket g ⟨array, entries.length⟩).allowlistHash b ↔
        (r = ⟨array, entries.length⟩ ∧ bucket e.msr = b) ∨ r ∈ g.allowlistHash b := by
      rw [addToAllowlist]
      dsimp only
      rw [here]
      by_cases same : b = bucket e.msr
      · subst same
        simp
      · simp [Function.update_of_ne same, Ne.symm same]
    rw [node, filled.chains]
    constructor
    · rintro (⟨rfl, same⟩ | ⟨here, e', at_r, same⟩)
      · exact ⟨rfl, e, by simp, same⟩
      · refine ⟨here, e', ?_, same⟩
        rw [List.getElem?_append_left (List.getElem?_eq_some_iff.mp at_r).1, at_r]
    · rintro ⟨here, e', at_r, same⟩
      rw [List.getElem?_append] at at_r
      split at at_r
      · exact .inr ⟨here, e', at_r, same⟩
      · rename_i behind
        have inside := (List.getElem?_eq_some_iff.mp at_r).1
        rw [List.length_singleton] at inside
        have last : r.index = entries.length := by omega
        rw [last, Nat.sub_self, List.getElem?_cons_zero] at at_r
        cases at_r
        left
        exact ⟨by rw [← here, ← last], same⟩
  · have distinct := filled.distinct
    unfold AllowMap.Distinct at distinct ⊢
    rw [List.map_append, List.nodup_append]
    refine ⟨distinct, by simp, ?_⟩
    intro reg member last at_last
    obtain ⟨e', member', rfl⟩ := List.mem_map.mp member
    have msr : last = e.msr := by simpa using at_last
    rw [msr]
    exact fresh e' member'

theorem Filled.owner (filled : Filled bucket g array size entries) :
    ∀ other, g.live other = true → g.allowlist = some other := by
  intro other living
  rw [filled.installed, (filled.only other).mp living]

end Chains

/-! ## Pass 2 -/

theorem secondPass_reads (bucket : Word → Fin 64) {buf : List UInt8} {array size : Nat}
    (fuel s : Nat) (u : List UInt8) (g : Globals) (entries rest : List AllowlistEntry)
    (enough : u.length < fuel) (at_s : Holds buf s u) (read : readText u = .ok rest)
    (filled : Filled bucket g array size entries) (fits : entries.length + rest.length = size) :
    let result := secondPass bucket array fuel g entries.length buf s
    if AllowMap.Distinct (entries ++ rest) then
      Filled bucket result.1 array size (entries ++ rest) ∧ result.2 = .ok ()
    else Cleared result.1 ∧ result.2 = .error .enotuniq := by
  induction fuel generalizing s u g entries rest with
  | zero => omega
  | succ fuel ih =>
      have call := parseNextAllowlistEntry_reads at_s
      rw [readText_eq] at read
      rw [secondPass]
      cases shape : readEntry u with
      | error err =>
          rw [shape] at read
          cases read
      | ok found =>
          rw [shape] at call read
          cases found with
          | none =>
              cases read
              rw [call, List.append_nil, if_pos filled.distinct]
              exact ⟨filled, rfl⟩
          | some found =>
              obtain ⟨e, behind⟩ := found
              obtain ⟨next, parsed, at_next⟩ := call
              have shorter := readEntry_length shape
              dsimp only at read
              cases tail : readText behind with
              | error err =>
                  rw [tail] at read
                  cases read
              | ok others =>
                  rw [tail] at read
                  cases read
                  rw [List.length_cons] at fits
                  obtain ⟨stored, unused, slots, length⟩ := filled.store e (by omega)
                  rw [parsed]
                  dsimp only
                  cases duplicate : findInAllowlist bucket (g.store ⟨array, entries.length⟩ e) e.msr with
                  | some r =>
                      obtain ⟨-, e', at_r, same⟩ := stored.find_some duplicate
                      have member := List.mem_of_getElem? at_r
                      have twice : ¬AllowMap.Distinct (entries ++ e :: others) := by
                        intro distinct
                        unfold AllowMap.Distinct at distinct
                        rw [List.map_append, List.nodup_append] at distinct
                        exact distinct.2.2 e'.msr (List.mem_map_of_mem member) e.msr (by simp) same
                      rw [if_neg twice]
                      exact ⟨deleteAllowlist_cleared stored.owner, rfl⟩
                  | none =>
                      have added := stored.add slots length (stored.find_none duplicate)
                      have step := ih next behind _ (entries ++ [e]) others (by omega) at_next tail
                        added (by rw [List.length_append, List.length_singleton]; omega)
                      rw [List.length_append, List.length_singleton, List.append_assoc] at step
                      exact step

/-! ## Whole writes -/

/-- A store between two writes, and the map it stands for. -/
inductive Represents (bucket : Word → Fin 64) (g : Globals) : AllowMap → Prop
  | cleared (cleared : Cleared g) : Represents bucket g .empty
  | installed {array : Nat} {entries : List AllowlistEntry} (nonempty : entries ≠ [])
      (filled : Filled bucket g array entries.length entries) :
      Represents bucket g (.ofEntries entries)

theorem Represents.owner {bucket : Word → Fin 64} {g : Globals} {allow : AllowMap}
    (represents : Represents bucket g allow) :
    ∀ other, g.live other = true → g.allowlist = some other := by
  cases represents with
  | cleared cleared =>
      intro other living
      rw [cleared.dead other] at living
      cases living
  | installed nonempty filled => exact filled.owner

theorem createAllowlist_fails (nentries : Nat) {g : Globals}
    (owner : ∀ other, g.live other = true → g.allowlist = some other) :
    Cleared (createAllowlist false nentries g).1 ∧
      (createAllowlist false nentries g).2 = .error .enomem := by
  have cleared := deleteAllowlist_cleared (g := g.hashInit) owner
  exact ⟨⟨cleared.absent, cleared.dead⟩, rfl⟩

theorem deleteAllowlist_hash (g : Globals) :
    (deleteAllowlist g).allowlistHash = g.allowlistHash := by
  rw [deleteAllowlist]
  cases g.allowlist <;> rfl

theorem createAllowlist_fills (bucket : Word → Fin 64) (nentries : Nat) {g : Globals}
    (owner : ∀ other, g.live other = true → g.allowlist = some other) :
    ∃ array, (createAllowlist true nentries g).2 = .ok array ∧
      Filled bucket (createAllowlist true nentries g).1 array nentries [] := by
  have cleared := deleteAllowlist_cleared (g := g.hashInit) owner
  have chains : (deleteAllowlist g.hashInit).allowlistHash = fun _ => [] := deleteAllowlist_hash _
  rw [createAllowlist]
  dsimp only
  generalize deleteAllowlist g.hashInit = fresh at cleared chains ⊢
  rw [if_pos rfl]
  refine ⟨_, rfl, ?_⟩
  refine
    { installed := rfl
      only := ?_
      count := rfl
      slots := ⟨List.replicate nentries { wmask := 0, msr := 0 }, ?_, by simp⟩
      chains := ?_
      distinct := List.nodup_nil }
  · intro other
    have dead := cleared.dead other
    unfold Globals.live at dead ⊢
    dsimp only
    rcases lt_or_ge other fresh.heap.length with inside | beyond
    · rw [List.getElem?_append_left inside, dead]
      simp [inside.ne]
    · rw [List.getElem?_append_right beyond]
      rcases Nat.eq_or_lt_of_le beyond with same | further
      · simp [same]
      · rw [List.getElem?_eq_none (by rw [List.length_singleton]; omega)]
        simp [further.ne']
  · rw [Globals.slots]
    simp
  · intro b r
    dsimp only
    rw [chains]
    simp

def AllowMap.afterWrite (allow : AllowMap) (call : WriteCall) : AllowMap :=
  if call.text.length ≤ 2 then empty
  else if 131072 < call.text.length ∨ call.bufferAllocated = false ∨ call.copied = false then allow
  else
    match readText call.visible with
    | .error _ => allow
    | .ok entries =>
      if entries = [] then allow
      else if call.arrayAllocated = false ∨ ¬Distinct entries then empty
      else ofEntries entries

theorem installEntries_represents (bucket : Word → Fin 64) {g : Globals} {call : WriteCall}
    {entries : List AllowlistEntry}
    (owner : ∀ other, g.live other = true → g.allowlist = some other)
    (read : readText call.visible = .ok entries) :
    let result := installEntries bucket call call.kbuf entries.length g
    if call.arrayAllocated = false then Cleared result.1 ∧ result.2 = .error .enomem
    else if AllowMap.Distinct entries then
      (∃ array, Filled bucket result.1 array entries.length entries) ∧ result.2 = .ok ()
    else Cleared result.1 ∧ result.2 = .error .enotuniq := by
  rw [installEntries]
  cases allocated : call.arrayAllocated with
  | false =>
      obtain ⟨cleared, failed⟩ := createAllowlist_fails entries.length owner
      rw [if_pos rfl]
      exact ⟨cleared, rfl⟩
  | true =>
      obtain ⟨array, created, filled⟩ := createAllowlist_fills bucket entries.length owner
      rw [if_neg (by decide)]
      cases shape : createAllowlist true entries.length g with
      | mk g' outcome =>
          rw [shape] at created filled
          dsimp only at created filled ⊢
          subst created
          dsimp only
          have inside := holds_length (kbuf_holds call)
          have pass := secondPass_reads bucket (call.kbuf.length + 1) 0 call.visible g' []
            entries (by omega) (kbuf_holds call) read filled (by simp)
          rw [List.nil_append] at pass
          dsimp only [List.length_nil] at pass ⊢
          split
          · rename_i distinct
            rw [if_pos distinct] at pass
            exact ⟨⟨array, pass.1⟩, pass.2⟩
          · rename_i twice
            rw [if_neg twice] at pass
            exact pass

theorem writeAllowlist_installs (bucket : Word → Fin 64) {g : Globals} {allow : AllowMap}
    {call : WriteCall} {entries : List AllowlistEntry} (represents : Represents bucket g allow)
    (parsed : call.Parsed) (read : readText call.visible = .ok entries) (some_entry : entries ≠ [])
    (allocated : call.arrayAllocated = true) (distinct : AllowMap.Distinct entries) :
    (∃ array, Filled bucket (writeAllowlist bucket call g).1 array entries.length entries) ∧
      (writeAllowlist bucket call g).2 = .ok call.text.length := by
  have install := installEntries_represents bucket represents.owner read
  rw [allocated, if_neg (by decide), if_pos distinct] at install
  rw [writeAllowlist_parsed bucket g parsed, read]
  dsimp only
  rw [if_neg (by simpa using some_entry)]
  cases shape : installEntries bucket call call.kbuf entries.length g with
  | mk g' outcome =>
      rw [shape] at install
      obtain ⟨filled, succeeded⟩ := install
      dsimp only at filled succeeded
      subst succeeded
      exact ⟨filled, rfl⟩

def WriteCall.Unread (call : WriteCall) : Prop :=
  131072 < call.text.length ∨ call.bufferAllocated = false ∨ call.copied = false

theorem WriteCall.parsed_of_not_unread {call : WriteCall} (long : ¬call.text.length ≤ 2)
    (read : ¬call.Unread) : call.Parsed := by
  simp only [WriteCall.Unread, not_or, Bool.not_eq_false] at read
  exact ⟨by omega, by omega, read.2.1, read.2.2⟩

theorem writeAllowlist_unread (bucket : Word → Fin 64) {call : WriteCall} (g : Globals)
    (long : ¬call.text.length ≤ 2) (unread : call.Unread) :
    (writeAllowlist bucket call g).1 = g := by
  rw [writeAllowlist]
  dsimp only
  rw [if_neg long]
  split
  · rfl
  · rename_i fits
    have short : ¬131072 < call.text.length := by
      unfold maxWlistBsize at fits
      omega
    rcases unread with large | unbuffered | uncopied
    · exact absurd large short
    · simp [unbuffered]
    · rw [uncopied]
      split <;> rfl

/-- A write that gets to `create_allowlist`: its text has at least one entry. -/
def WriteCall.creates (call : WriteCall) : Bool :=
  2 < call.text.length && call.text.length ≤ 131072 && call.bufferAllocated && call.copied &&
    match readText call.visible with
    | .ok (_ :: _) => true
    | _ => false

theorem WriteCall.parsed_of_creates {call : WriteCall} (creates : call.creates = true) :
    call.Parsed ∧ ∃ e entries, readText call.visible = .ok (e :: entries) := by
  simp only [WriteCall.creates, Bool.and_eq_true, decide_eq_true_eq] at creates
  obtain ⟨⟨⟨⟨long, short⟩, buffer⟩, copied⟩, read⟩ := creates
  refine ⟨⟨long, short, buffer, copied⟩, ?_⟩
  split at read
  · rename_i e entries accepted
    exact ⟨e, entries, accepted⟩
  · cases read

theorem writeAllowlist_installEntries (bucket : Word → Fin 64) {call : WriteCall} (g : Globals)
    (creates : call.creates = true) :
    ∃ numEntries, 0 < numEntries ∧ (writeAllowlist bucket call g).1 =
      (installEntries bucket call call.kbuf numEntries g).1 := by
  obtain ⟨parsed, e, entries, read⟩ := WriteCall.parsed_of_creates creates
  have some_entry : ¬(e :: entries).length = 0 := Nat.succ_ne_zero _
  refine ⟨(e :: entries).length, Nat.pos_of_ne_zero some_entry, ?_⟩
  rw [writeAllowlist_parsed bucket g parsed, read]
  dsimp only
  rw [if_neg some_entry]
  split <;> rename_i shape <;> rw [shape]

theorem writeAllowlist_unchanged (bucket : Word → Fin 64) {call : WriteCall} (g : Globals)
    (long : ¬call.text.length ≤ 2) (other : call.creates = false) :
    (writeAllowlist bucket call g).1 = g := by
  by_cases unread : call.Unread
  · exact writeAllowlist_unread bucket g long unread
  have parsed := WriteCall.parsed_of_not_unread long unread
  rw [writeAllowlist_parsed bucket g parsed]
  cases read : readText call.visible with
  | error err => rfl
  | ok entries =>
      cases entries with
      | nil => rfl
      | cons e entries =>
          have enough : decide (2 < call.text.length) = true := decide_eq_true parsed.long
          have short : decide (call.text.length ≤ 131072) = true := decide_eq_true parsed.short
          rw [WriteCall.creates, read, enough, short, parsed.allocated, parsed.copied] at other
          cases other

theorem writeAllowlist_represents (bucket : Word → Fin 64) {g : Globals} {allow : AllowMap}
    (call : WriteCall) (represents : Represents bucket g allow) :
    Represents bucket (writeAllowlist bucket call g).1 (allow.afterWrite call) := by
  by_cases small : call.text.length ≤ 2
  · have cleared := deleteAllowlist_cleared represents.owner
    rw [writeAllowlist, AllowMap.afterWrite]
    dsimp only
    rw [if_pos small, if_pos small]
    exact .cleared ⟨cleared.absent, cleared.dead⟩
  by_cases unread : call.Unread
  · rw [writeAllowlist_unread bucket g small unread]
    rw [AllowMap.afterWrite]
    unfold WriteCall.Unread at unread
    rw [if_neg small, if_pos unread]
    exact represents
  have parsed := WriteCall.parsed_of_not_unread small unread
  rw [AllowMap.afterWrite]
  unfold WriteCall.Unread at unread
  rw [if_neg small, if_neg unread]
  cases read : readText call.visible with
  | error err =>
      rw [writeAllowlist_parsed bucket g parsed, read]
      exact represents
  | ok entries =>
      dsimp only
      by_cases empty : entries = []
      · rw [writeAllowlist_parsed bucket g parsed, read, if_pos empty]
        dsimp only
        rw [if_pos (by rw [empty, List.length_nil])]
        exact represents
      rw [if_neg empty]
      by_cases failed : call.arrayAllocated = false ∨ ¬AllowMap.Distinct entries
      · rw [if_pos failed, writeAllowlist_parsed bucket g parsed, read]
        dsimp only
        rw [if_neg (by simpa using empty)]
        have install := installEntries_represents bucket represents.owner read
        cases shape : installEntries bucket call call.kbuf entries.length g with
        | mk g' outcome =>
            rw [shape] at install
            have cleared : Cleared g' := by
              dsimp only at install
              split at install
              · exact install.1
              · rename_i allocated
                rw [if_neg (failed.resolve_left allocated)] at install
                exact install.1
            cases outcome <;> exact .cleared cleared
      · rw [if_neg failed]
        simp only [not_or, Bool.not_eq_false, not_not] at failed
        obtain ⟨⟨array, filled⟩, -⟩ := writeAllowlist_installs bucket represents parsed read
          empty failed.1 failed.2
        exact .installed empty filled

theorem initial_represents (bucket : Word → Fin 64) :
    Represents bucket .initial .empty :=
  .cleared ⟨rfl, fun _ => rfl⟩

def storeAfter (bucket : Word → Fin 64) (calls : List WriteCall) : Globals :=
  calls.foldl (fun g call => (writeAllowlist bucket call g).1) .initial

theorem storeAfter_represents (bucket : Word → Fin 64) (calls : List WriteCall) :
    Represents bucket (storeAfter bucket calls) (calls.foldl AllowMap.afterWrite .empty) := by
  have run : ∀ g allow, Represents bucket g allow →
      Represents bucket (calls.foldl (fun g call => (writeAllowlist bucket call g).1) g)
        (calls.foldl AllowMap.afterWrite allow) := by
    induction calls with
    | nil => exact fun g allow represents => represents
    | cons call rest ih =>
        exact fun g allow represents => ih _ _ (writeAllowlist_represents bucket call represents)
  exact run _ _ (initial_represents bucket)

theorem find_installed {bucket : Word → Fin 64} {g : Globals} {allow : AllowMap}
    (represents : Represents bucket g allow) {reg : Word} {r : EntryRef}
    (found : findInAllowlist bucket g reg = some r) :
    g.allowlist = some r.array ∧ g.live r.array = true ∧ r.index < g.allowlistNumentries := by
  cases represents with
  | cleared cleared =>
      unfold findInAllowlist at found
      rw [cleared.absent] at found
      cases found
  | installed nonempty filled =>
      obtain ⟨here, e, at_r, -⟩ := filled.find_some found
      refine ⟨by rw [here, filled.installed], (filled.only _).mpr here, ?_⟩
      rw [filled.count]
      exact (List.getElem?_eq_some_iff.mp at_r).1

theorem find_represents {bucket : Word → Fin 64} {g : Globals} {allow : AllowMap}
    (represents : Represents bucket g allow) (reg : Word) :
    allow reg = (findInAllowlist bucket g reg).map fun r => (g.load r).wmask := by
  cases represents with
  | cleared cleared =>
      rw [findInAllowlist]
      rw [cleared.absent]
      rfl
  | installed nonempty filled =>
      cases found : findInAllowlist bucket g reg with
      | none => exact AllowMap.ofEntries_eq_none (filled.find_none found)
      | some r =>
          obtain ⟨here, e, at_r, same⟩ := filled.find_some found
          have loaded := filled.load at_r
          rw [← here] at loaded
          rw [Option.map_some, loaded, ← same]
          exact AllowMap.ofEntries_eq_some filled.distinct at_r

theorem maskexists_represents {bucket : Word → Fin 64} {g : Globals} {allow : AllowMap}
    (represents : Represents bucket g allow) (reg : Word) :
    msrAllowlistMaskexists bucket g reg = allow.maskexists reg := by
  rw [AllowMap.maskexists, find_represents represents, Option.isSome_map]
  rfl

theorem writemask_represents {bucket : Word → Fin 64} {g : Globals} {allow : AllowMap}
    (represents : Represents bucket g allow) (reg : Word) :
    msrAllowlistWritemask bucket g reg = allow.writemask reg := by
  rw [AllowMap.writemask, find_represents represents, msrAllowlistWritemask]
  cases findInAllowlist bucket g reg <;> rfl

def Globals.allowMap (bucket : Word → Fin 64) (g : Globals) : AllowMap := fun reg =>
  if msrAllowlistMaskexists bucket g reg then some (msrAllowlistWritemask bucket g reg) else none

theorem maskexists_allowMap (bucket : Word → Fin 64) (g : Globals) (reg : Word) :
    (g.allowMap bucket).maskexists reg = msrAllowlistMaskexists bucket g reg := by
  rw [AllowMap.maskexists, Globals.allowMap]
  cases msrAllowlistMaskexists bucket g reg <;> rfl

theorem writemask_allowMap (bucket : Word → Fin 64) (g : Globals) (reg : Word) :
    (g.allowMap bucket).writemask reg = msrAllowlistWritemask bucket g reg := by
  rw [AllowMap.writemask, Globals.allowMap, msrAllowlistMaskexists, msrAllowlistWritemask]
  cases findInAllowlist bucket g reg <;> rfl

theorem allowMap_represents {bucket : Word → Fin 64} {g : Globals} {allow : AllowMap}
    (represents : Represents bucket g allow) : g.allowMap bucket = allow := by
  funext reg
  rw [Globals.allowMap]
  rw [maskexists_represents represents, writemask_represents represents, AllowMap.maskexists,
    AllowMap.writemask]
  cases allow reg <;> rfl

/-- After any writes the lookups answer as the map these writes give, from the
array that is installed. -/
theorem store_refines_map (bucket : Word → Fin 64) (calls : List WriteCall) (reg : Word) :
    let g := storeAfter bucket calls
    let allow := calls.foldl AllowMap.afterWrite .empty
    msrAllowlistMaskexists bucket g reg = allow.maskexists reg ∧
    msrAllowlistWritemask bucket g reg = allow.writemask reg ∧
    ∀ r, findInAllowlist bucket g reg = some r →
      g.allowlist = some r.array ∧ g.live r.array = true ∧ r.index < g.allowlistNumentries := by
  have represents := storeAfter_represents bucket calls
  exact ⟨maskexists_represents represents reg, writemask_represents represents reg,
    fun r found => find_installed represents found⟩

end MsrSafe
