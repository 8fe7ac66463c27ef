import MsrSafe.AllowlistInvariant

/-! Allowlists put together from others, as `cat` puts files together. -/

namespace MsrSafe

/-- The texts one behind the other, a newline behind each. -/
def joined (texts : List (List UInt8)) : List UInt8 := texts.flatMap (· ++ [newline])

section Alone

variable (bucket : Word → Fin 64) (text : List UInt8)

/-- The text alone, written to a new store while nothing fails. -/
def writtenAlone : Globals × Except Errno Nat :=
  writeAllowlist bucket ⟨text, true, true, true⟩ .initial

def aloneMap : AllowMap := (writtenAlone bucket text).1.allowMap bucket

structure Acceptable : Prop where
  long : 3 ≤ text.length
  clean : nul ∉ text
  accepted : (writtenAlone bucket text).2 = .ok text.length

end Alone

/-- A newline ends what is behind the last entry, a comment as well. -/
theorem Items.extend {u rest : List UInt8} {entries : List AllowlistEntry}
    (items : Items u entries rest) (v : List UInt8) :
    Items (u ++ newline :: v) entries (rest ++ newline :: v) := by
  induction items with
  | stop => exact .stop
  | space space _ ih => exact .space space ih
  | @comment body u rest entries inside ends _ ih =>
      rw [List.cons_append, List.append_assoc]
      apply Items.comment inside _ ih
      rcases ends with rfl | newline_next
      · exact .inr rfl
      · cases u with
        | nil => cases newline_next
        | cons c u => exact .inr newline_next
  | entry first spaces second space msr_value wmask_value _ ih =>
      simp only [List.append_assoc, List.cons_append]
      exact .entry first spaces second space msr_value wmask_value ih

theorem accepts_append {u v : List UInt8} {entries more : List AllowlistEntry}
    (front : Accepts u entries) (back : Accepts v more) :
    Accepts (u ++ newline :: v) (entries ++ more) :=
  (front.extend v).append (.space (by decide) back)

def entriesOf (text : List UInt8) : List AllowlistEntry :=
  match readText text with
  | .ok entries => entries
  | .error _ => []

theorem readText_joined {texts : List (List UInt8)}
    (accepted : ∀ text ∈ texts, readText text = .ok (entriesOf text)) :
    readText (joined texts) = .ok (texts.flatMap entriesOf) := by
  rw [readText_ok_iff]
  induction texts with
  | nil => exact .stop
  | cons text texts ih =>
      have front := (readText_ok_iff _ _).mp (accepted text List.mem_cons_self)
      have back := ih fun other member => accepted other (List.mem_cons_of_mem _ member)
      have both := accepts_append front back
      rw [joined, List.flatMap_cons, List.flatMap_cons, List.append_assoc]
      exact both

section Lists

variable {bucket : Word → Fin 64} {text : List UInt8}

theorem visible_of_clean {call : WriteCall} (clean : nul ∉ call.text) :
    call.visible = call.text := by
  rw [WriteCall.visible, List.takeWhile_eq_self_iff]
  intro c member
  rw [bne_iff_ne]
  rintro rfl
  exact clean member

theorem writeAllowlist_builds (bucket : Word → Fin 64) {g : Globals} {allow : AllowMap}
    {call : WriteCall} (represents : Represents bucket g allow) (parsed : call.Parsed)
    (allocated : call.arrayAllocated = true) {entries : List AllowlistEntry}
    (read : readText call.visible = .ok entries) (some_entry : entries ≠ []) :
    let result := writeAllowlist bucket call g
    if AllowMap.Distinct entries then
      result.2 = .ok call.text.length ∧ result.1.allowMap bucket = .ofEntries entries
    else result.2 = .error .enotuniq ∧ result.1.allowMap bucket = .empty := by
  have after := allowMap_represents (writeAllowlist_represents bucket call represents)
  have read_in : ¬(131072 < call.text.length ∨ call.bufferAllocated = false ∨
      call.copied = false) := by
    simp [parsed.short, parsed.allocated, parsed.copied]
  rw [AllowMap.afterWrite, if_neg (by have := parsed.long; omega), if_neg read_in, read] at after
  dsimp only at after ⊢
  rw [if_neg some_entry, allocated] at after
  rw [after]
  by_cases distinct : AllowMap.Distinct entries
  · rw [if_pos distinct, if_neg (by simp [distinct])]
    exact ⟨(writeAllowlist_installs bucket represents parsed read some_entry allocated distinct).2,
      rfl⟩
  · rw [if_neg distinct, if_pos (by simp [distinct])]
    refine ⟨?_, rfl⟩
    have install := installEntries_represents bucket represents.owner read
    rw [allocated, if_neg (by decide), if_neg distinct] at install
    rw [writeAllowlist_parsed bucket g parsed, read]
    dsimp only
    rw [if_neg (by simpa using some_entry)]
    cases shape : installEntries bucket call call.kbuf entries.length g with
    | mk g' outcome =>
        rw [shape] at install
        rw [show outcome = _ from install.2]

theorem Acceptable.entries (acceptable : Acceptable bucket text) (short : text.length ≤ 131072) :
    readText text = .ok (entriesOf text) ∧ entriesOf text ≠ [] ∧
      AllowMap.Distinct (entriesOf text) ∧ aloneMap bucket text = .ofEntries (entriesOf text) := by
  have parsed : WriteCall.Parsed ⟨text, true, true, true⟩ := ⟨acceptable.long, short, rfl, rfl⟩
  have visible : WriteCall.visible ⟨text, true, true, true⟩ = text :=
    visible_of_clean acceptable.clean
  have accepted := acceptable.accepted
  have write := writeAllowlist_parsed bucket .initial parsed
  rw [visible] at write
  rw [writtenAlone, write] at accepted
  rw [entriesOf]
  cases read : readText text with
  | error err =>
      rw [read] at accepted
      cases accepted
  | ok entries =>
      rw [read] at accepted
      dsimp only at accepted ⊢
      have some_entry : entries ≠ [] := by
        rintro rfl
        cases accepted
      have builds := writeAllowlist_builds bucket (initial_represents bucket) parsed rfl
        (visible.symm ▸ read) some_entry
      have accepted := acceptable.accepted
      dsimp only at builds
      split at builds
      · rename_i distinct
        exact ⟨rfl, some_entry, distinct, builds.2⟩
      · rw [writtenAlone, builds.1] at accepted
        cases accepted

theorem ofEntries_eq_none_iff {entries : List AllowlistEntry} {reg : Word} :
    AllowMap.ofEntries entries reg = none ↔ reg ∉ entries.map (·.msr) := by
  rw [AllowMap.ofEntries, Option.map_eq_none_iff, List.find?_eq_none, List.mem_map]
  simp

def AllowMap.Disjoint (allow allow' : AllowMap) : Prop :=
  ∀ reg, allow reg = none ∨ allow' reg = none

theorem distinct_flatMap {texts : List (List UInt8)}
    (distinct : ∀ text ∈ texts, AllowMap.Distinct (entriesOf text)) :
    AllowMap.Distinct (texts.flatMap entriesOf) ↔
      texts.Pairwise fun text text' =>
        AllowMap.Disjoint (.ofEntries (entriesOf text)) (.ofEntries (entriesOf text')) := by
  have each : ∀ text ∈ texts, ((entriesOf text).map (·.msr)).Nodup := distinct
  rw [AllowMap.Distinct, List.map_flatMap, List.nodup_flatMap, and_iff_right each]
  apply List.Pairwise.iff
  intro text text'
  apply forall_congr'
  intro reg
  rw [ofEntries_eq_none_iff, ofEntries_eq_none_iff]
  exact imp_iff_not_or

theorem ofEntries_flatMap {maps : List UInt8 → AllowMap} {texts : List (List UInt8)}
    (same : ∀ text ∈ texts, maps text = .ofEntries (entriesOf text)) (reg : Word) :
    AllowMap.ofEntries (texts.flatMap entriesOf) reg = texts.findSome? fun text => maps text reg := by
  induction texts with
  | nil => rfl
  | cons text texts ih =>
      have rest := ih fun other member => same other (List.mem_cons_of_mem _ member)
      rw [List.flatMap_cons, List.findSome?_cons, ← rest, same text List.mem_cons_self,
        AllowMap.ofEntries, List.find?_append]
      cases found : (entriesOf text).find? fun e => e.msr = reg with
      | none => simp [AllowMap.ofEntries, found]
      | some e => simp [AllowMap.ofEntries, found]

theorem length_le_joined {texts : List (List UInt8)} {text : List UInt8} (member : text ∈ texts) :
    text.length ≤ (joined texts).length := by
  obtain ⟨front, back, rfl⟩ := List.append_of_mem member
  simp only [joined, List.flatMap_append, List.flatMap_cons, List.length_append]
  omega

theorem clean_joined {texts : List (List UInt8)} (clean : ∀ text ∈ texts, nul ∉ text) :
    nul ∉ joined texts := by
  intro member
  obtain ⟨text, here, inside⟩ := List.mem_flatMap.mp member
  rcases List.mem_append.mp inside with old | last
  · exact clean text here old
  · exact absurd (List.mem_singleton.mp last) (by decide)

end Lists

/-- Texts that are allowlists by themselves, put together in one write of a size
that is allowed: it installs all their entries when no address is in two of them,
and otherwise fails and leaves no list, whatever was installed before. -/
theorem allowlists_join (bucket : Word → Fin 64) (writes : List WriteCall)
    {texts : List (List UInt8)} (acceptable : ∀ text ∈ texts, Acceptable bucket text)
    {call : WriteCall} (text : call.text = joined texts) (parsed : call.Parsed)
    (allocated : call.arrayAllocated = true) :
    let result := writeAllowlist bucket call (storeAfter bucket writes)
    let apart := texts.Pairwise fun text text' =>
      (aloneMap bucket text).Disjoint (aloneMap bucket text')
    (apart → result.2 = .ok call.text.length ∧ ∀ reg, result.1.allowMap bucket reg =
      texts.findSome? fun text => aloneMap bucket text reg) ∧
    (¬apart → result.2 = .error .enotuniq ∧ result.1.allowMap bucket = .empty) := by
  intro result apart
  have facts : ∀ text ∈ texts, readText text = .ok (entriesOf text) ∧ entriesOf text ≠ [] ∧
      AllowMap.Distinct (entriesOf text) ∧
        aloneMap bucket text = .ofEntries (entriesOf text) := by
    intro other member
    apply (acceptable other member).entries
    calc other.length ≤ (joined texts).length := length_le_joined member
      _ = call.text.length := by rw [text]
      _ ≤ 131072 := parsed.short
  have clean : nul ∉ call.text := by
    rw [text]
    exact clean_joined fun other member => (acceptable other member).clean
  have read : readText call.visible = .ok (texts.flatMap entriesOf) := by
    rw [visible_of_clean clean, text]
    exact readText_joined fun other member => (facts other member).1
  have some_entry : texts.flatMap entriesOf ≠ [] := by
    intro none
    cases texts with
    | nil =>
        have long := parsed.long
        rw [text] at long
        exact absurd long (by decide)
    | cons other texts =>
        exact (facts other List.mem_cons_self).2.1 (List.flatMap_eq_nil_iff.mp none other
          List.mem_cons_self)
  have builds := writeAllowlist_builds bucket (storeAfter_represents bucket writes) parsed allocated
    read some_entry
  have same : apart ↔ AllowMap.Distinct (texts.flatMap entriesOf) := by
    rw [distinct_flatMap fun other member => (facts other member).2.2.1]
    apply List.Pairwise.iff_of_mem
    intro other other' member member'
    rw [(facts other member).2.2.2, (facts other' member').2.2.2]
  rw [same]
  dsimp only at builds
  constructor
  · intro distinct
    rw [if_pos distinct] at builds
    refine ⟨builds.1, fun reg => ?_⟩
    rw [builds.2]
    exact ofEntries_flatMap (fun other member => (facts other member).2.2.2) reg
  · intro twice
    rwa [if_neg twice] at builds

def commented : List UInt8 := ['#', 'a', '\n', '1', ' ', '0', 'x', '2', '\n'].map ascii

theorem allowlists_join_twice :
    let call : WriteCall := ⟨joined [commented, commented], true, true, true⟩
    let result := writeAllowlist (fun _ => 0) call (storeAfter (fun _ => 0) [])
    result.2 = .error .enotuniq ∧ result.1.allowMap (fun _ => 0) = .empty := by
  intro call result
  have acceptable : ∀ text ∈ [commented, commented], Acceptable (fun _ => 0) text := by
    intro text member
    have same : text = commented := by simpa using member
    subst same
    exact ⟨by decide, by decide, by decide +kernel⟩
  have common : ¬[commented, commented].Pairwise fun text text' =>
      (aloneMap (fun _ => 0) text).Disjoint (aloneMap (fun _ => 0) text') := by
    rw [List.pairwise_pair]
    intro disjoint
    have listed : aloneMap (fun _ => 0) commented 1 ≠ none := by decide +kernel
    exact (disjoint 1).elim listed listed
  exact (allowlists_join (fun _ => 0) [] acceptable rfl
    (show call.Parsed from ⟨by decide, by decide, rfl, rfl⟩) rfl).2 common

end MsrSafe
