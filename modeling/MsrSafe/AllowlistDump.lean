import MsrSafe.AllowlistInvariant

/-! Reading the allowlist back: a series of reads gives the header and one line
for each entry, and writing that text installs the same entries again. -/

namespace MsrSafe

def dumpText (entries : List AllowlistEntry) : List UInt8 :=
  readAllowlist.header ++ entries.flatMap readAllowlist.line

/-- Reads with these counts from a position until one returns 0, whose copies to
the user succeed: the bytes read and the position left. `none` when a read fails
or the counts run out. -/
def readSeries (g : Globals) : List Nat → Int → Option (List UInt8 × Int)
  | [], _ => none
  | count :: counts, ppos =>
    match readAllowlist g count true ppos with
    | some (.ok [], ppos) => some ([], ppos)
    | some (.ok (c :: line), ppos) =>
      (readSeries g counts ppos).map fun (text, ppos) => (c :: line ++ text, ppos)
    | _ => none

theorem hexLiteral_length_le (width : Nat) (value : Word) (narrow : width ≤ 16) :
    (hexLiteral width value).length ≤ 18 := by
  have short := hexDigits_length_le width value narrow
  rw [hexLiteral, formatHex_eq]
  simp only [List.length_cons, List.length_map]
  omega

theorem line_length (e : AllowlistEntry) : (readAllowlist.line e).length ≤ 38 := by
  have msr := hexLiteral_length_le 8 e.msr (by decide)
  have wmask := hexLiteral_length_le 16 e.wmask (by decide)
  simp only [readAllowlist.line, List.length_append, List.length_singleton]
  omega

theorem header_length : readAllowlist.header.length = 30 := by decide

theorem line_ne_nil (e : AllowlistEntry) : readAllowlist.line e ≠ [] := by
  simp [readAllowlist.line]

structure Shows (g : Globals) (entries : List AllowlistEntry) : Prop where
  installed : entries ≠ [] → ∃ array, g.allowlist = some array ∧ g.slots array = entries
  count : g.allowlistNumentries = entries.length

theorem Filled.slots_eq {bucket : Word → Fin 64} {g : Globals} {array : Nat}
    {entries : List AllowlistEntry} (filled : Filled bucket g array entries.length entries) :
    g.slots array = entries := by
  obtain ⟨unused, slots, length⟩ := filled.slots
  have none : unused = [] := List.length_eq_zero_iff.mp (by omega)
  rw [slots, none, List.append_nil]

theorem Filled.shows {bucket : Word → Fin 64} {g : Globals} {array : Nat}
    {entries : List AllowlistEntry} (filled : Filled bucket g array entries.length entries) :
    Shows g entries :=
  ⟨fun _ => ⟨array, filled.installed, filled.slots_eq⟩, filled.count⟩

section Reads

variable {g : Globals} {entries : List AllowlistEntry}

theorem readAllowlist_end (shows : Shows g entries) (count : Nat) (copied : Bool) {i : Nat}
    (behind : entries.length ≤ i) : readAllowlist g count copied i = some (.ok [], 0) := by
  have past : (i : Int) ≥ (g.allowlistNumentries : Int) := by
    rw [shows.count]
    exact_mod_cast behind
  rw [readAllowlist]
  simp [past]

theorem readAllowlist_line (shows : Shows g entries) {count i : Nat}
    {e : AllowlistEntry} (wide : 68 ≤ count) (at_i : entries[i]? = some e) :
    readAllowlist g count true i =
      some (Except.ok ((if i = 0 then readAllowlist.header else []) ++ readAllowlist.line e),
        (i : Int) + 1) := by
  have inside := (List.getElem?_eq_some_iff.mp at_i).1
  obtain ⟨array, installed, slots⟩ := shows.installed (List.ne_nil_of_length_pos (by omega))
  have within : ¬((i : Int) ≥ (g.allowlistNumentries : Int) ∨ (i : Int) < 0) := by
    rw [shows.count]
    omega
  have length := line_length e
  rw [readAllowlist]
  simp only [Bool.or_eq_true, decide_eq_true_eq]
  rw [if_neg within, installed]
  dsimp only
  rw [slots, Int.toNat_natCast, at_i]
  dsimp only
  have kbuf : (if (i : Int) = 0 then readAllowlist.header ++ readAllowlist.line e
      else readAllowlist.line e) =
      (if i = 0 then readAllowlist.header else []) ++ readAllowlist.line e := by
    by_cases first : i = 0 <;> simp [first]
  have fits : ¬count < ((if i = 0 then readAllowlist.header else []) ++
      readAllowlist.line e).length := by
    rw [List.length_append]
    split
    · rw [header_length]
      omega
    · rw [List.length_nil]
      omega
  rw [kbuf, if_neg fits, if_neg (by decide)]

theorem readSeries_from (shows : Shows g entries)
    (counts : List Nat) (wide : ∀ count ∈ counts, 68 ≤ count) (i : Nat)
    (inside : i ≤ entries.length) (long : entries.length - i < counts.length) :
    readSeries g counts i =
      some ((if i = 0 ∧ entries ≠ [] then readAllowlist.header else []) ++
        (entries.drop i).flatMap readAllowlist.line, 0) := by
  induction counts generalizing i with
  | nil => simp at long
  | cons count counts ih =>
      rw [readSeries]
      rw [List.length_cons] at long
      rcases Nat.eq_or_lt_of_le inside with last | within
      · have none : ¬(i = 0 ∧ entries ≠ []) := by
          rintro ⟨first, nonempty⟩
          rw [first] at last
          exact nonempty (List.length_eq_zero_iff.mp last.symm)
        rw [readAllowlist_end shows count true last.ge, List.drop_of_length_le last.ge, if_neg none]
        rfl
      · have at_i : entries[i]? = some entries[i] := List.getElem?_eq_getElem within
        have nonempty : entries ≠ [] := List.ne_nil_of_length_pos (by omega)
        have rest := ih (fun c member => wide c (List.mem_cons_of_mem count member)) (i + 1)
          within (by omega)
        rw [if_neg (by simp), List.nil_append] at rest
        rw [readAllowlist_line shows (wide count (by simp)) at_i]
        cases shape :
          (if i = 0 then readAllowlist.header else []) ++ readAllowlist.line entries[i] with
        | nil => exact absurd (List.append_eq_nil_iff.mp shape).2 (line_ne_nil _)
        | cons c line =>
            have next : ((i : Int) + 1) = ((i + 1 : Nat) : Int) := by push_cast; rfl
            dsimp only
            rw [next, rest, ← shape, List.drop_eq_getElem_cons within, List.flatMap_cons,
              Option.map_some, List.append_assoc]
            simp [nonempty]

end Reads

theorem readSeries_dumpText {g : Globals} {entries : List AllowlistEntry} (shows : Shows g entries)
    (nonempty : entries ≠ []) {counts : List Nat} (wide : ∀ count ∈ counts, 68 ≤ count)
    (long : entries.length < counts.length) :
    readSeries g counts 0 = some (dumpText entries, 0) := by
  have series := readSeries_from shows counts wide 0 (Nat.zero_le _) long
  rw [if_pos ⟨rfl, nonempty⟩, List.drop_zero] at series
  exact series

theorem hexLiteral_forall {p : UInt8 → Prop} (prefixed : p (ascii '0') ∧ p (ascii 'x'))
    (digits : ∀ d < 16, p (hexDigit d)) (width : Nat) (value : Word) :
    ∀ c ∈ hexLiteral width value, p c := by
  intro c member
  rw [hexLiteral, formatHex_eq] at member
  rcases List.mem_cons.mp member with rfl | member
  · exact prefixed.1
  rcases List.mem_cons.mp member with rfl | member
  · exact prefixed.2
  obtain ⟨d, digit, rfl⟩ := List.mem_map.mp member
  exact digits d (hexDigits_lt width value d digit)

theorem hexLiteral_token (width : Nat) (value : Word) : Token (hexLiteral width value) :=
  ⟨List.cons_ne_nil _ _, hexLiteral_forall (by decide) (by decide) width value⟩

theorem nul_not_mem_hexLiteral (width : Nat) (value : Word) : nul ∉ hexLiteral width value :=
  fun member => hexLiteral_forall (p := (· ≠ nul)) (by decide) (by decide) width value nul member rfl

theorem items_line (e : AllowlistEntry) {u rest : List UInt8} {entries : List AllowlistEntry}
    (items : Items u entries rest) : Items (readAllowlist.line e ++ u) (e :: entries) rest := by
  have shape : readAllowlist.line e ++ u =
      hexLiteral 8 e.msr ++ ([ascii ' '] ++ (hexLiteral 16 e.wmask ++ newline :: u)) := by
    simp [readAllowlist.line]
  rw [shape]
  have first : FirstToken (hexLiteral 8 e.msr) := by
    refine ⟨hexLiteral_token 8 e.msr, fun same => ?_⟩
    exact absurd (Option.some.inj same) (by decide)
  exact .entry first ⟨by decide, List.forall_mem_singleton.mpr (by decide)⟩
    (hexLiteral_token 16 e.wmask) (by decide)
    (kstrtoull_hexLiteral 8 e.msr (by decide)) (kstrtoull_hexLiteral 16 e.wmask (by decide)) items

theorem items_lines (entries : List AllowlistEntry) :
    Items (entries.flatMap readAllowlist.line) entries [] := by
  induction entries with
  | nil => exact .stop
  | cons e entries ih => exact items_line e ih

theorem accepts_dumpText (entries : List AllowlistEntry) : Accepts (dumpText entries) entries := by
  have header : readAllowlist.header =
      hash :: (readAllowlist.header.tail.dropLast ++ [newline]) := by decide
  rw [dumpText]
  rw [header, List.cons_append, List.append_assoc]
  exact .comment (by decide) (.inr rfl) (.space (by decide) (items_lines entries))

theorem nul_not_mem_line (e : AllowlistEntry) : nul ∉ readAllowlist.line e := by
  have space : nul ≠ ascii ' ' := by decide
  have last : nul ≠ newline := by decide
  simp [readAllowlist.line, nul_not_mem_hexLiteral, space, last]

theorem nul_not_mem_dumpText (entries : List AllowlistEntry) : nul ∉ dumpText entries := by
  intro member
  rcases List.mem_append.mp member with header | lines
  · revert header
    decide
  · obtain ⟨e, -, line⟩ := List.mem_flatMap.mp lines
    exact nul_not_mem_line e line

theorem takeWhile_dumpText (entries : List AllowlistEntry) :
    (dumpText entries).takeWhile (· != nul) = dumpText entries := by
  rw [List.takeWhile_eq_self_iff]
  intro c member
  have clean : c ≠ nul := fun same => nul_not_mem_dumpText entries (same ▸ member)
  simpa using clean

theorem readText_dumpText (entries : List AllowlistEntry) :
    readText ((dumpText entries).takeWhile (· != nul)) = .ok entries := by
  rw [takeWhile_dumpText]
  exact (readText_ok_iff _ _).mpr (accepts_dumpText entries)

/-- Every series of reads of an installed list gives the same text, and that
text, written back at any time, installs the same entries in the same order. -/
theorem dump_reloads (bucket : Word → Fin 64) (calls : List WriteCall) (array : Nat)
    (installed : (storeAfter bucket calls).allowlist = some array) :
    let entries := (storeAfter bucket calls).slots array
    entries ≠ [] ∧
    (∀ counts : List Nat, (∀ count ∈ counts, 68 ≤ count) → entries.length < counts.length →
      readSeries (storeAfter bucket calls) counts 0 = some (dumpText entries, 0)) ∧
    ∀ (later : List WriteCall) (call : WriteCall), call.text = dumpText entries →
      call.text.length ≤ 131072 → call.bufferAllocated = true → call.copied = true →
      call.arrayAllocated = true →
      ∃ g array', writeAllowlist bucket call (storeAfter bucket later) =
          (g, .ok (dumpText entries).length) ∧
        g.allowlist = some array' ∧ g.slots array' = entries ∧
        ∀ reg, (msrAllowlistMaskexists bucket g reg, msrAllowlistWritemask bucket g reg) =
          (msrAllowlistMaskexists bucket (storeAfter bucket calls) reg,
            msrAllowlistWritemask bucket (storeAfter bucket calls) reg) := by
  have represents := storeAfter_represents bucket calls
  generalize calls.foldl AllowMap.afterWrite .empty = allow at represents
  generalize storeAfter bucket calls = now at installed represents ⊢
  cases represents with
  | cleared cleared =>
      rw [cleared.absent] at installed
      cases installed
  | installed nonempty filled =>
      rename_i array₀ entries
      rw [filled.installed] at installed
      cases installed
      rw [filled.slots_eq]
      refine ⟨nonempty, ?_, ?_⟩
      · intro counts wide long
        exact readSeries_dumpText filled.shows nonempty wide long
      intro later call text short buffer copied allocated
      have before := storeAfter_represents bucket later
      have long : 3 ≤ call.text.length := by
        rw [text, dumpText, List.length_append, header_length]
        omega
      have read : readText call.visible = .ok entries := by
        rw [WriteCall.visible, text]
        exact readText_dumpText entries
      obtain ⟨⟨array', reloaded⟩, returned⟩ := writeAllowlist_installs bucket before
        ⟨long, short, buffer, copied⟩ read nonempty allocated filled.distinct
      rw [text] at returned
      refine ⟨_, array', Prod.ext rfl returned, reloaded.installed, reloaded.slots_eq, ?_⟩
      intro reg
      have old := Represents.installed nonempty filled
      have new := Represents.installed nonempty reloaded
      exact Prod.ext
        ((maskexists_represents new reg).trans (maskexists_represents old reg).symm)
        ((writemask_represents new reg).trans (writemask_represents old reg).symm)

theorem dump_reloads_two_entries :
    let calls : List WriteCall := ["10 ff ", "10 0xf 0x20 1 "].map fun text =>
      ⟨text.toList.map ascii, true, true, true⟩
    let later : List WriteCall := [⟨"1 2 ".toList.map ascii, true, true, true⟩]
    let g := storeAfter (fun _ => 0) calls
    let text := dumpText [{ wmask := 15, msr := 10 }, { wmask := 1, msr := 32 }]
    readSeries g [68, 100, 68] 0 = some (text, 0) ∧
      ∃ g' array', writeAllowlist (fun _ => 0) ⟨text, true, true, true⟩
          (storeAfter (fun _ => 0) later) = (g', .ok text.length) ∧
        g'.allowlist = some array' ∧
          g'.slots array' = [{ wmask := 15, msr := 10 }, { wmask := 1, msr := 32 }] := by
  intro calls later g text
  have installed : g.allowlist = some 0 := by decide +kernel
  have entries : g.slots 0 = [{ wmask := 15, msr := 10 }, { wmask := 1, msr := 32 }] := by
    decide +kernel
  obtain ⟨-, dumps, reloads⟩ := dump_reloads (fun _ => 0) calls 0 installed
  rw [show (storeAfter (fun _ => 0) calls).slots 0 = _ from entries] at dumps reloads
  obtain ⟨g', array', returned, present, same, -⟩ :=
    reloads later ⟨text, true, true, true⟩ rfl (by decide +kernel) rfl rfl rfl
  exact ⟨dumps [68, 100, 68] (by decide) (by decide), g', array', returned, present, same⟩

end MsrSafe
