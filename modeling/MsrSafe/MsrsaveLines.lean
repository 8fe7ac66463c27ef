import MsrSafe.MsrsaveAllowlist
import MsrSafe.Lib.Lines

/-! `msr_parse_allowlist` on a file of any content: which lines its loops go
over and which numbers they read there. -/

namespace MsrSafe

open Lines

def isEntry (line : List UInt8) : Bool := line.head? ≠ some hash

def entryStarts (text : List UInt8) : List (List UInt8) := (starts newline text).filter isEntry

def entryLines (text : List UInt8) : List (List UInt8) := (lines newline text).filter isEntry

def visibleText (text : List UInt8) : List UInt8 := text.takeWhile (· != nul)

/-- Linux transfers at most this many bytes in one `read`. -/
def MAX_RW_COUNT : Nat := 0x7ffff000

abbrev FileReads := List (Except Int (List UInt8))

def fileContent : FileReads → List UInt8
  | .ok (c :: chunk) :: reads => c :: chunk ++ fileContent reads
  | _ => []

def copyFile (writeTmp : Nat → Option Int) : Nat → FileReads → Except Failure (List UInt8)
  | _, [] => .ok []
  | _, .error errno :: _ => .error (.ofErrno errno)
  | _, .ok [] :: _ => .ok []
  | turn, .ok (c :: chunk) :: reads =>
    match attempt [writeTmp turn] with
    | .error failure => .error failure
    | .ok () =>
      match copyFile writeTmp (turn + 1) reads with
      | .ok text => .ok (c :: chunk ++ text)
      | .error failure => .error failure

/-- The copy is read back at once, which fails when it is too long. -/
def ParseFaults.reading (faults : ParseFaults) (text : List UInt8) : ParseFaults :=
  { faults with
    readTmp :=
      if MAX_RW_COUNT < text.length then some (faults.readTmp.getD faults.errno)
      else faults.readTmp }

def msrParseFile (faults : ParseFaults) (reads : FileReads) :
    Option (Except Failure (List AllowlistEntry)) :=
  match attempt [faults.mkstemp, faults.openAllowlist] with
  | .error failure => some (.error failure)
  | .ok () =>
    match copyFile faults.writeTmp 0 reads with
    | .error failure => some (.error failure)
    | .ok text => parseCopy (faults.reading text) text

def deviceReads (g : Globals) : Nat → Int → FileReads
  | 0, _ => []
  | fuel + 1, ppos =>
    match readAllowlist g 8192 true ppos with
    | none => []
    | some (.error err, _) => [.error err.number]
    | some (.ok chunk, ppos) => .ok chunk :: deviceReads g fuel ppos

/-! ## What is written on a line -/

def isalnum (c : UInt8) : Bool :=
  (ascii '0' ≤ c && c ≤ ascii '9') || (ascii 'a' ≤ tolower c && tolower c ≤ ascii 'z')

structure HexDigits (a : List UInt8) (value : Word) : Prop where
  nonempty : a ≠ []
  digits : ∀ c ∈ a, isxdigit c = true
  value : Nat.ofDigits 16 (a.filterMap digitVal).reverse = value.toNat

/-- A hexadecimal number as it is written: digits, with or without `0x`, and no sign. -/
inductive HexNumber : List UInt8 → Word → Prop where
  | plain {a : List UInt8} {value : Word} : HexDigits a value → HexNumber a value
  | prefixed {a : List UInt8} {x : UInt8} {value : Word} : x = ascii 'x' ∨ x = ascii 'X' →
      HexDigits a value → HexNumber (ascii '0' :: x :: a) value

/-- Two numbers are written at the front of a line, blanks between them and no
letter or digit right behind the second. -/
inductive WrittenEntry : List UInt8 → AllowlistEntry → Prop where
  | line {indent a ws b rest : List UInt8} {msr wmask : Word} :
      (∀ c ∈ indent, cIsspace c = true) → HexNumber a msr →
      ws ≠ [] → (∀ c ∈ ws, cIsspace c = true) → HexNumber b wmask →
      (∀ c ∈ rest.head?, isalnum c = false) →
      WrittenEntry (indent ++ (a ++ (ws ++ (b ++ rest)))) { wmask := wmask, msr := msr }

/-- What the parser has to do: fail, or give the two numbers of each line. -/
def ReadsEachLine (content : List UInt8)
    (result : Option (Except Failure (List AllowlistEntry))) : Prop :=
  (∃ failure, result = some (.error failure)) ∨
    ∃ entries, result = some (.ok entries) ∧ entries.length = (entryLines content).length ∧
      ∀ (i : Nat) line, (entryLines content)[i]? = some line →
        ∃ e, entries[i]? = some e ∧ WrittenEntry line e

structure Unhindered (faults : ParseFaults) (reads : FileReads) : Prop where
  calls : ∀ fault ∈ [faults.mkstemp, faults.openAllowlist, faults.closeTmp, faults.closeAllowlist,
    faults.statTmp, faults.mallocBuffer, faults.openTmp, faults.readTmp, faults.closeTmpAgain,
    faults.mallocOffset, faults.mallocMask], fault = none
  copied : ∃ text, copyFile faults.writeTmp 0 reads = .ok text
  nonempty : fileContent reads ≠ []
  size : (fileContent reads).length ≤ MAX_RW_COUNT

structure EndsNumber (c : UInt8) : Prop where
  digit : digitVal c = none
  zero : c ≠ ascii '0'
  minus : c ≠ ascii '-'
  plus : c ≠ ascii '+'
  prefixed : tolower c ≠ ascii 'x'

theorem endsNumber_nul : EndsNumber nul := by constructor <;> decide

theorem endsNumber_newline : EndsNumber newline := by constructor <;> decide

theorem parseInteger_append (base : Nat) (s w : List UInt8) (res : Nat) {c : UInt8}
    (stop : digitVal c = none) :
    parseInteger base (s ++ c :: w) res =
      ((parseInteger base s res).1, (parseInteger base s res).2 ++ c :: w) := by
  induction s generalizing res with
  | nil =>
      simp [parseInteger, stop]
  | cons b s ih =>
      rw [List.cons_append, parseInteger, parseInteger]
      cases digitVal b with
      | none => rfl
      | some val =>
          dsimp only
          split
          · exact ih (res * base + val)
          · rfl

def skipIf (p : UInt8 → Prop) [DecidablePred p] (s : List UInt8) : List UInt8 :=
  if p (s.getD 0 nul) then s.drop 1 else s

def scanDigits (negative : Prop) [Decidable negative] (s : List UInt8) :
    Option (Word × List UInt8) :=
  let zero := s.getD 0 nul = ascii '0'
  let s := skipIf (· = ascii '0') s
  let s := skipIf (fun b => zero && tolower b = ascii 'x') s
  let (value, rest) := parseInteger 16 s 0
  if !zero && rest.length = s.length then none
  else if 2 ^ 64 ≤ value then some (BitVec.allOnes 64, rest)
  else some (if negative then -BitVec.ofNat 64 value else BitVec.ofNat 64 value, rest)

def scanNumber (s : List UInt8) : Option (Word × List UInt8) :=
  scanDigits (s.getD 0 nul = ascii '-') (skipIf (fun b => b = ascii '-' || b = ascii '+') s)

theorem scanHex_eq (s : List UInt8) : scanHex s = scanNumber (s.dropWhile cIsspace) := rfl

theorem head_append (p : UInt8 → Prop) (s w : List UInt8) {c : UInt8} (outside : ¬p c)
    (outside_nul : ¬p nul) : p ((s ++ c :: w).getD 0 nul) = p (s.getD 0 nul) := by
  cases s with
  | nil => exact propext (iff_of_false outside outside_nul)
  | cons b s => rfl

theorem skipIf_append (p : UInt8 → Prop) [DecidablePred p] (s w : List UInt8) {c : UInt8}
    (outside : ¬p c) (outside_nul : ¬p nul) :
    skipIf p (s ++ c :: w) = skipIf p s ++ c :: w := by
  cases s with
  | nil =>
      have stays : skipIf p [] = [] := if_neg outside_nul
      rw [stays]
      exact if_neg outside
  | cons b s =>
      rw [List.cons_append, skipIf, skipIf, List.getD_cons_zero, List.getD_cons_zero]
      split <;> rfl

theorem scanDigits_append (negative : Prop) [Decidable negative] (s w : List UInt8) {c : UInt8}
    (ends : EndsNumber c) :
    scanDigits negative (s ++ c :: w) =
      (scanDigits negative s).map fun found => (found.1, found.2 ++ c :: w) := by
  have zero := head_append (· = ascii '0') s w ends.zero endsNumber_nul.zero
  have other : ¬(decide (s.getD 0 nul = ascii '0') && decide (tolower c = ascii 'x')) = true := by
    simp [ends.prefixed]
  rw [scanDigits, scanDigits]
  simp only [zero, skipIf_append (· = ascii '0') s w ends.zero endsNumber_nul.zero]
  generalize skipIf (· = ascii '0') s = t
  rw [skipIf_append _ t w other (by simp [endsNumber_nul.prefixed])]
  generalize skipIf (fun b => decide (s.getD 0 nul = ascii '0') && decide (tolower b = ascii 'x'))
    t = digits
  simp only [parseInteger_append 16 digits w 0 ends.digit, List.length_append,
    Nat.add_right_cancel_iff]
  split
  · rfl
  · split <;> rfl

theorem scanNumber_append (s w : List UInt8) {c : UInt8} (ends : EndsNumber c) :
    scanNumber (s ++ c :: w) = (scanNumber s).map fun found => (found.1, found.2 ++ c :: w) := by
  have minus := head_append (· = ascii '-') s w ends.minus endsNumber_nul.minus
  have unsigned : ¬(decide (c = ascii '-') || decide (c = ascii '+')) = true := by
    simp [ends.minus, ends.plus]
  have signs := skipIf_append (fun b => decide (b = ascii '-') || decide (b = ascii '+')) s w
    unsigned (by decide)
  rw [scanNumber, scanNumber, signs, scanDigits_append _ _ w ends]
  simp only [minus]

/-- A number ends at a newline, and one that is found does so wherever the text goes on. -/
theorem scanHex_newline {s rest : List UInt8} {value : Word}
    (found : scanHex s = some (value, rest)) (w : List UInt8) :
    scanHex (s ++ newline :: w) = some (value, rest ++ newline :: w) := by
  rw [scanHex_eq] at found
  have behind : (s ++ newline :: w).dropWhile cIsspace = s.dropWhile cIsspace ++ newline :: w := by
    rw [List.dropWhile_append]
    split
    · rename_i blank
      rw [List.isEmpty_iff.mp blank] at found
      cases found
    · rfl
  calc
    scanHex (s ++ newline :: w) = scanNumber (s.dropWhile cIsspace ++ newline :: w) := by
      rw [scanHex_eq, behind]
    _ = (scanNumber (s.dropWhile cIsspace)).map fun number =>
        (number.1, number.2 ++ newline :: w) := scanNumber_append _ w endsNumber_newline
    _ = some (value, rest ++ newline :: w) := by rw [found, Option.map_some]

theorem scanHex_nul (s w : List UInt8) :
    scanHex (s ++ nul :: w) = (scanHex s).map fun found => (found.1, found.2 ++ nul :: w) := by
  calc
    scanHex (s ++ nul :: w) = scanNumber (s.dropWhile cIsspace ++ nul :: w) := by
      rw [scanHex_eq, Scan.dropWhile_terminated cIsspace s w nul (by decide)]
    _ = (scanNumber (s.dropWhile cIsspace)).map fun found => (found.1, found.2 ++ nul :: w) :=
      scanNumber_append _ w endsNumber_nul
    _ = (scanHex s).map fun found => (found.1, found.2 ++ nul :: w) := by rw [← scanHex_eq]

theorem scanEntry_eq (s : List UInt8) :
    scanEntry s =
      match scanHex s with
      | none => none
      | some (msr, rest) =>
        match scanHex rest with
        | none => none
        | some (wmask, _) => some { wmask := wmask, msr := msr } := by
  rw [scanEntry]
  cases scanHex s with
  | none => rfl
  | some found =>
      obtain ⟨msr, rest⟩ := found
      dsimp only [Option.bind_eq_bind, Option.bind_some]
      cases scanHex rest <;> rfl

theorem scanEntry_newline {run : List UInt8} {e : AllowlistEntry}
    (found : scanEntry run = some e) (w : List UInt8) :
    scanEntry (run ++ newline :: w) = some e := by
  rw [scanEntry_eq] at found
  split at found
  · cases found
  · rename_i msr rest first
    split at found
    · cases found
    · rename_i wmask rest' second
      rw [scanEntry_eq, scanHex_newline first w]
      dsimp only
      rw [scanHex_newline second w]
      exact found

theorem scanEntry_nul (run w : List UInt8) : scanEntry (run ++ nul :: w) = scanEntry run := by
  rw [scanEntry_eq, scanEntry_eq, scanHex_nul]
  cases scanHex run with
  | none => rfl
  | some found =>
      dsimp only [Option.map_some]
      rw [scanHex_nul]
      cases scanHex found.2 <;> rfl

/-! ## Written numbers are scanned -/

theorem HexDigits.foldl {a : List UInt8} {value : Word} (written : HexDigits a value) :
    (a.filterMap digitVal).foldl (fun res d => res * 16 + d) 0 = value.toNat := by
  have forwards := foldl_digits_reverse (a.filterMap digitVal).reverse 0
  rw [List.reverse_reverse, Nat.zero_mul, Nat.zero_add] at forwards
  exact forwards.trans written.value

theorem forall_byte {p : UInt8 → Prop} [DecidablePred p]
    (certificate : (List.range 256).all (fun n => decide (p (UInt8.ofNat n))) = true) (c : UInt8) :
    p c := by
  have here := List.all_eq_true.mp certificate c.toNat (List.mem_range.mpr c.toNat_lt)
  rw [UInt8.ofNat_toNat] at here
  exact of_decide_eq_true here

theorem isxdigit_kind : ∀ c, isxdigit c = true →
    cIsspace c = false ∧ c ≠ ascii '-' ∧ c ≠ ascii '+' ∧ tolower c ≠ ascii 'x' :=
  forall_byte (by decide +kernel)

theorem isalnum_of_cIsspace : ∀ c, cIsspace c = true → isalnum c = false :=
  forall_byte (by decide +kernel)

theorem not_isalnum_kind : ∀ c, isalnum c = false →
    digitVal c = none ∧ tolower c ≠ ascii 'x' :=
  forall_byte (by decide +kernel)

theorem ends_of_not_isalnum {s : List UInt8} (ends : ∀ c ∈ s.head?, isalnum c = false) :
    digitVal (s.getD 0 nul) = none ∧ tolower (s.getD 0 nul) ≠ ascii 'x' := by
  cases s with
  | nil => decide
  | cons c s => exact not_isalnum_kind c (ends c rfl)

section Written

variable {a s t : List UInt8} {value : Word} {negative : Prop} [Decidable negative]

theorem scanDigits_parsed {digits : List UInt8} (positive : ¬negative)
    (skipped : skipIf (fun b => decide (t.getD 0 nul = ascii '0') && decide (tolower b = ascii 'x'))
      (skipIf (· = ascii '0') t) = digits)
    (parsed : parseInteger 16 digits 0 = (value.toNat, s))
    (number : t.getD 0 nul = ascii '0' ∨ s.length < digits.length) :
    scanDigits negative t = some (value, s) := by
  have found : ¬(!decide (t.getD 0 nul = ascii '0') && decide (s.length = digits.length)) = true := by
    rcases number with zero | digit
    · rw [decide_eq_true zero]
      simp
    · simp [Nat.ne_of_lt digit]
  rw [scanDigits]
  simp only [skipped, parsed]
  rw [if_neg found, if_neg (Nat.not_le.mpr value.isLt), if_neg positive, BitVec.ofNat_toNat,
    BitVec.setWidth_eq]

theorem scanDigits_plain (positive : ¬negative) (written : HexDigits a value)
    (ends : ∀ c ∈ s.head?, isalnum c = false) : scanDigits negative (a ++ s) = some (value, s) := by
  obtain ⟨stop, no_x⟩ := ends_of_not_isalnum ends
  have value_read := written.foldl
  obtain ⟨nonempty, digits, -⟩ := written
  cases a with
  | nil => exact absurd rfl nonempty
  | cons c a =>
      have parsed := parseInteger_digits digits 0 stop
      rw [value_read] at parsed
      rw [List.forall_mem_cons] at digits
      by_cases zero : c = ascii '0'
      · -- the zero may have an `x` behind it, but it has not
        subst zero
        have behind : tolower ((a ++ s).getD 0 nul) ≠ ascii 'x' := by
          cases a with
          | nil => exact no_x
          | cons d a => exact (isxdigit_kind d (digits.2 d List.mem_cons_self)).2.2.2
        have later := parseInteger_digits digits.2 0 stop
        rw [show (a.filterMap digitVal).foldl (fun res d => res * 16 + d) 0 = value.toNat from
          value_read] at later
        refine scanDigits_parsed positive ?_ later (.inl rfl)
        have skipped : skipIf (· = ascii '0') (ascii '0' :: (a ++ s)) = a ++ s := rfl
        rw [List.cons_append, skipped, skipIf, if_neg (by simp only [behind]; simp)]
      · refine scanDigits_parsed positive ?_ parsed (.inr (by simp))
        have kept : skipIf (· = ascii '0') (c :: (a ++ s)) = c :: (a ++ s) := if_neg zero
        rw [List.cons_append, kept, skipIf, if_neg (by simp [zero])]

theorem scanDigits_prefixed (positive : ¬negative) {x : UInt8}
    (marked : x = ascii 'x' ∨ x = ascii 'X') (written : HexDigits a value)
    (ends : ∀ c ∈ s.head?, isalnum c = false) :
    scanDigits negative (ascii '0' :: x :: (a ++ s)) = some (value, s) := by
  have parsed := parseInteger_digits written.digits 0 (ends_of_not_isalnum ends).1
  rw [written.foldl] at parsed
  refine scanDigits_parsed positive ?_ parsed (.inl rfl)
  have skipped : skipIf (· = ascii '0') (ascii '0' :: x :: (a ++ s)) = x :: (a ++ s) := rfl
  have lower : tolower x = ascii 'x' := by rcases marked with rfl | rfl <;> decide
  rw [skipped, skipIf, if_pos (by simp [lower])]
  rfl

theorem scanNumber_written (written : HexNumber a value)
    (ends : ∀ c ∈ s.head?, isalnum c = false) : scanNumber (a ++ s) = some (value, s) := by
  cases written with
  | plain digits =>
      obtain ⟨c, a, rfl⟩ := List.exists_cons_of_ne_nil digits.nonempty
      obtain ⟨-, minus, plus, -⟩ := isxdigit_kind c (digits.digits c List.mem_cons_self)
      have unsigned : skipIf (fun b => decide (b = ascii '-') || decide (b = ascii '+'))
          (c :: a ++ s) = c :: a ++ s := if_neg (by simp [minus, plus])
      rw [scanNumber, unsigned]
      exact scanDigits_plain minus digits ends
  | prefixed marked digits =>
      have positive : ascii '0' ≠ ascii '-' := by decide
      exact scanDigits_prefixed positive marked digits ends

theorem HexNumber.head {a : List UInt8} {value : Word} (written : HexNumber a value) :
    ∃ c rest, a = c :: rest ∧ cIsspace c = false := by
  cases written with
  | plain digits =>
      obtain ⟨c, rest, rfl⟩ := List.exists_cons_of_ne_nil digits.nonempty
      exact ⟨c, rest, rfl, (isxdigit_kind c (digits.digits c List.mem_cons_self)).1⟩
  | prefixed marked digits => exact ⟨_, _, rfl, by decide⟩

theorem scanHex_written {spaces : List UInt8} (blank : ∀ c ∈ spaces, cIsspace c = true)
    (written : HexNumber a value) (ends : ∀ c ∈ s.head?, isalnum c = false) :
    scanHex (spaces ++ (a ++ s)) = some (value, s) := by
  have stays : (a ++ s).dropWhile cIsspace = a ++ s := by
    obtain ⟨c, rest, rfl, solid⟩ := written.head
    exact List.dropWhile_cons_of_neg (by simp [solid])
  rw [scanHex_eq, List.dropWhile_append_of_pos blank, stays]
  exact scanNumber_written written ends

end Written

theorem scanEntry_written {line : List UInt8} {e : AllowlistEntry} (written : WrittenEntry line e) :
    scanEntry line = some e := by
  cases written with
  | @line indent a ws b rest msr wmask indented first apart blank second ends =>
      have between : ∀ c ∈ (ws ++ (b ++ rest)).head?, isalnum c = false := by
        obtain ⟨c, more, rfl⟩ := List.exists_cons_of_ne_nil apart
        rintro d ⟨⟩
        exact isalnum_of_cIsspace c (blank c List.mem_cons_self)
      rw [scanEntry_eq, scanHex_written indented first between]
      dsimp only
      rw [scanHex_written blank second ends]

theorem isEntry_cons (c : UInt8) (s : List UInt8) : isEntry (c :: s) = decide (c ≠ hash) := by
  rw [isEntry, List.head?_cons]
  exact decide_eq_decide.mpr (not_congr Option.some_inj)

theorem isEntry_line (run rest : List UInt8) : isEntry (run ++ newline :: rest) = isEntry run := by
  cases run with
  | nil => rfl
  | cons c run => rfl

theorem isEntry_eq_false {s : List UInt8} : isEntry s = false ↔ s.getD 0 nul = hash := by
  cases s with
  | nil => decide
  | cons c s => rw [isEntry_cons, List.getD_cons_zero, decide_eq_false_iff_not, not_not]

theorem entryStarts_line {run : List UInt8} (rest : List UInt8) (absent : newline ∉ run) :
    entryStarts (run ++ newline :: rest) =
      (if isEntry run then [run ++ newline :: rest] else []) ++ entryStarts rest := by
  rw [entryStarts, starts_line rest absent, List.filter_cons, isEntry_line]
  split <;> rfl

theorem entryStarts_last {run : List UInt8} (nonempty : run ≠ []) (absent : newline ∉ run) :
    entryStarts run = if isEntry run then [run] else [] := by
  rw [entryStarts, starts_last nonempty absent, List.filter_cons, List.filter_nil]

theorem entryLines_line {run : List UInt8} (rest : List UInt8) (absent : newline ∉ run) :
    entryLines (run ++ newline :: rest) =
      (if isEntry run then [run] else []) ++ entryLines rest := by
  rw [entryLines, lines_line rest absent, List.filter_cons]
  split <;> rfl

theorem entryLines_last {run : List UInt8} (nonempty : run ≠ []) (absent : newline ∉ run) :
    entryLines run = if isEntry run then [run] else [] := by
  rw [entryLines, lines_last nonempty absent, List.filter_cons, List.filter_nil]

theorem length_entryStarts (text : List UInt8) :
    (entryStarts text).length = (entryLines text).length := by
  induction text using line_induction newline with
  | nil => rfl
  | last run nonempty absent =>
      rw [entryStarts_last nonempty absent, entryLines_last nonempty absent]
  | line run rest absent ih =>
      rw [entryStarts_line rest absent, entryLines_line rest absent, List.length_append,
        List.length_append, ih]
      split <;> rfl

/-! ## The loops -/

theorem strchr_none {c : UInt8} {run : List UInt8} (absent : c ∉ run) : strchr c run = none := by
  induction run with
  | nil => rfl
  | cons b run ih =>
      rw [List.mem_cons, not_or] at absent
      rw [strchr, if_neg (Ne.symm absent.1), ih absent.2]

theorem countEntries_last {run : List UInt8} (fuel : Nat) (nonempty : run ≠ [])
    (absent : newline ∉ run) :
    countEntries (fuel + 1) run = if isEntry run then 1 else 0 := by
  cases run with
  | nil => exact absurd rfl nonempty
  | cons c run =>
      rw [countEntries, strchr_none absent, isEntry_cons, Nat.add_zero]
      simp only [decide_eq_true_eq]

theorem countEntries_line {run : List UInt8} (fuel : Nat) (rest : List UInt8)
    (absent : newline ∉ run) :
    countEntries (fuel + 1) (run ++ newline :: rest) =
      (if isEntry run then 1 else 0) + countEntries fuel rest := by
  have found := strchr_append rest absent
  rw [← isEntry_line run rest]
  cases shape : run ++ newline :: rest with
  | nil => exact absurd shape (by simp)
  | cons c s =>
      rw [shape] at found
      rw [countEntries, found, isEntry_cons]
      simp only [decide_eq_true_eq, List.drop_one, List.tail_cons]

theorem countEntries_eq (text : List UInt8) {fuel : Nat} (enough : text.length ≤ fuel) :
    countEntries fuel text = (entryStarts text).length := by
  induction text using line_induction newline generalizing fuel with
  | nil => cases fuel <;> rfl
  | last run nonempty absent =>
      cases fuel with
      | zero => exact absurd (List.eq_nil_of_length_eq_zero (Nat.le_zero.mp enough)) nonempty
      | succ fuel =>
          rw [countEntries_last fuel nonempty absent, entryStarts_last nonempty absent]
          split <;> rfl
  | line run rest absent ih =>
      rw [List.length_append, List.length_cons] at enough
      cases fuel with
      | zero => omega
      | succ fuel =>
          rw [countEntries_line fuel rest absent, entryStarts_line rest absent, List.length_append,
            ih (by omega)]
          split <;> rfl

theorem skipCommentLines_last {run : List UInt8} (fuel : Nat) (absent : newline ∉ run)
    (comment : isEntry run = false) : skipCommentLines (fuel + 1) run = none := by
  rw [skipCommentLines, if_pos (isEntry_eq_false.mp comment), strchr_none absent]

theorem skipCommentLines_line {run : List UInt8} (fuel : Nat) (rest : List UInt8)
    (absent : newline ∉ run) (comment : isEntry run = false) :
    skipCommentLines (fuel + 1) (run ++ newline :: rest) = skipCommentLines fuel rest := by
  rw [← isEntry_line run rest] at comment
  rw [skipCommentLines, if_pos (isEntry_eq_false.mp comment), strchr_append rest absent]
  rfl

theorem skipCommentLines_isEntry (fuel : Nat) {s : List UInt8} (entry : isEntry s = true) :
    skipCommentLines fuel s = some s := by
  apply skipCommentLines_entry
  intro comment
  rw [isEntry_eq_false.mpr comment] at entry
  cases entry

theorem skipCommentLines_fuel (text : List UInt8) {fuel : Nat} (enough : text.length ≤ fuel) :
    skipCommentLines fuel text = skipCommentLines text.length text := by
  induction text using line_induction newline generalizing fuel with
  | nil =>
      have entry : isEntry [] = true := by decide
      rw [skipCommentLines_isEntry fuel entry, skipCommentLines_isEntry _ entry]
  | last run nonempty absent =>
      cases entry : isEntry run with
      | true => rw [skipCommentLines_isEntry fuel entry, skipCommentLines_isEntry _ entry]
      | false =>
          have some_byte := List.length_pos_iff.mpr nonempty
          obtain ⟨fuel, rfl⟩ := Nat.exists_eq_add_of_le' (Nat.lt_of_lt_of_le some_byte enough)
          obtain ⟨more, length⟩ := Nat.exists_eq_add_of_le' some_byte
          rw [length, skipCommentLines_last _ absent entry, skipCommentLines_last _ absent entry]
  | line run rest absent ih =>
      cases entry : isEntry run with
      | true =>
          rw [← isEntry_line run rest] at entry
          rw [skipCommentLines_isEntry fuel entry, skipCommentLines_isEntry _ entry]
      | false =>
          rw [List.length_append, List.length_cons] at enough ⊢
          cases fuel with
          | zero => omega
          | succ fuel =>
              rw [← Nat.add_assoc, skipCommentLines_line _ rest absent entry,
                skipCommentLines_line _ rest absent entry,
                ih (show rest.length ≤ fuel by omega),
                ih (show rest.length ≤ run.length + rest.length by omega)]

def consEntry : Option AllowlistEntry → Except Failure (List AllowlistEntry) →
    Except Failure (List AllowlistEntry)
  | none, _ => .error .minusOne
  | some entry, .ok entries => .ok (entry :: entries)
  | some _, .error failure => .error failure

def parseStarts (starts : List (List UInt8)) : Except Failure (List AllowlistEntry) :=
  starts.foldr (fun start => consEntry (scanEntry start)) (.ok [])

theorem parseStarts_cons (start : List UInt8) (starts : List (List UInt8)) :
    parseStarts (start :: starts) = consEntry (scanEntry start) (parseStarts starts) := by
  rw [parseStarts, parseStarts, List.foldr_cons]

theorem parseEntries_isEntry (numMsr : Nat) {s : List UInt8} (entry : isEntry s = true) :
    parseEntries (numMsr + 1) (some s) =
      match scanEntry s with
      | none => some (.error .minusOne)
      | some entry =>
        match parseEntries numMsr ((strchr newline s).map (·.drop 1)) with
        | some (.ok entries) => some (.ok (entry :: entries))
        | other => other := by
  rewrite [parseEntries, skipCommentLines_isEntry _ entry]
  rfl

theorem parseEntries_comment (numMsr : Nat) {run : List UInt8} (rest : List UInt8)
    (absent : newline ∉ run) (comment : isEntry run = false) :
    parseEntries numMsr (some (run ++ newline :: rest)) = parseEntries numMsr (some rest) := by
  cases numMsr with
  | zero => rfl
  | succ numMsr =>
      rw [parseEntries, parseEntries, List.length_append, List.length_cons, ← Nat.add_assoc,
        skipCommentLines_line _ rest absent comment, skipCommentLines_fuel rest (by omega)]

/-- The second loop reads at the starts of the lines the first one has counted. -/
theorem parseEntries_eq (text : List UInt8) :
    parseEntries (entryStarts text).length (some text) = some (parseStarts (entryStarts text)) := by
  induction text using line_induction newline with
  | nil => rfl
  | last run nonempty absent =>
      rw [entryStarts_last nonempty absent]
      cases entry : isEntry run with
      | false => rfl
      | true =>
          rw [if_pos rfl, List.length_singleton, parseEntries_isEntry 0 entry, parseStarts_cons,
            strchr_none absent]
          cases scanEntry run <;> rfl
  | line run rest absent ih =>
      rw [entryStarts_line rest absent]
      cases entry : isEntry run with
      | false =>
          rw [if_neg Bool.false_ne_true, List.nil_append, parseEntries_comment _ rest absent entry]
          exact ih
      | true =>
          rw [← isEntry_line run rest] at entry
          rw [if_pos rfl, List.singleton_append, List.length_cons, parseEntries_isEntry _ entry,
            parseStarts_cons, strchr_append rest absent]
          cases scanEntry (run ++ newline :: rest) with
          | none => rfl
          | some e =>
              rw [Option.map_some, List.drop_one, List.tail_cons, ih]
              cases parseStarts (entryStarts rest) <;> rfl

theorem parseStarts_ok {starts : List (List UInt8)}
    (found : ∀ start ∈ starts, scanEntry start ≠ none) :
    ∃ entries, parseStarts starts = .ok entries ∧ entries.map some = starts.map scanEntry := by
  induction starts with
  | nil => exact ⟨[], rfl, rfl⟩
  | cons start starts ih =>
      rw [List.forall_mem_cons] at found
      obtain ⟨entries, parsed, same⟩ := ih found.2
      obtain ⟨e, read⟩ := Option.ne_none_iff_exists'.mp found.1
      apply Exists.intro (e :: entries)
      constructor
      · rw [parseStarts_cons, read, parsed]
        rfl
      · rw [List.map_cons, List.map_cons, same, read]

theorem parseStarts_error {starts : List (List UInt8)} {start : List UInt8}
    (member : start ∈ starts) (missing : scanEntry start = none) :
    ∃ failure, parseStarts starts = .error failure := by
  induction starts with
  | nil => cases member
  | cons head starts ih =>
      rw [parseStarts_cons]
      cases scanned : scanEntry head with
      | none => exact ⟨_, rfl⟩
      | some e =>
          rcases List.mem_cons.mp member with rfl | later
          · cases missing.symm.trans scanned
          · obtain ⟨failure, failed⟩ := ih later
            rw [failed]
            exact ⟨failure, rfl⟩

theorem entryLines_cut {run : List UInt8} (w : List UInt8) (nonempty : run ≠ [])
    (absent : newline ∉ run) :
    ∃ u others, entryLines (run ++ nul :: w) =
      (if isEntry run then [run ++ nul :: u] else []) ++ others := by
  have same : ∀ u, isEntry (run ++ nul :: u) = isEntry run := by
    intro u
    cases run with
    | nil => exact absurd rfl nonempty
    | cons c run => rfl
  have clean : ∀ u : List UInt8, newline ∉ u → newline ∉ run ++ nul :: u := by
    intro u free
    rw [List.mem_append, List.mem_cons, not_or, not_or]
    exact ⟨absent, by decide, free⟩
  by_cases ended : newline ∈ w
  · obtain ⟨u, rest, rfl, free⟩ := List.eq_append_cons_of_mem ended
    refine ⟨u, entryLines rest, ?_⟩
    rw [← same u, ← entryLines_line rest (clean u free), List.append_assoc, List.cons_append]
  · refine ⟨w, [], ?_⟩
    rw [List.append_nil, ← same w]
    exact entryLines_last (by simp) (clean w ended)

/-- Where each line has its numbers, and none is behind the terminator, `sscanf`
finds at the start of each line the numbers of that line. -/
theorem scanEntry_starts (text : List UInt8) {behind : List UInt8}
    (cut : behind = [] ∨ ∃ w, behind = nul :: w)
    (readable : ∀ line ∈ entryLines (text ++ behind), scanEntry line ≠ none)
    (visible : (entryLines (text ++ behind)).length = (entryStarts text).length) :
    (entryStarts text).map scanEntry = (entryLines (text ++ behind)).map scanEntry := by
  induction text using line_induction newline with
  | nil =>
      have none_left : entryLines ([] ++ behind) = [] := List.eq_nil_of_length_eq_zero visible
      rw [none_left]
      rfl
  | last run nonempty absent =>
      rw [entryStarts_last nonempty absent] at visible ⊢
      rcases cut with rfl | ⟨w, rfl⟩
      · rw [List.append_nil, entryLines_last nonempty absent]
      · obtain ⟨u, others, shape⟩ := entryLines_cut w nonempty absent
        rw [shape] at visible ⊢
        cases entry : isEntry run with
        | false =>
            rw [entry] at visible
            have none_left : others = [] := List.eq_nil_of_length_eq_zero visible
            rw [none_left]
            rfl
        | true =>
            rw [entry] at visible
            have none_left : others = [] :=
              List.eq_nil_of_length_eq_zero (Nat.succ_inj.mp visible)
            rw [none_left]
            exact congrArg ([·]) (scanEntry_nul run u).symm
  | line run rest absent ih =>
      rw [List.append_assoc, List.cons_append, entryLines_line _ absent] at readable visible ⊢
      rw [entryStarts_line rest absent] at visible ⊢
      cases entry : isEntry run with
      | false =>
          rw [entry] at readable visible
          exact ih readable visible
      | true =>
          rw [entry, if_pos rfl, List.singleton_append] at readable visible
          rw [if_pos rfl, List.singleton_append, List.length_cons, List.length_cons,
            Nat.add_right_cancel_iff] at visible
          rw [if_pos rfl, if_pos rfl, List.singleton_append, List.singleton_append, List.map_cons,
            List.map_cons]
          rw [List.forall_mem_cons] at readable
          obtain ⟨e, read⟩ := Option.ne_none_iff_exists'.mp readable.1
          rw [read, scanEntry_newline read rest, ih readable.2 visible]

/-! ## The whole function -/

theorem attempt_eq_ok_iff {faults : List (Option Int)} :
    attempt faults = .ok () ↔ ∀ fault ∈ faults, fault = none := by
  induction faults with
  | nil => exact iff_of_true rfl fun _ member => absurd member List.not_mem_nil
  | cons fault faults ih =>
      rw [List.forall_mem_cons]
      cases fault with
      | none => exact ih.trans (and_iff_right rfl).symm
      | some errno => exact iff_of_false (by simp [attempt]) (by simp)

theorem copyFile_content {writeTmp : Nat → Option Int} {turn : Nat} {reads : FileReads}
    {text : List UInt8} (copied : copyFile writeTmp turn reads = .ok text) :
    text = fileContent reads := by
  induction reads generalizing turn text with
  | nil =>
      cases copied
      rfl
  | cons read reads ih =>
      rcases read with errno | ⟨_ | ⟨c, chunk⟩⟩
      · cases copied
      · cases copied
        rfl
      · rw [copyFile] at copied
        split at copied
        · cases copied
        · split at copied
          · rename_i text' more
            cases copied
            rw [fileContent, ih more]
          · cases copied

theorem copyFile_device {g : Globals} {writeTmp : Nat → Option Int} {fuel turn : Nat} {ppos : Int}
    {result : Except Failure (List UInt8)}
    (copied : copyAllowlist g writeTmp fuel turn ppos = some result) :
    copyFile writeTmp turn (deviceReads g fuel ppos) = result := by
  induction fuel generalizing turn ppos result with
  | zero => cases copied
  | succ fuel ih =>
      rw [copyAllowlist] at copied
      rw [deviceReads]
      rcases read : readAllowlist g 8192 true ppos with _ | ⟨err | ⟨_ | ⟨c, chunk⟩⟩, next⟩
      · rw [read] at copied
        cases copied
      · rw [read] at copied
        cases copied
        rfl
      · rw [read] at copied
        cases copied
        rfl
      · rw [read] at copied
        dsimp only at copied ⊢
        rw [copyFile]
        cases written : attempt [writeTmp turn] with
        | error failure =>
            rw [written] at copied
            cases copied
            rfl
        | ok =>
            rw [written] at copied
            dsimp only at copied ⊢
            cases more : copyAllowlist g writeTmp fuel (turn + 1) next with
            | none =>
                rw [more] at copied
                cases copied
            | some rest =>
                rw [more] at copied
                rw [ih more]
                cases rest with
                | error failure =>
                    cases copied
                    rfl
                | ok text =>
                    cases copied
                    rfl

theorem msrParseFile_device {faults : ParseFaults} {g : Globals} {text : List UInt8}
    (copied : copyAllowlist g faults.writeTmp (g.allowlistNumentries + 1) 0 0 = some (.ok text))
    (size : text.length ≤ MAX_RW_COUNT) :
    msrParseFile faults (deviceReads g (g.allowlistNumentries + 1) 0) =
      msrParseAllowlist faults g := by
  have within : faults.reading text = faults := by
    rw [ParseFaults.reading, if_neg (Nat.not_lt.mpr size)]
  have parsed : parseCopy (faults.reading text) text = parseCopy faults text := by
    rw [within]
  rw [msrParseFile, msrParseAllowlist, copied, copyFile_device copied]
  cases attempt [faults.mkstemp, faults.openAllowlist] with
  | error failure => rfl
  | ok => exact parsed

theorem parseCopy_eq (faults : ParseFaults) (text : List UInt8) :
    parseCopy faults text =
      match attempt [faults.closeTmp, faults.closeAllowlist, faults.statTmp] with
      | .error failure => some (.error failure)
      | .ok () =>
        if text.length = 0 then some (.error (.ofErrno faults.errno))
        else
          match attempt [faults.mallocBuffer, faults.openTmp, faults.readTmp,
            faults.closeTmpAgain] with
          | .error failure => some (.error failure)
          | .ok () =>
            match attempt [faults.mallocOffset, faults.mallocMask] with
            | .error failure => some (.error failure)
            | .ok () => some (parseStarts (entryStarts (visibleText text))) := by
  rw [parseCopy, ← parseEntries_eq, ← countEntries_eq (visibleText text) (Nat.le_refl _)]
  rfl

theorem msrParseFile_unhindered {faults : ParseFaults} {reads : FileReads}
    (unhindered : Unhindered faults reads) :
    msrParseFile faults reads =
      some (parseStarts (entryStarts (visibleText (fileContent reads)))) := by
  obtain ⟨calls, ⟨text, copied⟩, nonempty, size⟩ := unhindered
  have same := copyFile_content copied
  subst same
  have some_byte : ¬(fileContent reads).length = 0 :=
    fun empty => nonempty (List.eq_nil_of_length_eq_zero empty)
  have within : (faults.reading (fileContent reads)).readTmp = faults.readTmp :=
    if_neg (Nat.not_lt.mpr size)
  simp only [List.forall_mem_cons, List.not_mem_nil, false_implies, implies_true, and_true] at calls
  obtain ⟨mkstemp, openAllowlist, closeTmp, closeAllowlist, statTmp, mallocBuffer, openTmp,
    readTmp, closeTmpAgain, mallocOffset, mallocMask⟩ := calls
  rw [msrParseFile, mkstemp, openAllowlist, copied]
  dsimp only [attempt]
  rw [parseCopy_eq, within, if_neg some_byte]
  simp only [ParseFaults.reading, closeTmp, closeAllowlist, statTmp, mallocBuffer, openTmp,
    readTmp, closeTmpAgain, mallocOffset, mallocMask, attempt]

theorem msrParseFile_hindered {faults : ParseFaults} {reads : FileReads}
    (hindered : ¬Unhindered faults reads) :
    ∃ failure, msrParseFile faults reads = some (.error failure) := by
  rw [msrParseFile]
  split
  · exact ⟨_, rfl⟩
  rename_i opened
  split
  · exact ⟨_, rfl⟩
  rename_i text copied
  have same := copyFile_content copied
  subst same
  rw [parseCopy_eq]
  split
  · exact ⟨_, rfl⟩
  rename_i closed
  split
  · exact ⟨_, rfl⟩
  rename_i some_byte
  split
  · exact ⟨_, rfl⟩
  rename_i read
  split
  · exact ⟨_, rfl⟩
  rename_i allocated
  exfalso
  apply hindered
  rw [attempt_eq_ok_iff] at opened closed read allocated
  simp only [List.forall_mem_cons, List.not_mem_nil, false_implies, implies_true, and_true]
    at opened closed read allocated
  have limit : (if MAX_RW_COUNT < (fileContent reads).length then
      some (faults.readTmp.getD faults.errno) else faults.readTmp) = none := read.2.2.1
  have size : ¬MAX_RW_COUNT < (fileContent reads).length := by
    intro long
    rw [if_pos long] at limit
    cases limit
  rw [if_neg size] at limit
  constructor
  · simp only [List.forall_mem_cons, List.not_mem_nil, false_implies, implies_true, and_true]
    exact ⟨opened.1, opened.2, closed.1, closed.2.1, closed.2.2, read.1, read.2.1, limit,
      read.2.2.2, allocated.1, allocated.2⟩
  · exact ⟨_, copied⟩
  · intro empty
    exact some_byte (List.length_eq_zero_iff.mpr empty)
  · exact Nat.le_of_not_lt size

theorem visibleText_append (text : List UInt8) :
    ∃ behind, text = visibleText text ++ behind ∧ (behind = [] ∨ ∃ w, behind = nul :: w) := by
  apply Exists.intro (text.dropWhile (· != nul))
  constructor
  · exact List.takeWhile_append_dropWhile.symm
  · cases shape : text.dropWhile (· != nul) with
    | nil => exact .inl rfl
    | cons c w =>
        have stop := List.head?_dropWhile_not (· != nul) text
        rw [shape] at stop
        have ended : c = nul := by simpa using stop
        exact .inr ⟨w, ended ▸ rfl⟩

/-- Every line is read as its own entry exactly when, once no call fails and
`sscanf` finds two numbers from each line on, on each line two numbers are written
and none is behind a NUL. -/
theorem readsEachLine_iff (faults : ParseFaults) (reads : FileReads) :
    ReadsEachLine (fileContent reads) (msrParseFile faults reads) ↔
      (Unhindered faults reads →
        (∀ start ∈ entryStarts (visibleText (fileContent reads)), scanEntry start ≠ none) →
        (∀ line ∈ entryLines (fileContent reads), ∃ e, WrittenEntry line e) ∧
          (entryLines (fileContent reads)).length =
            (entryLines (visibleText (fileContent reads))).length) := by
  by_cases unhindered : Unhindered faults reads
  · rw [msrParseFile_unhindered unhindered]
    by_cases found : ∀ start ∈ entryStarts (visibleText (fileContent reads)), scanEntry start ≠ none
    · obtain ⟨entries, parsed, same⟩ := parseStarts_ok found
      have count : entries.length = (entryLines (visibleText (fileContent reads))).length := by
        have lengths := congrArg List.length same
        rwa [List.length_map, List.length_map, length_entryStarts] at lengths
      rw [parsed]
      constructor
      · rintro (⟨failure, ⟨⟩⟩ | ⟨entries', ⟨⟩, all, own⟩) _ _
        refine ⟨fun line member => ?_, all.symm.trans count⟩
        obtain ⟨i, at_i⟩ := List.getElem?_of_mem member
        obtain ⟨e, -, written⟩ := own i line at_i
        exact ⟨e, written⟩
      · intro condition
        obtain ⟨written, visible⟩ := condition unhindered found
        refine .inr ⟨entries, rfl, count.trans visible.symm, fun i line at_i => ?_⟩
        have readable : ∀ line ∈ entryLines (fileContent reads), scanEntry line ≠ none := by
          intro line member
          obtain ⟨e, here⟩ := written line member
          rw [scanEntry_written here]
          exact Option.some_ne_none e
        obtain ⟨behind, split, cut⟩ := visibleText_append (fileContent reads)
        have own := scanEntry_starts (visibleText (fileContent reads)) cut
        rw [← split, length_entryStarts] at own
        obtain ⟨e, here⟩ := written line (List.mem_of_getElem? at_i)
        have entry := congrArg (·[i]?) (same.trans (own readable visible))
        rw [List.getElem?_map, List.getElem?_map, at_i, Option.map_some, scanEntry_written here,
          Option.map_eq_some_iff] at entry
        obtain ⟨e', found_e, same_e⟩ := entry
        cases same_e
        exact ⟨e, found_e, here⟩
    · apply iff_of_true
      · obtain ⟨start, failed⟩ := not_forall.mp found
        obtain ⟨member, missing⟩ := Classical.not_imp.mp failed
        obtain ⟨failure, stopped⟩ := parseStarts_error member (not_not.mp missing)
        rw [stopped]
        exact .inl ⟨failure, rfl⟩
      · exact fun _ all => absurd all found
  · apply iff_of_true
    · obtain ⟨failure, failed⟩ := msrParseFile_hindered unhindered
      exact .inl ⟨failure, failed⟩
    · exact fun calm => absurd calm unhindered

def blankLineFile : FileReads := [.ok ("\n0x10 0xff\n".toList.map ascii)]

/-- The blank line is given the numbers of the line behind it. -/
theorem readsEachLine_blank_line :
    ¬ReadsEachLine (fileContent blankLineFile)
      (msrParseFile ParseFaults.quiet blankLineFile) := by
  have parsed : msrParseFile ParseFaults.quiet blankLineFile =
      some (.ok [{ wmask := 0xff, msr := 0x10 }, { wmask := 0xff, msr := 0x10 }]) := by
    decide +kernel
  rw [parsed]
  rintro (⟨failure, ⟨⟩⟩ | ⟨entries, ⟨⟩, count, own⟩)
  obtain ⟨e, -, written⟩ := own 0 [] (by decide +kernel)
  cases scanEntry_written written

end MsrSafe
