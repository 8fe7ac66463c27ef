import MsrSafe.Kernel
import Mathlib.Data.Nat.Digits.Lemmas

/-! The kernel's text functions: character classes, `kstrtoull` with base 0 and
the `%08llX` and `%016llX` of `sprintf`. -/

namespace MsrSafe

def ascii (c : Char) : UInt8 := UInt8.ofNat c.toNat

def nul : UInt8 := 0
def newline : UInt8 := 10
def hash : UInt8 := ascii '#'

/-- `isspace` of lib/ctype.c, where the no-break space 160 counts. -/
def isspace (c : UInt8) : Bool := (9 ≤ c && c ≤ 13) || c = 32 || c = 160

def tolower (c : UInt8) : UInt8 := c ||| 32

def digitVal (c : UInt8) : Option Nat :=
  if ascii '0' ≤ c && c ≤ ascii '9' then some (c.toNat - 48)
  else if ascii 'a' ≤ tolower c && tolower c ≤ ascii 'f' then some ((tolower c).toNat - 87)
  else none

theorem digitVal_lt {c : UInt8} {val : Nat} (digit : digitVal c = some val) : val < 16 := by
  rw [digitVal] at digit
  split at digit
  · rename_i decimal
    rw [Bool.and_eq_true, decide_eq_true_eq, decide_eq_true_eq] at decimal
    cases digit
    have most : c.toNat ≤ 57 := decimal.2
    omega
  · split at digit
    · rename_i letter
      rw [Bool.and_eq_true, decide_eq_true_eq, decide_eq_true_eq] at letter
      cases digit
      have most : (tolower c).toNat ≤ 102 := letter.2
      omega
    · cases digit

def isxdigit (c : UInt8) : Bool := (digitVal c).isSome

/-- `_parse_integer_fixup_radix` for base 0: the radix and the digits behind the prefix. -/
def fixupRadix (s : List UInt8) : Nat × List UInt8 :=
  if s.getD 0 nul = ascii '0' then
    if tolower (s.getD 1 nul) = ascii 'x' && isxdigit (s.getD 2 nul) then (16, s.drop 2)
    else (8, s)
  else (10, s)

def parseInteger (base : Nat) : List UInt8 → Nat → Nat × List UInt8
  | [], res => (res, [])
  | c :: s, res =>
    match digitVal c with
    | none => (res, c :: s)
    | some val => if val < base then parseInteger base s (res * base + val) else (res, c :: s)

def skipNewline (s : List UInt8) : List UInt8 :=
  if s.getD 0 nul = newline then s.drop 1 else s

/-- `_kstrtoull`, behind a sign. A value that overflows is reported before
anything behind the digits. -/
def kstrtoullUnsigned (s : List UInt8) : Except Errno Word :=
  let (base, digits) := fixupRadix s
  let (res, rest) := parseInteger base digits 0
  if 2 ^ 64 ≤ res then .error .erange
  else if rest.length = digits.length then .error .einval
  else if skipNewline rest ≠ [] then .error .einval
  else .ok (BitVec.ofNat 64 res)

/-- `kstrtoull(s, 0, &res)` on the bytes before the terminator. -/
def kstrtoull (s : List UInt8) : Except Errno Word :=
  kstrtoullUnsigned (if s.getD 0 nul = ascii '+' then s.drop 1 else s)

theorem kstrtoullUnsigned_error {s : List UInt8} {err : Errno}
    (bad : kstrtoullUnsigned s = .error err) : err = .einval ∨ err = .erange := by
  unfold kstrtoullUnsigned at bad
  dsimp only at bad
  split at bad
  · cases bad
    exact .inr rfl
  · split at bad
    · cases bad
      exact .inl rfl
    · split at bad
      · cases bad
        exact .inl rfl
      · cases bad

def hexDigit (n : Nat) : UInt8 := UInt8.ofNat (if n < 10 then 48 + n else 55 + n)

def formatHex (width : Nat) (value : Word) : List UInt8 :=
  let digits := (Nat.digits 16 value.toNat).reverse
  (List.replicate (width - digits.length) 0 ++ digits).map hexDigit

@[simp] theorem digitVal_hexDigit {n : Nat} (bound : n < 16) : digitVal (hexDigit n) = some n := by
  have certificate : (List.range 16).all (fun n => digitVal (hexDigit n) = some n) = true := by
    decide
  exact of_decide_eq_true (List.all_eq_true.mp certificate n (List.mem_range.mpr bound))

theorem parseInteger_digits {a : List UInt8} (digits : ∀ c ∈ a, isxdigit c = true) (res : Nat)
    {s : List UInt8} (stop : digitVal (s.getD 0 nul) = none) :
    parseInteger 16 (a ++ s) res =
      ((a.filterMap digitVal).foldl (fun res d => res * 16 + d) res, s) := by
  induction a generalizing res with
  | nil =>
      cases s with
      | nil => rfl
      | cons c s =>
          rw [List.getD_cons_zero] at stop
          simp [parseInteger, stop]
  | cons c a ih =>
      rw [List.forall_mem_cons] at digits
      obtain ⟨val, digit⟩ := Option.isSome_iff_exists.mp digits.1
      rw [List.cons_append, parseInteger, List.filterMap_cons, digit]
      dsimp only
      rw [if_pos (digitVal_lt digit), List.foldl_cons]
      exact ih digits.2 (res * 16 + val)

theorem parseInteger_hexDigits {digits : List Nat} (bounds : ∀ d ∈ digits, d < 16)
    (res : Nat) {s : List UInt8} (stop : digitVal (s.getD 0 nul) = none) :
    parseInteger 16 (digits.map hexDigit ++ s) res =
      (digits.foldl (fun res d => res * 16 + d) res, s) := by
  have printed : ∀ c ∈ digits.map hexDigit, isxdigit c = true := by
    intro c member
    obtain ⟨d, digit, rfl⟩ := List.mem_map.mp member
    rw [isxdigit, digitVal_hexDigit (bounds d digit)]
    rfl
  have values : (digits.map hexDigit).filterMap digitVal = digits := by
    rw [List.filterMap_map]
    calc
      digits.filterMap (digitVal ∘ hexDigit) = digits.filterMap some :=
        List.filterMap_congr fun d member => digitVal_hexDigit (bounds d member)
      _ = digits := List.filterMap_some
  rw [parseInteger_digits printed res stop, values]

theorem foldl_digits_reverse (digits : List Nat) (res : Nat) :
    digits.reverse.foldl (fun res d => res * 16 + d) res =
      res * 16 ^ digits.length + Nat.ofDigits 16 digits := by
  induction digits generalizing res with
  | nil => simp
  | cons d digits ih =>
      rw [List.reverse_cons, List.foldl_append, ih, Nat.ofDigits_cons, List.length_cons]
      simp only [List.foldl_cons, List.foldl_nil]
      ring

theorem foldl_zeros (n : Nat) :
    (List.replicate n 0).foldl (fun res d => res * 16 + d) 0 = 0 := by
  induction n with
  | zero => rfl
  | succ n ih => simpa [List.replicate_succ] using ih

def hexDigits (width : Nat) (value : Word) : List Nat :=
  List.replicate (width - (Nat.digits 16 value.toNat).length) 0 ++
    (Nat.digits 16 value.toNat).reverse

theorem formatHex_eq (width : Nat) (value : Word) :
    formatHex width value = (hexDigits width value).map hexDigit := by
  simp [formatHex, hexDigits]

theorem hexDigits_lt (width : Nat) (value : Word) : ∀ d ∈ hexDigits width value, d < 16 := by
  intro d member
  rcases List.mem_append.mp member with zero | digit
  · rw [List.eq_of_mem_replicate zero]
    decide
  · exact Nat.digits_lt_base (by decide) (List.mem_reverse.mp digit)

theorem hexDigits_value (width : Nat) (value : Word) :
    (hexDigits width value).foldl (fun res d => res * 16 + d) 0 = value.toNat := by
  rw [hexDigits, List.foldl_append, foldl_zeros, foldl_digits_reverse, Nat.ofDigits_digits]
  simp

theorem hexDigits_length (width : Nat) (value : Word) : width ≤ (hexDigits width value).length := by
  simp only [hexDigits, List.length_append, List.length_replicate, List.length_reverse]
  omega

theorem hexDigits_length_le (width : Nat) (value : Word) (narrow : width ≤ 16) :
    (hexDigits width value).length ≤ 16 := by
  have short : (Nat.digits 16 value.toNat).length ≤ 16 := by
    rw [Nat.digits_length_le_iff (by decide)]
    exact value.isLt
  simp only [hexDigits, List.length_append, List.length_replicate, List.length_reverse]
  omega

def hexLiteral (width : Nat) (value : Word) : List UInt8 :=
  ascii '0' :: ascii 'x' :: formatHex width value

theorem kstrtoull_hexLiteral (width : Nat) (value : Word) (positive : 0 < width) :
    kstrtoull (hexLiteral width value) = .ok value := by
  have nonempty := hexDigits_length width value
  have bounds := hexDigits_lt width value
  have parsed := parseInteger_hexDigits bounds 0 (show digitVal (([] : List UInt8).getD 0 nul) =
    none by decide)
  rw [hexDigits_value, List.append_nil] at parsed
  rw [hexLiteral, formatHex_eq]
  cases digits : hexDigits width value with
  | nil =>
      rw [digits, List.length_nil] at nonempty
      omega
  | cons d rest =>
      rw [digits] at parsed bounds
      have radix : fixupRadix (ascii '0' :: ascii 'x' :: (d :: rest).map hexDigit) =
          (16, (d :: rest).map hexDigit) := by
        simp only [fixupRadix, List.getD_cons_zero, List.getD_cons_succ, List.map_cons, if_true]
        rw [if_pos]
        · rfl
        · have lower : tolower (ascii 'x') = ascii 'x' := by decide
          simp [isxdigit, digitVal_hexDigit (bounds d (by simp)), lower]
      have plain : ascii '0' ≠ ascii '+' := by decide
      unfold kstrtoull kstrtoullUnsigned
      simp only [List.getD_cons_zero, plain, if_false, radix, parsed]
      rw [if_neg (by have := value.isLt; omega), if_neg (by simp)]
      simp [skipNewline, nul, newline]

end MsrSafe
