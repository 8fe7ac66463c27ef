import Mathlib.Data.Nat.Digits.Defs
import Mathlib.Data.List.Basic

/-! Words of a fixed number of bytes, the least significant byte first, and the
reading of such words one after the other from a stream of bytes. -/

namespace LittleEndian

def bytes (size value : Nat) : List UInt8 :=
  (List.range size).map fun i => UInt8.ofNat (value / 256 ^ i)

def value (stream : List UInt8) : Nat := Nat.ofDigits 256 (stream.map UInt8.toNat)

@[simp] theorem length_bytes (size n : Nat) : (bytes size n).length = size := by
  simp [bytes]

theorem bytes_succ (size n : Nat) :
    bytes (size + 1) n = UInt8.ofNat n :: bytes size (n / 256) := by
  have shift : ∀ i, n / 256 ^ (i + 1) = n / 256 / 256 ^ i := fun i => by
    rw [pow_succ', Nat.div_div_eq_div_mul]
  simp [bytes, List.range_succ_eq_map, shift, Function.comp_def]

theorem value_bytes {size n : Nat} (fits : n < 256 ^ size) : value (bytes size n) = n := by
  unfold value
  induction size generalizing n with
  | zero =>
      rw [pow_zero, Nat.lt_one_iff] at fits
      rw [fits]
      rfl
  | succ size ih =>
      have quotient : n / 256 < 256 ^ size := by
        rw [pow_succ] at fits
        exact (Nat.div_lt_iff_lt_mul (by decide)).mpr fits
      have low : (UInt8.ofNat n).toNat = n % 256 := by simp
      rw [bytes_succ, List.map_cons, Nat.ofDigits_cons, ih quotient, low]
      exact Nat.mod_add_div n 256

/-- The complete items of `size` bytes at the start of a stream, at most `count`
of them, and what is left; an incomplete item is used up. -/
def items (size : Nat) : Nat → List UInt8 → List (List UInt8) × List UInt8
  | 0, stream => ([], stream)
  | count + 1, stream =>
    if stream.length < size then ([], [])
    else
      let (rest, left) := items size count (stream.drop size)
      (stream.take size :: rest, left)

theorem items_flatMap {α : Type} {size : Nat} (positive : 0 < size) (encode : α → List UInt8)
    (sized : ∀ word, (encode word).length = size) (count : Nat) (words : List α) :
    items size count (words.flatMap encode) =
      ((words.take count).map encode, (words.drop count).flatMap encode) := by
  induction count generalizing words with
  | zero => rfl
  | succ count ih =>
      cases words with
      | nil =>
          rw [List.flatMap_nil, items, List.length_nil, if_pos positive]
          rfl
      | cons word words =>
          have long : ¬((word :: words).flatMap encode).length < size := by
            rw [List.flatMap_cons, List.length_append, sized]
            omega
          rw [items, if_neg long, List.flatMap_cons, List.drop_left' (sized word),
            List.take_left' (sized word), ih]
          rfl

/-- As many items are read as are asked for, and nothing is left, exactly when
the stream has their length. -/
theorem items_complete (size count : Nat) (stream : List UInt8) :
    ((items size count stream).1.length = count ∧ (items size count stream).2 = []) ↔
      stream.length = size * count := by
  induction count generalizing stream with
  | zero =>
      rw [items, List.length_nil, Nat.mul_zero, List.length_eq_zero_iff]
      exact and_iff_right rfl
  | succ count ih =>
      rw [items, Nat.mul_succ]
      by_cases short : stream.length < size
      · rw [if_pos short, List.length_nil]
        omega
      · rw [if_neg short, List.length_cons, Nat.add_right_cancel_iff, ih, List.length_drop]
        omega

theorem length_flatMap {α : Type} {size : Nat} (encode : α → List UInt8)
    (sized : ∀ word, (encode word).length = size) (words : List α) :
    (words.flatMap encode).length = size * words.length := by
  simp [List.length_flatMap, sized, Nat.mul_comm]

end LittleEndian
