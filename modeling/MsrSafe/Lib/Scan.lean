import Mathlib.Data.List.Basic

/-! Cursors into a terminated buffer: a position `s` stands for the suffix
`buf.drop s`, and `while (p(*s)) s++` moves it past a run. -/

namespace Scan

variable {α : Type}

/-- Where `while (p(*s)) s++` stops. -/
def past (p : α → Bool) (buf : List α) (s : Nat) : Nat :=
  s + ((buf.drop s).takeWhile p).length

theorem drop_past (p : α → Bool) (buf : List α) (s : Nat) :
    buf.drop (past p buf s) = (buf.drop s).dropWhile p := by
  have split : (buf.drop s).takeWhile p ++ (buf.drop s).dropWhile p = buf.drop s :=
    List.takeWhile_append_dropWhile
  rw [past, ← List.drop_drop]
  exact (congrArg (List.drop _) split.symm).trans List.drop_left

theorem dropWhile_terminated (p : α → Bool) (text rest : List α) (stop : α)
    (outside : p stop = false) :
    (text ++ stop :: rest).dropWhile p = text.dropWhile p ++ stop :: rest := by
  induction text with
  | nil => simp [outside]
  | cons head tail ih =>
      rw [List.cons_append, List.dropWhile_cons, List.dropWhile_cons, ih]
      split <;> rfl

theorem takeWhile_terminated (p : α → Bool) (text rest : List α) (stop : α)
    (outside : p stop = false) :
    (text ++ stop :: rest).takeWhile p = text.takeWhile p := by
  induction text with
  | nil => simp [outside]
  | cons head tail ih =>
      rw [List.cons_append, List.takeWhile_cons, List.takeWhile_cons, ih]

theorem getD_of_drop {buf : List α} {s : Nat} {head : α} {tail : List α} (default : α)
    (at_s : buf.drop s = head :: tail) : buf.getD s default = head := by
  have first : (buf.drop s)[0]? = some head := by rw [at_s]; rfl
  rw [List.getElem?_drop, Nat.add_zero] at first
  rw [List.getD_eq_getElem?_getD, first, Option.getD_some]

theorem drop_succ_of_drop {buf : List α} {s : Nat} {head : α} {tail : List α}
    (at_s : buf.drop s = head :: tail) : buf.drop (s + 1) = tail := by
  rw [← List.drop_drop, at_s, List.drop_one, List.tail_cons]

theorem drop_set_behind {buf token rest : List α} {s : Nat} {old : α} (new : α)
    (at_s : buf.drop s = token ++ old :: rest) :
    (buf.set (s + token.length) new).drop s = token ++ new :: rest := by
  rw [List.drop_set, if_neg (by omega), at_s, Nat.add_sub_cancel_left,
    List.set_append_right _ _ (Nat.le_refl _), Nat.sub_self, List.set_cons_zero]

theorem set_restore {buf : List α} {s : Nat} {old : α} {rest : List α} (new : α)
    (at_s : buf.drop s = old :: rest) : (buf.set s new).set s old = buf := by
  have bound : s < buf.length := by
    by_contra outside
    rw [List.drop_eq_nil_of_le (by omega)] at at_s
    cases at_s
  have same : buf[s] = old := by
    rw [List.drop_eq_getElem_cons bound] at at_s
    exact (List.cons.inj at_s).1
  rw [List.set_set, ← same, List.set_getElem_self]

theorem length_dropWhile_le (p : α → Bool) (text : List α) :
    (text.dropWhile p).length ≤ text.length :=
  (List.dropWhile_suffix p).length_le

end Scan
