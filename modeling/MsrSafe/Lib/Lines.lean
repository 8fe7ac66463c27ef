import Mathlib.Data.List.TakeWhile

/-! The lines of a text. Each separator ends one, and what stands behind the
last separator is one more unless it is nothing. -/

namespace Lines

variable {α : Type} [DecidableEq α] (sep : α)

/-- What is left of the text at each start of a line; `fresh` tells whether the
text itself starts one. -/
def startsFrom : Bool → List α → List (List α)
  | _, [] => []
  | fresh, c :: s => (if fresh then [c :: s] else []) ++ startsFrom (c = sep) s

def starts (text : List α) : List (List α) := startsFrom sep true text

def lines (text : List α) : List (List α) := (starts sep text).map (·.takeWhile (· ≠ sep))

theorem line_induction {motive : List α → Prop} (nil : motive [])
    (last : ∀ run, run ≠ [] → sep ∉ run → motive run)
    (line : ∀ run rest, sep ∉ run → motive rest → motive (run ++ sep :: rest))
    (text : List α) : motive text := by
  induction length : text.length using Nat.strongRecOn generalizing text with
  | ind n ih =>
      by_cases ended : sep ∈ text
      · obtain ⟨run, rest, rfl, absent⟩ := List.eq_append_cons_of_mem ended
        apply line run rest absent
        apply ih rest.length _ rest rfl
        rw [← length, List.length_append, List.length_cons]
        omega
      · by_cases empty : text = []
        · rw [empty]
          exact nil
        · exact last text empty ended

variable {sep}

theorem startsFrom_run {run : List α} (rest : List α) (absent : sep ∉ run) :
    startsFrom sep false (run ++ sep :: rest) = starts sep rest := by
  induction run with
  | nil =>
      rw [List.nil_append, startsFrom, decide_eq_true rfl]
      rfl
  | cons c run ih =>
      rw [List.mem_cons, not_or] at absent
      rw [List.cons_append, startsFrom, decide_eq_false (Ne.symm absent.1), ih absent.2]
      rfl

theorem startsFrom_last {run : List α} (absent : sep ∉ run) : startsFrom sep false run = [] := by
  induction run with
  | nil => rfl
  | cons c run ih =>
      rw [List.mem_cons, not_or] at absent
      rw [startsFrom, decide_eq_false (Ne.symm absent.1), ih absent.2]
      rfl

theorem starts_line {run : List α} (rest : List α) (absent : sep ∉ run) :
    starts sep (run ++ sep :: rest) = (run ++ sep :: rest) :: starts sep rest := by
  cases run with
  | nil =>
      rw [List.nil_append, starts, startsFrom, decide_eq_true rfl]
      rfl
  | cons c run =>
      rw [List.mem_cons, not_or] at absent
      rw [List.cons_append, starts, startsFrom, decide_eq_false (Ne.symm absent.1),
        startsFrom_run rest absent.2]
      rfl

theorem starts_last {run : List α} (nonempty : run ≠ []) (absent : sep ∉ run) :
    starts sep run = [run] := by
  cases run with
  | nil => exact absurd rfl nonempty
  | cons c run =>
      rw [List.mem_cons, not_or] at absent
      rw [starts, startsFrom, decide_eq_false (Ne.symm absent.1), startsFrom_last absent.2]
      rfl

theorem takeWhile_run {run : List α} (absent : sep ∉ run) :
    run.takeWhile (· ≠ sep) = run := by
  rw [List.takeWhile_eq_self_iff]
  exact fun c member => decide_eq_true fun same => absent (same ▸ member)

theorem takeWhile_line {run : List α} (rest : List α) (absent : sep ∉ run) :
    (run ++ sep :: rest).takeWhile (· ≠ sep) = run := by
  have inside : ∀ c ∈ run, decide (c ≠ sep) = true :=
    fun c member => decide_eq_true fun same => absent (same ▸ member)
  rw [List.takeWhile_append_of_pos inside, List.takeWhile_cons_of_neg (by simp), List.append_nil]

theorem lines_line {run : List α} (rest : List α) (absent : sep ∉ run) :
    lines sep (run ++ sep :: rest) = run :: lines sep rest := by
  rw [lines, starts_line rest absent, List.map_cons, takeWhile_line rest absent, lines]

theorem lines_last {run : List α} (nonempty : run ≠ []) (absent : sep ∉ run) :
    lines sep run = [run] := by
  rw [lines, starts_last nonempty absent, List.map_singleton, takeWhile_run absent]

end Lines
