import Mathlib.Logic.Function.Basic
import Mathlib.Data.List.Basic

/-! Operations that each work on one component of a state, their lane. What
comes of a lane is due to the operations of this lane alone, so operations of
different lanes may change places. -/

namespace Lanes

variable {ι A S : Type} [DecidableEq ι]

def exec (lane : A → ι) (step : A → S → A × S) : List A → (ι → S) → List A × (ι → S)
  | [], s => ([], s)
  | op :: ops, s =>
    let first := step op (s (lane op))
    let rest := exec lane step ops (Function.update s (lane op) first.2)
    (first.1 :: rest.1, rest.2)

def execLane (step : A → S → A × S) : List A → S → List A × S
  | [], own => ([], own)
  | op :: ops, own =>
    let first := step op own
    let rest := execLane step ops first.2
    (first.1 :: rest.1, rest.2)

def inLane (lane : A → ι) (i : ι) (ops : List A) : List A := ops.filter fun op => lane op = i

/-- The same operations, in each lane in the same order. -/
def SameLanes (lane : A → ι) (ops ops' : List A) : Prop :=
  ∀ i, inLane lane i ops = inLane lane i ops'

variable {lane : A → ι} {step : A → S → A × S} {ops ops' : List A}

theorem exec_inLane (keeps : ∀ op own, lane (step op own).1 = lane op) (i : ι) (ops : List A)
    (s : ι → S) :
    (inLane lane i (exec lane step ops s).1, (exec lane step ops s).2 i) =
      execLane step (inLane lane i ops) (s i) := by
  induction ops generalizing s with
  | nil => rfl
  | cons op ops ih =>
      have rest := ih (Function.update s (lane op) (step op (s (lane op))).2)
      obtain ⟨outcomes, own⟩ := Prod.mk.inj rest
      rw [exec, inLane, inLane, List.filter_cons, List.filter_cons, keeps]
      by_cases here : lane op = i
      · subst here
        rw [Function.update_self] at outcomes own
        simp only [decide_true, if_true]
        rw [execLane]
        exact Prod.ext (congrArg (_ :: ·) outcomes) own
      · rw [Function.update_of_ne (Ne.symm here)] at outcomes own
        simp only [here, decide_false]
        exact Prod.ext outcomes own

theorem sameLanes_swap {op op' : A} (apart : lane op ≠ lane op') (before after : List A) :
    SameLanes lane (before ++ op :: op' :: after) (before ++ op' :: op :: after) := by
  intro i
  rw [inLane, inLane, List.filter_append, List.filter_append]
  by_cases first : lane op = i
  · have second : lane op' ≠ i := fun second => apart (first.trans second.symm)
    simp [first, second]
  · by_cases second : lane op' = i <;> simp [first, second]

theorem SameLanes.mem_iff (same : SameLanes lane ops ops') (op : A) : op ∈ ops ↔ op ∈ ops' := by
  have here : ∀ ops : List A, op ∈ ops ↔ op ∈ inLane lane (lane op) ops := by
    intro ops
    simp [inLane]
  rw [here ops, here ops', same (lane op)]

theorem SameLanes.map {f : A → A} (keeps : ∀ op, lane (f op) = lane op)
    (same : SameLanes lane ops ops') : SameLanes lane (ops.map f) (ops'.map f) := by
  intro i
  have mapped : ∀ ops : List A, inLane lane i (ops.map f) = (inLane lane i ops).map f := by
    intro ops
    rw [inLane, inLane, List.filter_map]
    congr 2
    funext op
    simp [keeps op]
  rw [mapped, mapped, same i]

/-- Operations of different lanes may change places. -/
theorem exec_sameLanes (keeps : ∀ op own, lane (step op own).1 = lane op)
    (same : SameLanes lane ops ops') (s : ι → S) :
    SameLanes lane (exec lane step ops s).1 (exec lane step ops' s).1 ∧
      (exec lane step ops s).2 = (exec lane step ops' s).2 := by
  have agree : ∀ i, (inLane lane i (exec lane step ops s).1, (exec lane step ops s).2 i) =
      (inLane lane i (exec lane step ops' s).1, (exec lane step ops' s).2 i) := by
    intro i
    rw [exec_inLane keeps, exec_inLane keeps, same i]
  exact ⟨fun i => congrArg Prod.fst (agree i), funext fun i => congrArg Prod.snd (agree i)⟩

end Lanes
