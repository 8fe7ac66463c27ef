import MsrSafe.Lib.Interleave

/-! Threads that rely on each other: a thread is proved against all that the
others may do between its actions, and each promises the others in turn what its
own actions do. -/

namespace Interleave

variable {I : Interface} {α ι σ : Type}

/-- Every action of the program is a step within the guarantee of its thread,
whatever others do before it within what the thread relies on. -/
def Assured (sem : Semantics ι I σ) (rely guarantee : ι → σ → σ → Prop) (thread : ι) :
    Prog I α → σ → Prop
  | .done _, _ => True
  | .perform action next, s => ∀ s₁, Relation.ReflTransGen (rely thread) s s₁ →
      ∀ answer s₂, sem thread s₁ action answer s₂ →
        guarantee thread s₁ s₂ ∧ Assured sem rely guarantee thread (next answer) s₂

section Assured

variable {sem : Semantics ι I σ} {rely guarantee : ι → σ → σ → Prop} {thread : ι}

@[simp] theorem assured_done (result : α) (s : σ) :
    Assured sem rely guarantee thread (.done result : Prog I α) s ↔ True := Iff.rfl

@[simp] theorem assured_perform (action : I.Action) (next : I.Answer action → Prog I α) (s : σ) :
    Assured sem rely guarantee thread (.perform action next) s ↔
      ∀ s₁, Relation.ReflTransGen (rely thread) s s₁ →
        ∀ answer s₂, sem thread s₁ action answer s₂ →
          guarantee thread s₁ s₂ ∧ Assured sem rely guarantee thread (next answer) s₂ := Iff.rfl

theorem Assured.stable {p : Prog I α} {s s₁ : σ}
    (assured : Assured sem rely guarantee thread p s) (others : rely thread s s₁) :
    Assured sem rely guarantee thread p s₁ := by
  cases p with
  | done result => trivial
  | perform action next => exact fun s₂ more => assured s₂ (.head others more)

theorem assured_bind {β : Type} {p : Prog I α} {f : α → Prog I β} {s : σ}
    (first : Assured sem rely guarantee thread p s)
    (rest : ∀ result s, Assured sem rely guarantee thread (f result) s) :
    Assured sem rely guarantee thread (p >>= f) s := by
  induction p generalizing s with
  | done result => exact rest result s
  | perform action next ih =>
      intro s₁ others answer s₂ effect
      obtain ⟨promised, later⟩ := first s₁ others answer s₂ effect
      exact ⟨promised, ih answer later⟩

theorem assured_of_guarded {permitted : I.Action → Prop} {post : α → Prop}
    (keeps : ∀ s action answer s', permitted action → sem thread s action answer s' →
      guarantee thread s s')
    (p : Prog I α) (guarded : Guarded permitted (fun _ _ => True) post p) (s : σ) :
    Assured sem rely guarantee thread p s := by
  induction p generalizing s with
  | done result => trivial
  | perform action next ih =>
      intro s₁ _ answer s₂ effect
      constructor
      · exact keeps s₁ action answer s₂ guarded.1 effect
      · exact ih answer (guarded.2 answer trivial) s₂

variable [DecidableEq ι]

/-- The rule for pools: when what each thread guarantees is what the others rely
on, assured threads stay assured, and what the guarantees keep holds along the run. -/
theorem steps_assured (inv : σ → Prop)
    (compatible : ∀ actor other s s', other ≠ actor → guarantee actor s s' → rely other s s')
    (kept : ∀ actor s s', inv s → guarantee actor s s' → inv s')
    {start final : σ × (ι → Prog I α)} (steps : Steps sem ∅ start final) (initial : inv start.1)
    (assured : ∀ thread, Assured sem rely guarantee thread (start.2 thread) start.1) :
    inv final.1 ∧ ∀ thread, Assured sem rely guarantee thread (final.2 thread) final.1 := by
  induction steps with
  | refl => exact ⟨initial, assured⟩
  | tail _ step ih =>
      obtain ⟨holds, pool⟩ := ih
      cases step with
      | @act s s' pool' actor action next answer pending effect =>
          have now := pool actor
          simp only [pending, assured_perform] at now
          obtain ⟨promised, rest⟩ := now s .refl answer s' effect
          refine ⟨kept actor s s' holds promised, fun thread => ?_⟩
          by_cases same : thread = actor
          · subst same
            simpa using rest
          · simp only [Function.update_of_ne same]
            exact (pool thread).stable (compatible actor thread s s' same promised)
      | call actor result p returned offer => exact False.elim offer

end Assured

end Interleave
