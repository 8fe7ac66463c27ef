import Mathlib.Logic.Function.Basic
import Mathlib.Logic.Relation
import Mathlib.Data.Set.Basic

/-! Programs that touch a shared state through atomic actions, the pools in
which any number of them run interleaved, and the two rules used on pools: a
guarded program keeps an invariant whatever the other threads do, and threads
with separate views of the state end as if each had run alone. -/

namespace Interleave

/-- The atomic actions of a shared state and the type of answer each gives. -/
structure Interface where
  Action : Type
  Answer : Action → Type

inductive Prog (I : Interface) (α : Type) where
  | done (result : α)
  | perform (action : I.Action) (next : I.Answer action → Prog I α)

variable {I : Interface} {α β ι σ V : Type}

namespace Prog

def bind : Prog I α → (α → Prog I β) → Prog I β
  | .done result, f => f result
  | .perform action next, f => .perform action fun answer => (next answer).bind f

instance : Monad (Prog I) where
  pure := .done
  bind := bind

def ask (action : I.Action) : Prog I (I.Answer action) := .perform action .done

@[simp] theorem pure_eq (result : α) : (pure result : Prog I α) = .done result := rfl

@[simp] theorem done_bind (result : α) (f : α → Prog I β) :
    (Prog.done result >>= f) = f result := rfl

@[simp] theorem perform_bind (action : I.Action) (next : I.Answer action → Prog I α)
    (f : α → Prog I β) :
    (Prog.perform action next >>= f) = .perform action fun answer => next answer >>= f := rfl

@[simp] theorem ask_bind (action : I.Action) (f : I.Answer action → Prog I β) :
    (ask action >>= f) = .perform action f := rfl

end Prog

abbrev Handler (I : Interface) (σ : Type) : Type :=
  (action : I.Action) → σ → I.Answer action × σ

def run (exec : Handler I σ) : Prog I α → σ → α × σ
  | .done result, s => (result, s)
  | .perform action next, s => run exec (next (exec action s).1) (exec action s).2

@[simp] theorem run_done (exec : Handler I σ) (result : α) (s : σ) :
    run exec (.done result) s = (result, s) := rfl

@[simp] theorem run_perform (exec : Handler I σ) (action : I.Action)
    (next : I.Answer action → Prog I α) (s : σ) :
    run exec (.perform action next) s = run exec (next (exec action s).1) (exec action s).2 := rfl

@[simp] theorem run_bind (exec : Handler I σ) (p : Prog I α) (f : α → Prog I β) (s : σ) :
    run exec (p >>= f) s = run exec (f (run exec p s).1) (run exec p s).2 := by
  induction p generalizing s with
  | done result => rfl
  | perform action next ih =>
      rw [Prog.perform_bind, run_perform, run_perform]
      exact ih (exec action s).1 (exec action s).2

def actions (exec : Handler I σ) : Prog I α → σ → List I.Action
  | .done _, _ => []
  | .perform action next, s => action :: actions exec (next (exec action s).1) (exec action s).2

@[simp] theorem actions_done (exec : Handler I σ) (result : α) (s : σ) :
    actions exec (.done result) s = [] := rfl

@[simp] theorem actions_perform (exec : Handler I σ) (action : I.Action)
    (next : I.Answer action → Prog I α) (s : σ) :
    actions exec (.perform action next) s =
      action :: actions exec (next (exec action s).1) (exec action s).2 := rfl

@[simp] theorem actions_bind (exec : Handler I σ) (p : Prog I α) (f : α → Prog I β) (s : σ) :
    actions exec (p >>= f) s =
      actions exec p s ++ actions exec (f (run exec p s).1) (run exec p s).2 := by
  induction p generalizing s with
  | done result => rfl
  | perform action next ih =>
      rw [Prog.perform_bind, actions_perform, actions_perform, List.cons_append, run_perform]
      exact congrArg (action :: ·) (ih (exec action s).1 (exec action s).2)

def Along (good : ∀ action, I.Answer action → Prop) (exec : Handler I σ) : Prog I α → σ → Prop
  | .done _, _ => True
  | .perform action next, s =>
      good action (exec action s).1 ∧ Along good exec (next (exec action s).1) (exec action s).2

section Along

variable {good : ∀ action, I.Answer action → Prop} {exec : Handler I σ}

@[simp] theorem along_done (result : α) (s : σ) :
    Along good exec (.done result : Prog I α) s ↔ True := Iff.rfl

@[simp] theorem along_perform (action : I.Action) (next : I.Answer action → Prog I α) (s : σ) :
    Along good exec (.perform action next) s ↔
      good action (exec action s).1 ∧
        Along good exec (next (exec action s).1) (exec action s).2 := Iff.rfl

@[simp] theorem along_bind (p : Prog I α) (f : α → Prog I β) (s : σ) :
    Along good exec (p >>= f) s ↔
      Along good exec p s ∧ Along good exec (f (run exec p s).1) (run exec p s).2 := by
  induction p generalizing s with
  | done result => exact (and_iff_right trivial).symm
  | perform action next ih =>
      rw [Prog.perform_bind, along_perform, along_perform, ih, run_perform, and_assoc]

instance decidableAlong [∀ action answer, Decidable (good action answer)] :
    (p : Prog I α) → (s : σ) → Decidable (Along good exec p s)
  | .done _, _ => inferInstanceAs (Decidable True)
  | .perform action next, s =>
      haveI := decidableAlong (next (exec action s).1) (exec action s).2
      inferInstanceAs (Decidable (good action (exec action s).1 ∧ _))

end Along

@[simp] theorem run_map (exec : Handler I σ) (f : α → β) (p : Prog I α) (s : σ) :
    run exec (f <$> p) s = (f (run exec p s).1, (run exec p s).2) :=
  run_bind exec p (fun result => Prog.done (f result)) s

@[simp] theorem actions_map (exec : Handler I σ) (f : α → β) (p : Prog I α) (s : σ) :
    actions exec (f <$> p) s = actions exec p s :=
  (actions_bind exec p (fun result => Prog.done (f result)) s).trans (List.append_nil _)

@[simp] theorem along_map {good : ∀ action, I.Answer action → Prop} (exec : Handler I σ)
    (f : α → β) (p : Prog I α) (s : σ) :
    Along good exec (f <$> p) s ↔ Along good exec p s :=
  (along_bind p (fun result => Prog.done (f result)) s).trans (and_iff_left trivial)

theorem run_map_inj {f : α → β} (injective : Function.Injective f) {exec : Handler I σ}
    {p : Prog I α} {s s' : σ} {result : α} (ran : run exec (f <$> p) s = (f result, s')) :
    run exec p s = (result, s') := by
  rw [run_map] at ran
  obtain ⟨same, state⟩ := Prod.mk.inj ran
  exact Prod.ext (injective same) state

theorem run_except_bind {ε : Type} (exec : Handler I σ) (p : ExceptT ε (Prog I) α)
    (f : α → ExceptT ε (Prog I) β) (s : σ) :
    run exec (p >>= f).run s =
      match run exec p.run s with
      | (.ok result, s) => run exec (f result).run s
      | (.error err, s) => (.error err, s) := by
  rw [ExceptT.run_bind, run_bind]
  rcases run exec p.run s with ⟨result | err, s⟩ <;> rfl

theorem run_except_lift {ε : Type} (exec : Handler I σ) (p : Prog I α) (s : σ) :
    run exec (ExceptT.lift p : ExceptT ε (Prog I) α).run s =
      (.ok (run exec p s).1, (run exec p s).2) :=
  run_map exec (Except.ok : α → Except ε α) p s

theorem actions_except_bind {ε : Type} (exec : Handler I σ) (p : ExceptT ε (Prog I) α)
    (f : α → ExceptT ε (Prog I) β) (s : σ) :
    actions exec (p >>= f).run s =
      actions exec p.run s ++
        match run exec p.run s with
        | (.ok result, s) => actions exec (f result).run s
        | (.error _, _) => [] := by
  rw [ExceptT.run_bind, actions_bind]
  rcases run exec p.run s with ⟨result | err, s⟩ <;> rfl

theorem actions_except_lift {ε : Type} (exec : Handler I σ) (p : Prog I α) (s : σ) :
    actions exec (ExceptT.lift p : ExceptT ε (Prog I) α).run s = actions exec p s :=
  actions_map exec (Except.ok : α → Except ε α) p s

theorem along_except_bind {ε : Type} (good : ∀ action, I.Answer action → Prop)
    (exec : Handler I σ) (p : ExceptT ε (Prog I) α) (f : α → ExceptT ε (Prog I) β) (s : σ) :
    Along good exec (p >>= f).run s ↔
      Along good exec p.run s ∧
        match run exec p.run s with
        | (.ok result, s) => Along good exec (f result).run s
        | (.error _, _) => True := by
  rw [ExceptT.run_bind, along_bind]
  rcases run exec p.run s with ⟨result | err, s⟩ <;> rfl

theorem along_except_lift {ε : Type} (good : ∀ action, I.Answer action → Prop)
    (exec : Handler I σ) (p : Prog I α) (s : σ) :
    Along good exec (ExceptT.lift p : ExceptT ε (Prog I) α).run s ↔ Along good exec p s :=
  along_map exec (Except.ok : α → Except ε α) p s

theorem run_except_bind_ok {ε : Type} {exec : Handler I σ} {p : ExceptT ε (Prog I) α}
    {f : α → ExceptT ε (Prog I) β} {s s' : σ} {final : β}
    (finished : run exec (p >>= f).run s = (.ok final, s')) :
    ∃ result between, run exec p.run s = (.ok result, between) ∧
      run exec (f result).run between = (.ok final, s') := by
  rw [run_except_bind] at finished
  rcases ran : run exec p.run s with ⟨err | result, between⟩
  · rw [ran] at finished
    cases finished
  · rw [ran] at finished
    exact ⟨result, between, rfl, finished⟩

/-! ## Guarded programs -/

/-- Every action the program can come to issue is permitted and every result
satisfies `post`, when each answer satisfies what is known of such answers. -/
def Guarded (permitted : I.Action → Prop) (known : ∀ action, I.Answer action → Prop)
    (post : α → Prop) : Prog I α → Prop
  | .done result => post result
  | .perform action next =>
      permitted action ∧
        ∀ answer, known action answer → Guarded permitted known post (next answer)

section Guarded

variable {permitted : I.Action → Prop} {known : ∀ action, I.Answer action → Prop}
  {post : α → Prop}

@[simp] theorem guarded_done (result : α) :
    Guarded permitted known post (Prog.done result : Prog I α) ↔ post result := Iff.rfl

@[simp] theorem guarded_perform (action : I.Action) (next : I.Answer action → Prog I α) :
    Guarded permitted known post (.perform action next) ↔
      permitted action ∧
        ∀ answer, known action answer → Guarded permitted known post (next answer) := Iff.rfl

theorem guarded_bind {out : β → Prop} (p : Prog I α) (f : α → Prog I β)
    (first : Guarded permitted known post p)
    (rest : ∀ result, post result → Guarded permitted known out (f result)) :
    Guarded permitted known out (p >>= f) := by
  induction p with
  | done result => exact rest result first
  | perform action next ih =>
      refine ⟨first.1, ?_⟩
      intro answer fact
      exact ih answer (first.2 answer fact)

theorem guarded_of_all (permitted_all : ∀ action, permitted action)
    (post_all : ∀ result, post result)
    (p : Prog I α) : Guarded permitted known post p := by
  induction p with
  | done result => exact post_all result
  | perform action next ih => exact ⟨permitted_all action, fun answer _ => ih answer⟩

end Guarded

section Expand

variable {J : Interface} {prog : (call : J.Action) → Prog I (J.Answer call)}

/-- A client with the code of each call in the place of the call. -/
def expand (prog : (call : J.Action) → Prog I (J.Answer call)) : Prog J α → Prog I α
  | .done result => .done result
  | .perform call next => prog call >>= fun answer => expand prog (next answer)

theorem guarded_expand {calls : J.Action → Prop} {permitted : I.Action → Prop}
    {known : ∀ action, I.Answer action → Prop} {post : α → Prop}
    (guarded : ∀ call, calls call → Guarded permitted known (fun _ => True) (prog call))
    (client : Prog J α) (makes : Guarded calls (fun _ _ => True) post client) :
    Guarded permitted known post (expand prog client) := by
  induction client with
  | done result => exact makes
  | perform call next ih =>
      exact guarded_bind _ _ (guarded call makes.1) fun answer _ =>
        ih answer (makes.2 answer trivial)

end Expand

/-! ## Pools of programs -/

/-- What an action of a thread may answer and the states it may leave. -/
abbrev Semantics (ι : Type) (I : Interface) (σ : Type) : Type :=
  ι → σ → (action : I.Action) → I.Answer action → σ → Prop

def handled (exec : ι → Handler I σ) : Semantics ι I σ :=
  fun thread s action answer s' => exec thread action s = (answer, s')

section Pool

variable [DecidableEq ι]

/-- One thread performs its next action, or one that has returned starts
another program of `calls`. -/
inductive Step (sem : Semantics ι I σ) (calls : Set (Prog I α)) :
    σ × (ι → Prog I α) → σ × (ι → Prog I α) → Prop where
  | act {s s' : σ} {pool : ι → Prog I α} (thread : ι) (action : I.Action)
      (next : I.Answer action → Prog I α) (answer : I.Answer action)
      (pending : pool thread = .perform action next)
      (effect : sem thread s action answer s') :
      Step sem calls (s, pool) (s', Function.update pool thread (next answer))
  | call {s : σ} {pool : ι → Prog I α} (thread : ι) (result : α) (p : Prog I α)
      (returned : pool thread = .done result) (offered : p ∈ calls) :
      Step sem calls (s, pool) (s, Function.update pool thread p)

abbrev Steps (sem : Semantics ι I σ) (calls : Set (Prog I α)) :
    σ × (ι → Prog I α) → σ × (ι → Prog I α) → Prop :=
  Relation.ReflTransGen (Step sem calls)

variable {sem : Semantics ι I σ} {calls : Set (Prog I α)}

theorem steps_mono {sem' : Semantics ι I σ} {calls' : Set (Prog I α)}
    {start final : σ × (ι → Prog I α)} (steps : Steps sem calls start final)
    (effects : ∀ thread s action answer s', sem thread s action answer s' →
      sem' thread s action answer s')
    (offers : calls ⊆ calls') : Steps sem' calls' start final := by
  refine Relation.ReflTransGen.mono ?_ _ _ steps
  intro before after step
  cases step with
  | act thread action next answer pending effect =>
      exact .act thread action next answer pending (effects _ _ _ _ _ effect)
  | call thread result p returned offered => exact .call thread result p returned (offers offered)

/-- The refinement rule: what the actions of one state do and answer, those of
the related state can do and answer too, so they run the same pools. -/
theorem steps_refine {τ : Type} {sem' : Semantics ι I τ} (rel : σ → τ → Prop)
    (simulates : ∀ thread s t action answer s', rel s t → sem thread s action answer s' →
      ∃ t', sem' thread t action answer t' ∧ rel s' t')
    {start final : σ × (ι → Prog I α)} (steps : Steps sem calls start final) {t : τ}
    (related : rel start.1 t) :
    ∃ t', Steps sem' calls (t, start.2) (t', final.2) ∧ rel final.1 t' := by
  induction steps with
  | refl => exact ⟨t, .refl, related⟩
  | tail _ step ih =>
      obtain ⟨between, before, now⟩ := ih
      cases step with
      | act thread action next answer pending effect =>
          obtain ⟨t', effect', after⟩ := simulates thread _ between action answer _ now effect
          exact ⟨t', before.tail (.act thread action next answer pending effect'), after⟩
      | call thread result p returned offer =>
          exact ⟨between, before.tail (.call thread result p returned offer), now⟩

/-- The invariant rule: when the actions that each thread is permitted keep the
invariant and answer what is known, a pool of guarded programs keeps it, and
stays guarded. -/
theorem steps_guarded_each {permitted : ι → I.Action → Prop}
    {known : ι → ∀ action, I.Answer action → Prop} {post : α → Prop} (inv : σ → Prop)
    (kept : ∀ thread s action answer s', inv s → permitted thread action →
      sem thread s action answer s' → inv s' ∧ known thread action answer)
    (offered : ∀ p ∈ calls, ∀ thread, Guarded (permitted thread) (known thread) post p)
    {start final : σ × (ι → Prog I α)} (steps : Steps sem calls start final)
    (initial : inv start.1)
    (guarded : ∀ thread, Guarded (permitted thread) (known thread) post (start.2 thread)) :
    inv final.1 ∧ ∀ thread, Guarded (permitted thread) (known thread) post (final.2 thread) := by
  induction steps with
  | refl => exact ⟨initial, guarded⟩
  | tail _ step ih =>
      obtain ⟨holds, pool⟩ := ih
      cases step with
      | act thread action next answer pending effect =>
          have now := pool thread
          simp only [pending, guarded_perform] at now
          have after := kept thread _ action answer _ holds now.1 effect
          refine ⟨after.1, ?_⟩
          intro other
          by_cases same : other = thread
          · subst same
            simpa using now.2 answer after.2
          · simpa [Function.update_of_ne same] using pool other
      | call thread result p returned offer =>
          refine ⟨holds, ?_⟩
          intro other
          by_cases same : other = thread
          · subst same
            simpa using offered p offer other
          · simpa [Function.update_of_ne same] using pool other

theorem steps_guarded {permitted : I.Action → Prop}
    {known : ∀ action, I.Answer action → Prop} {post : α → Prop} (inv : σ → Prop)
    (kept : ∀ thread s action answer s', inv s → permitted action →
      sem thread s action answer s' → inv s' ∧ known action answer)
    (offered : ∀ p ∈ calls, Guarded permitted known post p)
    {start final : σ × (ι → Prog I α)} (steps : Steps sem calls start final)
    (initial : inv start.1) (guarded : ∀ thread, Guarded permitted known post (start.2 thread)) :
    inv final.1 ∧ ∀ thread, Guarded permitted known post (final.2 thread) :=
  steps_guarded_each inv kept (fun p offer _ => offered p offer) steps initial guarded

/-- The refinement rule for guarded pools: only what is permitted has to be
matched in the related state. -/
theorem steps_guarded_refine {τ : Type} {sem' : Semantics ι I τ} {permitted : I.Action → Prop}
    {known : ∀ action, I.Answer action → Prop} {post : α → Prop} (rel : σ → τ → Prop)
    (simulates : ∀ thread s t action answer s', rel s t → permitted action →
      sem thread s action answer s' →
        known action answer ∧ ∃ t', sem' thread t action answer t' ∧ rel s' t')
    (offered : ∀ p ∈ calls, Guarded permitted known post p)
    {start final : σ × (ι → Prog I α)} (steps : Steps sem calls start final)
    (guarded : ∀ thread, Guarded permitted known post (start.2 thread)) {t : τ}
    (related : rel start.1 t) :
    ∃ t', Steps sem' calls (t, start.2) (t', final.2) ∧ rel final.1 t' := by
  suffices along : (∀ thread, Guarded permitted known post (final.2 thread)) ∧
      ∃ t', Steps sem' calls (t, start.2) (t', final.2) ∧ rel final.1 t' from along.2
  induction steps with
  | refl => exact ⟨guarded, t, .refl, related⟩
  | tail _ step ih =>
      obtain ⟨pool, between, before, now⟩ := ih
      cases step with
      | act thread action next answer pending effect =>
          have here := pool thread
          simp only [pending, guarded_perform] at here
          obtain ⟨fact, t', effect', after⟩ :=
            simulates thread _ between action answer _ now here.1 effect
          refine ⟨?_, t', before.tail (.act thread action next answer pending effect'), after⟩
          intro other
          by_cases same : other = thread
          · subst same
            simpa using here.2 answer fact
          · simpa [Function.update_of_ne same] using pool other
      | call thread result p returned offer =>
          refine ⟨?_, between, before.tail (.call thread result p returned offer), now⟩
          intro other
          by_cases same : other = thread
          · subst same
            simpa using offered p offer
          · simpa [Function.update_of_ne same] using pool other

end Pool

theorem run_guarded {permitted : I.Action → Prop} {known : ∀ action, I.Answer action → Prop}
    {post : α → Prop} (exec : Handler I σ) (inv : σ → Prop)
    (kept : ∀ s action, inv s → permitted action →
      inv (exec action s).2 ∧ known action (exec action s).1)
    (p : Prog I α) (s : σ) (initial : inv s) (guarded : Guarded permitted known post p) :
    inv (run exec p s).2 ∧ post (run exec p s).1 := by
  induction p generalizing s with
  | done result => exact ⟨initial, guarded⟩
  | perform action next ih =>
      have after := kept s action initial guarded.1
      exact ih (exec action s).1 (exec action s).2 after.1 (guarded.2 _ after.2)

theorem actions_guarded {permitted : I.Action → Prop} {known : ∀ action, I.Answer action → Prop}
    {post : α → Prop} (exec : Handler I σ)
    (answers : ∀ s action, known action (exec action s).1)
    (p : Prog I α) (s : σ) (guarded : Guarded permitted known post p) :
    ∀ action ∈ actions exec p s, permitted action := by
  induction p generalizing s with
  | done result =>
      intro action member
      cases member
  | perform action next ih =>
      rw [actions_perform, List.forall_mem_cons]
      exact ⟨guarded.1, ih _ _ (guarded.2 _ (answers s action))⟩

/-- The simulation rule: two handlers that give permitted actions the same
answers, along a relation of their states, run a program to the same result. -/
theorem run_simulates {τ : Type} {permitted : I.Action → Prop} (exec : Handler I σ)
    (exec' : Handler I τ) (rel : σ → τ → Prop)
    (simulates : ∀ action s t, permitted action → rel s t →
      (exec action s).1 = (exec' action t).1 ∧ rel (exec action s).2 (exec' action t).2)
    (p : Prog I α) (s : σ) (t : τ) (related : rel s t)
    (guarded : Guarded permitted (fun _ _ => True) (fun _ => True) p) :
    (run exec p s).1 = (run exec' p t).1 ∧ rel (run exec p s).2 (run exec' p t).2 := by
  induction p generalizing s t with
  | done result => exact ⟨rfl, related⟩
  | perform action next ih =>
      obtain ⟨answer, after⟩ := simulates action s t guarded.1 related
      rw [run_perform, run_perform, answer]
      exact ih _ _ _ after (guarded.2 _ trivial)

/-! ## Threads with separate views -/

/-- A view of the state for each thread: along an invariant, what a thread does
by the actions it is permitted depends on its own view alone and changes no
other thread's view. -/
structure Separated (exec : ι → Handler I σ) (view : ι → σ → V) (inv : σ → Prop)
    (permitted : ι → I.Action → Prop) (known : ∀ action, I.Answer action → Prop) : Prop where
  keeps : ∀ thread action s, inv s → permitted thread action →
    inv (exec thread action s).2 ∧ known action (exec thread action s).1
  answer : ∀ thread action s t, inv s → inv t → permitted thread action →
    view thread s = view thread t → (exec thread action s).1 = (exec thread action t).1
  effect : ∀ thread action s t, inv s → inv t → permitted thread action →
    view thread s = view thread t →
    view thread (exec thread action s).2 = view thread (exec thread action t).2
  frame : ∀ thread other action s, inv s → permitted thread action → other ≠ thread →
    view other (exec thread action s).2 = view other s

namespace Separated

variable {exec : ι → Handler I σ} {view : ι → σ → V} {inv : σ → Prop}
  {permitted : ι → I.Action → Prop} {known : ∀ action, I.Answer action → Prop}
  {post : α → Prop}

theorem run_congr (separated : Separated exec view inv permitted known) (thread : ι)
    (p : Prog I α) (s t : σ) (guarded : Guarded (permitted thread) known post p)
    (inv_s : inv s) (inv_t : inv t) (same : view thread s = view thread t) :
    (run (exec thread) p s).1 = (run (exec thread) p t).1 ∧
      view thread (run (exec thread) p s).2 = view thread (run (exec thread) p t).2 := by
  induction p generalizing s t with
  | done result => exact ⟨rfl, same⟩
  | perform action next ih =>
      obtain ⟨permission, rest⟩ := guarded
      obtain ⟨after_s, answered⟩ := separated.keeps thread action s inv_s permission
      have after_t := (separated.keeps thread action t inv_t permission).1
      have equal := separated.answer thread action s t inv_s inv_t permission same
      rw [run_perform, run_perform, ← equal]
      exact ih _ _ _ (rest _ answered) after_s after_t
        (separated.effect thread action s t inv_s inv_t permission same)

variable [DecidableEq ι]

/-- In every interleaving each thread is on its way to the result and the view
it reaches when it runs alone from the start. -/
theorem steps_outcome (separated : Separated exec view inv permitted known)
    {start final : σ × (ι → Prog I α)} (steps : Steps (handled exec) ∅ start final)
    (initial : inv start.1)
    (guarded : ∀ thread, Guarded (permitted thread) known post (start.2 thread)) (thread : ι) :
    (run (exec thread) (final.2 thread) final.1).1 =
        (run (exec thread) (start.2 thread) start.1).1 ∧
      view thread (run (exec thread) (final.2 thread) final.1).2 =
        view thread (run (exec thread) (start.2 thread) start.1).2 := by
  -- the invariant and the guards hold along the run, so every step may use them
  suffices along : inv final.1 ∧
      (∀ thread, Guarded (permitted thread) known post (final.2 thread)) ∧
      (run (exec thread) (final.2 thread) final.1).1 =
        (run (exec thread) (start.2 thread) start.1).1 ∧
      view thread (run (exec thread) (final.2 thread) final.1).2 =
        view thread (run (exec thread) (start.2 thread) start.1).2 from along.2.2
  induction steps with
  | refl => exact ⟨initial, guarded, rfl, rfl⟩
  | tail _ step ih =>
      obtain ⟨holds, guards, outcome⟩ := ih
      cases step with
      | @act s s' pool actor action next answer pending effect =>
          have moved : exec actor action s = (answer, s') := effect
          have now := guards actor
          simp only [pending, guarded_perform] at now
          have after := separated.keeps actor action s holds now.1
          rw [moved] at after
          refine ⟨after.1, ?_, ?_⟩
          · intro other
            by_cases same : other = actor
            · subst same
              simpa using now.2 answer after.2
            · simpa [Function.update_of_ne same] using guards other
          · by_cases same : thread = actor
            · subst same
              simpa [pending, moved] using outcome
            · have view_kept : view thread s' = view thread s := by
                simpa [moved] using separated.frame actor thread action s holds now.1 same
              have agree := separated.run_congr thread (pool thread) s' s (guards thread) after.1
                holds view_kept
              simp only [Function.update_of_ne same]
              exact ⟨agree.1.trans outcome.1, agree.2.trans outcome.2⟩
      | call actor result p returned offer => exact False.elim offer

theorem finished_view (separated : Separated exec view inv permitted known)
    {s₀ s : σ} {pool₀ pool : ι → Prog I α}
    (steps : Steps (handled exec) ∅ (s₀, pool₀) (s, pool)) (initial : inv s₀)
    (guarded : ∀ thread, Guarded (permitted thread) known post (pool₀ thread))
    (thread : ι) {result : α} (returned : pool thread = .done result) :
    view thread s = view thread (run (exec thread) (pool₀ thread) s₀).2 := by
  have outcome := (separated.steps_outcome steps initial guarded thread).2
  simpa [returned] using outcome

end Separated

section Finish

variable [DecidableEq ι] {exec : ι → Handler I σ}

theorem thread_finishes (thread : ι) (p : Prog I α) (s : σ) (pool : ι → Prog I α)
    (now : pool thread = p) :
    Steps (handled exec) ∅ (s, pool)
      ((run (exec thread) p s).2,
        Function.update pool thread (.done (run (exec thread) p s).1)) := by
  induction p generalizing s pool with
  | done result =>
      have unchanged : Function.update pool thread (.done result) = pool := by
        rw [← now, Function.update_eq_self]
      rw [run_done, unchanged]
  | perform action next ih =>
      have first : Step (handled exec) ∅ (s, pool)
          ((exec thread action s).2,
            Function.update pool thread (next (exec thread action s).1)) :=
        .act thread action next _ now rfl
      have rest := ih (exec thread action s).1 (exec thread action s).2
        (Function.update pool thread (next (exec thread action s).1)) (by simp)
      rw [Function.update_idem] at rest
      exact .head first rest

theorem steps_returned {start final : σ × (ι → Prog I α)}
    (steps : Steps (handled exec) ∅ start final) {thread : ι} {result : α}
    (returned : start.2 thread = .done result) : final.2 thread = .done result := by
  induction steps with
  | refl => exact returned
  | tail _ step ih =>
      cases step with
      | act actor action next answer pending effect =>
          have other : thread ≠ actor := by
            rintro rfl
            cases pending.symm.trans ih
          simpa [Function.update_of_ne other] using ih
      | call actor result p returned offer => exact False.elim offer

/-- From every state some interleaving lets the listed threads return, and
threads that had returned stay returned. -/
theorem pool_finishes (threads : List ι) (s : σ) (pool : ι → Prog I α) :
    ∃ s' pool', Steps (handled exec) ∅ (s, pool) (s', pool') ∧
      ∀ thread, thread ∈ threads ∨ (∃ result, pool thread = .done result) →
        ∃ result, pool' thread = .done result := by
  induction threads generalizing s pool with
  | nil =>
      refine ⟨s, pool, .refl, ?_⟩
      intro thread returned
      simpa using returned
  | cons head tail ih =>
      obtain ⟨s', pool', steps, returned⟩ := ih (run (exec head) (pool head) s).2
        (Function.update pool head (.done (run (exec head) (pool head) s).1))
      refine ⟨s', pool', (thread_finishes head (pool head) s pool rfl).trans steps, ?_⟩
      intro thread listed
      apply returned
      by_cases same : thread = head
      · exact .inr ⟨(run (exec head) (pool head) s).1, by rw [same, Function.update_self]⟩
      · rw [Function.update_of_ne same]
        simpa [same] using listed

end Finish

end Interleave
