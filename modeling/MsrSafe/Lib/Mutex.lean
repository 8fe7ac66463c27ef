import MsrSafe.Lib.Interleave

/-! A state behind a mutex. Programs take the mutex, access the state action by
action and give the mutex back; whatever the interleaving, each critical section
comes to the same as if it were executed at once, when the mutex is taken. -/

namespace Interleave

variable {I : Interface} {α β ι σ : Type}

/-- `halt` is an action that never returns. -/
inductive MutexAction (A : Type) where
  | lock
  | unlock
  | access (action : A)
  | halt

@[reducible] def MutexAction.Answer (I : Interface) : MutexAction I.Action → Type
  | .lock => Unit
  | .unlock => Unit
  | .access action => I.Answer action
  | .halt => Empty

abbrev Mutexed (I : Interface) : Interface := ⟨MutexAction I.Action, MutexAction.Answer I⟩

namespace Mutexed

def lock : Prog (Mutexed I) Unit := Prog.ask (I := Mutexed I) .lock

def unlock : Prog (Mutexed I) Unit := Prog.ask (I := Mutexed I) .unlock

def access (action : I.Action) : Prog (Mutexed I) (I.Answer action) :=
  Prog.ask (I := Mutexed I) (.access action)

def halt : Prog (Mutexed I) α := .perform (I := Mutexed I) .halt Empty.elim

def inside : Prog I α → Prog (Mutexed I) α
  | .done result => .done result
  | .perform action next =>
    .perform (I := Mutexed I) (.access action) fun answer => inside (next answer)

end Mutexed

open Mutexed

structure MutexState (ι σ : Type) where
  state : σ
  owner : Option ι

/-- `lock` waits until the mutex is free; nothing keeps a thread without it from
an access. -/
def locking (exec : Handler I σ) : Semantics ι (Mutexed I) (MutexState ι σ)
  | thread, g, .lock, _, g' => g.owner = none ∧ g' = ⟨g.state, some thread⟩
  | _, g, .unlock, _, g' => g' = ⟨g.state, none⟩
  | _, g, .access action, answer, g' =>
    (exec action g.state).1 = answer ∧ g' = ⟨(exec action g.state).2, g.owner⟩
  | _, _, .halt, _, _ => False

/-- The program accesses the state with the mutex only, and gives it back before
it returns; `held` tells whether it has the mutex now. A program that halts
takes the mutex with it. -/
def Bracketed : Bool → Prog (Mutexed I) α → Prop
  | held, .done _ => held = false
  | held, .perform .lock next => held = false ∧ Bracketed true (next ())
  | held, .perform .unlock next => held = true ∧ Bracketed false (next ())
  | held, .perform (.access _) next => held = true ∧ ∀ answer, Bracketed true (next answer)
  | held, .perform .halt _ => held = true

def finish (exec : Handler I σ) : Prog (Mutexed I) α → σ → Prog (Mutexed I) α × σ
  | .done result, s => (.done result, s)
  | .perform .lock next, s => (.perform (I := Mutexed I) .lock next, s)
  | .perform .unlock next, s => (next (), s)
  | .perform (.access action) next, s => finish exec (next (exec action s).1) (exec action s).2
  | .perform .halt next, s => (.perform (I := Mutexed I) .halt next, s)

section Inside

variable {exec : Handler I σ}

@[simp] theorem lock_bind (f : Unit → Prog (Mutexed I) α) :
    (lock >>= f) = .perform (I := Mutexed I) .lock f := rfl

@[simp] theorem unlock_bind (f : Unit → Prog (Mutexed I) α) :
    (unlock >>= f) = .perform (I := Mutexed I) .unlock f := rfl

@[simp] theorem access_bind (action : I.Action) (f : I.Answer action → Prog (Mutexed I) α) :
    (access action >>= f) = .perform (I := Mutexed I) (.access action) f := rfl

@[simp] theorem finish_inside_bind (p : Prog I α) (f : α → Prog (Mutexed I) β) (s : σ) :
    finish exec (inside p >>= f) s = finish exec (f (run exec p s).1) (run exec p s).2 := by
  induction p generalizing s with
  | done result => rfl
  | perform action next ih => exact ih (exec action s).1 (exec action s).2

theorem bracketed_inside_bind (p : Prog I α) {f : α → Prog (Mutexed I) β}
    (rest : ∀ result, Bracketed true (f result)) : Bracketed true (inside p >>= f) := by
  induction p with
  | done result => exact rest result
  | perform action next ih => exact ⟨rfl, ih⟩

end Inside

/-! ## Calls that are one section -/

section Calls

variable {exec : Handler I σ}

def Halted (p : Prog (Mutexed I) α) : Prop := ∃ next, p = .perform (I := Mutexed I) .halt next

def Ended (outcome : Option α × σ) (ended : Prog (Mutexed I) α × σ) : Prop :=
  ended.2 = outcome.2 ∧
    match outcome.1 with
    | some result => ended.1 = .done result
    | none => Halted ended.1

/-- The program returns without the mutex, or is one critical section, and does
what `atomic` does at once; where it halts it has changed nothing. -/
def Performs (exec : Handler I σ) (p : Prog (Mutexed I) α) (atomic : σ → Option α × σ) : Prop :=
  (∃ result, p = .done result ∧ ∀ s, atomic s = (some result, s)) ∨
    ∃ next, p = .perform (I := Mutexed I) .lock next ∧ Bracketed true (next ()) ∧
      ∀ s, Ended (atomic s) (finish exec (next ()) s) ∧ ((atomic s).1 = none → (atomic s).2 = s)

theorem Performs.bracketed {p : Prog (Mutexed I) α} {atomic : σ → Option α × σ}
    (performs : Performs exec p atomic) : Bracketed false p := by
  rcases performs with ⟨result, rfl, -⟩ | ⟨next, rfl, bracketed, -⟩
  · rfl
  · exact ⟨rfl, bracketed⟩

theorem performs_section (p : Prog I β) {f : β → Prog (Mutexed I) α}
    {atomic : σ → Option α × σ} (bracketed : ∀ result, Bracketed true (f result))
    (ended : ∀ s, Ended (atomic s) (finish exec (f (run exec p s).1) (run exec p s).2))
    (unchanged : ∀ s, (atomic s).1 = none → (atomic s).2 = s) :
    Performs exec (lock >>= fun _ => inside p >>= f) atomic := by
  refine .inr ⟨fun _ => inside p >>= f, rfl, bracketed_inside_bind p bracketed, fun s => ?_⟩
  rw [finish_inside_bind]
  exact ⟨ended s, unchanged s⟩

end Calls

section Expand

variable {J : Interface} (prog : (call : J.Action) → Prog (Mutexed I) (J.Answer call))
  (atomic : (call : J.Action) → σ → Option (J.Answer call) × σ)

def atomically : Semantics ι J σ :=
  fun _ s call answer s' => atomic call s = (some answer, s')

def AtSection : Prog J α → Prop
  | .done _ => True
  | .perform call _ => ∃ next, prog call = .perform (I := Mutexed I) .lock next

variable {prog}

theorem expand_lock {client : Prog J α} (waits : AtSection prog client)
    {next : Unit → Prog (Mutexed I) α}
    (code : expand prog client = .perform (I := Mutexed I) .lock next) :
    ∃ call rest entry, client = .perform call rest ∧
      prog call = .perform (I := Mutexed I) .lock entry ∧
      next = fun _ => entry () >>= fun answer => expand prog (rest answer) := by
  cases client with
  | done result => cases code
  | perform call rest =>
      obtain ⟨entry, locks⟩ := waits
      rw [expand, locks] at code
      cases code
      exact ⟨call, rest, entry, rfl, locks, rfl⟩

theorem expand_done {client : Prog J α} (waits : AtSection prog client) {result : α}
    (code : expand prog client = .done result) : client = .done result := by
  cases client with
  | done last =>
      cases code
      rfl
  | perform call rest =>
      obtain ⟨entry, locks⟩ := waits
      rw [expand, locks] at code
      cases code

theorem bracketed_bind {held : Bool} {p : Prog (Mutexed I) α} {f : α → Prog (Mutexed I) β}
    (first : Bracketed held p) (rest : ∀ result, Bracketed false (f result)) :
    Bracketed held (p >>= f) := by
  induction p generalizing held with
  | done result =>
      cases (first : held = false)
      exact rest result
  | perform action next ih =>
      cases action with
      | lock => exact ⟨first.1, ih () first.2⟩
      | unlock => exact ⟨first.1, ih () first.2⟩
      | access action => exact ⟨first.1, fun answer => ih answer (first.2 answer)⟩
      | halt => exact first

theorem bracketed_expand (calls : ∀ call, Bracketed false (prog call)) (p : Prog J α) :
    Bracketed false (expand prog p) := by
  induction p with
  | done result => rfl
  | perform call next ih => exact bracketed_bind (calls call) ih

theorem finish_bind {exec : Handler I σ} {p : Prog (Mutexed I) α} (held : Bracketed true p)
    (f : α → Prog (Mutexed I) β) (s : σ) :
    finish exec (p >>= f) s = ((finish exec p s).1 >>= f, (finish exec p s).2) := by
  induction p generalizing s with
  | done result => cases (held : true = false)
  | perform action next ih =>
      cases action with
      | lock => cases held.1
      | unlock => rfl
      | access action => exact ih _ (held.2 _) (exec action s).2
      | halt => rfl

theorem finish_call {exec : Handler I σ} {p : Prog (Mutexed I) α} (held : Bracketed true p)
    {s : σ} {outcome : Option α × σ} (ended : Ended outcome (finish exec p s))
    (f : α → Prog (Mutexed I) β) :
    (finish exec (p >>= f) s).2 = outcome.2 ∧
      (∀ result, outcome.1 = some result → (finish exec (p >>= f) s).1 = f result) ∧
      (outcome.1 = none → Halted (finish exec (p >>= f) s).1) := by
  rw [finish_bind held]
  obtain ⟨left, returns⟩ := ended
  refine ⟨left, fun result returned => ?_, fun none => ?_⟩
  · rw [returned] at returns
    dsimp only at returns ⊢
    rw [returns]
    rfl
  · rw [none] at returns
    obtain ⟨next, halted⟩ := returns
    dsimp only
    rw [halted]
    exact ⟨_, rfl⟩

end Expand

/-! ## Sections at once -/

variable [DecidableEq ι]

/-- A thread that waits for the mutex executes its whole critical section, or one
that has returned starts another program. -/
inductive SectionStep (exec : Handler I σ) (calls : Set (Prog (Mutexed I) α)) :
    σ × (ι → Prog (Mutexed I) α) → σ × (ι → Prog (Mutexed I) α) → Prop where
  | enter {s : σ} {pool : ι → Prog (Mutexed I) α} (thread : ι)
      (next : Unit → Prog (Mutexed I) α)
      (pending : pool thread = .perform (I := Mutexed I) .lock next) :
      SectionStep exec calls (s, pool)
        ((finish exec (next ()) s).2, Function.update pool thread (finish exec (next ()) s).1)
  | call {s : σ} {pool : ι → Prog (Mutexed I) α} (thread : ι) (result : α)
      (p : Prog (Mutexed I) α) (returned : pool thread = .done result) (offered : p ∈ calls) :
      SectionStep exec calls (s, pool) (s, Function.update pool thread p)

/-- The state and the programs once the section that is under way is over. -/
def settled (exec : Handler I σ) (c : MutexState ι σ × (ι → Prog (Mutexed I) α)) :
    σ × (ι → Prog (Mutexed I) α) :=
  match c.1.owner with
  | none => (c.1.state, c.2)
  | some thread =>
    ((finish exec (c.2 thread) c.1.state).2,
      Function.update c.2 thread (finish exec (c.2 thread) c.1.state).1)

def Disciplined (c : MutexState ι σ × (ι → Prog (Mutexed I) α)) : Prop :=
  ∀ thread, Bracketed (decide (c.1.owner = some thread)) (c.2 thread)

section Settled

variable {exec : Handler I σ} {calls : Set (Prog (Mutexed I) α)}
  {c c' : MutexState ι σ × (ι → Prog (Mutexed I) α)}

theorem settled_free (s : σ) (pool : ι → Prog (Mutexed I) α) :
    settled exec (⟨s, none⟩, pool) = (s, pool) := rfl

theorem settled_held (s : σ) (thread : ι) (pool : ι → Prog (Mutexed I) α) :
    settled exec (⟨s, some thread⟩, pool) =
      ((finish exec (pool thread) s).2,
        Function.update pool thread (finish exec (pool thread) s).1) := rfl

theorem settled_other {s : σ} {owner : Option ι} {pool : ι → Prog (Mutexed I) α} {thread : ι}
    (other : owner ≠ some thread) :
    (settled exec (⟨s, owner⟩, pool)).2 thread = pool thread := by
  cases owner with
  | none => rfl
  | some holder =>
      rw [settled_held]
      apply Function.update_of_ne
      rintro rfl
      exact other rfl

theorem Disciplined.update {g g' : MutexState ι σ} {pool : ι → Prog (Mutexed I) α}
    (disciplined : Disciplined (g, pool)) {thread : ι} {p : Prog (Mutexed I) α}
    (others : ∀ other, other ≠ thread → (g'.owner = some other ↔ g.owner = some other))
    (own : Bracketed (decide (g'.owner = some thread)) p) :
    Disciplined (g', Function.update pool thread p) := by
  intro other
  change Bracketed (decide (g'.owner = some other)) (Function.update pool thread p other)
  by_cases here : other = thread
  · subst here
    rw [Function.update_self]
    exact own
  · rw [Function.update_of_ne here, decide_eq_decide.mpr (others other here)]
    exact disciplined other

theorem settled_call {s : σ} {owner : Option ι} {pool : ι → Prog (Mutexed I) α} {thread : ι}
    (other : owner ≠ some thread) (p : Prog (Mutexed I) α) :
    settled exec (⟨s, owner⟩, Function.update pool thread p) =
      ((settled exec (⟨s, owner⟩, pool)).1,
        Function.update (settled exec (⟨s, owner⟩, pool)).2 thread p) := by
  cases owner with
  | none => rfl
  | some holder =>
      have apart : holder ≠ thread := fun same => other (congrArg some same)
      rw [settled_held, settled_held, Function.update_of_ne apart, Function.update_comm apart]

/-- The step lemma: what a thread does is a part of its section, or the section
as a whole when it takes the mutex. -/
theorem step_settled (offered : ∀ p ∈ calls, Bracketed false p) (disciplined : Disciplined c)
    (step : Step (locking exec) calls c c') :
    Disciplined c' ∧
      (settled exec c' = settled exec c ∨
        SectionStep exec calls (settled exec c) (settled exec c')) := by
  cases step with
  | @act g g' pool thread action next answer pending effect =>
      obtain ⟨s, owner⟩ := g
      have now : Bracketed (decide (owner = some thread)) (pool thread) := disciplined thread
      rw [pending] at now
      cases action with
      | lock =>
          obtain ⟨free, rfl⟩ := effect
          cases (free : owner = none)
          constructor
          · apply disciplined.update
            · intro other apart
              exact iff_of_false (fun same => apart (Option.some.inj same).symm) (by simp)
            · rw [decide_eq_true rfl]
              exact now.2
          · right
            rw [settled_free, settled_held, Function.update_self, Function.update_idem]
            exact .enter thread next pending
      | unlock =>
          cases effect
          cases (of_decide_eq_true now.1 : owner = some thread)
          constructor
          · apply disciplined.update
            · intro other apart
              exact iff_of_false (by simp) fun same => apart (Option.some.inj same).symm
            · rw [decide_eq_false (by simp)]
              exact now.2
          · left
            rw [settled_free, settled_held, pending]
            rfl
      | access action =>
          obtain ⟨rfl, rfl⟩ := effect
          cases (of_decide_eq_true now.1 : owner = some thread)
          constructor
          · apply disciplined.update fun _ _ => Iff.rfl
            rw [decide_eq_true rfl]
            exact now.2 _
          · left
            rw [settled_held, settled_held, Function.update_self, Function.update_idem, pending]
            rfl
      | halt => exact effect.elim
  | @call g pool thread result p returned offer =>
      obtain ⟨s, owner⟩ := g
      have now : Bracketed (decide (owner = some thread)) (pool thread) := disciplined thread
      rw [returned] at now
      have outside : owner ≠ some thread := of_decide_eq_false now
      constructor
      · apply disciplined.update fun _ _ => Iff.rfl
        rw [decide_eq_false outside]
        exact offered p offer
      · right
        rw [settled_call outside p]
        exact .call thread result p ((settled_other outside).trans returned) offer

/-- The run lemma: an interleaving of disciplined programs is one of their
sections at once. -/
theorem steps_settled (offered : ∀ p ∈ calls, Bracketed false p) (disciplined : Disciplined c)
    (steps : Steps (locking exec) calls c c') :
    Disciplined c' ∧
      Relation.ReflTransGen (SectionStep exec calls) (settled exec c) (settled exec c') := by
  induction steps with
  | refl => exact ⟨disciplined, .refl⟩
  | tail _ step ih =>
      obtain ⟨now, sections⟩ := ih
      obtain ⟨after, same | one⟩ := step_settled offered now step
      · exact ⟨after, by rwa [same]⟩
      · exact ⟨after, sections.tail one⟩

end Settled

/-! ## Nothing waits for ever -/

section Finish

variable {exec : Handler I σ}

theorem thread_runs_out (thread : ι) (p : Prog (Mutexed I) α) (g : MutexState ι σ)
    (pool : ι → Prog (Mutexed I) α) (now : pool thread = p) {held : Bool}
    (owner : g.owner = if held then some thread else none) (bracketed : Bracketed held p) :
    ∃ g' p', Steps (locking exec) ∅ (g, pool) (g', Function.update pool thread p') ∧
      (g'.owner = none ∧ (∃ result, p' = .done result) ∨ Halted p') := by
  induction p generalizing g pool held with
  | done result =>
      refine ⟨g, .done result, ?_, .inl ⟨?_, result, rfl⟩⟩
      · rw [← now, Function.update_eq_self]
      · cases (bracketed : held = false)
        exact owner
  | perform action next ih =>
      -- one action leads to a state from which the rest runs on
      have go : ∀ (answer : (Mutexed I).Answer action) (g₁ : MutexState ι σ) (held₁ : Bool),
          locking exec thread g action answer g₁ →
          (g₁.owner = if held₁ then some thread else none) → Bracketed held₁ (next answer) →
          ∃ g' p', Steps (locking exec) ∅ (g, pool) (g', Function.update pool thread p') ∧
            (g'.owner = none ∧ (∃ result, p' = .done result) ∨ Halted p') := by
        intro answer g₁ held₁ effect owner₁ bracketed₁
        obtain ⟨g', p', steps, ended⟩ := ih answer g₁ (Function.update pool thread (next answer))
          (Function.update_self ..) owner₁ bracketed₁
        rw [Function.update_idem] at steps
        exact ⟨g', p', .head (.act thread action next answer now effect) steps, ended⟩
      cases action with
      | lock =>
          obtain ⟨rfl, rest⟩ := bracketed
          exact go () ⟨g.state, some thread⟩ true ⟨owner, rfl⟩ rfl rest
      | unlock =>
          obtain ⟨rfl, rest⟩ := bracketed
          exact go () ⟨g.state, none⟩ false rfl rfl rest
      | access action =>
          obtain ⟨rfl, rest⟩ := bracketed
          exact go (exec action g.state).1 ⟨(exec action g.state).2, g.owner⟩ true ⟨rfl, rfl⟩
            owner (rest _)
      | halt =>
          refine ⟨g, _, ?_, .inr ⟨next, rfl⟩⟩
          rw [← now, Function.update_eq_self]

variable (exec) in
theorem holder_finishes (thread : ι) (p : Prog (Mutexed I) α) (s : σ)
    (pool : ι → Prog (Mutexed I) α) (now : pool thread = p) (bracketed : Bracketed true p) :
    ∃ owner, Steps (locking exec) ∅ (⟨s, some thread⟩, pool)
      (⟨(finish exec p s).2, owner⟩, Function.update pool thread (finish exec p s).1) ∧
      (owner = none ∨ Halted (finish exec p s).1) := by
  induction p generalizing s pool with
  | done result => cases (bracketed : true = false)
  | perform action next ih =>
      cases action with
      | lock => cases bracketed.1
      | unlock => exact ⟨none, .single (.act thread _ next () now rfl), .inl rfl⟩
      | access action =>
          obtain ⟨owner, steps, left⟩ := ih (exec action s).1 (exec action s).2
            (Function.update pool thread (next (exec action s).1)) (Function.update_self ..)
            (bracketed.2 _)
          rw [Function.update_idem] at steps
          exact ⟨owner, .head (.act thread _ next (exec action s).1 now ⟨rfl, rfl⟩) steps, left⟩
      | halt =>
          refine ⟨some thread, ?_, .inr ⟨next, rfl⟩⟩
          rw [finish, ← now, Function.update_eq_self]

theorem disciplined_steps {c c' : MutexState ι σ × (ι → Prog (Mutexed I) α)}
    (disciplined : Disciplined c) (steps : Steps (locking exec) ∅ c c') : Disciplined c' :=
  (steps_settled (fun _ offer => offer.elim) disciplined steps).1

variable (exec) in
theorem holder_releases {g : MutexState ι σ} {pool : ι → Prog (Mutexed I) α}
    (disciplined : Disciplined (g, pool)) :
    ∃ g' pool', Steps (locking exec) ∅ (g, pool) (g', pool') ∧
      (g'.owner = none ∨ ∃ thread, Halted (pool' thread)) := by
  obtain ⟨s, owner⟩ := g
  cases owner with
  | none => exact ⟨_, pool, .refl, .inl rfl⟩
  | some holder =>
      have now : Bracketed true (pool holder) := by
        have own := disciplined holder
        rwa [decide_eq_true rfl] at own
      obtain ⟨g', p', steps, ⟨free, -⟩ | halted⟩ :=
        thread_runs_out holder (pool holder) ⟨s, some holder⟩ pool rfl rfl now
      · exact ⟨g', _, steps, .inl free⟩
      · exact ⟨g', _, steps, .inr ⟨holder, by rwa [Function.update_self]⟩⟩

/-- A thread that has halted keeps the mutex, and nobody gets to the state any more. -/
theorem halted_blocks {calls : Set (Prog (Mutexed I) α)}
    (offered : ∀ p ∈ calls, Bracketed false p) {g g' : MutexState ι σ}
    {pool pool' : ι → Prog (Mutexed I) α} (disciplined : Disciplined (g, pool)) {thread : ι}
    (halted : Halted (pool thread)) (steps : Steps (locking exec) calls (g, pool) (g', pool')) :
    g' = g ∧ g.owner = some thread ∧ Halted (pool' thread) ∧
      ∀ other next, pool other = .perform (I := Mutexed I) .lock next →
        pool' other = .perform (I := Mutexed I) .lock next := by
  have holds : g.owner = some thread := by
    obtain ⟨next, at_halt⟩ := halted
    have now : Bracketed (decide (g.owner = some thread)) (pool thread) := disciplined thread
    rw [at_halt] at now
    exact of_decide_eq_true now
  generalize final : (g', pool') = c' at steps
  induction steps generalizing g' pool' with
  | refl =>
      cases final
      exact ⟨rfl, holds, halted, fun _ _ waits => waits⟩
  | @tail c₁ c₂ earlier step ih =>
      obtain ⟨g₁, pool₁⟩ := c₁
      obtain ⟨rfl, -, ⟨stop, at_stop⟩, waiting⟩ := ih rfl
      have now := (steps_settled offered disciplined earlier).1
      cases step with
      | act actor action next answer pending effect =>
          cases final
          have own : Bracketed (decide (g₁.owner = some actor)) (pool₁ actor) := now actor
          rw [pending] at own
          -- an action of the holder is none, and the others have no action to do
          have other : g₁.owner ≠ some actor := by
            intro same
            cases Option.some.inj (holds.symm.trans same)
            cases at_stop.symm.trans pending
            exact effect.elim
          cases action with
          | lock => exact absurd (holds.symm.trans effect.1) (Option.some_ne_none _)
          | unlock => exact absurd (of_decide_eq_true own.1) other
          | access action => exact absurd (of_decide_eq_true own.1) other
          | halt => exact effect.elim
      | call actor result p returned offer =>
          cases final
          -- only a thread that has returned starts another program
          have kept : ∀ u action next', pool₁ u = .perform (I := Mutexed I) action next' →
              Function.update pool₁ actor p u = .perform (I := Mutexed I) action next' := by
            intro u action next' at_action
            rw [Function.update_of_ne, at_action]
            rintro rfl
            cases returned.symm.trans at_action
          exact ⟨rfl, holds, ⟨stop, kept thread _ stop at_stop⟩,
            fun u next' waits => kept u _ next' (waiting u next' waits)⟩

variable (exec) in
theorem disciplined_finishes (threads : List ι) {g : MutexState ι σ}
    {pool : ι → Prog (Mutexed I) α} (disciplined : Disciplined (g, pool)) :
    ∃ g' pool', Steps (locking exec) ∅ (g, pool) (g', pool') ∧
      (g'.owner = none ∧ (∀ thread ∈ threads, ∃ result, pool' thread = .done result) ∨
        ∃ thread, Halted (pool' thread)) := by
  induction threads with
  | nil =>
      obtain ⟨g', pool', steps, free | halted⟩ := holder_releases exec disciplined
      · exact ⟨g', pool', steps, .inl ⟨free, fun _ member => absurd member List.not_mem_nil⟩⟩
      · exact ⟨g', pool', steps, .inr halted⟩
  | cons head tail ih =>
      obtain ⟨⟨s, owner⟩, pool', steps, ⟨free, returned⟩ | halted⟩ := ih
      swap
      · exact ⟨_, pool', steps, .inr halted⟩
      cases (free : owner = none)
      have now : Bracketed false (pool' head) := by
        have own := disciplined_steps disciplined steps head
        rwa [decide_eq_false (by simp)] at own
      obtain ⟨g', p', more, ⟨free', result, rfl⟩ | halted⟩ :=
        thread_runs_out head (pool' head) ⟨s, none⟩ pool' rfl rfl now
      · refine ⟨g', _, steps.trans more, .inl ⟨free', fun thread member => ?_⟩⟩
        by_cases here : thread = head
        · exact ⟨result, by rw [here, Function.update_self]⟩
        · rw [Function.update_of_ne here]
          exact returned thread ((List.mem_cons.mp member).resolve_left here)
      · exact ⟨g', _, steps.trans more, .inr ⟨head, by rwa [Function.update_self]⟩⟩

end Finish

section Clients

variable {J : Interface} {exec : Handler I σ}
  {prog : (call : J.Action) → Prog (Mutexed I) (J.Answer call)}
  {atomic : (call : J.Action) → σ → Option (J.Answer call) × σ}

theorem client_settles (performs : ∀ call, Performs exec (prog call) (atomic call)) (thread : ι)
    (client : Prog J α) (s : σ) (clients : ι → Prog J α) (now : clients thread = client) :
    ∃ client',
      Steps (atomically atomic) ∅ (s, clients) (s, Function.update clients thread client') ∧
      AtSection prog client' ∧ expand prog client' = expand prog client := by
  induction client generalizing clients with
  | done result =>
      refine ⟨.done result, ?_, trivial, rfl⟩
      rw [← now, Function.update_eq_self]
  | perform call next ih =>
      rcases performs call with ⟨answer, returns, same⟩ | ⟨section_, locks, -, -⟩
      · obtain ⟨client', steps, settled, expanded⟩ := ih answer
          (Function.update clients thread (next answer)) (Function.update_self ..)
        rw [Function.update_idem] at steps
        refine ⟨client', .head (.act thread call next answer now (same s)) steps, settled, ?_⟩
        rw [expanded, expand, returns]
        rfl
      · refine ⟨.perform call next, ?_, ⟨section_, locks⟩, rfl⟩
        rw [← now, Function.update_eq_self]

/-- Threads and the clients whose code they run, in the same state; a thread that
has halted has left its client behind. -/
structure Matched (prog : (call : J.Action) → Prog (Mutexed I) (J.Answer call))
    (c : σ × (ι → Prog (Mutexed I) α)) (d : σ × (ι → Prog J α)) : Prop where
  state : c.1 = d.1
  threads : ∀ thread, Halted (c.2 thread) ∨
    AtSection prog (d.2 thread) ∧ c.2 thread = expand prog (d.2 thread)

theorem Matched.update {s s' : σ} {pool : ι → Prog (Mutexed I) α} {clients : ι → Prog J α}
    (matched : Matched prog (s, pool) (s, clients)) {thread : ι} {p : Prog (Mutexed I) α}
    {client : Prog J α}
    (next : Halted p ∨ AtSection prog client ∧ p = expand prog client) :
    Matched prog (s', Function.update pool thread p)
      (s', Function.update clients thread client) := by
  refine ⟨rfl, fun other => ?_⟩
  by_cases here : other = thread
  · subst here
    simpa using next
  · simpa [Function.update_of_ne here] using matched.threads other

def Unanswered (atomic : (call : J.Action) → σ → Option (J.Answer call) × σ) (s : σ)
    (client : Prog J α) : Prop :=
  ∃ call rest, client = .perform call rest ∧ (atomic call s).1 = none

theorem halted_update {pool : ι → Prog (Mutexed I) α} {thread other : ι} {p : Prog (Mutexed I) α}
    (halted : Halted (Function.update pool thread p other)) :
    other = thread ∧ Halted p ∨ Halted (pool other) := by
  by_cases here : other = thread
  · subst here
    rw [Function.update_self] at halted
    exact .inl ⟨rfl, halted⟩
  · rw [Function.update_of_ne here] at halted
    exact .inr halted

theorem AtSection.not_halted {client : Prog J α} (waits : AtSection prog client) :
    ¬Halted (expand prog client) := by
  rintro ⟨next, halted⟩
  cases client with
  | done result => cases halted
  | perform call rest =>
      obtain ⟨entry, locks⟩ := waits
      rw [expand, locks] at halted
      cases halted

/-- The step lemma: a section is a call of the client, and a thread halts only at
a call that has no answer. -/
theorem sectionStep_refines (performs : ∀ call, Performs exec (prog call) (atomic call))
    {offered : Set (Prog J α)} {c c' : σ × (ι → Prog (Mutexed I) α)} {d : σ × (ι → Prog J α)}
    (matched : Matched prog c d) (step : SectionStep exec (expand prog '' offered) c c') :
    (∃ d', Steps (atomically atomic) offered d d' ∧ Matched prog c' d') ∧
      ∀ other, Halted (c'.2 other) → Halted (c.2 other) ∨ Unanswered atomic d.1 (d.2 other) := by
  obtain ⟨s, clients⟩ := d
  cases step with
  | @enter s₁ pool thread next pending =>
      cases (matched.state : s₁ = s)
      rcases matched.threads thread with ⟨stop, halted⟩ | ⟨waits, runs⟩
      · cases (pending.symm.trans halted)
      obtain ⟨call, rest, entry, at_call, locks, rfl⟩ :=
        expand_lock waits (runs.symm.trans pending)
      rcases performs call with ⟨answer, returns, -⟩ | ⟨entry', locks', held, ended⟩
      · cases locks.symm.trans returns
      cases locks.symm.trans locks'
      obtain ⟨left, answers, halts⟩ :=
        finish_call held (ended s).1 fun answer => expand prog (rest answer)
      dsimp only
      generalize finish exec (entry () >>= fun answer => expand prog (rest answer)) s = done
        at left answers halts
      obtain ⟨p, s'⟩ := done
      cases outcome : (atomic call s).1 with
      | none =>
          have kept : s' = s := left.trans ((ended s).2 outcome)
          have same : Matched prog (s', Function.update pool thread p)
              (s', Function.update clients thread (clients thread)) :=
            matched.update (.inl (halts outcome))
          rw [Function.update_eq_self] at same
          refine ⟨⟨(s', clients), by rw [kept], same⟩, fun other now => ?_⟩
          rcases halted_update now with ⟨rfl, -⟩ | before
          · exact .inr ⟨call, rest, at_call, outcome⟩
          · exact .inl before
      | some answer =>
          cases (answers answer outcome : p = expand prog (rest answer))
          have effect : atomic call s = (some answer, s') := Prod.ext outcome left.symm
          obtain ⟨client', steps, settles, same⟩ := client_settles performs thread (rest answer)
            s' (Function.update clients thread (rest answer)) (Function.update_self ..)
          rw [Function.update_idem] at steps
          constructor
          · refine ⟨_, .head (.act thread call rest answer at_call effect)
              (steps_mono steps (fun _ _ _ _ _ effect => effect) (Set.empty_subset _)), ?_⟩
            exact matched.update (.inr ⟨settles, same.symm⟩)
          · intro other now
            rcases halted_update now with ⟨-, stuck⟩ | before
            · rw [← same] at stuck
              exact absurd stuck settles.not_halted
            · exact .inl before
  | @call s₁ pool thread result p returned offer =>
      cases (matched.state : s₁ = s)
      obtain ⟨client, inOffer, rfl⟩ := offer
      rcases matched.threads thread with ⟨stop, halted⟩ | ⟨waits, runs⟩
      · cases (returned.symm.trans halted)
      have idle : clients thread = .done result := expand_done waits (runs.symm.trans returned)
      obtain ⟨client', steps, settles, same⟩ := client_settles performs thread client s
        (Function.update clients thread client) (Function.update_self ..)
      rw [Function.update_idem] at steps
      constructor
      · refine ⟨_, .head (.call thread result client idle inOffer)
          (steps_mono steps (fun _ _ _ _ _ effect => effect) (Set.empty_subset _)), ?_⟩
        exact matched.update (.inr ⟨settles, same.symm⟩)
      · intro other now
        rcases halted_update now with ⟨-, stuck⟩ | before
        · rw [← same] at stuck
          exact absurd stuck settles.not_halted
        · exact .inl before

/-- The run lemma: in every interleaving the clients get from their calls what
they would get if each call were made at once. -/
theorem steps_match (performs : ∀ call, Performs exec (prog call) (atomic call))
    {offered : Set (Prog J α)} {c c' : MutexState ι σ × (ι → Prog (Mutexed I) α)}
    {d : σ × (ι → Prog J α)} (disciplined : Disciplined c)
    (matched : Matched prog (settled exec c) d)
    (steps : Steps (locking exec) (expand prog '' offered) c c') :
    Disciplined c' ∧
      ∃ d', Steps (atomically atomic) offered d d' ∧ Matched prog (settled exec c') d' := by
  have bracketed : ∀ p ∈ expand prog '' offered, Bracketed false p := by
    rintro p ⟨client, -, rfl⟩
    exact bracketed_expand (fun call => (performs call).bracketed) client
  obtain ⟨after, sections⟩ := steps_settled bracketed disciplined steps
  refine ⟨after, ?_⟩
  generalize settled exec c = first at matched sections
  generalize settled exec c' = last at sections ⊢
  induction sections with
  | refl => exact ⟨d, .refl, matched⟩
  | tail _ step ih =>
      obtain ⟨d₁, before, now⟩ := ih
      obtain ⟨⟨d₂, more, then_⟩, -⟩ := sectionStep_refines performs now step
      exact ⟨d₂, before.trans more, then_⟩

/-- Where the clients' calls keep an invariant along which each has an answer, no
thread halts. -/
theorem steps_live (performs : ∀ call, Performs exec (prog call) (atomic call))
    {offered : Set (Prog J α)} {permitted : J.Action → Prop} (inv : σ → Prop)
    (kept : ∀ s call, inv s → permitted call → (atomic call s).1 ≠ none ∧ inv (atomic call s).2)
    (guarded : ∀ client ∈ offered, Guarded permitted (fun _ _ => True) (fun _ => True) client)
    {c c' : MutexState ι σ × (ι → Prog (Mutexed I) α)} {d : σ × (ι → Prog J α)}
    (disciplined : Disciplined c) (matched : Matched prog (settled exec c) d)
    (initial : inv d.1)
    (clients : ∀ thread, Guarded permitted (fun _ _ => True) (fun _ => True) (d.2 thread))
    (live : ∀ thread, ¬Halted ((settled exec c).2 thread))
    (steps : Steps (locking exec) (expand prog '' offered) c c') :
    ∀ thread, ¬Halted ((settled exec c').2 thread) := by
  have bracketed : ∀ p ∈ expand prog '' offered, Bracketed false p := by
    rintro p ⟨client, -, rfl⟩
    exact bracketed_expand (fun call => (performs call).bracketed) client
  have sections := (steps_settled bracketed disciplined steps).2
  generalize settled exec c = first at matched live sections
  generalize settled exec c' = last at sections ⊢
  suffices along : (∀ thread, ¬Halted (last.2 thread)) ∧
      ∃ d', Matched prog last d' ∧ inv d'.1 ∧
        ∀ thread, Guarded permitted (fun _ _ => True) (fun _ => True) (d'.2 thread) from along.1
  induction sections with
  | refl => exact ⟨live, d, matched, initial, clients⟩
  | tail _ step ih =>
      obtain ⟨live₁, d₁, matched₁, inv₁, guarded₁⟩ := ih
      obtain ⟨⟨d₂, more, matched₂⟩, halts⟩ := sectionStep_refines performs matched₁ step
      have after : inv d₂.1 ∧ ∀ thread,
          Guarded permitted (fun _ _ => True) (fun _ => True) (d₂.2 thread) := by
        refine steps_guarded inv (fun thread s call answer s' holds permission effect => ?_)
          guarded more inv₁ guarded₁
        have same : atomic call s = (some answer, s') := effect
        exact ⟨by simpa [same] using (kept s call holds permission).2, trivial⟩
      refine ⟨fun thread halted => ?_, d₂, matched₂, after.1, after.2⟩
      rcases halts thread halted with before | ⟨call, rest, at_call, unanswered⟩
      · exact live₁ thread before
      · have permission := guarded₁ thread
        rw [at_call] at permission
        exact (kept d₁.1 call inv₁ permission.1).1 unanswered

theorem call_runs (performs : ∀ call, Performs exec (prog call) (atomic call)) (s : σ)
    {pool : ι → Prog (Mutexed I) α} {thread : ι} {call : J.Action}
    {rest : J.Answer call → Prog J α} (calls : pool thread = expand prog (.perform call rest)) :
    ∃ owner p, Steps (locking exec) ∅ (⟨s, none⟩, pool)
        (⟨(atomic call s).2, owner⟩, Function.update pool thread p) ∧
      (∀ answer, (atomic call s).1 = some answer →
        owner = none ∧ p = expand prog (rest answer)) ∧
      ((atomic call s).1 = none → Halted p) := by
  rcases performs call with ⟨result, returns, same⟩ | ⟨entry, locks, held, ended⟩
  · refine ⟨none, pool thread, ?_, fun answer answered => ⟨rfl, ?_⟩, fun unanswered => ?_⟩
    · rw [same s, Function.update_eq_self]
    · rw [same s] at answered
      cases answered
      rw [calls, expand, returns]
      rfl
    · rw [same s] at unanswered
      cases unanswered
  · obtain ⟨left, answers, halts⟩ :=
      finish_call held (ended s).1 fun answer => expand prog (rest answer)
    have waits : pool thread = .perform (I := Mutexed I) .lock
        fun _ => entry () >>= fun answer => expand prog (rest answer) := by
      rw [calls, expand, locks]
      rfl
    have bracketed : Bracketed true (entry () >>= fun answer => expand prog (rest answer)) :=
      bracketed_bind held fun _ => bracketed_expand (fun call => (performs call).bracketed) _
    obtain ⟨owner, steps, free⟩ := holder_finishes exec thread _ s
      (Function.update pool thread (entry () >>= fun answer => expand prog (rest answer)))
      (Function.update_self ..) bracketed
    rw [Function.update_idem, left] at steps
    refine ⟨owner, _, .head (.act thread _ _ () waits ⟨rfl, rfl⟩) steps, ?_, halts⟩
    intro answer answered
    have code := answers answer answered
    refine ⟨free.resolve_right fun halted => ?_, code⟩
    -- the next program is one at its start, which has not halted
    have outside := bracketed_expand (fun call => (performs call).bracketed) (rest answer)
    rw [← code] at outside
    obtain ⟨next, at_halt⟩ := halted
    rw [at_halt] at outside
    cases (outside : false = true)

theorem halted_settled {c : MutexState ι σ × (ι → Prog (Mutexed I) α)} {thread : ι}
    (halted : Halted (c.2 thread)) : Halted ((settled exec c).2 thread) := by
  obtain ⟨⟨s, owner⟩, pool⟩ := c
  by_cases own : owner = some thread
  · subst own
    obtain ⟨next, at_halt⟩ := halted
    rw [settled_held, show pool thread = .perform (I := Mutexed I) .halt next from at_halt]
    dsimp only
    rw [Function.update_self]
    exact ⟨next, rfl⟩
  · rwa [settled_other own]

theorem matched_start (s : σ) (idle : ι → α) :
    Disciplined (⟨s, none⟩, fun thread => (.done (idle thread) : Prog (Mutexed I) α)) ∧
      Matched prog (settled exec (⟨s, none⟩, fun thread => .done (idle thread)))
        (s, fun thread => .done (idle thread)) :=
  ⟨fun _ => decide_eq_false (by simp), rfl, fun _ => .inr ⟨trivial, rfl⟩⟩

theorem Matched.outside {g : MutexState ι σ} {pool : ι → Prog (Mutexed I) α}
    {d : σ × (ι → Prog J α)} (disciplined : Disciplined (g, pool))
    (matched : Matched prog (settled exec (g, pool)) d) {thread : ι}
    (other : g.owner ≠ some thread) : pool thread = expand prog (d.2 thread) := by
  obtain ⟨s, owner⟩ := g
  have now : Bracketed (decide (owner = some thread)) (pool thread) := disciplined thread
  rw [decide_eq_false other] at now
  have placed := matched.threads thread
  rw [settled_other other] at placed
  rcases placed with ⟨next, halted⟩ | ⟨-, runs⟩
  · rw [halted] at now
    cases (now : false = true)
  · exact runs

theorem Matched.returned {g : MutexState ι σ} {pool : ι → Prog (Mutexed I) α}
    {d : σ × (ι → Prog J α)} (disciplined : Disciplined (g, pool))
    (matched : Matched prog (settled exec (g, pool)) d) {thread : ι} {result : α}
    (returned : pool thread = .done result) : d.2 thread = .done result := by
  have now : Bracketed (decide (g.owner = some thread)) (pool thread) := disciplined thread
  rw [returned] at now
  have other : g.owner ≠ some thread := of_decide_eq_false now
  obtain ⟨s, owner⟩ := g
  have placed := matched.threads thread
  rw [settled_other other] at placed
  rcases placed with ⟨next, halted⟩ | ⟨waits, runs⟩
  · cases returned.symm.trans halted
  · exact expand_done waits (runs.symm.trans returned)

end Clients

end Interleave
