import MsrSafe.Lib.Interleave

/-! Programs that do one thing. All their actions but one only look at what never
changes, so that whatever the interleaving, each comes to the same as if it were
executed at once. -/

namespace Interleave

variable {I J : Interface} {α β ι σ E : Type}

section Atomic

variable (exec : E → Handler I σ)

def varying : Semantics ι I σ :=
  fun _ s action answer s' => ∃ e, exec e action s = (answer, s')

def wholly (prog : (call : J.Action) → Prog I (J.Answer call)) : Semantics ι J σ :=
  fun _ s call answer s' => ∃ e, run (exec e) (prog call) s = (answer, s')

def Looks (action : I.Action) (answer : I.Answer action) : Prop :=
  ∀ e s, exec e action s = (answer, s)

inductive Settled : Prog I α → α → Prop where
  | done (result : α) : Settled (.done result) result
  | look {action : I.Action} {answer : I.Answer action} {next : I.Answer action → Prog I α}
      {result : α} (looks : Looks exec action answer) (rest : Settled (next answer) result) :
      Settled (.perform action next) result

/-- A program that looks, acts at most once, and only looks from then on. -/
inductive Brief : Prog I α → Prop where
  | done (result : α) : Brief (.done result)
  | look {action : I.Action} {answer : I.Answer action} {next : I.Answer action → Prog I α}
      (looks : Looks exec action answer) (rest : Brief (next answer)) :
      Brief (.perform action next)
  | act {action : I.Action} {next : I.Answer action → Prog I α}
      (rest : ∀ e s, ∃ result, Settled exec (next (exec e action s).1) result) :
      Brief (.perform action next)

end Atomic

section Atomic

variable {exec : E → Handler I σ} {p : Prog I α} {result : α}

theorem Settled.run (settled : Settled exec p result) (e : E) (s : σ) :
    run (exec e) p s = (result, s) := by
  induction settled with
  | done result => rfl
  | look looks _ ih => rw [run_perform, looks e s, ih]

theorem settled_of_guarded {permitted : I.Action → Prop}
    {known : ∀ action, I.Answer action → Prop} {post : α → Prop}
    (looks : ∀ action, permitted action → ∃ answer, Looks exec action answer ∧ known action answer)
    (guarded : Guarded permitted known post p) : ∃ result, Settled exec p result ∧ post result := by
  induction p with
  | done result => exact ⟨result, .done result, guarded⟩
  | perform action next ih =>
      obtain ⟨answer, look, fact⟩ := looks action guarded.1
      obtain ⟨result, settled, after⟩ := ih answer (guarded.2 answer fact)
      exact ⟨result, .look look settled, after⟩

theorem Settled.bind {f : α → Prog I β} {final : β} (first : Settled exec p result)
    (rest : Settled exec (f result) final) : Settled exec (p >>= f) final := by
  induction first with
  | done result => exact rest
  | look looks _ ih => exact .look looks (ih rest)

theorem Settled.brief (settled : Settled exec p result) : Brief exec p := by
  induction settled with
  | done result => exact .done result
  | look looks _ ih => exact .look looks ih

theorem Settled.bind_brief {f : α → Prog I β} (first : Settled exec p result)
    (rest : Brief exec (f result)) : Brief exec (p >>= f) := by
  induction first with
  | done result => exact rest
  | look looks _ ih => exact .look looks (ih rest)

theorem Brief.bind {f : α → Prog I β} (first : Brief exec p)
    (rest : ∀ result, ∃ final, Settled exec (f result) final) : Brief exec (p >>= f) := by
  induction first with
  | done result =>
      obtain ⟨final, settled⟩ := rest result
      exact settled.brief
  | look looks _ ih => exact .look looks ih
  | act settles =>
      apply Brief.act
      intro e s
      obtain ⟨result, settled⟩ := settles e s
      obtain ⟨final, after⟩ := rest result
      exact ⟨final, settled.bind after⟩

end Atomic

section Clients

variable {exec : E → Handler I σ}
  {prog : (call : J.Action) → Prog I (J.Answer call)} {calls : J.Action → Prop}

abbrev Makes (calls : J.Action → Prop) (client : Prog J α) : Prop :=
  Guarded calls (fun _ _ => True) (fun _ => True) client

/-- The code of a thread and its client: both have returned, the thread is in a
call that the client is still to make, or it is at the end of a call that the
client has made. -/
inductive Follows (exec : E → Handler I σ) (prog : (call : J.Action) → Prog I (J.Answer call))
    (calls : J.Action → Prop) : Prog I α → Prog J α → Prop where
  | returned (result : α) : Follows exec prog calls (.done result) (.done result)
  | inside {call : J.Action} {next : J.Answer call → Prog J α} {action : I.Action}
      {after : I.Answer action → Prog I (J.Answer call)}
      (brief : Brief exec (.perform action after))
      (same : ∀ e s, run (exec e) (.perform action after) s = run (exec e) (prog call) s)
      (makes : ∀ answer, Makes calls (next answer)) :
      Follows exec prog calls (.perform action after >>= fun answer => expand prog (next answer))
        (.perform call next)
  | behind {A : Type} {result : A} {next : A → Prog J α} {action : I.Action}
      {after : I.Answer action → Prog I A} (settled : Settled exec (.perform action after) result)
      (makes : Makes calls (next result)) :
      Follows exec prog calls (.perform action after >>= fun answer => expand prog (next answer))
        (next result)

theorem Follows.of_done {result : α} {client : Prog J α}
    (follows : Follows exec prog calls (.done result) client) : client = .done result := by
  generalize code : (Prog.done result : Prog I α) = p at follows
  cases follows with
  | returned result' =>
      cases code
      rfl
  | inside brief same makes => cases code
  | behind settled makes => cases code

structure Tracks (exec : E → Handler I σ) (prog : (call : J.Action) → Prog I (J.Answer call))
    (calls : J.Action → Prop) (c : σ × (ι → Prog I α)) (d : σ × (ι → Prog J α)) : Prop where
  state : c.1 = d.1
  threads : ∀ thread, Follows exec prog calls (c.2 thread) (d.2 thread)

theorem Tracks.returned {s s' : σ} {pool : ι → Prog I α} {clients : ι → Prog J α}
    (tracks : Tracks exec prog calls (s, pool) (s', clients)) {thread : ι} {result : α}
    (returned : pool thread = .done result) : clients thread = .done result := by
  have follows : Follows exec prog calls (pool thread) (clients thread) := tracks.threads thread
  rw [returned] at follows
  exact follows.of_done

variable [DecidableEq ι]

def Advances (exec : E → Handler I σ) (prog : (call : J.Action) → Prog I (J.Answer call))
    (calls : J.Action → Prop) (s s' : σ) (clients : ι → Prog J α) (thread : ι) (p : Prog I α) :
    Prop :=
  ∃ client, Steps (wholly exec prog) ∅ (s, clients) (s', Function.update clients thread client) ∧
    Follows exec prog calls p client

theorem Tracks.advance {s s' : σ} {pool : ι → Prog I α} {clients : ι → Prog J α}
    (tracks : Tracks exec prog calls (s, pool) (s, clients)) {thread : ι} {p : Prog I α}
    (advances : Advances exec prog calls s s' clients thread p) :
    ∃ d, Steps (wholly exec prog) ∅ (s, clients) d ∧
      Tracks exec prog calls (s', Function.update pool thread p) d := by
  obtain ⟨client, steps, follows⟩ := advances
  refine ⟨_, steps, rfl, fun other => ?_⟩
  by_cases here : other = thread
  · subst here
    simpa using follows
  · simpa [Function.update_of_ne here] using tracks.threads other

variable [Nonempty E] (brief : ∀ call, calls call → Brief exec (prog call))

include brief in
theorem client_reaches (s : σ) {client : Prog J α} (makes : Makes calls client)
    {clients : ι → Prog J α} {thread : ι} (now : clients thread = client) :
    Advances exec prog calls s s clients thread (expand prog client) := by
  induction client generalizing clients with
  | done result =>
      refine ⟨.done result, ?_, .returned result⟩
      rw [← now, Function.update_eq_self]
  | perform call next ih =>
      rw [Advances, expand]
      cases code : prog call with
      | done answer =>
          obtain ⟨client, steps, follows⟩ := ih answer (makes.2 answer trivial)
            (Function.update_self thread (next answer) clients)
          rw [Function.update_idem] at steps
          have made : wholly exec prog thread s call answer s := by
            obtain ⟨e⟩ := ‹Nonempty E›
            exact ⟨e, by rw [code, run_done]⟩
          exact ⟨client, .head (.act thread call next answer now made) steps, follows⟩
      | perform action after =>
          have short := brief call makes.1
          rw [code] at short
          refine ⟨.perform call next, ?_, .inside short (fun e s => by rw [code]) fun answer =>
            makes.2 answer trivial⟩
          rw [← now, Function.update_eq_self]

include brief in
theorem client_looks (s : σ) {A : Type} {q : Prog I A} {result : A}
    (settled : Settled exec q result) {next : A → Prog J α} (makes : Makes calls (next result))
    {clients : ι → Prog J α} {thread : ι} (now : clients thread = next result) :
    Advances exec prog calls s s clients thread
      (q >>= fun answer => expand prog (next answer)) := by
  cases q with
  | done answer =>
      cases settled
      exact client_reaches brief s makes now
  | perform action after =>
      refine ⟨next result, ?_, .behind settled makes⟩
      rw [← now, Function.update_eq_self]

include brief in
/-- The step lemma: when a thread acts, its client makes no call, or the call that
the thread is in. -/
theorem follows_act {action : I.Action} {next : I.Answer action → Prog I α} {client : Prog J α}
    (follows : Follows exec prog calls (.perform action next) client) {e : E} {s s' : σ}
    {answer : I.Answer action} (acts : exec e action s = (answer, s')) {clients : ι → Prog J α}
    {thread : ι} (now : clients thread = client) :
    Advances exec prog calls s s' clients thread (next answer) := by
  generalize code : Prog.perform action next = p at follows
  cases follows with
  | returned result => cases code
  | @inside call rest action' after short same makes =>
      cases code
      change Advances exec prog calls s s' clients thread
        (after answer >>= fun result => expand prog (rest result))
      cases short with
      | look looks shorter =>
          cases (looks e s).symm.trans acts
          have left : ∀ e s, run (exec e) (after answer) s = run (exec e) (prog call) s := by
            intro e s
            rw [← same, run_perform, looks e s]
          generalize after answer = q at shorter left
          cases q with
          | done result =>
              obtain ⟨client, steps, follows⟩ := client_reaches brief s (makes result)
                (Function.update_self thread (rest result) clients)
              rw [Function.update_idem] at steps
              exact ⟨client, .head (.act thread call rest result now ⟨e, (left e s).symm⟩) steps,
                follows⟩
          | perform action after =>
              refine ⟨.perform call rest, ?_, .inside shorter left makes⟩
              rw [← now, Function.update_eq_self]
      | act settles =>
          obtain ⟨result, settled⟩ := settles e s
          rw [acts] at settled
          have made : run (exec e) (prog call) s = (result, s') := by
            rw [← same, run_perform, acts, settled.run]
          obtain ⟨client, steps, follows⟩ := client_looks brief s' settled (makes result)
            (Function.update_self thread (rest result) clients)
          rw [Function.update_idem] at steps
          exact ⟨client, .head (.act thread call rest result now ⟨e, made⟩) steps, follows⟩
  | @behind A result rest action' after settled makes =>
      cases code
      cases settled with
      | look looks settled =>
          cases (looks e s).symm.trans acts
          exact client_looks brief s settled makes now

include brief in
/-- The run lemma: in every interleaving the clients get from their calls what
they would get if each call were made at once. -/
theorem steps_track {offered : Set (Prog J α)} (makes : ∀ client ∈ offered, Makes calls client)
    {c c' : σ × (ι → Prog I α)} {d : σ × (ι → Prog J α)} (tracks : Tracks exec prog calls c d)
    (steps : Steps (varying exec) (expand prog '' offered) c c') :
    ∃ d', Steps (wholly exec prog) offered d d' ∧ Tracks exec prog calls c' d' := by
  have quiet : ∀ {d d' : σ × (ι → Prog J α)}, Steps (wholly exec prog) ∅ d d' →
      Steps (wholly exec prog) offered d d' := fun steps =>
    steps_mono steps (fun _ _ _ _ _ effect => effect) (Set.empty_subset _)
  induction steps with
  | refl => exact ⟨d, .refl, tracks⟩
  | tail _ step ih =>
      obtain ⟨⟨s, clients⟩, before, tracks⟩ := ih
      cases step with
      | @act s₁ s' pool thread action next answer pending acts =>
          cases (tracks.state : s₁ = s)
          obtain ⟨e, acts⟩ := acts
          have follows : Follows exec prog calls (pool thread) (clients thread) :=
            tracks.threads thread
          rw [pending] at follows
          obtain ⟨d', more, after⟩ := tracks.advance (follows_act brief follows acts rfl)
          exact ⟨d', before.trans (quiet more), after⟩
      | @call s₁ pool thread result p returned offer =>
          cases (tracks.state : s₁ = s)
          obtain ⟨client, inOffer, rfl⟩ := offer
          have started : Step (wholly exec prog) offered (s, clients)
              (s, Function.update clients thread client) :=
            .call thread result client (tracks.returned returned) inOffer
          obtain ⟨client', more, reached⟩ := client_reaches brief s (makes client inOffer)
            (Function.update_self thread client clients)
          rw [Function.update_idem] at more
          refine ⟨_, (before.tail started).trans (quiet more), rfl, fun other => ?_⟩
          by_cases here : other = thread
          · subst here
            simpa using reached
          · simpa [Function.update_of_ne here] using tracks.threads other

end Clients

end Interleave
