import MsrSafe.Lib.Interleave

/-! Runs with their history: what the program of a thread does is due to what
the thread has learnt since it was called. -/

namespace Interleave

variable {I : Interface} {α ι σ : Type}

abbrev Event (I : Interface) := (action : I.Action) × I.Answer action

structure Moment (ι : Type) (I : Interface) (σ : Type) where
  thread : ι
  event : Event I
  before : σ
  after : σ

def recording (sem : Semantics ι I σ) : Semantics ι I (σ × List (Moment ι I σ)) :=
  fun thread s action answer s' =>
    sem thread s.1 action answer s'.1 ∧ s'.2 = s.2 ++ [⟨thread, ⟨action, answer⟩, s.1, s'.1⟩]

def Earlier (history : List (Moment ι I σ)) (start stop : Nat) (thread : ι)
    (kind : Moment ι I σ → Prop) : Prop :=
  ∃ index moment, start ≤ index ∧ index < stop ∧ history[index]? = some moment ∧
    moment.thread = thread ∧ kind moment

theorem Earlier.append {history : List (Moment ι I σ)} {start stop : Nat} {thread : ι}
    {kind : Moment ι I σ → Prop} (earlier : Earlier history start stop thread kind)
    (more : List (Moment ι I σ)) : Earlier (history ++ more) start stop thread kind := by
  obtain ⟨index, moment, after, before, here, same, holds⟩ := earlier
  refine ⟨index, moment, after, before, ?_, same, holds⟩
  have inside := (List.getElem?_eq_some_iff.mp here).1
  rw [List.getElem?_append_left inside]
  exact here

theorem Earlier.later {history : List (Moment ι I σ)} {start stop stop' : Nat} {thread : ι}
    {kind : Moment ι I σ → Prop} (earlier : Earlier history start stop thread kind)
    (later : stop ≤ stop') : Earlier history start stop' thread kind := by
  obtain ⟨index, moment, after, before, rest⟩ := earlier
  exact ⟨index, moment, after, before.trans_le later, rest⟩

theorem Earlier.imp {history : List (Moment ι I σ)} {start stop : Nat} {thread : ι}
    {kind kind' : Moment ι I σ → Prop} (earlier : Earlier history start stop thread kind)
    (weaker : ∀ moment, kind moment → kind' moment) :
    Earlier history start stop thread kind' := by
  obtain ⟨index, moment, after, before, here, same, holds⟩ := earlier
  exact ⟨index, moment, after, before, here, same, weaker moment holds⟩

def Learnt (sem : Semantics ι I σ) (history : List (Moment ι I σ)) (start stop : Nat) (thread : ι)
    (past : List (Event I)) : Prop :=
  ∀ event ∈ past, Earlier history start stop thread fun moment =>
    moment.event = event ∧ sem thread moment.before event.1 event.2 moment.after

theorem Learnt.extend {sem : Semantics ι I σ} {history : List (Moment ι I σ)} {start : Nat}
    {thread : ι} {past : List (Event I)}
    (learnt : Learnt sem history start history.length thread past) (more : List (Moment ι I σ)) :
    Learnt sem (history ++ more) start (history ++ more).length thread past := by
  intro event member
  apply ((learnt event member).append more).later
  rw [List.length_append]
  exact Nat.le_add_right _ _

/-- The thread was allowed each of its actions since `start` after what it had
learnt since `start`. -/
def Accounted (sem : Semantics ι I σ) (allowed : List (Event I) → I.Action → Prop)
    (history : List (Moment ι I σ)) (start : Nat) (thread : ι) : Prop :=
  ∀ index moment, start ≤ index → history[index]? = some moment → moment.thread = thread →
    ∃ past, Learnt sem history start index thread past ∧ allowed past moment.event.1

section Account

variable {sem : Semantics ι I σ} {allowed : List (Event I) → I.Action → Prop}
  {history : List (Moment ι I σ)} {start : Nat} {thread : ι}

theorem Accounted.append (accounted : Accounted sem allowed history start thread)
    {latest : Moment ι I σ}
    (now : latest.thread = thread → ∃ past, Learnt sem history start history.length thread past ∧
      allowed past latest.event.1) :
    Accounted sem allowed (history ++ [latest]) start thread := by
  intro index moment after here same
  by_cases earlier : index < history.length
  · rw [List.getElem?_append_left earlier] at here
    obtain ⟨past, learnt, permission⟩ := accounted index moment after here same
    exact ⟨past, fun event member => (learnt event member).append _, permission⟩
  · have last : index = history.length := by
      have inside := (List.getElem?_eq_some_iff.mp here).1
      rw [List.length_append, List.length_singleton] at inside
      omega
    subst last
    rw [List.getElem?_concat_length] at here
    cases here
    obtain ⟨past, learnt, permission⟩ := now same
    exact ⟨past, fun event member => (learnt event member).append _, permission⟩

variable {calls : Set (Prog I α)}

variable [DecidableEq ι]

end Account

end Interleave
