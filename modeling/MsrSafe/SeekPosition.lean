import MsrSafe.Entry

/-! `msr_seek` of msr_entry.c, and the position of an open register file along
the calls on it. -/

namespace MsrSafe

open Interleave

abbrev Loff := BitVec 64

def SEEK_SET : Int := 0
def SEEK_CUR : Int := 1

/-- The return value, and what is left in `file->f_pos`. -/
def msrSeek (fPos offset : Loff) (orig : Int) : Loff × Loff :=
  if orig = SEEK_SET then (offset, offset)
  else if orig = SEEK_CUR then (fPos + offset, fPos + offset)
  else (BitVec.ofInt 64 Errno.einval.ret, fPos)

inductive FileCall where
  | seek (offset : Loff) (orig : Int)
  | read (count : Nat) (copied : Bool)
  | write (count : Nat) (copied : Bool) (data : Word)

/-- A call that is over: the position before and after it, what `msr_seek` has
returned, and the actions of `msr_read` or `msr_write`. -/
structure FileEvent where
  before : Loff
  ret : Option Loff
  after : Loff
  actions : List MsrAction

section Calls

variable {σ : Type} (exec : Handler Msr σ) (cpu : Nat)

def fileCall (fPos : Loff) (s : σ) : FileCall → FileEvent × σ
  | .seek offset orig =>
    let (ret, fPos') := msrSeek fPos offset orig
    (⟨fPos, some ret, fPos', []⟩, s)
  | .read count copied =>
    let p := msrRead cpu fPos count copied
    (⟨fPos, none, fPos, actions exec p s⟩, (run exec p s).2)
  | .write count copied data =>
    let p := msrWrite cpu fPos count copied data
    (⟨fPos, none, fPos, actions exec p s⟩, (run exec p s).2)

def fileCalls : List FileCall → Loff → σ → List FileEvent
  | [], _, _ => []
  | call :: calls, fPos, s =>
    let (event, s) := fileCall exec cpu fPos s call
    event :: fileCalls calls event.after s

end Calls

def FileEvent.told (event : FileEvent) (returned : Loff) : Loff :=
  match event.ret with
  | none => returned
  | some ret => if 0 ≤ ret.toInt then ret else returned

def lastReturned (returned : Loff) (events : List FileEvent) : Loff :=
  events.foldl (fun returned event => event.told returned) returned

def Addresses (cpu : Nat) (reg : Addr) : MsrAction → Prop
  | .maskexists reg' => reg' = reg.setWidth 64
  | .writemask reg' => reg' = reg.setWidth 64
  | .rdmsr cpu' reg' => cpu' = cpu ∧ reg' = reg
  | .wrmsr cpu' reg' _ => cpu' = cpu ∧ reg' = reg
  | .batchOp _ _ => False

/-- What is expected of a call on a file when `returned` is the position the user knows of. -/
structure EventLaw (cpu : Nat) (returned : Loff) (event : FileEvent) : Prop where
  failed : ∀ ret, event.ret = some ret → ret.toInt < 0 → event.after = event.before
  succeeded : ∀ ret, event.ret = some ret → 0 ≤ ret.toInt → event.after = ret
  nonnegative : 0 ≤ event.after.toInt
  addressed : ∀ action ∈ event.actions, Addresses cpu (returned.setWidth 32) action

def SeekLaw (cpu : Nat) (returned : Loff) (events : List FileEvent) : Prop :=
  ∀ earlier event later, events = earlier ++ event :: later →
    EventLaw cpu (lastReturned returned earlier) event

def FileCall.target (p : Int) : FileCall → Int
  | .seek offset orig =>
    if orig = SEEK_SET then offset.toInt
    else if orig = SEEK_CUR then p + offset.toInt
    else p
  | .read _ _ => p
  | .write _ _ _ => p

def Stays : Int → List FileCall → Prop
  | _, [] => True
  | p, call :: calls => (0 ≤ call.target p ∧ call.target p < 2 ^ 63) ∧ Stays (call.target p) calls

theorem toInt_lt (p : Loff) : p.toInt < 2 ^ 63 := by
  have bound := BitVec.toInt_lt (x := p)
  omega

theorem toInt_add_offset {p : Loff} (valid : 0 ≤ p.toInt) (offset : Loff) :
    (0 ≤ (p + offset).toInt ↔ 0 ≤ p.toInt + offset.toInt ∧ p.toInt + offset.toInt < 2 ^ 63) ∧
      (0 ≤ (p + offset).toInt → (p + offset).toInt = p.toInt + offset.toInt) := by
  have first := toInt_lt p
  have second := toInt_lt offset
  have least := BitVec.le_toInt offset
  rw [BitVec.toInt_add, Int.bmod_def]
  constructor
  · omega
  · omega

theorem msrSeek_cases (fPos offset : Loff) (orig : Int) :
    (msrSeek fPos offset orig).2 = (msrSeek fPos offset orig).1 ∨
      (msrSeek fPos offset orig).1.toInt < 0 ∧ (msrSeek fPos offset orig).2 = fPos := by
  rw [msrSeek]
  split
  · exact .inl rfl
  · split
    · exact .inl rfl
    · have negative : (BitVec.ofInt 64 Errno.einval.ret).toInt < 0 := by decide
      exact .inr ⟨negative, rfl⟩

theorem eventLaw_seek (cpu : Nat) {fPos ret after : Loff}
    (outcome : after = ret ∨ ret.toInt < 0 ∧ after = fPos) (nonnegative : 0 ≤ after.toInt) :
    EventLaw cpu fPos ⟨fPos, some ret, after, []⟩ ∧
      FileEvent.told ⟨fPos, some ret, after, []⟩ fPos = after := by
  rcases outcome with rfl | ⟨negative, rfl⟩
  · constructor
    · constructor
      · rintro ret ⟨⟩ negative
        exact absurd nonnegative (not_le.mpr negative)
      · rintro ret ⟨⟩ _
        rfl
      · exact nonnegative
      · exact fun action member => absurd member List.not_mem_nil
    · exact if_pos nonnegative
  · constructor
    · constructor
      · exact fun _ _ _ => rfl
      · rintro ret ⟨⟩ positive
        exact absurd positive (not_le.mpr negative)
      · exact nonnegative
      · exact fun action member => absurd member List.not_mem_nil
    · exact if_neg (not_le.mpr negative)

theorem guarded_addresses_msrRead (cpu : Nat) (ppos : Loff) (count : Nat) (copied : Bool) :
    Guarded (Addresses cpu (ppos.setWidth 32)) (fun _ _ => True) (fun _ => True)
      (msrRead cpu ppos count copied) := by
  apply msrRead_guarded cpu ppos count copied
  · rfl
  · exact fun _ _ _ => ⟨rfl, rfl⟩

theorem guarded_addresses_msrWrite (cpu : Nat) (ppos : Loff) (count : Nat) (copied : Bool)
    (data : Word) :
    Guarded (Addresses cpu (ppos.setWidth 32)) (fun _ _ => True) (fun _ => True)
      (msrWrite cpu ppos count copied data) := by
  apply msrWrite_guarded cpu ppos count copied data
  · rfl
  · exact fun _ _ _ => ⟨rfl, rfl⟩
  · exact fun _ _ _ _ _ => ⟨rfl, rfl⟩
  · exact fun _ _ _ => ⟨rfl, rfl⟩

section Step

variable {σ : Type} (exec : Handler Msr σ) (cpu : Nat) {fPos : Loff} (s : σ)

theorem fileCall_after (valid : 0 ≤ fPos.toInt) (call : FileCall) :
    (0 ≤ (fileCall exec cpu fPos s call).1.after.toInt ↔
        0 ≤ call.target fPos.toInt ∧ call.target fPos.toInt < 2 ^ 63) ∧
      (0 ≤ (fileCall exec cpu fPos s call).1.after.toInt →
        (fileCall exec cpu fPos s call).1.after.toInt = call.target fPos.toInt) := by
  have bound := toInt_lt fPos
  cases call with
  | seek offset orig =>
      have limit := toInt_lt offset
      simp only [fileCall, msrSeek, FileCall.target]
      split
      · exact ⟨(and_iff_left limit).symm, fun _ => rfl⟩
      · split
        · exact toInt_add_offset valid offset
        · exact ⟨(and_iff_left bound).symm, fun _ => rfl⟩
  | read count copied => exact ⟨(and_iff_left bound).symm, fun _ => rfl⟩
  | write count copied data => exact ⟨(and_iff_left bound).symm, fun _ => rfl⟩

theorem fileCall_lawful (call : FileCall)
    (nonnegative : 0 ≤ (fileCall exec cpu fPos s call).1.after.toInt) :
    EventLaw cpu fPos (fileCall exec cpu fPos s call).1 ∧
      (fileCall exec cpu fPos s call).1.told fPos = (fileCall exec cpu fPos s call).1.after := by
  cases call with
  | seek offset orig => exact eventLaw_seek cpu (msrSeek_cases fPos offset orig) nonnegative
  | read count copied =>
      refine ⟨⟨?_, ?_, nonnegative, ?_⟩, rfl⟩
      · rintro ret ⟨⟩
      · rintro ret ⟨⟩
      · exact actions_guarded exec (fun _ _ => trivial) _ s
          (guarded_addresses_msrRead cpu fPos count copied)
  | write count copied data =>
      refine ⟨⟨?_, ?_, nonnegative, ?_⟩, rfl⟩
      · rintro ret ⟨⟩
      · rintro ret ⟨⟩
      · exact actions_guarded exec (fun _ _ => trivial) _ s
          (guarded_addresses_msrWrite cpu fPos count copied data)

end Step

theorem seekLaw_cons (cpu : Nat) (returned : Loff) (event : FileEvent) (events : List FileEvent) :
    SeekLaw cpu returned (event :: events) ↔
      EventLaw cpu returned event ∧ SeekLaw cpu (event.told returned) events := by
  constructor
  · intro law
    constructor
    · exact law [] event events rfl
    · intro earlier later rest split
      exact law (event :: earlier) later rest (congrArg (event :: ·) split)
  · rintro ⟨first, law⟩ earlier later rest split
    cases earlier with
    | nil =>
        obtain ⟨rfl, _⟩ := List.cons.inj split
        exact first
    | cons head earlier =>
        obtain ⟨rfl, behind⟩ := List.cons.inj split
        exact law earlier later rest behind

/-- From a position that the user knows of, the law holds along a run exactly
when each seek asks for a position that a file can have. -/
theorem seekLaw_fileCalls_iff {σ : Type} (exec : Handler Msr σ) (cpu : Nat)
    (calls : List FileCall) {fPos : Loff} (valid : 0 ≤ fPos.toInt) (s : σ) :
    SeekLaw cpu fPos (fileCalls exec cpu calls fPos s) ↔ Stays fPos.toInt calls := by
  induction calls generalizing fPos s with
  | nil =>
      apply iff_of_true
      · intro earlier event later split
        cases earlier <;> cases split
      · trivial
  | cons call calls ih =>
      obtain ⟨stays, reached⟩ := fileCall_after exec cpu s valid call
      rw [fileCalls, seekLaw_cons, Stays]
      constructor
      · rintro ⟨first, law⟩
        have next := first.nonnegative
        obtain ⟨_, told⟩ := fileCall_lawful exec cpu s call next
        rw [told, ih next, reached next] at law
        exact ⟨stays.mp next, law⟩
      · rintro ⟨inside, rest⟩
        have next := stays.mpr inside
        obtain ⟨lawful, told⟩ := fileCall_lawful exec cpu s call next
        rw [← reached next] at rest
        rw [told, ih next]
        exact ⟨lawful, rest⟩

/-- On a file that has just been opened. -/
theorem seekLaw_iff_stays {σ : Type} (exec : Handler Msr σ) (cpu : Nat) (calls : List FileCall)
    (s : σ) : SeekLaw cpu 0 (fileCalls exec cpu calls 0 s) ↔ Stays 0 calls :=
  seekLaw_fileCalls_iff exec cpu calls (show 0 ≤ (0 : Loff).toInt by decide) s

/-- A seek to -1 returns an error and leaves the file there. -/
theorem seekLaw_negative :
    ¬SeekLaw 0 0
      (fileCalls
        (kernel (fun _ => some 0) ⟨1, fun _ => true, fun _ _ _ => false, fun _ _ _ _ => false⟩) 0
        [.seek (-1) SEEK_SET, .read 8 true] 0 ⟨fun _ _ => 0, []⟩) := by
  intro law
  have stayed := (law [] _ _ rfl).failed (-1) rfl (by decide)
  exact absurd stayed (by decide)

end MsrSafe
