import MsrSafe.MsrsaveLines

/-! The loops of `msr_parse_allowlist` on the buffer with its terminator: which
bytes they look at, and where `allowlist_ptr` points when a turn starts. -/

namespace MsrSafe

open Lines

/-- `allowlist_buffer + offset`, or a pointer made from a number. -/
inductive CharPtr where
  | buffer (offset : Nat)
  | address (value : Nat)
  deriving DecidableEq

def CharPtr.null : CharPtr := .address 0

def CharPtr.next : CharPtr → CharPtr
  | .buffer offset => .buffer (offset + 1)
  | .address value => .address (value + 1)

inductive ListEvent where
  | deref (ptr : CharPtr)
  | turn (i : BitVec 32) (ptr : CharPtr)
  | next (i : BitVec 32) (ptr : CharPtr)

section Loops

variable (buffer : List UInt8)

/-- `*ptr`; outside of the buffer nothing is known of it. -/
def load : CharPtr → UInt8
  | .buffer offset => buffer.getD offset nul
  | .address _ => nul

def seen (goesOn : UInt8 → Bool) : CharPtr → List ListEvent
  | .buffer offset =>
    (List.range' offset (Scan.past goesOn buffer offset + 1 - offset)).map (.deref <| .buffer ·)
  | .address value => [.deref (.address value)]

def inLine (c : UInt8) : Bool := c != newline && c != nul

def strchrNewline : CharPtr → CharPtr
  | .buffer offset =>
    let stop := Scan.past inLine buffer offset
    if buffer.getD stop nul = newline then .buffer stop else .null
  | .address _ => .null

/-- `sscanf` measures the string first, so it looks at `seen (· != nul) ptr`. -/
def sscanfEntry : CharPtr → Option AllowlistEntry
  | .buffer offset => scanEntry (cstring buffer offset)
  | .address _ => none

def countLoop : Nat → CharPtr → BitVec 64 → Option (List ListEvent × BitVec 64)
  | 0, _, _ => none
  | fuel + 1, ptr, numMsr =>
    if ptr = .null then some ([], numMsr)
    else if load buffer ptr = nul then some ([.deref ptr], numMsr)
    else
      let numMsr := if load buffer ptr ≠ hash then numMsr + 1 else numMsr
      let found := strchrNewline buffer ptr
      match countLoop fuel (if found = .null then found else found.next) numMsr with
      | none => none
      | some (events, numMsr) =>
        some (.deref ptr :: .deref ptr :: seen buffer inLine ptr ++ events, numMsr)

def commentLoop : Nat → CharPtr → Option (List ListEvent × Option CharPtr)
  | 0, _ => none
  | fuel + 1, ptr =>
    if load buffer ptr = hash then
      let found := strchrNewline buffer ptr
      if found = .null then some (.deref ptr :: seen buffer inLine ptr, none)
      else
        match commentLoop fuel found.next with
        | none => none
        | some (events, behind) => some (.deref ptr :: seen buffer inLine ptr ++ events, behind)
    else some ([.deref ptr], some ptr)

/-- `i` is an `int` and is compared as a `size_t`. -/
def parseLoop (numMsr : BitVec 64) :
    Nat → BitVec 32 → CharPtr → Option (List ListEvent × Except Failure (List AllowlistEntry))
  | 0, _, _ => none
  | fuel + 1, i, ptr =>
    if (i.signExtend 64).ult numMsr then
      match commentLoop buffer (buffer.length + 1) ptr with
      | none => none
      | some (comments, none) => some (.turn i ptr :: comments, .error .minusOne)
      | some (comments, some ptr') =>
        let looks := comments ++ seen buffer (· != nul) ptr'
        match sscanfEntry buffer ptr' with
        | none => some (.turn i ptr :: looks, .error .minusOne)
        | some entry =>
          let next := (strchrNewline buffer ptr').next
          let looks := looks ++ seen buffer inLine ptr'
          if next = .null then some (.turn i ptr :: (looks ++ [.next i next]), .error .minusOne)
          else
            match parseLoop numMsr fuel (i + 1) next with
            | none => none
            | some (later, .error failure) =>
              some (.turn i ptr :: (looks ++ .next i next :: later), .error failure)
            | some (later, .ok entries) =>
              some (.turn i ptr :: (looks ++ .next i next :: later), .ok (entry :: entries))
    else some ([], .ok [])

end Loops

structure ListRun where
  counting : List ListEvent
  numMsr : BitVec 64
  parsing : List ListEvent
  result : Except Failure (List AllowlistEntry)

def listLoops (text : List UInt8) : Option ListRun :=
  let buffer := text ++ [nul]
  match countLoop buffer (buffer.length + 1) (.buffer 0) 0 with
  | none => none
  | some (counting, numMsr) =>
    match parseLoop buffer numMsr (buffer.length + 1) 0 (.buffer 0) with
    | none => none
    | some (parsing, result) => some ⟨counting, numMsr, parsing, result⟩

def InString (str : List UInt8) : CharPtr → Prop
  | .buffer offset => offset ≤ str.length
  | .address _ => False

def LineStart (text : List UInt8) (offset : Nat) : Prop :=
  offset = 0 ∨ ∃ before, offset = before + 1 ∧ text[before]? = some newline

/-- What is expected of the two loops; the string ends at the first NUL. -/
structure LoopsSafe (text : List UInt8) (run : ListRun) : Prop where
  counted : run.numMsr.toNat = (entryLines (visibleText text)).length
  counting : ∀ ptr, .deref ptr ∈ run.counting → InString (visibleText text) ptr
  parsing : ∀ ptr, .deref ptr ∈ run.parsing → InString (visibleText text) ptr
  turns : ∀ i ptr, .turn i ptr ∈ run.parsing →
    ∃ offset, ptr = .buffer offset ∧ LineStart (visibleText text) offset ∧
      i.toNat + (entryLines ((visibleText text).drop offset)).length = run.numMsr.toNat
  wild : ∀ i value, .next i (.address value) ∈ run.parsing →
    i.toNat + 1 = run.numMsr.toNat ∧
      ∃ earlier, run.parsing = earlier ++ [.next i (.address value)]

section Buffer

variable {str more : List UInt8}

structure RestAt (str : List UInt8) (offset : Nat) (s : List UInt8) : Prop where
  bound : offset ≤ str.length
  rest : str.drop offset = s

theorem RestAt.drop {offset : Nat} {s : List UInt8} (here : RestAt str offset s)
    (more : List UInt8) : (str ++ nul :: more).drop offset = s ++ nul :: more := by
  rw [List.drop_append_of_le_length here.bound, here.rest]

theorem RestAt.length {offset : Nat} {s : List UInt8} (here : RestAt str offset s) :
    offset + s.length = str.length := by
  rw [← here.rest, List.length_drop]
  exact Nat.add_sub_of_le here.bound

theorem RestAt.line {offset : Nat} {run rest : List UInt8}
    (here : RestAt str offset (run ++ newline :: rest)) :
    RestAt str (offset + run.length + 1) rest where
  bound := by
    have length := here.length
    rw [List.length_append, List.length_cons] at length
    omega
  rest := by
    rw [Nat.add_assoc, ← List.drop_drop, here.rest, ← List.drop_drop, List.drop_left,
      List.drop_one, List.tail_cons]

theorem RestAt.lineStart {offset : Nat} {run rest : List UInt8}
    (here : RestAt str offset (run ++ newline :: rest)) :
    LineStart str (offset + run.length + 1) := by
  refine .inr ⟨offset + run.length, rfl, ?_⟩
  rw [← List.getElem?_drop, here.rest, List.getElem?_append_right (Nat.le_refl _), Nat.sub_self]
  rfl

theorem RestAt.load {offset : Nat} {s : List UInt8} (here : RestAt str offset s) :
    load (str ++ nul :: more) (.buffer offset) = s.getD 0 nul := by
  have behind := here.drop more
  rw [MsrSafe.load]
  cases s with
  | nil => exact Scan.getD_of_drop nul behind
  | cons c s => exact Scan.getD_of_drop nul behind

theorem RestAt.past {offset : Nat} {s : List UInt8} (here : RestAt str offset s)
    {goesOn : UInt8 → Bool} (stop : goesOn nul = false) :
    Scan.past goesOn (str ++ nul :: more) offset = offset + (s.takeWhile goesOn).length := by
  rw [Scan.past, here.drop more, Scan.takeWhile_terminated goesOn s more nul stop]

def Inside (str : List UInt8) (events : List ListEvent) : Prop :=
  ∀ event ∈ events, ∃ offset ≤ str.length, event = .deref (.buffer offset)

variable (more) in
theorem RestAt.seen {offset : Nat} {s : List UInt8} (here : RestAt str offset s)
    (goesOn : UInt8 → Bool) (stop : goesOn nul = false) :
    Inside str (seen (str ++ nul :: more) goesOn (.buffer offset)) := by
  intro event member
  obtain ⟨at_byte, range, rfl⟩ := List.mem_map.mp member
  have shorter : (s.takeWhile goesOn).length ≤ s.length := (List.takeWhile_prefix _).length_le
  have length := here.length
  rw [here.past stop, List.mem_range'_1] at range
  exact ⟨at_byte, by omega, rfl⟩

theorem RestAt.clean {offset : Nat} {s : List UInt8} (here : RestAt str offset s)
    (clean : nul ∉ str) : nul ∉ s := by
  intro member
  rw [← here.rest] at member
  exact clean (List.mem_of_mem_drop member)

theorem takeWhile_inLine {run : List UInt8} (absent : newline ∉ run) (clean : nul ∉ run) :
    ∀ c ∈ run, inLine c = true := by
  intro c member
  rw [inLine, Bool.and_eq_true, bne_iff_ne, bne_iff_ne]
  exact ⟨fun same => absent (same ▸ member), fun same => clean (same ▸ member)⟩

theorem RestAt.strchr_line {offset : Nat} {run rest : List UInt8}
    (here : RestAt str offset (run ++ newline :: rest)) (clean : nul ∉ str)
    (absent : newline ∉ run) :
    strchrNewline (str ++ nul :: more) (.buffer offset) = .buffer (offset + run.length) := by
  have free : nul ∉ run :=
    fun member => here.clean clean (List.mem_append_left (newline :: rest) member)
  have stop : Scan.past inLine (str ++ nul :: more) offset = offset + run.length := by
    rw [here.past rfl, List.takeWhile_append_of_pos (takeWhile_inLine absent free),
      List.takeWhile_cons_of_neg (by decide), List.append_nil]
  have found : (str ++ nul :: more).drop (offset + run.length) =
      newline :: (rest ++ nul :: more) := by
    rw [← List.drop_drop, here.drop more, List.append_assoc, List.drop_left, List.cons_append]
  rw [strchrNewline, stop, if_pos (Scan.getD_of_drop nul found)]

theorem RestAt.strchr_last {offset : Nat} {run : List UInt8} (here : RestAt str offset run)
    (clean : nul ∉ str) (absent : newline ∉ run) :
    strchrNewline (str ++ nul :: more) (.buffer offset) = .null := by
  have inside := takeWhile_inLine absent (here.clean clean)
  have stop : Scan.past inLine (str ++ nul :: more) offset = offset + run.length := by
    rw [here.past rfl, List.takeWhile_eq_self_iff.mpr inside]
  have found : (str ++ nul :: more).drop (offset + run.length) = nul :: more := by
    rw [← List.drop_drop, here.drop more, List.drop_left]
  rw [strchrNewline, stop, Scan.getD_of_drop nul found]
  exact if_neg (by decide)

theorem RestAt.sscanf {offset : Nat} {s : List UInt8} (here : RestAt str offset s)
    (clean : nul ∉ str) :
    sscanfEntry (str ++ nul :: more) (.buffer offset) = scanEntry s := by
  have whole : s.takeWhile (· != nul) = s := by
    rw [List.takeWhile_eq_self_iff]
    exact fun c member => bne_iff_ne.mpr fun same => here.clean clean (same ▸ member)
  rw [sscanfEntry, cstring, here.drop more, Scan.takeWhile_terminated _ s more nul rfl, whole]

/-! ## The counting loop -/

theorem inside_nil : Inside str [] := fun _ member => absurd member List.not_mem_nil

theorem inside_append {first second : List ListEvent} (inside_first : Inside str first)
    (inside_second : Inside str second) : Inside str (first ++ second) :=
  List.forall_mem_append.mpr ⟨inside_first, inside_second⟩

theorem RestAt.inside {offset : Nat} {s : List UInt8} (here : RestAt str offset s)
    {events : List ListEvent} (inside : Inside str events) :
    Inside str (.deref (.buffer offset) :: events) :=
  List.forall_mem_cons.mpr ⟨⟨offset, here.bound, rfl⟩, inside⟩

theorem countLoop_turn {offset : Nat} {s : List UInt8} (here : RestAt str offset s)
    (clean : nul ∉ str) (nonempty : s ≠ []) (fuel : Nat) (numMsr : BitVec 64) :
    countLoop (str ++ nul :: more) (fuel + 1) (.buffer offset) numMsr =
      let found := strchrNewline (str ++ nul :: more) (.buffer offset)
      match countLoop (str ++ nul :: more) fuel (if found = .null then found else found.next)
        (if isEntry s then numMsr + 1 else numMsr) with
      | none => none
      | some (events, numMsr) =>
        some (.deref (.buffer offset) :: .deref (.buffer offset) ::
          seen (str ++ nul :: more) inLine (.buffer offset) ++ events, numMsr) := by
  have free := here.clean clean
  cases s with
  | nil => exact absurd rfl nonempty
  | cons c s =>
      have some_byte : c ≠ nul := fun same => free (same ▸ List.mem_cons_self)
      rw [countLoop, if_neg (by simp [CharPtr.null]), here.load, List.getD_cons_zero,
        if_neg some_byte, isEntry_cons]
      simp only [decide_eq_true_eq]

variable (more) in
theorem countLoop_spec (clean : nul ∉ str) (s : List UInt8) :
    ∀ (offset fuel : Nat) (numMsr : BitVec 64), RestAt str offset s → s.length < fuel →
      ∃ events, countLoop (str ++ nul :: more) fuel (.buffer offset) numMsr =
          some (events, numMsr + BitVec.ofNat 64 (entryLines s).length) ∧ Inside str events := by
  induction s using line_induction newline with
  | nil =>
      intro offset fuel numMsr here enough
      obtain ⟨fuel, rfl⟩ := Nat.exists_eq_add_of_le' (show 1 ≤ fuel from enough)
      apply Exists.intro [.deref (.buffer offset)]
      constructor
      · rw [countLoop, if_neg (by simp [CharPtr.null]), here.load]
        exact congrArg (fun n => some (_, n)) (BitVec.add_zero numMsr).symm
      · exact here.inside inside_nil
  | last run nonempty absent =>
      intro offset fuel numMsr here enough
      have some_byte := List.length_pos_iff.mpr nonempty
      obtain ⟨fuel, rfl⟩ := Nat.exists_eq_add_of_le' (show 2 ≤ fuel by omega)
      rw [countLoop_turn here clean nonempty, here.strchr_last clean absent,
        entryLines_last nonempty absent]
      apply Exists.intro (.deref (.buffer offset) :: .deref (.buffer offset) ::
        seen (str ++ nul :: more) inLine (.buffer offset) ++ [])
      constructor
      · cases isEntry run with
        | false => exact congrArg (fun n => some (_, n)) (BitVec.add_zero numMsr).symm
        | true => rfl
      · exact here.inside (here.inside (inside_append (here.seen more inLine rfl) inside_nil))
  | line run rest absent ih =>
      intro offset fuel numMsr here enough
      rw [List.length_append, List.length_cons] at enough
      obtain ⟨fuel, rfl⟩ := Nat.exists_eq_add_of_le' (show 1 ≤ fuel by omega)
      obtain ⟨events, counted, inside⟩ := ih (offset + run.length + 1) fuel
        (if isEntry (run ++ newline :: rest) then numMsr + 1 else numMsr) here.line (by omega)
      rw [countLoop_turn here clean (by simp), here.strchr_line clean absent]
      dsimp only
      rw [if_neg (by simp [CharPtr.null]), CharPtr.next, counted]
      apply Exists.intro (.deref (.buffer offset) :: .deref (.buffer offset) ::
        seen (str ++ nul :: more) inLine (.buffer offset) ++ events)
      constructor
      · have added : (if isEntry run then numMsr + 1 else numMsr) +
              BitVec.ofNat 64 (entryLines rest).length =
            numMsr + BitVec.ofNat 64 ((if isEntry run then [run] else []) ++
              entryLines rest).length := by
          rw [List.length_append, BitVec.ofNat_add, ← BitVec.add_assoc]
          cases isEntry run with
          | false => exact congrArg (· + _) (BitVec.add_zero numMsr).symm
          | true => rfl
        rw [isEntry_line, entryLines_line rest absent]
        exact congrArg (fun n => some (_, n)) added
      · exact here.inside (here.inside (inside_append (here.seen more inLine rfl) inside))

/-! ## The parsing loop -/

theorem commentLoop_entry {offset : Nat} {s : List UInt8} (here : RestAt str offset s)
    (entry : isEntry s = true) (fuel : Nat) :
    commentLoop (str ++ nul :: more) (fuel + 1) (.buffer offset) =
      some ([.deref (.buffer offset)], some (.buffer offset)) := by
  rw [commentLoop, if_neg]
  intro comment
  rw [here.load] at comment
  rw [isEntry_eq_false.mpr comment] at entry
  cases entry

variable (more) in
theorem commentLoop_spec (clean : nul ∉ str) (s : List UInt8) :
    ∀ offset fuel : Nat, RestAt str offset s → s.length < fuel → entryLines s ≠ [] →
      ∃ events offset' s', commentLoop (str ++ nul :: more) fuel (.buffer offset) =
          some (events, some (.buffer offset')) ∧ Inside str events ∧ RestAt str offset' s' ∧
        isEntry s' = true ∧ s' ≠ [] ∧ entryStarts s' = entryStarts s := by
  induction s using line_induction newline with
  | nil => exact fun _ _ _ _ some_line => absurd rfl some_line
  | last run nonempty absent =>
      intro offset fuel here enough some_line
      obtain ⟨fuel, rfl⟩ := Nat.exists_eq_add_of_le' (show 1 ≤ fuel by omega)
      cases entry : isEntry run with
      | false =>
          rw [entryLines_last nonempty absent, entry] at some_line
          exact absurd rfl some_line
      | true =>
          exact ⟨_, offset, run, commentLoop_entry here entry fuel, here.inside inside_nil, here,
            entry, nonempty, rfl⟩
  | line run rest absent ih =>
      intro offset fuel here enough some_line
      rw [List.length_append, List.length_cons] at enough
      obtain ⟨fuel, rfl⟩ := Nat.exists_eq_add_of_le' (show 1 ≤ fuel by omega)
      cases entry : isEntry run with
      | true =>
          rw [← isEntry_line run rest] at entry
          exact ⟨_, offset, _, commentLoop_entry here entry fuel, here.inside inside_nil, here,
            entry, by simp, rfl⟩
      | false =>
          rw [entryLines_line rest absent, entry] at some_line
          obtain ⟨events, offset', s', behind, inside, there, entry', nonempty, same⟩ :=
            ih (offset + run.length + 1) fuel here.line (by omega) some_line
          have comment : load (str ++ nul :: more) (.buffer offset) = hash := by
            rw [here.load, ← isEntry_eq_false, isEntry_line, entry]
          refine ⟨.deref (.buffer offset) :: seen (str ++ nul :: more) inLine (.buffer offset) ++
            events, offset', s', ?_, here.inside
            (inside_append (here.seen more inLine rfl) inside), there, entry', nonempty, ?_⟩
          · rw [commentLoop, if_pos comment, here.strchr_line clean absent]
            dsimp only
            rw [if_neg (by simp [CharPtr.null]), CharPtr.next, behind]
          · rw [same, entryStarts_line rest absent, entry]
            rfl

structure ParsingSafe (str : List UInt8) (numMsr : BitVec 64) (events : List ListEvent) :
    Prop where
  parsing : ∀ ptr, .deref ptr ∈ events → InString str ptr
  turns : ∀ i ptr, .turn i ptr ∈ events →
    ∃ offset, ptr = .buffer offset ∧ LineStart str offset ∧
      i.toNat + (entryLines (str.drop offset)).length = numMsr.toNat
  wild : ∀ i value, .next i (.address value) ∈ events →
    i.toNat + 1 = numMsr.toNat ∧ ∃ earlier, events = earlier ++ [.next i (.address value)]

section Events

variable {numMsr : BitVec 64}

theorem parsingSafe_nil : ParsingSafe str numMsr [] := by
  constructor
  · exact fun _ member => absurd member List.not_mem_nil
  · exact fun _ _ member => absurd member List.not_mem_nil
  · exact fun _ _ member => absurd member List.not_mem_nil

theorem parsingSafe_next (i : BitVec 32) (offset : Nat) {later : List ListEvent}
    (safe : ParsingSafe str numMsr later) :
    ParsingSafe str numMsr (.next i (.buffer offset) :: later) := by
  constructor
  · intro ptr member
    rcases List.mem_cons.mp member with same | behind
    · cases same
    · exact safe.parsing ptr behind
  · intro i' ptr member
    rcases List.mem_cons.mp member with same | behind
    · cases same
    · exact safe.turns i' ptr behind
  · intro i' value member
    rcases List.mem_cons.mp member with same | behind
    · cases same
    · obtain ⟨last, earlier, shape⟩ := safe.wild i' value behind
      exact ⟨last, .next i (.buffer offset) :: earlier, congrArg (List.cons _) shape⟩

theorem parsingSafe_wild {i : BitVec 32} (value : Nat) (last : i.toNat + 1 = numMsr.toNat) :
    ParsingSafe str numMsr [.next i (.address value)] := by
  constructor
  · intro ptr member
    cases List.mem_singleton.mp member
  · intro i' ptr member
    cases List.mem_singleton.mp member
  · intro i' value' member
    cases List.mem_singleton.mp member
    exact ⟨last, [], rfl⟩

theorem parsingSafe_turn {i : BitVec 32} {offset : Nat} {s : List UInt8}
    (here : RestAt str offset s) (start : LineStart str offset)
    (remaining : i.toNat + (entryLines s).length = numMsr.toNat) {looks later : List ListEvent}
    (inside : Inside str looks) (safe : ParsingSafe str numMsr later) :
    ParsingSafe str numMsr (.turn i (.buffer offset) :: (looks ++ later)) := by
  have behind : ∀ event, event ∈ ListEvent.turn i (.buffer offset) :: (looks ++ later) →
      event = .turn i (.buffer offset) ∨
        (∃ at_byte ≤ str.length, event = .deref (.buffer at_byte)) ∨ event ∈ later := by
    intro event member
    rcases List.mem_cons.mp member with same | tail
    · exact .inl same
    · rcases List.mem_append.mp tail with look | last
      · exact .inr (.inl (inside event look))
      · exact .inr (.inr last)
  constructor
  · intro ptr member
    rcases behind _ member with same | ⟨at_byte, bound, same⟩ | last
    · cases same
    · cases same
      exact bound
    · exact safe.parsing ptr last
  · intro i' ptr member
    rcases behind _ member with same | ⟨at_byte, bound, same⟩ | last
    · cases same
      rw [← here.rest] at remaining
      exact ⟨offset, rfl, start, remaining⟩
    · cases same
    · exact safe.turns i' ptr last
  · intro i' value member
    rcases behind _ member with same | ⟨at_byte, bound, same⟩ | last
    · cases same
    · cases same
    · obtain ⟨ended, earlier, shape⟩ := safe.wild i' value last
      refine ⟨ended, .turn i (.buffer offset) :: (looks ++ earlier), ?_⟩
      rw [List.cons_append, List.append_assoc, ← shape]

end Events

theorem ult_numMsr {i : BitVec 32} (numMsr : BitVec 64) (small : i.toNat < 2 ^ 31) :
    (i.signExtend 64).ult numMsr = decide (i.toNat < numMsr.toNat) := by
  have positive : i.msb = false := by
    rw [BitVec.msb_eq_decide, decide_eq_false_iff_not]
    omega
  rw [BitVec.signExtend_eq_setWidth_of_msb_false positive, BitVec.ult,
    BitVec.toNat_setWidth_of_le (by decide)]

theorem toNat_next {i : BitVec 32} (small : i.toNat < 2 ^ 31) : (i + 1).toNat = i.toNat + 1 := by
  have one : (1 : BitVec 32).toNat = 1 := rfl
  rw [BitVec.toNat_add, one, Nat.mod_eq_of_lt (by omega)]

theorem parseLoop_end {numMsr : BitVec 64} {i : BitVec 32} (small : i.toNat < 2 ^ 31)
    (done : i.toNat = numMsr.toNat) (fuel : Nat) (ptr : CharPtr) :
    parseLoop (str ++ nul :: more) numMsr (fuel + 1) i ptr = some ([], .ok []) := by
  rw [parseLoop, ult_numMsr numMsr small, if_neg]
  rw [decide_eq_true_eq]
  omega

/-! A turn at the start of a line, with the comments behind it passed over. -/

section Turn

variable {numMsr : BitVec 64} {i : BitVec 32} {offset offset' : Nat} {s s' : List UInt8}
  {comments : List ListEvent}

theorem parseLoop_unread (clean : nul ∉ str) (here : RestAt str offset s)
    (start : LineStart str offset) (lines_left : i.toNat + (entryLines s).length = numMsr.toNat)
    (goes_on : (i.signExtend 64).ult numMsr = true)
    (behind : commentLoop (str ++ nul :: more) ((str ++ nul :: more).length + 1)
      (.buffer offset) = some (comments, some (.buffer offset')))
    (inside : Inside str comments) (there : RestAt str offset' s')
    (missing : scanEntry s' = none) (fuel : Nat) :
    ∃ events, parseLoop (str ++ nul :: more) numMsr (fuel + 1) i (.buffer offset) =
      some (events, .error .minusOne) ∧ ParsingSafe str numMsr events := by
  have looks := inside_append inside (there.seen more (· != nul) rfl)
  have safe := parsingSafe_turn here start lines_left looks parsingSafe_nil
  rw [List.append_nil] at safe
  rw [parseLoop, if_pos goes_on, behind]
  dsimp only
  rw [there.sscanf clean, missing]
  exact ⟨_, rfl, safe⟩

theorem parseLoop_read (clean : nul ∉ str) (here : RestAt str offset s)
    (start : LineStart str offset) (lines_left : i.toNat + (entryLines s).length = numMsr.toNat)
    (goes_on : (i.signExtend 64).ult numMsr = true)
    (behind : commentLoop (str ++ nul :: more) ((str ++ nul :: more).length + 1)
      (.buffer offset) = some (comments, some (.buffer offset')))
    (inside : Inside str comments) (there : RestAt str offset' s') {e : AllowlistEntry}
    (read : scanEntry s' = some e) {fuel : Nat} {next : CharPtr} {later : List ListEvent}
    {result : Except Failure (List AllowlistEntry)}
    (found : (strchrNewline (str ++ nul :: more) (.buffer offset')).next = next)
    (valid : next ≠ .null)
    (rest : parseLoop (str ++ nul :: more) numMsr fuel (i + 1) next = some (later, result))
    (safe : ParsingSafe str numMsr (.next i next :: later)) :
    ∃ events, parseLoop (str ++ nul :: more) numMsr (fuel + 1) i (.buffer offset) =
      some (events, consEntry (some e) result) ∧ ParsingSafe str numMsr events := by
  have looks := inside_append inside (there.seen more (· != nul) rfl)
  have looks_on := inside_append looks (there.seen more inLine rfl)
  have safe_turn := parsingSafe_turn here start lines_left looks_on safe
  rw [parseLoop, if_pos goes_on, behind]
  dsimp only
  rw [there.sscanf clean, read]
  dsimp only
  rw [found, if_neg valid, rest]
  refine ⟨_, ?_, safe_turn⟩
  cases result <;> rfl

end Turn

variable (more) in
/-- From the start of a line on, the loop reads at the starts of the lines that
are no comments, as many as are left. -/
theorem parseLoop_spec (clean : nul ∉ str) (numMsr : BitVec 64) (small : numMsr.toNat < 2 ^ 31)
    (count : Nat) :
    ∀ (offset : Nat) (s : List UInt8) (fuel : Nat) (i : BitVec 32), RestAt str offset s →
      LineStart str offset → (entryStarts s).length = count → i.toNat + count = numMsr.toNat →
      count < fuel →
      ∃ events, parseLoop (str ++ nul :: more) numMsr fuel i (.buffer offset) =
          some (events, parseStarts (entryStarts s)) ∧ ParsingSafe str numMsr events := by
  induction count with
  | zero =>
      intro offset s fuel i here start counted remaining enough
      obtain ⟨fuel, rfl⟩ := Nat.exists_eq_add_of_le' enough
      rw [List.eq_nil_of_length_eq_zero counted]
      exact ⟨[], parseLoop_end (by omega) remaining fuel _, parsingSafe_nil⟩
  | succ count ih =>
      intro offset s fuel i here start counted remaining enough
      obtain ⟨fuel, rfl⟩ := Nat.exists_eq_add_of_le' (show 1 ≤ fuel by omega)
      have some_line : entryLines s ≠ [] := by
        intro none_left
        rw [length_entryStarts, none_left] at counted
        cases counted
      have lines_left : i.toNat + (entryLines s).length = numMsr.toNat := by
        rw [← length_entryStarts, counted, remaining]
      have short : s.length < (str ++ nul :: more).length + 1 := by
        have length := here.length
        rw [List.length_append]
        omega
      have goes_on : (i.signExtend 64).ult numMsr = true := by
        rw [ult_numMsr numMsr (by omega), decide_eq_true_eq]
        omega
      obtain ⟨comments, offset', s', behind, inside, there, entry, nonempty, same⟩ :=
        commentLoop_spec more clean s offset _ here short some_line
      rw [← same] at counted ⊢
      by_cases ended : newline ∈ s'
      · obtain ⟨run, rest, rfl, absent⟩ := List.eq_append_cons_of_mem ended
        rw [isEntry_line] at entry
        rw [entryStarts_line rest absent, if_pos entry, List.singleton_append] at counted ⊢
        rw [parseStarts_cons]
        cases read : scanEntry (run ++ newline :: rest) with
        | none =>
            exact parseLoop_unread clean here start lines_left goes_on behind inside there read fuel
        | some e =>
            have next_turn : (i + 1).toNat + count = numMsr.toNat := by
              rw [toNat_next (by omega)]
              omega
            obtain ⟨later, parsed, safe⟩ := ih (offset' + run.length + 1) rest fuel (i + 1)
              there.line there.lineStart (Nat.succ.inj counted) next_turn (by omega)
            apply parseLoop_read clean here start lines_left goes_on behind inside there read _ _
              parsed (parsingSafe_next i _ safe)
            · rw [there.strchr_line clean absent, CharPtr.next]
            · simp [CharPtr.null]
      · -- the line has no end, so the text has none behind it
        rw [entryStarts_last nonempty ended, if_pos entry] at counted ⊢
        rw [parseStarts_cons]
        cases read : scanEntry s' with
        | none =>
            exact parseLoop_unread clean here start lines_left goes_on behind inside there read fuel
        | some e =>
            have last : i.toNat + 1 = numMsr.toNat := by
              rw [List.length_singleton] at counted
              omega
            obtain ⟨fuel, rfl⟩ := Nat.exists_eq_add_of_le' (show 1 ≤ fuel by omega)
            have finished : (i + 1).toNat = numMsr.toNat := by
              rw [toNat_next (by omega)]
              exact last
            apply parseLoop_read clean here start lines_left goes_on behind inside there read _ _
              (parseLoop_end (by omega) finished fuel _) (parsingSafe_wild 1 last)
            · rw [there.strchr_last clean ended, CharPtr.null, CharPtr.next]
            · decide

end Buffer

theorem nul_not_mem_visibleText (text : List UInt8) : nul ∉ visibleText text := by
  intro member
  have visible := List.mem_takeWhile_imp (p := (· != nul)) member
  exact bne_iff_ne.mp visible rfl

theorem length_entryLines_le (s : List UInt8) : (entryLines s).length ≤ s.length := by
  induction s using line_induction newline with
  | nil => exact Nat.le_refl 0
  | last run nonempty absent =>
      have some_byte := List.length_pos_iff.mpr nonempty
      rw [entryLines_last nonempty absent]
      split
      · exact some_byte
      · exact Nat.zero_le _
  | line run rest absent ih =>
      rw [entryLines_line rest absent, List.length_append, List.length_append, List.length_cons]
      split
      · rw [List.length_singleton]
        omega
      · rw [List.length_nil]
        omega

theorem buffer_eq (text : List UInt8) :
    ∃ more, text ++ [nul] = visibleText text ++ nul :: more := by
  obtain ⟨behind, split, rfl | ⟨w, rfl⟩⟩ := visibleText_append text
  · refine ⟨[], ?_⟩
    rw [List.append_nil] at split
    rw [← split]
  · refine ⟨w ++ [nul], ?_⟩
    calc
      text ++ [nul] = visibleText text ++ nul :: w ++ [nul] := congrArg (· ++ [nul]) split
      _ = visibleText text ++ nul :: (w ++ [nul]) := List.append_assoc _ _ _

theorem listLoops_spec (text : List UInt8) (small : text.length < 2 ^ 31) :
    ∃ run, listLoops text = some run ∧ LoopsSafe text run ∧
      run.result = parseStarts (entryStarts (visibleText text)) := by
  obtain ⟨more, buffer⟩ := buffer_eq text
  have clean := nul_not_mem_visibleText text
  have shorter : (visibleText text).length ≤ text.length := (List.takeWhile_prefix _).length_le
  have size : (text ++ [nul]).length = text.length + 1 := List.length_append
  have here : RestAt (visibleText text) 0 (visibleText text) := ⟨Nat.zero_le _, List.drop_zero⟩
  obtain ⟨counting, counted, inside⟩ := countLoop_spec more clean (visibleText text) 0
    ((text ++ [nul]).length + 1) 0 here (by omega)
  have from_zero : 0 + BitVec.ofNat 64 (entryLines (visibleText text)).length =
      BitVec.ofNat 64 (entryLines (visibleText text)).length := BitVec.zero_add _
  rw [from_zero] at counted
  have lines := length_entryLines_le (visibleText text)
  have numMsr : (BitVec.ofNat 64 (entryLines (visibleText text)).length).toNat =
      (entryLines (visibleText text)).length := by
    rw [BitVec.toNat_ofNat, Nat.mod_eq_of_lt (by omega)]
  have all_left : (0 : BitVec 32).toNat + (entryStarts (visibleText text)).length =
      (BitVec.ofNat 64 (entryLines (visibleText text)).length).toNat := by
    rw [numMsr, length_entryStarts]
    exact Nat.zero_add _
  have enough : (entryStarts (visibleText text)).length < (text ++ [nul]).length + 1 := by
    rw [length_entryStarts]
    omega
  obtain ⟨parsing, parsed, safe⟩ := parseLoop_spec more clean
    (BitVec.ofNat 64 (entryLines (visibleText text)).length) (by omega) _ 0
    (visibleText text) ((text ++ [nul]).length + 1) 0 here (.inl rfl) rfl all_left enough
  rw [buffer] at counted parsed
  refine ⟨⟨counting, BitVec.ofNat 64 (entryLines (visibleText text)).length, parsing,
    parseStarts (entryStarts (visibleText text))⟩, ?_,
    ⟨numMsr, ?_, safe.parsing, safe.turns, safe.wild⟩, rfl⟩
  · rw [listLoops, buffer, counted]
    dsimp only
    rw [parsed]
  · intro ptr member
    obtain ⟨offset, bound, same⟩ := inside _ member
    cases same
    exact bound

/-- The loops on the buffer do what `countEntries` and `parseEntries` do on its string. -/
theorem listLoops_refines (text : List UInt8) (small : text.length < 2 ^ 31) :
    ∃ run, listLoops text = some run ∧
      run.numMsr.toNat = countEntries (visibleText text).length (visibleText text) ∧
      parseEntries run.numMsr.toNat (some (visibleText text)) = some run.result := by
  obtain ⟨run, ran, safe, result⟩ := listLoops_spec text small
  refine ⟨run, ran, ?_, ?_⟩
  · rw [safe.counted, countEntries_eq _ (Nat.le_refl _), length_entryStarts]
  · rw [safe.counted, ← length_entryStarts, parseEntries_eq, result]

/-- Neither loop looks behind the terminator. -/
theorem listLoops_safe (text : List UInt8) (small : text.length < 2 ^ 31) :
    ∃ run, listLoops text = some run ∧ LoopsSafe text run := by
  obtain ⟨run, ran, safe, _⟩ := listLoops_spec text small
  exact ⟨run, ran, safe⟩

def threeLines : List UInt8 := "# msr\n0x10 0xff\n#".toList.map ascii

theorem listLoops_safe_three : ∃ run, listLoops threeLines = some run ∧ LoopsSafe threeLines run :=
  listLoops_safe threeLines (by decide)

end MsrSafe
