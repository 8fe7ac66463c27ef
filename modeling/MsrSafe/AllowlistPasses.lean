import MsrSafe.AllowlistInvariant

/-! The two passes of `write_allowlist` with a record of what they do: pass 2
makes the calls of pass 1 once more, and fills the array that was allocated for
as many entries as pass 1 has counted. -/

namespace MsrSafe

structure ParserCall where
  buf : List UInt8
  inbuf : Nat
  result : ParseResult

def ParserCall.parsed (call : ParserCall) : Option AllowlistEntry :=
  match call.result with
  | .entry _ entry => some entry
  | _ => none

structure FirstPassRun where
  calls : List ParserCall
  buf : List UInt8
  result : Except Errno Nat

def FirstPassRun.entries (run : FirstPassRun) : List AllowlistEntry :=
  run.calls.filterMap ParserCall.parsed

/-- `none` when the loop has not ended. -/
def firstPassRun : Nat → List UInt8 → Nat → Option FirstPassRun
  | 0, _, _ => none
  | fuel + 1, buf, s =>
    match parseNextAllowlistEntry buf s with
    | (buf', .done) => some ⟨[⟨buf, s, .done⟩], buf', .ok 0⟩
    | (buf', .error err) => some ⟨[⟨buf, s, .error err⟩], buf', .error err⟩
    | (buf', .entry next entry) =>
      match firstPassRun fuel buf' next with
      | none => none
      | some run =>
        some ⟨⟨buf, s, .entry next entry⟩ :: run.calls, run.buf, run.result.map (· + 1)⟩

inductive SecondPassEnd where
  | finished
  | corrupted (err : Errno)
  | duplicate
  deriving DecidableEq

def SecondPassEnd.result : SecondPassEnd → Except Errno Unit
  | .finished => .ok ()
  | .corrupted err => .error err
  | .duplicate => .error .enotuniq

/-- `stores` are the entries with the slots they were written to. -/
structure SecondPassRun where
  calls : List ParserCall
  stores : List (AllowlistEntry × Nat)
  g : Globals
  ending : SecondPassEnd

def SecondPassRun.entries (run : SecondPassRun) : List AllowlistEntry :=
  run.calls.filterMap ParserCall.parsed

section Passes

variable (bucket : Word → Fin 64) (array : Nat)

def secondPassRun : Nat → Globals → Nat → List UInt8 → Nat → Option SecondPassRun
  | 0, _, _, _, _ => none
  | fuel + 1, g, index, buf, s =>
    match parseNextAllowlistEntry buf s with
    | (_, .done) => some ⟨[⟨buf, s, .done⟩], [], g, .finished⟩
    | (_, .error err) =>
      some ⟨[⟨buf, s, .error err⟩], [], deleteAllowlist g, .corrupted err⟩
    | (buf', .entry next entry) =>
      let call : ParserCall := ⟨buf, s, .entry next entry⟩
      let g := g.store ⟨array, index⟩ entry
      match findInAllowlist bucket g entry.msr with
      | some _ => some ⟨[call], [(entry, index)], deleteAllowlist g, .duplicate⟩
      | none =>
        match secondPassRun fuel (addToAllowlist bucket g ⟨array, index⟩) (index + 1) buf' next with
        | none => none
        | some run =>
          some ⟨call :: run.calls, (entry, index) :: run.stores, run.g, run.ending⟩

end Passes

structure PassesAgree (array n : Nat) (first : FirstPassRun) (second : SecondPassRun) : Prop where
  calls : ∃ unmade, first.calls = second.calls ++ unmade ∧
    (second.ending ≠ .duplicate → unmade = [])
  stores : ∀ entry index, (entry, index) ∈ second.stores → index < n
  uncorrupted : ∀ err, second.ending ≠ .corrupted err
  duplicate : second.ending = .duplicate ↔ ¬AllowMap.Distinct first.entries
  filled : AllowMap.Distinct first.entries →
    second.stores = first.entries.zipIdx ∧ second.g.slots array = first.entries ∧
      first.entries.length = n

theorem firstPassRun_erase {fuel : Nat} {buf : List UInt8} {s : Nat} {run : FirstPassRun}
    (ran : firstPassRun fuel buf s = some run) :
    (firstPass fuel buf s).1 = run.buf ∧
      (firstPass fuel buf s).2 = run.result.map fun _ => run.entries := by
  induction fuel generalizing buf s run with
  | zero => cases ran
  | succ fuel ih =>
      rw [firstPassRun] at ran
      rw [firstPass]
      generalize parseNextAllowlistEntry buf s = call at ran ⊢
      rcases call with ⟨buf', _ | err | ⟨next, entry⟩⟩
      · cases ran
        exact ⟨rfl, rfl⟩
      · cases ran
        exact ⟨rfl, rfl⟩
      · dsimp only at ran ⊢
        cases rest : firstPassRun fuel buf' next with
        | none =>
            rw [rest] at ran
            cases ran
        | some later =>
            rw [rest] at ran
            cases ran
            obtain ⟨buffer, result⟩ := ih rest
            refine ⟨buffer, ?_⟩
            rw [result]
            cases later.result <;> rfl

theorem secondPassRun_erase (bucket : Word → Fin 64) (array : Nat) {fuel : Nat} {g : Globals}
    {index : Nat} {buf : List UInt8} {s : Nat} {run : SecondPassRun}
    (ran : secondPassRun bucket array fuel g index buf s = some run) :
    secondPass bucket array fuel g index buf s = (run.g, run.ending.result) := by
  induction fuel generalizing g index buf s run with
  | zero => cases ran
  | succ fuel ih =>
      rw [secondPassRun] at ran
      rw [secondPass]
      generalize parseNextAllowlistEntry buf s = call at ran ⊢
      rcases call with ⟨buf', _ | err | ⟨next, entry⟩⟩
      · cases ran
        rfl
      · cases ran
        rfl
      · dsimp only at ran ⊢
        cases found : findInAllowlist bucket (g.store ⟨array, index⟩ entry) entry.msr with
        | some r =>
            rw [found] at ran
            cases ran
            rfl
        | none =>
            rw [found] at ran
            dsimp only at ran ⊢
            cases rest : secondPassRun bucket array fuel
                (addToAllowlist bucket (g.store ⟨array, index⟩ entry) ⟨array, index⟩) (index + 1)
                buf' next with
            | none =>
                rw [rest] at ran
                cases ran
            | some later =>
                have erased := ih rest
                rw [rest] at ran
                cases ran
                exact erased

theorem firstPassRun_reads {buf : List UInt8} (fuel s : Nat) (u : List UInt8)
    (enough : u.length < fuel) (at_s : Holds buf s u) :
    ∃ run, firstPassRun fuel buf s = some run ∧
      ∀ n, run.result = .ok n → run.buf = buf ∧ readText u = .ok run.entries ∧
        run.entries.length = n := by
  induction fuel generalizing s u with
  | zero => omega
  | succ fuel ih =>
      have call := parseNextAllowlistEntry_reads at_s
      rw [readText_eq, firstPassRun]
      cases read : readEntry u with
      | error err =>
          rw [read] at call
          generalize parseNextAllowlistEntry buf s = parsed at call ⊢
          obtain ⟨buf', result⟩ := parsed
          dsimp only at call
          subst call
          refine ⟨_, rfl, ?_⟩
          rintro n ⟨⟩
      | ok found =>
          rw [read] at call
          cases found with
          | none =>
              dsimp only at call
              rw [call]
              refine ⟨_, rfl, ?_⟩
              rintro n ⟨⟩
              exact ⟨rfl, rfl, rfl⟩
          | some found =>
              obtain ⟨entry, rest⟩ := found
              obtain ⟨next, parsed, at_next⟩ := call
              have shorter := readEntry_length read
              obtain ⟨later, ran, reads⟩ := ih next rest (by omega) at_next
              rw [parsed]
              dsimp only
              rw [ran]
              refine ⟨_, rfl, ?_⟩
              intro n counted
              cases result : later.result with
              | error err =>
                  rw [result] at counted
                  cases counted
              | ok m =>
                  rw [result] at counted
                  cases counted
                  obtain ⟨buffer, text, length⟩ := reads m result
                  refine ⟨buffer, ?_, congrArg (· + 1) length⟩
                  rw [text]
                  rfl

theorem secondPassRun_follows (bucket : Word → Fin 64) (array : Nat) {fuel : Nat} (g : Globals)
    (index : Nat) {buf : List UInt8} {s n : Nat} {first : FirstPassRun}
    (ran : firstPassRun fuel buf s = some first) (passed : first.result = .ok n) :
    ∃ second, secondPassRun bucket array fuel g index buf s = some second ∧
      (∃ unmade, first.calls = second.calls ++ unmade ∧
        (second.ending ≠ .duplicate → unmade = [])) ∧
      (∀ err, second.ending ≠ .corrupted err) ∧
      second.stores = second.entries.zipIdx index := by
  induction fuel generalizing g index buf s n first with
  | zero => cases ran
  | succ fuel ih =>
      rw [firstPassRun] at ran
      rw [secondPassRun]
      generalize parseNextAllowlistEntry buf s = call at ran ⊢
      rcases call with ⟨buf', _ | err | ⟨next, entry⟩⟩
      · cases ran
        exact ⟨_, rfl, ⟨[], rfl, fun _ => rfl⟩, (fun _ same => by cases same), rfl⟩
      · cases ran
        cases passed
      · dsimp only at ran ⊢
        cases rest : firstPassRun fuel buf' next with
        | none =>
            rw [rest] at ran
            cases ran
        | some later =>
            rw [rest] at ran
            cases ran
            cases found : findInAllowlist bucket (g.store ⟨array, index⟩ entry) entry.msr with
            | some r =>
                refine ⟨_, rfl, ⟨later.calls, rfl, fun single => absurd rfl single⟩, ?_, rfl⟩
                exact fun _ same => by cases same
            | none =>
                cases result : later.result with
                | error err =>
                    rw [result] at passed
                    cases passed
                | ok m =>
                    obtain ⟨second, ran', ⟨unmade, calls, whole⟩, uncorrupted, stores⟩ :=
                      ih (addToAllowlist bucket (g.store ⟨array, index⟩ entry) ⟨array, index⟩)
                        (index + 1) rest result
                    dsimp only
                    rw [ran']
                    refine ⟨_, rfl, ⟨unmade, congrArg (List.cons _) calls, whole⟩, uncorrupted, ?_⟩
                    exact congrArg (List.cons (entry, index)) stores

/-- Pass 2 on the text of `n` entries and an empty array of as many: it finds a
duplicate or fills the array. -/
theorem secondPassRun_fills (bucket : Word → Fin 64) {buf u : List UInt8} {array fuel s n : Nat}
    {g : Globals} {entries : List AllowlistEntry} {second : SecondPassRun}
    (ran : secondPassRun bucket array fuel g 0 buf s = some second) (enough : u.length < fuel)
    (at_s : Holds buf s u) (text : readText u = .ok entries) (length : entries.length = n)
    (filled : Filled bucket g array n []) (uncorrupted : ∀ err, second.ending ≠ .corrupted err) :
    (second.ending = .duplicate ↔ ¬AllowMap.Distinct entries) ∧
      (AllowMap.Distinct entries → second.g.slots array = entries) := by
  have installed := secondPass_reads bucket fuel s u g [] entries enough at_s text filled
    (by simpa using length)
  rw [List.nil_append, List.length_nil, secondPassRun_erase bucket array ran] at installed
  by_cases distinct : AllowMap.Distinct entries
  · rw [if_pos distinct] at installed
    obtain ⟨filled, succeeded⟩ := installed
    obtain ⟨unused, slots, size⟩ := filled.slots
    have full : unused = [] := List.eq_nil_of_length_eq_zero (by omega)
    rw [full, List.append_nil] at slots
    constructor
    · apply iff_of_false
      · intro duplicate
        rw [duplicate] at succeeded
        cases succeeded
      · exact fun twice => twice distinct
    · exact fun _ => slots
  · rw [if_neg distinct] at installed
    constructor
    · apply iff_of_true _ distinct
      cases ending : second.ending with
      | finished =>
          rw [ending] at installed
          cases installed.2
      | corrupted err => exact absurd ending (uncorrupted err)
      | duplicate => rfl
    · exact fun single => absurd single distinct

/-- The two passes on the text of a write, after any other writes. -/
theorem passes_agree (bucket : Word → Fin 64) (call : WriteCall) (earlier : List WriteCall) :
    ∃ first, firstPassRun (call.kbuf.length + 1) call.kbuf 0 = some first ∧
      ∀ n, first.result = .ok n → first.buf = call.kbuf ∧
        ∃ array g second, createAllowlist true n (storeAfter bucket earlier) = (g, .ok array) ∧
          secondPassRun bucket array (first.buf.length + 1) g 0 first.buf 0 = some second ∧
          PassesAgree array n first second := by
  have inside := holds_length (kbuf_holds call)
  obtain ⟨first, ran, reads⟩ :=
    firstPassRun_reads (call.kbuf.length + 1) 0 call.visible (by omega) (kbuf_holds call)
  refine ⟨first, ran, ?_⟩
  intro n passed
  obtain ⟨buffer, text, length⟩ := reads n passed
  refine ⟨buffer, ?_⟩
  have owner := (storeAfter_represents bucket earlier).owner
  obtain ⟨array, created, filled⟩ := createAllowlist_fills bucket n owner
  obtain ⟨second, ran', ⟨unmade, calls, whole⟩, uncorrupted, stores⟩ :=
    secondPassRun_follows bucket array (createAllowlist true n (storeAfter bucket earlier)).1 0 ran
      passed
  obtain ⟨duplicate, slots⟩ := secondPassRun_fills bucket ran' (by omega) (kbuf_holds call) text
    length filled uncorrupted
  rw [buffer]
  refine ⟨array, _, second, Prod.ext rfl created, ran', ⟨unmade, calls, whole⟩, ?_, uncorrupted,
    duplicate, ?_⟩
  · intro entry index member
    have made : second.entries.length ≤ n := by
      rw [← length, FirstPassRun.entries, calls, List.filterMap_append, List.length_append]
      exact Nat.le_add_right _ _
    rw [stores] at member
    exact Nat.lt_of_lt_of_le (List.snd_lt_of_mem_zipIdx member) made
  · intro distinct
    have single : second.ending ≠ .duplicate := fun twice => duplicate.mp twice distinct
    rw [whole single, List.append_nil] at calls
    refine ⟨?_, slots distinct, length⟩
    rw [stores, FirstPassRun.entries, calls, SecondPassRun.entries]

theorem passes_agree_two :
    let call : WriteCall :=
      ⟨['1', ' ', '2', '\n', '#', 'a', '\n', '3', ' ', '4', ' '].map ascii, true, true, true⟩
    ∃ first, firstPassRun (call.kbuf.length + 1) call.kbuf 0 = some first ∧
      ∃ array g second, createAllowlist true 2 (storeAfter (fun _ => 0) []) = (g, .ok array) ∧
        secondPassRun (fun _ => 0) array (first.buf.length + 1) g 0 first.buf 0 = some second ∧
        PassesAgree array 2 first second := by
  intro call
  obtain ⟨first, ran, agree⟩ := passes_agree (fun _ => 0) call []
  have counted : (firstPassRun (call.kbuf.length + 1) call.kbuf 0).map (·.result) =
      some (.ok 2) := by
    decide +kernel
  rw [ran] at counted
  exact ⟨first, ran, (agree 2 (Option.some.inj counted)).2⟩

end MsrSafe
