import MsrSafe.AllowlistStore

/-! The language of allowlists, and that pass 1 of `write_allowlist` accepts
exactly this language and reports the leftmost offending token. -/

namespace MsrSafe

/-- A maximal run of bytes that are no whitespace, where whitespace or the end
of the text follows. -/
def Token (a : List UInt8) : Prop := a ≠ [] ∧ ∀ c ∈ a, isspace c = false

def Spaces (ws : List UInt8) : Prop := ws ≠ [] ∧ ∀ c ∈ ws, isspace c = true

def FirstToken (a : List UInt8) : Prop := Token a ∧ a.head? ≠ some hash

/-- `Items u entries rest`: the text `u` consists of blanks, comments and
entries with these values, up to `rest`, where another entry may start. -/
inductive Items : List UInt8 → List AllowlistEntry → List UInt8 → Prop where
  | stop {u : List UInt8} : Items u [] u
  | space {c : UInt8} {u rest : List UInt8} {entries : List AllowlistEntry} :
      isspace c = true → Items u entries rest → Items (c :: u) entries rest
  | comment {body u rest : List UInt8} {entries : List AllowlistEntry} :
      newline ∉ body → u = [] ∨ u.head? = some newline →
      Items u entries rest → Items (hash :: (body ++ u)) entries rest
  | entry {a ws b u rest : List UInt8} {c : UInt8} {msr wmask : Word}
      {entries : List AllowlistEntry} :
      FirstToken a → Spaces ws → Token b → isspace c = true →
      kstrtoull a = .ok msr → kstrtoull b = .ok wmask → Items u entries rest →
      Items (a ++ (ws ++ (b ++ c :: u))) ({ wmask := wmask, msr := msr } :: entries) rest

/-- The text begins with an entry one of whose tokens is at fault. -/
inductive Offending : List UInt8 → Errno → Prop where
  | firstOpen {a : List UInt8} : FirstToken a → Offending a .eilseq
  | firstBad {a u : List UInt8} {c : UInt8} {err : Errno} :
      FirstToken a → isspace c = true → kstrtoull a = .error err → Offending (a ++ c :: u) err
  | secondMissing {a ws : List UInt8} {msr : Word} :
      FirstToken a → Spaces ws → kstrtoull a = .ok msr → Offending (a ++ ws) .eilseq
  | secondOpen {a ws b : List UInt8} {msr : Word} :
      FirstToken a → Spaces ws → Token b → kstrtoull a = .ok msr →
      Offending (a ++ (ws ++ b)) .eilseq
  | secondBad {a ws b u : List UInt8} {c : UInt8} {msr : Word} {err : Errno} :
      FirstToken a → Spaces ws → Token b → isspace c = true →
      kstrtoull a = .ok msr → kstrtoull b = .error err →
      Offending (a ++ (ws ++ (b ++ c :: u))) err

def Accepts (u : List UInt8) (entries : List AllowlistEntry) : Prop := Items u entries []

def Rejects (u : List UInt8) (err : Errno) : Prop :=
  ∃ entries rest, Items u entries rest ∧ Offending rest err

theorem skipBlank_space {c : UInt8} (u : List UInt8) (space : isspace c = true) :
    skipBlank (c :: u) = skipBlank u := by
  rw [skipBlank_eq (c :: u), skipBlank_eq u, List.dropWhile_cons_of_pos space]

theorem skipBlank_comment {body u : List UInt8} (inside : newline ∉ body)
    (ends : u = [] ∨ u.head? = some newline) : skipBlank (hash :: (body ++ u)) = skipBlank u := by
  have plain : ∀ c ∈ body, (c != newline) = true := by
    intro c member
    simpa using fun same : c = newline => inside (same ▸ member)
  have stop : u.dropWhile (· != newline) = u := by
    rcases ends with rfl | head
    · rfl
    · cases u with
      | nil => cases head
      | cons c u => simp [Option.some.inj head]
  rw [skipBlank_eq, List.dropWhile_cons_of_neg (by decide)]
  dsimp only
  rw [if_pos rfl, List.dropWhile_append_of_pos plain, stop]

theorem dropWhile_token {a : List UInt8} (u : List UInt8) (token : Token a) :
    (a ++ u).dropWhile isspace = a ++ u := by
  obtain ⟨nonempty, run⟩ := token
  cases a with
  | nil => exact absurd rfl nonempty
  | cons c a =>
      rw [List.cons_append, List.dropWhile_cons_of_neg]
      simp [run c (by simp)]

theorem skipBlank_token {a : List UInt8} (u : List UInt8) (first : FirstToken a) :
    skipBlank (a ++ u) = a ++ u := by
  rw [skipBlank_eq, dropWhile_token u first.1]
  obtain ⟨⟨nonempty, -⟩, head⟩ := first
  cases a with
  | nil => exact absurd rfl nonempty
  | cons c a =>
      dsimp only [List.cons_append]
      rw [if_neg]
      intro same
      exact head (by simp [same])

theorem readNumber_spaces {ws : List UInt8} (u : List UInt8) (spaces : ∀ c ∈ ws, isspace c = true) :
    readNumber (ws ++ u) = readNumber u := by
  simp only [readNumber, List.dropWhile_append_of_pos spaces]

theorem readNumber_token {a u : List UInt8} {c : UInt8} (token : Token a)
    (space : isspace c = true) :
    readNumber (a ++ c :: u) = (kstrtoull a).map fun data => (data, u) := by
  have run : ∀ c' ∈ a, (!isspace c') = true := by
    intro c' member
    simp [token.2 c' member]
  simp only [readNumber, dropWhile_token (c :: u) token]
  rw [List.dropWhile_append_of_pos run, List.takeWhile_append_of_pos run,
    List.dropWhile_cons_of_neg (by simp [space]), List.takeWhile_cons_of_neg (by simp [space]),
    List.append_nil]
  dsimp only
  cases kstrtoull a <;> rfl

theorem readNumber_open {a : List UInt8} (run : ∀ c ∈ a, isspace c = false) :
    readNumber a = .error .eilseq := by
  have all : (a.dropWhile isspace).dropWhile (fun c => !isspace c) = [] := by
    rw [List.dropWhile_eq_nil_iff]
    intro c member
    simp [run c ((List.dropWhile_suffix _).mem member)]
  simp only [readNumber, all]

theorem token_split (u : List UInt8) :
    ∃ ws a v, u = ws ++ (a ++ v) ∧ (∀ c ∈ ws, isspace c = true) ∧ (∀ c ∈ a, isspace c = false) ∧
      (a = [] → v = []) ∧ (v = [] ∨ ∃ c w, v = c :: w ∧ isspace c = true) := by
  refine ⟨u.takeWhile isspace, (u.dropWhile isspace).takeWhile (fun c => !isspace c),
    (u.dropWhile isspace).dropWhile (fun c => !isspace c), ?_, ?_, ?_, ?_, ?_⟩
  · rw [List.takeWhile_append_dropWhile, List.takeWhile_append_dropWhile]
  · exact fun c member => List.mem_takeWhile_imp member
  · intro c member
    simpa using List.mem_takeWhile_imp (p := fun c => !isspace c) member
  · intro none
    cases start : u.dropWhile isspace with
    | nil => rfl
    | cons c v =>
        have first := List.head?_dropWhile_not isspace u
        rw [start] at first none
        have stop : isspace c = false := by simpa using first
        rw [List.takeWhile_cons_of_pos (by simp [stop])] at none
        cases none
  · cases stop : (u.dropWhile isspace).dropWhile (fun c => !isspace c) with
    | nil => exact .inl rfl
    | cons c w =>
        have first := List.head?_dropWhile_not (fun c => !isspace c) (u.dropWhile isspace)
        rw [stop] at first
        exact .inr ⟨c, w, rfl, by simpa using first⟩

/-! ## Reading is deciding the language -/

theorem readEntry_congr {u v : List UInt8} (same : skipBlank u = skipBlank v) :
    readEntry u = readEntry v := by
  simp only [readEntry]
  rw [same]

theorem readText_congr {u v : List UInt8} (same : skipBlank u = skipBlank v) :
    readText u = readText v := by
  rw [readText_eq u, readText_eq v, readEntry_congr same]

theorem readEntry_first {a : List UInt8} (u : List UInt8) (first : FirstToken a) :
    readEntry (a ++ u) = match readNumber (a ++ u) with
      | .error err => .error err
      | .ok (msr, rest) =>
        match readNumber rest with
        | .error err => .error err
        | .ok (wmask, rest) => .ok (some ({ wmask := wmask, msr := msr }, rest)) := by
  rw [readEntry]
  rw [skipBlank_token u first]
  obtain ⟨⟨nonempty, -⟩, -⟩ := first
  cases a with
  | nil => exact absurd rfl nonempty
  | cons c a => rfl

theorem readNumber_token_spaces {a ws u : List UInt8} {msr : Word} (token : Token a)
    (spaces : Spaces ws) (value : kstrtoull a = .ok msr) :
    ∃ rest, readNumber (a ++ (ws ++ u)) = .ok (msr, rest) ∧ readNumber rest = readNumber u := by
  obtain ⟨nonempty, run⟩ := spaces
  cases ws with
  | nil => exact absurd rfl nonempty
  | cons c ws =>
      refine ⟨ws ++ u, ?_, readNumber_spaces u fun c' member => run c' (by simp [member])⟩
      rw [List.cons_append, readNumber_token token (run c (by simp)), value]
      rfl

theorem readEntry_second {a ws : List UInt8} {msr : Word} (u : List UInt8)
    (first : FirstToken a) (spaces : Spaces ws) (value : kstrtoull a = .ok msr) :
    readEntry (a ++ (ws ++ u)) = match readNumber u with
      | .error err => .error err
      | .ok (wmask, rest) => .ok (some ({ wmask := wmask, msr := msr }, rest)) := by
  obtain ⟨rest, number, behind⟩ := readNumber_token_spaces (u := u) first.1 spaces value
  rw [readEntry_first _ first, number]
  dsimp only
  rw [behind]

theorem readText_items {u rest : List UInt8} {entries : List AllowlistEntry}
    (items : Items u entries rest) : readText u = (readText rest).map (entries ++ ·) := by
  induction items with
  | @stop u => cases h : readText u <;> rfl
  | @space c u rest entries space _ ih => rw [readText_congr (skipBlank_space u space), ih]
  | @comment body u rest entries inside ends _ ih =>
      rw [readText_congr (skipBlank_comment inside ends), ih]
  | @entry a ws b u rest c msr wmask entries first spaces second space msr_value wmask_value _ ih =>
      rw [readText_eq, readEntry_second _ first spaces msr_value,
        readNumber_token second space, wmask_value]
      dsimp only [Except.map]
      rw [ih]
      cases readText rest <;> rfl

theorem readText_offending {u : List UInt8} {err : Errno} (offending : Offending u err) :
    readText u = .error err := by
  rw [readText_eq]
  cases offending with
  | firstOpen first =>
      have entry := readEntry_first [] first
      rw [List.append_nil, readNumber_open first.1.2] at entry
      rw [entry]
  | firstBad first space bad =>
      rw [readEntry_first _ first, readNumber_token first.1 space, bad]
      rfl
  | @secondMissing a ws msr first spaces value =>
      have entry := readEntry_second [] first spaces value
      rw [List.append_nil] at entry
      rw [entry]
      rfl
  | secondOpen first spaces second value =>
      rw [readEntry_second _ first spaces value, readNumber_open second.2]
  | secondBad first spaces second space value bad =>
      rw [readEntry_second _ first spaces value, readNumber_token second space, bad]
      rfl

theorem Items.append {u middle rest : List UInt8} {entries more : List AllowlistEntry}
    (front : Items u entries middle) (back : Items middle more rest) :
    Items u (entries ++ more) rest := by
  induction front with
  | stop => exact back
  | space space _ ih => exact .space space (ih back)
  | comment inside ends _ ih => exact .comment inside ends (ih back)
  | entry first spaces second space msr_value wmask_value _ ih =>
      exact .entry first spaces second space msr_value wmask_value (ih back)

def Decided (u : List UInt8) : Prop :=
  (∃ entries, Accepts u entries) ∨ ∃ err, Rejects u err

theorem decided_items {u rest : List UInt8} {entries : List AllowlistEntry}
    (front : Items u entries rest) (decided : Decided rest) : Decided u := by
  rcases decided with ⟨more, accepted⟩ | ⟨err, more, stop, items, offending⟩
  · exact .inl ⟨entries ++ more, front.append accepted⟩
  · exact .inr ⟨err, entries ++ more, stop, front.append items, offending⟩

theorem decided_offending {u : List UInt8} {err : Errno} (offending : Offending u err) :
    Decided u := .inr ⟨err, [], u, .stop, offending⟩

theorem decided_entry {a : List UInt8} (u : List UInt8) (first : FirstToken a)
    (ends : u = [] ∨ ∃ c w, u = c :: w ∧ isspace c = true)
    (shorter : ∀ v : List UInt8, v.length < u.length → Decided v) : Decided (a ++ u) := by
  rcases ends with rfl | ⟨c, w, rfl, space⟩
  · rw [List.append_nil]
    exact decided_offending (.firstOpen first)
  cases value : kstrtoull a with
  | error err => exact decided_offending (.firstBad first space value)
  | ok msr =>
      obtain ⟨ws, b, v, split, run, token, none_behind, behind⟩ := token_split (c :: w)
      have spaces : Spaces ws := by
        refine ⟨?_, run⟩
        rintro rfl
        cases b with
        | nil => rw [none_behind rfl] at split; cases split
        | cons c' b =>
            rw [List.nil_append, List.cons_append] at split
            have same := (List.cons.inj split).1
            have stop := token c' (by simp)
            rw [← same, space] at stop
            cases stop
      rw [split] at shorter ⊢
      by_cases none : b = []
      · subst none
        rw [none_behind rfl, List.append_nil, List.append_nil]
        exact decided_offending (.secondMissing first spaces value)
      have second : Token b := ⟨none, token⟩
      rcases behind with rfl | ⟨c', w', rfl, space'⟩
      · rw [List.append_nil]
        exact decided_offending (.secondOpen first spaces second value)
      cases value' : kstrtoull b with
      | error err => exact decided_offending (.secondBad first spaces second space' value value')
      | ok wmask =>
          apply decided_items (.entry first spaces second space' value value' .stop)
          apply shorter
          simp only [List.length_append, List.length_cons]
          omega

theorem decided (u : List UInt8) : Decided u := by
  induction size : u.length using Nat.strong_induction_on generalizing u with
  | _ n ih =>
      subst size
      cases u with
      | nil => exact .inl ⟨[], .stop⟩
      | cons c u =>
          by_cases space : isspace c = true
          · exact decided_items (.space space .stop) (ih u.length (by simp) u rfl)
          by_cases comment : c = hash
          · subst comment
            have split : u.takeWhile (· != newline) ++ u.dropWhile (· != newline) = u :=
              List.takeWhile_append_dropWhile
            have length := Scan.length_dropWhile_le (· != newline) u
            rw [← split]
            refine decided_items (.comment ?_ ?_ .stop) (ih _ ?_ _ rfl)
            · intro member
              simpa using List.mem_takeWhile_imp member
            · cases stop : u.dropWhile (· != newline) with
              | nil => exact .inl rfl
              | cons c' v =>
                  have first := List.head?_dropWhile_not (· != newline) u
                  rw [stop] at first
                  right
                  simpa using first
            · rw [List.length_cons]
              omega
          obtain ⟨ws, a, v, split, run, token, none_behind, behind⟩ := token_split (c :: u)
          have no_spaces : ws = [] := by
            cases ws with
            | nil => rfl
            | cons c' ws =>
                have same := (List.cons.inj split).1
                exact absurd (same ▸ run c' (by simp)) space
          subst no_spaces
          rw [List.nil_append] at split
          have first : FirstToken a := by
            cases a with
            | nil => rw [none_behind rfl] at split; cases split
            | cons c' a =>
                refine ⟨⟨List.cons_ne_nil c' a, token⟩, ?_⟩
                have same := (List.cons.inj split).1
                simpa [← same] using comment
          rw [split] at ih ⊢
          apply decided_entry v first behind
          intro w short
          refine ih w.length ?_ w rfl
          rw [List.length_append]
          omega

theorem readText_ok_iff (u : List UInt8) (entries : List AllowlistEntry) :
    readText u = .ok entries ↔ Accepts u entries := by
  have accepted : ∀ entries, Accepts u entries → readText u = .ok entries := by
    intro entries items
    rw [readText_items items, readText_eq []]
    simp [readEntry, skipBlank_eq, Except.map]
  refine ⟨?_, accepted entries⟩
  intro read
  rcases decided u with ⟨others, items⟩ | ⟨err, others, rest, items, offending⟩
  · rw [accepted others items] at read
    cases read
    exact items
  · rw [readText_items items, readText_offending offending] at read
    cases read

theorem readText_error_iff (u : List UInt8) (err : Errno) :
    readText u = .error err ↔ Rejects u err := by
  constructor
  · intro read
    rcases decided u with ⟨entries, items⟩ | ⟨other, entries, rest, items, offending⟩
    · rw [(readText_ok_iff u entries).mpr items] at read
      cases read
    · have same := readText_items items
      rw [readText_offending offending, read] at same
      cases same
      exact ⟨entries, rest, items, offending⟩
  · rintro ⟨entries, rest, items, offending⟩
    rw [readText_items items, readText_offending offending]
    rfl

theorem rejects_error {u : List UInt8} {err : Errno} (rejected : Rejects u err) :
    err = .eilseq ∨ err = .einval ∨ err = .erange := by
  obtain ⟨entries, rest, -, offending⟩ := rejected
  cases offending with
  | firstOpen => exact .inl rfl
  | secondMissing => exact .inl rfl
  | secondOpen => exact .inl rfl
  | firstBad _ _ bad => exact .inr (kstrtoullUnsigned_error bad)
  | secondBad _ _ _ _ _ bad => exact .inr (kstrtoullUnsigned_error bad)

def WriteCall.visible (call : WriteCall) : List UInt8 := call.text.takeWhile (· != nul)

theorem kbuf_holds (call : WriteCall) : Holds call.kbuf 0 call.visible := by
  have split : call.visible ++ call.text.dropWhile (· != nul) = call.text :=
    List.takeWhile_append_dropWhile
  constructor
  · intro member
    simpa using List.mem_takeWhile_imp member
  · rw [WriteCall.kbuf, List.drop_zero]
    cases stop : call.text.dropWhile (· != nul) with
    | nil =>
        rw [stop, List.append_nil] at split
        exact ⟨[], by rw [split]⟩
    | cons c rest =>
        have first := List.head?_dropWhile_not (· != nul) call.text
        rw [stop] at first split
        have terminator : c = nul := by simpa using first
        subst terminator
        refine ⟨rest ++ [nul], ?_⟩
        conv_lhs => rw [← split]
        simp

def WriteCall.pass (call : WriteCall) : List UInt8 × Except Errno (List AllowlistEntry) :=
  firstPass (call.kbuf.length + 1) call.kbuf 0

theorem pass_eq_readText (call : WriteCall) : call.pass.2 = readText call.visible := by
  have inside := holds_length (kbuf_holds call)
  exact (firstPass_reads _ 0 call.visible (by omega) (kbuf_holds call)).1

theorem pass_buffer {call : WriteCall} {entries : List AllowlistEntry}
    (accepted : call.pass.2 = .ok entries) : call.pass.1 = call.kbuf := by
  have inside := holds_length (kbuf_holds call)
  rw [pass_eq_readText] at accepted
  exact (firstPass_reads _ 0 call.visible (by omega) (kbuf_holds call)).2 entries accepted

structure WriteCall.Parsed (call : WriteCall) : Prop where
  long : 3 ≤ call.text.length
  short : call.text.length ≤ 131072
  allocated : call.bufferAllocated = true
  copied : call.copied = true

theorem writeAllowlist_parsed (bucket : Word → Fin 64) {call : WriteCall} (g : Globals)
    (parsed : call.Parsed) :
    writeAllowlist bucket call g = match readText call.visible with
      | .error err => (g, .error err)
      | .ok entries =>
        if entries.length = 0 then (g, .error .enomsg)
        else
          match installEntries bucket call call.kbuf entries.length g with
          | (g, .error err) => (g, .error err)
          | (g, .ok ()) => (g, .ok call.text.length) := by
  obtain ⟨long, short, allocated, copied⟩ := parsed
  have read := pass_eq_readText call
  have buffer := @pass_buffer call
  rw [writeAllowlist]
  dsimp only
  rw [if_neg (by omega), if_neg (by unfold maxWlistBsize; omega), allocated, copied]
  simp only [Bool.not_true, Bool.false_eq_true, if_false]
  rw [← read]
  cases shape : firstPass (call.kbuf.length + 1) call.kbuf 0 with
  | mk buf result =>
      have pass : call.pass = (buf, result) := shape
      rw [pass] at buffer ⊢
      cases result with
      | error err => rfl
      | ok entries =>
          have same : buf = call.kbuf := buffer rfl
          subst same
          rfl

/-- Pass 1 accepts exactly the language of allowlists, with the values of the
entries in order, and otherwise fails with the error of the leftmost offending
token; a text without entries is refused with ENOMSG. -/
theorem pass_accepts_grammar (bucket : Word → Fin 64) (call : WriteCall) (g : Globals)
    (long : 3 ≤ call.text.length) (short : call.text.length ≤ 131072)
    (allocated : call.bufferAllocated = true) (copied : call.copied = true) :
    (∀ entries, call.pass.2 = .ok entries ↔ Accepts call.visible entries) ∧
    (∀ err, call.pass.2 = .error err ↔ Rejects call.visible err) ∧
    (∀ err, Rejects call.visible err → err = .eilseq ∨ err = .einval ∨ err = .erange) ∧
    (Accepts call.visible [] → writeAllowlist bucket call g = (g, .error .enomsg)) ∧
    (∀ err, Rejects call.visible err → writeAllowlist bucket call g = (g, .error err)) := by
  have write := writeAllowlist_parsed bucket g ⟨long, short, allocated, copied⟩
  rw [pass_eq_readText]
  refine ⟨readText_ok_iff _, readText_error_iff _, fun err => rejects_error, ?_, ?_⟩
  · intro empty
    rw [write, (readText_ok_iff _ _).mpr empty]
    rfl
  · intro err rejected
    rw [write, (readText_error_iff _ _).mpr rejected]

theorem pass_accepts_grammar_open_entry :
    let text := ['#', 'a', '\n', '1', '\n', '2', ' ', '3', ' '].map ascii
    let call : WriteCall := ⟨text, true, true, true⟩
    (3 ≤ call.text.length ∧ call.text.length ≤ 131072) ∧
    ∀ err, call.pass.2 = .error err ↔ Rejects call.visible err := by
  intro text call
  exact ⟨by decide, (pass_accepts_grammar (fun _ => 0) call .initial (by decide) (by decide)
    rfl rfl).2.1⟩

end MsrSafe
