import MsrSafe.Text
import MsrSafe.Lib.Scan
import Mathlib.Data.List.TakeWhile

/-! The allowlist parser of msr_allowlist.c on the buffer it writes into, and
the same reading as a function of the text alone. A pointer into the buffer is
a position; reading past the buffer would give a terminator. -/

namespace MsrSafe

structure AllowlistEntry where
  wmask : Word
  msr : Word
  deriving DecidableEq, Repr

def byteAt (buf : List UInt8) (s : Nat) : UInt8 := buf.getD s nul

def cstring (buf : List UInt8) (s : Nat) : List UInt8 := (buf.drop s).takeWhile (· != nul)

def skipSpaces (buf : List UInt8) (s : Nat) : Nat := Scan.past isspace buf s

def inToken (c : UInt8) : Bool := !isspace c && c != nul

def inComment (c : UInt8) : Bool := c != nul && c != newline

/-- `while (*s == '#')`; every turn passes a byte, so the length of the buffer
bounds the turns. -/
def skipComments : Nat → List UInt8 → Nat → Nat
  | 0, _, s => s
  | fuel + 1, buf, s =>
    if byteAt buf s = hash then
      skipComments fuel buf (skipSpaces buf (Scan.past inComment buf (s + 1)))
    else s

/-- One turn of the loop over `data[i]`: the buffer, and the number with the
position behind it. -/
def parseNumber (buf : List UInt8) (s : Nat) : List UInt8 × Except Errno (Word × Nat) :=
  let s2 := skipSpaces buf s
  let s := Scan.past inToken buf s2
  if byteAt buf s = nul then (buf, .error .eilseq)
  else
    let tmp := byteAt buf s
    -- the token is terminated in place, and stays so when it is no number
    let buf := buf.set s nul
    match kstrtoull (cstring buf s2) with
    | .error err => (buf, .error err)
    | .ok data => (buf.set s tmp, .ok (data, s + 1))

inductive ParseResult where
  | done
  | error (err : Errno)
  | entry (nextinbuf : Nat) (entry : AllowlistEntry)
  deriving DecidableEq, Repr

/-- The buffer the call leaves and its result; the caller stores the entry
where its `entry` argument points to. -/
def parseNextAllowlistEntry (buf : List UInt8) (inbuf : Nat) : List UInt8 × ParseResult :=
  let s := skipComments buf.length buf (skipSpaces buf inbuf)
  if byteAt buf s = nul then (buf, .done)
  else
    match parseNumber buf s with
    | (buf, .error err) => (buf, .error err)
    | (buf, .ok (msr, s)) =>
      match parseNumber buf s with
      | (buf, .error err) => (buf, .error err)
      | (buf, .ok (wmask, s)) => (buf, .entry s { wmask := wmask, msr := msr })

/-- Pass 1 of `write_allowlist` from position `s`: the buffer it leaves, and
the entries its calls parse, of which the source keeps only the number. -/
def firstPass : Nat → List UInt8 → Nat → List UInt8 × Except Errno (List AllowlistEntry)
  | 0, buf, _ => (buf, .ok [])
  | fuel + 1, buf, s =>
    match parseNextAllowlistEntry buf s with
    | (buf, .done) => (buf, .ok [])
    | (buf, .error err) => (buf, .error err)
    | (buf, .entry next entry) =>
      let (buf, rest) := firstPass fuel buf next
      (buf, rest.map (entry :: ·))

def skipBlank (u : List UInt8) : List UInt8 :=
  match _shape : u.dropWhile isspace with
  | [] => []
  | c :: rest => if c = hash then skipBlank (rest.dropWhile (· != newline)) else c :: rest
termination_by u.length
decreasing_by
  have blanks := Scan.length_dropWhile_le isspace u
  have comment := Scan.length_dropWhile_le (· != newline) rest
  rw [_shape, List.length_cons] at blanks
  omega

def readNumber (u : List UInt8) : Except Errno (Word × List UInt8) :=
  let token := u.dropWhile isspace
  match token.dropWhile (fun c => !isspace c) with
  | [] => .error .eilseq
  | _ :: rest =>
    match kstrtoull (token.takeWhile (fun c => !isspace c)) with
    | .error err => .error err
    | .ok data => .ok (data, rest)

theorem readNumber_length {u rest : List UInt8} {data : Word}
    (read : readNumber u = .ok (data, rest)) : rest.length < u.length := by
  have spaces := Scan.length_dropWhile_le isspace u
  have token := Scan.length_dropWhile_le (fun c => !isspace c) (u.dropWhile isspace)
  unfold readNumber at read
  dsimp only at read
  split at read
  · cases read
  · rename_i c tail shape
    rw [shape, List.length_cons] at token
    split at read
    · cases read
    · cases read
      omega

theorem skipBlank_eq (u : List UInt8) :
    skipBlank u = match u.dropWhile isspace with
      | [] => []
      | c :: rest => if c = hash then skipBlank (rest.dropWhile (· != newline)) else c :: rest := by
  rw [skipBlank]
  split <;> rename_i shape <;> simp only [shape]

theorem skipBlank_length (u : List UInt8) : (skipBlank u).length ≤ u.length := by
  induction u using skipBlank.induct with
  | case1 u shape => simp [skipBlank_eq u, shape]
  | case2 u rest shape ih =>
      have blanks := Scan.length_dropWhile_le isspace u
      have comment := Scan.length_dropWhile_le (· != newline) rest
      rw [shape, List.length_cons] at blanks
      simp only [skipBlank_eq u, shape, if_true]
      omega
  | case3 u c rest shape plain =>
      have blanks := Scan.length_dropWhile_le isspace u
      simp only [skipBlank_eq u, shape, if_neg plain]
      rwa [shape] at blanks

def readEntry (u : List UInt8) : Except Errno (Option (AllowlistEntry × List UInt8)) :=
  match skipBlank u with
  | [] => .ok none
  | c :: tail =>
    match readNumber (c :: tail) with
    | .error err => .error err
    | .ok (msr, rest) =>
      match readNumber rest with
      | .error err => .error err
      | .ok (wmask, rest) => .ok (some ({ wmask := wmask, msr := msr }, rest))

theorem readEntry_length {u rest : List UInt8} {entry : AllowlistEntry}
    (read : readEntry u = .ok (some (entry, rest))) : rest.length < u.length := by
  have blanks := skipBlank_length u
  unfold readEntry at read
  split at read
  · cases read
  · rename_i c tail shape
    rw [shape] at blanks
    split at read
    · cases read
    · rename_i msr middle first
      have shorter := readNumber_length first
      split at read
      · cases read
      · rename_i wmask last second
        have shortest := readNumber_length second
        cases read
        omega

def readText (u : List UInt8) : Except Errno (List AllowlistEntry) :=
  match _read : readEntry u with
  | .error err => .error err
  | .ok none => .ok []
  | .ok (some (entry, rest)) => (readText rest).map (entry :: ·)
termination_by u.length
decreasing_by exact readEntry_length _read

theorem readText_eq (u : List UInt8) :
    readText u = match readEntry u with
      | .error err => .error err
      | .ok none => .ok []
      | .ok (some (entry, rest)) => (readText rest).map (entry :: ·) := by
  rw [readText]
  split <;> rename_i read <;> simp only [read]

/-! ## The buffer code reads the text -/

def Holds (buf : List UInt8) (s : Nat) (u : List UInt8) : Prop :=
  nul ∉ u ∧ ∃ junk, buf.drop s = u ++ nul :: junk

theorem holds_sublist {buf : List UInt8} {s t : Nat} {u v : List UInt8} (p : UInt8 → Bool)
    (at_s : Holds buf s u) (stops : p nul = false) (moved : t = Scan.past p buf s)
    (same : v = u.dropWhile p) : Holds buf t v := by
  obtain ⟨clean, junk, text⟩ := at_s
  subst same moved
  refine ⟨fun member => clean ((List.dropWhile_suffix p).mem member), junk, ?_⟩
  rw [Scan.drop_past, text, Scan.dropWhile_terminated p u junk nul stops]

theorem holds_byte {buf : List UInt8} {s : Nat} {c : UInt8} {rest : List UInt8}
    (at_s : Holds buf s (c :: rest)) : byteAt buf s = c ∧ c ≠ nul ∧ Holds buf (s + 1) rest := by
  obtain ⟨clean, junk, text⟩ := at_s
  refine ⟨Scan.getD_of_drop nul text, ?_, ?_, junk, Scan.drop_succ_of_drop text⟩
  · intro same
    exact clean (by simp [same])
  · exact fun member => clean (List.mem_cons_of_mem c member)

theorem holds_end {buf : List UInt8} {s : Nat} (at_s : Holds buf s []) : byteAt buf s = nul := by
  obtain ⟨-, junk, text⟩ := at_s
  exact Scan.getD_of_drop nul text

theorem holds_length {buf : List UInt8} {s : Nat} {u : List UInt8} (at_s : Holds buf s u) :
    u.length < buf.length := by
  obtain ⟨-, junk, text⟩ := at_s
  have lengths := congrArg List.length text
  rw [List.length_drop, List.length_append, List.length_cons] at lengths
  omega

theorem holds_skipSpaces {buf : List UInt8} {s : Nat} {u : List UInt8} (at_s : Holds buf s u) :
    Holds buf (skipSpaces buf s) (u.dropWhile isspace) :=
  holds_sublist isspace at_s (by decide) rfl rfl

theorem dropWhile_clean (p q : UInt8 → Bool) (u : List UInt8)
    (same : ∀ c ∈ u, p c = q c) : u.dropWhile p = u.dropWhile q := by
  induction u with
  | nil => rfl
  | cons c u ih =>
      rw [List.dropWhile_cons, List.dropWhile_cons, same c (by simp),
        ih (fun c' member => same c' (List.mem_cons_of_mem c member))]

theorem holds_skipComments {buf : List UInt8} (fuel s : Nat) (u : List UInt8)
    (enough : u.length ≤ fuel) (at_s : Holds buf s (u.dropWhile isspace)) :
    Holds buf (skipComments fuel buf s) (skipBlank u) := by
  induction fuel generalizing s u with
  | zero =>
      have none : u = [] := List.length_eq_zero_iff.mp (Nat.le_zero.mp enough)
      subst none
      rw [skipBlank_eq]
      exact at_s
  | succ fuel ih =>
      have shorter := Scan.length_dropWhile_le isspace u
      rw [skipBlank_eq, skipComments]
      cases shape : u.dropWhile isspace with
      | nil =>
          rw [shape] at at_s
          rw [holds_end at_s, if_neg (by decide)]
          exact at_s
      | cons c rest =>
          rw [shape] at at_s shorter
          obtain ⟨here, -, behind⟩ := holds_byte at_s
          rw [here]
          dsimp only
          split
          · have comment := Scan.length_dropWhile_le (· != newline) rest
            rw [List.length_cons] at shorter
            refine ih _ (rest.dropWhile (· != newline)) (by omega) (holds_skipSpaces ?_)
            refine holds_sublist inComment behind (by decide) rfl (dropWhile_clean _ _ rest ?_)
            intro c' member
            have other : c' ≠ nul := fun same => behind.1 (same ▸ member)
            simp [inComment, other]
          · exact at_s

theorem inToken_eq {u : List UInt8} (clean : nul ∉ u) :
    ∀ c ∈ u, inToken c = !isspace c := by
  intro c member
  have other : c ≠ nul := fun same => clean (same ▸ member)
  simp [inToken, other]

theorem cstring_token {buf : List UInt8} {s : Nat} {u : List UInt8} {c : UInt8}
    {rest : List UInt8} (at_s : Holds buf s u)
    (shape : u.dropWhile (fun c => !isspace c) = c :: rest) :
    cstring (buf.set (Scan.past inToken buf s) nul) s = u.takeWhile (fun c => !isspace c) := by
  obtain ⟨clean, junk, text⟩ := at_s
  have token_same := inToken_eq clean
  have split : u.takeWhile (fun c => !isspace c) ++ c :: rest = u := by
    rw [← shape, List.takeWhile_append_dropWhile]
  have inside : ∀ c' ∈ u.takeWhile (fun c => !isspace c), inToken c' = true := by
    intro c' member
    rw [token_same c' ((List.takeWhile_prefix _).mem member)]
    exact List.mem_takeWhile_imp (p := fun c => !isspace c) member
  have outside : inToken c = false := by
    have first := List.head?_dropWhile_not (fun c => !isspace c) u
    rw [shape] at first
    simp only [List.head?_cons, Bool.not_eq_false'] at first
    simp [inToken, first]
  have run : ∀ c' ∈ u.takeWhile (fun c => !isspace c), (c' != nul) = true := by
    intro c' member
    have other : c' ≠ nul := fun same => clean (same ▸ (List.takeWhile_prefix _).mem member)
    simpa using other
  rw [← split, List.append_assoc, List.cons_append] at text
  have stop : Scan.past inToken buf s = s + (u.takeWhile (fun c => !isspace c)).length := by
    rw [Scan.past, text, List.takeWhile_append_of_pos inside,
      List.takeWhile_cons_of_neg (by simp [outside]), List.append_nil]
  rw [stop, cstring, Scan.drop_set_behind nul text, List.takeWhile_append_of_pos run,
    List.takeWhile_cons_of_neg (by simp), List.append_nil]

theorem parseNumber_reads {buf : List UInt8} {s : Nat} {u : List UInt8} (at_s : Holds buf s u) :
    match readNumber u with
    | .error err => (parseNumber buf s).2 = .error err
    | .ok (data, rest) => ∃ next, parseNumber buf s = (buf, .ok (data, next)) ∧
        Holds buf next rest := by
  have start := holds_skipSpaces at_s
  have stop := holds_sublist inToken start (by decide) rfl rfl
  rw [dropWhile_clean _ _ _ (inToken_eq start.1)] at stop
  rw [readNumber, parseNumber]
  dsimp only
  cases shape : (u.dropWhile isspace).dropWhile (fun c => !isspace c) with
  | nil =>
      rw [shape] at stop
      rw [holds_end stop, if_pos rfl]
  | cons c rest =>
      rw [shape] at stop
      obtain ⟨here, other, behind⟩ := holds_byte stop
      rw [here, if_neg other, cstring_token start shape]
      dsimp only
      cases kstrtoull ((u.dropWhile isspace).takeWhile (fun c => !isspace c)) with
      | error err => rfl
      | ok data =>
          obtain ⟨-, junk, text⟩ := stop
          refine ⟨_, ?_, behind⟩
          rw [Scan.set_restore nul text]

/-- One call of the parser reads one entry, and leaves the buffer as it was
unless it fails. -/
theorem parseNextAllowlistEntry_reads {buf : List UInt8} {s : Nat} {u : List UInt8}
    (at_s : Holds buf s u) :
    match readEntry u with
    | .error err => (parseNextAllowlistEntry buf s).2 = .error err
    | .ok none => parseNextAllowlistEntry buf s = (buf, .done)
    | .ok (some (entry, rest)) => ∃ next,
        parseNextAllowlistEntry buf s = (buf, .entry next entry) ∧ Holds buf next rest := by
  have start : Holds buf (skipComments buf.length buf (skipSpaces buf s)) (skipBlank u) :=
    holds_skipComments buf.length _ u (holds_length at_s).le (holds_skipSpaces at_s)
  unfold readEntry parseNextAllowlistEntry
  dsimp only
  cases shape : skipBlank u with
  | nil =>
      rw [shape] at start
      rw [holds_end start, if_pos rfl]
  | cons c tail =>
      rw [shape] at start
      obtain ⟨here, other, -⟩ := holds_byte start
      rw [here, if_neg other]
      have first := parseNumber_reads start
      dsimp only
      cases read : readNumber (c :: tail) with
      | error err =>
          rw [read] at first
          dsimp only at first ⊢
          split
          · rename_i failed
            rw [failed] at first
            exact congrArg _ (Except.error.inj first)
          · rename_i passed
            rw [passed] at first
            cases first
      | ok result =>
          obtain ⟨msr, rest⟩ := result
          rw [read] at first
          obtain ⟨next, parsed, at_next⟩ := first
          rw [parsed]
          have second := parseNumber_reads at_next
          dsimp only
          cases read' : readNumber rest with
          | error err =>
              rw [read'] at second
              dsimp only at second ⊢
              split
              · rename_i failed
                rw [failed] at second
                exact congrArg _ (Except.error.inj second)
              · rename_i passed
                rw [passed] at second
                cases second
          | ok result =>
              obtain ⟨wmask, rest'⟩ := result
              rw [read'] at second
              obtain ⟨next', parsed', at_next'⟩ := second
              rw [parsed']
              exact ⟨next', rfl, at_next'⟩

theorem firstPass_reads {buf : List UInt8} (fuel s : Nat) (u : List UInt8)
    (enough : u.length < fuel) (at_s : Holds buf s u) :
    (firstPass fuel buf s).2 = readText u ∧
      ∀ entries, readText u = .ok entries → (firstPass fuel buf s).1 = buf := by
  induction fuel generalizing s u with
  | zero => omega
  | succ fuel ih =>
      have call := parseNextAllowlistEntry_reads at_s
      rw [readText_eq, firstPass]
      cases read : readEntry u with
      | error err =>
          rw [read] at call
          dsimp only at call ⊢
          split <;> rename_i parsed <;> rw [parsed] at call <;> cases call
          refine ⟨rfl, ?_⟩
          intro entries same
          cases same
      | ok result =>
          cases result with
          | none =>
              rw [read] at call
              rw [call]
              exact ⟨rfl, fun _ _ => rfl⟩
          | some found =>
              obtain ⟨entry, rest⟩ := found
              have shorter := readEntry_length read
              rw [read] at call
              obtain ⟨next, parsed, at_next⟩ := call
              have tail := ih next rest (by omega) at_next
              rw [parsed]
              dsimp only
              refine ⟨by rw [tail.1], ?_⟩
              intro entries same
              cases behind : readText rest with
              | error err =>
                  rw [behind] at same
                  cases same
              | ok rest_entries => exact tail.2 rest_entries behind

end MsrSafe
