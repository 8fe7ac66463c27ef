import MsrSafe.AllowlistDump

/-! `msr_parse_allowlist` of msrsave.c: it copies what the allowlist device
shows into a file and takes that apart line by line. A pointer into the text is
the bytes from there up to the terminator. -/

namespace MsrSafe

structure Failure where
  err : Int
  nonzero : err ≠ 0
  deriving DecidableEq

def Failure.ofErrno (errno : Int) : Failure :=
  if failed : errno ≠ 0 then ⟨errno, failed⟩ else ⟨-1, by decide⟩

def Failure.minusOne : Failure := ⟨-1, by decide⟩

/-- Calls made one after the other until one fails: of each the `errno` it fails
with, or `none` when it does not. -/
def attempt : List (Option Int) → Except Failure Unit
  | [] => .ok ()
  | none :: later => attempt later
  | some errno :: _ => .error (.ofErrno errno)

def strchr (c : UInt8) : List UInt8 → Option (List UInt8)
  | [] => none
  | b :: s => if b = c then some (b :: s) else strchr c s

def cIsspace (c : UInt8) : Bool := (9 ≤ c && c ≤ 13) || c = 32

/-- The conversion `%zX` of `sscanf`: spaces, a sign, `0x`, and the digits. A
value that does not fit is the greatest one. -/
def scanHex (s : List UInt8) : Option (Word × List UInt8) :=
  let s := s.dropWhile cIsspace
  let negative := s.getD 0 nul = ascii '-'
  let s := if negative || s.getD 0 nul = ascii '+' then s.drop 1 else s
  let zero := s.getD 0 nul = ascii '0'
  let s := if zero then s.drop 1 else s
  let s := if zero && tolower (s.getD 0 nul) = ascii 'x' then s.drop 1 else s
  let (value, rest) := parseInteger 16 s 0
  if !zero && rest.length = s.length then none
  else if 2 ^ 64 ≤ value then some (BitVec.allOnes 64, rest)
  else some (if negative then -BitVec.ofNat 64 value else BitVec.ofNat 64 value, rest)

/-- `sscanf` with `"%zX %zX\n"`, when it returns 2. -/
def scanEntry (s : List UInt8) : Option AllowlistEntry := do
  let (msr, s) ← scanHex s
  let (wmask, _) ← scanHex s
  return { wmask := wmask, msr := msr }

/-! ## The parser -/

def countEntries : Nat → List UInt8 → Nat
  | 0, _ => 0
  | _, [] => 0
  | fuel + 1, c :: s =>
    (if c ≠ hash then 1 else 0) +
      match strchr newline (c :: s) with
      | none => 0
      | some found => countEntries fuel (found.drop 1)

def skipCommentLines : Nat → List UInt8 → Option (List UInt8)
  | 0, s => some s
  | fuel + 1, s =>
    if s.getD 0 nul = hash then
      match strchr newline s with
      | none => none
      | some found => skipCommentLines fuel (found.drop 1)
    else some s

/-- The second loop, for as many entries as the first one counted. Behind a line
without a newline the pointer is 1, which passes the test for NULL: `none` for
the pointer, and `none` for the result when it is used after all. -/
def parseEntries : Nat → Option (List UInt8) → Option (Except Failure (List AllowlistEntry))
  | 0, _ => some (.ok [])
  | _ + 1, none => none
  | numMsr + 1, some s =>
    match skipCommentLines s.length s with
    | none => some (.error .minusOne)
    | some s =>
      match scanEntry s with
      | none => some (.error .minusOne)
      | some entry =>
        match parseEntries numMsr ((strchr newline s).map (·.drop 1)) with
        | some (.ok entries) => some (.ok (entry :: entries))
        | other => other

/-- How the calls of `msr_parse_allowlist` turn out. `writeTmp` gives the turns
of the copying loop; `errno` is what an earlier call has left there. -/
structure ParseFaults where
  mkstemp : Option Int
  openAllowlist : Option Int
  writeTmp : Nat → Option Int
  closeTmp : Option Int
  closeAllowlist : Option Int
  statTmp : Option Int
  errno : Int
  mallocBuffer : Option Int
  openTmp : Option Int
  readTmp : Option Int
  closeTmpAgain : Option Int
  mallocOffset : Option Int
  mallocMask : Option Int

def ParseFaults.quiet : ParseFaults :=
  ⟨none, none, fun _ => none, none, none, none, 0, none, none, none, none, none, none⟩

def copyAllowlist (g : Globals) (writeTmp : Nat → Option Int) :
    Nat → Nat → Int → Option (Except Failure (List UInt8))
  | 0, _, _ => none
  | fuel + 1, turn, ppos =>
    match readAllowlist g 8192 true ppos with
    | none => none
    | some (.error err, _) => some (.error (.ofErrno err.number))
    | some (.ok [], _) => some (.ok [])
    | some (.ok (c :: line), ppos) =>
      match attempt [writeTmp turn] with
      | .error failure => some (.error failure)
      | .ok () =>
        match copyAllowlist g writeTmp fuel (turn + 1) ppos with
        | some (.ok text) => some (.ok (c :: line ++ text))
        | other => other

def parseCopy (faults : ParseFaults) (text : List UInt8) :
    Option (Except Failure (List AllowlistEntry)) :=
  match attempt [faults.closeTmp, faults.closeAllowlist, faults.statTmp] with
  | .error failure => some (.error failure)
  | .ok () =>
    if text.length = 0 then some (.error (.ofErrno faults.errno))
    else
      match attempt [faults.mallocBuffer, faults.openTmp, faults.readTmp, faults.closeTmpAgain] with
      | .error failure => some (.error failure)
      | .ok () =>
        let allowlistBuffer := text.takeWhile (· != nul)
        let numMsr := countEntries allowlistBuffer.length allowlistBuffer
        match attempt [faults.mallocOffset, faults.mallocMask] with
        | .error failure => some (.error failure)
        | .ok () => parseEntries numMsr (some allowlistBuffer)

/-- The arrays `msr_offset` and `msr_mask`, as one list. The copying loop takes
a turn for each entry of the list and one for the end. -/
def msrParseAllowlist (faults : ParseFaults) (g : Globals) :
    Option (Except Failure (List AllowlistEntry)) :=
  match attempt [faults.mkstemp, faults.openAllowlist] with
  | .error failure => some (.error failure)
  | .ok () =>
    match copyAllowlist g faults.writeTmp (g.allowlistNumentries + 1) 0 0 with
    | none => none
    | some (.error failure) => some (.error failure)
    | some (.ok text) => parseCopy faults text

/-! ## The dump of a list -/

theorem attempt_ok_or (faults : List (Option Int)) :
    attempt faults = .ok () ∨ ∃ failure, attempt faults = .error failure := by
  cases attempt faults with
  | ok => exact .inl rfl
  | error failure => exact .inr ⟨failure, rfl⟩

theorem strchr_append {c : UInt8} {run : List UInt8} (rest : List UInt8) (absent : c ∉ run) :
    strchr c (run ++ c :: rest) = some (c :: rest) := by
  induction run with
  | nil => simp [strchr]
  | cons b run ih =>
      rw [List.mem_cons, not_or] at absent
      rw [List.cons_append, strchr, if_neg (Ne.symm absent.1)]
      exact ih absent.2

theorem scanHex_hexLiteral (spaces : List UInt8) (blank : ∀ c ∈ spaces, cIsspace c = true)
    {width : Nat} (positive : 0 < width) (value : Word) {s : List UInt8}
    (stop : digitVal (s.getD 0 nul) = none) :
    scanHex (spaces ++ (hexLiteral width value ++ s)) = some (value, s) := by
  have skipped : (spaces ++ (hexLiteral width value ++ s)).dropWhile cIsspace =
      hexLiteral width value ++ s := by
    rw [List.dropWhile_append_of_pos blank]
    exact List.dropWhile_cons_of_neg (by decide)
  have parsed := parseInteger_hexDigits (hexDigits_lt width value) 0 stop
  rw [hexDigits_value, ← formatHex_eq] at parsed
  have some_digit : (formatHex width value ++ s).length ≠ s.length := by
    have long := hexDigits_length width value
    rw [formatHex_eq, List.length_append, List.length_map]
    omega
  have bound : ¬2 ^ 64 ≤ value.toNat := by
    have := value.isLt
    omega
  have prefixes : ascii '0' ≠ ascii '-' ∧ ascii '0' ≠ ascii '+' ∧
      tolower (ascii 'x') = ascii 'x' := by decide
  unfold scanHex
  rw [skipped]
  simp only [hexLiteral, List.cons_append, List.getD_cons_zero, prefixes, decide_false,
    Bool.or_self, Bool.false_eq_true, if_false, decide_true, if_true, List.drop_succ_cons,
    List.drop_zero, Bool.and_self, parsed, Bool.not_true, Bool.false_and, if_neg bound]
  simp

theorem newline_not_mem_hexLiteral (width : Nat) (value : Word) :
    newline ∉ hexLiteral width value :=
  fun member => hexLiteral_forall (p := (· ≠ newline)) (by decide) (by decide) width value
    newline member rfl

theorem scanEntry_line (e : AllowlistEntry) (rest : List UInt8) :
    scanEntry (readAllowlist.line e ++ rest) = some e := by
  have shape : readAllowlist.line e ++ rest =
      [] ++ (hexLiteral 8 e.msr ++ ([ascii ' '] ++ (hexLiteral 16 e.wmask ++ newline :: rest))) := by
    simp [readAllowlist.line]
  have stop_space : digitVal (([ascii ' '] ++ (hexLiteral 16 e.wmask ++ newline :: rest)).getD 0
      nul) = none := (by decide : digitVal (ascii ' ') = none)
  have stop_newline : digitVal ((newline :: rest).getD 0 nul) = none :=
    (by decide : digitVal newline = none)
  have msr := scanHex_hexLiteral [] (by simp) (show 0 < 8 by decide) e.msr stop_space
  have wmask := scanHex_hexLiteral [ascii ' '] (List.forall_mem_singleton.mpr (by decide))
    (show 0 < 16 by decide) e.wmask stop_newline
  rw [shape, scanEntry, msr]
  simp only [Option.bind_eq_bind, Option.bind_some, wmask]
  rfl

theorem strchr_line (e : AllowlistEntry) (rest : List UInt8) :
    strchr newline (readAllowlist.line e ++ rest) = some (newline :: rest) := by
  have space : newline ∉ [ascii ' '] := by decide
  have body : newline ∉ hexLiteral 8 e.msr ++ [ascii ' '] ++ hexLiteral 16 e.wmask := by
    simp only [List.mem_append, not_or]
    exact ⟨⟨newline_not_mem_hexLiteral 8 e.msr, space⟩, newline_not_mem_hexLiteral 16 e.wmask⟩
  rw [readAllowlist.line, List.append_assoc, List.singleton_append]
  exact strchr_append rest body

theorem line_start (e : AllowlistEntry) (rest : List UInt8) :
    ∃ s, readAllowlist.line e ++ rest = ascii '0' :: s := ⟨_, rfl⟩

theorem countEntries_lines (entries : List AllowlistEntry) (fuel : Nat)
    (enough : entries.length ≤ fuel) :
    countEntries fuel (entries.flatMap readAllowlist.line) = entries.length := by
  induction entries generalizing fuel with
  | nil => cases fuel <;> rfl
  | cons e entries ih =>
      cases fuel with
      | zero => simp at enough
      | succ fuel =>
          have found := strchr_line e (entries.flatMap readAllowlist.line)
          obtain ⟨s, start⟩ := line_start e (entries.flatMap readAllowlist.line)
          rw [List.length_cons] at enough
          rw [List.flatMap_cons, start, countEntries, ← start, found]
          dsimp only
          rw [List.drop_one, List.tail_cons, ih fuel (by omega), if_pos (by decide),
            List.length_cons, Nat.add_comm]

theorem skipCommentLines_entry (fuel : Nat) {s : List UInt8} (entry : s.getD 0 nul ≠ hash) :
    skipCommentLines fuel s = some s := by
  cases fuel with
  | zero => rfl
  | succ fuel => rw [skipCommentLines, if_neg entry]

theorem parseEntries_line (numMsr : Nat) (e : AllowlistEntry) (rest : List UInt8) :
    parseEntries (numMsr + 1) (some (readAllowlist.line e ++ rest)) =
      match parseEntries numMsr (some rest) with
      | some (.ok entries) => some (.ok (e :: entries))
      | other => other := by
  obtain ⟨s, start⟩ := line_start e rest
  have entry : (readAllowlist.line e ++ rest).getD 0 nul ≠ hash := by
    rw [start]
    exact (by decide : ascii '0' ≠ hash)
  rw [parseEntries, skipCommentLines_entry _ entry]
  dsimp only
  rw [scanEntry_line, strchr_line]
  rfl

theorem parseEntries_lines (entries : List AllowlistEntry) :
    parseEntries entries.length (some (entries.flatMap readAllowlist.line)) =
      some (.ok entries) := by
  induction entries with
  | nil => rfl
  | cons e entries ih => rw [List.length_cons, List.flatMap_cons, parseEntries_line, ih]

theorem strchr_header (rest : List UInt8) :
    strchr newline (readAllowlist.header ++ rest) = some (newline :: rest) := by
  have header : readAllowlist.header = readAllowlist.header.dropLast ++ [newline] := by decide
  rw [header, List.append_assoc, List.singleton_append]
  exact strchr_append rest (by decide)

theorem length_lines (entries : List AllowlistEntry) :
    entries.length ≤ (entries.flatMap readAllowlist.line).length := by
  induction entries with
  | nil => exact Nat.le_refl _
  | cons e entries ih =>
      have line := List.length_pos_iff.mpr (line_ne_nil e)
      rw [List.flatMap_cons, List.length_append, List.length_cons]
      omega

theorem dumpText_start (entries : List AllowlistEntry) :
    ∃ s, dumpText entries = hash :: s := ⟨_, rfl⟩

theorem countEntries_dumpText (entries : List AllowlistEntry) :
    countEntries (dumpText entries).length (dumpText entries) = entries.length := by
  obtain ⟨s, start⟩ := dumpText_start entries
  have found : strchr newline (dumpText entries) =
      some (newline :: entries.flatMap readAllowlist.line) := strchr_header _
  have length : (dumpText entries).length = s.length + 1 := by rw [start, List.length_cons]
  have enough : entries.length ≤ s.length := by
    have lines := length_lines entries
    have header := header_length
    rw [dumpText, List.length_append] at length
    omega
  rw [length, start, countEntries, ← start, found, if_neg (by decide), Nat.zero_add]
  exact countEntries_lines entries _ enough

theorem skipCommentLines_lines (entries : List AllowlistEntry) (fuel : Nat) :
    skipCommentLines fuel (entries.flatMap readAllowlist.line) =
      some (entries.flatMap readAllowlist.line) := by
  refine skipCommentLines_entry fuel ?_
  cases entries with
  | nil => exact (by decide : nul ≠ hash)
  | cons e entries =>
      obtain ⟨s, start⟩ := line_start e (entries.flatMap readAllowlist.line)
      rw [List.flatMap_cons, start]
      exact (by decide : ascii '0' ≠ hash)

theorem skipCommentLines_dumpText (entries : List AllowlistEntry) :
    skipCommentLines (dumpText entries).length (dumpText entries) =
      some (entries.flatMap readAllowlist.line) := by
  obtain ⟨s, start⟩ := dumpText_start entries
  have found : strchr newline (dumpText entries) =
      some (newline :: entries.flatMap readAllowlist.line) := strchr_header _
  rw [start, List.length_cons, skipCommentLines, List.getD_cons_zero, if_pos rfl, ← start, found]
  exact skipCommentLines_lines entries _

theorem parseEntries_dumpText (entries : List AllowlistEntry) :
    parseEntries entries.length (some (dumpText entries)) = some (.ok entries) := by
  have lines := parseEntries_lines entries
  cases entries with
  | nil => rfl
  | cons e entries =>
      rw [List.length_cons, parseEntries, skipCommentLines_lines] at lines
      rw [List.length_cons, parseEntries, skipCommentLines_dumpText]
      exact lines

theorem copyAllowlist_of_readSeries {g : Globals} (writeTmp : Nat → Option Int) {fuel : Nat}
    (turn : Nat) {ppos : Int} {text : List UInt8} {left : Int}
    (series : readSeries g (List.replicate fuel 8192) ppos = some (text, left)) :
    copyAllowlist g writeTmp fuel turn ppos = some (.ok text) ∨
      ∃ failure, copyAllowlist g writeTmp fuel turn ppos = some (.error failure) ∧
        ∃ turn errno, writeTmp turn = some errno := by
  induction fuel generalizing turn ppos text left with
  | zero => cases series
  | succ fuel ih =>
      rw [List.replicate_succ, readSeries] at series
      rw [copyAllowlist]
      split at series
      · rename_i next read
        cases series
        rw [read]
        exact .inl rfl
      · rename_i c line next read
        rw [read]
        dsimp only
        obtain ⟨⟨more, left'⟩, rest, same⟩ := Option.map_eq_some_iff.mp series
        cases same
        cases written : writeTmp turn with
        | some errno => exact .inr ⟨_, rfl, turn, errno, written⟩
        | none =>
            dsimp only [attempt]
            rcases ih (turn + 1) rest with copied | ⟨failure, failed, cause⟩
            · rw [copied]
              exact .inl rfl
            · rw [failed]
              exact .inr ⟨failure, rfl, cause⟩
      · cases series

theorem parseCopy_dumpText (faults : ParseFaults) (entries : List AllowlistEntry) :
    parseCopy faults (dumpText entries) = some (.ok entries) ∨
      ∃ failure, parseCopy faults (dumpText entries) = some (.error failure) := by
  unfold parseCopy
  rcases attempt_ok_or [faults.closeTmp, faults.closeAllowlist, faults.statTmp] with
    copied | ⟨failure, failed⟩
  · rw [copied]
    dsimp only
    split
    · exact .inr ⟨_, rfl⟩
    rcases attempt_ok_or [faults.mallocBuffer, faults.openTmp, faults.readTmp,
      faults.closeTmpAgain] with read | ⟨failure, failed⟩
    · rw [read, takeWhile_dumpText, countEntries_dumpText]
      dsimp only
      rcases attempt_ok_or [faults.mallocOffset, faults.mallocMask] with
        allocated | ⟨failure, failed⟩
      · rw [allocated]
        exact .inl (parseEntries_dumpText entries)
      · rw [failed]
        exact .inr ⟨failure, rfl⟩
    · rw [failed]
      exact .inr ⟨failure, rfl⟩
  · rw [failed]
    exact .inr ⟨failure, rfl⟩

theorem readSeries_tool {g : Globals} {entries : List AllowlistEntry} (shows : Shows g entries)
    (nonempty : entries ≠ []) :
    readSeries g (List.replicate (entries.length + 1) 8192) 0 = some (dumpText entries, 0) := by
  apply readSeries_dumpText shows nonempty
  · intro count member
    rw [List.eq_of_mem_replicate member]
    decide
  · rw [List.length_replicate]
    exact Nat.lt_succ_self _

theorem msrParseAllowlist_installed {g : Globals} {entries : List AllowlistEntry}
    (shows : Shows g entries) (nonempty : entries ≠ []) (faults : ParseFaults) :
    msrParseAllowlist faults g = some (.ok entries) ∨
      ∃ failure, msrParseAllowlist faults g = some (.error failure) := by
  have series := readSeries_tool shows nonempty
  unfold msrParseAllowlist
  rcases attempt_ok_or [faults.mkstemp, faults.openAllowlist] with opened | ⟨failure, failed⟩
  · rw [opened, shows.count]
    dsimp only
    rcases copyAllowlist_of_readSeries faults.writeTmp 0 series with
      copied | ⟨failure, failed, -⟩
    · rw [copied]
      exact parseCopy_dumpText faults entries
    · rw [failed]
      exact .inr ⟨failure, rfl⟩
  · rw [failed]
    exact .inr ⟨failure, rfl⟩

theorem msrParseAllowlist_nil {g : Globals} (shows : Shows g []) (faults : ParseFaults) :
    ∃ failure, msrParseAllowlist faults g = some (.error failure) := by
  have copied : copyAllowlist g faults.writeTmp (g.allowlistNumentries + 1) 0 0 =
      some (.ok []) := by
    have last := readAllowlist_end shows 8192 true (Nat.le_refl 0)
    rw [copyAllowlist]
    rw [show ((0 : Nat) : Int) = 0 from rfl] at last
    rw [last]
  rw [msrParseAllowlist, copied]
  rcases attempt_ok_or [faults.mkstemp, faults.openAllowlist] with opened | ⟨failure, failed⟩
  · rw [opened]
    dsimp only
    rw [parseCopy]
    rcases attempt_ok_or [faults.closeTmp, faults.closeAllowlist, faults.statTmp] with
      closed | ⟨failure, failed⟩
    · rw [closed]
      exact ⟨_, rfl⟩
    · rw [failed]
      exact ⟨failure, rfl⟩
  · rw [failed]
    exact ⟨failure, rfl⟩

theorem msrParseAllowlist_shown {g : Globals} {entries : List AllowlistEntry}
    (shows : Shows g entries) {faults : ParseFaults} {parsed : List AllowlistEntry}
    (succeeded : msrParseAllowlist faults g = some (.ok parsed)) :
    parsed = entries ∧ entries ≠ [] := by
  by_cases empty : entries = []
  · subst empty
    obtain ⟨failure, failed⟩ := msrParseAllowlist_nil shows faults
    cases succeeded.symm.trans failed
  · rcases msrParseAllowlist_installed shows empty faults with installed | ⟨failure, failed⟩
    · cases succeeded.symm.trans installed
      exact ⟨rfl, empty⟩
    · cases succeeded.symm.trans failed

theorem parseCopy_quiet (errno : Int) (entries : List AllowlistEntry) :
    parseCopy { ParseFaults.quiet with errno := errno } (dumpText entries) =
      some (.ok entries) := by
  have some_text : ¬(dumpText entries).length = 0 := by
    obtain ⟨s, start⟩ := dumpText_start entries
    rw [start]
    exact Nat.succ_ne_zero _
  rw [parseCopy]
  dsimp only [ParseFaults.quiet, attempt]
  rw [if_neg some_text, takeWhile_dumpText, countEntries_dumpText]
  exact parseEntries_dumpText entries

theorem msrParseAllowlist_quiet {g : Globals} {entries : List AllowlistEntry}
    (shows : Shows g entries) (nonempty : entries ≠ []) (errno : Int) :
    msrParseAllowlist { ParseFaults.quiet with errno := errno } g = some (.ok entries) := by
  rcases copyAllowlist_of_readSeries (fun _ => none) 0 (readSeries_tool shows nonempty) with
    copied | ⟨_, -, _, _, cause⟩
  · rw [msrParseAllowlist]
    dsimp only [ParseFaults.quiet, attempt]
    rw [shows.count, copied]
    exact parseCopy_quiet errno entries
  · cases cause

/-- msrsave reads every list the device can show, listed twice or not: the reads
give the header with the first line and then a line each, the first loop counts
the entries, and the second one gives them in their order. -/
theorem msrParseAllowlist_dump {g : Globals} {entries : List AllowlistEntry}
    (shows : Shows g entries) (nonempty : entries ≠ []) (errno : Int) :
    (∀ (i : Nat) e, entries[i]? = some e → readAllowlist g 8192 true i =
      some (Except.ok ((if i = 0 then readAllowlist.header else []) ++ readAllowlist.line e),
        (i : Int) + 1)) ∧
    readSeries g (List.replicate (entries.length + 1) 8192) 0 = some (dumpText entries, 0) ∧
    countEntries (dumpText entries).length (dumpText entries) = entries.length ∧
    msrParseAllowlist { ParseFaults.quiet with errno := errno } g = some (.ok entries) := by
  exact ⟨fun i e at_i => readAllowlist_line shows (by decide) at_i, readSeries_tool shows nonempty,
    countEntries_dumpText entries, msrParseAllowlist_quiet shows nonempty errno⟩

def threeEntries : List AllowlistEntry :=
  [{ wmask := 0xFF, msr := 0x10 }, { wmask := 0, msr := 0x10000000A },
    { wmask := BitVec.allOnes 64, msr := 0x10 }]

theorem msrParseAllowlist_dump_three :
    let g : Globals := ⟨[⟨threeEntries, true⟩], some 0, 3, fun _ => []⟩
    msrParseAllowlist { ParseFaults.quiet with errno := 0 } g = some (.ok threeEntries) :=
  (msrParseAllowlist_dump ⟨fun _ => ⟨0, rfl, rfl⟩, rfl⟩ (by decide) 0).2.2.2

end MsrSafe
