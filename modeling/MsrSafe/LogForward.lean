import MsrSafe.SpankHooks
import MsrSafe.Lib.Scan
import Mathlib.Data.List.TakeWhile

/-! `slurm_spank_msrsafe_read_log` on its array of 1024 bytes, and which
characters of the log get to `slurm_info`. -/

namespace MsrSafe

open Interleave

/-- The array and `buffer_pos`, the indices stored to and the strings passed on so far. -/
structure ReadLog where
  buffer : List UInt8
  bufferPos : Nat
  stores : List Nat
  infos : List (List UInt8)

def ReadLog.store (s : ReadLog) (character : UInt8) : ReadLog :=
  { s with buffer := s.buffer.set s.bufferPos character, stores := s.stores ++ [s.bufferPos] }

def ReadLog.flush (s : ReadLog) : ReadLog :=
  let s := s.store nul
  { s with bufferPos := 0, infos := s.infos ++ [s.buffer.takeWhile (· != nul)] }

def readLogCharacter (s : ReadLog) : Option UInt8 → ReadLog
  | none => s.flush
  | some character =>
    if character = newline ∨ s.bufferPos = SLURM_SPANK_MSRSAFE_BUFFER_SIZE - 1 then s.flush
    else { s.store character with bufferPos := s.bufferPos + 1 }

def readLog : List UInt8 → ReadLog → ReadLog
  | [], s => readLogCharacter s none
  | character :: log, s => readLog log (readLogCharacter s (some character))

def readLogStart (buffer : List UInt8) : ReadLog := ⟨buffer, 0, [], []⟩

/-- What the forwarding of a log has to do: the strings are the lines, a long
one in pieces. -/
structure LogForwarded (log : List UInt8) (s : ReadLog) : Prop where
  everything : s.infos.flatten = log.filter (· ≠ newline)
  pieces : ∃ pieces : List (List (List UInt8)), pieces.flatten = s.infos ∧
    pieces.map List.flatten = log.splitOn newline ∧
    ∀ line ∈ pieces, line.flatten.length < SLURM_SPANK_MSRSAFE_BUFFER_SIZE → line = [line.flatten]
  short : ∀ text ∈ s.infos, text.length ≤ SLURM_SPANK_MSRSAFE_BUFFER_SIZE - 1
  inside : ∀ index ∈ s.stores, index < SLURM_SPANK_MSRSAFE_BUFFER_SIZE

structure ReadLog.Pending (s : ReadLog) (read : List UInt8) : Prop where
  size : s.buffer.length = SLURM_SPANK_MSRSAFE_BUFFER_SIZE
  position : s.bufferPos = read.length
  room : read.length < SLURM_SPANK_MSRSAFE_BUFFER_SIZE
  held : s.buffer.take read.length = read

theorem pending_start {buffer : List UInt8}
    (size : buffer.length = SLURM_SPANK_MSRSAFE_BUFFER_SIZE) :
    (readLogStart buffer).Pending [] where
  size := size
  position := rfl
  room := by decide
  held := List.take_zero

variable {s : ReadLog} {read : List UInt8}

theorem ReadLog.Pending.take_store (pending : s.Pending read) (character : UInt8) :
    (s.store character).buffer.take (read.length + 1) = read ++ [character] := by
  have room := pending.room
  rw [← pending.size] at room
  have kept : (s.buffer.set read.length character).take read.length = read := by
    rw [List.take_set_of_le (Nat.le_refl _), pending.held]
  have bound : read.length < (s.buffer.set read.length character).length := by
    rwa [List.length_set]
  rw [ReadLog.store, pending.position, List.take_succ_eq_append_getElem bound, kept,
    List.getElem_set_self]

theorem ReadLog.Pending.length_store (pending : s.Pending read) (character : UInt8) :
    (s.store character).buffer.length = SLURM_SPANK_MSRSAFE_BUFFER_SIZE := by
  rw [ReadLog.store, List.length_set, pending.size]

theorem ReadLog.Pending.push (pending : s.Pending read) (character : UInt8)
    (room : read.length ≠ SLURM_SPANK_MSRSAFE_BUFFER_SIZE - 1) :
    ReadLog.Pending { s.store character with bufferPos := s.bufferPos + 1 }
      (read ++ [character]) where
  size := pending.length_store character
  position := by
    rw [List.length_append, List.length_singleton]
    exact congrArg (· + 1) pending.position
  room := by
    have before := pending.room
    rw [List.length_append, List.length_singleton]
    omega
  held := by
    rw [List.length_append, List.length_singleton]
    exact pending.take_store character

theorem ReadLog.Pending.flush (pending : s.Pending read) : s.flush.Pending [] where
  size := pending.length_store nul
  position := rfl
  room := by decide
  held := List.take_zero

theorem ReadLog.Pending.infos_flush (pending : s.Pending read) :
    s.flush.infos = s.infos ++ [read.takeWhile (· != nul)] := by
  have text : (s.store nul).buffer.takeWhile (· != nul) = read.takeWhile (· != nul) := by
    rw [← List.take_append_drop (read.length + 1) (s.store nul).buffer, pending.take_store,
      List.append_assoc, List.singleton_append]
    exact Scan.takeWhile_terminated _ read _ nul rfl
  rw [ReadLog.flush, text]
  rfl

/-- The strings of the rest of a line behind what the array already holds: the
character that finds the array full is lost. -/
def cutLine : List UInt8 → List UInt8 → List (List UInt8)
  | [], read => [read.takeWhile (· != nul)]
  | character :: line, read =>
    if read.length = SLURM_SPANK_MSRSAFE_BUFFER_SIZE - 1 then
      read.takeWhile (· != nul) :: cutLine line []
    else cutLine line (read ++ [character])

def cutLines : List (List UInt8) → List UInt8 → List (List UInt8)
  | [], _ => []
  | line :: lines, read => cutLine line read ++ cutLines lines []

theorem cutLines_newline (lines : List (List UInt8)) (read : List UInt8) :
    cutLines ([] :: lines) read = read.takeWhile (· != nul) :: cutLines lines [] := rfl

theorem cutLines_full (character : UInt8) (lines : List (List UInt8)) (some_line : lines ≠ [])
    (full : read.length = SLURM_SPANK_MSRSAFE_BUFFER_SIZE - 1) :
    cutLines (lines.modifyHead (character :: ·)) read =
      read.takeWhile (· != nul) :: cutLines lines [] := by
  cases lines with
  | nil => exact absurd rfl some_line
  | cons line lines =>
      rw [List.modifyHead_cons, cutLines, cutLine, if_pos full, List.cons_append, cutLines]

theorem cutLines_room (character : UInt8) (lines : List (List UInt8))
    (room : read.length ≠ SLURM_SPANK_MSRSAFE_BUFFER_SIZE - 1) :
    cutLines (lines.modifyHead (character :: ·)) read = cutLines lines (read ++ [character]) := by
  cases lines with
  | nil => rfl
  | cons line lines => rw [List.modifyHead_cons, cutLines, cutLine, if_neg room, cutLines]

theorem infos_readLog (log : List UInt8) (pending : s.Pending read) :
    (readLog log s).infos = s.infos ++ cutLines (log.splitOn newline) read := by
  induction log generalizing s read with
  | nil => exact pending.infos_flush
  | cons character log ih =>
      rw [readLog, readLogCharacter, List.splitOn_cons_eq_if_modifyHead]
      by_cases broken : character = newline
      · rw [if_pos (.inl broken), if_pos (beq_iff_eq.mpr broken), ih pending.flush,
          pending.infos_flush, cutLines_newline, List.append_assoc, List.singleton_append]
      · rw [if_neg (fun same => broken (beq_iff_eq.mp same))]
        by_cases full : s.bufferPos = SLURM_SPANK_MSRSAFE_BUFFER_SIZE - 1
        · rw [if_pos (.inr full), ih pending.flush, pending.infos_flush, List.append_assoc,
            cutLines_full character _ (List.splitOn_ne_nil _ _) (pending.position ▸ full)]
          rfl
        · have room : read.length ≠ SLURM_SPANK_MSRSAFE_BUFFER_SIZE - 1 := pending.position ▸ full
          rw [if_neg (not_or.mpr ⟨broken, full⟩), ih (pending.push character room),
            cutLines_room character _ room]
          rfl

theorem pending_readLogCharacter (pending : s.Pending read) (character : Option UInt8) :
    ∃ read, (readLogCharacter s character).Pending read := by
  cases character with
  | none => exact ⟨[], pending.flush⟩
  | some character =>
      rw [readLogCharacter]
      split
      · exact ⟨[], pending.flush⟩
      · rename_i stays
        apply Exists.intro (read ++ [character])
        apply pending.push
        intro full
        exact stays (.inr (pending.position.trans full))

theorem stores_readLogCharacter (s : ReadLog) (character : Option UInt8) :
    (readLogCharacter s character).stores = s.stores ++ [s.bufferPos] := by
  cases character with
  | none => rfl
  | some character =>
      rw [readLogCharacter]
      split <;> rfl

theorem inside_readLogCharacter (pending : s.Pending read) (character : Option UInt8)
    (inside : ∀ index ∈ s.stores, index < SLURM_SPANK_MSRSAFE_BUFFER_SIZE) :
    ∀ index ∈ (readLogCharacter s character).stores, index < SLURM_SPANK_MSRSAFE_BUFFER_SIZE := by
  intro index member
  rw [stores_readLogCharacter] at member
  rcases List.mem_append.mp member with earlier | last
  · exact inside index earlier
  · rw [List.mem_singleton.mp last, pending.position]
    exact pending.room

theorem inside_readLog (log : List UInt8) (pending : s.Pending read)
    (inside : ∀ index ∈ s.stores, index < SLURM_SPANK_MSRSAFE_BUFFER_SIZE) :
    ∀ index ∈ (readLog log s).stores, index < SLURM_SPANK_MSRSAFE_BUFFER_SIZE := by
  induction log generalizing s read with
  | nil => exact inside_readLogCharacter pending none inside
  | cons character log ih =>
      obtain ⟨read', pending'⟩ := pending_readLogCharacter pending (some character)
      exact ih pending' (inside_readLogCharacter pending (some character) inside)

/-! ## What gets through -/

theorem length_takeWhile_le (text : List UInt8) :
    (text.takeWhile (· != nul)).length ≤ text.length :=
  (List.takeWhile_prefix _).length_le

theorem takeWhile_clean {text : List UInt8} (clean : nul ∉ text) :
    text.takeWhile (· != nul) = text := by
  rw [List.takeWhile_eq_self_iff]
  intro character member
  exact bne_iff_ne.mpr fun same => clean (same ▸ member)

theorem cutLine_short (line : List UInt8) (room : read.length < SLURM_SPANK_MSRSAFE_BUFFER_SIZE) :
    ∀ text ∈ cutLine line read, text.length ≤ SLURM_SPANK_MSRSAFE_BUFFER_SIZE - 1 := by
  have shorter := length_takeWhile_le read
  induction line generalizing read with
  | nil =>
      intro text member
      rw [List.mem_singleton.mp member]
      omega
  | cons character line ih =>
      intro text member
      rw [cutLine] at member
      split at member
      · rcases List.mem_cons.mp member with rfl | later
        · omega
        · exact ih (by decide) (length_takeWhile_le []) text later
      · apply ih _ (length_takeWhile_le _) text member
        rw [List.length_append, List.length_singleton]
        omega

theorem length_cutLine_le (line read : List UInt8) :
    (cutLine line read).flatten.length ≤ read.length + line.length := by
  induction line generalizing read with
  | nil =>
      rw [cutLine, List.flatten_singleton]
      exact length_takeWhile_le read
  | cons character line ih =>
      have shorter := length_takeWhile_le read
      rw [cutLine, List.length_cons]
      split
      · have rest := ih []
        rw [List.flatten_cons, List.length_append]
        rw [List.length_nil] at rest
        omega
      · have rest := ih (read ++ [character])
        rw [List.length_append, List.length_singleton] at rest
        omega

theorem length_cutLine_lt (line : List UInt8)
    (room : read.length < SLURM_SPANK_MSRSAFE_BUFFER_SIZE)
    (long : SLURM_SPANK_MSRSAFE_BUFFER_SIZE ≤ read.length + line.length) :
    (cutLine line read).flatten.length < read.length + line.length := by
  induction line generalizing read with
  | nil =>
      rw [List.length_nil] at long
      omega
  | cons character line ih =>
      rw [cutLine, List.length_cons]
      rw [List.length_cons] at long
      split
      · have shorter := length_takeWhile_le read
        have rest := length_cutLine_le line []
        rw [List.flatten_cons, List.length_append]
        rw [List.length_nil] at rest
        omega
      · have pushed : (read ++ [character]).length = read.length + 1 := by
          rw [List.length_append, List.length_singleton]
        have bound : (read ++ [character]).length < SLURM_SPANK_MSRSAFE_BUFFER_SIZE := by omega
        have rest := ih bound (by omega)
        omega

theorem cutLine_whole {line : List UInt8} (clean : nul ∉ read ++ line)
    (fits : read.length + line.length < SLURM_SPANK_MSRSAFE_BUFFER_SIZE) :
    cutLine line read = [read ++ line] := by
  induction line generalizing read with
  | nil =>
      rw [List.append_nil] at clean ⊢
      rw [cutLine, takeWhile_clean clean]
  | cons character line ih =>
      have shifted : read ++ character :: line = read ++ [character] ++ line := by
        rw [List.append_assoc, List.singleton_append]
      rw [List.length_cons] at fits
      rw [cutLine, if_neg (by omega), shifted]
      apply ih
      · rwa [← shifted]
      · rw [List.length_append, List.length_singleton]
        omega

theorem length_cutLines_le (lines : List (List UInt8)) :
    (cutLines lines []).flatten.length ≤ lines.flatten.length := by
  induction lines with
  | nil => exact Nat.le_refl 0
  | cons line lines ih =>
      have first := length_cutLine_le line []
      rw [cutLines, List.flatten_append, List.length_append, List.flatten_cons, List.length_append]
      rw [List.length_nil] at first
      omega

theorem length_cutLines_lt {lines : List (List UInt8)} {line : List UInt8} (member : line ∈ lines)
    (long : SLURM_SPANK_MSRSAFE_BUFFER_SIZE ≤ line.length) :
    (cutLines lines []).flatten.length < lines.flatten.length := by
  induction lines with
  | nil => cases member
  | cons head lines ih =>
      rw [cutLines, List.flatten_append, List.length_append, List.flatten_cons, List.length_append]
      rcases List.mem_cons.mp member with rfl | later
      · have first : (cutLine line []).flatten.length < 0 + line.length := by
          apply length_cutLine_lt line
          · decide
          · simpa using long
        have rest := length_cutLines_le lines
        omega
      · have first := length_cutLine_le head []
        have rest := ih later
        rw [List.length_nil] at first
        omega

theorem cutLines_whole {lines : List (List UInt8)} (clean : ∀ line ∈ lines, nul ∉ line)
    (fits : ∀ line ∈ lines, line.length < SLURM_SPANK_MSRSAFE_BUFFER_SIZE) :
    cutLines lines [] = lines := by
  induction lines with
  | nil => rfl
  | cons line lines ih =>
      have here : line ∈ line :: lines := List.mem_cons_self
      rw [cutLines, cutLine_whole (clean line here) (by simpa using fits line here),
        ih (fun line member => clean line (List.mem_cons_of_mem _ member))
          (fun line member => fits line (List.mem_cons_of_mem _ member))]
      rfl

theorem cutLines_short (lines : List (List UInt8)) :
    ∀ text ∈ cutLines lines [], text.length ≤ SLURM_SPANK_MSRSAFE_BUFFER_SIZE - 1 := by
  induction lines with
  | nil => exact fun _ member => absurd member List.not_mem_nil
  | cons line lines ih =>
      intro text member
      rcases List.mem_append.mp member with first | later
      · exact cutLine_short line (by decide) text first
      · exact ih text later

theorem flatten_splitOn (log : List UInt8) :
    (log.splitOn newline).flatten = log.filter (· ≠ newline) := by
  induction log with
  | nil => rfl
  | cons character log ih =>
      rw [List.splitOn_cons_eq_if_modifyHead]
      by_cases broken : character = newline
      · rw [if_pos (beq_iff_eq.mpr broken), List.flatten_cons, List.nil_append, ih,
          List.filter_cons_of_neg (by simp [broken])]
      · rw [if_neg (fun same => broken (beq_iff_eq.mp same)),
          List.filter_cons_of_pos (by simpa using broken), ← ih]
        cases lines : log.splitOn newline with
        | nil => exact absurd lines (List.splitOn_ne_nil _ _)
        | cons line lines => rfl

theorem clean_splitOn {log : List UInt8} (textual : nul ∉ log) :
    ∀ line ∈ log.splitOn newline, nul ∉ line := by
  intro line member ended
  have inside : nul ∈ (log.splitOn newline).flatten := List.mem_flatten.mpr ⟨line, member, ended⟩
  rw [flatten_splitOn] at inside
  exact textual (List.mem_of_mem_filter inside)

theorem actions_readLogLoop {σ : Type} (exec : Handler Slurm σ) (log read : List UInt8)
    (state : σ) :
    actions exec (readLogLoop log read) state =
      (cutLines (log.splitOn newline) read).map SlurmAction.slurmInfo := by
  induction log generalizing read state with
  | nil => rfl
  | cons character log ih =>
      have flushed : actions exec
          (Slurm.slurmInfo (read.takeWhile (· != nul)) >>= fun _ => readLogLoop log []) state =
          (read.takeWhile (· != nul) :: cutLines (log.splitOn newline) []).map .slurmInfo :=
        congrArg (List.cons _) (ih [] _)
      rw [readLogLoop, List.splitOn_cons_eq_if_modifyHead]
      by_cases broken : character = newline
      · rw [if_pos (.inl broken), if_pos (beq_iff_eq.mpr broken), flushed, cutLines_newline]
      · rw [if_neg (fun same => broken (beq_iff_eq.mp same))]
        by_cases full : read.length = SLURM_SPANK_MSRSAFE_BUFFER_SIZE - 1
        · rw [if_pos (.inr full), flushed, cutLines_full character _ (List.splitOn_ne_nil _ _) full]
        · rw [if_neg (not_or.mpr ⟨broken, full⟩), ih, cutLines_room character _ full]

theorem infos_readLogStart {buffer : List UInt8} (log : List UInt8)
    (size : buffer.length = SLURM_SPANK_MSRSAFE_BUFFER_SIZE) :
    (readLog log (readLogStart buffer)).infos = cutLines (log.splitOn newline) [] :=
  infos_readLog log (pending_start size)

theorem actions_slurmSpankMsrsafeReadLog {σ : Type} (exec : Handler Slurm σ) (stream : Nat)
    (state : σ) {buffer : List UInt8}
    (size : buffer.length = SLURM_SPANK_MSRSAFE_BUFFER_SIZE) :
    actions exec (slurmSpankMsrsafeReadLog (some stream)) state =
      .fgetcToEof stream ::
        (readLog (exec (.fgetcToEof stream) state).1 (readLogStart buffer)).infos.map .slurmInfo := by
  rw [infos_readLogStart _ size]
  exact congrArg (List.cons _) (actions_readLogLoop exec _ [] _)

theorem lost_of_long {buffer log line : List UInt8}
    (size : buffer.length = SLURM_SPANK_MSRSAFE_BUFFER_SIZE)
    (member : line ∈ log.splitOn newline)
    (long : SLURM_SPANK_MSRSAFE_BUFFER_SIZE ≤ line.length) :
    (readLog log (readLogStart buffer)).infos.flatten ≠ log.filter (· ≠ newline) := by
  intro everything
  have lost := length_cutLines_lt member long
  rw [← infos_readLogStart log size, everything, flatten_splitOn] at lost
  exact Nat.lt_irrefl _ lost

/-- The whole log gets through exactly when each of its lines fits into the array. -/
theorem logForwarded_readLog_iff {buffer log : List UInt8}
    (size : buffer.length = SLURM_SPANK_MSRSAFE_BUFFER_SIZE) (textual : nul ∉ log) :
    LogForwarded log (readLog log (readLogStart buffer)) ↔
      ∀ line ∈ log.splitOn newline, line.length < SLURM_SPANK_MSRSAFE_BUFFER_SIZE := by
  constructor
  · intro forwarded line member
    by_contra long
    exact lost_of_long size member (Nat.le_of_not_lt long) forwarded.everything
  · intro fits
    have whole : (readLog log (readLogStart buffer)).infos = log.splitOn newline := by
      calc
        _ = cutLines (log.splitOn newline) [] := infos_readLogStart log size
        _ = log.splitOn newline := cutLines_whole (clean_splitOn textual) fits
    constructor
    · rw [whole, flatten_splitOn]
    · apply Exists.intro ((log.splitOn newline).map ([·]))
      refine ⟨?_, ?_, ?_⟩
      · rw [whole]
        rw [← List.flatMap_def]
        exact List.flatMap_singleton' _
      · rw [List.map_map]
        exact List.map_id'' (fun _ => List.flatten_singleton) _
      · intro line member _
        obtain ⟨text, _, rfl⟩ := List.mem_map.mp member
        exact congrArg ([·]) (List.flatten_singleton).symm
    · rw [infos_readLogStart log size]
      exact cutLines_short _
    · exact inside_readLog log (pending_start size) (fun _ member => absurd member List.not_mem_nil)

theorem logForwarded_full_line :
    LogForwarded (ascii 'A' :: newline :: List.replicate 1023 (ascii 'B'))
      (readLog (ascii 'A' :: newline :: List.replicate 1023 (ascii 'B'))
        (readLogStart (List.replicate 1024 nul))) := by
  have lines : (ascii 'A' :: newline :: List.replicate 1023 (ascii 'B')).splitOn newline =
      [[ascii 'A'], List.replicate 1023 (ascii 'B')] := by
    rw [← List.singleton_append, List.splitOn_append_cons_self_of_not_mem (by decide),
      List.splitOn_eq_singleton (fun member => absurd (List.eq_of_mem_replicate member) (by decide))]
  have size : (List.replicate 1024 nul).length = SLURM_SPANK_MSRSAFE_BUFFER_SIZE :=
    List.length_replicate
  rw [logForwarded_readLog_iff size]
  · rw [lines]
    intro line member
    rcases List.mem_pair.mp member with rfl | rfl
    · decide
    · rw [List.length_replicate]
      decide
  · intro ended
    rcases List.mem_cons.mp ended with first | later
    · exact absurd first (by decide)
    · rcases List.mem_cons.mp later with second | third
      · exact absurd second (by decide)
      · exact absurd (List.eq_of_mem_replicate third) (by decide)

/-- Of a line of 1024 characters the last one is lost. -/
theorem logForwarded_lost :
    ¬LogForwarded (List.replicate 1024 (ascii 'A'))
      (readLog (List.replicate 1024 (ascii 'A')) (readLogStart (List.replicate 1024 nul))) := by
  intro forwarded
  have lines : (List.replicate 1024 (ascii 'A')).splitOn newline =
      [List.replicate 1024 (ascii 'A')] :=
    List.splitOn_eq_singleton
      (fun member => absurd (List.eq_of_mem_replicate member) (by decide))
  apply lost_of_long List.length_replicate
      (lines.symm ▸ List.mem_singleton_self (List.replicate 1024 (ascii 'A')))
  · rw [List.length_replicate]
    decide
  · exact forwarded.everything

end MsrSafe
