import MsrSafe.BatchExecution
import MsrSafe.MsrsaveLines
import MsrSafe.RestoreUndo

/-! A `msr_restore` that fails, on any files and with any outcome of its calls:
before which of its writes it can stop, and on which files it writes at all. -/

namespace MsrSafe

open Interleave

def MsrAction.Writes (cpu : Nat) : MsrAction → Prop
  | .wrmsr c _ _ => c = cpu
  | .batchOp c _ => c = cpu
  | _ => False

/-- The register files, whatever their reads and writes return: nothing that is
done to a processor changes the registers of another one. -/
structure Processors (σ : Type) where
  exec : Handler Msr σ
  regs : σ → Nat → CpuRegs
  frame : ∀ action s cpu, ¬MsrAction.Writes cpu action → regs (exec action s).2 cpu = regs s cpu

/-- How the calls of `msr_restore` turn out, with `fgetc`, of which a read that
fails looks like the end of the file. -/
structure RestoreOutcomes extends RestoreFaults where
  fgetc : Option Int

/-- What the stream gives out of the file: `fgetc` comes behind `count` words,
and when its read fails the stream has no more than these. -/
def RestoreOutcomes.stream (outcomes : RestoreOutcomes) (count : Nat) (file : List UInt8) :
    List UInt8 :=
  match outcomes.fgetc with
  | none => file
  | some _ => file.take (8 * count)

section Restore

variable (vfs : Word → Bool) (pl : Platform)

def restoreListed (outcomes : RestoreOutcomes) (numCpu : Nat) (file : List UInt8) :
    Option (Except Failure (List AllowlistEntry)) → Prog Msr (Option (Except Failure Unit))
  | none => .done none
  | some (.error failure) => .done (some (.error failure))
  | some (.ok entries) =>
    some <$> (restoreFile vfs pl outcomes.toRestoreFaults entries numCpu
      (outcomes.stream (entries.length * numCpu) file)).run

def msrRestoreFile (outcomes : RestoreOutcomes) (reads : FileReads) (numCpu : Nat)
    (file : List UInt8) : Prog Msr (Option (Except Failure Unit)) :=
  restoreListed vfs pl outcomes numCpu file (msrParseFile outcomes.parse reads)

def restoreRows (entries : List AllowlistEntry) (buffer : Nat → Word) : Nat → Nat → Prog Msr Unit
  | 0, _ => .done ()
  | left + 1, i => do
    restoreMsrs vfs i (i * entries.length) buffer entries 0
    restoreRows entries buffer left (i + 1)

end Restore

def Validated (outcomes : RestoreOutcomes) (reads : FileReads) (numCpu : Nat)
    (file : List UInt8) : Prop :=
  ∃ entries, msrParseFile outcomes.parse reads = some (.ok entries) ∧
    outcomes.allowlistMtime ≤ outcomes.restoreMtime ∧
    file.length = 8 * (entries.length * numCpu)

/-- Where a restore of the same files ends when it succeeds. -/
def Finishes {σ : Type} (P : Processors σ) (vfs : Word → Bool) (reads : FileReads) (numCpu : Nat)
    (file : List UInt8) (s s' : σ) : Prop :=
  ∃ pl outcomes, run P.exec (msrRestoreFile vfs pl outcomes reads numCpu file) s =
    (some (.ok ()), s')

/-- On a bad file `msr_restore` fails and writes nothing; when it fails at all,
it has restored the processors below some `k` and written to no other. -/
structure StopsAtBoundary {σ : Type} (P : Processors σ) (vfs : Word → Bool) (pl : Platform)
    (outcomes : RestoreOutcomes) (reads : FileReads) (numCpu : Nat) (file : List UInt8)
    (s : σ) : Prop where
  refuses : ¬Validated outcomes reads numCpu file →
    let prog := msrRestoreFile vfs pl outcomes reads numCpu file
    (∃ failure, (run P.exec prog s).1 = some (.error failure)) ∧
      ∀ action ∈ actions P.exec prog s, ∀ cpu, ¬action.Writes cpu
  stops :
    let prog := msrRestoreFile vfs pl outcomes reads numCpu file
    ∀ failure, (run P.exec prog s).1 = some (.error failure) →
      ∃ k ≤ numCpu, (∀ action ∈ actions P.exec prog s, ∀ cpu, action.Writes cpu → cpu < k) ∧
        (∀ cpu, k ≤ cpu → P.regs (run P.exec prog s).2 cpu = P.regs s cpu) ∧
        ∀ s', Finishes P vfs reads numCpu file s s' →
          ∀ cpu < k, P.regs (run P.exec prog s).2 cpu = P.regs s' cpu
  finishes : Validated outcomes reads numCpu file →
    ∃ s', Finishes P vfs reads numCpu file s s'

/-- The file goes on behind the words, the read by which `fgetc` would notice
fails, and everything before goes well. -/
structure Overlooks (outcomes : RestoreOutcomes) (reads : FileReads) (numCpu : Nat)
    (file : List UInt8) : Prop where
  longer : ∃ entries, msrParseFile outcomes.parse reads = some (.ok entries) ∧
    8 * (entries.length * numCpu) < file.length
  notOlder : outcomes.allowlistMtime ≤ outcomes.restoreMtime
  calls : ∀ fault ∈ [outcomes.statRestore, outcomes.statAllowlist, outcomes.mallocBuffer,
    outcomes.openFile, outcomes.readFile, outcomes.closeFile], fault = none
  unread : outcomes.fgetc ≠ none

theorem restoreListed_msrRestore (vfs : Word → Bool) (pl : Platform) (faults : RestoreFaults)
    (g : Globals) (numCpu : Nat) (file : List UInt8) :
    restoreListed vfs pl ⟨faults, none⟩ numCpu file (msrParseAllowlist faults.parse g) =
      msrRestore vfs pl faults g numCpu file := by
  rw [msrRestore]
  rcases msrParseAllowlist faults.parse g with _ | ⟨failure | entries⟩ <;> rfl

def WritesOnly (cpus : Set Nat) (action : MsrAction) : Prop :=
  ∀ cpu, action.Writes cpu → cpu ∈ cpus

abbrev Within {α : Type} (cpus : Set Nat) (p : Prog Msr α) : Prop :=
  Guarded (WritesOnly cpus) (fun _ _ => True) (fun _ => True) p

section Within

variable {α β : Type} {cpus : Set Nat} {vfs : Word → Bool} {cpu : Nat}

theorem within_bind {p : Prog Msr α} {f : α → Prog Msr β} (first : Within cpus p)
    (rest : ∀ result, Within cpus (f result)) : Within cpus (p >>= f) :=
  guarded_bind p f first fun result _ => rest result

theorem writesOnly_of_no_write {action : MsrAction} (none : ∀ cpu, ¬action.Writes cpu) :
    WritesOnly cpus action := fun cpu writes => absurd writes (none cpu)

theorem within_pread (cpus : Set Nat) (vfs : Word → Bool) (cpu : Nat) (offset : Word) :
    Within cpus (pread vfs cpu offset) := by
  rw [pread]
  split
  swap
  · trivial
  apply msrRead_guarded cpu offset 8 true
  · exact writesOnly_of_no_write fun _ => not_false
  · exact fun _ _ _ => writesOnly_of_no_write fun _ => not_false

theorem within_pwrite (inside : cpu ∈ cpus) (offset data : Word) :
    Within cpus (pwrite vfs cpu offset data) := by
  have own : ∀ reg value, WritesOnly cpus (.wrmsr cpu reg value) := by
    intro reg value c same
    cases same
    exact inside
  rw [pwrite]
  split
  swap
  · trivial
  apply msrWrite_guarded cpu offset 8 true data
  · exact writesOnly_of_no_write fun _ => not_false
  · exact fun _ _ _ => writesOnly_of_no_write fun _ => not_false
  · exact fun _ _ _ _ _ => own _ _
  · exact fun _ _ _ => own _ _

theorem within_restoreMsr (inside : cpu ∈ cpus) (e : AllowlistEntry) (word : Word) :
    Within cpus (restoreMsr vfs cpu e word) := by
  rw [restoreMsr]
  split
  swap
  · trivial
  apply within_bind (within_pread cpus vfs cpu e.msr)
  intro answer
  cases answer with
  | error err => trivial
  | ok readVal =>
      dsimp only
      split
      · exact within_bind (within_pwrite inside _ _) fun _ => trivial
      · trivial

theorem within_restoreMsrs (inside : cpu ∈ cpus) (base : Nat) (buffer : Nat → Word)
    (entries : List AllowlistEntry) (j : Nat) :
    Within cpus (restoreMsrs vfs cpu base buffer entries j) := by
  induction entries generalizing j with
  | nil => trivial
  | cons e entries ih => exact within_bind (within_restoreMsr inside e _) fun _ => ih (j + 1)

theorem within_restoreRows_of_mem (entries : List AllowlistEntry) (buffer : Nat → Word)
    (left i : Nat) (inside : ∀ c, i ≤ c → c < i + left → c ∈ cpus) :
    Within cpus (restoreRows vfs entries buffer left i) := by
  induction left generalizing i with
  | zero => trivial
  | succ left ih =>
      apply within_bind (within_restoreMsrs (inside i (Nat.le_refl i) (by omega)) _ _ entries 0)
      intro _
      exact ih (i + 1) fun c from_i below => inside c (by omega) (by omega)

theorem within_restoreRows (entries : List AllowlistEntry) (buffer : Nat → Word) (left i : Nat) :
    Within {c | i ≤ c ∧ c < i + left} (restoreRows vfs entries buffer left i) :=
  within_restoreRows_of_mem entries buffer left i fun _ from_i below => ⟨from_i, below⟩

theorem run_within {σ : Type} (P : Processors σ) {p : Prog Msr α} (within : Within cpus p)
    (outside : cpu ∉ cpus) (s : σ) : P.regs (run P.exec p s).2 cpu = P.regs s cpu := by
  have step : ∀ t action, P.regs t cpu = P.regs s cpu → WritesOnly cpus action →
      P.regs (P.exec action t).2 cpu = P.regs s cpu ∧ True := by
    intro t action same only
    refine ⟨?_, trivial⟩
    rw [P.frame action t cpu fun writes => outside (only cpu writes), same]
  exact (run_guarded P.exec (fun t => P.regs t cpu = P.regs s cpu) step p s rfl within).1

end Within

def Processors.ofKernel (allow : AllowMap) (pl : Platform) : Processors Machine where
  exec := kernel allow pl
  regs := Machine.regs
  frame := by
    intro action m cpu other
    cases action with
    | maskexists reg => rfl
    | writemask reg => rfl
    | rdmsr c reg => exact congrFun (rdmsrSafeOnCpu_regs pl c reg m) cpu
    | wrmsr c reg value =>
        funext reg'
        exact wrmsrSafeOnCpu_frame pl (fun same => other same.1.symm) value m
    | batchOp c op =>
        change (safeBatchOp pl c op m).2.regs cpu = m.regs cpu
        rw [safeBatchOp_regs]
        split
        · exact Function.update_of_ne (Ne.symm other) _ _
        · rfl

/-! ## The loop over the processors -/

section Rows

variable {σ : Type} (exec : Handler Msr σ) (vfs : Word → Bool) (pl : Platform)
  (entries : List AllowlistEntry) (buffer : Nat → Word)

theorem restoreCpus_rows (faults : MsrFaults) (left i : Nat) (s : σ) :
    let loop := (restoreCpus vfs pl faults entries buffer left i).run
    ∃ n ≤ left, (run exec loop s).2 = (run exec (restoreRows vfs entries buffer n i) s).2 ∧
      actions exec loop s = actions exec (restoreRows vfs entries buffer n i) s ∧
      ((run exec loop s).1 = .ok () → n = left) := by
  induction left generalizing i s with
  | zero => exact ⟨0, Nat.le_refl 0, rfl, rfl, fun _ => rfl⟩
  | succ left ih =>
      dsimp only
      rw [restoreCpus]
      cases openMsr pl faults i with
      | error failure => exact ⟨0, Nat.zero_le _, rfl, rfl, fun ok => by cases ok⟩
      | ok =>
          rw [lift_ok_bind, run_except_bind, actions_except_bind, run_except_lift,
            actions_except_lift]
          dsimp only
          generalize row : restoreMsrs vfs i (i * entries.length) buffer entries 0 = turn
          cases attempt [faults.closeMsr i] with
          | error failure =>
              refine ⟨1, Nat.le_add_left 1 left, ?_, ?_, fun ok => by cases ok⟩
              · rw [restoreRows, row, run_bind]
                rfl
              · rw [restoreRows, row, actions_bind]
                rfl
          | ok =>
              rw [lift_ok_bind]
              obtain ⟨n, within, state, trace, whole⟩ := ih (i + 1) (run exec turn s).2
              refine ⟨n + 1, Nat.succ_le_succ within, ?_, ?_, fun ok => congrArg (· + 1) (whole ok)⟩
              · rw [restoreRows, row, run_bind, state]
              · rw [restoreRows, row, actions_bind, trace]

variable {exec vfs entries buffer}

theorem restoreRows_add (n more i : Nat) (s : σ) :
    (run exec (restoreRows vfs entries buffer (n + more) i) s).2 =
      (run exec (restoreRows vfs entries buffer more (i + n))
        (run exec (restoreRows vfs entries buffer n i) s).2).2 := by
  induction n generalizing i s with
  | zero => rw [Nat.zero_add, Nat.add_zero, restoreRows, run_done]
  | succ n ih =>
      rw [Nat.succ_add, restoreRows, run_bind, ih, restoreRows, run_bind, Nat.add_right_comm,
        Nat.add_assoc]

theorem restoreRows_frame (P : Processors σ) {left i cpu : Nat}
    (outside : ¬(i ≤ cpu ∧ cpu < i + left)) (s : σ) :
    P.regs (run P.exec (restoreRows vfs entries buffer left i) s).2 cpu = P.regs s cpu :=
  run_within P (within_restoreRows entries buffer left i) outside s

theorem restoreRows_first (P : Processors σ) {left : Nat} (some_row : 0 < left) (s : σ) :
    P.regs (run P.exec (restoreRows vfs entries buffer left 0) s).2 0 =
      P.regs (run P.exec (restoreMsrs vfs 0 0 buffer entries 0) s).2 0 := by
  cases left with
  | zero => cases some_row
  | succ left =>
      rw [restoreRows, run_bind, restoreRows_frame P (by omega), Nat.zero_mul]

theorem restoreRows_writes {left i cpu : Nat} {s : σ} {action : MsrAction}
    (member : action ∈ actions exec (restoreRows vfs entries buffer left i) s)
    (writes : action.Writes cpu) : i ≤ cpu ∧ cpu < i + left :=
  actions_guarded exec (fun _ _ => trivial) _ s (within_restoreRows entries buffer left i) action
    member cpu writes

end Rows

theorem stream_length_iff {outcomes : RestoreOutcomes} {count : Nat} {file : List UInt8} :
    (outcomes.stream count file).length = 8 * count ↔
      file.length = 8 * count ∨ outcomes.fgetc ≠ none ∧ 8 * count < file.length := by
  rw [RestoreOutcomes.stream]
  cases outcomes.fgetc with
  | none => simp
  | some errno =>
      simp only [List.length_take, ne_eq, reduceCtorEq, not_false_eq_true, true_and]
      omega

theorem stream_words {outcomes : RestoreOutcomes} {count : Nat} {file : List UInt8}
    (whole : (outcomes.stream count file).length = 8 * count) :
    outcomes.stream count file = file.take (8 * count) := by
  rw [RestoreOutcomes.stream] at whole ⊢
  cases read : outcomes.fgetc with
  | none =>
      rw [read] at whole
      exact (List.take_of_length_le whole.le).symm
  | some errno => rfl

theorem msrParseFile_cases (faults : ParseFaults) (reads : FileReads) :
    (∃ failure, msrParseFile faults reads = some (.error failure)) ∨
      msrParseFile faults reads =
        some (parseStarts (entryStarts (visibleText (fileContent reads)))) := by
  by_cases unhindered : Unhindered faults reads
  · exact .inr (msrParseFile_unhindered unhindered)
  · exact .inl (msrParseFile_hindered unhindered)

theorem msrParseFile_ok {faults : ParseFaults} {reads : FileReads}
    {entries : List AllowlistEntry} (parsed : msrParseFile faults reads = some (.ok entries)) :
    parseStarts (entryStarts (visibleText (fileContent reads))) = .ok entries := by
  rcases msrParseFile_cases faults reads with ⟨failure, failed⟩ | read
  · rw [failed] at parsed
    cases parsed
  · exact Option.some.inj (read.symm.trans parsed)

structure Accepted (outcomes : RestoreOutcomes) (reads : FileReads) (numCpu : Nat)
    (file : List UInt8) (entries : List AllowlistEntry) : Prop where
  parsed : msrParseFile outcomes.parse reads = some (.ok entries)
  notOlder : outcomes.allowlistMtime ≤ outcomes.restoreMtime
  calls : ∀ fault ∈ [outcomes.statRestore, outcomes.statAllowlist, outcomes.mallocBuffer,
    outcomes.openFile, outcomes.readFile, outcomes.closeFile], fault = none
  size : file.length = 8 * (entries.length * numCpu) ∨
    outcomes.fgetc ≠ none ∧ 8 * (entries.length * numCpu) < file.length

section Files

variable {σ : Type} {vfs : Word → Bool} {pl : Platform} {outcomes : RestoreOutcomes}
  {reads : FileReads} {numCpu : Nat} {file : List UInt8}

def restoreBuffer (entries : List AllowlistEntry) (numCpu : Nat) (file : List UInt8) :
    Nat → Word :=
  fileWords (entries.length * numCpu) (file.take (8 * (entries.length * numCpu)))

theorem msrRestoreFile_accepted {entries : List AllowlistEntry}
    (accepted : Accepted outcomes reads numCpu file entries) :
    msrRestoreFile vfs pl outcomes reads numCpu file =
      some <$> (restoreCpus vfs pl outcomes.msr entries
        (restoreBuffer entries numCpu file) numCpu 0).run := by
  obtain ⟨parsed, notOlder, calls, size⟩ := accepted
  simp only [List.forall_mem_cons, List.not_mem_nil, false_implies, implies_true, and_true] at calls
  obtain ⟨statRestore, statAllowlist, mallocBuffer, openFile, fread, closeFile⟩ := calls
  have whole := stream_length_iff.mpr size
  have opened : attempt [outcomes.openFile, outcomes.readFile] = .ok () := by
    rw [openFile, fread]
    rfl
  have closed : attempt [outcomes.closeFile] = .ok () := by
    rw [closeFile]
    rfl
  have read := readFile_whole opened closed whole
  rw [stream_words whole] at read
  have younger : ¬outcomes.restoreMtime < outcomes.allowlistMtime := not_lt.mpr notOlder
  rw [msrRestoreFile, parsed, restoreListed, restoreFile, stream_words whole, read, statRestore,
    statAllowlist, mallocBuffer]
  exact congrArg (fun prog : Tool Unit => some <$> prog.run) (if_neg younger)

theorem msrRestoreFile_cases (vfs : Word → Bool) (pl : Platform) (outcomes : RestoreOutcomes)
    (reads : FileReads) (numCpu : Nat) (file : List UInt8) :
    (∃ failure,
      msrRestoreFile vfs pl outcomes reads numCpu file = .done (some (.error failure))) ∨
      ∃ entries, Accepted outcomes reads numCpu file entries := by
  rw [msrRestoreFile]
  rcases msrParseFile_cases outcomes.parse reads with ⟨failure, failed⟩ | parsed
  · rw [failed]
    exact .inl ⟨failure, rfl⟩
  cases listed : parseStarts (entryStarts (visibleText (fileContent reads))) with
  | error failure =>
      rw [parsed, listed]
      exact .inl ⟨failure, rfl⟩
  | ok entries =>
      rw [listed] at parsed
      rw [parsed, restoreListed]
      rcases restoreFile_cases vfs pl outcomes.toRestoreFaults entries numCpu
          (outcomes.stream (entries.length * numCpu) file) with
        ⟨failure, failed⟩ | ⟨looked, notOlder, allocated, buffer, read, -⟩
      · rw [failed]
        exact .inl ⟨failure, rfl⟩
      · obtain ⟨opened, closed, whole, -⟩ := readFile_ok read
        rw [attempt_eq_ok_iff] at looked allocated opened closed
        refine .inr ⟨entries, parsed, notOlder, ?_, stream_length_iff.mp whole⟩
        intro fault member
        simp only [List.mem_cons, List.not_mem_nil, or_false]
          at member looked allocated opened closed
        rcases member with rfl | rfl | rfl | rfl | rfl | rfl
        · exact looked _ (.inl rfl)
        · exact looked _ (.inr rfl)
        · exact allocated _ rfl
        · exact opened _ (.inl rfl)
        · exact opened _ (.inr rfl)
        · exact closed _ rfl

theorem finishes_rows {P : Processors σ} {entries : List AllowlistEntry} {s s' : σ}
    (accepted : Accepted outcomes reads numCpu file entries)
    (finishes : Finishes P vfs reads numCpu file s s') :
    s' = (run P.exec
      (restoreRows vfs entries (restoreBuffer entries numCpu file) numCpu 0) s).2 := by
  obtain ⟨pl', outcomes', finished⟩ := finishes
  rcases msrRestoreFile_cases vfs pl' outcomes' reads numCpu file with
    ⟨failure, failed⟩ | ⟨entries', accepted'⟩
  · rw [failed] at finished
    cases finished
  have same : entries' = entries :=
    Except.ok.inj ((msrParseFile_ok accepted'.parsed).symm.trans (msrParseFile_ok accepted.parsed))
  subst same
  rw [msrRestoreFile_accepted accepted'] at finished
  have loop := run_map_inj (Option.some_injective _) finished
  obtain ⟨n, -, state, -, whole⟩ := restoreCpus_rows P.exec vfs pl' entries'
    (restoreBuffer entries' numCpu file) outcomes'.msr numCpu 0 s
  rw [loop] at state whole
  have all := whole rfl
  subst all
  exact state

theorem msrRestoreFile_stops (P : Processors σ) (vfs : Word → Bool) (pl : Platform)
    (outcomes : RestoreOutcomes) (reads : FileReads) (numCpu : Nat) (file : List UInt8) (s : σ) :
    let prog := msrRestoreFile vfs pl outcomes reads numCpu file
    ∃ k ≤ numCpu, (∀ action ∈ actions P.exec prog s, ∀ cpu, action.Writes cpu → cpu < k) ∧
      (∀ cpu, k ≤ cpu → P.regs (run P.exec prog s).2 cpu = P.regs s cpu) ∧
      ∀ s', Finishes P vfs reads numCpu file s s' →
        ∀ cpu < k, P.regs (run P.exec prog s).2 cpu = P.regs s' cpu := by
  dsimp only
  rcases msrRestoreFile_cases vfs pl outcomes reads numCpu file with
    ⟨failure, failed⟩ | ⟨entries, accepted⟩
  · rw [failed]
    refine ⟨0, Nat.zero_le _, ?_, fun cpu _ => rfl, ?_⟩
    · intro action member
      cases member
    · intro s' _ cpu below
      exact absurd below (Nat.not_lt_zero cpu)
  obtain ⟨k, within, state, trace, -⟩ := restoreCpus_rows P.exec vfs pl entries
    (restoreBuffer entries numCpu file) outcomes.msr numCpu 0 s
  rw [msrRestoreFile_accepted accepted, run_map, actions_map]
  dsimp only
  rw [state, trace]
  refine ⟨k, within, ?_, ?_, ?_⟩
  · intro action member cpu writes
    exact (restoreRows_writes member writes).2.trans_eq (Nat.zero_add k)
  · intro cpu beyond
    exact restoreRows_frame P (by omega) s
  · intro s' finishes cpu below
    rw [finishes_rows accepted finishes]
    generalize restoreBuffer entries numCpu file = buffer
    obtain ⟨more, rfl⟩ := Nat.exists_eq_add_of_le within
    -- what comes behind the first `k` turns does not touch their processors
    calc
      P.regs (run P.exec (restoreRows vfs entries buffer k 0) s).2 cpu =
          P.regs (run P.exec (restoreRows vfs entries buffer more (0 + k))
            (run P.exec (restoreRows vfs entries buffer k 0) s).2).2 cpu :=
        (restoreRows_frame P (by omega) _).symm
      _ = P.regs (run P.exec (restoreRows vfs entries buffer (k + more) 0) s).2 cpu := by
        rw [restoreRows_add]

def Platform.faultless (count : Nat) : Platform :=
  ⟨count, fun _ => true, fun _ _ _ => false, fun _ _ _ _ => false⟩

theorem faultless_online {count cpu : Nat} (below : cpu < count) :
    (Platform.faultless count).online cpu = true := by
  rw [Platform.online, Bool.and_eq_true]
  exact ⟨decide_eq_true below, rfl⟩

theorem msrRestoreFile_succeeds {entries : List AllowlistEntry}
    (accepted : Accepted outcomes reads numCpu file entries) (quiet : outcomes.msr = .quiet)
    (exec : Handler Msr σ) (s : σ) :
    (run exec (msrRestoreFile vfs (.faultless numCpu) outcomes reads numCpu file) s).1 =
      some (.ok ()) := by
  have online : ∀ cpu < 0 + numCpu, (Platform.faultless numCpu).online cpu = true := by
    intro cpu below
    exact faultless_online (by omega)
  have loop := restoreCpus_quiet exec vfs entries (restoreBuffer entries numCpu file) numCpu 0
    online s
  rw [msrRestoreFile_accepted accepted, run_map, quiet, loop]

theorem finishes_of_succeeds {P : Processors σ} {s : σ}
    (succeeds : (run P.exec (msrRestoreFile vfs pl outcomes reads numCpu file) s).1 =
      some (.ok ())) :
    Finishes P vfs reads numCpu file s
      (run P.exec (msrRestoreFile vfs pl outcomes reads numCpu file) s).2 :=
  ⟨pl, outcomes, Prod.ext succeeds rfl⟩

theorem validated_finishes (P : Processors σ) (vfs : Word → Bool) (s : σ)
    (validated : Validated outcomes reads numCpu file) :
    ∃ s', Finishes P vfs reads numCpu file s s' := by
  obtain ⟨entries, parsed, notOlder, size⟩ := validated
  let quiet : RestoreOutcomes := ⟨{ RestoreFaults.quiet with
    parse := outcomes.parse
    restoreMtime := outcomes.restoreMtime
    allowlistMtime := outcomes.allowlistMtime }, none⟩
  have accepted : Accepted quiet reads numCpu file entries := by
    refine ⟨parsed, notOlder, ?_, .inl size⟩
    simp [quiet, RestoreFaults.quiet]
  exact ⟨_, finishes_of_succeeds (msrRestoreFile_succeeds accepted rfl P.exec s)⟩

theorem stopsAtBoundary_of_noticed (noticed : ¬Overlooks outcomes reads numCpu file)
    (P : Processors σ) (vfs : Word → Bool) (pl : Platform) (s : σ) :
    StopsAtBoundary P vfs pl outcomes reads numCpu file s where
  refuses := by
    intro invalid
    rcases msrRestoreFile_cases vfs pl outcomes reads numCpu file with
      ⟨failure, failed⟩ | ⟨entries, accepted⟩
    · rw [failed]
      refine ⟨⟨failure, rfl⟩, ?_⟩
      intro action member
      cases member
    · exfalso
      rcases accepted.size with size | ⟨unread, longer⟩
      · exact invalid ⟨entries, accepted.parsed, accepted.notOlder, size⟩
      · have unnoticed := accepted.calls
        exact noticed ⟨⟨entries, accepted.parsed, longer⟩, accepted.notOlder, unnoticed, unread⟩
  stops := fun _ _ => msrRestoreFile_stops P vfs pl outcomes reads numCpu file s
  finishes := validated_finishes P vfs s

theorem overlooks_accepted (overlooks : Overlooks outcomes reads numCpu file) :
    ∃ entries, Accepted outcomes reads numCpu file entries ∧
      ¬Validated outcomes reads numCpu file := by
  obtain ⟨⟨entries, parsed, longer⟩, notOlder, calls, unread⟩ := overlooks
  refine ⟨entries, ⟨parsed, notOlder, calls, .inr ⟨unread, longer⟩⟩, ?_⟩
  rintro ⟨entries', parsed', -, size⟩
  cases parsed.symm.trans parsed'
  omega

end Files

/-- Whatever the register files do, a restore stops at the boundary of a
processor and does not act on a bad file, exactly when it does not overlook that
the file goes on. -/
theorem stopsAtBoundary_iff (vfs : Word → Bool) (outcomes : RestoreOutcomes) (reads : FileReads)
    (numCpu : Nat) (file : List UInt8) :
    (∀ (σ : Type) (P : Processors σ) (pl : Platform) (msr : MsrFaults) (s : σ),
      StopsAtBoundary P vfs pl { outcomes with msr := msr } reads numCpu file s) ↔
      ¬Overlooks outcomes reads numCpu file := by
  constructor
  · intro stops overlooks
    have overlooks' : Overlooks { outcomes with msr := .quiet } reads numCpu file :=
      ⟨overlooks.longer, overlooks.notOlder, overlooks.calls, overlooks.unread⟩
    obtain ⟨entries, accepted, invalid⟩ := overlooks_accepted overlooks'
    obtain ⟨⟨failure, failed⟩, -⟩ := (stops Machine (.ofKernel (fun _ => none) (.faultless numCpu))
      (.faultless numCpu) .quiet ⟨fun _ _ => 0, []⟩).refuses invalid
    rw [msrRestoreFile_succeeds accepted rfl] at failed
    cases failed
  · intro noticed σ P pl msr s
    apply stopsAtBoundary_of_noticed
    intro overlooks
    exact noticed ⟨overlooks.longer, overlooks.notOlder, overlooks.calls, overlooks.unread⟩

def byteRegister : FileReads := [.ok ("0x10 0xff\n".toList.map ascii)]

def byteEntry : AllowlistEntry := { wmask := 0xff, msr := 16 }

def unreadBlock : RestoreOutcomes := ⟨.quiet, some 5⟩

def blockAndByte : List UInt8 := List.replicate 4097 0

theorem length_blockAndByte : blockAndByte.length = 4097 := List.length_replicate

theorem unreadBlock_accepted : Accepted unreadBlock byteRegister 512 blockAndByte [byteEntry] where
  parsed := by decide +kernel
  notOlder := by decide
  calls := by decide
  size := .inr ⟨by decide, by rw [length_blockAndByte]; decide⟩

def byteProcessors : Processors Machine := .ofKernel (.ofEntries [byteEntry]) (.faultless 512)

def byteMachine : Machine := ⟨fun _ _ => 0x1234, []⟩

theorem blockAndByte_word : restoreBuffer [byteEntry] 512 blockAndByte 0 = 0 := by decide +kernel

theorem byteEntry_row (buffer : Nat → Word) (word : buffer 0 = 0) :
    byteProcessors.regs (run byteProcessors.exec
      (restoreMsrs (fun _ => true) 0 0 buffer [byteEntry] 0) byteMachine).2 0 16 = 0x1200 := by
  rw [restoreMsrs, restoreMsrs, word]
  decide +kernel

def byteRestore : Prog Msr (Option (Except Failure Unit)) :=
  msrRestoreFile (fun _ => true) (.faultless 512) unreadBlock byteRegister 512 blockAndByte

theorem byteRestore_succeeds : (run byteProcessors.exec byteRestore byteMachine).1 =
    some (.ok ()) :=
  msrRestoreFile_succeeds unreadBlock_accepted rfl byteProcessors.exec byteMachine

theorem byteRestore_writes :
    byteProcessors.regs (run byteProcessors.exec byteRestore byteMachine).2 0 16 = 0x1200 := by
  have ended := finishes_rows unreadBlock_accepted (finishes_of_succeeds byteRestore_succeeds)
  rw [byteRestore, ended, restoreRows_first byteProcessors (by decide)]
  exact byteEntry_row _ blockAndByte_word

theorem not_validated_blockAndByte : ¬Validated unreadBlock byteRegister 512 blockAndByte := by
  rintro ⟨entries, parsed, -, size⟩
  cases unreadBlock_accepted.parsed.symm.trans parsed
  rw [length_blockAndByte] at size
  cases size

/-- With one word for each of 512 processors and a byte more the restore
succeeds, and the register has its value out of this file. -/
theorem stopsAtBoundary_unread_block :
    (run byteProcessors.exec byteRestore byteMachine).1 = some (.ok ()) ∧
      byteProcessors.regs (run byteProcessors.exec byteRestore byteMachine).2 0 16 = 0x1200 ∧
      ¬StopsAtBoundary byteProcessors (fun _ => true) (.faultless 512) unreadBlock byteRegister 512
        blockAndByte byteMachine := by
  refine ⟨byteRestore_succeeds, byteRestore_writes, ?_⟩
  intro stops
  obtain ⟨⟨failure, failed⟩, -⟩ := stops.refuses not_validated_blockAndByte
  cases failed.symm.trans byteRestore_succeeds

end MsrSafe
