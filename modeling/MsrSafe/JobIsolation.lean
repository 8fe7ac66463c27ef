import MsrSafe.Mediation
import MsrSafe.MsrsaveLoops

/-! A job between `msr_save` and `msr_restore`: whatever its users do to the
registers is undone. What they can change is what the masks let through, and
that is what was saved. -/

namespace MsrSafe

open Interleave

theorem kernel_regs (allow : AllowMap) (pl : Platform) (action : MsrAction) {m m' : Machine}
    (same : m.regs = m'.regs) :
    (kernel allow pl action m).1 = (kernel allow pl action m').1 ∧
      (kernel allow pl action m).2.regs = (kernel allow pl action m').2.regs := by
  obtain ⟨regs, log⟩ := m
  obtain ⟨regs', log'⟩ := m'
  cases same
  cases action with
  | maskexists reg => exact ⟨rfl, rfl⟩
  | writemask reg => exact ⟨rfl, rfl⟩
  | rdmsr cpu reg =>
      unfold kernel rdmsrSafeOnCpu Machine.rdmsrSafe
      by_cases online : pl.online cpu = true
      · by_cases fault : pl.rdFault cpu (regs cpu) reg = true <;> simp [online, fault]
      · simp [online]
  | wrmsr cpu reg value =>
      unfold kernel wrmsrSafeOnCpu Machine.wrmsrSafe
      by_cases online : pl.online cpu = true
      · by_cases fault : pl.wrFault cpu (regs cpu) reg value = true <;>
          simp [online, fault, Machine.setReg]
      · simp [online]
  | batchOp cpu op =>
      unfold kernel safeBatchOp Machine.rdmsrSafe Machine.wrmsrSafe
      by_cases unread : pl.rdFault cpu (regs cpu) op.msr = true
      · simp [unread]
      by_cases write : op.isrdmsr = 0#16
      case neg => simp [unread, write]
      by_cases unwritten : pl.wrFault cpu (regs cpu) op.msr
          (op.msrdata &&& op.wmask ||| regs cpu op.msr &&& ~~~op.wmask) = true <;>
        simp [unread, write, unwritten, Machine.setReg]

theorem run_kernel_regs {α : Type} (allow : AllowMap) (pl : Platform) (p : Prog Msr α)
    {m m' : Machine} (same : m.regs = m'.regs) :
    (run (kernel allow pl) p m).1 = (run (kernel allow pl) p m').1 ∧
      (run (kernel allow pl) p m).2.regs = (run (kernel allow pl) p m').2.regs :=
  run_simulates (kernel allow pl) (kernel allow pl) (fun m m' => m.regs = m'.regs)
    (fun action _ _ _ same => kernel_regs allow pl action same) p m m' same
    (guarded_of_all (fun _ => trivial) (fun _ => trivial) p)

def Confined (allow : AllowMap) (regs₀ regs : Nat → CpuRegs) : Prop :=
  ∀ cpu reg, Mask.AgreeOff (maskOf allow reg) (regs cpu reg) (regs₀ cpu reg)

def runCalls (exec : Handler Msr Machine) (calls : List SystemCall) (m : Machine) : Machine :=
  calls.foldl (fun m call => (run exec call.prog m).2) m

theorem confined_systemCall {allow : AllowMap} {regs₀ : Nat → CpuRegs} (pl : Platform)
    (call : SystemCall) {m : Machine} (confined : Confined allow regs₀ m.regs) :
    Confined allow regs₀ (run (kernel allow pl) call.prog m).2.regs := by
  have unlogged := run_kernel_regs allow pl call.prog
    (show m.regs = (⟨m.regs, []⟩ : Machine).regs from rfl)
  have safe : Protected allow regs₀ ⟨m.regs, []⟩ := by
    refine ⟨?_, confined⟩
    intro access member
    cases member
  have kept := run_guarded (kernel allow pl) (Protected allow regs₀)
    (fun m action safe permitted => kernel_protected pl action m safe permitted)
    call.prog ⟨m.regs, []⟩ safe (guarded_systemCall call)
  rw [unlogged.2]
  exact kept.1.regs

theorem confined_runCalls {allow : AllowMap} {regs₀ : Nat → CpuRegs} (pl : Platform)
    (calls : List SystemCall) {m : Machine} (confined : Confined allow regs₀ m.regs) :
    Confined allow regs₀ (runCalls (kernel allow pl) calls m).regs := by
  unfold runCalls
  induction calls generalizing m with
  | nil => exact confined
  | cons call calls ih => exact ih (confined_systemCall pl call confined)

structure Faultless (allow : AllowMap) (pl : Platform) : Prop where
  read : ∀ cpu own reg, Listed allow reg → pl.rdFault cpu own reg = false
  write : ∀ cpu own reg value, Listed allow reg → pl.wrFault cpu own reg value = false

def AllowlistEntry.register (e : AllowlistEntry) : Addr := e.msr.setWidth 32

def Readable (allow : AllowMap) (vfs : Word → Bool) (e : AllowlistEntry) : Prop :=
  vfs e.msr = true ∧ Listed allow e.register

/-- What is in the buffer for an entry: the bits of the mask, or a mark. -/
structure Saved (allow : AllowMap) (vfs : Word → Bool) (own : CpuRegs) (e : AllowlistEntry)
    (word : Word) : Prop where
  readable : Readable allow vfs e →
    word = own e.register &&& e.wmask ∧ isGoodValue word e.wmask = true
  unreadable : ¬Readable allow vfs e → isGoodValue word e.wmask = false

section Files

variable {allow : AllowMap} {vfs : Word → Bool} {pl : Platform} {cpu : Nat}

theorem run_pread (vfs : Word → Bool) (faultless : Faultless allow pl)
    (online : pl.online cpu = true)
    (e : AllowlistEntry) (m : Machine) :
    (run (kernel allow pl) (pread vfs cpu e.msr) m).2.regs = m.regs ∧
      (Readable allow vfs e →
        (run (kernel allow pl) (pread vfs cpu e.msr) m).1 = .ok (m.regs cpu e.register)) ∧
      (¬Readable allow vfs e →
        ∃ err, (run (kernel allow pl) (pread vfs cpu e.msr) m).1 = .error err) := by
  obtain ⟨answer, regs⟩ := run_msrRead allow online e.msr m
  unfold pread
  by_cases passed : vfs e.msr = true
  · rw [if_pos passed]
    refine ⟨regs, fun readable => ?_, fun unreadable => ⟨.eacces, ?_⟩⟩
    · have listed : ¬allow.maskexists (e.register.setWidth 64) = false := by
        rw [Bool.not_eq_false]
        exact readable.2
      have fault := faultless.read cpu (m.regs cpu) e.register readable.2
      refine answer.trans ((if_neg listed).trans (if_neg ?_))
      exact Bool.not_eq_true _ ▸ fault
    · have unlisted : allow.maskexists (e.register.setWidth 64) = false := by
        rw [← Bool.not_eq_true]
        exact fun listed => unreadable ⟨passed, listed⟩
      exact answer.trans (if_pos unlisted)
  · rw [if_neg passed]
    exact ⟨rfl, fun readable => absurd readable.1 passed, fun _ => ⟨_, rfl⟩⟩

theorem run_pwrite (faultless : Faultless allow pl) (online : pl.online cpu = true)
    {e : AllowlistEntry} (readable : Readable allow vfs e) (data : Word) (m : Machine) :
    (run (kernel allow pl) (pwrite vfs cpu e.msr data) m).2.regs =
      Function.update m.regs cpu (Function.update (m.regs cpu) e.register
        (Mask.merge (maskOf allow e.register) (m.regs cpu e.register) data)) := by
  have written := run_msrWrite allow online e.msr data m
  have read_fault := faultless.read cpu (m.regs cpu) e.register readable.2
  have write_fault := faultless.write cpu (m.regs cpu) e.register
    (Mask.merge (maskOf allow e.register) (m.regs cpu e.register) data) readable.2
  unfold pwrite
  rw [if_pos readable.1]
  dsimp only at written
  rw [show (e.msr.setWidth 32 : Addr) = e.register from rfl,
    show allow.writemask (e.register.setWidth 64) = maskOf allow e.register from rfl] at written
  by_cases readonly : maskOf allow e.register = 0
  · rw [if_pos readonly] at written
    rw [written, readonly, Mask.merge_zero, Function.update_eq_self, Function.update_eq_self]
  · rw [if_neg readonly, if_neg] at written
    · exact written.2
    · rintro (⟨-, fault⟩ | fault)
      · exact absurd (read_fault.symm.trans fault) (by decide)
      · exact absurd (write_fault.symm.trans fault) (by decide)

theorem saveMsr_saves (faultless : Faultless allow pl) (online : pl.online cpu = true)
    (e : AllowlistEntry) {m m' : Machine} {word : Word}
    (finished : run (kernel allow pl) (saveMsr vfs cpu e).run m = (.ok word, m')) :
    m'.regs = m.regs ∧ Saved allow vfs (m.regs cpu) e word := by
  obtain ⟨regs, read, unread⟩ := run_pread vfs faultless online e m
  obtain ⟨rfl, stored⟩ := saveMsr_word e finished
  refine ⟨regs, fun readable => ?_, fun unreadable => ?_⟩
  · rw [read readable] at stored
    exact stored
  · obtain ⟨err, failed⟩ := unread unreadable
    rw [failed] at stored
    exact stored

theorem saveCpus_saves (faultless : Faultless allow pl) (faults : MsrFaults)
    (entries : List AllowlistEntry) (left i : Nat) (buffer : Nat → Word) {m m' : Machine}
    {buffer' : Nat → Word}
    (finished : run (kernel allow pl) (saveCpus vfs pl faults entries left i buffer).run m =
      (.ok buffer', m')) :
    m'.regs = m.regs ∧ (∀ k < i * entries.length, buffer' k = buffer k) ∧
      ∀ c, i ≤ c → c < i + left → pl.online c = true ∧
        ∀ t e, entries[t]? = some e →
          Saved allow vfs (m.regs c) e (buffer' (c * entries.length + t)) := by
  refine saveCpus_stores (P := fun c e word => Saved allow vfs (m.regs c) e word) ?_ faults
    entries left i buffer rfl finished
  intro cpu online e between after word start saved
  obtain ⟨regs, stored⟩ := saveMsr_saves faultless online e saved
  rw [start] at regs stored
  exact ⟨regs, stored⟩

/-- The turn of an entry that can be read, when a write that is made merges its
data under the mask of the list: the word that was saved goes in under both masks. -/
theorem restoreMsr_merges {own₀ : CpuRegs} {e : AllowlistEntry}
    (good : isGoodValue (own₀ e.register &&& e.wmask) e.wmask = true) {m between : Machine}
    (read : run (kernel allow pl) (pread vfs cpu e.msr) m =
      (.ok (m.regs cpu e.register), between))
    (kept : between.regs = m.regs)
    (write : own₀ e.register &&& e.wmask ≠ m.regs cpu e.register &&& e.wmask →
      (run (kernel allow pl) (pwrite vfs cpu e.msr
          (Mask.merge e.wmask (m.regs cpu e.register) (own₀ e.register))) between).2.regs =
        Function.update between.regs cpu (Function.update (between.regs cpu) e.register
          (Mask.merge (maskOf allow e.register) (between.regs cpu e.register)
            (Mask.merge e.wmask (m.regs cpu e.register) (own₀ e.register))))) :
    (run (kernel allow pl) (restoreMsr vfs cpu e (own₀ e.register &&& e.wmask)) m).2.regs =
      Function.update m.regs cpu (Function.update (m.regs cpu) e.register
        (Mask.merge (e.wmask &&& maskOf allow e.register) (m.regs cpu e.register)
          (own₀ e.register))) := by
  rw [restoreMsr, good, if_pos rfl, run_bind, read]
  dsimp only
  by_cases changed : own₀ e.register &&& e.wmask ≠ m.regs cpu e.register &&& e.wmask
  · have written := write changed
    rw [if_pos changed, run_bind]
    rw [kept, Mask.merge_merge] at written
    exact written
  · rw [if_neg changed, Mask.merge_of_agree_on (not_not.mp changed).symm,
      Function.update_eq_self, Function.update_eq_self]
    exact kept

theorem restoreMsr_good (faultless : Faultless allow pl) (online : pl.online cpu = true)
    {own₀ : CpuRegs} {e : AllowlistEntry} (readable : Readable allow vfs e)
    (good : isGoodValue (own₀ e.register &&& e.wmask) e.wmask = true) (m : Machine) :
    (run (kernel allow pl) (restoreMsr vfs cpu e (own₀ e.register &&& e.wmask)) m).2.regs =
      Function.update m.regs cpu (Function.update (m.regs cpu) e.register
        (Mask.merge (e.wmask &&& maskOf allow e.register) (m.regs cpu e.register)
          (own₀ e.register))) := by
  obtain ⟨regs, read, -⟩ := run_pread vfs faultless online e m
  exact restoreMsr_merges good (Prod.ext (read readable) rfl) regs
    fun _ => run_pwrite faultless online readable _ _

theorem restoreMsr_regs (faultless : Faultless allow pl) (online : pl.online cpu = true)
    {own₀ : CpuRegs} {e : AllowlistEntry} {word : Word} (saved : Saved allow vfs own₀ e word)
    (m : Machine) :
    (Readable allow vfs e → (run (kernel allow pl) (restoreMsr vfs cpu e word) m).2.regs =
      Function.update m.regs cpu (Function.update (m.regs cpu) e.register
        (Mask.merge (e.wmask &&& maskOf allow e.register) (m.regs cpu e.register)
          (own₀ e.register)))) ∧
    (¬Readable allow vfs e →
      (run (kernel allow pl) (restoreMsr vfs cpu e word) m).2.regs = m.regs) := by
  refine ⟨fun readable => ?_, fun unreadable => ?_⟩
  · obtain ⟨rfl, good⟩ := saved.readable readable
    exact restoreMsr_good faultless online readable good m
  · rw [restoreMsr_bad (saved.unreadable unreadable)]
    rfl

/-- Registers that come closer to the first ones: protected bits stay as they
are, and a register that is back stays back. -/
structure Approaches (allow : AllowMap) (regs₀ regs regs' : Nat → CpuRegs) : Prop where
  off : ∀ cpu reg, Mask.AgreeOff (maskOf allow reg) (regs' cpu reg) (regs cpu reg)
  back : ∀ cpu reg, regs cpu reg = regs₀ cpu reg → regs' cpu reg = regs₀ cpu reg

theorem Approaches.refl (allow : AllowMap) (regs₀ regs : Nat → CpuRegs) :
    Approaches allow regs₀ regs regs := ⟨fun _ _ => rfl, fun _ _ same => same⟩

theorem Approaches.trans {regs₀ regs regs' regs'' : Nat → CpuRegs}
    (first : Approaches allow regs₀ regs regs') (second : Approaches allow regs₀ regs' regs'') :
    Approaches allow regs₀ regs regs'' :=
  ⟨fun cpu reg => (second.off cpu reg).trans (first.off cpu reg),
    fun cpu reg same => second.back cpu reg (first.back cpu reg same)⟩

theorem Approaches.confined {regs₀ regs regs' : Nat → CpuRegs}
    (closer : Approaches allow regs₀ regs regs') (confined : Confined allow regs₀ regs) :
    Confined allow regs₀ regs' :=
  fun cpu reg => (closer.off cpu reg).trans (confined cpu reg)

def Exact (allow : AllowMap) (e : AllowlistEntry) : Prop :=
  e.register.setWidth 64 = e.msr ∧ e.wmask = maskOf allow e.register

/-- The step lemma: one entry brings the registers closer, and an exact entry
brings its own back. -/
theorem restoreMsr_approaches (faultless : Faultless allow pl) (online : pl.online cpu = true)
    {regs₀ : Nat → CpuRegs} {e : AllowlistEntry} {word : Word}
    (saved : Saved allow vfs (regs₀ cpu) e word) (m : Machine) :
    let regs' := (run (kernel allow pl) (restoreMsr vfs cpu e word) m).2.regs
    Approaches allow regs₀ m.regs regs' ∧
      (Confined allow regs₀ m.regs → Readable allow vfs e → Exact allow e →
        regs' cpu e.register = regs₀ cpu e.register) := by
  obtain ⟨merged, skipped⟩ := restoreMsr_regs faultless online saved m
  dsimp only
  by_cases readable : Readable allow vfs e
  · rw [merged readable]
    refine ⟨⟨fun cpu' reg => ?_, fun cpu' reg same => ?_⟩, fun confined _ exact => ?_⟩
    · by_cases atCpu : cpu' = cpu
      · subst atCpu
        rw [Function.update_self]
        by_cases atReg : reg = e.register
        · subst atReg
          rw [Function.update_self]
          exact Mask.merge_and_agreeOff _ _ _ _
        · rw [Function.update_of_ne atReg]
          exact Mask.agreeOff_refl _ _
      · rw [Function.update_of_ne atCpu]
        exact Mask.agreeOff_refl _ _
    · by_cases atCpu : cpu' = cpu
      · subst atCpu
        rw [Function.update_self]
        by_cases atReg : reg = e.register
        · subst atReg
          rw [Function.update_self, same, Mask.merge_self]
        · rw [Function.update_of_ne atReg, same]
      · rw [Function.update_of_ne atCpu, same]
    · rw [Function.update_self, Function.update_self, exact.2, BitVec.and_self]
      exact Mask.merge_of_agreeOff (confined cpu e.register)
  · rw [skipped readable]
    exact ⟨.refl _ _ _, fun _ yes => absurd yes readable⟩

theorem restoreMsrs_approaches (faultless : Faultless allow pl) (online : pl.online cpu = true)
    {regs₀ : Nat → CpuRegs} {buffer : Nat → Word} (base : Nat) (entries : List AllowlistEntry)
    (j : Nat) (m : Machine)
    (saved : ∀ t e, entries[t]? = some e →
      Saved allow vfs (regs₀ cpu) e (buffer (base + j + t))) :
    let regs' := (run (kernel allow pl) (restoreMsrs vfs cpu base buffer entries j) m).2.regs
    Approaches allow regs₀ m.regs regs' ∧
      (Confined allow regs₀ m.regs → ∀ e ∈ entries, Readable allow vfs e → Exact allow e →
        regs' cpu e.register = regs₀ cpu e.register) := by
  induction entries generalizing j m with
  | nil => exact ⟨.refl _ _ _, fun _ e member => absurd member List.not_mem_nil⟩
  | cons e entries ih =>
      obtain ⟨closer, back⟩ := restoreMsr_approaches faultless online (saved 0 e rfl) m
      have rest : ∀ t e, entries[t]? = some e →
          Saved allow vfs (regs₀ cpu) e (buffer (base + (j + 1) + t)) := fun t e' at_t => by
        rw [show base + (j + 1) + t = base + j + (t + 1) by omega]
        exact saved (t + 1) e' at_t
      obtain ⟨closer', back'⟩ := ih (j + 1)
        (run (kernel allow pl) (restoreMsr vfs cpu e (buffer (base + j))) m).2 rest
      dsimp only
      rw [restoreMsrs, run_bind]
      refine ⟨closer.trans closer', fun confined e' member readable exact => ?_⟩
      rcases List.mem_cons.mp member with rfl | later
      · exact closer'.back cpu _ (back confined readable exact)
      · exact back' (closer.confined confined) e' later readable exact

theorem restoreCpus_approaches (faultless : Faultless allow pl) (faults : MsrFaults)
    {regs₀ : Nat → CpuRegs} {buffer : Nat → Word} (entries : List AllowlistEntry) (left i : Nat)
    {m m' : Machine}
    (saved : ∀ c, i ≤ c → c < i + left → ∀ t e, entries[t]? = some e →
      Saved allow vfs (regs₀ c) e (buffer (c * entries.length + t)))
    (finished : run (kernel allow pl) (restoreCpus vfs pl faults entries buffer left i).run m =
      (.ok (), m')) :
    Approaches allow regs₀ m.regs m'.regs ∧
      (Confined allow regs₀ m.regs → ∀ c, i ≤ c → c < i + left →
        ∀ e ∈ entries, Readable allow vfs e → Exact allow e →
          m'.regs c e.register = regs₀ c e.register) := by
  induction left generalizing i m with
  | zero =>
      cases finished
      exact ⟨.refl _ _ _, fun _ c from_i below => absurd below (by omega)⟩
  | succ left ih =>
      obtain ⟨⟨⟩, between, opened, finished⟩ := run_except_bind_ok finished
      obtain ⟨accepted, rfl⟩ := Prod.mk.inj opened
      have online := openMsr_online accepted
      obtain ⟨⟨⟩, between, restored, finished⟩ := run_except_bind_ok finished
      rw [run_except_lift] at restored
      obtain ⟨-, rfl⟩ := Prod.mk.inj restored
      obtain ⟨⟨⟩, between, closed, finished⟩ := run_except_bind_ok finished
      obtain ⟨-, rfl⟩ := Prod.mk.inj closed
      obtain ⟨closer, back⟩ := restoreMsrs_approaches faultless online (i * entries.length)
        entries 0 m fun t e at_t => saved i (Nat.le_refl i) (by omega) t e at_t
      obtain ⟨closer', back'⟩ := ih (i + 1)
        (fun c from_i below => saved c (by omega) (by omega)) finished
      refine ⟨closer.trans closer', fun confined c from_i below e member readable exact => ?_⟩
      rcases Nat.eq_or_lt_of_le from_i with rfl | further
      · exact closer'.back i _ (back confined e member readable exact)
      · exact back' (closer.confined confined) c further (by omega) e member readable exact

end Files

theorem bytesWord_wordBytes (word : Word) : bytesWord (wordBytes word) = word := by
  unfold bytesWord wordBytes
  rw [LittleEndian.value_bytes word.isLt, BitVec.ofNat_toNat, BitVec.setWidth_eq]

theorem readFile_reads {faults : RestoreFaults} {count total : Nat} {buffer buffer' : Nat → Word}
    (read : readFile faults count (((List.range total).map buffer).flatMap wordBytes) =
      .ok buffer') : total = count ∧ ∀ k < count, buffer' k = buffer k := by
  have sized : ∀ word, (wordBytes word).length = 8 := fun word => LittleEndian.length_bytes 8 _
  obtain ⟨-, -, size, words⟩ := readFile_ok read
  rw [LittleEndian.length_flatMap wordBytes sized, List.length_map, List.length_range] at size
  have same : total = count := by omega
  subst same
  refine ⟨rfl, fun k inside => ?_⟩
  rw [words, fileWords, LittleEndian.items_flatMap (by decide) wordBytes sized,
    List.take_of_length_le (by simp)]
  simp [List.map_map, Function.comp_def, bytesWord_wordBytes, inside]

section Parsed

variable {g : Globals} {entries : List AllowlistEntry}
  {vfs : Word → Bool} {pl : Platform} {exec : Handler Msr Machine} {numCpu : Nat} {m m' : Machine}

theorem msrSave_parsed (shows : Shows g entries) {faults : SaveFaults} {buffer : Nat → Word}
    {file : List UInt8}
    (finished : run exec (msrSave vfs pl faults g numCpu buffer) m = (some (.ok file), m')) :
    entries ≠ [] ∧
      run exec (saveFile vfs pl faults entries numCpu buffer).run m = (.ok file, m') := by
  rw [msrSave] at finished
  split at finished
  · cases finished
  · cases finished
  · rename_i parsed succeeded
    obtain ⟨rfl, nonempty⟩ := msrParseAllowlist_shown shows succeeded
    exact ⟨nonempty, run_map_inj (Option.some_injective _) finished⟩

theorem saveFile_saves {faults : SaveFaults} {buffer : Nat → Word} {file : List UInt8}
    (finished : run exec (saveFile vfs pl faults entries numCpu buffer).run m = (.ok file, m')) :
    ∃ buffer', file = ((List.range (entries.length * numCpu)).map buffer').flatMap wordBytes ∧
      run exec (saveCpus vfs pl faults.msr entries numCpu 0 buffer).run m = (.ok buffer', m') := by
  obtain ⟨⟨⟩, between, allocated, finished⟩ := run_except_bind_ok finished
  obtain ⟨-, rfl⟩ := Prod.mk.inj allocated
  obtain ⟨buffer', between, saved, finished⟩ := run_except_bind_ok finished
  obtain ⟨⟨⟩, between, written, finished⟩ := run_except_bind_ok finished
  obtain ⟨-, rfl⟩ := Prod.mk.inj written
  cases finished
  exact ⟨buffer', rfl, saved⟩

theorem msrRestore_restores (shows : Shows g entries) {faults : RestoreFaults} {file : List UInt8}
    (finished : run exec (msrRestore vfs pl faults g numCpu file) m = (some (.ok ()), m')) :
    ∃ buffer, readFile faults (entries.length * numCpu) file = .ok buffer ∧
      run exec (restoreCpus vfs pl faults.msr entries buffer numCpu 0).run m = (.ok (), m') := by
  rcases msrRestore_cases vfs pl shows faults numCpu file with
    ⟨failure, failed⟩ | ⟨-, -, buffer, words, loops⟩
  · rw [failed] at finished
    cases finished
  · rw [loops] at finished
    exact ⟨buffer, words, run_map_inj (Option.some_injective _) finished⟩

end Parsed

/-! ## Isolation -/

def Platform.nprocessorsOnln (pl : Platform) : Nat :=
  ((List.range pl.nrCpuIds).filter pl.cpuOnline).length

theorem online_iff_of_all {pl : Platform}
    (all : ∀ c < pl.nprocessorsOnln, pl.online c = true) (cpu : Nat) :
    pl.online cpu = true ↔ cpu < pl.nprocessorsOnln := by
  refine ⟨fun online => ?_, all cpu⟩
  by_contra beyond
  have counted : insert cpu (Finset.range pl.nprocessorsOnln) ⊆
      ((List.range pl.nrCpuIds).filter pl.cpuOnline).toFinset := by
    intro c member
    have one : pl.online c = true := by
      rcases Finset.mem_insert.mp member with rfl | below
      · exact online
      · exact all c (Finset.mem_range.mp below)
    simpa [Platform.online] using one
  have more := (Finset.card_le_card counted).trans (List.toFinset_card_le _)
  rw [Finset.card_insert_of_notMem (by simpa using beyond), Finset.card_range] at more
  unfold Platform.nprocessorsOnln at more
  omega

theorem exists_exact {bucket : Word → Fin 64} {g : Globals} {array : Nat}
    {entries : List AllowlistEntry} (filled : Filled bucket g array entries.length entries)
    {vfs : Word → Bool} (low : ∀ reg : Addr, vfs (reg.setWidth 64) = true) {reg : Addr}
    (listed : Listed (.ofEntries entries) reg) :
    ∃ e ∈ entries, e.register = reg ∧ Readable (.ofEntries entries) vfs e ∧
      Exact (.ofEntries entries) e := by
  have found : (AllowMap.ofEntries entries (reg.setWidth 64)).isSome = true := listed
  rw [AllowMap.ofEntries, Option.isSome_map, List.find?_isSome] at found
  obtain ⟨e, member, same⟩ := found
  have address : e.msr = reg.setWidth 64 := of_decide_eq_true same
  have register : e.register = reg := by
    rw [AllowlistEntry.register, address]
    simp
  obtain ⟨t, at_t⟩ := List.getElem?_of_mem member
  have mask := AllowMap.ofEntries_eq_some filled.distinct at_t
  refine ⟨e, member, register, ⟨?_, ?_⟩, ?_, ?_⟩
  · rw [address]
    exact low reg
  · rw [register]
    exact listed
  · rw [register, address]
  · rw [register, maskOf, AllowMap.writemask, ← address, mask]
    rfl

/-- When both programs succeed the processors are those numbered below their
count, and every register has the value it had when `msr_save` ran. -/
theorem job_isolation (bucket : Word → Fin 64) (writes : List WriteCall) {array : Nat}
    (installed : (storeAfter bucket writes).allowlist = some array) (vfs : Word → Bool)
    (low : ∀ reg : Addr, vfs (reg.setWidth 64) = true) (pl : Platform)
    (faultless : Faultless ((storeAfter bucket writes).allowMap bucket) pl)
    (saveFaults : SaveFaults) (restoreFaults : RestoreFaults) (buffer : Nat → Word)
    (calls : List SystemCall) (m : Machine) :
    let g := storeAfter bucket writes
    let exec := kernel (g.allowMap bucket) pl
    let numCpu := pl.nprocessorsOnln
    let saved := run exec (msrSave vfs pl saveFaults g numCpu buffer) m
    ∀ file, saved.1 = some (.ok file) →
      let used := runCalls exec calls saved.2
      let restored := run exec (msrRestore vfs pl restoreFaults g numCpu file) used
      restored.1 = some (.ok ()) →
        (∀ cpu, pl.online cpu = true ↔ cpu < numCpu) ∧
          ∀ cpu, pl.online cpu = true → ∀ reg, restored.2.regs cpu reg = m.regs cpu reg := by
  intro g exec numCpu saved file save_ok used restored restore_ok
  have represents := storeAfter_represents bucket writes
  have shown := allowMap_represents represents
  generalize writes.foldl AllowMap.afterWrite .empty = allow at represents shown
  cases represents with
  | cleared cleared =>
      rw [cleared.absent] at installed
      cases installed
  | installed nonempty filled =>
      rename_i entries
      rw [shown] at faultless
      have exec_eq : exec = kernel (.ofEntries entries) pl := congrArg (kernel · pl) shown
      have save_ran : saved = (some (.ok file), saved.2) := Prod.ext save_ok rfl
      have restore_ran : restored = (some (.ok ()), restored.2) := Prod.ext restore_ok rfl
      obtain ⟨buffer', rfl, saving⟩ := saveFile_saves (msrSave_parsed filled.shows save_ran).2
      obtain ⟨words, read, restoring⟩ := msrRestore_restores filled.shows restore_ran
      rw [exec_eq] at saving restoring
      obtain ⟨unchanged, -, rows⟩ := saveCpus_saves faultless _ entries numCpu 0 buffer saving
      have online := online_iff_of_all fun c below => (rows c (Nat.zero_le c) (by omega)).1
      have in_file : ∀ c, 0 ≤ c → c < 0 + numCpu → ∀ t e, entries[t]? = some e →
          Saved (.ofEntries entries) vfs (m.regs c) e (words (c * entries.length + t)) := by
        intro c from_0 below t e at_t
        have inside := row_inside (show c < numCpu by omega) (List.getElem?_eq_some_iff.mp at_t).1
        rw [(readFile_reads read).2 _ inside]
        exact (rows c from_0 below).2 t e at_t
      have confined : Confined (.ofEntries entries) m.regs used.regs := by
        have start : Confined (.ofEntries entries) m.regs saved.2.regs := by
          rw [unchanged]
          exact fun _ _ => rfl
        have kept := confined_runCalls pl calls start
        rw [← exec_eq] at kept
        exact kept
      obtain ⟨closer, back⟩ := restoreCpus_approaches faultless _ entries numCpu 0 in_file restoring
      refine ⟨online, fun cpu on reg => ?_⟩
      by_cases listed : Listed (.ofEntries entries) reg
      · obtain ⟨e, member, rfl, readable, exact⟩ := exists_exact filled low listed
        have below := (online cpu).mp on
        exact back confined cpu (Nat.zero_le cpu) (by omega) e member readable exact
      · have protected_all := closer.confined confined cpu reg
        rw [maskOf, AllowMap.writemask_of_not_maskexists (Bool.not_eq_true _ ▸ listed)]
          at protected_all
        exact Mask.eq_of_agreeOff_zero protected_all

def MsrFaults.quiet : MsrFaults := ⟨fun _ => none, fun _ => none⟩

def SaveFaults.quiet : SaveFaults := ⟨.quiet, none, .quiet, none, none, none⟩

def RestoreFaults.quiet : RestoreFaults :=
  ⟨.quiet, none, none, 1, 0, none, none, none, 0, none, .quiet⟩

def twoAddresses : List Char := ['1', '0', ' ', '0', 'x', 'f', 'f', ' ',
  '0', 'x', '1', '0', '0', '0', '0', '0', '0', '0', 'a', ' ', '0', 'x', 'f', '0', '0', ' ']

theorem job_isolation_two_addresses :
    let g := storeAfter (fun _ => 0) [⟨twoAddresses.map ascii, true, true, true⟩]
    let pl : Platform := ⟨1, fun _ => true, fun _ _ _ => false, fun _ _ _ _ => false⟩
    let exec := kernel (g.allowMap fun _ => 0) pl
    let numCpu := pl.nprocessorsOnln
    let saved := run exec (msrSave (fun _ => true) pl .quiet g numCpu fun _ => 7)
      ⟨fun _ _ => 0x1234, []⟩
    let file : List UInt8 := [0x34, 0, 0, 0, 0, 0, 0, 0, 0, 2, 0, 0, 0, 0, 0, 0]
    let used := runCalls exec [.write 0 10 8 true 0xFFFF] saved.2
    let restored := run exec (msrRestore (fun _ => true) pl .quiet g numCpu file) used
    used.regs 0 10 = 0x12FF ∧ restored.2.regs 0 10 = 0x1234 := by
  have installed : (storeAfter (fun _ => 0)
      [⟨twoAddresses.map ascii, true, true, true⟩]).allowlist = some 0 := by decide +kernel
  refine ⟨by decide +kernel, ?_⟩
  refine (job_isolation (fun _ => 0) [⟨twoAddresses.map ascii, true, true, true⟩] installed
    (fun _ => true) (fun _ => rfl)
    ⟨1, fun _ => true, fun _ _ _ => false, fun _ _ _ _ => false⟩
    ⟨fun _ _ _ _ => rfl, fun _ _ _ _ _ => rfl⟩ .quiet .quiet (fun _ => 7)
    [.write 0 10 8 true 0xFFFF] ⟨fun _ _ => 0x1234, []⟩ _ ?_ ?_).2 0 (by decide) 10
  · decide +kernel
  · decide +kernel

end MsrSafe
