import MsrSafe.Lib.Rely
import MsrSafe.BatchCheck
import MsrSafe.Mediation
import Mathlib.Data.Fintype.Defs

/-! Clients that write one register at the same time, while the allowlist is
replaced. `msr_write` reads and writes the register in two calls; a batch op
does both on the processor of the register. -/

namespace MsrSafe

open Interleave

/-- A write that reached its register: `data` was to be merged into `old` under
the mask that was looked up. -/
structure Update where
  cpu : Nat
  reg : Addr
  mask : Word
  data : Word
  old : Word
  new : Word

def Update.apply (u : Update) (regs : Nat → CpuRegs) : Nat → CpuRegs :=
  Function.update regs u.cpu (Function.update (regs u.cpu) u.reg
    (Mask.merge u.mask (regs u.cpu u.reg) u.data))

/-- The machine, and what has been seen of its clients: the mask each has looked
up last, where an `msr_write` has read the current value and not yet written,
and the writes that reached their register. -/
structure Recorded (ι : Type) where
  machine : Machine
  lookedUp : ι → Word
  between : ι → Option (Nat × Addr)
  history : List Update

def SystemCall.isWrite : SystemCall → Bool
  | .write _ _ _ _ _ => true
  | _ => false

def SystemCall.data : SystemCall → Word
  | .write _ _ _ _ data => data
  | _ => 0

theorem withoutWrmsr_msrbatchIoctl (checked pl : Platform) (call : IoctlCall)
    (oa : MsrBatchArray) : WithoutWrmsr (msrbatchIoctl checked pl call oa) :=
  msrbatchIoctl_guarded (fun _ => True) checked pl call oa (fun _ => ⟨trivial, trivial⟩)
    (fun _ _ _ _ _ _ => trivial) fun _ _ => ⟨trivial, fun _ _ => trivial⟩

section Clients

variable {ι : Type}

namespace Recorded

def start (m : Machine) : Recorded ι := ⟨m, fun _ => 0, fun _ => none, []⟩

def after [DecidableEq ι] (call : SystemCall) (client : ι) (s : Recorded ι) :
    (action : MsrAction) → action.Answer → Machine → Recorded ι
  | .maskexists _, _, m => { s with machine := m }
  | .writemask _, mask, m =>
    { s with machine := m, lookedUp := Function.update s.lookedUp client mask }
  | .rdmsr cpu reg, answer, m =>
    { s with machine := m
             between := if call.isWrite && answer.isOk then
                Function.update s.between client (some (cpu, reg))
              else s.between }
  | .wrmsr cpu reg value, answer, m =>
    let u := ⟨cpu, reg, s.lookedUp client, call.data, s.machine.regs cpu reg, value⟩
    { s with machine := m
             between := Function.update s.between client none
             history := if answer.isOk then s.history ++ [u] else s.history }
  | .batchOp cpu op, op', m =>
    let u := ⟨cpu, op.msr, op.wmask, op.msrdata, s.machine.regs cpu op.msr, m.regs cpu op.msr⟩
    { s with machine := m
             history := if op.isrdmsr = 0 ∧ op'.err = 0 then s.history ++ [u] else s.history }

end Recorded

/-- The kernel for clients that each make one call. The allowlist, the
processors that are online and the accesses that fault may be different at
every action. -/
def recorded [DecidableEq ι] (call : ι → SystemCall) : Semantics ι Msr (Recorded ι) :=
  fun client s action answer s' => ∃ allow pl,
    (kernel allow pl action s.machine).1 = answer ∧
      s' = s.after (call client) client action answer (kernel allow pl action s.machine).2

/-- A write that lands between the reading and the writing of another client's
`msr_write` to the same register is to change no bit outside that client's mask. -/
def Undisturbed (client : ι) (s s' : Recorded ι) : Prop :=
  ∀ u ∈ s'.history.drop s.history.length, ∀ other, other ≠ client →
    s.between other = some (u.cpu, u.reg) →
      Mask.AgreeOff (s.lookedUp other) (Mask.merge u.mask u.old u.data) u.old

instance [Fintype ι] [DecidableEq ι] (client : ι) (s s' : Recorded ι) :
    Decidable (Undisturbed client s s') :=
  inferInstanceAs (Decidable (∀ u ∈ s'.history.drop s.history.length, ∀ _, _))

def undisturbed [DecidableEq ι] (call : ι → SystemCall) : Semantics ι Msr (Recorded ι) :=
  fun client s action answer s' => recorded call client s action answer s' ∧
    Undisturbed client s s'

/-! ## What an action does -/

structure Acts (client : ι) (s s' : Recorded ι) : Prop where
  lookedUp : ∀ other, other ≠ client → s'.lookedUp other = s.lookedUp other
  between : ∀ other, other ≠ client → s'.between other = s.between other
  effect : (s'.history = s.history ∧ s'.machine.regs = s.machine.regs) ∨
    ∃ u, s'.history = s.history ++ [u] ∧ u.old = s.machine.regs u.cpu u.reg ∧
      u.new = Mask.merge u.mask u.old u.data ∧ s'.machine.regs = u.apply s.machine.regs

/-- What a client's `msr_write` needs of the others while it has read the
register and not yet written it. -/
structure Relies (client : ι) (s s' : Recorded ι) : Prop where
  lookedUp : s'.lookedUp client = s.lookedUp client
  between : s'.between client = s.between client
  off : ∀ cpu reg, s.between client = some (cpu, reg) →
    Mask.AgreeOff (s.lookedUp client) (s'.machine.regs cpu reg) (s.machine.regs cpu reg)

theorem Relies.refl (client : ι) (s : Recorded ι) : Relies client s s :=
  ⟨rfl, rfl, fun _ _ _ => rfl⟩

theorem Relies.trans {client : ι} {s s₁ s₂ : Recorded ι} (first : Relies client s s₁)
    (second : Relies client s₁ s₂) : Relies client s s₂ := by
  constructor
  · exact second.lookedUp.trans first.lookedUp
  · exact second.between.trans first.between
  · intro cpu reg here
    have later := second.off cpu reg (first.between.trans here)
    rw [first.lookedUp] at later
    exact later.trans (first.off cpu reg here)

theorem Relies.along {client : ι} {s s' : Recorded ι}
    (others : Relation.ReflTransGen (Relies client) s s') : Relies client s s' := by
  induction others with
  | refl => exact .refl client s
  | tail _ step ih => exact ih.trans step

theorem Acts.relies {client other : ι} {s s' : Recorded ι} (acts : Acts client s s')
    (harmless : Undisturbed client s s') (others : other ≠ client) : Relies other s s' := by
  refine ⟨acts.lookedUp other others, acts.between other others, fun cpu reg here => ?_⟩
  rcases acts.effect with ⟨-, regs⟩ | ⟨u, appended, old, -, regs⟩
  · rw [regs]
    exact Mask.agreeOff_refl _ _
  · rw [regs, Update.apply]
    by_cases atCpu : cpu = u.cpu
    swap
    · rw [Function.update_of_ne atCpu]
      exact Mask.agreeOff_refl _ _
    subst atCpu
    rw [Function.update_self]
    by_cases atReg : reg = u.reg
    swap
    · rw [Function.update_of_ne atReg]
      exact Mask.agreeOff_refl _ _
    subst atReg
    rw [Function.update_self, ← old]
    have landed : u ∈ s'.history.drop s.history.length := by
      rw [appended, List.drop_left]
      exact List.mem_singleton_self u
    exact harmless u landed other others here

variable [DecidableEq ι] {call : ι → SystemCall} {client : ι} {s s' : Recorded ι}

theorem Acts.of_recorded {action : MsrAction} {answer : action.Answer}
    (noWrmsr : NoWrmsr action) (effect : recorded call client s action answer s') :
    Acts client s s' := by
  obtain ⟨allow, pl, answered, rfl⟩ := effect
  cases action with
  | maskexists reg => exact ⟨fun _ _ => rfl, fun _ _ => rfl, .inl ⟨rfl, rfl⟩⟩
  | writemask reg =>
      exact ⟨fun _ other => Function.update_of_ne other _ _, fun _ _ => rfl, .inl ⟨rfl, rfl⟩⟩
  | rdmsr cpu reg =>
      refine ⟨fun _ _ => rfl, fun other others => ?_,
        .inl ⟨rfl, rdmsrSafeOnCpu_regs pl cpu reg s.machine⟩⟩
      dsimp only [Recorded.after]
      split
      · exact Function.update_of_ne others _ _
      · rfl
  | wrmsr cpu reg value => exact noWrmsr.elim
  | batchOp cpu op =>
      have regs := safeBatchOp_regs pl cpu op s.machine
      rw [show (safeBatchOp pl cpu op s.machine).1 = answer from answered] at regs
      refine ⟨fun _ _ => rfl, fun _ _ => rfl, ?_⟩
      dsimp only [Recorded.after]
      by_cases wrote : op.isrdmsr = 0 ∧ answer.err = 0
      · rw [if_pos wrote] at regs ⊢
        refine .inr ⟨_, rfl, rfl, ?_, regs⟩
        exact (congrFun (congrFun regs cpu) op.msr).trans (by simp)
      · rw [if_neg wrote] at regs ⊢
        exact .inl ⟨rfl, regs⟩

theorem Acts.of_wrmsr {cpu : Nat} {reg : Addr} {value : Word} {answer : Except Errno Unit}
    (merged : value =
      Mask.merge (s.lookedUp client) (s.machine.regs cpu reg) (call client).data)
    (effect : recorded call client s (.wrmsr cpu reg value) answer s') : Acts client s s' := by
  obtain ⟨allow, pl, answered, rfl⟩ := effect
  have answered : (wrmsrSafeOnCpu pl cpu reg value s.machine).1 = answer := answered
  refine ⟨fun _ _ => rfl, fun _ others => Function.update_of_ne others _ _, ?_⟩
  change (_ ∧ (wrmsrSafeOnCpu pl cpu reg value s.machine).2.regs = _) ∨ ∃ u, _ ∧ _ ∧ _ ∧
    (wrmsrSafeOnCpu pl cpu reg value s.machine).2.regs = _
  dsimp only [Recorded.after]
  cases answer with
  | error err =>
      rw [wrmsrSafeOnCpu_error answered]
      exact .inl ⟨rfl, rfl⟩
  | ok =>
      rw [wrmsrSafeOnCpu_ok answered]
      refine .inr ⟨_, rfl, rfl, merged, ?_⟩
      rw [Update.apply, ← merged]
      rfl

def Promises (client : ι) (s s' : Recorded ι) : Prop :=
  Acts client s s' ∧ Undisturbed client s s'

omit [DecidableEq ι] in
theorem Promises.relies {other : ι} (promised : Promises client s s') (others : other ≠ client) :
    Relies other s s' := promised.1.relies promised.2 others

theorem promises_of_undisturbed (action : MsrAction) {answer : action.Answer}
    (noWrmsr : NoWrmsr action) (effect : undisturbed call client s action answer s') :
    Promises client s s' := ⟨.of_recorded noWrmsr effect.1, effect.2⟩

theorem recorded_writemask {reg mask : Word}
    (effect : recorded call client s (.writemask reg) mask s') : s'.lookedUp client = mask := by
  obtain ⟨allow, pl, -, rfl⟩ := effect
  exact Function.update_self _ _ _

theorem recorded_rdmsr {cpu : Nat} {reg : Addr} {value : Word}
    (writes : (call client).isWrite = true)
    (effect : recorded call client s (.rdmsr cpu reg) (.ok value) s') :
    value = s'.machine.regs cpu reg ∧ s'.between client = some (cpu, reg) ∧
      s'.lookedUp client = s.lookedUp client := by
  obtain ⟨allow, pl, answered, rfl⟩ := effect
  have answered : (rdmsrSafeOnCpu pl cpu reg s.machine).1 = .ok value := answered
  have regs := rdmsrSafeOnCpu_regs pl cpu reg s.machine
  refine ⟨?_, ?_, rfl⟩
  · calc
      value = s.machine.regs cpu reg := rdmsrSafeOnCpu_ok answered
      _ = (rdmsrSafeOnCpu pl cpu reg s.machine).2.regs cpu reg := by rw [regs]
  · dsimp only [Recorded.after]
    rw [writes]
    exact Function.update_self _ _ _

/-- `msr_write`: between its two accesses the register keeps all bits outside
the mask, so that what was read of them is still there. -/
theorem assured_msrWrite {cpu : Nat} {ppos : BitVec 64} {count : Nat} {copied : Bool} {data : Word}
    (called : call client = .write cpu ppos count copied data) (s : Recorded ι) :
    Assured (undisturbed call) Relies Promises client (msrWrite cpu ppos count copied data) s := by
  have told : (call client).data = data := by rw [called, SystemCall.data]
  have writes : (call client).isWrite = true := by rw [called, SystemCall.isWrite]
  rw [msrWrite_eq]
  split
  · trivial
  intro s₁ _ mask s₂ lookup
  refine ⟨promises_of_undisturbed (.writemask _) trivial lookup, ?_⟩
  have found := recorded_writemask lookup.1
  dsimp only
  split
  · trivial
  split
  · trivial
  split
  · -- the mask is partial: the register is read first
    intro s₃ others answer s₄ read
    refine ⟨promises_of_undisturbed (.rdmsr _ _) trivial read, ?_⟩
    cases answer with
    | error err => trivial
    | ok curdata =>
        intro s₅ more written s₆ write
        obtain ⟨value, here, kept⟩ := recorded_rdmsr writes read.1
        have since := Relies.along more
        have mask_since : s₅.lookedUp client = mask := by
          rw [since.lookedUp, kept, (Relies.along others).lookedUp, found]
        have off := since.off _ _ here
        rw [← value, kept, (Relies.along others).lookedUp, found] at off
        refine ⟨⟨.of_wrmsr ?_ write.1, write.2⟩, trivial⟩
        rw [mask_since, told]
        exact Mask.merge_congr mask _ _ data off.symm
  · rename_i full
    intro s₃ others answer s₄ write
    refine ⟨⟨.of_wrmsr ?_ write.1, write.2⟩, trivial⟩
    rw [(Relies.along others).lookedUp, found, told, not_not.mp full]
    exact (Mask.merge_allOnes _ data).symm

theorem assured_prog (s : Recorded ι) :
    Assured (undisturbed call) Relies Promises client (call client).prog s := by
  have acts : ∀ s action answer s', NoWrmsr action →
      undisturbed call client s action answer s' → Promises client s s' :=
    fun s action answer s' noWrmsr effect => promises_of_undisturbed action noWrmsr effect
  cases called : call client with
  | read cpu ppos count copied =>
      apply assured_of_guarded acts
      exact withoutWrmsr_bind (withoutWrmsr_msrRead cpu ppos count copied) fun _ => trivial
  | write cpu ppos count copied data =>
      exact assured_bind (assured_msrWrite called s) fun _ _ => trivial
  | ioctl checked pl ioctl oa =>
      apply assured_of_guarded acts
      exact withoutWrmsr_bind (withoutWrmsr_msrbatchIoctl checked pl ioctl oa) fun _ => trivial

/-! ## Runs -/

def replay (regs : Nat → CpuRegs) (history : List Update) : Nat → CpuRegs :=
  history.foldl (fun regs u => u.apply regs) regs

@[simp] theorem replay_append (regs : Nat → CpuRegs) (history : List Update) (u : Update) :
    replay regs (history ++ [u]) = u.apply (replay regs history) := by
  rw [replay, List.foldl_append]
  rfl

/-- No update is lost: each write changed only the bits of its mask, to its data,
and the registers are as if the writes had been executed as atomic steps. -/
structure NothingLost (regs₀ : Nat → CpuRegs) (s : Recorded ι) : Prop where
  merged : ∀ u ∈ s.history, u.new = Mask.merge u.mask u.old u.data
  replayed : s.machine.regs = replay regs₀ s.history

omit [DecidableEq ι] in
theorem NothingLost.kept {regs₀ : Nat → CpuRegs} (fine : NothingLost regs₀ s)
    (acts : Acts client s s') : NothingLost regs₀ s' := by
  rcases acts.effect with ⟨history, regs⟩ | ⟨u, history, old, new, regs⟩
  · constructor
    · rw [history]
      exact fine.merged
    · rw [regs, history]
      exact fine.replayed
  · constructor
    · rw [history]
      intro u' member
      rcases List.mem_append.mp member with before | here
      · exact fine.merged u' before
      · rw [List.mem_singleton.mp here]
        exact new
    · rw [regs, history, replay_append, fine.replayed]

/-- Whatever calls any number of clients make, and however the list is replaced
between their steps: while no write that lands between the two accesses of an
`msr_write` changes a bit outside its mask, no update is lost. -/
theorem nothing_lost (call : ι → SystemCall) (m : Machine) {s : Recorded ι}
    {pool : ι → Prog Msr SystemReturn}
    (steps : Steps (undisturbed call) ∅ (.start m, fun client => (call client).prog) (s, pool)) :
    (∀ u ∈ s.history, u.new = Mask.merge u.mask u.old u.data) ∧
      s.machine.regs = replay m.regs s.history := by
  have compatible : ∀ (actor other : ι) (s s' : Recorded ι), other ≠ actor →
      Promises actor s s' → Relies other s s' :=
    fun _ _ _ _ others promised => promised.relies others
  have kept : ∀ (actor : ι) (s s' : Recorded ι), NothingLost m.regs s →
      Promises actor s s' → NothingLost m.regs s' :=
    fun _ _ _ fine promised => fine.kept promised.1
  have initial : NothingLost m.regs (.start m : Recorded ι) := by
    constructor
    · intro u member
      cases member
    · rfl
  have fine := (steps_assured (NothingLost m.regs) compatible kept steps initial
    fun _ => assured_prog _).1
  exact ⟨fine.merged, fine.replayed⟩

def runInOrder (call : ι → SystemCall) (pl : Platform) : List (ι × AllowMap) →
    Recorded ι × (ι → Prog Msr SystemReturn) → Recorded ι × (ι → Prog Msr SystemReturn)
  | [], state => state
  | (client, allow) :: order, (s, pool) =>
    match pool client with
    | .done _ => runInOrder call pl order (s, pool)
    | .perform action next =>
      let (answer, m) := kernel allow pl action s.machine
      runInOrder call pl order
        (s.after (call client) client action answer m, Function.update pool client (next answer))

theorem steps_runInOrder (call : ι → SystemCall) (pl : Platform) (order : List (ι × AllowMap))
    (state : Recorded ι × (ι → Prog Msr SystemReturn)) :
    Steps (recorded call) ∅ state (runInOrder call pl order state) := by
  induction order generalizing state with
  | nil => exact .refl
  | cons turn order ih =>
      obtain ⟨client, allow⟩ := turn
      obtain ⟨s, pool⟩ := state
      rw [runInOrder]
      cases pending : pool client with
      | done result => exact ih (s, pool)
      | perform action next =>
          have acts : recorded call client s action (kernel allow pl action s.machine).1 _ :=
            ⟨allow, pl, rfl, rfl⟩
          exact .head (.act client action next _ pending acts) (ih _)

end Clients

def halves : Bool → SystemCall
  | false => .write 0 16 8 true 0xF0
  | true => .write 0 16 8 true 0x0F

/-- The list is replaced while the first client is between its two accesses: it
writes the old half of the other back. -/
theorem update_lost :
    let pl : Platform := ⟨1, fun _ => true, fun _ _ _ => false, fun _ _ _ _ => false⟩
    let high : AllowMap := fun reg => if reg = 16 then some 0xF0 else none
    let low : AllowMap := fun reg => if reg = 16 then some 0x0F else none
    let start : Recorded Bool × (Bool → Prog Msr SystemReturn) :=
      (.start ⟨fun _ _ => 0, []⟩, fun client => (halves client).prog)
    let final := runInOrder halves pl [(false, high), (false, high), (true, low), (true, low),
      (true, low), (false, low)] start
    Steps (recorded halves) ∅ start final ∧ final.1.machine.regs 0 16 = 0xF0 ∧
      replay (fun _ _ => 0) final.1.history 0 16 = 0xFF ∧
      ¬∀ u ∈ final.1.history, u.new = Mask.merge u.mask u.old u.data := by
  intro pl high low start final
  refine ⟨steps_runInOrder halves pl _ start, ?_, ?_, ?_⟩
  · decide +kernel
  · decide +kernel
  · decide +kernel

theorem nothing_lost_one_list :
    let pl : Platform := ⟨1, fun _ => true, fun _ _ _ => false, fun _ _ _ _ => false⟩
    let byte : AllowMap := fun reg => if reg = 16 then some 0xFF else none
    let start : Recorded Bool × (Bool → Prog Msr SystemReturn) :=
      (.start ⟨fun _ _ => 0x1200, []⟩, fun client => (halves client).prog)
    let final := runInOrder halves pl [(false, byte), (false, byte), (true, byte), (true, byte),
      (true, byte), (false, byte)] start
    final.1.history.length = 2 ∧
      final.1.machine.regs = replay (fun _ _ => 0x1200) final.1.history := by
  intro pl byte start final
  have steps : Steps (undisturbed halves) ∅ start final := by
    refine .head (.act false _ _ _ rfl ⟨⟨byte, pl, rfl, rfl⟩, ?_⟩) ?_
    · decide +kernel
    refine .head (.act false _ _ _ rfl ⟨⟨byte, pl, rfl, rfl⟩, ?_⟩) ?_
    · decide +kernel
    refine .head (.act true _ _ _ rfl ⟨⟨byte, pl, rfl, rfl⟩, ?_⟩) ?_
    · decide +kernel
    refine .head (.act true _ _ _ rfl ⟨⟨byte, pl, rfl, rfl⟩, ?_⟩) ?_
    · decide +kernel
    refine .head (.act true _ _ _ rfl ⟨⟨byte, pl, rfl, rfl⟩, ?_⟩) ?_
    · decide +kernel
    refine .head (.act false _ _ _ rfl ⟨⟨byte, pl, rfl, rfl⟩, ?_⟩) ?_
    · decide +kernel
    exact .refl
  exact ⟨by decide +kernel, (nothing_lost halves _ steps).2⟩

end MsrSafe
