import MsrSafe.Authority
import MsrSafe.CpuIsolation

/-! What the clients of the driver can learn: nothing of a register that no list
in force lets them read. Two machines that differ only there cannot be told
apart. -/

namespace MsrSafe

open Interleave

section Machines

def EverListed (lists : Set AllowMap) (reg : Word) : Prop :=
  ∃ allow ∈ lists, allow.maskexists reg = true

def Alike (lists : Set AllowMap) (own own' : CpuRegs) : Prop :=
  ∀ reg : Addr, EverListed lists (reg.setWidth 64) → own reg = own' reg

/-- Whether an instruction on a listed register faults is decided by the listed
registers. -/
def Platform.DecidedBy (lists : Set AllowMap) (pl : Platform) : Prop :=
  ∀ cpu own own' (reg : Addr), Alike lists own own' → EverListed lists (reg.setWidth 64) →
    pl.rdFault cpu own reg = pl.rdFault cpu own' reg ∧
      ∀ value, pl.wrFault cpu own reg value = pl.wrFault cpu own' reg value

def governedOn (ι : Type) (platforms : Set Platform) (lists : Set AllowMap) :
    Semantics ι Msr Governed :=
  fun _ s action answer s' => s'.allow ∈ lists ∧
    ∃ pl ∈ platforms, kernel s'.allow pl action s.machine = (answer, s'.machine)

structure Indistinct (lists : Set AllowMap) (s s' : Governed) : Prop where
  allow : s.allow = s'.allow
  regs : ∀ cpu, Alike lists (s.machine.regs cpu) (s'.machine.regs cpu)
  log : s.machine.log = s'.machine.log

variable {lists : Set AllowMap} {own own' : CpuRegs}

theorem Alike.update (alike : Alike lists own own') (reg : Addr) (value : Word) :
    Alike lists (Function.update own reg value) (Function.update own' reg value) := by
  intro other listed
  by_cases same : other = reg
  · rw [same, Function.update_self, Function.update_self]
  · rw [Function.update_of_ne same, Function.update_of_ne same]
    exact alike other listed

structure SameEffect (lists : Set AllowMap) {A : Type} (effect effect' : LocalEffect A) : Prop where
  answer : effect.answer = effect'.answer
  own : Alike lists effect.own effect'.own
  issued : effect.issued = effect'.issued

variable {pl : Platform} {reg : Addr}

theorem rdmsrEffect_same (decided : pl.DecidedBy lists) (alike : Alike lists own own')
    (listed : EverListed lists (reg.setWidth 64)) (cpu : Nat) :
    SameEffect lists (rdmsrEffect pl cpu reg own) (rdmsrEffect pl cpu reg own') := by
  have faults := (decided cpu own own' reg alike listed).1
  rw [rdmsrEffect, rdmsrEffect, faults, alike reg listed]
  split <;> exact ⟨rfl, alike, rfl⟩

theorem wrmsrEffect_same (decided : pl.DecidedBy lists) (alike : Alike lists own own')
    (listed : EverListed lists (reg.setWidth 64)) (cpu : Nat) (value : Word) :
    SameEffect lists (wrmsrEffect pl cpu reg value own) (wrmsrEffect pl cpu reg value own') := by
  have faults := (decided cpu own own' reg alike listed).2 value
  rw [wrmsrEffect, wrmsrEffect, faults]
  split
  · split
    · exact ⟨rfl, alike, rfl⟩
    · exact ⟨rfl, alike.update reg value, rfl⟩
  · exact ⟨rfl, alike, rfl⟩

theorem batchOpEffect_same (decided : pl.DecidedBy lists) (alike : Alike lists own own')
    {op : MsrBatchOp} (listed : EverListed lists (op.msr.setWidth 64)) (cpu : Nat) :
    SameEffect lists (batchOpEffect pl cpu op own) (batchOpEffect pl cpu op own') := by
  obtain ⟨reads, writes⟩ := decided cpu own own' op.msr alike listed
  rw [batchOpEffect, batchOpEffect, reads, alike op.msr listed]
  dsimp only
  rw [writes]
  split
  · exact ⟨rfl, alike, rfl⟩
  split
  · exact ⟨rfl, alike, rfl⟩
  split
  · exact ⟨rfl, alike, rfl⟩
  · exact ⟨rfl, alike.update _ _, rfl⟩

end Machines

def Open (lists : Set AllowMap) : MsrAction → Prop
  | .maskexists _ => True
  | .writemask _ => True
  | .rdmsr _ reg => EverListed lists (reg.setWidth 64)
  | .wrmsr _ reg _ => EverListed lists (reg.setWidth 64)
  | .batchOp _ op => EverListed lists (op.msr.setWidth 64)

def FoundIn (lists : Set AllowMap) : (action : MsrAction) → action.Answer → Prop
  | .maskexists reg, found => found = true → EverListed lists reg
  | .writemask reg, mask => mask ≠ 0 → EverListed lists reg
  | .rdmsr _ _, _ => True
  | .wrmsr _ _ _, _ => True
  | .batchOp _ op, op' => op'.msr = op.msr

section Step

variable {lists : Set AllowMap} {pl : Platform} {allow : AllowMap}

theorem kernel_foundIn (inForce : allow ∈ lists) (pl : Platform) (action : MsrAction)
    (m : Machine) :
    FoundIn lists action (kernel allow pl action m).1 := by
  cases action with
  | maskexists reg => exact fun found => ⟨allow, inForce, found⟩
  | writemask reg =>
      exact fun nonzero => ⟨allow, inForce, AllowMap.maskexists_of_writemask nonzero⟩
  | rdmsr cpu reg => trivial
  | wrmsr cpu reg value => trivial
  | batchOp cpu op => exact (safeBatchOp_keeps pl cpu op m).2.1

theorem performed_indistinct {A : Type} {m m' : Machine} {cpu : Nat}
    {effect effect' : LocalEffect A} (indistinct : Indistinct lists ⟨m, allow⟩ ⟨m', allow⟩)
    (same : SameEffect lists effect effect') :
    (m.performed cpu effect).1 = (m'.performed cpu effect').1 ∧
      Indistinct lists ⟨(m.performed cpu effect).2, allow⟩
        ⟨(m'.performed cpu effect').2, allow⟩ := by
  refine ⟨same.answer, rfl, ?_, ?_⟩
  · intro other
    dsimp only [Machine.performed]
    by_cases here : other = cpu
    · rw [here, Function.update_self, Function.update_self]
      exact same.own
    · rw [Function.update_of_ne here, Function.update_of_ne here]
      exact indistinct.regs other
  · calc m.log ++ effect.issued = m'.log ++ effect.issued := by rw [indistinct.log]
      _ = m'.log ++ effect'.issued := by rw [same.issued]

theorem kernel_indistinct (decided : pl.DecidedBy lists) {m m' : Machine}
    (indistinct : Indistinct lists ⟨m, allow⟩ ⟨m', allow⟩) {action : MsrAction}
    (allowed : Open lists action) :
    (kernel allow pl action m).1 = (kernel allow pl action m').1 ∧
      Indistinct lists ⟨(kernel allow pl action m).2, allow⟩
        ⟨(kernel allow pl action m').2, allow⟩ := by
  cases action with
  | maskexists reg => exact ⟨rfl, indistinct⟩
  | writemask reg => exact ⟨rfl, indistinct⟩
  | rdmsr cpu reg =>
      rw [kernel, kernel, rdmsrSafeOnCpu_performed, rdmsrSafeOnCpu_performed]
      apply performed_indistinct indistinct
      exact rdmsrEffect_same decided (indistinct.regs cpu) allowed cpu
  | wrmsr cpu reg value =>
      rw [kernel, kernel, wrmsrSafeOnCpu_performed, wrmsrSafeOnCpu_performed]
      apply performed_indistinct indistinct
      exact wrmsrEffect_same decided (indistinct.regs cpu) allowed cpu value
  | batchOp cpu op =>
      rw [kernel, kernel, safeBatchOp_performed, safeBatchOp_performed]
      apply performed_indistinct indistinct
      exact batchOpEffect_same decided (indistinct.regs cpu) allowed cpu

end Step

section Calls

variable {lists : Set AllowMap}

abbrev KeepsToListed (lists : Set AllowMap) {α : Type} (p : Prog Msr α) : Prop :=
  Guarded (Open lists) (FoundIn lists) (fun _ => True) p

theorem keepsToListed_systemCall (call : SystemCall) : KeepsToListed lists call.prog := by
  cases call with
  | read cpu ppos count copied =>
      have reads : KeepsToListed lists (msrRead cpu ppos count copied) := by
        apply msrRead_guarded cpu ppos count copied trivial
        exact fun listed found passed => found passed
      exact guarded_bind _ _ reads fun _ _ => trivial
  | write cpu ppos count copied data =>
      have writes : KeepsToListed lists (msrWrite cpu ppos count copied data) := by
        apply msrWrite_guarded cpu ppos count copied data trivial
        · exact fun mask found nonzero => found nonzero
        · exact fun mask curdata found nonzero _ => found nonzero
        · intro mask found full
          subst full
          exact found (by decide : (0xffffffffffffffff : Word) ≠ 0)
      exact guarded_bind _ _ writes fun _ _ => trivial
  | ioctl checked pl call oa =>
      have batch : KeepsToListed lists (msrbatchIoctl checked pl call oa) := by
        apply msrbatchIoctl_guarded fun op => EverListed lists (op.msr.setWidth 64)
        · exact fun reg => ⟨trivial, trivial⟩
        · exact fun op _ mask found _ _ => found rfl
        · intro op listed
          refine ⟨listed, fun op' same => ?_⟩
          rwa [show op'.msr = op.msr from same]
      exact guarded_bind _ _ batch fun _ _ => trivial

variable {ι : Type} [DecidableEq ι]

/-- Clients learn nothing of the registers that no list lists: what they can do
and be answered on one machine, they can on any other that differs from it only
there, in the same steps and with the same instructions, however the list is
replaced and the clients interleave. -/
theorem unlisted_undisclosed (lists : Set AllowMap) (platforms : Set Platform)
    (decided : ∀ pl ∈ platforms, pl.DecidedBy lists) (idle : ι → SystemReturn)
    {s₀ s : Governed} {clients : ι → Prog Msr SystemReturn}
    (steps : Steps (governedOn ι platforms lists) (Set.range SystemCall.prog)
      (s₀, fun client => .done (idle client)) (s, clients))
    {other₀ : Governed} (indistinct : Indistinct lists s₀ other₀) :
    ∃ other, Steps (governedOn ι platforms lists) (Set.range SystemCall.prog)
        (other₀, fun client => .done (idle client)) (other, clients) ∧
      Indistinct lists s other := by
  have simulates : ∀ (client : ι) (s t : Governed) (action : MsrAction) (answer : action.Answer)
      (s' : Governed), Indistinct lists s t → Open lists action →
      governedOn ι platforms lists client s action answer s' →
        FoundIn lists action answer ∧
          ∃ t', governedOn ι platforms lists client t action answer t' ∧
            Indistinct lists s' t' := by
    rintro client ⟨m, allow⟩ ⟨m', allow'⟩ action answer ⟨after, inForce⟩ indistinct allowed
      ⟨member, pl, offered, moved⟩
    dsimp only at member moved
    have now : Indistinct lists ⟨m, inForce⟩ ⟨m', inForce⟩ :=
      ⟨rfl, indistinct.regs, indistinct.log⟩
    obtain ⟨same, next⟩ := kernel_indistinct (decided pl offered) now allowed
    have found := kernel_foundIn member pl action m
    rw [moved] at same next found
    exact ⟨found, _, ⟨member, pl, offered, Prod.ext same.symm rfl⟩, next⟩
  have offered : ∀ p ∈ Set.range SystemCall.prog,
      Guarded (Open lists) (FoundIn lists) (fun _ => True) p := by
    rintro p ⟨call, rfl⟩
    exact keepsToListed_systemCall call
  exact steps_guarded_refine (Indistinct lists) simulates offered steps (fun _ => trivial)
    indistinct

end Calls

theorem governedOn_call {lists : Set AllowMap} {allow : AllowMap} (inForce : allow ∈ lists)
    (pl : Platform) (call : SystemCall) (last : SystemReturn) (m : Machine) :
    let called := run (kernel allow pl) call.prog m
    Steps (governedOn Unit {pl} lists) (Set.range SystemCall.prog)
      (⟨m, allow⟩, fun _ => .done last) (⟨called.2, allow⟩, fun _ => .done called.1) := by
  have one : ∀ p q : Prog Msr SystemReturn, Function.update (fun _ : Unit => p) () q = fun _ => q :=
    fun p q => funext fun _ => Function.update_self ..
  have start : Step (governedOn Unit {pl} lists) (Set.range SystemCall.prog)
      (⟨m, allow⟩, fun _ => .done last) (⟨m, allow⟩, fun _ => call.prog) := by
    rw [← one (.done last)]
    exact .call () last call.prog rfl ⟨call, rfl⟩
  have alone : Steps (handled fun _ => kernel allow pl) ∅ (m, fun _ : Unit => call.prog) _ :=
    thread_finishes () call.prog m (fun _ => call.prog) rfl
  rw [one] at alone
  have refined : ∃ s, Steps (governedOn Unit {pl} lists) ∅ (⟨m, allow⟩, fun _ => call.prog)
      (s, fun _ => .done (run (kernel allow pl) call.prog m).1) ∧
        s = ⟨(run (kernel allow pl) call.prog m).2, allow⟩ := by
    refine steps_refine (fun (m : Machine) (s : Governed) => s = ⟨m, allow⟩) ?_ alone rfl
    rintro client m s action answer m' rfl acts
    exact ⟨⟨m', allow⟩, ⟨inForce, pl, rfl, acts⟩, rfl⟩
  obtain ⟨s, steps, rfl⟩ := refined
  exact .head start (steps_mono steps (fun _ _ _ _ _ acts => acts) (Set.empty_subset _))

theorem unlisted_undisclosed_low_byte :
    let m : Machine := ⟨fun _ _ => 0x1200, []⟩
    let other₀ : Machine := ⟨fun _ reg => if reg = 16 then 0x1200 else 0x5555, []⟩
    let called := run (kernel lowByte16 oneProcessor)
      (SystemCall.write 0 16 8 true 0xab34).prog m
    ∃ other, Steps (governedOn Unit {oneProcessor} {lowByte16}) (Set.range SystemCall.prog)
        (⟨other₀, lowByte16⟩, fun _ => .done (.write (.ok ()))) (other, fun _ => .done called.1) ∧
      Indistinct {lowByte16} ⟨called.2, lowByte16⟩ other := by
  intro m other₀ called
  have decided : ∀ pl ∈ ({oneProcessor} : Set Platform), pl.DecidedBy {lowByte16} := by
    rintro pl rfl cpu own own' reg - -
    exact ⟨rfl, fun _ => rfl⟩
  have indistinct : Indistinct {lowByte16} ⟨m, lowByte16⟩ ⟨other₀, lowByte16⟩ := by
    refine ⟨rfl, fun cpu reg listed => ?_, rfl⟩
    obtain ⟨allow, rfl, found⟩ := listed
    have here : reg = 16 := by
      by_contra elsewhere
      have absent : reg.setWidth 64 ≠ (16 : Word) := by bv_omega
      rw [AllowMap.maskexists, lowByte16, if_neg absent] at found
      cases found
    rw [here]
    rfl
  have written := governedOn_call (Set.mem_singleton lowByte16) oneProcessor
    (.write 0 16 8 true 0xab34) (.write (.ok ())) m
  exact unlisted_undisclosed {lowByte16} {oneProcessor} decided (fun _ => .write (.ok ())) written
    indistinct

end MsrSafe
