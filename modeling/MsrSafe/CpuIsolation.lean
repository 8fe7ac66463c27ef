import MsrSafe.AccessPaths
import MsrSafe.BatchExecution
import MsrSafe.BatchGuard
import MsrSafe.BatchTrace
import MsrSafe.Mediation

/-! Clients that keep to processors of their own: whatever the others do in the
meantime, each gets what it would get alone. -/

namespace MsrSafe

open Interleave

/-- The system calls that a client makes, each of its own choice after the
answers to the earlier ones. -/
abbrev Calls : Interface := ⟨SystemCall, fun _ => SystemReturn⟩

def sessionCode {α : Type} (session : Prog Calls α) : Prog Msr α :=
  expand (J := Calls) SystemCall.prog session

section Own

variable (cpus : Nat → Bool)

def SystemCall.On : SystemCall → Prop
  | .read cpu _ _ _ => cpus cpu = true
  | .write cpu _ _ _ _ => cpus cpu = true
  | .ioctl _ _ _ oa => ∀ op ∈ oa.ops, cpus op.cpu.toNat = true

def MsrAction.cpu : MsrAction → Option Nat
  | .maskexists _ => none
  | .writemask _ => none
  | .rdmsr cpu _ => some cpu
  | .wrmsr cpu _ _ => some cpu
  | .batchOp cpu _ => some cpu

def OnOwn (action : MsrAction) : Prop := ∀ cpu, action.cpu = some cpu → cpus cpu = true

def SameCpu : (action : MsrAction) → action.Answer → Prop
  | .maskexists _, _ => True
  | .writemask _, _ => True
  | .rdmsr _ _, _ => True
  | .wrmsr _ _ _, _ => True
  | .batchOp _ op, op' => op'.cpu = op.cpu

def ownView (m : Machine) : (Nat → Option CpuRegs) × List Access :=
  (fun cpu => if cpus cpu then some (m.regs cpu) else none,
    m.log.filter fun access => cpus access.cpu)

end Own

structure LocalEffect (A : Type) where
  answer : A
  own : CpuRegs
  issued : List Access

def Machine.performed {A : Type} (m : Machine) (cpu : Nat) (effect : LocalEffect A) :
    A × Machine :=
  (effect.answer, ⟨Function.update m.regs cpu effect.own, m.log ++ effect.issued⟩)

section Effect

variable (pl : Platform) (cpu : Nat)

def rdmsrEffect (reg : Addr) (own : CpuRegs) : LocalEffect (Except Errno Word) :=
  if pl.online cpu then
    ⟨if pl.rdFault cpu own reg then .error .eio else .ok (own reg), own, [.rdmsr cpu reg]⟩
  else ⟨.error .enxio, own, []⟩

def wrmsrEffect (reg : Addr) (value : Word) (own : CpuRegs) : LocalEffect (Except Errno Unit) :=
  if pl.online cpu then
    if pl.wrFault cpu own reg value then ⟨.error .eio, own, [.wrmsr cpu reg value]⟩
    else ⟨.ok (), Function.update own reg value, [.wrmsr cpu reg value]⟩
  else ⟨.error .enxio, own, []⟩

def batchOpEffect (op : MsrBatchOp) (own : CpuRegs) : LocalEffect MsrBatchOp :=
  if pl.rdFault cpu own op.msr then
    ⟨{ op with err := Errno.eio.ret }, own, [.rdmsr cpu op.msr]⟩
  else if op.isrdmsr ≠ 0 then
    ⟨{ op with err := 0, msrdata := own op.msr }, own, [.rdmsr cpu op.msr]⟩
  else
    let new := Mask.merge op.wmask (own op.msr) op.msrdata
    if pl.wrFault cpu own op.msr new then
      ⟨{ op with err := Errno.eio.ret }, own, [.rdmsr cpu op.msr, .wrmsr cpu op.msr new]⟩
    else
      ⟨{ op with err := 0 }, Function.update own op.msr new,
        [.rdmsr cpu op.msr, .wrmsr cpu op.msr new]⟩

variable {pl} (m : Machine)

theorem performed_of {A : Type} {answer : A} {m' : Machine} (own : CpuRegs) (issued : List Access)
    (regs : m'.regs = Function.update m.regs cpu own) (log : m'.log = m.log ++ issued) :
    (answer, m') = m.performed cpu ⟨answer, own, issued⟩ := by
  obtain ⟨regs', log'⟩ := m'
  cases regs
  cases log
  rfl

theorem rdmsrSafeOnCpu_performed (reg : Addr) :
    rdmsrSafeOnCpu pl cpu reg m = m.performed cpu (rdmsrEffect pl cpu reg (m.regs cpu)) := by
  have same : m.regs = Function.update m.regs cpu (m.regs cpu) :=
    (Function.update_eq_self _ _).symm
  rw [rdmsrSafeOnCpu, rdmsrEffect, Machine.rdmsrSafe]
  by_cases online : pl.online cpu = true
  · rw [if_pos online, if_pos online]
    cases pl.rdFault cpu (m.regs cpu) reg <;> exact performed_of cpu m _ _ same rfl
  · rw [if_neg online, if_neg online]
    exact performed_of cpu m _ _ same (List.append_nil _).symm

theorem wrmsrSafeOnCpu_performed (reg : Addr) (value : Word) :
    wrmsrSafeOnCpu pl cpu reg value m =
      m.performed cpu (wrmsrEffect pl cpu reg value (m.regs cpu)) := by
  have same : m.regs = Function.update m.regs cpu (m.regs cpu) :=
    (Function.update_eq_self _ _).symm
  rw [wrmsrSafeOnCpu, wrmsrEffect, Machine.wrmsrSafe]
  by_cases online : pl.online cpu = true
  · rw [if_pos online, if_pos online]
    cases pl.wrFault cpu (m.regs cpu) reg value with
    | true => exact performed_of cpu m _ _ same rfl
    | false => exact performed_of cpu m _ _ rfl rfl
  · rw [if_neg online, if_neg online]
    exact performed_of cpu m _ _ same (List.append_nil _).symm

theorem safeBatchOp_performed (op : MsrBatchOp) :
    safeBatchOp pl cpu op m = m.performed cpu (batchOpEffect pl cpu op (m.regs cpu)) := by
  have same : m.regs = Function.update m.regs cpu (m.regs cpu) :=
    (Function.update_eq_self _ _).symm
  rw [batchOpEffect]
  by_cases fault : pl.rdFault cpu (m.regs cpu) op.msr = true
  · rw [if_pos fault, safeBatchOp_unread fault]
    exact performed_of cpu m _ _ same rfl
  rw [if_neg fault]
  by_cases read : op.isrdmsr ≠ 0
  · rw [if_pos read, safeBatchOp_read fault read]
    exact performed_of cpu m _ _ same rfl
  rw [if_neg read, safeBatchOp_write fault (not_not.mp read)]
  have issued : ∀ new, ((m.issue (.rdmsr cpu op.msr)).issue (.wrmsr cpu op.msr new)).log =
      m.log ++ [.rdmsr cpu op.msr, .wrmsr cpu op.msr new] := fun new => by simp
  dsimp only
  split
  · exact performed_of cpu m _ _ same (issued _)
  · exact performed_of cpu m _ _ rfl (issued _)

end Effect

theorem kernel_local (allow : AllowMap) (pl : Platform) {action : MsrAction} {cpu : Nat}
    (on : action.cpu = some cpu) :
    ∃ effect : CpuRegs → LocalEffect action.Answer,
      (∀ own, ∀ access ∈ (effect own).issued, access.cpu = cpu) ∧
      ∀ m, kernel allow pl action m = m.performed cpu (effect (m.regs cpu)) := by
  have one : ∀ {issued access : Access}, issued.cpu = cpu → access ∈ [issued] →
      access.cpu = cpu := by
    intro issued access here member
    rwa [List.mem_singleton.mp member]
  have two : ∀ {first second access : Access}, first.cpu = cpu → second.cpu = cpu →
      access ∈ [first, second] → access.cpu = cpu := by
    intro first second access here here' member
    rcases List.mem_cons.mp member with rfl | member
    · exact here
    · exact one here' member
  cases action with
  | maskexists reg => cases on
  | writemask reg => cases on
  | rdmsr c reg =>
      cases on
      refine ⟨rdmsrEffect pl cpu reg, fun own access member => ?_,
        fun m => rdmsrSafeOnCpu_performed cpu m reg⟩
      rw [rdmsrEffect] at member
      split at member
      · exact one rfl member
      · cases member
  | wrmsr c reg value =>
      cases on
      refine ⟨wrmsrEffect pl cpu reg value, fun own access member => ?_,
        fun m => wrmsrSafeOnCpu_performed cpu m reg value⟩
      rw [wrmsrEffect] at member
      split at member
      · split at member <;> exact one rfl member
      · cases member
  | batchOp c op =>
      cases on
      refine ⟨batchOpEffect pl cpu op, fun own access member => ?_,
        fun m => safeBatchOp_performed cpu m op⟩
      rw [batchOpEffect] at member
      split at member
      · exact one rfl member
      · split at member
        · exact one rfl member
        · dsimp only at member
          split at member <;> exact two rfl rfl member

section Guarded

variable {cpus : Nat → Bool}

theorem onOwn_of_cpu {action : MsrAction} {cpu : Nat} (here : action.cpu = some cpu)
    (own : cpus cpu = true) : OnOwn cpus action := by
  intro cpu' here'
  cases here.symm.trans here'
  exact own

theorem onOwn_lookup {action : MsrAction} (lookup : action.cpu = none) : OnOwn cpus action := by
  intro cpu here
  cases lookup.symm.trans here

abbrev KeepsTo {α : Type} (cpus : Nat → Bool) (post : α → Prop) (p : Prog Msr α) : Prop :=
  Guarded (OnOwn cpus) SameCpu post p

theorem keepsTo_msrbatchIoctl (checked pl : Platform) (call : IoctlCall) {oa : MsrBatchArray}
    (own : ∀ op ∈ oa.ops, cpus op.cpu.toNat = true) :
    KeepsTo cpus (fun _ => True) (msrbatchIoctl checked pl call oa) := by
  apply msrbatchIoctl_guarded fun op => cpus op.cpu.toNat = true
  · exact fun reg => ⟨onOwn_lookup rfl, onOwn_lookup rfl⟩
  · exact fun op member _ _ _ _ => own op member
  · intro op here
    refine ⟨onOwn_of_cpu rfl here, fun op' same => ?_⟩
    rwa [show op'.cpu = op.cpu from same]

theorem keepsTo_systemCall (call : SystemCall) (own : call.On cpus) :
    KeepsTo cpus (fun _ => True) call.prog := by
  cases call with
  | read cpu ppos count copied =>
      have reads : KeepsTo cpus (fun _ => True) (msrRead cpu ppos count copied) :=
        msrRead_guarded cpu ppos count copied (onOwn_lookup rfl)
          fun _ _ _ => onOwn_of_cpu rfl own
      exact guarded_bind _ _ reads fun _ _ => trivial
  | write cpu ppos count copied data =>
      have writes : KeepsTo cpus (fun _ => True) (msrWrite cpu ppos count copied data) :=
        msrWrite_guarded cpu ppos count copied data (onOwn_lookup rfl)
          (fun _ _ _ => onOwn_of_cpu rfl own) (fun _ _ _ _ _ => onOwn_of_cpu rfl own)
          fun _ _ _ => onOwn_of_cpu rfl own
      exact guarded_bind _ _ writes fun _ _ => trivial
  | ioctl checked pl call oa =>
      exact guarded_bind _ _ (keepsTo_msrbatchIoctl checked pl call own) fun _ _ => trivial

end Guarded

/-! ## Clients side by side -/

section Clients

variable {ι : Type} {cpus : ι → Nat → Bool}

def Apart (cpus : ι → Nat → Bool) : Prop :=
  ∀ client other, other ≠ client → ∀ cpu, cpus client cpu = true → cpus other cpu = false

def OthersKept (cpus : ι → Nat → Bool) (regs₀ : Nat → CpuRegs) (m : Machine) : Prop :=
  ∀ cpu, (∀ client, cpus client cpu = false) → m.regs cpu = regs₀ cpu

theorem ownView_regs {own : Nat → Bool} {m m' : Machine} (same : ownView own m = ownView own m')
    {cpu : Nat} (here : own cpu = true) : m.regs cpu = m'.regs cpu := by
  have regs := congrFun (congrArg Prod.fst same) cpu
  dsimp only [ownView] at regs
  rw [if_pos here, if_pos here] at regs
  exact Option.some.inj regs

theorem ownView_performed {own : Nat → Bool} {A : Type} {m m' : Machine}
    (same : ownView own m = ownView own m') (cpu : Nat) (effect : LocalEffect A) :
    ownView own (m.performed cpu effect).2 = ownView own (m'.performed cpu effect).2 := by
  apply Prod.ext
  · funext cpu'
    dsimp only [ownView, Machine.performed]
    by_cases here : own cpu' = true
    · rw [if_pos here, if_pos here]
      by_cases actor : cpu' = cpu
      · rw [actor, Function.update_self, Function.update_self]
      · rw [Function.update_of_ne actor, Function.update_of_ne actor, ownView_regs same here]
    · rw [if_neg here, if_neg here]
  · have logs : m.log.filter (fun access => own access.cpu) =
        m'.log.filter fun access => own access.cpu := congrArg Prod.snd same
    dsimp only [ownView, Machine.performed]
    rw [List.filter_append, List.filter_append, logs]

theorem ownView_frame {own : Nat → Bool} {A : Type} (m : Machine) {cpu : Nat}
    (outside : own cpu = false) {effect : LocalEffect A}
    (on : ∀ access ∈ effect.issued, access.cpu = cpu) :
    ownView own (m.performed cpu effect).2 = ownView own m := by
  apply Prod.ext
  · funext cpu'
    dsimp only [ownView, Machine.performed]
    by_cases here : own cpu' = true
    · have apart : cpu' ≠ cpu := by
        rintro rfl
        cases here.symm.trans outside
      rw [if_pos here, if_pos here, Function.update_of_ne apart]
    · rw [if_neg here, if_neg here]
  · have unseen : effect.issued.filter (fun access => own access.cpu) = [] := by
      rw [List.filter_eq_nil_iff]
      intro access member
      rw [on access member, outside]
      exact Bool.false_ne_true
    dsimp only [ownView, Machine.performed]
    rw [List.filter_append, unseen, List.append_nil]

theorem kernel_lookup (allow : AllowMap) (pl : Platform) {action : MsrAction}
    (lookup : action.cpu = none) (m m' : Machine) :
    (kernel allow pl action m).1 = (kernel allow pl action m').1 ∧
      (kernel allow pl action m).2 = m := by
  cases action with
  | maskexists reg => exact ⟨rfl, rfl⟩
  | writemask reg => exact ⟨rfl, rfl⟩
  | rdmsr cpu reg => cases lookup
  | wrmsr cpu reg value => cases lookup
  | batchOp cpu op => cases lookup

theorem kernel_sameCpu (allow : AllowMap) (pl : Platform) (action : MsrAction) (m : Machine) :
    SameCpu action (kernel allow pl action m).1 := by
  cases action with
  | maskexists reg => trivial
  | writemask reg => trivial
  | rdmsr cpu reg => trivial
  | wrmsr cpu reg value => trivial
  | batchOp cpu op => exact (safeBatchOp_keeps pl cpu op m).1

theorem clients_separated (allow : AllowMap) (pl : Platform) (regs₀ : Nat → CpuRegs)
    (apart : Apart cpus) :
    Separated (fun _ : ι => kernel allow pl) (fun client => ownView (cpus client))
      (OthersKept cpus regs₀) (fun client => OnOwn (cpus client)) SameCpu where
  keeps := by
    intro client action m kept own
    refine ⟨?_, kernel_sameCpu allow pl action m⟩
    cases on : action.cpu with
    | none =>
        rw [(kernel_lookup allow pl on m m).2]
        exact kept
    | some cpu =>
        obtain ⟨effect, -, acts⟩ := kernel_local allow pl on
        intro cpu' nobody
        have other : cpu' ≠ cpu := by
          rintro rfl
          cases (own cpu' on).symm.trans (nobody client)
        rw [acts, Machine.performed]
        exact (Function.update_of_ne other _ _).trans (kept cpu' nobody)
  answer := by
    intro client action m m' _ _ own same
    cases on : action.cpu with
    | none => exact (kernel_lookup allow pl on m m').1
    | some cpu =>
        obtain ⟨effect, -, acts⟩ := kernel_local allow pl on
        rw [acts, acts, ownView_regs same (own cpu on)]
        rfl
  effect := by
    intro client action m m' _ _ own same
    cases on : action.cpu with
    | none =>
        rw [(kernel_lookup allow pl on m m).2, (kernel_lookup allow pl on m' m').2]
        exact same
    | some cpu =>
        obtain ⟨effect, -, acts⟩ := kernel_local allow pl on
        rw [acts, acts, ownView_regs same (own cpu on)]
        exact ownView_performed same cpu _
  frame := by
    intro client other action m _ own different
    cases on : action.cpu with
    | none => rw [(kernel_lookup allow pl on m m).2]
    | some cpu =>
        obtain ⟨effect, issued, acts⟩ := kernel_local allow pl on
        rw [acts]
        exact ownView_frame m (apart client other different cpu (own cpu on)) (issued _)

variable [DecidableEq ι] {α : Type}

/-- Clients on processors of their own, interleaved in any way: a client that has
returned has the result, its registers and the instructions on its processors
that it has when it runs alone, and the processors of nobody are as they were. -/
theorem cpu_isolation (allow : AllowMap) (pl : Platform) (apart : Apart cpus)
    (session : ι → Prog Calls α)
    (own : ∀ client, Guarded (fun call : SystemCall => call.On (cpus client)) (fun _ _ => True)
      (fun _ => True) (session client))
    (m₀ : Machine) {m : Machine} {pool : ι → Prog Msr α}
    (steps : Steps (handled fun _ => kernel allow pl) ∅
      (m₀, fun client => sessionCode (session client)) (m, pool)) :
    (∀ client result, pool client = .done result →
      let alone := run (kernel allow pl) (sessionCode (session client)) m₀
      result = alone.1 ∧
        (∀ cpu, cpus client cpu = true → m.regs cpu = alone.2.regs cpu) ∧
        m.log.filter (fun access => cpus client access.cpu) =
          alone.2.log.filter fun access => cpus client access.cpu) ∧
      ∀ cpu, (∀ client, cpus client cpu = false) → m.regs cpu = m₀.regs cpu := by
  have separated := clients_separated allow pl m₀.regs apart
  have guarded : ∀ client, KeepsTo (cpus client) (fun _ => True) (sessionCode (session client)) :=
    fun client => guarded_expand keepsTo_systemCall (session client) (own client)
  constructor
  · intro client result returned
    have outcome := separated.steps_outcome steps (fun _ _ => rfl) guarded client
    dsimp only at outcome
    rw [returned] at outcome
    obtain ⟨same, view⟩ := outcome
    exact ⟨same, fun cpu here => ownView_regs view here, congrArg Prod.snd view⟩
  · have kept := steps_guarded_each (OthersKept cpus m₀.regs)
      (fun client m action answer m' kept own acts => ?_) ?_ steps (fun _ _ => rfl) guarded
    · exact kept.1
    · have after := separated.keeps client action m kept own
      rw [show kernel allow pl action m = (answer, m') from acts] at after
      exact after
    · exact fun p offer => offer.elim

end Clients

def twoProcessors : Platform := ⟨2, fun _ => true, fun _ _ _ => false, fun _ _ _ _ => false⟩

def increment (cpu : Nat) : Prog Calls Bool :=
  .perform (I := Calls) (.read cpu 16 8 true) fun answer =>
    match answer with
    | .read (.ok value) =>
      .perform (I := Calls) (.write cpu 16 8 true (value + 1)) fun _ => .done true
    | _ => .done false

def ownProcessor (client : Bool) (cpu : Nat) : Bool := cpu == client.toNat

def fiveAndSeven : Machine := ⟨fun cpu _ => if cpu = 0 then 5 else 7, []⟩

theorem own_increment (client : Bool) :
    Guarded (fun call : SystemCall => call.On (ownProcessor client)) (fun _ _ => True)
      (fun _ => True) (increment client.toNat) := by
  have here : ownProcessor client client.toNat = true := beq_self_eq_true _
  refine ⟨here, fun answer _ => ?_⟩
  dsimp only
  split
  · exact ⟨here, fun _ _ => trivial⟩
  · trivial

theorem cpu_isolation_increments :
    ∃ m pool, Steps (handled fun _ : Bool => kernel lowByte16 twoProcessors) ∅
        (fiveAndSeven, fun client => sessionCode (increment client.toNat)) (m, pool) ∧
      m.regs 0 16 = 6 ∧ m.regs 1 16 = 8 ∧
      m.log.filter (fun access => ownProcessor true access.cpu) =
        [.rdmsr 1 16, .rdmsr 1 16, .wrmsr 1 16 8] := by
  have finish : ∃ m pool, Steps (handled fun _ : Bool => kernel lowByte16 twoProcessors) ∅
      (fiveAndSeven, fun client => sessionCode (increment client.toNat)) (m, pool) ∧
      ∀ client, client ∈ [true, false] ∨ _ → ∃ result, pool client = .done result :=
    pool_finishes [true, false] fiveAndSeven fun client => sessionCode (increment client.toNat)
  obtain ⟨m, pool, steps, returned⟩ := finish
  have apart : Apart ownProcessor := by
    intro client other different cpu here
    have at_client : cpu = client.toNat := beq_iff_eq.mp here
    rw [ownProcessor, at_client, beq_eq_false_iff_ne]
    cases client <;> cases other <;> simp_all
  have alone := (cpu_isolation lowByte16 twoProcessors apart (fun client => increment client.toNat)
    own_increment fiveAndSeven steps).1
  obtain ⟨first, done⟩ := returned false (.inl (by decide))
  obtain ⟨second, done'⟩ := returned true (.inl (by decide))
  obtain ⟨-, regs, -⟩ := alone false first done
  obtain ⟨-, regs', log⟩ := alone true second done'
  refine ⟨m, pool, steps, ?_, ?_, ?_⟩
  · rw [regs 0 rfl]
    decide +kernel
  · rw [regs' 1 rfl]
    decide +kernel
  · rw [log]
    decide +kernel

end MsrSafe
