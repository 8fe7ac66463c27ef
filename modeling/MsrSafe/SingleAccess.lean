import MsrSafe.CpuIsolation
import MsrSafe.Lib.Atomic

/-! Calls that access one register, once: a read, a write that keeps no bit of
the register, and a batch of one op. Each is one step of the machine. -/

namespace MsrSafe

open Interleave

def SystemCall.Single (allow : AllowMap) : SystemCall → Prop
  | .read _ _ _ _ => True
  | .write _ ppos _ _ _ =>
    maskOf allow (ppos.setWidth 32) = 0 ∨ maskOf allow (ppos.setWidth 32) = 0xffffffffffffffff
  | .ioctl _ _ _ oa => oa.ops.length ≤ 1

/-- The machine, as it would be if calls were executed one at a time. -/
def atOnce (ι : Type) (allow : AllowMap) : Semantics ι Calls Machine :=
  fun _ m call answer m' => ∃ pl, run (kernel allow pl) (SystemCall.prog call) m = (answer, m')

section Brief

variable (allow : AllowMap)

theorem looks_maskexists (reg : Word) :
    Looks (I := Msr) (kernel allow) (.maskexists reg) (allow.maskexists reg) := fun _ _ => rfl

theorem looks_writemask (reg : Word) :
    Looks (I := Msr) (kernel allow) (.writemask reg) (allow.writemask reg) := fun _ _ => rfl

theorem brief_msrRead (cpu : Nat) (ppos : BitVec 64) (count : Nat) (copied : Bool) :
    Brief (kernel allow) (msrRead cpu ppos count copied) := by
  rw [msrRead_eq]
  split
  · exact .done _
  apply Brief.look (looks_maskexists allow _)
  split
  · exact .done _
  apply Brief.act
  intro pl m
  generalize (kernel allow pl (.rdmsr cpu (ppos.setWidth 32)) m).1 = answer
  cases answer with
  | error err => exact ⟨_, .done _⟩
  | ok data =>
      dsimp only
      split <;> exact ⟨_, .done _⟩

theorem brief_msrWrite (cpu : Nat) (ppos : BitVec 64) (count : Nat) (copied : Bool) (data : Word)
    (keeps : maskOf allow (ppos.setWidth 32) = 0 ∨
      maskOf allow (ppos.setWidth 32) = 0xffffffffffffffff) :
    Brief (kernel allow) (msrWrite cpu ppos count copied data) := by
  rw [msrWrite_eq]
  split
  · exact .done _
  apply Brief.look (looks_writemask allow _)
  split
  · exact .done _
  rename_i nonzero
  split
  · exact .done _
  have full : allow.writemask ((ppos.setWidth 32).setWidth 64) = 0xffffffffffffffff :=
    keeps.resolve_left nonzero
  rw [if_neg (not_not.mpr full)]
  exact .act fun pl m => ⟨_, .done _⟩

def Looking : MsrAction → Prop
  | .maskexists _ => True
  | .writemask _ => True
  | .rdmsr _ _ => False
  | .wrmsr _ _ _ => False
  | .batchOp _ _ => False

theorem settled_msrbatchApplyAllowlist (pl : Platform) (ops : List MsrBatchOp) (err : Int) :
    ∃ result, Settled (kernel allow) (msrbatchApplyAllowlist pl ops err) result ∧
      result.1 = ops.map (checkedOp allow pl) := by
  have looks : ∀ action, Looking action →
      ∃ answer, Looks (I := Msr) (kernel allow) action answer ∧ True := by
    intro action allowed
    cases action with
    | maskexists reg => exact ⟨_, looks_maskexists allow reg, trivial⟩
    | writemask reg => exact ⟨_, looks_writemask allow reg, trivial⟩
    | rdmsr cpu reg => exact allowed.elim
    | wrmsr cpu reg value => exact allowed.elim
    | batchOp cpu op => exact allowed.elim
  have guarded : Guarded Looking (fun _ _ => True)
      (fun result => result.2 = 0 → err = 0 ∧ ∀ op ∈ result.1, True)
      (msrbatchApplyAllowlist pl ops err) :=
    msrbatchApplyAllowlist_guarded pl ops err (fun _ => ⟨trivial, trivial⟩)
      fun _ _ _ _ _ _ => trivial
  obtain ⟨result, settled, -⟩ := settled_of_guarded looks guarded
  refine ⟨result, settled, ?_⟩
  have ran := settled.run pl ⟨fun _ _ => 0, []⟩
  rw [run_msrbatchApplyAllowlist] at ran
  exact (congrArg (fun r => r.1.1) ran).symm

section OneOp

theorem eq_of_getElem?_singleton {op op' : MsrBatchOp} {index : Nat}
    (found : [op][index]? = some op') : op' = op ∧ index = 0 := by
  rw [List.getElem?_singleton] at found
  split at found
  · rename_i first
    exact ⟨(Option.some.inj found).symm, first⟩
  · cases found

variable (pl : Platform) (mask : Nat → Bool)

theorem settled_runHandlers (schedule : List Nat) {h : Handlers} {op : MsrBatchOp}
    (one : h.ops = [op]) (taken : 0 < h.next op.cpu.toNat) :
    ∃ result, Settled (kernel allow) (runHandlers pl mask schedule h) result := by
  induction schedule generalizing h with
  | nil => exact ⟨h, .done h⟩
  | cons cpu schedule ih =>
      rw [runHandlers]
      split
      swap
      · exact ih one taken
      have passes : ∃ h', handlerStep cpu h = .done h' ∧ h'.ops = [op] ∧
          0 < h'.next op.cpu.toNat := by
        rw [handlerStep, one]
        cases found : [op][h.next cpu]? with
        | none => exact ⟨h, rfl, one, taken⟩
        | some op' =>
            obtain ⟨rfl, first⟩ := eq_of_getElem?_singleton found
            have other : op'.cpu.toNat ≠ cpu := by
              rintro rfl
              omega
            dsimp only
            rw [if_pos other]
            refine ⟨_, rfl, rfl, ?_⟩
            dsimp only
            rwa [Function.update_of_ne other]
      obtain ⟨h', step, one', taken'⟩ := passes
      rw [step]
      exact ih one' taken'

theorem brief_runHandlers (schedule : List Nat) {h : Handlers} {op : MsrBatchOp}
    (one : h.ops = [op]) : Brief (kernel allow) (runHandlers pl mask schedule h) := by
  induction schedule generalizing h with
  | nil => exact .done h
  | cons cpu schedule ih =>
      rw [runHandlers]
      split
      swap
      · exact ih one
      rw [handlerStep]
      split
      · exact ih one
      rename_i op' found
      split
      · exact ih one
      rename_i here
      rw [one] at found
      obtain ⟨rfl, first⟩ := eq_of_getElem?_singleton found
      rw [Msr.batchOp_bind, Prog.perform_bind]
      apply Brief.act
      intro pl' m
      have kept := (safeBatchOp_keeps pl' cpu op' m).1
      have one' : h.ops.set (h.next cpu) (safeBatchOp pl' cpu op' m).1 =
          [(safeBatchOp pl' cpu op' m).1] := by
        rw [one, first]
        rfl
      have taken : 0 < Function.update h.next cpu (h.next cpu + 1)
          (safeBatchOp pl' cpu op' m).1.cpu.toNat := by
        rw [kept, not_not.mp here, Function.update_self]
        exact Nat.succ_pos _
      exact settled_runHandlers allow pl mask schedule one' taken

theorem brief_msrbatchExecute (call : IoctlCall) (op : MsrBatchOp) (err : Int) :
    Brief (kernel allow) (msrbatchExecute pl call [op] err) := by
  rw [msrbatchExecute]
  split
  · exact .done _
  rw [msrSafeBatch]
  split
  · exact .done _
  have handlers : Brief (kernel allow)
      (onEachCpuMask pl (cpusToRunOn [op]) call.schedule [op]) := by
    have moved := brief_runHandlers allow pl (cpusToRunOn [op])
      (call.schedule ++ (List.range pl.nrCpuIds).flatMap (List.replicate 1))
      (show (⟨fun _ => 0, [op]⟩ : Handlers).ops = [op] from rfl)
    exact moved.bind fun h => ⟨_, .done _⟩
  exact handlers.bind fun ops => ⟨_, .done _⟩

end OneOp

theorem brief_msrbatchIoctl (checked pl : Platform) (call : IoctlCall) {oa : MsrBatchArray}
    (one : oa.ops.length ≤ 1) : Brief (kernel allow) (msrbatchIoctl checked pl call oa) := by
  unfold msrbatchIoctl
  split; · exact .done _
  split; · exact .done _
  split; · exact .done _
  split
  · exact .done _
  rename_i some_op
  split; · exact .done _
  split; · exact .done _
  obtain ⟨⟨ops, err⟩, settled, verdicts⟩ := settled_msrbatchApplyAllowlist allow checked oa.ops 0
  apply settled.bind_brief
  have length : ops.length = 1 := by
    have kept : ops.length = oa.ops.length := by simp [show ops = _ from verdicts]
    omega
  obtain ⟨op, rfl⟩ := List.length_eq_one_iff.mp length
  exact (brief_msrbatchExecute allow pl call op err).bind fun _ => ⟨_, .done _⟩

theorem brief_systemCall (call : SystemCall) (single : call.Single allow) :
    Brief (kernel allow) call.prog := by
  cases call with
  | read cpu ppos count copied =>
      exact (brief_msrRead allow cpu ppos count copied).bind fun _ => ⟨_, .done _⟩
  | write cpu ppos count copied data =>
      exact (brief_msrWrite allow cpu ppos count copied data single).bind fun _ => ⟨_, .done _⟩
  | ioctl checked pl call oa =>
      exact (brief_msrbatchIoctl allow checked pl call single).bind fun _ => ⟨_, .done _⟩

end Brief

instance : Nonempty Platform := ⟨oneProcessor⟩

section Clients

variable {ι α : Type} [DecidableEq ι]

def Returned (pool : ι → Prog Msr α) (clients : ι → Prog Calls α) : Prop :=
  ∀ thread result, pool thread = .done result → clients thread = .done result

/-- However the lookups and accesses of such calls interleave, the same clients
could have got the same answers from calls made one at a time, on the same
machine. A longer run comes from a longer series of calls, so that a call which
returned before another began comes before it. -/
theorem single_accesses_linearizable (allow : AllowMap) (offered : Set (Prog Calls α))
    (single : ∀ client ∈ offered,
      Guarded (SystemCall.Single allow) (fun _ _ => True) (fun _ => True) client)
    (idle : ι → α) {m₀ m₁ m₂ : Machine} {pool₁ pool₂ : ι → Prog Msr α}
    (first : Steps (hardware ι allow) (sessionCode '' offered)
      (m₀, fun thread => .done (idle thread)) (m₁, pool₁))
    (second : Steps (hardware ι allow) (sessionCode '' offered) (m₁, pool₁) (m₂, pool₂)) :
    ∃ clients₁ clients₂,
      Steps (atOnce ι allow) offered (m₀, fun thread => .done (idle thread)) (m₁, clients₁) ∧
      Returned pool₁ clients₁ ∧
      Steps (atOnce ι allow) offered (m₁, clients₁) (m₂, clients₂) ∧
      Returned pool₂ clients₂ := by
  have start : Tracks (J := Calls) (kernel allow) SystemCall.prog (SystemCall.Single allow)
      (m₀, fun thread => .done (idle thread)) (m₀, fun thread => .done (idle thread)) :=
    ⟨rfl, fun thread => .returned (idle thread)⟩
  obtain ⟨⟨m₁', clients₁⟩, steps₁, tracks₁⟩ :=
    steps_track (brief_systemCall allow) single start first
  obtain ⟨⟨m₂', clients₂⟩, steps₂, tracks₂⟩ :=
    steps_track (brief_systemCall allow) single tracks₁ second
  cases (tracks₁.state : m₁ = m₁')
  cases (tracks₂.state : m₂ = m₂')
  exact ⟨clients₁, clients₂, steps₁, fun _ _ returned => tracks₁.returned returned, steps₂,
    fun _ _ returned => tracks₂.returned returned⟩

end Clients

def reader : Prog Calls SystemReturn := .perform (I := Calls) (.read 0 16 8 true) .done

def writer : Prog Calls SystemReturn := .perform (I := Calls) (.write 0 16 8 true 7) .done

theorem single_readerWriter :
    ∀ client ∈ ({reader, writer} : Set (Prog Calls SystemReturn)),
      Guarded (SystemCall.Single whole16) (fun _ _ => True) (fun _ => True) client := by
  rintro client (rfl | rfl)
  · exact ⟨trivial, fun _ _ => trivial⟩
  · exact ⟨.inr (by decide), fun _ _ => trivial⟩

theorem single_accesses_linearizable_overlap :
    ∃ m₁ m₂ clients₁ clients₂,
      Steps (atOnce Bool whole16) {reader, writer} (fiveAndSeven, fun _ => .done (.read (.ok 0)))
        (m₁, clients₁) ∧
      clients₁ false = .done (.write (.ok ())) ∧
      Steps (atOnce Bool whole16) {reader, writer} (m₁, clients₁) (m₂, clients₂) ∧
      clients₂ true = .done (.read (.ok 7)) := by
  obtain ⟨next, code⟩ : ∃ next, sessionCode reader = .perform (I := Msr) (.maskexists 16) next :=
    ⟨_, rfl⟩
  let offered := sessionCode '' ({reader, writer} : Set (Prog Calls SystemReturn))
  let written := run (kernel whole16 oneProcessor) (sessionCode writer) fiveAndSeven
  let read := run (kernel whole16 oneProcessor) (next true) written.2
  let pool₀ : Bool → Prog Msr SystemReturn := fun _ => .done (.read (.ok 0))
  let pool₁ := Function.update pool₀ true (sessionCode reader)
  let pool₂ := Function.update pool₁ true (next true)
  let pool₃ := Function.update pool₂ false (sessionCode writer)
  let pool₄ := Function.update pool₃ false (.done written.1)
  let pool₅ := Function.update pool₄ true (.done read.1)
  have alone : ∀ {m m' : Machine} {pool pool' : Bool → Prog Msr SystemReturn},
      Steps (handled fun _ => kernel whole16 oneProcessor) ∅ (m, pool) (m', pool') →
        Steps (hardware Bool whole16) offered (m, pool) (m', pool') := fun steps =>
    steps_mono steps (fun _ _ _ _ _ moved => ⟨oneProcessor, moved⟩) (Set.empty_subset _)
  have reads : Step (hardware Bool whole16) offered (fiveAndSeven, pool₀) (fiveAndSeven, pool₁) :=
    .call true (.read (.ok 0)) (sessionCode reader) rfl ⟨reader, .inl rfl, rfl⟩
  have looks : Step (hardware Bool whole16) offered (fiveAndSeven, pool₁) (fiveAndSeven, pool₂) :=
    Step.act (I := Msr) true (.maskexists 16) next true code ⟨oneProcessor, rfl⟩
  have writes : Step (hardware Bool whole16) offered (fiveAndSeven, pool₂) (fiveAndSeven, pool₃) :=
    .call false (.read (.ok 0)) (sessionCode writer) rfl ⟨writer, .inr rfl, rfl⟩
  have first : Steps (hardware Bool whole16) offered (fiveAndSeven, pool₀) (written.2, pool₄) :=
    .head reads (.head looks (.head writes
      (alone (thread_finishes false (sessionCode writer) fiveAndSeven pool₃ rfl))))
  have second : Steps (hardware Bool whole16) offered (written.2, pool₄) (read.2, pool₅) :=
    alone (thread_finishes true (next true) written.2 pool₄ rfl)
  have seven : read.1 = .read (.ok 7) := by
    have whole : run (kernel whole16 oneProcessor) (sessionCode reader) written.2 = read := by
      rw [code]
      rfl
    rw [← whole]
    rfl
  obtain ⟨clients₁, clients₂, steps₁, returned₁, steps₂, returned₂⟩ :=
    single_accesses_linearizable whole16 {reader, writer} single_readerWriter
      (fun _ => .read (.ok 0)) first second
  refine ⟨_, _, clients₁, clients₂, steps₁, returned₁ false _ rfl, steps₂, ?_⟩
  apply returned₂ true
  rw [← seven]
  exact Function.update_self ..

end MsrSafe
