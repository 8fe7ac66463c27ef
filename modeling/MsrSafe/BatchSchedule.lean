import MsrSafe.BatchExecution

/-! The handlers `__msr_safe_batch` of all processors run over one array at the
same time. Whatever order their loads, stores and instructions take, the batch
ends as when its ops are executed one after the other. -/

namespace MsrSafe

open Interleave

/-- The array and the registers while the handlers run; `executed` lists which
processor issued the rdmsr of which op. -/
structure BatchState where
  ops : List MsrBatchOp
  regs : Nat → CpuRegs
  executed : List (Nat × Nat)

inductive SmpAction where
  | loadCpu (index : Nat)
  | load (index : Nat)
  | storeErr (index : Nat) (err : Int)
  | storeMsrdata (index : Nat) (data : Word)
  | rdmsrSafe (index : Nat) (reg : Addr)
  | wrmsrSafe (reg : Addr) (value : Word)

@[reducible] def SmpAction.Answer : SmpAction → Type
  | .loadCpu _ => BitVec 16
  | .load _ => MsrBatchOp
  | .storeErr _ _ => Unit
  | .storeMsrdata _ _ => Unit
  | .rdmsrSafe _ _ => Option Word
  | .wrmsrSafe _ _ => Bool

abbrev Smp : Interface := ⟨SmpAction, SmpAction.Answer⟩

namespace BatchState

def op (s : BatchState) (index : Nat) : MsrBatchOp := s.ops.getD index ⟨0, 0, 0, 0, 0, 0⟩

def setOp (s : BatchState) (index : Nat) (op : MsrBatchOp) : BatchState :=
  { s with ops := s.ops.set index op }

end BatchState

def smp (pl : Platform) (cpu : Nat) : Handler Smp BatchState
  | .loadCpu index, s => ((s.op index).cpu, s)
  | .load index, s => (s.op index, s)
  | .storeErr index err, s => ((), s.setOp index { s.op index with err := err })
  | .storeMsrdata index data, s => ((), s.setOp index { s.op index with msrdata := data })
  | .rdmsrSafe index reg, s =>
    (if pl.rdFault cpu (s.regs cpu) reg then none else some (s.regs cpu reg),
      { s with executed := s.executed ++ [(cpu, index)] })
  | .wrmsrSafe reg value, s =>
    if pl.wrFault cpu (s.regs cpu) reg value then (true, s)
    else
      (false,
        { s with regs := Function.update s.regs cpu (Function.update (s.regs cpu) reg value) })

def handleOp (index : Nat) : Prog Smp Unit := do
  Prog.ask (I := Smp) (.storeErr index 0)
  let op ← Prog.ask (I := Smp) (.load index)
  match ← Prog.ask (I := Smp) (.rdmsrSafe index op.msr) with
  | none => Prog.ask (I := Smp) (.storeErr index Errno.eio.ret)
  | some oldmsr =>
    let op ← Prog.ask (I := Smp) (.load index)
    if op.isrdmsr ≠ 0 then Prog.ask (I := Smp) (.storeMsrdata index oldmsr)
    else
      let newmsr := op.msrdata &&& op.wmask
      let newmsr := newmsr ||| (oldmsr &&& ~~~op.wmask)
      if ← Prog.ask (I := Smp) (.wrmsrSafe op.msr newmsr) then
        Prog.ask (I := Smp) (.storeErr index Errno.eio.ret)

def safeBatchHandler (cpu : Nat) : (left index : Nat) → Prog Smp Unit
  | 0, _ => .done ()
  | left + 1, index => do
    let op_cpu ← Prog.ask (I := Smp) (.loadCpu index)
    if op_cpu.toNat = cpu then handleOp index
    safeBatchHandler cpu left (index + 1)

def scanErrs : (left index : Nat) → Prog Smp Int
  | 0, _ => .done 0
  | left + 1, index => do
    let op ← Prog.ask (I := Smp) (.load index)
    if op.err ≠ 0 then return op.err
    scanErrs left (index + 1)

/-! ## Handlers of different processors do not meet -/

/-- The actions a handler is limited to, where op `index` is for processor
`owner index`: it looks into and writes its own ops only. -/
def PermittedOn (owner : Nat → Nat) (cpu : Nat) : SmpAction → Prop
  | .loadCpu _ => True
  | .load index => owner index = cpu
  | .storeErr index _ => owner index = cpu
  | .storeMsrdata index _ => owner index = cpu
  | .rdmsrSafe index _ => owner index = cpu
  | .wrmsrSafe _ _ => True

def KnownOwner (owner : Nat → Nat) : (action : SmpAction) → action.Answer → Prop
  | .loadCpu index, cpu => cpu.toNat = owner index
  | .load _, _ => True
  | .storeErr _ _, _ => True
  | .storeMsrdata _ _, _ => True
  | .rdmsrSafe _ _, _ => True
  | .wrmsrSafe _ _, _ => True

def Owned (owner : Nat → Nat) (s : BatchState) : Prop := ∀ index, (s.op index).cpu.toNat = owner index

def cpuView (cpu : Nat) (s : BatchState) : List MsrBatchOp × CpuRegs × List (Nat × Nat) :=
  (seenBy cpu s.ops, s.regs cpu, s.executed.filter fun entry => entry.1 = cpu)

theorem op_setOp (s : BatchState) (index : Nat) (op : MsrBatchOp) (other : Nat) :
    (other = index ∧ (s.setOp index op).op other = op) ∨
      (s.setOp index op).op other = s.op other := by
  unfold BatchState.setOp BatchState.op
  dsimp only
  rw [List.getD_eq_getElem?_getD, List.getD_eq_getElem?_getD, List.getElem?_set]
  split
  · rename_i same
    split
    · exact .inl ⟨same.symm, rfl⟩
    · rename_i outside
      right
      rw [← same, List.getElem?_eq_none (Nat.le_of_not_lt outside)]
  · exact .inr rfl

theorem seenBy_op {cpu : Nat} {s t : BatchState} (same : seenBy cpu s.ops = seenBy cpu t.ops)
    (index : Nat) : opSeenBy cpu (s.op index) = opSeenBy cpu (t.op index) := by
  simp only [BatchState.op]
  have at_index := congrArg (fun ops : List MsrBatchOp =>
    ops.getD index (opSeenBy cpu ⟨0, 0, 0, 0, 0, 0⟩)) same
  simpa only [seenBy, List.getD_eq_getElem?_getD, List.getElem?_map, Option.getD_map] using at_index

theorem seenBy_setOp (cpu : Nat) (s : BatchState) (index : Nat) (op : MsrBatchOp) :
    seenBy cpu (s.setOp index op).ops = (seenBy cpu s.ops).set index (opSeenBy cpu op) :=
  List.map_set

theorem seenBy_setOp_other {cpu : Nat} {s : BatchState} {index : Nat} {op : MsrBatchOp}
    (other : (s.op index).cpu.toNat ≠ cpu) (same : (s.op index).fixed = op.fixed) :
    seenBy cpu (s.setOp index op).ops = seenBy cpu s.ops := by
  refine seenBy_set_other fun op' here => ?_
  have same_op : s.op index = op' := by
    rw [BatchState.op, List.getD_eq_getElem?_getD, here]
    rfl
  rw [← same_op]
  exact ⟨other, same⟩

section Separate

variable (pl : Platform) (owner : Nat → Nat)

theorem owned_setOp {s : BatchState} {index : Nat} {op : MsrBatchOp} (owned : Owned owner s)
    (same : op.cpu = (s.op index).cpu) : Owned owner (s.setOp index op) := by
  intro other
  rcases op_setOp s index op other with ⟨rfl, written⟩ | kept
  · rw [written, same, owned other]
  · rw [kept, owned other]

theorem smp_separated :
    Separated (smp pl) cpuView (Owned owner) (PermittedOn owner) (KnownOwner owner) where
  keeps := by
    intro cpu action s owned permitted
    cases action with
    | loadCpu index => exact ⟨owned, owned index⟩
    | load index => exact ⟨owned, trivial⟩
    | storeErr index err => exact ⟨owned_setOp owner owned rfl, trivial⟩
    | storeMsrdata index data => exact ⟨owned_setOp owner owned rfl, trivial⟩
    | rdmsrSafe index reg => exact ⟨owned, trivial⟩
    | wrmsrSafe reg value =>
        refine ⟨?_, trivial⟩
        simp only [smp]
        split <;> exact owned
  answer := by
    intro cpu action s t owned_s owned_t permitted same
    obtain ⟨ops, rest⟩ := Prod.ext_iff.mp same
    obtain ⟨regs, -⟩ := Prod.ext_iff.mp rest
    dsimp only [cpuView] at ops regs
    cases action with
    | loadCpu index => exact BitVec.eq_of_toNat_eq ((owned_s index).trans (owned_t index).symm)
    | load index => exact eq_of_seen (seenBy_op ops index) ((owned_s index).trans permitted)
    | storeErr index err => rfl
    | storeMsrdata index data => rfl
    | rdmsrSafe index reg => simp only [smp, regs]
    | wrmsrSafe reg value =>
        simp only [smp, regs]
        split <;> rfl
  effect := by
    intro cpu action s t owned_s owned_t permitted same
    obtain ⟨ops, rest⟩ := Prod.ext_iff.mp same
    obtain ⟨regs, executed⟩ := Prod.ext_iff.mp rest
    dsimp only [cpuView] at ops regs executed
    have mine : ∀ index, owner index = cpu → s.op index = t.op index := fun index own =>
      eq_of_seen (seenBy_op ops index) ((owned_s index).trans own)
    cases action with
    | loadCpu index => exact same
    | load index => exact same
    | storeErr index err =>
        refine Prod.ext ?_ rest
        dsimp only [smp, cpuView]
        rw [seenBy_setOp, seenBy_setOp, ops, mine index permitted]
    | storeMsrdata index data =>
        refine Prod.ext ?_ rest
        dsimp only [smp, cpuView]
        rw [seenBy_setOp, seenBy_setOp, ops, mine index permitted]
    | rdmsrSafe index reg =>
        simp only [smp, cpuView, List.filter_append, ops, regs, executed]
    | wrmsrSafe reg value =>
        simp only [smp, regs]
        split
        · exact same
        · simp only [cpuView, ops, executed, Function.update_self]
  frame := by
    intro cpu other action s owned permitted different
    have theirs : ∀ index, owner index = cpu → (s.op index).cpu.toNat ≠ other := by
      intro index own
      rw [owned index, own]
      exact different.symm
    cases action with
    | loadCpu index => rfl
    | load index => rfl
    | storeErr index err =>
        exact Prod.ext (seenBy_setOp_other (theirs index permitted) rfl) rfl
    | storeMsrdata index data =>
        exact Prod.ext (seenBy_setOp_other (theirs index permitted) rfl) rfl
    | rdmsrSafe index reg =>
        simp [smp, cpuView, List.filter_append, different.symm]
    | wrmsrSafe reg value =>
        simp only [smp]
        split
        · rfl
        · simp [cpuView, Function.update_of_ne different]

theorem guarded_handleOp {cpu index : Nat} (own : owner index = cpu) :
    Guarded (PermittedOn owner cpu) (KnownOwner owner) (fun _ => True) (handleOp index) := by
  rw [handleOp]
  rw [Prog.ask_bind, guarded_perform]
  refine ⟨own, fun _ _ => ?_⟩
  rw [Prog.ask_bind, guarded_perform]
  refine ⟨own, fun op _ => ?_⟩
  rw [Prog.ask_bind, guarded_perform]
  refine ⟨own, fun oldmsr _ => ?_⟩
  cases oldmsr with
  | none => exact ⟨own, fun _ _ => trivial⟩
  | some oldmsr =>
      dsimp only
      rw [Prog.ask_bind, guarded_perform]
      refine ⟨own, fun op _ => ?_⟩
      split
      · exact ⟨own, fun _ _ => trivial⟩
      · rw [Prog.ask_bind, guarded_perform]
        refine ⟨trivial, fun fault _ => ?_⟩
        cases fault with
        | false => trivial
        | true => exact ⟨own, fun _ _ => trivial⟩

theorem guarded_safeBatchHandler (cpu left index : Nat) :
    Guarded (PermittedOn owner cpu) (KnownOwner owner) (fun _ => True)
      (safeBatchHandler cpu left index) := by
  induction left generalizing index with
  | zero => trivial
  | succ left ih =>
      rw [safeBatchHandler, Prog.ask_bind, guarded_perform]
      refine ⟨trivial, fun op_cpu known => ?_⟩
      split
      · rename_i own
        have known_owner : op_cpu.toNat = owner index := known
        exact guarded_bind _ _ (guarded_handleOp owner (known_owner.symm.trans own))
          fun _ _ => ih (index + 1)
      · exact ih (index + 1)

end Separate

/-- The atomic actions for one op add up to executing it. -/
theorem run_handleOp (pl : Platform) {cpu index : Nat} (s : BatchState)
    (inside : index < s.ops.length) (own : (s.op index).cpu.toNat = cpu) :
    (run (smp pl cpu) (handleOp index) s).2 =
      { ops := s.ops.set index (executeOp pl (s.op index) (s.regs cpu)).1
        regs := Function.update s.regs cpu (executeOp pl (s.op index) (s.regs cpu)).2
        executed := s.executed ++ [(cpu, index)] } := by
  have same_regs : Function.update s.regs cpu (s.regs cpu) = s.regs := Function.update_eq_self _ _
  have first : ∀ op, s.setOp index op = ⟨s.ops.set index op, s.regs, s.executed⟩ := fun _ => rfl
  have loaded : ∀ op regs executed,
      BatchState.op ⟨s.ops.set index op, regs, executed⟩ index = op := by
    intro op regs executed
    simp [BatchState.op, inside]
  have stored : ∀ op op' regs executed,
      BatchState.setOp ⟨s.ops.set index op, regs, executed⟩ index op' =
        ⟨s.ops.set index op', regs, executed⟩ := by
    intro op op' regs executed
    simp [BatchState.setOp]
  rw [handleOp, executeOp]
  rw [Prog.ask_bind, run_perform, Prog.ask_bind, run_perform, Prog.ask_bind, run_perform]
  simp only [smp, first, loaded]
  rw [own]
  by_cases rd : pl.rdFault cpu (s.regs cpu) (s.op index).msr = true
  · simp only [if_pos rd, Prog.ask, run_perform, run_done, smp, loaded, stored, same_regs]
  simp only [if_neg rd]
  rw [Prog.ask_bind, run_perform]
  simp only [smp, loaded]
  by_cases read : (s.op index).isrdmsr ≠ 0
  · simp only [if_pos read, Prog.ask, run_perform, run_done, smp, loaded, stored, same_regs]
  simp only [if_neg read]
  rw [Prog.ask_bind, run_perform]
  have merged : (s.op index).msrdata &&& (s.op index).wmask |||
      s.regs cpu (s.op index).msr &&& ~~~(s.op index).wmask =
      Mask.merge (s.op index).wmask (s.regs cpu (s.op index).msr) (s.op index).msrdata := rfl
  simp only [smp, loaded, merged]
  generalize Mask.merge (s.op index).wmask (s.regs cpu (s.op index).msr) (s.op index).msrdata = new
  by_cases wr : pl.wrFault cpu (s.regs cpu) (s.op index).msr new = true
  · simp only [if_pos wr, if_true, Prog.ask, run_perform, run_done, smp, loaded, stored, same_regs]
  · simp only [if_neg wr, Bool.false_eq_true, if_false, Prog.pure_eq, run_done]

def turns (cpu : Nat) : Nat → List MsrBatchOp → List (Nat × Nat)
  | _, [] => []
  | index, op :: ops =>
    if op.cpu.toNat = cpu then (cpu, index) :: turns cpu (index + 1) ops
    else turns cpu (index + 1) ops

theorem run_safeBatchHandler (pl : Platform) (cpu : Nat) (before ops : List MsrBatchOp)
    (regs : Nat → CpuRegs) (executed : List (Nat × Nat)) :
    (run (smp pl cpu) (safeBatchHandler cpu ops.length before.length)
        { ops := before ++ ops, regs := regs, executed := executed }).2 =
      { ops := before ++ (executeOps pl (fun other => other = cpu) ops regs).1
        regs := (executeOps pl (fun other => other = cpu) ops regs).2
        executed := executed ++ turns cpu before.length ops } := by
  induction ops generalizing before regs executed with
  | nil => simp [safeBatchHandler, executeOps, turns]
  | cons op ops ih =>
      have here : BatchState.op ⟨before ++ op :: ops, regs, executed⟩ before.length = op := by
        simp [BatchState.op]
      rw [List.length_cons, safeBatchHandler, Prog.ask_bind, run_perform]
      simp only [smp, here]
      rw [executeOps, turns]
      by_cases own : op.cpu.toNat = cpu
      · rw [if_pos own, if_pos (by simp [own]), if_pos own, run_bind, run_handleOp pl _ (by simp)
          (by rw [here, own])]
        rw [here, List.set_append_right _ _ le_rfl, Nat.sub_self, List.set_cons_zero]
        have rest := ih (before ++ [(executeOp pl op (regs cpu)).1])
          (Function.update regs cpu (executeOp pl op (regs cpu)).2)
          (executed ++ [(cpu, before.length)])
        rw [List.length_append, List.length_singleton, List.append_assoc] at rest
        rw [own]
        simpa using rest
      · have rest := ih (before ++ [op]) regs executed
        rw [List.length_append, List.length_singleton, List.append_assoc] at rest
        rw [if_neg own, if_neg (by simp [own]), if_neg own]
        simpa using rest

theorem run_scanErrs (pl : Platform) (cpu : Nat) (before ops : List MsrBatchOp)
    (regs : Nat → CpuRegs) (executed : List (Nat × Nat)) :
    run (smp pl cpu) (scanErrs ops.length before.length) ⟨before ++ ops, regs, executed⟩ =
      (firstErr ops, ⟨before ++ ops, regs, executed⟩) := by
  induction ops generalizing before with
  | nil => rfl
  | cons op ops ih =>
      have here : BatchState.op ⟨before ++ op :: ops, regs, executed⟩ before.length = op := by
        simp [BatchState.op]
      rw [List.length_cons, scanErrs, Prog.ask_bind, run_perform, firstErr]
      simp only [smp, here]
      by_cases failed : op.err ≠ 0
      · rw [if_pos failed, if_pos failed]
        rfl
      · rw [if_neg failed, if_neg failed]
        have rest := ih (before ++ [op])
        rw [List.length_append, List.length_singleton, List.append_assoc] at rest
        exact rest

theorem turns_first {cpu base index : Nat} {ops : List MsrBatchOp} {entry : Nat × Nat}
    (member : entry ∈ turns cpu base ops) (here : entry.2 = index) :
    entry.1 = cpu ∧ base ≤ index := by
  induction ops generalizing base with
  | nil => cases member
  | cons op ops ih =>
      rw [turns] at member
      split at member
      · rcases List.mem_cons.mp member with rfl | later
        · exact ⟨rfl, here.le⟩
        · have rest := ih later
          exact ⟨rest.1, by omega⟩
      · have rest := ih member
        exact ⟨rest.1, by omega⟩

theorem count_turns (cpu base k : Nat) (ops : List MsrBatchOp) :
    (turns cpu base ops).count (cpu, base + k) =
      if ops[k]?.any fun op => op.cpu.toNat = cpu then 1 else 0 := by
  induction ops generalizing base k with
  | nil => simp [turns]
  | cons op ops ih =>
      have later : (turns cpu (base + 1) ops).count (cpu, base) = 0 := by
        rw [List.count_eq_zero]
        intro member
        have behind := (turns_first member rfl).2
        omega
      rw [turns]
      cases k with
      | zero => by_cases own : op.cpu.toNat = cpu <;> simp [own, later]
      | succ k =>
          have rest := ih (base + 1) k
          rw [Nat.add_right_comm, Nat.add_assoc] at rest
          by_cases own : op.cpu.toNat = cpu <;> simp [own, rest]

theorem turns_none {cpu : Nat} (base : Nat) {ops : List MsrBatchOp}
    (none : ∀ op ∈ ops, op.cpu.toNat ≠ cpu) : turns cpu base ops = [] := by
  induction ops generalizing base with
  | nil => rfl
  | cons op ops ih =>
      rw [turns, if_neg (none op (by simp))]
      exact ih (base + 1) fun op' member => none op' (List.mem_cons_of_mem op member)

/-! ## All handlers together -/

/-- `on_each_cpu_mask`: the handlers of the processors that have an op and are online. -/
def dispatched (pl : Platform) (ops : List MsrBatchOp) (cpu : Nat) : Prog Smp Unit :=
  if cpusToRunOn ops cpu && pl.online cpu then safeBatchHandler cpu ops.length 0 else .done ()

theorem handler_finished (pl : Platform) {ops : List MsrBatchOp} {regs : Nat → CpuRegs}
    (passed : ∀ op ∈ ops, pl.online op.cpu.toNat = true) {s : BatchState}
    {pool : Nat → Prog Smp Unit}
    (steps : Steps (handled (smp pl)) ∅ (⟨ops, regs, []⟩, dispatched pl ops) (s, pool))
    (cpu : Nat) (returned : pool cpu = .done ()) :
    cpuView cpu s = cpuView cpu
      ⟨(executeOps pl (fun _ => true) ops regs).1, (executeOps pl (fun _ => true) ops regs).2,
        turns cpu 0 ops⟩ := by
  let start : BatchState := ⟨ops, regs, []⟩
  let owner : Nat → Nat := fun index => (start.op index).cpu.toNat
  have guarded : ∀ cpu, Guarded (PermittedOn owner cpu) (KnownOwner owner) (fun _ => True)
      (dispatched pl ops cpu) := by
    intro cpu
    rw [dispatched]
    split
    · exact guarded_safeBatchHandler owner cpu ops.length 0
    · trivial
  have alone := (smp_separated pl owner).finished_view steps (fun _ => rfl) guarded cpu returned
  have agree := executeOps_agree pl cpu (fun other => other = cpu) (fun _ => true) (by simp)
    (rfl : seenBy cpu ops = seenBy cpu ops) (rfl : regs cpu = regs cpu)
  rw [alone]
  have ran : (run (smp pl cpu) (dispatched pl ops cpu) start).2 =
      ⟨(executeOps pl (fun other => other = cpu) ops regs).1,
        (executeOps pl (fun other => other = cpu) ops regs).2, turns cpu 0 ops⟩ := by
    rw [dispatched]
    split
    · exact run_safeBatchHandler pl cpu [] ops regs []
    · rename_i absent
      have none : ∀ op ∈ ops, op.cpu.toNat ≠ cpu := by
        intro op member own
        apply absent
        have online := passed op member
        rw [own] at online
        rw [online, Bool.and_true]
        exact List.any_eq_true.mpr ⟨op, member, by simp [own]⟩
      rw [executeOps_none pl regs (by simpa using none), turns_none 0 none]
      rfl
  rw [ran]
  exact Prod.ext agree.1 (Prod.ext agree.2 rfl)

/-- Whatever order the handlers' actions take, when all handlers are through the
array, the array and the registers are those of the ops executed one after the
other, the scan behind them returns the first error of these ops, and every op
was executed once, on its processor; from wherever the handlers stand they can
all be run to their end; and so much `msr_safe_batch` returns and leaves for
every schedule of whole ops too. -/
theorem batch_schedule_independent (pl : Platform) (ops : List MsrBatchOp) (regs : Nat → CpuRegs)
    (passed : ∀ op ∈ ops, pl.online op.cpu.toNat = true) {s : BatchState}
    {pool : Nat → Prog Smp Unit}
    (steps : Steps (handled (smp pl)) ∅ (⟨ops, regs, []⟩, dispatched pl ops) (s, pool)) :
    let sequential := executeOps pl (fun _ => true) ops regs
    ((∀ cpu, pool cpu = .done ()) →
      s.ops = sequential.1 ∧ s.regs = sequential.2 ∧
      (∀ caller, run (smp pl caller) (scanErrs ops.length 0) s =
        (firstError sequential.1, s)) ∧
      ∀ cpu index, s.executed.count (cpu, index) =
        if ops[index]?.any fun op => op.cpu.toNat = cpu then 1 else 0) ∧
    (∃ s' pool', Steps (handled (smp pl)) ∅ (s, pool) (s', pool') ∧
      ∀ cpu, pool' cpu = .done ()) ∧
    (firstError sequential.1 = 0 ↔ ∀ op ∈ sequential.1, op.err = 0) ∧
    ∀ allow schedule issued,
      let result := run (kernel allow pl) (msrSafeBatch pl true schedule ops) ⟨regs, issued⟩
      result.1 = (sequential.1, firstError sequential.1) ∧ result.2.regs = sequential.2 := by
  dsimp only
  refine ⟨?_, ?_, firstError_eq_zero _, fun allow schedule issued =>
    run_msrSafeBatch allow pl schedule passed ⟨regs, issued⟩⟩
  · intro returned
    have view := fun cpu => handler_finished pl passed steps cpu (returned cpu)
    have same_ops : s.ops = (executeOps pl (fun _ => true) ops regs).1 :=
      eq_of_all_seen fun cpu => (Prod.ext_iff.mp (view cpu)).1
    refine ⟨same_ops, ?_, ?_, ?_⟩
    · funext cpu
      exact (Prod.ext_iff.mp (Prod.ext_iff.mp (view cpu)).2).1
    · intro caller
      have length : s.ops.length = ops.length := by rw [same_ops, length_executeOps]
      have scanned := run_scanErrs pl caller [] s.ops s.regs s.executed
      rw [length, firstErr_eq] at scanned
      rw [← same_ops]
      exact scanned
    · intro cpu index
      have executed := (Prod.ext_iff.mp (Prod.ext_iff.mp (view cpu)).2).2
      have counted := congrArg (List.count (cpu, index)) executed
      dsimp only [cpuView] at counted
      rw [List.count_filter (by simp), List.count_filter (by simp)] at counted
      rw [counted]
      have turn := count_turns cpu 0 index ops
      rwa [Nat.zero_add] at turn
  · obtain ⟨s', pool', rest, finished⟩ := pool_finishes (List.range pl.nrCpuIds) s pool
    refine ⟨s', pool', rest, fun cpu => ?_⟩
    have returned : ∃ result, pool' cpu = .done result := by
      apply finished cpu
      by_cases possible : cpu < pl.nrCpuIds
      · exact .inl (List.mem_range.mpr possible)
      · right
        refine ⟨(), steps_returned steps ?_⟩
        simp [dispatched, Platform.online, possible]
    obtain ⟨⟨⟩, done⟩ := returned
    exact done

theorem batch_schedule_independent_two_processors :
    let pl : Platform := ⟨2, fun _ => true, fun _ _ reg => reg = 32, fun _ _ _ _ => false⟩
    let ops : List MsrBatchOp := [⟨1, 0, 5, 16, 0xF0, 0x3C⟩, ⟨0, 1, 0, 32, 0, 0⟩]
    ∃ s pool, Steps (handled (smp pl)) ∅ (⟨ops, fun _ _ => 7, []⟩, dispatched pl ops) (s, pool) ∧
      s.ops = [⟨1, 0, 0, 16, 0xF0, 0x3C⟩, ⟨0, 1, -5, 32, 0, 0⟩] ∧ s.regs 1 16 = 0x33 ∧
      run (smp pl 0) (scanErrs 2 0) s = (-5, s) ∧ s.executed.count (1, 0) = 1 := by
  intro pl ops
  have passed : ∀ op ∈ ops, pl.online op.cpu.toNat = true := by decide
  obtain ⟨s, pool, steps, through⟩ :=
    (batch_schedule_independent pl ops (fun _ _ => 7) passed Relation.ReflTransGen.refl).2.1
  obtain ⟨array, regs, returned, executed⟩ :=
    (batch_schedule_independent pl ops (fun _ _ => 7) passed steps).1 through
  refine ⟨s, pool, steps, array.trans (by decide), ?_, (returned 0).trans ?_,
    (executed 1 0).trans (by decide)⟩
  · rw [regs]
    decide
  · exact congrArg (·, s) (by decide)

end MsrSafe
