import MsrSafe.Batch
import MsrSafe.Lib.Mask

/-! What the execution of a batch comes to: its ops executed one after the
other, each on its own processor. The handlers of `msr_safe_batch` reach this
in whatever order they take their ops. -/

namespace MsrSafe

open Interleave

/-- An op on the registers of its processor: a fault gives `-EIO` and changes
nothing, a read stores the register, and a write sets the bits of the mask. -/
def executeOp (pl : Platform) (op : MsrBatchOp) (own : CpuRegs) : MsrBatchOp × CpuRegs :=
  let cpu := op.cpu.toNat
  if pl.rdFault cpu own op.msr then ({ op with err := Errno.eio.ret }, own)
  else if op.isrdmsr ≠ 0 then ({ op with err := 0, msrdata := own op.msr }, own)
  else
    let new := Mask.merge op.wmask (own op.msr) op.msrdata
    if pl.wrFault cpu own op.msr new then ({ op with err := Errno.eio.ret }, own)
    else ({ op with err := 0 }, Function.update own op.msr new)

def executeOps (pl : Platform) (on : Nat → Bool) :
    List MsrBatchOp → (Nat → CpuRegs) → List MsrBatchOp × (Nat → CpuRegs)
  | [], regs => ([], regs)
  | op :: ops, regs =>
    if on op.cpu.toNat then
      let (op', own) := executeOp pl op (regs op.cpu.toNat)
      let (ops, regs) := executeOps pl on ops (Function.update regs op.cpu.toNat own)
      (op' :: ops, regs)
    else
      let (ops, regs) := executeOps pl on ops regs
      (op :: ops, regs)

def MsrBatchOp.fixed (op : MsrBatchOp) : MsrBatchOp := { op with err := 0, msrdata := 0 }

/-- What processor `cpu` can tell of an op: all of its own, and of another's
the fields that no handler writes. -/
def opSeenBy (cpu : Nat) (op : MsrBatchOp) : MsrBatchOp :=
  if op.cpu.toNat = cpu then op else op.fixed

theorem opSeenBy_cpu (cpu : Nat) (op : MsrBatchOp) : (opSeenBy cpu op).cpu = op.cpu := by
  rw [opSeenBy]
  split <;> rfl

theorem cpu_eq_of_seen {cpu : Nat} {op op' : MsrBatchOp}
    (same : opSeenBy cpu op = opSeenBy cpu op') : op.cpu = op'.cpu := by
  rw [← opSeenBy_cpu cpu op, same, opSeenBy_cpu]

theorem eq_of_seen {cpu : Nat} {op op' : MsrBatchOp} (same : opSeenBy cpu op = opSeenBy cpu op')
    (own : op.cpu.toNat = cpu) : op = op' := by
  have own' : op'.cpu.toNat = cpu := by rw [← cpu_eq_of_seen same, own]
  unfold opSeenBy at same
  rwa [if_pos own, if_pos own'] at same

theorem opSeenBy_other {cpu : Nat} {op op' : MsrBatchOp} (other : op.cpu.toNat ≠ cpu)
    (same : op.fixed = op'.fixed) : opSeenBy cpu op = opSeenBy cpu op' := by
  have sameCpu : op.fixed.cpu = op'.fixed.cpu := by rw [same]
  have other' : op'.cpu.toNat ≠ cpu := fun own =>
    other ((congrArg BitVec.toNat sameCpu).trans own)
  simp only [opSeenBy]
  rw [if_neg other, if_neg other', same]

def seenBy (cpu : Nat) (ops : List MsrBatchOp) : List MsrBatchOp := ops.map (opSeenBy cpu)

theorem eq_of_all_seen {ops ops' : List MsrBatchOp}
    (same : ∀ cpu, seenBy cpu ops = seenBy cpu ops') : ops = ops' := by
  induction ops generalizing ops' with
  | nil => exact (List.map_eq_nil_iff.mp (same 0).symm).symm
  | cons op ops ih =>
      cases ops' with
      | nil => cases same 0
      | cons op' ops' =>
          have heads := (List.cons.inj (same op.cpu.toNat)).1
          rw [eq_of_seen heads rfl, ih fun cpu => (List.cons.inj (same cpu)).2]

theorem seenBy_set_other {cpu index : Nat} {ops : List MsrBatchOp} {op' : MsrBatchOp}
    (other : ∀ op, ops[index]? = some op → op.cpu.toNat ≠ cpu ∧ op.fixed = op'.fixed) :
    seenBy cpu (ops.set index op') = seenBy cpu ops := by
  simp only [seenBy]
  rw [List.map_set]
  apply List.ext_getElem?
  intro i
  rw [List.getElem?_set, List.getElem?_map]
  by_cases same : index = i
  · subst same
    cases here : ops[index]? with
    | none => simp [List.getElem?_eq_none_iff.mp here]
    | some op =>
        obtain ⟨inside, -⟩ := List.getElem?_eq_some_iff.mp here
        obtain ⟨different, fixed⟩ := other op here
        simp [inside, opSeenBy_other different fixed]
  · rw [if_neg same]

theorem executeOp_failed (pl : Platform) (op : MsrBatchOp) (own : CpuRegs)
    (fault : pl.rdFault op.cpu.toNat own op.msr = true ∨ op.isrdmsr = 0 ∧
      pl.wrFault op.cpu.toNat own op.msr (Mask.merge op.wmask (own op.msr) op.msrdata) = true) :
    executeOp pl op own = ({ op with err := Errno.eio.ret }, own) := by
  rw [executeOp]
  rcases fault with unread | ⟨write, unwritten⟩
  · rw [if_pos unread]
  · dsimp only
    rw [if_neg (not_not.mpr write), if_pos unwritten, ite_self]

theorem executeOp_read (pl : Platform) (op : MsrBatchOp) (own : CpuRegs)
    (readable : ¬pl.rdFault op.cpu.toNat own op.msr = true) (read : op.isrdmsr ≠ 0) :
    executeOp pl op own = ({ op with err := 0, msrdata := own op.msr }, own) := by
  rw [executeOp]
  dsimp only
  rw [if_neg readable, if_pos read]

theorem executeOp_write (pl : Platform) (op : MsrBatchOp) (own : CpuRegs)
    (readable : ¬pl.rdFault op.cpu.toNat own op.msr = true) (write : op.isrdmsr = 0)
    (writable : ¬pl.wrFault op.cpu.toNat own op.msr
      (Mask.merge op.wmask (own op.msr) op.msrdata) = true) :
    executeOp pl op own = ({ op with err := 0 },
      Function.update own op.msr (Mask.merge op.wmask (own op.msr) op.msrdata)) := by
  rw [executeOp]
  dsimp only
  rw [if_neg readable, if_neg (not_not.mpr write), if_neg writable]

theorem executeOp_fixed (pl : Platform) (op : MsrBatchOp) (own : CpuRegs) :
    (executeOp pl op own).1.fixed = op.fixed := by
  rw [executeOp]
  dsimp only
  split_ifs <;> rfl

theorem executeOps_other (pl : Platform) {cpu : Nat} (on : Nat → Bool) {op : MsrBatchOp}
    (other : op.cpu.toNat ≠ cpu) (ops : List MsrBatchOp) (regs : Nat → CpuRegs) :
    ∃ op' regs', executeOps pl on (op :: ops) regs =
        (op' :: (executeOps pl on ops regs').1, (executeOps pl on ops regs').2) ∧
      opSeenBy cpu op' = opSeenBy cpu op ∧ regs' cpu = regs cpu := by
  rw [executeOps]
  split
  · refine ⟨_, _, rfl, ?_, Function.update_of_ne (Ne.symm other) _ _⟩
    have fixed := executeOp_fixed pl op (regs op.cpu.toNat)
    exact (opSeenBy_other other fixed.symm).symm
  · exact ⟨op, regs, rfl, rfl, rfl⟩

/-- What happens to a processor's ops and registers depends on these alone. -/
theorem executeOps_agree (pl : Platform) (cpu : Nat) (on on' : Nat → Bool)
    (same_on : on cpu = on' cpu) {ops ops' : List MsrBatchOp} {regs regs' : Nat → CpuRegs}
    (same_ops : seenBy cpu ops = seenBy cpu ops') (same_regs : regs cpu = regs' cpu) :
    seenBy cpu (executeOps pl on ops regs).1 = seenBy cpu (executeOps pl on' ops' regs').1 ∧
      (executeOps pl on ops regs).2 cpu = (executeOps pl on' ops' regs').2 cpu := by
  induction ops generalizing ops' regs regs' with
  | nil =>
      have none := List.map_eq_nil_iff.mp same_ops.symm
      subst none
      exact ⟨rfl, same_regs⟩
  | cons op ops ih =>
      cases ops' with
      | nil => cases same_ops
      | cons op' ops' =>
          obtain ⟨heads, tails⟩ := List.cons.inj same_ops
          by_cases own : op.cpu.toNat = cpu
          · have same := eq_of_seen heads own
            subst same
            simp only [executeOps]
            rw [own, same_on, same_regs]
            split
            · have same_after : Function.update regs cpu (executeOp pl op (regs' cpu)).2 cpu =
                  Function.update regs' cpu (executeOp pl op (regs' cpu)).2 cpu := by simp
              have rest := ih tails same_after
              exact ⟨congrArg (_ :: ·) rest.1, rest.2⟩
            · have rest := ih tails same_regs
              exact ⟨congrArg (_ :: ·) rest.1, rest.2⟩
          · have other' : op'.cpu.toNat ≠ cpu := by rwa [← cpu_eq_of_seen heads]
            obtain ⟨first, mid, left, seen, kept⟩ := executeOps_other pl on own ops regs
            obtain ⟨first', mid', right, seen', kept'⟩ := executeOps_other pl on' other' ops' regs'
            have rest := ih tails (kept.trans (same_regs.trans kept'.symm))
            rw [left, right]
            refine ⟨?_, rest.2⟩
            show opSeenBy cpu first :: _ = opSeenBy cpu first' :: _
            rw [seen, seen', heads]
            exact congrArg (_ :: ·) rest.1

theorem executeOps_none (pl : Platform) {on : Nat → Bool} {ops : List MsrBatchOp}
    (regs : Nat → CpuRegs) (none : ∀ op ∈ ops, on op.cpu.toNat = false) :
    executeOps pl on ops regs = (ops, regs) := by
  induction ops with
  | nil => rfl
  | cons op ops ih =>
      rw [executeOps, none op (by simp),
        ih fun op' member => none op' (List.mem_cons_of_mem op member)]
      rfl

theorem executeOps_all (pl : Platform) {on : Nat → Bool} {ops : List MsrBatchOp}
    (regs : Nat → CpuRegs) (all : ∀ op ∈ ops, on op.cpu.toNat = true) :
    executeOps pl on ops regs = executeOps pl (fun _ => true) ops regs := by
  induction ops generalizing regs with
  | nil => rfl
  | cons op ops ih =>
      have rest := fun regs => ih regs fun op' member => all op' (List.mem_cons_of_mem op member)
      rw [executeOps, executeOps, all op (by simp)]
      simp only [rest]

theorem length_executeOps (pl : Platform) (on : Nat → Bool) (ops : List MsrBatchOp)
    (regs : Nat → CpuRegs) : (executeOps pl on ops regs).1.length = ops.length := by
  induction ops generalizing regs with
  | nil => rfl
  | cons op ops ih =>
      rw [executeOps]
      split <;> exact congrArg (· + 1) (ih _)

/-! ## The handlers, op by op -/

section Op

variable {pl : Platform} {cpu : Nat} {op : MsrBatchOp} {m : Machine}

theorem safeBatchOp_unread (fault : pl.rdFault cpu (m.regs cpu) op.msr = true) :
    safeBatchOp pl cpu op m = ({ op with err := Errno.eio.ret }, m.issue (.rdmsr cpu op.msr)) := by
  rw [safeBatchOp, Machine.rdmsrSafe]
  dsimp only
  rw [if_pos fault]

theorem safeBatchOp_read (readable : ¬pl.rdFault cpu (m.regs cpu) op.msr = true)
    (read : op.isrdmsr ≠ 0) :
    safeBatchOp pl cpu op m =
      ({ op with err := 0, msrdata := m.regs cpu op.msr }, m.issue (.rdmsr cpu op.msr)) := by
  rw [safeBatchOp, Machine.rdmsrSafe]
  dsimp only
  rw [if_neg readable]
  exact if_pos read

theorem safeBatchOp_write (readable : ¬pl.rdFault cpu (m.regs cpu) op.msr = true)
    (write : op.isrdmsr = 0) :
    let new := Mask.merge op.wmask (m.regs cpu op.msr) op.msrdata
    let issued := (m.issue (.rdmsr cpu op.msr)).issue (.wrmsr cpu op.msr new)
    safeBatchOp pl cpu op m =
      if pl.wrFault cpu (m.regs cpu) op.msr new = true then
        ({ op with err := Errno.eio.ret }, issued)
      else ({ op with err := 0 }, issued.setReg cpu op.msr new) := by
  intro new issued
  have merged : op.msrdata &&& op.wmask ||| m.regs cpu op.msr &&& ~~~op.wmask = new := rfl
  simp only [safeBatchOp, Machine.rdmsrSafe, Machine.wrmsrSafe, if_neg readable,
    if_neg (not_not.mpr write), merged, Machine.issue_regs]
  cases pl.wrFault cpu (m.regs cpu) op.msr new <;> rfl

end Op

theorem safeBatchOp_regs (pl : Platform) (cpu : Nat) (op : MsrBatchOp) (m : Machine) :
    (safeBatchOp pl cpu op m).2.regs =
      if op.isrdmsr = 0 ∧ (safeBatchOp pl cpu op m).1.err = 0 then
        Function.update m.regs cpu (Function.update (m.regs cpu) op.msr
          (Mask.merge op.wmask (m.regs cpu op.msr) op.msrdata))
      else m.regs := by
  by_cases rd : pl.rdFault cpu (m.regs cpu) op.msr = true
  · rw [safeBatchOp_unread rd, if_neg (fun set => Errno.ret_ne_zero _ set.2)]
    rfl
  by_cases read : op.isrdmsr ≠ 0
  · rw [safeBatchOp_read rd read, if_neg (fun set => read set.1)]
    rfl
  rw [safeBatchOp_write rd (not_not.mp read)]
  by_cases wr : pl.wrFault cpu (m.regs cpu) op.msr
      (Mask.merge op.wmask (m.regs cpu op.msr) op.msrdata) = true
  · rw [if_pos wr, if_neg (fun set => Errno.ret_ne_zero _ set.2)]
    rfl
  · rw [if_neg wr, if_pos ⟨not_not.mp read, rfl⟩]
    rfl

theorem safeBatchOp_executes (pl : Platform) (op : MsrBatchOp) (m : Machine) :
    (safeBatchOp pl op.cpu.toNat op m).1 = (executeOp pl op (m.regs op.cpu.toNat)).1 ∧
      (safeBatchOp pl op.cpu.toNat op m).2.regs =
        Function.update m.regs op.cpu.toNat (executeOp pl op (m.regs op.cpu.toNat)).2 := by
  have same_regs : m.regs = Function.update m.regs op.cpu.toNat (m.regs op.cpu.toNat) :=
    (Function.update_eq_self _ _).symm
  by_cases rd : pl.rdFault op.cpu.toNat (m.regs op.cpu.toNat) op.msr = true
  · rw [safeBatchOp_unread rd, executeOp_failed pl op _ (.inl rd)]
    exact ⟨rfl, same_regs⟩
  by_cases read : op.isrdmsr ≠ 0
  · rw [safeBatchOp_read rd read, executeOp_read pl op _ rd read]
    exact ⟨rfl, same_regs⟩
  have write := not_not.mp read
  rw [safeBatchOp_write rd write]
  by_cases wr : pl.wrFault op.cpu.toNat (m.regs op.cpu.toNat) op.msr
      (Mask.merge op.wmask (m.regs op.cpu.toNat op.msr) op.msrdata) = true
  · rw [if_pos wr, executeOp_failed pl op _ (.inr ⟨write, wr⟩)]
    exact ⟨rfl, same_regs⟩
  · rw [if_neg wr, executeOp_write pl op _ rd write wr]
    exact ⟨rfl, rfl⟩

/-- A handler's array and registers as one processor tells them, once its
handler is through. -/
def outcomeOf (pl : Platform) (on : Nat → Bool) (cpu : Nat) (h : Handlers) (m : Machine) :
    List MsrBatchOp × CpuRegs :=
  let rest := executeOps pl (fun other => other = cpu && on cpu) (h.ops.drop (h.next cpu)) m.regs
  (seenBy cpu (h.ops.take (h.next cpu) ++ rest.1), rest.2 cpu)

theorem outcomeOf_congr (pl : Platform) (on : Nat → Bool) {cpu : Nat} {h h' : Handlers}
    {m m' : Machine} (same_next : h'.next cpu = h.next cpu)
    (same_ops : seenBy cpu h'.ops = seenBy cpu h.ops) (same_regs : m'.regs cpu = m.regs cpu) :
    outcomeOf pl on cpu h' m' = outcomeOf pl on cpu h m := by
  have taken : seenBy cpu (h'.ops.take (h.next cpu)) = seenBy cpu (h.ops.take (h.next cpu)) := by
    unfold seenBy at same_ops ⊢
    rw [List.map_take, List.map_take, same_ops]
  have dropped : seenBy cpu (h'.ops.drop (h.next cpu)) = seenBy cpu (h.ops.drop (h.next cpu)) := by
    unfold seenBy at same_ops ⊢
    rw [List.map_drop, List.map_drop, same_ops]
  have agree := executeOps_agree pl cpu (fun other => other = cpu && on cpu)
    (fun other => other = cpu && on cpu) rfl dropped same_regs
  unfold outcomeOf
  rw [same_next]
  dsimp only
  unfold seenBy at taken agree ⊢
  rw [List.map_append, List.map_append, taken, agree.1, agree.2]

theorem handlerStep_outcome (allow : AllowMap) (pl : Platform) (on : Nat → Bool) {actor : Nat}
    (dispatched : on actor = true) (cpu : Nat) (h : Handlers) (m : Machine) :
    outcomeOf pl on cpu (run (kernel allow pl) (handlerStep actor h) m).1
        (run (kernel allow pl) (handlerStep actor h) m).2 = outcomeOf pl on cpu h m := by
  rw [handlerStep]
  split
  · rfl
  · rename_i op here
    obtain ⟨inside, at_op⟩ := List.getElem?_eq_some_iff.mp here
    split
    · rename_i foreign
      rw [run_done]
      by_cases same : cpu = actor
      · subst same
        unfold outcomeOf
        dsimp only
        rw [Function.update_self, List.drop_eq_getElem_cons inside, at_op, executeOps,
          if_neg (by simp [foreign]), List.take_succ_eq_append_getElem inside, at_op]
        simp only [List.append_assoc, List.singleton_append]
      · exact outcomeOf_congr pl on (Function.update_of_ne same _ _) rfl rfl
    · rename_i own
      rw [not_not] at own
      subst own
      rw [Msr.batchOp_bind, run_perform]
      obtain ⟨result, after⟩ := safeBatchOp_executes pl op m
      dsimp only [kernel]
      rw [Prog.pure_eq, run_done, result]
      by_cases same : cpu = op.cpu.toNat
      · subst same
        unfold outcomeOf
        dsimp only
        rw [Function.update_self, after, List.drop_eq_getElem_cons inside, at_op, executeOps,
          if_pos (by simp [dispatched])]
        dsimp only
        generalize h.next op.cpu.toNat = index at inside ⊢
        generalize (executeOp pl op (m.regs op.cpu.toNat)).1 = op'
        have parts :
            h.ops.set index op' = (h.ops.take index ++ [op']) ++ h.ops.drop (index + 1) := by
          rw [List.set_eq_take_append_cons_drop, if_pos inside]
          simp
        have front : (h.ops.take index ++ [op']).length = index + 1 := by
          rw [List.length_append, List.length_take, List.length_singleton]
          omega
        rw [parts, List.take_left' front, List.drop_left' front]
        simp only [List.append_assoc, List.singleton_append]
      · apply outcomeOf_congr pl on (Function.update_of_ne same _ _)
        · refine seenBy_set_other fun op' at_op' => ?_
          rw [here] at at_op'
          cases at_op'
          exact ⟨Ne.symm same, (executeOp_fixed pl op _).symm⟩
        · rw [after, Function.update_of_ne same]

theorem runHandlers_outcome (allow : AllowMap) (pl : Platform) (mask : Nat → Bool) (cpu : Nat)
    (schedule : List Nat) (h : Handlers) (m : Machine) :
    outcomeOf pl (fun cpu => mask cpu && pl.online cpu) cpu
        (run (kernel allow pl) (runHandlers pl mask schedule h) m).1
        (run (kernel allow pl) (runHandlers pl mask schedule h) m).2 =
      outcomeOf pl (fun cpu => mask cpu && pl.online cpu) cpu h m := by
  induction schedule generalizing h m with
  | nil => rfl
  | cons actor schedule ih =>
      rw [runHandlers]
      split
      · rename_i dispatched
        rw [run_bind, ih]
        exact handlerStep_outcome allow pl _ dispatched cpu h m
      · exact ih h m

theorem handlerStep_next (allow : AllowMap) (pl : Platform) (actor cpu : Nat) (h : Handlers)
    (m : Machine) :
    let h' := (run (kernel allow pl) (handlerStep actor h) m).1
    h'.ops.length = h.ops.length ∧
      min (h.next cpu + if actor = cpu then 1 else 0) h.ops.length ≤ h'.next cpu := by
  rw [handlerStep]
  split
  · rename_i through
    have behind := List.getElem?_eq_none_iff.mp through
    refine ⟨rfl, ?_⟩
    split
    · rename_i same
      subst same
      exact (min_le_right _ _).trans behind
    · exact min_le_left _ _
  · split
    · refine ⟨rfl, ?_⟩
      by_cases same : actor = cpu
      · simp [same]
      · simp [same, Function.update_of_ne (Ne.symm same)]
    · rw [Msr.batchOp_bind, run_perform]
      refine ⟨List.length_set, ?_⟩
      by_cases same : actor = cpu
      · simp [same]
      · simp [same, Function.update_of_ne (Ne.symm same)]

theorem runHandlers_next (allow : AllowMap) (pl : Platform) (mask : Nat → Bool) {cpu : Nat}
    (dispatched : (mask cpu && pl.online cpu) = true) (schedule : List Nat) (h : Handlers)
    (m : Machine) :
    let h' := (run (kernel allow pl) (runHandlers pl mask schedule h) m).1
    h'.ops.length = h.ops.length ∧
      min (h.next cpu + schedule.count cpu) h.ops.length ≤ h'.next cpu := by
  induction schedule generalizing h m with
  | nil => exact ⟨rfl, min_le_left _ _⟩
  | cons actor schedule ih =>
      dsimp only
      rw [runHandlers, List.count_cons]
      split
      · rw [run_bind]
        obtain ⟨length, further⟩ := handlerStep_next allow pl actor cpu h m
        obtain ⟨length', further'⟩ := ih (run (kernel allow pl) (handlerStep actor h) m).1
          (run (kernel allow pl) (handlerStep actor h) m).2
        refine ⟨length'.trans length, ?_⟩
        rw [length] at further'
        simp only [beq_iff_eq]
        omega
      · rename_i skipped
        have other : actor ≠ cpu := fun same => skipped (same ▸ dispatched)
        simpa [other] using ih h m

theorem outcomeOf_through (pl : Platform) (on : Nat → Bool) {cpu : Nat} {h : Handlers} (m : Machine)
    (through : on cpu = true → h.ops.length ≤ h.next cpu) :
    outcomeOf pl on cpu h m = (seenBy cpu h.ops, m.regs cpu) := by
  unfold outcomeOf
  cases dispatched : on cpu with
  | false =>
      dsimp only
      rw [executeOps_none pl m.regs (by simp), List.take_append_drop]
  | true =>
      have behind := through dispatched
      rw [List.drop_of_length_le behind, List.take_of_length_le behind]
      simp [executeOps]

theorem runHandlers_through (allow : AllowMap) (pl : Platform) (mask : Nat → Bool) {cpu : Nat}
    (dispatched : (mask cpu && pl.online cpu) = true) (schedule : List Nat)
    (ops : List MsrBatchOp) (m : Machine) :
    let order := schedule ++ (List.range pl.nrCpuIds).flatMap (List.replicate ops.length)
    let h := (run (kernel allow pl) (runHandlers pl mask order ⟨fun _ => 0, ops⟩) m).1
    h.ops.length ≤ h.next cpu := by
  dsimp only
  generalize drained :
    schedule ++ (List.range pl.nrCpuIds).flatMap (List.replicate ops.length) = order
  obtain ⟨length, further⟩ := runHandlers_next allow pl mask dispatched order ⟨fun _ => 0, ops⟩ m
  have turn : cpu ∈ List.range pl.nrCpuIds := by
    simp only [Platform.online, Bool.and_eq_true, decide_eq_true_eq] at dispatched
    exact List.mem_range.mpr dispatched.2.1
  have enough : ops.length ≤ order.count cpu := by
    have drain : (List.replicate ops.length cpu).Sublist
        ((List.range pl.nrCpuIds).map (List.replicate ops.length)).flatten :=
      List.sublist_flatten_of_mem (List.mem_map_of_mem turn)
    have counted := drain.count_le cpu
    rw [List.count_replicate_self] at counted
    rw [← drained, List.count_append, List.flatMap_def]
    omega
  rw [length]
  exact (by omega : ops.length ≤ min (0 + order.count cpu) ops.length).trans further

/-- Whatever the schedule, the handlers execute the ops of the dispatched
processors as they stand in the array. -/
theorem onEachCpuMask_executes (allow : AllowMap) (pl : Platform) (mask : Nat → Bool)
    (schedule : List Nat) (ops : List MsrBatchOp) (m : Machine) :
    (run (kernel allow pl) (onEachCpuMask pl mask schedule ops) m).1 =
        (executeOps pl (fun cpu => mask cpu && pl.online cpu) ops m.regs).1 ∧
      (run (kernel allow pl) (onEachCpuMask pl mask schedule ops) m).2.regs =
        (executeOps pl (fun cpu => mask cpu && pl.online cpu) ops m.regs).2 := by
  unfold onEachCpuMask
  dsimp only
  rw [run_bind, Prog.pure_eq, run_done]
  generalize drained :
    schedule ++ (List.range pl.nrCpuIds).flatMap (List.replicate ops.length) = order
  have views : ∀ cpu,
      (seenBy cpu (run (kernel allow pl) (runHandlers pl mask order ⟨fun _ => 0, ops⟩) m).1.ops,
        (run (kernel allow pl) (runHandlers pl mask order ⟨fun _ => 0, ops⟩) m).2.regs cpu) =
      (seenBy cpu (executeOps pl (fun cpu => mask cpu && pl.online cpu) ops m.regs).1,
        (executeOps pl (fun cpu => mask cpu && pl.online cpu) ops m.regs).2 cpu) := by
    intro cpu
    have outcome := runHandlers_outcome allow pl mask cpu order ⟨fun _ => 0, ops⟩ m
    have agree := executeOps_agree pl cpu
      (fun other => other = cpu && (fun cpu => mask cpu && pl.online cpu) cpu)
      (fun cpu => mask cpu && pl.online cpu) (by simp) (rfl : seenBy cpu ops = seenBy cpu ops)
      (rfl : m.regs cpu = m.regs cpu)
    rw [outcomeOf_through] at outcome
    · exact outcome.trans (Prod.ext agree.1 agree.2)
    · intro dispatched
      rw [← drained]
      exact runHandlers_through allow pl mask dispatched schedule ops m
  exact ⟨eq_of_all_seen fun cpu => (Prod.ext_iff.mp (views cpu)).1,
    funext fun cpu => (Prod.ext_iff.mp (views cpu)).2⟩

def firstError (out : List MsrBatchOp) : Int :=
  ((out.find? fun op => op.err ≠ 0).map (·.err)).getD 0

theorem firstError_cons (op : MsrBatchOp) (out : List MsrBatchOp) :
    firstError (op :: out) = if op.err ≠ 0 then op.err else firstError out := by
  by_cases failed : op.err = 0 <;> simp [firstError, failed]

theorem firstErr_eq (out : List MsrBatchOp) : firstErr out = firstError out := by
  induction out with
  | nil => rfl
  | cons op out ih => rw [firstErr, firstError_cons, ih]

theorem firstError_eq_zero (out : List MsrBatchOp) :
    firstError out = 0 ↔ ∀ op ∈ out, op.err = 0 := by
  induction out with
  | nil => simp [firstError]
  | cons op out ih =>
      rw [firstError_cons, List.forall_mem_cons, ← ih]
      split
      · rename_i failed
        exact iff_of_false failed fun none => failed none.1
      · rename_i passed
        rw [not_not] at passed
        simp [passed]

/-- `msr_safe_batch` on ops whose processors are online. -/
theorem run_msrSafeBatch (allow : AllowMap) (pl : Platform) (schedule : List Nat)
    {ops : List MsrBatchOp} (passed : ∀ op ∈ ops, pl.online op.cpu.toNat = true) (m : Machine) :
    let result := run (kernel allow pl) (msrSafeBatch pl true schedule ops) m
    let executed := executeOps pl (fun _ => true) ops m.regs
    result.1 = (executed.1, firstError executed.1) ∧ result.2.regs = executed.2 := by
  obtain ⟨array, regs⟩ := onEachCpuMask_executes allow pl (cpusToRunOn ops) schedule ops m
  have all : ∀ op ∈ ops, (cpusToRunOn ops op.cpu.toNat && pl.online op.cpu.toNat) = true := by
    intro op member
    rw [Bool.and_eq_true]
    exact ⟨List.any_eq_true.mpr ⟨op, member, by simp⟩, passed op member⟩
  rw [executeOps_all pl m.regs all] at array regs
  dsimp only
  rw [msrSafeBatch]
  simp only [Bool.not_true, Bool.false_eq_true, if_false, run_bind, Prog.pure_eq, run_done, array,
    regs, firstErr_eq, and_self]

end MsrSafe
