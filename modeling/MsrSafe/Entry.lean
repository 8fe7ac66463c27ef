import MsrSafe.Kernel
import MsrSafe.Lib.Mask

/-! `msr_open`, `msr_read` and `msr_write` of msr_entry.c. A file of the
device is the processor `cpu` it was opened for and a position. The two halves
`data[0]`, `data[1]` that rdmsr and wrmsr exchange are one 64-bit word. -/

namespace MsrSafe

open Interleave

def msrOpen (pl : Platform) (cpu : Nat) : Except Errno Unit :=
  if pl.nrCpuIds ≤ cpu || !pl.cpuOnline cpu then .error .enxio else .ok ()

/-- `.ok data` is the return value 8 with `data` copied to the user. -/
def msrRead (cpu : Nat) (ppos : BitVec 64) (count : Nat) (copied : Bool) :
    Prog Msr (Except Errno Word) := do
  let reg : Addr := ppos.setWidth 32
  if count ≠ 8 then
    return .error .einval
  if !(← Msr.maskexists (reg.setWidth 64)) then
    return .error .eacces
  match ← Msr.rdmsr cpu reg with
  | .error err => return .error err
  | .ok data =>
    if !copied then
      return .error .efault
    return .ok data

/-- `data` is what `copy_from_user` delivers when it succeeds. -/
def msrWrite (cpu : Nat) (ppos : BitVec 64) (count : Nat) (copied : Bool) (data : Word) :
    Prog Msr (Except Errno Unit) := do
  let reg : Addr := ppos.setWidth 32
  if count ≠ 8 then
    return .error .einval
  let mask ← Msr.writemask (reg.setWidth 64)
  if mask = 0 then
    return .error .eacces
  if !copied then
    return .error .efault
  -- a full mask needs no current value, so the register is not read
  if mask ≠ 0xffffffffffffffff then
    match ← Msr.rdmsr cpu reg with
    | .error err => return .error err
    | .ok curdata =>
      let curdata := curdata &&& ~~~mask
      let data := data &&& mask
      let data := data ||| curdata
      Msr.wrmsr cpu reg data
  else
    Msr.wrmsr cpu reg data

theorem msrOpen_online (pl : Platform) (cpu : Nat) (opened : msrOpen pl cpu = .ok ()) :
    pl.online cpu = true := by
  unfold msrOpen at opened
  split at opened
  · cases opened
  · rename_i accepted
    simp only [Bool.or_eq_true, decide_eq_true_eq, Bool.not_eq_true', not_or, not_le,
      Bool.not_eq_false] at accepted
    simp [Platform.online, accepted.1, accepted.2]

theorem msrRead_eq (cpu : Nat) (ppos : BitVec 64) (count : Nat) (copied : Bool) :
    msrRead cpu ppos count copied =
      if count ≠ 8 then .done (.error .einval)
      else .perform (.maskexists ((ppos.setWidth 32).setWidth 64)) fun listed : Bool =>
        if !listed then .done (.error .eacces)
        else .perform (.rdmsr cpu (ppos.setWidth 32)) fun answer : Except Errno Word =>
          match answer with
          | .error err => .done (.error err)
          | .ok data => if !copied then .done (.error .efault) else .done (.ok data) := by
  rw [msrRead]
  split
  · rfl
  · rfl

theorem msrWrite_eq (cpu : Nat) (ppos : BitVec 64) (count : Nat) (copied : Bool) (data : Word) :
    msrWrite cpu ppos count copied data =
      if count ≠ 8 then .done (.error .einval)
      else .perform (.writemask ((ppos.setWidth 32).setWidth 64)) fun mask : Word =>
        if mask = 0 then .done (.error .eacces)
        else if !copied then .done (.error .efault)
        else if mask ≠ 0xffffffffffffffff then
          .perform (.rdmsr cpu (ppos.setWidth 32)) fun answer : Except Errno Word =>
            match answer with
            | .error err => .done (.error err)
            | .ok curdata =>
              .perform (.wrmsr cpu (ppos.setWidth 32) (Mask.merge mask curdata data)) .done
        else .perform (.wrmsr cpu (ppos.setWidth 32) data) .done := by
  rw [msrWrite]
  split
  · rfl
  · rfl

section Guarded

variable {permitted : MsrAction → Prop} {known : (action : MsrAction) → action.Answer → Prop}
  (cpu : Nat) (ppos : BitVec 64) (count : Nat) (copied : Bool)

theorem msrRead_guarded (lookup : permitted (.maskexists ((ppos.setWidth 32).setWidth 64)))
    (read : ∀ listed : Bool, known (.maskexists ((ppos.setWidth 32).setWidth 64)) listed →
      listed = true → permitted (.rdmsr cpu (ppos.setWidth 32))) :
    Guarded permitted known (fun _ => True) (msrRead cpu ppos count copied) := by
  rw [msrRead_eq]
  split
  · trivial
  refine ⟨lookup, fun listed found => ?_⟩
  cases listed with
  | false => trivial
  | true =>
      refine ⟨read true found rfl, fun answer _ => ?_⟩
      cases answer with
      | error err => trivial
      | ok data =>
          dsimp only
          split <;> trivial

theorem msrWrite_guarded (data : Word)
    (lookup : permitted (.writemask ((ppos.setWidth 32).setWidth 64)))
    (read : ∀ mask : Word, known (.writemask ((ppos.setWidth 32).setWidth 64)) mask → mask ≠ 0 →
      permitted (.rdmsr cpu (ppos.setWidth 32)))
    (merge : ∀ mask curdata : Word, known (.writemask ((ppos.setWidth 32).setWidth 64)) mask →
      mask ≠ 0 → known (.rdmsr cpu (ppos.setWidth 32)) (.ok curdata) →
      permitted (.wrmsr cpu (ppos.setWidth 32) (Mask.merge mask curdata data)))
    (write : ∀ mask : Word, known (.writemask ((ppos.setWidth 32).setWidth 64)) mask →
      mask = 0xffffffffffffffff → permitted (.wrmsr cpu (ppos.setWidth 32) data)) :
    Guarded permitted known (fun _ => True) (msrWrite cpu ppos count copied data) := by
  rw [msrWrite_eq]
  split
  · trivial
  refine ⟨lookup, fun mask found => ?_⟩
  dsimp only
  split
  · trivial
  rename_i nonzero
  split
  · trivial
  split
  · refine ⟨read mask found nonzero, fun answer current => ?_⟩
    cases answer with
    | error err => trivial
    | ok curdata => exact ⟨merge mask curdata found nonzero current, fun _ _ => trivial⟩
  · rename_i full
    exact ⟨write mask found (not_not.mp full), fun _ _ => trivial⟩

end Guarded

theorem withoutWrmsr_msrRead (cpu : Nat) (ppos : BitVec 64) (count : Nat) (copied : Bool) :
    WithoutWrmsr (msrRead cpu ppos count copied) :=
  msrRead_guarded cpu ppos count copied trivial fun _ _ _ => trivial

theorem rdmsrSafeOnCpu_cases (pl : Platform) (cpu : Nat) (reg : Addr) (m : Machine) :
    (∃ err m', rdmsrSafeOnCpu pl cpu reg m = (.error err, m') ∧ m'.regs = m.regs) ∨
      ∃ m', rdmsrSafeOnCpu pl cpu reg m = (.ok (m.regs cpu reg), m') ∧ m'.regs = m.regs := by
  rw [rdmsrSafeOnCpu, Machine.rdmsrSafe]
  cases pl.online cpu with
  | false => exact .inl ⟨_, _, rfl, rfl⟩
  | true =>
      cases pl.rdFault cpu (m.regs cpu) reg with
      | false => exact .inr ⟨_, rfl, rfl⟩
      | true => exact .inl ⟨_, _, rfl, rfl⟩

theorem rdmsrSafeOnCpu_regs (pl : Platform) (cpu : Nat) (reg : Addr) (m : Machine) :
    (rdmsrSafeOnCpu pl cpu reg m).2.regs = m.regs := by
  rcases rdmsrSafeOnCpu_cases pl cpu reg m with ⟨err, m', failed, kept⟩ | ⟨m', read, kept⟩
  · rw [failed]
    exact kept
  · rw [read]
    exact kept

theorem rdmsrSafeOnCpu_ok {pl : Platform} {cpu : Nat} {reg : Addr} {m : Machine} {value : Word}
    (answered : (rdmsrSafeOnCpu pl cpu reg m).1 = .ok value) : value = m.regs cpu reg := by
  rcases rdmsrSafeOnCpu_cases pl cpu reg m with ⟨err, m', failed, kept⟩ | ⟨m', read, kept⟩
  · rw [failed] at answered
    cases answered
  · rw [read] at answered
    exact (Except.ok.inj answered).symm

theorem wrmsrSafeOnCpu_cases (pl : Platform) (cpu : Nat) (reg : Addr) (value : Word)
    (m : Machine) :
    (∃ err m', wrmsrSafeOnCpu pl cpu reg value m = (.error err, m') ∧ m'.regs = m.regs) ∨
      wrmsrSafeOnCpu pl cpu reg value m =
        (.ok (), (m.issue (.wrmsr cpu reg value)).setReg cpu reg value) := by
  rw [wrmsrSafeOnCpu, Machine.wrmsrSafe]
  cases pl.online cpu with
  | false => exact .inl ⟨_, _, rfl, rfl⟩
  | true =>
      cases pl.wrFault cpu (m.regs cpu) reg value with
      | false => exact .inr rfl
      | true => exact .inl ⟨_, _, rfl, rfl⟩

theorem wrmsrSafeOnCpu_ok {pl : Platform} {cpu : Nat} {reg : Addr} {value : Word} {m : Machine}
    (answered : (wrmsrSafeOnCpu pl cpu reg value m).1 = .ok ()) :
    (wrmsrSafeOnCpu pl cpu reg value m).2 =
      (m.issue (.wrmsr cpu reg value)).setReg cpu reg value := by
  rcases wrmsrSafeOnCpu_cases pl cpu reg value m with ⟨err, m', failed, -⟩ | written
  · rw [failed] at answered
    cases answered
  · rw [written]

theorem wrmsrSafeOnCpu_error {pl : Platform} {cpu : Nat} {reg : Addr} {value : Word}
    {m : Machine} {err : Errno} (answered : (wrmsrSafeOnCpu pl cpu reg value m).1 = .error err) :
    (wrmsrSafeOnCpu pl cpu reg value m).2.regs = m.regs := by
  rcases wrmsrSafeOnCpu_cases pl cpu reg value m with ⟨err', m', failed, kept⟩ | written
  · rw [failed]
    exact kept
  · rw [written] at answered
    cases answered

theorem wrmsrSafeOnCpu_frame (pl : Platform) {cpu cpu' : Nat} {reg reg' : Addr}
    (other : ¬(cpu' = cpu ∧ reg' = reg)) (value : Word) (m : Machine) :
    (wrmsrSafeOnCpu pl cpu reg value m).2.regs cpu' reg' = m.regs cpu' reg' := by
  rcases wrmsrSafeOnCpu_cases pl cpu reg value m with ⟨err, m', failed, kept⟩ | written
  · rw [failed, kept]
  · rw [written]
    exact (Machine.setReg_regs _ cpu reg value cpu' reg').trans (if_neg other)

theorem rdmsrSafeOnCpu_online {pl : Platform} {cpu : Nat} (online : pl.online cpu = true)
    (reg : Addr) (m : Machine) :
    (rdmsrSafeOnCpu pl cpu reg m).1 =
        (if pl.rdFault cpu (m.regs cpu) reg then .error .eio else .ok (m.regs cpu reg)) ∧
      (rdmsrSafeOnCpu pl cpu reg m).2.regs = m.regs := by
  rw [rdmsrSafeOnCpu, Machine.rdmsrSafe]
  rw [if_pos online]
  cases pl.rdFault cpu (m.regs cpu) reg <;> exact ⟨rfl, rfl⟩

theorem wrmsrSafeOnCpu_online {pl : Platform} {cpu : Nat} (online : pl.online cpu = true)
    (reg : Addr) (value : Word) (m : Machine) :
    (wrmsrSafeOnCpu pl cpu reg value m).1 =
        (if pl.wrFault cpu (m.regs cpu) reg value then .error .eio else .ok ()) ∧
      (wrmsrSafeOnCpu pl cpu reg value m).2.regs =
        if pl.wrFault cpu (m.regs cpu) reg value then m.regs
        else Function.update m.regs cpu (Function.update (m.regs cpu) reg value) := by
  rw [wrmsrSafeOnCpu, Machine.wrmsrSafe]
  rw [if_pos online]
  cases pl.wrFault cpu (m.regs cpu) reg value <;> exact ⟨rfl, rfl⟩

theorem run_msrRead (allow : AllowMap) {pl : Platform} {cpu : Nat} (online : pl.online cpu = true)
    (ppos : BitVec 64) (m : Machine) :
    let reg : Addr := ppos.setWidth 32
    (run (kernel allow pl) (msrRead cpu ppos 8 true) m).1 =
        (if allow.maskexists (reg.setWidth 64) = false then .error .eacces
        else if pl.rdFault cpu (m.regs cpu) reg then .error .eio else .ok (m.regs cpu reg)) ∧
      (run (kernel allow pl) (msrRead cpu ppos 8 true) m).2.regs = m.regs := by
  dsimp only
  rw [msrRead_eq, if_neg (by decide), run_maskexists]
  generalize (ppos.setWidth 32 : Addr) = reg
  obtain ⟨answer, regs⟩ := rdmsrSafeOnCpu_online online reg m
  cases listed : allow.maskexists (reg.setWidth 64) with
  | false => exact ⟨rfl, rfl⟩
  | true =>
      rw [if_neg (by decide), run_rdmsr, answer]
      cases pl.rdFault cpu (m.regs cpu) reg <;> exact ⟨rfl, regs⟩

/-- The value an `msr_write` puts into the register, if it gets that far: with a
full mask the register is not read first. -/
theorem run_msrWrite (allow : AllowMap) {pl : Platform} {cpu : Nat} (online : pl.online cpu = true)
    (ppos : BitVec 64) (data : Word) (m : Machine) :
    let reg : Addr := ppos.setWidth 32
    let mask := allow.writemask (reg.setWidth 64)
    let new := Mask.merge mask (m.regs cpu reg) data
    let result := run (kernel allow pl) (msrWrite cpu ppos 8 true data) m
    if mask = 0 then result = (.error .eacces, m)
    else if (mask ≠ 0xffffffffffffffff ∧ pl.rdFault cpu (m.regs cpu) reg = true) ∨
        pl.wrFault cpu (m.regs cpu) reg new = true then
      result.1 = .error .eio ∧ result.2.regs = m.regs
    else
      result.1 = .ok () ∧
        result.2.regs = Function.update m.regs cpu (Function.update (m.regs cpu) reg new) := by
  dsimp only
  generalize ran : run (kernel allow pl) (msrWrite cpu ppos 8 true data) m = result
  rw [msrWrite_eq, if_neg (by decide), run_writemask] at ran
  generalize (ppos.setWidth 32 : Addr) = reg at ran ⊢
  generalize allow.writemask (reg.setWidth 64) = mask at ran ⊢
  by_cases readonly : mask = 0
  · rw [if_pos readonly] at ran ⊢
    exact ran.symm
  rw [if_neg readonly, if_neg (by decide)] at ran
  rw [if_neg readonly]
  by_cases full : mask = 0xffffffffffffffff
  · have whole : Mask.merge mask (m.regs cpu reg) data = data := by
      rw [full]
      exact Mask.merge_allOnes _ _
    obtain ⟨answer, regs⟩ := wrmsrSafeOnCpu_online online reg data m
    rw [if_neg (not_not.mpr full), run_wrmsr, run_done, answer] at ran
    subst ran
    rw [whole]
    simp only [full, ne_eq, not_true_eq_false, false_and, false_or]
    by_cases fault : pl.wrFault cpu (m.regs cpu) reg data = true
    · rw [if_pos fault] at regs
      rw [if_pos fault, if_pos fault]
      exact ⟨rfl, regs⟩
    · rw [if_neg fault] at regs
      rw [if_neg fault, if_neg fault]
      exact ⟨rfl, regs⟩
  · obtain ⟨answer, regs⟩ := rdmsrSafeOnCpu_online online reg m
    rw [if_pos full, run_rdmsr, answer] at ran
    by_cases unread : pl.rdFault cpu (m.regs cpu) reg = true
    · rw [if_pos unread] at ran
      subst ran
      rw [if_pos (.inl ⟨full, unread⟩)]
      exact ⟨rfl, regs⟩
    · obtain ⟨answer', regs'⟩ := wrmsrSafeOnCpu_online online reg
        (Mask.merge mask (m.regs cpu reg) data) (rdmsrSafeOnCpu pl cpu reg m).2
      rw [regs] at answer' regs'
      rw [if_neg unread] at ran
      dsimp only at ran
      rw [run_wrmsr, run_done] at ran
      subst ran
      by_cases fault : pl.wrFault cpu (m.regs cpu) reg (Mask.merge mask (m.regs cpu reg) data) = true
      · rw [if_pos fault] at answer' regs'
        rw [if_pos (.inr fault)]
        exact ⟨answer', regs'⟩
      · rw [if_neg fault] at answer' regs'
        rw [if_neg (by simp [unread, fault])]
        exact ⟨answer', regs'⟩

end MsrSafe
