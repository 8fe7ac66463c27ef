import MsrSafe.AccessPaths
import MsrSafe.BatchExecution
import MsrSafe.BatchGuard
import MsrSafe.Mediation
import MsrSafe.Lib.History

/-! Mediation while the allowlist is replaced: for how long a list that is no
longer installed can still let an access through. -/

namespace MsrSafe

open Interleave

structure Governed where
  machine : Machine
  allow : AllowMap

/-- The kernel under lists of `lists`: between any two actions the list may be
replaced, and processors and faults may be different at every action. -/
def governed (ι : Type) (lists : Set AllowMap) : Semantics ι Msr Governed :=
  fun _ s action answer s' => s'.allow ∈ lists ∧
    ∃ pl, kernel s'.allow pl action s.machine = (answer, s'.machine)

namespace Overtaken

def call : SystemCall := .write 0 16 8 true 0xab34

def returned : SystemReturn := .write (.ok ())

def emptied : AllowMap := fun _ => none

def lists : Set AllowMap := {lowByte16, emptied}

def before : Machine := ⟨fun _ _ => 0x1200, []⟩

def read : Machine := before.issue (.rdmsr 0 16)

def written : Machine := (read.issue (.wrmsr 0 16 0x1234)).setReg 0 16 0x1234

def history : List (Moment Unit Msr Governed) :=
  [⟨(), ⟨.writemask 16, (0xff : Word)⟩, ⟨before, lowByte16⟩, ⟨before, lowByte16⟩⟩,
    ⟨(), ⟨.rdmsr 0 16, .ok 0x1200⟩, ⟨before, lowByte16⟩, ⟨read, emptied⟩⟩,
    ⟨(), ⟨.wrmsr 0 16 0x1234, .ok ()⟩, ⟨read, emptied⟩, ⟨written, emptied⟩⟩]

theorem act {s : Governed} {history : List (Moment Unit Msr Governed)} {p : Prog Msr SystemReturn}
    (action : MsrAction) (answer : action.Answer) (s' : Governed)
    {next : action.Answer → Prog Msr SystemReturn} (pending : p = .perform action next)
    (inForce : s'.allow ∈ lists)
    (moved : kernel s'.allow oneProcessor action s.machine = (answer, s'.machine)) :
    Steps (recording (governed Unit lists)) (Set.range SystemCall.prog) ((s, history), fun _ => p)
      ((s', history ++ [⟨(), ⟨action, answer⟩, s, s'⟩]), fun _ => next answer) := by
  have same : Function.update (fun _ : Unit => p) () (next answer) = fun _ => next answer := by
    funext thread
    rfl
  rw [← same]
  exact .single (Step.act (I := Msr) () action next answer pending
    ⟨⟨inForce, oneProcessor, moved⟩, rfl⟩)

theorem steps : Steps (recording (governed Unit lists)) (Set.range SystemCall.prog)
    ((⟨before, lowByte16⟩, []), fun _ => .done returned)
    ((⟨written, emptied⟩, history), fun _ => .done returned) := by
  have called : Steps (recording (governed Unit lists)) (Set.range SystemCall.prog)
      ((⟨before, lowByte16⟩, []), fun _ => .done returned)
      ((⟨before, lowByte16⟩, []), fun _ => call.prog) := by
    have same : Function.update (fun _ : Unit => Prog.done returned) () call.prog =
        fun _ => call.prog := by
      funext thread
      rfl
    rw [← same]
    exact .single (.call () returned call.prog rfl ⟨call, rfl⟩)
  have looked := called.trans
    (act (.writemask 16) (0xff : Word) ⟨before, lowByte16⟩ rfl (.inl rfl) rfl)
  have current := looked.trans
    (act (.rdmsr 0 16) (.ok 0x1200) ⟨read, emptied⟩ rfl (.inr rfl) rfl)
  exact current.trans (act (.wrmsr 0 16 0x1234) (.ok ()) ⟨written, emptied⟩ rfl (.inr rfl) rfl)

end Overtaken

section Calls

variable {past : List (Event Msr)}

end Calls

/-! ## Authority does not outlive the call -/

section Authority

variable {ι : Type}

section Learnt

variable {lists : Set AllowMap} {history : List (Moment ι Msr Governed)} {start index : Nat}
  {client : ι} {past : List (Event Msr)}

end Learnt

variable [DecidableEq ι]

end Authority

/-! ## Revocation -/

section Revocation

variable (ceiling : AllowMap) (regs₀ : Nat → CpuRegs)

variable {ceiling regs₀}

variable {ι : Type} [DecidableEq ι]

end Revocation

end MsrSafe
