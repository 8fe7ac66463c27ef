import MsrSafe.SaveFile
import MsrSafe.SpankHooks

/-! A node that runs job after job: the prolog hook saves the registers to the
file of the node, the epilog hook restores them from it, and in between any
programs use the driver, of which some may be stopped anywhere. -/

namespace MsrSafe

open Interleave

/-- The registers, and the save files by their paths. The logs under `/tmp` are
not among them. -/
structure Node where
  machine : Machine
  files : List UInt8 → Option (List UInt8)

/-- How the calls of a hook and of its tool turn out. A tool that does not return
has `lost` for its result. -/
structure HookRun where
  gethostname : Int × List UInt8
  mkstemp : Option TempFile
  fopen : Option Nat
  log : List UInt8
  lost : Int
  save : SaveFaults
  flushed : Nat
  buffer : Nat → Word
  restore : RestoreOutcomes

def HookRun.On (host : List UInt8) (o : HookRun) : Prop :=
  o.gethostname.1 = 0 → hostnameString o.gethostname.2 = host

def toolReturn (lost : Int) : Option (Except Failure Unit) → Int
  | none => lost
  | some (.error failure) => failure.err
  | some (.ok ()) => 0

section Node

variable (vfs : Word → Bool) (pl : Platform) (allow : AllowMap) (g : Globals)

def nodeCalls (o : HookRun) : Handler Slurm Node
  | .slurmInfo _, node => ((), node)
  | .sysconf, node => (pl.nprocessorsOnln, node)
  | .gethostname _, node => (o.gethostname, node)
  | .mkstemp _, node => (o.mkstemp, node)
  | .fopen _ _, node => (o.fopen, node)
  | .msrSave call, node =>
    let saved := run (kernel allow pl) (msrSaveTo vfs pl o.save o.flushed g call.numCpu.toNat
      o.buffer (node.files call.file)) node.machine
    (toolReturn o.lost saved.1.1, ⟨saved.2, Function.update node.files call.file saved.1.2⟩)
  | .msrRestore call, node =>
    let restored := run (kernel allow pl) (msrRestoreFrom vfs pl o.restore g call.numCpu.toNat
      (node.files call.file)) node.machine
    (toolReturn o.lost restored.1, ⟨restored.2, node.files⟩)
  | .rewind _, node => ((), node)
  | .fgetcToEof _, node => (o.log, node)
  | .fclose _, node => ((), node)
  | .unlink _, node => ((), node)

end Node

/-! ## A hook -/

section Hook

variable (vfs : Word → Bool) (pl : Platform) (allow : AllowMap) (g : Globals) (o : HookRun)
  (node : Node)

@[simp] theorem node_slurmInfo (text : List UInt8) :
    run (nodeCalls vfs pl allow g o) (Slurm.slurmInfo text) node = ((), node) := rfl

@[simp] theorem node_fopen (path mode : List UInt8) :
    run (nodeCalls vfs pl allow g o) (Slurm.fopen path mode) node = (o.fopen, node) := rfl

@[simp] theorem node_rewind (stream : Option Nat) :
    run (nodeCalls vfs pl allow g o) (Slurm.rewind stream) node = ((), node) := rfl

@[simp] theorem node_readLogLoop (log buffer : List UInt8) :
    run (nodeCalls vfs pl allow g o) (readLogLoop log buffer) node = (0, node) := by
  induction log generalizing buffer with
  | nil => rfl
  | cons character log ih =>
      rw [readLogLoop]
      split
      · rw [run_bind, node_slurmInfo]
        exact ih []
      · exact ih _

@[simp] theorem node_readLog (logFid : Option Nat) :
    (run (nodeCalls vfs pl allow g o) (slurmSpankMsrsafeReadLog logFid) node).2 = node := by
  cases logFid with
  | none => rfl
  | some stream =>
      rw [slurmSpankMsrsafeReadLog, run_bind, node_readLogLoop]
      rfl

@[simp] theorem node_removeOutLog (outLog : Option Nat) (outLogName : List UInt8) :
    run (nodeCalls vfs pl allow g o) (removeOutLog outLog outLogName) node = ((), node) := by
  cases outLog <;> rfl

end Hook

/-- What runs on the node during a job: calls of the driver, and the programs of
msrsave with any list and any file. -/
inductive JobProgram where
  | call (systemCall : SystemCall)
  | save (pl : Platform) (faults : SaveFaults) (entries : List AllowlistEntry) (numCpu : Nat)
      (buffer : Nat → Word)
  | restore (pl : Platform) (faults : RestoreFaults) (entries : List AllowlistEntry)
      (numCpu : Nat) (file : List UInt8)

def JobProgram.prog (vfs : Word → Bool) : JobProgram → Prog Msr Unit
  | .call systemCall => (fun _ => ()) <$> systemCall.prog
  | .save pl faults entries numCpu buffer =>
    (fun _ => ()) <$> (saveBuffer vfs pl faults entries numCpu buffer).run
  | .restore pl faults entries numCpu file =>
    (fun _ => ()) <$> (restoreFile vfs pl faults entries numCpu file).run

section Confined

variable {ι : Type} [DecidableEq ι] {allow : AllowMap} {regs₀ : Nat → CpuRegs}

end Confined

section Series

variable {ι : Type} [DecidableEq ι]

section Tools

variable {bucket : Word → Fin 64} {g : Globals} {array : Nat} {entries : List AllowlistEntry}
  {vfs : Word → Bool} {pl : Platform} {host : List UInt8}

end Tools

end Series

section Alone

variable (vfs : Word → Bool) (pl : Platform) (allow : AllowMap) (g : Globals)
  (prolog epilog : HookRun) (program : JobProgram) (node : Node)

end Alone

def HookRun.quiet : HookRun :=
  ⟨(0, bytes "n1"), some ⟨0, bytes "/tmp/log"⟩, some 5, [], 0, .quiet, 0, fun _ => 7,
    ⟨.quiet, none⟩⟩

def HookRun.failing : HookRun := { HookRun.quiet with mkstemp := some ⟨3, bytes "/tmp/log"⟩ }

end MsrSafe
