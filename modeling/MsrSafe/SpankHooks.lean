import MsrSafe.Lib.Interleave
import MsrSafe.Text

/-! The SLURM hooks of spank_msrsafe.c: before a job the registers are saved,
after it they are restored, and the log of either goes to the log of SLURM. -/

namespace MsrSafe

open Interleave

def bytes (text : String) : List UInt8 := text.toList.map ascii

structure ToolCall where
  file : List UInt8
  allowlistPath : List UInt8
  msrPathFormat : List UInt8
  numCpu : Int
  outputLog : Option Nat
  errorLog : Option Nat

structure TempFile where
  fd : Nat
  name : List UInt8

inductive SlurmAction where
  | slurmInfo (text : List UInt8)
  | sysconf
  | gethostname (len : Nat)
  | mkstemp (template : List UInt8)
  | fopen (path mode : List UInt8)
  | msrSave (call : ToolCall)
  | msrRestore (call : ToolCall)
  | rewind (stream : Option Nat)
  | fgetcToEof (stream : Nat)
  | fclose (stream : Nat)
  | unlink (path : List UInt8)

/-- `gethostname` gives its return value and what it has put into the array,
`mkstemp` nothing when it returns -1, and `fgetcToEof`, which is all the calls of
`fgetc` in a row, all bytes up to the end. -/
@[reducible] def SlurmAction.Answer : SlurmAction → Type
  | .slurmInfo _ => Unit
  | .sysconf => Int
  | .gethostname _ => Int × List UInt8
  | .mkstemp _ => Option TempFile
  | .fopen _ _ => Option Nat
  | .msrSave _ => Int
  | .msrRestore _ => Int
  | .rewind _ => Unit
  | .fgetcToEof _ => List UInt8
  | .fclose _ => Unit
  | .unlink _ => Unit

abbrev Slurm : Interface := ⟨SlurmAction, SlurmAction.Answer⟩

namespace Slurm

def slurmInfo (text : List UInt8) : Prog Slurm Unit := Prog.ask (I := Slurm) (.slurmInfo text)

def info (text : String) : Prog Slurm Unit := slurmInfo (bytes text)

def sysconf : Prog Slurm Int := Prog.ask (I := Slurm) .sysconf

def gethostname (len : Nat) : Prog Slurm (Int × List UInt8) :=
  Prog.ask (I := Slurm) (.gethostname len)

def mkstemp (template : List UInt8) : Prog Slurm (Option TempFile) :=
  Prog.ask (I := Slurm) (.mkstemp template)

def fopen (path mode : List UInt8) : Prog Slurm (Option Nat) :=
  Prog.ask (I := Slurm) (.fopen path mode)

def msrSave (call : ToolCall) : Prog Slurm Int := Prog.ask (I := Slurm) (.msrSave call)

def msrRestore (call : ToolCall) : Prog Slurm Int := Prog.ask (I := Slurm) (.msrRestore call)

def rewind (stream : Option Nat) : Prog Slurm Unit := Prog.ask (I := Slurm) (.rewind stream)

def fgetcToEof (stream : Nat) : Prog Slurm (List UInt8) :=
  Prog.ask (I := Slurm) (.fgetcToEof stream)

def fclose (stream : Nat) : Prog Slurm Unit := Prog.ask (I := Slurm) (.fclose stream)

def unlink (path : List UInt8) : Prog Slurm Unit := Prog.ask (I := Slurm) (.unlink path)

end Slurm

def NAME_MAX : Nat := 255

def snprintf (size : Nat) (text : List UInt8) : List UInt8 := text.take (size - 1)

/-- The string in `hostname`, whose last byte is set to 0 before the call. -/
def hostnameString (array : List UInt8) : List UInt8 :=
  (array.take (NAME_MAX - 1)).takeWhile (· != nul)

def SLURM_SPANK_MSRSAFE_BUFFER_SIZE : Nat := 1024

def readLogLoop : List UInt8 → List UInt8 → Prog Slurm Int
  | [], buffer => do
    Slurm.slurmInfo (buffer.takeWhile (· != nul))
    return 0
  | character :: log, buffer =>
    if character = newline ∨ buffer.length = SLURM_SPANK_MSRSAFE_BUFFER_SIZE - 1 then do
      Slurm.slurmInfo (buffer.takeWhile (· != nul))
      readLogLoop log []
    else readLogLoop log (buffer ++ [character])

def slurmSpankMsrsafeReadLog (logFid : Option Nat) : Prog Slurm Int :=
  match logFid with
  | none => .done 1
  | some stream => do
    let log ← Slurm.fgetcToEof stream
    readLogLoop log []

structure JobHook where
  running : String
  tool : ToolCall → Prog Slurm Int
  failed : String
  completed : String

def outLogTemplate (hostname : List UInt8) : List UInt8 :=
  snprintf (NAME_MAX * 2) (bytes "/tmp/slurm-msrsave-outlog-" ++ hostname ++ bytes ".XXXXXXXXXX")

def msrsaveFile (hostname : List UInt8) : List UInt8 :=
  snprintf (NAME_MAX * 2) (bytes "/var/run/slurm-msrsave" ++ bytes "-" ++ hostname)

/-- `err = mkstemp(out_log_name)`: any descriptor but 0 is taken for an error. -/
def createOutLog (err : Int) (hostname : List UInt8) : Prog Slurm (Int × List UInt8) :=
  if err ≠ 0 then .done (err, [])
  else do
    let template := outLogTemplate hostname
    let (err, outLogName) : Int × List UInt8 :=
      match ← Slurm.mkstemp template with
      | none => (-1, template)
      | some tmp => (tmp.fd, tmp.name)
    if err ≠ 0 then
      Slurm.info "failed to create msrsave output log"
    return (err, outLogName)

/-- A NULL stream is reported, and leaves `err` as it is. -/
def openOutLog (err : Int) (outLogName : List UInt8) : Prog Slurm (Option Nat) :=
  if err ≠ 0 then .done none
  else do
    let outLog ← Slurm.fopen outLogName (bytes "w+")
    if outLog = none then
      Slurm.slurmInfo (bytes "failed to open " ++ outLogName ++ bytes " for writing")
    return outLog

def runTool (hook : JobHook) (err : Int) (hostname : List UInt8) (numCpu : Int)
    (outLog : Option Nat) : Prog Slurm Int :=
  if err ≠ 0 then .done err
  else do
    let err ← hook.tool
      { file := msrsaveFile hostname
        allowlistPath := bytes "/dev/cpu/msr_allowlist"
        msrPathFormat := bytes "/dev/cpu/%d/msr_safe"
        numCpu := numCpu
        outputLog := outLog
        errorLog := outLog }
    if err ≠ 0 then
      Slurm.info hook.failed
    Slurm.rewind outLog
    let _ ← slurmSpankMsrsafeReadLog outLog
    return err

def removeOutLog (outLog : Option Nat) (outLogName : List UInt8) : Prog Slurm Unit :=
  match outLog with
  | none => .done ()
  | some stream => do
    Slurm.fclose stream
    Slurm.unlink outLogName

def JobHook.prog (hook : JobHook) : Prog Slurm Int := do
  Slurm.info hook.running
  let numCpu ← Slurm.sysconf
  let (err, array) ← Slurm.gethostname (NAME_MAX - 1)
  let hostname := hostnameString array
  if err ≠ 0 then
    Slurm.info "gethostname failed."
  let (err, outLogName) ← createOutLog err hostname
  let outLog ← openOutLog err outLogName
  let err ← runTool hook err hostname numCpu outLog
  if err = 0 then
    Slurm.info hook.completed
  removeOutLog outLog outLogName
  return err

def saveHook : JobHook :=
  { running := "Running msr-safe plugin to save register values."
    tool := Slurm.msrSave
    failed := "msr_save failed:"
    completed := "Completed msr-safe plugin to save register values." }

def restoreHook : JobHook :=
  { running := "Running msr-safe plugin to restore register values."
    tool := Slurm.msrRestore
    failed := "msr_restore failed:"
    completed := "Completed msr-safe plugin to restore register values." }

def slurmSpankJobProlog : Prog Slurm Int := saveHook.prog

def slurmSpankJobEpilog : Prog Slurm Int := restoreHook.prog

/-! ## What a hook is for -/

structure HookOutcomes where
  numCpu : Int
  gethostname : Int × List UInt8
  mkstemp : Option TempFile
  fopen : Option Nat
  result : Int
  log : List UInt8

def slurm (o : HookOutcomes) : Handler Slurm Unit
  | .slurmInfo _, _ => ((), ())
  | .sysconf, _ => (o.numCpu, ())
  | .gethostname _, _ => (o.gethostname, ())
  | .mkstemp _, _ => (o.mkstemp, ())
  | .fopen _ _, _ => (o.fopen, ())
  | .msrSave _, _ => (o.result, ())
  | .msrRestore _, _ => (o.result, ())
  | .rewind _, _ => ((), ())
  | .fgetcToEof _, _ => (o.log, ())
  | .fclose _, _ => ((), ())
  | .unlink _, _ => ((), ())

structure HookOutcomes.Prepared (o : HookOutcomes) : Prop where
  named : o.gethostname.1 = 0
  created : o.mkstemp ≠ none
  opened : o.fopen ≠ none

def HookOutcomes.call (o : HookOutcomes) : ToolCall :=
  { file := bytes "/var/run/slurm-msrsave" ++ bytes "-" ++ hostnameString o.gethostname.2
    allowlistPath := bytes "/dev/cpu/msr_allowlist"
    msrPathFormat := bytes "/dev/cpu/%d/msr_safe"
    numCpu := o.numCpu
    outputLog := o.fopen
    errorLog := o.fopen }

def SlurmAction.isTool : SlurmAction → Bool
  | .msrSave _ => true
  | .msrRestore _ => true
  | _ => false

def SlurmAction.streams : SlurmAction → List (Option Nat)
  | .msrSave call => [call.outputLog, call.errorLog]
  | .msrRestore call => [call.outputLog, call.errorLog]
  | .rewind stream => [stream]
  | .fgetcToEof stream => [some stream]
  | .fclose stream => [some stream]
  | _ => []

/-- What a hook has to do, by the calls it makes and the value it returns. -/
structure HookMet (tool : ToolCall → SlurmAction) (o : HookOutcomes) (trace : List SlurmAction)
    (ret : Int) : Prop where
  called : o.Prepared → trace.filter SlurmAction.isTool = [tool o.call]
  uncalled : ¬o.Prepared → trace.filter SlurmAction.isTool = []
  streams : none ∉ trace.flatMap SlurmAction.streams
  removed : ∀ tmp, o.gethostname.1 = 0 → o.mkstemp = some tmp → .unlink tmp.name ∈ trace
  returned : ret = 0 ↔ o.Prepared ∧ o.result = 0

def calls (trace : List SlurmAction) : List SlurmAction :=
  trace.filter fun
    | .slurmInfo _ => false
    | _ => true

theorem calls_append (first second : List SlurmAction) :
    calls (first ++ second) = calls first ++ calls second := List.filter_append ..

theorem filter_isTool_calls (trace : List SlurmAction) :
    (calls trace).filter SlurmAction.isTool = trace.filter SlurmAction.isTool := by
  rw [calls, List.filter_filter]
  apply List.filter_congr
  intro action _
  cases action <;> rfl

theorem streams_calls (trace : List SlurmAction) :
    (calls trace).flatMap SlurmAction.streams = trace.flatMap SlurmAction.streams := by
  induction trace with
  | nil => rfl
  | cons action trace ih =>
      rw [List.flatMap_cons, ← ih]
      cases action <;> rfl

theorem unlink_mem_calls {trace : List SlurmAction} (path : List UInt8) :
    .unlink path ∈ calls trace ↔ .unlink path ∈ trace := by
  rw [calls, List.mem_filter]
  exact and_iff_left rfl

theorem hookMet_unprepared {tool : ToolCall → SlurmAction} {o : HookOutcomes}
    {trace : List SlurmAction} {ret : Int} (unprepared : ¬o.Prepared)
    (uncalled : trace.filter SlurmAction.isTool = [])
    (streams : trace.flatMap SlurmAction.streams = [])
    (removed : ∀ tmp, o.gethostname.1 = 0 → o.mkstemp = some tmp → .unlink tmp.name ∈ trace)
    (failed : ret ≠ 0) : HookMet tool o trace ret where
  called := fun prepared => absurd prepared unprepared
  uncalled := fun _ => uncalled
  streams := by
    rw [streams]
    exact List.not_mem_nil
  removed := removed
  returned := iff_of_false failed fun both => unprepared both.1

theorem hookMet_calls {tool : ToolCall → SlurmAction} {o : HookOutcomes} {trace : List SlurmAction}
    {ret : Int} : HookMet tool o (calls trace) ret ↔ HookMet tool o trace ret := by
  constructor
  · rintro ⟨called, uncalled, streams, removed, returned⟩
    rw [filter_isTool_calls] at called uncalled
    rw [streams_calls] at streams
    exact ⟨called, uncalled, streams,
      fun tmp named created => (unlink_mem_calls _).mp (removed tmp named created), returned⟩
  · rintro ⟨called, uncalled, streams, removed, returned⟩
    rw [← filter_isTool_calls] at called uncalled
    rw [← streams_calls] at streams
    exact ⟨called, uncalled, streams,
      fun tmp named created => (unlink_mem_calls _).mpr (removed tmp named created), returned⟩

section Hook

variable {α β : Type} (o : HookOutcomes)

def HookOutcomes.ran (p : Prog Slurm α) : List SlurmAction × α :=
  (calls (actions (slurm o) p ()), (run (slurm o) p ()).1)

@[simp] theorem ran_done (result : α) : o.ran (.done result) = ([], result) := rfl

@[simp] theorem ran_bind (p : Prog Slurm α) (f : α → Prog Slurm β) :
    o.ran (p >>= f) = ((o.ran p).1 ++ (o.ran (f (o.ran p).2)).1, (o.ran (f (o.ran p).2)).2) := by
  rw [HookOutcomes.ran, actions_bind, calls_append, run_bind]
  rfl

@[simp] theorem ran_slurmInfo (text : List UInt8) : o.ran (Slurm.slurmInfo text) = ([], ()) := rfl

@[simp] theorem ran_info (text : String) : o.ran (Slurm.info text) = ([], ()) := rfl

@[simp] theorem ran_sysconf : o.ran Slurm.sysconf = ([.sysconf], o.numCpu) := rfl

@[simp] theorem ran_gethostname (len : Nat) :
    o.ran (Slurm.gethostname len) = ([.gethostname len], o.gethostname) := rfl

@[simp] theorem ran_mkstemp (template : List UInt8) :
    o.ran (Slurm.mkstemp template) = ([.mkstemp template], o.mkstemp) := rfl

@[simp] theorem ran_fopen (path mode : List UInt8) :
    o.ran (Slurm.fopen path mode) = ([.fopen path mode], o.fopen) := rfl

@[simp] theorem ran_rewind (stream : Option Nat) :
    o.ran (Slurm.rewind stream) = ([.rewind stream], ()) := rfl

@[simp] theorem ran_fgetcToEof (stream : Nat) :
    o.ran (Slurm.fgetcToEof stream) = ([.fgetcToEof stream], o.log) := rfl

@[simp] theorem ran_fclose (stream : Nat) :
    o.ran (Slurm.fclose stream) = ([.fclose stream], ()) := rfl

@[simp] theorem ran_unlink (path : List UInt8) :
    o.ran (Slurm.unlink path) = ([.unlink path], ()) := rfl

@[simp] theorem ran_readLogLoop (log buffer : List UInt8) :
    o.ran (readLogLoop log buffer) = ([], 0) := by
  induction log generalizing buffer with
  | nil => rfl
  | cons character log ih =>
      rw [readLogLoop]
      split
      · rw [ran_bind, ih, ran_slurmInfo, List.nil_append]
      · exact ih _

@[simp] theorem ran_readLog (stream : Nat) :
    o.ran (slurmSpankMsrsafeReadLog (some stream)) = ([.fgetcToEof stream], 0) := by
  simp [slurmSpankMsrsafeReadLog]

theorem length_hostnameString (array : List UInt8) : (hostnameString array).length ≤ 254 := by
  have short := List.length_take_le (NAME_MAX - 1) array
  exact (List.takeWhile_prefix _).length_le.trans short

theorem msrsaveFile_eq (array : List UInt8) :
    msrsaveFile (hostnameString array) =
      bytes "/var/run/slurm-msrsave" ++ bytes "-" ++ hostnameString array := by
  have short := length_hostnameString array
  have fixed : (bytes "/var/run/slurm-msrsave" ++ bytes "-").length = 23 := by decide
  apply List.take_of_length_le
  rw [List.length_append, fixed]
  exact (by omega : 23 + (hostnameString array).length ≤ 509)

variable (hook : JobHook)

theorem hook_unnamed (failed : o.gethostname.1 ≠ 0) :
    o.ran hook.prog = ([.sysconf, .gethostname (NAME_MAX - 1)], o.gethostname.1) := by
  simp [JobHook.prog, createOutLog, openOutLog, runTool, removeOutLog, failed]

theorem hook_uncreated (named : o.gethostname.1 = 0) (failed : o.mkstemp = none) :
    o.ran hook.prog = ([.sysconf, .gethostname (NAME_MAX - 1),
      .mkstemp (outLogTemplate (hostnameString o.gethostname.2))], -1) := by
  simp [JobHook.prog, createOutLog, openOutLog, runTool, removeOutLog, named, failed]

theorem hook_descriptor (named : o.gethostname.1 = 0) {tmp : TempFile}
    (created : o.mkstemp = some tmp) (positive : tmp.fd ≠ 0) :
    o.ran hook.prog = ([.sysconf, .gethostname (NAME_MAX - 1),
      .mkstemp (outLogTemplate (hostnameString o.gethostname.2))], (tmp.fd : Int)) := by
  simp [JobHook.prog, createOutLog, openOutLog, runTool, removeOutLog, named, created, positive]

section Tool

variable {tool : ToolCall → SlurmAction}
  (performs : ∀ call, o.ran (hook.tool call) = ([tool call], o.result))
include performs

theorem hook_unopened (named : o.gethostname.1 = 0) {tmp : TempFile}
    (created : o.mkstemp = some tmp) (zero : tmp.fd = 0) (failed : o.fopen = none) :
    o.ran hook.prog = ([.sysconf, .gethostname (NAME_MAX - 1),
      .mkstemp (outLogTemplate (hostnameString o.gethostname.2)), .fopen tmp.name (bytes "w+"),
      tool o.call, .rewind none], o.result) := by
  rw [HookOutcomes.call, failed, ← msrsaveFile_eq]
  by_cases succeeded : o.result = 0 <;>
    simp [JobHook.prog, createOutLog, openOutLog, runTool, removeOutLog, named, created, zero,
      failed, performs, succeeded, slurmSpankMsrsafeReadLog]

theorem hook_opened (named : o.gethostname.1 = 0) {tmp : TempFile}
    (created : o.mkstemp = some tmp) (zero : tmp.fd = 0) {stream : Nat}
    (opened : o.fopen = some stream) :
    o.ran hook.prog = ([.sysconf, .gethostname (NAME_MAX - 1),
      .mkstemp (outLogTemplate (hostnameString o.gethostname.2)), .fopen tmp.name (bytes "w+"),
      tool o.call, .rewind (some stream), .fgetcToEof stream, .fclose stream, .unlink tmp.name],
      o.result) := by
  rw [HookOutcomes.call, opened, ← msrsaveFile_eq]
  by_cases succeeded : o.result = 0 <;>
    simp [JobHook.prog, createOutLog, openOutLog, runTool, removeOutLog, named, created, zero,
      opened, performs, succeeded]

theorem hookMet_iff (kind : tool = .msrSave ∨ tool = .msrRestore) :
    HookMet tool o (actions (slurm o) hook.prog ()) (run (slurm o) hook.prog ()).1 ↔
      o.gethostname.1 ≠ 0 ∨ o.mkstemp = none ∨
        (∃ tmp, o.mkstemp = some tmp ∧ tmp.fd = 0) ∧ o.fopen ≠ none := by
  rw [← hookMet_calls]
  change HookMet tool o (o.ran hook.prog).1 (o.ran hook.prog).2 ↔ _
  by_cases named : o.gethostname.1 = 0
  swap
  · rw [hook_unnamed o hook named]
    apply iff_of_true _ (.inl named)
    exact hookMet_unprepared (fun prepared => named prepared.named) rfl rfl
      (fun tmp here => absurd here named) named
  cases created : o.mkstemp with
  | none =>
      rw [hook_uncreated o hook named created]
      apply iff_of_true _ (.inr (.inl rfl))
      exact hookMet_unprepared (fun prepared => prepared.created created) rfl rfl
        (fun tmp _ here => by cases created.symm.trans here) (by decide : (-1 : Int) ≠ 0)
  | some tmp =>
      by_cases zero : tmp.fd = 0
      swap
      · rw [hook_descriptor o hook named created zero]
        apply iff_of_false
        · intro met
          have removed := met.removed tmp named created
          simp at removed
        · simp [named, zero]
      cases opened : o.fopen with
      | none =>
          rw [hook_unopened o hook performs named created zero opened]
          apply iff_of_false
          · intro met
            apply met.streams
            rw [List.mem_flatMap]
            exact ⟨.rewind none, by simp, by simp [SlurmAction.streams]⟩
          · simp [named]
      | some stream =>
          have prepared : o.Prepared := ⟨named, by simp [created], by simp [opened]⟩
          rw [hook_opened o hook performs named created zero opened]
          apply iff_of_true _ (.inr (.inr ⟨⟨tmp, rfl, zero⟩, by simp⟩))
          have logs : o.call.outputLog = some stream ∧ o.call.errorLog = some stream :=
            ⟨opened, opened⟩
          refine ⟨fun _ => ?_, fun unprepared => absurd prepared unprepared, ?_, ?_, ?_⟩
          · rcases kind with rfl | rfl <;> rfl
          · rcases kind with rfl | rfl <;> simp [SlurmAction.streams, logs]
          · intro tmp' _ here
            cases created.symm.trans here
            simp
          · exact ⟨fun returned => ⟨prepared, returned⟩, fun both => both.2⟩

end Tool

end Hook

/-- Both hooks do their job exactly when the log file cannot be named or created,
or its descriptor is 0 and it can be opened. -/
theorem hooks_met_iff (o : HookOutcomes) :
    let usable := o.gethostname.1 ≠ 0 ∨ o.mkstemp = none ∨
      (∃ tmp, o.mkstemp = some tmp ∧ tmp.fd = 0) ∧ o.fopen ≠ none
    (HookMet .msrSave o (actions (slurm o) slurmSpankJobProlog ())
      (run (slurm o) slurmSpankJobProlog ()).1 ↔ usable) ∧
    (HookMet .msrRestore o (actions (slurm o) slurmSpankJobEpilog ())
      (run (slurm o) slurmSpankJobEpilog ()).1 ↔ usable) :=
  ⟨hookMet_iff o saveHook (fun _ => rfl) (.inl rfl),
    hookMet_iff o restoreHook (fun _ => rfl) (.inr rfl)⟩

/-- All calls succeed, `mkstemp` with the descriptor 3: the prolog does not save,
returns 3 and leaves its log file. -/
theorem prolog_does_not_save :
    let o : HookOutcomes := ⟨4, (0, bytes "node1"), some ⟨3, bytes "/tmp/log"⟩, some 5, 0, []⟩
    let trace := actions (slurm o) slurmSpankJobProlog ()
    let ret := (run (slurm o) slurmSpankJobProlog ()).1
    o.Prepared ∧ ret = 3 ∧ trace.filter SlurmAction.isTool = [] ∧ ¬HookMet .msrSave o trace ret := by
  intro o trace ret
  have prepared : o.Prepared := ⟨rfl, by simp [o], by simp [o]⟩
  have uncalled : trace.filter SlurmAction.isTool = [] := rfl
  refine ⟨prepared, rfl, uncalled, fun met => ?_⟩
  have called := met.called prepared
  rw [uncalled] at called
  cases called

end MsrSafe
