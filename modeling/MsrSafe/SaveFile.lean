import MsrSafe.RestoreFailure

/-! The file that `msr_save` leaves and `msr_restore` takes, when calls fail and
runs are cut off: what a restore can bring back, whatever has been done to the
registers since the save. -/

namespace MsrSafe

open Interleave

section Msrsave

variable (vfs : Word → Bool) (pl : Platform)

def saveBuffer (faults : SaveFaults) (entries : List AllowlistEntry) (numCpu : Nat)
    (buffer : Nat → Word) : Tool (Nat → Word) := do
  Tool.lift (attempt [faults.mallocBuffer])
  saveCpus vfs pl faults.msr entries numCpu 0 buffer

def saveImage (count : Nat) (buffer : Nat → Word) : List UInt8 :=
  ((List.range count).map buffer).flatMap wordBytes

/-- `fopen` empties the file or makes a new one. When `fwrite` or `fclose` fails,
`flushed` bytes have got there. -/
def writeSaveFile (faults : SaveFaults) (flushed : Nat) (image : List UInt8)
    (old : Option (List UInt8)) : Except Failure Unit × Option (List UInt8) :=
  match attempt [faults.openFile] with
  | .error failure => (.error failure, old)
  | .ok () =>
    match attempt [faults.writeFile, faults.closeFile] with
    | .error failure => (.error failure, some (image.take flushed))
    | .ok () => (.ok (), some image)

def msrSaveTo (faults : SaveFaults) (flushed : Nat) (g : Globals) (numCpu : Nat)
    (buffer : Nat → Word) (old : Option (List UInt8)) :
    Prog Msr (Option (Except Failure Unit) × Option (List UInt8)) :=
  match msrParseAllowlist faults.parse g with
  | none => .done (none, old)
  | some (.error failure) => .done (some (.error failure), old)
  | some (.ok entries) => do
    match ← (saveBuffer vfs pl faults entries numCpu buffer).run with
    | .error failure => return (some (.error failure), old)
    | .ok buffer =>
      let (result, file) :=
        writeSaveFile faults flushed (saveImage (entries.length * numCpu) buffer) old
      return (some result, file)

def ENOENT : Int := 2

/-- `msr_restore` with the file at `restore_path`; without one `stat` fails. -/
def msrRestoreFrom (outcomes : RestoreOutcomes) (g : Globals) (numCpu : Nat)
    (file : Option (List UInt8)) : Prog Msr (Option (Except Failure Unit)) :=
  match file with
  | none =>
    restoreListed vfs pl { outcomes with statRestore := some ENOENT } numCpu []
      (msrParseAllowlist outcomes.parse g)
  | some file => restoreListed vfs pl outcomes numCpu file (msrParseAllowlist outcomes.parse g)

end Msrsave

theorem msrSaveTo_msrSave (vfs : Word → Bool) (pl : Platform) (exec : Handler Msr Machine)
    (faults : SaveFaults) (flushed : Nat) (g : Globals) (numCpu : Nat) (buffer : Nat → Word)
    (old : Option (List UInt8)) (m : Machine) :
    let saved := run exec (msrSave vfs pl faults g numCpu buffer) m
    let saved' := run exec (msrSaveTo vfs pl faults flushed g numCpu buffer old) m
    saved'.2 = saved.2 ∧ saved'.1.1 = saved.1.map (Except.map fun _ => ()) ∧
      ∀ file, saved.1 = some (.ok file) → saved'.1.2 = some file := by
  dsimp only
  rw [msrSave, msrSaveTo]
  rcases msrParseAllowlist faults.parse g with _ | failure | entries
  · exact ⟨rfl, rfl, fun file none => by cases none⟩
  · exact ⟨rfl, rfl, fun file failed => by cases failed⟩
  dsimp only
  have split : saveFile vfs pl faults entries numCpu buffer =
      (do
        Tool.lift (attempt [faults.mallocBuffer])
        let buffer ← saveCpus vfs pl faults.msr entries numCpu 0 buffer
        Tool.lift (attempt [faults.openFile, faults.writeFile, faults.closeFile])
        return saveImage (entries.length * numCpu) buffer) := rfl
  rw [run_map, run_bind, split, saveBuffer]
  cases attempt [faults.mallocBuffer] with
  | error failure => exact ⟨rfl, rfl, fun file failed => by cases failed⟩
  | ok =>
      rw [lift_ok_bind, lift_ok_bind, run_except_bind]
      rcases run exec (saveCpus vfs pl faults.msr entries numCpu 0 buffer).run m with
        ⟨failure | buffer', m'⟩
      · exact ⟨rfl, rfl, fun file failed => by cases failed⟩
      dsimp only
      cases opened : faults.openFile with
      | some errno =>
          simp only [writeSaveFile, opened, attempt]
          exact ⟨rfl, rfl, fun file failed => by cases failed⟩
      | none =>
          have later : attempt [none, faults.writeFile, faults.closeFile] =
            attempt [faults.writeFile, faults.closeFile] := rfl
          rw [later]
          simp only [writeSaveFile, opened, attempt]
          cases attempt [faults.writeFile, faults.closeFile] with
          | error failure => exact ⟨rfl, rfl, fun file failed => by cases failed⟩
          | ok =>
              refine ⟨rfl, rfl, fun file saved => ?_⟩
              cases saved
              rfl

/-! ## What the programs come to issue -/

section Guard

variable {permitted : MsrAction → Prop} {known : (action : MsrAction) → action.Answer → Prop}
  {vfs : Word → Bool} {pl : Platform}

section Save

variable (reads : ∀ cpu offset, Guarded permitted known (fun _ => True) (pread vfs cpu offset))
include reads

variable (writes : ∀ cpu offset data,
  Guarded permitted known (fun _ => True) (pwrite vfs cpu offset data))
include writes

end Save

end Guard

section Saved

variable {allow : AllowMap} {vfs : Word → Bool} {pl : Platform} {g : Globals}
  {entries : List AllowlistEntry} {numCpu : Nat}

def ImageOf (allow : AllowMap) (vfs : Word → Bool) (entries : List AllowlistEntry) (numCpu : Nat)
    (regs : Nat → CpuRegs) (image : List UInt8) : Prop :=
  ∃ words, image = saveImage (entries.length * numCpu) words ∧
    ∀ c < numCpu, ∀ t e, entries[t]? = some e →
      Saved allow vfs (regs c) e (words (c * entries.length + t))

def FileOf (allow : AllowMap) (vfs : Word → Bool) (entries : List AllowlistEntry) (numCpu : Nat)
    (regs : Nat → CpuRegs) (file : Option (List UInt8)) : Prop :=
  ∃ image flushed, ImageOf allow vfs entries numCpu regs image ∧ file = some (image.take flushed)

theorem ImageOf.congr {regs regs' : Nat → CpuRegs} {image : List UInt8}
    (holds : ImageOf allow vfs entries numCpu regs image)
    (same : ∀ c < numCpu, regs' c = regs c) : ImageOf allow vfs entries numCpu regs' image := by
  obtain ⟨words, written, rows⟩ := holds
  refine ⟨words, written, fun c below => ?_⟩
  rw [same c below]
  exact rows c below

theorem FileOf.congr {regs regs' : Nat → CpuRegs} {file : Option (List UInt8)}
    (holds : FileOf allow vfs entries numCpu regs file)
    (same : ∀ c < numCpu, regs' c = regs c) : FileOf allow vfs entries numCpu regs' file := by
  obtain ⟨image, flushed, image_holds, written⟩ := holds
  exact ⟨image, flushed, image_holds.congr same, written⟩

end Saved

end MsrSafe
