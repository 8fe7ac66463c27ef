import MsrSafe.Entry
import MsrSafe.MsrsaveAllowlist
import MsrSafe.Lib.LittleEndian

/-! `msr_save` and `msr_restore` of msrsave.c, on the register files of the
processors 0 to `num_cpu - 1`. -/

namespace MsrSafe

open Interleave

def G_COOKIE_BAD_READ : Word := 0xFB6A58813AEA28CF

def isGoodValue (writeVal mask : Word) : Bool :=
  if ~~~mask ≠ 0 then writeVal = mask &&& writeVal else writeVal ≠ G_COOKIE_BAD_READ

structure MsrFaults where
  openMsr : Nat → Option Int
  closeMsr : Nat → Option Int

structure SaveFaults where
  parse : ParseFaults
  mallocBuffer : Option Int
  msr : MsrFaults
  openFile : Option Int
  writeFile : Option Int
  closeFile : Option Int

/-- `errno` is what an earlier call has left there. -/
structure RestoreFaults where
  parse : ParseFaults
  statRestore : Option Int
  statAllowlist : Option Int
  restoreMtime : Int
  allowlistMtime : Int
  mallocBuffer : Option Int
  openFile : Option Int
  readFile : Option Int
  errno : Int
  closeFile : Option Int
  msr : MsrFaults

def wordBytes (word : Word) : List UInt8 := LittleEndian.bytes 8 word.toNat

def bytesWord (stream : List UInt8) : Word := BitVec.ofNat 64 (LittleEndian.value stream)

abbrev Tool (α : Type) : Type := ExceptT Failure (Prog Msr) α

def Tool.lift {α : Type} (result : Except Failure α) : Tool α := ExceptT.mk (.done result)

section Msrsave

variable (vfs : Word → Bool) (pl : Platform)

def openMsr (faults : MsrFaults) (cpu : Nat) : Except Failure Unit :=
  match msrOpen pl cpu with
  | .error err => .error (.ofErrno err.number)
  | .ok () => attempt [faults.openMsr cpu]

/-- `pread` of 8 bytes: `vfs` tells which positions get to the driver. -/
def pread (cpu : Nat) (offset : Word) : Prog Msr (Except Errno Word) :=
  if vfs offset then msrRead cpu offset 8 true else .done (.error .einval)

def pwrite (cpu : Nat) (offset data : Word) : Prog Msr (Except Errno Unit) :=
  if vfs offset then msrWrite cpu offset 8 true data else .done (.error .einval)

def saveMsr (cpu : Nat) (e : AllowlistEntry) : Tool Word := do
  match ← ExceptT.lift (pread vfs cpu e.msr) with
  | .error _ => return if ~~~e.wmask ≠ 0 then ~~~e.wmask else G_COOKIE_BAD_READ
  | .ok value =>
    let value := value &&& e.wmask
    if ~~~e.wmask = 0 && value = G_COOKIE_BAD_READ then
      throw .minusOne
    else return value

/-- `base` is `i * num_msr`. -/
def saveMsrs (cpu base : Nat) : List AllowlistEntry → Nat → (Nat → Word) → Tool (Nat → Word)
  | [], _, buffer => return buffer
  | e :: entries, j, buffer => do
    let value ← saveMsr vfs cpu e
    saveMsrs cpu base entries (j + 1) (Function.update buffer (base + j) value)

def saveCpus (faults : MsrFaults) (entries : List AllowlistEntry) :
    Nat → Nat → (Nat → Word) → Tool (Nat → Word)
  | 0, _, buffer => return buffer
  | left + 1, i, buffer => do
    Tool.lift (openMsr pl faults i)
    let buffer ← saveMsrs vfs i (i * entries.length) entries 0 buffer
    Tool.lift (attempt [faults.closeMsr i])
    saveCpus faults entries left (i + 1) buffer

def saveFile (faults : SaveFaults) (entries : List AllowlistEntry) (numCpu : Nat)
    (buffer : Nat → Word) : Tool (List UInt8) := do
  Tool.lift (attempt [faults.mallocBuffer])
  let buffer ← saveCpus vfs pl faults.msr entries numCpu 0 buffer
  Tool.lift (attempt [faults.openFile, faults.writeFile, faults.closeFile])
  return ((List.range (entries.length * numCpu)).map buffer).flatMap wordBytes

def msrSave (faults : SaveFaults) (g : Globals) (numCpu : Nat) (buffer : Nat → Word) :
    Prog Msr (Option (Except Failure (List UInt8))) :=
  match msrParseAllowlist faults.parse g with
  | none => .done none
  | some (.error failure) => .done (some (.error failure))
  | some (.ok entries) => some <$> (saveFile vfs pl faults entries numCpu buffer).run

def restoreMsr (cpu : Nat) (e : AllowlistEntry) (writeVal : Word) : Prog Msr Unit := do
  if isGoodValue writeVal e.wmask then
    match ← pread vfs cpu e.msr with
    | .error _ => return ()
    | .ok readVal =>
      let maskedVal := readVal &&& e.wmask
      if writeVal ≠ maskedVal then
        let writeVal := writeVal ||| (readVal &&& ~~~e.wmask)
        let _ ← pwrite vfs cpu e.msr writeVal

def restoreMsrs (cpu base : Nat) (buffer : Nat → Word) : List AllowlistEntry → Nat → Prog Msr Unit
  | [], _ => .done ()
  | e :: entries, j => do
    restoreMsr vfs cpu e (buffer (base + j))
    restoreMsrs cpu base buffer entries (j + 1)

def restoreCpus (faults : MsrFaults) (entries : List AllowlistEntry) (buffer : Nat → Word) :
    Nat → Nat → Tool Unit
  | 0, _ => return ()
  | left + 1, i => do
    Tool.lift (openMsr pl faults i)
    ExceptT.lift (restoreMsrs vfs i (i * entries.length) buffer entries 0)
    Tool.lift (attempt [faults.closeMsr i])
    restoreCpus faults entries buffer left (i + 1)

/-- `fread` of all the words and `fgetc` at their end, out of what the stream gives. -/
def readFile (faults : RestoreFaults) (count : Nat) (file : List UInt8) :
    Except Failure (Nat → Word) :=
  match attempt [faults.openFile, faults.readFile] with
  | .error failure => .error failure
  | .ok () =>
    let (items, left) := LittleEndian.items 8 count file
    if items.length ≠ count || left ≠ [] then .error (.ofErrno faults.errno)
    else
      match attempt [faults.closeFile] with
      | .error failure => .error failure
      | .ok () => .ok fun k => (items.map bytesWord).getD k 0

def restoreFile (faults : RestoreFaults) (entries : List AllowlistEntry) (numCpu : Nat)
    (file : List UInt8) : Tool Unit := do
  Tool.lift (attempt [faults.statRestore, faults.statAllowlist])
  if faults.restoreMtime < faults.allowlistMtime then
    throw .minusOne
  Tool.lift (attempt [faults.mallocBuffer])
  let buffer ← Tool.lift (readFile faults (entries.length * numCpu) file)
  restoreCpus vfs pl faults.msr entries buffer numCpu 0

def msrRestore (faults : RestoreFaults) (g : Globals) (numCpu : Nat) (file : List UInt8) :
    Prog Msr (Option (Except Failure Unit)) :=
  match msrParseAllowlist faults.parse g with
  | none => .done none
  | some (.error failure) => .done (some (.error failure))
  | some (.ok entries) => some <$> (restoreFile vfs pl faults entries numCpu file).run

end Msrsave

end MsrSafe
