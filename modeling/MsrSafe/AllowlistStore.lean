import MsrSafe.AllowlistParser
import Mathlib.Data.List.Basic

/-! The allowlist of msr_allowlist.c: the array pointer, the entry count and
the hash table whose nodes lie in the entries of arrays. An array that was
freed stays in the heap with its last contents, so that a use of it shows. -/

namespace MsrSafe

/-- A `struct allowlist_entry *`: a slot of some array that was allocated. -/
structure EntryRef where
  array : Nat
  index : Nat
  deriving DecidableEq, Repr

structure EntryArray where
  slots : List AllowlistEntry
  live : Bool

/-- The static variables of msr_allowlist.c; `heap` lists every array `kcalloc`
has returned, and a chain of the hash table its nodes from the head. -/
structure Globals where
  heap : List EntryArray
  allowlist : Option Nat
  allowlistNumentries : Nat
  allowlistHash : Fin 64 → List EntryRef

namespace Globals

def initial : Globals :=
  { heap := [], allowlist := none, allowlistNumentries := 0, allowlistHash := fun _ => [] }

def slots (g : Globals) (array : Nat) : List AllowlistEntry :=
  match g.heap[array]? with
  | some a => a.slots
  | none => []

def live (g : Globals) (array : Nat) : Bool :=
  match g.heap[array]? with
  | some a => a.live
  | none => false

def load (g : Globals) (r : EntryRef) : AllowlistEntry :=
  (g.slots r.array).getD r.index { wmask := 0, msr := 0 }

def store (g : Globals) (r : EntryRef) (entry : AllowlistEntry) : Globals :=
  { g with heap := g.heap.modify r.array fun a => { a with slots := a.slots.set r.index entry } }

def hashInit (g : Globals) : Globals := { g with allowlistHash := fun _ => [] }

end Globals

def deleteAllowlist (g : Globals) : Globals :=
  match g.allowlist with
  | none => g
  | some array =>
    { g with
      heap := g.heap.modify array fun a => { a with live := false }
      allowlist := none
      allowlistNumentries := 0 }

/-- The count is set before the allocation, and stays when that fails. -/
def createAllowlist (allocated : Bool) (nentries : Nat) (g : Globals) :
    Globals × Except Errno Nat :=
  let g := deleteAllowlist g.hashInit
  let g := { g with allowlistNumentries := nentries }
  if allocated then
    ({ g with
        heap := g.heap ++ [{ slots := List.replicate nentries { wmask := 0, msr := 0 }, live := true }]
        allowlist := some g.heap.length },
      .ok g.heap.length)
  else (g, .error .enomem)

section Hash

-- the hash function of the table
variable (bucket : Word → Fin 64)

/-- The first node of the chain whose entry has the address; without an array
the chain is not looked at. -/
def findInAllowlist (g : Globals) (msr : Word) : Option EntryRef :=
  match g.allowlist with
  | none => none
  | some _ => (g.allowlistHash (bucket msr)).find? fun r => (g.load r).msr = msr

def addToAllowlist (g : Globals) (r : EntryRef) : Globals :=
  { g with
    allowlistHash :=
      Function.update g.allowlistHash (bucket (g.load r).msr)
        (r :: g.allowlistHash (bucket (g.load r).msr)) }

def msrAllowlistMaskexists (g : Globals) (reg : Word) : Bool :=
  (findInAllowlist bucket g reg).isSome

/-- `entry ? entry->wmask : 0`, which `msr_allowlist_writemask` evaluates after
it has released the mutex. -/
def entryWmask (g : Globals) (entry : Option EntryRef) : Word :=
  match entry with
  | some r => (g.load r).wmask
  | none => 0

def msrAllowlistWritemask (g : Globals) (reg : Word) : Word :=
  entryWmask g (findInAllowlist bucket g reg)

def secondPass (array : Nat) : Nat → Globals → Nat → List UInt8 → Nat → Globals × Except Errno Unit
  | 0, g, _, _, _ => (g, .ok ())
  | fuel + 1, g, index, buf, s =>
    match parseNextAllowlistEntry buf s with
    | (_, .done) => (g, .ok ())
    | (_, .error err) => (deleteAllowlist g, .error err)
    | (buf, .entry next entry) =>
      let g := g.store ⟨array, index⟩ entry
      match findInAllowlist bucket g entry.msr with
      | some _ => (deleteAllowlist g, .error .enotuniq)
      | none => secondPass array fuel (addToAllowlist bucket g ⟨array, index⟩) (index + 1) buf next

/-- A `write(2)` on the device: the bytes and how the allocations and the user
copy turn out. `count` is the length of the text. -/
structure WriteCall where
  text : List UInt8
  bufferAllocated : Bool
  copied : Bool
  arrayAllocated : Bool

def maxWlistBsize : Nat := 128 * 1024 + 1

def WriteCall.kbuf (call : WriteCall) : List UInt8 := call.text ++ [nul]

def installEntries (call : WriteCall) (buf : List UInt8) (numEntries : Nat) (g : Globals) :
    Globals × Except Errno Unit :=
  match createAllowlist call.arrayAllocated numEntries g with
  | (g, .error err) => (g, .error err)
  | (g, .ok array) => secondPass bucket array (buf.length + 1) g 0 buf 0

def writeAllowlist (call : WriteCall) (g : Globals) : Globals × Except Errno Nat :=
  let count := call.text.length
  if count ≤ 2 then ((deleteAllowlist g).hashInit, .ok count)
  else if count + 1 > maxWlistBsize then (g, .error .e2big)
  else if !call.bufferAllocated then (g, .error .enomem)
  else if !call.copied then (g, .error .efault)
  else
    match firstPass (call.kbuf.length + 1) call.kbuf 0 with
    | (_, .error err) => (g, .error err)
    | (buf, .ok entries) =>
      let numEntries := entries.length
      if numEntries = 0 then (g, .error .enomsg)
      else
        match installEntries bucket call buf numEntries g with
        | (g, .error err) => (g, .error err)
        | (g, .ok ()) => (g, .ok count)

/-- A `read(2)` at `ppos`: the bytes copied to the user, whose number is the
return value, and the new position. `none` is an access to `allowlist[idx]`
where no such element exists. -/
def readAllowlist (g : Globals) (count : Nat) (copied : Bool) (ppos : Int) :
    Option (Except Errno (List UInt8) × Int) :=
  let idx := ppos
  if idx ≥ g.allowlistNumentries || idx < 0 then some (.ok [], 0)
  else
    match g.allowlist with
    | none => none
    | some array =>
      match (g.slots array)[idx.toNat]? with
      | none => none
      | some e =>
        let kbuf := if idx = 0 then header ++ line e else line e
        if count < kbuf.length then some (.error .e2big, 0)
        else if !copied then some (.error .efault, 0)
        else some (.ok kbuf, idx + 1)
where
  /-- `"%-10s %-18s\n"` of `"#MSR"` and `"Write mask"`. -/
  header : List UInt8 :=
    padded 10 ['#', 'M', 'S', 'R'] ++ [ascii ' '] ++
      padded 18 ['W', 'r', 'i', 't', 'e', ' ', 'm', 'a', 's', 'k'] ++ [newline]
  /-- `"0x%08llX 0x%016llX\n"` of the entry. -/
  line (e : AllowlistEntry) : List UInt8 :=
    hexLiteral 8 e.msr ++ [ascii ' '] ++ hexLiteral 16 e.wmask ++ [newline]
  padded (width : Nat) (text : List Char) : List UInt8 :=
    text.map ascii ++ List.replicate (width - text.length) (ascii ' ')

end Hash

end MsrSafe
