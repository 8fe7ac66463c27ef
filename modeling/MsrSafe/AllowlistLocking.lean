import MsrSafe.AllowlistCount
import MsrSafe.AllowlistDump
import MsrSafe.Lib.Mutex

/-! The calls on the allowlist of msr_allowlist.c with every load and store of
the static variables and of the arrays as a step of its own, and with the places
where the source takes and releases `allowlist_mutex`. A chain of the hash table
is loaded as a whole. -/

namespace MsrSafe

open Interleave Mutexed

/-- A load, a store or an allocation in msr_allowlist.c. `entry` is the struct
copy out of an array, which has no such element when the answer is `none`. -/
inductive StoreAction where
  | allowlist
  | setAllowlist (array : Option Nat)
  | numentries
  | setNumentries (n : Nat)
  | initBucket (bucket : Fin 64)
  | chain (bucket : Fin 64)
  | addHead (bucket : Fin 64) (r : EntryRef)
  | kcalloc (n : Nat) (succeeds : Bool)
  | kfree (array : Nat)
  | msr (r : EntryRef)
  | setMsr (r : EntryRef) (value : Word)
  | setWmask (r : EntryRef) (value : Word)
  | entry (array index : Nat)

@[reducible] def StoreAction.Answer : StoreAction → Type
  | .allowlist => Option Nat
  | .setAllowlist _ => Unit
  | .numentries => Nat
  | .setNumentries _ => Unit
  | .initBucket _ => Unit
  | .chain _ => List EntryRef
  | .addHead _ _ => Unit
  | .kcalloc _ _ => Option Nat
  | .kfree _ => Unit
  | .msr _ => Word
  | .setMsr _ _ => Unit
  | .setWmask _ _ => Unit
  | .entry _ _ => Option AllowlistEntry

abbrev Store : Interface := ⟨StoreAction, StoreAction.Answer⟩

def Globals.modifyEntry (g : Globals) (r : EntryRef) (f : AllowlistEntry → AllowlistEntry) :
    Globals :=
  { g with heap := g.heap.modify r.array fun a => { a with slots := a.slots.modify r.index f } }

def store : Handler Store Globals
  | .allowlist, g => (g.allowlist, g)
  | .setAllowlist array, g => ((), { g with allowlist := array })
  | .numentries, g => (g.allowlistNumentries, g)
  | .setNumentries n, g => ((), { g with allowlistNumentries := n })
  | .initBucket bucket, g =>
    ((), { g with allowlistHash := Function.update g.allowlistHash bucket [] })
  | .chain bucket, g => (g.allowlistHash bucket, g)
  | .addHead bucket r, g =>
    ((), { g with
      allowlistHash := Function.update g.allowlistHash bucket (r :: g.allowlistHash bucket) })
  | .kcalloc n succeeds, g =>
    if succeeds then
      (some g.heap.length,
        { g with
          heap :=
            g.heap ++ [{ slots := List.replicate n { wmask := 0, msr := 0 }, live := true }] })
    else (none, g)
  | .kfree array, g =>
    ((), { g with heap := g.heap.modify array fun a => { a with live := false } })
  | .msr r, g => ((g.load r).msr, g)
  | .setMsr r value, g => ((), g.modifyEntry r fun e => { e with msr := value })
  | .setWmask r value, g => ((), g.modifyEntry r fun e => { e with wmask := value })
  | .entry array index, g => ((g.slots array)[index]?, g)

/-! ## Under the mutex -/

namespace Stepwise

def ask (action : StoreAction) : Prog Store action.Answer := Prog.ask (I := Store) action

def deleteAllowlist : Prog Store Unit := do
  match ← ask .allowlist with
  | none => return ()
  | some array =>
    ask (.kfree array)
    ask (.setAllowlist none)
    ask (.setNumentries 0)

def initBuckets : List (Fin 64) → Prog Store Unit
  | [] => return ()
  | bucket :: buckets => do
    ask (.initBucket bucket)
    initBuckets buckets

def hashInit : Prog Store Unit := initBuckets (List.finRange 64)

def createAllowlist (allocated : Bool) (nentries : Nat) : Prog Store (Except Errno Nat) := do
  hashInit
  deleteAllowlist
  ask (.setNumentries nentries)
  let array ← ask (.kcalloc nentries allocated)
  ask (.setAllowlist array)
  match array with
  | none => return .error .enomem
  | some array => return .ok array

def findInChain (msr : Word) : List EntryRef → Prog Store (Option EntryRef)
  | [] => return none
  | r :: chain => do
    if (← ask (.msr r)) = msr then return some r
    else findInChain msr chain

variable (bucket : Word → Fin 64)

def findInAllowlist (msr : Word) : Prog Store (Option EntryRef) := do
  match ← ask .allowlist with
  | none => return none
  | some _ =>
    let chain ← ask (.chain (bucket msr))
    findInChain msr chain

def addToAllowlist (r : EntryRef) : Prog Store Unit := do
  let msr ← ask (.msr r)
  ask (.addHead (bucket msr) r)

/-- Pass 2 of `write_allowlist`; the parser stores what it has read into the
entry field by field. -/
def secondPass (array : Nat) : Nat → Nat → List UInt8 → Nat → Prog Store (Except Errno Unit)
  | 0, _, _, _ => return .ok ()
  | fuel + 1, index, buf, s =>
    match parseNextAllowlistEntry buf s with
    | (_, .done) => return .ok ()
    | (_, .error err) => do
      deleteAllowlist
      return .error err
    | (buf, .entry next entry) => do
      ask (.setMsr ⟨array, index⟩ entry.msr)
      ask (.setWmask ⟨array, index⟩ entry.wmask)
      let msr ← ask (.msr ⟨array, index⟩)
      match ← findInAllowlist bucket msr with
      | some _ =>
        deleteAllowlist
        return .error .enotuniq
      | none =>
        addToAllowlist bucket ⟨array, index⟩
        secondPass array fuel (index + 1) buf next

/-- What `read_allowlist` finds under the mutex: the position is outside the
count, the array has no such element, or it has. -/
inductive EntryAt where
  | outside
  | missing
  | found (e : AllowlistEntry)

def entryAt (idx : Int) : Prog Store EntryAt := do
  let numentries ← ask .numentries
  if idx ≥ (numentries : Nat) || idx < 0 then return .outside
  else
    match ← ask .allowlist with
    | none => return .missing
    | some array =>
      match ← ask (.entry array idx.toNat) with
      | none => return .missing
      | some e => return .found e

def writeAllowlist (call : WriteCall) : Prog (Mutexed Store) (Except Errno Nat) := do
  let count := call.text.length
  if count ≤ 2 then
    lock
    inside deleteAllowlist
    inside hashInit
    unlock
    return .ok count
  else if count + 1 > maxWlistBsize then return .error .e2big
  else if !call.bufferAllocated then return .error .enomem
  else if !call.copied then return .error .efault
  else
    match firstPass (call.kbuf.length + 1) call.kbuf 0 with
    | (_, .error err) => return .error err
    | (buf, .ok entries) =>
      let numEntries := entries.length
      if numEntries = 0 then return .error .enomsg
      else
        lock
        match ← inside (createAllowlist call.arrayAllocated numEntries) with
        | .error err =>
          unlock
          return .error err
        | .ok array =>
          match ← inside (secondPass bucket array (buf.length + 1) 0 buf 0) with
          | .error err =>
            unlock
            return .error err
          | .ok () =>
            unlock
            return .ok count

/-- An access outside an array does not return. -/
def readAllowlist (count : Nat) (copied : Bool) (ppos : Int) :
    Prog (Mutexed Store) (Except Errno (List UInt8) × Int) := do
  let idx := ppos
  lock
  match ← inside (entryAt idx) with
  | .outside =>
    unlock
    return (.ok [], 0)
  | .missing => halt
  | .found e =>
    unlock
    let kbuf :=
      if idx = 0 then readAllowlist.header ++ readAllowlist.line e else readAllowlist.line e
    if count < kbuf.length then return (.error .e2big, 0)
    else if !copied then return (.error .efault, 0)
    else return (.ok kbuf, idx + 1)

def msrAllowlistMaskexists (reg : Word) : Prog (Mutexed Store) Bool := do
  lock
  let entry ← inside (findInAllowlist bucket reg)
  unlock
  return entry.isSome

/-- `msr_allowlist_writemask` up to `mutex_unlock`. -/
def msrAllowlistWritemask (reg : Word) : Prog (Mutexed Store) (Option EntryRef) := do
  lock
  let entry ← inside (findInAllowlist bucket reg)
  unlock
  return entry

end Stepwise

/-! ## What the accesses come to -/

section Run

variable {α : Type}

@[simp] theorem ask_bind (action : StoreAction) (f : action.Answer → Prog Store α) :
    (Stepwise.ask action >>= f) = .perform (I := Store) action f := rfl

theorem run_deleteAllowlist (g : Globals) :
    run store Stepwise.deleteAllowlist g = ((), deleteAllowlist g) := by
  rw [Stepwise.deleteAllowlist, ask_bind, run_perform, deleteAllowlist]
  cases present : g.allowlist with
  | none =>
      dsimp only [store]
      rw [present]
      rfl
  | some array =>
      dsimp only [store]
      rw [present]
      rfl

theorem run_initBuckets (buckets : List (Fin 64)) (g : Globals) :
    run store (Stepwise.initBuckets buckets) g =
      ((), { g with
        allowlistHash := fun bucket =>
          if bucket ∈ buckets then [] else g.allowlistHash bucket }) := by
  induction buckets generalizing g with
  | nil => rfl
  | cons head tail ih =>
      rw [Stepwise.initBuckets, ask_bind, run_perform, ih]
      dsimp only [store]
      congr 2
      funext bucket
      by_cases first : bucket = head
      · simp [first]
      · simp [first]

theorem run_hashInit (g : Globals) : run store Stepwise.hashInit g = ((), g.hashInit) := by
  rw [Stepwise.hashInit, run_initBuckets]
  simp [Globals.hashInit]

theorem run_createAllowlist (allocated : Bool) (nentries : Nat) (g : Globals) :
    run store (Stepwise.createAllowlist allocated nentries) g =
      ((createAllowlist allocated nentries g).2, (createAllowlist allocated nentries g).1) := by
  rw [Stepwise.createAllowlist, run_bind, run_hashInit, run_bind, run_deleteAllowlist]
  rw [createAllowlist]
  have absent : (deleteAllowlist g.hashInit).allowlist = none := by
    rw [deleteAllowlist]
    split
    · assumption
    · rfl
  cases allocated with
  | false =>
      change (Except.error Errno.enomem,
        { deleteAllowlist g.hashInit with allowlistNumentries := nentries, allowlist := none }) = _
      rw [if_neg Bool.false_ne_true, ← absent]
  | true => rfl

theorem run_findInChain (msr : Word) (chain : List EntryRef) (g : Globals) :
    run store (Stepwise.findInChain msr chain) g =
      (chain.find? fun r => (g.load r).msr = msr, g) := by
  induction chain with
  | nil => rfl
  | cons r chain ih =>
      rw [Stepwise.findInChain, ask_bind, run_perform]
      change run store (if (g.load r).msr = msr then .done (some r)
        else Stepwise.findInChain msr chain) g = _
      by_cases found : (g.load r).msr = msr
      · rw [if_pos found]
        simp [found]
      · rw [if_neg found, ih]
        simp [found]

variable (bucket : Word → Fin 64)

theorem run_findInAllowlist (msr : Word) (g : Globals) :
    run store (Stepwise.findInAllowlist bucket msr) g = (findInAllowlist bucket g msr, g) := by
  rw [Stepwise.findInAllowlist, ask_bind, run_perform, findInAllowlist]
  dsimp only [store]
  cases g.allowlist with
  | none => rfl
  | some array => exact run_findInChain msr (g.allowlistHash (bucket msr)) g

theorem run_addToAllowlist (r : EntryRef) (g : Globals) :
    run store (Stepwise.addToAllowlist bucket r) g = ((), addToAllowlist bucket g r) := rfl

theorem modifyEntry_fields (g : Globals) (r : EntryRef) (e : AllowlistEntry) :
    (g.modifyEntry r fun old => { old with msr := e.msr }).modifyEntry r
      (fun old => { old with wmask := e.wmask }) = g.store r e := by
  rw [Globals.modifyEntry, Globals.modifyEntry, Globals.store]
  dsimp only
  rw [List.modify_modify_eq]
  congr 2
  funext a
  simp only [Function.comp_apply, List.modify_modify_eq, List.set_eq_modify]
  rfl

theorem length_slots_store (g : Globals) (r : EntryRef) (e : AllowlistEntry) :
    ((g.store r e).slots r.array).length = (g.slots r.array).length := by
  rw [Globals.slots_store, List.length_set]

theorem createAllowlist_slots {allocated : Bool} {nentries array : Nat} {g g' : Globals}
    (created : createAllowlist allocated nentries g = (g', .ok array)) :
    (g'.slots array).length = nentries := by
  rw [createAllowlist] at created
  cases allocated with
  | false => cases created
  | true =>
      cases created
      simp [Globals.slots]

/-- Pass 2 finds a slot for each entry of pass 1, so it reads the address back
that it has stored. -/
theorem run_secondPass (array fuel index : Nat) (buf : List UInt8) (s : Nat) (g : Globals)
    {buf' : List UInt8} {entries : List AllowlistEntry}
    (first : firstPass fuel buf s = (buf', .ok entries))
    (room : index + entries.length ≤ (g.slots array).length) :
    run store (Stepwise.secondPass bucket array fuel index buf s) g =
      ((secondPass bucket array fuel g index buf s).2,
        (secondPass bucket array fuel g index buf s).1) := by
  induction fuel generalizing index buf s g entries with
  | zero => rfl
  | succ fuel ih =>
      rw [firstPass] at first
      rw [Stepwise.secondPass, secondPass]
      rcases parsed : parseNextAllowlistEntry buf s with ⟨buf₁, _ | err | ⟨next, e⟩⟩
      · rfl
      · rw [parsed] at first
        cases first
      rw [parsed] at first
      dsimp only at first ⊢
      rcases behind : firstPass fuel buf₁ next with ⟨buf₂, err | rest⟩
      · rw [behind] at first
        cases first
      rw [behind] at first
      cases first
      rw [List.length_cons] at room
      have inside : index < (g.slots array).length := by omega
      have kept : ((g.store ⟨array, index⟩ e).slots array).length = (g.slots array).length :=
        length_slots_store g ⟨array, index⟩ e
      have back : ((g.store ⟨array, index⟩ e).load ⟨array, index⟩).msr = e.msr := by
        rw [Globals.load, Globals.slots_store]
        simp [inside]
      rw [ask_bind, run_perform, ask_bind, run_perform, ask_bind, run_perform, run_bind]
      dsimp only [store]
      rw [modifyEntry_fields, back, run_findInAllowlist]
      dsimp only
      cases findInAllowlist bucket (g.store ⟨array, index⟩ e) e.msr with
      | some r =>
          dsimp only
          rw [run_bind, run_deleteAllowlist]
          rfl
      | none =>
          dsimp only
          rw [run_bind, run_addToAllowlist]
          apply ih (index + 1) buf₁ next _ behind
          have same :
              (addToAllowlist bucket (g.store ⟨array, index⟩ e) ⟨array, index⟩).slots array =
                (g.store ⟨array, index⟩ e).slots array := rfl
          rw [same, kept]
          omega

theorem run_entryAt (idx : Int) (g : Globals) :
    run store (Stepwise.entryAt idx) g =
      (if idx ≥ g.allowlistNumentries || idx < 0 then .outside
        else
          match g.allowlist with
          | none => .missing
          | some array =>
            match (g.slots array)[idx.toNat]? with
            | none => .missing
            | some e => .found e, g) := by
  have count : store .numentries g = (g.allowlistNumentries, g) := rfl
  have pointer : store .allowlist g = (g.allowlist, g) := rfl
  rw [Stepwise.entryAt, ask_bind, run_perform, count]
  dsimp only
  split
  · rfl
  · rw [ask_bind, run_perform, pointer]
    dsimp only
    cases g.allowlist with
    | none => rfl
    | some array =>
        have copy : store (.entry array idx.toNat) g = ((g.slots array)[idx.toNat]?, g) := rfl
        dsimp only
        rw [ask_bind, run_perform, copy]
        cases (g.slots array)[idx.toNat]? <;> rfl

end Run

/-! ## The calls as sections -/

section Performs

variable (bucket : Word → Fin 64)

variable {bucket} in
theorem performs_returned {call : WriteCall} {result : Except Errno Nat}
    (same : ∀ g, writeAllowlist bucket call g = (g, result)) :
    Performs store (.done result) fun g =>
      (some (writeAllowlist bucket call g).2, (writeAllowlist bucket call g).1) := by
  refine .inl ⟨result, rfl, fun g => ?_⟩
  dsimp only
  rw [same]

theorem performs_writeAllowlist (call : WriteCall) :
    Performs store (Stepwise.writeAllowlist bucket call) fun g =>
      (some (writeAllowlist bucket call g).2, (writeAllowlist bucket call g).1) := by
  rw [Stepwise.writeAllowlist]
  dsimp only
  by_cases small : call.text.length ≤ 2
  · rw [if_pos small]
    apply performs_section
    · exact fun _ => bracketed_inside_bind _ fun _ => ⟨rfl, rfl⟩
    · intro g
      rw [run_deleteAllowlist, finish_inside_bind, run_hashInit, writeAllowlist]
      dsimp only
      rw [if_pos small]
      exact ⟨rfl, rfl⟩
    · intro g none
      cases none
  rw [if_neg small]
  by_cases large : call.text.length + 1 > maxWlistBsize
  · rw [if_pos large]
    apply performs_returned
    intro g
    rw [writeAllowlist]
    dsimp only
    rw [if_neg small, if_pos large]
  rw [if_neg large]
  cases buffer : call.bufferAllocated with
  | false =>
      apply performs_returned
      intro g
      rw [writeAllowlist]
      dsimp only
      rw [if_neg small, if_neg large, buffer]
      rfl
  | true =>
  cases copied : call.copied with
  | false =>
      apply performs_returned
      intro g
      rw [writeAllowlist]
      dsimp only
      rw [if_neg small, if_neg large, buffer, copied]
      rfl
  | true =>
  have parsed : call.Parsed :=
    ⟨by omega, by unfold maxWlistBsize at large; omega, buffer, copied⟩
  simp only [Bool.not_true, Bool.false_eq_true, if_false]
  rcases pass : firstPass (call.kbuf.length + 1) call.kbuf 0 with ⟨buf, err | entries⟩
  · have read : readText call.visible = .error err :=
      (pass_eq_readText call).symm.trans (congrArg Prod.snd pass)
    apply performs_returned
    intro g
    rw [writeAllowlist_parsed bucket g parsed, read]
  · have read : readText call.visible = .ok entries :=
      (pass_eq_readText call).symm.trans (congrArg Prod.snd pass)
    have whole : buf = call.kbuf :=
      (congrArg Prod.fst pass).symm.trans (pass_buffer (congrArg Prod.snd pass))
    subst whole
    dsimp only
    by_cases empty : entries.length = 0
    · rw [if_pos empty]
      apply performs_returned
      intro g
      rw [writeAllowlist_parsed bucket g parsed, read]
      dsimp only
      rw [if_pos empty]
    rw [if_neg empty]
    apply performs_section
    · intro created
      cases created with
      | error err => exact ⟨rfl, rfl⟩
      | ok array =>
          apply bracketed_inside_bind
          intro installed
          cases installed <;> exact ⟨rfl, rfl⟩
    · intro g
      rw [run_createAllowlist, writeAllowlist_parsed bucket g parsed, read]
      dsimp only
      rw [if_neg empty, installEntries]
      rcases created : createAllowlist call.arrayAllocated entries.length g with ⟨g₁, err | array⟩
      · exact ⟨rfl, rfl⟩
      · have room := createAllowlist_slots created
        dsimp only
        rw [finish_inside_bind,
          run_secondPass bucket array _ 0 call.kbuf 0 g₁ pass (by omega)]
        rcases secondPass bucket array (call.kbuf.length + 1) g₁ 0 call.kbuf 0 with
          ⟨g₂, err | ⟨⟩⟩ <;> exact ⟨rfl, rfl⟩
    · intro g none
      cases none

theorem performs_readAllowlist (count : Nat) (copied : Bool) (ppos : Int) :
    Performs store (Stepwise.readAllowlist count copied ppos) fun g =>
      (readAllowlist g count copied ppos, g) := by
  apply performs_section
  · intro entry
    cases entry with
    | outside => exact ⟨rfl, rfl⟩
    | missing => trivial
    | found e =>
        refine ⟨rfl, ?_⟩
        dsimp only
        generalize (if ppos = 0 then readAllowlist.header ++ readAllowlist.line e
          else readAllowlist.line e) = kbuf
        split
        · rfl
        · split <;> rfl
  · intro g
    rw [run_entryAt, readAllowlist]
    dsimp only
    split
    · exact ⟨rfl, rfl⟩
    · cases g.allowlist with
      | none => exact ⟨rfl, _, rfl⟩
      | some array =>
          dsimp only
          cases (g.slots array)[ppos.toNat]? with
          | none => exact ⟨rfl, _, rfl⟩
          | some e =>
              dsimp only
              rw [unlock_bind, finish]
              generalize (if ppos = 0 then readAllowlist.header ++ readAllowlist.line e
                else readAllowlist.line e) = kbuf
              split
              · exact ⟨rfl, rfl⟩
              · split <;> exact ⟨rfl, rfl⟩
  · exact fun _ _ => rfl

theorem performs_msrAllowlistMaskexists (reg : Word) :
    Performs store (Stepwise.msrAllowlistMaskexists bucket reg) fun g =>
      (some (msrAllowlistMaskexists bucket g reg), g) := by
  refine performs_section _ (fun _ => ⟨rfl, rfl⟩) (fun g => ?_) fun _ _ => rfl
  rw [run_findInAllowlist]
  exact ⟨rfl, rfl⟩

theorem performs_msrAllowlistWritemask (reg : Word) :
    Performs store (Stepwise.msrAllowlistWritemask bucket reg) fun g =>
      (some (findInAllowlist bucket g reg), g) := by
  refine performs_section _ (fun _ => ⟨rfl, rfl⟩) (fun g => ?_) fun _ _ => rfl
  rw [run_findInAllowlist]
  exact ⟨rfl, rfl⟩

end Performs

/-! ## Any number of clients -/

inductive AllowlistCall where
  | write (call : WriteCall)
  | read (count : Nat) (copied : Bool) (ppos : Int)
  | maskexists (reg : Word)
  | writemask (reg : Word)

@[reducible] def AllowlistCall.Answer : AllowlistCall → Type
  | .write _ => Except Errno Nat
  | .read _ _ _ => Except Errno (List UInt8) × Int
  | .maskexists _ => Bool
  | .writemask _ => Option EntryRef

/-- The calls that clients make; of `msr_allowlist_writemask` the part under the mutex. -/
abbrev Device : Interface := ⟨AllowlistCall, AllowlistCall.Answer⟩

namespace AllowlistCall

variable (bucket : Word → Fin 64)

def prog : (call : AllowlistCall) → Prog (Mutexed Store) call.Answer
  | write call => Stepwise.writeAllowlist bucket call
  | read count copied ppos => Stepwise.readAllowlist count copied ppos
  | maskexists reg => Stepwise.msrAllowlistMaskexists bucket reg
  | writemask reg => Stepwise.msrAllowlistWritemask bucket reg

def atomic : (call : AllowlistCall) → Globals → Option call.Answer × Globals
  | write call, g => (some (writeAllowlist bucket call g).2, (writeAllowlist bucket call g).1)
  | read count copied ppos, g => (readAllowlist g count copied ppos, g)
  | maskexists reg, g => (some (msrAllowlistMaskexists bucket g reg), g)
  | writemask reg, g => (some (findInAllowlist bucket g reg), g)

theorem performs (call : AllowlistCall) :
    Performs store (call.prog bucket) (call.atomic bucket) := by
  cases call with
  | write call => exact performs_writeAllowlist bucket call
  | read count copied ppos => exact performs_readAllowlist count copied ppos
  | maskexists reg => exact performs_msrAllowlistMaskexists bucket reg
  | writemask reg => exact performs_msrAllowlistWritemask bucket reg

/-- What a call answers behind these writes, and the writes behind it. Lookups go
by the reference map. -/
def Serves : (call : AllowlistCall) → List WriteCall → call.Answer → List WriteCall → Prop
  | write call, earlier, result, later =>
    result = (writeAllowlist bucket call (storeAfter bucket earlier)).2 ∧ later = earlier ++ [call]
  | read count copied ppos, earlier, result, later =>
    readAllowlist (storeAfter bucket earlier) count copied ppos = some result ∧ later = earlier
  | maskexists reg, earlier, listed, later =>
    listed = (earlier.foldl AllowMap.afterWrite .empty).maskexists reg ∧ later = earlier
  | writemask reg, earlier, entry, later =>
    entry.map (fun r => ((storeAfter bucket earlier).load r).wmask) =
      earlier.foldl AllowMap.afterWrite .empty reg ∧ later = earlier

theorem storeAfter_append (earlier : List WriteCall) (call : WriteCall) :
    storeAfter bucket (earlier ++ [call]) =
      (writeAllowlist bucket call (storeAfter bucket earlier)).1 := by
  rw [storeAfter, List.foldl_append]
  rfl

theorem serves_atomic (earlier : List WriteCall) (call : AllowlistCall) (answer : call.Answer)
    {g : Globals} (effect : call.atomic bucket (storeAfter bucket earlier) = (some answer, g)) :
    ∃ later, call.Serves bucket earlier answer later ∧ g = storeAfter bucket later := by
  have represents := storeAfter_represents bucket earlier
  cases call with
  | write call =>
      cases effect
      exact ⟨earlier ++ [call], ⟨rfl, rfl⟩, (storeAfter_append bucket earlier call).symm⟩
  | read count copied ppos =>
      obtain ⟨read, rfl⟩ := Prod.mk.inj effect
      exact ⟨earlier, ⟨read, rfl⟩, rfl⟩
  | maskexists reg =>
      cases effect
      exact ⟨earlier, ⟨maskexists_represents represents reg, rfl⟩, rfl⟩
  | writemask reg =>
      cases effect
      exact ⟨earlier, ⟨(find_represents represents reg).symm, rfl⟩, rfl⟩

end AllowlistCall

section Clients

variable {ι α : Type} (bucket : Word → Fin 64)

def served : Semantics ι Device (List WriteCall) :=
  fun _ earlier call answer later => call.Serves bucket earlier answer later

def idleClients (idle : ι → α) : ι → Prog Device α := fun client => .done (idle client)

def idleThreads (idle : ι → α) : MutexState ι Globals × (ι → Prog (Mutexed Store) α) :=
  (⟨.initial, none⟩, fun client => .done (idle client))

/-- Threads in the midst of their loads and stores, and the clients whose calls
they run: what a thread has returned its client has, a thread outside its
critical section is where its client is, and without a thread in one the globals
are those behind the writes. -/
structure Runs (g : MutexState ι Globals) (pool : ι → Prog (Mutexed Store) α)
    (writes : List WriteCall) (clients : ι → Prog Device α) : Prop where
  globals : g.owner = none → g.state = storeAfter bucket writes
  outside : ∀ client, g.owner ≠ some client →
    pool client = expand (AllowlistCall.prog bucket) (clients client)
  returned : ∀ client result, pool client = .done result → clients client = .done result

theorem served_atomic (client : ι) (g : Globals) (earlier : List WriteCall) (call : AllowlistCall)
    (answer : call.Answer) (g' : Globals) (same : g = storeAfter bucket earlier)
    (effect : atomically (J := Device) (AllowlistCall.atomic bucket) client g call answer g') :
    ∃ later, served bucket client earlier call answer later ∧ g' = storeAfter bucket later := by
  subst same
  exact call.serves_atomic bucket earlier answer effect

variable [DecidableEq ι]

variable {bucket} in
theorem runs_of_matched {g : MutexState ι Globals} {pool : ι → Prog (Mutexed Store) α}
    {s : Globals} {clients : ι → Prog Device α} {writes : List WriteCall}
    (disciplined : Disciplined (g, pool))
    (matched : Matched (AllowlistCall.prog bucket) (settled store (g, pool)) (s, clients))
    (same : s = storeAfter bucket writes) : Runs bucket g pool writes clients := by
  refine ⟨fun free => ?_, fun _ other => matched.outside disciplined other,
    fun _ _ returned => matched.returned disciplined returned⟩
  obtain ⟨g, owner⟩ := g
  cases (free : owner = none)
  exact matched.state.trans same

/-- However the loads and stores of the calls of any clients interleave, the
same clients could have got the same answers from calls made one at a time, each
lookup by the list that the writes before it have left. A longer run comes from
a longer series of calls. -/
theorem allowlist_linearizable (bucket : Word → Fin 64) (offered : Set (Prog Device α))
    (idle : ι → α) {g₁ g₂ : MutexState ι Globals} {pool₁ pool₂ : ι → Prog (Mutexed Store) α}
    (first : Steps (locking store) (expand (AllowlistCall.prog bucket) '' offered)
      (idleThreads idle) (g₁, pool₁))
    (second : Steps (locking store) (expand (AllowlistCall.prog bucket) '' offered)
      (g₁, pool₁) (g₂, pool₂)) :
    ∃ writes₁ clients₁ writes₂ clients₂,
      Steps (served bucket) offered ([], idleClients idle) (writes₁, clients₁) ∧
      Runs bucket g₁ pool₁ writes₁ clients₁ ∧
      Steps (served bucket) offered (writes₁, clients₁) (writes₂, clients₂) ∧
      Runs bucket g₂ pool₂ writes₂ clients₂ := by
  obtain ⟨start, matched⟩ := matched_start (J := Device) Globals.initial idle
  obtain ⟨disciplined₁, ⟨s₁, clients₁⟩, steps₁, matched₁⟩ :=
    steps_match (AllowlistCall.performs bucket) start matched first
  obtain ⟨disciplined₂, ⟨s₂, clients₂⟩, steps₂, matched₂⟩ :=
    steps_match (AllowlistCall.performs bucket) disciplined₁ matched₁ second
  obtain ⟨writes₁, served₁, same₁⟩ := steps_refine (t := [])
    (fun g writes => g = storeAfter bucket writes) (served_atomic bucket) steps₁ rfl
  obtain ⟨writes₂, served₂, same₂⟩ := steps_refine
    (fun g writes => g = storeAfter bucket writes) (served_atomic bucket) steps₂ same₁
  exact ⟨writes₁, clients₁, writes₂, clients₂, served₁, runs_of_matched disciplined₁ matched₁ same₁,
    served₂, runs_of_matched disciplined₂ matched₂ same₂⟩

def bothAt (p q : Prog (Mutexed Store) Bool) : Bool → Prog (Mutexed Store) Bool
  | true => p
  | false => q

def lookup (reg : Word) : Prog Device Bool := .perform (I := Device) (.maskexists reg) .done

def installer (call : WriteCall) : Prog Device Bool :=
  .perform (I := Device) (.write call) fun _ => .done true

def code (bucket : Word → Fin 64) (client : Prog Device Bool) : Prog (Mutexed Store) Bool :=
  expand (AllowlistCall.prog bucket) client

def oneEntry : WriteCall := ⟨['1', '0', ' ', '0', 'x', 'f', ' '].map ascii, true, true, true⟩

section Both

variable (bucket : Word → Fin 64) {offered : Set (Prog Device Bool)}

theorem bothAt_calls {first second : Prog Device Bool} (offers : first ∈ offered)
    (offers' : second ∈ offered) :
    Steps (locking store) (expand (AllowlistCall.prog bucket) '' offered)
      (idleThreads fun _ => false)
      (⟨.initial, none⟩, bothAt (code bucket first) (code bucket second)) := by
  have called :
      Function.update (Function.update (fun _ : Bool => .done false) true (code bucket first))
        false (code bucket second) = bothAt (code bucket first) (code bucket second) := by
    funext thread
    cases thread <;> rfl
  rw [← called]
  exact (Relation.ReflTransGen.single (.call true false _ rfl ⟨first, offers, rfl⟩)).tail
    (.call false false _ rfl ⟨second, offers', rfl⟩)

theorem bothAt_act {g g' : MutexState Bool Globals} {p p' q : Prog (Mutexed Store) Bool}
    (action : MutexAction StoreAction) (answer : (Mutexed Store).Answer action)
    {next : (Mutexed Store).Answer action → Prog (Mutexed Store) Bool}
    (pending : p = .perform (I := Mutexed Store) action next) (after : next answer = p')
    (effect : locking store true g action answer g') :
    Steps (locking store) (expand (AllowlistCall.prog bucket) '' offered)
      (g, bothAt p q) (g', bothAt p' q) := by
  have same : Function.update (bothAt p q) true p' = bothAt p' q := by
    funext thread
    cases thread <;> rfl
  subst after
  rw [← same]
  exact .single (Step.act (I := Mutexed Store) true action next answer pending effect)

def lookupSection : Prog (Mutexed Store) Bool :=
  inside (Stepwise.findInAllowlist bucket 10) >>= fun entry =>
    unlock >>= fun _ => .done entry.isSome

def overlapping : Set (Prog Device Bool) := {lookup 10, installer oneEntry}

theorem lookup_begun :
    Steps (locking store) (expand (AllowlistCall.prog bucket) '' overlapping)
      (idleThreads fun _ => false)
      (⟨.initial, some true⟩,
        bothAt (unlock >>= fun _ => .done false) (code bucket (installer oneEntry))) := by
  have called :
      Steps (locking store) (expand (AllowlistCall.prog bucket) '' overlapping)
        (idleThreads fun _ => false)
        (⟨.initial, none⟩, bothAt (code bucket (lookup 10)) (code bucket (installer oneEntry))) :=
    bothAt_calls bucket (.inl rfl) (.inr rfl)
  have locked :
      Steps (locking store) (expand (AllowlistCall.prog bucket) '' overlapping)
        (⟨.initial, none⟩, bothAt (code bucket (lookup 10)) (code bucket (installer oneEntry)))
        (⟨.initial, some true⟩,
          bothAt (lookupSection bucket >>= .done) (code bucket (installer oneEntry))) :=
    bothAt_act bucket .lock () rfl rfl ⟨rfl, rfl⟩
  apply (called.trans locked).trans
  exact bothAt_act bucket (.access .allowlist) none rfl rfl ⟨rfl, rfl⟩

theorem lookup_overtaken :
    Steps (locking store) (expand (AllowlistCall.prog bucket) '' overlapping)
      (⟨.initial, some true⟩,
        bothAt (unlock >>= fun _ => .done false) (code bucket (installer oneEntry)))
      (⟨storeAfter bucket [oneEntry], none⟩, bothAt (.done false) (.done true)) := by
  have released :
      Steps (locking store) (expand (AllowlistCall.prog bucket) '' overlapping)
        (⟨.initial, some true⟩,
          bothAt (unlock >>= fun _ => .done false) (code bucket (installer oneEntry)))
        (⟨.initial, none⟩, bothAt (.done false) (code bucket (installer oneEntry))) :=
    bothAt_act bucket .unlock () rfl rfl rfl
  have writes : bothAt (.done false) (code bucket (installer oneEntry)) false =
      expand (AllowlistCall.prog bucket)
        (.perform (I := Device) (.write oneEntry) fun _ => .done true) := rfl
  obtain ⟨owner, p, steps, returns, -⟩ :=
    call_runs (AllowlistCall.performs bucket) Globals.initial writes
  obtain ⟨rfl, rfl⟩ := returns _ rfl
  have through : Function.update (bothAt (.done false) (code bucket (installer oneEntry))) false
      (expand (AllowlistCall.prog bucket) (.done true : Prog Device Bool)) =
        bothAt (.done false) (.done true) := by
    funext thread
    cases thread <;> rfl
  rw [through] at steps
  exact released.trans (steps_mono steps (fun _ _ _ _ _ effect => effect) (Set.empty_subset _))

end Both

theorem allowlist_linearizable_write_waits :
    ∃ writes₁ clients₁ writes₂ clients₂,
      Steps (served fun _ => 0) overlapping ([], idleClients fun _ : Bool => false)
        (writes₁, clients₁) ∧
      Runs (fun _ => 0) ⟨.initial, some true⟩
        (bothAt (unlock >>= fun _ => .done false) (code (fun _ => 0) (installer oneEntry)))
        writes₁ clients₁ ∧
      Steps (served fun _ => 0) overlapping (writes₁, clients₁) (writes₂, clients₂) ∧
      Runs (fun _ => 0) ⟨storeAfter (fun _ => 0) [oneEntry], none⟩
        (bothAt (.done false) (.done true)) writes₂ clients₂ :=
  allowlist_linearizable (fun _ => 0) overlapping (fun _ => false) (lookup_begun fun _ => 0)
    (lookup_overtaken fun _ => 0)

/-! ## Every call returns while allocations succeed -/

def AllowlistCall.Allocates : AllowlistCall → Prop
  | .write call => call.creates = true → call.arrayAllocated = true
  | _ => True

def AllocatingClients (offered : Set (Prog Device α)) : Prop :=
  ∀ client ∈ offered,
    Guarded AllowlistCall.Allocates (fun _ _ => True) (fun _ => True) client

theorem atomic_counted (g : Globals) (call : AllowlistCall) (counted : Counted g)
    (allocates : call.Allocates) :
    (call.atomic bucket g).1 ≠ none ∧ Counted (call.atomic bucket g).2 := by
  cases call with
  | write call =>
      refine ⟨Option.some_ne_none _, ?_⟩
      by_cases creates : call.creates = true
      · exact (writeAllowlist_creates bucket g creates).1 (allocates creates)
      · change Counted (writeAllowlist bucket call g).1
        rcases writeAllowlist_other bucket g (Bool.eq_false_of_not_eq_true creates) with same | same
        · rw [same]
          exact counted_hashInit (deleteAllowlist_counted counted)
        · rw [same]
          exact counted
  | read count copied ppos => exact ⟨readAllowlist_inside counted count copied ppos, counted⟩
  | maskexists reg => exact ⟨Option.some_ne_none _, counted⟩
  | writemask reg => exact ⟨Option.some_ne_none _, counted⟩

theorem counted_initial : Counted .initial :=
  ⟨fun _ installed => (by cases installed), fun _ => rfl⟩

/-- In whatever state an interleaving of the calls has come to, nobody is stuck:
any threads can all get to the end of their calls, with the mutex free. -/
theorem allowlist_calls_return (offered : Set (Prog Device α)) (idle : ι → α)
    (allocating : AllocatingClients offered) {g : MutexState ι Globals}
    {pool : ι → Prog (Mutexed Store) α}
    (steps : Steps (locking store) (expand (AllowlistCall.prog bucket) '' offered)
      (idleThreads idle) (g, pool)) (threads : List ι) :
    ∃ g' pool', Steps (locking store) ∅ (g, pool) (g', pool') ∧ g'.owner = none ∧
      ∀ thread ∈ threads, ∃ result, pool' thread = .done result := by
  obtain ⟨start, matched⟩ := matched_start (J := Device) Globals.initial idle
  obtain ⟨disciplined, -⟩ := steps_match (AllowlistCall.performs bucket) start matched steps
  obtain ⟨g', pool', more, returned | ⟨thread, halted⟩⟩ :=
    disciplined_finishes store threads disciplined
  · exact ⟨g', pool', more, returned⟩
  · have all := steps.trans (steps_mono more (fun _ _ _ _ _ effect => effect) (Set.empty_subset _))
    have live := steps_live (AllowlistCall.performs bucket) Counted (atomic_counted bucket)
      allocating start matched counted_initial (fun _ => trivial)
      (fun thread halted => by
        obtain ⟨next, at_halt⟩ := halted
        cases at_halt) all
    exact absurd (halted_settled halted) (live thread)

theorem allowlist_calls_return_write :
    ∃ g' pool', Steps (locking store) ∅
        (⟨.initial, none⟩,
          bothAt (code (fun _ => 0) (installer oneEntry)) (code (fun _ => 0) (lookup 0x10)))
        (g', pool') ∧
      g'.owner = none ∧ ∀ thread ∈ [true, false], ∃ result, pool' thread = .done result := by
  refine allowlist_calls_return (fun _ => 0) {installer oneEntry, lookup 0x10} (fun _ => false) ?_
    (bothAt_calls (fun _ => 0) (.inl rfl) (.inr rfl)) [true, false]
  rintro client (rfl | rfl)
  · exact ⟨fun _ => rfl, fun _ _ => trivial⟩
  · exact ⟨trivial, fun _ _ => trivial⟩

/-- Once an array allocation has failed, one read at the start of the device
takes the mutex for good: every call that comes to wait for it waits for ever,
and the globals stay as they are. -/
theorem stale_read_blocks (offered : Set (Prog Device α)) (idle : ι → α)
    {g : MutexState ι Globals} {pool : ι → Prog (Mutexed Store) α}
    (steps : Steps (locking store) (expand (AllowlistCall.prog bucket) '' offered)
      (idleThreads idle) (g, pool))
    (free : g.owner = none) (stale : Stale g.state) {reader : ι} {count : Nat} {copied : Bool}
    {rest : AllowlistCall.Answer (.read count copied 0) → Prog Device α}
    (reads : pool reader = expand (AllowlistCall.prog bucket)
      (.perform (I := Device) (.read count copied 0) rest)) :
    ∃ owner p, Steps (locking store) ∅ (g, pool)
        (⟨g.state, owner⟩, Function.update pool reader p) ∧
      ∀ g₁ pool₁ g₂ pool₂,
        Steps (locking store) (expand (AllowlistCall.prog bucket) '' offered)
          (⟨g.state, owner⟩, Function.update pool reader p) (g₁, pool₁) →
        Steps (locking store) (expand (AllowlistCall.prog bucket) '' offered)
          (g₁, pool₁) (g₂, pool₂) →
        g₂.state = g.state ∧ Halted (pool₂ reader) ∧
          ∀ other next, pool₁ other = .perform (I := Mutexed Store) .lock next →
            pool₂ other = .perform (I := Mutexed Store) .lock next := by
  obtain ⟨start, matched⟩ := matched_start (J := Device) Globals.initial idle
  obtain ⟨disciplined, -⟩ := steps_match (AllowlistCall.performs bucket) start matched steps
  obtain ⟨s, owner⟩ := g
  cases (free : owner = none)
  obtain ⟨owner, p, halts, -, halted⟩ := call_runs (AllowlistCall.performs bucket) s reads
  replace halted := halted (readAllowlist_stale stale count copied)
  refine ⟨owner, p, halts, fun g₁ pool₁ g₂ pool₂ first second => ?_⟩
  have bracketed : ∀ p ∈ expand (AllowlistCall.prog bucket) '' offered, Bracketed false p := by
    rintro p ⟨client, -, rfl⟩
    exact bracketed_expand (fun call => (AllowlistCall.performs bucket call).bracketed) client
  have stopped := disciplined_steps disciplined halts
  have at_halt : Halted (Function.update pool reader p reader) := by
    rwa [Function.update_self]
  obtain ⟨rfl, -, halted₁, -⟩ := halted_blocks bracketed stopped at_halt first
  have stopped₁ := (steps_settled bracketed stopped first).1
  obtain ⟨rfl, -, halted₂, waiting⟩ := halted_blocks bracketed stopped₁ halted₁ second
  exact ⟨rfl, halted₂, waiting⟩

def dumper : Prog Device Bool := .perform (I := Device) (.read 100 true 0) fun _ => .done true

def noArray : WriteCall := { oneEntry with arrayAllocated := false }

theorem stale_read_blocks_write :
    ∃ pool owner p,
      Steps (locking store) ∅ (⟨storeAfter (fun _ => 0) [noArray], none⟩, pool)
        (⟨storeAfter (fun _ => 0) [noArray], owner⟩, Function.update pool false p) ∧
      ∀ g₁ pool₁ g₂ pool₂,
        Steps (locking store)
          (expand (AllowlistCall.prog fun _ => 0) '' {installer noArray, dumper})
          (⟨storeAfter (fun _ => 0) [noArray], owner⟩, Function.update pool false p) (g₁, pool₁) →
        Steps (locking store)
          (expand (AllowlistCall.prog fun _ => 0) '' {installer noArray, dumper})
          (g₁, pool₁) (g₂, pool₂) →
        g₂.state = storeAfter (fun _ => 0) [noArray] ∧ Halted (pool₂ false) ∧
          ∀ other next, pool₁ other = .perform (I := Mutexed Store) .lock next →
            pool₂ other = .perform (I := Mutexed Store) .lock next := by
  have writes : bothAt (code (fun _ => 0) (installer noArray)) (code (fun _ => 0) dumper) true =
      expand (AllowlistCall.prog fun _ => 0)
        (.perform (I := Device) (.write noArray) fun _ => .done true) := rfl
  obtain ⟨owner, p, steps, returns, -⟩ :=
    call_runs (AllowlistCall.performs fun _ => 0) Globals.initial writes
  obtain ⟨rfl, rfl⟩ := returns _ rfl
  have called : Steps (locking store)
      (expand (AllowlistCall.prog fun _ => 0) '' {installer noArray, dumper})
      (idleThreads fun _ => false)
      (⟨.initial, none⟩,
        bothAt (code (fun _ => 0) (installer noArray)) (code (fun _ => 0) dumper)) :=
    bothAt_calls (fun _ => 0) (.inl rfl) (.inr rfl)
  have written := called.trans
    (steps_mono steps (fun _ _ _ _ _ effect => effect) (Set.empty_subset _))
  have failed : Stale (storeAfter (fun _ => 0) [noArray]) :=
    (writeAllowlist_creates (fun _ => 0) .initial (by decide +kernel)).2 rfl
  have reads :
      Function.update (bothAt (code (fun _ => 0) (installer noArray)) (code (fun _ => 0) dumper))
        true (expand (AllowlistCall.prog fun _ => 0) (.done true : Prog Device Bool)) false =
        expand (AllowlistCall.prog fun _ => 0)
          (.perform (I := Device) (.read 100 true 0) fun _ => .done true) := rfl
  exact ⟨_, stale_read_blocks (fun _ => 0) {installer noArray, dumper} (fun _ => false) written rfl
    failed reads⟩

end Clients

end MsrSafe
