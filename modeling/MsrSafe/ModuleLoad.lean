import MsrSafe.AllowlistStore

/-! Loading and unloading the module: `msr_init` and `msr_exit` of msr_entry.c,
and what msr_batch.c, msr_allowlist.c and msr_version.c register for their
devices. What the kernel answers to each registration is given; what is
registered, and what is taken back, is what is recorded here. -/

namespace MsrSafe

abbrev ErrorCode : Type := {err : Int // err < 0}

abbrev MajorNumber : Type := {major : Int // 0 < major}

def EBUSY : Int := 16

/-- A character device: its module parameter `mdev_…`, the static variables of
its source file, and what is registered for it. -/
structure Cdev where
  major : Int
  cdevCreated : Bool
  cdevClassCreated : Bool
  cdevRegistered : Bool
  /-- The major and the number of minors. -/
  chrdev : Option (Int × Nat)
  cls : Bool
  /-- The device nodes by major and minor. -/
  nodes : List (Int × Nat)
  /-- A registration has failed. -/
  failed : Bool
  /-- Something was unregistered under other numbers than it was registered. -/
  mismatched : Bool
  deriving DecidableEq

namespace Cdev

/-- Before the module is initialised. -/
def loaded (major : Int) : Cdev := ⟨major, false, false, false, none, false, [], false, false⟩

/-- `__register_chrdev`: 0 stands for a major that the kernel chooses and returns. -/
def registerChrdev (major : Int) (minors : Nat) (outcome : Except ErrorCode MajorNumber)
    (c : Cdev) : Int × Cdev :=
  match outcome with
  | .error err => (err, { c with failed := true })
  | .ok allocated =>
    if major = 0 then (allocated, { c with chrdev := some (allocated, minors) })
    else (0, { c with chrdev := some (major, minors) })

def unregisterChrdev (major : Int) (minors : Nat) (c : Cdev) : Cdev :=
  if c.chrdev = some (major, minors) then { c with chrdev := none }
  else { c with mismatched := true }

/-- The pointer that is returned, as the error code it holds or 0. -/
def classCreate (outcome : Except ErrorCode Unit) (c : Cdev) : Int × Cdev :=
  match outcome with
  | .error err => (err, { c with failed := true })
  | .ok () => (0, { c with cls := true })

def classDestroy (c : Cdev) : Cdev := { c with cls := false }

def deviceCreate (major : Int) (minor : Nat) (outcome : Except ErrorCode Unit) (c : Cdev) :
    Int × Cdev :=
  match outcome with
  | .error err => (err, { c with failed := true })
  | .ok () => (0, { c with nodes := (major, minor) :: c.nodes })

def deviceDestroy (major : Int) (minor : Nat) (c : Cdev) : Cdev :=
  { c with nodes := c.nodes.filter (· ≠ (major, minor)) }

end Cdev

structure CdevOutcomes where
  chrdev : Except ErrorCode MajorNumber
  cls : Except ErrorCode Unit
  device : Except ErrorCode Unit

def cdevCleanup (majordev : Int) (c : Cdev) : Cdev :=
  let c := if c.cdevCreated then { c with cdevCreated := false }.deviceDestroy majordev 0 else c
  let c := if c.cdevClassCreated then { c with cdevClassCreated := false }.classDestroy else c
  if c.cdevRegistered then { c with cdevRegistered := false }.unregisterChrdev majordev 256 else c

def cdevInit (o : CdevOutcomes) (c : Cdev) : Int × Cdev :=
  let (err, c) := c.registerChrdev c.major 256 o.chrdev
  if err < 0 then (-EBUSY, cdevCleanup c.major c)
  else
    let c := { c with major := if 0 < err then err else c.major, cdevRegistered := true }
    let (err, c) := c.classCreate o.cls
    if err ≠ 0 then (err, cdevCleanup c.major c)
    else
      let c := { c with cdevClassCreated := true }
      let (err, c) := c.deviceCreate c.major 0 o.device
      if err ≠ 0 then (err, cdevCleanup c.major c)
      else (0, { c with cdevCreated := true })

def msrbatchCleanup (majordev : Int) (c : Cdev) : Cdev := cdevCleanup majordev c

def msrbatchInit (o : CdevOutcomes) (c : Cdev) : Int × Cdev := cdevInit o c

def msrVersionCleanup (majordev : Int) (c : Cdev) : Cdev := cdevCleanup majordev c

def msrVersionInit (o : CdevOutcomes) (c : Cdev) : Int × Cdev := cdevInit o c

/-- This cleanup deletes the list as well. -/
def msrAllowlistCleanup (majordev : Int) (c : Cdev) (g : Globals) : Cdev × Globals :=
  (cdevCleanup majordev c, deleteAllowlist g)

/-- Every error path goes through the cleanup. -/
def msrAllowlistInit (o : CdevOutcomes) (c : Cdev) (g : Globals) : Int × Cdev × Globals :=
  let (err, c) := cdevInit o c
  (err, c, if err ≠ 0 then deleteAllowlist g else g)

/-! ## The device with a node for each processor -/

def msrDeviceCreate (outcome : Except ErrorCode Unit) (cpu : Nat) (c : Cdev) : Int × Cdev :=
  c.deviceCreate c.major cpu outcome

def msrDeviceDestroy (cpu : Nat) (c : Cdev) : Cdev := c.deviceDestroy c.major cpu

inductive CpuAction where
  | upPrepare | upCanceled | upCanceledFrozen | dead | other

def msrClassCpuCallback (action : CpuAction) (outcome : Except ErrorCode Unit) (cpu : Nat)
    (c : Cdev) : Int × Cdev :=
  match action with
  | .upPrepare => msrDeviceCreate outcome cpu c
  | .upCanceled => (0, msrDeviceDestroy cpu c)
  | .upCanceledFrozen => (0, msrDeviceDestroy cpu c)
  | .dead => (0, msrDeviceDestroy cpu c)
  | .other => (0, c)

inductive Starts {σ : Type} (startup : Nat → σ → Int × σ) : List Nat → σ → σ → Prop where
  | nil (s : σ) : Starts startup [] s s
  | cons {cpu : Nat} {cpus : List Nat} {s s₁ s₂ : σ} (started : startup cpu s = (0, s₁))
      (rest : Starts startup cpus s₁ s₂) : Starts startup (cpu :: cpus) s s₂

/-- What `cpuhp_setup_state` is documented to do: it runs the callback for every
online processor and returns the state, or an error once it has torn down what
the callback had done. -/
inductive SetsUp {σ : Type} (startup : Nat → σ → Int × σ) (teardown : Nat → σ → σ)
    (online : List Nat) (s : σ) : Int × σ → Prop where
  | installed {s' : σ} (state : Nat) (started : Starts startup online s s') :
      SetsUp startup teardown online s (state, s')
  | refused (err : ErrorCode) : SetsUp startup teardown online s (err, s)
  | rolledBack {before later : List Nat} {cpu : Nat} {s₁ s₂ : σ} (err : ErrorCode)
      (split : online = before ++ cpu :: later) (started : Starts startup before s s₁)
      (failed : startup cpu s₁ = (err.val, s₂)) :
      SetsUp startup teardown online s
        (err, before.foldl (fun s cpu => teardown cpu s) s₂)

/-- The functions of the kernel's hotplug states, which are not part of the
module; a callback is to return 0 or an error. -/
structure Cpuhp where
  setupState : (Nat → Cdev → Int × Cdev) → (Nat → Cdev → Cdev) → List Nat → Cdev → Int × Cdev
  removeState : (Nat → Cdev → Cdev) → List Nat → Cdev → Cdev
  setup : ∀ startup teardown online c, (∀ cpu c, (startup cpu c).1 ≤ 0) →
    SetsUp startup teardown online c (setupState startup teardown online c)
  remove : ∀ teardown online c,
    removeState teardown online c = online.foldl (fun c cpu => teardown cpu c) c

def bringUp {σ : Type} (startup : Nat → σ → Int × σ) (teardown : Nat → σ → σ) (state : Nat) :
    List Nat → List Nat → σ → Int × σ
  | _, [], s => (state, s)
  | before, cpu :: cpus, s =>
    let (err, s) := startup cpu s
    if err = 0 then bringUp startup teardown state (before ++ [cpu]) cpus s
    else (err, before.foldl (fun s cpu => teardown cpu s) s)

theorem Starts.snoc {σ : Type} {startup : Nat → σ → Int × σ} {cpus : List Nat} {s s₁ s₂ : σ}
    {cpu : Nat} (started : Starts startup cpus s s₁) (last : startup cpu s₁ = (0, s₂)) :
    Starts startup (cpus ++ [cpu]) s s₂ := by
  induction started with
  | nil s => exact .cons last (.nil _)
  | cons first _ ih => exact .cons first (ih last)

theorem bringUp_setsUp {σ : Type} {startup : Nat → σ → Int × σ} (teardown : Nat → σ → σ)
    (state : Nat) (errors : ∀ cpu s, (startup cpu s).1 ≤ 0) {before : List Nat} {s s₁ : σ}
    (started : Starts startup before s s₁) (cpus : List Nat) :
    SetsUp startup teardown (before ++ cpus) s
      (bringUp startup teardown state before cpus s₁) := by
  induction cpus generalizing before s₁ with
  | nil =>
    rw [List.append_nil]
    exact .installed state started
  | cons cpu cpus ih =>
    have error := errors cpu s₁
    rw [bringUp]
    rcases answer : startup cpu s₁ with ⟨err, s₂⟩
    rw [answer] at error
    dsimp only
    by_cases zero : err = 0
    · subst zero
      rw [if_pos rfl, List.append_cons]
      exact ih (started.snoc answer)
    · rw [if_neg zero]
      exact .rolledBack ⟨err, lt_of_le_of_ne error zero⟩ rfl started answer

def Cpuhp.inOrder (state : Nat) : Cpuhp where
  setupState startup teardown online c := bringUp startup teardown state [] online c
  removeState teardown online c := online.foldl (fun c cpu => teardown cpu c) c
  setup _ teardown online c errors := bringUp_setsUp teardown state errors (.nil c) online
  remove _ _ _ := rfl

inductive Hotplug where
  | notifier
  | state (cpuhp : Cpuhp)

structure LoadOutcomes where
  batch : CdevOutcomes
  allowlist : CdevOutcomes
  version : CdevOutcomes
  chrdev : Except ErrorCode MajorNumber
  cls : Except ErrorCode Unit
  device : Nat → Except ErrorCode Unit
  notifier : Except ErrorCode Unit

structure Driver where
  batch : Cdev
  allowlist : Cdev
  globals : Globals
  version : Cdev
  safe : Cdev
  /-- The notifier or the hotplug state is registered. -/
  hotplug : Bool
  hotplugFailed : Bool
  possible : Nat
  online : List Nat

/-- The module with its four parameters, as it is loaded. -/
def Driver.loaded (batch allowlist version safe : Int) (possible : Nat) (online : List Nat) :
    Driver :=
  ⟨.loaded batch, .loaded allowlist, .initial, .loaded version, .loaded safe, false, false,
    possible, online⟩

/-- `for_each_online_cpu` with `msr_device_create`: every turn overwrites `err`. -/
def createDevices (device : Nat → Except ErrorCode Unit) : List Nat → Int → Cdev → Int × Cdev
  | [], err, c => (err, c)
  | cpu :: cpus, _, c =>
    let (err, c) := msrDeviceCreate (device cpu) cpu c
    createDevices device cpus err c

def destroyDevices (cpus : List Nat) (c : Cdev) : Cdev :=
  cpus.foldl (fun c cpu => msrDeviceDestroy cpu c) c

namespace Driver

/-! The labels at the end of `msr_init`, from the last one up. -/

def outVersion (d : Driver) : Driver :=
  { d with version := msrVersionCleanup d.version.major d.version }

def outBatch (d : Driver) : Driver :=
  outVersion { d with batch := msrbatchCleanup d.batch.major d.batch }

def outWlist (d : Driver) : Driver :=
  let (allowlist, globals) := msrAllowlistCleanup d.allowlist.major d.allowlist d.globals
  outBatch { d with allowlist := allowlist, globals := globals }

def outChrdev (d : Driver) : Driver :=
  outWlist { d with safe := d.safe.unregisterChrdev d.safe.major d.possible }

def outClass (api : Hotplug) (d : Driver) : Driver :=
  let safe := match api with
    | .notifier => destroyDevices d.online d.safe
    | .state _ => d.safe
  outChrdev { d with safe := safe.classDestroy }

def initNodes (api : Hotplug) (o : LoadOutcomes) (err : Int) (d : Driver) : Int × Driver :=
  match api with
  | .notifier =>
    let (err, safe) := createDevices o.device d.online err d.safe
    if err ≠ 0 then (err, outClass api { d with safe := safe })
    else
      (0, { d with safe := safe, hotplug := o.notifier.isOk, hotplugFailed := !o.notifier.isOk })
  | .state cpuhp =>
    let startup := fun cpu => msrDeviceCreate (o.device cpu) cpu
    let (err, safe) := cpuhp.setupState startup msrDeviceDestroy d.online d.safe
    if err < 0 then (err, outClass api { d with safe := safe, hotplugFailed := true })
    else (0, { d with safe := safe, hotplug := true })

def initSafe (api : Hotplug) (o : LoadOutcomes) (d : Driver) : Int × Driver :=
  let (err, safe) := d.safe.registerChrdev d.safe.major d.possible o.chrdev
  if err < 0 then (-EBUSY, outWlist { d with safe := safe })
  else
    let safe := { safe with major := if 0 < err then err else safe.major }
    let (errClass, safe) := safe.classCreate o.cls
    if errClass ≠ 0 then (errClass, outChrdev { d with safe := safe })
    else initNodes api o err { d with safe := safe }

def msrInit (api : Hotplug) (o : LoadOutcomes) (d : Driver) : Int × Driver :=
  let (err, batch) := msrbatchInit o.batch d.batch
  let d := { d with batch := batch }
  if err ≠ 0 then (err, d)
  else
    let (err, allowlist, globals) := msrAllowlistInit o.allowlist d.allowlist d.globals
    let d := { d with allowlist := allowlist, globals := globals }
    if err ≠ 0 then (err, outBatch d)
    else
      let (err, version) := msrVersionInit o.version d.version
      let d := { d with version := version }
      -- the other two are initialised here, and `out_version` leaves them so
      if err ≠ 0 then (err, outVersion d)
      else initSafe api o d

def msrExit (api : Hotplug) (d : Driver) : Driver :=
  let safe := match api with
    | .notifier => destroyDevices d.online d.safe
    | .state cpuhp => cpuhp.removeState msrDeviceDestroy d.online d.safe
  let safe := safe.classDestroy.unregisterChrdev d.safe.major d.possible
  let (allowlist, globals) := msrAllowlistCleanup d.allowlist.major d.allowlist d.globals
  { d with
    safe := safe
    hotplug := false
    allowlist := allowlist
    globals := globals
    batch := msrbatchCleanup d.batch.major d.batch
    version := msrVersionCleanup d.version.major d.version }

end Driver

inductive CpuEvent where
  | up (cpu : Nat) (outcome : Except ErrorCode Unit) (boots : Bool)
  | down (cpu : Nat)

/-- What the module is called for when processors come and go; a hotplug state
runs the same two functions as the notifier. -/
def Driver.hear (d : Driver) (action : CpuAction) (outcome : Except ErrorCode Unit) (cpu : Nat) :
    Int × Driver :=
  if d.hotplug then
    let (err, safe) := msrClassCpuCallback action outcome cpu d.safe
    (err, { d with safe := safe })
  else (0, d)

def Driver.cpuEvent (d : Driver) : CpuEvent → Driver
  | .up cpu outcome boots =>
    let (err, d) := d.hear .upPrepare outcome cpu
    if err ≠ 0 then d
    else if boots then { d with online := cpu :: d.online }
    else (d.hear .upCanceled outcome cpu).2
  | .down cpu =>
    let d := (d.hear .dead (.ok ()) cpu).2
    { d with online := d.online.filter (· ≠ cpu) }

end MsrSafe
