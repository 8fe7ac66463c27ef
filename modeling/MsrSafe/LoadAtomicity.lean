import MsrSafe.ModuleLoad

/-! Loading the module is all or nothing, apart from two slips: what is left
behind, and what `msr_exit` takes back. -/

namespace MsrSafe

theorem ok_of_isOk {ε α : Type} {outcome : Except ε α} (ok : outcome.isOk = true) :
    ∃ value, outcome = .ok value := by
  cases outcome with
  | error err => cases ok
  | ok value => exact ⟨value, rfl⟩

namespace Cdev

structure Released (c : Cdev) : Prop where
  chrdev : c.chrdev = none
  cls : c.cls = false
  nodes : c.nodes = []
  matched : c.mismatched = false

structure Tracked (c : Cdev) : Prop where
  chrdev : c.chrdev = if c.cdevRegistered then some (c.major, 256) else none
  cls : c.cls = c.cdevClassCreated
  nodes : c.nodes = if c.cdevCreated then [(c.major, 0)] else []
  matched : c.mismatched = false

structure Idle (c : Cdev) : Prop extends Tracked c where
  registered : c.cdevRegistered = false
  classCreated : c.cdevClassCreated = false
  created : c.cdevCreated = false

structure Live (c : Cdev) : Prop extends Tracked c where
  registered : c.cdevRegistered = true
  classCreated : c.cdevClassCreated = true
  created : c.cdevCreated = true
  unfailed : c.failed = false

variable {c : Cdev}

theorem idle_loaded (major : Int) : (loaded major).Idle := ⟨⟨rfl, rfl, rfl, rfl⟩, rfl, rfl, rfl⟩

theorem Idle.released (idle : c.Idle) : c.Released := by
  constructor
  · rw [idle.chrdev, idle.registered]
    rfl
  · rw [idle.cls, idle.classCreated]
  · rw [idle.nodes, idle.created]
    rfl
  · exact idle.matched

theorem Idle.nodes_eq (idle : c.Idle) (nodes : List (Int × Nat)) :
    c.nodes = if c.cdevCreated then nodes else [] := by
  rw [idle.nodes, idle.created]
  rfl

theorem Live.not_released (live : c.Live) : ¬c.Released := by
  intro released
  have held := live.cls.trans live.classCreated
  rw [released.cls] at held
  cases held

def number (c : Cdev) (allocated : MajorNumber) : Int :=
  if c.major = 0 then allocated else c.major

theorem registerChrdev_ok (c : Cdev) (minors : Nat) (allocated : MajorNumber) :
    ∃ ret, c.registerChrdev c.major minors (.ok allocated) =
        (ret, { c with chrdev := some (c.number allocated, minors) }) ∧
      ¬ret < 0 ∧ (if 0 < ret then ret else c.major) = c.number allocated ∧
      ret = if c.major = 0 then allocated.val else 0 := by
  rw [registerChrdev, number]
  by_cases zero : c.major = 0
  · have positive := allocated.2
    rw [if_pos zero, if_pos zero, if_pos zero]
    exact ⟨_, rfl, by omega, if_pos positive, rfl⟩
  · rw [if_neg zero, if_neg zero, if_neg zero]
    exact ⟨_, rfl, by omega, rfl, rfl⟩

end Cdev

def CdevOutcomes.Succeed (o : CdevOutcomes) : Prop :=
  o.chrdev.isOk = true ∧ o.cls.isOk = true ∧ o.device.isOk = true

instance (o : CdevOutcomes) : Decidable o.Succeed := inferInstanceAs (Decidable (_ ∧ _ ∧ _))

section Cdev

variable {c : Cdev}

theorem cdevCleanup_eq (tracked : c.Tracked) :
    cdevCleanup c.major c =
      { c with
        cdevCreated := false
        cdevClassCreated := false
        cdevRegistered := false
        chrdev := none
        cls := false
        nodes := [] } := by
  obtain ⟨major, created, classCreated, registered, chrdev, cls, nodes, failed, mismatched⟩ := c
  obtain ⟨chrdevTold, clsTold, nodesTold, -⟩ := tracked
  dsimp only at chrdevTold clsTold nodesTold
  cases created <;> cases classCreated <;> cases registered <;>
    simp [cdevCleanup, Cdev.deviceDestroy, Cdev.classDestroy, Cdev.unregisterChrdev,
      chrdevTold, clsTold, nodesTold]

theorem cdevCleanup_idle (tracked : c.Tracked) : (cdevCleanup c.major c).Idle := by
  rw [cdevCleanup_eq tracked]
  exact ⟨⟨rfl, rfl, rfl, tracked.matched⟩, rfl, rfl, rfl⟩

theorem cdevInit_succeeds (idle : c.Idle) (unfailed : c.failed = false) {o : CdevOutcomes}
    (succeed : o.Succeed) : ∃ c', cdevInit o c = (0, c') ∧ c'.Live := by
  obtain ⟨allocated, chrdev⟩ := ok_of_isOk succeed.1
  obtain ⟨⟨⟩, cls⟩ := ok_of_isOk succeed.2.1
  obtain ⟨⟨⟩, device⟩ := ok_of_isOk succeed.2.2
  obtain ⟨ret, registered, notNegative, number, -⟩ := c.registerChrdev_ok 256 allocated
  rw [cdevInit, chrdev, cls, device, registered]
  dsimp only
  rw [if_neg notNegative, number]
  refine ⟨_, rfl, ⟨rfl, rfl, ?_, idle.matched⟩, rfl, rfl, rfl, unfailed⟩
  simp [Cdev.deviceCreate, Cdev.classCreate, idle.nodes, idle.created]

theorem cdevInit_fails (idle : c.Idle) {o : CdevOutcomes} (fails : ¬o.Succeed) :
    ∃ err c', cdevInit o c = (err, c') ∧ err ≠ 0 ∧ c'.Idle := by
  rw [cdevInit]
  cases chrdev : o.chrdev with
  | error err =>
    rw [Cdev.registerChrdev]
    dsimp only
    rw [if_pos err.2]
    refine ⟨_, _, rfl, by decide, ?_⟩
    exact cdevCleanup_idle ⟨idle.chrdev, idle.cls, idle.nodes, idle.matched⟩
  | ok allocated =>
  obtain ⟨ret, registered, notNegative, number, -⟩ := c.registerChrdev_ok 256 allocated
  rw [registered]
  dsimp only
  rw [if_neg notNegative, number]
  cases cls : o.cls with
  | error err =>
    rw [Cdev.classCreate]
    dsimp only
    rw [if_pos (ne_of_lt err.2)]
    refine ⟨_, _, rfl, ne_of_lt err.2, cdevCleanup_idle ⟨rfl, idle.cls, ?_, idle.matched⟩⟩
    exact idle.nodes_eq _
  | ok =>
  cases device : o.device with
  | error err =>
    rw [Cdev.classCreate]
    dsimp only
    rw [Cdev.deviceCreate]
    dsimp only
    rw [if_neg (by decide), if_pos (ne_of_lt err.2)]
    refine ⟨_, _, rfl, ne_of_lt err.2, cdevCleanup_idle ⟨rfl, rfl, ?_, idle.matched⟩⟩
    exact idle.nodes_eq _
  | ok =>
    refine absurd ?_ fails
    rw [CdevOutcomes.Succeed, chrdev, cls, device]
    exact ⟨rfl, rfl, rfl⟩

end Cdev

/-! ## The nodes of the processors -/

namespace Cdev

/-- What is registered for msr_safe while nodes come and go: every node has the
device's major and belongs to one of the processors. -/
structure Serving (cpus : List Nat) (possible : Nat) (c : Cdev) : Prop where
  chrdev : c.chrdev = some (c.major, possible)
  nodes : ∀ node ∈ c.nodes, node.1 = c.major ∧ node.2 ∈ cpus
  matched : c.mismatched = false

variable {c : Cdev} {cpus : List Nat} {possible : Nat}

theorem Serving.weaken {more : List Nat} (serving : c.Serving cpus possible)
    (covered : ∀ cpu ∈ cpus, cpu ∈ more) : c.Serving more possible where
  chrdev := serving.chrdev
  nodes node member := ⟨(serving.nodes node member).1, covered _ (serving.nodes node member).2⟩
  matched := serving.matched

theorem Serving.more (serving : c.Serving [] possible) (cpus : List Nat) :
    c.Serving cpus possible :=
  serving.weaken (List.forall_mem_nil _)

theorem Serving.create (serving : c.Serving cpus possible) {cpu : Nat} (member : cpu ∈ cpus)
    (outcome : Except ErrorCode Unit) :
    (msrDeviceCreate outcome cpu c).2.Serving cpus possible := by
  cases outcome with
  | error err => exact ⟨serving.chrdev, serving.nodes, serving.matched⟩
  | ok =>
    refine ⟨serving.chrdev, ?_, serving.matched⟩
    intro node created
    rcases List.mem_cons.mp created with rfl | old
    · exact ⟨rfl, member⟩
    · exact serving.nodes node old

/-- A destroyed node is gone, also where another one of its numbers was created before. -/
theorem Serving.destroy (serving : c.Serving cpus possible) (cpu : Nat) :
    (msrDeviceDestroy cpu c).Serving (cpus.filter (· ≠ cpu)) possible := by
  refine ⟨serving.chrdev, ?_, serving.matched⟩
  intro node member
  obtain ⟨old, other⟩ := List.mem_filter.mp member
  obtain ⟨major, online⟩ := serving.nodes node old
  refine ⟨major, List.mem_filter.mpr ⟨online, ?_⟩⟩
  simp only [decide_eq_true_eq] at other ⊢
  intro minor
  exact other (Prod.ext major minor)

theorem msrDeviceCreate_ok (outcome : Except ErrorCode Unit) (cpu : Nat) (c : Cdev) :
    (msrDeviceCreate outcome cpu c).1 = 0 ↔ outcome.isOk = true := by
  cases outcome with
  | error err =>
    have negative := ne_of_lt err.2
    simp [msrDeviceCreate, deviceCreate, Except.isOk, Except.toBool, negative]
  | ok => simp [msrDeviceCreate, deviceCreate, Except.isOk, Except.toBool]

theorem msrDeviceCreate_le (outcome : Except ErrorCode Unit) (cpu : Nat) (c : Cdev) :
    (msrDeviceCreate outcome cpu c).1 ≤ 0 := by
  cases outcome with
  | error err => exact le_of_lt err.2
  | ok => exact le_refl 0

theorem Serving.refuse (serving : c.Serving cpus possible) {outcome : Except ErrorCode Unit}
    {cpu : Nat} (refused : (msrDeviceCreate outcome cpu c).1 ≠ 0) :
    (msrDeviceCreate outcome cpu c).2.Serving cpus possible := by
  cases outcome with
  | error err => exact ⟨serving.chrdev, serving.nodes, serving.matched⟩
  | ok => exact absurd rfl refused

theorem msrDeviceCreate_failed (outcome : Except ErrorCode Unit) (cpu : Nat) (c : Cdev) :
    (msrDeviceCreate outcome cpu c).2.failed = (c.failed || !outcome.isOk) := by
  cases outcome <;> simp [msrDeviceCreate, deviceCreate, Except.isOk, Except.toBool]

theorem Serving.destroyed (serving : c.Serving cpus possible) :
    (destroyDevices cpus c).Serving [] possible := by
  induction cpus generalizing c with
  | nil => exact serving
  | cons cpu cpus ih =>
    apply ih
    apply (serving.destroy cpu).weaken
    intro other member
    simp only [List.mem_filter, List.mem_cons, decide_eq_true_eq] at member
    exact member.1.resolve_left member.2

theorem Serving.no_nodes (serving : c.Serving [] possible) : c.nodes = [] := by
  apply List.eq_nil_iff_forall_not_mem.mpr
  intro node member
  exact List.not_mem_nil (serving.nodes node member).2

@[simp] theorem destroyDevices_major (cpus : List Nat) (c : Cdev) :
    (destroyDevices cpus c).major = c.major := by
  induction cpus generalizing c with
  | nil => rfl
  | cons cpu cpus ih => exact ih (msrDeviceDestroy cpu c)

theorem Serving.unregister (serving : c.Serving [] possible) (cls : c.cls = false) :
    (c.unregisterChrdev c.major possible).Released := by
  rw [unregisterChrdev, if_pos serving.chrdev]
  exact ⟨rfl, cls, serving.no_nodes, serving.matched⟩

theorem Serving.retire (serving : c.Serving [] possible) :
    (c.classDestroy.unregisterChrdev c.major possible).Released := by
  have kept : c.classDestroy.Serving [] possible :=
    ⟨serving.chrdev, serving.nodes, serving.matched⟩
  exact kept.unregister rfl

theorem Serving.createDevices (serving : c.Serving cpus possible)
    (device : Nat → Except ErrorCode Unit) (err : Int) {turns : List Nat}
    (online : ∀ cpu ∈ turns, cpu ∈ cpus) :
    (createDevices device turns err c).2.Serving cpus possible := by
  induction turns generalizing c err with
  | nil => exact serving
  | cons cpu turns ih =>
    apply ih
    · exact serving.create (online cpu List.mem_cons_self) _
    · intro other member
      exact online other (List.mem_cons_of_mem _ member)

theorem Serving.starts (serving : c.Serving cpus possible) {device : Nat → Except ErrorCode Unit}
    {turns : List Nat} {c' : Cdev}
    (started : Starts (fun cpu => msrDeviceCreate (device cpu) cpu) turns c c')
    (online : ∀ cpu ∈ turns, cpu ∈ cpus) :
    c'.Serving cpus possible ∧ c'.failed = c.failed := by
  induction started with
  | nil => exact ⟨serving, rfl⟩
  | @cons cpu turns c c₁ c' first rest ih =>
    have served := serving.create (online cpu List.mem_cons_self) (device cpu)
    have unfailed := msrDeviceCreate_failed (device cpu) cpu c
    rw [(msrDeviceCreate_ok (device cpu) cpu c).mp (congrArg Prod.fst first)] at unfailed
    rw [first] at served unfailed
    obtain ⟨kept, same⟩ := ih served
      (fun other member => online other (List.mem_cons_of_mem _ member))
    refine ⟨kept, ?_⟩
    rw [same, unfailed, Bool.not_true, Bool.or_false]

end Cdev

/-- Only the last processor's turn is left in `err`. -/
theorem createDevices_err (device : Nat → Except ErrorCode Unit) (cpus : List Nat) (err : Int)
    (c : Cdev) :
    (createDevices device cpus err c).1 = 0 ↔
      (cpus = [] → err = 0) ∧ ∀ cpu ∈ cpus.getLast?, (device cpu).isOk = true := by
  induction cpus generalizing err c with
  | nil => simp [createDevices]
  | cons cpu cpus ih =>
    rw [createDevices, ih]
    cases cpus with
    | nil => simp [Cdev.msrDeviceCreate_ok]
    | cons next cpus => simp [List.getLast?_cons_cons]

theorem createDevices_failed (device : Nat → Except ErrorCode Unit) (cpus : List Nat) (err : Int)
    (c : Cdev) :
    (createDevices device cpus err c).2.failed =
      (c.failed || cpus.any fun cpu => !(device cpu).isOk) := by
  induction cpus generalizing err c with
  | nil => simp [createDevices]
  | cons cpu cpus ih =>
    rw [createDevices, ih, Cdev.msrDeviceCreate_failed, List.any_cons, Bool.or_assoc]

/-! ## The module -/

namespace Driver

structure Released (d : Driver) : Prop where
  batch : d.batch.Released
  allowlist : d.allowlist.Released
  version : d.version.Released
  safe : d.safe.Released
  hotplug : d.hotplug = false

def Failed (d : Driver) : Prop :=
  d.batch.failed ∨ d.allowlist.failed ∨ d.version.failed ∨ d.safe.failed ∨ d.hotplugFailed

end Driver

/-- Loading is all or nothing, and unloading undoes it, whatever processors
came and went in between: of what `msr_init` returns and leaves. -/
def AllOrNothing (api : Hotplug) (result : Int × Driver) : Prop :=
  (result.1 ≠ 0 → result.2.Released) ∧
  (result.1 = 0 → ¬result.2.Failed ∧
    ∀ events : List CpuEvent,
      ((events.foldl Driver.cpuEvent result.2).msrExit api).Released)

namespace LoadOutcomes

/-- msr_version cannot be set up behind the other two. -/
def Leaks (o : LoadOutcomes) : Prop :=
  o.batch.Succeed ∧ o.allowlist.Succeed ∧ ¬o.version.Succeed

/-- Before Linux 4.10, the registrations for the processors are reached, one of
them fails, and the last turn of the loop does not tell. -/
def Overlooks (o : LoadOutcomes) (api : Hotplug) (safe : Int) (online : List Nat) : Prop :=
  api = .notifier ∧
  (o.batch.Succeed ∧ o.allowlist.Succeed ∧ o.version.Succeed ∧
    o.chrdev.isOk = true ∧ o.cls.isOk = true) ∧
  ((online = [] → safe ≠ 0) ∧ ∀ cpu ∈ online.getLast?, (o.device cpu).isOk = true) ∧
  ((∃ cpu ∈ online, (o.device cpu).isOk = false) ∨ o.notifier.isOk = false)

end LoadOutcomes

namespace Driver

variable {d : Driver}

structure Tracked (d : Driver) : Prop where
  batch : d.batch.Tracked
  allowlist : d.allowlist.Tracked
  version : d.version.Tracked

theorem outWlist_released (tracked : d.Tracked) (hotplug : d.hotplug = false) {safe : Cdev}
    (released : safe.Released) (hotplugFailed : Bool) :
    (outWlist { d with safe := safe, hotplugFailed := hotplugFailed }).Released where
  batch := (cdevCleanup_idle tracked.batch).released
  allowlist := (cdevCleanup_idle tracked.allowlist).released
  version := (cdevCleanup_idle tracked.version).released
  safe := released
  hotplug := hotplug

theorem outClass_released (api : Hotplug) (tracked : d.Tracked) (hotplug : d.hotplug = false)
    {safe : Cdev}
    (serving : match api with
      | .notifier => safe.Serving d.online d.possible
      | .state _ => safe.Serving [] d.possible)
    (hotplugFailed : Bool) :
    (outClass api { d with safe := safe, hotplugFailed := hotplugFailed }).Released := by
  cases api with
  | notifier => exact outWlist_released tracked hotplug serving.destroyed.retire hotplugFailed
  | state cpuhp => exact outWlist_released tracked hotplug serving.retire hotplugFailed

structure Running (d : Driver) : Prop extends Tracked d where
  safe : d.safe.Serving d.online d.possible
  hotplug : d.hotplug = true

theorem Running.serve (running : d.Running) {safe : Cdev} {online : List Nat}
    (serving : safe.Serving online d.possible) :
    { d with safe := safe, online := online }.Running :=
  ⟨⟨running.batch, running.allowlist, running.version⟩, serving, running.hotplug⟩

theorem hear_eq (hotplug : d.hotplug = true) (action : CpuAction)
    (outcome : Except ErrorCode Unit) (cpu : Nat) :
    d.hear action outcome cpu =
      ((msrClassCpuCallback action outcome cpu d.safe).1,
        { d with safe := (msrClassCpuCallback action outcome cpu d.safe).2 }) := by
  rw [hear, if_pos hotplug]

theorem Running.cpuEvent (running : d.Running) (event : CpuEvent) : (d.cpuEvent event).Running := by
  cases event with
  | up cpu outcome boots =>
    rw [Driver.cpuEvent, hear_eq running.hotplug]
    have served := (running.safe.weaken fun other => List.mem_cons_of_mem cpu).create
      List.mem_cons_self outcome
    cases outcome with
    | error err =>
      -- the processor does not come, and it has no node
      dsimp only [msrClassCpuCallback, msrDeviceCreate, Cdev.deviceCreate]
      rw [if_pos (ne_of_lt err.2)]
      exact running.serve ⟨running.safe.chrdev, running.safe.nodes, running.safe.matched⟩
    | ok =>
      dsimp only [msrClassCpuCallback]
      rw [if_neg (not_not.mpr ((Cdev.msrDeviceCreate_ok _ cpu d.safe).mpr rfl))]
      cases boots with
      | true => exact running.serve served
      | false =>
        rw [if_neg Bool.false_ne_true, hear_eq (by exact running.hotplug)]
        apply running.serve ((served.destroy cpu).weaken _)
        intro other member
        simp only [List.mem_filter, List.mem_cons, decide_eq_true_eq] at member
        exact member.1.resolve_left member.2
  | down cpu =>
    rw [Driver.cpuEvent, hear_eq running.hotplug]
    exact running.serve (running.safe.destroy cpu)

theorem Running.cpuEvents (running : d.Running) (events : List CpuEvent) :
    (events.foldl Driver.cpuEvent d).Running := by
  induction events generalizing d with
  | nil => exact running
  | cons event events ih => exact ih (running.cpuEvent event)

theorem Running.msrExit (running : d.Running) (api : Hotplug) : (d.msrExit api).Released := by
  have destroyed := running.safe.destroyed
  have retired := destroyed.retire
  rw [Cdev.destroyDevices_major] at retired
  refine ⟨(cdevCleanup_idle running.batch).released, (cdevCleanup_idle running.allowlist).released,
    (cdevCleanup_idle running.version).released, ?_, rfl⟩
  cases api with
  | notifier => exact retired
  | state cpuhp =>
    rw [Driver.msrExit]
    dsimp only
    rw [cpuhp.remove]
    exact retired

/-! ### The way up -/

structure Ready (d : Driver) : Prop where
  batch : d.batch.Live
  allowlist : d.allowlist.Live
  version : d.version.Live
  hotplug : d.hotplug = false
  hotplugFailed : d.hotplugFailed = false

structure Started (d : Driver) : Prop extends Ready d where
  safe : d.safe.Serving [] d.possible
  unfailed : d.safe.failed = false

theorem Ready.tracked (ready : d.Ready) : d.Tracked :=
  ⟨ready.batch.toTracked, ready.allowlist.toTracked, ready.version.toTracked⟩

theorem Started.loads (started : d.Started) (api : Hotplug) {safe : Cdev} {hotplugFailed : Bool}
    (served : safe.Serving d.online d.possible) (unfailed : safe.failed = false)
    (heard : hotplugFailed = false) :
    AllOrNothing api
      (0, { d with safe := safe, hotplug := true, hotplugFailed := hotplugFailed }) := by
  refine ⟨fun nonzero => absurd rfl nonzero, fun _ => ⟨?_, fun events => ?_⟩⟩
  · simp [Failed, started.batch.unfailed, started.allowlist.unfailed, started.version.unfailed,
      unfailed, heard]
  · apply Running.msrExit
    apply Running.cpuEvents
    exact ⟨⟨started.tracked.batch, started.tracked.allowlist, started.tracked.version⟩, served, rfl⟩

theorem Started.backs_out (started : d.Started) (api : Hotplug) {safe : Cdev}
    {hotplugFailed : Bool} {err : Int} (nonzero : err ≠ 0)
    (serving : match api with
      | .notifier => safe.Serving d.online d.possible
      | .state _ => safe.Serving [] d.possible) :
    AllOrNothing api
      (err, outClass api { d with safe := safe, hotplugFailed := hotplugFailed }) := by
  refine ⟨fun _ => ?_, fun zero => absurd zero nonzero⟩
  exact outClass_released api started.tracked started.hotplug serving hotplugFailed

theorem Started.notifier (started : d.Started) (o : LoadOutcomes) (err : Int) :
    AllOrNothing .notifier (d.initNodes .notifier o err) ↔
      ¬(((d.online = [] → err = 0) ∧ ∀ cpu ∈ d.online.getLast?, (o.device cpu).isOk = true) ∧
        ((∃ cpu ∈ d.online, (o.device cpu).isOk = false) ∨ o.notifier.isOk = false)) := by
  have tells := createDevices_err o.device d.online err d.safe
  have fails := createDevices_failed o.device d.online err d.safe
  have served := (started.safe.more d.online).createDevices o.device err (fun _ online => online)
  rw [initNodes]
  dsimp only
  by_cases told : (createDevices o.device d.online err d.safe).1 = 0
  · rw [if_neg (not_not.mpr told), and_iff_right (tells.mp told)]
    constructor
    · intro loaded overlooked
      apply (loaded.2 rfl).1
      rcases overlooked with ⟨cpu, online, refused⟩ | refused
      · refine Or.inr (Or.inr (Or.inr (Or.inl (fails.trans ?_))))
        rw [List.any_eq_true.mpr ⟨cpu, online, by rw [refused]; rfl⟩, Bool.or_true]
      · refine Or.inr (Or.inr (Or.inr (Or.inr ?_)))
        rw [refused]
        rfl
    · intro noticed
      obtain ⟨created, notified⟩ := not_or.mp noticed
      rw [Bool.eq_true_of_not_eq_false notified]
      apply started.loads .notifier served _ rfl
      rw [fails, started.unfailed, Bool.false_or, List.any_eq_false]
      intro cpu online refused
      exact created ⟨cpu, online, by simpa using refused⟩
  · rw [if_pos told]
    constructor
    · intro _ overlooked
      exact told (tells.mpr overlooked.1)
    · intro _
      exact started.backs_out .notifier told served

theorem initNodes_state (cpuhp : Cpuhp) (o : LoadOutcomes) (err : Int) (d : Driver) :
    d.initNodes (.state cpuhp) o err =
      let startup := fun cpu => msrDeviceCreate (o.device cpu) cpu
      let answer := cpuhp.setupState startup msrDeviceDestroy d.online d.safe
      if answer.1 < 0 then
        (answer.1, outClass (.state cpuhp) { d with safe := answer.2, hotplugFailed := true })
      else (0, { d with safe := answer.2, hotplug := true }) := rfl

theorem Started.state (started : d.Started) (cpuhp : Cpuhp) (o : LoadOutcomes) (err : Int) :
    AllOrNothing (.state cpuhp) (d.initNodes (.state cpuhp) o err) := by
  have answered := cpuhp.setup (fun cpu => msrDeviceCreate (o.device cpu) cpu) msrDeviceDestroy
    d.online d.safe (fun cpu => Cdev.msrDeviceCreate_le (o.device cpu) cpu)
  rw [initNodes_state]
  dsimp only
  generalize cpuhp.setupState (fun cpu => msrDeviceCreate (o.device cpu) cpu) msrDeviceDestroy
    d.online d.safe = answer at answered ⊢
  cases answered with
  | installed state installed =>
    obtain ⟨served, unfailed⟩ := (started.safe.more d.online).starts installed
      (fun _ online => online)
    rw [if_neg (by simp)]
    exact started.loads _ served (unfailed.trans started.unfailed) started.hotplugFailed
  | refused err =>
    rw [if_pos err.2]
    exact started.backs_out _ (ne_of_lt err.2) started.safe
  | @rolledBack before later cpu s₁ s₂ err split began failed =>
    -- the kernel's way back ends where no processor has a node
    obtain ⟨served, -⟩ := (started.safe.more before).starts began (fun _ online => online)
    have refused : (msrDeviceCreate (o.device cpu) cpu s₁).1 ≠ 0 := by
      rw [failed]
      exact ne_of_lt err.2
    have kept := served.refuse refused
    rw [failed] at kept
    rw [if_pos err.2]
    exact started.backs_out _ (ne_of_lt err.2) kept.destroyed

theorem Ready.initSafe_refused (ready : d.Ready) (api : Hotplug) {o : LoadOutcomes} {safe : Int}
    (loaded : d.safe = .loaded safe) (refused : ¬(o.chrdev.isOk = true ∧ o.cls.isOk = true)) :
    AllOrNothing api (d.initSafe api o) := by
  rw [initSafe, loaded]
  cases chrdev : o.chrdev with
  | error err =>
    rw [Cdev.registerChrdev]
    dsimp only
    rw [if_pos err.2]
    refine ⟨fun _ => ?_, fun zero => absurd zero (by decide : -EBUSY ≠ 0)⟩
    exact outWlist_released ready.tracked ready.hotplug ⟨rfl, rfl, rfl, rfl⟩ _
  | ok allocated =>
  cases cls : o.cls with
  | ok =>
    refine absurd ?_ refused
    rw [chrdev, cls]
    exact ⟨rfl, rfl⟩
  | error err =>
  obtain ⟨ret, registered, notNegative, number, -⟩ :=
    (Cdev.loaded safe).registerChrdev_ok d.possible allocated
  rw [registered]
  dsimp only
  rw [if_neg notNegative, number, Cdev.classCreate]
  dsimp only
  rw [if_pos (ne_of_lt err.2)]
  refine ⟨fun _ => ?_, fun zero => absurd zero (ne_of_lt err.2)⟩
  apply outWlist_released ready.tracked ready.hotplug
  apply Cdev.Serving.unregister _ rfl
  exact ⟨rfl, List.forall_mem_nil _, rfl⟩

theorem Ready.initSafe_starts (ready : d.Ready) (api : Hotplug) {o : LoadOutcomes} {safe : Int}
    (loaded : d.safe = .loaded safe) (registers : o.chrdev.isOk = true)
    (creates : o.cls.isOk = true) :
    ∃ (err : Int) (d' : Driver), d.initSafe api o = d'.initNodes api o err ∧ d'.Started ∧
      d'.online = d.online ∧ (err = 0 ↔ safe ≠ 0) := by
  obtain ⟨allocated, chrdev⟩ := ok_of_isOk registers
  obtain ⟨⟨⟩, cls⟩ := ok_of_isOk creates
  obtain ⟨ret, registered, notNegative, number, value⟩ :=
    (Cdev.loaded safe).registerChrdev_ok d.possible allocated
  rw [initSafe, loaded, chrdev, cls, registered]
  dsimp only
  rw [if_neg notNegative, number, Cdev.classCreate]
  dsimp only
  rw [if_neg (not_not.mpr rfl)]
  refine ⟨_, _, rfl, ?_, rfl, ?_⟩
  · constructor
    · exact ⟨ready.batch, ready.allowlist, ready.version, ready.hotplug, ready.hotplugFailed⟩
    · exact ⟨rfl, List.forall_mem_nil _, rfl⟩
    · rfl
  · rw [value]
    change (if safe = 0 then allocated.val else 0) = 0 ↔ safe ≠ 0
    by_cases zero : safe = 0
    · have positive := allocated.2
      rw [if_pos zero]
      omega
    · rw [if_neg zero]
      exact iff_of_true rfl zero

variable (api : Hotplug) {o : LoadOutcomes} (batch allowlist version safe : Int)
  (possible : Nat) (online : List Nat)

theorem msrInit_batch_fails (fails : ¬o.batch.Succeed) :
    AllOrNothing api ((loaded batch allowlist version safe possible online).msrInit api o) := by
  obtain ⟨err, c, init, nonzero, idle⟩ := cdevInit_fails (Cdev.idle_loaded batch) fails
  rw [msrInit, loaded, msrbatchInit, init]
  dsimp only
  rw [if_pos nonzero]
  refine ⟨fun _ => ?_, fun zero => absurd zero nonzero⟩
  exact ⟨idle.released, (Cdev.idle_loaded allowlist).released, (Cdev.idle_loaded version).released,
    (Cdev.idle_loaded safe).released, rfl⟩

theorem msrInit_allowlist_fails (succeeds : o.batch.Succeed) (fails : ¬o.allowlist.Succeed) :
    AllOrNothing api ((loaded batch allowlist version safe possible online).msrInit api o) := by
  obtain ⟨c, initBatch, live⟩ := cdevInit_succeeds (Cdev.idle_loaded batch) rfl succeeds
  obtain ⟨err, c', init, nonzero, idle⟩ := cdevInit_fails (Cdev.idle_loaded allowlist) fails
  rw [msrInit, loaded, msrbatchInit, initBatch]
  dsimp only
  rw [if_neg (not_not.mpr rfl), msrAllowlistInit, init]
  dsimp only
  rw [if_pos nonzero, if_pos nonzero]
  refine ⟨fun _ => ?_, fun zero => absurd zero nonzero⟩
  constructor
  · exact (cdevCleanup_idle live.toTracked).released
  · exact idle.released
  · exact (cdevCleanup_idle (Cdev.idle_loaded version).toTracked).released
  · exact (Cdev.idle_loaded safe).released
  · rfl

/-- `goto out_version` passes the other two cleanups by. -/
theorem msrInit_version_fails (leaks : o.Leaks) :
    ¬AllOrNothing api ((loaded batch allowlist version safe possible online).msrInit api o) := by
  obtain ⟨batchSucceeds, allowlistSucceeds, fails⟩ := leaks
  obtain ⟨c, initBatch, live⟩ := cdevInit_succeeds (Cdev.idle_loaded batch) rfl batchSucceeds
  obtain ⟨c', init, -⟩ := cdevInit_succeeds (Cdev.idle_loaded allowlist) rfl allowlistSucceeds
  obtain ⟨err, c'', initVersion, nonzero, -⟩ := cdevInit_fails (Cdev.idle_loaded version) fails
  rw [msrInit, loaded, msrbatchInit, initBatch]
  dsimp only
  rw [if_neg (not_not.mpr rfl), msrAllowlistInit, init]
  dsimp only
  rw [if_neg (not_not.mpr rfl), msrVersionInit, initVersion]
  dsimp only
  rw [if_pos nonzero]
  intro holds
  exact live.not_released (holds.1 nonzero).batch

theorem msrInit_ready (batchSucceeds : o.batch.Succeed) (allowlistSucceeds : o.allowlist.Succeed)
    (versionSucceeds : o.version.Succeed) :
    ∃ d : Driver, (loaded batch allowlist version safe possible online).msrInit api o =
        d.initSafe api o ∧
      d.Ready ∧ d.safe = .loaded safe ∧ d.online = online := by
  obtain ⟨c, initBatch, live⟩ := cdevInit_succeeds (Cdev.idle_loaded batch) rfl batchSucceeds
  obtain ⟨c', init, live'⟩ := cdevInit_succeeds (Cdev.idle_loaded allowlist) rfl allowlistSucceeds
  obtain ⟨c'', initVersion, live''⟩ :=
    cdevInit_succeeds (Cdev.idle_loaded version) rfl versionSucceeds
  rw [msrInit, loaded, msrbatchInit, initBatch]
  dsimp only
  rw [if_neg (not_not.mpr rfl), msrAllowlistInit, init]
  dsimp only
  rw [if_neg (not_not.mpr rfl), msrVersionInit, initVersion]
  dsimp only
  rw [if_neg (not_not.mpr rfl)]
  exact ⟨_, rfl, ⟨live, live', live'', rfl, rfl⟩, rfl, rfl⟩

end Driver

/-- Loading the module is all or nothing, and unloading undoes it, exactly when
msr_version is set up behind the other two devices and, before Linux 4.10, no
failed registration for a processor is overlooked. -/
theorem load_all_or_nothing_iff (api : Hotplug) (o : LoadOutcomes)
    (batch allowlist version safe : Int) (possible : Nat) (online : List Nat) :
    AllOrNothing api ((Driver.loaded batch allowlist version safe possible online).msrInit api o) ↔
      ¬o.Leaks ∧ ¬o.Overlooks api safe online := by
  by_cases batchSucceeds : o.batch.Succeed
  case neg =>
    apply iff_of_true (Driver.msrInit_batch_fails _ _ _ _ _ _ _ batchSucceeds)
    exact ⟨fun leaks => batchSucceeds leaks.1, fun overlooks => batchSucceeds overlooks.2.1.1⟩
  by_cases allowlistSucceeds : o.allowlist.Succeed
  case neg =>
    apply iff_of_true
      (Driver.msrInit_allowlist_fails _ _ _ _ _ _ _ batchSucceeds allowlistSucceeds)
    exact ⟨fun leaks => allowlistSucceeds leaks.2.1,
      fun overlooks => allowlistSucceeds overlooks.2.1.2.1⟩
  by_cases versionSucceeds : o.version.Succeed
  case neg =>
    have leaks : o.Leaks := ⟨batchSucceeds, allowlistSucceeds, versionSucceeds⟩
    exact iff_of_false (Driver.msrInit_version_fails _ _ _ _ _ _ _ leaks)
      (fun holds => holds.1 leaks)
  have sound : ¬o.Leaks := fun leaks => leaks.2.2 versionSucceeds
  obtain ⟨d, same, ready, loaded, cpus⟩ := Driver.msrInit_ready api batch allowlist version safe
    possible online batchSucceeds allowlistSucceeds versionSucceeds
  rw [same, and_iff_right sound]
  by_cases succeed : o.chrdev.isOk = true ∧ o.cls.isOk = true
  case neg =>
    apply iff_of_true (ready.initSafe_refused api loaded succeed)
    intro overlooks
    exact succeed overlooks.2.1.2.2.2
  obtain ⟨err, d', same', started, cpus', value⟩ :=
    ready.initSafe_starts api loaded succeed.1 succeed.2
  rw [same']
  cases api with
  | notifier =>
    have reached : o.batch.Succeed ∧ o.allowlist.Succeed ∧ o.version.Succeed ∧
        o.chrdev.isOk = true ∧ o.cls.isOk = true :=
      ⟨batchSucceeds, allowlistSucceeds, versionSucceeds, succeed.1, succeed.2⟩
    rw [started.notifier, LoadOutcomes.Overlooks, cpus', cpus, value, and_iff_right rfl,
      and_iff_right reached]
  | state cpuhp =>
    apply iff_of_true (started.state cpuhp o err)
    intro overlooks
    cases overlooks.1

/-- Without a major for msr_version, msr_batch and msr_allowlist stay registered
for a module that is gone. -/
theorem version_refused_leaks :
    let o : LoadOutcomes :=
      { batch := ⟨.ok ⟨240, by decide⟩, .ok (), .ok ()⟩
        allowlist := ⟨.ok ⟨239, by decide⟩, .ok (), .ok ()⟩
        version := ⟨.error ⟨-EBUSY, by decide⟩, .ok (), .ok ()⟩
        chrdev := .ok ⟨238, by decide⟩
        cls := .ok ()
        device := fun _ => .ok ()
        notifier := .ok () }
    let result := (Driver.loaded 0 0 0 0 2 [0, 1]).msrInit (.state (.inOrder 1)) o
    result.1 = -EBUSY ∧
      result.2.batch.chrdev = some (240, 256) ∧ result.2.batch.nodes = [(240, 0)] ∧
      result.2.allowlist.chrdev = some (239, 256) ∧
      ¬AllOrNothing (.state (.inOrder 1)) result := by
  refine ⟨by decide, by decide, by decide, by decide, fun holds => ?_⟩
  have released := (holds.1 (by decide)).batch.cls
  revert released
  decide

end MsrSafe
