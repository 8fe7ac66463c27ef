import MsrSafe.LoadAtomicity

/-! The device nodes of the processors while the module is loaded: what becomes
of them as processors come and go, and as the system sleeps and resumes. -/

namespace MsrSafe

structure Power where
  driver : Driver
  suspended : List Nat

/-- A processor comes or goes, or is taken down while the system sleeps, or comes
back when it resumes; one that does not boot is cancelled behind the callback. -/
inductive PowerEvent where
  | hotplug (event : CpuEvent)
  | suspend (cpu : Nat)
  | resume (cpu : Nat) (outcome : Except ErrorCode Unit) (boots : Bool)

/-- Before Linux 4.10 a processor that is suspended is `CPU_DEAD_FROZEN`, which the
callback has no case for; to a hotplug state it goes down like any other. -/
def Driver.suspend (api : Hotplug) (cpu : Nat) (d : Driver) : Driver :=
  match api with
  | .notifier =>
    let d := (d.hear .other (.ok ()) cpu).2
    { d with online := d.online.filter (· ≠ cpu) }
  | .state _ => d.cpuEvent (.down cpu)

/-- The way back is `CPU_UP_PREPARE_FROZEN` and, if the processor does not boot,
`CPU_UP_CANCELED_FROZEN`. -/
def Driver.resume (api : Hotplug) (cpu : Nat) (outcome : Except ErrorCode Unit) (boots : Bool)
    (d : Driver) : Driver :=
  match api with
  | .notifier =>
    let d := (d.hear .other outcome cpu).2
    if boots then { d with online := cpu :: d.online }
    else (d.hear .upCanceledFrozen outcome cpu).2
  | .state _ => d.cpuEvent (.up cpu outcome boots)

namespace Power

def event (api : Hotplug) (s : Power) : PowerEvent → Power
  | .hotplug event => { s with driver := s.driver.cpuEvent event }
  | .suspend cpu => ⟨s.driver.suspend api cpu, cpu :: s.suspended⟩
  | .resume cpu outcome boots =>
    ⟨s.driver.resume api cpu outcome boots, s.suspended.filter (· ≠ cpu)⟩

def Possible (s : Power) : PowerEvent → Prop
  | .hotplug (.up cpu _ _) => cpu ∉ s.driver.online ∧ cpu ∉ s.suspended
  | .hotplug (.down cpu) => cpu ∈ s.driver.online
  | .suspend cpu => cpu ∈ s.driver.online
  | .resume cpu _ _ => cpu ∈ s.suspended

inductive Step (api : Hotplug) : Power → Power → Prop where
  | event {s : Power} (event : PowerEvent) (possible : s.Possible event) :
      Step api s (s.event api event)

def Served (api : Hotplug) (s : Power) (cpu : Nat) : Prop :=
  cpu ∈ s.driver.online ∨ api = .notifier ∧ cpu ∈ s.suspended

end Power

/-! ## The nodes -/

namespace Cdev

structure Mirrors (has : Nat → Prop) (possible : Nat) (c : Cdev) : Prop where
  chrdev : c.chrdev = some (c.major, possible)
  matched : c.mismatched = false
  distinct : c.nodes.Nodup
  mem : ∀ node, node ∈ c.nodes ↔ node.1 = c.major ∧ has node.2

variable {c : Cdev} {has : Nat → Prop} {possible : Nat}

theorem Mirrors.congr (mirrors : c.Mirrors has possible) {has' : Nat → Prop}
    (same : ∀ cpu, has' cpu ↔ has cpu) : c.Mirrors has' possible where
  chrdev := mirrors.chrdev
  matched := mirrors.matched
  distinct := mirrors.distinct
  mem node := by rw [mirrors.mem, same]

theorem Mirrors.create (mirrors : c.Mirrors has possible) {cpu : Nat} (absent : ¬has cpu) :
    (msrDeviceCreate (.ok ()) cpu c).2.Mirrors (fun other => other = cpu ∨ has other)
      possible where
  chrdev := mirrors.chrdev
  matched := mirrors.matched
  distinct := by
    apply List.nodup_cons.mpr
    constructor
    · intro member
      exact absent ((mirrors.mem _).mp member).2
    · exact mirrors.distinct
  mem node := by
    change node ∈ (c.major, cpu) :: c.nodes ↔ _
    rw [List.mem_cons, mirrors.mem, Prod.ext_iff]
    exact and_or_left.symm

theorem Mirrors.refuse (mirrors : c.Mirrors has possible) (err : ErrorCode) (cpu : Nat) :
    (msrDeviceCreate (.error err) cpu c).2.Mirrors has possible :=
  ⟨mirrors.chrdev, mirrors.matched, mirrors.distinct, mirrors.mem⟩

theorem Mirrors.destroy (mirrors : c.Mirrors has possible) (cpu : Nat) :
    (msrDeviceDestroy cpu c).Mirrors (fun other => other ≠ cpu ∧ has other) possible where
  chrdev := mirrors.chrdev
  matched := mirrors.matched
  distinct := mirrors.distinct.filter _
  mem node := by
    change node ∈ c.nodes.filter _ ↔ node.1 = c.major ∧ _
    rw [List.mem_filter, mirrors.mem, decide_eq_true_eq, ne_eq, Prod.ext_iff]
    by_cases major : node.1 = c.major <;> simp [major, and_comm]

theorem Mirrors.serving (mirrors : c.Mirrors has possible) {cpus : List Nat}
    (covered : ∀ cpu, has cpu → cpu ∈ cpus) : c.Serving cpus possible where
  chrdev := mirrors.chrdev
  matched := mirrors.matched
  nodes node member := by
    obtain ⟨major, served⟩ := (mirrors.mem node).mp member
    exact ⟨major, covered _ served⟩

theorem Mirrors.starts (mirrors : c.Mirrors has possible) {device : Nat → Except ErrorCode Unit}
    {cpus : List Nat} {c' : Cdev}
    (started : Starts (fun cpu => msrDeviceCreate (device cpu) cpu) cpus c c')
    (distinct : cpus.Nodup) (absent : ∀ cpu ∈ cpus, ¬has cpu) :
    c'.Mirrors (fun cpu => cpu ∈ cpus ∨ has cpu) possible := by
  induction started generalizing has with
  | nil => exact mirrors.congr (by simp)
  | @cons cpu cpus c c₁ c' first rest ih =>
      obtain ⟨unseen, distinct⟩ := List.nodup_cons.mp distinct
      have created : (device cpu).isOk = true :=
        (msrDeviceCreate_ok (device cpu) cpu c).mp (congrArg Prod.fst first)
      obtain ⟨⟨⟩, created⟩ := ok_of_isOk created
      have here := mirrors.create (absent cpu List.mem_cons_self)
      rw [created] at first
      rw [first] at here
      apply (ih here distinct _).congr
      · intro other
        rw [List.mem_cons, or_assoc, or_left_comm]
      · rintro other member (rfl | served)
        · exact unseen member
        · exact absent other (List.mem_cons_of_mem _ member) served

end Cdev

theorem createDevices_starts {device : Nat → Except ErrorCode Unit} {cpus : List Nat}
    (ok : ∀ cpu ∈ cpus, (device cpu).isOk = true) (err : Int) (c : Cdev) :
    Starts (fun cpu => msrDeviceCreate (device cpu) cpu) cpus c
      (createDevices device cpus err c).2 := by
  induction cpus generalizing err c with
  | nil => exact .nil c
  | cons cpu cpus ih =>
      obtain ⟨⟨⟩, created⟩ := ok_of_isOk (ok cpu List.mem_cons_self)
      rw [createDevices]
      apply Starts.cons
      · rw [created]
        rfl
      · rw [created]
        exact ih (fun other member => ok other (List.mem_cons_of_mem _ member)) _ _

namespace Power

structure Consistent (api : Hotplug) (s : Power) : Prop where
  tracked : s.driver.Tracked
  hotplug : s.driver.hotplug = true
  apart : ∀ cpu ∈ s.driver.online, cpu ∉ s.suspended
  nodes : s.driver.safe.Mirrors (s.Served api) s.driver.possible

variable {api : Hotplug} {s : Power}

theorem Consistent.become (consistent : s.Consistent api) {safe : Cdev}
    {online suspended : List Nat} (apart : ∀ cpu ∈ online, cpu ∉ suspended)
    (nodes : safe.Mirrors (fun cpu => cpu ∈ online ∨ api = .notifier ∧ cpu ∈ suspended)
      s.driver.possible) :
    Consistent api ⟨{ s.driver with safe := safe, online := online }, suspended⟩ where
  tracked := ⟨consistent.tracked.batch, consistent.tracked.allowlist, consistent.tracked.version⟩
  hotplug := consistent.hotplug
  apart := apart
  nodes := nodes

theorem Consistent.asleep {cpuhp : Cpuhp} (consistent : s.Consistent (.state cpuhp))
    {suspended : List Nat} (apart : ∀ cpu ∈ s.driver.online, cpu ∉ suspended) :
    Consistent (.state cpuhp) ⟨s.driver, suspended⟩ := by
  apply consistent.become apart
  apply consistent.nodes.congr
  intro cpu
  simp [Served]

theorem Consistent.up (consistent : s.Consistent api) {cpu : Nat}
    (down : cpu ∉ s.driver.online ∧ cpu ∉ s.suspended) (outcome : Except ErrorCode Unit)
    (boots : Bool) : Consistent api ⟨s.driver.cpuEvent (.up cpu outcome boots), s.suspended⟩ := by
  rw [Driver.cpuEvent, Driver.hear_eq consistent.hotplug]
  cases outcome with
  | error err =>
      dsimp only [msrClassCpuCallback, msrDeviceCreate, Cdev.deviceCreate]
      rw [if_pos (ne_of_lt err.2)]
      exact consistent.become consistent.apart (consistent.nodes.refuse err cpu)
  | ok =>
      have absent : ¬s.Served api cpu := by simp [Served, down]
      have created := consistent.nodes.create absent
      dsimp only [msrClassCpuCallback]
      rw [if_neg (not_not.mpr ((Cdev.msrDeviceCreate_ok _ cpu s.driver.safe).mpr rfl))]
      cases boots with
      | true =>
          apply consistent.become
          · intro other member
            rcases List.mem_cons.mp member with rfl | online
            · exact down.2
            · exact consistent.apart other online
          · apply created.congr
            intro other
            rw [List.mem_cons, or_assoc]
            rfl
      | false =>
          rw [if_neg Bool.false_ne_true, Driver.hear_eq (by exact consistent.hotplug)]
          apply consistent.become consistent.apart
          apply (created.destroy cpu).congr
          intro other
          by_cases same : other = cpu
          · simp [same, down]
          · simp [same, Served]

theorem Consistent.down (consistent : s.Consistent api) {cpu : Nat}
    (online : cpu ∈ s.driver.online) :
    Consistent api ⟨s.driver.cpuEvent (.down cpu), s.suspended⟩ := by
  have awake := consistent.apart cpu online
  rw [Driver.cpuEvent, Driver.hear_eq consistent.hotplug]
  apply consistent.become
  · intro other member
    exact consistent.apart other (List.mem_of_mem_filter member)
  · apply (consistent.nodes.destroy cpu).congr
    intro other
    by_cases same : other = cpu
    · simp [same, awake]
    · simp [same, Served]

theorem Consistent.suspend (consistent : s.Consistent api) {cpu : Nat}
    (online : cpu ∈ s.driver.online) : (s.event api (.suspend cpu)).Consistent api := by
  have apart : ∀ other ∈ s.driver.online.filter (· ≠ cpu), other ∉ cpu :: s.suspended := by
    intro other member
    obtain ⟨before, different⟩ := List.mem_filter.mp member
    rw [List.mem_cons, not_or]
    exact ⟨of_decide_eq_true different, consistent.apart other before⟩
  cases api with
  | notifier =>
      rw [event, Driver.suspend, Driver.hear_eq consistent.hotplug]
      apply consistent.become apart
      apply consistent.nodes.congr
      intro other
      by_cases same : other = cpu
      · simp [same, Served, online]
      · simp [same, Served]
  | state cpuhp =>
      apply (consistent.down online).asleep
      rw [Driver.cpuEvent, Driver.hear_eq consistent.hotplug]
      exact apart

theorem Consistent.resume (consistent : s.Consistent api) {cpu : Nat}
    (suspended : cpu ∈ s.suspended) (outcome : Except ErrorCode Unit) (boots : Bool) :
    (s.event api (.resume cpu outcome boots)).Consistent api := by
  have down : cpu ∉ s.driver.online := fun online => consistent.apart cpu online suspended
  have apart : ∀ other ∈ s.driver.online, other ∉ s.suspended.filter (· ≠ cpu) :=
    fun other online member => consistent.apart other online (List.mem_of_mem_filter member)
  cases api with
  | notifier =>
      rw [event, Driver.resume, Driver.hear_eq consistent.hotplug]
      cases boots with
      | true =>
          apply consistent.become
          · intro other member
            rcases List.mem_cons.mp member with rfl | online
            · simp
            · exact apart other online
          · apply consistent.nodes.congr
            intro other
            by_cases same : other = cpu
            · simp [same, Served, suspended]
            · simp [same, Served]
      | false =>
          rw [if_neg Bool.false_ne_true, Driver.hear_eq (by exact consistent.hotplug)]
          apply consistent.become apart
          apply (consistent.nodes.destroy cpu).congr
          intro other
          by_cases same : other = cpu
          · simp [same, down]
          · simp [same, Served]
  | state cpuhp =>
      exact (consistent.asleep apart).up ⟨down, by simp⟩ outcome boots

/-- The step lemma. -/
theorem Consistent.step (consistent : s.Consistent api) {s' : Power} (step : Step api s s') :
    s'.Consistent api := by
  cases step with
  | event event possible =>
      match event with
      | .hotplug (.up cpu outcome boots) => exact consistent.up possible outcome boots
      | .hotplug (.down cpu) => exact consistent.down possible
      | .suspend cpu => exact consistent.suspend possible
      | .resume cpu outcome boots => exact consistent.resume possible outcome boots

theorem Consistent.running (consistent : s.Consistent api) (awake : s.suspended = []) :
    s.driver.Running where
  toTracked := consistent.tracked
  hotplug := consistent.hotplug
  safe := by
    apply consistent.nodes.serving
    intro cpu served
    simpa [Served, awake] using served

end Power

section Load

variable {api : Hotplug} {d : Driver} {o : LoadOutcomes}

theorem Cdev.Serving.mirrors {c : Cdev} {possible : Nat} (serving : c.Serving [] possible) :
    c.Mirrors (fun _ => False) possible where
  chrdev := serving.chrdev
  matched := serving.matched
  distinct := by rw [serving.no_nodes]; exact List.nodup_nil
  mem node := by simp [serving.no_nodes]

theorem Driver.Started.consistent (started : d.Started) (distinct : d.online.Nodup) {safe : Cdev}
    (starts : Starts (fun cpu => msrDeviceCreate (o.device cpu) cpu) d.online d.safe safe)
    (hotplugFailed : Bool) :
    Power.Consistent api
      ⟨{ d with safe := safe, hotplug := true, hotplugFailed := hotplugFailed }, []⟩ where
  tracked := ⟨started.tracked.batch, started.tracked.allowlist, started.tracked.version⟩
  hotplug := rfl
  apart _ _ := List.not_mem_nil
  nodes := by
    apply (started.safe.mirrors.starts starts distinct fun _ _ => not_false).congr
    intro cpu
    simp [Power.Served]

theorem msrInit_reaches {batch allowlist version safe : Int} {possible : Nat} {online : List Nat}
    (loaded : ((Driver.loaded batch allowlist version safe possible online).msrInit api o).1 = 0) :
    o.batch.Succeed ∧ o.allowlist.Succeed ∧ o.version.Succeed ∧ o.chrdev.isOk = true ∧
      o.cls.isOk = true := by
  by_cases batchSucceeds : o.batch.Succeed
  case neg =>
    obtain ⟨err, c, init, nonzero, -⟩ := cdevInit_fails (Cdev.idle_loaded batch) batchSucceeds
    rw [Driver.msrInit, Driver.loaded, msrbatchInit, init] at loaded
    dsimp only at loaded
    rw [if_pos nonzero] at loaded
    exact absurd loaded nonzero
  obtain ⟨c, initBatch, -⟩ := cdevInit_succeeds (Cdev.idle_loaded batch) rfl batchSucceeds
  by_cases allowlistSucceeds : o.allowlist.Succeed
  case neg =>
    obtain ⟨err, c', init, nonzero, -⟩ :=
      cdevInit_fails (Cdev.idle_loaded allowlist) allowlistSucceeds
    rw [Driver.msrInit, Driver.loaded, msrbatchInit, initBatch] at loaded
    dsimp only at loaded
    rw [if_neg (not_not.mpr rfl), msrAllowlistInit, init] at loaded
    dsimp only at loaded
    rw [if_pos nonzero] at loaded
    exact absurd loaded nonzero
  by_cases versionSucceeds : o.version.Succeed
  case neg =>
    obtain ⟨c', init, -⟩ := cdevInit_succeeds (Cdev.idle_loaded allowlist) rfl allowlistSucceeds
    obtain ⟨err, c'', initVersion, nonzero, -⟩ :=
      cdevInit_fails (Cdev.idle_loaded version) versionSucceeds
    rw [Driver.msrInit, Driver.loaded, msrbatchInit, initBatch] at loaded
    dsimp only at loaded
    rw [if_neg (not_not.mpr rfl), msrAllowlistInit, init] at loaded
    dsimp only at loaded
    rw [if_neg (not_not.mpr rfl), msrVersionInit, initVersion] at loaded
    dsimp only at loaded
    rw [if_pos nonzero] at loaded
    exact absurd loaded nonzero
  refine ⟨batchSucceeds, allowlistSucceeds, versionSucceeds, ?_⟩
  obtain ⟨d, same, ready, initial, -⟩ := Driver.msrInit_ready api batch allowlist version safe
    possible online batchSucceeds allowlistSucceeds versionSucceeds
  rw [same, Driver.initSafe, initial] at loaded
  cases chrdev : o.chrdev with
  | error err =>
      rw [chrdev, Cdev.registerChrdev] at loaded
      dsimp only at loaded
      rw [if_pos err.2] at loaded
      exact absurd loaded (by decide : -EBUSY ≠ 0)
  | ok allocated =>
      cases cls : o.cls with
      | ok => exact ⟨rfl, rfl⟩
      | error err =>
          obtain ⟨ret, registered, notNegative, -⟩ :=
            (Cdev.loaded safe).registerChrdev_ok d.possible allocated
          rw [chrdev, registered, cls] at loaded
          dsimp only at loaded
          rw [if_neg notNegative, Cdev.classCreate] at loaded
          dsimp only at loaded
          rw [if_pos (ne_of_lt err.2)] at loaded
          exact absurd loaded (ne_of_lt err.2)

theorem msrInit_consistent {batch allowlist version safe : Int} {possible : Nat}
    {online : List Nat} (distinct : online.Nodup) (noticed : ¬o.Overlooks api safe online)
    (loaded : ((Driver.loaded batch allowlist version safe possible online).msrInit api o).1 = 0) :
    Power.Consistent api
      ⟨((Driver.loaded batch allowlist version safe possible online).msrInit api o).2, []⟩ := by
  have reached := msrInit_reaches loaded
  obtain ⟨d₀, same, ready, initial, cpus₀⟩ := Driver.msrInit_ready api batch allowlist version safe
    possible online reached.1 reached.2.1 reached.2.2.1
  obtain ⟨err, d, same', started, cpus, value⟩ :=
    ready.initSafe_starts api initial reached.2.2.2.1 reached.2.2.2.2
  rw [cpus₀] at cpus
  rw [same, same'] at loaded ⊢
  subst cpus
  cases api with
  | notifier =>
      rw [Driver.initNodes] at loaded ⊢
      dsimp only at loaded ⊢
      by_cases told : (createDevices o.device d.online err d.safe).1 = 0
      swap
      · rw [if_pos told] at loaded
        exact absurd loaded told
      rw [if_neg (not_not.mpr told)]
      have tells := (createDevices_err o.device d.online err d.safe).mp told
      rw [value] at tells
      have heard : o.notifier.isOk = true := by
        by_contra refused
        exact noticed ⟨rfl, reached, tells, .inr (Bool.eq_false_of_not_eq_true refused)⟩
      have created : ∀ cpu ∈ d.online, (o.device cpu).isOk = true := by
        intro cpu member
        by_contra refused
        exact noticed
          ⟨rfl, reached, tells, .inl ⟨cpu, member, Bool.eq_false_of_not_eq_true refused⟩⟩
      rw [heard]
      exact started.consistent distinct (createDevices_starts created err d.safe) false
  | state cpuhp =>
      have answered := cpuhp.setup (fun cpu => msrDeviceCreate (o.device cpu) cpu) msrDeviceDestroy
        d.online d.safe (fun cpu => Cdev.msrDeviceCreate_le (o.device cpu) cpu)
      rw [Driver.initNodes_state] at loaded ⊢
      dsimp only at loaded ⊢
      generalize cpuhp.setupState (fun cpu => msrDeviceCreate (o.device cpu) cpu) msrDeviceDestroy
        d.online d.safe = answer at answered loaded ⊢
      cases answered with
      | installed state installed =>
          rw [if_neg (by simp)]
          exact started.consistent distinct installed d.hotplugFailed
      | refused err =>
          rw [if_pos err.2] at loaded
          exact absurd loaded (ne_of_lt err.2)
      | rolledBack err split began failed =>
          rw [if_pos err.2] at loaded
          exact absurd loaded (ne_of_lt err.2)

/-- From the moment `msr_init` returns 0, unless it overlooked an error, there is
one node for each processor that is online and, before Linux 4.10, for each that
is suspended, and no other, whatever processors come, go, sleep and resume, and
whichever of them fail to. Once none is suspended, `msr_exit` takes all back. -/
theorem nodes_follow_processors (api : Hotplug) (o : LoadOutcomes)
    (batch allowlist version safe : Int) (possible : Nat) {online : List Nat}
    (distinct : online.Nodup) (noticed : ¬o.Overlooks api safe online)
    (loaded : ((Driver.loaded batch allowlist version safe possible online).msrInit api o).1 = 0)
    {s : Power}
    (run : Relation.ReflTransGen (Power.Step api)
      ⟨((Driver.loaded batch allowlist version safe possible online).msrInit api o).2, []⟩ s) :
    s.driver.safe.nodes.Nodup ∧
      (∀ major cpu, (major, cpu) ∈ s.driver.safe.nodes ↔
        major = s.driver.safe.major ∧
          (cpu ∈ s.driver.online ∨ api = .notifier ∧ cpu ∈ s.suspended)) ∧
      (s.suspended = [] → (s.driver.msrExit api).Released) := by
  have consistent : s.Consistent api := by
    induction run with
    | refl => exact msrInit_consistent distinct noticed loaded
    | tail _ step ih => exact ih.step step
  refine ⟨consistent.nodes.distinct, ?_, ?_⟩
  · intro major cpu
    exact consistent.nodes.mem (major, cpu)
  · intro awake
    exact (consistent.running awake).msrExit api

end Load

theorem nodes_follow_processors_lost :
    let o : LoadOutcomes :=
      { batch := ⟨.ok ⟨240, by decide⟩, .ok (), .ok ()⟩
        allowlist := ⟨.ok ⟨239, by decide⟩, .ok (), .ok ()⟩
        version := ⟨.ok ⟨238, by decide⟩, .ok (), .ok ()⟩
        chrdev := .ok ⟨237, by decide⟩
        cls := .ok ()
        device := fun _ => .ok ()
        notifier := .ok () }
    let d := (Driver.loaded 0 0 0 237 2 [0, 1]).msrInit .notifier o
    let asleep := Power.event .notifier ⟨d.2, []⟩ (.suspend 1)
    let s := asleep.event .notifier (.resume 1 (.ok ()) false)
    (237, 1) ∈ asleep.driver.safe.nodes ∧ (237, 1) ∉ s.driver.safe.nodes ∧
      (s.driver.msrExit .notifier).Released := by
  intro o d asleep s
  have noticed : ¬o.Overlooks .notifier 237 [0, 1] := by
    rintro ⟨-, -, -, ⟨cpu, -, refused⟩ | refused⟩ <;> cases refused
  have slept : Power.Step .notifier ⟨d.2, []⟩ asleep :=
    .event (.suspend 1) (show 1 ∈ d.2.online by decide)
  have resumed : Power.Step .notifier asleep s :=
    .event (.resume 1 (.ok ()) false) (show 1 ∈ asleep.suspended by decide)
  obtain ⟨-, -, released⟩ := nodes_follow_processors .notifier o 0 0 0 237 2 (by decide) noticed
    (show d.1 = 0 by decide) (.tail (.single slept) resumed)
  exact ⟨by decide, by decide, released (by decide)⟩

end MsrSafe
