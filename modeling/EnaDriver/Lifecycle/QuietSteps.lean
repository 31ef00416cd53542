import EnaDriver.Lifecycle.ArrayRuns
import EnaDriver.Lifecycle.PartialCalls
import EnaDriver.Lifecycle.RingQueues

/-!
# Steps that concern no queue

Configuration and release only allocate and free memory and mask interrupts, so
whenever they return, the log has grown by effects that concern no queue.  The
commands that configure scaling read and write features.  A refill, and clearing
partial frames, change a ring but not its hardware part.
-/

namespace EnaDriver.Lifecycle

open Support.Programs Datapath Admin

/-! ## Quiet growth of the log -/

/-- The log has grown by effects that concern no queue. -/
def Grows (m next : Machine) : Prop :=
  ∃ effects, (∀ effect ∈ effects, Quiet effect) ∧ next.log = m.log ++ effects

namespace Grows

variable {m next : Machine}

theorem same (log : next.log = m.log) : Grows m next :=
  ⟨[], (fun _ member => nomatch member), log.trans (List.append_nil _).symm⟩

theorem refl (m : Machine) : Grows m m := same rfl

theorem trans (first second third : Machine) (earlier : Grows first second)
    (later : Grows second third) : Grows first third := by
  obtain ⟨before, quietBefore, grown⟩ := earlier
  obtain ⟨after, quietAfter, grownAfter⟩ := later
  refine ⟨before ++ after, List.forall_mem_append.mpr ⟨quietBefore, quietAfter⟩, ?_⟩
  rw [grownAfter, grown, List.append_assoc]

theorem clean (grows : Grows m next) (clean : Clean m.log) : Clean next.log := by
  obtain ⟨effects, quiet, log⟩ := grows
  rw [log]
  exact (quiet_appended quiet m.log).2 clean

theorem owned (grows : Grows m next) (who : Owner) :
    Lifecycle.owned who next.log = Lifecycle.owned who m.log := by
  obtain ⟨effects, quiet, log⟩ := grows
  rw [log]
  exact (quiet_appended quiet m.log).1 who

end Grows

/-- A configuration step: the log has grown quietly, and the netdev, the admin queue
and the state of the adapter are as before. -/
structure Calm (m next : Machine) : Prop where
  grows : Grows m next
  dev : SameDev m next
  queues : next.adapter.queues = m.adapter.queues
  state : next.adapter.state = m.adapter.state

namespace Calm

theorem refl (m : Machine) : Calm m m := ⟨Grows.refl m, rfl, rfl, rfl⟩

theorem trans (first second third : Machine) (earlier : Calm first second)
    (later : Calm second third) : Calm first third where
  grows := Grows.trans _ _ _ earlier.grows later.grows
  dev := SameDev.trans _ _ _ earlier.dev later.dev
  queues := later.queues.trans earlier.queues
  state := later.state.trans earlier.state

end Calm

section Growth

variable {env : Env}

theorem calm_setRings (side : RingType) (array : Machine → List (Option (Port side))) :
    Ends Calm (modify fun m => setRings side (array m) m : Driver Unit) := by
  refine Ends.update fun m => ⟨Grows.same ?_, ?_, ?_, ?_⟩ <;> cases side <;> rfl

theorem configures_calm (env : Env) : Configures (Ends Calm) env where
  toLooks := Ends.looks Calm.refl Calm.trans
  get := Ends.get Calm.refl
  heap := by
    refine Ends.bind Calm.trans (Ends.get Calm.refl) fun m => ?_
    refine Ends.bind Calm.trans (Ends.update fun m => ⟨⟨_, ?_, rfl⟩, rfl, rfl, rfl⟩)
      fun _ => Ends.pure Calm.refl _
    exact List.forall_mem_singleton.mpr trivial
  count := by
    intro side n
    refine Ends.update fun m => ⟨Grows.same rfl, rfl, ?_, ?_⟩ <;> cases side <;> rfl
  array := fun side _ => calm_setRings side fun _ => _
  detach := fun side _ => calm_setRings side _
  attach := fun side _ _ _ _ _ _ _ _ => calm_setRings side _

theorem grows_modifyAdapter (change : Adapter → Adapter) : Ends Grows (modifyAdapter change) :=
  Ends.update fun _ => Grows.same rfl

theorem grows_record {effect : Effect} (quiet : Quiet effect) : Ends Grows (record effect) :=
  Ends.update fun _ => ⟨[effect], List.forall_mem_singleton.mpr quiet, rfl⟩

/-- A release records no effect that concerns a queue. -/
theorem releases_grow (env : Env) : Releases (Ends Grows) env where
  toLooks := Ends.looks Grows.refl Grows.trans
  get := Ends.get Grows.refl
  heap := (configures_calm env).heap.mono Calm.grows
  count := fun _ _ => grows_modifyAdapter _
  array := fun side n => ((configures_calm env).array side n).mono Calm.grows
  detach := fun side q => ((configures_calm env).detach side q).mono Calm.grows
  attach := fun side _ _ _ _ _ _ _ _ => (calm_setRings side _).mono Calm.grows
  settings := fun _ => grows_modifyAdapter _
  dmaAlloc := by
    refine Ends.bind Grows.trans (Ends.get Grows.refl) fun m => ?_
    refine Ends.bind Grows.trans (grows_record ?_) fun _ => Ends.pure Grows.refl _
    exact trivial
  dmaFree := fun buf => grows_record (show Quiet (.dmaFree buf) from trivial)
  vectors := grows_modifyAdapter _
  mask := fun value => grows_record (show Quiet (.regWrite32 _ value) from trivial)

theorem grows_releaseDevice (rss : Bool) : Ends Grows (releaseDevice rss) :=
  have steps := releases_grow .obliging
  steps.releaseDevice (steps.adminFini (grows_modifyAdapter _)) rss

end Growth

/-! ## Feature commands -/

structure Silent (m next : Machine) : Prop where
  dev : SameDev m next
  tx : next.tx = m.tx
  rx : next.rx = m.rx
  grows : Grows m next

namespace Silent

theorem refl (m : Machine) : Silent m m := ⟨rfl, rfl, rfl, Grows.refl m⟩

theorem trans (first second third : Machine) (earlier : Silent first second)
    (later : Silent second third) : Silent first third where
  dev := SameDev.trans _ _ _ earlier.dev later.dev
  tx := later.tx.trans earlier.tx
  rx := later.rx.trans earlier.rx
  grows := Grows.trans _ _ _ earlier.grows later.grows

theorem logged (m : Machine) {effects : List Effect} (quiet : ∀ effect ∈ effects, Quiet effect) :
    Silent m (m.logged effects) :=
  ⟨rfl, rfl, rfl, effects, quiet, rfl⟩

theorem ringAt {m next : Machine} (silent : Silent m next) (side : RingType) (q : Nat) :
    Admin.ringAt side q next = Admin.ringAt side q m := by
  unfold Admin.ringAt
  rw [silent.tx, silent.rx]

theorem book {m next : Machine} (silent : Silent m next) (side : RingType) (q : Nat) :
    Lifecycle.book side q next = Lifecycle.book side q m :=
  Prod.ext (congrArg (Option.map Ring.hw) (silent.ringAt side q)) (silent.grows.owned _)

end Silent

section Features

variable {frame : Frame} {reliable : Prop} {env : Env} {m : Machine}

theorem Steady.logged (steady : Steady frame reliable m) {effects : List Effect}
    (quiet : ∀ effect ∈ effects, Quiet effect) : Steady frame reliable (m.logged effects) where
  unheld := steady.unheld.logged _
  clean := (quiet_appended quiet m.log).2 steady.clean
  ready := fun sure => ⟨(steady.ready sure).queues, (steady.ready sure).alive, (steady.ready sure).unlocked⟩

theorem steady_logged_one (steady : Steady frame reliable m) {effect : Effect} (quiet : Quiet effect) :
    Steady frame reliable (m.logged [effect]) ∧ Silent m (m.logged [effect]) := by
  have every : ∀ other ∈ [effect], Quiet other := List.forall_mem_singleton.mpr quiet
  exact ⟨steady.logged every, Silent.logged m every⟩

theorem memory_steady (frame : Frame) (reliable : Prop) (env : Env) :
    Allocates (Keeps (Steady frame reliable) Silent) frame.Inside frame.Filled env where
  toLooks := Keeps.looks Silent.refl Silent.trans fun _ steady => steady.unheld.fits
  settings := by
    intro change
    refine Keeps.update fun m steady => ⟨⟨?_, steady.clean, fun sure => ?_⟩, rfl, rfl, rfl, Grows.same rfl⟩
    · exact steady.unheld.withAdapter rfl rfl rfl rfl
    · exact ⟨(steady.ready sure).queues, (steady.ready sure).alive, (steady.ready sure).unlocked⟩
  dmaAlloc := fun _ steady => ⟨_, _, rfl, steady_logged_one steady trivial⟩
  dmaFree := fun _ _ steady => ⟨_, _, rfl, steady_logged_one steady trivial⟩
  heap := fun _ steady => ⟨_, _, rfl, steady_logged_one steady trivial⟩

/-- A feature command concerns no queue. -/
theorem featureReq_steady (prompt : Prompt env reliable) (nesting : Nat) (ctrl : List Nat)
    {req : AdminReq} (feature : FeatureReq req) :
    Keeps (Steady frame reliable) Silent (driverExec env nesting ctrl req) := by
  intro m steady
  rcases exec_prompt prompt steady.unheld.admin nesting ctrl req with
    ⟨ret, _, _, ran⟩ | ⟨aq, status, response, _, alive, _, _, ran⟩
  · exact ⟨_, m, ran, steady, Silent.refl m⟩
  refine ⟨_, _, ran, steady.answered alive ⟨fun opcode => ?_, fun opcode => ?_⟩, rfl, rfl, rfl,
    aq.restartEffects ++ [_, _], List.forall_mem_append.mpr ⟨?_, ?_⟩, rfl⟩
  · rcases feature with other | other <;> rw [opcode] at other <;> cases other
  · rcases feature with other | other <;> rw [opcode] at other <;> cases other
  · exact quiet_regWrites (restartEffects_writes aq)
  · exact List.forall_mem_cons.mpr ⟨feature, List.forall_mem_singleton.mpr trivial⟩

theorem features_steady (prompt : Prompt env reliable) (nesting : Nat) :
    Negotiates (Keeps (Steady frame reliable) Silent) frame.Inside frame.Filled env
      (driverExec env nesting) where
  toAllocates := memory_steady frame reliable env
  command := fun ctrl _ feature => featureReq_steady prompt nesting ctrl feature

/-! ## Changes of a ring outside its hardware part -/

def NoRing : RingType → Nat → Prop := fun _ _ => False

/-- A step after which the log is in order and no ring has other queues. -/
theorem Steady.spared {next : Machine} (steady : Steady frame reliable m)
    (held : Unheld frame false next) (grows : Grows m next)
    (adapter : next.adapter.queues = m.adapter.queues ∧ next.adapter.state = m.adapter.state) :
    Steady frame reliable next := by
  refine ⟨held, grows.clean steady.clean, fun sure => ⟨?_, ?_, held.admin⟩⟩
  · rw [adapter.1]
    exact (steady.ready sure).queues
  · rw [adapter.2]
    exact (steady.ready sure).alive

theorem hwAt_updateRx {port filled : RxPort} {q : Nat} (present : m.rx[q]? = some (some port))
    (same : filled.ring.hw = port.ring.hw) (side : RingType) (i : Nat) :
    hwAt side i (m.updateRx q fun _ => filled) = hwAt side i m := by
  cases side with
  | tx => rfl
  | rx =>
    change ((m.rx.modify q _)[i]?.bind _).map Ring.hw = ((m.rx[i]?).bind _).map Ring.hw
    rw [List.getElem?_modify]
    by_cases here : q = i
    · subst here
      simp [present, same]
    · simp [here]

theorem refillFirst_steady (env : Env) (counts : cells frame .rx = [] ∨ counted frame .rx ≠ 0)
    (steady : Steady frame reliable m) :
    Returns (Unikraft.refillFirst env) m fun _ next =>
      Steady frame reliable next ∧ Spares NoRing m next := by
  obtain ⟨_, next, ran, held, dev⟩ : Returns (Unikraft.refillFirst env) m _ :=
    refillFirst_keeps counts m steady.unheld
  obtain ⟨_, other, same, outcome⟩ := refillFirst_returns env counts steady.unheld
  rw [ran] at same
  cases same
  refine ⟨_, next, ran, ?_⟩
  rcases outcome with rfl | ⟨port, filled, events, present, ⟨_, _, _, _, posted⟩, rfl⟩
  · exact ⟨steady, Spares.refl _⟩
  have quiet : ∀ effect ∈ [Effect.ring .rx 0 events], Quiet effect := by
    intro effect member
    rw [List.mem_singleton.mp member]
    trivial
  refine ⟨steady.spared held ⟨_, quiet, rfl⟩ ⟨rfl, rfl⟩, Spares.logged quiet rfl dev rfl fun side i => ?_⟩
  have hw : filled.ring.hw = port.ring.hw := by rw [posted]
  have logged : hwAt side i ((m.updateRx 0 fun _ => filled).logged [.ring .rx 0 events]) =
      hwAt side i (m.updateRx 0 fun _ => filled) :=
    congrArg (Option.map Ring.hw) (ringAt_logged _)
  exact logged.trans (hwAt_updateRx present hw side i)

theorem hwAt_clearRxChains (m : Machine) (side : RingType) (q : Nat) :
    hwAt side q { m with rx := m.rx.map (Option.map RxPort.clearChain) } = hwAt side q m := by
  cases side with
  | tx => rfl
  | rx =>
    change (((m.rx.map (Option.map RxPort.clearChain))[q]?).bind _).map Ring.hw =
      ((m.rx[q]?).bind _).map Ring.hw
    rw [List.getElem?_map]
    cases m.rx[q]? with
    | none => rfl
    | some cell => cases cell <;> rfl

theorem clearRxChains_steady (steady : Steady frame reliable m) :
    Returns enaNetdevClearRxChains m fun _ next =>
      Steady frame reliable next ∧ Spares NoRing m next := by
  obtain ⟨_, next, ran, held, dev⟩ := clearRxChains_keeps m steady.unheld
  refine ⟨_, next, ran, ?_⟩
  cases ran
  refine ⟨steady.spared held (Grows.same rfl) ⟨rfl, rfl⟩, ?_⟩
  exact @Spares.logged [] _ _ _ (fun _ member => nomatch member) (List.append_nil _).symm rfl rfl
    fun side q => hwAt_clearRxChains m side q

/-- The link flag concerns no queue. -/
theorem linkUp_steady (steady : Steady frame reliable m) (up : Bool) :
    Returns (modifyAdapter fun a => { a with linkUp := up }) m fun _ next =>
      Steady frame reliable next ∧ Spares NoRing m next := by
  refine ⟨(), _, rfl, steady.spared ?_ (Grows.same rfl) ⟨rfl, rfl⟩, ?_⟩
  · exact steady.unheld.withAdapter rfl rfl rfl rfl
  · exact @Spares.logged [] _ _ _ (fun _ member => nomatch member) (List.append_nil _).symm rfl rfl
      fun side q => congrArg (Option.map Ring.hw) (ringAt_withAdapter _)

end Features

end EnaDriver.Lifecycle
