import EnaDriver.Lifecycle.ScalingGrant

/-!
# Queues that the device holds between calls

The host build keeps a state of its own.  Between two calls the device holds one
queue of each kind for each configured ring of a running netdev, and none
otherwise, as long as every start finds its rings configured and can configure
scaling.  A start whose scaling fails returns without taking its queues back.
-/

namespace EnaDriver.Lifecycle

open Support.Programs Support.Runs Datapath Admin

/-! ## What the device holds -/

def OneEach (entry : Option HwQueue × HeldQueues) : Prop :=
  ∃ hw cq sq, entry.1 = some hw ∧ entry.2 = ⟨[cq], [sq]⟩ ∧ cq.idx = hw.cqIdx ∧ sq.idx = hw.sqIdx ∧
    sq.cqIdx = hw.cqIdx

def Uses (m : Machine) (side : RingType) (q : Nat) : Prop :=
  m.dev.state = .running ∧ q < Host.nbQueues side m.dev

/-- The device holds one queue of each kind for each ring that is in use, and no
other queue. -/
structure Accounted (m : Machine) : Prop where
  used : ∀ side q, Uses m side q → OneEach (book side q m)
  unused : ∀ side q, ¬ Uses m side q → owned (some (side, q)) m.log = .none
  unowned : owned none m.log = .none

theorem Added.oneEach {before after : Option HwQueue × HeldQueues} (added : Added before after)
    (empty : before.2 = .none) : OneEach after := by
  obtain ⟨hw, cq, sq, stored, cqSame, sqSame, bound, whole⟩ := added
  refine ⟨hw, cq, sq, stored, ?_, cqSame, sqSame, bound⟩
  rw [whole, empty]
  rfl

/-- Destroying the queues of a ring leaves none. -/
theorem OneEach.dropped {side : RingType} {q : Nat} {m next : Machine} (one : OneEach (book side q m))
    (dropped : Dropped side q m next) : (book side q next).2 = .none := by
  obtain ⟨hw, cq, sq, stored, whole, cqSame, sqSame, _⟩ := one
  rw [dropped hw stored, whole, ← sqSame, ← cqSame]
  simp [HeldQueues.dropSq, HeldQueues.dropCq, HeldQueues.none]

/-- The invariant of the host build between calls. -/
structure Kept (m : Machine) : Prop where
  orderly : Orderly False .host m
  clean : Clean m.log
  ready : m.Ready
  accounted : Accounted m
  live : ∀ side q, Uses m side q → Live (book side q m)

variable {m : Machine}

theorem Kept.steady (kept : Kept m) : Steady kept.orderly.1.frame True m :=
  ⟨kept.orderly.1.unheld, kept.clean, fun _ => kept.ready⟩

theorem Accounted.idle (accounted : Accounted m) (idle : m.dev.state ≠ .running) (who : Owner) :
    owned who m.log = .none := by
  cases who with
  | none => exact accounted.unowned
  | some ring => exact accounted.unused ring.1 ring.2 fun uses => idle uses.1

theorem accounted_of_idle (idle : m.dev.state ≠ .running) (none : ∀ who, owned who m.log = .none) :
    Accounted m :=
  ⟨fun _ _ uses => absurd uses.1 idle, fun _ _ _ => none _, none _⟩

/-! ## Start -/

section Start

variable {env : Env} {m : Machine}

theorem bounds_nbQueues (m : Machine) (side : RingType) :
    bounds m.dev.nbRxQueues m.dev.nbTxQueues side = Host.nbQueues side m.dev := by
  cases side <;> rfl

theorem nbQueues_visitable (orderly : Orderly False .host m) (side : RingType) :
    Visitable orderly.1.frame side (bounds m.dev.nbRxQueues m.dev.nbTxQueues side) := by
  rw [bounds_nbQueues]
  exact orderly.1.visitable ((orderly.2 rfl).nbQueues_le side)

theorem cells_of_ringAt {frame : Frame} (fits : frame.Fits m) {side : RingType} {q : Nat} {r : Ring}
    (attached : ringAt side q m = some r) : (cells frame side)[q]? = some true := by
  cases side with
  | tx =>
    obtain ⟨port, stored, _⟩ := ringAt_tx.mp attached
    exact @cells_attached _ _ .tx _ fits port stored
  | rx =>
    obtain ⟨port, stored, _⟩ := ringAt_rx.mp attached
    exact @cells_attached _ _ .rx _ fits port stored

/-- What a start relies on: every queue of the netdev is configured and, where the
queues of several receive rings come up, scaling is configured. -/
structure Startable (env : Env) (m : Machine) : Prop where
  configured : ∀ side q, q < Host.nbQueues side m.dev → ∃ r, ringAt side q m = some r
  scaled : 1 < m.dev.nbRxQueues → ∀ up,
    enaNetdevStartRingsHw (driverExec env 1) m.dev.nbRxQueues m.dev.nbTxQueues m = .ok (0, up) →
      ∀ ret next, enaRssConfigure env (driverExec env 1) m.dev.nbRxQueues up = .ok (ret, next) →
        ret = 0

theorem book_setState (state : NetdevState) (side : RingType) (q : Nat) :
    book side q { m with dev := { m.dev with state := state } } = book side q m := by
  cases side <;> rfl

theorem nbQueues_setState (state : NetdevState) (side : RingType) (dev : Netdev) :
    Host.nbQueues side { dev with state := state } = Host.nbQueues side dev := by
  cases side <;> rfl

theorem hostStart_kept (prompt : Prompt env True) (kept : Kept m) (startable : Startable env m) :
    Returns (Host.enaNetdevStart env (driverExec env 1)) m fun _ next => Kept next := by
  have steady := kept.steady
  refine Returns.after (run_get m) ?_
  split
  · exact Returns.pure kept
  rename_i allowed
  have idle : m.dev.state ≠ .running := by
    intro running
    rw [running] at allowed
    exact allowed ⟨by decide, by decide⟩
  have empty := kept.accounted.idle idle
  have attached : ∀ side q, q < bounds m.dev.nbRxQueues m.dev.nbTxQueues side →
      (cells kept.orderly.1.frame side)[q]? = some true := by
    intro side q below
    rw [bounds_nbQueues] at below
    obtain ⟨r, there⟩ := startable.configured side q below
    exact cells_of_ringAt steady.unheld.fits there
  obtain ⟨ret, s₁, started, steady₁, spares₁, gained, restored⟩ := startRingsHw_owned prompt 1
    (nbQueues_visitable kept.orderly) kept.orderly.1.counts steady
  refine Returns.after started ?_
  split
  · -- the rollback has taken back every queue
    rename_i nonzero
    have idle₁ : s₁.dev.state ≠ .running := by
      rw [spares₁.dev]
      exact idle
    refine Returns.pure ⟨kept.orderly.of_unheld steady₁.unheld spares₁.dev, steady₁.clean,
      steady₁.ready trivial, accounted_of_idle idle₁ fun who => ?_, fun _ _ uses => absurd uses.1 idle₁⟩
    cases who with
    | none => exact spares₁.unowned.trans (empty none)
    | some ring =>
      by_cases below : ring.2 < bounds m.dev.nbRxQueues m.dev.nbTxQueues ring.1
      · exact (restored nonzero trivial attached ring.1 ring.2 below).trans (empty (some ring))
      · exact (spares₁.owned ring.1 ring.2 below).trans (empty (some ring))
  rename_i zero
  have scaled : Returns (onlyIf (1 < m.dev.nbRxQueues) 0
      (enaRssConfigure env (driverExec env 1) m.dev.nbRxQueues)) s₁ fun ret next =>
        ret = 0 ∧ Steady kept.orderly.1.frame True next ∧ Silent s₁ next := by
    unfold onlyIf
    split
    · rename_i many
      have few : m.dev.nbRxQueues ≤ kept.orderly.1.frame.numRx :=
        (kept.orderly.2 rfl).nbQueues_le .rx
      obtain ⟨_, next, ran, facts⟩ := (features_steady prompt 1).rssConfigure
        (fun _ below => Nat.lt_of_lt_of_le below few) s₁ steady₁
      rw [Decidable.not_not.mp zero] at started
      exact ⟨_, next, ran, startable.scaled many s₁ started _ next ran, facts⟩
    · exact Returns.pure ⟨rfl, steady₁, Silent.refl s₁⟩
  refine scaled.bind ?_
  rintro _ s₂ ⟨rfl, steady₂, silent₂⟩
  refine (linkUp_steady steady₂ true).bind ?_
  rintro _ s₃ ⟨steady₃, spares₃⟩
  have dev : SameDev m s₃ :=
    SameDev.trans _ _ _ (SameDev.trans _ _ _ spares₁.dev silent₂.dev) spares₃.dev
  have book₃ : ∀ side q, book side q s₃ = book side q s₁ := fun side q =>
    (spares₃.book id).trans (silent₂.book side q)
  have unowned₃ : ∀ who, owned who s₃.log = owned who s₁.log := by
    intro who
    cases who with
    | none => exact spares₃.unowned.trans (silent₂.grows.owned none)
    | some ring =>
      have same : (book ring.1 ring.2 s₃).2 = (book ring.1 ring.2 s₁).2 := by rw [book₃]
      exact same
  have below_of_uses : ∀ side q,
      Uses { s₃ with dev := { s₃.dev with state := .running } } side q →
        q < bounds m.dev.nbRxQueues m.dev.nbTxQueues side := by
    rintro side q ⟨_, below⟩
    rw [nbQueues_setState, dev] at below
    rw [bounds_nbQueues]
    exact below
  refine Returns.after rfl (Returns.pure ⟨?_, steady₃.clean, ?_, ⟨fun side q uses => ?_,
    fun side q unused => ?_, ?_⟩, fun side q uses => ?_⟩)
  · exact (kept.orderly.of_unheld steady₃.unheld dev).setState .running
  · exact ⟨(steady₃.ready trivial).queues, (steady₃.ready trivial).alive,
      (steady₃.ready trivial).unlocked⟩
  · have below := below_of_uses side q uses
    have gain := gained (Decidable.not_not.mp zero) side q below (attached side q below)
    rw [book_setState, book₃]
    exact (gain.2 trivial).oneEach (empty (some (side, q)))
  · have spared : ¬ Below m.dev.nbRxQueues m.dev.nbTxQueues side q := by
      intro below
      refine unused ⟨rfl, ?_⟩
      rw [nbQueues_setState, dev, ← bounds_nbQueues]
      exact below
    exact (unowned₃ _).trans ((spares₁.owned side q spared).trans (empty (some (side, q))))
  · exact (unowned₃ none).trans (spares₁.unowned.trans (empty none))
  · have below := below_of_uses side q uses
    rw [book_setState, book₃]
    exact (gained (Decidable.not_not.mp zero) side q below (attached side q below)).1

/-! ## Stop -/

theorem hostStop_kept (prompt : Prompt env True) (kept : Kept m) :
    Returns (Host.enaNetdevStop (driverExec env 1)) m fun _ next => Kept next := by
  have steady := kept.steady
  refine Returns.after (run_get m) ?_
  split
  · exact Returns.pure kept
  rename_i running
  have uses : ∀ side q, q < bounds m.dev.nbRxQueues m.dev.nbTxQueues side → Uses m side q := by
    intro side q below
    rw [bounds_nbQueues] at below
    exact ⟨Decidable.not_not.mp running, below⟩
  refine (clearRxChains_steady steady).bind ?_
  rintro _ s₁ ⟨steady₁, spares₁⟩
  have book₁ : ∀ side q, book side q s₁ = book side q m := fun _ _ => spares₁.book id
  refine (stopRingsHw_owned prompt 1 (nbQueues_visitable kept.orderly) steady₁ ?_).bind ?_
  · intro side q below _
    rw [book₁]
    exact kept.live side q (uses side q below)
  rintro _ s₂ ⟨rfl, steady₂, spares₂, dropped⟩
  refine (linkUp_steady steady₂ false).bind ?_
  rintro _ s₃ ⟨steady₃, spares₃⟩
  have dev : SameDev m s₃ :=
    SameDev.trans _ _ _ (SameDev.trans _ _ _ spares₁.dev spares₂.dev) spares₃.dev
  have idle : ({ s₃ with dev := { s₃.dev with state := .stopped } } : Machine).dev.state ≠ .running := by
    intro same
    cases same
  refine Returns.after rfl (Returns.pure ⟨?_, steady₃.clean, ?_, accounted_of_idle idle fun who => ?_,
    fun _ _ uses => absurd uses.1 idle⟩)
  · exact (kept.orderly.of_unheld steady₃.unheld dev).setState .stopped
  · exact ⟨(steady₃.ready trivial).queues, (steady₃.ready trivial).alive,
      (steady₃.ready trivial).unlocked⟩
  · cases who with
    | none =>
      exact spares₃.unowned.trans (spares₂.unowned.trans (spares₁.unowned.trans kept.accounted.unowned))
    | some ring =>
      have same : owned (some ring) s₃.log = owned (some ring) s₂.log :=
        spares₃.owned ring.1 ring.2 id
      refine same.trans ?_
      by_cases below : ring.2 < bounds m.dev.nbRxQueues m.dev.nbTxQueues ring.1
      · have one := kept.accounted.used ring.1 ring.2 (uses ring.1 ring.2 below)
        have attached : (cells kept.orderly.1.frame ring.1)[ring.2]? = some true := by
          obtain ⟨hw, _, _, stored, _⟩ := one
          obtain ⟨r, there, _⟩ := Option.map_eq_some_iff.mp stored
          exact cells_of_ringAt steady.unheld.fits there
        rw [← book₁] at one
        exact one.dropped (dropped trivial ring.1 ring.2 below attached)
      · have unused : ¬ Uses m ring.1 ring.2 := by
          intro used
          apply below
          rw [bounds_nbQueues]
          exact used.2
        refine (spares₂.owned ring.1 ring.2 below).trans ?_
        exact (spares₁.owned ring.1 ring.2 id).trans (kept.accounted.unused ring.1 ring.2 unused)

end Start

/-! ## Configuration -/

/-- A configuration step of the host build: a netdev that is not running stays so. -/
structure HostCalm (m next : Machine) : Prop where
  grows : Grows m next
  queues : next.adapter.queues = m.adapter.queues
  state : next.adapter.state = m.adapter.state
  idle : m.dev.state ≠ .running → next.dev.state ≠ .running

namespace HostCalm

theorem refl (m : Machine) : HostCalm m m := ⟨Grows.refl m, rfl, rfl, id⟩

theorem trans (first second third : Machine) (earlier : HostCalm first second)
    (later : HostCalm second third) : HostCalm first third where
  grows := Grows.trans _ _ _ earlier.grows later.grows
  queues := later.queues.trans earlier.queues
  state := later.state.trans earlier.state
  idle := fun idle => later.idle (earlier.idle idle)

theorem of_calm {m next : Machine} (calm : Calm m next) : HostCalm m next := by
  refine ⟨calm.grows, calm.queues, calm.state, fun idle => ?_⟩
  rw [calm.dev]
  exact idle

end HostCalm

section Configure

variable {env : Env} {m : Machine}

theorem hostConfigure_calm (nbRx nbTx : Nat) :
    Ends HostCalm (Host.enaNetdevConfigure env nbRx nbTx) := by
  have done : ∀ ret : Int, Ends HostCalm (pure ret : Driver Int) := Ends.pure HostCalm.refl
  refine Ends.bind HostCalm.trans (Ends.get HostCalm.refl) fun m => ?_
  refine Ends.ite (done _) (Ends.ite (done _) (Ends.ite (done _) ?_))
  refine Ends.bind HostCalm.trans (((configures_calm env).allocRingArrays nbRx nbTx).mono HostCalm.of_calm) fun ret => ?_
  refine Ends.ite (done _) (Ends.bind HostCalm.trans (Ends.update fun m => ?_) fun _ => done _)
  exact ⟨Grows.same rfl, rfl, rfl, fun _ same => nomatch same⟩

theorem hostQueueConfigure_calm (side : RingType) (q nbDesc : Nat) (alloc : Bool) :
    Ends HostCalm (Host.queueConfigure env side q nbDesc alloc) :=
  ((configures_calm env).hostQueueConfigure side q nbDesc alloc).mono HostCalm.of_calm

/-- A configuration of a netdev that is not running concerns no queue. -/
theorem Kept.configured (kept : Kept m) (idle : m.dev.state ≠ .running) {program : Driver Int}
    (runs : Returns program m fun _ next => Orderly False .host next) (calm : Ends HostCalm program) :
    Returns program m fun _ next => Kept next := by
  obtain ⟨ret, next, ran, orderly⟩ := runs
  have step := calm _ _ _ ran
  have after := step.idle idle
  refine ⟨ret, next, ran, orderly, step.grows.clean kept.clean, ⟨?_, ?_, orderly.1.admin⟩,
    accounted_of_idle after fun who => ?_, fun _ _ uses => absurd uses.1 after⟩
  · rw [step.queues]
    exact kept.ready.queues
  · rw [step.state]
    exact kept.ready.alive
  · exact (step.grows.owned who).trans (kept.accounted.idle idle who)

theorem hostConfigure_kept (kept : Kept m) {running : Bool} {nbRx nbTx : Nat}
    (followed : Followed False .host m (.configure running nbRx nbTx)) :
    Returns (Host.enaNetdevConfigure env nbRx nbTx) m fun _ next => Kept next := by
  by_cases state : m.dev.state = .running
  · refine Returns.after (run_get m) ?_
    rw [if_pos state]
    exact Returns.pure kept
  · refine kept.configured state (hostConfigure_returns kept.orderly ?_) (hostConfigure_calm nbRx nbTx)
    exact fun idle rx tx => followed ⟨idle, rx, tx⟩

theorem hostQueueConfigure_kept (kept : Kept m) (side : RingType) (q nbDesc : Nat) (alloc : Bool) :
    Returns (Host.queueConfigure env side q nbDesc alloc) m fun _ next => Kept next := by
  by_cases state : m.dev.state = .running
  · refine Returns.after (run_get m) ?_
    split
    · exact Returns.pure kept
    · exact Returns.pure kept
  · exact kept.configured state (hostQueueConfigure_returns kept.orderly side q nbDesc alloc)
      (hostQueueConfigure_calm side q nbDesc alloc)

end Configure

/-! ## Runs -/

def hostStep (env : Env) (m : Machine) (call : Call) : Except Fault Machine := do
  let (_, next) ← perform env (driverExec env 1) .host call m
  return next

/-- What the calls of a run rely on.  A run is made of configurations, starts and
stops. -/
def Prepared (env : Env) (m : Machine) : Call → Prop
  | .configure running nbRx nbTx => Followed False .host m (.configure running nbRx nbTx)
  | .start => Startable env m
  | .free => False
  | _ => True

section Runs

variable {env : Env} {m : Machine}

theorem perform_kept (prompt : Prompt env True) (kept : Kept m) {call : Call}
    (prepared : Prepared env m call) :
    Returns (perform env (driverExec env 1) .host call) m fun _ next => Kept next := by
  have result : ∀ {program : Driver Int}, Returns program m (fun _ next => Kept next) →
      Returns (do return (← program, Lost.none)) m fun _ next => Kept next :=
    fun returns => returns.bind fun _ _ kept => Returns.pure kept
  cases call with
  | configure running nbRx nbTx => exact result (hostConfigure_kept kept prepared)
  | rxqConfigure running q nbDesc alloc => exact result (hostQueueConfigure_kept kept .rx q nbDesc alloc)
  | txqConfigure running q nbDesc => exact result (hostQueueConfigure_kept kept .tx q nbDesc false)
  | start => exact result (hostStart_kept prompt kept prepared)
  | stop => exact result (hostStop_kept prompt kept)
  | free => exact absurd prepared id

theorem hostStep_kept (prompt : Prompt env True) (kept : Kept m) {call : Call}
    (prepared : Prepared env m call) : ∃ next, hostStep env m call = .ok next ∧ Kept next := by
  obtain ⟨out, next, ran, after⟩ := perform_kept prompt kept prepared
  refine ⟨next, ?_, after⟩
  unfold hostStep
  rw [ran]
  rfl

structure Unused (m : Machine) : Prop extends Unconfigured m where
  idle : m.dev.state ≠ .running
  clean : Clean m.log
  ready : m.Ready
  none : ∀ who, owned who m.log = .none

theorem Unused.kept (unused : Unused m) : Kept m :=
  ⟨unused.orderly .host, unused.clean, unused.ready, accounted_of_idle unused.idle unused.none,
    fun _ _ uses => absurd uses.1 unused.idle⟩

theorem Unused.run_kept (prompt : Prompt env True) (unused : Unused m) {calls : List Call}
    (prepared : Meets (hostStep env) (Prepared env) m calls) :
    ∃ last, run (hostStep env) m calls = .ok last ∧ Kept last :=
  run_invariant (Prepared env) Kept (fun _ _ holds ok => hostStep_kept prompt holds ok) unused.kept
    prepared

end Runs

/-! ## Small runs -/

def scalingQueues : Machine :=
  twoQueues.withAdapter (twoQueues.adapter.updateSettings fun s =>
    { s with attr := { s.attr with supportedFeatures := 2 ^ 10 + 2 ^ 12 + 2 ^ 18 } })

theorem scalingQueues_unused : Unused scalingQueues where
  tx := rfl
  rx := rfl
  dev := ⟨rfl, rfl⟩
  admin := rfl
  recover := rfl
  idle := by decide
  clean := Throughout.nil
  ready := ⟨rfl, by decide, rfl⟩
  none := fun _ => rfl

section Three

variable {m : Machine} (ran : run (hostStep .obliging) scalingQueues configureThree = .ok m)
include ran

end Three

end EnaDriver.Lifecycle
