import EnaDriver.Lifecycle.QuietSteps

/-!
# Destroy commands over whole runs

The Unikraft build destroys the queues of every attached ring in each stop and each
teardown, whether the ring has queues or not.  The destroy commands are in order as
long as stop and teardown come after a start that succeeded, or find no ring, and
the netdev core reports a started device as running.
-/

namespace EnaDriver.Lifecycle

open Support.Programs Support.Runs Datapath Admin

variable {call : Call} {frame : Frame}

/-! ## Calls -/

/-- The device holds the queues that each ring below the count stores. -/
def AllLive (m : Machine) : Prop :=
  ∀ side q hw, q < numRings side m.adapter → hwAt side q m = some hw → Live (book side q m)

/-- No ring is attached below the count. -/
def Bare (m : Machine) : Prop := ∀ side q, q < numRings side m.adapter → ringAt side q m = none

theorem Bare.allLive {m : Machine} (bare : Bare m) : AllLive m := by
  intro side q hw below there
  rw [hwAt, bare side q below] at there
  cases there

section Calls

variable {env : Env} {reliable : Prop} {options : Options} {m : Machine}

theorem attached_of_hwAt (fits : frame.Fits m) {side : RingType} {q : Nat}
    {hw : HwQueue} (there : hwAt side q m = some hw) :
    (cells frame side)[q]? = some true := by
  obtain ⟨r, found, _⟩ := Option.map_eq_some_iff.mp there
  obtain ⟨port, stored⟩ : ∃ port : Port side, (rings side m)[q]? = some (some port) := by
    cases side with
    | tx =>
      obtain ⟨port, stored, _⟩ := ringAt_tx.mp found
      exact ⟨port, stored⟩
    | rx =>
      obtain ⟨port, stored, _⟩ := ringAt_rx.mp found
      exact ⟨port, stored⟩
  exact cells_attached fits stored

/-- The bounds of a start and a stop of the Unikraft build. -/
theorem bounds_counted (fits : frame.Fits m) (side : RingType) :
    bounds m.adapter.numRxRings m.adapter.numTxRings side = counted frame side := by
  rw [← fits_counted fits side]
  cases side <;> rfl

theorem bounds_visitable (fits : frame.Fits m) (side : RingType) :
    Visitable frame side (bounds m.adapter.numRxRings m.adapter.numTxRings side) :=
  .inr (Nat.le_of_eq (bounds_counted fits side))

/-- A start that succeeds leaves every attached ring with live queues. -/
theorem unikraftStart_owned (prompt : Prompt env False) (sound : Sound False m) (clean : Clean m.log) :
    Returns (Unikraft.enaNetdevStart env (driverExec env 1) options) m fun ret next =>
      Sound False next ∧ Clean next.log ∧ (ret = 0 → AllLive next) := by
  have steady : Steady sound.frame False m := ⟨sound.unheld, clean, False.elim⟩
  have fits := steady.unheld.fits
  refine Returns.after (adapter_run m) ?_
  refine (startRingsHw_owned prompt 1 (bounds_visitable fits) sound.counts steady).bind ?_
  rintro ret s₁ ⟨steady₁, _, gained, _⟩
  split
  · rename_i nonzero
    exact Returns.pure ⟨sound.of_unheld steady₁.unheld, steady₁.clean, fun zero => absurd zero nonzero⟩
  rename_i zero
  refine (refillFirst_steady env (sound.counts .rx) steady₁).bind ?_
  rintro _ s₂ ⟨steady₂, spares₂⟩
  refine Returns.after (adapter_run s₂) ?_
  have scaled : Keeps (Steady sound.frame False) Silent
      (onlyIf (options.rss = true ∧ 1 < s₂.adapter.numRxRings) 0
        (enaRssConfigure env (driverExec env 1) s₂.adapter.numRxRings)) :=
    (features_steady prompt 1).onlyIf ((features_steady prompt 1).rssConfigure fun _ below =>
      Nat.lt_of_lt_of_eq below steady₂.unheld.fits.numRx)
  refine (scaled s₂ steady₂).bind fun _ s₃ facts => ?_
  obtain ⟨steady₃, silent₃⟩ := facts
  refine (linkUp_steady steady₃ true).bind ?_
  rintro _ s₄ ⟨steady₄, spares₄⟩
  have after : Sound False s₄ := sound.of_unheld steady₄.unheld
  refine Returns.pure ⟨after, steady₄.clean, fun _ side q hw below there => ?_⟩
  have attached := attached_of_hwAt steady₄.unheld.fits there
  rw [spares₄.book id, silent₃.book, spares₂.book id]
  refine (gained (Decidable.not_not.mp zero) side q ?_ attached).1
  rw [bounds_counted fits side, ← fits_counted steady₄.unheld.fits side]
  exact below

/-- A stop of live rings issues its destroy commands in order. -/
theorem unikraftStop_owned (prompt : Prompt env False) (sound : Sound False m) (clean : Clean m.log)
    (live : AllLive m) :
    Returns (Unikraft.enaNetdevStop (driverExec env 1)) m fun _ next =>
      Sound False next ∧ Clean next.log := by
  have steady : Steady sound.frame False m := ⟨sound.unheld, clean, False.elim⟩
  refine (linkUp_steady steady false).bind ?_
  rintro _ s₁ ⟨steady₁, spares₁⟩
  refine (clearRxChains_steady steady₁).bind ?_
  rintro _ s₂ ⟨steady₂, spares₂⟩
  have spares : Spares NoRing m s₂ := Spares.trans _ _ _ spares₁ spares₂
  refine Returns.after (adapter_run s₂) ?_
  refine (stopRingsHw_owned prompt 1 (bounds_visitable steady₂.unheld.fits) steady₂ ?_).mono ?_
  · intro side q below attached
    rw [bounds_counted steady₂.unheld.fits side, ← fits_counted steady.unheld.fits side] at below
    rw [spares.book id]
    exact live side q _ below (hwAt_ringOf False attached steady.unheld.fits)
  · rintro ret next ⟨_, steady₃, _⟩
    exact ⟨sound.of_unheld steady₃.unheld, steady₃.clean⟩

/-- A queue configuration of a running device changes nothing. -/
theorem busyQueueConfigure_returns (side : RingType) (q nbDesc : Nat) (alloc : Bool) :
    Returns (Unikraft.queueConfigure env options true side q nbDesc alloc) m fun _ next => next = m := by
  refine Returns.after (adapter_run m) ?_
  split
  · exact Returns.pure rfl
  · exact Returns.pure rfl

end Calls

/-! ## Sessions -/

structure Session where
  machine : Machine
  started : Bool

def startedAfter (started : Bool) (ret : Int) : Call → Bool
  | .start => decide (ret = 0)
  | .stop => false
  | .free => false
  | _ => started

def sessionStep (env : Env) (options : Options) (s : Session) (call : Call) :
    Except Fault Session := do
  let (out, next) ← perform env (driverExec env 1) (.unikraft options) call s.machine
  return ⟨next, startedAfter s.started out.1 call⟩

/-- What the calls of a session keep to: the core reports a started device as
running, accepted configurations can be followed by the arrays, and stop and
teardown find a started device or no ring. -/
def InOrder (options : Options) (s : Session) : Call → Prop
  | .configure running nbRx nbTx => (s.started = true → running = true) ∧
      Followed False (.unikraft options) s.machine (.configure running nbRx nbTx)
  | .rxqConfigure running _ _ _ => s.started = true → running = true
  | .txqConfigure running _ _ => s.started = true → running = true
  | .start => True
  | .stop => s.started = true ∨ Bare s.machine
  | .free => s.started = true ∨ Bare s.machine

structure Session.Owned (s : Session) : Prop where
  sound : Sound False s.machine
  clean : Clean s.machine.log
  live : s.started = true → AllLive s.machine

section Sessions

variable {env : Env} {options : Options} {s : Session}

/-- A call whose program only configures, and changes nothing on a started device. -/
theorem owned_of_calm {program : Driver Int} (owned : s.Owned)
    (runs : Returns program s.machine fun _ next => Orderly False (.unikraft options) next)
    (calm : Ends Calm program)
    (idle : s.started = true → Returns program s.machine fun _ next => next = s.machine)
    (same : ∀ ret, startedAfter s.started ret call = s.started) :
    Returns (do return (← program, Lost.none)) s.machine fun out next =>
      Session.Owned ⟨next, startedAfter s.started out.1 call⟩ := by
  obtain ⟨ret, next, ran, orderly⟩ := runs
  refine Returns.after ran (Returns.pure ⟨orderly.1, (calm _ _ _ ran).grows.clean owned.clean, ?_⟩)
  intro started
  rw [same] at started
  obtain ⟨_, other, again, unchanged⟩ := idle started
  rw [ran] at again
  cases again
  rw [unchanged]
  exact owned.live started

theorem perform_owned (prompt : Prompt env False) (owned : s.Owned)
    (inOrder : InOrder options s call) :
    Returns (perform env (driverExec env 1) (.unikraft options) call) s.machine fun out next =>
      Session.Owned ⟨next, startedAfter s.started out.1 call⟩ := by
  have busy : ∀ {running : Bool} (side : RingType) (q nbDesc : Nat) (alloc : Bool),
      (s.started = true → running = true) → s.started = true →
      Returns (Unikraft.queueConfigure env options running side q nbDesc alloc) s.machine
        fun _ next => next = s.machine := by
    intro running side q nbDesc alloc reported started
    rw [reported started]
    exact busyQueueConfigure_returns side q nbDesc alloc
  cases call with
  | configure running nbRx nbTx =>
    obtain ⟨reported, followed⟩ := inOrder
    have runs := @unikraftConfigure_returns _ env _ options running nbRx nbTx owned.sound
      fun idle rx tx => followed ⟨idle, rx, tx⟩
    refine owned_of_calm owned runs ((configures_calm env).unikraftConfigure options running nbRx nbTx) ?_ fun _ => rfl
    intro started
    rw [reported started]
    exact Returns.after (adapter_run s.machine) (Returns.pure rfl)
  | rxqConfigure running q nbDesc alloc =>
    exact owned_of_calm owned
      (unikraftQueueConfigure_returns owned.sound running .rx q nbDesc alloc)
      ((configures_calm env).unikraftQueueConfigure options running .rx q nbDesc alloc)
      (busy .rx q nbDesc alloc inOrder) fun _ => rfl
  | txqConfigure running q nbDesc =>
    exact owned_of_calm owned
      (unikraftQueueConfigure_returns owned.sound running .tx q nbDesc false)
      ((configures_calm env).unikraftQueueConfigure options running .tx q nbDesc false)
      (busy .tx q nbDesc false inOrder) fun _ => rfl
  | start =>
    refine (unikraftStart_owned prompt owned.sound owned.clean).bind ?_
    rintro ret next ⟨sound, clean, live⟩
    exact Returns.pure ⟨sound, clean, fun started => live (of_decide_eq_true started)⟩
  | stop =>
    have live : AllLive s.machine := inOrder.elim owned.live Bare.allLive
    refine (unikraftStop_owned prompt owned.sound owned.clean live).bind ?_
    rintro ret next ⟨sound, clean⟩
    exact Returns.pure ⟨sound, clean, fun started => nomatch started⟩
  | free =>
    have live : AllLive s.machine := inOrder.elim owned.live Bare.allLive
    have torn : Returns (Unikraft.enaNetdevTeardown (driverExec env 1) options) s.machine
        fun _ next => Sound False next ∧ Clean next.log := by
      refine (unikraftStop_owned prompt owned.sound owned.clean live).bind ?_
      rintro _ stopped ⟨sound, clean⟩
      obtain ⟨lost, next, ran, _, released, _⟩ := releaseDevice_returns sound options.rss
      exact ⟨lost, next, ran, released, (grows_releaseDevice options.rss _ _ _ ran).clean clean⟩
    refine torn.bind ?_
    rintro lost next ⟨sound, clean⟩
    exact Returns.pure ⟨sound, clean, fun started => nomatch started⟩

theorem sessionStep_owned (prompt : Prompt env False) (owned : s.Owned)
    (inOrder : InOrder options s call) :
    ∃ next, sessionStep env options s call = .ok next ∧ next.Owned := by
  obtain ⟨out, next, ran, kept⟩ := perform_owned prompt owned inOrder
  refine ⟨⟨next, startedAfter s.started out.1 call⟩, ?_, kept⟩
  unfold sessionStep
  rw [ran]
  rfl

/-- In a session that keeps to the order, on a device without timeouts, every destroy
command names a queue that the device holds for the ring it is for. -/
theorem destroys_name_own_queues (prompt : Prompt env False) {m : Machine} (fresh : Unconfigured m)
    (clean : Clean m.log) {calls : List Call}
    (inOrder : Meets (sessionStep env options) (InOrder options) ⟨m, false⟩ calls) :
    ∃ last, run (sessionStep env options) ⟨m, false⟩ calls = .ok last ∧ Clean last.machine.log := by
  have start : Session.Owned ⟨m, false⟩ :=
    ⟨(fresh.orderly (.unikraft options)).1, clean, fun started => nomatch started⟩
  obtain ⟨last, ran, owned⟩ := run_invariant (InOrder options) Session.Owned
    (fun s call holds ok => sessionStep_owned prompt holds ok) start inOrder
  exact ⟨last, ran, owned.clean⟩

/-- Only start, stop and teardown change whether a device is started. -/
theorem sessionStep_started {next : Session} (stepped : sessionStep env options s call = .ok next)
    (configures : ∀ ret, startedAfter s.started ret call = s.started) :
    next.started = s.started := by
  unfold sessionStep at stepped
  cases performed : perform env (driverExec env 1) (.unikraft options) call s.machine with
  | error fault =>
    rw [performed] at stepped
    cases stepped
  | ok outcome =>
    rw [performed] at stepped
    cases stepped
    exact configures _

end Sessions

/-! ## Small sessions -/

def scalingBuild : Options := ⟨true, Host.queueLimit⟩

theorem obliging_prompt : Prompt .obliging False :=
  fun _ _ => ⟨0, fun _ => 0, rfl, by decide, False.elim⟩

/-- Configuration, start and stop of one queue in each direction. -/
theorem destroys_name_own_queues_one :
    ∃ last, run (sessionStep .obliging scalingBuild) ⟨twoQueues, false⟩
        [.configure false 1 1, .rxqConfigure false 0 4 true, .txqConfigure false 0 4, .start, .stop] =
        .ok last ∧ Clean last.machine.log := by
  refine destroys_name_own_queues obliging_prompt twoQueues_unconfigured Throughout.nil ?_
  refine ⟨⟨fun started => (nomatch started), fun _ => ⟨fun present => absurd rfl present,
    fun present => absurd rfl present⟩⟩, fun s₁ ran₁ => ?_⟩
  have idle₁ : s₁.started = false := sessionStep_started ran₁ fun _ => rfl
  refine ⟨fun started => (nomatch idle₁.symm.trans started), fun s₂ ran₂ => ?_⟩
  have idle₂ : s₂.started = false := (sessionStep_started ran₂ fun _ => rfl).trans idle₁
  refine ⟨fun started => (nomatch idle₂.symm.trans started), fun s₃ ran₃ => ⟨trivial, fun s₄ ran₄ => ?_⟩⟩
  refine ⟨.inl ?_, fun _ _ => trivial⟩
  have observed : (run (sessionStep .obliging scalingBuild) ⟨twoQueues, false⟩
      [.configure false 1 1, .rxqConfigure false 0 4 true, .txqConfigure false 0 4,
        .start]).toOption.map Session.started = some true := by
    decide +kernel
  obtain ⟨last, ran, started⟩ := ok_of_observed observed
  rw [run_cons ran₁, run_cons ran₂, run_cons ran₃, run_cons ran₄] at ran
  cases ran
  exact started

/-- The effect under an index destroys a submission queue while its ring has none. -/
def strayDestroy (log : List Effect) (i : Nat) : Bool :=
  match log[i]? with
  | some (.command entry _ _) =>
    decide (entry.opcode = 2) && (owned (current (log.take i)) (log.take i)).sqs.isEmpty
  | _ => false

theorem not_clean_of_stray {log : List Effect} {i : Nat} (stray : strayDestroy log i = true) :
    ¬ Clean log := by
  intro clean
  unfold strayDestroy at stray
  split at stray
  · rename_i entry ctrl answer found
    obtain ⟨destroys, empty⟩ := Bool.and_eq_true_iff.mp stray
    obtain ⟨sq, member, _⟩ := (clean i _ found).1 (of_decide_eq_true destroys)
    rw [List.isEmpty_iff.mp empty] at member
    cases member
  · cases stray

/-- The teardown of a configured device that was never started destroys queue 0 for a
ring without queues. -/
theorem teardown_destroys_missing_queue :
    ∃ last, run (sessionStep .obliging scalingBuild) ⟨twoQueues, false⟩
        [.configure false 1 1, .rxqConfigure false 0 4 true, .txqConfigure false 0 4, .free] =
        .ok last ∧ ¬ Clean last.machine.log := by
  have observed : (run (sessionStep .obliging scalingBuild) ⟨twoQueues, false⟩
      [.configure false 1 1, .rxqConfigure false 0 4 true, .txqConfigure false 0 4,
        .free]).toOption.map (fun last => strayDestroy last.machine.log 25) = some true := by
    decide +kernel
  obtain ⟨last, ran, stray⟩ := ok_of_observed observed
  exact ⟨last, ran, not_clean_of_stray stray⟩

end EnaDriver.Lifecycle
