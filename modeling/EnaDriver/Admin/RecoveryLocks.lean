import EnaDriver.Admin.Reset

/-!
# Locks and nesting of recoveries

A command may start a recovery, which runs commands of its own.  The admin lock
and the ring locks are not recursive, and a command that times out inside a
recovery must not start a second one.  The invariant says that no lock is held
and whether a recovery is active: at each level of the call chain every function
returns to it, so none of them waits for a lock of its own chain.
-/

namespace EnaDriver.Admin

open Support.Programs Datapath

structure Unheld (frame : Frame) (active : Bool) (m : Machine) : Prop where
  fits : frame.Fits m
  admin : m.adapter.adminLock = false
  recover : m.adapter.recoverActive = active
  rings : RingsFree m

def SameDev (m next : Machine) : Prop := next.dev = m.dev

theorem SameDev.refl (m : Machine) : SameDev m m := rfl

theorem SameDev.trans (first second third : Machine) (earlier : SameDev first second)
    (later : SameDev second third) : SameDev first third :=
  Eq.trans later earlier

abbrev KeepsUnheld {α : Type} (frame : Frame) (active : Bool) (program : Driver α) : Prop :=
  Keeps (Unheld frame active) SameDev program

theorem released_dev (m : Machine) : m.released.dev = m.dev := by
  unfold Machine.released
  split <;> rfl

namespace Unheld

variable {frame : Frame} {active : Bool} {m : Machine}

variable (held : Unheld frame active m)
include held

theorem logged (effects : List Effect) : Unheld frame active (m.logged effects) :=
  ⟨held.fits.logged effects, held.admin, held.recover, held.rings.logged effects⟩

/-- A change of the adapter that leaves the locks and the numbers of rings alone. -/
theorem withAdapter {a : Adapter} (tx : a.numTxRings = m.adapter.numTxRings)
    (rx : a.numRxRings = m.adapter.numRxRings) (lock : a.adminLock = m.adapter.adminLock)
    (recover : a.recoverActive = m.adapter.recoverActive) : Unheld frame active (m.withAdapter a) :=
  ⟨held.fits.withAdapter tx rx, lock.trans held.admin, recover.trans held.recover,
    held.rings.withAdapter a⟩

theorem setRecover (now : Bool) : Unheld frame now (m.withAdapter (m.adapter.setRecover now)) :=
  ⟨held.fits.withAdapter rfl rfl, held.admin, rfl, held.rings.withAdapter _⟩

theorem updateTx (q : Nat) {change : TxPort → TxPort}
    (keeps : ∀ port, port.ring.ringLock = false → (change port).ring.ringLock = false) :
    Unheld frame active (m.updateTx q change) :=
  ⟨held.fits.updateTx q change, held.admin, held.recover, held.rings.tx.modify keeps, held.rings.rx⟩

theorem updateRx (q : Nat) {change : RxPort → RxPort}
    (keeps : ∀ port, port.ring.ringLock = false → (change port).ring.ringLock = false) :
    Unheld frame active (m.updateRx q change) :=
  ⟨held.fits.updateRx q change, held.admin, held.recover, held.rings.tx, held.rings.rx.modify keeps⟩

theorem ringsCleared : Unheld frame active m.ringsCleared :=
  ⟨(held.fits.txCleared _).rxCleared _, held.admin, held.recover,
    (held.rings.txCleared _).rxCleared _⟩

theorem released : Unheld frame active m.released := by
  unfold Machine.released
  split
  · refine Unheld.logged (held.withAdapter ?_ ?_ ?_ ?_) _ <;> rfl
  · exact held

theorem resetDone : Unheld frame active m.resetDone :=
  (held.logged _).released

theorem restarted (q : AdminQueues) (handler : Bool) :
    Unheld frame active (m.restarted q handler) := by
  refine Unheld.logged (held.withAdapter ?_ ?_ ?_ ?_) _ <;> rfl

theorem recovering : Unheld frame true m.recovering := by
  have started : Unheld frame true (m.withAdapter ((m.adapter.setRecover true).setState .error)) :=
    (held.setRecover true).withAdapter rfl rfl rfl rfl
  exact started.ringsCleared

end Unheld

/-! ## Steps -/

section Steps

variable {frame : Frame} {active : Bool} {env : Env}

/-- A command keeps the locks free when the recovery it may start does. -/
theorem enaAdminExecCmd_unheld {recover : Driver Int} (recovers : KeepsUnheld frame active recover)
    (ctrl : List Nat) (req : AdminReq) :
    KeepsUnheld frame active (enaAdminExecCmd (machineIo env ctrl) recover req) := by
  refine enaAdminExecCmd_keeps SameDev.refl SameDev.trans
    (fun _ held => held.admin) recovers ?_ ?_
  · intro m q held _ _ _
    refine ⟨Unheld.logged (held.withAdapter ?_ ?_ ?_ ?_) _, rfl⟩ <;> rfl
  · intro m q answer held _ _ _
    refine ⟨Unheld.logged (held.withAdapter ?_ ?_ ?_ ?_) _, rfl⟩ <;> rfl

theorem execWith_unheld {recover : Driver Int} (recovers : KeepsUnheld frame active recover)
    (ctrl : List Nat) (req : AdminReq) :
    KeepsUnheld frame active (execWith env recover ctrl req) :=
  Keeps.bind SameDev.trans (enaAdminExecCmd_unheld recovers ctrl req)
    fun _ => Keeps.pure SameDev.refl _

variable (frame active env) in
theorem memory_unheld :
    Allocates (Keeps (Unheld frame active) SameDev) frame.Inside frame.Filled env where
  toLooks := Keeps.looks SameDev.refl SameDev.trans fun _ held => held.fits
  settings := fun _ => Keeps.update fun _ held => ⟨held.withAdapter rfl rfl rfl rfl, rfl⟩
  dmaAlloc := fun _ held => ⟨_, _, rfl, held.logged _, rfl⟩
  dmaFree := fun _ _ held => ⟨_, _, rfl, held.logged _, rfl⟩
  heap := fun _ held => ⟨_, _, rfl, held.logged _, rfl⟩

/-- Everything that recovery is composed of keeps the locks free when its commands
do. -/
theorem driver_unheld {exec : CtrlExec}
    (command : ∀ ctrl req, KeepsUnheld frame active (exec ctrl req)) :
    Rebuilds (Keeps (Unheld frame active) SameDev) frame.Inside frame.Filled env exec where
  toAllocates := memory_unheld frame active env
  command := fun ctrl req _ => command ctrl req
  createTx := fun q attached =>
    createTxHw_keeps SameDev.refl SameDev.trans (fun _ held => held.fits) (command []) attached
      (Keeps.update fun _ held => ⟨held.logged _, rfl⟩) fun _ =>
        Keeps.update fun _ held => ⟨held.updateTx q fun _ unlocked => unlocked, rfl⟩
  createRx := fun q attached =>
    createRxHw_keeps SameDev.refl SameDev.trans (fun _ held => held.fits) (command []) attached
      (Keeps.update fun _ held => ⟨held.logged _, rfl⟩) fun _ =>
        Keeps.update fun _ held => ⟨held.updateRx q fun _ unlocked => unlocked, rfl⟩
  refill := by
    intro q attached
    refine recoverRefill_keeps SameDev.refl (fun _ held => held.fits) attached.2
      (fun m port held found => held.rings.rx q port found) ?_
    intro m port filled events held found posted
    have unlocked : filled.ring.ringLock = false := by
      obtain ⟨_, _, _, _, same⟩ := posted
      rw [same]
      exact held.rings.rx q port found
    exact ⟨(held.updateRx q fun _ _ => unlocked).logged _, rfl⟩

end Steps

/-! ## The call chain -/

section Chain

variable {frame : Frame} (env : Env)

/-- A recovery that is asked for while one is active is refused. -/
theorem resetAndRecover_refused (nesting : Nat) :
    KeepsUnheld frame true (enaAdapterResetAndRecover env nesting) := by
  intro m held
  refine ⟨-EBUSY, m, ?_, held, rfl⟩
  cases nesting with
  | zero => simp [enaAdapterResetAndRecover, held.recover]
  | succ nesting => simp [enaAdapterResetAndRecover, held.recover]

/-- A recovery whose commands keep the locks free ends with no lock held and no
recovery active. -/
theorem recoverOnce_unheld {exec : CtrlExec}
    (command : ∀ ctrl req, KeepsUnheld frame true (exec ctrl req)) :
    KeepsUnheld frame false (recoverOnce env exec) := by
  intro m held
  unfold Returns
  obtain ⟨rings, _, outcome⟩ := recoverOnce_cases env exec held.fits held.rings held.admin
  have recovering : Unheld frame true (m.recovering.logged rings) := held.recovering.logged rings
  have reset : (m.recovering.logged rings).resetDone.dev = m.dev := released_dev _
  rcases outcome with ⟨ret, effects, _, _, ran⟩ | ⟨effects, _, ran⟩ | ⟨phys, ran⟩
  · exact ⟨ret, _, ran, (recovering.logged effects).setRecover false, rfl⟩
  · exact ⟨_, _, ran, (recovering.resetDone.logged effects).setRecover false, reset⟩
  · obtain ⟨ret, last, rebuilt, kept, same⟩ :=
      (driver_unheld command).rebuild _ (recovering.resetDone.restarted _ _)
    refine ⟨ret, last.recovered, ?_, kept.setRecover false, Eq.trans same reset⟩
    rw [ran, rebuilt]
    rfl

/-- One recovery in the call chain is enough: those that its commands ask for are
refused. -/
theorem resetAndRecover_unheld : KeepsUnheld frame false (enaAdapterResetAndRecover env 1) := by
  have refused : KeepsUnheld frame true (enaAdapterResetAndRecover env 0) :=
    resetAndRecover_refused env 0
  have once : KeepsUnheld frame false
      (recoverOnce env (execWith env (enaAdapterResetAndRecover env 0))) :=
    recoverOnce_unheld env fun ctrl req => execWith_unheld refused ctrl req
  intro m held
  obtain ⟨ret, last, ran, kept⟩ := once m held
  refine ⟨ret, last, ?_, kept⟩
  rw [enaAdapterResetAndRecover, run_bind, adapter_run, ok_bind, run_ite,
    if_neg (by rw [held.recover]; exact Bool.false_ne_true)]
  exact ran

/-- A command, and the handler of a fatal event, entered with no lock held and no
recovery active, return to that condition with at most one recovery in the call
chain and no wait for a lock that the chain holds. -/
theorem recovery_returns_unheld {m : Machine} (unheld : Unheld frame false m) :
    (∀ ctrl req, Returns (enaAdminExecCmd (machineIo env ctrl) (enaAdapterResetAndRecover env 1) req)
      m fun _ final => Unheld frame false final) ∧
    ∀ entry : AenqEntry, AenqGroup.ofCode entry.group = .fatalError →
      Returns (enaAenqDefaultHandler env 1 entry) m fun _ final => Unheld frame false final := by
  constructor
  · intro ctrl req
    exact (enaAdminExecCmd_unheld (resetAndRecover_unheld env) ctrl req m unheld).mono
      fun _ _ kept => kept.1
  · intro entry fatal
    unfold enaAenqDefaultHandler
    rw [fatal]
    exact (resetAndRecover_unheld env m unheld).mono fun _ _ kept => kept.1

end Chain

def pairFrame : Frame := ⟨1, 1, [true], [true], .inr (Nat.le_refl 1), .inr (Nat.le_refl 1)⟩

theorem attached_singleton {π : Type} {property : π → Prop} {port : π} (holds : property port) :
    Attached property [some port] := by
  intro q found present
  cases q with
  | zero =>
    cases present
    exact holds
  | succ q => cases present

theorem onePair_unheld (map : DeviceMap) : Unheld pairFrame false (onePair map) where
  fits := ⟨rfl, rfl, rfl, rfl⟩
  admin := rfl
  recover := rfl
  rings := ⟨attached_singleton rfl, attached_singleton rfl⟩

/-- On a device that answers no command, a command recovers and returns. -/
theorem recovery_returns_unheld_pair :
    Returns (enaAdminExecCmd (machineIo { Env.obliging with answer := fun _ _ => .silent } [])
      (enaAdapterResetAndRecover { Env.obliging with answer := fun _ _ => .silent } 1)
      (destroySqReq 0)) (onePair plainDevice) fun _ final => Unheld pairFrame false final :=
  (recovery_returns_unheld _ (onePair_unheld plainDevice)).1 [] (destroySqReq 0)

end EnaDriver.Admin
