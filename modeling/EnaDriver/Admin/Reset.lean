import EnaDriver.Admin.Commands
import EnaDriver.Admin.Preservation

/-!
# What a reset does

A recovery first returns every ring to a fresh condition, resets the device and
initialises the admin rings again.  This module computes the machine that these
steps leave, before anything is rebuilt.
-/

namespace EnaDriver.Admin

open Support.Laps Support.Programs Datapath

/-! ## Rings -/

/-- A ring after its invalidation: a held lock is not waited for. -/
def invalidated (r : Ring) : Ring :=
  match enaAdapterInvalidateIoRing r with
  | .ok (next, _) => next
  | .error _ => r

theorem invalidated_emptied {r : Ring} (unlocked : r.ringLock = false) :
    ∃ txBufs rxBufs events, enaAdapterInvalidateIoRing r = .ok (invalidated r, events) ∧
      invalidated r = r.emptied txBufs rxBufs := by
  obtain ⟨txBufs, rxBufs, _, ran⟩ := enaAdapterInvalidateIoRing_ok unlocked
  have same : invalidated r = r.emptied txBufs rxBufs := by rw [invalidated, ran]
  exact ⟨txBufs, rxBufs, _, ran.trans (by rw [same]), same⟩

theorem invalidated_unlocked {r : Ring} (unlocked : r.ringLock = false) :
    (invalidated r).ringLock = false := by
  obtain ⟨_, _, _, _, emptied⟩ := invalidated_emptied unlocked
  rw [emptied]
  rfl

def invalidatedTx (p : TxPort) : TxPort := { p with ring := invalidated p.ring }

def invalidatedRx (p : RxPort) : RxPort := { p with ring := invalidated p.ring }

def changeBelow {π : Type} (change : π → π) (n : Nat) (rings : List (Option π)) :
    List (Option π) :=
  rings.mapIdx fun i cell => if i < n then cell.map change else cell

section ChangeBelow

variable {π : Type} (change : π → π) (n : Nat) (rings : List (Option π))

theorem changeBelow_get (q : Nat) :
    (changeBelow change n rings)[q]? =
      rings[q]?.map fun cell => if q < n then cell.map change else cell := by
  simp [changeBelow]

@[simp] theorem changeBelow_zero : changeBelow change 0 rings = rings := by
  apply List.ext_getElem?
  intro q
  simp [changeBelow_get]

theorem changeBelow_succ :
    changeBelow change (n + 1) rings = (changeBelow change n rings).modify n (Option.map change) := by
  apply List.ext_getElem?
  intro q
  rw [List.getElem?_modify, changeBelow_get, changeBelow_get]
  cases rings[q]? with
  | none => simp
  | some cell =>
    rcases Nat.lt_trichotomy q n with below | rfl | above
    · have other : ¬ n = q := by omega
      simp [below, Nat.lt_succ_of_lt below, other]
    · simp
    · have other : ¬ n = q := by omega
      simp [Nat.not_lt.mpr (Nat.le_of_lt above), Nat.not_lt.mpr above, other]

theorem isSome_changeBelow :
    (changeBelow change n rings).map Option.isSome = rings.map Option.isSome := by
  induction n with
  | zero => rw [changeBelow_zero]
  | succ n ih => rw [changeBelow_succ, isSome_modify, ih]

variable {change n rings} {property : π → Prop}

theorem Attached.changeBelow (holds : Attached property rings)
    (keeps : ∀ port, property port → property (change port)) :
    Attached property (changeBelow change n rings) := by
  induction n with
  | zero => rwa [changeBelow_zero]
  | succ n ih =>
    rw [changeBelow_succ]
    exact ih.modify keeps

end ChangeBelow

/-- Every attached ring is unlocked. -/
structure RingsFree (m : Machine) : Prop where
  tx : Attached (fun port => port.ring.ringLock = false) m.tx
  rx : Attached (fun port => port.ring.ringLock = false) m.rx

theorem RingsFree.logged {m : Machine} (free : RingsFree m) (effects : List Effect) :
    RingsFree (m.logged effects) := ⟨free.tx, free.rx⟩

theorem RingsFree.withAdapter {m : Machine} (free : RingsFree m) (a : Adapter) :
    RingsFree (m.withAdapter a) := ⟨free.tx, free.rx⟩

def RingEffects (effects : List Effect) : Prop :=
  ∀ effect ∈ effects, ∃ side qid events, effect = .ring side qid events

theorem RingEffects.nil : RingEffects [] := fun _ member => nomatch member

theorem RingEffects.append {first second : List Effect} (earlier : RingEffects first)
    (later : RingEffects second) : RingEffects (first ++ second) :=
  List.forall_mem_append.mpr ⟨earlier, later⟩

theorem RingEffects.one (side : RingType) (qid : Nat) (events : List Event) :
    RingEffects [.ring side qid events] := by
  intro effect member
  exact ⟨side, qid, events, List.mem_singleton.mp member⟩

def Machine.txCleared (m : Machine) (n : Nat) : Machine :=
  { m with tx := changeBelow invalidatedTx n m.tx }

def Machine.rxCleared (m : Machine) (n : Nat) : Machine :=
  { m with rx := changeBelow invalidatedRx n m.rx }

section Invalidation

variable {frame : Frame} {m : Machine}

theorem RingsFree.txCleared (free : RingsFree m) (n : Nat) : RingsFree (m.txCleared n) :=
  ⟨free.tx.changeBelow fun _ => invalidated_unlocked, free.rx⟩

theorem RingsFree.rxCleared (free : RingsFree m) (n : Nat) : RingsFree (m.rxCleared n) :=
  ⟨free.tx, free.rx.changeBelow fun _ => invalidated_unlocked⟩

theorem Frame.Fits.txCleared (fits : frame.Fits m) (n : Nat) : frame.Fits (m.txCleared n) :=
  ⟨fits.numTx, fits.numRx, (isSome_changeBelow _ _ _).trans fits.tx, fits.rx⟩

theorem Frame.Fits.rxCleared (fits : frame.Fits m) (n : Nat) : frame.Fits (m.rxCleared n) :=
  ⟨fits.numTx, fits.numRx, fits.tx, (isSome_changeBelow _ _ _).trans fits.rx⟩

theorem invalidateTxRing_run (fits : frame.Fits m) (free : RingsFree m) {q : Nat}
    (bound : q < frame.numTx) :
    ∃ effects, RingEffects effects ∧
      invalidateTxRing q m = .ok ((), (m.updateTx q invalidatedTx).logged effects) := by
  obtain ⟨cell, ran, found⟩ := fits.txCell_run bound
  unfold invalidateTxRing
  rw [run_bind, ran, ok_bind]
  cases cell with
  | none =>
    have same : m.updateTx q invalidatedTx = m := by
      apply updateTx_absent
      intro port attached
      have other := (txCell_attached attached).symm.trans ran
      cases other
    exact ⟨[], .nil, by rw [same, Machine.logged_nil]; rfl⟩
  | some port =>
    have attached := found port rfl
    obtain ⟨_, _, events, invalidates, _⟩ := invalidated_emptied (free.tx q port attached)
    have same : (m.updateTx q fun p => { p with ring := invalidated port.ring }) =
        m.updateTx q invalidatedTx := updateTx_attached attached rfl
    refine ⟨_, .one .tx q events, ?_⟩
    dsimp only
    rw [run_bind, invalidates, ← same]
    rfl

theorem invalidateTxRings_run (fits : frame.Fits m) (free : RingsFree m) (n : Nat)
    (bound : n ≤ frame.numTx) :
    ∃ effects, RingEffects effects ∧
      (List.range n).forM invalidateTxRing m = .ok ((), (m.txCleared n).logged effects) := by
  induction n with
  | zero =>
    refine ⟨[], .nil, ?_⟩
    rw [Machine.logged_nil, Machine.txCleared, changeBelow_zero]
    rfl
  | succ n ih =>
    obtain ⟨earlier, rings, ran⟩ := ih (Nat.le_of_succ_le bound)
    have fits : frame.Fits ((m.txCleared n).logged earlier) := (fits.txCleared n).logged _
    have free : RingsFree ((m.txCleared n).logged earlier) := (free.txCleared n).logged _
    obtain ⟨events, last, cleared⟩ := invalidateTxRing_run fits free bound
    have next : (m.txCleared n).updateTx n invalidatedTx = m.txCleared (n + 1) :=
      congrArg (fun tx => { m with tx := tx }) (changeBelow_succ invalidatedTx n m.tx).symm
    refine ⟨earlier ++ events, rings.append last, ?_⟩
    rw [List.range_succ, List.forM_eq_forM, List.forM_append, run_bind, ← List.forM_eq_forM, ran, ok_bind,
      List.forM_eq_forM, List.forM_cons, run_bind, cleared, ok_bind, ← next, ← Machine.logged_logged]
    rfl

theorem invalidateRxRing_run (fits : frame.Fits m) (free : RingsFree m) {q : Nat}
    (bound : q < frame.numRx) :
    ∃ effects, RingEffects effects ∧
      invalidateRxRing q m = .ok ((), (m.updateRx q invalidatedRx).logged effects) := by
  obtain ⟨cell, ran, found⟩ := fits.rxCell_run bound
  unfold invalidateRxRing
  rw [run_bind, ran, ok_bind]
  cases cell with
  | none =>
    have same : m.updateRx q invalidatedRx = m := by
      apply updateRx_absent
      intro port attached
      have other := (rxCell_attached attached).symm.trans ran
      cases other
    exact ⟨[], .nil, by rw [same, Machine.logged_nil]; rfl⟩
  | some port =>
    have attached := found port rfl
    obtain ⟨_, _, events, invalidates, _⟩ := invalidated_emptied (free.rx q port attached)
    have same : (m.updateRx q fun p => { p with ring := invalidated port.ring }) =
        m.updateRx q invalidatedRx := updateRx_attached attached rfl
    refine ⟨_, .one .rx q events, ?_⟩
    dsimp only
    rw [run_bind, invalidates, ← same]
    rfl

theorem invalidateRxRings_run (fits : frame.Fits m) (free : RingsFree m) (n : Nat)
    (bound : n ≤ frame.numRx) :
    ∃ effects, RingEffects effects ∧
      (List.range n).forM invalidateRxRing m = .ok ((), (m.rxCleared n).logged effects) := by
  induction n with
  | zero =>
    refine ⟨[], .nil, ?_⟩
    rw [Machine.logged_nil, Machine.rxCleared, changeBelow_zero]
    rfl
  | succ n ih =>
    obtain ⟨earlier, rings, ran⟩ := ih (Nat.le_of_succ_le bound)
    have fits : frame.Fits ((m.rxCleared n).logged earlier) := (fits.rxCleared n).logged _
    have free : RingsFree ((m.rxCleared n).logged earlier) := (free.rxCleared n).logged _
    obtain ⟨events, last, cleared⟩ := invalidateRxRing_run fits free bound
    have next : (m.rxCleared n).updateRx n invalidatedRx = m.rxCleared (n + 1) :=
      congrArg (fun rx => { m with rx := rx }) (changeBelow_succ invalidatedRx n m.rx).symm
    refine ⟨earlier ++ events, rings.append last, ?_⟩
    rw [List.range_succ, List.forM_eq_forM, List.forM_append, run_bind, ← List.forM_eq_forM, ran, ok_bind,
      List.forM_eq_forM, List.forM_cons, run_bind, cleared, ok_bind, ← next, ← Machine.logged_logged]
    rfl

def Machine.ringsCleared (m : Machine) : Machine :=
  (m.txCleared m.adapter.numTxRings).rxCleared m.adapter.numRxRings

theorem enaAdapterInvalidateIoRings_run (fits : frame.Fits m) (free : RingsFree m) :
    ∃ effects, RingEffects effects ∧
      enaAdapterInvalidateIoRings m = .ok ((), m.ringsCleared.logged effects) := by
  obtain ⟨first, txRings, tx⟩ :=
    invalidateTxRings_run fits free m.adapter.numTxRings (Nat.le_of_eq fits.numTx)
  obtain ⟨second, rxRings, rx⟩ :=
    invalidateRxRings_run ((fits.txCleared m.adapter.numTxRings).logged first)
      ((free.txCleared _).logged first) m.adapter.numRxRings (Nat.le_of_eq fits.numRx)
  refine ⟨first ++ second, txRings.append rxRings, ?_⟩
  unfold enaAdapterInvalidateIoRings
  rw [run_bind, adapter_run, ok_bind, run_bind, tx, ok_bind, rx, ← Machine.logged_logged]
  rfl

end Invalidation

/-! ## Device and admin rings -/

def Machine.resetDone (m : Machine) : Machine := (m.logged [.reset .ready]).released

/-- The depths of the admin rings, 32 when there are none. -/
def Adapter.depths (a : Adapter) : Depth × Depth × Depth :=
  match a.queues with
  | none => (⟨32, 5, by decide⟩, ⟨32, 5, by decide⟩, ⟨32, 5, by decide⟩)
  | some q => (q.aq.depth, q.acq.depth, q.aenq.depth)

def freshFrom (t : Nat) (phys : BitVec 48 × BitVec 48 × BitVec 48) (depths : Depth × Depth × Depth) :
    AdminQueues :=
  .fresh ⟨t, phys.1⟩ ⟨t + 1, phys.2.1⟩ ⟨t + 2, phys.2.2⟩ depths.1 depths.2.1 depths.2.2

def AdminQueues.published (q : AdminQueues) : List Effect :=
  initEffects q.aq.buf q.acq.buf q.aenq.buf q.aenq.depth

def Machine.restarted (m : Machine) (q : AdminQueues) (handler : Bool) : Machine :=
  (m.withAdapter ((m.adapter.ready q).setHandler handler)).logged q.published

theorem depthAgain_accepted (a : Adapter) :
    Depth.ofRaw? (depthAgain (a.queues.map AdminQueues.aq)) = some a.depths.1 ∧
      Depth.ofRaw? (depthAgain (a.queues.map AdminQueues.acq)) = some a.depths.2.1 ∧
      Depth.ofRaw? (depthAgain (a.queues.map AdminQueues.aenq)) = some a.depths.2.2 := by
  unfold Adapter.depths
  cases a.queues with
  | none => exact ⟨rfl, rfl, rfl⟩
  | some q => exact ⟨Depth.ofRaw?_ofNat _, Depth.ofRaw?_ofNat _, Depth.ofRaw?_ofNat _⟩

section ResetAndInit

variable (env : Env) (m : Machine) (handler : Bool)

def FailedReset (effects : List Effect) : Prop :=
  effects = [] ∨ ∃ outcome, outcome ≠ ResetOutcome.ready ∧ effects = [.reset outcome]

theorem enaDeviceReset_cases (dead : m.adapter.state = .error) :
    (∃ ret effects, ret ≠ 0 ∧ FailedReset effects ∧
      enaDeviceReset env m = .ok (ret, m.logged effects)) ∨
    (m.adapter.map.bar0Mapped = true ∧
      enaDeviceReset env m = .ok (0, m.logged [.reset .ready])) := by
  by_cases mapped : m.adapter.map.bar0Mapped = false
  · refine .inl ⟨-EINVAL, [], by decide, .inl rfl, ?_⟩
    simp [enaDeviceReset, mapped]
  have present : m.adapter.map.bar0Mapped = true := by simpa using mapped
  cases outcome : env.reset m.log.length with
  | ready =>
    refine .inr ⟨present, ?_⟩
    simp [enaDeviceReset, present, outcome]
  | fatal =>
    have same : m.adapter.setState .error = m.adapter := by
      rw [← dead]
      rfl
    refine .inl ⟨- Datapath.EIO, [.reset .fatal], by decide, .inr ⟨.fatal, by decide, rfl⟩, ?_⟩
    simp [enaDeviceReset, present, outcome, same]
    rfl
  | stuck =>
    refine .inl ⟨-ETIMEDOUT, [.reset .stuck], by decide, .inr ⟨.stuck, by decide, rfl⟩, ?_⟩
    simp [enaDeviceReset, present, outcome]

theorem enaAdminInit_again (mapped : m.adapter.map.bar0Mapped = true) :
    (∃ effects, FailedRings m.released.log.length effects ∧
      enaAdminInit env (depthAgain (m.adapter.queues.map AdminQueues.aq))
        (depthAgain (m.adapter.queues.map AdminQueues.acq))
        (depthAgain (m.adapter.queues.map AdminQueues.aenq)) m =
          .ok (-ENOMEM, m.released.logged effects)) ∨
    ∃ phys, enaAdminInit env (depthAgain (m.adapter.queues.map AdminQueues.aq))
        (depthAgain (m.adapter.queues.map AdminQueues.acq))
        (depthAgain (m.adapter.queues.map AdminQueues.aenq)) m =
      .ok (0, m.released.restarted (freshFrom m.released.log.length phys m.adapter.depths) false) := by
  obtain ⟨aqOk, acqOk, aenqOk⟩ := depthAgain_accepted m.adapter
  rcases enaAdminInit_cases env (depthAgain (m.adapter.queues.map AdminQueues.aq))
      (depthAgain (m.adapter.queues.map AdminQueues.acq))
      (depthAgain (m.adapter.queues.map AdminQueues.aenq)) m with
    ⟨unmapped, _⟩ | ⟨refused, _⟩ | failed |
    ⟨aq, acq, aenq, a, b, c, aqDepth, acqDepth, aenqDepth, ran⟩
  · rw [mapped] at unmapped
    cases unmapped
  · rw [aqOk, acqOk, aenqOk] at refused
    rcases refused with none | none | none <;> cases none
  · exact .inl failed
  · rw [aqOk] at aqDepth
    rw [acqOk] at acqDepth
    rw [aenqOk] at aenqDepth
    cases aqDepth
    cases acqDepth
    cases aenqDepth
    exact .inr ⟨(a, b, c), ran⟩

def Machine.holding (m : Machine) (held : Bool) : Machine := m.withAdapter (m.adapter.setLock held)

variable {m} in
theorem holding_self (unlocked : m.adapter.adminLock = false) : m.holding false = m := by
  unfold Machine.holding
  rw [Adapter.setLock_self unlocked]
  rfl

theorem released_holding (held : Bool) : (m.holding held).released = m.released.holding held := by
  unfold Machine.released
  by_cases present : m.adapter.queues.isSome
  · have also : (m.holding held).adapter.queues.isSome = true := present
    rw [if_pos present, if_pos also]
    rfl
  · have also : ¬ (m.holding held).adapter.queues.isSome = true := present
    rw [if_neg present, if_neg also]

theorem released_adminLock : m.released.adapter.adminLock = m.adapter.adminLock := by
  unfold Machine.released
  split <;> rfl

/-- A reset of the device fails, or the admin rings cannot be allocated, or fresh
admin rings are published. -/
theorem resetAndInit_cases {m : Machine} (unlocked : m.adapter.adminLock = false)
    (dead : m.adapter.state = .error) :
    (∃ ret effects, ret ≠ 0 ∧ FailedReset effects ∧
      resetAndInit env handler m = .ok ((ret, -1), m.logged effects)) ∨
    (∃ effects, FailedRings m.resetDone.log.length effects ∧
      resetAndInit env handler m = .ok ((0, -ENOMEM), m.resetDone.logged effects)) ∨
    ∃ phys, resetAndInit env handler m =
      .ok ((0, 0), m.resetDone.restarted (freshFrom m.resetDone.log.length phys m.adapter.depths)
        handler) := by
  have taken : enaAdminLockTake (machineIo env []) m = .ok ((), m.holding true) := by
    simp [enaAdminLockTake, unlocked]
    rfl
  have dropped (last : Machine) :
      enaAdminLockDrop (machineIo env []) last = .ok ((), last.holding false) := rfl
  unfold resetAndInit
  rw [run_bind, taken, ok_bind]
  rcases enaDeviceReset_cases env (m.holding true) dead with
    ⟨ret, effects, nonzero, failed, ran⟩ | ⟨mapped, ran⟩
  · refine .inl ⟨ret, effects, nonzero, failed, ?_⟩
    rw [run_bind, ran, ok_bind, run_ite, if_pos nonzero, run_bind, dropped, ok_bind, run_pure]
    change Except.ok (_, (m.holding false).logged effects) = _
    rw [holding_self unlocked]
  refine .inr ?_
  have zero : ¬ (0 : Int) ≠ 0 := fun differs => differs rfl
  have doneFree : m.resetDone.holding false = m.resetDone :=
    holding_self ((released_adminLock _).trans unlocked)
  have done : ((m.holding true).logged [.reset .ready]).released = m.resetDone.holding true :=
    released_holding (m.logged [.reset .ready]) true
  rw [run_bind, ran, ok_bind, run_ite, if_neg zero, run_bind, adapter_run, ok_bind, run_bind]
  rcases enaAdminInit_again env ((m.holding true).logged [.reset .ready]) mapped with
    ⟨effects, failed, init⟩ | ⟨phys, init⟩
  · refine .inl ⟨effects, ?_, ?_⟩
    · rw [done] at failed
      exact failed
    have other : ¬ (-ENOMEM = 0 ∧ handler = true) := fun both => absurd both.1 (by decide)
    rw [init, ok_bind, run_bind, run_onlyIf, if_neg other, ok_bind, run_bind, dropped, ok_bind,
      run_pure, done]
    change Except.ok (_, (m.resetDone.holding false).logged effects) = _
    rw [doneFree]
  · refine .inr ⟨phys, ?_⟩
    rw [init, ok_bind, done, run_bind, run_onlyIf]
    cases handler with
    | false =>
      have other : ¬ ((0 : Int) = 0 ∧ false = true) := fun both => Bool.false_ne_true both.2
      rw [if_neg other, ok_bind, run_bind, dropped, ok_bind, run_pure]
      change Except.ok (_, (m.resetDone.holding false).restarted _ false) = _
      rw [doneFree]
      rfl
    | true =>
      rw [if_pos ⟨rfl, rfl⟩, modifyAdapter_run, ok_bind, run_bind, dropped, ok_bind, run_pure]
      change Except.ok (_, (m.resetDone.holding false).restarted _ true) = _
      rw [doneFree]
      rfl

end ResetAndInit

/-! ## A whole recovery -/

def Machine.recovering (m : Machine) : Machine :=
  (m.withAdapter ((m.adapter.setRecover true).setState .error)).ringsCleared

def Machine.recovered (m : Machine) : Machine := m.withAdapter (m.adapter.setRecover false)

/-- A recovery from the moment when the rings are invalidated. -/
theorem recoverOnce_opened {m between : Machine} (env : Env) (exec : CtrlExec)
    (cleared : enaAdapterInvalidateIoRings
      (m.withAdapter ((m.adapter.setRecover true).setState .error)) = .ok ((), between)) :
    recoverOnce env exec m =
      (resetAndInit env m.adapter.aenqHandler >>= fun out =>
        if out.1 ≠ 0 ∨ out.2 ≠ 0 then do
          modifyAdapter (·.setRecover false)
          return if out.1 ≠ 0 then out.1 else out.2
        else do
          let ret ← rebuild env exec
          modifyAdapter (·.setRecover false)
          return ret) between := by
  unfold recoverOnce
  rw [run_bind, modifyAdapter_run, ok_bind, run_bind, adapter_run, ok_bind, run_bind,
    modifyAdapter_run, ok_bind, run_bind]
  dsimp only [Machine.withAdapter_withAdapter, Machine.withAdapter_adapter]
  rw [cleared, ok_bind]
  rfl

/-- A recovery ends with an error before it rebuilds anything, or it rebuilds from
fresh admin rings. -/
theorem recoverOnce_cases {frame : Frame} {m : Machine} (env : Env) (exec : CtrlExec)
    (fits : frame.Fits m) (free : RingsFree m) (unlocked : m.adapter.adminLock = false) :
    ∃ rings, RingEffects rings ∧
      ((∃ ret effects, ret ≠ 0 ∧ FailedReset effects ∧
        recoverOnce env exec m =
          .ok (ret, ((m.recovering.logged rings).logged effects).recovered)) ∨
      (∃ effects, FailedRings (m.recovering.logged rings).resetDone.log.length effects ∧
        recoverOnce env exec m =
          .ok (-ENOMEM, ((m.recovering.logged rings).resetDone.logged effects).recovered)) ∨
      ∃ phys, recoverOnce env exec m =
        (rebuild env exec ((m.recovering.logged rings).resetDone.restarted
          (freshFrom (m.recovering.logged rings).resetDone.log.length phys m.adapter.depths)
          m.adapter.aenqHandler) >>= fun out => .ok (out.1, out.2.recovered))) := by
  have started : frame.Fits (m.withAdapter ((m.adapter.setRecover true).setState .error)) :=
    fits.withAdapter rfl rfl
  obtain ⟨rings, only, cleared⟩ := enaAdapterInvalidateIoRings_run started (free.withAdapter _)
  change _ = Except.ok ((), m.recovering.logged rings) at cleared
  refine ⟨rings, only, ?_⟩
  rw [recoverOnce_opened env exec cleared, run_bind]
  rcases resetAndInit_cases env m.adapter.aenqHandler (m := m.recovering.logged rings) unlocked rfl
    with ⟨ret, effects, nonzero, failed, ran⟩ | ⟨effects, failed, ran⟩ | ⟨phys, ran⟩
  · refine .inl ⟨ret, effects, nonzero, failed, ?_⟩
    rw [ran, ok_bind, run_ite, if_pos (.inl nonzero), if_pos nonzero]
    rfl
  · refine .inr (.inl ⟨effects, failed, ?_⟩)
    have zero : ¬ (0 : Int) ≠ 0 := fun differs => differs rfl
    have nonzero : -ENOMEM ≠ 0 := by decide
    rw [ran, ok_bind, run_ite, if_pos (.inr nonzero), if_neg zero]
    rfl
  · refine .inr (.inr ⟨phys, ?_⟩)
    have zero : ¬ ((0 : Int) ≠ 0 ∨ (0 : Int) ≠ 0) := by decide
    rw [ran, ok_bind, run_ite, if_neg zero, run_bind]
    rfl

end EnaDriver.Admin
