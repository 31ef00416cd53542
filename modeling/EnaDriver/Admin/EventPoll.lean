import EnaDriver.Admin.EventRing
import EnaDriver.Admin.RebuiltRings
import EnaDriver.Admin.RecoveryLocks

/-!
# Polling events across a recovery

The handler of a fatal event resets the device from inside the poll loop.  The
recovery releases the ring that the loop reads and allocates one of the same
depth, or fails to.  The loop keeps its mask and looks at the ring of the adapter
again in each iteration, so it stays inside a live ring as long as there is one:
what it does not survive is a fatal event with budget left after it, whose reset
completes and whose allocation of new rings fails.
-/

namespace EnaDriver.Admin

open Support.Laps Support.Programs Datapath

/-- The event memory as one iteration finds it: at the test of the phase, and when
the entry is handed over. -/
structure AenqView where
  tested : Nat → AenqEntry
  dispatched : Nat → AenqEntry

namespace AdminQueues

def nextEvent (mask : Nat) (q : AdminQueues) : Cursor :=
  let next := (q.aenq.cursor.index + 1) % 65536
  ⟨next, if next &&& mask = 0 then !q.aenq.cursor.phase else q.aenq.cursor.phase⟩

def advanceAenq (mask : Nat) (q : AdminQueues) : AdminQueues :=
  { q with aenq := { q.aenq with cursor := q.nextEvent mask } }

end AdminQueues

section Poll

variable (env : Env) (nesting : Nat)

/-- Test the next entry and acknowledge it.  Without a ring, or with an index outside
it, the test has no memory to read. -/
def aenqAcknowledge (mask : Nat) (view : AenqView) : Driver (Option AenqEntry) := do
  let a ← adapter
  match a.queues with
  | none => throw .badAccess
  | some q =>
    let idx := q.aenq.cursor.index &&& mask
    if q.aenq.depth.val ≤ idx then
      throw .badAccess
    if (view.tested idx).phase ≠ q.aenq.cursor.phase then
      return none
    modifyAdapter fun a => a.setQueues (q.advanceAenq mask)
    record (.regWrite32 aenqHeadDbOff (q.nextEvent mask).index)
    return some (view.dispatched idx)

def aenqDispatch (entry : AenqEntry) : Driver Unit := do
  let a ← adapter
  if a.aenqHandler then
    let _ ← enaAenqDefaultHandler env nesting entry

def aenqIteration (mask : Nat) (view : AenqView) : Driver Bool := do
  let entry ← aenqAcknowledge mask view
  match entry with
  | none => return false
  | some entry =>
    aenqDispatch env nesting entry
    return true

def aenqLoop (mask : Nat) (views : Nat → AenqView) : Nat → Nat → Driver Nat
  | 0, _ => return 0
  | left + 1, i => do
    let more ← aenqIteration env nesting mask (views i)
    if more then
      let rest ← aenqLoop mask views left (i + 1)
      return rest + 1
    return 0

def enaAdminAenqPoll (views : Nat → AenqView) (maxEvents : Nat) : Driver Int := do
  let a ← adapter
  match a.queues with
  | none => return -EINVAL
  | some q =>
    let dispatched ← aenqLoop env nesting (q.aenq.depth.val - 1) views maxEvents 0
    return dispatched

end Poll

/-! ## What a recovery does to the event ring -/

def Machine.eventRing (m : Machine) : Option AdminQueue := m.adapter.queues.map AdminQueues.aenq

/-- The reset of a recovery completes, and one of the three allocations of the admin
rings fails.  The release of the old buffers lies between the two. -/
def RebuildFails (env : Env) (m : Machine) : Prop :=
  m.adapter.map.bar0Mapped = true ∧ ∃ between, AtReset m between ∧
    env.reset between.log.length = .ready ∧
    ∃ i, i < 3 ∧ env.dma (between.log.length + 1 + m.adapter.buffers.length + i) = none

section Rings

variable {frame : Frame} {env : Env} {m : Machine}

theorem submitted_aenq (q : AdminQueues) : q.submitted.aenq = q.aenq := by
  unfold AdminQueues.submitted
  split <;> rfl

/-- Allocating the three rings fails exactly when one of the requests does. -/
theorem allocAdminRings_none_iff (m : Machine) :
    (∃ last, allocAdminRings env m = .ok (none, last)) ↔
      ∃ i, i < 3 ∧ env.dma (m.log.length + i) = none := by
  unfold allocAdminRings
  cases first : env.dma m.log.length with
  | none =>
    refine ⟨fun _ => ⟨0, by decide, first⟩, fun _ => ⟨m.logged [.dmaAlloc none], ?_⟩⟩
    simp [first]
  | some a =>
    cases second : env.dma (m.log.length + 1) with
    | none =>
      refine ⟨fun _ => ⟨1, by decide, second⟩, fun _ => ⟨m.logged
        [.dmaAlloc (some ⟨m.log.length, a⟩), .dmaAlloc none, .dmaFree ⟨m.log.length, a⟩], ?_⟩⟩
      simp [first, second]
    | some b =>
      cases third : env.dma (m.log.length + 2) with
      | none =>
        refine ⟨fun _ => ⟨2, by decide, third⟩, fun _ => ⟨m.logged
          [.dmaAlloc (some ⟨m.log.length, a⟩), .dmaAlloc (some ⟨m.log.length + 1, b⟩),
            .dmaAlloc none, .dmaFree ⟨m.log.length, a⟩, .dmaFree ⟨m.log.length + 1, b⟩], ?_⟩⟩
        simp [first, second, third]
      | some c =>
        constructor
        · rintro ⟨last, ran⟩
          simp [first, second, third] at ran
        rintro ⟨i, small, none⟩
        have which : i = 0 ∨ i = 1 ∨ i = 2 := by omega
        rcases which with rfl | rfl | rfl
        · cases first.symm.trans none
        · cases second.symm.trans none
        · cases third.symm.trans none

/-- So does an initialisation with the depths of before. -/
theorem enaAdminInit_lost_iff (mapped : m.adapter.map.bar0Mapped = true) :
    (∃ last, enaAdminInit env (depthAgain (m.adapter.queues.map AdminQueues.aq))
        (depthAgain (m.adapter.queues.map AdminQueues.acq))
        (depthAgain (m.adapter.queues.map AdminQueues.aenq)) m = .ok (-ENOMEM, last)) ↔
      ∃ i, i < 3 ∧ env.dma (m.released.log.length + i) = none := by
  obtain ⟨aqOk, acqOk, aenqOk⟩ := depthAgain_accepted m.adapter
  have opened : ∀ aq acq aenq, enaAdminInit env aq acq aenq m =
      buildAdminRings env aq acq aenq m.released := by
    intro aq acq aenq
    unfold enaAdminInit Machine.released
    by_cases present : m.adapter.queues.isSome <;> simp [mapped, present]
  rw [opened, ← allocAdminRings_none_iff]
  unfold buildAdminRings
  rw [aqOk, acqOk, aenqOk]
  dsimp only
  rw [run_bind]
  constructor
  · rintro ⟨last, ran⟩
    cases allocated : allocAdminRings env m.released with
    | error fault =>
      rw [allocated] at ran
      cases ran
    | ok out =>
      obtain ⟨rings, between⟩ := out
      cases rings with
      | none => exact ⟨between, rfl⟩
      | some rings =>
        rw [allocated] at ran
        cases ran
  · rintro ⟨last, ran⟩
    exact ⟨last, by rw [ran]; rfl⟩

theorem released_length (present : m.adapter.queues.isSome = true) :
    m.released.log.length = m.log.length + m.adapter.buffers.length := by
  unfold Machine.released
  rw [if_pos present]
  simp

theorem enaDeviceReset_zero_iff (m : Machine) :
    (∃ last, enaDeviceReset env m = .ok (0, last)) ↔
      m.adapter.map.bar0Mapped = true ∧ env.reset m.log.length = .ready := by
  unfold enaDeviceReset
  by_cases mapped : m.adapter.map.bar0Mapped = true
  · cases outcome : env.reset m.log.length with
    | ready => simp [mapped, outcome]
    | fatal => simp [mapped, outcome, Datapath.EIO]
    | stuck => simp [mapped, outcome, ETIMEDOUT]
  · simp [mapped, EINVAL]

theorem resetAndInit_lost_iff (unlocked : m.adapter.adminLock = false)
    (present : m.adapter.queues.isSome = true) (dead : m.adapter.state = .error) (handler : Bool) :
    (∃ last, resetAndInit env handler m = .ok ((0, -ENOMEM), last)) ↔
      m.adapter.map.bar0Mapped = true ∧ env.reset m.log.length = .ready ∧
        ∃ i, i < 3 ∧ env.dma (m.log.length + 1 + m.adapter.buffers.length + i) = none := by
  have taken : enaAdminLockTake (machineIo env []) m = .ok ((), m.holding true) := by
    simp [enaAdminLockTake, unlocked]
    rfl
  have zero : ¬ (0 : Int) ≠ 0 := fun differs => differs rfl
  have completed := @enaDeviceReset_zero_iff env (m.holding true)
  unfold resetAndInit
  rw [run_bind, taken, ok_bind, run_bind]
  rcases enaDeviceReset_cases env (m.holding true) dead with
    ⟨ret, effects, nonzero, failed, ran⟩ | ⟨mapped, ran⟩
  · rw [ran, ok_bind, run_ite, if_pos nonzero]
    constructor
    · rintro ⟨last, same⟩
      cases same
    rintro ⟨mapped, ready, _⟩
    obtain ⟨last, same⟩ := completed.mpr ⟨mapped, ready⟩
    rw [ran] at same
    cases same
    exact absurd rfl nonzero
  · obtain ⟨_, ready⟩ := completed.mp ⟨_, ran⟩
    have lost := @enaAdminInit_lost_iff env ((m.holding true).logged [.reset .ready]) mapped
    have time : ((m.holding true).logged [.reset .ready]).released.log.length =
        m.log.length + 1 + m.adapter.buffers.length := by
      rw [released_length (m := (m.holding true).logged [.reset .ready]) present]
      simp [Machine.holding, Adapter.buffers, Adapter.setLock]
    rw [time] at lost
    rw [ran, ok_bind, run_ite, if_neg zero, run_bind, adapter_run, ok_bind, run_bind]
    constructor
    · rintro ⟨last, same⟩
      rcases enaAdminInit_again env ((m.holding true).logged [.reset .ready]) mapped with
        ⟨effects, _, init⟩ | ⟨phys, init⟩
      · exact ⟨mapped, ready, lost.mp ⟨_, init⟩⟩
      · rw [init, ok_bind, run_bind, run_onlyIf] at same
        cases handler <;> cases same
    · rintro ⟨_, _, none⟩
      obtain ⟨last, init⟩ := lost.mpr none
      have other : ¬ (-ENOMEM = 0 ∧ handler = true) := fun both => absurd both.1 (by decide)
      refine ⟨last.holding false, ?_⟩
      rw [init, ok_bind, run_bind, run_onlyIf, if_neg other]
      rfl

def RingAfter (env : Env) (ring : AdminQueue) (m final : Machine) : Prop :=
  (RebuildFails env m ∧ final.eventRing = none) ∨
    (¬ RebuildFails env m ∧ ∃ next, final.eventRing = some next ∧ next.depth = ring.depth)

theorem queues_of_eventRing {ring : AdminQueue} (found : m.eventRing = some ring) :
    ∃ q, m.adapter.queues = some q ∧ q.aenq = ring := by
  unfold Machine.eventRing at found
  exact Option.map_eq_some_iff.mp found

variable (env) in
/-- A recovery keeps the depth of the event ring, or loses the ring. -/
theorem resetAndRecover_eventRing {ring : AdminQueue} (held : Unheld frame false m)
    (found : m.eventRing = some ring) :
    Returns (enaAdapterResetAndRecover env 1) m fun _ final =>
      Unheld frame false final ∧ RingAfter env ring m final := by
  obtain ⟨q, queues, same⟩ := queues_of_eventRing found
  have present : m.adapter.queues.isSome = true := congrArg Option.isSome queues
  obtain ⟨ret, final, ran, free, _⟩ := resetAndRecover_unheld env m held
  refine ⟨ret, final, ran, free, ?_⟩
  rw [enaAdapterResetAndRecover, run_bind, adapter_run, ok_bind, run_ite,
    if_neg (by rw [held.recover]; exact Bool.false_ne_true)] at ran
  obtain ⟨between, cleared, outcome⟩ := recoverOnce_rings ran
  have adapter := atReset_adapter cleared
  have fails : RebuildFails env m ↔ LosesRings env m between := by
    have lost := @resetAndInit_lost_iff env between
    rw [adapter] at lost
    unfold LosesRings
    rw [lost held.admin present rfl]
    constructor
    · rintro ⟨mapped, other, reset, ready, lost⟩
      cases cleared.symm.trans reset
      exact ⟨mapped, ready, lost⟩
    · rintro ⟨mapped, ready, lost⟩
      exact ⟨mapped, between, cleared, ready, lost⟩
  unfold RingAfter Machine.eventRing
  rw [fails]
  rcases outcome with ⟨lost, gone⟩ | ⟨kept, unchanged | ⟨t, phys, still, stays⟩⟩
  · exact .inl ⟨lost, by rw [gone]; rfl⟩
  · exact .inr ⟨kept, ring, by rw [unchanged]; exact found, rfl⟩
  · obtain ⟨last, there⟩ := Option.isSome_iff_exists.mp still
    refine .inr ⟨kept, last.aenq, by rw [there]; rfl, ?_⟩
    refine stays (fun q => q.aenq.depth = ring.depth) ⟨fun q depth => ?_, fun _ depth => depth⟩ ?_ last there
    · rw [submitted_aenq]
      exact depth
    · unfold Adapter.depths freshFrom
      rw [queues, ← same]
      rfl

end Rings

/-! ## The iterations -/

def LosesRing (env : Env) (entry : AenqEntry) (m : Machine) : Prop :=
  m.adapter.aenqHandler = true ∧ AenqGroup.ofCode entry.group = .fatalError ∧ RebuildFails env m

def LosesNext (env : Env) (mask : Nat) (view : AenqView) (m : Machine) : Prop :=
  ∃ entry next, aenqAcknowledge mask view m = .ok (some entry, next) ∧ LosesRing env entry next

/-- No iteration but the last of the budget loses the event ring. -/
def Spares (env : Env) (mask : Nat) (views : Nat → AenqView) : Nat → Nat → Machine → Prop
  | 0, _, _ => True
  | left + 1, i, m => (left ≠ 0 → ¬ LosesNext env mask (views i) m) ∧
      ∀ next, aenqIteration env 1 mask (views i) m = .ok (true, next) →
        Spares env mask views left (i + 1) next

section Iterations

variable {frame : Frame} {env : Env} {m : Machine} {ring : AdminQueue}

def HasRing (frame : Frame) (depth : Depth) (m : Machine) : Prop :=
  Unheld frame false m ∧ ∃ ring, m.eventRing = some ring ∧ ring.depth = depth

variable (env) in
theorem otherHandler_eventRing {entry : AenqEntry} (held : Unheld frame false m)
    (other : AenqGroup.ofCode entry.group ≠ .fatalError) :
    Returns (enaAenqDefaultHandler env 1 entry) m fun _ final =>
      Unheld frame false final ∧ final.eventRing = m.eventRing := by
  unfold enaAenqDefaultHandler
  cases group : AenqGroup.ofCode entry.group with
  | fatalError => exact absurd group other
  | linkChange => exact ⟨0, _, rfl, held.withAdapter rfl rfl rfl rfl, rfl⟩
  | keepAlive => exact ⟨0, _, rfl, held.withAdapter rfl rfl rfl rfl, rfl⟩
  | _ => exact ⟨0, m, rfl, held, rfl⟩

variable (env) in
theorem aenqDispatch_outcome (held : Unheld frame false m) (found : m.eventRing = some ring)
    (entry : AenqEntry) :
    Returns (aenqDispatch env 1 entry) m fun _ final => Unheld frame false final ∧
      ((LosesRing env entry m ∧ final.eventRing = none) ∨
        (¬ LosesRing env entry m ∧ ∃ next, final.eventRing = some next ∧ next.depth = ring.depth)) := by
  unfold aenqDispatch Returns
  rw [run_bind, adapter_run, ok_bind]
  cases handler : m.adapter.aenqHandler with
  | false =>
    refine ⟨(), m, by simp, held, .inr ⟨fun loses => ?_, ring, found, rfl⟩⟩
    exact Bool.false_ne_true (handler.symm.trans loses.1)
  | true =>
    by_cases fatal : AenqGroup.ofCode entry.group = .fatalError
    · obtain ⟨ret, final, ran, free, after⟩ := resetAndRecover_eventRing env held found
      have called : enaAenqDefaultHandler env 1 entry m = .ok (ret, final) := by
        unfold enaAenqDefaultHandler
        rw [fatal]
        exact ran
      refine ⟨(), final, by simp [called], free, ?_⟩
      rcases after with ⟨fails, gone⟩ | ⟨kept, next⟩
      · exact .inl ⟨⟨handler, fatal, fails⟩, gone⟩
      · exact .inr ⟨fun loses => kept loses.2.2, next⟩
    · obtain ⟨ret, final, ran, free, same⟩ := otherHandler_eventRing env held fatal
      exact ⟨(), final, by simp [ran], free,
        .inr ⟨fun loses => fatal loses.2.1, ring, Eq.trans same found, rfl⟩⟩

/-- An iteration tests an entry of the ring, and advances in it. -/
theorem aenqAcknowledge_outcome (held : Unheld frame false m) (found : m.eventRing = some ring)
    (view : AenqView) :
    aenqAcknowledge (ring.depth.val - 1) view m = .ok (none, m) ∨
      ∃ entry next, aenqAcknowledge (ring.depth.val - 1) view m = .ok (some entry, next) ∧
        HasRing frame ring.depth next := by
  obtain ⟨q, queues, rfl⟩ := queues_of_eventRing found
  have inside : ¬ q.aenq.depth.val ≤ q.aenq.cursor.index &&& (q.aenq.depth.val - 1) := by
    have bound := Nat.and_le_right (n := q.aenq.cursor.index) (m := q.aenq.depth.val - 1)
    have positive := q.aenq.depth.pos
    omega
  unfold aenqAcknowledge
  rw [run_bind, adapter_run, ok_bind]
  dsimp only
  rw [queues]
  dsimp only
  rw [if_neg inside]
  by_cases other : (view.tested (q.aenq.cursor.index &&& (q.aenq.depth.val - 1))).phase ≠
      q.aenq.cursor.phase
  · rw [if_pos other]
    exact .inl rfl
  · rw [if_neg other]
    refine .inr ⟨_, _, rfl, Unheld.logged (held.withAdapter ?_ ?_ ?_ ?_) _, _, rfl, ?_⟩ <;> rfl

/-- Without a ring the test of an iteration reads no memory of the driver. -/
theorem aenqIteration_lost (lost : m.eventRing = none) (mask : Nat) (view : AenqView) :
    aenqIteration env 1 mask view m = .error .badAccess := by
  have queues : m.adapter.queues = none := Option.map_eq_none_iff.mp lost
  unfold aenqIteration aenqAcknowledge
  simp [queues]
  rfl

theorem losesNext_iff {mask : Nat} {view : AenqView} {entry : AenqEntry} {next : Machine}
    (ran : aenqAcknowledge mask view m = .ok (some entry, next)) :
    LosesNext env mask view m ↔ LosesRing env entry next := by
  constructor
  · rintro ⟨other, last, same, loses⟩
    cases ran.symm.trans same
    exact loses
  · exact fun loses => ⟨entry, next, ran, loses⟩

theorem aenqIteration_outcome {depth : Depth} (held : HasRing frame depth m) (view : AenqView) :
    (¬ LosesNext env (depth.val - 1) view m ∧
      (aenqIteration env 1 (depth.val - 1) view m = .ok (false, m) ∨
        ∃ next, aenqIteration env 1 (depth.val - 1) view m = .ok (true, next) ∧
          HasRing frame depth next)) ∨
    (LosesNext env (depth.val - 1) view m ∧
      ∃ next, aenqIteration env 1 (depth.val - 1) view m = .ok (true, next) ∧
        next.eventRing = none) := by
  obtain ⟨free, ring, found, rfl⟩ := held
  unfold aenqIteration
  rw [run_bind]
  rcases aenqAcknowledge_outcome free found view with ran | ⟨entry, next, ran, free, after, kept, same⟩
  · refine .inl ⟨?_, .inl (by rw [ran]; rfl)⟩
    rintro ⟨entry, next, other, _⟩
    cases ran.symm.trans other
  obtain ⟨_, final, dispatched, unheld, outcome⟩ := aenqDispatch_outcome env free kept entry
  have called : (aenqDispatch env 1 entry >>= fun _ => pure true) next = .ok (true, final) := by
    rw [run_bind, dispatched]
    rfl
  rw [losesNext_iff ran, ran, ok_bind]
  rcases outcome with ⟨loses, gone⟩ | ⟨spares, last, live, depth⟩
  · exact .inr ⟨loses, final, called, gone⟩
  · exact .inl ⟨spares, .inr ⟨final, called, unheld, last, live, depth.trans same⟩⟩

theorem aenqLoop_lost (lost : m.eventRing = none) (mask : Nat) (views : Nat → AenqView)
    (left i : Nat) : aenqLoop env 1 mask views (left + 1) i m = .error .badAccess := by
  rw [aenqLoop, run_bind, aenqIteration_lost lost]
  rfl

variable (frame env) in
/-- The loop returns as long as the iterations with budget left spare the ring, and
otherwise dereferences a ring that is gone. -/
theorem aenqLoop_outcome {depth : Depth} (views : Nat → AenqView) (left : Nat) :
    ∀ i m, HasRing frame depth m →
      (Spares env (depth.val - 1) views left i m ∧
        ∃ count final, aenqLoop env 1 (depth.val - 1) views left i m = .ok (count, final)) ∨
      (¬ Spares env (depth.val - 1) views left i m ∧
        aenqLoop env 1 (depth.val - 1) views left i m = .error .badAccess) := by
  induction left with
  | zero => exact fun _ m _ => .inl ⟨trivial, 0, m, rfl⟩
  | succ left ih =>
    intro i m held
    rw [aenqLoop, run_bind, Spares]
    rcases aenqIteration_outcome held (views i) with
      ⟨spared, ran | ⟨next, ran, kept⟩⟩ | ⟨loses, next, ran, lost⟩
    · refine .inl ⟨⟨fun _ => spared, ?_⟩, 0, m, by rw [ran]; rfl⟩
      intro next other
      cases ran.symm.trans other
    · have only : (∀ other, aenqIteration env 1 (depth.val - 1) (views i) m = .ok (true, other) →
          Spares env (depth.val - 1) views left (i + 1) other) ↔
          Spares env (depth.val - 1) views left (i + 1) next := by
        constructor
        · exact fun all => all next ran
        · intro spares other same
          cases ran.symm.trans same
          exact spares
      rw [only, ran, ok_bind, run_ite, if_pos rfl, run_bind]
      rcases ih (i + 1) next kept with ⟨spares, count, final, rest⟩ | ⟨ends, rest⟩
      · exact .inl ⟨⟨fun _ => spared, spares⟩, count + 1, final, by rw [rest]; rfl⟩
      · exact .inr ⟨fun both => ends both.2, by rw [rest]; rfl⟩
    · rw [ran, ok_bind, run_ite, if_pos rfl, run_bind]
      cases left with
      | zero =>
        refine .inl ⟨⟨fun more => absurd rfl more, fun _ _ => trivial⟩, 1, next, rfl⟩
      | succ left =>
        refine .inr ⟨fun both => both.1 (Nat.succ_ne_zero left) loses, ?_⟩
        rw [aenqLoop_lost lost]
        rfl

end Iterations

/-- Polling touches only the live event ring exactly when no fatal event that is
dispatched with budget left loses it, and nothing else makes the poll fail. -/
theorem aenq_poll_stays_live_iff {frame : Frame} {m : Machine} (env : Env)
    (unheld : Unheld frame false m) (views : Nat → AenqView) (maxEvents : Nat) :
    (enaAdminAenqPoll env 1 views maxEvents m ≠ .error .badAccess ↔
      ∀ q, m.adapter.queues = some q → Spares env (q.aenq.depth.val - 1) views maxEvents 0 m) ∧
    ∀ fault, enaAdminAenqPoll env 1 views maxEvents m = .error fault → fault = .badAccess := by
  unfold enaAdminAenqPoll
  rw [run_bind, adapter_run, ok_bind]
  dsimp only
  cases queues : m.adapter.queues with
  | none =>
    refine ⟨⟨fun _ q present => ?_, fun _ failed => ?_⟩, fun fault failed => ?_⟩
    · cases present
    · cases failed
    · cases failed
  | some q =>
    have found : m.eventRing = some q.aenq := by
      unfold Machine.eventRing
      rw [queues]
      rfl
    dsimp only
    rw [run_bind]
    rcases aenqLoop_outcome frame env views maxEvents 0 m ⟨unheld, q.aenq, found, rfl⟩ with
      ⟨spares, count, final, ran⟩ | ⟨loses, ran⟩
    · rw [ran]
      refine ⟨⟨fun _ other same => ?_, fun _ failed => ?_⟩, fun fault failed => ?_⟩
      · cases same
        exact spares
      · cases failed
      · cases failed
    · rw [ran]
      refine ⟨⟨fun other => absurd rfl other, fun all => absurd (all q rfl) loses⟩,
        fun fault failed => ?_⟩
      cases failed
      rfl

def handlingPair : Machine :=
  (onePair plainDevice).withAdapter ((onePair plainDevice).adapter.setHandler true)

def fatalView : AenqView := ⟨fun _ => ⟨1, 0, 1, fun _ => 0⟩, fun _ => ⟨1, 0, 1, fun _ => 0⟩⟩

def Env.exhausted : Env := { Env.obliging with dma := fun _ => none }

/-- A fatal event that uses up the budget may lose the ring. -/
theorem aenq_poll_stays_live_single :
    enaAdminAenqPoll Env.exhausted 1 (fun _ => fatalView) 1 handlingPair ≠ .error .badAccess := by
  have unheld : Unheld pairFrame false handlingPair :=
    (onePair_unheld plainDevice).withAdapter rfl rfl rfl rfl
  refine (aenq_poll_stays_live_iff Env.exhausted unheld (fun _ => fatalView) 1).1.mpr ?_
  intro q _
  exact ⟨fun more => absurd rfl more, fun _ _ => trivial⟩

/-- With budget left, the loop goes on without a ring. -/
theorem aenq_poll_reads_lost_ring :
    Unheld pairFrame false handlingPair ∧
      enaAdminAenqPoll Env.exhausted 1 (fun _ => fatalView) 2 handlingPair = .error .badAccess := by
  refine ⟨(onePair_unheld plainDevice).withAdapter rfl rfl rfl rfl, ?_⟩
  rfl

end EnaDriver.Admin
