import EnaDriver.Datapath.TransmitPartition
import EnaDriver.Datapath.ReceiveTracking

/-!
# Positions at queue creation

A freshly created device queue starts at slot zero with phase one.  Creation and
destruction of the hardware queues leave the positions of a ring alone, and only
a reset returns them to the start.  So the positions of the ring match the new
queue exactly when the descriptors written and the completions consumed since
the ring was allocated or last reset fill whole pairs of laps.
-/

namespace EnaDriver.Datapath

open Support.Laps
open Support.Runs

structure FreshPositions (r : Ring) : Prop where
  sqSlot : r.sqSlot = 0
  sqPhase : r.sqTail.phase = true
  cqSlot : r.cqSlot = 0
  cqPhase : r.cqHead.phase = true

/-- A ring with the numbers of descriptors written and of completions consumed
since it was allocated or last reset. -/
structure Tally (π : Type) where
  port : π
  sent : Nat
  done : Nat

def Tally.next {π : Type} (tally : Tally π) (port : π) (isReset : Bool) (sent done : Nat) :
    Tally π :=
  if isReset then ⟨port, 0, 0⟩ else ⟨port, tally.sent + sent, tally.done + done⟩

theorem Tally.next_port {π : Type} (tally : Tally π) (port : π) (isReset : Bool)
    (sent done : Nat) : (tally.next port isReset sent done).port = port := by
  unfold next
  split <;> rfl

def txTally (tally : Tally TxPort) (op : TxOp) : Except Fault (Tally TxPort) := do
  let (port, entries) ← txApply tally.port op
  return tally.next port op.isReset (acceptances entries).length (entries.countP TxLog.isConsumed)

def rxTally (tally : Tally RxPort) (op : RxOp) : Except Fault (Tally RxPort) := do
  let (port, events) ← rxApply tally.port op
  return tally.next port op.isReset (posted events).length (consumed events)

structure Located (d cq : Depth) (r : Ring) (sent done : Nat) : Prop where
  sqDepth : r.sqDepth = d
  cqDepth : r.cqDepth = cq
  sqTail : r.sqTail = Cursor.after d sent
  cqHead : r.cqHead = Cursor.after cq done

variable {cq d : Depth} {done sent : Nat} {r : Ring} {memory : Nat → Option Nat}
  {sqDepth cqDepth : UInt16}

/-- Positions are fresh exactly after whole pairs of laps. -/
theorem Located.fresh_iff (located : Located d cq r sent done) :
    FreshPositions r ↔ 2 * d.val ∣ sent ∧ 2 * cq.val ∣ done := by
  rw [← Cursor.after_fresh_iff d sent, ← Cursor.after_fresh_iff cq done, ← located.sqTail,
    ← located.cqHead, ← located.sqDepth, ← located.cqDepth]
  constructor
  · rintro ⟨sqSlot, sqPhase, cqSlot, cqPhase⟩
    exact ⟨⟨sqSlot, sqPhase⟩, cqSlot, cqPhase⟩
  · rintro ⟨⟨sqSlot, sqPhase⟩, cqSlot, cqPhase⟩
    exact ⟨sqSlot, sqPhase, cqSlot, cqPhase⟩

/-- Queue creation leaves the positions alone. -/
theorem Located.createHw {next : Ring} (located : Located d cq r sent done) {dev : DeviceMap}
    {answers : AdminReq → Int × Response} {vector : Nat} {ret : Int}
    (created : createHwOn dev answers vector r = .ok (ret, next)) :
    Located d cq next sent done := by
  obtain ⟨_, hw, ran⟩ := createHwOn_hwOnly dev answers vector r
  cases ran.symm.trans created
  exact ⟨located.sqDepth, located.cqDepth, located.sqTail, located.cqHead⟩

/-- The counts after one more operation tell the positions it leaves. -/
theorem Located.next {π : Type} {tally : Tally π} {next : Ring}
    (located : Located d cq r tally.sent tally.done) {isReset : Bool}
    (depths : next.sqDepth = r.sqDepth ∧ next.cqDepth = r.cqDepth) (sqTail : next.sqTail =
      Cursor.after r.sqDepth (if isReset then 0 else tally.sent + sent)) (cqHead : next.cqHead =
      Cursor.after r.cqDepth (if isReset then 0 else tally.done + done)) (port : π) :
    Located d cq next (tally.next port isReset sent done).sent
      (tally.next port isReset sent done).done := by
  obtain ⟨rfl, rfl, _, _⟩ := located
  cases isReset with
  | true => exact ⟨depths.1, depths.2, sqTail, cqHead⟩
  | false => exact ⟨depths.1, depths.2, sqTail, cqHead⟩

/-! ## Transmit rings -/

def TxCounted (d cq : Depth) (tally : Tally TxPort) : Prop :=
  (∃ ledger, Tracks tally.port.ring ledger) ∧ tally.port.ring.ringLock = false ∧
    Located d cq tally.port.ring tally.sent tally.done

theorem txTally_step {tally : Tally TxPort} (counted : TxCounted d cq tally) (op : TxOp) :
    ∃ next, txTally tally op = .ok next ∧ TxCounted d cq next := by
  obtain ⟨⟨ledger, tracks⟩, unlocked, located⟩ := counted
  obtain ⟨rfl, rfl, sqTail, cqHead⟩ := located
  obtain ⟨next, entries, ran, effect⟩ := txApply_effect tracks unlocked cqHead op
  obtain ⟨_, after, _, tracked, _⟩ := effect.acts
  have moved := Located.next ⟨rfl, rfl, sqTail, cqHead⟩ ⟨effect.sqDepth, effect.cqDepth⟩
    (effect.sent _ sqTail) (effect.done _ cqHead) next
  refine ⟨_, by rw [txTally, ran]; rfl, ?_⟩
  rw [TxCounted, Tally.next_port]
  exact ⟨⟨after, tracked⟩, effect.unlocked, moved⟩

theorem txTally_run {qid : Nat} {ring : Ring}
    (built : enaRingAlloc qid .tx sqDepth cqDepth memory = .ok ring) (queue : Option TxQueue)
    (ops : List TxOp) :
    ∃ tally, run txTally ⟨⟨ring, queue⟩, 0, 0⟩ ops = .ok tally ∧
      TxCounted ring.sqDepth ring.cqDepth tally := by
  have history := txHistory_start built queue
  obtain ⟨_, _, _, _, _, fresh⟩ := enaRingAlloc_ok built
  have start : TxCounted ring.sqDepth ring.cqDepth ⟨⟨ring, queue⟩, 0, 0⟩ := by
    refine ⟨⟨_, history.tracks⟩, history.unlocked, rfl, rfl, ?_, ?_⟩
    · rw [Cursor.after_zero, fresh]
      rfl
    · rw [Cursor.after_zero, fresh]
      rfl
  exact run_invariant (fun _ _ => True) _ (fun _ op counted _ => txTally_step counted op) start
    (meets_of_forall (fun _ _ => trivial) _ ops)

/-! ## Receive rings -/

def RxCounted (d cq : Depth) (tally : Tally RxPort) : Prop :=
  (∃ ledger, RxTracks tally.port.ring ledger) ∧ tally.port.ring.ringLock = false ∧
    Located d cq tally.port.ring tally.sent tally.done

/-- One operation, with its effect on the ring and on the counts. -/
theorem rxTally_effect {tally : Tally RxPort} {ledger : RxLedger}
    (tracks : RxTracks tally.port.ring ledger) (unlocked : tally.port.ring.ringLock = false)
    (located : Located d cq tally.port.ring tally.sent tally.done) (op : RxOp) :
    ∃ next events, rxApply tally.port op = .ok (next, events) ∧
      RxEffect tally.port op ledger next.ring events ∧
      RxCounted d cq (tally.next next op.isReset (posted events).length (consumed events)) := by
  obtain ⟨rfl, rfl, sqTail, cqHead⟩ := located
  obtain ⟨next, events, ran, effect⟩ := rxApply_effect tracks unlocked cqHead op
  obtain ⟨_, after, _, tracked, _⟩ := effect.acts
  have moved := Located.next ⟨rfl, rfl, sqTail, cqHead⟩ ⟨effect.sqDepth, effect.cqDepth⟩
    (effect.sent _ sqTail) (effect.done _ cqHead) next
  refine ⟨next, events, ran, effect, ?_⟩
  rw [RxCounted, Tally.next_port]
  exact ⟨⟨after, tracked⟩, effect.unlocked, moved⟩

theorem rxTally_step {tally : Tally RxPort} (counted : RxCounted d cq tally) (op : RxOp) :
    ∃ next, rxTally tally op = .ok next ∧ RxCounted d cq next := by
  obtain ⟨⟨ledger, tracks⟩, unlocked, located⟩ := counted
  obtain ⟨next, events, ran, _, counted⟩ := rxTally_effect tracks unlocked located op
  exact ⟨_, by rw [rxTally, ran]; rfl, counted⟩

theorem rxCounted_start {qid : Nat} {ring : Ring}
    (built : enaRingAlloc qid .rx sqDepth cqDepth memory = .ok ring) (dropCb refillCb : Bool)
    (queue : Option RxQueue) :
    RxCounted ring.sqDepth ring.cqDepth ⟨⟨ring.withCallbacks dropCb refillCb, queue⟩, 0, 0⟩ := by
  obtain ⟨history, _⟩ := rxHistory_start built dropCb refillCb queue
  obtain ⟨_, _, _, _, _, fresh⟩ := enaRingAlloc_ok built
  refine ⟨⟨_, history.tracks⟩, history.unlocked, rfl, rfl, ?_, ?_⟩
  · rw [Cursor.after_zero, fresh]
    rfl
  · rw [Cursor.after_zero, fresh]
    rfl

theorem rxTally_run {qid : Nat} {ring : Ring}
    (built : enaRingAlloc qid .rx sqDepth cqDepth memory = .ok ring) (dropCb refillCb : Bool)
    (queue : Option RxQueue) (ops : List RxOp) :
    ∃ tally, run rxTally ⟨⟨ring.withCallbacks dropCb refillCb, queue⟩, 0, 0⟩ ops = .ok tally ∧
      RxCounted ring.sqDepth ring.cqDepth tally :=
  run_invariant (fun _ _ => True) _ (fun _ op counted _ => rxTally_step counted op)
    (rxCounted_start built dropCb refillCb queue) (meets_of_forall (fun _ _ => trivial) _ ops)

/-! ## Main result -/

/-- After every history of a ring, and for either direction, a queue creation
leaves fresh positions exactly when the descriptors written since allocation or
the last reset fill whole pairs of laps, and the completions consumed do so too. -/
theorem create_hw_positions_fresh_iff {qid : Nat} {sqDepth cqDepth : UInt16}
    {memory : Nat → Option Nat} {txRing rxRing : Ring}
    (txBuilt : enaRingAlloc qid .tx sqDepth cqDepth memory = .ok txRing)
    (rxBuilt : enaRingAlloc qid .rx sqDepth cqDepth memory = .ok rxRing)
    (txQueue : Option TxQueue) (rxQueue : Option RxQueue) (dropCb refillCb : Bool)
    (txOps : List TxOp) (rxOps : List RxOp) :
    (∃ tally, run txTally ⟨⟨txRing, txQueue⟩, 0, 0⟩ txOps = .ok tally ∧
      ∀ dev answers vector next,
        createHwOn dev answers vector tally.port.ring = .ok (0, next) →
          (FreshPositions next ↔
            2 * txRing.sqDepth.val ∣ tally.sent ∧ 2 * txRing.cqDepth.val ∣ tally.done)) ∧
    ∃ tally, run rxTally ⟨⟨rxRing.withCallbacks dropCb refillCb, rxQueue⟩, 0, 0⟩ rxOps =
        .ok tally ∧
      ∀ dev answers vector next,
        createHwOn dev answers vector tally.port.ring = .ok (0, next) →
          (FreshPositions next ↔
            2 * rxRing.sqDepth.val ∣ tally.sent ∧ 2 * rxRing.cqDepth.val ∣ tally.done) := by
  constructor
  · obtain ⟨tally, ran, _, _, located⟩ := txTally_run txBuilt txQueue txOps
    refine ⟨tally, ran, ?_⟩
    intro dev answers vector next created
    exact (located.createHw created).fresh_iff
  · obtain ⟨tally, ran, _, _, located⟩ := rxTally_run rxBuilt dropCb refillCb rxQueue rxOps
    refine ⟨tally, ran, ?_⟩
    intro dev answers vector next created
    exact (located.createHw created).fresh_iff

/-- A device that creates every queue, with its registers at one offset. -/
def willing (_ : AdminReq) : Int × Response := (0, fun _ => 256)

def smallDevice : DeviceMap := ⟨true, 4096, false, 0, ⟨false, 0, 0, 0⟩⟩

/-- A transmit ring that was reset after its traffic, and a receive ring that was
never used. -/
theorem create_hw_positions_fresh_iff_reset :
    ∃ tally, run txTally ⟨⟨smallTxRing, none⟩, 0, 0⟩
        [.createHw 0 smallDevice willing 0, .submit 0 (smallPkt 7), .reset 0] = .ok tally ∧
      ∃ next, createHwOn smallDevice willing 0 tally.port.ring = .ok (0, next) ∧
        FreshPositions next := by
  obtain ⟨⟨tally, ran, fresh⟩, _⟩ :=
    create_hw_positions_fresh_iff smallTxRing_built smallRxRing_built none none true true
      [.createHw 0 smallDevice willing 0, .submit 0 (smallPkt 7), .reset 0] []
  cases ran
  refine ⟨_, rfl, _, rfl, ?_⟩
  rw [fresh smallDevice willing 0 _ rfl]
  exact ⟨Nat.dvd_zero _, Nat.dvd_zero _⟩

/-- One packet is sent and completed, then the queues are destroyed and created
again: the ring goes on at slot one while the device starts at slot zero. -/
theorem create_hw_after_stop_keeps_positions :
    ∃ tally, run txTally ⟨⟨smallTxRing, none⟩, 0, 0⟩
        [.createHw 0 smallDevice willing 0, .submit 0 (smallPkt 7),
          .poll 0 0 [] (oneCompletion 0), .destroyHw 0 willing] = .ok tally ∧
      ∃ next, createHwOn smallDevice willing 0 tally.port.ring = .ok (0, next) ∧
        ¬ FreshPositions next := by
  refine ⟨_, rfl, _, rfl, ?_⟩
  intro fresh
  cases fresh.sqSlot

end EnaDriver.Datapath
