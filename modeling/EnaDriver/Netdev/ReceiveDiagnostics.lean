import EnaDriver.Datapath.Positions
import EnaDriver.Datapath.RingSteps

/-!
# Diagnostics of a receive ring

Three diagnostics report the descriptors that are posted and not yet consumed.
One masks the distance between the producer and the submission head, which no
receive ring moves; one subtracts the free-running counters; one counts the
in-flight marks.
-/

namespace EnaDriver.Netdev

open Support.Laps Support.Custody Support.Runs
open Datapath

/-- The difference of two 16-bit counters, converted to 32 bits without sign. -/
def counterDiff (first second : Nat) : Nat := (4294967296 + first - second) % 4294967296

def enaNetdevRxPosted : Option Ring → Nat
  | none => 0xFFFFFFFF
  | some r => r.sqDepth.slot (counterDiff r.sqTail.index r.sqHead)

structure RxRingState where
  freeReqs : Nat
  inflight : Nat
  sqTail : Nat
  sqHead : Nat
  cqHead : Nat

def enaNetdevRxRingState : Option Ring → RxRingState
  | none => ⟨0, 0, 0, 0, 0⟩
  | some r =>
    ⟨r.pool.freeReqCount, (List.range r.sqDepth.val).countP r.pool.reqInFlight, r.sqTail.index,
      r.sqHead, r.cqHead.index⟩

structure RingStats where
  txFree : Nat
  rxPosted : Nat
  bounceFree : Nat

def enaNetdevRingStats (tx rx : Option Ring) : RingStats where
  txFree := (tx.map fun r => r.pool.freeReqCount).getD 0
  rxPosted := (rx.map fun r => counterDiff r.sqTail.index r.cqHead.index).getD 0
  bounceFree := 0

theorem enaNetdevRingStats_rxPosted (tx : Option Ring) (r : Ring) :
    (enaNetdevRingStats tx (some r)).rxPosted = counterDiff r.sqTail.index r.cqHead.index := by
  simp only [enaNetdevRingStats, Option.map_some, Option.getD_some]

def outstanding (r : Ring) : Nat := r.sqDepth.val - r.pool.freeReqCount

structure Diagnosed (tx : Option Ring) (r : Ring) : Prop where
  posted : enaNetdevRxPosted (some r) = outstanding r
  stats : (enaNetdevRingStats tx (some r)).rxPosted = outstanding r
  inflight : (enaNetdevRxRingState (some r)).inflight = outstanding r

structure RxAudit where
  tally : Tally RxPort
  returned : Nat

def rxAudit (audit : RxAudit) (op : RxOp) : Except Fault RxAudit := do
  let (port, events) ← rxApply audit.tally.port op
  return ⟨audit.tally.next port op.isReset (posted events).length (consumed events),
    if op.isReset then 0 else audit.returned + (given events).length⟩

/-- The difference of two counters is right when they differ by as much and the
second is not ahead. -/
theorem counterDiff_eq_iff {sent done returned left : Nat} (balance : sent = returned + left)
    (small : left ≤ 32768) :
    counterDiff (sent % 65536) (done % 65536) = left ↔
      done % 65536 = returned % 65536 ∧ done % 65536 ≤ sent % 65536 := by
  unfold counterDiff
  omega

/-! ## Outstanding requests -/

variable {audit : RxAudit} {cq d : Depth} {events : List Event} {ledger : RxLedger} {op : RxOp}
  {p next : RxPort} {r : Ring}

theorem outstanding_eq_allocated (tracks : RxTracks r ledger) :
    outstanding r = (List.range r.sqDepth.val).countP r.pool.reqAllocated := by
  have whole := tracks.2.sound.count_add_allocated
  unfold outstanding
  omega

theorem outstanding_eq_held (tracks : RxTracks r ledger) :
    outstanding r = held (fun _ => true) r.sqDepth.val ledger := by
  rw [outstanding_eq_allocated tracks]
  refine List.countP_congr fun id _ => ?_
  rw [tracks.2.allocated, Status.holds]
  rcases rxStatus_cases (ledger id) with isFree | ⟨nb, active⟩
  · simp [isFree, Status.isHeld, Status.item?]
  · simp [active, Status.isHeld, Status.item?]

/-- The marks count what is outstanding exactly when none of them is stale. -/
theorem inflight_eq_iff (tracks : RxTracks r ledger) :
    (enaNetdevRxRingState (some r)).inflight = outstanding r ↔ MarksAgree r := by
  have flagged : ∀ id, r.pool.reqAllocated id = true → r.pool.reqInFlight id = true := by
    intro id owned
    rw [tracks.2.allocated] at owned
    exact tracks.2.flagged id owned
  change (List.range r.sqDepth.val).countP r.pool.reqInFlight = _ ↔ _
  rw [outstanding_eq_allocated tracks, List.countP_eq_length_filter, List.countP_eq_length_filter]
  constructor
  · intro size id
    by_cases inside : id < r.sqDepth.val
    · have same := (List.monotone_filter_right (List.range r.sqDepth.val) flagged).eq_of_length size.symm
      have member : id ∈ List.filter r.pool.reqAllocated _ ↔ _ := Eq.to_iff (congrArg (id ∈ ·) same)
      rw [List.mem_filter, List.mem_filter, List.mem_range] at member
      have alike : r.pool.reqAllocated id = true ↔ r.pool.reqInFlight id = true :=
        ⟨fun owned => (member.mp ⟨inside, owned⟩).2, fun marked => (member.mpr ⟨inside, marked⟩).2⟩
      exact Bool.eq_iff_iff.mpr alike.symm
    · have owned : r.pool.reqAllocated id = false := by
        rw [tracks.2.allocated, tracks.2.outside id (Nat.le_of_not_lt inside)]
        rfl
      have unmarked := mt (tracks.2.bounded id) inside
      rw [Bool.not_eq_true] at unmarked
      rw [owned, unmarked]
  · intro agree
    rw [show r.pool.reqInFlight = r.pool.reqAllocated from funext agree]

/-! ## Runs -/

theorem sqHead_steps : RingSteps fun r _ next => next.sqHead = r.sqHead where
  trans := fun earlier later => later.trans earlier
  books := fun books => congrArg (fun o : RingType × HwQueue × _ => o.2.2.2.2.2.2) books.same
  produced := fun _ => rfl
  passed := fun _ => rfl
  noted := fun _ _ _ => rfl
  doorbell := fun _ => rfl
  reported := fun _ _ => rfl

theorem rxApply_sqHead (unlocked : p.ring.ringLock = false) (zero : p.ring.sqHead = 0)
    (ran : rxApply p op = .ok (next, events)) : next.ring.sqHead = 0 := by
  cases op with
  | submitOne netbuf physAddr bufLen =>
    obtain ⟨out, submitted, rest⟩ := bind_ok ran
    cases rest
    exact (sqHead_steps.rxSubmitOne submitted).trans zero
  | refill count alloc =>
    obtain ⟨⟨ret, last, happened⟩, refilled, rest⟩ := bind_ok ran
    cases rest
    exact (sqHead_steps.rxRefill refilled).trans zero
  | poll maxPkts changing settled =>
    obtain ⟨polled, took, rest⟩ := bind_ok ran
    cases rest
    exact (sqHead_steps.rxPoll took).trans zero
  | reset =>
    obtain ⟨txBufs, rxBufs, _, cleared⟩ := enaAdapterInvalidateIoRing_ok unlocked
    rw [rxApply, cleared] at ran
    cases ran
    rfl
  | createHw dev answers vector =>
    obtain ⟨ret, hw, created⟩ := createHwOn_hwOnly dev answers vector p.ring
    rw [rxApply, created] at ran
    cases ran
    exact zero
  | destroyHw answers =>
    obtain ⟨ret, hw, destroyed⟩ := destroyHwOn_hwOnly answers p.ring
    rw [rxApply, destroyed] at ran
    cases ran
    exact zero

theorem rxApply_outstanding (tracks : RxTracks p.ring ledger) (unlocked : p.ring.ringLock = false)
    (ran : rxApply p op = .ok (next, events))
    (effect : RxEffect p op ledger next.ring events) :
    if op.isReset then outstanding next.ring = 0 else
      (given events).length + outstanding next.ring =
        (posted events).length + outstanding p.ring := by
  split
  · rename_i isReset
    cases op with
    | reset =>
      obtain ⟨txBufs, rxBufs, _, cleared⟩ := enaAdapterInvalidateIoRing_ok unlocked
      rw [rxApply, cleared] at ran
      cases ran
      exact Nat.sub_self _
    | _ => cases isReset
  · obtain ⟨actions, after, steps, tracked, entries, gave⟩ := effect.acts
    have balance := steps.balance (effect_bounded tracks steps) fun _ => true
    have incoming := entered_count (fun _ => true) actions
    have outgoing := yielded_count some (fun _ => true) actions
    rw [List.countP_true] at incoming outgoing
    rw [outstanding_eq_held tracks, outstanding_eq_held tracked, entries, gave, effect.sqDepth,
      incoming, outgoing]
    exact balance.symm

/-- Every netbuf posted since the last reset was given away or is outstanding. -/
structure Audited (d cq : Depth) (audit : RxAudit) : Prop where
  counted : RxCounted d cq audit.tally
  sqHead : audit.tally.port.ring.sqHead = 0
  balance : audit.tally.sent = audit.returned + outstanding audit.tally.port.ring

theorem rxAudit_step (audited : Audited d cq audit) (op : RxOp) :
    ∃ next, rxAudit audit op = .ok next ∧ Audited d cq next := by
  obtain ⟨⟨⟨ledger, tracks⟩, unlocked, located⟩, sqHead, balance⟩ := audited
  obtain ⟨next, events, ran, effect, counted⟩ := rxTally_effect tracks unlocked located op
  have left := rxApply_outstanding tracks unlocked ran effect
  refine ⟨_, by rw [rxAudit, ran]; rfl, counted, ?_, ?_⟩
  · dsimp only
    rw [Tally.next_port]
    exact rxApply_sqHead unlocked sqHead ran
  dsimp only
  rw [Tally.next_port]
  unfold Tally.next
  split
  · rename_i isReset
    rw [if_pos isReset] at left
    rw [left]
  · rename_i normal
    rw [if_neg normal] at left
    dsimp only
    omega

theorem rxAudit_run {qid : Nat} {sqDepth cqDepth : UInt16} {memory : Nat → Option Nat}
    {ring : Ring} (built : enaRingAlloc qid .rx sqDepth cqDepth memory = .ok ring)
    (dropCb refillCb : Bool) (queue : Option RxQueue) (ops : List RxOp) :
    ∃ audit, run rxAudit ⟨⟨⟨ring.withCallbacks dropCb refillCb, queue⟩, 0, 0⟩, 0⟩ ops =
        .ok audit ∧ Audited ring.sqDepth ring.cqDepth audit := by
  obtain ⟨_, _, _, _, _, fresh⟩ := enaRingAlloc_ok built
  have start : Audited ring.sqDepth ring.cqDepth
      ⟨⟨⟨ring.withCallbacks dropCb refillCb, queue⟩, 0, 0⟩, 0⟩ := by
    refine ⟨rxCounted_start built dropCb refillCb queue, ?_, ?_⟩
    · rw [fresh]
      rfl
    · rw [fresh]
      change 0 = 0 + (ring.sqDepth.val - ring.sqDepth.val)
      rw [Nat.sub_self]
  exact run_invariant (fun _ _ => True) _ (fun audit op audited _ => rxAudit_step audited op) start
    (meets_of_forall (fun _ _ => trivial) _ ops)

/-! ## Main result -/

/-- The state of a ring in which its diagnostics are right: the netbufs given away
since the last reset fill whole laps and a request is free, the completions
consumed are as many as the netbufs given away as far as 16 bits can tell and
their counter is not ahead of the producer, and no in-flight mark is stale. -/
structure Legible (audit : RxAudit) : Prop where
  laps : audit.tally.port.ring.sqDepth.val ∣ audit.returned
  room : audit.tally.port.ring.pool.freeReqCount ≠ 0
  settled : audit.tally.done % 65536 = audit.returned % 65536
  behind : audit.tally.done % 65536 ≤ audit.tally.sent % 65536
  marks : MarksAgree audit.tally.port.ring

theorem add_mod_eq_iff {size first second : Nat} (positive : 0 < size) :
    (first + second) % size = second ↔ size ∣ first ∧ second < size := by
  constructor
  · intro same
    have whole := Nat.div_add_mod (first + second) size
    have small := Nat.mod_lt (first + second) positive
    rw [same] at whole small
    exact ⟨⟨_, (Nat.add_right_cancel whole).symm⟩, small⟩
  · rintro ⟨⟨laps, whole⟩, small⟩
    rw [whole, Nat.mul_add_mod, Nat.mod_eq_of_lt small]

theorem Audited.posted_iff (audited : Audited d cq audit) :
    enaNetdevRxPosted (some audit.tally.port.ring) = outstanding audit.tally.port.ring ↔
      d.val ∣ audit.returned ∧ audit.tally.port.ring.pool.freeReqCount ≠ 0 := by
  obtain ⟨⟨⟨ledger, tracks⟩, _, located⟩, sqHead, balance⟩ := audited
  have tail := Nat.mod_lt audit.tally.sent (by decide : 0 < 65536)
  have value : enaNetdevRxPosted (some audit.tally.port.ring) = audit.tally.sent % d.val := by
    rw [enaNetdevRxPosted, counterDiff, sqHead, located.sqTail, located.sqDepth, Cursor.after,
      Nat.sub_zero, Nat.add_mod_left, Nat.mod_eq_of_lt (Nat.lt_trans tail (by decide)),
      d.slot_wrap]
  rw [value, balance, add_mod_eq_iff d.pos, outstanding, located.sqDepth]
  have positive := d.pos
  omega

theorem Audited.stats_iff (audited : Audited d cq audit) (tx : Option Ring) :
    (enaNetdevRingStats tx (some audit.tally.port.ring)).rxPosted =
        outstanding audit.tally.port.ring ↔
      audit.tally.done % 65536 = audit.returned % 65536 ∧
        audit.tally.done % 65536 ≤ audit.tally.sent % 65536 := by
  obtain ⟨_, _, located⟩ := audited.counted
  have balance := audited.balance
  have small : outstanding audit.tally.port.ring ≤ 32768 :=
    Nat.le_trans (Nat.sub_le _ _) (Depth.le _)
  rw [enaNetdevRingStats_rxPosted, located.sqTail, located.cqHead]
  exact counterDiff_eq_iff balance small

/-- After every history of a receive ring the three diagnostics are right exactly
in those states. -/
theorem rx_diagnostics_right_iff {qid : Nat} {sqDepth cqDepth : UInt16}
    {memory : Nat → Option Nat} {ring : Ring}
    (built : enaRingAlloc qid .rx sqDepth cqDepth memory = .ok ring) (dropCb refillCb : Bool)
    (queue : Option RxQueue) (tx : Option Ring) (ops : List RxOp) :
    ∃ audit, run rxAudit ⟨⟨⟨ring.withCallbacks dropCb refillCb, queue⟩, 0, 0⟩, 0⟩ ops =
        .ok audit ∧
      (Diagnosed tx audit.tally.port.ring ↔ Legible audit) := by
  obtain ⟨audit, ran, audited⟩ := rxAudit_run built dropCb refillCb queue ops
  obtain ⟨⟨ledger, tracks⟩, _, located⟩ := audited.counted
  refine ⟨audit, ran, ?_, ?_⟩
  · rintro ⟨posted, stats, inflight⟩
    obtain ⟨laps, room⟩ := audited.posted_iff.mp posted
    obtain ⟨settled, behind⟩ := (audited.stats_iff tx).mp stats
    exact ⟨located.sqDepth ▸ laps, room, settled, behind, (inflight_eq_iff tracks).mp inflight⟩
  · rintro ⟨laps, room, settled, behind, marks⟩
    exact ⟨audited.posted_iff.mpr ⟨located.sqDepth ▸ laps, room⟩,
      (audited.stats_iff tx).mpr ⟨settled, behind⟩, (inflight_eq_iff tracks).mpr marks⟩

/-- One buffer is posted in a ring that has not received anything. -/
theorem rx_diagnostics_right_iff_posted :
    ∃ audit, run rxAudit ⟨⟨⟨smallRxRing.withCallbacks true false, none⟩, 0, 0⟩, 0⟩
        [.submitOne (some (emptyNetbuf 7)) 7 64] = .ok audit ∧
      Diagnosed none audit.tally.port.ring := by
  obtain ⟨audit, ran, right⟩ := rx_diagnostics_right_iff smallRxRing_built true false none none
    [.submitOne (some (emptyNetbuf 7)) 7 64]
  refine ⟨audit, ran, right.mpr ?_⟩
  cases ran
  refine ⟨Nat.dvd_zero _, by decide, rfl, Nat.zero_le _, ?_⟩
  exact fun _ => rfl

/-- One buffer is posted and received.  Nothing is outstanding, and the first
diagnostic still reports one descriptor. -/
theorem rx_posted_counts_received :
    ∃ audit, run rxAudit ⟨⟨⟨smallRxRing.withCallbacks true false, none⟩, 0, 0⟩, 0⟩
        [.submitOne (some (emptyNetbuf 7)) 7 64, .poll 1 [] (receptions [(0, 60)])] = .ok audit ∧
      outstanding audit.tally.port.ring = 0 ∧
      enaNetdevRxPosted (some audit.tally.port.ring) = 1 := ⟨_, rfl, rfl, rfl⟩

end EnaDriver.Netdev
