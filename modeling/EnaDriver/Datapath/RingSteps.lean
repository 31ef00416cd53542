import EnaDriver.Datapath.TransmitRuns
import EnaDriver.Datapath.ReceiveRuns

/-!
# Kinds of steps on a ring

Whatever the datapath does to a ring is composed of a few kinds of steps: it keeps
the books of its requests, moves one of the two positions, notes a completion and
writes to the device.  A relation that holds of each kind, and that composes, holds of
every call that returns, on every ring.
-/

namespace EnaDriver.Datapath

open Support.Laps Support.Polling
open Support.Runs

/-! ## Books -/

def Ring.outline (r : Ring) : RingType × HwQueue × Depth × Depth × Cursor × Cursor × Nat :=
  (r.ringType, r.hw, r.sqDepth, r.cqDepth, r.sqTail, r.cqHead, r.sqHead)

def Event.isLocal : Event → Bool
  | .txConsumed _ _ _ | .rxConsumed _ _ _ | .regWrite32 _ _ | .llqEntry _ _ _ _ => false
  | _ => true

structure Books (r : Ring) (events : List Event) (next : Ring) : Prop where
  same : next.outline = r.outline
  silent : ∀ event ∈ events, event.isLocal = true

namespace Books

variable {r middle next : Ring} {first second : List Event}

/-- A step without events. -/
theorem still (same : next.outline = r.outline) : Books r [] next := ⟨same, nofun⟩

theorem trans (earlier : Books r first middle) (later : Books middle second next) :
    Books r (first ++ second) next where
  same := later.same.trans earlier.same
  silent := by
    intro event member
    exact (List.mem_append.mp member).elim (earlier.silent event) (later.silent event)

/-- The other fields of the last ring do not matter. -/
theorem congr (books : Books r first middle) (same : next.outline = middle.outline) :
    Books r first next :=
  ⟨same.trans books.same, books.silent⟩

theorem consumed (books : Books r first next) : consumed first = 0 := by
  rw [Datapath.consumed, List.countP_eq_zero]
  intro event member
  have silent := books.silent event member
  cases event <;> first | exact Bool.false_ne_true | cases silent

end Books

section Releases

variable (r : Ring) (cpu reqId : Nat)

theorem books_reqIdFree : Books r [] (enaRingReqIdFree r reqId).2 := by
  obtain ⟨_, _, _, ring⟩ := reqIdFree_ring r reqId
  rw [ring]
  exact .still rfl

theorem releaseBuffer_others : (txReleaseBuffer r reqId).1.txOwnerCpu = r.txOwnerCpu ∧
    (txReleaseBuffer r reqId).1.txForeignCount = r.txForeignCount := by
  have others (r : Ring) : (enaRingReqIdFree r reqId).2.txOwnerCpu = r.txOwnerCpu ∧
      (enaRingReqIdFree r reqId).2.txForeignCount = r.txForeignCount := by
    obtain ⟨_, _, _, ring⟩ := reqIdFree_ring r reqId
    rw [ring]
    exact ⟨rfl, rfl⟩
  exact others { r with txBufs := _ }

theorem freedBuffer_local (netbuf : Option Netbuf) :
    ∀ event ∈ freedBuffer reqId netbuf, event.isLocal = true := by
  cases netbuf <;> simp [freedBuffer, Event.isLocal]

theorem books_releaseBuffer : Books r (txReleaseBuffer r reqId).2 (txReleaseBuffer r reqId).1 :=
  ⟨(books_reqIdFree _ reqId).same, freedBuffer_local reqId _⟩

theorem books_stage (ownerCpu : Nat) : Books r (enaTxStageForeignFree r reqId ownerCpu).2.2
    (enaTxStageForeignFree r reqId ownerCpu).2.1 := by
  unfold enaTxStageForeignFree
  split
  · exact .still rfl
  · split
    · exact ⟨rfl, by simp [Event.isLocal]⟩
    · exact .still rfl

theorem books_dispose : Books r (txDispose r cpu reqId).2 (txDispose r cpu reqId).1 := by
  have reported : Books r [] (enaTxReportForeignReaper r) := by
    refine .still ?_
    unfold enaTxReportForeignReaper
    split
    · rfl
    · split <;> rfl
  unfold txDispose
  split
  · have staged := reported.trans (books_stage _ reqId (enaTxReportForeignReaper r).txOwnerCpu)
    simp only
    rcases stage : enaTxStageForeignFree (enaTxReportForeignReaper r) reqId
      (enaTxReportForeignReaper r).txOwnerCpu with ⟨parked, next, events⟩
    rw [stage] at staged
    cases parked with
    | true => exact staged
    | false => exact staged.trans (books_releaseBuffer next reqId)
  · exact books_releaseBuffer r reqId

theorem drainLoop_books (fuel i : Nat) {r : Ring} (enough : r.txForeignCount ≤ i + fuel) :
    ∃ next events, drainLoop cpu fuel i r = .ok (next, events) ∧ Books r events next := by
  induction fuel generalizing i r with
  | zero =>
    rw [drainLoop, if_pos (show r.txForeignCount ≤ i from enough)]
    exact ⟨r, [], rfl, .still rfl⟩
  | succ fuel ih =>
    rw [drainLoop]
    split
    · exact ⟨r, [], rfl, .still rfl⟩
    rename_i inside
    split
    · exact ih (i + 1) (by omega)
    have count := (releaseBuffer_others r (r.txForeign i).reqId).2
    have fewer : (dropForeign (txReleaseBuffer r (r.txForeign i).reqId).1 i).txForeignCount ≤
        i + fuel := by
      change (txReleaseBuffer r (r.txForeign i).reqId).1.txForeignCount - 1 ≤ i + fuel
      omega
    obtain ⟨next, events, looped, rest⟩ := ih i fewer
    refine ⟨next, _, by simp only [looped]; rfl, ?_⟩
    have released : Books r _ (dropForeign (txReleaseBuffer r (r.txForeign i).reqId).1 i) :=
      (books_releaseBuffer r _).congr rfl
    exact released.trans rest

theorem drain_books :
    ∃ next events, enaTxDrainForeignFrees r cpu = .ok (next, events) ∧ Books r events next := by
  unfold enaTxDrainForeignFrees
  split
  · exact ⟨r, [], rfl, .still rfl⟩
  · exact drainLoop_books cpu _ 0 (by omega)

theorem enaTxDrainForeignFrees_consumed {cpu : Nat} {r next : Ring} {events : List Event}
    (drained : enaTxDrainForeignFrees r cpu = .ok (next, events)) : consumed events = 0 := by
  obtain ⟨_, _, again, books⟩ := drain_books r cpu
  cases drained.symm.trans again
  exact books.consumed

theorem books_drop : Books r (rxDrop r reqId).2 (rxDrop r reqId).1 := by
  unfold rxDrop
  simp only
  split
  · exact .still (books_reqIdFree _ reqId).same
  · refine ⟨(books_reqIdFree _ reqId).same, ?_⟩
    split <;> simp [Event.isLocal]

theorem books_deliver (cdesc : RxCdesc) : Books r [] (rxDeliver r cdesc) :=
  .still (books_reqIdFree _ cdesc.reqId).same

end Releases

/-! ## Calls -/

/-- A relation between the two ends of a call and its events that holds of every kind
of step on a ring. -/
structure RingSteps (R : Ring → List Event → Ring → Prop) : Prop where
  trans : ∀ {r middle next : Ring} {first second : List Event}, R r first middle →
    R middle second next → R r (first ++ second) next
  books : ∀ {r next : Ring} {events : List Event}, Books r events next → R r events next
  produced : ∀ r : Ring, R r [] r.advanceSq
  passed : ∀ r : Ring, R r [] r.advanceCq
  noted : ∀ (r : Ring) {event : Event}, event.isConsumed = true → R r [event] r
  doorbell : ∀ r : Ring, R r (enaTxDoorbell r) r
  reported : ∀ (r : Ring) (rcvd : Nat), R r (enaRxReportHead r rcvd) r

structure TxSteps (R : Ring → List Event → Ring → Prop) : Prop extends RingSteps R where
  acknowledged : ∀ (r : Ring) (cdesc : TxCdesc), R r [] (txAcknowledge r cdesc)
  pushed : ∀ (r : Ring) (desc : TxDesc) (header : List UInt8), llqFallsBack r = false →
    R r [.llqEntry (r.hw.pushBufVirt.getD 0 + r.sqSlot * r.hw.entrySize) (r.hw.entrySize / 8 * 8)
      desc header] r

theorem stillRunning_ok {α : Type} {result : Option α} {value : α}
    (returned : stillRunning result = .ok value) : result = some value := by
  cases result with
  | none => cases returned
  | some other =>
    cases returned
    rfl

namespace RingSteps

variable {R : Ring → List Event → Ring → Prop} (steps : RingSteps R) {r : Ring}
include steps

theorem still {next : Ring} (same : next.outline = r.outline) : R r [] next :=
  steps.books (.still same)

theorem refl (r : Ring) : R r [] r := steps.still rfl

variable {events : List Event}

/-- The other fields of the last ring do not matter. -/
theorem congr {middle next : Ring} (done : R r events middle)
    (same : next.outline = middle.outline) : R r events next :=
  List.append_nil events ▸ steps.trans done (steps.still same)

/-- A submission moves the producer and keeps the books. -/
theorem submitted {next : Ring} (same : next.outline = r.advanceSq.outline) : R r [] next :=
  steps.congr (steps.produced r) same

/-- A completion is noted and settled, and the head moves past it. -/
theorem settled {middle next : Ring} {event : Event} (consumed : event.isConsumed = true)
    (done : R r events middle) (same : next.outline = middle.advanceCq.outline) :
    R r (event :: events) next :=
  steps.trans (steps.noted r consumed)
    (steps.congr (List.append_nil events ▸ steps.trans done (steps.passed middle)) same)

theorem lock {locked : Ring} (taken : enaRingLock r = .ok locked) : R r [] locked := by
  unfold enaRingLock at taken
  split at taken
  · cases taken
  · cases taken
    exact steps.still rfl

theorem rxSubmitOne {netbuf : Option Netbuf} {physAddr bufLen : Nat} {out : RxOutcome}
    (returned : enaRxSubmitOne r netbuf physAddr bufLen = .ok out) : R r [] out.ring := by
  rcases enaRxSubmitOne_outcome returned with ⟨_, ring⟩ | ⟨nb, reqId, pool, _, _, _, _, ring⟩
  · rw [ring]
    exact steps.refl r
  · rw [ring]
    exact steps.submitted rfl

theorem rxPollEntry {added : Nat} {p next : RxPort} {mem : RxMem}
    (read : rxPollEntry p mem = some (added, next, events)) : R p.ring events next.ring := by
  obtain ⟨_, _, entry⟩ := rxPollEntry_cases read
  cases entry with
  | skipped idle => exact steps.settled rfl (steps.refl p.ring) rfl
  | dropped inFlight oversize => exact steps.settled rfl (steps.books (books_drop p.ring _)) rfl
  | delivered inFlight fits =>
    refine steps.settled rfl (steps.books ⟨(books_deliver p.ring _).same, ?_⟩) rfl
    simp [Event.isLocal]

theorem pollLoop {π μ : Type} {entry : π → μ → Option (Nat × π × List Event)}
    {ring : π → Ring} (each : ∀ {p next mem added events},
      entry p mem = some (added, next, events) → R (ring p) events (ring next))
    {budget count total : Nat} {p last : π} {views : List μ}
    (finished : pollLoop entry budget count p views = some (total, last, events)) :
    R (ring p) events (ring last) := by
  refine (pollLoop_iterates finished).rel (fun p events last => R (ring p) events (ring last))
    (fun p => steps.refl (ring p)) ?_
  intro state view added next outputs rest last _ read later
  exact steps.trans (each read) later

theorem rxPoll {p : RxPort} {maxPkts : Nat} {views : List RxMem} {polled : RxPolled}
    (returned : enaRxPoll p maxPkts views = .ok polled) : R p.ring polled.events polled.port.ring := by
  unfold enaRxPoll at returned
  split at returned
  · cases returned
    exact steps.refl _
  split at returned
  · cases returned
    exact steps.refl _
  obtain ⟨locked, taken, rest⟩ := bind_ok returned
  obtain ⟨⟨rcvd, last, events⟩, looped, same⟩ := bind_ok rest
  cases same
  have polls : R locked events last.ring := steps.pollLoop steps.rxPollEntry (stillRunning_ok looped)
  have whole := steps.trans (steps.lock taken) (steps.trans polls (steps.reported last.ring rcvd))
  exact steps.congr whole rfl

theorem refills {alloc : AllocNetbuf} {refilled total : Nat} {p last : RxPort}
    (refills : Refills alloc refilled p total last events) : R p.ring events last.ring := by
  induction refills with
  | @stop _ p => exact steps.refl p.ring
  | @nothing _ p _ offer => exact steps.refl p.ring
  | @refused _ p _ nb _ _ offer => exact steps.books ⟨rfl, by simp [Event.isLocal]⟩
  | @post _ _ p _ _ nb physAddr bufLen reqId pool _ offer found small rest ih =>
    have posted : R p.ring [] (rxSubmitted p.ring nb physAddr bufLen reqId pool) :=
      steps.submitted rfl
    have noted : R (rxSubmitted p.ring nb physAddr bufLen reqId pool) [.rxPosted reqId nb] _ :=
      steps.books ⟨rfl, by simp [Event.isLocal]⟩
    exact steps.trans posted (steps.trans noted ih)

theorem rxRefill {p next : RxPort} {count : Nat} {alloc : AllocNetbuf} {ret : Int}
    (returned : enaRxRefill p count alloc = .ok (ret, next, events)) :
    R p.ring events next.ring := by
  obtain ⟨total, looped, bell, refills, rfl, rung, _⟩ := enaRxRefill_refills returned
  refine steps.trans (steps.refills refills) ?_
  rcases rung with rfl | rfl
  · exact steps.refl next.ring
  · exact steps.doorbell next.ring

end RingSteps

namespace TxSteps

variable {R : Ring → List Event → Ring → Prop} (steps : TxSteps R) {r : Ring}
include steps

theorem submit {cpu : Nat} {pkt : TxPkt} {out : TxOutcome}
    (returned : enaTxSubmit r cpu pkt = .ok out) : R r out.events out.ring := by
  cases lock : r.ringLock with
  | false =>
    obtain ⟨_, same, silent, outcome⟩ := enaTxSubmit_cases r cpu pkt lock
    cases returned.symm.trans same
    rw [silent]
    rcases outcome with ⟨_, _, ring⟩ | ⟨reqId, pool, _, _, _, _, _, ring⟩
    · rw [ring]
      exact steps.refl r
    · rw [ring]
      exact steps.submitted rfl
  | true =>
    unfold enaTxSubmit at returned
    rw [enaRingLock_held lock] at returned
    split at returned
    · cases returned
      exact steps.refl r
    split at returned
    · cases returned
      exact steps.refl r
    · split at returned
      · cases returned
        exact steps.refl r
      · cases returned

theorem headerCopy (pkt : TxPkt) (hdrData : Option (List UInt8)) (hdrLen : Nat) :
    R r (fallbackHeaderCopy pkt hdrData hdrLen) r := by
  refine steps.books ⟨rfl, ?_⟩
  unfold fallbackHeaderCopy
  split
  · exact nofun
  · split <;> simp [Event.isLocal]

theorem llqPush {cpu hdrLen : Nat} {pkt : TxPkt} {hdrData : Option (List UInt8)} {out : TxOutcome}
    (returned : enaLlqTxPush r cpu pkt hdrData hdrLen = .ok out) : R r out.events out.ring := by
  unfold enaLlqTxPush at returned
  split at returned
  · cases returned
    exact steps.refl r
  split at returned
  · cases returned
    exact steps.refl r
  split at returned
  · obtain ⟨submitted, ran, rest⟩ := bind_ok returned
    cases rest
    refine steps.trans (steps.trans (steps.headerCopy pkt hdrData hdrLen) (steps.submit ran)) ?_
    split
    · exact steps.doorbell submitted.ring
    · exact steps.refl submitted.ring
  · rename_i pushes
    cases lock : r.ringLock with
    | true =>
      rw [enaRingLock_held lock] at returned
      cases returned
    | false =>
      rw [enaRingLock_free lock] at returned
      change (if r.pool.freeReqCount = 0 then _ else _) = Except.ok out at returned
      split at returned
      · cases returned
        exact steps.still rfl
      change (if 0 < r.hw.pushBufSize ∧
        r.hw.pushBufSize < (r.sqSlot + 1) * r.hw.entrySize then _ else _) = Except.ok out
        at returned
      split at returned
      · cases returned
        exact steps.still rfl
      dsimp only at returned
      cases found : enaRingReqIdAlloc r.sqDepth r.pool with
      | none =>
        rw [found] at returned
        cases returned
        exact steps.still rfl
      | some taken =>
        rw [found] at returned
        cases returned
        refine steps.trans (steps.pushed r _ _ (Bool.of_not_eq_true pushes)) ?_
        exact steps.congr (steps.trans (steps.submitted rfl) (steps.doorbell _)) rfl

theorem pollEntry {cpu added : Nat} {p next : TxPort} {mem : TxMem} {events : List Event}
    (read : txPollEntry cpu p mem = some (added, next, events)) : R p.ring events next.ring := by
  obtain ⟨_, _, ⟨_, _, ring, happened⟩ | ⟨_, _, ring, happened⟩⟩ := txPollEntry_cases read
  · rw [ring, happened]
    exact steps.settled rfl (steps.refl p.ring) rfl
  · rw [ring, happened]
    exact steps.settled rfl (steps.trans (steps.acknowledged p.ring _)
      (steps.books (books_dispose _ cpu _))) rfl

theorem pollCompletions {p next : TxPort} {cpu budget : Nat} {views : List TxMem} {ret : Int}
    {events : List Event}
    (returned : enaTxPollCompletions p cpu budget views = .ok (ret, next, events)) :
    R p.ring events next.ring := by
  unfold enaTxPollCompletions at returned
  split at returned
  · cases returned
    exact steps.refl _
  split at returned
  · cases returned
    exact steps.refl _
  split at returned
  · cases returned
    exact steps.refl _
  obtain ⟨locked, taken, rest⟩ := bind_ok returned
  obtain ⟨⟨drained, first⟩, drain, rest⟩ := bind_ok rest
  obtain ⟨⟨cleaned, last, second⟩, looped, same⟩ := bind_ok rest
  cases same
  obtain ⟨_, _, again, books⟩ := drain_books locked cpu
  cases drain.symm.trans again
  have polls : R drained second last.ring := steps.pollLoop steps.pollEntry (stillRunning_ok looped)
  have whole := steps.trans (steps.lock taken) (steps.trans (steps.books books) polls)
  exact steps.congr whole rfl

end TxSteps

end EnaDriver.Datapath
