import EnaDriver.Datapath.ReceiveCustody

/-!
# Calls of the receive path

What each call does to the ledger of a receive ring: a poll returns and gives
items away, posting and refilling accept items, and a reset releases all of
them.  The in-flight marks agree with the ownership marks as long as no poll
meets a reception longer than its buffer.
-/

namespace EnaDriver.Datapath

open Support.Laps Support.Windows Support.Polling
open Support.Custody Support.Runs

/-! ## Polls return -/

variable {events outputs : List Event} {ledger : RxLedger} {mem : RxMem} {next r : Ring}
  {p : RxPort} {views : List RxMem}

/-- A poll returns once the device has stopped writing for one lap. -/
theorem enaRxPoll_total (maxPkts : Nat) (changing : List RxMem) (settled : RxMem)
    (tracks : RxTracks p.ring ledger) (unlocked : p.ring.ringLock = false) {count : Nat}
    (located : p.ring.cqHead = Cursor.after p.ring.cqDepth count) :
    ∃ polled, enaRxPoll p maxPkts (pollViews p.ring changing settled) = .ok polled := by
  let At (state : RxPort) (position : Nat) : Prop :=
    (∃ ledger, RxTracks state.ring ledger) ∧ state.ring.cqDepth = p.ring.cqDepth ∧
      state.ring.cqHead = Cursor.after p.ring.cqDepth position
  have consumes : ∀ {state : RxPort} {view : RxMem} {added : Nat} {next : RxPort}
      {outputs : List Event} {position : Nat}, At state position →
      rxPollEntry state view = some (added, next, outputs) →
      At next (position + 1) ∧
        (view (position % p.ring.cqDepth.val)).phase = lapPhase p.ring.cqDepth position := by
    intro state view added next outputs position here read
    obtain ⟨⟨ledger, tracks⟩, depth, head⟩ := here
    obtain ⟨phase, _, entry⟩ := rxPollEntry_cases read
    obtain ⟨frame, ⟨_, after, _, tracked, _⟩, moved⟩ := rxPollEntry_reaps read tracks ledger tracks
    rw [depth, entry.consumed tracks] at moved
    refine ⟨⟨⟨after, tracked⟩, frame.depths.2.1.trans depth, moved position head⟩, ?_⟩
    rw [Ring.cqSlot, depth, head, Cursor.slot_after] at phase
    exact phase
  have stops : ∃ result, pollLoop rxPollEntry maxPkts 0
      { p with ring := { p.ring with ringLock := true } } (pollViews p.ring changing settled) =
        some result :=
    pollLoop_total p.ring.cqDepth At (fun view slot => (view slot).phase) consumes changing settled
      ⟨⟨ledger, tracks⟩, rfl, located⟩
  obtain ⟨⟨rcvd, last, outputs⟩, looped⟩ := stops
  unfold enaRxPoll
  split
  · exact ⟨_, rfl⟩
  split
  · exact ⟨_, rfl⟩
  rw [enaRingLock_free unlocked]
  change ∃ polled, (stillRunning (pollLoop rxPollEntry maxPkts 0
    { p with ring := { p.ring with ringLock := true } } _) >>= _) = Except.ok polled
  rw [looped]
  exact ⟨_, rfl⟩

/-! ## Polls without an oversized reception -/

def MarksAgree (r : Ring) : Prop := ∀ id, r.pool.reqInFlight id = r.pool.reqAllocated id

/-- Iteration `k` of the loop of a poll is entered, and finds this fresh entry.
Every iteration that stays in the loop moves the head by one entry. -/
def Finds (budget count : Nat) (p : RxPort) (views : List RxMem) (k : Nat) (cdesc : RxCdesc) :
    Prop :=
  Reaches rxPollEntry budget count p views k ∧ EntryAhead RxCdesc.phase p.ring views k cdesc

def RxPort.locked (p : RxPort) : RxPort := { p with ring := { p.ring with ringLock := true } }

/-- A poll finds this entry in iteration `k` of its loop, which a poll of a ring
without queues does not get to. -/
def Shows (maxPkts : Nat) (p : RxPort) (views : List RxMem) (k : Nat) (cdesc : RxCdesc) : Prop :=
  p.ring.hw.valid = true ∧ Finds maxPkts 0 p.locked views k cdesc

section Finds

variable {budget count added k : Nat} {cdesc : RxCdesc} {after : RxPort}

theorem Finds.head (more : count < budget)
    (read : rxPollEntry p mem = some (added, after, outputs)) (views : List RxMem) :
    Finds budget count p (mem :: views) 0 (mem p.ring.cqSlot) :=
  ⟨.here more, mem, rfl, rfl, (rxPollEntry_cases read).1⟩

theorem rxPollEntry_head (read : rxPollEntry p mem = some (added, after, outputs)) :
    after.ring.cqDepth = p.ring.cqDepth ∧
      after.ring.cqHead = p.ring.cqHead.advance p.ring.cqDepth := by
  obtain ⟨_, _, entry⟩ := rxPollEntry_cases read
  have freed (r : Ring) (id : Nat) : (enaRingReqIdFree r id).2.cqDepth = r.cqDepth ∧
      (enaRingReqIdFree r id).2.cqHead = r.cqHead := by
    obtain ⟨_, _, _, ring⟩ := reqIdFree_ring r id
    rw [ring]
    exact ⟨rfl, rfl⟩
  have passes {r next : Ring} (same : next.cqDepth = r.cqDepth ∧ next.cqHead = r.cqHead) :
      next.advanceCq.cqDepth = r.cqDepth ∧
        next.advanceCq.cqHead = r.cqHead.advance r.cqDepth := by
    rw [Ring.advanceCq, ← same.1, ← same.2]
    exact ⟨rfl, rfl⟩
  cases entry with
  | skipped idle => exact ⟨rfl, rfl⟩
  | dropped inFlight oversize =>
    apply passes
    unfold rxDrop
    simp only
    split
    · exact freed { p.ring with rxDropped := _ } _
    · exact freed { p.ring with rxDropped := _, rxBufs := _ } _
  | delivered inFlight fits => exact passes (freed (rxCounted p.ring _) _)

theorem Finds.tail (found : Finds budget (count + added) after views k cdesc)
    (more : count < budget) (read : rxPollEntry p mem = some (added, after, outputs)) :
    Finds budget count p (mem :: views) (k + 1) cdesc := by
  obtain ⟨depth, head⟩ := rxPollEntry_head read
  exact ⟨.later more read found.1, found.2.tail depth head⟩

end Finds

/-- None of the entries is a reception longer than the buffer of a request in
flight. -/
def PollFits (r : Ring) (entries : Nat → RxCdesc → Prop) : Prop :=
  ∀ k cdesc, entries k cdesc → r.pool.reqInFlight cdesc.reqId = true →
    cdesc.length ≤ (r.rxBufs cdesc.reqId).dataLen

theorem MarksAgree.active (agree : MarksAgree r) (tracks : RxTracks r ledger) {id : Nat}
    (inFlight : r.pool.reqInFlight id = true) :
    ∃ nb, ledger id = .active nb := by
  have held := (tracks.2.allocated id).symm.trans ((agree id).symm.trans inFlight)
  rcases rxStatus_cases (ledger id) with isFree | active
  · rw [isFree] at held
    cases held
  · exact active

/-- One iteration that meets no oversized reception keeps the marks, and a packet
it delivers carries the netbuf of its request. -/
theorem rxPollEntry_agree {next : RxPort} {added budget count : Nat}
    (read : rxPollEntry p mem = some (added, next, outputs)) (more : count < budget)
    (tracks : RxTracks p.ring ledger) (agree : MarksAgree p.ring)
    (fits : PollFits p.ring (Finds budget count p (mem :: views))) :
    MarksAgree next.ring ∧ PollFits next.ring (Finds budget (count + added) next views) ∧
      (∀ pkt ∈ received outputs, pkt.netbuf.isSome = true) ∧
      ∀ event ∈ outputs, event.isRxDropped = false := by
  have rest (fewer : ∀ id, next.ring.pool.reqInFlight id = true →
      p.ring.pool.reqInFlight id = true ∧ next.ring.rxBufs id = p.ring.rxBufs id) :
      PollFits next.ring (Finds budget (count + added) next views) := by
    intro k cdesc found inFlight
    obtain ⟨before, same⟩ := fewer _ inFlight
    rw [same]
    exact fits (k + 1) cdesc (found.tail more read) before
  obtain ⟨_, _, entry⟩ := rxPollEntry_cases read
  cases entry with
  | skipped idle =>
    refine ⟨agree, rest fun id marked => ⟨marked, rfl⟩, ?_, ?_⟩
    · simp [received, Event.rxPkt?]
    · simp [Event.isRxDropped]
  | dropped inFlight oversize =>
    have short := fits 0 _ (Finds.head more read views) inFlight
    exact absurd oversize (Nat.not_lt_of_le short)
  | delivered inFlight short =>
    obtain ⟨nb, active⟩ := agree.active tracks inFlight
    have stored : (p.ring.rxBufs (mem p.ring.cqSlot).reqId).netbuf = some nb := by
      rw [tracks.2.netbuf, active]
      rfl
    refine ⟨?_, rest ?_, ?_, ?_⟩
    · intro id
      rw [rxDeliver_held tracks active]
      change store p.ring.pool.reqInFlight _ false id = store p.ring.pool.reqAllocated _ false id
      by_cases same : id = (mem p.ring.cqSlot).reqId
      · simp [same]
      · simpa [store_other _ _ same] using agree id
    · intro id marked
      rw [rxDeliver_held tracks active] at marked ⊢
      change store p.ring.pool.reqInFlight _ false id = true at marked
      by_cases same : id = (mem p.ring.cqSlot).reqId
      · simp [same] at marked
      · rw [store_other _ _ same] at marked
        exact ⟨marked, store_other _ _ same⟩
    · simp [received, Event.rxPkt?, rxPacket, stored]
    · simp [Event.isRxDropped]

/-- A sequence of iterations that meets no oversized reception. -/
theorem rxIterates_agree {last : RxPort} {budget count total : Nat}
    (iterates : Iterates rxPollEntry budget count p views total outputs last)
    (tracks : RxTracks p.ring ledger) (agree : MarksAgree p.ring)
    (fits : PollFits p.ring (Finds budget count p views)) :
    MarksAgree last.ring ∧ (∀ pkt ∈ received outputs, pkt.netbuf.isSome = true) ∧
      ∀ event ∈ outputs, event.isRxDropped = false := by
  induction iterates generalizing ledger with
  | stop reason => simp [agree, received]
  | step more read later ih =>
    obtain ⟨_, ⟨_, between, _, tracked, _⟩, _⟩ := rxPollEntry_reaps read tracks ledger tracks
    obtain ⟨kept, rest, first, noDrop⟩ := rxPollEntry_agree read more tracks agree fits
    obtain ⟨final, second, noDrops⟩ := ih tracked kept rest
    refine ⟨final, ?_, ?_⟩
    · intro pkt member
      rw [received, List.filterMap_append, List.mem_append] at member
      exact member.elim (first pkt) (second pkt)
    · intro event member
      exact (List.mem_append.mp member).elim (noDrop event) (noDrops event)

theorem enaRxReportHead_received (r : Ring) (rcvd : Nat) :
    received (enaRxReportHead r rcvd) = [] := by
  rcases enaRxReportHead_cases r rcvd with report | ⟨_, _, report⟩ <;> rw [report] <;> rfl

/-- A poll that meets no oversized reception. -/
theorem enaRxPoll_agree {maxPkts : Nat} {polled : RxPolled} (tracks : RxTracks p.ring ledger)
    (unlocked : p.ring.ringLock = false) (returned : enaRxPoll p maxPkts views = .ok polled)
    (agree : MarksAgree p.ring) (fits : PollFits p.ring (Shows maxPkts p views)) :
    MarksAgree polled.port.ring ∧ ∀ pkt ∈ received polled.events, pkt.netbuf.isSome = true := by
  rcases enaRxPoll_cases unlocked returned with
    ⟨same, none, _⟩ | ⟨rcvd, last, outputs, iterates, valid, rfl⟩
  · rw [same, none]
    simp [agree, received]
  obtain ⟨kept, whole, _⟩ := rxIterates_agree iterates (show RxTracks _ ledger from tracks) agree
    (fun k cdesc found => fits k cdesc ⟨valid, found⟩)
  refine ⟨kept, ?_⟩
  intro pkt member
  rw [received, List.filterMap_append] at member
  change pkt ∈ received outputs ++ received _ at member
  rw [enaRxReportHead_received, List.append_nil] at member
  exact whole pkt member

/-! ## Posting -/

def Event.rxPosted? : Event → Option (Nat × Netbuf)
  | .rxPosted reqId nb => some (reqId, nb)
  | _ => none

def posted (events : List Event) : List (Nat × Netbuf) := events.filterMap Event.rxPosted?

def rxSubmitted (r : Ring) (nb : Netbuf) (physAddr bufLen reqId : Nat) (pool : RequestPool) :
    Ring :=
  { (rxTrack r pool reqId nb physAddr bufLen).advanceSq with
    rxDescs := store r.rxDescs r.sqSlot (rxSubmitDesc physAddr bufLen reqId r.sqTail.phase) }

theorem rxRefuse_cases {same : Ring} {error : Int} (positive : 0 < error) (back : same = r) :
    (RxOutcome.refuse same error).ret ≠ 0 ∧ (RxOutcome.refuse same error).reqId = none ∧
      (RxOutcome.refuse same error).ring = r := by
  refine ⟨?_, rfl, back⟩
  change -error ≠ 0
  omega

/-- A buffer is refused without a trace, or posted under the id at the head of the
free window. -/
theorem enaRxSubmitOne_cases (r : Ring) (netbuf : Option Netbuf) (physAddr bufLen : Nat)
    (unlocked : r.ringLock = false) :
    ∃ out, enaRxSubmitOne r netbuf physAddr bufLen = .ok out ∧
      ((out.ret ≠ 0 ∧ out.reqId = none ∧ out.ring = r) ∨
        ∃ nb reqId pool, netbuf = some nb ∧
          enaRingReqIdAlloc r.sqDepth r.pool = some (reqId, pool) ∧ out.ret = 0 ∧
          out.reqId = some reqId ∧ (0 < bufLen ∧ bufLen ≤ 0xFFFF) ∧
          out.ring = rxSubmitted r nb physAddr bufLen reqId pool) := by
  unfold enaRxSubmitOne
  cases netbuf with
  | none => exact ⟨_, rfl, Or.inl (rxRefuse_cases (by decide) rfl)⟩
  | some nb =>
    simp only
    split
    · exact ⟨_, rfl, Or.inl (rxRefuse_cases (by decide) rfl)⟩
    split
    · exact ⟨_, rfl, Or.inl (rxRefuse_cases (by decide) rfl)⟩
    split
    · exact ⟨_, rfl, Or.inl (rxRefuse_cases (by decide) rfl)⟩
    rename_i sized
    rw [enaRingLock_free unlocked]
    change ∃ out, (if r.pool.freeReqCount = 0 then _ else _) = Except.ok out ∧ _
    split
    · exact ⟨_, rfl, Or.inl (rxRefuse_cases (by decide) (enaRingUnlock_lock unlocked))⟩
    dsimp only
    cases found : enaRingReqIdAlloc r.sqDepth r.pool with
    | none =>
      exact ⟨_, rfl,
        Or.inl (rxRefuse_cases (by decide) (enaRingUnlock_lock unlocked))⟩
    | some taken =>
      obtain ⟨reqId, pool⟩ := taken
      refine ⟨_, rfl, Or.inr ⟨nb, reqId, pool, rfl, rfl, rfl, rfl, by omega, ?_⟩⟩
      cases r
      cases unlocked
      rfl

/-- The same of a buffer in a ring that may be locked, when the call returns. -/
theorem enaRxSubmitOne_outcome {netbuf : Option Netbuf} {physAddr bufLen : Nat} {out : RxOutcome}
    (returned : enaRxSubmitOne r netbuf physAddr bufLen = .ok out) :
    (out.reqId = none ∧ out.ring = r) ∨
      ∃ nb reqId pool, netbuf = some nb ∧
        enaRingReqIdAlloc r.sqDepth r.pool = some (reqId, pool) ∧ out.reqId = some reqId ∧
        bufLen ≤ 0xFFFF ∧ out.ring = rxSubmitted r nb physAddr bufLen reqId pool := by
  cases lock : r.ringLock with
  | false =>
    obtain ⟨_, same, outcome⟩ := enaRxSubmitOne_cases r netbuf physAddr bufLen lock
    cases returned.symm.trans same
    rcases outcome with ⟨_, refused, ring⟩ | ⟨nb, reqId, pool, given, found, _, taken, sized, ring⟩
    · exact Or.inl ⟨refused, ring⟩
    · exact Or.inr ⟨nb, reqId, pool, given, found, taken, sized.2, ring⟩
  | true =>
    unfold enaRxSubmitOne at returned
    rw [enaRingLock_held lock] at returned
    left
    repeat' split at returned
    all_goals cases returned
    all_goals exact ⟨rfl, rfl⟩

def PostFrame (r next : Ring) : Prop :=
  ∃ pool rxBufs rxDescs sqTail,
    next = { r with pool := pool, rxBufs := rxBufs, rxDescs := rxDescs, sqTail := sqTail }

theorem PostFrame.refl (r : Ring) : PostFrame r r := ⟨r.pool, r.rxBufs, r.rxDescs, r.sqTail, rfl⟩

theorem PostFrame.trans {middle : Ring} (earlier : PostFrame r middle)
    (later : PostFrame middle next) : PostFrame r next := by
  obtain ⟨_, _, _, _, rfl⟩ := earlier
  obtain ⟨pool, rxBufs, rxDescs, sqTail, rfl⟩ := later
  exact ⟨pool, rxBufs, rxDescs, sqTail, rfl⟩

/-- A change of a ring that posts buffers: on every ledger the ring agrees with it
is a sequence of entries, the producer position moves by the buffers posted, and
marks that agree still agree. -/
def RxPosts (r : Ring) (events : List Event) (next : Ring) : Prop :=
  ∀ ledger, RxTracks r ledger → PostFrame r next ∧
    (∃ actions after, Steps (AcceptOnly r.sqDepth.val) ledger actions after ∧
      RxTracks next after ∧ posted events = entered actions) ∧
    (∀ count, r.sqTail = Cursor.after r.sqDepth count →
      next.sqTail = Cursor.after r.sqDepth (count + (posted events).length)) ∧
    (MarksAgree r → MarksAgree next)

theorem RxPosts.refl (r : Ring) : RxPosts r [] r :=
  fun ledger tracks => ⟨⟨_, _, _, _, rfl⟩, ⟨[], ledger, .nil ledger, tracks, rfl⟩,
    fun _ located => located, fun agree => agree⟩

theorem RxPosts.trans {middle : Ring} {first second : List Event}
    (earlier : RxPosts r first middle) (later : RxPosts middle second next) :
    RxPosts r (first ++ second) next := by
  intro ledger tracks
  obtain ⟨⟨_, _, _, _, rfl⟩, ⟨before, between, steps, tracked, entries⟩, moved, agree⟩ :=
    earlier ledger tracks
  obtain ⟨⟨_, _, _, _, rfl⟩, ⟨after, final, more, ended, moreEntries⟩, movedNext, agreeNext⟩ :=
    later between tracked
  refine ⟨⟨_, _, _, _, rfl⟩, ⟨before ++ after, final, steps.append more, ended, ?_⟩, ?_,
    fun start => agreeNext (agree start)⟩
  · rw [posted, List.filterMap_append, entered_append, ← entries, ← moreEntries]
    rfl
  · intro count located
    have reached := movedNext _ (moved count located)
    rw [posted, List.filterMap_append, List.length_append, ← Nat.add_assoc]
    exact reached

theorem rxSubmitted_posts {reqId : Nat} {pool : RequestPool}
    (found : enaRingReqIdAlloc r.sqDepth r.pool = some (reqId, pool)) (nb : Netbuf)
    (physAddr bufLen : Nat) :
    RxPosts r [.rxPosted reqId nb] (rxSubmitted r nb physAddr bufLen reqId pool) := by
  intro ledger tracks
  obtain ⟨_, _, _, marks, flags, _, _⟩ := RequestPool.alloc_cases tracks.2.sound found
  obtain ⟨isFree, bound, custody⟩ :=
    tracks.2.post found nb ⟨some nb, physAddr, bufLen, reqId⟩ rfl
  refine ⟨⟨_, _, _, _, rfl⟩, ⟨[.accept reqId nb], _,
    .single (.accept nb isFree) ⟨_, _, rfl, bound⟩, ⟨tracks.1, custody⟩, rfl⟩, ?_, ?_⟩
  · intro count located
    change r.sqTail.advance r.sqDepth = _
    rw [located, Cursor.advance_after]
    rfl
  intro agree id
  change store pool.reqInFlight reqId true id = pool.reqAllocated id
  rw [flags, marks]
  by_cases same : id = reqId
  · simp [same]
  · simpa [store_other _ _ same] using agree id

/-! ## Refill -/

/-- Events that give nothing away, consume nothing and deliver nothing. -/
def RxSilent (events : List Event) : Prop :=
  ∀ event ∈ events, event.gives = [] ∧ event.isConsumed = false ∧ event.rxPkt? = none

theorem RxSilent.nil : RxSilent [] := by
  intro event member
  cases member

theorem RxSilent.cons {event : Event}
    (here : event.gives = [] ∧ event.isConsumed = false ∧ event.rxPkt? = none)
    (rest : RxSilent events) : RxSilent (event :: events) :=
  List.forall_mem_cons.mpr ⟨here, rest⟩

theorem RxSilent.append {first second : List Event} (before : RxSilent first)
    (after : RxSilent second) : RxSilent (first ++ second) := by
  intro event member
  exact (List.mem_append.mp member).elim (before event) (after event)

theorem RxSilent.gives (silent : RxSilent events) : given events = [] :=
  List.flatMap_eq_nil_iff.mpr fun event member => (silent event member).1

theorem RxSilent.consumes (silent : RxSilent events) :
    consumed events = 0 :=
  List.countP_eq_zero.mpr fun event member => by simp [(silent event member).2.1]

theorem RxSilent.receives (silent : RxSilent events) :
    received events = [] :=
  List.filterMap_eq_nil_iff.mpr fun event member => (silent event member).2.2

theorem enaRxDoorbell_silent (r : Ring) :
    RxSilent (enaRxDoorbell r) ∧ posted (enaRxDoorbell r) = [] := by
  unfold enaRxDoorbell
  cases r.hw.sqDb with
  | none => exact ⟨.nil, rfl⟩
  | some offset =>
    cases r.hw.valid with
    | false => exact ⟨.nil, rfl⟩
    | true => exact ⟨.cons ⟨rfl, rfl, rfl⟩ .nil, rfl⟩

/-- What the loop of a refill does: it stops, finds no buffer, has one refused, or
posts one and goes on. -/
inductive Refills (alloc : AllocNetbuf) : Nat → RxPort → Nat → RxPort → List Event → Prop
  | stop {refilled : Nat} (p : RxPort) : Refills alloc refilled p refilled p []
  | nothing {refilled : Nat} {p : RxPort} {queue : Option RxQueue}
      (offer : alloc refilled p.queue = (none, queue)) :
      Refills alloc refilled p refilled ⟨p.ring, queue⟩ []
  | refused {refilled : Nat} {p : RxPort} {queue : Option RxQueue} {nb : Netbuf}
      {physAddr bufLen : Nat}
      (offer : alloc refilled p.queue = (some (nb, physAddr, bufLen), queue)) :
      Refills alloc refilled p refilled ⟨p.ring, queue.map RxQueue.abandonPending⟩ [.unposted nb]
  | post {refilled total : Nat} {p last : RxPort} {queue : Option RxQueue} {nb : Netbuf}
      {physAddr bufLen reqId : Nat} {pool : RequestPool} {events : List Event}
      (offer : alloc refilled p.queue = (some (nb, physAddr, bufLen), queue))
      (found : enaRingReqIdAlloc p.ring.sqDepth p.ring.pool = some (reqId, pool))
      (small : bufLen ≤ 0xFFFF)
      (rest : Refills alloc (refilled + 1) ⟨rxSubmitted p.ring nb physAddr bufLen reqId pool,
        queue.map (RxQueue.bindPending · reqId)⟩ total last events) :
      Refills alloc refilled p total last (.rxPosted reqId nb :: events)

section Refills

variable {alloc : AllocNetbuf} {refilled total : Nat} {last : RxPort}

theorem refillLoop_refills {remaining : Nat}
    (looped : refillLoop alloc remaining refilled p = .ok (total, last, events)) :
    Refills alloc refilled p total last events := by
  induction remaining generalizing refilled p events with
  | zero =>
    cases looped
    exact .stop _
  | succ remaining ih =>
    rw [refillLoop] at looped
    split at looped
    · cases looped
      exact .stop _
    split at looped
    · rename_i offer
      cases looped
      exact .nothing offer
    rename_i offer
    obtain ⟨out, ran, looped⟩ := bind_ok looped
    rcases enaRxSubmitOne_outcome ran with
      ⟨refused, ring⟩ | ⟨_, reqId, pool, same, found, taken, small, ring⟩
    · rw [refused, ring] at looped
      cases looped
      exact .refused offer
    cases same
    rw [taken, ring] at looped
    obtain ⟨_, again, looped⟩ := bind_ok looped
    cases looped
    exact .post offer found small (ih again)

theorem refillLoop_total (remaining : Nat) (unlocked : p.ring.ringLock = false) :
    ∃ total last events, refillLoop alloc remaining refilled p = .ok (total, last, events) := by
  induction remaining generalizing refilled p with
  | zero => exact ⟨_, _, _, rfl⟩
  | succ remaining ih =>
    rw [refillLoop]
    split
    · exact ⟨_, _, _, rfl⟩
    split
    · exact ⟨_, _, _, rfl⟩
    rename_i nb physAddr bufLen queue _
    obtain ⟨out, ran, _⟩ := enaRxSubmitOne_cases p.ring (some nb) physAddr bufLen unlocked
    rw [ran]
    dsimp only [bind, Except.bind]
    rcases enaRxSubmitOne_outcome ran with
      ⟨refused, _⟩ | ⟨_, reqId, pool, same, _, taken, _, ring⟩
    · rw [refused]
      exact ⟨_, _, _, rfl⟩
    cases same
    obtain ⟨total, last, events, again⟩ := @ih
      ⟨rxSubmitted p.ring nb physAddr bufLen reqId pool,
        queue.map (RxQueue.bindPending · reqId)⟩ (refilled + 1) unlocked
    rw [taken, ring]
    change ∃ total last events, (refillLoop alloc remaining (refilled + 1) _ >>= _) =
      Except.ok (total, last, events)
    rw [again]
    exact ⟨_, _, _, rfl⟩

theorem Refills.frame (refills : Refills alloc refilled p total last events) :
    PostFrame p.ring last.ring ∧ RxSilent events ∧ total = refilled + (posted events).length := by
  induction refills with
  | stop p => exact ⟨.refl _, .nil, rfl⟩
  | nothing offer => exact ⟨.refl _, .nil, rfl⟩
  | refused offer => exact ⟨.refl _, .cons ⟨rfl, rfl, rfl⟩ .nil, rfl⟩
  | @post refilled total p last queue nb _ _ reqId _ events offer found small rest ih =>
    obtain ⟨frame, silent, counted⟩ := ih
    refine ⟨PostFrame.trans ⟨_, _, _, _, rfl⟩ frame, .cons ⟨rfl, rfl, rfl⟩ silent, ?_⟩
    rw [counted]
    change _ = refilled + ((posted events).length + 1)
    omega

theorem Refills.posts (refills : Refills alloc refilled p total last events) :
    RxPosts p.ring events last.ring := by
  induction refills with
  | stop p => exact .refl p.ring
  | @nothing _ p _ offer => exact .refl p.ring
  | @refused _ p _ _ _ _ offer => exact RxPosts.refl p.ring
  | @post _ _ p _ _ nb physAddr bufLen _ _ _ offer found small rest ih =>
    exact (rxSubmitted_posts found nb physAddr bufLen).trans ih

/-- A refill is its loop, and perhaps the doorbell. -/
theorem enaRxRefill_refills {count : Nat} {ret : Int}
    (ran : enaRxRefill p count alloc = .ok (ret, last, events)) :
    ∃ total looped bell, Refills alloc 0 p total last looped ∧ events = looped ++ bell ∧
      (bell = [] ∨ bell = enaRxDoorbell last.ring) ∧ RxSilent bell ∧
      posted events = posted looped ∧ (p.ring.ringType = .rx → ret = total) := by
  unfold enaRxRefill at ran
  split at ran
  · rename_i other
    cases ran
    exact ⟨0, [], [], .stop p, rfl, Or.inl rfl, .nil, rfl, fun isRx => absurd isRx other⟩
  obtain ⟨⟨total, next, looped⟩, stepped, same⟩ := bind_ok ran
  cases same
  obtain ⟨bell, none⟩ := enaRxDoorbell_silent last.ring
  refine ⟨total, looped, _, refillLoop_refills stepped, rfl, Or.inr rfl, bell, ?_, fun _ => rfl⟩
  rw [posted, List.filterMap_append]
  exact (congrArg _ none).trans (List.append_nil _)

end Refills

/-- A refill returns and changes only what posting changes. -/
theorem enaRxRefill_frame (p : RxPort) (count : Nat) (alloc : AllocNetbuf)
    (unlocked : p.ring.ringLock = false) :
    ∃ ret next events, enaRxRefill p count alloc = .ok (ret, next, events) ∧
      PostFrame p.ring next.ring ∧ consumed events = 0 := by
  obtain ⟨ret, next, events, ran⟩ :
      ∃ ret next events, enaRxRefill p count alloc = .ok (ret, next, events) := by
    unfold enaRxRefill
    split
    · exact ⟨_, _, _, rfl⟩
    · obtain ⟨total, last, events, looped⟩ := @refillLoop_total p alloc 0
        (if count = 0 then p.ring.pool.freeReqCount else count) unlocked
      rw [looped]
      exact ⟨_, _, _, rfl⟩
  obtain ⟨total, looped, bell, refills, rfl, _, silent, _⟩ := enaRxRefill_refills ran
  obtain ⟨frame, quiet, _⟩ := refills.frame
  exact ⟨ret, next, _, ran, frame, (quiet.append silent).consumes⟩

theorem enaRxRefill_posts (p : RxPort) (count : Nat) (alloc : AllocNetbuf)
    (tracks : RxTracks p.ring ledger) (unlocked : p.ring.ringLock = false) :
    ∃ next events, enaRxRefill p count alloc = .ok ((posted events).length, next, events) ∧
      RxPosts p.ring events next.ring ∧ RxSilent events ∧ next.ring.ringLock = false := by
  obtain ⟨ret, next, events, ran, ⟨_, _, _, _, ring⟩, _⟩ := enaRxRefill_frame p count alloc unlocked
  obtain ⟨total, looped, bell, refills, rfl, _, silent, same, number⟩ := enaRxRefill_refills ran
  obtain ⟨_, quiet, counted⟩ := refills.frame
  refine ⟨next, looped ++ bell, ?_, ?_, quiet.append silent, by rw [ring]; exact unlocked⟩
  · rw [ran, number tracks.1, counted, same, Nat.zero_add]
  · intro ledger tracks
    obtain ⟨frame, acts, moved, agree⟩ := refills.posts ledger tracks
    rw [same]
    exact ⟨frame, acts, moved, agree⟩

/-! ## Reset -/

theorem FreesOnly.given (frees : FreesOnly events) :
    Datapath.given events = freed events := by
  induction events with
  | nil => rfl
  | cons event rest ih =>
    obtain ⟨id, nb, here⟩ := frees event List.mem_cons_self
    have later := ih fun other member => frees other (List.mem_cons_of_mem _ member)
    rw [Datapath.given, freed, List.flatMap_cons, List.flatMap_cons]
    change event.gives ++ Datapath.given rest = event.frees ++ freed rest
    rw [later]
    rcases here with rfl | rfl
    · rfl
    · rfl

theorem FreesOnly.silent (frees : FreesOnly events) :
    received events = [] ∧ posted events = [] := by
  constructor
  · apply List.filterMap_eq_nil_iff.mpr
    intro event member
    rcases frees event member with ⟨id, nb, rfl | rfl⟩
    · rfl
    · rfl
  · apply List.filterMap_eq_nil_iff.mpr
    intro event member
    rcases frees event member with ⟨id, nb, rfl | rfl⟩
    · rfl
    · rfl

/-- A reset of an unlocked receive ring releases every buffer and leaves the ring
as allocated, apart from its hardware part. -/
theorem enaAdapterInvalidateIoRing_releases (tracks : RxTracks r ledger)
    (unlocked : r.ringLock = false) :
    ∃ txBufs rxBufs events actions,
      enaAdapterInvalidateIoRing r = .ok (r.emptied txBufs rxBufs, events) ∧
      Steps ReleaseOnly ledger actions Ledger.empty ∧
      RxTracks (r.emptied txBufs rxBufs) Ledger.empty ∧
      given events = yielded some actions ∧ FreesOnly events := by
  have netbufs : ∀ id, r.slotNetbuf id = (ledger id).item?.bind some := by
    intro id
    rw [Ring.slotNetbuf, tracks.1, Option.bind_fun_some]
    exact tracks.2.netbuf id
  obtain ⟨txBufs, rxBufs, events, actions, ran, steps, released, frees, cleared⟩ :=
    enaAdapterInvalidateIoRing_steps some tracks.2.outside netbufs unlocked
  refine ⟨txBufs, rxBufs, events, actions, ran, steps, ⟨tracks.1, ?_⟩, ?_, frees⟩
  · refine { RxCustody.fresh r.sqDepth with netbuf := ?_ }
    intro id
    have empty := cleared id
    rw [Ring.slotNetbuf, show (r.emptied txBufs rxBufs).ringType = .rx from tracks.1] at empty
    exact empty
  · rw [frees.given, released]

end EnaDriver.Datapath
