import EnaDriver.Netdev.BouncePools
import EnaDriver.Netdev.ReceiveCalls
import EnaDriver.Datapath.ReceiveRuns

/-!
# Bounce slots of a receive queue

The map of a receive queue tells exactly where each posted buffer is: a buffer
in low memory was posted inside the slot that the map has under its id, any
other buffer was posted where it is.  A turn of the receive loop returns the slot
of the packet it delivers, and the ring returns the slot of a packet it drops.
-/

namespace EnaDriver.Netdev

open Support.Laps Support.Windows Support.Polling
open Support.Custody
open Datapath

variable {p : RxPort} {queue : Option RxQueue}

/-! ## Pools that serve a ring -/

def RxPostedAt (phys : Nat) (nb : Netbuf) (buf : RxBuffer) : Option Nat → Prop
  | some slot => nb.physAddr < dmaLowMemLimit ∧ buf.physAddr = phys + slot * rxBufSize ∧
      buf.dataLen ≤ rxBufSize
  | none => dmaLowMemLimit ≤ nb.physAddr ∧ buf.physAddr = nb.physAddr

/-- The pool of a ring of the same depth is sound, and every buffer was posted
where the map says.  Under the given condition every slot is free, in hand, or
the slot of a posted buffer or of the packet delivered last. -/
structure RxServes (phys : Nat) (condition : Prop) (late : Nat → Prop) (r : Ring)
    (pool : BouncePool) (hand : List Nat) : Prop where
  depth : pool.nbDesc = r.sqDepth
  base : pool.phys = phys
  sound : pool.Sound hand
  placed : ∀ id nb, (r.rxBufs id).netbuf = some nb →
    RxPostedAt phys nb (r.rxBufs id) (pool.map id)
  whole : condition → pool.Whole hand
  flying : condition → ∀ id slot, pool.map id = some slot →
    (r.rxBufs id).netbuf.isSome = true ∨ late id

def noneLate : Nat → Prop := fun _ => False

def KeepsRxPool (phys : Nat) (condition : Prop) (late : Nat → Prop) (r : Ring)
    (queue : Option RxQueue) : Prop :=
  ∃ q pool, queue = some q ∧ q.bounce = some pool ∧ q.pendingSlot = none ∧
    RxServes phys condition late r pool []

namespace RxServes

variable {phys : Nat} {condition : Prop} {late : Nat → Prop} {r next : Ring} {pool : BouncePool}
  {hand : List Nat} {id slot : Nat}

/-- A ring with the same buffers keeps its pool. -/
theorem congr (serves : RxServes phys condition late r pool hand) (bufs : next.rxBufs = r.rxBufs)
    (depth : next.sqDepth = r.sqDepth) : RxServes phys condition late next pool hand := by
  constructor
  · exact serves.depth.trans depth.symm
  · exact serves.base
  · exact serves.sound
  · rw [bufs]
    exact serves.placed
  · exact serves.whole
  · rw [bufs]
    exact serves.flying

theorem mono {later : Nat → Prop} (serves : RxServes phys condition late r pool hand)
    (weaken : ∀ id slot, pool.map id = some slot → late id → later id) :
    RxServes phys condition later r pool hand :=
  ⟨serves.depth, serves.base, serves.sound, serves.placed, serves.whole,
    fun ok id slot assigned => (serves.flying ok id slot assigned).imp_right (weaken id slot assigned)⟩

/-- A request gives up its buffer; its slot stays in the map for a while. -/
theorem deliver (serves : RxServes phys condition noneLate r pool hand)
    (bufs : next.rxBufs = store r.rxBufs id .empty) (depth : next.sqDepth = r.sqDepth) :
    RxServes phys condition (· = id) next pool hand := by
  constructor
  · exact serves.depth.trans depth.symm
  · exact serves.base
  · exact serves.sound
  · intro other nb held
    rw [bufs] at held ⊢
    by_cases same : other = id
    · rw [same, store_same] at held
      cases held
    · rw [store_other _ _ same] at held ⊢
      exact serves.placed other nb held
  · exact serves.whole
  · intro ok other slot assigned
    by_cases same : other = id
    · exact Or.inr same
    · rw [bufs, store_other _ _ same]
      exact Or.inl ((serves.flying ok other slot assigned).resolve_right fun never => never)

/-- The slot of a request without a buffer goes back to the free window. -/
theorem reclaim (serves : RxServes phys condition (· = id) r pool [])
    (bound : id < r.sqDepth.val) (vacant : (r.rxBufs id).netbuf = none)
    (found : pool.map id = some slot) :
    RxServes phys condition noneLate r ((pool.unmap id).giveBack slot) [] := by
  have inside : id < pool.nbDesc.val := by
    rw [serves.depth]
    exact bound
  obtain ⟨sound, moved⟩ := serves.sound.reclaim inside found
  constructor
  · exact serves.depth
  · exact serves.base
  · exact sound
  · intro other nb held
    have differs : other ≠ id := by
      rintro rfl
      rw [vacant] at held
      cases held
    change RxPostedAt _ _ _ (store pool.map id none other)
    rw [store_other _ _ differs]
    exact serves.placed other nb held
  · intro ok
    exact (serves.whole ok).of_perm rfl moved
  · intro ok other slot assigned
    change store pool.map id none other = _ at assigned
    obtain ⟨apart, assigned⟩ := of_store assigned nofun
    exact Or.inl ((serves.flying ok other slot assigned).resolve_right apart)

/-- A request without a buffer and without a slot leaves nothing behind. -/
theorem settled (serves : RxServes phys condition (· = id) r pool hand)
    (vacant : pool.map id = none) : RxServes phys condition noneLate r pool hand := by
  apply serves.mono
  rintro other slot assigned rfl
  rw [vacant] at assigned
  cases assigned

theorem pop (serves : RxServes phys condition late r pool []) (stocked : pool.freeCount ≠ 0) :
    RxServes phys condition late r (BouncePool.pop pool).2 [(BouncePool.pop pool).1] := by
  obtain ⟨sound, moved⟩ := serves.sound.pop stocked
  exact ⟨serves.depth, serves.base, sound, serves.placed,
    fun ok => (serves.whole ok).of_perm rfl moved, serves.flying⟩

theorem giveBack (serves : RxServes phys condition late r pool [slot]) :
    RxServes phys condition late r (pool.giveBack slot) [] := by
  obtain ⟨sound, moved⟩ := serves.sound.giveBack
  exact ⟨serves.depth, serves.base, sound, serves.placed,
    fun ok => (serves.whole ok).of_perm rfl moved, serves.flying⟩

/-- Posting a buffer under an id without one, and recording its slot. -/
theorem post {taken : Option Nat} {nb : Netbuf} {buf : RxBuffer}
    (serves : RxServes phys condition noneLate r pool taken.toList) (bound : id < r.sqDepth.val)
    (vacant : (r.rxBufs id).netbuf = none) (holds : buf.netbuf = some nb)
    (posted : RxPostedAt phys nb buf taken) (bufs : next.rxBufs = store r.rxBufs id buf)
    (depth : next.sqDepth = r.sqDepth) :
    RxServes phys condition noneLate next (pool.assign id taken) [] := by
  have inside : id < pool.nbDesc.val := by
    rw [serves.depth]
    exact bound
  have inHand : pool.Sound (taken.toList ++ []) := by
    rw [List.append_nil]
    exact serves.sound
  obtain ⟨sound, moved⟩ := inHand.assign inside
  rw [List.append_nil] at moved
  constructor
  · exact serves.depth.trans depth.symm
  · exact serves.base
  · exact sound
  · intro other found held
    rw [bufs] at held ⊢
    change RxPostedAt _ _ _ (store pool.map id taken other)
    by_cases same : other = id
    · rw [same, store_same] at held ⊢
      rw [holds] at held
      cases held
      rw [store_same]
      exact posted
    · rw [store_other _ _ same] at held ⊢
      rw [store_other _ _ same]
      exact serves.placed other found held
  · intro ok
    -- the free id has no buffer, so nothing is lost with its entry
    have empty : pool.map id = none := by
      cases assigned : pool.map id with
      | none => rfl
      | some old =>
        have held := (serves.flying ok id old assigned).resolve_right fun never => never
        rw [vacant] at held
        cases held
    exact (serves.whole ok).of_perm rfl (moved empty)
  · intro ok other slot assigned
    change store pool.map id taken other = _ at assigned
    rw [bufs]
    by_cases same : other = id
    · rw [same, store_same, holds]
      exact Or.inl rfl
    · rw [store_other _ _ same] at assigned ⊢
      exact serves.flying ok other slot assigned

/-- A reset takes every buffer.  The map stays, so the accounts balance only if
no posted buffer has a slot. -/
theorem reset (serves : RxServes phys condition noneLate r pool [])
    (clear : condition → ∀ id, (r.rxBufs id).netbuf.isSome = true → pool.map id = none)
    (empty : ∀ id, (next.rxBufs id).netbuf = none) (depth : next.sqDepth = r.sqDepth) :
    RxServes phys condition noneLate next pool [] := by
  constructor
  · exact serves.depth.trans depth.symm
  · exact serves.base
  · exact serves.sound
  · intro id nb held
    rw [empty] at held
    cases held
  · exact serves.whole
  · intro ok id slot assigned
    have held := (serves.flying ok id slot assigned).resolve_right fun never => never
    rw [clear ok id held] at assigned
    cases assigned

end RxServes

/-! ## Refills -/

/-- A queue that has prepared a buffer for posting, with its slot in hand if it is
in low memory. -/
def Loaded (phys : Nat) (condition : Prop) (r : Ring) (nb : Netbuf) (physAddr bufLen : Nat)
    (q : RxQueue) : Prop :=
  ∃ pool, q.bounce = some pool ∧
    RxServes phys condition noneLate r pool q.pendingSlot.toList ∧
    ∀ reqId, RxPostedAt phys nb ⟨some nb, physAddr, bufLen, reqId⟩ q.pendingSlot

/-- What the allocation callback offers: nothing, or a buffer that is prepared for
posting. -/
inductive Offers (phys : Nat) (condition : Prop) (r : Ring) :
    Option (Netbuf × Nat × Nat) × Option RxQueue → Prop
  | nothing {queue : Option RxQueue} (keeps : KeepsRxPool phys condition noneLate r queue) :
      Offers phys condition r (none, queue)
  | buffer {nb : Netbuf} {physAddr bufLen : Nat} {q : RxQueue}
      (loaded : Loaded phys condition r nb physAddr bufLen q) :
      Offers phys condition r (some (nb, physAddr, bufLen), some q)

section Refills

variable {phys : Nat} {condition : Prop} {r : Ring} {q : RxQueue} {ledger : RxLedger} {nb : Netbuf}
  {physAddr bufLen reqId : Nat}

theorem enaNetbufAllocHelper_offers (build : Build) (answers : Nat → Option Netbuf) (call : Nat)
    (keeps : KeepsRxPool phys condition noneLate r queue) :
    Offers phys condition r (enaNetbufAllocHelper build answers call queue) := by
  obtain ⟨q, pool, rfl, holds, idle, serves⟩ := keeps
  unfold enaNetbufAllocHelper
  simp only [holds]
  split
  · exact .nothing ⟨q, pool, rfl, holds, idle, serves⟩
  split
  · rename_i low
    split
    · exact .nothing ⟨q, pool, rfl, holds, idle, serves⟩
    · rename_i stocked
      refine .buffer ⟨_, rfl, serves.pop stocked, fun _ => ⟨low, ?_, Nat.min_le_right _ _⟩⟩
      rw [serves.base]
  · rename_i high
    refine .buffer ⟨pool, holds, ?_, ?_⟩
    · rw [idle]
      exact serves
    · rw [idle]
      exact fun _ => ⟨Nat.le_of_not_lt high, rfl⟩

/-- A buffer that was posted records its slot. -/
theorem Loaded.bindPending (loaded : Loaded phys condition r nb physAddr bufLen q)
    (tracks : RxTracks r ledger) {free : RequestPool}
    (found : enaRingReqIdAlloc r.sqDepth r.pool = some (reqId, free)) :
    KeepsRxPool phys condition noneLate (rxSubmitted r nb physAddr bufLen reqId free)
      (some (q.bindPending reqId)) := by
  obtain ⟨pool, holds, serves, posted⟩ := loaded
  obtain ⟨isFree, bound, _⟩ := tracks.2.post found nb ⟨some nb, physAddr, bufLen, reqId⟩ rfl
  have vacant : (r.rxBufs reqId).netbuf = none := by
    rw [tracks.2.netbuf, isFree]
    rfl
  have inside : ¬ pool.nbDesc.val ≤ reqId := by
    rw [serves.depth]
    omega
  have recorded : q.bindPending reqId =
      { q with bounce := some (pool.assign reqId q.pendingSlot), pendingSlot := none } := by
    unfold RxQueue.bindPending
    simp only [holds, if_neg inside]
    rfl
  exact ⟨_, pool.assign reqId q.pendingSlot, rfl, by rw [recorded], by rw [recorded],
    serves.post bound vacant rfl (posted reqId) rfl rfl⟩

/-- A buffer that was not posted gives its slot back. -/
theorem Loaded.abandonPending (loaded : Loaded phys condition r nb physAddr bufLen q) :
    KeepsRxPool phys condition noneLate r (some q.abandonPending) := by
  obtain ⟨pool, holds, serves, _⟩ := loaded
  cases pending : q.pendingSlot with
  | none =>
    have same : q.abandonPending = { q with pendingSlot := none } := by
      unfold RxQueue.abandonPending
      rw [pending]
    rw [pending] at serves
    exact ⟨_, pool, rfl, by rw [same]; exact holds, by rw [same], serves⟩
  | some slot =>
    have same : q.abandonPending =
        { q with bounce := some (pool.giveBack slot), pendingSlot := none } := by
      unfold RxQueue.abandonPending
      rw [pending, holds]
    rw [pending] at serves
    exact ⟨_, pool.giveBack slot, rfl, by rw [same], by rw [same], serves.giveBack⟩

theorem refills_keepsPool {build : Build} {answers : Nat → Option Netbuf} {refilled total : Nat}
    {next : RxPort} {events : List Event}
    (refills : Refills (enaNetbufAllocHelper build answers) refilled p total next events)
    (tracks : RxTracks p.ring ledger) (keeps : KeepsRxPool phys condition noneLate p.ring p.queue) :
    KeepsRxPool phys condition noneLate next.ring next.queue := by
  induction refills generalizing ledger with
  | stop p => exact keeps
  | @nothing refilled p queue offer =>
    have offers := enaNetbufAllocHelper_offers build answers refilled keeps
    rw [offer] at offers
    cases offers with
    | nothing kept => exact kept
  | @refused refilled p queue nb physAddr bufLen offer =>
    have offers := enaNetbufAllocHelper_offers build answers refilled keeps
    rw [offer] at offers
    cases offers with
    | buffer loaded => exact loaded.abandonPending
  | @post refilled _ p _ queue nb physAddr bufLen reqId pool _ offer found small rest ih =>
    have offers := enaNetbufAllocHelper_offers build answers refilled keeps
    rw [offer] at offers
    obtain ⟨_, ⟨_, between, _, tracked, _⟩, _⟩ :=
      rxSubmitted_posts found nb physAddr bufLen ledger tracks
    cases offers with
    | buffer loaded => exact ih tracked (loaded.bindPending tracks found)

end Refills

/-! ## Polls -/

def lateOf (pkt : RxPkt) : Nat → Prop := fun id => id = pkt.reqId ∧ pkt.netbuf.isSome = true

theorem returnSlot_eq_reclaimSlot (q : RxQueue) (reqId : Nat) :
    RxQueue.returnSlot q reqId = q.reclaimSlot reqId := by
  unfold RxQueue.returnSlot RxQueue.reclaimSlot RxQueue.bounceSlot
  cases q.bounce with
  | none => rfl
  | some pool =>
    simp only [Option.bind_some]
    by_cases inside : reqId < pool.nbDesc.val
    · rw [if_pos inside, if_neg (Nat.not_le_of_lt inside)]
      cases pool.map reqId with
      | none => rfl
      | some slot => rfl
    · rw [if_neg inside, if_pos (Nat.le_of_not_lt inside)]

section Polls

variable {phys : Nat} {condition : Prop} {ledger : RxLedger} {r : Ring}

theorem KeepsRxPool.congr {late : Nat → Prop} {r next : Ring}
    (keeps : KeepsRxPool phys condition late r queue) (bufs : next.rxBufs = r.rxBufs)
    (depth : next.sqDepth = r.sqDepth) : KeepsRxPool phys condition late next queue := by
  obtain ⟨q, pool, found, holds, idle, serves⟩ := keeps
  exact ⟨q, pool, found, holds, idle, serves.congr bufs depth⟩

theorem KeepsRxPool.mono {late later : Nat → Prop}
    (keeps : KeepsRxPool phys condition late r queue) (weaken : ∀ id, late id → later id) :
    KeepsRxPool phys condition later r queue := by
  obtain ⟨q, pool, found, holds, idle, serves⟩ := keeps
  exact ⟨q, pool, found, holds, idle, serves.mono fun id _ _ => weaken id⟩

/-- Returning the slot of a request without a buffer. -/
theorem KeepsRxPool.reclaimSlot {q : RxQueue} {id : Nat}
    (keeps : KeepsRxPool phys condition (· = id) r (some q)) (bound : id < r.sqDepth.val)
    (vacant : (r.rxBufs id).netbuf = none) :
    KeepsRxPool phys condition noneLate r (some (q.reclaimSlot id)) := by
  obtain ⟨_, pool, found, holds, idle, serves⟩ := keeps
  cases found
  have inside : ¬ pool.nbDesc.val ≤ id := by
    rw [serves.depth]
    omega
  unfold RxQueue.reclaimSlot
  simp only [holds, if_neg inside]
  cases assigned : pool.map id with
  | none => exact ⟨_, pool, rfl, holds, idle, serves.settled assigned⟩
  | some slot => exact ⟨_, _, rfl, rfl, idle, serves.reclaim bound vacant assigned⟩

theorem rxDrop_received (r : Ring) (id : Nat) : received (rxDrop r id).2 = [] := by
  unfold rxDrop
  simp only
  cases (r.rxBufs id).netbuf with
  | none => rfl
  | some nb =>
    simp only
    split <;> rfl

/-- Dropping a reception takes the buffer from its request. -/
theorem rxDrop_keepsPool (id : Nat) (tracks : RxTracks r ledger)
    (keeps : KeepsRxPool phys condition noneLate r queue) :
    KeepsRxPool phys condition (· = id) (rxDrop r id).1 queue ∧
      ((rxDrop r id).1.rxBufs id).netbuf = none ∧ (rxDrop r id).1.sqDepth = r.sqDepth := by
  obtain ⟨q, pool, found, holds, idle, serves⟩ := keeps
  rcases rxStatus_cases (ledger id) with isFree | ⟨nb, active⟩
  · rw [rxDrop_free tracks isFree]
    refine ⟨⟨q, pool, found, holds, idle, ?_⟩, ?_, rfl⟩
    · exact (serves.mono fun _ _ _ => False.elim).congr rfl rfl
    · change (r.rxBufs id).netbuf = none
      rw [tracks.2.netbuf, isFree]
      rfl
  · rw [rxDrop_held tracks active]
    refine ⟨⟨q, pool, found, holds, idle, serves.deliver rfl rfl⟩, ?_, rfl⟩
    change (store r.rxBufs id RxBuffer.empty id).netbuf = none
    rw [store_same]
    rfl

/-- Delivering a reception takes the buffer from its request; the slot stays in
the map until the packet is taken over. -/
theorem rxDeliver_keepsPool (cdesc : RxCdesc) (tracks : RxTracks r ledger)
    (keeps : KeepsRxPool phys condition noneLate r queue) :
    KeepsRxPool phys condition (lateOf (rxPacket (r.rxBufs cdesc.reqId) cdesc))
        (rxDeliver r cdesc) queue ∧
      ((rxDeliver r cdesc).rxBufs cdesc.reqId).netbuf = none ∧
      (rxDeliver r cdesc).sqDepth = r.sqDepth := by
  obtain ⟨q, pool, found, holds, idle, serves⟩ := keeps
  rcases rxStatus_cases (ledger cdesc.reqId) with isFree | ⟨nb, active⟩
  · rw [rxDeliver_free tracks isFree]
    refine ⟨⟨q, pool, found, holds, idle, ?_⟩, ?_, rfl⟩
    · exact (serves.mono fun _ _ _ => False.elim).congr rfl rfl
    · change (r.rxBufs cdesc.reqId).netbuf = none
      rw [tracks.2.netbuf, isFree]
      rfl
  · rw [rxDeliver_held tracks active]
    have carried : (rxPacket (r.rxBufs cdesc.reqId) cdesc).netbuf.isSome = true := by
      change (r.rxBufs cdesc.reqId).netbuf.isSome = true
      rw [tracks.2.netbuf, active]
      rfl
    refine ⟨⟨q, pool, found, holds, idle, ?_⟩, ?_, rfl⟩
    · exact RxServes.mono (serves.deliver rfl rfl) fun id _ _ same => ⟨same, carried⟩
    · change (store r.rxBufs cdesc.reqId RxBuffer.empty cdesc.reqId).netbuf = none
      rw [store_same]
      rfl

/-- What the poll for one packet leaves: no packet and a pool in order, or one
packet whose request has no buffer any more and may still have its slot. -/
def PolledOne (phys : Nat) (condition : Prop) (events : List Event) (p : RxPort) : Prop :=
  (received events = [] ∧ KeepsRxPool phys condition noneLate p.ring p.queue) ∨
    ∃ pkt, received events = [pkt] ∧ pkt.reqId < p.ring.sqDepth.val ∧
      (p.ring.rxBufs pkt.reqId).netbuf = none ∧
      KeepsRxPool phys condition (lateOf pkt) p.ring p.queue

theorem rxIterates_keepsPool {last : RxPort} {views : List RxMem} {count total : Nat}
    {outputs : List Event} (iterates : Iterates rxPollEntry 1 count p views total outputs last)
    (started : count = 0) (tracks : RxTracks p.ring ledger)
    (keeps : KeepsRxPool phys condition noneLate p.ring p.queue) :
    PolledOne phys condition outputs last := by
  induction iterates generalizing ledger with
  | stop reason => exact Or.inl ⟨rfl, keeps⟩
  | @step count total added state next last view views outputs rest more read later ih =>
    obtain ⟨_, ⟨_, between, _, tracked, _⟩, _⟩ := rxPollEntry_reaps read tracks ledger tracks
    obtain ⟨_, bound, entry⟩ := rxPollEntry_cases read
    -- a skipped or dropped entry delivers nothing, and the loop goes on
    have goesOn : received outputs = [] → PolledOne phys condition rest last →
        PolledOne phys condition (outputs ++ rest) last := by
      intro nothing polled
      have same : received (outputs ++ rest) = received rest := by
        rw [received, List.filterMap_append]
        change received outputs ++ received rest = _
        rw [nothing, List.nil_append]
      unfold PolledOne
      rw [same]
      exact polled
    cases entry with
    | skipped idle => exact goesOn rfl (ih started tracked (keeps.congr rfl rfl))
    | dropped inFlight oversize =>
      obtain ⟨dropped, vacant, depth⟩ :=
        rxDrop_keepsPool (view state.ring.cqSlot).reqId tracks keeps
      obtain ⟨q, _, found, _⟩ := keeps
      rw [found] at dropped
      have reclaimed := dropped.reclaimSlot (by rw [depth]; exact bound) vacant
      refine goesOn ?_ (ih started tracked ?_)
      · exact rxDrop_received _ _
      · change KeepsRxPool _ _ _ _ (state.queue.map _)
        rw [found]
        exact reclaimed.congr rfl rfl
    | delivered inFlight fits =>
      -- the budget of one packet is spent
      cases later with
      | step more _ _ => omega
      | stop reason =>
        obtain ⟨delivered, vacant, depth⟩ :=
          rxDeliver_keepsPool (view state.ring.cqSlot) tracks keeps
        refine Or.inr ⟨_, rfl, ?_, vacant, delivered.congr rfl rfl⟩
        change _ < (rxDeliver _ _).sqDepth.val
        rw [depth]
        exact bound

theorem enaRxPoll_keepsPool {views : List RxMem} {polled : RxPolled}
    (tracks : RxTracks p.ring ledger) (unlocked : p.ring.ringLock = false)
    (returned : enaRxPoll p 1 views = .ok polled)
    (keeps : KeepsRxPool phys condition noneLate p.ring p.queue) :
    PolledOne phys condition polled.events polled.port := by
  rcases enaRxPoll_cases unlocked returned with
    ⟨same, silent, _⟩ | ⟨rcvd, last, outputs, iterates, _, rfl⟩
  · rw [same, silent]
    exact Or.inl ⟨rfl, keeps⟩
  have ended := rxIterates_keepsPool iterates rfl (show RxTracks _ ledger from tracks)
    (keeps.congr rfl rfl)
  have same : received (outputs ++ enaRxReportHead last.ring rcvd) = received outputs := by
    rw [received, List.filterMap_append]
    change received outputs ++ received _ = _
    rw [enaRxReportHead_received, List.append_nil]
  rcases ended with ⟨nothing, kept⟩ | ⟨pkt, one, bound, vacant, kept⟩
  · exact Or.inl ⟨same.trans nothing, kept.congr rfl rfl⟩
  · exact Or.inr ⟨pkt, same.trans one, bound, vacant, kept.congr rfl rfl⟩

end Polls

/-! ## The system -/

/-- An operation on a receive queue.  A receive call is a refill followed by turns
of its loop; a start and a recovery refill the ring with a given count. -/
inductive RxBounceOp where
  | refill (build : Build) (answers : Nat → Option Netbuf) (counts : Bool)
  | refillCount (count : Nat) (build : Build) (answers : Nat → Option Netbuf)
  | turn (build : Build) (input : RxInput)
  | reset
  | createHw (dev : DeviceMap) (answers : AdminReq → Int × Response) (vector : Nat)
  | destroyHw (answers : AdminReq → Int × Response)

def rxBounceStep (c : RxChannel) : RxBounceOp → Except Fault RxChannel
  | .refill build answers counts => do
    let (next, _) ← refill build c answers counts
    return next
  | .refillCount count build answers => do
    let (_, port, _) ← enaRxRefill c.port count (enaNetbufAllocHelper build answers)
    return c.update port
  | .turn build input => do
    let result ← rxTurn build c input
    return result.channel
  | .reset => do
    let (ring, _) ← enaAdapterInvalidateIoRing c.ring
    return { c with ring := ring }
  | .createHw dev answers vector => do
    let (_, ring) ← createHwOn dev answers vector c.ring
    return { c with ring := ring }
  | .destroyHw answers => do
    let (_, ring) ← destroyHwOn answers c.ring
    return { c with ring := ring }

/-- At a reset no posted buffer has a bounce slot. -/
def RxVacant (c : RxChannel) : RxBounceOp → Prop
  | .reset => ∀ pool, c.queue.bounce = some pool →
      ∀ id, c.ring.pool.reqInFlight id = true → pool.map id = none
  | _ => True

structure RxServed (phys : Nat) (condition : Prop) (c : RxChannel) : Prop where
  tracks : ∃ ledger, RxTracks c.ring ledger
  unlocked : c.ring.ringLock = false
  located : ∃ count, c.ring.cqHead = Cursor.after c.ring.cqDepth count
  keeps : KeepsRxPool phys condition noneLate c.ring (some c.queue)

section Served

variable {phys : Nat} {condition : Prop} {c : RxChannel}

variable (served : RxServed phys condition c)
include served

/-- A change that leaves the requests, the positions and the pool alone. -/
theorem RxServed.congr {next : RxChannel}
    (tracks : ∀ ledger, RxTracks c.ring ledger → RxTracks next.ring ledger)
    (unlocked : next.ring.ringLock = false)
    (positions : next.ring.cqDepth = c.ring.cqDepth ∧ next.ring.cqHead = c.ring.cqHead)
    (bufs : next.ring.rxBufs = c.ring.rxBufs) (depth : next.ring.sqDepth = c.ring.sqDepth)
    (bounce : next.queue.bounce = c.queue.bounce)
    (pending : next.queue.pendingSlot = c.queue.pendingSlot) : RxServed phys condition next where
  tracks := by
    obtain ⟨ledger, tracked⟩ := served.tracks
    exact ⟨ledger, tracks ledger tracked⟩
  unlocked := unlocked
  located := by
    obtain ⟨count, located⟩ := served.located
    exact ⟨count, by rw [positions.1, positions.2]; exact located⟩
  keeps := by
    obtain ⟨_, pool, found, holds, idle, serves⟩ := served.keeps
    cases found
    exact ⟨_, pool, rfl, bounce.trans holds, pending.trans idle, serves.congr bufs depth⟩

theorem RxServed.refillCount (count : Nat) (build : Build) (answers : Nat → Option Netbuf) :
    ∃ ret port events, enaRxRefill c.port count (enaNetbufAllocHelper build answers) =
        .ok (ret, port, events) ∧ RxServed phys condition (c.update port) := by
  obtain ⟨ledger, tracks⟩ := served.tracks
  obtain ⟨position, located⟩ := served.located
  obtain ⟨ret, port, events, ran, refilled⟩ :=
    enaRxRefill_refilled tracks served.unlocked count build answers
  obtain ⟨_, after, _, tracked, _⟩ := refilled.acts
  refine ⟨ret, port, events, ran, ⟨after, tracked⟩, refilled.unlocked, ⟨position, ?_⟩, ?_⟩
  · rw [refilled.cqHead, refilled.cqDepth]
    exact located
  obtain ⟨_, _, _, refills, _⟩ := enaRxRefill_refills ran
  have kept := refills_keepsPool refills tracks served.keeps
  obtain ⟨q, pool, found, holds, idle, serves⟩ := kept
  refine ⟨_, pool, rfl, ?_, ?_, serves⟩
  · rw [RxChannel.update, found]
    exact holds
  · rw [RxChannel.update, found]
    exact idle

theorem RxServed.countErr (ret : Int) (spare : Nat) :
    RxServed phys condition (countRefillErr c ret spare) := by
  unfold countRefillErr
  split
  · exact served.congr (fun _ tracked => tracked) served.unlocked ⟨rfl, rfl⟩ rfl rfl rfl rfl
  · exact served

theorem RxServed.refill (build : Build) (answers : Nat → Option Netbuf) (counts : Bool) :
    ∃ next events, refill build c answers counts = .ok (next, events) ∧
      RxServed phys condition next := by
  obtain ⟨next, events, ran⟩ := refill_total served.unlocked build answers counts
  refine ⟨next, events, ran, @refill_rule _ _ _ (fun next _ => RxServed phys condition next) served
    ?_ (fun ret spare kept => kept.countErr ret spare) _ _ _ ran⟩
  intro count ret port events ran
  obtain ⟨_, _, _, same, kept⟩ := served.refillCount count build answers
  cases ran.symm.trans same
  exact kept

theorem joinChain_served (nb : Netbuf) (pkt : RxPkt) (mem : RxMem) :
    RxServed phys condition (joinChain c nb pkt mem).2 := by
  have relinked : ∀ chain, RxServed phys condition { c with queue := { c.queue with chain := chain } } :=
    fun chain => served.congr (fun _ tracked => tracked) served.unlocked ⟨rfl, rfl⟩ rfl rfl rfl rfl
  unfold joinChain
  cases c.queue.chain with
  | nil =>
    simp only
    split
    · exact relinked _
    · exact served
  | cons head rest =>
    simp only
    split
    · exact relinked _
    · exact relinked _

theorem RxServed.turn (build : Build) (input : RxInput) :
    ∃ result, rxTurn build c input = .ok result ∧ RxServed phys condition result.channel := by
  obtain ⟨ledger, tracks⟩ := served.tracks
  obtain ⟨position, located⟩ := served.located
  obtain ⟨polled, ran⟩ := enaRxPoll_total (p := c.port) 1 input.changing input.settled tracks
    served.unlocked located
  obtain ⟨reaped, unlocked⟩ := enaRxPoll_reaps tracks served.unlocked ran
  obtain ⟨frame, ⟨_, after, _, tracked, _⟩, moved⟩ := reaped ledger tracks
  have kept := enaRxPoll_keepsPool tracks served.unlocked ran served.keeps
  have here : ∃ count, polled.port.ring.cqHead = Cursor.after polled.port.ring.cqDepth count := by
    refine ⟨position + consumed polled.events, ?_⟩
    rw [frame.depths.2.1]
    exact moved position located
  obtain ⟨between, counts, finish, form, turned⟩ := rxTurn_forms build ran
  suffices middle : RxServed phys condition between by
    obtain ⟨next, events, refilled, final⟩ := middle.refill build input.answers counts
    refine ⟨_, turned next events refilled, ?_⟩
    cases form with
    | kept => exact joinChain_served final _ _ _
    | _ => exact final
  have queue : ∀ late, KeepsRxPool phys condition late polled.port.ring polled.port.queue →
      KeepsRxPool phys condition late polled.port.ring (some (queueAfter c polled)) := by
    rintro late ⟨q, pool, found, holds, idle, serves⟩
    refine ⟨_, pool, rfl, ?_, ?_, serves⟩
    · change (polled.port.queue.getD c.queue).bounce = _
      rw [found]
      exact holds
    · change (polled.port.queue.getD c.queue).pendingSlot = _
      rw [found]
      exact idle
  have settled (absent : ∀ pkt rest, received polled.events = pkt :: rest → pkt.netbuf = none) :
      RxServed phys condition ⟨polled.port.ring, queueAfter c polled⟩ := by
    refine ⟨⟨after, tracked⟩, unlocked, here, ?_⟩
    rcases kept with ⟨_, kept⟩ | ⟨pkt, one, bound, vacant, kept⟩
    · exact queue _ kept
    · refine queue _ (kept.mono ?_)
      rintro id ⟨_, some⟩
      rw [absent pkt [] one] at some
      cases some
  have returned {pkt : RxPkt} {rest : List RxPkt} (packet : received polled.events = pkt :: rest) :
      RxServed phys condition
        ⟨polled.port.ring, RxQueue.returnSlot (queueAfter c polled) pkt.reqId⟩ := by
    refine ⟨⟨after, tracked⟩, unlocked, here, ?_⟩
    rcases kept with ⟨nothing, _⟩ | ⟨other, one, bound, vacant, kept⟩
    · rw [nothing] at packet
      cases packet
    · rw [one] at packet
      cases packet
      rw [returnSlot_eq_reclaimSlot]
      exact ((queue _ kept).mono fun _ late => late.1).reclaimSlot bound vacant
  cases form with
  | empty freed nothing =>
    refine settled fun pkt rest packet => ?_
    cases nothing.symm.trans packet
  | null freed packet absent =>
    refine settled fun other rest same => ?_
    cases packet.symm.trans same
    exact absent
  | unfit freed packet carried large =>
    exact (returned packet).congr (fun _ tracked => tracked) unlocked ⟨rfl, rfl⟩ rfl rfl rfl rfl
  | kept freed packet carried fits => exact returned packet

theorem rxBounceStep_served (op : RxBounceOp) (vacant : condition → RxVacant c op) :
    ∃ next, rxBounceStep c op = .ok next ∧ RxServed phys condition next := by
  cases op with
  | refill build answers counts =>
    obtain ⟨next, _, ran, kept⟩ := served.refill build answers counts
    refine ⟨next, ?_, kept⟩
    rw [rxBounceStep, ran]
    rfl
  | refillCount count build answers =>
    obtain ⟨_, port, _, ran, kept⟩ := served.refillCount count build answers
    refine ⟨c.update port, ?_, kept⟩
    rw [rxBounceStep, ran]
    rfl
  | turn build input =>
    obtain ⟨result, ran, kept⟩ := served.turn build input
    refine ⟨result.channel, ?_, kept⟩
    rw [rxBounceStep, ran]
    rfl
  | reset =>
    obtain ⟨ledger, tracks⟩ := served.tracks
    obtain ⟨txBufs, rxBufs, events, _, ran, _, tracked, _, _⟩ :=
      enaAdapterInvalidateIoRing_releases tracks served.unlocked
    obtain ⟨_, pool, found, holds, idle, serves⟩ := served.keeps
    cases found
    have clear : condition → ∀ id, (c.ring.rxBufs id).netbuf.isSome = true →
        pool.map id = none := by
      intro ok id filled
      obtain ⟨nb, stored⟩ := Option.isSome_iff_exists.mp filled
      apply vacant ok pool holds
      apply tracks.2.flagged
      rw [tracks.active_of_netbuf stored]
      rfl
    have empty : ∀ id, ((c.ring.emptied txBufs rxBufs).rxBufs id).netbuf = none :=
      fun id => tracked.2.netbuf id
    refine ⟨{ c with ring := c.ring.emptied txBufs rxBufs }, ?_, ⟨_, tracked⟩, rfl,
      ⟨0, (Cursor.after_zero _).symm⟩, _, pool, rfl, holds, idle,
      serves.reset clear empty rfl⟩
    rw [rxBounceStep, ran]
    rfl
  | createHw dev answers vector =>
    obtain ⟨ret, hw, ran⟩ := createHwOn_hwOnly dev answers vector c.ring
    refine ⟨{ c with ring := { c.ring with hw := hw } }, ?_, served.congr
      (fun _ tracked => tracked) served.unlocked ⟨rfl, rfl⟩ rfl rfl rfl rfl⟩
    rw [rxBounceStep, ran]
    rfl
  | destroyHw answers =>
    obtain ⟨ret, hw, ran⟩ := destroyHwOn_hwOnly answers c.ring
    refine ⟨{ c with ring := { c.ring with hw := hw } }, ?_, served.congr
      (fun _ tracked => tracked) served.unlocked ⟨rfl, rfl⟩ rfl rfl rfl rfl⟩
    rw [rxBounceStep, ran]
    rfl

end Served

end EnaDriver.Netdev
