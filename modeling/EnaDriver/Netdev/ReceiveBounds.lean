import EnaDriver.Netdev.FrameEpochs
import EnaDriver.Netdev.ReceiveSpec

/-!
# The memory of a reception

What a receive queue lets the device and the copy loop touch: the ranges of the
descriptors it posts, the ranges that a copy out of a bounce slot reads and
writes, and the data of the netbufs it returns.  All of them stay inside the
buffer of the netbuf, or inside the bounce slot of the request, whatever the
device reports.
-/

namespace EnaDriver.Netdev

open Support.Laps Support.Windows Support.Polling
open Support.Custody Support.Runs
open Datapath

/-! ## Posted buffers -/

def RxDesc.buffAddr (desc : RxDesc) : Nat := desc.buffAddrLo + desc.buffAddrHi * 2 ^ 32

theorem rxSubmitDesc_buffAddr (physAddr bufLen reqId : Nat) (phase : Bool) :
    RxDesc.buffAddr (rxSubmitDesc physAddr bufLen reqId phase) = physAddr % 2 ^ 48 := by
  change physAddr % 2 ^ 32 + physAddr >>> 32 % 2 ^ 16 * 2 ^ 32 = _
  rw [Nat.shiftRight_eq_div_pow]
  omega

/-- A buffer that was posted: the request and the netbuf, the descriptor that the
device finds in the submission queue, and the bounce slot of the request. -/
structure Posting where
  reqId : Nat
  netbuf : Netbuf
  desc : RxDesc
  slot : Option Nat
  deriving DecidableEq, Repr

/-- The buffers that a refill posted, in order, with the descriptors it left behind
the old producer position. -/
def postings (before next : RxChannel) (events : List Event) : List Posting :=
  (posted events).zipIdx.map fun entry =>
    { reqId := entry.1.1
      netbuf := entry.1.2
      desc := next.ring.rxDescs
        (before.ring.sqDepth.slot (before.ring.sqTail.index + entry.2))
      slot := RxQueue.bounceSlot next.queue entry.1.1 }

def Posting.start (phys : Nat) (posting : Posting) : Nat :=
  match posting.slot with
  | some slot => phys + slot * rxBufSize
  | none => posting.netbuf.physAddr

def Posting.room (posting : Posting) : Nat :=
  match posting.slot with
  | some _ => min posting.netbuf.buflen rxBufSize
  | none => posting.netbuf.buflen

/-- The descriptor names the request, and its range lies inside the buffer of the
netbuf, or inside a bounce slot. -/
structure Posting.InBounds (phys : Nat) (d : Depth) (posting : Posting) : Prop where
  reqId : posting.desc.reqId = posting.reqId
  address : RxDesc.buffAddr posting.desc = posting.start phys % 2 ^ 48
  length : posting.desc.length ≤ posting.room
  slot : ∀ slot ∈ posting.slot, slot < d.val

/-! ## Buffers of the ring -/

/-- Every buffer of the ring was offered, and is at most as long as its netbuf. -/
def Held (offered : Netbuf → Prop) (r : Ring) : Prop :=
  ∀ id nb, (r.rxBufs id).netbuf = some nb → offered nb ∧ (r.rxBufs id).dataLen ≤ nb.buflen

variable {build : Build} {c : RxChannel} {events : List Event} {inputs : List RxInput}
  {nb : Netbuf} {next r : Ring} {polled : RxPolled} {q : RxQueue} {result : Received}
  {views : List RxMem} {ledger : RxLedger} {offered : Netbuf → Prop}

theorem Held.mono {offered wider : Netbuf → Prop} (held : Held offered r)
    (weaken : ∀ nb, offered nb → wider nb) : Held wider r :=
  fun id nb stored => ⟨weaken nb (held id nb stored).1, (held id nb stored).2⟩

/-- The allocation callback offers at most the buffer of the netbuf. -/
theorem enaNetbufAllocHelper_fits (build : Build) (answers : Nat → Option Netbuf) (call : Nat)
    {queue next : Option RxQueue} {physAddr bufLen : Nat}
    (given : enaNetbufAllocHelper build answers call queue = (some (nb, physAddr, bufLen), next)) :
    answers call = some nb ∧ bufLen ≤ nb.buflen := by
  unfold enaNetbufAllocHelper at given
  simp only at given
  split at given
  · cases given
  rename_i answer found
  have answered : answers call = some answer := by
    split at found
    · exact found
    · cases found
  split at given
  · split at given
    · split at given
      · split at given
        · cases given
        · cases given
          exact ⟨answered, Nat.min_le_left _ _⟩
      · cases given
        exact ⟨answered, Nat.mod_le _ _⟩
    · cases given
      exact ⟨answered, Nat.mod_le _ _⟩
  · cases given
    exact ⟨answered, Nat.mod_le _ _⟩

/-! ## Descriptors of a refill -/

theorem slot_ahead (d : Depth) (index ahead : Nat) :
    d.slot (index % 65536 + ahead) = d.slot (index + ahead) := by
  rw [Depth.slot_eq_mod, Depth.slot_eq_mod, Nat.add_mod, Nat.add_mod index,
    Nat.mod_mod_of_dvd index d.dvd]

theorem slot_apart (d : Depth) {index ahead : Nat} (positive : 0 < ahead) (short : ahead < d.val) :
    d.slot (index + ahead) ≠ d.slot index := by
  rw [Depth.slot_eq_mod, Depth.slot_eq_mod]
  intro same
  have multiple := Nat.sub_mod_eq_zero_of_mod_eq same
  rw [Nat.add_sub_cancel_left, Nat.mod_eq_of_lt short] at multiple
  exact Nat.ne_of_gt positive multiple

def Describes (r : Ring) (slot id : Nat) (nb : Netbuf) : Prop :=
  (r.rxBufs id).netbuf = some nb ∧ (r.rxBufs id).dataLen ≤ 0xFFFF ∧
    ∃ phase, r.rxDescs slot =
      rxSubmitDesc (r.rxBufs id).physAddr (r.rxBufs id).dataLen id phase

/-- The descriptors behind the producer position of a ring are those of the given
buffers. -/
def DescribesAll (r next : Ring) (items : List (Nat × Netbuf)) : Prop :=
  ∀ k id nb, items[k]? = some (id, nb) →
    Describes next (r.sqDepth.slot (r.sqTail.index + k)) id nb

/-- What a refill leaves in the submission queue: the descriptors of the buffers it
posted, behind the old producer position, and everything else as it was. -/
structure Describing (r next : Ring) (items : List (Nat × Netbuf)) : Prop where
  count : items.length ≤ r.pool.freeReqCount
  others : ∀ slot, (∀ k < items.length, slot ≠ r.sqDepth.slot (r.sqTail.index + k)) →
    next.rxDescs slot = r.rxDescs slot
  described : DescribesAll r next items

theorem Describing.refl (r : Ring) : Describing r r [] where
  count := Nat.zero_le _
  others := fun _ _ => rfl
  described := by
    intro k id nb found
    cases found

/-- One buffer, and the rest of a refill. -/
theorem Describing.cons {last : RxQueue} (tracks : RxTracks r ledger)
    {reqId : Nat} {pool : RequestPool}
    (found : enaRingReqIdAlloc r.sqDepth r.pool = some (reqId, pool)) {physAddr bufLen : Nat}
    (small : bufLen ≤ 0xFFFF) {items : List (Nat × Netbuf)}
    (rest : Describing (rxSubmitted r nb physAddr bufLen reqId pool) next items)
    (spares : Spares (Owned (rxSubmitted r nb physAddr bufLen reqId pool))
      ⟨rxSubmitted r nb physAddr bufLen reqId pool, q⟩ ⟨next, last⟩) :
    Describing r next ((reqId, nb) :: items) := by
  obtain ⟨_, _, _, marks, _, count, sound⟩ := RequestPool.alloc_cases tracks.2.sound found
  have fewer : items.length ≤ pool.freeReqCount := rest.count
  have below := sound.count_le
  have positions : ∀ k, (rxSubmitted r nb physAddr bufLen reqId pool).sqDepth.slot
      ((rxSubmitted r nb physAddr bufLen reqId pool).sqTail.index + k) =
        r.sqDepth.slot (r.sqTail.index + (k + 1)) := by
    intro k
    change r.sqDepth.slot ((r.sqTail.index + 1) % 65536 + k) = _
    rw [slot_ahead, Nat.add_assoc, Nat.add_comm 1 k]
  have room := tracks.2.sound.count_le
  have owned : Owned (rxSubmitted r nb physAddr bufLen reqId pool) reqId := by
    change pool.reqAllocated reqId = true
    rw [marks, store_same]
  have buffer : next.rxBufs reqId = ⟨some nb, physAddr, bufLen, reqId⟩ :=
    (spares.slots reqId owned).trans (store_same _ _ _)
  constructor
  · rw [List.length_cons]
    omega
  · intro slot apart
    rw [rest.others slot]
    · refine store_other _ _ ?_
      exact apart 0 (by rw [List.length_cons]; omega)
    · intro k bound
      rw [positions]
      exact apart (k + 1) (by rw [List.length_cons]; omega)
  · intro k id item at_k
    cases k with
    | succ k =>
      rw [← positions]
      exact rest.described k id item at_k
    | zero =>
      cases at_k
      refine ⟨by rw [buffer], by rw [buffer]; exact small, r.sqTail.phase, ?_⟩
      rw [buffer, rest.others]
      · exact store_same _ _ _
      · intro k bound
        rw [positions]
        exact (slot_apart r.sqDepth (Nat.succ_pos k) (by omega)).symm

section Refills

variable {offered : Netbuf → Prop} {answers : Nat → Option Netbuf} {ledger : RxLedger}
  (given : ∀ call nb, answers call = some nb → offered nb)
include given

theorem refills_describes {build : Build} {refilled total : Nat} {p last : RxPort}
    (refills : Refills (enaNetbufAllocHelper build answers) refilled p total last events)
    (queued : p.queue = some q) (tracks : RxTracks p.ring ledger) (held : Held offered p.ring) :
    Held offered last.ring ∧ Describing p.ring last.ring (posted events) := by
  induction refills generalizing q ledger with
  | @stop _ p => exact ⟨held, .refl p.ring⟩
  | @nothing _ p _ offer => exact ⟨held, .refl p.ring⟩
  | @refused _ p _ _ _ _ offer => exact ⟨held, .refl p.ring⟩
  | @post refilled _ p last queue nb physAddr bufLen reqId pool _ offer found small rest ih =>
    obtain ⟨after, offers, _⟩ := enaNetbufAllocHelper_sameBounce build answers refilled q
    rw [← queued, offer] at offers
    cases offers
    obtain ⟨answered, fits⟩ := enaNetbufAllocHelper_fits build answers refilled offer
    obtain ⟨_, ⟨_, between, _, tracked, _⟩, _⟩ :=
      rxSubmitted_posts found nb physAddr bufLen ledger tracks
    have holds : Held offered (rxSubmitted p.ring nb physAddr bufLen reqId pool) := by
      intro id item stored
      change (store p.ring.rxBufs reqId _ id).netbuf = some item at stored
      change offered item ∧ (store p.ring.rxBufs reqId _ id).dataLen ≤ item.buflen
      by_cases same : id = reqId
      · rw [same, store_same] at stored ⊢
        cases stored
        exact ⟨given refilled _ answered, fits⟩
      · rw [store_other _ _ same] at stored ⊢
        exact held id item stored
    obtain ⟨kept, described⟩ := ih rfl tracked holds
    obtain ⟨_, _, spares⟩ := refills_spares rest rfl tracked
    exact ⟨kept, described.cons tracks found small spares⟩

theorem enaRxRefill_describes (build : Build) {count : Nat} {ret : Int} {p : RxPort}
    (tracks : RxTracks c.ring ledger) (held : Held offered c.ring)
    (ran : enaRxRefill c.port count (enaNetbufAllocHelper build answers) = .ok (ret, p, events)) :
    Held offered p.ring ∧ Describing c.ring p.ring (posted events) := by
  obtain ⟨_, looped, _, refills, _, _, _, same, _⟩ := enaRxRefill_refills ran
  rw [same]
  exact refills_describes given refills rfl tracks held

theorem refill_describes (build : Build) {next : RxChannel} {counts : Bool}
    (tracks : RxTracks c.ring ledger) (held : Held offered c.ring)
    (ran : refill build c answers counts = .ok (next, events)) :
    Held offered next.ring ∧ Describing c.ring next.ring (posted events) := by
  refine @refill_rule _ _ _ (fun next events => Held offered next.ring ∧
    Describing c.ring next.ring (posted events)) ⟨held, .refl _⟩
    (fun _ _ _ _ refilled => enaRxRefill_describes given build tracks held refilled) ?_ _ _ _ ran
  intro next events ret spare ⟨kept, described⟩
  unfold countRefillErr
  split
  · exact ⟨kept, described.count, described.others, described.described⟩
  · exact ⟨kept, described⟩

end Refills

/-! ## What a poll finds -/

def Fewer (r next : Ring) : Prop :=
  ∀ id nb, (next.rxBufs id).netbuf = some nb → next.rxBufs id = r.rxBufs id

theorem Fewer.refl (r : Ring) : Fewer r r := fun _ _ _ => rfl

theorem Fewer.trans {middle : Ring} (earlier : Fewer r middle) (later : Fewer middle next) :
    Fewer r next := by
  intro id nb stored
  have same := later id nb stored
  rw [same] at stored
  exact same.trans (earlier id nb stored)

theorem Held.fewer (held : Held offered r) (fewer : Fewer r next) : Held offered next := by
  intro id nb stored
  have same := fewer id nb stored
  rw [same] at stored ⊢
  exact held id nb stored

theorem fewer_store {id : Nat} (bufs : next.rxBufs = store r.rxBufs id RxBuffer.empty) :
    Fewer r next ∧ (next.rxBufs id).netbuf = none := by
  constructor
  · intro other nb stored
    rw [bufs] at stored ⊢
    by_cases same : other = id
    · rw [same, store_same] at stored
      cases stored
    · exact store_other _ _ same
  · rw [bufs, store_same]
    rfl

theorem rxDrop_fewer (tracks : RxTracks r ledger) (id : Nat) :
    Fewer r (rxDrop r id).1.advanceCq ∧ ((rxDrop r id).1.advanceCq.rxBufs id).netbuf = none := by
  rcases rxStatus_cases (ledger id) with isFree | ⟨nb, active⟩
  · rw [rxDrop_free tracks isFree]
    refine ⟨fun _ _ _ => rfl, ?_⟩
    change (r.rxBufs id).netbuf = none
    rw [tracks.2.netbuf, isFree]
    rfl
  · rw [rxDrop_held tracks active]
    exact fewer_store rfl

theorem rxDeliver_fewer (tracks : RxTracks r ledger) (cdesc : RxCdesc) :
    Fewer r (rxDeliver r cdesc).advanceCq := by
  rcases rxStatus_cases (ledger cdesc.reqId) with isFree | ⟨nb, active⟩
  · rw [rxDeliver_free tracks isFree]
    exact fun _ _ _ => rfl
  · rw [rxDeliver_held tracks active]
    exact (@fewer_store _ r cdesc.reqId rfl).1

/-- A packet carries the buffer of its request and is not longer than it, and the
request still has its slot. -/
structure Finds (r : Ring) (q after : RxQueue) (pkt : RxPkt) (nb : Netbuf) : Prop where
  stored : (r.rxBufs pkt.reqId).netbuf = some nb
  short : pkt.len ≤ (r.rxBufs pkt.reqId).dataLen
  slot : RxQueue.bounceSlot after pkt.reqId = RxQueue.bounceSlot q pkt.reqId

structure Polls (r : Ring) (q : RxQueue) (events : List Event) (next : Ring) (after : RxQueue) :
    Prop where
  quiet : posted events = []
  fewer : Fewer r next
  finds : ∀ pkt ∈ received events, ∀ nb, pkt.netbuf = some nb → Finds r q after pkt nb

theorem rxIterates_polls {p last : RxPort} {count total : Nat} {outputs : List Event}
    (iterates : Iterates rxPollEntry 1 count p views total outputs last) (started : count = 0)
    (queue : p.queue = some q) (tracks : RxTracks p.ring ledger) :
    ∃ after, last.queue = some after ∧ Polls p.ring q outputs last.ring after := by
  induction iterates generalizing q ledger with
  | stop reason =>
    refine ⟨q, queue, rfl, .refl _, ?_⟩
    intro pkt member
    cases member
  | @step count total added state next last view views outputs rest more read later ih =>
    obtain ⟨_, ⟨_, between, _, tracked, _⟩, _⟩ := rxPollEntry_reaps read tracks ledger tracks
    obtain ⟨_, _, entry⟩ := rxPollEntry_cases read
    cases entry with
    | skipped idle =>
      obtain ⟨after, ended, polls⟩ := ih started queue tracked
      refine ⟨after, ended, ?_, Fewer.trans (fun _ _ _ => rfl) polls.fewer, ?_⟩
      · rw [posted_append, polls.quiet]
        rfl
      · intro pkt member nb carried
        rw [received_append] at member
        obtain ⟨stored, short, slot⟩ := polls.finds pkt member nb carried
        exact ⟨stored, short, slot⟩
    | dropped inFlight oversize =>
      obtain ⟨fewer, vacant⟩ := rxDrop_fewer tracks (view state.ring.cqSlot).reqId
      obtain ⟨after, ended, polls⟩ := ih started
        (congrArg (Option.map (RxQueue.reclaimSlot · _)) queue) tracked
      refine ⟨after, ended, ?_, fewer.trans polls.fewer, ?_⟩
      · rw [posted_append, polls.quiet, List.append_nil]
        exact rxDrop_posted _ _
      intro pkt member nb carried
      rw [received_append, show received (Event.rxConsumed _ _ _ :: _) = [] from
        rxDrop_received _ _] at member
      obtain ⟨stored, short, slot⟩ := polls.finds pkt member nb carried
      have same := fewer pkt.reqId nb stored
      -- the request of the drop has no buffer left
      have differs : pkt.reqId ≠ (view state.ring.cqSlot).reqId := by
        intro equal
        rw [equal] at stored
        cases vacant.symm.trans stored
      rw [same] at stored short
      exact ⟨stored, short, slot.trans ((reclaimSlot_bounce q _).1 _ differs)⟩
    | delivered inFlight fits =>
      -- the budget of one packet is spent
      cases later with
      | step more _ _ => omega
      | stop reason =>
        refine ⟨q, queue, rfl, rxDeliver_fewer tracks _, ?_⟩
        intro pkt member nb carried
        rw [List.append_nil] at member
        rw [List.mem_singleton.mp member] at carried ⊢
        exact ⟨carried, fits, rfl⟩

theorem enaRxPoll_polls (tracks : RxTracks c.ring ledger) (unlocked : c.ring.ringLock = false)
    (returned : enaRxPoll c.port 1 views = .ok polled) :
    Polls c.ring c.queue polled.events polled.port.ring (c.update polled.port).queue := by
  rcases enaRxPoll_cases unlocked returned with
    ⟨same, silent, _⟩ | ⟨rcvd, last, outputs, iterates, _, rfl⟩
  · rw [same, silent]
    refine ⟨rfl, .refl _, ?_⟩
    intro pkt member
    cases member
  obtain ⟨after, ended, polls⟩ := rxIterates_polls iterates rfl
    (show _ = some c.queue from rfl) (show RxTracks _ ledger from tracks)
  have reported : posted (enaRxReportHead last.ring rcvd) = [] := by
    rcases enaRxReportHead_cases last.ring rcvd with report | ⟨_, _, report⟩ <;> rw [report] <;> rfl
  have queue : (c.update ⟨enaRingUnlock last.ring, last.queue⟩).queue = after := by
    rw [RxChannel.update, ended]
    rfl
  refine ⟨?_, polls.fewer, ?_⟩
  · rw [posted_append, polls.quiet, reported]
    rfl
  intro pkt member nb carried
  rw [received_append, enaRxReportHead_received, List.append_nil] at member
  change Finds _ _ (c.update ⟨enaRingUnlock last.ring, last.queue⟩).queue _ _
  rw [queue]
  obtain ⟨stored, short, slot⟩ := polls.finds pkt member nb carried
  exact ⟨stored, short, slot⟩

/-! ## A turn -/

theorem chainAfter_subset (c : RxChannel) (polled : RxPolled) :
    chainAfter c polled ⊆ (c.update polled.port).queue.chain := by
  unfold chainAfter
  split
  · exact List.nil_subset _
  · exact List.Subset.refl _

theorem posted_unposted (netbufs : List Netbuf) : posted (netbufs.map .unposted) = [] := by
  unfold posted
  rw [List.filterMap_map]
  exact List.filterMap_eq_nil_iff.mpr fun _ _ => rfl

/-! ## Copies and returned netbufs -/

/-- A copy of a packet out of a bounce slot: `len` bytes at an offset into the slot
go to the data pointer of the netbuf.  `posted` is the bus address that the device
was given for the request. -/
structure BounceCopy where
  reqId : Nat
  netbuf : Netbuf
  slot : Nat
  offset : Nat
  len : Nat
  posted : Nat
  deriving DecidableEq, Repr

def turnCopy (c : RxChannel) (input : RxInput) : Option BounceCopy :=
  match enaRxPoll c.port 1 (pollViews c.ring input.changing input.settled) with
  | .error _ => none
  | .ok polled =>
    match received polled.events with
    | [] => none
    | pkt :: _ =>
      let q := (c.update polled.port).queue
      match pkt.netbuf, RxQueue.bounceSlot q pkt.reqId with
      | some nb, some slot =>
        if (q.bounce.any fun pool => decide (slot < pool.nbDesc.val)) ∧ nb.data ≠ 0 ∧
            pkt.len ≤ nb.buflen ∧ pkt.offset + pkt.len ≤ rxBufSize then
          some ⟨pkt.reqId, nb, slot, pkt.offset, pkt.len, (c.ring.rxBufs pkt.reqId).physAddr⟩
        else none
      | _, _ => none

/-- A copy reads the slot that its request was posted in, and writes the buffer of
its netbuf. -/
structure BounceCopy.InBounds (phys : Nat) (d : Depth) (copy : BounceCopy) : Prop where
  own : copy.posted = phys + copy.slot * rxBufSize
  slot : copy.slot < d.val
  reads : copy.offset + copy.len ≤ rxBufSize
  writes : copy.len ≤ copy.netbuf.buflen

def InBuffer (offered : Netbuf → Prop) (nb : Netbuf) : Prop :=
  ∃ first, offered first ∧ nb.addr = first.addr ∧ first.data ≤ nb.data ∧
    nb.data + nb.len ≤ first.data + first.buflen

theorem receiveMeta_buffer (build : Build) (nb : Netbuf) (pkt : RxPkt) :
    (receiveMeta build nb pkt).data = nb.data := by
  unfold receiveMeta
  cases build with
  | unikraft =>
    simp only
    split <;> rfl
  | host =>
    simp only
    split <;> rfl

theorem moveData_inBuffer {pkt : RxPkt} (build : Build) (given : offered nb)
    (short : pkt.len ≤ nb.buflen) (fits : doesNotFit q nb pkt.reqId pkt.len pkt.offset = false) :
    InBuffer offered (moveData q (receiveMeta build nb pkt) pkt.reqId pkt.offset) := by
  obtain ⟨len, addr⟩ := receiveMeta_len build nb pkt
  have data := receiveMeta_buffer build nb pkt
  have still : InBuffer offered (receiveMeta build nb pkt) := by
    refine ⟨nb, given, addr, by rw [data], ?_⟩
    rw [data, len]
    omega
  unfold moveData
  unfold doesNotFit at fits
  cases slot : RxQueue.bounceSlot q pkt.reqId with
  | some slot => exact still
  | none =>
    rw [slot] at fits
    simp only
    split
    · rename_i moved
      rw [data] at moved
      have inside : pkt.offset + pkt.len ≤ nb.buflen := by
        simpa [moved.1, moved.2] using fits
      refine ⟨nb, given, addr, ?_, ?_⟩
      · change nb.data ≤ (receiveMeta build nb pkt).data + pkt.offset
        rw [data]
        omega
      · change (receiveMeta build nb pkt).data + pkt.offset + (receiveMeta build nb pkt).len ≤ _
        rw [data, len]
        omega
    · exact still

/-! ## The system -/

structure BoundsWorld where
  channel : RxChannel
  postings : List Posting
  copies : List BounceCopy
  returned : List Netbuf

def BoundsWorld.start (c : RxChannel) : BoundsWorld := ⟨c, [], [], []⟩

def boundsStep (world : BoundsWorld) : RxBounceOp → Except Fault BoundsWorld
  | .refill build answers counts => do
    let (next, events) ← refill build world.channel answers counts
    return { world with
      channel := next, postings := world.postings ++ postings world.channel next events }
  | .refillCount count build answers => do
    let (_, port, events) ←
      enaRxRefill world.channel.port count (enaNetbufAllocHelper build answers)
    let next := world.channel.update port
    return { world with
      channel := next, postings := world.postings ++ postings world.channel next events }
  | .turn build input => do
    let result ← rxTurn build world.channel input
    return ⟨result.channel,
      world.postings ++ postings world.channel result.channel result.events,
      world.copies ++ (turnCopy world.channel input).toList,
      world.returned ++ result.turn.frame.toList.flatten⟩
  | op => do
    let channel ← rxBounceStep world.channel op
    return { world with channel := channel }

def RxBounceOp.Offers : RxBounceOp → Netbuf → Prop
  | .refill _ answers _, nb => ∃ call, answers call = some nb
  | .refillCount _ _ answers, nb => ∃ call, answers call = some nb
  | .turn _ input, nb => ∃ call, input.answers call = some nb
  | _, _ => False

def Offered (ops : List RxBounceOp) (nb : Netbuf) : Prop := ∃ op ∈ ops, op.Offers nb

/-- Everything posted, copied and returned stays in bounds, and requests in flight
have slots of their own. -/
structure BoundsWorld.InBounds (phys : Nat) (d : Depth) (offered : Netbuf → Prop)
    (world : BoundsWorld) : Prop where
  postings : ∀ posting ∈ world.postings, offered posting.netbuf ∧ posting.InBounds phys d
  copies : ∀ copy ∈ world.copies, offered copy.netbuf ∧ copy.InBounds phys d
  returned : ∀ nb ∈ world.returned, InBuffer offered nb
  apart : RxApart world.channel

structure BoundsServed (phys : Nat) (d : Depth) (offered : Netbuf → Prop) (world : BoundsWorld) :
    Prop where
  served : RxServed phys False world.channel
  depth : world.channel.ring.sqDepth = d
  held : Held offered world.channel.ring
  chain : ∀ nb ∈ world.channel.queue.chain, InBuffer offered nb
  postings : ∀ posting ∈ world.postings, offered posting.netbuf ∧ posting.InBounds phys d
  copies : ∀ copy ∈ world.copies, offered copy.netbuf ∧ copy.InBounds phys d
  returned : ∀ nb ∈ world.returned, InBuffer offered nb

theorem BoundsServed.inBounds {phys : Nat} {d : Depth} {world : BoundsWorld}
    (bounds : BoundsServed phys d offered world) : world.InBounds phys d offered :=
  ⟨bounds.postings, bounds.copies, bounds.returned, bounds.served.apart⟩

section Steps

variable {phys : Nat} {d : Depth} {offered : Netbuf → Prop}

theorem RxServed.posted_slot (served : RxServed phys False c) {id : Nat}
    (stored : (c.ring.rxBufs id).netbuf = some nb) :
    RxPostedAt phys nb (c.ring.rxBufs id) (RxQueue.bounceSlot c.queue id) ∧
      ∀ slot ∈ RxQueue.bounceSlot c.queue id, slot < c.ring.sqDepth.val := by
  obtain ⟨_, pool, found, holds, _, serves⟩ := served.keeps
  obtain ⟨ledger, tracks⟩ := served.tracks
  cases found
  have bound : id < pool.nbDesc.val := by
    rw [serves.depth]
    exact tracks.2.lt (tracks.active_of_netbuf stored)
  have slot : RxQueue.bounceSlot c.queue id = pool.map id := by
    rw [RxQueue.bounceSlot, holds, Option.bind_some, if_pos bound]
  rw [slot]
  refine ⟨serves.placed id nb stored, ?_⟩
  intro own assigned
  rw [← serves.depth]
  exact serves.sound.mapped_lt bound assigned

/-- The buffers that a refill described are in bounds. -/
theorem postings_inBounds {next : RxChannel} (served : RxServed phys False next)
    (depth : next.ring.sqDepth = d) (held : Held offered next.ring)
    (described : DescribesAll c.ring next.ring (posted events)) :
    ∀ posting ∈ postings c next events, offered posting.netbuf ∧ posting.InBounds phys d := by
  intro posting member
  obtain ⟨⟨⟨id, nb⟩, k⟩, found, rfl⟩ := List.mem_map.mp member
  obtain ⟨stored, small, phase, desc⟩ :=
    described k id nb (List.mem_zipIdx_iff_getElem?.mp found)
  obtain ⟨given, short⟩ := held id nb stored
  obtain ⟨placed, inside⟩ := served.posted_slot stored
  have length : (rxSubmitDesc (next.ring.rxBufs id).physAddr (next.ring.rxBufs id).dataLen id
      phase).length = (next.ring.rxBufs id).dataLen := Nat.mod_eq_of_lt (by omega)
  refine ⟨given, ?_, ?_, ?_, ?_⟩
  · change (next.ring.rxDescs _).reqId = id
    rw [desc]
    rfl
  · change RxDesc.buffAddr (next.ring.rxDescs _) = _
    rw [desc, rxSubmitDesc_buffAddr, Posting.start]
    cases slot : RxQueue.bounceSlot next.queue id with
    | none =>
      rw [slot] at placed
      rw [placed.2]
    | some own =>
      rw [slot] at placed
      rw [placed.2.1]
  · change (next.ring.rxDescs _).length ≤ _
    rw [desc, length, Posting.room]
    cases slot : RxQueue.bounceSlot next.queue id with
    | none => exact short
    | some own =>
      rw [slot] at placed
      exact Nat.le_min.mpr ⟨short, placed.2.2⟩
  · rw [← depth]
    exact inside

theorem turnCopy_inBounds (served : RxServed phys False c) (depth : c.ring.sqDepth = d)
    (held : Held offered c.ring) (input : RxInput) :
    ∀ copy ∈ turnCopy c input, offered copy.netbuf ∧ copy.InBounds phys d := by
  obtain ⟨ledger, tracks⟩ := served.tracks
  intro copy made
  unfold turnCopy at made
  split at made
  · cases made
  rename_i polled ran
  have polls := enaRxPoll_polls tracks served.unlocked ran
  split at made
  · cases made
  rename_i pkt rest packets
  simp only at made
  split at made
  · rename_i nb slot carried assigned
    split at made
    · rename_i fits
      cases made
      obtain ⟨stored, short, same⟩ := polls.finds pkt (by rw [packets]; simp) nb carried
      obtain ⟨placed, inside⟩ := served.posted_slot stored
      rw [same] at assigned
      rw [assigned] at placed
      refine ⟨(held _ nb stored).1, placed.2.1, ?_, fits.2.2.2, fits.2.2.1⟩
      rw [← depth]
      exact inside slot assigned
    · cases made
  · cases made

/-- The partial frame before a turn, behind its poll. -/
theorem update_chain (unlocked : c.ring.ringLock = false)
    (ran : enaRxPoll c.port 1 views = .ok polled) :
    (c.update polled.port).queue.chain = c.queue.chain := by
  have kept := enaRxPoll_chain (p := c.port) unlocked ran
  change (polled.port.queue.getD c.queue).chain = c.queue.chain
  cases found : polled.port.queue with
  | none => rfl
  | some q =>
    rw [found] at kept
    exact Option.some.inj kept

theorem rxTurn_bounds {input : RxInput} {result : TurnResult} (served : RxServed phys False c)
    (held : Held offered c.ring) (chain : ∀ nb ∈ c.queue.chain, InBuffer offered nb)
    (given : ∀ call nb, input.answers call = some nb → offered nb)
    (turned : rxTurn build c input = .ok result) :
    result.channel.ring.sqDepth = c.ring.sqDepth ∧ Held offered result.channel.ring ∧
      DescribesAll c.ring result.channel.ring (posted result.events) ∧
      ∀ nb ∈ result.turn.frame.toList.flatten ++ result.channel.queue.chain,
        InBuffer offered nb := by
  obtain ⟨ledger, tracks⟩ := served.tracks
  obtain ⟨position, located⟩ := served.located
  obtain ⟨polled, ran⟩ := enaRxPoll_total (p := c.port) 1 input.changing input.settled tracks
    served.unlocked located
  obtain ⟨reaped, free⟩ := enaRxPoll_reaps (p := c.port) tracks served.unlocked ran
  obtain ⟨frame, ⟨_, after, _, tracked, _⟩, _⟩ := reaped ledger tracks
  have polls := enaRxPoll_polls tracks served.unlocked ran
  have holds := held.fewer polls.fewer
  have before := update_chain served.unlocked ran
  have depths := frame.depths
  obtain ⟨between, counts, finish, form, turns⟩ := rxTurn_forms build ran
  obtain ⟨dropped, start⟩ := form.start
  have tracks : RxTracks between.ring after := by
    rw [start]
    exact tracked
  obtain ⟨next, events, refilled, effect⟩ := refill_replenishes build ⟨after, tracks⟩
    (by rw [start]; exact free) input.answers counts
  obtain ⟨kept, described⟩ := refill_describes given build tracks (by rw [start]; exact holds)
    refilled
  cases turned.symm.trans (turns next events refilled)
  obtain ⟨ring, freed, during⟩ := form.result next events
  have depth : next.ring.sqDepth = c.ring.sqDepth := by
    rw [effect.head.sqDepth, start]
    exact depths.1
  rw [ring]
  refine ⟨depth, kept, ?_, ?_⟩
  · -- a poll leaves the producer position alone
    intro k id nb found
    rw [during, posted_append, posted_append, polls.quiet, posted_unposted] at found
    have here := described.described k id nb found
    rw [start] at here
    have sameDepth : polled.port.ring.sqDepth = c.ring.sqDepth := depths.1
    have sameTail : polled.port.ring.sqTail = c.ring.sqTail := depths.2.2
    rw [← sameDepth, ← sameTail]
    exact here
  · have earlier : ∀ nb ∈ chainAfter c polled, InBuffer offered nb := by
      intro nb member
      apply chain
      rw [← before]
      exact chainAfter_subset c polled member
    cases form with
    | empty freed | null freed =>
      have same : next.queue.chain = chainAfter c polled := effect.chain
      rw [same]
      exact earlier
    | unfit freed =>
      have same : next.queue.chain = [] := effect.chain
      rw [same]
      intro nb member
      cases member
    | kept freed packet carried fits moved =>
      obtain ⟨stored, short, _⟩ := polls.finds _ (by rw [packet]; simp) _ carried
      obtain ⟨offers, room⟩ := held _ _ stored
      have filled := moveData_inBuffer build offers (Nat.le_trans short room) fits
      rw [joinChain_flatten, effect.chain, returnSlot_chain, ← moved] at *
      exact List.forall_mem_append.mpr ⟨earlier, List.forall_mem_singleton.mpr filled⟩

/-- A refill, which leaves the partial frame alone and describes what it posts. -/
theorem BoundsServed.refilled {world : BoundsWorld} (bounds : BoundsServed phys d offered world)
    (served : RxServed phys False c) (depth : c.ring.sqDepth = world.channel.ring.sqDepth)
    (chain : c.queue.chain = world.channel.queue.chain)
    (refilled : Held offered c.ring ∧ Describing world.channel.ring c.ring (posted events)) :
    BoundsServed phys d offered { world with
      channel := c, postings := world.postings ++ Netdev.postings world.channel c events } where
  served := served
  depth := depth.trans bounds.depth
  held := refilled.1
  chain := by
    change ∀ nb ∈ c.queue.chain, _
    rw [chain]
    exact bounds.chain
  postings := List.forall_mem_append.mpr ⟨bounds.postings,
    postings_inBounds served (depth.trans bounds.depth) refilled.1 refilled.2.described⟩
  copies := bounds.copies
  returned := bounds.returned

theorem boundsStep_served {world : BoundsWorld} (bounds : BoundsServed phys d offered world)
    (op : RxBounceOp) (given : ∀ nb, op.Offers nb → offered nb) :
    ∃ next, boundsStep world op = .ok next ∧ BoundsServed phys d offered next := by
  obtain ⟨ledger, tracks⟩ := bounds.served.tracks
  have unlocked := bounds.served.unlocked
  obtain ⟨c, ran, served⟩ := rxBounceStep_served bounds.served op False.elim
  have plain := congrArg (· >>= fun channel => Except.ok { world with channel := channel }) ran
  cases op with
  | refill build answers counts =>
    obtain ⟨⟨next, events⟩, refilled, same⟩ := bind_ok ran
    cases same
    obtain ⟨_, _, again, effect⟩ := refill_replenishes build ⟨ledger, tracks⟩ unlocked answers counts
    cases again.symm.trans refilled
    exact ⟨_, by rw [boundsStep, refilled]; rfl,
      bounds.refilled served effect.head.sqDepth effect.chain (refill_describes
        (fun call nb found => given nb ⟨call, found⟩) build tracks bounds.held refilled)⟩
  | refillCount count build answers =>
    obtain ⟨⟨ret, port, events⟩, refilled, same⟩ := bind_ok ran
    cases same
    obtain ⟨_, _, _, again, effect⟩ :=
      enaRxRefill_refilled (c := world.channel) tracks unlocked count build answers
    cases again.symm.trans refilled
    obtain ⟨_, _, posts, made, _⟩ :=
      enaRxRefill_posts world.channel.port count (enaNetbufAllocHelper build answers) tracks unlocked
    cases posts.symm.trans refilled
    obtain ⟨⟨_, _, _, _, ring⟩, _⟩ := made ledger tracks
    have depth : (world.channel.update port).ring.sqDepth = world.channel.ring.sqDepth := by
      change port.ring.sqDepth = _
      rw [ring]
      rfl
    exact ⟨_, by rw [boundsStep, refilled]; rfl,
      bounds.refilled served depth effect.chain (enaRxRefill_describes
        (fun call nb found => given nb ⟨call, found⟩) build tracks bounds.held refilled)⟩
  | turn build input =>
    obtain ⟨result, turned, same⟩ := bind_ok ran
    cases same
    obtain ⟨depth, held, described, chain⟩ := rxTurn_bounds bounds.served bounds.held bounds.chain
      (fun call nb found => given nb ⟨call, found⟩) turned
    have deep := depth.trans bounds.depth
    refine ⟨⟨result.channel,
      world.postings ++ postings world.channel result.channel result.events,
      world.copies ++ (turnCopy world.channel input).toList,
      world.returned ++ result.turn.frame.toList.flatten⟩,
      by rw [boundsStep, turned]; rfl, served, deep, held, ?_, ?_, ?_, ?_⟩
    · exact (List.forall_mem_append.mp chain).2
    · exact List.forall_mem_append.mpr
        ⟨bounds.postings, postings_inBounds served deep held described⟩
    · refine List.forall_mem_append.mpr ⟨bounds.copies, fun copy made => ?_⟩
      exact turnCopy_inBounds bounds.served bounds.depth bounds.held input copy
        (Option.mem_toList.mp made)
    · exact List.forall_mem_append.mpr ⟨bounds.returned, (List.forall_mem_append.mp chain).1⟩
  | reset =>
    obtain ⟨txBufs, rxBufs, events, _, invalidated, _, tracked, _, _⟩ :=
      enaAdapterInvalidateIoRing_releases tracks unlocked
    rw [rxBounceStep, invalidated] at ran
    cases ran
    refine ⟨_, plain, served, bounds.depth, ?_, bounds.chain, bounds.postings, bounds.copies,
      bounds.returned⟩
    intro id nb stored
    cases (tracked.2.netbuf id).symm.trans stored
  | createHw dev answers vector =>
    obtain ⟨ret, hw, created⟩ := createHwOn_hwOnly dev answers vector world.channel.ring
    rw [rxBounceStep, created] at ran
    cases ran
    exact ⟨_, plain, served, bounds.depth, bounds.held, bounds.chain, bounds.postings,
      bounds.copies, bounds.returned⟩
  | destroyHw answers =>
    obtain ⟨ret, hw, destroyed⟩ := destroyHwOn_hwOnly answers world.channel.ring
    rw [rxBounceStep, destroyed] at ran
    cases ran
    exact ⟨_, plain, served, bounds.depth, bounds.held, bounds.chain, bounds.postings,
      bounds.copies, bounds.returned⟩

end Steps

/-! ## Receive calls -/

/-- A receive call is a run of the system that returns the frame of the call. -/
theorem boundsStep_observes : Observes boundsStep BoundsWorld.channel fun world frame _ last =>
    last.returned = world.returned ++ frame.toList.flatten where
  idle := fun _ => by simp
  append := by
    rintro first between last frame early late none some
    rw [some, none]
    simp
  refill := by
    intro world build answers next events refilled
    refine ⟨{ world with
      channel := next, postings := world.postings ++ postings world.channel next events },
      ?_, rfl, (List.append_nil _).symm⟩
    rw [boundsStep, refilled]
    rfl
  turn := by
    intro world build input result turned
    refine ⟨⟨result.channel,
      world.postings ++ postings world.channel result.channel result.events,
      world.copies ++ (turnCopy world.channel input).toList,
      world.returned ++ result.turn.frame.toList.flatten⟩, ?_, rfl, rfl⟩
    rw [boundsStep, turned]
    rfl

section Calls

variable {phys : Nat} {d : Depth} {offered : Netbuf → Prop} {world : BoundsWorld}

theorem BoundsServed.call (bounds : BoundsServed phys d offered world) {allowed : List RxBounceOp}
    (given : ∀ nb, Offered allowed nb → offered nb)
    (called : Calls boundsStep BoundsWorld.channel (fun world frame _ last =>
      last.returned = world.returned ++ frame.toList.flatten) world allowed result) :
    ∀ nb ∈ result.frame.toList.flatten, InBuffer offered nb := by
  obtain ⟨ops, last, among, ran, _, frames⟩ := called
  obtain ⟨_, same, final⟩ := run_invariant (fun _ op => ∀ nb, op.Offers nb → offered nb)
    (BoundsServed phys d offered) (fun _ op kept ok => boundsStep_served kept op ok) bounds
    (meets_of_mem (fun op found _ nb offers => given nb ⟨op, among found, offers⟩) world)
  cases ran.symm.trans same
  intro nb inside
  apply final.returned
  rw [frames]
  exact List.mem_append_right _ inside

theorem BoundsServed.mono {wider : Netbuf → Prop} (bounds : BoundsServed phys d offered world)
    (weaken : ∀ nb, offered nb → wider nb) : BoundsServed phys d wider world := by
  have inBuffer : ∀ nb, InBuffer offered nb → InBuffer wider nb := by
    rintro nb ⟨first, given, rest⟩
    exact ⟨first, weaken first given, rest⟩
  constructor
  · exact bounds.served
  · exact bounds.depth
  · exact bounds.held.mono weaken
  · exact fun nb member => inBuffer nb (bounds.chain nb member)
  · exact fun posting member => (bounds.postings posting member).imp_left (weaken _)
  · exact fun copy member => (bounds.copies copy member).imp_left (weaken _)
  · exact fun nb member => inBuffer nb (bounds.returned nb member)

end Calls

/-! ## Main result -/

/-- In every run of a configured receive queue, whatever the allocator offers and the
device reports: every operation returns, every descriptor posted and every copy
stays in bounds, and so does the data of every netbuf that a receive call returns. -/
theorem receive_stays_in_bounds {qid : Nat} {depth : UInt16} {memory : Nat → Option Nat} {ring : Ring}
    (built : enaRingAlloc qid .rx depth depth memory = .ok ring) (allocRxpkts : Bool) (phys : Nat)
    (ops : List RxBounceOp) :
    ∃ world, run boundsStep (.start (.configured ring allocRxpkts phys)) ops = .ok world ∧
      world.InBounds phys ring.sqDepth (Offered ops) ∧
      (∀ answers inputs result, enaNetdevRxOne world.channel answers inputs = .ok result →
        ∀ nb ∈ result.frame.toList.flatten,
          InBuffer (Offered (ops ++ callOps .unikraft answers inputs)) nb) ∧
      ∀ running nbRxQueues answers inputs result,
        enaNetdevRxqRecv running nbRxQueues world.channel answers inputs = .ok result →
        ∀ nb ∈ result.frame.toList.flatten,
          InBuffer (Offered (ops ++ callOps .host answers inputs)) nb := by
  obtain ⟨_, _, _, _, _, fresh⟩ := enaRingAlloc_ok built
  have start : BoundsServed phys ring.sqDepth (Offered ops)
      (.start (.configured ring allocRxpkts phys)) := by
    refine ⟨rxConfigured_served built allocRxpkts phys False, rfl, ?_, ?_, ?_, ?_, ?_⟩
    · intro id nb stored
      change (ring.rxBufs id).netbuf = some nb at stored
      rw [fresh] at stored
      cases stored
    all_goals
      intro item member
      cases member
  obtain ⟨world, ran, bounds⟩ := run_invariant (fun _ op => ∀ nb, op.Offers nb → Offered ops nb)
    (BoundsServed phys ring.sqDepth (Offered ops))
    (fun _ op kept ok => boundsStep_served kept op ok) start
    (meets_of_mem (fun op found _ nb offers => ⟨op, found, offers⟩) _)
  have earlier : ∀ more nb, Offered ops nb → Offered (ops ++ more) nb := by
    rintro more nb ⟨op, found, offers⟩
    exact ⟨op, List.mem_append_left _ found, offers⟩
  have later : ∀ more nb, Offered more nb → Offered (ops ++ more) nb := by
    rintro more nb ⟨op, found, offers⟩
    exact ⟨op, List.mem_append_right _ found, offers⟩
  refine ⟨world, ran, bounds.inBounds, ?_, ?_⟩
  · intro answers inputs result returned
    exact (bounds.mono (earlier _)).call (later _) (boundsStep_observes.rxOne returned)
  · intro running nbRxQueues answers inputs result returned
    exact (bounds.mono (earlier _)).call (later _) (boundsStep_observes.rxqRecv returned)

def lowReception : List RxBounceOp :=
  [.createHw smallDevice willing 1,
    .refillCount 2 .unikraft fun i => some (smallNetbuf (4096 * (i + 1))),
    .turn .unikraft (quietInput [wholeFrame])]

theorem receive_stays_in_bounds_low :
    ∃ world, run boundsStep (.start (.configured smallRxRing true 131072)) lowReception = .ok world ∧
      world.InBounds 131072 smallRxRing.sqDepth (Offered lowReception) ∧
      (world.postings.length, world.copies.length, world.returned.length) = (2, 1, 1) := by
  obtain ⟨world, ran, bounds, _⟩ :=
    receive_stays_in_bounds smallRxRing_built true 131072 lowReception
  refine ⟨world, ran, bounds, ?_⟩
  have seen : (run boundsStep (.start (.configured smallRxRing true 131072))
      lowReception).toOption.map
        (fun world => (world.postings.length, world.copies.length, world.returned.length)) =
      some (2, 1, 1) := by decide +kernel
  rw [ran] at seen
  exact Option.some.inj seen

end EnaDriver.Netdev
