import EnaDriver.Netdev.ReceiveBounce
import EnaDriver.Netdev.BoundedWork
import EnaDriver.Datapath.PollSpec

/-!
# Receive calls against a list specification

While the completion queue stands still, a receive call walks the list of its
fresh entries: an entry that is too long ends the partial frame, an entry that
fits is joined to it, and the call ends with a frame, with a drop in the netdev
layer or with the list.  Both builds compute this walk.  They refill differently,
but a refill leaves the requests that are in flight alone; so they deliver and
drop the same netbufs.
-/

namespace EnaDriver.Netdev

open Support.Laps Support.Windows Support.Polling
open Support.Custody
open Datapath

/-! ## What a step leaves alone -/

def bounceDepth (q : RxQueue) : Option Depth := q.bounce.map BouncePool.nbDesc

/-- The requests that satisfy `kept` keep their owner mark, their tracking slot and
their bounce slot. -/
structure Spares (kept : Nat → Prop) (c next : RxChannel) : Prop where
  owned : ∀ id, kept id → next.ring.pool.reqAllocated id = c.ring.pool.reqAllocated id
  slots : ∀ id, kept id → next.ring.rxBufs id = c.ring.rxBufs id
  bounced : ∀ id, kept id → RxQueue.bounceSlot next.queue id = RxQueue.bounceSlot c.queue id
  depth : bounceDepth next.queue = bounceDepth c.queue

namespace Spares

variable {kept : Nat → Prop} {c middle next : RxChannel}

theorem refl (kept : Nat → Prop) (c : RxChannel) : Spares kept c c where
  owned := fun _ _ => rfl
  slots := fun _ _ => rfl
  bounced := fun _ _ => rfl
  depth := rfl

theorem trans (earlier : Spares kept c middle) (later : Spares kept middle next) :
    Spares kept c next where
  owned := fun id ok => (later.owned id ok).trans (earlier.owned id ok)
  slots := fun id ok => (later.slots id ok).trans (earlier.slots id ok)
  bounced := fun id ok => (later.bounced id ok).trans (earlier.bounced id ok)
  depth := later.depth.trans earlier.depth

theorem mono {wider : Nat → Prop} (spares : Spares wider c next)
    (weaken : ∀ id, kept id → wider id) : Spares kept c next where
  owned := fun id ok => spares.owned id (weaken id ok)
  slots := fun id ok => spares.slots id (weaken id ok)
  bounced := fun id ok => spares.bounced id (weaken id ok)
  depth := spares.depth

end Spares

def Owned (r : Ring) (id : Nat) : Prop := r.pool.reqAllocated id = true

/-! ## Refills -/

structure SameBounce (q next : RxQueue) : Prop where
  bounced : ∀ id, RxQueue.bounceSlot next id = RxQueue.bounceSlot q id
  depth : bounceDepth next = bounceDepth q

theorem SameBounce.spares {q next : RxQueue} (same : SameBounce q next) (kept : Nat → Prop)
    (r : Ring) : Spares kept ⟨r, q⟩ ⟨r, next⟩ where
  owned := fun _ _ => rfl
  slots := fun _ _ => rfl
  bounced := fun id _ => same.bounced id
  depth := same.depth

/-- The allocation callback pops slots and maps none. -/
theorem enaNetbufAllocHelper_sameBounce (build : Build) (answers : Nat → Option Netbuf) (call : Nat)
    (q : RxQueue) :
    ∃ next, (enaNetbufAllocHelper build answers call (some q)).2 = some next ∧
      SameBounce q next := by
  unfold enaNetbufAllocHelper
  simp only
  split
  · exact ⟨q, rfl, fun _ => rfl, rfl⟩
  cases bounce : q.bounce with
  | none => exact ⟨q, rfl, fun _ => rfl, rfl⟩
  | some pool =>
    simp only
    split
    · split
      · exact ⟨q, rfl, fun _ => rfl, rfl⟩
      refine ⟨_, rfl, ?_, ?_⟩
      · intro id
        rw [RxQueue.bounceSlot, RxQueue.bounceSlot, bounce]
        rfl
      · rw [bounceDepth, bounceDepth, bounce]
        rfl
    · exact ⟨q, rfl, fun _ => rfl, rfl⟩

theorem abandonPending_sameBounce (q : RxQueue) : SameBounce q q.abandonPending := by
  unfold RxQueue.abandonPending
  split
  · rename_i slot pool _ bounce
    constructor
    · intro id
      rw [RxQueue.bounceSlot, RxQueue.bounceSlot, bounce]
      rfl
    · rw [bounceDepth, bounceDepth, bounce]
      rfl
  · exact ⟨fun _ => rfl, rfl⟩

/-- A binding maps the slot of one request. -/
theorem bindPending_bounce (q : RxQueue) (reqId : Nat) :
    (∀ id, id ≠ reqId → RxQueue.bounceSlot (q.bindPending reqId) id = RxQueue.bounceSlot q id) ∧
      bounceDepth (q.bindPending reqId) = bounceDepth q := by
  unfold RxQueue.bindPending
  cases bounce : q.bounce with
  | none => exact ⟨fun _ _ => rfl, rfl⟩
  | some pool =>
    simp only
    split
    · exact ⟨fun _ _ => rfl, rfl⟩
    constructor
    · intro id differs
      rw [RxQueue.bounceSlot, RxQueue.bounceSlot, bounce]
      simp only [Option.bind_some, store_other _ _ differs]
    · rw [bounceDepth, bounceDepth, bounce]
      rfl

variable {events : List Event} {lost rest : List RxCdesc} {polled : RxPolled} {r : Ring}
  {reqId : Nat} {ledger : RxLedger}

/-- Posting a buffer leaves the owned requests alone. -/
theorem rxSubmitted_spares (tracks : RxTracks r ledger) {pool : RequestPool}
    (found : enaRingReqIdAlloc r.sqDepth r.pool = some (reqId, pool)) (nb : Netbuf)
    (physAddr bufLen : Nat) (q : RxQueue) :
    Spares (Owned r) ⟨r, q⟩
      ⟨rxSubmitted r nb physAddr bufLen reqId pool, q.bindPending reqId⟩ := by
  obtain ⟨_, free, _, marks, _⟩ := RequestPool.alloc_cases tracks.2.sound found
  have apart : ∀ id, Owned r id → id ≠ reqId := by
    rintro id owned rfl
    rw [Owned, free] at owned
    cases owned
  obtain ⟨bounced, depth⟩ := bindPending_bounce q reqId
  constructor
  · intro id owned
    change pool.reqAllocated id = _
    rw [marks, store_other _ _ (apart id owned)]
  · intro id owned
    exact store_other _ _ (apart id owned)
  · intro id owned
    exact bounced id (apart id owned)
  · exact depth

/-- The loop of a refill leaves the owned requests alone. -/
theorem refills_spares {build : Build} {answers : Nat → Option Netbuf} {refilled total : Nat}
    {p last : RxPort} {q : RxQueue}
    (refills : Refills (enaNetbufAllocHelper build answers) refilled p total last events)
    (held : p.queue = some q) (tracks : RxTracks p.ring ledger) :
    ∃ next, last.queue = some next ∧ Spares (Owned p.ring) ⟨p.ring, q⟩ ⟨last.ring, next⟩ := by
  induction refills generalizing q ledger with
  | stop p => exact ⟨q, held, .refl _ _⟩
  | @nothing refilled p queue offer =>
    obtain ⟨after, offered, same⟩ := enaNetbufAllocHelper_sameBounce build answers refilled q
    rw [← held, offer] at offered
    exact ⟨after, offered, same.spares _ p.ring⟩
  | @refused refilled p queue _ _ _ offer =>
    obtain ⟨after, offered, same⟩ := enaNetbufAllocHelper_sameBounce build answers refilled q
    rw [← held, offer] at offered
    cases offered
    exact ⟨_, rfl, (same.spares _ p.ring).trans
      ((abandonPending_sameBounce after).spares _ p.ring)⟩
  | @post refilled _ p _ queue nb physAddr bufLen reqId pool _ offer found small rest ih =>
    obtain ⟨after, offered, same⟩ := enaNetbufAllocHelper_sameBounce build answers refilled q
    rw [← held, offer] at offered
    cases offered
    obtain ⟨_, ⟨_, between, _, tracked, _⟩, _⟩ :=
      rxSubmitted_posts found nb physAddr bufLen ledger tracks
    have posted := rxSubmitted_spares tracks found nb physAddr bufLen after
    obtain ⟨next, ended, spares⟩ := ih rfl tracked
    refine ⟨next, ended, ((same.spares _ p.ring).trans posted).trans (spares.mono ?_)⟩
    intro id owned
    exact (posted.owned id owned).trans owned

theorem enaRxRefill_spares {c : RxChannel} (tracks : RxTracks c.ring ledger) (count : Nat)
    (build : Build) (answers : Nat → Option Netbuf) {ret : Int} {p : RxPort}
    (ran : enaRxRefill c.port count (enaNetbufAllocHelper build answers) = .ok (ret, p, events)) :
    Spares (Owned c.ring) c (c.update p) := by
  obtain ⟨_, _, _, refills, _⟩ := enaRxRefill_refills ran
  obtain ⟨last, ended, spares⟩ := refills_spares refills rfl tracks
  rw [RxChannel.update, ended]
  exact spares

theorem Spares.countErr {kept : Nat → Prop} {c next : RxChannel} (spares : Spares kept c next)
    (ret : Int) (spare : Nat) : Spares kept c (countRefillErr next ret spare) := by
  unfold countRefillErr
  split
  · exact ⟨spares.owned, spares.slots, spares.bounced, spares.depth⟩
  · exact spares

/-- A refill leaves the owned requests alone, in both builds. -/
theorem refill_spares (build : Build) {c next : RxChannel} (tracks : RxTracks c.ring ledger)
    (answers : Nat → Option Netbuf) (counts : Bool)
    (ran : refill build c answers counts = .ok (next, events)) : Spares (Owned c.ring) c next :=
  @refill_rule _ _ _ (fun next _ => Spares (Owned c.ring) c next) (.refl _ _)
    (fun count _ _ _ refilled => enaRxRefill_spares tracks count build answers refilled)
    (fun ret spare spares => spares.countErr ret spare) _ _ _ ran

/-! ## Entries -/

theorem reclaimSlot_bounce (q : RxQueue) (reqId : Nat) :
    (∀ id, id ≠ reqId → RxQueue.bounceSlot (q.reclaimSlot reqId) id = RxQueue.bounceSlot q id) ∧
      bounceDepth (q.reclaimSlot reqId) = bounceDepth q := by
  unfold RxQueue.reclaimSlot
  cases bounce : q.bounce with
  | none => exact ⟨fun _ _ => rfl, rfl⟩
  | some pool =>
    simp only
    split
    · exact ⟨fun _ _ => rfl, rfl⟩
    split
    · exact ⟨fun _ _ => rfl, rfl⟩
    constructor
    · intro id differs
      simp [RxQueue.bounceSlot, bounce, BouncePool.unmap, BouncePool.giveBack,
        store_other _ _ differs]
    · rw [bounceDepth, bounceDepth, bounce]
      rfl

/-- The entries from a position on are fresh up to the end of the list, and the
one behind them is not. -/
def Pending (d : Depth) (mem : RxMem) : Cursor → List RxCdesc → Prop
  | head, [] => (mem (d.slot head.index)).phase ≠ head.phase
  | head, entry :: rest =>
    mem (d.slot head.index) = entry ∧ entry.phase = head.phase ∧
      Pending d mem (head.advance d) rest

structure Settled (c : RxChannel) (entry : RxCdesc) (next : RxChannel) : Prop where
  tracks : ∃ ledger, RxTracks next.ring ledger
  hw : next.ring.hw = c.ring.hw
  sqDepth : next.ring.sqDepth = c.ring.sqDepth
  cqDepth : next.ring.cqDepth = c.ring.cqDepth
  cqHead : next.ring.cqHead = c.ring.cqHead.advance c.ring.cqDepth
  lock : next.ring.ringLock = c.ring.ringLock
  chain : next.queue.chain = c.queue.chain
  spares : Spares (· ≠ entry.reqId) c next

section Entry

variable {c : RxChannel} {ledger : RxLedger} {mem : RxMem} {entry : RxCdesc}

def droppedRing (r : Ring) (id : Nat) : Ring :=
  { r with
    rxDropped := (r.rxDropped + 1) % 2 ^ 64
    pool := r.pool.push r.sqDepth id
    rxBufs := store r.rxBufs id .empty }.advanceCq

def deliveredRing (r : Ring) (entry : RxCdesc) : Ring :=
  { rxCounted r entry with
    pool := (rxCounted r entry).pool.push r.sqDepth entry.reqId
    rxBufs := store r.rxBufs entry.reqId .empty }.advanceCq

theorem RxTracks.active_of_owned (tracks : RxTracks c.ring ledger)
    (owned : Owned c.ring entry.reqId) : ∃ nb, ledger entry.reqId = .active nb := by
  rcases rxStatus_cases (ledger entry.reqId) with isFree | active
  · rw [Owned, tracks.2.allocated, isFree] at owned
    cases owned
  · exact active

variable (tracks : RxTracks c.ring ledger) (owned : Owned c.ring entry.reqId)
  (here : mem c.ring.cqSlot = entry) (fresh : entry.phase = c.ring.cqHead.phase)
include tracks owned here fresh

/-- A fresh entry of an owned request is settled. -/
theorem rxPollEntry_settles : ∃ nb, ledger entry.reqId = .active nb ∧
    ¬c.port.ring.pool.reqInFlight entry.reqId = false ∧
      rxPollEntry c.port mem = some (rxSettle c.port entry) := by
  obtain ⟨nb, active⟩ := RxTracks.active_of_owned tracks owned
  have slot : mem c.port.ring.cqSlot = entry := here
  have ready : entry.phase = c.port.ring.cqHead.phase ∧ entry.reqId < c.port.ring.sqDepth.val :=
    ⟨fresh, tracks.2.lt active⟩
  have marked := tracks.2.flagged entry.reqId (by rw [active]; rfl)
  refine ⟨nb, active, ?_, ?_⟩
  · rw [show c.port.ring = c.ring from rfl, marked]
    decide
  · rw [rxPollEntry_eq, slot, if_pos ready]

/-- One that is too long is dropped. -/
theorem rxPollEntry_drops (large : (c.ring.rxBufs entry.reqId).dataLen < entry.length) :
    ∃ nb, rxPollEntry c.port mem = some (0,
        ⟨droppedRing c.ring entry.reqId, some (c.queue.reclaimSlot entry.reqId)⟩,
        [.rxConsumed c.ring.cqSlot entry .dropped, dropEvent c.ring entry.reqId nb]) ∧
      Settled c entry ⟨droppedRing c.ring entry.reqId, c.queue.reclaimSlot entry.reqId⟩ := by
  obtain ⟨nb, active, busy, read⟩ := rxPollEntry_settles tracks owned here fresh
  have long : (c.port.ring.rxBufs entry.reqId).dataLen < entry.length := large
  have drops : rxDrop c.port.ring entry.reqId = _ := rxDrop_held tracks active
  rw [rxSettle, if_neg busy, if_pos long, drops] at read
  obtain ⟨_, ⟨_, after, _, tracked, _⟩, _⟩ := rxPollEntry_reaps read tracks ledger tracks
  obtain ⟨bounced, depth⟩ := reclaimSlot_bounce c.queue entry.reqId
  refine ⟨nb, read, ⟨after, tracked⟩, rfl, rfl, rfl, rfl, rfl, reclaimSlot_chain _ _, ?_⟩
  exact ⟨fun _ differs => store_other _ _ differs, fun _ differs => store_other _ _ differs,
    bounced, depth⟩

theorem rxPollEntry_delivers (small : entry.length ≤ (c.ring.rxBufs entry.reqId).dataLen) :
    rxPollEntry c.port mem = some (1, ⟨deliveredRing c.ring entry, some c.queue⟩,
        [.rxConsumed c.ring.cqSlot entry .accepted,
          .rxPkt (rxPacket (c.ring.rxBufs entry.reqId) entry)]) ∧
      Settled c entry ⟨deliveredRing c.ring entry, c.queue⟩ := by
  obtain ⟨nb, active, busy, read⟩ := rxPollEntry_settles tracks owned here fresh
  have short : ¬(c.port.ring.rxBufs entry.reqId).dataLen < entry.length := Nat.not_lt_of_le small
  have delivers : rxDeliver c.port.ring entry = _ := rxDeliver_held tracks active
  rw [rxSettle, if_neg busy, if_neg short, delivers] at read
  obtain ⟨_, ⟨_, after, _, tracked, _⟩, _⟩ := rxPollEntry_reaps read tracks ledger tracks
  refine ⟨read, ⟨after, tracked⟩, rfl, rfl, rfl, rfl, rfl, rfl, ?_⟩
  exact ⟨fun _ differs => store_other _ _ differs, fun _ differs => store_other _ _ differs,
    fun _ _ => rfl, rfl⟩

end Entry

/-! ## Polls for one packet -/

/-- What a poll for one packet does to the fresh entries: it drops the first ones
while they are too long, delivers the next one, and leaves the rest. -/
structure Picks (c : RxChannel) (entries lost : List RxCdesc) (found : Option RxCdesc)
    (rest : List RxCdesc) (next : RxChannel) (outputs : List Event) : Prop where
  split : entries = lost ++ (found.toList ++ rest)
  large : ∀ entry ∈ lost, (c.ring.rxBufs entry.reqId).dataLen < entry.length
  small : ∀ entry ∈ found, entry.length ≤ (c.ring.rxBufs entry.reqId).dataLen
  ended : found = none → rest = []
  outputs : OneOutputs c.ring outputs lost found
  tracks : ∃ ledger, RxTracks next.ring ledger
  hw : next.ring.hw = c.ring.hw
  sqDepth : next.ring.sqDepth = c.ring.sqDepth
  cqDepth : next.ring.cqDepth = c.ring.cqDepth
  cqHead : next.ring.cqHead = c.ring.cqAhead (lost.length + found.toList.length)
  chain : next.queue.chain = c.queue.chain
  bounced : ∀ entry ∈ found, RxQueue.bounceSlot next.queue entry.reqId =
    RxQueue.bounceSlot c.queue entry.reqId
  spares : Spares (fun id => ∀ entry ∈ lost ++ found.toList, id ≠ entry.reqId) c next

theorem Picks.idle {c : RxChannel} (tracks : RxTracks c.ring ledger) :
    Picks c [] [] none [] c [] where
  split := rfl
  large := by
    intro entry member
    cases member
  small := by
    intro entry member
    cases member
  ended := fun _ => rfl
  outputs := .idle _
  tracks := ⟨ledger, tracks⟩
  hw := rfl
  sqDepth := rfl
  cqDepth := rfl
  cqHead := rfl
  chain := rfl
  bounced := by
    intro entry member
    cases member
  spares := .refl _ _

/-- A delivery ends the poll. -/
theorem Picks.deliver {c next : RxChannel} {entry : RxCdesc} (settled : Settled c entry next)
    (queue : next.queue = c.queue) (small : entry.length ≤ (c.ring.rxBufs entry.reqId).dataLen)
    (rest : List RxCdesc) (slot : Nat) :
    Picks c (entry :: rest) [] (some entry) rest next
      [.rxConsumed slot entry .accepted, .rxPkt (rxPacket (c.ring.rxBufs entry.reqId) entry)] where
  split := rfl
  large := by
    intro other member
    cases member
  small := by
    intro other same
    cases same
    exact small
  ended := by
    intro impossible
    cases impossible
  outputs := ⟨rfl, rfl, rfl, rfl, rfl⟩
  tracks := settled.tracks
  hw := settled.hw
  sqDepth := settled.sqDepth
  cqDepth := settled.cqDepth
  cqHead := settled.cqHead
  chain := settled.chain
  bounced := by
    intro other _
    rw [queue]
  spares := settled.spares.mono fun id apart => apart entry List.mem_cons_self

theorem Picks.drop {c middle next : RxChannel} {entry : RxCdesc} {entries : List RxCdesc}
    {found : Option RxCdesc} {outputs : List Event} (settled : Settled c entry middle)
    (large : (c.ring.rxBufs entry.reqId).dataLen < entry.length)
    (distinct : ∀ other ∈ entries, other.reqId ≠ entry.reqId)
    (picks : Picks middle entries lost found rest next outputs) (slot : Nat) (nb : Netbuf) :
    Picks c (entry :: entries) (entry :: lost) found rest next
      (.rxConsumed slot entry .dropped :: [dropEvent c.ring entry.reqId nb] ++ outputs) := by
  have inside : ∀ other ∈ lost ++ found.toList, other.reqId ≠ entry.reqId := by
    intro other member
    apply distinct other
    rw [picks.split, ← List.append_assoc]
    exact List.mem_append_left _ member
  have apartLost : ∀ other ∈ lost, other.reqId ≠ entry.reqId :=
    fun other member => inside other (List.mem_append_left _ member)
  have apartFound : ∀ other ∈ found, other.reqId ≠ entry.reqId :=
    fun other member => inside other (List.mem_append_right _ (Option.mem_toList.mpr member))
  constructor
  · rw [picks.split]
    rfl
  · refine List.forall_mem_cons.mpr ⟨large, fun other later => ?_⟩
    rw [← settled.spares.slots _ (apartLost other later)]
    exact picks.large other later
  · intro other member
    rw [← settled.spares.slots _ (apartFound other member)]
    exact picks.small other member
  · exact picks.ended
  · exact picks.outputs.cons
      (fun other member => settled.spares.slots _ (apartFound other member)) slot nb
  · exact picks.tracks
  · exact picks.hw.trans settled.hw
  · exact picks.sqDepth.trans settled.sqDepth
  · exact picks.cqDepth.trans settled.cqDepth
  · rw [picks.cqHead, Ring.cqAhead, Ring.cqAhead, settled.cqDepth, settled.cqHead,
      ← Function.iterate_succ_apply, List.length_cons]
    congr 1
    omega
  · exact picks.chain.trans settled.chain
  · intro other member
    rw [picks.bounced other member, settled.spares.bounced _ (apartFound other member)]
  · apply (settled.spares.mono ?_).trans (picks.spares.mono ?_)
    · intro id apart
      exact apart entry List.mem_cons_self
    · intro id apart other member
      exact apart other (List.mem_cons_of_mem _ member)

/-- The loop of a poll for one packet over memory that stands still. -/
theorem pollLoop_picks {mem : RxMem} (entries : List RxCdesc) {c : RxChannel} {left : Nat}
    (tracks : RxTracks c.ring ledger) (pending : Pending c.ring.cqDepth mem c.ring.cqHead entries)
    (distinct : (entries.map RxCdesc.reqId).Nodup)
    (owned : ∀ entry ∈ entries, Owned c.ring entry.reqId) (enough : entries.length ≤ left) :
    ∃ lost found rest next outputs,
      pollLoop rxPollEntry 1 0 c.port (List.replicate (left + 1) mem) =
        some (found.toList.length, next.port, outputs) ∧
      Picks c entries lost found rest next outputs := by
  induction entries generalizing c ledger left with
  | nil =>
    refine ⟨[], none, [], c, [], ?_, .idle tracks⟩
    have stale : rxPollEntry c.port mem = none := by
      rw [rxPollEntry_eq]
      exact if_neg fun ready => pending ready.1
    rw [List.replicate_succ, pollLoop, stale]
    rfl
  | cons entry entries ih =>
    obtain ⟨here, fresh, later⟩ := pending
    obtain ⟨apart, distinctRest⟩ := List.nodup_cons.mp distinct
    have ownedHere := owned entry List.mem_cons_self
    by_cases large : (c.ring.rxBufs entry.reqId).dataLen < entry.length
    · obtain ⟨nb, read, settled⟩ := rxPollEntry_drops tracks ownedHere here fresh large
      have differs : ∀ other ∈ entries, other.reqId ≠ entry.reqId :=
        fun other member same => apart (same ▸ List.mem_map_of_mem member)
      obtain ⟨after, tracked⟩ := settled.tracks
      obtain ⟨fewer, count⟩ : ∃ fewer, left = fewer + 1 :=
        ⟨left - 1, by rw [List.length_cons] at enough; omega⟩
      obtain ⟨lost, found, rest, next, outputs, looped, picks⟩ := ih tracked
        (by rw [settled.cqDepth, settled.cqHead]; exact later) distinctRest
        (fun other member => (settled.spares.owned _ (differs other member)).trans
          (owned other (List.mem_cons_of_mem _ member)))
        (show entries.length ≤ fewer by rw [List.length_cons] at enough; omega)
      refine ⟨_, found, rest, next, _, ?_, picks.drop settled large differs c.ring.cqSlot nb⟩
      rw [List.replicate_succ, pollLoop, read, count]
      change Option.map _ (pollLoop rxPollEntry 1 0 _ (List.replicate (fewer + 1) mem)) = _
      rw [show RxPort.mk (droppedRing c.ring entry.reqId) _ = RxChannel.port
        ⟨droppedRing c.ring entry.reqId, c.queue.reclaimSlot entry.reqId⟩ from rfl, looped]
      rfl
    · obtain ⟨read, settled⟩ :=
        rxPollEntry_delivers tracks ownedHere here fresh (Nat.le_of_not_lt large)
      refine ⟨[], some entry, entries, ⟨deliveredRing c.ring entry, c.queue⟩, _, ?_,
        .deliver settled rfl (Nat.le_of_not_lt large) entries c.ring.cqSlot⟩
      rw [List.replicate_succ, pollLoop, read]
      cases left with
      | zero => rfl
      | succ left => rfl

/-! ## The specification -/

/-- What both builds keep of a netbuf; the host build also stores the hash and the
checksum results of the completion. -/
def sharedPart (nb : Netbuf) : Netbuf :=
  { nb with hash := 0, l3CsumErr := false, l4CsumErr := false, l4CsumChecked := false }

def Fragment.shared (fragment : Fragment) : Fragment :=
  { fragment with kept := fragment.kept.map sharedPart }

/-- What a receive call does with the fresh entries: what it returns, the fate of
each entry it consumes, and the partial frame it leaves. -/
structure Delivery where
  status : Int
  frame : Option (List Netbuf)
  fragments : List Fragment
  chain : List Netbuf
  deriving DecidableEq, Repr

def Delivery.behind (delivery : Delivery) (fragments : List Fragment) : Delivery :=
  { delivery with fragments := fragments ++ delivery.fragments }

def moreStatus : List RxCdesc → Int
  | [] => 1
  | _ :: _ => 3

section Deliver

variable (bufs : Nat → RxBuffer) (q : RxQueue)

def keptPart (nb : Netbuf) (entry : RxCdesc) : Netbuf :=
  sharedPart (moveData q (receiveMeta .unikraft nb (rxPacket (bufs entry.reqId) entry))
    entry.reqId entry.offset)

def goesOn (chain : List Netbuf) (entry : RxCdesc) : Bool :=
  if chain.isEmpty then entry.first && !entry.last else !entry.last

def deliver : List Netbuf → List RxCdesc → Delivery
  | chain, [] => ⟨0, none, [], chain⟩
  | chain, entry :: rest =>
    if (bufs entry.reqId).dataLen < entry.length then
      (deliver [] rest).behind [⟨entry, none⟩]
    else match (bufs entry.reqId).netbuf with
      | none => ⟨0, none, [⟨entry, none⟩], chain⟩
      | some nb =>
        let kept := keptPart bufs q nb entry
        if doesNotFit q nb entry.reqId entry.length entry.offset then
          ⟨0, none, [⟨entry, none⟩], []⟩
        else if goesOn chain entry then
          (deliver (chain ++ [kept]) rest).behind [⟨entry, some kept⟩]
        else ⟨moreStatus rest, some (chain ++ [kept]), [⟨entry, some kept⟩], []⟩

/-- The entries in front that are too long end the partial frame. -/
theorem deliver_lost (large : ∀ entry ∈ lost, (bufs entry.reqId).dataLen < entry.length)
    (chain : List Netbuf) (rest : List RxCdesc) :
    deliver bufs q chain (lost ++ rest) =
      (deliver bufs q (if lost.isEmpty then chain else []) rest).behind
        (lost.map (⟨·, none⟩)) := by
  induction lost generalizing chain with
  | nil => rfl
  | cons entry lost ih =>
    rw [List.cons_append, deliver, if_pos (large entry List.mem_cons_self),
      ih (fun other member => large other (List.mem_cons_of_mem _ member))]
    cases lost with
    | nil => rfl
    | cons other lost => rfl

end Deliver

/-! ## Facts about the parts of a turn -/

theorem doesNotFit_congr {q other : RxQueue}
    (bounced : RxQueue.bounceSlot other reqId = RxQueue.bounceSlot q reqId)
    (depth : bounceDepth other = bounceDepth q) (nb : Netbuf) (len offset : Nat) :
    doesNotFit other nb reqId len offset = doesNotFit q nb reqId len offset := by
  have within : ∀ (queue : RxQueue) (slot : Nat),
      (queue.bounce.any fun pool => decide (slot < pool.nbDesc.val)) =
        (bounceDepth queue).any fun d => decide (slot < d.val) := by
    intro queue slot
    rw [bounceDepth]
    cases queue.bounce with
    | none => rfl
    | some pool => rfl
  unfold doesNotFit
  rw [bounced]
  split
  · rw [within, within, depth]
  · rfl

theorem moveData_congr {q other : RxQueue}
    (bounced : RxQueue.bounceSlot other reqId = RxQueue.bounceSlot q reqId) (nb : Netbuf)
    (offset : Nat) : moveData other nb reqId offset = moveData q nb reqId offset := by
  unfold moveData
  rw [bounced]

theorem sharedPart_moveData (q : RxQueue) (nb : Netbuf) (reqId offset : Nat) :
    sharedPart (moveData q nb reqId offset) = moveData q (sharedPart nb) reqId offset := by
  unfold moveData
  split
  · rfl
  · by_cases moved : offset ≠ 0 ∧ nb.data ≠ 0
    · rw [if_pos moved, if_pos (show offset ≠ 0 ∧ (sharedPart nb).data ≠ 0 from moved)]
      rfl
    · rw [if_neg moved, if_neg (show ¬(offset ≠ 0 ∧ (sharedPart nb).data ≠ 0) from moved)]

/-- The builds differ only in the hash and the checksum results they store. -/
theorem sharedPart_receiveMeta (build : Build) (nb : Netbuf) (pkt : RxPkt) :
    sharedPart (receiveMeta build nb pkt) = sharedPart (receiveMeta .unikraft nb pkt) := by
  cases build with
  | unikraft => rfl
  | host =>
    unfold receiveMeta
    cases (!pkt.l3CsumErr && !pkt.l4CsumErr && pkt.l4CsumChecked) with
    | true => rfl
    | false => rfl

theorem Pending.drop {d : Depth} {mem : RxMem} (front : List RxCdesc) {head : Cursor}
    (pending : Pending d mem head (front ++ rest)) :
    Pending d mem ((Cursor.advance d)^[front.length] head) rest := by
  induction front generalizing head with
  | nil => exact pending
  | cons entry front ih => exact ih pending.2.2

/-- The status of a call tells whether a fresh entry is left. -/
theorem enaNetdevRxStatus_pending {mem : RxMem} (pending : Pending r.cqDepth mem r.cqHead rest) :
    enaNetdevRxStatus r mem = moreStatus rest := by
  cases rest with
  | nil => exact if_neg pending
  | cons entry rest => exact if_pos (by rw [Ring.cqSlot, pending.1]; exact pending.2.1)

theorem cqAhead_small (small : r.cqHead.index < 65536) (count : Nat) :
    (r.cqAhead count).index < 65536 := by
  cases count with
  | zero => exact small
  | succ count =>
    rw [Ring.cqAhead, Function.iterate_succ_apply']
    exact Nat.mod_lt _ (by decide)

/-! ## One turn -/

/-- A channel at the start of a turn: the entries are the fresh ones, each of them
names an owned request, and the slots of these requests are those given. -/
structure Waits (bufs : Nat → RxBuffer) (q : RxQueue) (mem : RxMem) (entries : List RxCdesc)
    (c : RxChannel) : Prop where
  tracks : ∃ ledger, RxTracks c.ring ledger
  unlocked : c.ring.ringLock = false
  valid : c.ring.hw.valid = true
  small : c.ring.cqHead.index < 65536
  pending : Pending c.ring.cqDepth mem c.ring.cqHead entries
  short : entries.length ≤ c.ring.cqDepth.val
  distinct : (entries.map RxCdesc.reqId).Nodup
  owned : ∀ entry ∈ entries, Owned c.ring entry.reqId
  slots : ∀ entry ∈ entries, c.ring.rxBufs entry.reqId = bufs entry.reqId
  bounced : ∀ entry ∈ entries, RxQueue.bounceSlot c.queue entry.reqId =
    RxQueue.bounceSlot q entry.reqId
  depth : bounceDepth c.queue = bounceDepth q

section Turn

variable {bufs : Nat → RxBuffer} {q : RxQueue} {mem : RxMem} {entries : List RxCdesc}
  {c : RxChannel}

theorem enaRxPoll_picks (waits : Waits bufs q mem entries c) :
    ∃ polled lost found rest, enaRxPoll c.port 1 (pollViews c.ring [] mem) = .ok polled ∧
      Picks c entries lost found rest (c.update polled.port) polled.events ∧
      polled.dropped = lost.length ∧ polled.ret = found.toList.length ∧
      polled.port.ring.ringLock = false := by
  obtain ⟨ledger, tracks⟩ := waits.tracks
  obtain ⟨lost, found, rest, next, outputs, looped, picks⟩ :=
    pollLoop_picks entries (c := ⟨c.ring.locked, c.queue⟩) tracks waits.pending waits.distinct
      waits.owned waits.short
  have returned := enaRxPoll_loop (p := c.port)
    ⟨tracks.1, waits.valid, waits.unlocked, waits.small⟩ (by decide : 1 ≠ 0) looped
  refine ⟨_, lost, found, rest, returned, ?_, picks.outputs.drops, rfl, rfl⟩
  have output : OneOutputs c.ring outputs lost found :=
    ⟨picks.outputs.dropped, picks.outputs.accepted, picks.outputs.packets, picks.outputs.consumed,
      picks.outputs.drops⟩
  exact ⟨picks.split, picks.large, picks.small, picks.ended, output.report _, picks.tracks,
    picks.hw, picks.sqDepth, picks.cqDepth, picks.cqHead, picks.chain, picks.bounced,
    ⟨picks.spares.owned, picks.spares.slots, picks.spares.bounced, picks.spares.depth⟩⟩

structure Replenished (c next : RxChannel) : Prop where
  tracks : ∃ ledger, RxTracks next.ring ledger
  head : SameHead c.ring next.ring
  unlocked : next.ring.ringLock = false
  chain : next.queue.chain = c.queue.chain
  spares : Spares (Owned c.ring) c next

theorem refill_replenishes (build : Build) {c : RxChannel} (tracks : ∃ ledger, RxTracks c.ring ledger)
    (unlocked : c.ring.ringLock = false) (answers : Nat → Option Netbuf) (counts : Bool) :
    ∃ next events, refill build c answers counts = .ok (next, events) ∧ Replenished c next := by
  obtain ⟨ledger, tracks⟩ := tracks
  obtain ⟨next, events, ran, refilled⟩ := refill_refilled tracks unlocked build answers counts
  obtain ⟨same, others, again, keeps⟩ := refill_keepsQueue build unlocked answers counts
  cases ran.symm.trans again
  obtain ⟨_, after, _, tracked, _⟩ := refilled.acts
  exact ⟨next, events, ran, ⟨after, tracked⟩, keeps.same, refilled.unlocked, refilled.chain,
    refill_spares build tracks answers counts ran⟩

inductive TurnWalks (bufs : Nat → RxBuffer) (q : RxQueue) (mem : RxMem) (entries : List RxCdesc)
    (c : RxChannel) : TurnResult → Prop
  | ended {status : Int} {frame : Option (List Netbuf)} {next : RxChannel} {events : List Event}
      {fragments : List Fragment}
      (walk : deliver bufs q (c.queue.chain.map sharedPart) entries =
        ⟨status, frame.map (List.map sharedPart), fragments.map Fragment.shared,
          next.queue.chain.map sharedPart⟩)
      (head : next.ring.cqHead = c.ring.cqAhead fragments.length) :
      TurnWalks bufs q mem entries c ⟨.done status frame, next, events, fragments⟩
  | again {rest : List RxCdesc} {next : RxChannel} {events : List Event}
      {fragments : List Fragment}
      (walk : deliver bufs q (c.queue.chain.map sharedPart) entries =
        (deliver bufs q (next.queue.chain.map sharedPart) rest).behind
          (fragments.map Fragment.shared))
      (head : next.ring.cqHead = c.ring.cqAhead fragments.length)
      (depth : next.ring.cqDepth = c.ring.cqDepth) (fewer : rest.length < entries.length)
      (waits : Waits bufs q mem rest next) :
      TurnWalks bufs q mem entries c ⟨.again, next, events, fragments⟩

theorem chainAfter_shared (dropped : polled.dropped = lost.length)
    (chain : (c.update polled.port).queue.chain = c.queue.chain) :
    (chainAfter c polled).map sharedPart =
      if lost.isEmpty then c.queue.chain.map sharedPart else [] := by
  rw [chainAfter, dropped, chain]
  cases lost with
  | nil => rfl
  | cons entry lost => rfl

theorem fates_shared {found : Option RxCdesc} (output : OneOutputs r polled.events lost found)
    (kept : Option Netbuf) :
    (fates polled kept).map Fragment.shared = lost.map (⟨·, none⟩) ++
        found.toList.map (⟨·, kept.map sharedPart⟩) ∧
      (fates polled kept).length = lost.length + found.toList.length := by
  rw [fates, output.dropped, output.accepted]
  constructor
  · rw [List.map_append, List.map_map, List.map_map]
    rfl
  · rw [List.length_append, List.length_map, List.length_map]

theorem Waits.next (waits : Waits bufs q mem entries c) {entry : RxCdesc} {polled : RxChannel}
    {outputs : List Event} (picks : Picks c entries lost (some entry) rest polled outputs)
    {base next : RxChannel} (spares : Spares (· ≠ entry.reqId) polled base)
    (head : SameHead polled.ring base.ring) (refilled : Replenished base next) :
    Waits bufs q mem rest next := by
  have parts : entries = (lost ++ [entry]) ++ rest := by
    rw [picks.split, List.append_assoc]
    rfl
  have inside : ∀ other ∈ rest, other ∈ entries := by
    intro other member
    rw [parts]
    exact List.mem_append_right _ member
  have distinct := waits.distinct
  rw [parts, List.map_append] at distinct
  have apart : ∀ other ∈ rest, ∀ gone ∈ lost ++ [entry], other.reqId ≠ gone.reqId := by
    intro other member gone here same
    exact (List.nodup_append.mp distinct).2.2 gone.reqId (List.mem_map_of_mem here) other.reqId
      (List.mem_map_of_mem member) same.symm
  have last : ∀ other ∈ rest, other.reqId ≠ entry.reqId := fun other member =>
    apart other member entry (List.mem_append_right _ (List.mem_singleton.mpr rfl))
  have ownedBase : ∀ other ∈ rest, Owned base.ring other.reqId := by
    intro other member
    exact (spares.owned _ (last other member)).trans ((picks.spares.owned _
      (apart other member)).trans (waits.owned other (inside other member)))
  have sameDepth : next.ring.cqDepth = c.ring.cqDepth :=
    refilled.head.cqDepth.trans (head.cqDepth.trans picks.cqDepth)
  have moved : next.ring.cqHead = c.ring.cqAhead (lost.length + 1) :=
    refilled.head.cqHead.trans (head.cqHead.trans picks.cqHead)
  constructor
  · exact refilled.tracks
  · exact refilled.unlocked
  · rw [refilled.head.hw, head.hw, picks.hw]
    exact waits.valid
  · rw [moved]
    exact cqAhead_small waits.small _
  · have pending := waits.pending
    rw [parts] at pending
    have behind := Pending.drop (lost ++ [entry]) pending
    rw [List.length_append] at behind
    rw [sameDepth, moved]
    exact behind
  · have size := waits.short
    rw [parts, List.length_append] at size
    rw [sameDepth]
    omega
  · exact (List.nodup_append.mp distinct).2.1
  · intro other member
    exact (refilled.spares.owned _ (ownedBase other member)).trans (ownedBase other member)
  · intro other member
    rw [refilled.spares.slots _ (ownedBase other member), spares.slots _ (last other member),
      picks.spares.slots _ (apart other member)]
    exact waits.slots other (inside other member)
  · intro other member
    rw [refilled.spares.bounced _ (ownedBase other member), spares.bounced _ (last other member),
      picks.spares.bounced _ (apart other member)]
    exact waits.bounced other (inside other member)
  · rw [refilled.spares.depth, spares.depth, picks.spares.depth]
    exact waits.depth

theorem returnSlot_spares (q : RxQueue) (reqId : Nat) (r : Ring) :
    Spares (· ≠ reqId) ⟨r, q⟩ ⟨r, RxQueue.returnSlot q reqId⟩ := by
  rw [returnSlot_eq_reclaimSlot]
  obtain ⟨bounced, depth⟩ := reclaimSlot_bounce q reqId
  exact ⟨fun _ _ => rfl, fun _ _ => rfl, bounced, depth⟩

/-- The partial frame does not matter for what waits. -/
theorem Waits.rechain (waits : Waits bufs q mem entries c) (chain : List Netbuf) :
    Waits bufs q mem entries { c with queue := { c.queue with chain := chain } } :=
  ⟨waits.tracks, waits.unlocked, waits.valid, waits.small, waits.pending, waits.short,
    waits.distinct, waits.owned, waits.slots, waits.bounced, waits.depth⟩

theorem Delivery.behind_behind (delivery : Delivery) (first second : List Fragment) :
    (delivery.behind second).behind first = delivery.behind (first ++ second) := by
  rw [Delivery.behind, Delivery.behind, Delivery.behind, List.append_assoc]

theorem joinChain_walks {entry : RxCdesc}
    (picks : Picks c entries lost (some entry) rest (c.update polled.port) polled.events)
    {nb : Netbuf} (fits : doesNotFit q nb entry.reqId entry.length entry.offset = false)
    (filled : (bufs entry.reqId).netbuf = some nb)
    (short : ¬(bufs entry.reqId).dataLen < entry.length)
    (walk : deliver bufs q (c.queue.chain.map sharedPart) entries =
      (deliver bufs q ((chainAfter c polled).map sharedPart) (entry :: rest)).behind
        (lost.map (⟨·, none⟩))) {next : RxChannel} (later : Waits bufs q mem rest next)
    (chain : next.queue.chain = chainAfter c polled)
    (head : next.ring.cqHead = c.ring.cqAhead (lost.length + 1))
    (depth : next.ring.cqDepth = c.ring.cqDepth) {kept : Netbuf}
    (same : sharedPart kept = keptPart bufs q nb entry) (events : List Event) :
    TurnWalks bufs q mem entries c
      ⟨(joinChain next kept (rxPacket (bufs entry.reqId) entry) mem).1,
        (joinChain next kept (rxPacket (bufs entry.reqId) entry) mem).2, events,
        fates polled (some kept)⟩ := by
  obtain ⟨fragments, count⟩ := fates_shared picks.outputs (some kept)
  rw [deliver, if_neg short, filled] at walk
  simp only [fits, Bool.false_eq_true, if_false] at walk
  have shared : (fates polled (some kept)).map Fragment.shared = lost.map (⟨·, none⟩) ++
      [⟨entry, some (keptPart bufs q nb entry)⟩] := by
    rw [fragments, ← same]
    rfl
  have status := enaNetdevRxStatus_pending later.pending
  have moved : next.ring.cqHead = c.ring.cqAhead (fates polled (some kept)).length := by
    rw [count]
    exact head
  have fewer : rest.length < entries.length := by
    rw [picks.split, List.length_append, List.length_append]
    change _ < _ + (1 + _)
    omega
  unfold joinChain
  cases held : next.queue.chain with
  | nil =>
    rw [← chain, held] at walk
    simp only [List.map_nil, List.nil_append, goesOn, List.isEmpty_nil, if_true] at walk
    simp only
    split
    · rename_i more
      rw [if_pos (show (entry.first && !entry.last) = true from more)] at walk
      refine .again (walk.trans ?_) moved depth fewer (later.rechain [kept])
      rw [shared, List.map_singleton, same]
      exact Delivery.behind_behind _ _ _
    · rename_i complete
      rw [if_neg (show ¬(entry.first && !entry.last) = true from complete)] at walk
      refine .ended (walk.trans ?_) moved
      rw [shared, status, Option.map_some, List.map_singleton, same, held]
      rfl
  | cons first others =>
    rw [← chain, held] at walk
    simp only [List.map_cons, goesOn, List.isEmpty_cons, Bool.false_eq_true, if_false] at walk
    simp only
    split
    · rename_i complete
      rw [if_neg (by rw [show entry.last = true from complete]; decide)] at walk
      refine .ended (walk.trans ?_) moved
      rw [shared, status, Option.map_some, List.map_append, List.map_singleton, same]
      rfl
    · rename_i more
      rw [if_pos (by rw [Bool.not_eq_true', ← Bool.not_eq_true]; exact more)] at walk
      refine .again (walk.trans ?_) moved depth fewer (later.rechain (first :: others ++ [kept]))
      rw [shared, List.map_append, List.map_singleton, same]
      exact Delivery.behind_behind _ _ _

theorem rxTurn_walks (build : Build) (waits : Waits bufs q mem entries c)
    (answers : Nat → Option Netbuf) :
    ∃ result, rxTurn build c ⟨[], mem, answers, mem⟩ = .ok result ∧
      TurnWalks bufs q mem entries c result := by
  obtain ⟨polled, lost, found, rest, ran, picks, dropped, ret, free⟩ := enaRxPoll_picks waits
  obtain ⟨between, counts, finish, form, turned⟩ :=
    @rxTurn_forms c ⟨[], mem, answers, mem⟩ polled build ran
  have inLost : ∀ entry ∈ lost, entry ∈ entries := by
    intro entry member
    rw [picks.split]
    exact List.mem_append_left _ member
  have large : ∀ entry ∈ lost, (bufs entry.reqId).dataLen < entry.length := by
    intro entry member
    rw [← waits.slots entry (inLost entry member)]
    exact picks.large entry member
  have walk := deliver_lost bufs q large (c.queue.chain.map sharedPart) (found.toList ++ rest)
  rw [← picks.split, ← chainAfter_shared dropped picks.chain] at walk
  have packets := picks.outputs.packets
  obtain ⟨fragments, count⟩ := fates_shared picks.outputs none
  obtain ⟨dropped, start⟩ := form.start
  obtain ⟨next, events, refilled, effect⟩ := refill_replenishes build (c := between)
    (start ▸ picks.tracks) (start ▸ free) answers counts
  refine ⟨_, turned next events refilled, ?_⟩
  have head : next.ring.cqHead = polled.port.ring.cqHead := by
    rw [effect.head.cqHead, start]
  cases found with
  | none =>
    have empty : received polled.events = [] := packets
    have nothing : rest = [] := picks.ended rfl
    cases form with
    | empty freed =>
      refine .ended ?_ ?_
      · have zero : polled.ret = 0 := ret
        rw [walk, nothing, effect.chain, picks.outputs.dropped, List.map_map]
        change Delivery.mk 0 none (lost.map _ ++ []) _ = _
        rw [List.append_nil]
        cases build with
        | unikraft => rfl
        | host =>
          rw [zero]
          rfl
      · rw [head]
        exact picks.cqHead.trans (congrArg c.ring.cqAhead (by rw [List.length_map, picks.outputs.dropped]; rfl))
    | null freed packet => cases empty.symm.trans packet
    | unfit freed packet => cases empty.symm.trans packet
    | kept freed packet => cases empty.symm.trans packet
  | some entry =>
    have member : entry ∈ entries := by
      rw [picks.split]
      exact List.mem_append_right _ (List.mem_cons_self)
    obtain ⟨ledger, tracks⟩ := waits.tracks
    obtain ⟨nb, active⟩ := RxTracks.active_of_owned tracks (waits.owned entry member)
    have own := waits.slots entry member
    have filled : (bufs entry.reqId).netbuf = some nb := by
      rw [← own, tracks.2.netbuf, active]
      rfl
    have short : ¬(bufs entry.reqId).dataLen < entry.length := by
      rw [← own]
      exact Nat.not_lt_of_le (picks.small entry rfl)
    have fit : doesNotFit (c.update polled.port).queue nb entry.reqId entry.length entry.offset =
        doesNotFit q nb entry.reqId entry.length entry.offset :=
      doesNotFit_congr ((picks.bounced entry rfl).trans (waits.bounced entry member))
        (picks.spares.depth.trans waits.depth) nb entry.length entry.offset
    have one : received polled.events = [rxPacket (bufs entry.reqId) entry] := by
      rw [packets, ← own]
      rfl
    cases form with
    | empty freed nothing => cases one.symm.trans nothing
    | null freed packet absent =>
      cases one.symm.trans packet
      cases filled.symm.trans absent
    | unfit freed packet carried large =>
      cases one.symm.trans packet
      cases filled.symm.trans carried
      refine .ended ?_ ?_
      · rw [walk, effect.chain]
        change _ = Delivery.mk 0 none ((fates polled none).map Fragment.shared) []
        rw [fragments]
        change (deliver bufs q _ (entry :: rest)).behind _ = _
        rw [deliver, if_neg short, filled]
        simp only [fit.symm.trans large, if_true]
        rfl
      · rw [head]
        exact picks.cqHead.trans (congrArg c.ring.cqAhead count.symm)
    | kept freed packet carried fits moved =>
      cases one.symm.trans packet
      cases filled.symm.trans carried
      have slot := (picks.bounced entry rfl).trans (waits.bounced entry member)
      have returned :=
        returnSlot_spares (queueAfter c polled) entry.reqId polled.port.ring
      have spares : Spares (· ≠ entry.reqId) (c.update polled.port)
          ⟨polled.port.ring, RxQueue.returnSlot (queueAfter c polled) entry.reqId⟩ :=
        ⟨returned.owned, returned.slots, returned.bounced, returned.depth⟩
      have later : Waits bufs q mem rest next :=
        waits.next picks spares ⟨rfl, rfl, rfl, rfl, rfl⟩ effect
      have chain : next.queue.chain = chainAfter c polled :=
        effect.chain.trans (returnSlot_chain _ _)
      refine joinChain_walks picks (fit.symm.trans fits) filled short walk later chain
        (head.trans picks.cqHead) (effect.head.cqDepth.trans picks.cqDepth) ?_ _
      rw [moved, sharedPart_moveData, sharedPart_receiveMeta, ← sharedPart_moveData]
      exact congrArg sharedPart (moveData_congr slot _ _)

end Turn

end EnaDriver.Netdev
