import EnaDriver.Datapath.Receive
import EnaDriver.Datapath.Lifecycle
import EnaDriver.Support.Runs

/-!
# Custody of receive requests

The request pool and the tracking slots of a receive ring describe one ledger:
every request id is free or holds the netbuf that was posted under it.  A poll
releases items, by handing them to the caller or by dropping them.  The
in-flight mark is set for every held id; it can also stay behind on a free id,
because the drop of an oversized reception does not clear it.
-/

namespace EnaDriver.Datapath

open Support.Laps Support.Windows Support.Polling
open Support.Custody Support.Runs

variable {added : Nat} {cdesc : RxCdesc} {outputs : List Event} {p : RxPort} {views : List RxMem}
  {ledger : RxLedger} (r : Ring)

/-- Receive requests are never parked. -/
abbrev RxLedger := Ledger Netbuf Empty

abbrev RxAction := Action Netbuf Empty

structure RxCustody (d : Depth) (pool : RequestPool) (bufs : Nat → RxBuffer)
    (ledger : RxLedger) : Prop where
  sound : pool.Sound d
  outside : ∀ id, d.val ≤ id → ledger id = .free
  allocated : ∀ id, pool.reqAllocated id = (ledger id).isHeld
  netbuf : ∀ id, (bufs id).netbuf = (ledger id).item?
  flagged : ∀ id, (ledger id).isHeld = true → pool.reqInFlight id = true
  bounded : ∀ id, pool.reqInFlight id = true → id < d.val

def RxTracks (r : Ring) (ledger : RxLedger) : Prop :=
  r.ringType = .rx ∧ RxCustody r.sqDepth r.pool r.rxBufs ledger

theorem rxStatus_cases (status : Status Netbuf Empty) :
    status = .free ∨ ∃ nb, status = .active nb := by
  cases status with
  | free => exact Or.inl rfl
  | active nb => exact Or.inr ⟨nb, rfl⟩
  | parked nb keeper => exact keeper.elim

theorem RxTracks.active_of_netbuf {r : Ring} {id : Nat} {nb : Netbuf} (tracks : RxTracks r ledger)
    (stored : (r.rxBufs id).netbuf = some nb) : ledger id = .active nb := by
  have item := (tracks.2.netbuf id).symm.trans stored
  rcases rxStatus_cases (ledger id) with isFree | ⟨other, held⟩
  · rw [isFree] at item
    cases item
  · rw [held] at item ⊢
    cases item
    rfl

theorem mark_store {marks : Nat → Bool}
    (before : ∀ id, (ledger id).isHeld = true → marks id = true) (id : Nat)
    {status : Status Netbuf Empty} {mark : Bool} (here : status.isHeld = true → mark = true) :
    ∀ other, (store ledger id status other).isHeld = true → store marks id mark other = true := by
  intro other held
  by_cases same : other = id
  · rw [same, store_same] at held ⊢
    exact here held
  · rw [store_other _ _ same] at held ⊢
    exact before other held

namespace RxCustody

variable {d : Depth} {pool next : RequestPool} {bufs : Nat → RxBuffer} {ledger : RxLedger}
  {id : Nat} {nb : Netbuf}

section

variable (custody : RxCustody d pool bufs ledger)
include custody

theorem lt (active : ledger id = .active nb) : id < d.val := by
  by_contra outside
  rw [custody.outside id (Nat.le_of_not_lt outside)] at active
  cases active

theorem owned (active : ledger id = .active nb) : pool.reqAllocated id = true := by
  rw [custody.allocated, active]
  rfl

theorem outside_store (inside : id < d.val) (status : Status Netbuf Empty) (other : Nat)
    (beyond : d.val ≤ other) : store ledger id status other = .free := by
  rw [store_other _ _ (by omega)]
  exact custody.outside other beyond

/-- Setting or clearing the in-flight mark of an id that is not held. -/
theorem remark (isFree : ledger id = .free) :
    RxCustody d { pool with reqInFlight := store pool.reqInFlight id false } bufs ledger where
  sound := custody.sound.congr_marks _
  outside := custody.outside
  allocated := custody.allocated
  netbuf := custody.netbuf
  flagged := by
    intro other held
    have differs : other ≠ id := by
      intro same
      rw [same, isFree] at held
      cases held
    change store pool.reqInFlight id false other = true
    rw [store_other _ _ differs]
    exact custody.flagged other held
  bounded := by
    intro other marked
    apply custody.bounded
    by_cases same : other = id
    · rw [same] at marked
      simp at marked
    · simpa [store_other _ _ same] using marked

/-! ## The moves of the ring -/

/-- Posting: an allocated id becomes active. -/
theorem post (found : enaRingReqIdAlloc d pool = some (id, next)) (nb : Netbuf) (buf : RxBuffer)
    (holds : buf.netbuf = some nb) :
    ledger id = .free ∧ id < d.val ∧
      RxCustody d { next with reqInFlight := store next.reqInFlight id true }
        (store bufs id buf) (store ledger id (.active nb)) := by
  obtain ⟨inside, clear, _, marks, flags, _, sound⟩ :=
    RequestPool.alloc_cases custody.sound found
  have isFree : ledger id = .free := by
    rcases rxStatus_cases (ledger id) with isFree | ⟨held, active⟩
    · exact isFree
    · rw [custody.owned active] at clear
      cases clear
  refine ⟨isFree, inside, ?_⟩
  exact {
    sound := sound.congr_marks _
    outside := custody.outside_store inside _
    allocated := by
      change ∀ i, next.reqAllocated i = _
      rw [marks]
      exact store_agree custody.allocated id (.active nb)
    netbuf := by
      intro i
      by_cases same : i = id
      · simp [same, holds, Status.item?]
      · simp [store_other _ _ same, custody.netbuf]
    flagged := by
      change ∀ i, _ → store next.reqInFlight id true i = true
      rw [flags]
      exact mark_store custody.flagged id fun _ => rfl
    bounded := by
      intro i marked
      by_cases same : i = id
      · rw [same]
        exact inside
      · apply custody.bounded
        simpa [store_other _ _ same, flags] using marked }

/-- The release of a held id, with its in-flight mark set to any value. -/
theorem release (active : ledger id = .active nb) (mark : Bool) :
    RxCustody d (RequestPool.push d { pool with reqInFlight := store pool.reqInFlight id mark } id)
      (store bufs id .empty) (store ledger id .free) where
  sound := (RequestPool.push_cases (custody.sound.congr_marks (store pool.reqInFlight id mark))
    (custody.lt active)
    (custody.owned active)).2
  outside := custody.outside_store (custody.lt active) _
  allocated := store_agree custody.allocated id .free
  netbuf := by
    intro i
    by_cases same : i = id
    · simp [same, RxBuffer.empty, Status.item?]
    · simp [store_other _ _ same, custody.netbuf]
  flagged := mark_store custody.flagged id (by intro held; cases held)
  bounded := by
    intro i marked
    by_cases same : i = id
    · rw [same]
      exact custody.lt active
    · apply custody.bounded
      simpa [RequestPool.push, store_other _ _ same] using marked

end

theorem fresh (d : Depth) : RxCustody d (.fresh d) (fun _ => .empty) Ledger.empty where
  sound := RequestPool.fresh_sound d
  outside := fun _ _ => rfl
  allocated := fun _ => rfl
  netbuf := fun _ => rfl
  flagged := by
    intro id held
    cases held
  bounded := by
    intro id marked
    cases marked

end RxCustody

/-! ## Releasing an id -/

section Release

variable {r : Ring} {ledger : RxLedger} {id : Nat} {nb : Netbuf}

/-- A second release changes nothing. -/
theorem enaRingReqIdFree_free {r : Ring} (clear : r.pool.reqAllocated id = false) :
    (enaRingReqIdFree r id).2 = r := by
  unfold enaRingReqIdFree
  simp only [clear, if_true]
  split <;> rfl

def dropEvent (r : Ring) (id : Nat) (nb : Netbuf) : Event :=
  if r.dropNetbufCb then .dropNetbufCb id nb else .ukNetbufFree id nb

theorem rxDrop_held (tracks : RxTracks r ledger) (active : ledger id = .active nb) :
    rxDrop r id =
      ({ r with
          rxDropped := (r.rxDropped + 1) % 2 ^ 64
          pool := r.pool.push r.sqDepth id
          rxBufs := store r.rxBufs id .empty }, [dropEvent r id nb]) := by
  obtain ⟨isRx, custody⟩ := tracks
  have bound := custody.lt active
  have owned := custody.owned active
  have room := custody.sound.count_lt bound owned
  have stored : (r.rxBufs id).netbuf = some nb := by
    rw [custody.netbuf, active]
    rfl
  simp [rxDrop, stored, enaRingReqIdFree, enaRingSlotClear, isRx, owned, Nat.not_le_of_lt bound,
    Nat.not_le_of_lt room, dropEvent, store_store]

theorem rxDrop_free (tracks : RxTracks r ledger) (isFree : ledger id = .free) :
    rxDrop r id = ({ r with rxDropped := (r.rxDropped + 1) % 2 ^ 64 }, []) := by
  have stored : (r.rxBufs id).netbuf = none := by
    rw [tracks.2.netbuf, isFree]
    rfl
  have clear : r.pool.reqAllocated id = false := by
    rw [tracks.2.allocated, isFree]
    rfl
  simp [rxDrop, stored, enaRingReqIdFree_free, clear]

def rxCounted (r : Ring) (cdesc : RxCdesc) : Ring :=
  { r with
    pool := { r.pool with reqInFlight := store r.pool.reqInFlight cdesc.reqId false }
    rxPackets := (r.rxPackets + 1) % 2 ^ 64
    rxBytes := (r.rxBytes + cdesc.length) % 2 ^ 64 }

theorem rxDeliver_held (tracks : RxTracks r ledger) (active : ledger cdesc.reqId = .active nb) :
    rxDeliver r cdesc =
      { rxCounted r cdesc with
        pool := (rxCounted r cdesc).pool.push r.sqDepth cdesc.reqId
        rxBufs := store r.rxBufs cdesc.reqId .empty } := by
  obtain ⟨isRx, custody⟩ := tracks
  have bound := custody.lt active
  have owned := custody.owned active
  have room := custody.sound.count_lt bound owned
  simp [rxDeliver, rxCounted, enaRingReqIdFree, enaRingSlotClear, isRx, owned,
    Nat.not_le_of_lt bound, Nat.not_le_of_lt room]

theorem rxDeliver_free (tracks : RxTracks r ledger) (isFree : ledger cdesc.reqId = .free) :
    rxDeliver r cdesc = rxCounted r cdesc := by
  have clear : (rxCounted r cdesc).pool.reqAllocated cdesc.reqId = false := by
    change r.pool.reqAllocated cdesc.reqId = false
    rw [tracks.2.allocated, isFree]
    rfl
  exact enaRingReqIdFree_free clear

end Release

/-! ## What a poll gives away -/

def Event.gives : Event → List (Nat × Netbuf)
  | .rxPkt pkt => pkt.netbuf.toList.map (pkt.reqId, ·)
  | event => event.frees

def given (events : List Event) : List (Nat × Netbuf) := events.flatMap Event.gives

@[simp] theorem given_nil : given [] = [] := rfl

@[simp] theorem given_append (first second : List Event) :
    given (first ++ second) = given first ++ given second := List.flatMap_append

def RxFrame (r next : Ring) : Prop :=
  ∃ pool rxBufs cqHead ringLock rxPackets rxBytes rxDropped,
    next = { r with
      pool := pool, rxBufs := rxBufs, cqHead := cqHead, ringLock := ringLock,
      rxPackets := rxPackets, rxBytes := rxBytes, rxDropped := rxDropped }

theorem RxFrame.refl : RxFrame r r := ⟨_, _, _, _, _, _, _, rfl⟩

theorem RxFrame.trans {r middle next : Ring} (earlier : RxFrame r middle)
    (later : RxFrame middle next) : RxFrame r next := by
  obtain ⟨_, _, _, _, _, _, _, rfl⟩ := earlier
  obtain ⟨_, _, _, _, _, _, _, rfl⟩ := later
  exact ⟨_, _, _, _, _, _, _, rfl⟩

theorem RxFrame.depths {r next : Ring} (frame : RxFrame r next) :
    next.sqDepth = r.sqDepth ∧ next.cqDepth = r.cqDepth ∧ next.sqTail = r.sqTail := by
  obtain ⟨_, _, _, _, _, _, _, rfl⟩ := frame
  exact ⟨rfl, rfl, rfl⟩

/-- A change of a ring that gives items away: on every ledger the ring agrees with
it is a sequence of releases, and the consumer position moves by the entries
consumed. -/
def RxReaps (r : Ring) (events : List Event) (next : Ring) : Prop :=
  ∀ ledger, RxTracks r ledger → RxFrame r next ∧
    (∃ actions after, Steps ReleaseOnly ledger actions after ∧ RxTracks next after ∧
      given events = yielded some actions) ∧
    ∀ count, r.cqHead = Cursor.after r.cqDepth count →
      next.cqHead = Cursor.after r.cqDepth (count + consumed events)

theorem RxReaps.refl : RxReaps r [] r :=
  fun ledger tracks => ⟨.refl r, ⟨[], ledger, .nil ledger, tracks, rfl⟩, fun _ located => located⟩

theorem RxReaps.trans {r middle next : Ring} {first second : List Event}
    (earlier : RxReaps r first middle) (later : RxReaps middle second next) :
    RxReaps r (first ++ second) next := by
  intro ledger tracks
  obtain ⟨frame, ⟨before, between, steps, tracked, gaveFirst⟩, moved⟩ := earlier ledger tracks
  obtain ⟨frameNext, ⟨after, final, more, ended, gaveSecond⟩, movedNext⟩ := later between tracked
  refine ⟨frame.trans frameNext, ⟨before ++ after, final, steps.append more, ended, ?_⟩, ?_⟩
  · rw [given_append, yielded_append, gaveFirst, gaveSecond]
  · intro count located
    rw [frame.depths.2.1] at movedNext
    rw [consumed_append, ← Nat.add_assoc]
    exact movedNext _ (moved count located)

theorem RxReaps.lock (held : Bool) : RxReaps r [] { r with ringLock := held } :=
  fun ledger tracks =>
    ⟨⟨_, _, _, _, _, _, _, rfl⟩, ⟨[], ledger, .nil ledger, tracks, rfl⟩, fun _ located => located⟩

/-- Events that give nothing and consume nothing may follow. -/
theorem RxReaps.quiet {r next : Ring} {events more : List Event} (reaps : RxReaps r events next)
    (gives : given more = []) (consumes : consumed more = 0) :
    RxReaps r (events ++ more) next := by
  intro ledger tracks
  obtain ⟨frame, ⟨actions, after, steps, tracked, gave⟩, moved⟩ := reaps ledger tracks
  refine ⟨frame, ⟨actions, after, steps, tracked, ?_⟩, ?_⟩
  · rw [given_append, gives, List.append_nil, gave]
  · rw [consumed_append, consumes]
    exact moved

/-! ## One iteration of a poll -/

inductive RxEntry (p : RxPort) (slot : Nat) (cdesc : RxCdesc) : Nat → RxPort → List Event → Prop
  | skipped (idle : p.ring.pool.reqInFlight cdesc.reqId = false) :
      RxEntry p slot cdesc 0 { p with ring := p.ring.advanceCq } [.rxConsumed slot cdesc .skipped]
  | dropped (inFlight : p.ring.pool.reqInFlight cdesc.reqId = true)
      (oversize : (p.ring.rxBufs cdesc.reqId).dataLen < cdesc.length) :
      RxEntry p slot cdesc 0
        ⟨(rxDrop p.ring cdesc.reqId).1.advanceCq,
          p.queue.map (RxQueue.reclaimSlot · cdesc.reqId)⟩
        (.rxConsumed slot cdesc .dropped :: (rxDrop p.ring cdesc.reqId).2)
  | delivered (inFlight : p.ring.pool.reqInFlight cdesc.reqId = true)
      (fits : cdesc.length ≤ (p.ring.rxBufs cdesc.reqId).dataLen) :
      RxEntry p slot cdesc 1 { p with ring := (rxDeliver p.ring cdesc).advanceCq }
        [.rxConsumed slot cdesc .accepted, .rxPkt (rxPacket (p.ring.rxBufs cdesc.reqId) cdesc)]

/-- An iteration that stays in the loop consumes the entry under the head. -/
theorem rxPollEntry_cases {next : RxPort} {mem : RxMem}
    (read : rxPollEntry p mem = some (added, next, outputs)) :
    (mem p.ring.cqSlot).phase = p.ring.cqHead.phase ∧
      (mem p.ring.cqSlot).reqId < p.ring.sqDepth.val ∧
      RxEntry p p.ring.cqSlot (mem p.ring.cqSlot) added next outputs := by
  unfold rxPollEntry at read
  simp only at read
  split at read
  · cases read
  rename_i phase
  split at read
  · cases read
  rename_i bound
  refine ⟨Decidable.not_not.mp phase, Nat.lt_of_not_le bound, ?_⟩
  split at read
  · rename_i idle
    cases read
    exact .skipped idle
  rename_i inFlight
  have marked := Bool.of_not_eq_false inFlight
  split at read
  · rename_i oversize
    cases read
    exact .dropped marked oversize
  · rename_i fits
    cases read
    exact .delivered marked (Nat.le_of_not_lt fits)

/-- A ring that releases at most one item and moves past one entry. -/
theorem RxReaps.entry {r next : Ring} {events : List Event} (one : consumed events = 1)
    (changes : ∀ ledger, RxTracks r ledger → RxFrame r next ∧ next.cqHead = r.cqHead ∧
      ∃ actions after, Steps ReleaseOnly ledger actions after ∧ RxTracks next after ∧
        given events = yielded some actions) :
    RxReaps r events next.advanceCq := by
  intro ledger tracks
  obtain ⟨frame, head, actions, after, steps, tracked, gave⟩ := changes ledger tracks
  refine ⟨frame.trans ⟨_, _, _, _, _, _, _, rfl⟩, ⟨actions, after, steps, tracked, gave⟩, ?_⟩
  intro count located
  rw [one]
  change next.cqHead.advance next.cqDepth = _
  rw [head, frame.depths.2.1, located, Cursor.advance_after]

theorem given_dropEvent (id : Nat) (nb : Netbuf) : given [dropEvent r id nb] = [(id, nb)] := by
  unfold dropEvent
  split <;> rfl

theorem consumed_dropEvent (id : Nat) (nb : Netbuf) : consumed [dropEvent r id nb] = 0 := by
  unfold dropEvent
  split <;> rfl

theorem consumed_rxDrop {r : Ring} (tracks : RxTracks r ledger) (slot : Nat) (cdesc : RxCdesc) :
    consumed (.rxConsumed slot cdesc .dropped :: (rxDrop r cdesc.reqId).2) = 1 := by
  rcases rxStatus_cases (ledger cdesc.reqId) with isFree | ⟨nb, active⟩
  · rw [rxDrop_free tracks isFree]
    rfl
  · rw [rxDrop_held tracks active]
    change consumed ([.rxConsumed slot cdesc .dropped] ++ [dropEvent r cdesc.reqId nb]) = 1
    rw [consumed_append, consumed_dropEvent]
    rfl

theorem rxDrop_reaps (slot : Nat) (tracks : RxTracks r ledger) :
    RxReaps r (.rxConsumed slot cdesc .dropped :: (rxDrop r cdesc.reqId).2)
      (rxDrop r cdesc.reqId).1.advanceCq := by
  apply RxReaps.entry (consumed_rxDrop tracks slot cdesc)
  intro ledger tracks
  rcases rxStatus_cases (ledger cdesc.reqId) with isFree | ⟨nb, active⟩
  · rw [rxDrop_free tracks isFree]
    exact ⟨⟨_, _, _, _, _, _, _, rfl⟩, rfl, [], ledger, .nil ledger, tracks, rfl⟩
  rw [rxDrop_held tracks active]
  refine ⟨⟨_, _, _, _, _, _, _, rfl⟩, rfl, [.release cdesc.reqId nb], _,
    .single (.release (by rw [active]; rfl)) ⟨_, _, rfl⟩, ⟨tracks.1, ?_⟩, ?_⟩
  · have released := tracks.2.release active (r.pool.reqInFlight cdesc.reqId)
    rwa [store_self _ rfl] at released
  · exact given_dropEvent r cdesc.reqId nb

/-- A delivery releases what the slot holds, into the packet. -/
theorem rxDeliver_reaps (slot : Nat) (cdesc : RxCdesc) :
    RxReaps r
      [.rxConsumed slot cdesc .accepted, .rxPkt (rxPacket (r.rxBufs cdesc.reqId) cdesc)]
      (rxDeliver r cdesc).advanceCq := by
  apply RxReaps.entry rfl
  intro ledger tracks
  have stored := tracks.2.netbuf cdesc.reqId
  rcases rxStatus_cases (ledger cdesc.reqId) with isFree | ⟨nb, active⟩
  · rw [rxDeliver_free tracks isFree]
    refine ⟨⟨_, _, _, _, _, _, _, rfl⟩, rfl, [], ledger, .nil ledger,
      ⟨tracks.1, tracks.2.remark isFree⟩, ?_⟩
    rw [isFree] at stored
    simp [given, Event.gives, Event.frees, rxPacket, stored, yielded, Status.item?]
  · rw [rxDeliver_held tracks active]
    refine ⟨⟨_, _, _, _, _, _, _, rfl⟩, rfl, [.release cdesc.reqId nb], _,
      .single (.release (by rw [active]; rfl)) ⟨_, _, rfl⟩,
      ⟨tracks.1, tracks.2.release active false⟩, ?_⟩
    rw [active] at stored
    simp [given, Event.gives, Event.frees, rxPacket, stored, yielded, Status.item?]

theorem rxPollEntry_reaps {next : RxPort} {mem : RxMem}
    (read : rxPollEntry p mem = some (added, next, outputs)) (tracks : RxTracks p.ring ledger) :
    RxReaps p.ring outputs next.ring := by
  obtain ⟨_, _, entry⟩ := rxPollEntry_cases read
  cases entry with
  | skipped idle =>
    apply RxReaps.entry rfl
    intro ledger tracks
    exact ⟨.refl _, rfl, [], ledger, .nil ledger, tracks, rfl⟩
  | dropped inFlight oversize => exact rxDrop_reaps p.ring _ tracks
  | delivered inFlight fits => exact rxDeliver_reaps p.ring _ _

theorem RxEntry.consumed {next : RxPort} {slot : Nat}
    (entry : RxEntry p slot cdesc added next outputs) (tracks : RxTracks p.ring ledger) :
    Datapath.consumed outputs = 1 := by
  cases entry with
  | skipped idle => rfl
  | dropped inFlight oversize => exact consumed_rxDrop tracks slot cdesc
  | delivered inFlight fits => rfl

/-! ## Whole polls -/

theorem rxIterates_reaps {last : RxPort} {budget count total : Nat}
    (iterates : Iterates rxPollEntry budget count p views total outputs last)
    (tracks : RxTracks p.ring ledger) : RxReaps p.ring outputs last.ring := by
  induction iterates generalizing ledger with
  | stop reason => exact .refl _
  | step more read later ih =>
    have first := rxPollEntry_reaps read tracks
    obtain ⟨_, ⟨_, between, _, tracked, _⟩, _⟩ := first ledger tracks
    exact first.trans (ih tracked)

/-- The report of a poll is one doorbell at most. -/
theorem enaRxReportHead_cases (rcvd : Nat) :
    enaRxReportHead r rcvd = [] ∨ ∃ offset value, enaRxReportHead r rcvd = [.regWrite32 offset value] := by
  unfold enaRxReportHead
  split
  · exact .inl rfl
  split
  · exact .inr ⟨_, _, rfl⟩
  · exact .inl rfl

theorem enaRxReportHead_quiet (rcvd : Nat) :
    given (enaRxReportHead r rcvd) = [] ∧ consumed (enaRxReportHead r rcvd) = 0 := by
  rcases enaRxReportHead_cases r rcvd with report | ⟨_, _, report⟩ <;> rw [report] <;> exact ⟨rfl, rfl⟩

/-- A poll that returns either left early or is a sequence of iterations under
the lock. -/
theorem enaRxPoll_cases {maxPkts : Nat} {polled : RxPolled} (unlocked : p.ring.ringLock = false)
    (returned : enaRxPoll p maxPkts views = .ok polled) :
    (polled.port = p ∧ polled.events = [] ∧ polled.dropped = 0 ∧ polled.ret ≤ 0 ∧
        (p.ring.ringType ≠ .rx ∨ maxPkts = 0 ∨ p.ring.hw.valid = false)) ∨
      ∃ rcvd last outputs,
        Iterates rxPollEntry maxPkts 0 { p with ring := { p.ring with ringLock := true } } views
          rcvd outputs last ∧ p.ring.hw.valid = true ∧
        polled = ⟨rcvd, outputs.countP Event.isRxDropped,
          { last with ring := enaRingUnlock last.ring },
          outputs ++ enaRxReportHead last.ring rcvd⟩ := by
  unfold enaRxPoll at returned
  split at returned
  · rename_i refused
    cases returned
    exact Or.inl ⟨rfl, rfl, rfl, (by decide : -EINVAL ≤ 0), refused.imp_right Or.inl⟩
  split at returned
  · rename_i invalid
    cases returned
    exact Or.inl ⟨rfl, rfl, rfl, Int.le_refl 0, Or.inr (Or.inr invalid)⟩
  rename_i valid
  rw [enaRingLock_free unlocked] at returned
  obtain ⟨_, locked, returned⟩ := bind_ok returned
  cases locked
  obtain ⟨⟨rcvd, last, outputs⟩, looped, returned⟩ := bind_ok returned
  cases returned
  cases finished : pollLoop rxPollEntry maxPkts 0
      { p with ring := { p.ring with ringLock := true } } views with
  | none =>
    rw [finished] at looped
    cases looped
  | some result =>
    rw [finished] at looped
    cases looped
    exact Or.inr ⟨_, _, _, pollLoop_iterates finished, Bool.of_not_eq_false valid, rfl⟩

theorem enaRxPoll_reaps {maxPkts : Nat} {polled : RxPolled} (tracks : RxTracks p.ring ledger)
    (unlocked : p.ring.ringLock = false) (returned : enaRxPoll p maxPkts views = .ok polled) :
    RxReaps p.ring polled.events polled.port.ring ∧ polled.port.ring.ringLock = false := by
  rcases enaRxPoll_cases unlocked returned with
    ⟨same, none, _⟩ | ⟨rcvd, last, outputs, iterates, _, rfl⟩
  · rw [same, none]
    exact ⟨.refl _, unlocked⟩
  obtain ⟨gives, consumes⟩ := enaRxReportHead_quiet last.ring rcvd
  have loop := rxIterates_reaps iterates (show RxTracks _ ledger from tracks)
  have whole := (RxReaps.lock p.ring true).trans (loop.trans (.lock last.ring false))
  rw [List.nil_append, List.append_nil] at whole
  exact ⟨whole.quiet gives consumes, rfl⟩

end EnaDriver.Datapath
