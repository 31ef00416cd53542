import EnaDriver.Netdev.Receive
import EnaDriver.Datapath.ReceiveCalls

/-!
# Calls of the netdev receive path

A refill posts buffers and leaves the partial frame alone.  A poll for one
packet over the entries of an honest device drops some entries and then delivers
at most one, and it leaves the requests of the other entries alone.
-/

namespace EnaDriver.Netdev

open Support.Windows Support.Polling
open Support.Custody Support.Runs
open Datapath

/-! ## Refills -/

/-- The allocation callback leaves the partial frame of the queue alone. -/
def KeepsChain (alloc : AllocNetbuf) : Prop :=
  ∀ call q, ∃ next, (alloc call (some q)).2 = some next ∧ next.chain = q.chain

theorem enaNetbufAllocHelper_keepsChain (build : Build) (answers : Nat → Option Netbuf) :
    KeepsChain (enaNetbufAllocHelper build answers) := by
  intro call q
  unfold enaNetbufAllocHelper
  simp only
  split
  · exact ⟨q, rfl, rfl⟩
  cases q.bounce with
  | none => exact ⟨q, rfl, rfl⟩
  | some pool =>
    simp only
    split
    · split
      · exact ⟨q, rfl, rfl⟩
      · exact ⟨_, rfl, rfl⟩
    · exact ⟨q, rfl, rfl⟩

theorem abandonPending_chain (q : RxQueue) : q.abandonPending.chain = q.chain := by
  unfold RxQueue.abandonPending
  split <;> rfl

theorem bindPending_chain (q : RxQueue) (reqId : Nat) :
    (q.bindPending reqId).chain = q.chain := by
  unfold RxQueue.bindPending
  cases q.bounce with
  | none => rfl
  | some pool =>
    simp only
    split <;> rfl

variable {cdesc : RxCdesc} {found : Option RxCdesc} {lost : List RxCdesc} {outputs : List Event}
  {q : RxQueue} {ring : Ring} {ledger : RxLedger} {c : RxChannel}

/-- A refill leaves the partial frame alone. -/
theorem refills_chain {alloc : AllocNetbuf} (keeps : KeepsChain alloc) {refilled total : Nat}
    {p last : RxPort} {events : List Event} (refills : Refills alloc refilled p total last events)
    (held : p.queue = some q) : ∃ next, last.queue = some next ∧ next.chain = q.chain := by
  induction refills generalizing q with
  | stop p => exact ⟨q, held, rfl⟩
  | @nothing refilled p queue offer =>
    obtain ⟨after, offered, chain⟩ := keeps refilled q
    rw [← held, offer] at offered
    exact ⟨after, offered, chain⟩
  | @refused refilled p queue _ _ _ offer =>
    obtain ⟨after, offered, chain⟩ := keeps refilled q
    rw [← held, offer] at offered
    cases offered
    exact ⟨_, rfl, (abandonPending_chain after).trans chain⟩
  | @post refilled _ p _ queue _ _ _ reqId _ _ offer found small rest ih =>
    obtain ⟨after, offered, chain⟩ := keeps refilled q
    rw [← held, offer] at offered
    cases offered
    obtain ⟨next, found, same⟩ := ih rfl
    exact ⟨next, found, same.trans ((bindPending_chain after reqId).trans chain)⟩

/-- The rule for a refill: it does nothing, or it is a refill of the ring whose
errors may be counted. -/
theorem refill_rule {build : Build} {answers : Nat → Option Netbuf}
    {P : RxChannel → List Event → Prop} (idle : P c [])
    (refills : ∀ count ret p events,
      enaRxRefill c.port count (enaNetbufAllocHelper build answers) = .ok (ret, p, events) →
      P (c.update p) events)
    (counted : ∀ {next events} ret spare, P next events → P (countRefillErr next ret spare) events)
    {counts : Bool} {next : RxChannel} {events : List Event}
    (ran : refill build c answers counts = .ok (next, events)) : P next events := by
  cases build with
  | unikraft =>
    obtain ⟨⟨ret, p, happened⟩, refilled, ran⟩ := bind_ok ran
    cases ran
    exact counted ret 1 (refills _ ret p _ refilled)
  | host =>
    change hostRefill c answers counts = _ at ran
    unfold hostRefill at ran
    split at ran
    · obtain ⟨⟨ret, p, happened⟩, refilled, ran⟩ := bind_ok ran
      have kept := refills _ ret p _ refilled
      cases ran
      cases counts with
      | true => exact counted ret 0 kept
      | false => exact kept
    · cases ran
      exact idle

theorem refill_total (unlocked : c.ring.ringLock = false) (build : Build)
    (answers : Nat → Option Netbuf) (counts : Bool) :
    ∃ next events, refill build c answers counts = .ok (next, events) := by
  cases build with
  | unikraft =>
    obtain ⟨ret, p, events, ran, _⟩ := enaRxRefill_frame c.port
      (if c.ring.sqDepth.val ≤ c.ring.pool.freeReqCount then c.ring.sqDepth.val - 1
        else c.ring.pool.freeReqCount) (enaNetbufAllocHelper .unikraft answers) unlocked
    simp only [refill, enaNetdevRxRefillHelper, ran]
    exact ⟨_, _, rfl⟩
  | host =>
    obtain ⟨ret, p, events, ran, _⟩ := enaRxRefill_frame c.port c.ring.pool.freeReqCount
      (enaNetbufAllocHelper .host answers) unlocked
    simp only [refill, hostRefill, ran]
    split
    · exact ⟨_, _, rfl⟩
    · exact ⟨_, _, rfl⟩

structure Refilled (r : Ring) (chain : List Netbuf) (ledger : RxLedger) (next : RxChannel)
    (events : List Event) : Prop where
  acts : ∃ actions after, Steps (AcceptOnly r.sqDepth.val) ledger actions after ∧
    RxTracks next.ring after ∧ posted events = entered actions
  silent : RxSilent events
  unlocked : next.ring.ringLock = false
  cqDepth : next.ring.cqDepth = r.cqDepth
  cqHead : next.ring.cqHead = r.cqHead
  chain : next.queue.chain = chain

section

variable {c : RxChannel} {ledger : RxLedger} (tracks : RxTracks c.ring ledger)
  (unlocked : c.ring.ringLock = false)
include tracks unlocked

theorem Refilled.refl : Refilled c.ring c.queue.chain ledger c [] :=
  ⟨⟨[], ledger, .nil ledger, tracks, rfl⟩, .nil, unlocked, rfl, rfl, rfl⟩

theorem enaRxRefill_refilled (count : Nat) (build : Build) (answers : Nat → Option Netbuf) :
    ∃ ret p events, enaRxRefill c.port count (enaNetbufAllocHelper build answers) =
        .ok (ret, p, events) ∧
      Refilled c.ring c.queue.chain ledger (c.update p) events := by
  obtain ⟨next, events, ran, posts, silent, free⟩ :=
    enaRxRefill_posts c.port count (enaNetbufAllocHelper build answers) tracks unlocked
  obtain ⟨⟨pool, rxBufs, rxDescs, sqTail, ring⟩, acts, _⟩ := posts ledger tracks
  obtain ⟨ret, ran⟩ : ∃ ret, enaRxRefill c.port count (enaNetbufAllocHelper build answers) =
    .ok (ret, next, events) := ⟨_, ran⟩
  obtain ⟨_, _, _, refills, _⟩ := enaRxRefill_refills ran
  obtain ⟨last, found, same⟩ := refills_chain (enaNetbufAllocHelper_keepsChain build answers) refills rfl
  refine ⟨ret, next, events, ran, acts, silent, free, ?_, ?_, ?_⟩
  · change next.ring.cqDepth = _
    rw [ring]
    rfl
  · change next.ring.cqHead = _
    rw [ring]
    rfl
  · rw [RxChannel.update, found]
    exact same

omit tracks unlocked in
theorem Refilled.countErr {r : Ring} {chain : List Netbuf} {next : RxChannel}
    {events : List Event} (refilled : Refilled r chain ledger next events) (ret : Int)
    (spare : Nat) : Refilled r chain ledger (countRefillErr next ret spare) events := by
  unfold countRefillErr
  split
  · exact ⟨refilled.acts, refilled.silent, refilled.unlocked, refilled.cqDepth, refilled.cqHead,
      refilled.chain⟩
  · exact refilled

theorem refill_refilled (build : Build) (answers : Nat → Option Netbuf) (counts : Bool) :
    ∃ next events, refill build c answers counts = .ok (next, events) ∧
      Refilled c.ring c.queue.chain ledger next events := by
  obtain ⟨next, events, ran⟩ := refill_total unlocked build answers counts
  refine ⟨next, events, ran, refill_rule (.refl tracks unlocked) ?_ (fun ret spare refilled =>
    refilled.countErr ret spare) ran⟩
  intro count ret p events ran
  obtain ⟨_, _, _, same, refilled⟩ := enaRxRefill_refilled tracks unlocked count build answers
  cases ran.symm.trans same
  exact refilled

end

/-! ## A poll for one packet -/

/-- The entries that a poll finds are the next ones of the stream of completions;
each names a request that holds a buffer, and no two name the same request. -/
structure HonestPoll (stream : List RxCdesc) (n : Nat) (r : Ring)
    (entries : Nat → RxCdesc → Prop) : Prop where
  written : ∀ k cdesc, entries k cdesc → stream[n + k]? = some cdesc
  posted : ∀ k cdesc, entries k cdesc → r.pool.reqInFlight cdesc.reqId = true ∧
    (r.rxBufs cdesc.reqId).netbuf.isSome = true
  once : ∀ j k first second, entries j first → entries k second →
    first.reqId = second.reqId → j = k

/-- What a poll for one packet did: it dropped the entries of `lost`, and then
delivered the one of `found`, if any. -/
structure OnePoll (r : Ring) (q : RxQueue) (entries : Nat → RxCdesc → Prop)
    (lost : List RxCdesc) (found : Option RxCdesc) (after : RxQueue) : Prop where
  shown : ∀ k cdesc, (lost ++ found.toList)[k]? = some cdesc → entries k cdesc
  oversize : ∀ cdesc ∈ lost, (r.rxBufs cdesc.reqId).dataLen < cdesc.length
  short : ∀ cdesc ∈ found, cdesc.length ≤ (r.rxBufs cdesc.reqId).dataLen
  chain : after.chain = q.chain
  fit : ∀ cdesc ∈ found, ∀ nb len offset,
    doesNotFit after nb cdesc.reqId len offset = doesNotFit q nb cdesc.reqId len offset

theorem reclaimSlot_chain (q : RxQueue) (reqId : Nat) : (q.reclaimSlot reqId).chain = q.chain := by
  unfold RxQueue.reclaimSlot
  cases q.bounce with
  | none => rfl
  | some pool =>
    simp only
    split
    · rfl
    · split <;> rfl

theorem doesNotFit_reclaimSlot (q : RxQueue) {reqId other : Nat} (differs : other ≠ reqId)
    (nb : Netbuf) (len offset : Nat) :
    doesNotFit (q.reclaimSlot reqId) nb other len offset = doesNotFit q nb other len offset := by
  unfold RxQueue.reclaimSlot
  cases bounce : q.bounce with
  | none => rfl
  | some pool =>
    simp only
    split
    · rfl
    · split
      · rfl
      · simp [doesNotFit, RxQueue.bounceSlot, bounce, BouncePool.unmap, BouncePool.giveBack,
          store_other _ _ differs]

theorem OnePoll.idle (r : Ring) (q : RxQueue) (entries : Nat → RxCdesc → Prop) :
    OnePoll r q entries [] none q where
  shown := by simp
  oversize := by simp
  short := by simp
  chain := rfl
  fit := by simp

section Honest

variable {stream : List RxCdesc} {n : Nat} {r next : Ring} {entries later : Nat → RxCdesc → Prop}
  (here : entries 0 cdesc) (behind : ∀ k other, later k other → entries (k + 1) other)
include here behind

/-- After its first iteration a poll still finds honest entries, and none of them
names the request of the first. -/
theorem HonestPoll.tail (honest : HonestPoll stream n r entries)
    (others : ∀ id, id ≠ cdesc.reqId → next.pool.reqInFlight id = r.pool.reqInFlight id ∧
      next.rxBufs id = r.rxBufs id) :
    HonestPoll stream (n + 1) next later ∧
      ∀ k other, later k other → other.reqId ≠ cdesc.reqId := by
  have differs : ∀ k other, later k other → other.reqId ≠ cdesc.reqId := by
    intro k other shown same
    have first := honest.once (k + 1) 0 other cdesc (behind k other shown) here same
    omega
  refine ⟨⟨?_, ?_, ?_⟩, differs⟩
  · intro k other shown
    rw [Nat.add_right_comm]
    exact honest.written (k + 1) other (behind k other shown)
  · intro k other shown
    obtain ⟨marks, bufs⟩ := others other.reqId (differs k other shown)
    rw [marks, bufs]
    exact honest.posted (k + 1) other (behind k other shown)
  · intro j k first second shownFirst shownSecond same
    have := honest.once (j + 1) (k + 1) first second (behind j first shownFirst)
      (behind k second shownSecond) same
    omega

theorem OnePoll.cons {after : RxQueue}
    (rest : OnePoll next (q.reclaimSlot cdesc.reqId) later lost found after)
    (oversize : (r.rxBufs cdesc.reqId).dataLen < cdesc.length)
    (others : ∀ id, id ≠ cdesc.reqId → next.rxBufs id = r.rxBufs id)
    (differs : ∀ k other, later k other → other.reqId ≠ cdesc.reqId) :
    OnePoll r q entries (cdesc :: lost) found after := by
  have apart : ∀ other ∈ lost ++ found.toList, other.reqId ≠ cdesc.reqId := by
    intro other member
    obtain ⟨k, at_k⟩ := List.mem_iff_getElem?.mp member
    exact differs k other (rest.shown k other at_k)
  have apartFound : ∀ other ∈ found, other.reqId ≠ cdesc.reqId := by
    intro other member
    exact apart other (List.mem_append_right _ (Option.mem_toList.mpr member))
  refine ⟨?_, ?_, ?_, ?_, ?_⟩
  · intro k other at_k
    cases k with
    | zero =>
      cases at_k
      exact here
    | succ k => exact behind k other (rest.shown k other at_k)
  · refine List.forall_mem_cons.mpr ⟨oversize, fun other member => ?_⟩
    have short := rest.oversize other member
    rwa [others _ (apart other (List.mem_append_left _ member))] at short
  · intro other member
    have short := rest.short other member
    rwa [others _ (apartFound other member)] at short
  · exact rest.chain.trans (reclaimSlot_chain q cdesc.reqId)
  · intro other member nb len offset
    rw [rest.fit other member, doesNotFit_reclaimSlot q (apartFound other member)]

end Honest

structure OneOutputs (r : Ring) (outputs : List Event) (lost : List RxCdesc)
    (found : Option RxCdesc) : Prop where
  dropped : droppedEntries outputs = lost
  accepted : acceptedEntries outputs = found.toList
  packets : received outputs =
    found.toList.map fun cdesc => rxPacket (r.rxBufs cdesc.reqId) cdesc
  consumed : Datapath.consumed outputs = lost.length + found.toList.length
  drops : outputs.countP Event.isRxDropped = lost.length

theorem OneOutputs.idle (r : Ring) : OneOutputs r [] [] none := ⟨rfl, rfl, rfl, rfl, rfl⟩

theorem dropEvent_quiet (r : Ring) (id : Nat) (nb : Netbuf) :
    droppedEntries [dropEvent r id nb] = [] ∧ acceptedEntries [dropEvent r id nb] = [] ∧
      received [dropEvent r id nb] = [] ∧
      [dropEvent r id nb].countP Event.isRxDropped = 0 := by
  unfold dropEvent
  split <;> exact ⟨rfl, rfl, rfl, rfl⟩

theorem OneOutputs.cons {r next : Ring} (rest : OneOutputs next outputs lost found)
    (same : ∀ other ∈ found, next.rxBufs other.reqId = r.rxBufs other.reqId) (slot : Nat)
    (nb : Netbuf) :
    OneOutputs r (.rxConsumed slot cdesc .dropped :: [dropEvent ring cdesc.reqId nb] ++ outputs)
      (cdesc :: lost) found := by
  obtain ⟨dropped, accepted, packets, drops⟩ := dropEvent_quiet ring cdesc.reqId nb
  have split : Event.rxConsumed slot cdesc .dropped :: [dropEvent ring cdesc.reqId nb] ++ outputs =
      [.rxConsumed slot cdesc .dropped] ++ ([dropEvent ring cdesc.reqId nb] ++ outputs) := rfl
  rw [split]
  refine ⟨?_, ?_, ?_, ?_, ?_⟩
  · rw [droppedEntries, List.filterMap_append, List.filterMap_append]
    change [cdesc] ++ (droppedEntries _ ++ droppedEntries outputs) = _
    rw [dropped, rest.dropped]
    rfl
  · rw [acceptedEntries, List.filterMap_append, List.filterMap_append]
    change [] ++ (acceptedEntries _ ++ acceptedEntries outputs) = _
    rw [accepted, rest.accepted]
    rfl
  · rw [received, List.filterMap_append, List.filterMap_append]
    change [] ++ (received _ ++ received outputs) = _
    rw [packets, rest.packets, List.nil_append, List.nil_append]
    apply List.map_congr_left
    intro other member
    rw [same other (Option.mem_toList.mp member)]
  · rw [consumed_append, consumed_append, consumed_dropEvent, rest.consumed, List.length_cons]
    change 1 + _ = _
    omega
  · rw [List.countP_append, List.countP_append, drops, rest.drops, List.length_cons]
    change 1 + _ = _
    omega

theorem rxDrop_others {r : Ring} {id : Nat} {nb : Netbuf} (tracks : RxTracks r ledger)
    (active : ledger id = .active nb) :
    ∀ other, other ≠ id →
      (rxDrop r id).1.advanceCq.pool.reqInFlight other = r.pool.reqInFlight other ∧
      (rxDrop r id).1.advanceCq.rxBufs other = r.rxBufs other := by
  rw [rxDrop_held tracks active]
  exact fun other differs => ⟨rfl, store_other _ _ differs⟩

/-- The iterations of a poll for one packet over honest entries. -/
theorem rxIterates_one {p last : RxPort} {views : List RxMem} {count total : Nat}
    (iterates : Iterates rxPollEntry 1 count p views total outputs last) (started : count = 0)
    (queue : p.queue = some q) (tracks : RxTracks p.ring ledger) {stream : List RxCdesc} {n : Nat}
    (honest : HonestPoll stream n p.ring (Finds 1 count p views)) :
    ∃ lost found after, last.queue = some after ∧
      OnePoll p.ring q (Finds 1 count p views) lost found after ∧
      OneOutputs p.ring outputs lost found := by
  induction iterates generalizing q ledger n with
  | stop reason => exact ⟨[], none, q, queue, .idle _ q _, .idle _⟩
  | @step count total added state next last view views outputs rest more read later ih =>
    have here := Finds.head more read views
    have behind : ∀ k other, Finds 1 (count + added) next views k other →
        Finds 1 count state (view :: views) (k + 1) other :=
      fun k other found => found.tail more read
    obtain ⟨marked, filled⟩ := honest.posted 0 _ here
    obtain ⟨nb, stored⟩ := Option.isSome_iff_exists.mp filled
    have active := tracks.active_of_netbuf stored
    obtain ⟨_, ⟨_, between, _, tracked, _⟩, _⟩ := rxPollEntry_reaps read tracks ledger tracks
    obtain ⟨_, _, entry⟩ := rxPollEntry_cases read
    cases entry with
    | skipped idle =>
      rw [marked] at idle
      cases idle
    | dropped inFlight oversize =>
      have others := rxDrop_others tracks active
      obtain ⟨honestNext, differs⟩ := honest.tail here behind others
      obtain ⟨lost, found, after, ended, polled, output⟩ := ih started
        (congrArg (Option.map (RxQueue.reclaimSlot · _)) queue) tracked honestNext
      refine ⟨_ :: lost, found, after, ended, polled.cons here behind oversize
        (fun id apart => (others id apart).2) differs, ?_⟩
      rw [rxDrop_held tracks active]
      apply output.cons _ _ nb
      intro other member
      obtain ⟨k, at_k⟩ := List.mem_iff_getElem?.mp
        (List.mem_append_right lost (Option.mem_toList.mpr member))
      exact (others _ (differs k other (polled.shown k other at_k))).2
    | delivered inFlight fits =>
      -- the budget of one packet is spent
      cases later with
      | step more _ _ => omega
      | stop reason =>
        refine ⟨[], some (view state.ring.cqSlot), q, queue, ⟨?_, ?_, ?_, rfl, ?_⟩,
          rfl, rfl, rfl, rfl, rfl⟩
        · intro k cdesc at_k
          cases k with
          | zero =>
            cases at_k
            exact here
          | succ k => cases at_k
        · simp
        · intro cdesc same
          cases same
          exact fits
        · intros
          rfl

theorem OneOutputs.report {r : Ring} (output : OneOutputs r outputs lost found) (rcvd : Nat) :
    OneOutputs r (outputs ++ enaRxReportHead ring rcvd) lost found := by
  have quiet : droppedEntries (enaRxReportHead ring rcvd) = [] ∧
      acceptedEntries (enaRxReportHead ring rcvd) = [] ∧
      (enaRxReportHead ring rcvd).countP Event.isRxDropped = 0 := by
    rcases enaRxReportHead_cases ring rcvd with report | ⟨_, _, report⟩ <;> rw [report] <;>
      exact ⟨rfl, rfl, rfl⟩
  obtain ⟨dropped, accepted, drops⟩ := quiet
  refine ⟨?_, ?_, ?_, ?_, ?_⟩
  · rw [droppedEntries, List.filterMap_append]
    change droppedEntries _ ++ droppedEntries _ = _
    rw [dropped, List.append_nil, output.dropped]
  · rw [acceptedEntries, List.filterMap_append]
    change acceptedEntries _ ++ acceptedEntries _ = _
    rw [accepted, List.append_nil, output.accepted]
  · rw [received, List.filterMap_append]
    change received _ ++ received _ = _
    rw [enaRxReportHead_received, List.append_nil, output.packets]
  · rw [consumed_append, (enaRxReportHead_quiet ring rcvd).2, Nat.add_zero, output.consumed]
  · rw [List.countP_append, drops, Nat.add_zero, output.drops]

/-- A poll for one packet over honest entries. -/
theorem enaRxPoll_one (tracks : RxTracks c.ring ledger) (unlocked : c.ring.ringLock = false)
    {views : List RxMem} {polled : RxPolled} (returned : enaRxPoll c.port 1 views = .ok polled)
    {stream : List RxCdesc} {n : Nat} (honest : HonestPoll stream n c.ring (Shows 1 c.port views)) :
    ∃ lost found,
      OnePoll c.ring c.queue (Shows 1 c.port views) lost found (c.update polled.port).queue ∧
      OneOutputs c.ring polled.events lost found ∧ polled.dropped = lost.length := by
  rcases enaRxPoll_cases unlocked returned with
    ⟨same, silent, dropped, _⟩ | ⟨rcvd, last, outputs, iterates, valid, rfl⟩
  · rw [same, silent, dropped]
    exact ⟨[], none, .idle _ _ _, .idle _, rfl⟩
  obtain ⟨lost, found, after, ended, polled, output⟩ := rxIterates_one iterates rfl
    (show _ = some c.queue from rfl) (show RxTracks _ ledger from tracks)
    (show HonestPoll stream n _ (Finds 1 0 c.port.locked views) from
      ⟨fun k cdesc found => honest.written k cdesc ⟨valid, found⟩,
        fun k cdesc found => honest.posted k cdesc ⟨valid, found⟩,
        fun j k first second here there =>
          honest.once j k first second ⟨valid, here⟩ ⟨valid, there⟩⟩)
  refine ⟨lost, found, ?_, ?_, output.drops⟩
  · change OnePoll c.ring c.queue (Shows 1 c.port views) lost found (last.queue.getD c.queue)
    rw [ended]
    exact ⟨fun k cdesc at_k => ⟨valid, polled.shown k cdesc at_k⟩, polled.oversize, polled.short, polled.chain, polled.fit⟩
  · have whole : OneOutputs c.ring outputs lost found :=
      ⟨output.dropped, output.accepted, output.packets, output.consumed, output.drops⟩
    exact whole.report rcvd

/-! ## The cases of a turn -/

def chainAfter (c : RxChannel) (polled : RxPolled) : List Netbuf :=
  if 0 < polled.dropped then [] else (c.update polled.port).queue.chain

def fates (polled : RxPolled) (kept : Option Netbuf) : List Fragment :=
  (droppedEntries polled.events).map (⟨·, none⟩) ++
    (acceptedEntries polled.events).map (⟨·, kept⟩)

theorem receiveMeta_len (build : Build) (nb : Netbuf) (pkt : RxPkt) :
    (receiveMeta build nb pkt).len = pkt.len ∧ (receiveMeta build nb pkt).addr = nb.addr := by
  unfold receiveMeta
  cases build with
  | unikraft =>
    simp only
    split <;> exact ⟨rfl, rfl⟩
  | host =>
    simp only
    split <;> exact ⟨rfl, rfl⟩

theorem moveData_len (q : RxQueue) (nb : Netbuf) (reqId offset : Nat) :
    (moveData q nb reqId offset).len = nb.len ∧ (moveData q nb reqId offset).addr = nb.addr := by
  unfold moveData
  split
  · exact ⟨rfl, rfl⟩
  · split <;> exact ⟨rfl, rfl⟩

theorem returnSlot_chain (q : RxQueue) (reqId : Nat) :
    (RxQueue.returnSlot q reqId).chain = q.chain := by
  unfold RxQueue.returnSlot
  split <;> rfl

def queueAfter (c : RxChannel) (polled : RxPolled) : RxQueue :=
  { (c.update polled.port).queue with chain := chainAfter c polled }

/-- How a turn goes on after its poll: the channel that it refills, whether it counts
a failure, and what it makes of the refilled channel. -/
inductive TurnForm (build : Build) (c : RxChannel) (input : RxInput) (polled : RxPolled) :
    RxChannel → Bool → (RxChannel → List Event → TurnResult) → Prop
  | empty (freed : List Netbuf) (nothing : received polled.events = []) :
      TurnForm build c input polled ⟨polled.port.ring, queueAfter c polled⟩ true fun next events =>
        ⟨.done (match build with | .unikraft => 0 | .host => polled.ret) none, next,
          polled.events ++ freed.map .unposted ++ events,
          (droppedEntries polled.events).map (⟨·, none⟩)⟩
  | null (freed : List Netbuf) {pkt : RxPkt} {rest : List RxPkt}
      (packet : received polled.events = pkt :: rest) (absent : pkt.netbuf = none) :
      TurnForm build c input polled ⟨polled.port.ring, queueAfter c polled⟩ false fun next events =>
        ⟨.done 0 none, next, polled.events ++ freed.map .unposted ++ events, fates polled none⟩
  | unfit (freed : List Netbuf) {pkt : RxPkt} {rest : List RxPkt} {nb : Netbuf}
      (packet : received polled.events = pkt :: rest) (carried : pkt.netbuf = some nb)
      (large : doesNotFit (c.update polled.port).queue nb pkt.reqId pkt.len pkt.offset = true) :
      TurnForm build c input polled
        ⟨{ polled.port.ring with rxDropped := (polled.port.ring.rxDropped + 1) % 2 ^ 64 },
          { RxQueue.returnSlot (queueAfter c polled) pkt.reqId with chain := [] }⟩ true
        fun next events =>
          ⟨.done 0 none, next, polled.events ++ freed.map .unposted ++ events, fates polled none⟩
  | kept (freed : List Netbuf) {pkt : RxPkt} {rest : List RxPkt} {nb filled : Netbuf}
      (packet : received polled.events = pkt :: rest) (carried : pkt.netbuf = some nb)
      (fits : doesNotFit (c.update polled.port).queue nb pkt.reqId pkt.len pkt.offset = false)
      (moved : filled = moveData (c.update polled.port).queue (receiveMeta build nb pkt) pkt.reqId
        pkt.offset) :
      TurnForm build c input polled
        ⟨polled.port.ring, RxQueue.returnSlot (queueAfter c polled) pkt.reqId⟩ true
        fun next events => ⟨(joinChain next filled pkt input.status).1,
          (joinChain next filled pkt input.status).2,
          polled.events ++ freed.map .unposted ++ events, fates polled (some filled)⟩

theorem dropChain_unposted (build : Build) (q : RxQueue) :
    ∃ freed : List Netbuf, (enaNetdevRxqDropChain build q).2 = freed.map .unposted := by
  cases build with
  | unikraft => exact ⟨q.chain, rfl⟩
  | host => exact ⟨[], rfl⟩

theorem dropNetbuf_unposted (build : Build) (nb : Netbuf) :
    ∃ freed : List Netbuf, enaNetdevRxqDropNetbuf build nb = freed.map .unposted := by
  cases build with
  | unikraft => exact ⟨[nb], rfl⟩
  | host => exact ⟨[], rfl⟩

theorem joinChain_ring (c : RxChannel) (nb : Netbuf) (pkt : RxPkt) (mem : RxMem) :
    (joinChain c nb pkt mem).2.ring = c.ring := by
  unfold joinChain
  split
  · split <;> rfl
  · simp only
    split <;> rfl

section Turn

variable {between next : RxChannel} {build : Build} {c : RxChannel} {counts : Bool}
  {events : List Event} {finish : RxChannel → List Event → TurnResult} {input : RxInput}
  {polled : RxPolled}

/-- A turn is its poll, a refill, and what it makes of both. -/
theorem rxTurn_forms (build : Build)
    (ran : enaRxPoll c.port 1 (pollViews c.ring input.changing input.settled) = .ok polled) :
    ∃ between counts finish, TurnForm build c input polled between counts finish ∧
      ∀ next events, refill build between input.answers counts = .ok (next, events) →
        rxTurn build c input = .ok (finish next events) := by
  have cleared : ∃ freed : List Netbuf, (if 0 < polled.dropped then
        enaNetdevRxqDropChain build (c.update polled.port).queue
      else ((c.update polled.port).queue, [])) = (queueAfter c polled, freed.map .unposted) := by
    unfold queueAfter chainAfter
    obtain ⟨freed, same⟩ := dropChain_unposted build (c.update polled.port).queue
    split
    · exact ⟨freed, by rw [← same]; rfl⟩
    · exact ⟨[], rfl⟩
  obtain ⟨freed, cleared⟩ := cleared
  unfold rxTurn
  rw [ran]
  simp only [bind, Except.bind, cleared, show (c.update polled.port).ring = polled.port.ring from rfl]
  cases packets : received polled.events with
  | nil =>
    refine ⟨_, _, _, .empty freed packets, fun next events refilled => ?_⟩
    simp only [refilled]
    rfl
  | cons pkt rest =>
    cases carried : pkt.netbuf with
    | none =>
      refine ⟨_, _, _, .null freed packets carried, fun next events refilled => ?_⟩
      simp only [carried, refilled]
      rfl
    | some nb =>
      have same : doesNotFit (queueAfter c polled) nb pkt.reqId pkt.len pkt.offset =
          doesNotFit (c.update polled.port).queue nb pkt.reqId pkt.len pkt.offset := rfl
      simp only [carried, same]
      cases fits : doesNotFit (c.update polled.port).queue nb pkt.reqId pkt.len pkt.offset with
      | true =>
        obtain ⟨one, dropped⟩ := dropNetbuf_unposted build (receiveMeta build nb pkt)
        obtain ⟨more, chained⟩ :=
          dropChain_unposted build (RxQueue.returnSlot (queueAfter c polled) pkt.reqId)
        refine ⟨_, _, _, .unfit (freed ++ one ++ more) packets carried fits, ?_⟩
        intro next events refilled
        rw [if_pos rfl]
        simp only [enaNetdevRxqDropChain] at chained ⊢
        simp only [refilled, dropped, chained, List.map_append, List.append_assoc]
        rfl
      | false =>
        refine ⟨_, _, _, .kept freed packets carried fits rfl, fun next events refilled => ?_⟩
        rw [if_neg Bool.false_ne_true]
        simp only [refilled]
        rfl

namespace TurnForm

variable (form : TurnForm build c input polled between counts finish)
include form

theorem start : ∃ dropped, between.ring = { polled.port.ring with rxDropped := dropped } := by
  cases form <;> exact ⟨_, rfl⟩

/-- The ring of a turn is the refilled one, and around the refill netbufs are only
freed. -/
theorem result (next : RxChannel) (events : List Event) :
    (finish next events).channel.ring = next.ring ∧ ∃ freed : List Netbuf,
      (finish next events).events = polled.events ++ freed.map .unposted ++ events := by
  cases form with
  | kept freed packet carried fits => exact ⟨joinChain_ring _ _ _ _, freed, rfl⟩
  | _ freed => exact ⟨rfl, freed, rfl⟩

theorem refilled {ledger : RxLedger} (tracks : RxTracks polled.port.ring ledger)
    (unlocked : polled.port.ring.ringLock = false) :
    ∃ next events, refill build between input.answers counts = .ok (next, events) ∧
      Refilled polled.port.ring between.queue.chain ledger next events := by
  obtain ⟨dropped, same⟩ := form.start
  obtain ⟨r, q⟩ := between
  cases same
  obtain ⟨next, events, ran, effect⟩ := refill_refilled
    (c := ⟨{ polled.port.ring with rxDropped := dropped }, q⟩) tracks unlocked build input.answers counts
  exact ⟨next, events, ran, effect.acts, effect.silent, effect.unlocked, effect.cqDepth,
    effect.cqHead, effect.chain⟩

end TurnForm

theorem rxTurn_refilled (build : Build)
    (ran : enaRxPoll c.port 1 (pollViews c.ring input.changing input.settled) = .ok polled)
    {ledger : RxLedger} (tracks : RxTracks polled.port.ring ledger)
    (unlocked : polled.port.ring.ringLock = false) :
    ∃ between counts finish next events, TurnForm build c input polled between counts finish ∧
      Refilled polled.port.ring between.queue.chain ledger next events ∧
      rxTurn build c input = .ok (finish next events) := by
  obtain ⟨between, counts, finish, form, turned⟩ := rxTurn_forms build ran
  obtain ⟨next, events, refilled, effect⟩ := form.refilled tracks unlocked
  exact ⟨between, counts, finish, next, events, form, effect, turned next events refilled⟩

end Turn

end EnaDriver.Netdev
