import EnaDriver.Netdev.ReceiveCalls
import EnaDriver.Support.Segments

/-!
# Reassembly of frames

The device completes the fragments of a frame one after the other, and marks the
first and the last of them.  The abstract reassembly cuts the consumed fragments
after every last one and returns the frames none of whose fragments was dropped.
The turns of the receive path refine it as long as a dropped fragment is the last
of its frame.
-/

namespace EnaDriver.Netdev

open Support.Laps Support.Custody
open Support.Segments
open Datapath

/-! ## Abstract reassembly -/

def Fragment.last (fragment : Fragment) : Bool := fragment.cdesc.last

/-- The chain that a frame is returned as, unless one of its fragments was dropped. -/
def intact (frame : List Fragment) : Option (List Netbuf) :=
  if frame.all fun fragment => fragment.kept.isSome then some (frame.filterMap Fragment.kept)
  else none

/-- A partial chain and the returned chains are those of the fragments so far. -/
structure Joined (fragments : List Fragment) (chain : List Netbuf)
    (returned : List (List Netbuf)) : Prop where
  whole : ∀ fragment ∈ (cut Fragment.last fragments).part, fragment.kept.isSome = true
  chain : chain = (cut Fragment.last fragments).part.filterMap Fragment.kept
  returned : returned = (cut Fragment.last fragments).whole.filterMap intact

namespace Joined

variable {fragments : List Fragment} {chain : List Netbuf} {returned : List (List Netbuf)}

theorem start : Joined [] [] [] := by
  constructor
  · simp [cut]
  · rfl
  · rfl

section

variable (joined : Joined fragments chain returned)
include joined

variable {cdesc : RxCdesc}

theorem drop (last : cdesc.last = true) : Joined (fragments ++ [⟨cdesc, none⟩]) [] returned := by
  have marked : Fragment.last ⟨cdesc, none⟩ = true := last
  have lost : intact ((cut Fragment.last fragments).part ++ [⟨cdesc, none⟩]) = none := by
    simp [intact]
  constructor
  · simp [cut_concat, push, marked]
  · simp [cut_concat, push, marked]
  · simp [cut_concat, push, marked, lost, joined.returned]

theorem drops {lost : List RxCdesc} (last : ∀ cdesc ∈ lost, cdesc.last = true) :
    Joined (fragments ++ lost.map (⟨·, none⟩)) (if 0 < lost.length then [] else chain)
      returned := by
  induction lost generalizing fragments chain with
  | nil => simpa using joined
  | cons cdesc rest ih =>
    have first := joined.drop (last cdesc List.mem_cons_self)
    have others := ih first fun other member => last other (List.mem_cons_of_mem _ member)
    simpa using others

/-- A fragment that is kept and does not end its frame. -/
theorem extend (nb : Netbuf) (last : cdesc.last = false) :
    Joined (fragments ++ [⟨cdesc, some nb⟩]) (chain ++ [nb]) returned := by
  have unmarked : Fragment.last ⟨cdesc, some nb⟩ = false := last
  constructor
  · intro fragment member
    simp only [cut_concat, push, unmarked, Bool.false_eq_true, if_false, List.mem_append,
      List.mem_singleton] at member
    rcases member with earlier | rfl
    · exact joined.whole fragment earlier
    · rfl
  · simp [cut_concat, push, unmarked, joined.chain]
  · simp [cut_concat, push, unmarked, joined.returned]

/-- A fragment that is kept and ends its frame. -/
theorem close (nb : Netbuf) (last : cdesc.last = true) :
    Joined (fragments ++ [⟨cdesc, some nb⟩]) [] (returned ++ [chain ++ [nb]]) := by
  have marked : Fragment.last ⟨cdesc, some nb⟩ = true := last
  have frame : intact ((cut Fragment.last fragments).part ++ [⟨cdesc, some nb⟩]) =
      some (chain ++ [nb]) := by
    have kept := List.all_eq_true.mpr joined.whole
    simp [intact, kept, joined.chain]
  constructor
  · simp [cut_concat, push, marked]
  · simp [cut_concat, push, marked]
  · simp [cut_concat, push, marked, frame, joined.returned]

end

/-- Without a partial chain no frame is open. -/
theorem closed (joined : Joined fragments [] returned) :
    (cut Fragment.last fragments).part = [] := by
  cases shape : (cut Fragment.last fragments).part with
  | nil => rfl
  | cons fragment rest =>
    obtain ⟨nb, kept⟩ := Option.isSome_iff_exists.mp
      (joined.whole fragment (by rw [shape]; exact List.mem_cons_self))
    have chain := joined.chain
    rw [shape, List.filterMap_cons_some kept] at chain
    cases chain

end Joined

/-! ## The frames of the device -/

/-- A frame of the device: the first flag stands exactly on the first completion
and the last flag exactly on the last. -/
structure WellFormed (frame : List RxCdesc) : Prop where
  nonempty : frame ≠ []
  first : ∀ i cdesc, frame[i]? = some cdesc → cdesc.first = decide (i = 0)
  last : ∀ i cdesc, frame[i]? = some cdesc → cdesc.last = decide (i + 1 = frame.length)

theorem WellFormed.isSegment {frame : List RxCdesc} (formed : WellFormed frame) :
    IsSegment RxCdesc.last frame := by
  have split := List.dropLast_append_getLast formed.nonempty
  have size : frame.dropLast.length + 1 = frame.length := by
    have positive := List.length_pos_iff.mpr formed.nonempty
    rw [List.length_dropLast]
    omega
  refine ⟨frame.dropLast, frame.getLast formed.nonempty, split.symm, ?_, ?_⟩
  · intro cdesc member
    obtain ⟨i, found⟩ := List.mem_iff_getElem?.mp member
    obtain ⟨inside, _⟩ := List.getElem?_eq_some_iff.mp found
    have same : frame[i]? = some cdesc := by
      rw [← split, List.getElem?_append_left inside]
      exact found
    rw [formed.last i cdesc same]
    simp only [decide_eq_false_iff_not]
    omega
  · have same : frame[frame.dropLast.length]? = some (frame.getLast formed.nonempty) := by
      rw [List.length_dropLast, ← List.getLast?_eq_getElem?, List.getLast?_eq_some_getLast]
    rw [formed.last _ _ same, size]
    simp

/-- Where the consumed entries leave no frame open, the next entry starts one. -/
theorem first_of_closed {frames : List (List RxCdesc)} (formed : ∀ frame ∈ frames, WellFormed frame)
    {fragments : List Fragment} {returned : List (List Netbuf)}
    (joined : Joined fragments [] returned)
    (follows : fragments.map Fragment.cdesc <+: frames.flatten) {cdesc : RxCdesc}
    (next : frames.flatten[fragments.length]? = some cdesc) : cdesc.first = true := by
  apply next_of_cut_closed (fun frame member => (formed frame member).isSegment) _ follows
  · rw [@cut_map _ _ Fragment.last RxCdesc.last Fragment.cdesc (fun _ => rfl), joined.closed]
    rfl
  · rw [List.length_map]
    exact next
  · intro frame member first head
    rw [List.head?_eq_getElem?] at head
    rw [(formed frame member).first 0 first head]
    rfl

/-! ## Turns -/

def Turn.frame : Turn → Option (List Netbuf)
  | .again => none
  | .done _ frame => frame

/-- A fragment that does not end its frame fits its buffer, in the ring layer and
in the netdev layer. -/
def DropsLast (c : RxChannel) (views : List RxMem) : Prop :=
  ∀ k cdesc, Shows 1 c.port views k cdesc → cdesc.last = false →
    cdesc.length ≤ (c.ring.rxBufs cdesc.reqId).dataLen ∧
    ∀ nb, (c.ring.rxBufs cdesc.reqId).netbuf = some nb →
      doesNotFit c.queue nb cdesc.reqId cdesc.length cdesc.offset = false

variable {found : Option RxCdesc} {input : RxInput} {log : List Event} {next : RxChannel}
  {r : Ring}

/-- Joining a fragment that starts a frame, or continues the open one. -/
theorem joinChain_cases {c : RxChannel} {nb : Netbuf} {pkt : RxPkt} {mem : RxMem} {turn : Turn}
    (joined : joinChain c nb pkt mem = (turn, next))
    (started : c.queue.chain = [] → pkt.first = true) :
    next.ring = c.ring ∧
      ((pkt.last = true ∧ turn.frame = some (c.queue.chain ++ [nb]) ∧ next.queue.chain = []) ∨
        (pkt.last = false ∧ turn.frame = none ∧ next.queue.chain = c.queue.chain ++ [nb])) := by
  unfold joinChain at joined
  cases chain : c.queue.chain with
  | nil =>
    have first := started chain
    rw [chain] at joined
    cases last : pkt.last with
    | true =>
      rw [first, last] at joined
      cases joined
      exact ⟨rfl, Or.inl ⟨rfl, rfl, chain⟩⟩
    | false =>
      rw [first, last] at joined
      cases joined
      exact ⟨rfl, Or.inr ⟨rfl, rfl, rfl⟩⟩
  | cons head rest =>
    rw [chain] at joined
    cases last : pkt.last with
    | true =>
      rw [last] at joined
      cases joined
      exact ⟨rfl, Or.inl ⟨rfl, rfl, rfl⟩⟩
    | false =>
      rw [last] at joined
      cases joined
      exact ⟨rfl, Or.inr ⟨rfl, rfl, rfl⟩⟩

structure NetWorld where
  channel : RxChannel
  fragments : List Fragment
  returned : List (List Netbuf)
  log : List Event

/-- A kept fragment is as long as its completion, and it is a buffer that was
posted under the id of the completion. -/
def Carries (log : List Event) (fragment : Fragment) : Prop :=
  ∀ nb, fragment.kept = some nb → nb.len = fragment.cdesc.length ∧
    ∃ origin, (fragment.cdesc.reqId, origin) ∈ posted log ∧ origin.addr = nb.addr

structure Follows (frames : List (List RxCdesc)) (d : Depth) (world : NetWorld)
    (ledger : RxLedger) : Prop where
  tracks : RxTracks world.channel.ring ledger
  unlocked : world.channel.ring.ringLock = false
  depth : world.channel.ring.cqDepth = d
  located : world.channel.ring.cqHead = Cursor.after d world.fragments.length
  known : ∀ id nb, (ledger id).item? = some nb → (id, nb) ∈ posted world.log
  follows : world.fragments.map Fragment.cdesc <+: frames.flatten
  carried : ∀ fragment ∈ world.fragments, Carries world.log fragment
  joined : Joined world.fragments world.channel.queue.chain world.returned

theorem mem_posted_append {more : List Event} {entry : Nat × Netbuf} (member : entry ∈ posted log) :
    entry ∈ posted (log ++ more) := by
  rw [posted, List.filterMap_append]
  exact List.mem_append_left _ member

theorem Carries.append {fragment : Fragment} (carries : Carries log fragment) (more : List Event) :
    Carries (log ++ more) fragment := by
  intro nb kept
  obtain ⟨len, origin, member, addr⟩ := carries nb kept
  exact ⟨len, origin, mem_posted_append member, addr⟩

section

variable {frames : List (List RxCdesc)} {d : Depth} {world : NetWorld} {ledger : RxLedger}

theorem known_refill {chain : List Netbuf} {events : List Event}
    (known : ∀ id nb, (ledger id).item? = some nb → (id, nb) ∈ posted log)
    (refilled : Refilled r chain ledger next events) :
    ∃ after, RxTracks next.ring after ∧
      ∀ id nb, (after id).item? = some nb → (id, nb) ∈ posted (log ++ events) := by
  obtain ⟨actions, after, steps, tracks, entries⟩ := refilled.acts
  refine ⟨after, tracks, ?_⟩
  intro id nb held
  rcases steps.held_origin id nb held with before | entered
  · exact mem_posted_append (known id nb before)
  · rw [← entries] at entered
    rw [posted, List.filterMap_append]
    exact List.mem_append_right _ entered

/-- A refill adds to what was posted and changes nothing else. -/
theorem Follows.refill (history : Follows frames d world ledger) (build : Build)
    (answers : Nat → Option Netbuf) (counts : Bool) :
    ∃ next events after, Netdev.refill build world.channel answers counts = .ok (next, events) ∧
      Follows frames d { world with channel := next, log := world.log ++ events } after := by
  obtain ⟨next, events, ran, refilled⟩ :=
    refill_refilled history.tracks history.unlocked build answers counts
  obtain ⟨after, tracks, known⟩ := known_refill history.known refilled
  refine ⟨next, events, after, ran, tracks, refilled.unlocked,
    refilled.cqDepth.trans history.depth, refilled.cqHead.trans history.located, known,
    history.follows, fun fragment member => (history.carried fragment member).append events, ?_⟩
  change Joined _ next.queue.chain _
  rw [refilled.chain]
  exact history.joined

/-- The end of a turn: its poll has released requests and moved the consumer
position past the new fragments, and its refill has posted buffers. -/
theorem Follows.advance (history : Follows frames d world ledger) {actions : List RxAction}
    {between : RxLedger} (released : Steps ReleaseOnly ledger actions between)
    {chain : List Netbuf} {early events : List Event}
    (refilled : Refilled r chain between next events) {new : List Fragment}
    (depth : r.cqDepth = d)
    (located : r.cqHead = Cursor.after d (world.fragments.length + new.length))
    (follows : (world.fragments ++ new).map Fragment.cdesc <+: frames.flatten)
    (carried : ∀ fragment ∈ new, Carries world.log fragment) {channel : RxChannel}
    (ring : channel.ring = next.ring) {returned : List (List Netbuf)}
    (joined : Joined (world.fragments ++ new) channel.queue.chain returned) :
    ∃ after, Follows frames d
      ⟨channel, world.fragments ++ new, returned, world.log ++ (early ++ events)⟩ after := by
  have known : ∀ id nb, (between id).item? = some nb → (id, nb) ∈ posted (world.log ++ early) := by
    intro id nb held
    rcases released.release_origin.2 id with same | gone
    · rw [same] at held
      exact mem_posted_append (history.known id nb held)
    · rw [gone] at held
      cases held
  obtain ⟨after, tracks, known⟩ := known_refill known refilled
  rw [← ring] at tracks
  refine ⟨after, tracks, ?_, ?_, ?_, ?_, follows, ?_, joined⟩
  · rw [ring]
    exact refilled.unlocked
  · rw [ring]
    exact refilled.cqDepth.trans depth
  · rw [ring, List.length_append]
    exact refilled.cqHead.trans located
  · rw [← List.append_assoc]
    exact known
  · intro fragment member
    rcases List.mem_append.mp member with before | now
    · exact (history.carried fragment before).append _
    · exact (carried fragment now).append _

/-- Only last fragments are dropped in the ring layer. -/
theorem DropsLast.lost {c : RxChannel} {q : RxQueue} {views : List RxMem} {lost : List RxCdesc}
    (drops : DropsLast c views)
    (one : OnePoll c.ring c.queue (Shows 1 c.port views) lost found q) :
    ∀ cdesc ∈ lost, cdesc.last = true := by
  intro cdesc member
  obtain ⟨k, at_k⟩ := List.mem_iff_getElem?.mp (List.mem_append_left found.toList member)
  by_contra inner
  have short := (drops k cdesc (one.shown k cdesc at_k) (Bool.not_eq_true _ ▸ inner)).1
  exact absurd (one.oversize cdesc member) (Nat.not_lt_of_le short)

theorem OneOutputs.packet {outputs : List Event} {lost : List RxCdesc}
    (output : OneOutputs r outputs lost found) {pkt : RxPkt} {rest : List RxPkt}
    (packets : received outputs = pkt :: rest) :
    ∃ cdesc, found = some cdesc ∧ pkt = rxPacket (r.rxBufs cdesc.reqId) cdesc := by
  have same := output.packets
  rw [packets] at same
  cases found with
  | none => cases same
  | some cdesc =>
    cases same
    exact ⟨cdesc, rfl, rfl⟩

/-- The state of a turn after its poll, which dropped the entries of `lost` and
delivered the one of `found`. -/
structure PolledTurn (frames : List (List RxCdesc)) (d : Depth) (world : NetWorld)
    (ledger : RxLedger) (views : List RxMem) (polled : RxPolled) (between : RxLedger)
    (lost : List RxCdesc) (found : Option RxCdesc) : Prop where
  released : ∃ actions, Steps ReleaseOnly ledger actions between
  one : OnePoll world.channel.ring world.channel.queue (Shows 1 world.channel.port views) lost
    found (world.channel.update polled.port).queue
  output : OneOutputs world.channel.ring polled.events lost found
  depth : polled.port.ring.cqDepth = d
  head : polled.port.ring.cqHead =
    Cursor.after d (world.fragments.length + (lost.length + found.toList.length))
  follows : world.fragments.map Fragment.cdesc ++ (lost ++ found.toList) <+: frames.flatten
  joined : Joined (world.fragments ++ lost.map (⟨·, none⟩)) (chainAfter world.channel polled)
    world.returned

/-- The poll of a turn over honest entries, of which only last fragments are dropped. -/
theorem Follows.poll (history : Follows frames d world ledger)
    (honest : HonestPoll frames.flatten world.fragments.length world.channel.ring
      (Shows 1 world.channel.port
        (pollViews world.channel.ring input.changing input.settled)))
    (drops : DropsLast world.channel
      (pollViews world.channel.ring input.changing input.settled)) :
    ∃ polled between lost found,
      enaRxPoll world.channel.port 1
        (pollViews world.channel.ring input.changing input.settled) = .ok polled ∧
      RxTracks polled.port.ring between ∧ polled.port.ring.ringLock = false ∧
      PolledTurn frames d world ledger (pollViews world.channel.ring input.changing input.settled)
        polled between lost found := by
  have located := history.located
  rw [← history.depth] at located
  obtain ⟨polled, ran⟩ :=
    enaRxPoll_total (p := world.channel.port) 1 input.changing input.settled history.tracks
      history.unlocked located
  obtain ⟨reaps, free⟩ := enaRxPoll_reaps (p := world.channel.port) history.tracks
    history.unlocked ran
  obtain ⟨frame, ⟨actions, between, released, tracked, _⟩, moved⟩ := reaps ledger history.tracks
  obtain ⟨lost, found, one, output, dropped⟩ :=
    enaRxPoll_one history.tracks history.unlocked ran honest
  refine ⟨polled, between, lost, found, ran, tracked, free, ⟨actions, released⟩, one, output,
    frame.depths.2.1.trans history.depth, ?_, ?_, ?_⟩
  · rw [← output.consumed, ← history.depth]
    exact moved _ located
  · apply follows_append history.follows
    intro k cdesc at_k
    rw [List.length_map]
    exact honest.written k cdesc (one.shown k cdesc at_k)
  · have chain : chainAfter world.channel polled =
        if 0 < lost.length then [] else world.channel.queue.chain := by
      rw [chainAfter, dropped, one.chain]
    rw [chain]
    exact history.joined.drops (drops.lost one)

section Settle

variable {views : List RxMem} {polled : RxPolled} {between : RxLedger} {lost : List RxCdesc}
  {cdesc : RxCdesc}

section

variable (mid : PolledTurn frames d world ledger views polled between lost found)
include mid

theorem PolledTurn.fates (kept : Option Netbuf) :
    Netdev.fates polled kept = lost.map (⟨·, none⟩) ++ found.toList.map (⟨·, kept⟩) := by
  rw [Netdev.fates, mid.output.dropped, mid.output.accepted]

omit mid in
/-- The fragments after a poll that delivered one entry. -/
theorem PolledTurn.split
    (mid : PolledTurn frames d world ledger views polled between lost (some cdesc))
    (kept : Option Netbuf) :
    world.fragments ++ Netdev.fates polled kept =
      (world.fragments ++ lost.map (⟨·, none⟩)) ++ [⟨cdesc, kept⟩] := by
  rw [mid.fates, List.append_assoc]
  rfl

theorem PolledTurn.follows_fates (kept : Option Netbuf) :
    (world.fragments ++ Netdev.fates polled kept).map Fragment.cdesc <+: frames.flatten := by
  have same : (world.fragments ++ Netdev.fates polled kept).map Fragment.cdesc =
      world.fragments.map Fragment.cdesc ++ (lost ++ found.toList) := by
    rw [mid.fates]
    simp [Function.comp_def]
  rw [same]
  exact mid.follows

theorem PolledTurn.head_fates (kept : Option Netbuf) : polled.port.ring.cqHead =
      Cursor.after d (world.fragments.length + (Netdev.fates polled kept).length) := by
  rw [mid.fates, List.length_append, List.length_map, List.length_map]
  exact mid.head

end

/-- A fragment that was dropped in the netdev layer ends its frame. -/
theorem PolledTurn.unfit_last
    (mid : PolledTurn frames d world ledger views polled between lost (some cdesc))
    (drops : DropsLast world.channel views) {nb : Netbuf}
    (carried : (world.channel.ring.rxBufs cdesc.reqId).netbuf = some nb)
    (large : doesNotFit (world.channel.update polled.port).queue nb cdesc.reqId cdesc.length
      cdesc.offset = true) : cdesc.last = true := by
  have shown := mid.one.shown lost.length cdesc (by simp)
  rw [mid.one.fit cdesc rfl] at large
  by_contra inner
  have fits := (drops _ cdesc shown (Bool.not_eq_true _ ▸ inner)).2 nb carried
  rw [fits] at large
  cases large

theorem PolledTurn.starts (formed : ∀ frame ∈ frames, WellFormed frame)
    (mid : PolledTurn frames d world ledger views polled between lost (some cdesc))
    (nothing : chainAfter world.channel polled = []) : cdesc.first = true := by
  have joined := mid.joined
  rw [nothing] at joined
  have mapped : (world.fragments ++ lost.map (Fragment.mk · none)).map Fragment.cdesc =
      world.fragments.map Fragment.cdesc ++ lost := by
    simp [Function.comp_def]
  obtain ⟨rest, split⟩ := mid.follows
  rw [Option.toList_some, ← List.append_assoc, ← mapped, List.append_assoc] at split
  apply first_of_closed formed joined ⟨_, split⟩
  rw [← split, List.getElem?_append_right (by simp)]
  simp

theorem carries_fates (mid : PolledTurn frames d world ledger views polled between lost
    (some cdesc)) {kept : Option Netbuf} (carries : Carries log ⟨cdesc, kept⟩) :
    ∀ fragment ∈ Netdev.fates polled kept, Carries log fragment := by
  intro fragment member
  rw [mid.fates] at member
  rcases List.mem_append.mp member with dropped | accepted
  · obtain ⟨other, _, rfl⟩ := List.mem_map.mp dropped
    intro nb nothing
    cases nothing
  · rw [Option.toList_some, List.map_singleton, List.mem_singleton] at accepted
    rw [accepted]
    exact carries

theorem PolledTurn.settle (formed : ∀ frame ∈ frames, WellFormed frame)
    (history : Follows frames d world ledger)
    (mid : PolledTurn frames d world ledger views polled between lost found)
    (honest : HonestPoll frames.flatten world.fragments.length world.channel.ring
      (Shows 1 world.channel.port views))
    (drops : DropsLast world.channel views) {start next : RxChannel} {counts : Bool}
    {finish : RxChannel → List Event → TurnResult} {events : List Event}
    (form : TurnForm build world.channel input polled start counts finish)
    (refilled : Refilled polled.port.ring start.queue.chain between next events) :
    (∃ after, Follows frames d ⟨(finish next events).channel,
        world.fragments ++ (finish next events).fragments,
        world.returned ++ (finish next events).turn.frame.toList,
        world.log ++ (finish next events).events⟩ after) ∧
      ((finish next events).turn = .again → (finish next events).fragments ≠ []) := by
  obtain ⟨actions, released⟩ := mid.released
  cases form with
  | empty freed nothing =>
    have packets := mid.output.packets
    rw [nothing] at packets
    cases found with
    | some cdesc => cases packets
    | none =>
      have same : (droppedEntries polled.events).map (Fragment.mk · none) =
          Netdev.fates polled none := by
        rw [mid.fates, mid.output.dropped]
        simp
      refine ⟨?_, fun more => by cases more⟩
      rw [same]
      apply history.advance released refilled mid.depth (mid.head_fates none)
        (mid.follows_fates none) _ rfl
      · have chain : next.queue.chain = chainAfter world.channel polled := refilled.chain
        rw [chain, mid.fates]
        simpa [Turn.frame] using mid.joined
      intro fragment member
      rw [mid.fates] at member
      obtain ⟨cdesc, _, rfl⟩ := List.mem_map.mp (by simpa using member)
      intro nb kept
      cases kept
  | null freed packet absent =>
    obtain ⟨cdesc, rfl, rfl⟩ := mid.output.packet packet
    have filled := (honest.posted _ cdesc (mid.one.shown lost.length cdesc (by simp))).2
    rw [show (world.channel.ring.rxBufs cdesc.reqId).netbuf = none from absent] at filled
    cases filled
  | unfit freed packet carried large =>
    obtain ⟨cdesc, rfl, rfl⟩ := mid.output.packet packet
    have last := mid.unfit_last drops carried large
    refine ⟨?_, fun more => by cases more⟩
    apply history.advance released refilled mid.depth (mid.head_fates none)
      (mid.follows_fates none) (carries_fates mid (by intro nb kept; cases kept)) rfl
    rw [refilled.chain, mid.split]
    simpa [Turn.frame] using mid.joined.drop last
  | @kept freed pkt rest nb filled packet carried fits moved =>
      obtain ⟨lenMoved, addrMoved⟩ := moveData_len (world.channel.update polled.port).queue
        (receiveMeta build nb pkt) pkt.reqId pkt.offset
      obtain ⟨len, addr⟩ := receiveMeta_len build nb pkt
      rw [← moved] at lenMoved addrMoved
      have chain : next.queue.chain = chainAfter world.channel polled :=
        refilled.chain.trans (returnSlot_chain _ _)
      have joins := joinChain_cases (Prod.eta (joinChain next filled pkt input.status)).symm
      obtain ⟨cdesc, rfl, rfl⟩ := mid.output.packet packet
      have origin : (cdesc.reqId, nb) ∈ posted world.log := by
        apply history.known
        rw [history.tracks.active_of_netbuf carried]
        rfl
      have carries : Carries world.log ⟨cdesc, some filled⟩ := by
        intro other same
        cases same
        exact ⟨lenMoved.trans len, nb, origin, (addrMoved.trans addr).symm⟩
      have started : next.queue.chain = [] → cdesc.first = true := by
        rw [chain]
        exact mid.starts formed
      obtain ⟨ring, shape⟩ := joins started
      refine ⟨?_, fun _ => by simp [mid.fates]⟩
      apply history.advance released refilled mid.depth (mid.head_fates (some filled))
        (mid.follows_fates (some filled)) (carries_fates mid carries) ring
      rw [mid.split]
      rcases shape with ⟨last, frame, left⟩ | ⟨last, frame, left⟩
      · rw [left, frame, chain]
        exact mid.joined.close filled last
      · rw [left, frame, chain, Option.toList_none, List.append_nil]
        exact mid.joined.extend filled last

end Settle

/-- One turn over honest entries, of which only last fragments are dropped. -/
theorem Follows.turn (formed : ∀ frame ∈ frames, WellFormed frame)
    (history : Follows frames d world ledger) (build : Build)
    (honest : HonestPoll frames.flatten world.fragments.length world.channel.ring
      (Shows 1 world.channel.port
        (pollViews world.channel.ring input.changing input.settled)))
    (drops : DropsLast world.channel
      (pollViews world.channel.ring input.changing input.settled)) :
    ∃ result, rxTurn build world.channel input = .ok result ∧
      (∃ after, Follows frames d ⟨result.channel, world.fragments ++ result.fragments,
        world.returned ++ result.turn.frame.toList, world.log ++ result.events⟩ after) ∧
      (result.turn = .again → result.fragments ≠ []) := by
  obtain ⟨polled, between, lost, found, ran, tracked, free, mid⟩ := history.poll honest drops
  obtain ⟨start, counts, finish, next, events, form, refilled, turned⟩ :=
    rxTurn_refilled build ran tracked free
  exact ⟨_, turned, mid.settle formed history honest drops form refilled⟩

end

end EnaDriver.Netdev
