import EnaDriver.Netdev.ReceiveSpec
import EnaDriver.Netdev.FrameRuns

/-!
# The two builds receive alike

The receive function of the host build and that of the Unikraft build start with
different refills and refill differently between their turns.  On a completion
queue that stands still and whose fresh entries name distinct requests in flight,
both compute the same walk over these entries, so they return the same frame with
the same status, drop the same netbufs and leave the same partial frame and head.
-/

namespace EnaDriver.Netdev

open Support.Laps Support.Polling
open Support.Custody Support.Batches Support.Runs
open Datapath

/-! ## The fresh entries -/

def freshRun (r : Ring) (mem : RxMem) : List RxCdesc :=
  batch
    (fun position => (mem (position % r.cqDepth.val)).phase == lapPhase r.cqDepth position)
    (fun position => mem (position % r.cqDepth.val)) r.cqHead.index r.cqDepth.val

/-- A batch of fresh entries is pending at its position.  It ends within the lap:
the entry one lap ahead of a fresh one is stale. -/
theorem pending_batch {d : Depth} {mem : RxMem} {left first position : Nat}
    (lap : position + left = first + d.val)
    (matched : position = first ∨ (mem (first % d.val)).phase = lapPhase d first) :
    Pending d mem (Cursor.after d position)
      (batch (fun position => (mem (position % d.val)).phase == lapPhase d position)
        (fun position => mem (position % d.val)) position left) := by
  induction left generalizing position with
  | zero =>
    change (mem (d.slot (Cursor.after d position).index)).phase ≠ lapPhase d position
    have known : (mem (first % d.val)).phase = lapPhase d first := by
      rcases matched with same | known
      · have := d.pos
        omega
      · exact known
    rw [Cursor.slot_after, show position = first + d.val by omega]
    exact @lap_stops d (fun slot => (mem slot).phase) first known
  | succ left ih =>
    cases here : (mem (position % d.val)).phase == lapPhase d position with
    | false =>
      rw [batch_stale here]
      change (mem (d.slot (Cursor.after d position).index)).phase ≠ lapPhase d position
      rw [Cursor.slot_after]
      exact bne_iff_ne.mp (by rw [bne, here]; rfl)
    | true =>
      have phase := beq_iff_eq.mp here
      rw [batch_ready here]
      refine ⟨by rw [Cursor.slot_after], phase, ?_⟩
      rw [Cursor.advance_after]
      apply ih (by omega)
      rcases matched with rfl | known
      · exact Or.inr phase
      · exact Or.inr known

/-- A position as its 16-bit index. -/
theorem cursor_wrap {d : Depth} {head : Cursor} {count : Nat} (located : head = Cursor.after d count) :
    head = Cursor.after d head.index := by
  rw [located, Cursor.after]
  change _ = Cursor.mk (count % 65536 % 65536) (lapPhase d (count % 65536))
  rw [Nat.mod_mod, lapPhase_wrap]

theorem pending_freshRun {r : Ring} {count : Nat} (located : r.cqHead = Cursor.after r.cqDepth count)
    (mem : RxMem) : Pending r.cqDepth mem r.cqHead (freshRun r mem) := by
  have pending := @pending_batch r.cqDepth mem r.cqDepth.val r.cqHead.index r.cqHead.index rfl
    (Or.inl rfl)
  rw [← cursor_wrap located] at pending
  exact pending

/-! ## Receive calls -/

/-- The turns of a call on memory that stands still, each with the answers of its
allocator. -/
def standing (mem : RxMem) (turns : List (Nat → Option Netbuf)) : List RxInput :=
  turns.map fun answers => ⟨[], mem, answers, mem⟩

structure Delivers (c : RxChannel) (delivery : Delivery) (out : Received) : Prop where
  status : out.status = delivery.status
  frame : out.frame.map (List.map sharedPart) = delivery.frame
  fragments : out.fragments.map Fragment.shared = delivery.fragments
  chain : out.channel.queue.chain.map sharedPart = delivery.chain
  cqHead : out.channel.ring.cqHead = c.ring.cqAhead delivery.fragments.length

/-- Either build walks the entries it waits for. -/
theorem recvLoop_delivers (build : Build) {bufs : Nat → RxBuffer} {q : RxQueue} {mem : RxMem}
    (turns : List (Nat → Option Netbuf)) {entries : List RxCdesc} {c : RxChannel}
    (waits : Waits bufs q mem entries c) (enough : entries.length < turns.length) :
    ∃ out, recvLoop build c (standing mem turns) = .ok out ∧
      Delivers c (deliver bufs q (c.queue.chain.map sharedPart) entries) out := by
  induction turns generalizing entries c with
  | nil => cases enough
  | cons answers turns ih =>
    obtain ⟨result, turned, walks⟩ := rxTurn_walks build waits answers
    rw [standing, List.map_cons, recvLoop, turned]
    cases walks with
    | ended walk head =>
      refine ⟨_, rfl, ?_⟩
      rw [walk]
      refine ⟨rfl, rfl, rfl, rfl, ?_⟩
      rw [List.length_map]
      exact head
    | @again rest next events fragments walk head depth fewer later =>
      obtain ⟨out, ran, delivers⟩ := ih later (by rw [List.length_cons] at enough; omega)
      refine ⟨{ out with
        events := events ++ out.events, fragments := fragments ++ out.fragments }, ?_, ?_⟩
      · change (recvLoop build next (standing mem turns) >>= _) = _
        rw [ran]
        rfl
      rw [walk]
      constructor
      · exact delivers.status
      · exact delivers.frame
      · change (fragments ++ out.fragments).map Fragment.shared = _ ++ _
        rw [List.map_append, delivers.fragments]
      · exact delivers.chain
      · change out.channel.ring.cqHead = c.ring.cqAhead (List.length (_ ++ _))
        rw [delivers.cqHead, Ring.cqAhead, Ring.cqAhead, depth, head, Ring.cqAhead,
          ← Function.iterate_add_apply, List.length_append, List.length_map, Nat.add_comm]

def InFlight (r : Ring) (id : Nat) : Prop :=
  r.pool.reqInFlight id = true ∧ r.pool.reqAllocated id = true

/-- The walk of a receive call that starts on a channel.  The queue of a ring
without a device queue is not read. -/
def walkFrom (c : RxChannel) (mem : RxMem) : Delivery :=
  if c.ring.hw.valid then
    deliver c.ring.rxBufs c.queue (c.queue.chain.map sharedPart) (freshRun c.ring mem)
  else ⟨0, none, [], c.queue.chain.map sharedPart⟩

section Call

variable {c : RxChannel} {ledger : RxLedger} {count : Nat} {mem : RxMem}

/-- A refill keeps everything that the walk over the fresh entries reads. -/
theorem Replenished.waits {next : RxChannel} (effect : Replenished c next)
    (located : c.ring.cqHead = Cursor.after c.ring.cqDepth count) (valid : c.ring.hw.valid = true)
    (distinct : ((freshRun c.ring mem).map RxCdesc.reqId).Nodup)
    (inFlight : ∀ entry ∈ freshRun c.ring mem, InFlight c.ring entry.reqId) :
    Waits c.ring.rxBufs c.queue mem (freshRun c.ring mem) next where
  tracks := effect.tracks
  unlocked := effect.unlocked
  valid := by
    rw [effect.head.hw]
    exact valid
  small := by
    rw [effect.head.cqHead, located]
    exact Nat.mod_lt count (by decide)
  pending := by
    rw [effect.head.cqDepth, effect.head.cqHead]
    exact pending_freshRun located mem
  short := by
    rw [effect.head.cqDepth]
    exact batch_length_le _
  distinct := distinct
  owned := by
    intro entry member
    have owned : Owned c.ring entry.reqId := (inFlight entry member).2
    exact (effect.spares.owned entry.reqId owned).trans owned
  slots := fun entry member => effect.spares.slots entry.reqId (inFlight entry member).2
  bounced := fun entry member => effect.spares.bounced entry.reqId (inFlight entry member).2
  depth := effect.spares.depth

/-- A turn on a ring without a device queue refills and finds nothing. -/
theorem rxTurn_invalid (build : Build) (tracks : ∃ ledger, RxTracks c.ring ledger)
    (unlocked : c.ring.ringLock = false) (invalid : c.ring.hw.valid = false)
    (input : RxInput) :
    ∃ next events, rxTurn build c input = .ok ⟨.done 0 none, next, events, []⟩ ∧
      Replenished c next := by
  obtain ⟨next, events, refilled, effect⟩ := refill_replenishes build tracks unlocked
    input.answers true
  obtain ⟨ledger, isRx, _⟩ := tracks
  have polled : enaRxPoll c.port 1 (pollViews c.ring input.changing input.settled) =
      .ok ⟨0, 0, c.port, []⟩ := by
    unfold enaRxPoll
    rw [if_neg (by
      rintro (other | none)
      · exact other isRx
      · cases none), if_pos (show c.port.ring.hw.valid = false from invalid)]
  refine ⟨next, [] ++ [] ++ events, ?_, effect⟩
  unfold rxTurn
  rw [polled]
  change (refill build c input.answers true >>= _) = _
  rw [refilled]
  cases build with
  | unikraft => rfl
  | host => rfl

/-- Either build computes the walk. -/
theorem receive_delivers (build : Build) (tracks : RxTracks c.ring ledger)
    (unlocked : c.ring.ringLock = false)
    (located : c.ring.cqHead = Cursor.after c.ring.cqDepth count)
    (distinct : ((freshRun c.ring mem).map RxCdesc.reqId).Nodup)
    (inFlight : ∀ entry ∈ freshRun c.ring mem, InFlight c.ring entry.reqId)
    (answers : Nat → Option Netbuf) {turns : List (Nat → Option Netbuf)}
    (enough : c.ring.cqDepth.val < turns.length) :
    ∃ next events out, refill build c answers true = .ok (next, events) ∧
      recvLoop build next (standing mem turns) = .ok out ∧ Delivers c (walkFrom c mem) out := by
  obtain ⟨next, events, refilled, effect⟩ :=
    refill_replenishes build ⟨ledger, tracks⟩ unlocked answers true
  cases valid : c.ring.hw.valid with
  | true =>
    have waits := effect.waits located valid distinct inFlight
    have shorter : (freshRun c.ring mem).length ≤ c.ring.cqDepth.val := batch_length_le _
    obtain ⟨out, ran, delivers⟩ := recvLoop_delivers build turns waits (by omega)
    refine ⟨next, events, out, refilled, ran, ?_⟩
    rw [walkFrom, if_pos valid, ← effect.chain]
    refine ⟨delivers.status, delivers.frame, delivers.fragments, delivers.chain, ?_⟩
    rw [delivers.cqHead, Ring.cqAhead, Ring.cqAhead, effect.head.cqDepth, effect.head.cqHead]
  | false =>
    cases turns with
    | nil => cases enough
    | cons first turns =>
      obtain ⟨last, happened, turned, again⟩ := rxTurn_invalid build effect.tracks
        effect.unlocked (by rw [effect.head.hw]; exact valid) ⟨[], mem, first, mem⟩
      refine ⟨next, events, ⟨0, none, last, happened, []⟩, refilled, ?_, ?_⟩
      · change (rxTurn build next ⟨[], mem, first, mem⟩ >>= _) = _
        rw [turned]
        rfl
      · rw [walkFrom, if_neg (by rw [valid]; decide)]
        refine ⟨rfl, rfl, rfl, ?_, again.head.cqHead.trans effect.head.cqHead⟩
        rw [again.chain, effect.chain]

end Call

/-! ## Main result -/

/-- The netbufs that a call on a channel drops: those of its partial frame and of
the requests it completes that it neither returns nor keeps. -/
def Received.droppedNetbufs (c : RxChannel) (out : Received) : List Nat :=
  (c.queue.chain.map Netbuf.addr ++ out.fragments.filterMap fun fragment =>
      (c.ring.rxBufs fragment.cdesc.reqId).netbuf.map Netbuf.addr).diff
    ((out.frame.getD []).map Netbuf.addr ++ out.channel.queue.chain.map Netbuf.addr)

/-- The same outcome of a receive call on a channel, up to the metadata that only
the host build stores: the same frame and status, the same fate of every
completion, the same netbufs dropped, the same partial frame and the same head. -/
structure Alike (c : RxChannel) (first second : Received) : Prop where
  status : first.status = second.status
  frame : first.frame.map (List.map sharedPart) = second.frame.map (List.map sharedPart)
  fragments : first.fragments.map Fragment.shared = second.fragments.map Fragment.shared
  dropped : first.droppedNetbufs c = second.droppedNetbufs c
  chain : first.channel.queue.chain.map sharedPart = second.channel.queue.chain.map sharedPart
  cqHead : first.channel.ring.cqHead = second.channel.ring.cqHead

theorem droppedNetbufs_shared (c : RxChannel) (out : Received) :
    out.droppedNetbufs c =
      (c.queue.chain.map Netbuf.addr ++
        (out.fragments.map Fragment.shared).filterMap fun fragment =>
          (c.ring.rxBufs fragment.cdesc.reqId).netbuf.map Netbuf.addr).diff
        (((out.frame.map (List.map sharedPart)).getD []).map Netbuf.addr ++
          (out.channel.queue.chain.map sharedPart).map Netbuf.addr) := by
  have addresses : ∀ netbufs : List Netbuf,
      (netbufs.map sharedPart).map Netbuf.addr = netbufs.map Netbuf.addr := by
    intro netbufs
    rw [List.map_map]
    rfl
  rw [Received.droppedNetbufs, List.filterMap_map, addresses]
  congr 2
  cases out.frame with
  | none => rfl
  | some frame => exact (addresses frame).symm

/-- Two calls that compute one walk have the same outcome. -/
theorem Delivers.alike {c : RxChannel} {delivery : Delivery} {first second : Received}
    (one : Delivers c delivery first) (other : Delivers c delivery second) :
    Alike c first second where
  status := one.status.trans other.status.symm
  frame := one.frame.trans other.frame.symm
  fragments := one.fragments.trans other.fragments.symm
  dropped := by
    rw [droppedNetbufs_shared, droppedNetbufs_shared, one.fragments, one.frame, one.chain,
      other.fragments, other.frame, other.chain]
  chain := one.chain.trans other.chain.symm
  cqHead := one.cqHead.trans other.cqHead.symm

/-- For every channel between two calls, every completion memory whose fresh
entries name distinct requests in flight, and whatever netbufs the allocators of
the two builds provide: both receive functions return, with the same outcome. -/
theorem builds_receive_alike {c : RxChannel} {ledger : RxLedger} {count : Nat} {mem : RxMem}
    (tracks : RxTracks c.ring ledger) (unlocked : c.ring.ringLock = false)
    (located : c.ring.cqHead = Cursor.after c.ring.cqDepth count) {nbRxQueues : Nat}
    (queue : c.queue.queueId < nbRxQueues) (bound : c.queue.queueId < maxQueues)
    (distinct : ((freshRun c.ring mem).map RxCdesc.reqId).Nodup)
    (inFlight : ∀ entry ∈ freshRun c.ring mem, InFlight c.ring entry.reqId)
    (hostAnswers ukAnswers : Nat → Option Netbuf) {hostTurns ukTurns : List (Nat → Option Netbuf)}
    (hostEnough : c.ring.cqDepth.val < hostTurns.length)
    (ukEnough : c.ring.cqDepth.val < ukTurns.length) :
    ∃ host shipped,
      enaNetdevRxqRecv true nbRxQueues c hostAnswers (standing mem hostTurns) = .ok host ∧
      enaNetdevRxOne c ukAnswers (standing mem ukTurns) = .ok shipped ∧
      Alike c host shipped := by
  obtain ⟨hostNext, hostEvents, host, hostRefilled, hostRan, hostDelivers⟩ :=
    receive_delivers .host tracks unlocked located distinct inFlight hostAnswers hostEnough
  obtain ⟨ukNext, ukEvents, shipped, ukRefilled, ukRan, ukDelivers⟩ :=
    receive_delivers .unikraft tracks unlocked located distinct inFlight ukAnswers ukEnough
  change hostRefill c hostAnswers true = _ at hostRefilled
  change enaNetdevRxRefillHelper c ukAnswers = _ at ukRefilled
  refine ⟨{ host with events := hostEvents ++ host.events },
    { shipped with events := ukEvents ++ shipped.events }, ?_, ?_, ?_⟩
  · rw [enaNetdevRxqRecv, if_neg (by decide), if_neg (by omega)]
    simp only [hostRefilled, hostRan, bind, Except.bind]
    rfl
  · simp only [enaNetdevRxOne, ukRefilled, ukRan, bind, Except.bind]
    rfl
  · have alike := hostDelivers.alike ukDelivers
    exact ⟨alike.status, alike.frame, alike.fragments, alike.dropped, alike.chain, alike.cqHead⟩

theorem smallRefilled_tracks (given : Nat) :
    ∃ ledger, RxTracks (smallRefilled given).ring ledger := by
  have start : ∃ ledger, RxTracks smallStart.channel.ring ledger :=
    ⟨Ledger.empty, rfl, RxCustody.fresh _⟩
  obtain ⟨next, events, refilled, effect⟩ :=
    refill_replenishes .unikraft start rfl (provides given) true
  rw [← smallRefilled_eq refilled]
  exact effect.tracks

/-- A frame of two fragments, and another frame behind it. -/
theorem builds_receive_alike_fragments :
    ∃ host shipped,
      enaNetdevRxqRecv true 1 (smallRefilled 3) (provides 1)
        (standing (completionsAt [headPart, shortTail, thirdFrame])
          (List.replicate 5 (provides 0))) = .ok host ∧
      enaNetdevRxOne (smallRefilled 3) (provides 0)
        (standing (completionsAt [headPart, shortTail, thirdFrame])
          (List.replicate 5 (provides 0))) = .ok shipped ∧
      shipped.frame.map List.length = some 2 ∧ Alike (smallRefilled 3) host shipped := by
  obtain ⟨ledger, tracks⟩ := smallRefilled_tracks 3
  have entries : freshRun (smallRefilled 3).ring
      (completionsAt [headPart, shortTail, thirdFrame]) = [headPart, shortTail, thirdFrame] := by
    decide +kernel
  have depth : (smallRefilled 3).ring.cqDepth.val = 4 := by decide +kernel
  have located : (smallRefilled 3).ring.cqHead =
      Cursor.after (smallRefilled 3).ring.cqDepth 0 := by decide +kernel
  have enough : (smallRefilled 3).ring.cqDepth.val < (List.replicate 5 (provides 0)).length := by
    rw [depth, List.length_replicate]
    decide
  have distinct : ((freshRun (smallRefilled 3).ring
      (completionsAt [headPart, shortTail, thirdFrame])).map RxCdesc.reqId).Nodup := by
    rw [entries]
    decide
  have inFlight : ∀ entry ∈ freshRun (smallRefilled 3).ring
      (completionsAt [headPart, shortTail, thirdFrame]),
      InFlight (smallRefilled 3).ring entry.reqId := by
    rw [entries]
    intro entry member
    have three : entry = headPart ∨ entry = shortTail ∨ entry = thirdFrame := by
      simpa using member
    rcases three with rfl | rfl | rfl <;> constructor <;> decide +kernel
  have queue : (smallRefilled 3).queue.queueId < 1 := by decide +kernel
  obtain ⟨host, shipped, received, ran, alike⟩ := builds_receive_alike tracks (by decide +kernel)
    located queue (by decide +kernel) distinct inFlight (provides 1) (provides 0) enough enough
  exact ⟨host, shipped, received, ran,
    observed_of_ok ran (fun out => out.frame.map List.length) (by decide +kernel), alike⟩

end EnaDriver.Netdev
