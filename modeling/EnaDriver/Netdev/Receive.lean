import EnaDriver.Datapath.Receive

/-!
# Reception in the netdev layer

A receive call refills the ring, polls one packet at a time, copies or moves its
data, and joins the fragments of a frame to a chain that it hands to the stack.
The partial frame stays in the queue between calls.  The Unikraft build and the
host build have one receive function each; they differ in how they refill, in
the metadata they store and in what an empty poll returns.
-/

namespace EnaDriver.Netdev

open Datapath

inductive Build where
  | unikraft
  | host
  deriving DecidableEq, Repr

structure RxChannel where
  ring : Ring
  queue : RxQueue

def RxChannel.port (c : RxChannel) : RxPort := ⟨c.ring, some c.queue⟩

def RxChannel.update (c : RxChannel) (p : RxPort) : RxChannel := ⟨p.ring, p.queue.getD c.queue⟩

/-! ## Allocation of receive buffers -/

def rxBufSize : Nat := 2048

def dmaLowMemLimit : Nat := 0x100000

def BouncePool.pop (pool : BouncePool) : Nat × BouncePool :=
  (pool.freeIds pool.freeHead,
    { pool with
      freeHead := pool.nbDesc.slot (pool.freeHead + 1)
      freeCount := pool.freeCount - 1 })

/-- The allocation callback of the receive queues.  `answers` are the netbufs
that the stack or the memory allocator provides, by number of the call; a queue
without `alloc_rxpkts` has no allocator in the host build.  A netbuf in low
memory is received through a bounce slot. -/
def enaNetbufAllocHelper (build : Build) (answers : Nat → Option Netbuf) : AllocNetbuf :=
  fun call queue =>
    let allocates := queue.any RxQueue.allocRxpkts || build == .unikraft
    match if allocates then answers call else none with
    | none => (none, queue)
    | some nb =>
      match queue with
      | some q =>
        match q.bounce with
        | some pool =>
          if nb.physAddr < dmaLowMemLimit then
            if pool.freeCount = 0 then
              (none, queue)
            else
              let (slot, popped) := BouncePool.pop pool
              (some (nb, pool.phys + slot * rxBufSize, min nb.buflen rxBufSize),
                some { q with bounce := some popped, pendingSlot := some slot })
          else (some (nb, nb.physAddr, nb.buflen % 2 ^ 32), queue)
        | none => (some (nb, nb.physAddr, nb.buflen % 2 ^ 32), queue)
      | none => (some (nb, nb.physAddr, nb.buflen % 2 ^ 32), queue)

/-- Count a refill that failed or posted nothing while more than `spare` ids are
free. -/
def countRefillErr (c : RxChannel) (ret : Int) (spare : Nat) : RxChannel :=
  if ret < 0 ∨ (spare < c.ring.pool.freeReqCount ∧ ret = 0) then
    { c with ring := { c.ring with rxRefillErr := (c.ring.rxRefillErr + 1) % 2 ^ 64 } }
  else c

/-- `ena_netdev_rx_refill_helper` of the Unikraft build: leave one descriptor of
an empty ring unused, and publish the producer index in any case. -/
def enaNetdevRxRefillHelper (c : RxChannel) (answers : Nat → Option Netbuf) :
    Except Fault (RxChannel × List Event) := do
  let depth := c.ring.sqDepth.val
  let count := if depth ≤ c.ring.pool.freeReqCount then depth - 1 else c.ring.pool.freeReqCount
  let (ret, p, events) ← enaRxRefill c.port count (enaNetbufAllocHelper .unikraft answers)
  return (countRefillErr (c.update p) ret 1, events)

/-- The refill of the host build: the whole free window, when the queue has an
allocator.  One of its uses does not count errors. -/
def hostRefill (c : RxChannel) (answers : Nat → Option Netbuf) (counts : Bool) :
    Except Fault (RxChannel × List Event) := do
  if 0 < c.ring.pool.freeReqCount ∧ c.queue.allocRxpkts then
    let (ret, p, events) ← enaRxRefill c.port c.ring.pool.freeReqCount
      (enaNetbufAllocHelper .host answers)
    let c := c.update p
    return (if counts then countRefillErr c ret 0 else c, events)
  else
    return (c, [])

def refill (build : Build) (c : RxChannel) (answers : Nat → Option Netbuf) (counts : Bool) :
    Except Fault (RxChannel × List Event) :=
  match build with
  | .unikraft => enaNetdevRxRefillHelper c answers
  | .host => hostRefill c answers counts

/-! ## Fragments -/

def receiveMeta (build : Build) (nb : Netbuf) (pkt : RxPkt) : Netbuf :=
  let nb := match build with
    | .unikraft => { nb with len := pkt.len }
    | .host => { nb with
        len := pkt.len, hash := pkt.hash, l3CsumErr := pkt.l3CsumErr,
        l4CsumErr := pkt.l4CsumErr, l4CsumChecked := pkt.l4CsumChecked }
  if !pkt.l3CsumErr && !pkt.l4CsumErr && pkt.l4CsumChecked then
    { nb with flags := nb.flags ||| 1 }
  else nb

def RxQueue.bounceSlot (q : RxQueue) (reqId : Nat) : Option Nat :=
  q.bounce.bind fun pool => if reqId < pool.nbDesc.val then pool.map reqId else none

/-- A reception does not fit: through a bounce slot, neither the application
buffer nor the slot may be exceeded; at an offset into the buffer itself, the
buffer may not. -/
def doesNotFit (q : RxQueue) (nb : Netbuf) (reqId len offset : Nat) : Bool :=
  match RxQueue.bounceSlot q reqId with
  | some slot =>
    (q.bounce.any fun pool => decide (slot < pool.nbDesc.val)) && decide (nb.data ≠ 0) &&
      !(decide (len ≤ nb.buflen) && decide (offset + len ≤ rxBufSize))
  | none =>
    decide (offset ≠ 0) && decide (nb.data ≠ 0) && !decide (offset + len ≤ nb.buflen)

/-- The data pointer of a kept fragment: past the offset, unless its data was
copied out of a bounce slot. -/
def moveData (q : RxQueue) (nb : Netbuf) (reqId offset : Nat) : Netbuf :=
  match RxQueue.bounceSlot q reqId with
  | some _ => nb
  | none => if offset ≠ 0 ∧ nb.data ≠ 0 then { nb with data := nb.data + offset } else nb

def enaNetdevRxqDropChain (build : Build) (q : RxQueue) : RxQueue × List Event :=
  ({ q with chain := [] },
    match build with
    | .unikraft => q.chain.map .unposted
    | .host => [])

def enaNetdevRxqDropNetbuf (build : Build) (nb : Netbuf) : List Event :=
  match build with
  | .unikraft => [.unposted nb]
  | .host => []

/-! ## One turn of the receive loop -/

/-- What one turn of the loop meets: the completion memory of its poll, which
changes finitely often and then stands still, the netbufs of its refill, and the
completion memory at its status check. -/
structure RxInput where
  changing : List RxMem
  settled : RxMem
  answers : Nat → Option Netbuf
  status : RxMem

/-- How a turn ends: another turn, or the return of the call with a status and
possibly a frame. -/
inductive Turn where
  | again
  | done (status : Int) (frame : Option (List Netbuf))
  deriving DecidableEq, Repr

/-- The fate of one completion: the netbuf that keeps its data, or a drop. -/
structure Fragment where
  cdesc : RxCdesc
  kept : Option Netbuf
  deriving DecidableEq, Repr

def enaNetdevRxStatus (r : Ring) (mem : RxMem) : Int :=
  if (mem r.cqSlot).phase = r.cqHead.phase then 3 else 1

def joinChain (c : RxChannel) (nb : Netbuf) (pkt : RxPkt) (mem : RxMem) : Turn × RxChannel :=
  match c.queue.chain with
  | [] =>
    if pkt.first && !pkt.last then
      (.again, { c with queue := { c.queue with chain := [nb] } })
    else (.done (enaNetdevRxStatus c.ring mem) (some [nb]), c)
  | head :: rest =>
    let chain := head :: rest ++ [nb]
    if pkt.last then
      (.done (enaNetdevRxStatus c.ring mem) (some chain),
        { c with queue := { c.queue with chain := [] } })
    else (.again, { c with queue := { c.queue with chain := chain } })

def droppedEntries (events : List Event) : List RxCdesc :=
  events.filterMap fun
    | .rxConsumed _ cdesc .dropped => some cdesc
    | _ => none

def acceptedEntries (events : List Event) : List RxCdesc :=
  events.filterMap fun
    | .rxConsumed _ cdesc .accepted => some cdesc
    | _ => none

/-- What a turn produces: how it ends, the channel, the effects, and the fate of
each completion it consumed. -/
structure TurnResult where
  turn : Turn
  channel : RxChannel
  events : List Event
  fragments : List Fragment

def RxQueue.returnSlot (q : RxQueue) (reqId : Nat) : RxQueue :=
  match q.bounce, RxQueue.bounceSlot q reqId with
  | some pool, some slot => { q with bounce := some ((pool.unmap reqId).giveBack slot) }
  | _, _ => q

def rxTurn (build : Build) (c : RxChannel) (input : RxInput) : Except Fault TurnResult := do
  let polled ← enaRxPoll c.port 1 (pollViews c.ring input.changing input.settled)
  let lost := (droppedEntries polled.events).map (⟨·, none⟩)
  let c := c.update polled.port
  -- a drop in the ring layer ends the partial frame
  let (q, freed) :=
    if 0 < polled.dropped then enaNetdevRxqDropChain build c.queue else (c.queue, [])
  let c := { c with queue := q }
  let early := polled.events ++ freed
  let entries := acceptedEntries polled.events
  match received polled.events with
  | [] =>
    let (c, events) ← refill build c input.answers true
    let status := match build with
      | .unikraft => 0
      | .host => polled.ret
    return ⟨.done status none, c, early ++ events, lost⟩
  | pkt :: _ =>
    match pkt.netbuf with
    | none =>
      let (c, events) ← refill build c input.answers false
      return ⟨.done 0 none, c, early ++ events, lost ++ entries.map (⟨·, none⟩)⟩
    | some nb =>
      let unfit := doesNotFit c.queue nb pkt.reqId pkt.len pkt.offset
      let filled := receiveMeta build nb pkt
      let kept := moveData c.queue filled pkt.reqId pkt.offset
      let c := { c with queue := RxQueue.returnSlot c.queue pkt.reqId }
      if unfit then
        -- a drop in this layer ends the partial frame too
        let (q, chained) := enaNetdevRxqDropChain build c.queue
        let c : RxChannel :=
          ⟨{ c.ring with rxDropped := (c.ring.rxDropped + 1) % 2 ^ 64 }, q⟩
        let (c, events) ← refill build c input.answers true
        return ⟨.done 0 none, c,
          early ++ enaNetdevRxqDropNetbuf build filled ++ chained ++ events,
          lost ++ entries.map (⟨·, none⟩)⟩
      else
        let (c, events) ← refill build c input.answers true
        let (turn, c) := joinChain c kept pkt input.status
        return ⟨turn, c, early ++ events, lost ++ entries.map (⟨·, some kept⟩)⟩

/-! ## Receive calls -/

structure Received where
  status : Int
  frame : Option (List Netbuf)
  channel : RxChannel
  events : List Event
  fragments : List Fragment

def recvLoop (build : Build) : RxChannel → List RxInput → Except Fault Received
  | _, [] => .error .unbounded
  | c, input :: inputs => do
    let result ← rxTurn build c input
    match result.turn with
    | .done status frame =>
      return ⟨status, frame, result.channel, result.events, result.fragments⟩
    | .again =>
      let rest ← recvLoop build result.channel inputs
      return { rest with
        events := result.events ++ rest.events
        fragments := result.fragments ++ rest.fragments }

/-- `ena_netdev_rx_one`, from its first refill on.  Before that it drains the
AENQ and reaps transmit completions, which are operations of their own. -/
def enaNetdevRxOne (c : RxChannel) (answers : Nat → Option Netbuf) (inputs : List RxInput) :
    Except Fault Received := do
  let (c, events) ← enaNetdevRxRefillHelper c answers
  let result ← recvLoop .unikraft c inputs
  return { result with events := events ++ result.events }

def maxQueues : Nat := 8

/-- `ena_netdev_rxq_recv`, on the queue of the given device.  The AENQ drain that
precedes the reception is an operation of its own. -/
def enaNetdevRxqRecv (running : Bool) (nbRxQueues : Nat) (c : RxChannel)
    (answers : Nat → Option Netbuf) (inputs : List RxInput) : Except Fault Received :=
  if running = false then
    .ok ⟨-EAGAIN, none, c, [], []⟩
  else if nbRxQueues ≤ c.queue.queueId ∨ maxQueues ≤ c.queue.queueId then
    .ok ⟨-EINVAL, none, c, [], []⟩
  else do
    let (c, events) ← hostRefill c answers true
    let result ← recvLoop .host c inputs
    return { result with events := events ++ result.events }

end EnaDriver.Netdev
