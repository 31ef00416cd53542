import EnaDriver.Datapath.RequestPool

/-!
# Receive path

Posting of receive buffers one by one or in a refill, the doorbell, and the
poll that turns completion entries into packets.  As on the transmit side, a
poll reads the completion queue through one memory view per iteration.  The
console statistics of the poll are not modelled.
-/

namespace EnaDriver.Datapath

open Support.Windows Support.Polling

abbrev RxMem := Nat → RxCdesc

/-! ## Posting -/

def rxSubmitDesc (physAddr bufLen reqId : Nat) (phase : Bool) : RxDesc where
  length := bufLen % 2 ^ 16
  ctrl := (if phase then 0x01 else 0) ||| (0x04 ||| 0x08 ||| 0x10)
  reqId := reqId
  buffAddrLo := physAddr % 2 ^ 32
  buffAddrHi := (physAddr >>> 32) % 2 ^ 16

/-- What posting a buffer returns; `reqId` is the value stored through
`out_req_id`. -/
structure RxOutcome where
  ret : Int
  reqId : Option Nat
  ring : Ring

def RxOutcome.refuse (r : Ring) (error : Int) : RxOutcome := ⟨-error, none, r⟩

def rxTrack (r : Ring) (pool : RequestPool) (reqId : Nat) (nb : Netbuf)
    (physAddr bufLen : Nat) : Ring :=
  { r with
    pool := { pool with reqInFlight := store pool.reqInFlight reqId true }
    rxBufs := store r.rxBufs reqId
      { netbuf := some nb, physAddr := physAddr, dataLen := bufLen, reqId := reqId } }

def enaRxSubmitOne (r : Ring) (netbuf : Option Netbuf) (physAddr bufLen : Nat) :
    Except Fault RxOutcome :=
  match netbuf with
  | none => .ok (.refuse r EINVAL)
  | some nb =>
    if r.ringType ≠ .rx then
      .ok (.refuse r EINVAL)
    else if r.hw.valid = false then
      .ok (.refuse r ENODEV)
    else if bufLen = 0 ∨ 0xFFFF < bufLen then
      .ok (.refuse r EINVAL)
    else do
      let r ← enaRingLock r
      if r.pool.freeReqCount = 0 then
        return .refuse (enaRingUnlock r) EBUSY
      match enaRingReqIdAlloc r.sqDepth r.pool with
      | none => return .refuse (enaRingUnlock r) EBUSY
      | some (reqId, pool) =>
        let r := rxTrack r pool reqId nb physAddr bufLen
        let r := { r with
          rxDescs := store r.rxDescs r.sqSlot (rxSubmitDesc physAddr bufLen reqId r.sqTail.phase) }
        return ⟨0, some reqId, enaRingUnlock r.advanceSq⟩

def enaRxDoorbell (r : Ring) : List Event :=
  match r.hw.sqDb with
  | none => []
  | some offset => if r.hw.valid then [.regWrite32 offset r.sqTail.index] else []

/-! ## Refill -/

/-- The allocation callback of a refill.  It is given the number of its call and
the queue behind `alloc_arg`, and returns a netbuf with its bus address and
length, or nothing. -/
abbrev AllocNetbuf := Nat → Option RxQueue → Option (Netbuf × Nat × Nat) × Option RxQueue

/-- Return the bounce slot that the allocator popped for a buffer that was not
posted. -/
def RxQueue.abandonPending (q : RxQueue) : RxQueue :=
  match q.pendingSlot, q.bounce with
  | some slot, some pool => { q with bounce := some (pool.giveBack slot), pendingSlot := none }
  | _, _ => { q with pendingSlot := none }

def RxQueue.bindPending (q : RxQueue) (reqId : Nat) : RxQueue :=
  match q.bounce with
  | none => q
  | some pool =>
    if pool.nbDesc.val ≤ reqId then q
    else { q with
      bounce := some { pool with map := store pool.map reqId q.pendingSlot }
      pendingSlot := none }

def refillLoop (alloc : AllocNetbuf) :
    Nat → Nat → RxPort → Except Fault (Nat × RxPort × List Event)
  | 0, refilled, p => .ok (refilled, p, [])
  | remaining + 1, refilled, p =>
    if p.ring.pool.freeReqCount = 0 then
      .ok (refilled, p, [])
    else match alloc refilled p.queue with
      | (none, queue) => .ok (refilled, { p with queue := queue }, [])
      | (some (nb, physAddr, bufLen), queue) => do
        let out ← enaRxSubmitOne p.ring (some nb) physAddr bufLen
        match out.reqId with
        | none =>
          return (refilled, ⟨out.ring, queue.map RxQueue.abandonPending⟩, [.unposted nb])
        | some reqId =>
          let (total, last, events) ← refillLoop alloc remaining (refilled + 1)
            ⟨out.ring, queue.map (RxQueue.bindPending · reqId)⟩
          return (total, last, .rxPosted reqId nb :: events)

/-- Post up to `count` buffers, the whole free window for zero, and publish the
producer index in any case. -/
def enaRxRefill (p : RxPort) (count : Nat) (alloc : AllocNetbuf) :
    Except Fault (Int × RxPort × List Event) :=
  if p.ring.ringType ≠ .rx then
    .ok (-EINVAL, p, [])
  else do
    let (refilled, next, events) ←
      refillLoop alloc (if count = 0 then p.ring.pool.freeReqCount else count) 0 p
    return (refilled, next, events ++ enaRxDoorbell next.ring)

/-! ## Poll -/

def rxPacket (buf : RxBuffer) (cdesc : RxCdesc) : RxPkt where
  netbuf := buf.netbuf
  len := cdesc.length
  offset := cdesc.offset
  hash := cdesc.hash
  reqId := cdesc.reqId
  l3CsumErr := cdesc.l3CsumErr
  l4CsumErr := cdesc.l4CsumErr
  l4CsumChecked := cdesc.l4CsumChecked
  frag := cdesc.frag
  first := cdesc.first
  last := cdesc.last

def RxQueue.reclaimSlot (q : RxQueue) (reqId : Nat) : RxQueue :=
  match q.bounce with
  | none => q
  | some pool =>
    if pool.nbDesc.val ≤ reqId then
      q
    else match pool.map reqId with
      | none => q
      | some slot => { q with bounce := some ((pool.unmap reqId).giveBack slot) }

/-- Drop a reception longer than its buffer: release the netbuf and the id.  The
in-flight mark of the id stays set. -/
def rxDrop (r : Ring) (reqId : Nat) : Ring × List Event :=
  let r := { r with rxDropped := (r.rxDropped + 1) % 2 ^ 64 }
  match (r.rxBufs reqId).netbuf with
  | none => ((enaRingReqIdFree r reqId).2, [])
  | some nb =>
    let r := { r with rxBufs := store r.rxBufs reqId { r.rxBufs reqId with netbuf := none } }
    ((enaRingReqIdFree r reqId).2,
      [if r.dropNetbufCb then .dropNetbufCb reqId nb else .ukNetbufFree reqId nb])

def rxDeliver (r : Ring) (cdesc : RxCdesc) : Ring :=
  let r := { r with
    pool := { r.pool with reqInFlight := store r.pool.reqInFlight cdesc.reqId false }
    rxPackets := (r.rxPackets + 1) % 2 ^ 64
    rxBytes := (r.rxBytes + cdesc.length) % 2 ^ 64 }
  (enaRingReqIdFree r cdesc.reqId).2

/-- One iteration of the poll loop: `none` leaves the loop, and otherwise the
number of packets delivered, zero for an entry that is skipped or dropped. -/
def rxPollEntry (p : RxPort) (mem : RxMem) : Option (Nat × RxPort × List Event) :=
  let slot := p.ring.cqSlot
  let cdesc := mem slot
  if cdesc.phase ≠ p.ring.cqHead.phase then
    none
  else if p.ring.sqDepth.val ≤ cdesc.reqId then
    none
  else if p.ring.pool.reqInFlight cdesc.reqId = false then
    some (0, { p with ring := p.ring.advanceCq }, [.rxConsumed slot cdesc .skipped])
  else if (p.ring.rxBufs cdesc.reqId).dataLen < cdesc.length then
    let (r, events) := rxDrop p.ring cdesc.reqId
    some (0,
      { ring := r.advanceCq
        queue := p.queue.map (RxQueue.reclaimSlot · cdesc.reqId) },
      .rxConsumed slot cdesc .dropped :: events)
  else
    some (1, { p with ring := (rxDeliver p.ring cdesc).advanceCq },
      [.rxConsumed slot cdesc .accepted, .rxPkt (rxPacket (p.ring.rxBufs cdesc.reqId) cdesc)])

def enaRxReportHead (r : Ring) (rcvd : Nat) : List Event :=
  match r.hw.cqDb with
  | none => []
  | some offset => if 0 < rcvd then [.regWrite32 offset r.cqHead.index] else []

/-- What a poll returns.  The packets it stored are among the events, and
`dropped` is the value stored through `dropped_count`. -/
structure RxPolled where
  ret : Int
  dropped : Nat
  port : RxPort
  events : List Event

def Event.isRxDropped : Event → Bool
  | .rxConsumed _ _ .dropped => true
  | _ => false

def Event.rxPkt? : Event → Option RxPkt
  | .rxPkt pkt => some pkt
  | _ => none

def received (events : List Event) : List RxPkt := events.filterMap Event.rxPkt?

/-- Receive at most `maxPkts` packets. -/
def enaRxPoll (p : RxPort) (maxPkts : Nat) (views : List RxMem) : Except Fault RxPolled :=
  if p.ring.ringType ≠ .rx ∨ maxPkts = 0 then
    .ok ⟨-EINVAL, 0, p, []⟩
  else if p.ring.hw.valid = false then
    .ok ⟨0, 0, p, []⟩
  else do
    let r ← enaRingLock p.ring
    let (rcvd, p, events) ←
      stillRunning (pollLoop rxPollEntry maxPkts 0 { p with ring := r } views)
    return ⟨rcvd, events.countP Event.isRxDropped, { p with ring := enaRingUnlock p.ring },
      events ++ enaRxReportHead p.ring rcvd⟩

end EnaDriver.Datapath
