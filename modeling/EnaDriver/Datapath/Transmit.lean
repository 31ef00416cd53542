import EnaDriver.Datapath.RequestPool

/-!
# Transmit path

Submission of packets, the doorbell, the low-latency push, and the completion
poll with its deferred releases.  A poll reads the completion queue through a
list of memory views, one per iteration of its loop: the device may write
between two iterations, and each iteration reads every field of its entry once.
-/

namespace EnaDriver.Datapath

open Support.Windows Support.Polling

structure TxPkt where
  netbuf : Option Netbuf
  physAddr : Nat
  len : Nat
  l3Proto : Nat
  l4Proto : Nat
  l3CsumEn : Bool
  l4CsumEn : Bool
  df : Bool
  tsoEn : Bool
  deriving DecidableEq, Repr

abbrev TxMem := Nat → TxCdesc

/-! ## Descriptors -/

/-- Word 0: length, high request-id bits, phase, first, last, completion request. -/
def txLenCtrl (len reqId : Nat) (phase : Bool) : Nat :=
  (len &&& 0x0000FFFF) ||| (((reqId >>> 10) &&& 0x3F) <<< 16)
    ||| (if phase then 0x01000000 else 0)
    ||| (0x04000000 ||| 0x08000000 ||| 0x10000000)

/-- Word 1: low request-id bits, protocol indices and offload flags. -/
def txMetaCtrl (pkt : TxPkt) (reqId : Nat) (tsoEn : Bool) : Nat :=
  ((reqId &&& 0x03FF) <<< 22) ||| (pkt.l3Proto &&& 0x0F) ||| ((pkt.l4Proto &&& 0x1F) <<< 8)
    ||| (if pkt.l3CsumEn then 0x00002000 else 0)
    ||| (if pkt.l4CsumEn then 0x00004000 else 0)
    ||| (if pkt.df then 0x00000010 else 0)
    ||| (if tsoEn then 0x00000080 else 0)

def txSubmitDesc (pkt : TxPkt) (reqId : Nat) (phase : Bool) : TxDesc where
  lenCtrl := txLenCtrl pkt.len reqId phase
  metaCtrl := txMetaCtrl pkt reqId pkt.tsoEn
  buffAddrLo := pkt.physAddr % 2 ^ 32
  buffAddrHiHdrSz := (pkt.physAddr >>> 32) &&& 0xFFFF

/-- The descriptor of a low-latency push: no segmentation flag, and the header
length in the top byte of the last word. -/
def llqDesc (pkt : TxPkt) (reqId : Nat) (phase : Bool) (hdrLen : Nat) : TxDesc where
  lenCtrl := txLenCtrl pkt.len reqId phase
  metaCtrl := txMetaCtrl pkt reqId false
  buffAddrLo := pkt.physAddr % 2 ^ 32
  buffAddrHiHdrSz := ((pkt.physAddr >>> 32) &&& 0xFFFF) ||| ((hdrLen <<< 24) % 2 ^ 32)

/-! ## Submission -/

/-- What a submission returns; `reqId` is the value stored through `out_req_id`. -/
structure TxOutcome where
  ret : Int
  reqId : Option Nat
  ring : Ring
  events : List Event

def TxOutcome.refuse (r : Ring) (error : Int) : TxOutcome := ⟨-error, none, r, []⟩

def txTrack (r : Ring) (pool : RequestPool) (reqId : Nat) (pkt : TxPkt) : Ring :=
  { r with
    pool := { pool with reqInFlight := store pool.reqInFlight reqId true }
    txBufs := store r.txBufs reqId
      { netbuf := pkt.netbuf, physAddr := pkt.physAddr, dataLen := pkt.len,
        numDescs := 1, reqId := reqId } }

def txCount (r : Ring) (pkt : TxPkt) : Ring :=
  { r with
    txPackets := (r.txPackets + 1) % 2 ^ 64
    txBytes := (r.txBytes + pkt.len) % 2 ^ 64 }

def enaTxSubmit (r : Ring) (cpu : Nat) (pkt : TxPkt) : Except Fault TxOutcome :=
  if r.ringType ≠ .tx then
    .ok (.refuse r EINVAL)
  else if r.hw.valid = false then
    .ok (.refuse r ENODEV)
  else if pkt.len = 0 ∨ 0xFFFF < pkt.len then
    .ok (.refuse r EINVAL)
  else do
    let r ← enaRingLock r
    if r.pool.freeReqCount = 0 then
      return .refuse (enaRingUnlock r) EBUSY
    match enaRingReqIdAlloc r.sqDepth r.pool with
    | none => return .refuse (enaRingUnlock r) EBUSY
    | some (reqId, pool) =>
      let r := txTrack r pool reqId pkt
      let r := { r with
        txDescs := store r.txDescs r.sqSlot (txSubmitDesc pkt reqId r.sqTail.phase) }
      let r := txCount r.advanceSq pkt
      -- one owner per ring: every submission overwrites it
      let r := { r with txOwnerCpu := cpu }
      return ⟨0, some reqId, enaRingUnlock r, []⟩

def enaTxDoorbell (r : Ring) : List Event :=
  match r.hw.sqDb with
  | none => []
  | some offset => if r.hw.valid then [.regWrite32 offset r.sqTail.index] else []

/-! ## Low-latency push -/

/-- The entry size of the push buffer, 128 bytes unless negotiated. -/
def HwQueue.entrySize (hw : HwQueue) : Nat := if hw.llqEntrySize = 0 then 128 else hw.llqEntrySize

/-- The inline header capacity, in 32-bit arithmetic. -/
def HwQueue.headerCap (hw : HwQueue) : Nat := (hw.entrySize + 2 ^ 32 - 32) % 2 ^ 32

def pushedHeader (hdrData : Option (List UInt8)) (hdrLen : Nat) : List UInt8 :=
  (hdrData.getD []).take hdrLen

def llqFallsBack (r : Ring) : Bool :=
  !r.hw.isLlq || r.hw.pushBufVirt.isNone ||
    (decide (0 < r.hw.pushBufSize) && decide (r.hw.pushBufSize < r.sqDepth.val * r.hw.entrySize))

def fallbackHeaderCopy (pkt : TxPkt) (hdrData : Option (List UInt8)) (hdrLen : Nat) :
    List Event :=
  match pkt.netbuf with
  | none => []
  | some nb =>
    if hdrData.isSome && decide (0 < hdrLen) && decide (nb.data ≠ 0) then
      [.headerCopy nb (pushedHeader hdrData hdrLen)]
    else []

/-- Queue one packet with its header in the device push buffer.  Unlike
`enaTxSubmit` it looks neither at `hw_valid` nor at the packet length, and it
does not record the submitting CPU. -/
def enaLlqTxPush (r : Ring) (cpu : Nat) (pkt : TxPkt) (hdrData : Option (List UInt8))
    (hdrLen : Nat) : Except Fault TxOutcome :=
  if r.ringType ≠ .tx then
    .ok (.refuse r EINVAL)
  else if r.hw.headerCap < hdrLen then
    .ok (.refuse r EINVAL)
  else if llqFallsBack r then do
    let out ← enaTxSubmit r cpu pkt
    let bell := if out.ret = 0 then enaTxDoorbell out.ring else []
    return { out with events := fallbackHeaderCopy pkt hdrData hdrLen ++ out.events ++ bell }
  else do
    let r ← enaRingLock r
    if r.pool.freeReqCount = 0 then
      return .refuse (enaRingUnlock r) EBUSY
    if 0 < r.hw.pushBufSize ∧ r.hw.pushBufSize < (r.sqSlot + 1) * r.hw.entrySize then
      return .refuse (enaRingUnlock r) EINVAL
    match enaRingReqIdAlloc r.sqDepth r.pool with
    | none => return .refuse (enaRingUnlock r) EBUSY
    | some (reqId, pool) =>
      let r := txTrack r pool reqId pkt
      let entry := Event.llqEntry
        (r.hw.pushBufVirt.getD 0 + r.sqSlot * r.hw.entrySize) (r.hw.entrySize / 8 * 8)
        (llqDesc pkt reqId r.sqTail.phase hdrLen) (pushedHeader hdrData hdrLen)
      let r := txCount r.advanceSq pkt
      return ⟨0, some reqId, enaRingUnlock r, entry :: enaTxDoorbell r⟩

/-! ## Releasing buffers -/

def freedBuffer (reqId : Nat) : Option Netbuf → List Event
  | none => []
  | some nb => [.ukNetbufFree reqId nb]

def txReleaseBuffer (r : Ring) (reqId : Nat) : Ring × List Event :=
  let freed := freedBuffer reqId (r.txBufs reqId).netbuf
  let r := { r with txBufs := store r.txBufs reqId { r.txBufs reqId with netbuf := none } }
  ((enaRingReqIdFree r reqId).2, freed)

def enaTxReportForeignReaper (r : Ring) : Ring :=
  if r.txOwnerCpu = cpuIdNone then r
  else if r.txOwnerWarned then r
  else { r with txOwnerWarned := true }

/-- Queue a completed buffer for its owner core; `false` hands it back to the
caller. -/
def enaTxStageForeignFree (r : Ring) (reqId ownerCpu : Nat) : Bool × Ring × List Event :=
  match (r.txBufs reqId).netbuf with
  | none => (false, r, [])
  | some _ =>
    if r.sqDepth.val ≤ r.txForeignCount then
      (false, { r with txBufs := store r.txBufs reqId { r.txBufs reqId with netbuf := none } },
        [.noRoomToDefer reqId])
    else
      (true, { r with
        txForeign := store r.txForeign r.txForeignCount ⟨reqId, ownerCpu⟩
        txForeignCount := r.txForeignCount + 1 }, [])

/-- Remove a deferred entry: the last one takes its place. -/
def dropForeign (r : Ring) (i : Nat) : Ring :=
  { r with
    txForeignCount := r.txForeignCount - 1
    txForeign := store r.txForeign i (r.txForeign (r.txForeignCount - 1)) }

/-- The loop of the drain from index `i`; every iteration shrinks the distance
from `i` to the count, which bounds the fuel. -/
def drainLoop (cpu : Nat) : Nat → Nat → Ring → Except Fault (Ring × List Event)
  | 0, i, r => if r.txForeignCount ≤ i then .ok (r, []) else .error .unbounded
  | fuel + 1, i, r =>
    if r.txForeignCount ≤ i then
      .ok (r, [])
    else if (r.txForeign i).ownerCpu ≠ cpu then
      drainLoop cpu fuel (i + 1) r
    else do
      let (released, freed) := txReleaseBuffer r (r.txForeign i).reqId
      let (r, events) ← drainLoop cpu fuel i (dropForeign released i)
      return (r, freed ++ events)

def enaTxDrainForeignFrees (r : Ring) (cpu : Nat) : Except Fault (Ring × List Event) :=
  if r.txForeignCount = 0 then .ok (r, []) else drainLoop cpu r.txForeignCount 0 r

/-! ## Completion poll -/

def enaNetdevTxqReclaimSlot (q : TxQueue) (reqId : Nat) : TxQueue :=
  match q.bounce with
  | none => q
  | some pool =>
    if pool.nbDesc.val ≤ reqId then
      q
    else match pool.map reqId with
      | none => q
      | some slot =>
        let pool := (pool.unmap reqId).giveBack slot
        { q with
          bounce := some pool
          bounceWaitPolls := 0
          bounceInUse := decide (pool.freeCount < pool.nbDesc.val) }

/-- Dispose of the buffer of a completed request: hand it to the owner core, or
free it here and release the id. -/
def txDispose (r : Ring) (cpu reqId : Nat) : Ring × List Event :=
  if cpu ≠ r.txOwnerCpu then
    let reported := enaTxReportForeignReaper r
    match enaTxStageForeignFree reported reqId reported.txOwnerCpu with
    | (true, r, events) => (r, events)
    | (false, r, events) =>
      let (r, freed) := txReleaseBuffer r reqId
      (r, events ++ freed)
  else
    txReleaseBuffer r reqId

/-- A completion of an in-flight request, up to the disposal of its buffer. -/
def txAcknowledge (r : Ring) (cdesc : TxCdesc) : Ring :=
  { r with
    pool := { r.pool with reqInFlight := store r.pool.reqInFlight cdesc.reqId false }
    sqHead := r.sqDepth.slot cdesc.sqHeadIdx }

/-- One iteration of the poll loop: `none` leaves the loop, and otherwise the
number of requests cleaned, zero for an entry that names no request in flight. -/
def txPollEntry (cpu : Nat) (p : TxPort) (mem : TxMem) : Option (Nat × TxPort × List Event) :=
  let slot := p.ring.cqSlot
  let cdesc := mem slot
  if cdesc.phase ≠ p.ring.cqHead.phase then
    none
  else if p.ring.sqDepth.val ≤ cdesc.reqId then
    none
  else if p.ring.pool.reqInFlight cdesc.reqId = false then
    some (0, { p with ring := p.ring.advanceCq }, [.txConsumed slot cdesc .skipped])
  else
    let (r, events) := txDispose (txAcknowledge p.ring cdesc) cpu cdesc.reqId
    some (1,
      { ring := r.advanceCq
        queue := p.queue.map (enaNetdevTxqReclaimSlot · cdesc.reqId) },
      .txConsumed slot cdesc .accepted :: events)

/-- Reap completions on the given CPU; a zero budget means the whole queue. -/
def enaTxPollCompletions (p : TxPort) (cpu budget : Nat) (views : List TxMem) :
    Except Fault (Int × TxPort × List Event) :=
  if p.ring.ringType ≠ .tx then
    .ok (-EINVAL, p, [])
  else if p.ring.hw.valid = false then
    .ok (0, p, [])
  else if p.ring.sqDepth.val ≤ p.ring.pool.freeReqCount then
    .ok (0, p, [])
  else do
    let budget := if budget = 0 then p.ring.cqDepth.val else budget
    let r ← enaRingLock p.ring
    let (r, drained) ← enaTxDrainForeignFrees r cpu
    let (cleaned, p, events) ←
      stillRunning (pollLoop (txPollEntry cpu) budget 0 { p with ring := r } views)
    return (cleaned, { p with ring := enaRingUnlock p.ring }, drained ++ events)

end EnaDriver.Datapath
