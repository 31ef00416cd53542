import EnaDriver.Netdev.BouncePools
import EnaDriver.Datapath.Transmit

/-!
# Transmission in the netdev layer

A transmit call reaps completions, takes a bounce slot for a packet in low
memory, queues the packet on the ring and then records the slot under the
request id, or gives it back when the ring refuses the packet.  The Unikraft
build and the host build have one transmit function each; they differ in the
number of completions they reap, in where they find the bus address of a packet
and in what success returns.
-/

namespace EnaDriver.Netdev

open Datapath

structure TxChannel where
  ring : Ring
  queue : TxQueue

def TxChannel.port (c : TxChannel) : TxPort := ⟨c.ring, some c.queue⟩

def TxChannel.update (c : TxChannel) (p : TxPort) : TxChannel := ⟨p.ring, p.queue.getD c.queue⟩

/-- A packet to transmit: its netbuf, the value of `phys_addr` in a netbuf of the
host build, and the bytes at its data pointer. -/
structure TxFrame where
  nb : Netbuf
  physField : Nat
  bytes : List UInt8
  deriving DecidableEq, Repr

def txBounceSize : Nat := 4096

def txBounceStallLimit : Nat := 256

/-! ## Classification -/

def l3ProtoIpv4 : Nat := 8
def l3ProtoIpv6 : Nat := 11
def l4ProtoTcp : Nat := 12
def l4ProtoUdp : Nat := 13

def TxFrame.byte (frame : TxFrame) (i : Nat) : Nat := (frame.bytes[i]?.getD 0).toNat

def TxFrame.half (frame : TxFrame) (i : Nat) : Nat := frame.byte i <<< 8 ||| frame.byte (i + 1)

def l4ProtoIndex (proto : Nat) : Nat :=
  if proto = 6 then l4ProtoTcp else if proto = 17 then l4ProtoUdp else 0

/-- The network and transport protocol indices of a packet, behind at most one
VLAN tag. -/
def protoIndices (frame : TxFrame) : Nat × Nat :=
  let tagged := frame.half 12 = 0x8100 ∧ 18 ≤ frame.nb.len
  let ethertype := if tagged then frame.half 16 else frame.half 12
  let l3Off := if tagged then 18 else 14
  if ethertype = 0x0800 then
    (l3ProtoIpv4, if l3Off + 20 ≤ frame.nb.len then l4ProtoIndex (frame.byte (l3Off + 9)) else 0)
  else if ethertype = 0x86DD then
    (l3ProtoIpv6, if l3Off + 40 ≤ frame.nb.len then l4ProtoIndex (frame.byte (l3Off + 6)) else 0)
  else (0, 0)

/-- Fill in the protocol indices and the offloads that the netbuf asks for. -/
def enaNetdevClassifyTxPkt (frame : TxFrame) (pkt : TxPkt) : TxPkt :=
  if frame.nb.data = 0 ∨ frame.nb.len < 14 then
    { pkt with l3Proto := 0, l4Proto := 0, l3CsumEn := false, l4CsumEn := false }
  else
    let (l3Proto, l4Proto) := protoIndices frame
    let offload := frame.nb.flags.testBit 1
    { pkt with
      l3Proto := l3Proto
      l4Proto := l4Proto
      l3CsumEn := offload && decide (l3Proto = l3ProtoIpv4)
      l4CsumEn := offload && (decide (l4Proto = l4ProtoTcp) || decide (l4Proto = l4ProtoUdp))
      tsoEn := frame.nb.flags.testBit 2 }

/-! ## The parts of a transmit call -/

/-- Queue one packet on a ring and ring its doorbell, through the push buffer of
the device if the ring has one. -/
def enaNetdevTxXmitOne (r : Ring) (cpu : Nat) (pkt : TxPkt) (hdrData : Option (List UInt8)) :
    Except Fault TxOutcome :=
  if r.hw.isLlq then
    let maxHdr := if r.hw.llqHeaderLen = 0 then 96 else r.hw.llqHeaderLen
    enaLlqTxPush r cpu pkt hdrData (min pkt.len maxHdr % 2 ^ 16)
  else do
    let out ← enaTxSubmit r cpu pkt
    let bell := if out.ret = 0 then enaTxDoorbell out.ring else []
    return { out with events := out.events ++ bell }

def TxFrame.phys (build : Build) (frame : TxFrame) : Nat :=
  match build with
  | .unikraft => frame.nb.physAddr
  | .host => if frame.physField = 0 then frame.nb.physAddr else frame.physField

/-- Count a transmit attempt that finds no free slot. -/
def noteStall (q : TxQueue) : TxQueue :=
  match q.bounce with
  | none => q
  | some pool =>
    if pool.freeCount = 0 ∧ q.bounceWaitPolls < txBounceStallLimit then
      { q with bounceWaitPolls := q.bounceWaitPolls + 1 }
    else q

def TxQueue.withPool (q : TxQueue) (pool : BouncePool) : TxQueue :=
  { q with bounce := some pool, bounceInUse := decide (pool.freeCount < pool.nbDesc.val) }

/-- Take a bounce slot for a packet in low memory; an error is the value that the
call returns. -/
def xmitReserve (build : Build) (frame : TxFrame) (q : TxQueue) :
    Except Int (Option Nat × TxQueue) :=
  if dmaLowMemLimit ≤ frame.phys build then
    .ok (none, q)
  else match q.bounce with
    | none => .error (-EBUSY)
    | some pool =>
      if pool.freeCount = 0 then
        .error (-EBUSY)
      else if txBounceSize < frame.nb.len then
        .error (-EINVAL)
      else
        let (slot, popped) := BouncePool.pop pool
        .ok (some slot, TxQueue.withPool q popped)

def xmitAddr (build : Build) (frame : TxFrame) (q : TxQueue) : Option Nat → Nat
  | none => frame.phys build
  | some slot => (q.bounce.map BouncePool.phys).getD 0 + slot * txBounceSize

def xmitPkt (build : Build) (frame : TxFrame) (q : TxQueue) (slot : Option Nat) : TxPkt :=
  enaNetdevClassifyTxPkt frame
    ⟨some frame.nb, xmitAddr build frame q slot, frame.nb.len % 2 ^ 32, 0, 0, false, false, false,
      false⟩

/-- The header bytes handed to the ring: those of the slot, which holds a copy of
the packet unless the packet has no data, or those of the packet. -/
def xmitHeader (frame : TxFrame) (stale : List UInt8) : Option Nat → Option (List UInt8)
  | some _ => some (if frame.nb.data = 0 then stale else frame.bytes)
  | none => if frame.nb.data = 0 then none else some frame.bytes

/-- Record the slot of a queued packet, or give it back. -/
def xmitSettle (c : TxChannel) (slot : Option Nat) (out : TxOutcome) : TxChannel :=
  if out.ret = 0 then
    match slot, c.queue.bounce with
    | some slot, some pool =>
      let reqId := out.reqId.getD 0
      { ring := out.ring
        queue := { TxQueue.withPool c.queue (pool.assign reqId (some slot)) with
          bounceReqId := reqId, bounceWaitPolls := 0 } }
    | _, _ => { c with ring := out.ring }
  else
    let ring := { out.ring with txDropped := (out.ring.txDropped + 1) % 2 ^ 64 }
    match slot, c.queue.bounce with
    | some slot, some pool => ⟨ring, TxQueue.withPool c.queue (pool.giveBack slot)⟩
    | _, _ => ⟨ring, c.queue⟩

/-! ## Transmit calls -/

/-- What a transmit call meets: the completion memory of its poll, which changes
finitely often and then stands still, and the old content of its bounce slot. -/
structure TxInput where
  changing : List TxMem
  settled : TxMem
  stale : List UInt8

structure Xmitted where
  ret : Int
  reqId : Option Nat
  slot : Option Nat
  channel : TxChannel
  events : List Event

/-- The number of completions that a transmit call reaps. -/
def xmitBudget : Build → Nat
  | .unikraft => 32
  | .host => 16

/-- What a transmit call returns for a packet that was queued. -/
def xmitSuccess : Build → Int
  | .unikraft => 1
  | .host => 0

def xmit (build : Build) (cpu : Nat) (c : TxChannel) (frame : TxFrame) (input : TxInput) :
    Except Fault Xmitted := do
  let (_, p, reaped) ← enaTxPollCompletions c.port cpu (xmitBudget build)
    (pollViews c.ring input.changing input.settled)
  let c := c.update p
  let c := { c with queue := noteStall c.queue }
  match xmitReserve build frame c.queue with
  | .error ret =>
    return ⟨ret, none, none,
      { c with ring := { c.ring with txDropped := (c.ring.txDropped + 1) % 2 ^ 64 } }, reaped⟩
  | .ok (slot, queue) =>
    let c := { c with queue := queue }
    let out ← enaNetdevTxXmitOne c.ring cpu (xmitPkt build frame queue slot)
      (xmitHeader frame input.stale slot)
    return ⟨if out.ret = 0 then xmitSuccess build else out.ret, out.reqId, slot,
      xmitSettle c slot out, reaped ++ out.events⟩

def enaNetdevTxOne (cpu : Nat) (c : TxChannel) (frame : TxFrame) (input : TxInput) :
    Except Fault Xmitted :=
  xmit .unikraft cpu c frame input

def enaNetdevTxqXmit (running : Bool) (nbTxQueues : Nat) (cpu : Nat) (c : TxChannel)
    (frame : TxFrame) (input : TxInput) : Except Fault Xmitted :=
  if running = false then
    .ok ⟨-EAGAIN, none, none, c, []⟩
  else if nbTxQueues ≤ c.queue.queueId ∨ maxQueues ≤ c.queue.queueId then
    .ok ⟨-EINVAL, none, none, c, []⟩
  else xmit .host cpu c frame input

end EnaDriver.Netdev
