import EnaDriver.Support.Windows
import EnaDriver.Support.Polling

/-!
# Ring state

The data model of one IO ring: the descriptors shared with the device, the
request-id pool, the tracking buffers, and the netdev queue that a ring calls
back into.  Pointers into BAR0 and BAR2 are kept as offsets, and a null pointer
is `none`.  The arrays of a ring are the ones its allocation created, so they
are present from the start and hold `sqDepth` cells.
-/

namespace EnaDriver.Datapath

open Support.Laps Support.Windows

/-! ## Error numbers and faults -/

def EIO : Int := 5
def EAGAIN : Int := 11
def ENOMEM : Int := 12
def EBUSY : Int := 16
def ENODEV : Int := 19
def EINVAL : Int := 22
def EOPNOTSUPP : Int := 95
def ETIMEDOUT : Int := 110

/-- Ways in which a call does not return.  A lock that its own call chain
holds spins forever, a loop that outlives its observations is still running,
and an access outside live memory has no defined outcome. -/
inductive Fault where
  | lockHeld
  | unbounded
  | nestedRecovery
  | badAccess
  deriving DecidableEq, Repr

/-- A poll loop that outlives the views it was given is still running. -/
def stillRunning {α : Type} : Option α → Except Fault α
  | none => .error .unbounded
  | some result => .ok result

/-! ## Network buffers -/

/-- `struct uk_netbuf`.  `addr` identifies the buffer object. -/
structure Netbuf where
  addr : Nat
  data : Nat
  len : Nat
  buflen : Nat
  physAddr : Nat
  flags : Nat
  hash : Nat
  l3CsumErr : Bool
  l4CsumErr : Bool
  l4CsumChecked : Bool
  deriving DecidableEq, Repr

/-! ## Descriptors shared with the device -/

/-- `struct ena_eth_io_tx_desc`: four 32-bit words. -/
structure TxDesc where
  lenCtrl : Nat
  metaCtrl : Nat
  buffAddrLo : Nat
  buffAddrHiHdrSz : Nat
  deriving DecidableEq, Repr

structure TxCdesc where
  reqId : Nat
  status : Nat
  flags : Nat
  subQid : Nat
  sqHeadIdx : Nat
  deriving DecidableEq, Repr

def TxCdesc.phase (cdesc : TxCdesc) : Bool := cdesc.flags.testBit 0

structure RxDesc where
  length : Nat
  ctrl : Nat
  reqId : Nat
  buffAddrLo : Nat
  buffAddrHi : Nat
  deriving DecidableEq, Repr

structure RxCdesc where
  status : Nat
  length : Nat
  reqId : Nat
  hash : Nat
  subQid : Nat
  offset : Nat
  deriving DecidableEq, Repr

namespace RxCdesc

def phase (cdesc : RxCdesc) : Bool := cdesc.status.testBit 24

def l3CsumErr (cdesc : RxCdesc) : Bool := cdesc.status.testBit 13

def l4CsumErr (cdesc : RxCdesc) : Bool := cdesc.status.testBit 14

def frag (cdesc : RxCdesc) : Bool := cdesc.status.testBit 15

def l4CsumChecked (cdesc : RxCdesc) : Bool := cdesc.status.testBit 16

def first (cdesc : RxCdesc) : Bool := cdesc.status.testBit 26

def last (cdesc : RxCdesc) : Bool := cdesc.status.testBit 27

end RxCdesc

/-! ## Software tracking -/

structure TxBuffer where
  netbuf : Option Netbuf
  physAddr : Nat
  dataLen : Nat
  numDescs : Nat
  reqId : Nat
  deriving DecidableEq, Repr

structure RxBuffer where
  netbuf : Option Netbuf
  physAddr : Nat
  dataLen : Nat
  reqId : Nat
  deriving DecidableEq, Repr

def TxBuffer.empty : TxBuffer := ⟨none, 0, 0, 0, 0⟩

def RxBuffer.empty : RxBuffer := ⟨none, 0, 0, 0⟩

/-- `struct ena_tx_foreign_free`: a release deferred to its owner core. -/
structure TxForeignFree where
  reqId : Nat
  ownerCpu : Nat
  deriving DecidableEq, Repr

inductive RingType where
  | tx
  | rx
  deriving DecidableEq, Repr

/-- The request-id pool: a circular array of free ids, and the two marks of
each id. -/
structure RequestPool where
  freeReqIds : Nat → Nat
  freeReqHead : Nat
  freeReqTail : Nat
  freeReqCount : Nat
  reqInFlight : Nat → Bool
  reqAllocated : Nat → Bool

/-- What a ring knows of its queues on the device.  `valid` is `hw_valid`; the
doorbell pointers are BAR0 offsets and the push buffer is a BAR2 offset. -/
structure HwQueue where
  valid : Bool
  sqIdx : Nat
  sqDbOffset : Nat
  sqDb : Option Nat
  cqIdx : Nat
  cqDbOffset : Nat
  cqDb : Option Nat
  cqUnmaskDbOffset : Nat
  isLlq : Bool
  pushBufVirt : Option Nat
  pushBufPhys : Nat
  pushBufSize : Nat
  llqHeaderLen : Nat
  llqEntrySize : Nat
  deriving DecidableEq, Repr

def cpuIdNone : Nat := 0xFFFFFFFF

/-- `struct ena_ring`.  `sqTail` carries `sq_tail` and `sq_phase`, `cqHead`
carries `cq_head` and `cq_phase`; the descriptor memory of `sq_virt` is
`txDescs` or `rxDescs` by the direction of the ring. -/
structure Ring where
  qid : Nat
  ringType : RingType
  hw : HwQueue
  sqPhys : Nat
  sqHeadWbPhys : Nat
  sqDepth : Depth
  sqTail : Cursor
  sqHead : Nat
  cqPhys : Nat
  cqDepth : Depth
  cqHead : Cursor
  cqElemSize : Nat
  txDescs : Nat → TxDesc
  rxDescs : Nat → RxDesc
  pool : RequestPool
  ringLock : Bool
  txOwnerCpu : Nat
  txOwnerWarned : Bool
  txForeign : Nat → TxForeignFree
  txForeignCount : Nat
  dropNetbufCb : Bool
  refillNetbuf : Bool
  txBufs : Nat → TxBuffer
  rxBufs : Nat → RxBuffer
  txPackets : Nat
  txBytes : Nat
  rxPackets : Nat
  rxBytes : Nat
  rxDropped : Nat
  txDropped : Nat
  rxRefillErr : Nat

/-! ## Netdev queues -/

/-- The bounce slots of one queue: a circular array of free slots, and the slot
of each request that uses one. -/
structure BouncePool where
  phys : Nat
  nbDesc : Depth
  freeIds : Nat → Nat
  freeHead : Nat
  freeTail : Nat
  freeCount : Nat
  map : Nat → Option Nat

def BouncePool.giveBack (pool : BouncePool) (slot : Nat) : BouncePool :=
  { pool with
    freeIds := store pool.freeIds pool.freeTail slot
    freeTail := pool.nbDesc.slot (pool.freeTail + 1)
    freeCount := pool.freeCount + 1 }

def BouncePool.unmap (pool : BouncePool) (reqId : Nat) : BouncePool :=
  { pool with map := store pool.map reqId none }

structure TxQueue where
  queueId : Nat
  bounce : Option BouncePool
  bounceInUse : Bool
  bounceReqId : Nat
  bounceWaitPolls : Nat

/-- `struct uk_netdev_rx_queue`.  `chain` is the partial frame between
`chain_head` and `chain_tail`. -/
structure RxQueue where
  queueId : Nat
  allocRxpkts : Bool
  bounce : Option BouncePool
  pendingSlot : Option Nat
  chain : List Netbuf

/-- A transmit ring with the queue behind its completion callback; no queue
means that `tx_complete_cb` is null. -/
structure TxPort where
  ring : Ring
  queue : Option TxQueue

/-- A receive ring with the queue behind `drop_netbuf_arg` and `refill_arg`. -/
structure RxPort where
  ring : Ring
  queue : Option RxQueue

structure RxPkt where
  netbuf : Option Netbuf
  len : Nat
  offset : Nat
  hash : Nat
  reqId : Nat
  l3CsumErr : Bool
  l4CsumErr : Bool
  l4CsumChecked : Bool
  frag : Bool
  first : Bool
  last : Bool
  deriving DecidableEq, Repr

/-! ## Observable effects -/

inductive Bar where
  | bar0
  | bar2
  deriving DecidableEq, Repr

/-- What a poll made of a completion entry it consumed: `accepted` names a
request in flight, `skipped` does not, and `dropped` is a reception longer than
its buffer. -/
inductive Verdict where
  | accepted
  | skipped
  | dropped
  deriving DecidableEq, Repr

/-- Effects of a call outside the ring itself, in program order: the completion
entries it consumed, the buffers it posted for reception and the packets it
stored in the array of the caller among them.  `unposted` is the release of a
netbuf that no request holds. -/
inductive Event where
  | txConsumed (slot : Nat) (cdesc : TxCdesc) (verdict : Verdict)
  | rxConsumed (slot : Nat) (cdesc : RxCdesc) (verdict : Verdict)
  | rxPosted (reqId : Nat) (netbuf : Netbuf)
  | rxPkt (pkt : RxPkt)
  | unposted (netbuf : Netbuf)
  | ukNetbufFree (reqId : Nat) (netbuf : Netbuf)
  | dropNetbufCb (reqId : Nat) (netbuf : Netbuf)
  | noRoomToDefer (reqId : Nat)
  | headerCopy (netbuf : Netbuf) (header : List UInt8)
  | regWrite32 (offset value : Nat)
  | llqEntry (offset size : Nat) (desc : TxDesc) (header : List UInt8)
  deriving DecidableEq, Repr

namespace Event

def frees : Event → List (Nat × Netbuf)
  | .ukNetbufFree reqId nb => [(reqId, nb)]
  | .dropNetbufCb reqId nb => [(reqId, nb)]
  | _ => []

def isConsumed : Event → Bool
  | .txConsumed _ _ _ => true
  | .rxConsumed _ _ _ => true
  | _ => false

def isNoRoom : Event → Bool
  | .noRoomToDefer _ => true
  | _ => false

end Event

def freed (events : List Event) : List (Nat × Netbuf) := events.flatMap Event.frees

def consumed (events : List Event) : Nat := events.countP Event.isConsumed

@[simp] theorem freed_nil : freed [] = [] := rfl

@[simp] theorem freed_append (first second : List Event) :
    freed (first ++ second) = freed first ++ freed second := List.flatMap_append

@[simp] theorem consumed_nil : consumed [] = 0 := rfl

@[simp] theorem consumed_append (first second : List Event) :
    consumed (first ++ second) = consumed first + consumed second := List.countP_append

/-! ## The ring lock -/

/-- Take the ring lock.  A held lock is never released by the spinning chain. -/
def enaRingLock (r : Ring) : Except Fault Ring :=
  if r.ringLock then .error .lockHeld else .ok { r with ringLock := true }

def enaRingUnlock (r : Ring) : Ring := { r with ringLock := false }

theorem enaRingLock_free {r : Ring} (free : r.ringLock = false) :
    enaRingLock r = .ok { r with ringLock := true } := by
  simp [enaRingLock, free]

theorem enaRingLock_held {r : Ring} (held : r.ringLock = true) :
    enaRingLock r = .error .lockHeld := by
  simp [enaRingLock, held]

/-! ## Positions -/

def Ring.advanceSq (r : Ring) : Ring := { r with sqTail := r.sqTail.advance r.sqDepth }

def Ring.advanceCq (r : Ring) : Ring := { r with cqHead := r.cqHead.advance r.cqDepth }

def Ring.sqSlot (r : Ring) : Nat := r.sqDepth.slot r.sqTail.index

def Ring.cqSlot (r : Ring) : Nat := r.cqDepth.slot r.cqHead.index

/-- The consumer position after `i` more entries. -/
def Ring.cqAhead (r : Ring) (i : Nat) : Cursor := (Cursor.advance r.cqDepth)^[i] r.cqHead

def pollViews {μ : Type} (r : Ring) (changing : List μ) (settled : μ) : List μ :=
  changing ++ List.replicate (r.cqDepth.val + 1) settled

/-- View `k` of a poll holds this entry `k` positions ahead of the head, in the
phase of its lap. -/
def EntryAhead {ε : Type} (phase : ε → Bool) (r : Ring) (views : List (Nat → ε)) (k : Nat)
    (entry : ε) : Prop :=
  ∃ mem, views[k]? = some mem ∧ mem (r.cqDepth.slot (r.cqAhead k).index) = entry ∧
    phase entry = (r.cqAhead k).phase

theorem EntryAhead.tail {ε : Type} {phase : ε → Bool} {r next : Ring} {mem : Nat → ε}
    {views : List (Nat → ε)} {k : Nat} {entry : ε}
    (ahead : EntryAhead phase next views k entry) (depth : next.cqDepth = r.cqDepth)
    (head : next.cqHead = r.cqHead.advance r.cqDepth) :
    EntryAhead phase r (mem :: views) (k + 1) entry := by
  have position : next.cqAhead k = r.cqAhead (k + 1) := by
    rw [Ring.cqAhead, Ring.cqAhead, depth, head, Function.iterate_succ_apply]
  obtain ⟨view, found, same, fresh⟩ := ahead
  rw [depth, position] at same
  rw [position] at fresh
  exact ⟨view, found, same, fresh⟩

theorem enaRingUnlock_lock {r : Ring} (unlocked : r.ringLock = false) :
    enaRingUnlock { r with ringLock := true } = r := by
  cases r
  cases unlocked
  rfl

end EnaDriver.Datapath
