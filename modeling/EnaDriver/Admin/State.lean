import EnaDriver.Datapath.QueueCreation
import EnaDriver.Datapath.Receive

/-!
# Adapter state

The state of one adapter with the rings attached to it, and the world it runs
in.  A machine keeps a log of everything that passes between the driver and its
surroundings; what the device holds and which DMA memory is live are functions
of that log.  The answers of the surroundings are indexed by the length of the
log at which they are asked for, so an environment is one fixed choice of every
answer that the device and the allocators will ever give.
-/

namespace EnaDriver.Admin

open Support.Laps Support.Programs Datapath

/-! ## The adapter -/

inductive EnaState where
  | uninitialized
  | pciProbed
  | adminReady
  | configured
  | running
  | stopped
  | error
  deriving DecidableEq, Repr

/-- Memory from `ena_dma_alloc`.  The device addresses 48 bits; `id` tells an
allocation from a later one at the same address. -/
structure DmaBuf where
  id : Nat
  phys : BitVec 48
  deriving DecidableEq, Repr

structure AdminQueue where
  buf : DmaBuf
  depth : Depth
  cursor : Cursor
  deriving DecidableEq

/-- The rings that `ena_admin_init` allocates and `ena_admin_fini` releases
together: the request ring, the completion ring and the event ring.  Command ids
have 12 bits. -/
structure AdminQueues where
  aq : AdminQueue
  acq : AdminQueue
  aenq : AdminQueue
  nextCommandId : Nat
  idBound : nextCommandId < 4096
  deriving DecidableEq

/-- The device attributes; the MAC address is kept as its two wire words. -/
structure DeviceAttr where
  implId : Nat
  deviceVersion : Nat
  supportedFeatures : Nat
  attrCaps : Nat
  physAddrWidth : Nat
  virtAddrWidth : Nat
  macLow : Nat
  macHigh : Nat
  maxMtu : Nat
  deriving DecidableEq, Repr

structure QueueLimits where
  maxTxQueues : Nat
  maxRxQueues : Nat
  maxTxRingSize : Nat
  maxRxRingSize : Nat
  maxHeaderSize : Nat
  maxPacketTxDescs : Nat
  maxPacketRxDescs : Nat
  deriving DecidableEq, Repr

structure CtrlBuf where
  buf : DmaBuf
  bytes : List Nat
  deriving DecidableEq, Repr

structure RssInfo where
  supported : Bool
  enabled : Bool
  indTableSize : Nat
  hostIndTable : Option (List Nat)
  indTable : Option CtrlBuf
  hashKey : Option CtrlBuf
  hashCtrl : Option CtrlBuf
  deriving DecidableEq, Repr

structure Settings where
  attr : DeviceAttr
  limits : QueueLimits
  mtu : Nat
  aenqEnabledGroups : Nat
  rss : RssInfo
  deriving DecidableEq, Repr

/-- `struct ena_adapter` without its rings.  `aenqHandler` says whether a handler
is registered; `irqVectors` is the size of the vector table, if there is one. -/
structure Adapter where
  map : DeviceMap
  state : EnaState
  queues : Option AdminQueues
  adminLock : Bool
  recoverActive : Bool
  aenqHandler : Bool
  linkUp : Bool
  aenKeepalives : Nat
  aenRxDrops : Nat
  aenTxDrops : Nat
  settings : Settings
  hostInfo : Option DmaBuf
  numTxRings : Nat
  numRxRings : Nat
  irqVectors : Option Nat
  deriving DecidableEq

def DeviceAttr.zero : DeviceAttr := ⟨0, 0, 0, 0, 0, 0, 0, 0, 0⟩

def QueueLimits.zero : QueueLimits := ⟨0, 0, 0, 0, 0, 0, 0⟩

def LlqInfo.zero : LlqInfo := ⟨false, 0, 0, 0⟩

def RssInfo.zero : RssInfo := ⟨false, false, 0, none, none, none, none⟩

def Settings.zero : Settings := ⟨.zero, .zero, 0, 0, .zero⟩

/-- `ena_device_init_scaffold`: the adapter after the register windows are
mapped. -/
def Adapter.scaffold (map : DeviceMap) : Adapter where
  map := { map with llq := LlqInfo.zero }
  state := .pciProbed
  queues := none
  adminLock := false
  recoverActive := false
  aenqHandler := false
  linkUp := false
  aenKeepalives := 0
  aenRxDrops := 0
  aenTxDrops := 0
  settings := .zero
  hostInfo := none
  numTxRings := 0
  numRxRings := 0
  irqVectors := none

namespace Adapter

def setQueues (a : Adapter) (q : AdminQueues) : Adapter := { a with queues := some q }

def setState (a : Adapter) (state : EnaState) : Adapter := { a with state := state }

def setLock (a : Adapter) (held : Bool) : Adapter := { a with adminLock := held }

theorem setLock_self {a : Adapter} {held : Bool} (already : a.adminLock = held) :
    a.setLock held = a := by
  cases a
  cases already
  rfl

def setRecover (a : Adapter) (active : Bool) : Adapter := { a with recoverActive := active }

def setHandler (a : Adapter) (registered : Bool) : Adapter := { a with aenqHandler := registered }

def updateSettings (a : Adapter) (change : Settings → Settings) : Adapter :=
  { a with settings := change a.settings }

end Adapter

/-! ## The surroundings -/

/-- `struct ena_admin_aq_entry`: the common descriptor and 60 bytes of data. -/
structure AqEntry where
  commandId : Nat
  opcode : Nat
  flags : Nat
  data : List Nat
  deriving DecidableEq, Repr

/-- What the device makes of one admin command: a completion with a status and
a response, one under the id of another command, or none within the poll budget. -/
inductive Answer where
  | completes (status : UInt8) (response : Response)
  | stray
  | silent

/-- A device reset finishes, reports a fatal error, or outlives its poll budget. -/
inductive ResetOutcome where
  | ready
  | fatal
  | stuck
  deriving DecidableEq, Repr

/-- Every answer of the surroundings, by the time at which it is asked for. -/
structure Env where
  answer : Nat → AqEntry → Answer
  dma : Nat → Option (BitVec 48)
  heap : Nat → Option Nat
  reset : Nat → ResetOutcome
  netbufs : Nat → AllocNetbuf

/-- What passes between the driver and its surroundings, in program order.
`ctrl` is the content of the control buffer that a command points to, and
`bases` is the publication of the three admin rings. -/
inductive Effect where
  | command (entry : AqEntry) (ctrl : List Nat) (answer : Answer)
  | reset (outcome : ResetOutcome)
  | bases (aq acq aenq : DmaBuf)
  | regWrite32 (offset value : Nat)
  | dmaAlloc (result : Option DmaBuf)
  | dmaFree (buf : DmaBuf)
  | heapAlloc (result : Option Nat)
  | ring (side : RingType) (qid : Nat) (events : List Event)

inductive NetdevState where
  | unconfigured
  | configured
  | running
  | stopped
  deriving DecidableEq, Repr

/-- `struct uk_netdev`: its state and the numbers of queues it was configured
with. -/
structure Netdev where
  state : NetdevState
  nbRxQueues : Nat
  nbTxQueues : Nat
  deriving DecidableEq, Repr

/-- One adapter with its netdev, its ring arrays and its log.  An empty ring
array is a null one. -/
structure Machine where
  adapter : Adapter
  dev : Netdev
  tx : List (Option TxPort)
  rx : List (Option RxPort)
  log : List Effect

namespace Machine

def logged (m : Machine) (effects : List Effect) : Machine := { m with log := m.log ++ effects }

def withAdapter (m : Machine) (a : Adapter) : Machine := { m with adapter := a }

@[simp] theorem logged_nil (m : Machine) : m.logged [] = m := by simp [logged]

@[simp] theorem logged_logged (m : Machine) (first second : List Effect) :
    (m.logged first).logged second = m.logged (first ++ second) := by simp [logged]

@[simp] theorem logged_adapter (m : Machine) (effects : List Effect) :
    (m.logged effects).adapter = m.adapter := rfl

@[simp] theorem logged_log (m : Machine) (effects : List Effect) :
    (m.logged effects).log = m.log ++ effects := rfl

@[simp] theorem withAdapter_adapter (m : Machine) (a : Adapter) :
    (m.withAdapter a).adapter = a := rfl

@[simp] theorem withAdapter_log (m : Machine) (a : Adapter) : (m.withAdapter a).log = m.log := rfl

@[simp] theorem withAdapter_withAdapter (m : Machine) (a b : Adapter) :
    (m.withAdapter a).withAdapter b = m.withAdapter b := rfl

/-- Both kinds of update commute, with the log outside. -/
@[simp] theorem withAdapter_logged (m : Machine) (a : Adapter) (effects : List Effect) :
    (m.logged effects).withAdapter a = (m.withAdapter a).logged effects := rfl

end Machine

def Machine.probed (map : DeviceMap) : Machine where
  adapter := .scaffold map
  dev := ⟨.unconfigured, 0, 0⟩
  tx := []
  rx := []
  log := []

def plainDevice : DeviceMap := ⟨true, 0x1000, false, 0, LlqInfo.zero⟩

def Env.obliging : Env where
  answer := fun _ _ => .completes 0 fun _ => 0
  dma := fun t => some (BitVec.ofNat 48 (4096 * (t + 1)))
  heap := fun t => some (64 * (t + 1))
  reset := fun _ => .ready
  netbufs := fun _ _ queue => (none, queue)

abbrev Driver := Prog Machine Fault

/-! ## Primitive steps -/

def record (effect : Effect) : Driver Unit := modify fun m => m.logged [effect]

def adapter : Driver Adapter := do
  let m ← get
  return m.adapter

def modifyAdapter (change : Adapter → Adapter) : Driver Unit :=
  modify fun m => m.withAdapter (change m.adapter)

def modifySettings (change : Settings → Settings) : Driver Unit :=
  modifyAdapter (·.updateSettings change)

section Steps

variable (env : Env)

def enaDmaAlloc : Driver (Option DmaBuf) := do
  let m ← get
  let result := (env.dma m.log.length).map (DmaBuf.mk m.log.length)
  record (.dmaAlloc result)
  return result

def enaDmaFree (buf : DmaBuf) : Driver Unit := record (.dmaFree buf)

/-- `calloc` and `malloc`. -/
def heapAlloc : Driver (Option Nat) := do
  let m ← get
  let result := env.heap m.log.length
  record (.heapAlloc result)
  return result

end Steps

section Runs

variable (m : Machine)

@[simp] theorem record_run (effect : Effect) : record effect m = .ok ((), m.logged [effect]) := rfl

@[simp] theorem adapter_run : adapter m = .ok (m.adapter, m) := rfl

@[simp] theorem modifyAdapter_run (change : Adapter → Adapter) :
    modifyAdapter change m = .ok ((), m.withAdapter (change m.adapter)) := rfl

@[simp] theorem modifySettings_run (change : Settings → Settings) :
    modifySettings change m = .ok ((), m.withAdapter (m.adapter.updateSettings change)) := rfl

@[simp] theorem enaDmaAlloc_run (env : Env) :
    enaDmaAlloc env m = .ok ((env.dma m.log.length).map (DmaBuf.mk m.log.length),
      m.logged [.dmaAlloc ((env.dma m.log.length).map (DmaBuf.mk m.log.length))]) := rfl

@[simp] theorem enaDmaFree_run (buf : DmaBuf) :
    enaDmaFree buf m = .ok ((), m.logged [.dmaFree buf]) := rfl

@[simp] theorem heapAlloc_run (env : Env) :
    heapAlloc env m =
      .ok (env.heap m.log.length, m.logged [.heapAlloc (env.heap m.log.length)]) := rfl

end Runs

/-- The ring pointer under an index; an index outside a present array is not an
access to it. -/
def ringCell {π : Type} (rings : List (Option π)) (q : Nat) : Except Fault (Option π) :=
  if rings.isEmpty then .ok none
  else match rings[q]? with
    | none => .error .badAccess
    | some cell => .ok cell

def txCell (q : Nat) : Driver (Option TxPort) := do
  let m ← get
  ringCell m.tx q

def rxCell (q : Nat) : Driver (Option RxPort) := do
  let m ← get
  ringCell m.rx q

def Machine.updateTx (m : Machine) (q : Nat) (change : TxPort → TxPort) : Machine :=
  { m with tx := m.tx.modify q (Option.map change) }

def Machine.updateRx (m : Machine) (q : Nat) (change : RxPort → RxPort) : Machine :=
  { m with rx := m.rx.modify q (Option.map change) }

def txAccess (q : Nat) : RingAccess Driver where
  get := do
    let cell ← txCell q
    match cell with
    | none => throw .badAccess
    | some port => return port.ring
  modify := fun change => modify fun m => m.updateTx q fun p => { p with ring := change p.ring }

def rxAccess (q : Nat) : RingAccess Driver where
  get := do
    let cell ← rxCell q
    match cell with
    | none => throw .badAccess
    | some port => return port.ring
  modify := fun change => modify fun m => m.updateRx q fun p => { p with ring := change p.ring }

end EnaDriver.Admin
