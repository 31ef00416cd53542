import EnaDriver.Admin.QueueService
import EnaDriver.Admin.RecoveryLocks
import EnaDriver.Datapath.ReceiveRuns
import EnaDriver.Netdev.BouncePools

/-!
# The netdev lifecycle

Configuration, start, stop and teardown of a whole device, in the host build and
in the Unikraft build.  The two builds share the functions on rings and differ in
what they check before them: the host build keeps a state of its own, while the
Unikraft build asks the netdev core whether the device is running.

The two directions have arrays of their own and otherwise the same code, so a
function on an array takes the direction as a parameter.  Completions that a stop
drains from a transmit ring are an operation of that ring and not of the arrays.
-/

namespace EnaDriver.Lifecycle

open Support.Laps Support.Programs Datapath Admin

/-! ## Arrays of rings -/

abbrev Port : RingType → Type
  | .tx => TxPort
  | .rx => RxPort

def Port.ring : {side : RingType} → Port side → Ring
  | .tx, port => TxPort.ring port
  | .rx, port => RxPort.ring port

def rings : (side : RingType) → Machine → List (Option (Port side))
  | .tx, m => m.tx
  | .rx, m => m.rx

def setRings : (side : RingType) → List (Option (Port side)) → Machine → Machine
  | .tx, tx, m => { m with tx := tx }
  | .rx, rx, m => { m with rx := rx }

def numRings : RingType → Adapter → Nat
  | .tx, a => a.numTxRings
  | .rx, a => a.numRxRings

def setNumRings : RingType → Nat → Adapter → Adapter
  | .tx, n, a => { a with numTxRings := n }
  | .rx, n, a => { a with numRxRings := n }

def maxQueues : RingType → Adapter → Nat
  | .tx, a => a.settings.limits.maxTxQueues
  | .rx, a => a.settings.limits.maxRxQueues

def maxRingSize : RingType → Adapter → Nat
  | .tx, a => a.settings.limits.maxTxRingSize
  | .rx, a => a.settings.limits.maxRxRingSize

/-- The bound that loops over an array use: the latest count, or the limit of the
device when there is none. -/
def loopBound (side : RingType) (a : Adapter) : Nat :=
  if numRings side a = 0 then maxQueues side a else numRings side a

def cell (side : RingType) (q : Nat) : Driver (Option (Port side)) := do
  let m ← get
  ringCell (rings side m) q

def setCell (side : RingType) (q : Nat) (port : Option (Port side)) : Driver Unit :=
  modify fun m => setRings side ((rings side m).set q port) m

def freeRing (side : RingType) (q : Nat) : Driver Unit := do
  let _ ← cell side q
  setCell side q none

/-! ## Interrupts -/

def intrMaskOff : Nat := 0x4C

/-- `ENA_ETH_IO_INTR_REG_INTR_UNMASK_MASK`. -/
def intrUnmask : Nat := 2 ^ 30

def unmaskRing (side : RingType) (qid : Nat) : Driver Unit := do
  let a ← adapter
  if qid < loopBound side a then
    let found ← cell side qid
    match found with
    | none => return ()
    | some port =>
      if port.ring.hw.cqUnmaskDbOffset ≠ 0 then
        record (.regWrite32 port.ring.hw.cqUnmaskDbOffset intrUnmask)

/-- Vector 0 belongs to the admin queue, and vector `i + 1` to queue `i`. -/
def enaIntrUnmaskVector (vectorId : Nat) : Driver Int := do
  let a ← adapter
  if a.irqVectors.getD 0 ≤ vectorId then
    return -EINVAL
  if a.map.bar0Mapped = false then
    return 0
  if vectorId = 0 then
    record (.regWrite32 intrMaskOff 0)
    return 0
  unmaskRing .rx (vectorId - 1)
  unmaskRing .tx (vectorId - 1)
  return 0

def enaIntrMaskVector (vectorId : Nat) : Driver Int := do
  let a ← adapter
  if a.irqVectors.getD 0 ≤ vectorId then
    return -EINVAL
  if a.map.bar0Mapped ∧ vectorId = 0 then
    record (.regWrite32 intrMaskOff 1)
  return 0

def enaIntrUnmaskAll : Driver Unit := do
  let a ← adapter
  (List.range (a.irqVectors.getD 0)).forM fun i => do
    let _ ← enaIntrUnmaskVector i

def enaIntrMaskAll : Driver Unit := do
  let a ← adapter
  (List.range (a.irqVectors.getD 0)).forM fun i => do
    let _ ← enaIntrMaskVector i

def enaIntrMsixFini : Driver Unit := do
  let a ← adapter
  if a.irqVectors.isSome then
    enaIntrMaskAll
    modifyAdapter fun a => { a with irqVectors := none }

/-! ## Configuration -/

def minRingDesc : Nat := 4

def maxRingDesc : Nat := 4096

def defaultRingDesc : Nat := 256

def enaNetdevRoundDownPow2 (v : Nat) : Nat := if v = 0 then 0 else 2 ^ v.log2

def enaNetdevClampDescCount (nbDesc maxRingSize : Nat) : Nat :=
  let asked := if nbDesc = 0 then (if maxRingSize = 0 then defaultRingDesc else maxRingSize)
    else nbDesc
  let limited := if maxRingSize ≠ 0 ∧ maxRingSize < asked then maxRingSize else asked
  enaNetdevRoundDownPow2 (max minRingDesc (min maxRingDesc limited))

theorem enaNetdevClampDescCount_depth (nbDesc maxRingSize : Nat) :
    ∃ d : Depth, enaNetdevClampDescCount nbDesc maxRingSize = d.val := by
  have rounded : ∀ v, 4 ≤ v → v ≤ 4096 → ∃ d : Depth, enaNetdevRoundDownPow2 v = d.val := by
    intro v lower upper
    have low : 2 ≤ v.log2 := (Nat.le_log2 (by omega)).mpr lower
    have high : v.log2 < 13 := (Nat.log2_lt (by omega)).mpr (by omega)
    exact ⟨⟨2 ^ v.log2, v.log2, low, by omega, rfl⟩, if_neg (by omega)⟩
  refine rounded _ (Nat.le_max_left _ _) ?_
  exact Nat.max_le.mpr ⟨by decide, Nat.min_le_left _ _⟩

section Memory

variable (env : Env)

def allocRingArray (side : RingType) (count : Nat) : Driver Bool := do
  let m ← get
  if (rings side m).isEmpty = false then
    return true
  let memory ← heapAlloc env
  match memory with
  | none => return false
  | some _ =>
    modify (setRings side (List.replicate count none))
    return true

/-- The arrays keep the size of their allocation, while the counts follow every
call. -/
def enaNetdevAllocRingArrays (nbRxQueues nbTxQueues : Nat) : Driver Int := do
  let rx ← allocRingArray env .rx nbRxQueues
  if rx = false then
    return -ENOMEM
  modifyAdapter (setNumRings .rx nbRxQueues)
  let tx ← allocRingArray env .tx nbTxQueues
  if tx = false then
    return -ENOMEM
  modifyAdapter (setNumRings .tx nbTxQueues)
  return 0

def heapAllocs : Nat → Driver (List Nat)
  | 0 => return []
  | n + 1 => do
    let memory ← heapAlloc env
    match memory with
    | none => return []
    | some addr =>
      let rest ← heapAllocs n
      return addr :: rest

/-- `ena_ring_alloc` on the memory of the machine; the depth is checked before the
first allocation. -/
def ringAlloc (q : Nat) (side : RingType) (depth : UInt16) : Driver (Except Int Ring) := do
  if Depth.ofRaw? depth = none then
    return .error (-EINVAL)
  let memory ← heapAllocs env side.allocations
  return enaRingAlloc q side depth depth fun i => memory[i]?

def configuredPort (allocRxpkts : Bool) (bounce : Nat) (ring : Ring) : (side : RingType) → Port side
  | .tx =>
    { ring := ring
      queue := some
        { queueId := ring.qid
          bounce := some (.fresh bounce ring.sqDepth)
          bounceInUse := false
          bounceReqId := 0
          bounceWaitPolls := 0 } }
  | .rx =>
    { ring := ring.withCallbacks true true
      queue := some
        { queueId := ring.qid
          allocRxpkts := allocRxpkts
          bounce := some (.fresh bounce ring.sqDepth)
          pendingSlot := none
          chain := [] } }

/-- What both builds do once a queue configuration is accepted: the old ring is
freed, the new one is stored, and it is freed again when one of the three bounce
allocations fails. -/
def configureQueue (side : RingType) (queueId nbDesc : Nat) (allocRxpkts : Bool) : Driver Int := do
  let a ← adapter
  let depth := enaNetdevClampDescCount nbDesc (maxRingSize side a)
  freeRing side queueId
  let ring ← ringAlloc env queueId side (UInt16.ofNat depth)
  match ring with
  | .error ret => return ret
  | .ok ring =>
    let bounce ← heapAllocs env 3
    match bounce with
    | [phys, _, _] =>
      setCell side queueId (some (configuredPort allocRxpkts phys ring side))
      return 0
    | _ => return -ENOMEM

end Memory

/-! ## Start and stop of the rings -/

section Queues

variable (exec : CtrlExec)

def createHw (side : RingType) (q : Nat) : Driver Int := do
  noteRing side q
  let a ← adapter
  enaRingCreateHw a.map (exec []) (portAccess side q) (queueVector a q)

def destroyHw (side : RingType) (q : Nat) : Driver Unit := do
  let found ← cell side q
  if found.isSome then
    noteRing side q
    let _ ← enaRingDestroyHw (exec []) (portAccess side q)

/-- Create the queues of the attached rings in order, up to the first error: the
result, and the number of rings with queues. -/
def createRings (side : RingType) : List Nat → Driver Created
  | [] => return ⟨0, 0⟩
  | q :: rest => do
    let found ← cell side q
    if found.isSome then
      let ret ← createHw exec side q
      if ret ≠ 0 then
        return ⟨ret, 0⟩
      let later ← createRings side rest
      return ⟨later.ret, later.count + 1⟩
    else
      createRings side rest

def destroyRings (side : RingType) (bound : Nat) : Driver Unit :=
  (List.range bound).forM (destroyHw exec side)

/-- Create the queues of all rings.  An error rolls back by number: the rings below
the number of queues created. -/
def enaNetdevStartRingsHw (nbRx nbTx : Nat) : Driver Int := do
  let tx ← createRings exec .tx (List.range nbTx)
  if tx.ret ≠ 0 then
    destroyRings exec .tx tx.count
    return tx.ret
  let rx ← createRings exec .rx (List.range nbRx)
  if rx.ret ≠ 0 then
    destroyRings exec .rx rx.count
    destroyRings exec .tx tx.count
    return rx.ret
  enaIntrUnmaskAll
  return 0

/-- Destroy the queues of all rings, after a look at the transmit rings whose
completions are drained. -/
def enaNetdevStopRingsHw (nbRx nbTx : Nat) : Driver Int := do
  (List.range nbTx).forM fun q => do
    let _ ← cell .tx q
  destroyRings exec .rx nbRx
  destroyRings exec .tx nbTx
  return 0

end Queues

/-! ## Cleanup -/

def RxPort.clearChain (p : RxPort) : RxPort :=
  { p with queue := p.queue.map fun q => { q with chain := [] } }

def enaNetdevClearRxChains : Driver Unit :=
  modify fun m => { m with rx := m.rx.map (Option.map RxPort.clearChain) }

def storedRings {π : Type} (array : List (Option π)) : List Nat :=
  (List.range array.length).filter fun q => (array[q]?.join).isSome

/-- Free the rings of an array below the bound, and then the array.  The result is
what the array still holds when it goes: nothing else refers to those rings. -/
def cleanupRings (side : RingType) : Driver (List Nat) := do
  let m ← get
  if (rings side m).isEmpty then
    return []
  (List.range (loopBound side m.adapter)).forM (freeRing side)
  let m ← get
  modify (setRings side [])
  modifyAdapter (setNumRings side 0)
  return storedRings (rings side m)

structure Lost where
  rx : List Nat
  tx : List Nat
  deriving DecidableEq, Repr

def Lost.none : Lost := ⟨[], []⟩

/-- The settings of the device are released where the build has scaling. -/
def enaNetdevCleanupAdapterRings (rss : Bool) : Driver Lost := do
  let rx ← cleanupRings .rx
  let tx ← cleanupRings .tx
  onlyIf (rss = true) () enaRssFini
  return ⟨rx, tx⟩

def releaseDevice (rss : Bool) : Driver Lost := do
  let lost ← enaNetdevCleanupAdapterRings rss
  enaIntrMsixFini
  enaAdminFini
  return lost

/-! ## The host build -/

namespace Host

/-- `ENA_NETDEV_MAX_QUEUES`. -/
def queueLimit : Nat := 8

section Functions

variable (env : Env) (exec : CtrlExec)

def countRefused (side : RingType) (a : Adapter) (count : Nat) : Prop :=
  count = 0 ∨ maxQueues side a < count ∨ queueLimit < count

instance (side : RingType) (a : Adapter) (count : Nat) : Decidable (countRefused side a count) :=
  inferInstanceAs (Decidable (_ ∨ _ ∨ _))

def enaNetdevConfigure (nbRxQueues nbTxQueues : Nat) : Driver Int := do
  let m ← get
  if m.dev.state = .running then
    return -EBUSY
  if countRefused .rx m.adapter nbRxQueues then
    return -EINVAL
  if countRefused .tx m.adapter nbTxQueues then
    return -EINVAL
  let ret ← enaNetdevAllocRingArrays env nbRxQueues nbTxQueues
  if ret ≠ 0 then
    return ret
  modify fun m => { m with dev := ⟨.configured, nbRxQueues, nbTxQueues⟩ }
  return 0

def nbQueues : RingType → Netdev → Nat
  | .tx, dev => dev.nbTxQueues
  | .rx, dev => dev.nbRxQueues

/-- `ena_netdev_rxq_configure` and `ena_netdev_txq_configure`. -/
def queueConfigure (side : RingType) (queueId nbDesc : Nat) (allocRxpkts : Bool) : Driver Int := do
  let m ← get
  if nbQueues side m.dev ≤ queueId ∨ queueLimit ≤ queueId then
    return -EINVAL
  if m.dev.state = .running then
    return -EBUSY
  configureQueue env side queueId nbDesc allocRxpkts

/-- A failure to configure scaling is returned as it is: the queues stay. -/
def enaNetdevStart : Driver Int := do
  let m ← get
  if m.dev.state ≠ .configured ∧ m.dev.state ≠ .stopped then
    return -EINVAL
  let ret ← enaNetdevStartRingsHw exec m.dev.nbRxQueues m.dev.nbTxQueues
  if ret ≠ 0 then
    return ret
  let ret ← onlyIf (1 < m.dev.nbRxQueues) 0 (enaRssConfigure env exec m.dev.nbRxQueues)
  if ret ≠ 0 then
    return ret
  modifyAdapter fun a => { a with linkUp := true }
  modify fun m => { m with dev := { m.dev with state := .running } }
  return 0

def enaNetdevStop : Driver Int := do
  let m ← get
  if m.dev.state ≠ .running then
    return -EINVAL
  enaNetdevClearRxChains
  let ret ← enaNetdevStopRingsHw exec m.dev.nbRxQueues m.dev.nbTxQueues
  if ret ≠ 0 then
    return ret
  modifyAdapter fun a => { a with linkUp := false }
  modify fun m => { m with dev := { m.dev with state := .stopped } }
  return 0

/-- The netdev itself is freed at the end; the next one starts unconfigured. -/
def enaNetdevFree : Driver Lost := do
  let _ ← enaNetdevStop exec
  let lost ← releaseDevice true
  modify fun m => { m with dev := ⟨.unconfigured, 0, 0⟩ }
  return lost

end Functions

end Host

/-! ## The Unikraft build -/

/-- The build options: whether scaling is compiled in, and the limit of queues. -/
structure Options where
  rss : Bool
  queueLimit : Nat

namespace Unikraft

section Functions

variable (env : Env) (exec : CtrlExec) (options : Options)

def countRefused (side : RingType) (a : Adapter) (count : Nat) : Prop :=
  count = 0 ∨ (maxQueues side a ≠ 0 ∧ maxQueues side a < count) ∨ options.queueLimit < count

instance (side : RingType) (a : Adapter) (count : Nat) :
    Decidable (countRefused options side a count) :=
  inferInstanceAs (Decidable (_ ∨ _ ∨ _))

def enaNetdevConfigure (running : Bool) (nbRxQueues nbTxQueues : Nat) : Driver Int := do
  let a ← adapter
  if running then
    return -EBUSY
  if countRefused options .rx a nbRxQueues then
    return -EINVAL
  if countRefused options .tx a nbTxQueues then
    return -EINVAL
  enaNetdevAllocRingArrays env nbRxQueues nbTxQueues

/-- `ena_netdev_rxq_configure` and `ena_netdev_txq_configure`; a result other than
zero stands for the null queue. -/
def queueConfigure (running : Bool) (side : RingType) (queueId nbDesc : Nat) (allocRxpkts : Bool) :
    Driver Int := do
  let a ← adapter
  if options.queueLimit ≤ queueId ∨ (numRings side a ≠ 0 ∧ numRings side a ≤ queueId) then
    return -EINVAL
  if running then
    return -EBUSY
  configureQueue env side queueId nbDesc allocRxpkts

def refillFirst : Driver Unit := do
  let found ← rxCell 0
  match found with
  | none => return ()
  | some port =>
    let m ← get
    let (_, filled, events) ←
      enaRxRefill port (port.ring.sqDepth.val - 1) (env.netbufs m.log.length)
    modify fun m => m.updateRx 0 fun _ => filled
    record (.ring .rx 0 events)

/-- A failure to configure scaling is only logged. -/
def enaNetdevStart : Driver Int := do
  let a ← adapter
  let ret ← enaNetdevStartRingsHw exec a.numRxRings a.numTxRings
  if ret ≠ 0 then
    return ret
  refillFirst env
  let a ← adapter
  let _ ← onlyIf (options.rss = true ∧ 1 < a.numRxRings) 0 (enaRssConfigure env exec a.numRxRings)
  modifyAdapter fun a => { a with linkUp := true }
  return 0

/-- Nothing is checked before the queues are destroyed. -/
def enaNetdevStop : Driver Int := do
  modifyAdapter fun a => { a with linkUp := false }
  enaNetdevClearRxChains
  let a ← adapter
  enaNetdevStopRingsHw exec a.numRxRings a.numTxRings

def enaNetdevTeardown : Driver Lost := do
  let _ ← enaNetdevStop exec
  releaseDevice options.rss

end Functions

end Unikraft

/-! ## Calls -/

inductive Build where
  | host
  | unikraft (options : Options)

/-- A call of the lifecycle.  `running` is the answer of the netdev core, which the
host build does not ask. -/
inductive Call where
  | configure (running : Bool) (nbRxQueues nbTxQueues : Nat)
  | rxqConfigure (running : Bool) (queueId nbDesc : Nat) (allocRxpkts : Bool)
  | txqConfigure (running : Bool) (queueId nbDesc : Nat)
  | start
  | stop
  | free
  deriving DecidableEq, Repr

def perform (env : Env) (exec : CtrlExec) : Build → Call → Driver (Int × Lost)
  | .host, .configure _ nbRx nbTx => return (← Host.enaNetdevConfigure env nbRx nbTx, .none)
  | .host, .rxqConfigure _ q nbDesc alloc =>
    return (← Host.queueConfigure env .rx q nbDesc alloc, .none)
  | .host, .txqConfigure _ q nbDesc => return (← Host.queueConfigure env .tx q nbDesc false, .none)
  | .host, .start => return (← Host.enaNetdevStart env exec, .none)
  | .host, .stop => return (← Host.enaNetdevStop exec, .none)
  | .host, .free => return (0, ← Host.enaNetdevFree exec)
  | .unikraft options, .configure running nbRx nbTx =>
    return (← Unikraft.enaNetdevConfigure env options running nbRx nbTx, .none)
  | .unikraft options, .rxqConfigure running q nbDesc alloc =>
    return (← Unikraft.queueConfigure env options running .rx q nbDesc alloc, .none)
  | .unikraft options, .txqConfigure running q nbDesc =>
    return (← Unikraft.queueConfigure env options running .tx q nbDesc false, .none)
  | .unikraft options, .start => return (← Unikraft.enaNetdevStart env exec options, .none)
  | .unikraft _, .stop => return (← Unikraft.enaNetdevStop exec, .none)
  | .unikraft options, .free => return (0, ← Unikraft.enaNetdevTeardown exec options)

end EnaDriver.Lifecycle
