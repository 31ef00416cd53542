import EnaDriver.Datapath.RegisterWindows
import EnaDriver.Lifecycle.PartialCalls

/-!
# A whole device

The interrupts of a probed device, and the system of everything that happens to it:
bring-up, lifecycle calls, events, interrupts and traffic on the attached rings.
The answers of the platform to a bring-up are an argument of the operation.
-/

namespace EnaDriver.Lifecycle

open Datapath Admin

/-! ## Interrupts -/

def maxMsixVectors : Nat := 32

def ENOTSUP : Int := 95

/-- What the platform answers to a bring-up: the result of the vector probe with the
number of vectors, and the result of arming them where the build does that. -/
structure Platform where
  probe : Int
  vectors : Nat
  arm : Option Int

section Functions

variable (env : Env)

/-- A table that cannot be allocated leaves none. -/
def enaIntrMsixInit (numVectors : Nat) : Driver Int := do
  if numVectors = 0 ∨ maxMsixVectors < numVectors then
    return -EINVAL
  let memory ← heapAlloc env
  match memory with
  | none =>
    modifyAdapter fun a => { a with irqVectors := none }
    return -ENOMEM
  | some _ =>
    modifyAdapter fun a => { a with irqVectors := some numVectors }
    return 0

def enaIntrSetup (platform : Platform) : Driver Int := do
  let a ← adapter
  if a.irqVectors.isSome then
    return 0
  if platform.probe ≠ 0 then
    return platform.probe
  if platform.vectors = 0 then
    return -ENOTSUP
  let ret ← enaIntrMsixInit env (min platform.vectors maxMsixVectors)
  if ret ≠ 0 then
    return ret
  let _ ← enaIntrUnmaskVector 0
  match platform.arm with
  | none => return 0
  | some ret =>
    if ret ≠ 0 then
      enaIntrMsixFini
    return ret

end Functions

/-! ## Traffic -/

inductive TxTraffic where
  | submit (cpu : Nat) (pkt : TxPkt)
  | llqPush (cpu : Nat) (pkt : TxPkt) (hdrData : Option (List UInt8)) (hdrLen : Nat)
  | doorbell
  | poll (cpu budget : Nat) (views : List TxMem)

inductive RxTraffic where
  | submitOne (netbuf : Option Netbuf) (physAddr bufLen : Nat)
  | refill (count : Nat) (alloc : AllocNetbuf)
  | doorbell
  | poll (maxPkts : Nat) (views : List RxMem)

def TxTraffic.apply (p : TxPort) : TxTraffic → Except Fault (TxPort × List Event)
  | .submit cpu pkt => do
    let out ← enaTxSubmit p.ring cpu pkt
    return ({ p with ring := out.ring }, out.events)
  | .llqPush cpu pkt hdrData hdrLen => do
    let out ← enaLlqTxPush p.ring cpu pkt hdrData hdrLen
    return ({ p with ring := out.ring }, out.events)
  | .doorbell => return (p, enaTxDoorbell p.ring)
  | .poll cpu budget views => do
    let (_, next, events) ← enaTxPollCompletions p cpu budget views
    return (next, events)

def RxTraffic.apply (p : RxPort) : RxTraffic → Except Fault (RxPort × List Event)
  | .submitOne netbuf physAddr bufLen => do
    let out ← enaRxSubmitOne p.ring netbuf physAddr bufLen
    return ({ p with ring := out.ring }, [])
  | .refill count alloc => do
    let (_, next, events) ← enaRxRefill p count alloc
    return (next, events)
  | .doorbell => return (p, enaRxDoorbell p.ring)
  | .poll maxPkts views => do
    let polled ← enaRxPoll p maxPkts views
    return (polled.port, polled.events)

def transmit (q : Nat) (traffic : TxTraffic) : Driver Unit := do
  let found ← txCell q
  match found with
  | none => return ()
  | some port =>
    let (next, events) ← traffic.apply port
    modify fun m => m.updateTx q fun _ => next
    record (.ring .tx q events)

def receive (q : Nat) (traffic : RxTraffic) : Driver Unit := do
  let found ← rxCell q
  match found with
  | none => return ()
  | some port =>
    let (next, events) ← traffic.apply port
    modify fun m => m.updateRx q fun _ => next
    record (.ring .rx q events)

/-! ## The system -/

inductive DeviceOp where
  | adminInit (aq acq aenq : UInt16)
  | adminFini
  | initRun (mtu : Nat)
  | register
  | setup (platform : Platform)
  | msixFini
  | call (request : Call)
  | event (entry : AenqEntry)
  | unmask (vectorId : Nat)
  | transmit (q : Nat) (traffic : TxTraffic)
  | receive (q : Nat) (traffic : RxTraffic)

/-- Perform one operation; the results of the functions do not matter here. -/
def DeviceOp.perform (env : Env) (build : Build) : DeviceOp → Driver Unit
  | .adminInit aq acq aenq => do
    let _ ← enaAdminInit env aq acq aenq
  | .adminFini => enaAdminFini
  | .initRun mtu => do
    let _ ← enaInitRun env (driverExec env 1) mtu
  | .register => modifyAdapter (·.setHandler true)
  | .setup platform => do
    let _ ← enaIntrSetup env platform
  | .msixFini => enaIntrMsixFini
  | .call request => do
    let _ ← Lifecycle.perform env (driverExec env 1) build request
  | .event entry => do
    let _ ← enaAenqDefaultHandler env 1 entry
  | .unmask vectorId => do
    let _ ← enaIntrUnmaskVector vectorId
  | .transmit q traffic => Lifecycle.transmit q traffic
  | .receive q traffic => Lifecycle.receive q traffic

def deviceStep (env : Env) (build : Build) (m : Machine) (op : DeviceOp) : Except Fault Machine := do
  let (_, next) ← op.perform env build m
  return next

end EnaDriver.Lifecycle
