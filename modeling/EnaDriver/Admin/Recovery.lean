import EnaDriver.Admin.Rss

/-!
# Reset and recovery

A command that times out, or a fatal event, resets the device and rebuilds what
the reset cleared: the admin rings, the IO queues and the settings.  Rebuilding
runs admin commands, which may time out in turn; a flag in the adapter stops
such a command from starting a second recovery.

The recursion is cut by the number of recoveries that may be active in the call
chain.  A chain that would start one more than that faults, so a result at a
given number also bounds the nesting.
-/

namespace EnaDriver.Admin

open Support.Programs Datapath

/-! ## Rings -/

def invalidateTxRing (q : Nat) : Driver Unit := do
  let cell ← txCell q
  match cell with
  | none => return ()
  | some port =>
    let (ring, events) ← enaAdapterInvalidateIoRing port.ring
    modify fun m => m.updateTx q fun p => { p with ring := ring }
    record (.ring .tx q events)

def invalidateRxRing (q : Nat) : Driver Unit := do
  let cell ← rxCell q
  match cell with
  | none => return ()
  | some port =>
    let (ring, events) ← enaAdapterInvalidateIoRing port.ring
    modify fun m => m.updateRx q fun p => { p with ring := ring }
    record (.ring .rx q events)

def enaAdapterInvalidateIoRings : Driver Unit := do
  let a ← adapter
  (List.range a.numTxRings).forM invalidateTxRing
  (List.range a.numRxRings).forM invalidateRxRing

def enaAdapterHasIoRings : Driver Bool := do
  let m ← get
  let tx ← (List.range m.adapter.numTxRings).mapM txCell
  let rx ← (List.range m.adapter.numRxRings).mapM rxCell
  return tx.any Option.isSome || rx.any Option.isSome

/-- The vector that queue `q` is bound to; zero stands for polling. -/
def queueVector (a : Adapter) (q : Nat) : Nat := if a.irqVectors.isSome then q + 1 else 0

/-- The result of a loop over the rings: the first error, and how many queues
were created. -/
structure Created where
  ret : Int
  count : Nat

def Created.note (acc : Created) (ret : Int) : Created :=
  if ret ≠ 0 then ⟨if acc.ret = 0 then ret else acc.ret, acc.count⟩ else ⟨acc.ret, acc.count + 1⟩

def noteRing (side : RingType) (q : Nat) : Driver Unit := record (.ring side q [])

section Functions

variable (env : Env) (exec : CtrlExec)

def createTxHw (q : Nat) : Driver Int := do
  noteRing .tx q
  let a ← adapter
  enaRingCreateHw a.map (exec []) (txAccess q) (queueVector a q)

def createRxHw (q : Nat) : Driver Int := do
  noteRing .rx q
  let a ← adapter
  enaRingCreateHw a.map (exec []) (rxAccess q) (queueVector a q)

def recoverTxRing (acc : Created) (q : Nat) : Driver Created := do
  let cell ← txCell q
  match cell with
  | none => return acc
  | some port =>
    if port.ring.hw.valid then
      return acc
    let ret ← createTxHw exec q
    return acc.note ret

/-- Refill the first receive queue after its creation; the result is only
logged. -/
def recoverRefill (q : Nat) : Driver Unit := do
  let cell ← rxCell q
  match cell with
  | none => return ()
  | some port =>
    if q = 0 ∧ port.ring.refillNetbuf then
      let m ← get
      let (_, filled, events) ←
        enaRxRefill port (port.ring.sqDepth.val - 1) (env.netbufs m.log.length)
      modify fun m => m.updateRx q fun _ => filled
      record (.ring .rx q events)

def recoverRxRing (acc : Created) (q : Nat) : Driver Created := do
  let cell ← rxCell q
  match cell with
  | none => return acc
  | some port =>
    if port.ring.hw.valid then
      return acc
    let ret ← createRxHw exec q
    if ret ≠ 0 then
      return acc.note ret
    recoverRefill env q
    return acc.note ret

/-! ## Settings -/

def firstError (earlier later : Int) : Int := if earlier = 0 then later else earlier

/-- Send the negotiated settings again.  Each step runs whatever the earlier ones
returned. -/
def enaInitReapplyDeviceFeatures : Driver Int := do
  let attrs ← enaInitGetDeviceAttributes exec
  let a ← adapter
  let mtu ← onlyIf (a.settings.mtu ≠ 0) 0 (enaInitSetMtu exec a.settings.mtu)
  let a ← adapter
  let aenq ← onlyIf (a.settings.aenqEnabledGroups ≠ 0) 0 (enaInitConfigAenq exec)
  let a ← adapter
  let rss ← onlyIf (1 < a.numRxRings) 0 (enaRssConfigure env exec a.numRxRings)
  return firstError (firstError (firstError attrs mtu) aenq) rss

/-- Create the queues of every invalid ring, then send the settings again if a
queue was created. -/
def enaAdapterRecoverIoRings : Driver Int := do
  let a ← adapter
  let tx ← (List.range a.numTxRings).foldlM (recoverTxRing exec) ⟨0, 0⟩
  let a ← adapter
  let both ← (List.range a.numRxRings).foldlM (recoverRxRing env exec) tx
  if both.count = 0 then
    return both.ret
  let features ← enaInitReapplyDeviceFeatures env exec
  return firstError both.ret features

/-! ## The device -/

def enaDeviceReset : Driver Int := do
  let m ← get
  if m.adapter.map.bar0Mapped = false then
    return -EINVAL
  let outcome := env.reset m.log.length
  record (.reset outcome)
  match outcome with
  | .ready => return 0
  | .fatal =>
    modifyAdapter (·.setState .error)
    return - Datapath.EIO
  | .stuck => return -ETIMEDOUT

/-- The device of a machine writes a completion within the doorbell, with the
expected phase, or leaves the completion of the lap before in the slot. -/
def Answer.views (answer : Answer) (phase : Bool) (commandId : Nat) : AcqViews := fun _ _ =>
  match answer with
  | .completes status response => ⟨commandId, status.toNat, phaseFlag phase, response⟩
  | .stray => ⟨commandId + 1, 0, phaseFlag phase, fun _ => 0⟩
  | .silent => ⟨0, 0, phaseFlag (!phase), fun _ => 0⟩

/-- The phase that the driver expects of the next completion. -/
def Adapter.acqPhase (a : Adapter) : Bool :=
  match a.queues with
  | none => true
  | some q => q.acq.cursor.phase

def machineIo (ctrl : List Nat) : AdminIo Driver where
  adapter := adapter
  modify := modifyAdapter
  regWrite32 := fun offset value => record (.regWrite32 offset value)
  clearAcq := fun _ => return ()
  ringAqDb := fun entry _ => do
    let m ← get
    let answer := env.answer m.log.length entry
    record (.command entry ctrl answer)
    return answer.views m.adapter.acqPhase entry.commandId

/-! ## Recovery -/

def depthAgain (queue : Option AdminQueue) : UInt16 :=
  match queue with
  | none => 32
  | some q => UInt16.ofNat q.depth.val

/-- Reset the device and initialise the admin rings again, under the admin lock:
the results of the two steps. -/
def resetAndInit (handler : Bool) : Driver (Int × Int) := do
  enaAdminLockTake (machineIo env [])
  let reset ← enaDeviceReset env
  if reset ≠ 0 then
    enaAdminLockDrop (machineIo env [])
    return (reset, -1)
  let a ← adapter
  let init ← enaAdminInit env (depthAgain (a.queues.map AdminQueues.aq))
    (depthAgain (a.queues.map AdminQueues.acq)) (depthAgain (a.queues.map AdminQueues.aenq))
  onlyIf (init = 0 ∧ handler) () (modifyAdapter (·.setHandler true))
  enaAdminLockDrop (machineIo env [])
  return (reset, init)

def rebuild : Driver Int := do
  let rings ← enaAdapterHasIoRings
  let a ← adapter
  let _ ← onlyIf (rings = false ∧ a.settings.aenqEnabledGroups ≠ 0) 0 (enaInitConfigAenq exec)
  enaAdapterRecoverIoRings env exec

def recoverOnce : Driver Int := do
  modifyAdapter (·.setRecover true)
  let a ← adapter
  modifyAdapter (·.setState .error)
  enaAdapterInvalidateIoRings
  let (reset, init) ← resetAndInit env a.aenqHandler
  if reset ≠ 0 ∨ init ≠ 0 then
    modifyAdapter (·.setRecover false)
    return if reset ≠ 0 then reset else init
  let ret ← rebuild env exec
  modifyAdapter (·.setRecover false)
  return ret

end Functions

section Knot

variable (env : Env)

def execWith (recover : Driver Int) : CtrlExec := fun ctrl req => do
  let out ← enaAdminExecCmd (machineIo env ctrl) recover req
  return (out.ret, out.resp)

/-- Reset and recover, with at most `nesting` recoveries in the call chain. -/
def enaAdapterResetAndRecover : Nat → Driver Int
  | 0 => do
    let a ← adapter
    if a.recoverActive then
      return -EBUSY
    throw .nestedRecovery
  | nesting + 1 => do
    let a ← adapter
    if a.recoverActive then
      return -EBUSY
    recoverOnce env (execWith env (enaAdapterResetAndRecover nesting))

def driverExec (nesting : Nat) : CtrlExec := execWith env (enaAdapterResetAndRecover env nesting)

/-! ## Events -/

inductive AenqGroup where
  | linkChange
  | fatalError
  | warning
  | notification
  | keepAlive
  | unknown (code : Nat)
  deriving DecidableEq, Repr

def AenqGroup.ofCode (code : Nat) : AenqGroup :=
  match code with
  | 0 => .linkChange
  | 1 => .fatalError
  | 2 => .warning
  | 3 => .notification
  | 4 => .keepAlive
  | code => .unknown code

/-- `struct ena_admin_aenq_entry`: group, syndrome, flags and inline data. -/
structure AenqEntry where
  group : Nat
  syndrome : Nat
  flags : Nat
  inline : Nat → Nat

/-- The event handler that the driver registers at probe. -/
def enaAenqDefaultHandler (nesting : Nat) (entry : AenqEntry) : Driver Int :=
  match AenqGroup.ofCode entry.group with
  | .fatalError => enaAdapterResetAndRecover env nesting
  | .linkChange => do
    modifyAdapter fun a => { a with linkUp := (entry.inline 0).testBit 0 }
    return 0
  | .keepAlive => do
    modifyAdapter fun a => { a with
      aenKeepalives := (a.aenKeepalives + 1) % 2 ^ 32
      aenRxDrops := entry.inline 1 * 2 ^ 32 + entry.inline 0
      aenTxDrops := entry.inline 3 * 2 ^ 32 + entry.inline 2 }
    return 0
  | _ => return 0

end Knot

end EnaDriver.Admin
