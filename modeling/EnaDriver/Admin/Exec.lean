import EnaDriver.Admin.State

/-!
# The admin command queue

One admin command at a time is written to the request ring and its completion
is polled from the completion ring.  The functions are parametrised by the
access to the adapter and to the device, because the device of a whole machine
answers within the doorbell while the device of a single queue may answer at any
later read.
-/

namespace EnaDriver.Admin

open Support.Laps Support.Programs Datapath

/-! ## Entries -/

/-- `struct ena_admin_acq_entry`; the extended status is only logged. -/
structure AcqEntry where
  command : Nat
  status : Nat
  flags : Nat
  response : Response

def AcqEntry.zero : AcqEntry := ⟨0, 0, 0, fun _ => 0⟩

def AcqEntry.phase (entry : AcqEntry) : Bool := entry.flags.testBit 0

abbrev AcqMem := Nat → AcqEntry

abbrev AcqViews := Nat → AcqMem

def phaseFlag (phase : Bool) : Nat := if phase then 1 else 0

@[simp] theorem phaseFlag_testBit (phase : Bool) : (phaseFlag phase).testBit 0 = phase := by
  cases phase <;> rfl

@[simp] theorem AcqEntry.phase_mk (command status : Nat) (phase : Bool) (response : Response) :
    AcqEntry.phase ⟨command, status, phaseFlag phase, response⟩ = phase := phaseFlag_testBit phase

/-- `sizeof(struct ena_admin_aq_entry)`. -/
def aqEntrySize : Nat := 64

def commandIdMask : Nat := 0xFFF

def polls (req : AdminReq) : Nat := if req.maxPolls = 0 then 1 else req.maxPolls

/-- The request ring entry of a command.  A request of full size replaces the
whole entry and keeps its flags; a shorter one is copied behind the common
descriptor.  Data whose first word is not zero counts as a control buffer. -/
def buildEntry (phase : Bool) (commandId : Nat) (req : AdminReq) : AqEntry :=
  let full := decide (aqEntrySize ≤ req.req.length)
  let data := if full then req.req.drop 4
    else (req.req ++ List.replicate 60 0).take 60
  let kept := if full then (req.req[3]?.getD 0) &&& 0xFE else 0
  let indirect := if (data.take 4).any (· != 0) then 0x04 else 0
  { commandId := commandId
    opcode := req.opcode
    flags := kept ||| indirect ||| phaseFlag phase
    data := data }

/-! ## Positions -/

namespace AdminQueues

def commandId (q : AdminQueues) : Nat := if q.nextCommandId = 0 then 1 else q.nextCommandId

def idAfter (q : AdminQueues) : Nat :=
  let next := (q.commandId + 1) &&& commandIdMask
  if next = 0 then 1 else next

theorem idAfter_lt (q : AdminQueues) : q.idAfter < 4096 := by
  have masked : (q.commandId + 1) &&& commandIdMask < 4096 := by
    rw [show commandIdMask = 2 ^ 12 - 1 from rfl, Nat.and_two_pow_sub_one_eq_mod]
    exact Nat.mod_lt _ (by decide)
  unfold idAfter
  dsimp only
  split <;> omega

def takeId (q : AdminQueues) : Nat × AdminQueues :=
  (q.commandId, { q with nextCommandId := q.idAfter, idBound := q.idAfter_lt })

theorem commandId_masked (q : AdminQueues) : q.commandId &&& commandIdMask = q.commandId := by
  have bound := q.idBound
  rw [show commandIdMask = 2 ^ 12 - 1 from rfl, Nat.and_two_pow_sub_one_eq_mod]
  apply Nat.mod_eq_of_lt
  unfold commandId
  split <;> omega

def acqSlot (q : AdminQueues) : Nat := q.acq.depth.slot q.acq.cursor.index

/-- The expected phase recomputed from the consumer position. -/
def restartAcq (q : AdminQueues) : AdminQueues :=
  { q with acq := { q.acq with
      cursor := { q.acq.cursor with phase := lapPhase q.acq.depth q.acq.cursor.index } } }

def advanceAq (q : AdminQueues) : AdminQueues :=
  { q with aq := { q.aq with cursor := q.aq.cursor.advance q.aq.depth } }

def advanceAcq (q : AdminQueues) : AdminQueues :=
  { q with acq := { q.acq with cursor := q.acq.cursor.advance q.acq.depth } }

end AdminQueues

/-- The rings of a fresh initialisation.  The event counter starts at the depth,
as its doorbell does. -/
def AdminQueues.fresh (aqBuf acqBuf aenqBuf : DmaBuf) (aq acq aenq : Depth) : AdminQueues where
  aq := ⟨aqBuf, aq, .start⟩
  acq := ⟨acqBuf, acq, .start⟩
  aenq := ⟨aenqBuf, aenq, ⟨aenq.val, true⟩⟩
  nextCommandId := 1
  idBound := by decide

/-! ## Completion -/

def pollAcq (phase : Bool) (slot : Nat) (views : AcqViews) : Nat → Nat → Option Nat
  | 0, _ => none
  | polls + 1, i =>
    if (views i slot).phase = phase then some i else pollAcq phase slot views polls (i + 1)

def copiedResponse (cap : Nat) (response : Response) : Response := fun i =>
  UInt32.ofNat ((response i).toNat % 2 ^ (8 * min 4 (min 56 cap - 4 * i)))

theorem copiedResponse_word {cap i : Nat} (response : Response) (fits : 4 * (i + 1) ≤ min 56 cap) :
    copiedResponse cap response i = response i := by
  have whole : min 4 (min 56 cap - 4 * i) = 4 := by omega
  have small : (response i).toNat < 2 ^ (8 * 4) := (response i).toNat_lt
  rw [copiedResponse, whole, Nat.mod_eq_of_lt small, UInt32.ofNat_toNat]

/-- What a command returns: the result code, the response buffer and the value
stored through `out_command_id`. -/
structure ExecOut where
  ret : Int
  resp : Response
  outCommandId : Option Nat

def ExecOut.fails (error : Int) : ExecOut := ⟨-error, fun _ => 0, none⟩

/-- The outcome of a command whose completion slot has been consumed. -/
def judge (commandId respCap : Nat) (entry : AcqEntry) : ExecOut :=
  if entry.command &&& commandIdMask ≠ commandId then
    .fails EIO
  else
    { ret := -(entry.status : Int)
      resp := copiedResponse respCap entry.response
      outCommandId := some (entry.command &&& commandIdMask) }

/-! ## Execution -/

def acqTailOff : Nat := 0x30

/-- Access to the adapter and to the device behind its command queue.
`ringAqDb` rings the doorbell with the new tail and returns what the completion
ring will show. -/
structure AdminIo (m : Type → Type) where
  adapter : m Adapter
  modify : (Adapter → Adapter) → m Unit
  regWrite32 : Nat → Nat → m Unit
  clearAcq : Nat → m Unit
  ringAqDb : AqEntry → Nat → m AcqViews

section Exec

variable {m : Type → Type} [Monad m] [MonadExceptOf Fault m] (io : AdminIo m)

/-- A held lock is never released by the spinning chain. -/
def enaAdminLockTake : m Unit := do
  let a ← io.adapter
  if a.adminLock then
    throw .lockHeld
  io.modify (·.setLock true)

def enaAdminLockDrop : m Unit := io.modify (·.setLock false)

def AdminIo.setQueues (q : AdminQueues) : m Unit := io.modify (·.setQueues q)

/-- The invalidation when the command ids start over at 1 behind a completion
ring that has been used: the expected phase is recomputed and the slot about to
be polled is cleared. -/
def restartIds (commandId : Nat) (q : AdminQueues) : m AdminQueues :=
  if commandId = 1 ∧ 0 < q.acq.cursor.index then do
    io.regWrite32 acqTailOff q.acq.cursor.index
    io.clearAcq q.acqSlot
    return q.restartAcq
  else
    return q

def awaitCompletion (q : AdminQueues) (slot commandId : Nat) (req : AdminReq) (views : AcqViews) :
    m ExecOut :=
  match pollAcq q.acq.cursor.phase slot views (polls req) 0 with
  | none => do
    io.modify (·.setState .error)
    return .fails ETIMEDOUT
  | some i => do
    let q := q.advanceAcq
    io.setQueues q
    io.regWrite32 acqTailOff q.acq.cursor.index
    return judge commandId req.respCap (views (i + 1) slot)

def enaAdminExecLocked (q : AdminQueues) (req : AdminReq) : m ExecOut := do
  if aqEntrySize < req.req.length then
    return .fails EINVAL
  let (commandId, q) := q.takeId
  let entry := buildEntry q.aq.cursor.phase commandId req
  let q ← restartIds io commandId q
  let slot := q.acqSlot
  let q := q.advanceAq
  io.setQueues q
  let views ← io.ringAqDb entry q.aq.cursor.index
  awaitCompletion io q slot commandId req views

/-- Run one admin command; a timeout resets the device outside the lock and is
reported to the caller either way. -/
def enaAdminExecCmd (recover : m Int) (req : AdminReq) : m ExecOut := do
  let a ← io.adapter
  match a.queues with
  | none => return .fails EINVAL
  | some q =>
    if a.state = .error then
      return .fails ENODEV
    enaAdminLockTake io
    let out ← enaAdminExecLocked io q req
    enaAdminLockDrop io
    if out.ret = -ETIMEDOUT then
      let _ ← recover
    return out

end Exec

/-! ## Initialisation -/

def aenqHeadDbOff : Nat := 0x40

def freeDma : Option DmaBuf → Driver Unit
  | none => return ()
  | some buf => enaDmaFree buf

def Adapter.finished (a : Adapter) : Adapter :=
  { a with queues := none, aenqHandler := false, hostInfo := none, state := .stopped }

/-- Release the admin rings and the host information buffer.  The device is not
told. -/
def enaAdminFini : Driver Unit := do
  let a ← adapter
  freeDma (a.queues.map fun q => q.aq.buf)
  freeDma (a.queues.map fun q => q.acq.buf)
  freeDma (a.queues.map fun q => q.aenq.buf)
  freeDma a.hostInfo
  modifyAdapter Adapter.finished

section Init

variable (env : Env)

def allocAdminRings : Driver (Option (DmaBuf × DmaBuf × DmaBuf)) := do
  let aq ← enaDmaAlloc env
  match aq with
  | none => return none
  | some aqBuf =>
    let acq ← enaDmaAlloc env
    match acq with
    | none =>
      enaDmaFree aqBuf
      return none
    | some acqBuf =>
      let aenq ← enaDmaAlloc env
      match aenq with
      | none =>
        enaDmaFree aqBuf
        enaDmaFree acqBuf
        return none
      | some aenqBuf => return some (aqBuf, acqBuf, aenqBuf)

def installAdminRings (aq acq aenq : Depth) (rings : DmaBuf × DmaBuf × DmaBuf) : Driver Unit := do
  let (aqBuf, acqBuf, aenqBuf) := rings
  modifyAdapter fun a => { a with
    queues := some (.fresh aqBuf acqBuf aenqBuf aq acq aenq)
    aenqHandler := false }
  record (.bases aqBuf acqBuf aenqBuf)
  record (.regWrite32 acqTailOff 0)
  record (.regWrite32 aenqHeadDbOff aenq.val)
  modifyAdapter fun a => { a with state := .adminReady }

def buildAdminRings (aqDepth acqDepth aenqDepth : UInt16) : Driver Int := do
  match Depth.ofRaw? aqDepth, Depth.ofRaw? acqDepth, Depth.ofRaw? aenqDepth with
  | some aq, some acq, some aenq =>
    let rings ← allocAdminRings env
    match rings with
    | none => return -ENOMEM
    | some rings =>
      installAdminRings aq acq aenq rings
      return 0
  | _, _, _ => return -EINVAL

def enaAdminInit (aqDepth acqDepth aenqDepth : UInt16) : Driver Int := do
  let a ← adapter
  if a.map.bar0Mapped = false then
    return -EINVAL
  onlyIf a.queues.isSome () enaAdminFini
  buildAdminRings env aqDepth acqDepth aenqDepth

end Init

/-! ## What initialisation does -/

def Adapter.buffers (a : Adapter) : List DmaBuf :=
  (a.queues.map fun q => q.aq.buf).toList ++ (a.queues.map fun q => q.acq.buf).toList ++
    (a.queues.map fun q => q.aenq.buf).toList ++ a.hostInfo.toList

@[simp] theorem freeDma_run (buf : Option DmaBuf) (m : Machine) :
    freeDma buf m = .ok ((), m.logged (buf.toList.map .dmaFree)) := by
  cases buf with
  | none => simp [freeDma]
  | some buf => simp [freeDma]

@[simp] theorem enaAdminFini_run (m : Machine) :
    enaAdminFini m =
      .ok ((), (m.withAdapter m.adapter.finished).logged (m.adapter.buffers.map .dmaFree)) := by
  simp [enaAdminFini, Adapter.buffers]

/-- The effects of an allocation of the admin rings that fails at one of them,
from time `t` on. -/
inductive FailedRings (t : Nat) : List Effect → Prop
  | first : FailedRings t [.dmaAlloc none]
  | second (a : BitVec 48) :
      FailedRings t [.dmaAlloc (some ⟨t, a⟩), .dmaAlloc none, .dmaFree ⟨t, a⟩]
  | third (a b : BitVec 48) :
      FailedRings t [.dmaAlloc (some ⟨t, a⟩), .dmaAlloc (some ⟨t + 1, b⟩), .dmaAlloc none,
        .dmaFree ⟨t, a⟩, .dmaFree ⟨t + 1, b⟩]

theorem allocAdminRings_cases (env : Env) (m : Machine) :
    (∃ effects, FailedRings m.log.length effects ∧
      allocAdminRings env m = .ok (none, m.logged effects)) ∨
    ∃ a b c : BitVec 48,
      allocAdminRings env m =
        .ok (some (⟨m.log.length, a⟩, ⟨m.log.length + 1, b⟩, ⟨m.log.length + 2, c⟩),
          m.logged [.dmaAlloc (some ⟨m.log.length, a⟩), .dmaAlloc (some ⟨m.log.length + 1, b⟩),
            .dmaAlloc (some ⟨m.log.length + 2, c⟩)]) := by
  unfold allocAdminRings
  cases first : env.dma m.log.length with
  | none => exact .inl ⟨_, .first, by simp [first]⟩
  | some a =>
    cases second : env.dma (m.log.length + 1) with
    | none => exact .inl ⟨_, .second a, by simp [first, second]⟩
    | some b =>
      cases third : env.dma (m.log.length + 2) with
      | none => exact .inl ⟨_, .third a b, by simp [first, second, third]⟩
      | some c => exact .inr ⟨a, b, c, by simp [first, second, third]⟩

def Machine.released (m : Machine) : Machine :=
  if m.adapter.queues.isSome then
    (m.withAdapter m.adapter.finished).logged (m.adapter.buffers.map .dmaFree)
  else m

def Adapter.ready (a : Adapter) (q : AdminQueues) : Adapter :=
  { a with queues := some q, aenqHandler := false, state := .adminReady }

def initEffects (aq acq aenq : DmaBuf) (aenqDepth : Depth) : List Effect :=
  [.dmaAlloc (some aq), .dmaAlloc (some acq), .dmaAlloc (some aenq), .bases aq acq aenq,
    .regWrite32 acqTailOff 0, .regWrite32 aenqHeadDbOff aenqDepth.val]

/-- Initialisation refuses, fails in an allocation, or publishes fresh rings. -/
theorem enaAdminInit_cases (env : Env) (aqDepth acqDepth aenqDepth : UInt16) (m : Machine) :
    (m.adapter.map.bar0Mapped = false ∧
      enaAdminInit env aqDepth acqDepth aenqDepth m = .ok (-EINVAL, m)) ∨
    ((Depth.ofRaw? aqDepth = none ∨ Depth.ofRaw? acqDepth = none ∨ Depth.ofRaw? aenqDepth = none) ∧
      enaAdminInit env aqDepth acqDepth aenqDepth m = .ok (-EINVAL, m.released)) ∨
    (∃ effects, FailedRings m.released.log.length effects ∧
      enaAdminInit env aqDepth acqDepth aenqDepth m = .ok (-ENOMEM, m.released.logged effects)) ∨
    ∃ (aq acq aenq : Depth) (a b c : BitVec 48),
      Depth.ofRaw? aqDepth = some aq ∧ Depth.ofRaw? acqDepth = some acq ∧
      Depth.ofRaw? aenqDepth = some aenq ∧
      enaAdminInit env aqDepth acqDepth aenqDepth m =
        .ok (0, (m.released.withAdapter (m.released.adapter.ready
          (.fresh ⟨m.released.log.length, a⟩ ⟨m.released.log.length + 1, b⟩
            ⟨m.released.log.length + 2, c⟩ aq acq aenq))).logged
          (initEffects ⟨m.released.log.length, a⟩ ⟨m.released.log.length + 1, b⟩
            ⟨m.released.log.length + 2, c⟩ aenq)) := by
  by_cases mapped : m.adapter.map.bar0Mapped = false
  · exact .inl ⟨mapped, by simp [enaAdminInit, mapped]⟩
  have opened : enaAdminInit env aqDepth acqDepth aenqDepth m =
      buildAdminRings env aqDepth acqDepth aenqDepth m.released := by
    unfold enaAdminInit Machine.released
    by_cases present : m.adapter.queues.isSome <;> simp [mapped, present]
  refine .inr ?_
  rw [opened]
  unfold buildAdminRings
  cases first : Depth.ofRaw? aqDepth with
  | none => exact .inl ⟨.inl rfl, rfl⟩
  | some aq =>
    cases second : Depth.ofRaw? acqDepth with
    | none => exact .inl ⟨.inr (.inl rfl), rfl⟩
    | some acq =>
      cases third : Depth.ofRaw? aenqDepth with
      | none => exact .inl ⟨.inr (.inr rfl), rfl⟩
      | some aenq =>
        refine .inr ?_
        rcases allocAdminRings_cases env m.released with ⟨effects, failed, ran⟩ | ⟨a, b, c, ran⟩
        · exact .inl ⟨effects, failed, by simp [ran]⟩
        · exact .inr ⟨aq, acq, aenq, a, b, c, rfl, rfl, rfl, by
            simp [ran, installAdminRings, initEffects, Adapter.ready]⟩

def onePair (map : DeviceMap) : Machine where
  adapter := { Adapter.scaffold map with
    state := .running
    queues := some (.fresh ⟨0, 0⟩ ⟨1, 0⟩ ⟨2, 0⟩ .four .four .four)
    numTxRings := 1
    numRxRings := 1 }
  dev := ⟨.running, 1, 1⟩
  tx := [some ⟨.fresh 0 .tx .four .four 0 0 0, none⟩]
  rx := [some ⟨.fresh 0 .rx .four .four 0 0 0, none⟩]
  log := []

end EnaDriver.Admin
