import EnaDriver.Datapath.Lifecycle
import EnaDriver.Support.Programs

/-!
# Creation and destruction of hardware queues

The queues of a ring are created and destroyed by admin commands.  The
functions below are parametrised by the command executor and by the access to
the ring, because a command may itself reset and re-create rings before it
returns.  The last section runs them over one ring and a device that answers
each command.
-/

namespace EnaDriver.Datapath

open Support.Programs

/-! ## Commands -/

/-- One admin command: opcode, request bytes, capacity of the response buffer
and poll budget. -/
structure AdminReq where
  opcode : Nat
  req : List Nat
  respCap : Nat
  maxPolls : Nat
  deriving DecidableEq, Repr

/-- `response_specific_data`: the 32-bit words of a response. -/
abbrev Response := Nat → UInt32

abbrev Exec (m : Type → Type) := AdminReq → m (Int × Response)

def le16 (value : Nat) : List Nat := [value % 256, value / 256 % 256]

def le32 (value : Nat) : List Nat := le16 value ++ le16 (value / 2 ^ 16)

/-- `struct ena_common_mem_addr`: a 48-bit address. -/
def memAddr (phys : Nat) : List Nat := le32 phys ++ le16 (phys / 2 ^ 32) ++ le16 0

def datapathMaxPolls : Nat := 5000

/-- `ENA_ADMIN_CREATE_CQ` with interrupt mode enabled. -/
def createCqReq (cqDepth cqPhys msixVector entrySizeWords : Nat) : AdminReq where
  opcode := 3
  req := [32, if entrySizeWords = 0 then 4 else entrySizeWords] ++ le16 cqDepth ++
    le32 msixVector ++ memAddr cqPhys
  respCap := 16
  maxPolls := datapathMaxPolls

def destroyCqReq (cqIdx : Nat) : AdminReq := ⟨4, le16 cqIdx ++ le16 0, 0, datapathMaxPolls⟩

inductive Placement where
  | host
  | dev
  deriving DecidableEq, Repr

def Placement.code : Placement → Nat
  | .host => 1
  | .dev => 3

/-- `ENA_ADMIN_CREATE_SQ`; the addresses are present in host placement only. -/
def createSqReq (placement : Placement) (sqDepth sqPhys sqHeadWbPhys cqIdx direction : Nat) :
    AdminReq where
  opcode := 1
  req := [direction % 8 * 32, 0, placement.code, 1] ++ le16 cqIdx ++ le16 sqDepth ++
    (match placement with
      | .host => memAddr sqPhys ++ memAddr sqHeadWbPhys
      | .dev => memAddr 0 ++ memAddr 0) ++ le32 0 ++ le32 0
  respCap := 16
  maxPolls := datapathMaxPolls

def destroySqReq (sqIdx : Nat) : AdminReq := ⟨2, le16 sqIdx ++ le16 0, 0, datapathMaxPolls⟩

/-! ## Response fields -/

namespace Response

def queueIdx (resp : Response) : Nat := (resp 0).toNat % 2 ^ 16

def cqHeadDbOffset (resp : Response) : Nat := (resp 2).toNat

def cqUnmaskOffset (resp : Response) : Nat := (resp 3).toNat

def sqDoorbellOffset (resp : Response) : Nat := (resp 1).toNat

def llqDescriptorsOffset (resp : Response) : Nat := (resp 2).toNat

def llqHeadersOffset (resp : Response) : Nat := (resp 3).toNat

end Response

/-! ## The device as the datapath sees it -/

structure LlqInfo where
  enabled : Bool
  maxLlqNum : Nat
  entrySize : Nat
  headerLen : Nat
  deriving DecidableEq, Repr

/-- The register windows of the adapter and its negotiated push mode; an
unmapped window has no base. -/
structure DeviceMap where
  bar0Mapped : Bool
  bar0Size : Nat
  bar2Mapped : Bool
  bar2Size : Nat
  llq : LlqInfo
  deriving DecidableEq, Repr

def DeviceMap.badOffset (dev : DeviceMap) (offset : Nat) : Bool :=
  decide (dev.bar0Size < offset + 4) || (offset &&& 3) != 0

/-- The entry size of a push ring, 128 bytes unless negotiated. -/
def LlqInfo.pushEntrySize (llq : LlqInfo) : Nat := if llq.entrySize = 0 then 128 else llq.entrySize

def DeviceMap.badPushArea (dev : DeviceMap) (sqDepth descsOff headersOff : Nat) : Bool :=
  let area := sqDepth * dev.llq.pushEntrySize
  descsOff == 0 || decide (dev.bar2Size < descsOff + area) ||
    (headersOff != 0 && decide (dev.bar2Size < headersOff + area))

/-- A transmit ring is created in device placement when push mode is on. -/
def DeviceMap.wantsLlq (dev : DeviceMap) (r : Ring) : Bool :=
  r.ringType == .tx && dev.llq.enabled && dev.bar2Mapped && decide (0 < dev.bar2Size) &&
    (dev.llq.maxLlqNum == 0 || decide (r.qid < dev.llq.maxLlqNum))

structure RingAccess (m : Type → Type) where
  get : m Ring
  modify : (Ring → Ring) → m Unit

def RingAccess.modifyHw {m : Type → Type} (ring : RingAccess m) (f : HwQueue → HwQueue) : m Unit :=
  ring.modify fun r => { r with hw := f r.hw }

/-! ## The functions -/

section Functions

variable {m : Type → Type} [Monad m] (dev : DeviceMap) (exec : Exec m) (ring : RingAccess m)

def enaAdminDestroyCq (cqIdx : Nat) : m Int := do
  let (ret, _) ← exec (destroyCqReq cqIdx)
  return ret

def enaAdminDestroySq (sqIdx : Nat) : m Int := do
  let (ret, _) ← exec (destroySqReq sqIdx)
  return ret

/-- Create a completion queue.  The answer is stored in the ring before its
doorbell offset is checked, and the unmask offset is not checked here. -/
def enaAdminCreateCq (msixVector : Nat) : m Int := do
  let r ← ring.get
  let (ret, resp) ← exec
    (createCqReq r.cqDepth.val r.cqPhys msixVector (r.cqElemSize / 4 % 256))
  if ret ≠ 0 then
    return ret
  ring.modifyHw fun hw => { hw with
    cqIdx := resp.queueIdx
    cqDbOffset := resp.cqHeadDbOffset
    cqUnmaskDbOffset := resp.cqUnmaskOffset }
  if dev.bar0Size ≠ 0 ∧ resp.cqHeadDbOffset ≠ 0 ∧ dev.badOffset resp.cqHeadDbOffset then
    let _ ← enaAdminDestroyCq exec resp.queueIdx
    return -EINVAL
  return 0

/-- Create a submission queue and store the answer; the LLQ offsets are
returned next to the result. -/
def enaAdminCreateSqCommon (placement : Placement) (direction : Nat) : m (Int × Nat × Nat) := do
  let r ← ring.get
  let (ret, resp) ← exec
    (createSqReq placement r.sqDepth.val r.sqPhys r.sqHeadWbPhys r.hw.cqIdx direction)
  if ret ≠ 0 then
    return (ret, 0, 0)
  ring.modifyHw fun hw => { hw with
    sqIdx := resp.queueIdx
    sqDbOffset := resp.sqDoorbellOffset }
  if dev.bar0Size ≠ 0 ∧ resp.sqDoorbellOffset ≠ 0 ∧ dev.badOffset resp.sqDoorbellOffset then
    let _ ← enaAdminDestroySq exec resp.queueIdx
    return (-EINVAL, resp.llqDescriptorsOffset, resp.llqHeadersOffset)
  return (0, resp.llqDescriptorsOffset, resp.llqHeadersOffset)

def enaAdminCreateSq (direction : Nat) : m Int := do
  let (ret, _) ← enaAdminCreateSqCommon dev exec ring .host direction
  return ret

/-- The attempt to create the submission queue in device placement: the BAR2
offset of its descriptors, or `none` when the ring uses host memory. -/
def createSqLlq (direction : Nat) : m (Option Nat) := do
  let r ← ring.get
  if dev.wantsLlq r = false then
    return none
  let (ret, descsOff, headersOff) ← enaAdminCreateSqCommon dev exec ring .dev direction
  if ret ≠ 0 then
    return none
  let r ← ring.get
  if dev.badPushArea r.sqDepth.val descsOff headersOff then
    let _ ← enaAdminDestroySq exec r.hw.sqIdx
    return none
  return some descsOff

/-- Create the submission queue of a ring: the result, and the push offset of a
queue in device placement. -/
def createSqPlaced (direction : Nat) : m (Int × Option Nat) := do
  let placed ← createSqLlq dev exec ring direction
  match placed with
  | some descsOff => return (0, some descsOff)
  | none =>
    let ret ← enaAdminCreateSq dev exec ring direction
    return (ret, none)

def HwQueue.installPush (hw : HwQueue) (dev : DeviceMap) (sqDepth descsOff : Nat) : HwQueue :=
  { hw with
    isLlq := true
    pushBufVirt := some descsOff
    pushBufPhys := 0
    pushBufSize := sqDepth * dev.llq.pushEntrySize % 2 ^ 32
    llqEntrySize := dev.llq.pushEntrySize
    llqHeaderLen := dev.llq.headerLen }

def msixNone : Nat := 0xFFFFFFFF

def RingType.direction : RingType → Nat
  | .tx => 1
  | .rx => 2

/-- Map the doorbell of a created completion queue and check its unmask
register; an unusable offset destroys the queue. -/
def mapCqRegisters : m Int := do
  let made ← ring.get
  if made.hw.cqDbOffset ≠ 0 ∧ dev.badOffset made.hw.cqDbOffset then
    let _ ← enaAdminDestroyCq exec made.hw.cqIdx
    return -EINVAL
  ring.modifyHw fun hw => { hw with
    cqDb := if hw.cqDbOffset ≠ 0 then some hw.cqDbOffset else hw.cqDb }
  if made.hw.cqUnmaskDbOffset ≠ 0 ∧ dev.badOffset made.hw.cqUnmaskDbOffset then
    let _ ← enaAdminDestroyCq exec made.hw.cqIdx
    return -EINVAL
  return 0

/-- Map the doorbell of a created submission queue; an unusable offset destroys
both queues. -/
def mapSqRegisters : m Int := do
  let made ← ring.get
  if made.hw.sqDbOffset ≠ 0 ∧ dev.badOffset made.hw.sqDbOffset then
    let _ ← enaAdminDestroySq exec made.hw.sqIdx
    let failed ← ring.get
    let _ ← enaAdminDestroyCq exec failed.hw.cqIdx
    return -EINVAL
  ring.modifyHw fun hw => { hw with
    sqDb := if hw.sqDbOffset ≠ 0 then some hw.sqDbOffset else hw.sqDb }
  return 0

def HwQueue.activate (hw : HwQueue) (dev : DeviceMap) (sqDepth : Nat) (push : Option Nat) :
    HwQueue :=
  let hw := match push with
    | none => hw
    | some descsOff => hw.installPush dev sqDepth descsOff
  { hw with valid := true }

/-- Create the completion queue and the submission queue of a ring, and map
their registers.  The positions of the ring are left as they are. -/
def enaRingCreateHw (msixVector : Nat) : m Int := do
  let r ← ring.get
  if dev.bar0Mapped = false then
    return -EINVAL
  let ret ← enaAdminCreateCq dev exec ring (if msixVector ≠ 0 then msixVector else msixNone)
  if ret ≠ 0 then
    return ret
  let ret ← mapCqRegisters dev exec ring
  if ret ≠ 0 then
    return ret
  let (ret, push) ← createSqPlaced dev exec ring r.ringType.direction
  if ret ≠ 0 then
    let failed ← ring.get
    let _ ← enaAdminDestroyCq exec failed.hw.cqIdx
    return ret
  let ret ← mapSqRegisters dev exec ring
  if ret ≠ 0 then
    return ret
  ring.modify fun r => { r with hw := r.hw.activate dev r.sqDepth.val push }
  return 0

def HwQueue.tearDown (hw : HwQueue) : HwQueue :=
  { hw with
    valid := false
    sqDb := none
    cqDb := none
    cqUnmaskDbOffset := 0
    isLlq := false
    pushBufVirt := none
    pushBufPhys := 0
    pushBufSize := 0
    llqEntrySize := 0
    llqHeaderLen := 0 }

/-- Destroy the queues of a ring.  The positions of the ring are left as they
are, and a failed command does not keep the ring valid. -/
def enaRingDestroyHw : m Int := do
  let r ← ring.get
  let sqRet ← enaAdminDestroySq exec r.hw.sqIdx
  let r ← ring.get
  let cqRet ← enaAdminDestroyCq exec r.hw.cqIdx
  ring.modifyHw HwQueue.tearDown
  return if sqRet ≠ 0 then sqRet else cqRet

end Functions

/-! ## What the functions keep

A judgement that holds of the commands and of the updates of the hardware part
holds of creation and destruction as well. -/

/-- The requests about the queues of a ring: those of a creation name a vector and
the direction of the ring. -/
inductive QueueRequest (Vector : Nat → Prop) (Side : RingType → Prop) : AdminReq → Prop
  | createCq {vector : Nat} (cqDepth cqPhys words : Nat) : Vector vector →
      QueueRequest Vector Side (createCqReq cqDepth cqPhys vector words)
  | destroyCq (cqIdx : Nat) : QueueRequest Vector Side (destroyCqReq cqIdx)
  | createSq {side : RingType} (placement : Placement) (sqDepth sqPhys sqHeadWbPhys cqIdx : Nat) :
      Side side → QueueRequest Vector Side
        (createSqReq placement sqDepth sqPhys sqHeadWbPhys cqIdx side.direction)
  | destroySq (sqIdx : Nat) : QueueRequest Vector Side (destroySqReq sqIdx)

structure QueueAccess {σ : Type} (J : {α : Type} → Prog σ Fault α → Prop) (Vector : Nat → Prop)
    (Side : RingType → Prop) (exec : Exec (Prog σ Fault)) (ring : RingAccess (Prog σ Fault)) : Prop
    extends Composes J where
  command : ∀ req, QueueRequest Vector Side req → J (exec req)
  get : ∀ {α : Type} {next : Ring → Prog σ Fault α}, (∀ r, Side r.ringType → J (next r)) →
    J (ring.get >>= next)
  setHw : ∀ change : Ring → HwQueue, J (ring.modify fun r => { r with hw := change r })

namespace QueueAccess

variable {σ : Type} {J : {α : Type} → Prog σ Fault α → Prop} {Vector : Nat → Prop}
  {Side : RingType → Prop} {exec : Exec (Prog σ Fault)} {ring : RingAccess (Prog σ Fault)}
  (dev : DeviceMap) (access : QueueAccess J Vector Side exec ring)
include access

theorem destroyCq (cqIdx : Nat) : J (enaAdminDestroyCq exec cqIdx) :=
  access.bind (access.command _ (.destroyCq cqIdx)) fun _ => access.pure _

theorem destroySq (sqIdx : Nat) : J (enaAdminDestroySq exec sqIdx) :=
  access.bind (access.command _ (.destroySq sqIdx)) fun _ => access.pure _

theorem createCq {vector : Nat} (named : Vector vector) :
    J (enaAdminCreateCq dev exec ring vector) := by
  refine access.get fun r _ => ?_
  refine access.bind (access.command _ (.createCq _ _ _ named)) fun answer => ?_
  refine access.ite (access.pure _) ?_
  refine access.bind (access.setHw _) fun _ => ?_
  exact access.ite (access.after (access.destroyCq _) _) (access.pure _)

section Placed

variable {side : RingType} (own : Side side)
include own

theorem createSqCommon (placement : Placement) :
    J (enaAdminCreateSqCommon dev exec ring placement side.direction) := by
  refine access.get fun r _ => ?_
  refine access.bind (access.command _ (.createSq placement _ _ _ _ own)) fun answer => ?_
  refine access.ite (access.pure _) ?_
  refine access.bind (access.setHw _) fun _ => ?_
  exact access.ite (access.after (access.destroySq _) _) (access.pure _)

theorem createSqLlq : J (Datapath.createSqLlq dev exec ring side.direction) := by
  refine access.get fun r _ => ?_
  refine access.ite (access.pure _) ?_
  refine access.bind (access.createSqCommon dev own .dev) fun made => ?_
  refine access.ite (access.pure _) ?_
  refine access.get fun r _ => ?_
  exact access.ite (access.after (access.destroySq _) _) (access.pure _)

theorem createSqPlaced : J (Datapath.createSqPlaced dev exec ring side.direction) := by
  refine access.bind (access.createSqLlq dev own) fun placed => ?_
  cases placed with
  | some descsOff => exact access.pure _
  | none =>
    refine access.bind ?_ fun _ => access.pure _
    exact access.bind (access.createSqCommon dev own .host) fun _ => access.pure _

end Placed

theorem mapCqRegisters : J (Datapath.mapCqRegisters dev exec ring) := by
  refine access.get fun made _ => ?_
  refine access.ite (access.after (access.destroyCq _) _) ?_
  refine access.bind (access.setHw _) fun _ => ?_
  exact access.ite (access.after (access.destroyCq _) _) (access.pure _)

theorem mapSqRegisters : J (Datapath.mapSqRegisters dev exec ring) := by
  refine access.get fun made _ => ?_
  refine access.ite ?_ (access.after (access.setHw _) _)
  refine access.bind (access.destroySq _) fun _ => access.get fun failed _ => ?_
  exact access.after (access.destroyCq _) _

theorem createHw {vector : Nat} (named : Vector (if vector ≠ 0 then vector else msixNone)) :
    J (enaRingCreateHw dev exec ring vector) := by
  refine access.get fun r own => ?_
  refine access.ite (access.pure _) ?_
  refine access.bind (access.createCq dev named) fun ret => ?_
  refine access.ite (access.pure _) ?_
  refine access.bind (access.mapCqRegisters dev) fun ret => ?_
  refine access.ite (access.pure _) ?_
  refine access.bind (access.createSqPlaced dev own) fun placed => ?_
  refine access.ite ?_ ?_
  · exact access.get fun failed _ => access.after (access.destroyCq _) _
  · refine access.bind (access.mapSqRegisters dev) fun ret => ?_
    exact access.ite (access.pure _) (access.after (access.setHw _) _)

theorem destroyHw : J (enaRingDestroyHw exec ring) := by
  refine access.get fun r _ => ?_
  refine access.bind (access.destroySq _) fun sqRet => ?_
  refine access.get fun r _ => ?_
  refine access.bind (access.destroyCq _) fun cqRet => ?_
  exact access.after (access.setHw _) _

end QueueAccess

theorem Keeps.queueAccess {σ : Type} {inv : σ → Prop} {rel : σ → σ → Prop}
    {exec : Exec (Prog σ Fault)} {ring : RingAccess (Prog σ Fault)} (refl : ∀ state, rel state state)
    (trans : ∀ first second third, rel first second → rel second third → rel first third)
    (command : ∀ req, Keeps inv rel (exec req)) (get : Keeps inv rel ring.get)
    (setHw : ∀ change : Ring → HwQueue,
      Keeps inv rel (ring.modify fun r => { r with hw := change r })) :
    QueueAccess (Keeps inv rel) (fun _ => True) (fun _ => True) exec ring where
  toComposes := Keeps.composes refl trans
  command := fun req _ => command req
  get := fun next => Keeps.bind trans get fun r => next r trivial
  setHw := setHw

/-! ## One ring -/

def ringAccess : RingAccess (Prog Ring Fault) := ⟨get, modify⟩

def answering (answers : AdminReq → Int × Response) : Exec (Prog Ring Fault) :=
  fun req => pure (answers req)

def HwOnly (r next : Ring) : Prop := ∃ hw, next = { r with hw := hw }

theorem HwOnly.refl (r : Ring) : HwOnly r r := ⟨r.hw, rfl⟩

theorem HwOnly.trans {r middle next : Ring} (earlier : HwOnly r middle)
    (later : HwOnly middle next) : HwOnly r next := by
  obtain ⟨_, rfl⟩ := earlier
  obtain ⟨hw, rfl⟩ := later
  exact ⟨hw, rfl⟩

/-- On one ring, commands and updates change the hardware part only. -/
theorem ringAccess_hwOnly (answers : AdminReq → Int × Response) :
    QueueAccess (Keeps (fun _ => True) HwOnly) (fun _ => True) (fun _ => True) (answering answers)
      ringAccess :=
  Keeps.queueAccess HwOnly.refl (fun _ _ _ => HwOnly.trans) (fun _ => Keeps.pure HwOnly.refl _)
    (Keeps.get HwOnly.refl) fun _ => Keeps.update fun _ _ => ⟨trivial, _, rfl⟩

def createHwOn (dev : DeviceMap) (answers : AdminReq → Int × Response) (msixVector : Nat)
    (r : Ring) : Except Fault (Int × Ring) :=
  enaRingCreateHw dev (answering answers) ringAccess msixVector r

def destroyHwOn (answers : AdminReq → Int × Response) (r : Ring) : Except Fault (Int × Ring) :=
  enaRingDestroyHw (answering answers) ringAccess r

theorem createHwOn_hwOnly (dev : DeviceMap) (answers : AdminReq → Int × Response)
    (msixVector : Nat) (r : Ring) :
    ∃ ret hw, createHwOn dev answers msixVector r = .ok (ret, { r with hw := hw }) := by
  obtain ⟨ret, next, ran, _, hw, same⟩ :=
    (ringAccess_hwOnly answers).createHw dev trivial r trivial
  exact ⟨ret, hw, ran.trans (by rw [same])⟩

theorem destroyHwOn_hwOnly (answers : AdminReq → Int × Response) (r : Ring) :
    ∃ ret hw, destroyHwOn answers r = .ok (ret, { r with hw := hw }) := by
  obtain ⟨ret, next, ran, _, hw, same⟩ :=
    (ringAccess_hwOnly answers).destroyHw r trivial
  exact ⟨ret, hw, ran.trans (by rw [same])⟩

end EnaDriver.Datapath
