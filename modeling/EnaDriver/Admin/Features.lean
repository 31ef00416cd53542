import EnaDriver.Admin.Exec

/-!
# Device features

Bring-up reads the attributes and limits of the device and sets the features
that the driver uses; the functions are parametrised by the command executor.
The executor is also given the content of the control buffer that a request
points to, since the device reads it while it serves the command.
-/

namespace EnaDriver.Admin

open Datapath

abbrev CtrlExec := List Nat → Exec Driver

/-! ## Requests -/

/-- `enum ena_admin_aq_feature_id`, as far as the driver uses it. -/
inductive Feature where
  | deviceAttributes
  | maxQueuesNum
  | llq
  | rssHashFunction
  | rssIndirectionTable
  | mtu
  | rssHashInput
  | aenqConfig
  | hostAttrConfig
  deriving DecidableEq, Repr

def Feature.code : Feature → Nat
  | .deviceAttributes => 1
  | .maxQueuesNum => 2
  | .llq => 4
  | .rssHashFunction => 10
  | .rssIndirectionTable => 12
  | .mtu => 14
  | .rssHashInput => 18
  | .aenqConfig => 26
  | .hostAttrConfig => 28

def ctrlBuffInfo (length phys : Nat) : List Nat := le32 length ++ memAddr phys

def featureMaxPolls : Nat := 5000

/-- A feature command: the control buffer, the common descriptor that selects
the current value, and the payload. -/
def featureReq (opcode : Nat) (feature : Feature) (ctrl payload : List Nat) (respCap : Nat) :
    AdminReq where
  opcode := opcode
  req := ctrl ++ [1, feature.code, 0, 0] ++ payload
  respCap := respCap
  maxPolls := featureMaxPolls

def getFeatureWith (feature : Feature) (ctrl payload : List Nat) (respCap : Nat) : AdminReq :=
  featureReq 8 feature ctrl payload respCap

/-- `struct ena_admin_get_feat_inline`. -/
def getFeatureReq (feature : Feature) (respCap : Nat) : AdminReq :=
  getFeatureWith feature (ctrlBuffInfo 0 0) (List.replicate 44 0) respCap

def setFeatureReq (feature : Feature) (ctrl payload : List Nat) : AdminReq :=
  featureReq 9 feature ctrl payload 0

/-! ## Attributes and limits -/

/-- The attributes in a response; the MAC address has six bytes and the maximum
MTU is cut to 16 bits. -/
def attrOf (resp : Response) : DeviceAttr where
  implId := (resp 0).toNat
  deviceVersion := (resp 1).toNat
  supportedFeatures := (resp 2).toNat
  attrCaps := (resp 3).toNat
  physAddrWidth := (resp 4).toNat
  virtAddrWidth := (resp 5).toNat
  macLow := (resp 6).toNat
  macHigh := (resp 7).toNat % 2 ^ 16
  maxMtu := (resp 8).toNat % 2 ^ 16

def DeviceAttr.supports (attr : DeviceAttr) (feature : Feature) : Bool :=
  attr.supportedFeatures.testBit feature.code

def clearLowBits : Nat → Nat → Nat
  | 0, d => d
  | fuel + 1, d => if d &&& (d - 1) ≠ 0 then clearLowBits fuel (d &&& (d - 1)) else d

def clampQueueDepth (raw : Nat) : Nat := clearLowBits 32 (max 4 (min 4096 raw))

def clampQueueNum (raw : Nat) : Nat :=
  if 256 < raw then 256 else if raw = 0 then 1 else raw

def limitsOf (resp : Response) : QueueLimits where
  maxTxQueues := min (clampQueueNum (resp 2).toNat) (clampQueueNum (resp 0).toNat)
  maxRxQueues := min (clampQueueNum (resp 2).toNat) (clampQueueNum (resp 0).toNat)
  maxTxRingSize := min (clampQueueDepth (resp 3).toNat) (clampQueueDepth (resp 1).toNat)
  maxRxRingSize := min (clampQueueDepth (resp 3).toNat) (clampQueueDepth (resp 1).toNat)
  maxHeaderSize := (resp 6).toNat
  maxPacketTxDescs := (resp 7).toNat % 2 ^ 16
  maxPacketRxDescs := (resp 7).toNat / 2 ^ 16

section Functions

variable (env : Env) (exec : CtrlExec)

def enaInitGetDeviceAttributes : Driver Int := do
  let (ret, resp) ← exec [] (getFeatureReq .deviceAttributes 56)
  if ret ≠ 0 then
    return ret
  modifySettings fun s => { s with attr := attrOf resp }
  return 0

def enaInitGetQueueLimits : Driver Int := do
  let (ret, resp) ← exec [] (getFeatureReq .maxQueuesNum 56)
  if ret ≠ 0 then
    return ret
  modifySettings fun s => { s with limits := limitsOf resp }
  return 0

/-! ## Settings -/

def hostAttrReq (phys : Nat) : AdminReq :=
  setFeatureReq .hostAttrConfig (ctrlBuffInfo 0 0) (memAddr phys ++ memAddr 0 ++ le32 0)

/-- Allocate the host information page and announce it to the device.  The text
of the page is not modelled. -/
def enaInitSetHostInfo : Driver Int := do
  let page ← enaDmaAlloc env
  match page with
  | none => return -ENOMEM
  | some buf =>
    let (ret, _) ← exec [] (hostAttrReq buf.phys.toNat)
    if ret ≠ 0 then
      enaDmaFree buf
      return ret
    modifyAdapter fun a => { a with hostInfo := some buf }
    return 0

def mtuMin : Nat := 46

def mtuMax : Nat := 0xFFFF

def mtuReq (mtu : Nat) : AdminReq := setFeatureReq .mtu (ctrlBuffInfo 0 0) (le32 mtu)

def enaInitSetMtu (mtu : Nat) : Driver Int := do
  if mtu < mtuMin ∨ mtuMax < mtu then
    return -EINVAL
  let (ret, _) ← exec [] (mtuReq mtu)
  if ret ≠ 0 then
    return ret
  modifySettings fun s => { s with mtu := mtu }
  return 0

def enaInitGetMacAddr : Driver Int := enaInitGetDeviceAttributes exec

/-- Forget the push mode.  The answer of the device is read and then not used:
the driver keeps the standard submission queues. -/
def enaInitConfigLlq : Driver Int := do
  modifyAdapter fun a => { a with map := { a.map with llq := LlqInfo.zero } }
  let a ← adapter
  if a.map.bar2Mapped = false ∨ a.map.bar2Size = 0 then
    return 0
  let _ ← exec [] (getFeatureReq .llq 32)
  return 0

def aenqGroupsAll : Nat := 0x1F

def aenqReq (supported groups : Nat) : AdminReq :=
  setFeatureReq .aenqConfig (ctrlBuffInfo 0 0) (le32 supported ++ le32 groups)

/-- Enable the event groups that the device supports.  A command that fails
leaves them disabled and is not reported. -/
def enaInitConfigAenq : Driver Int := do
  let a ← adapter
  if a.settings.attr.supports .aenqConfig = false then
    return 0
  let (ret, resp) ← exec [] (getFeatureReq .aenqConfig 56)
  if ret ≠ 0 then
    return 0
  let supported := (resp 0).toNat
  let groups := supported &&& aenqGroupsAll
  if groups = 0 then
    return 0
  let (ret, _) ← exec [] (aenqReq supported groups)
  if ret ≠ 0 then
    return 0
  modifySettings fun s => { s with aenqEnabledGroups := groups }
  return 0

/-! ## Bring-up -/

/-- Negotiate the device settings.  The event groups are best-effort. -/
def enaInitRun (mtu : Nat) : Driver Int := do
  let ret ← enaInitGetDeviceAttributes exec
  if ret ≠ 0 then
    return ret
  let ret ← enaInitGetQueueLimits exec
  if ret ≠ 0 then
    return ret
  let ret ← enaInitSetHostInfo env exec
  if ret ≠ 0 then
    return ret
  let _ ← enaInitConfigAenq exec
  let ret ← enaInitConfigLlq exec
  if ret ≠ 0 then
    return ret
  let ret ← enaInitSetMtu exec mtu
  if ret ≠ 0 then
    return ret
  let ret ← enaInitGetMacAddr exec
  if ret ≠ 0 then
    return ret
  modifyAdapter (·.setState .configured)
  return 0

end Functions

end EnaDriver.Admin
