import EnaDriver.Admin.Features

/-!
# Receive-side scaling

The hash key, the hash control and the indirection table are control buffers in
DMA memory.  They are allocated once, and every configuration fills them again
and hands them to the device.  The table is read back afterwards for the log
only, so a failure of that command is not reported.
-/

namespace EnaDriver.Admin

open Support.Programs Datapath

/-! ## Buffer contents -/

def defaultToeplitzKey : List Nat :=
  [0x6d, 0x5a, 0x56, 0xda, 0x25, 0x5b, 0x0e, 0xc2, 0x41, 0x67,
   0x25, 0x3d, 0x43, 0xa3, 0x8f, 0xb0, 0xd0, 0xca, 0x2b, 0xcb,
   0xae, 0x7b, 0x30, 0xb4, 0x77, 0xcb, 0x2d, 0xa3, 0x80, 0x30,
   0xf2, 0x0c, 0x6a, 0x42, 0xb7, 0x3b, 0xbe, 0xac, 0x01, 0xfa]

/-- `struct ena_admin_feature_rss_flow_hash_control`. -/
def hashKeyBytes (key : List Nat) : List Nat := le32 10 ++ le32 0 ++ key

/-- The selected fields of one protocol: TCP and UDP over IPv4 hash addresses
and ports, other IPv4 packets hash addresses. -/
def selectedFields (proto : Nat) : Nat :=
  if proto = 0 ∨ proto = 1 then 8 ||| 4 ||| 32 ||| 16
  else if proto = 4 ∨ proto = 6 then 8 ||| 4
  else 0

/-- `struct ena_admin_feature_rss_hash_control`: four tables of 16 protocols, of
which the second is filled. -/
def hashCtrlBytes : List Nat :=
  List.replicate 64 0 ++ (List.range 16).flatMap (fun proto => le16 (selectedFields proto) ++ le16 0) ++
    List.replicate 128 0

def indTableBytes (entries : List Nat) : List Nat := entries.flatMap fun sqIdx => le16 sqIdx ++ le16 0

def ctz : Nat → Nat → Nat
  | 0, _ => 0
  | fuel + 1, n => if n % 2 = 1 then 0 else ctz fuel (n / 2) + 1

/-! ## Requests -/

def hashKeyReq (phys : Nat) : AdminReq :=
  setFeatureReq .rssHashFunction (ctrlBuffInfo 48 phys) (le32 0 ++ le32 2 ++ le32 0)

def hashCtrlReq (phys : Nat) : AdminReq :=
  setFeatureReq .rssHashInput (ctrlBuffInfo 256 phys) (le16 0 ++ le16 6)

def indTablePayload (size : Nat) : List Nat :=
  le16 0 ++ le16 0 ++ le16 (ctz 16 size) ++ le16 0 ++ le32 0xFFFFFFFF ++ le32 0

def indTableReq (size phys : Nat) : AdminReq :=
  setFeatureReq .rssIndirectionTable (ctrlBuffInfo (size * 4) phys) (indTablePayload size)

def indTableReadReq (size phys : Nat) : AdminReq :=
  getFeatureWith .rssIndirectionTable (ctrlBuffInfo (size * 4) phys) (indTablePayload size) 16

def indTableLimitsReq : AdminReq :=
  getFeatureWith .rssIndirectionTable (ctrlBuffInfo 0 0) (List.replicate 16 0) 16

/-! ## Allocation -/

def CtrlBuf.fill (ctrl : CtrlBuf) (bytes : List Nat) : CtrlBuf := ⟨ctrl.buf, bytes⟩

def modifyRss (change : RssInfo → RssInfo) : Driver Unit :=
  modifySettings fun s => { s with rss := change s.rss }

def coveringLog : Nat → Nat → Nat → Nat
  | 0, log, _ => log
  | fuel + 1, log, queues => if 2 ^ log < queues then coveringLog fuel (log + 1) queues else log

/-- The table size for a number of queues within the limits of the device; `none`
keeps the fixed size. -/
def clampTableSize (queues minLog maxLog : Nat) : Option Nat :=
  if minLog = 0 ∨ maxLog < minLog then none
  else
    let requested := coveringLog 16 1 queues
    some (2 ^ min 14 (max minLog (min maxLog requested)))

section Functions

variable (env : Env) (exec : CtrlExec)

/-- Size the table by the limits of the device; a failure keeps the fixed size. -/
def enaRssQueryIndTableLimits : Driver Unit := do
  let a ← adapter
  if a.numRxRings < 2 then
    return ()
  let (ret, resp) ← exec [] indTableLimitsReq
  if ret ≠ 0 then
    return ()
  match clampTableSize a.numRxRings ((resp 0).toNat % 2 ^ 16) ((resp 0).toNat / 2 ^ 16) with
  | none => return ()
  | some size => modifyRss fun rss => { rss with indTableSize := size }

def enaRssFini : Driver Unit := do
  let a ← adapter
  let rss := a.settings.rss
  freeDma (rss.indTable.map CtrlBuf.buf)
  freeDma (rss.hashKey.map CtrlBuf.buf)
  freeDma (rss.hashCtrl.map CtrlBuf.buf)
  modifyRss fun rss => { rss with
    supported := false
    enabled := false
    hostIndTable := none
    indTable := none
    hashKey := none
    hashCtrl := none }

def rssAllocHostTable : Driver Bool := do
  let memory ← heapAlloc env
  match memory with
  | none => return false
  | some _ =>
    modifyRss fun rss => { rss with hostIndTable := some (List.replicate rss.indTableSize 0) }
    return true

/-- Allocate the table of the device; a failure releases the one of the driver. -/
def rssAllocIndTable : Driver Bool := do
  let memory ← enaDmaAlloc env
  match memory with
  | none =>
    modifyRss fun rss => { rss with hostIndTable := none }
    return false
  | some buf =>
    modifyRss fun rss => { rss with
      indTable := some ⟨buf, List.replicate (rss.indTableSize * 4) 0⟩ }
    return true

def rssAllocHashKey : Driver Bool := do
  let memory ← enaDmaAlloc env
  match memory with
  | none =>
    enaRssFini
    return false
  | some buf =>
    modifyRss fun rss => { rss with hashKey := some ⟨buf, List.replicate 48 0⟩ }
    return true

def rssAllocHashCtrl : Driver Bool := do
  let memory ← enaDmaAlloc env
  match memory with
  | none =>
    enaRssFini
    return false
  | some buf =>
    modifyRss fun rss => { rss with hashCtrl := some ⟨buf, List.replicate 256 0⟩ }
    return true

/-- Allocate what the device supports, unless both tables exist. -/
def enaRssInit : Driver Int := do
  let a ← adapter
  if a.settings.attr.supports .rssIndirectionTable = false then
    return -EOPNOTSUPP
  if a.settings.rss.hostIndTable.isSome ∧ a.settings.rss.indTable.isSome then
    return 0
  modifyRss fun rss => { rss with indTableSize := 128 }
  enaRssQueryIndTableLimits exec
  let ok ← rssAllocHostTable env
  if ok = false then
    return -ENOMEM
  let ok ← rssAllocIndTable env
  if ok = false then
    return -ENOMEM
  let a ← adapter
  let ok ← onlyIf (a.settings.attr.supports .rssHashFunction) true (rssAllocHashKey env)
  if ok = false then
    return -ENOMEM
  let a ← adapter
  let ok ← onlyIf (a.settings.attr.supports .rssHashInput) true (rssAllocHashCtrl env)
  if ok = false then
    return -ENOMEM
  modifyRss fun rss => { rss with supported := true }
  return 0

/-! ## Configuration -/

def enaRssSetHashKey (key : Option (List Nat)) : Driver Int := do
  let a ← adapter
  match a.settings.rss.hashKey with
  | none => return -EINVAL
  | some ctrl =>
    let source := key.getD defaultToeplitzKey
    if source.length ≠ defaultToeplitzKey.length then
      return -EINVAL
    let bytes := hashKeyBytes source
    modifyRss fun rss => { rss with hashKey := rss.hashKey.map (·.fill bytes) }
    let (ret, _) ← exec bytes (hashKeyReq ctrl.buf.phys.toNat)
    return ret

def enaRssSetHashCtrl : Driver Int := do
  let a ← adapter
  match a.settings.rss.hashCtrl with
  | none => return -EINVAL
  | some ctrl =>
    modifyRss fun rss => { rss with hashCtrl := rss.hashCtrl.map (·.fill hashCtrlBytes) }
    let (ret, _) ← exec hashCtrlBytes (hashCtrlReq ctrl.buf.phys.toNat)
    return ret

/-- The submission queue that a table entry names: the one of the ring, or the
queue number when there is no ring. -/
def tableTarget (numQueues i : Nat) : Driver Nat := do
  let cell ← rxCell (i % numQueues)
  match cell with
  | none => return i % numQueues
  | some port => return port.ring.hw.sqIdx

def enaRssSetIndTable (numQueues : Nat) : Driver Int := do
  if numQueues = 0 then
    return -EINVAL
  let a ← adapter
  let rss := a.settings.rss
  match rss.indTable, rss.hostIndTable with
  | some ctrl, some _ =>
    if rss.indTableSize = 0 then
      return -EINVAL
    let entries ← (List.range rss.indTableSize).mapM (tableTarget numQueues)
    let bytes := indTableBytes entries
    modifyRss fun rss => { rss with
      hostIndTable := some ((List.range rss.indTableSize).map (· % numQueues))
      indTable := rss.indTable.map (·.fill bytes) }
    let (ret, _) ← exec bytes (indTableReq rss.indTableSize ctrl.buf.phys.toNat)
    return ret
  | _, _ => return -EINVAL

/-- Read the table back for the log.  The device fills the control buffer with
the table it stores. -/
def enaRssReadbackIndTable : Driver Unit := do
  let a ← adapter
  match a.settings.rss.indTable with
  | none => return ()
  | some ctrl =>
    if a.settings.rss.indTableSize = 0 then
      return ()
    let _ ← exec [] (indTableReadReq a.settings.rss.indTableSize ctrl.buf.phys.toNat)
    return ()

def enaRssConfigure (numQueues : Nat) : Driver Int := do
  if numQueues = 0 then
    return -EINVAL
  let ret ← enaRssInit env exec
  if ret ≠ 0 then
    return ret
  let a ← adapter
  let ret ← onlyIf (a.settings.attr.supports .rssHashFunction) 0 (enaRssSetHashKey exec none)
  if ret ≠ 0 then
    return ret
  let a ← adapter
  let ret ← onlyIf (a.settings.attr.supports .rssHashInput) 0 (enaRssSetHashCtrl exec)
  if ret ≠ 0 then
    return ret
  let ret ← enaRssSetIndTable exec numQueues
  if ret ≠ 0 then
    return ret
  enaRssReadbackIndTable exec
  modifyRss fun rss => { rss with enabled := true }
  return 0

end Functions

end EnaDriver.Admin
