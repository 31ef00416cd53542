import EnaDriver.Datapath.Receive
import EnaDriver.Datapath.Transmit
import EnaDriver.Support.Fields

/-!
# Descriptors as the device reads them

A descriptor is a few words of bit fields.  The words that the driver writes are
words of fields apart from each other, so the device reads back what was submitted.
-/

namespace EnaDriver.Datapath

open Support.Fields

/-! ## The layout of the reference headers -/

def TxDesc.reqId (desc : TxDesc) : Nat :=
  (((desc.lenCtrl >>> 16) &&& 0x3F) <<< 10) ||| ((desc.metaCtrl >>> 22) &&& 0x03FF)

def TxDesc.phase (desc : TxDesc) : Bool := desc.lenCtrl.testBit 24

def RxDesc.phase (desc : RxDesc) : Bool := desc.ctrl.testBit 0

structure TxFields where
  reqId : Nat
  length : Nat
  address : Nat
  headerLength : Nat
  l3Proto : Nat
  l4Proto : Nat
  phase : Bool
  first : Bool
  last : Bool
  compReq : Bool
  df : Bool
  tsoEn : Bool
  l3CsumEn : Bool
  l4CsumEn : Bool
  deriving DecidableEq

def TxDesc.fields (desc : TxDesc) : TxFields where
  reqId := desc.reqId
  length := field desc.lenCtrl 0 16
  address := desc.buffAddrLo + 2 ^ 32 * field desc.buffAddrHiHdrSz 0 16
  headerLength := field desc.buffAddrHiHdrSz 24 8
  l3Proto := field desc.metaCtrl 0 4
  l4Proto := field desc.metaCtrl 8 5
  phase := desc.phase
  first := desc.lenCtrl.testBit 26
  last := desc.lenCtrl.testBit 27
  compReq := desc.lenCtrl.testBit 28
  df := desc.metaCtrl.testBit 4
  tsoEn := desc.metaCtrl.testBit 7
  l3CsumEn := desc.metaCtrl.testBit 13
  l4CsumEn := desc.metaCtrl.testBit 14

structure RxFields where
  reqId : Nat
  length : Nat
  address : Nat
  phase : Bool
  first : Bool
  last : Bool
  compReq : Bool
  deriving DecidableEq

def RxDesc.fields (desc : RxDesc) : RxFields where
  reqId := desc.reqId
  length := desc.length
  address := desc.buffAddrLo + 2 ^ 32 * desc.buffAddrHi
  phase := desc.phase
  first := desc.ctrl.testBit 2
  last := desc.ctrl.testBit 3
  compReq := desc.ctrl.testBit 4

/-! ## The words of the driver -/

def lenCtrlFields (len reqId : Nat) (phase : Bool) : List Field :=
  [⟨0, 16, len⟩, ⟨16, 6, reqId >>> 10⟩, flag 24 phase, flag 26 true, flag 27 true, flag 28 true]

def metaCtrlFields (pkt : TxPkt) (reqId : Nat) (tsoEn : Bool) : List Field :=
  [⟨22, 10, reqId⟩, ⟨0, 4, pkt.l3Proto⟩, ⟨8, 5, pkt.l4Proto⟩, flag 13 pkt.l3CsumEn,
    flag 14 pkt.l4CsumEn, flag 4 pkt.df, flag 7 tsoEn]

section Words

variable (pkt : TxPkt) (len reqId : Nat) (phase tsoEn : Bool)

theorem lenCtrl_apart : (lenCtrlFields len reqId phase).Pairwise Field.Apart := by
  simp [lenCtrlFields, Field.Apart, flag]

theorem metaCtrl_apart : (metaCtrlFields pkt reqId tsoEn).Pairwise Field.Apart := by
  simp [metaCtrlFields, Field.Apart, flag]

theorem flag_value (offset : Nat) (set : Bool) :
    ((flag offset set).value % 2 ^ (flag offset set).width) <<< (flag offset set).offset =
      if set then 2 ^ offset else 0 := by
  cases set <;> simp [flag, Nat.shiftLeft_eq]

theorem txLenCtrl_word : txLenCtrl len reqId phase = word (lenCtrlFields len reqId phase) := by
  simp only [txLenCtrl, lenCtrlFields, word, flag_value, Nat.or_assoc, Nat.or_zero]
  rw [show (0x0000FFFF : Nat) = 2 ^ 16 - 1 from rfl, show (0x3F : Nat) = 2 ^ 6 - 1 from rfl,
    Nat.and_two_pow_sub_one_eq_mod, Nat.and_two_pow_sub_one_eq_mod]
  rfl

theorem txMetaCtrl_word : txMetaCtrl pkt reqId tsoEn = word (metaCtrlFields pkt reqId tsoEn) := by
  simp only [txMetaCtrl, metaCtrlFields, word, flag_value, Nat.or_assoc, Nat.or_zero]
  rw [show (0x03FF : Nat) = 2 ^ 10 - 1 from rfl, show (0x0F : Nat) = 2 ^ 4 - 1 from rfl,
    show (0x1F : Nat) = 2 ^ 5 - 1 from rfl, Nat.and_two_pow_sub_one_eq_mod,
    Nat.and_two_pow_sub_one_eq_mod, Nat.and_two_pow_sub_one_eq_mod]
  rfl

theorem reqId_parts {reqId : Nat} (bound : reqId < 2 ^ 16) :
    (reqId >>> 10 % 2 ^ 6) <<< 10 ||| reqId % 2 ^ 10 = reqId := by
  rw [← Nat.shiftLeft_add_eq_or_of_lt (Nat.mod_lt _ (by decide)), Nat.shiftLeft_eq,
    Nat.shiftRight_eq_div_pow]
  omega

theorem address_parts {address : Nat} (bound : address < 2 ^ 48) :
    address % 2 ^ 32 + 2 ^ 32 * (address >>> 32 % 2 ^ 16) = address := by
  rw [Nat.shiftRight_eq_div_pow]
  omega

end Words

/-! ## What the device reads -/

def TxPkt.fields (pkt : TxPkt) (reqId : Nat) (phase tsoEn : Bool) (headerLength : Nat) :
    TxFields where
  reqId := reqId
  length := pkt.len
  address := pkt.physAddr
  headerLength := headerLength
  l3Proto := pkt.l3Proto
  l4Proto := pkt.l4Proto
  phase := phase
  first := true
  last := true
  compReq := true
  df := pkt.df
  tsoEn := tsoEn
  l3CsumEn := pkt.l3CsumEn
  l4CsumEn := pkt.l4CsumEn

structure TxPkt.InRange (pkt : TxPkt) : Prop where
  len : pkt.len < 2 ^ 16
  address : pkt.physAddr < 2 ^ 48
  l3Proto : pkt.l3Proto < 2 ^ 4
  l4Proto : pkt.l4Proto < 2 ^ 5

section Read

variable {pkt : TxPkt} {reqId : Nat} {phase tsoEn : Bool} {desc : TxDesc}

theorem reqId_read (bound : reqId < 2 ^ 16) (low : desc.lenCtrl = txLenCtrl pkt.len reqId phase)
    (high : desc.metaCtrl = txMetaCtrl pkt reqId tsoEn) : desc.reqId = reqId := by
  have upper : field desc.lenCtrl 16 6 = reqId >>> 10 % 2 ^ 6 := by
    rw [low, txLenCtrl_word]
    exact field_word (lenCtrl_apart _ _ _) ⟨16, 6, reqId >>> 10⟩ (by simp [lenCtrlFields])
  have lower : field desc.metaCtrl 22 10 = reqId % 2 ^ 10 := by
    rw [high, txMetaCtrl_word]
    exact field_word (metaCtrl_apart _ _ _) ⟨22, 10, reqId⟩ (by simp [metaCtrlFields])
  rw [TxDesc.reqId, show (0x3F : Nat) = 2 ^ 6 - 1 from rfl, show (0x03FF : Nat) = 2 ^ 10 - 1 from rfl,
    Nat.and_two_pow_sub_one_eq_mod, Nat.and_two_pow_sub_one_eq_mod]
  exact (congrArg₂ (fun up down => up <<< 10 ||| down) upper lower).trans (reqId_parts bound)

theorem phase_rxSubmitDesc (physAddr bufLen reqId : Nat) (phase : Bool) :
    (rxSubmitDesc physAddr bufLen reqId phase).phase = phase := by
  change ((if phase then 0x01 else 0) ||| (0x04 ||| 0x08 ||| 0x10) : Nat).testBit 0 = phase
  cases phase <;> decide

theorem phase_read (low : desc.lenCtrl = txLenCtrl pkt.len reqId phase) : desc.phase = phase := by
  rw [TxDesc.phase, low, txLenCtrl_word]
  exact flag_word (lenCtrl_apart _ _ _) (by simp [lenCtrlFields])

theorem length_read (low : desc.lenCtrl = txLenCtrl pkt.len reqId phase) :
    field desc.lenCtrl 0 16 = pkt.len % 2 ^ 16 := by
  rw [low, txLenCtrl_word]
  exact field_word (lenCtrl_apart _ _ _) ⟨0, 16, pkt.len⟩ (by simp [lenCtrlFields])

theorem address_read {headerLength : Nat} (bound : pkt.physAddr < 2 ^ 48)
    (lo : desc.buffAddrLo = pkt.physAddr % 2 ^ 32)
    (hi : desc.buffAddrHiHdrSz = word [⟨0, 16, pkt.physAddr >>> 32⟩, ⟨24, 8, headerLength⟩]) :
    desc.buffAddrLo + 2 ^ 32 * field desc.buffAddrHiHdrSz 0 16 = pkt.physAddr := by
  have high : field desc.buffAddrHiHdrSz 0 16 = pkt.physAddr >>> 32 % 2 ^ 16 := by
    rw [hi]
    exact field_word (by simp [Field.Apart]) ⟨0, 16, pkt.physAddr >>> 32⟩ (by simp)
  rw [lo, high, address_parts bound]

/-- The segmentation flag has a bit of its own. -/
theorem txMetaCtrl_tso (pkt : TxPkt) (reqId : Nat) (tsoEn : Bool) :
    (txMetaCtrl pkt reqId tsoEn).testBit 7 = tsoEn := by
  rw [txMetaCtrl_word]
  exact flag_word (metaCtrl_apart _ _ _) (by simp [metaCtrlFields])

/-- A transmit descriptor with the words of a packet says what the packet asks
for. -/
theorem TxDesc.fields_eq {headerLength : Nat} (range : pkt.InRange) (bound : reqId < 2 ^ 16)
    (header : headerLength < 2 ^ 8) (low : desc.lenCtrl = txLenCtrl pkt.len reqId phase)
    (high : desc.metaCtrl = txMetaCtrl pkt reqId tsoEn) (lo : desc.buffAddrLo = pkt.physAddr % 2 ^ 32)
    (hi : desc.buffAddrHiHdrSz = word [⟨0, 16, pkt.physAddr >>> 32⟩, ⟨24, 8, headerLength⟩]) :
    desc.fields = pkt.fields reqId phase tsoEn headerLength := by
  have lenApart := lenCtrl_apart pkt.len reqId phase
  have metaApart := metaCtrl_apart pkt reqId tsoEn
  have length : field desc.lenCtrl 0 16 = pkt.len :=
    (length_read low).trans (Nat.mod_eq_of_lt range.len)
  have l3Proto : field desc.metaCtrl 0 4 = pkt.l3Proto := by
    rw [high, txMetaCtrl_word]
    exact (field_word metaApart ⟨0, 4, pkt.l3Proto⟩ (by simp [metaCtrlFields])).trans
      (Nat.mod_eq_of_lt range.l3Proto)
  have l4Proto : field desc.metaCtrl 8 5 = pkt.l4Proto := by
    rw [high, txMetaCtrl_word]
    exact (field_word metaApart ⟨8, 5, pkt.l4Proto⟩ (by simp [metaCtrlFields])).trans
      (Nat.mod_eq_of_lt range.l4Proto)
  have address := address_read range.address lo hi
  have headers : field desc.buffAddrHiHdrSz 24 8 = headerLength := by
    rw [hi]
    exact (field_word (by simp [Field.Apart]) ⟨24, 8, headerLength⟩ (by simp)).trans
      (Nat.mod_eq_of_lt header)
  have lenFlag : ∀ {offset set}, flag offset set ∈ lenCtrlFields pkt.len reqId phase →
      desc.lenCtrl.testBit offset = set := by
    intro offset set member
    rw [low, txLenCtrl_word]
    exact flag_word lenApart member
  have metaFlag : ∀ {offset set}, flag offset set ∈ metaCtrlFields pkt reqId tsoEn →
      desc.metaCtrl.testBit offset = set := by
    intro offset set member
    rw [high, txMetaCtrl_word]
    exact flag_word metaApart member
  have first : desc.lenCtrl.testBit 26 = true := lenFlag (by simp [lenCtrlFields])
  have last : desc.lenCtrl.testBit 27 = true := lenFlag (by simp [lenCtrlFields])
  have compReq : desc.lenCtrl.testBit 28 = true := lenFlag (by simp [lenCtrlFields])
  have df : desc.metaCtrl.testBit 4 = pkt.df := metaFlag (by simp [metaCtrlFields])
  have tso : desc.metaCtrl.testBit 7 = tsoEn := metaFlag (by simp [metaCtrlFields])
  have l3Csum : desc.metaCtrl.testBit 13 = pkt.l3CsumEn := metaFlag (by simp [metaCtrlFields])
  have l4Csum : desc.metaCtrl.testBit 14 = pkt.l4CsumEn := metaFlag (by simp [metaCtrlFields])
  simp only [TxDesc.fields, TxPkt.fields, reqId_read bound low high, phase_read low, length, l3Proto,
    l4Proto, address, headers, first, last, compReq, df, tso, l3Csum, l4Csum]

/-- A descriptor in host memory has no header length. -/
theorem txSubmitDesc_high : (txSubmitDesc pkt reqId phase).buffAddrHiHdrSz =
    word [⟨0, 16, pkt.physAddr >>> 32⟩, ⟨24, 8, 0⟩] := by
  simp only [word, ← Nat.and_two_pow_sub_one_eq_mod, Nat.zero_and, Nat.zero_shiftLeft, Nat.or_zero]
  rfl

theorem fields_txSubmitDesc (range : pkt.InRange) (bound : reqId < 2 ^ 16) :
    (txSubmitDesc pkt reqId phase).fields = pkt.fields reqId phase pkt.tsoEn 0 :=
  TxDesc.fields_eq range bound (by decide) rfl rfl rfl txSubmitDesc_high

theorem fields_llqDesc {hdrLen : Nat} (range : pkt.InRange) (bound : reqId < 2 ^ 16)
    (header : hdrLen < 2 ^ 8) :
    (llqDesc pkt reqId phase hdrLen).fields = pkt.fields reqId phase false hdrLen := by
  refine TxDesc.fields_eq range bound header rfl rfl rfl ?_
  have top : (hdrLen <<< 24) % 2 ^ 32 = (hdrLen % 2 ^ 8) <<< 24 := by
    rw [Nat.shiftLeft_eq, Nat.shiftLeft_eq]
    omega
  rw [word, word, word, ← Nat.and_two_pow_sub_one_eq_mod, ← top, Nat.or_zero]
  rfl

theorem fields_rxSubmitDesc {physAddr bufLen : Nat} (length : bufLen < 2 ^ 16)
    (address : physAddr < 2 ^ 48) : (rxSubmitDesc physAddr bufLen reqId phase).fields =
      ⟨reqId, bufLen, physAddr, phase, true, true, true⟩ := by
  have flags : ∀ phase : Bool, ∀ i ∈ [2, 3, 4],
      ((if phase then 0x01 else 0) ||| (0x04 ||| 0x08 ||| 0x10) : Nat).testBit i = true := by decide
  simp only [RxDesc.fields, phase_rxSubmitDesc]
  simp only [rxSubmitDesc, Nat.mod_eq_of_lt length, address_parts address, flags _ 2 (by simp),
    flags _ 3 (by simp), flags _ 4 (by simp)]

end Read

end EnaDriver.Datapath
