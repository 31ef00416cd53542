import EnaDriver.Datapath.Descriptors
import EnaDriver.Datapath.ReceiveCalls
import EnaDriver.Datapath.TransmitCalls

/-!
# The two placements of a submission queue

A packet goes to a ring in host memory by `enaTxSubmit` and a doorbell, and to a
ring in device memory by `enaLlqTxPush`.  The two are separate copies of one
path.  Each is reduced here to its outcome on an unlocked ring, and the outcomes
are compared on a ring and its counterpart in host memory.
-/

namespace EnaDriver.Datapath

open Support.Laps Support.Windows

def Ring.hostPlaced (r : Ring) : Ring :=
  { r with hw := { r.hw with isLlq := false, pushBufVirt := none, pushBufPhys := 0, pushBufSize := 0 } }

def TxPkt.Sized (pkt : TxPkt) : Prop := 0 < pkt.len ∧ pkt.len ≤ 0xFFFF

instance (pkt : TxPkt) : Decidable pkt.Sized := inferInstanceAs (Decidable (_ ∧ _))

def TxOutcome.rung (out : TxOutcome) : TxOutcome :=
  { out with events := out.events ++ if out.ret = 0 then enaTxDoorbell out.ring else [] }

def submitAndRing (r : Ring) (cpu : Nat) (pkt : TxPkt) : Except Fault TxOutcome := do
  let out ← enaTxSubmit r cpu pkt
  return out.rung

/-! ## What a submission leaves -/

def Event.pushedDesc? : Event → Option TxDesc
  | .llqEntry _ _ desc _ => some desc
  | _ => none

/-- The descriptor that a call hands to the device: the one it pushes, or else the
one in the given slot of the ring. -/
def TxOutcome.desc (slot : Nat) (out : TxOutcome) : TxDesc :=
  (out.events.findSome? Event.pushedDesc?).getD (out.ring.txDescs slot)

/-- Two calls on a ring give the same answer, and if they queue the packet they
queue it alike: under the same id, with the same pool and tracking slots, the
same producer position and the same first two descriptor words. -/
structure SameSubmission (slot : Nat) (pushed submitted : TxOutcome) : Prop where
  ret : pushed.ret = submitted.ret
  reqId : pushed.reqId = submitted.reqId
  pool : pushed.ret = 0 → pushed.ring.pool = submitted.ring.pool
  txBufs : pushed.ret = 0 → pushed.ring.txBufs = submitted.ring.txBufs
  sqTail : pushed.ret = 0 → pushed.ring.sqTail = submitted.ring.sqTail
  lenCtrl : pushed.ret = 0 → (pushed.desc slot).lenCtrl = (submitted.desc slot).lenCtrl
  metaCtrl : pushed.ret = 0 → (pushed.desc slot).metaCtrl = (submitted.desc slot).metaCtrl

/-! ## Outcomes -/

theorem enaRingReqIdAlloc_eq_none {d : Depth} {pool : RequestPool} :
    enaRingReqIdAlloc d pool = none ↔ pool.freeReqCount = 0 := by
  unfold enaRingReqIdAlloc
  constructor
  · intro absent
    split at absent
    · assumption
    · cases absent
  · intro empty
    exact if_pos empty

def submitOutcome (r : Ring) (cpu : Nat) (pkt : TxPkt) : TxOutcome :=
  if r.hw.valid = false then .refuse r ENODEV
  else if pkt.Sized then
    match enaRingReqIdAlloc r.sqDepth r.pool with
    | none => .refuse r EBUSY
    | some (reqId, pool) => ⟨0, some reqId, txSubmitted r cpu pkt reqId pool, []⟩
  else .refuse r EINVAL

variable {r : Ring} {hdrLen : Nat}

theorem enaTxSubmit_eq (cpu : Nat) (pkt : TxPkt) (transmit : r.ringType = .tx)
    (unlocked : r.ringLock = false) : enaTxSubmit r cpu pkt = .ok (submitOutcome r cpu pkt) := by
  unfold enaTxSubmit submitOutcome
  rw [if_neg (not_not_intro transmit)]
  split
  · rfl
  by_cases sized : pkt.Sized
  · obtain ⟨positive, short⟩ := sized
    rw [if_neg (by omega), if_pos ⟨positive, short⟩, enaRingLock_free unlocked]
    change (if r.pool.freeReqCount = 0 then _ else _) = _
    split
    · rename_i empty
      rw [enaRingReqIdAlloc_eq_none.mpr empty]
      exact congrArg (fun ring => Except.ok (TxOutcome.refuse ring EBUSY)) (enaRingUnlock_lock unlocked)
    change (match enaRingReqIdAlloc r.sqDepth r.pool with
      | none => _ | some (reqId, pool) => _) = _
    cases enaRingReqIdAlloc r.sqDepth r.pool with
    | none =>
      exact congrArg (fun ring => Except.ok (TxOutcome.refuse ring EBUSY))
        (enaRingUnlock_lock unlocked)
    | some taken =>
      cases r
      cases unlocked
      rfl
  · rw [if_neg sized, if_pos (by unfold TxPkt.Sized at sized; omega)]

theorem submitAndRing_eq (cpu : Nat) (pkt : TxPkt) (transmit : r.ringType = .tx)
    (unlocked : r.ringLock = false) :
    submitAndRing r cpu pkt = .ok (submitOutcome r cpu pkt).rung := by
  unfold submitAndRing
  rw [enaTxSubmit_eq cpu pkt transmit unlocked]
  rfl

/-- The outcome of a push into device memory: it looks neither at `hw_valid` nor
at the length. -/
def pushOutcome (r : Ring) (pkt : TxPkt) (hdrData : Option (List UInt8)) (hdrLen : Nat) :
    TxOutcome :=
  match enaRingReqIdAlloc r.sqDepth r.pool with
  | none => .refuse r EBUSY
  | some (reqId, pool) =>
    ⟨0, some reqId, llqPushed r pkt reqId pool,
      .llqEntry (r.hw.pushBufVirt.getD 0 + r.sqSlot * r.hw.entrySize) (r.hw.entrySize / 8 * 8)
        (llqDesc pkt reqId r.sqTail.phase hdrLen) (pushedHeader hdrData hdrLen) ::
          enaTxDoorbell (llqPushed r pkt reqId pool)⟩

theorem pushBuffer_holds_slot (device : llqFallsBack r = false) :
    ¬ (0 < r.hw.pushBufSize ∧ r.hw.pushBufSize < (r.sqSlot + 1) * r.hw.entrySize) := by
  rintro ⟨known, beyond⟩
  have whole : ¬ r.hw.pushBufSize < r.sqDepth.val * r.hw.entrySize := by
    intro short
    have falls : llqFallsBack r = true := by
      unfold llqFallsBack
      rw [decide_eq_true known, decide_eq_true short]
      exact Bool.or_true _
    rw [falls] at device
    cases device
  have below : r.sqSlot + 1 ≤ r.sqDepth.val := r.sqDepth.slot_lt _
  have fits := Nat.mul_le_mul_right r.hw.entrySize below
  omega

theorem enaLlqTxPush_device (cpu : Nat) (pkt : TxPkt) (hdrData : Option (List UInt8))
    (transmit : r.ringType = .tx) (unlocked : r.ringLock = false) (fits : hdrLen ≤ r.hw.headerCap)
    (device : llqFallsBack r = false) :
    enaLlqTxPush r cpu pkt hdrData hdrLen = .ok (pushOutcome r pkt hdrData hdrLen) := by
  have inside := pushBuffer_holds_slot device
  unfold enaLlqTxPush pushOutcome
  rw [if_neg (not_not_intro transmit), if_neg (Nat.not_lt.mpr fits), device, enaRingLock_free unlocked]
  change (if r.pool.freeReqCount = 0 then _ else _) = _
  split
  · rename_i empty
    rw [enaRingReqIdAlloc_eq_none.mpr empty]
    exact congrArg (fun ring => Except.ok (TxOutcome.refuse ring EBUSY)) (enaRingUnlock_lock unlocked)
  change (if 0 < r.hw.pushBufSize ∧
    r.hw.pushBufSize < (r.sqSlot + 1) * r.hw.entrySize then _ else _) = _
  rw [if_neg inside]
  change (match enaRingReqIdAlloc r.sqDepth r.pool with
    | none => _ | some (reqId, pool) => _) = _
  cases enaRingReqIdAlloc r.sqDepth r.pool with
  | none =>
    exact congrArg (fun ring => Except.ok (TxOutcome.refuse ring EBUSY))
      (enaRingUnlock_lock unlocked)
  | some taken =>
    cases r
    cases unlocked
    rfl

theorem enaLlqTxPush_fallback (cpu : Nat) (pkt : TxPkt) (hdrData : Option (List UInt8))
    (transmit : r.ringType = .tx) (unlocked : r.ringLock = false) (fits : hdrLen ≤ r.hw.headerCap)
    (falls : llqFallsBack r = true) :
    enaLlqTxPush r cpu pkt hdrData hdrLen = .ok { submitOutcome r cpu pkt with
      events := fallbackHeaderCopy pkt hdrData hdrLen ++ (submitOutcome r cpu pkt).rung.events } := by
  unfold enaLlqTxPush TxOutcome.rung
  rw [if_neg (not_not_intro transmit), if_neg (Nat.not_lt.mpr fits), if_pos falls,
    enaTxSubmit_eq cpu pkt transmit unlocked, ← List.append_assoc]
  rfl

theorem enaLlqTxPush_long (cpu : Nat) (pkt : TxPkt) (hdrData : Option (List UInt8))
    (transmit : r.ringType = .tx) (long : r.hw.headerCap < hdrLen) :
    enaLlqTxPush r cpu pkt hdrData hdrLen = .ok (.refuse r EINVAL) := by
  unfold enaLlqTxPush
  rw [if_neg (not_not_intro transmit), if_pos long]

/-! ## Descriptor words -/

theorem txMetaCtrl_eq_iff (pkt : TxPkt) (reqId : Nat) :
    txMetaCtrl pkt reqId false = txMetaCtrl pkt reqId pkt.tsoEn ↔ pkt.tsoEn = false := by
  constructor
  · intro same
    have bit := congrArg (fun word : Nat => word.testBit 7) same
    rw [txMetaCtrl_tso, txMetaCtrl_tso] at bit
    exact bit.symm
  · intro off
    rw [off]

/-! ## Comparison -/

section Comparison

variable {slot hdrLen : Nat} {r : Ring} {cpu : Nat} {pkt : TxPkt}

/-- Only a push puts a descriptor in device memory. -/
theorem enaTxDoorbell_pushes_nothing (r : Ring) :
    (enaTxDoorbell r).findSome? Event.pushedDesc? = none := by
  unfold enaTxDoorbell
  cases r.hw.sqDb with
  | none => rfl
  | some offset => cases r.hw.valid <;> rfl

theorem fallbackHeaderCopy_pushes_nothing (pkt : TxPkt) (hdrData : Option (List UInt8))
    (hdrLen : Nat) :
    (fallbackHeaderCopy pkt hdrData hdrLen).findSome? Event.pushedDesc? = none := by
  unfold fallbackHeaderCopy
  cases pkt.netbuf with
  | none => rfl
  | some nb =>
    change (if _ then _ else _ : List Event).findSome? _ = none
    split <;> rfl

theorem submitOutcome_invalid (invalid : r.hw.valid = false) :
    submitOutcome r cpu pkt = .refuse r ENODEV := if_pos invalid

theorem submitOutcome_unsized (valid : r.hw.valid = true) (unsized : ¬ pkt.Sized) :
    submitOutcome r cpu pkt = .refuse r EINVAL := by
  unfold submitOutcome
  rw [if_neg (by rw [valid]; decide), if_neg unsized]

theorem submitOutcome_empty (valid : r.hw.valid = true) (sized : pkt.Sized)
    (absent : enaRingReqIdAlloc r.sqDepth r.pool = none) :
    submitOutcome r cpu pkt = .refuse r EBUSY := by
  unfold submitOutcome
  rw [if_neg (by rw [valid]; decide), if_pos sized, absent]

theorem submitOutcome_queued (valid : r.hw.valid = true) (sized : pkt.Sized) {reqId : Nat}
    {pool : RequestPool} (found : enaRingReqIdAlloc r.sqDepth r.pool = some (reqId, pool)) :
    submitOutcome r cpu pkt = ⟨0, some reqId, txSubmitted r cpu pkt reqId pool, []⟩ := by
  unfold submitOutcome
  rw [if_neg (by rw [valid]; decide), if_pos sized, found]

/-- A submission depends on the placement in the hardware part of its ring only. -/
theorem submitOutcome_hostPlaced (r : Ring) (cpu : Nat) (pkt : TxPkt) :
    submitOutcome r.hostPlaced cpu pkt =
        { submitOutcome r cpu pkt with ring := (submitOutcome r cpu pkt).ring.hostPlaced } ∧
      (submitOutcome r cpu pkt).events = [] := by
  cases valid : r.hw.valid with
  | false =>
    rw [submitOutcome_invalid (r := r) valid, submitOutcome_invalid (r := r.hostPlaced) valid]
    exact ⟨rfl, rfl⟩
  | true =>
    by_cases sized : pkt.Sized
    · cases found : enaRingReqIdAlloc r.sqDepth r.pool with
      | none =>
        rw [submitOutcome_empty (r := r) valid sized found,
          submitOutcome_empty (r := r.hostPlaced) valid sized found]
        exact ⟨rfl, rfl⟩
      | some taken =>
        rw [submitOutcome_queued (r := r) valid sized found,
          submitOutcome_queued (r := r.hostPlaced) valid sized found]
        exact ⟨rfl, rfl⟩
    · rw [submitOutcome_unsized (r := r) valid sized,
        submitOutcome_unsized (r := r.hostPlaced) valid sized]
      exact ⟨rfl, rfl⟩

/-- A descriptor in host memory stays there when the doorbell rings. -/
theorem TxOutcome.rung_desc {out : TxOutcome} (quiet : out.events = []) :
    out.rung.desc slot = out.ring.txDescs slot := by
  unfold TxOutcome.desc TxOutcome.rung
  rw [quiet, List.nil_append]
  split
  · rw [enaTxDoorbell_pushes_nothing]
    rfl
  · rfl

theorem SameSubmission.refused_iff {error : Int} {submitted : TxOutcome} (positive : 0 < error)
    (unnamed : submitted.ret ≠ 0 → submitted.reqId = none) :
    SameSubmission slot (.refuse r error) submitted.rung ↔ submitted.ret = -error := by
  have failed : (TxOutcome.refuse r error).ret ≠ 0 := (refuse_cases positive rfl).1
  constructor
  · intro same
    exact same.ret.symm
  · intro ret
    have none := unnamed (ret ▸ failed)
    exact ⟨ret.symm, none.symm, fun ok => absurd ok failed, fun ok => absurd ok failed,
      fun ok => absurd ok failed, fun ok => absurd ok failed, fun ok => absurd ok failed⟩

/-- The error of a submission, by the cause that comes first. -/
theorem submitOutcome_ret (r : Ring) (cpu : Nat) (pkt : TxPkt) :
    (submitOutcome r cpu pkt).ret =
        (if r.hw.valid = false then -ENODEV else if ¬ pkt.Sized then -EINVAL
          else if r.pool.freeReqCount = 0 then -EBUSY else 0) ∧
      ((submitOutcome r cpu pkt).ret ≠ 0 → (submitOutcome r cpu pkt).reqId = none) := by
  cases valid : r.hw.valid with
  | false =>
    rw [submitOutcome_invalid valid]
    exact ⟨rfl, fun _ => rfl⟩
  | true =>
    by_cases sized : pkt.Sized
    · cases found : enaRingReqIdAlloc r.sqDepth r.pool with
      | none =>
        rw [submitOutcome_empty valid sized found, if_neg (by decide),
          if_neg (not_not_intro sized), if_pos (enaRingReqIdAlloc_eq_none.mp found)]
        exact ⟨rfl, fun _ => rfl⟩
      | some taken =>
        have room : r.pool.freeReqCount ≠ 0 := by
          intro empty
          rw [enaRingReqIdAlloc_eq_none.mpr empty] at found
          cases found
        rw [submitOutcome_queued valid sized found, if_neg (by decide),
          if_neg (not_not_intro sized), if_neg room]
        exact ⟨rfl, fun failed => absurd rfl failed⟩
    · rw [submitOutcome_unsized valid sized, if_neg (by decide), if_pos sized]
      exact ⟨rfl, fun _ => rfl⟩

/-- A push that falls back agrees with the submission it is. -/
theorem fallback_agrees (hdrData : Option (List UInt8)) :
    SameSubmission slot
      { submitOutcome r cpu pkt with
        events := fallbackHeaderCopy pkt hdrData hdrLen ++ (submitOutcome r cpu pkt).rung.events }
      (submitOutcome r.hostPlaced cpu pkt).rung := by
  obtain ⟨placed, quiet⟩ := submitOutcome_hostPlaced r cpu pkt
  have host : (submitOutcome r.hostPlaced cpu pkt).rung.desc slot =
      (submitOutcome r cpu pkt).ring.txDescs slot := by
    rw [placed]
    exact TxOutcome.rung_desc quiet
  have fallen : TxOutcome.desc slot
      { submitOutcome r cpu pkt with
        events := fallbackHeaderCopy pkt hdrData hdrLen ++ (submitOutcome r cpu pkt).rung.events } =
      (submitOutcome r cpu pkt).ring.txDescs slot := by
    refine Eq.trans ?_ (TxOutcome.rung_desc quiet)
    unfold TxOutcome.desc
    rw [List.findSome?_append, fallbackHeaderCopy_pushes_nothing]
    rfl
  refine ⟨?_, ?_, fun _ => ?_, fun _ => ?_, fun _ => ?_, fun _ => by rw [fallen, host],
    fun _ => by rw [fallen, host]⟩
  all_goals
    rw [placed]
    rfl

/-- The packets on which the two placements agree.  A push into device memory
treats a packet as a submission does if the queues exist, the length fits its
field, and either no id is free or no segmentation is asked for.  A push that
falls back is a submission.  A header beyond the capacity is refused as an
invalid length is. -/
def PlacementBlind (r : Ring) (pkt : TxPkt) (hdrLen : Nat) : Prop :=
  if hdrLen ≤ r.hw.headerCap then
    llqFallsBack r = true ∨
      (r.hw.valid = true ∧ pkt.Sized ∧ (r.pool.freeReqCount = 0 ∨ pkt.tsoEn = false))
  else r.hw.valid = true ∧ ¬ pkt.Sized

/-- A push into device memory agrees with a submission to an existing queue of a
packet of a fitting length, up to the segmentation flag. -/
theorem device_agrees_iff (hdrData : Option (List UInt8)) :
    SameSubmission r.sqSlot (pushOutcome r pkt hdrData hdrLen)
        (submitOutcome r.hostPlaced cpu pkt).rung ↔
      r.hw.valid = true ∧ pkt.Sized ∧ (r.pool.freeReqCount = 0 ∨ pkt.tsoEn = false) := by
  obtain ⟨ret, unnamed⟩ := submitOutcome_ret r.hostPlaced cpu pkt
  change _ = (if r.hw.valid = false then _ else if ¬ pkt.Sized then _
    else if r.pool.freeReqCount = 0 then _ else _) at ret
  cases found : enaRingReqIdAlloc r.sqDepth r.pool with
  | none =>
    have empty := enaRingReqIdAlloc_eq_none.mp found
    unfold pushOutcome
    rw [found]
    refine (SameSubmission.refused_iff (show 0 < EBUSY by decide) unnamed).trans ?_
    rw [ret]
    cases valid : r.hw.valid with
    | false =>
      rw [if_pos rfl]
      exact ⟨fun same => absurd same (by decide), fun all => absurd all.1 (by decide)⟩
    | true =>
      by_cases sized : pkt.Sized
      · rw [if_neg (by decide), if_neg (not_not_intro sized), if_pos empty]
        exact ⟨fun _ => ⟨rfl, sized, Or.inl empty⟩, fun _ => rfl⟩
      · rw [if_neg (by decide), if_pos sized]
        exact ⟨fun same => absurd same (by decide), fun all => absurd all.2.1 sized⟩
  | some taken =>
    obtain ⟨reqId, pool⟩ := taken
    have room : r.pool.freeReqCount ≠ 0 := by
      intro empty
      rw [enaRingReqIdAlloc_eq_none.mpr empty] at found
      cases found
    unfold pushOutcome
    rw [found]
    constructor
    · intro same
      have queued : (submitOutcome r.hostPlaced cpu pkt).ret = 0 := same.ret.symm
      rw [ret] at queued
      have valid : r.hw.valid = true := by
        cases valid : r.hw.valid with
        | false =>
          rw [if_pos valid] at queued
          exact absurd queued (by decide)
        | true => rfl
      rw [if_neg (by rw [valid]; decide)] at queued
      have sized : pkt.Sized := by
        by_contra unsized
        rw [if_pos unsized] at queued
        exact absurd queued (by decide)
      have word := same.metaCtrl rfl
      rw [submitOutcome_queued (r := r.hostPlaced) valid sized found, TxOutcome.rung_desc rfl] at word
      change txMetaCtrl pkt reqId false =
        (store r.txDescs r.sqSlot (txSubmitDesc pkt reqId r.sqTail.phase) r.sqSlot).metaCtrl at word
      rw [store_same] at word
      exact ⟨valid, sized, Or.inr ((txMetaCtrl_eq_iff pkt reqId).mp word)⟩
    · rintro ⟨valid, sized, full | off⟩
      · exact absurd full room
      rw [submitOutcome_queued (r := r.hostPlaced) valid sized found]
      refine ⟨rfl, rfl, fun _ => rfl, fun _ => rfl, fun _ => rfl, fun _ => ?_, fun _ => ?_⟩
      · rw [TxOutcome.rung_desc rfl]
        change txLenCtrl pkt.len reqId r.sqTail.phase =
          (store r.txDescs r.sqSlot (txSubmitDesc pkt reqId r.sqTail.phase) r.sqSlot).lenCtrl
        rw [store_same]
        rfl
      · rw [TxOutcome.rung_desc rfl]
        change txMetaCtrl pkt reqId false =
          (store r.txDescs r.sqSlot (txSubmitDesc pkt reqId r.sqTail.phase) r.sqSlot).metaCtrl
        rw [store_same]
        exact (txMetaCtrl_eq_iff pkt reqId).mpr off

/-- A header too long for the entry is refused as an invalid length is. -/
theorem long_header_agrees_iff :
    SameSubmission slot (.refuse r EINVAL) (submitOutcome r.hostPlaced cpu pkt).rung ↔
      r.hw.valid = true ∧ ¬ pkt.Sized := by
  obtain ⟨ret, unnamed⟩ := submitOutcome_ret r.hostPlaced cpu pkt
  change _ = (if r.hw.valid = false then _ else if ¬ pkt.Sized then _
    else if r.pool.freeReqCount = 0 then _ else _) at ret
  refine (SameSubmission.refused_iff (show 0 < EINVAL by decide) unnamed).trans ?_
  rw [ret]
  cases valid : r.hw.valid with
  | false =>
    rw [if_pos rfl]
    exact ⟨fun same => absurd same (by decide), fun both => absurd both.1 (by decide)⟩
  | true =>
    by_cases sized : pkt.Sized
    · rw [if_neg (by decide), if_neg (not_not_intro sized)]
      refine ⟨fun same => ?_, fun both => absurd sized both.2⟩
      split at same
      · exact absurd same (by decide)
      · exact absurd same (by decide)
    · rw [if_neg (by decide), if_pos sized]
      exact ⟨fun _ => ⟨rfl, sized⟩, fun _ => rfl⟩

end Comparison

/-- A push on a ring in device memory and a submission with its doorbell on the same
ring in host memory both return, and they treat the packet alike on the packets of
`PlacementBlind` and on no others. -/
theorem enaLlqTxPush_agrees_iff (r : Ring) (cpu : Nat) (pkt : TxPkt)
    (hdrData : Option (List UInt8)) (hdrLen : Nat) (transmit : r.ringType = .tx)
    (unlocked : r.ringLock = false) :
    ∃ pushed submitted, enaLlqTxPush r cpu pkt hdrData hdrLen = .ok pushed ∧
      submitAndRing r.hostPlaced cpu pkt = .ok submitted ∧
      (SameSubmission r.sqSlot pushed submitted ↔ PlacementBlind r pkt hdrLen) := by
  have host := submitAndRing_eq (r := r.hostPlaced) cpu pkt transmit unlocked
  unfold PlacementBlind
  by_cases fits : hdrLen ≤ r.hw.headerCap
  · rw [if_pos fits]
    cases falls : llqFallsBack r with
    | true =>
      refine ⟨_, _, enaLlqTxPush_fallback cpu pkt hdrData transmit unlocked fits falls, host, ?_⟩
      exact ⟨fun _ => Or.inl rfl, fun _ => fallback_agrees hdrData⟩
    | false =>
      refine ⟨_, _, enaLlqTxPush_device cpu pkt hdrData transmit unlocked fits falls, host, ?_⟩
      refine (device_agrees_iff hdrData).trans ⟨Or.inr, fun either => ?_⟩
      exact either.resolve_left (by decide)
  · rw [if_neg fits]
    refine ⟨_, _, enaLlqTxPush_long cpu pkt hdrData transmit (Nat.lt_of_not_le fits), host, ?_⟩
    exact long_header_agrees_iff

def pushRing (valid : Bool) : Ring :=
  { Ring.fresh 0 .tx .four .four 4096 8192 28672 with
    hw := { HwQueue.fresh with
      valid := valid, sqDb := some 0x40, isLlq := true, pushBufVirt := some 0, pushBufSize := 512
      llqHeaderLen := 96, llqEntrySize := 128 } }

def shortPkt : TxPkt := ⟨none, 0x100000000, 64, 0, 0, false, false, false, false⟩

theorem enaLlqTxPush_agrees_iff_short :
    ∃ pushed submitted, enaLlqTxPush (pushRing true) 0 shortPkt none 64 = .ok pushed ∧
      submitAndRing (pushRing true).hostPlaced 0 shortPkt = .ok submitted ∧
      SameSubmission (pushRing true).sqSlot pushed submitted := by
  obtain ⟨pushed, submitted, push, submit, agrees⟩ :=
    enaLlqTxPush_agrees_iff (pushRing true) 0 shortPkt none 64 rfl rfl
  refine ⟨pushed, submitted, push, submit, agrees.mpr ?_⟩
  unfold PlacementBlind
  rw [if_pos (by decide)]
  exact Or.inr ⟨rfl, by decide, Or.inr rfl⟩

/-- A ring whose queues were lost in a reset: the submission is refused, and the push
queues the packet. -/
theorem push_ignores_lost_queues :
    (submitAndRing (pushRing false).hostPlaced 0 shortPkt).toOption.map TxOutcome.ret = some (-ENODEV) ∧
      (enaLlqTxPush (pushRing false) 0 shortPkt none 64).toOption.map TxOutcome.ret = some 0 := by
  decide

/-! ## Descriptors of both placements -/

/-- Under the request id that a call answers, the descriptor that it wrote for the
device says what was submitted: to host memory, to device memory and for a receive
buffer. -/
theorem descriptors_lossless (pkt : TxPkt) (range : pkt.InRange) (r : Ring)
    (unlocked : r.ringLock = false) (reqId : Nat) (bound : reqId < 2 ^ 16) :
    (∀ cpu out, enaTxSubmit r cpu pkt = .ok out → out.reqId = some reqId →
      (out.desc r.sqSlot).fields = pkt.fields reqId r.sqTail.phase pkt.tsoEn 0) ∧
    (∀ cpu hdrData hdrLen out, hdrLen ≤ 96 → llqFallsBack r = false →
      enaLlqTxPush r cpu pkt hdrData hdrLen = .ok out → out.reqId = some reqId →
      (out.desc r.sqSlot).fields = pkt.fields reqId r.sqTail.phase false hdrLen) ∧
    ∀ netbuf physAddr bufLen out, physAddr < 2 ^ 48 →
      enaRxSubmitOne r netbuf physAddr bufLen = .ok out → out.reqId = some reqId →
      (out.ring.rxDescs r.sqSlot).fields =
        ⟨reqId, bufLen, physAddr, r.sqTail.phase, true, true, true⟩ := by
  refine ⟨?_, ?_, ?_⟩
  · intro cpu out submitted answered
    obtain ⟨_, again, quiet, refused | ⟨id, pool, _, _, named, _, _, ring⟩⟩ :=
      enaTxSubmit_cases r cpu pkt unlocked
    · cases submitted.symm.trans again
      rw [refused.2.1] at answered
      cases answered
    cases submitted.symm.trans again
    cases named.symm.trans answered
    unfold TxOutcome.desc
    rw [quiet, ring]
    exact (congrArg TxDesc.fields (store_same _ _ _)).trans (fields_txSubmitDesc range bound)
  · intro cpu hdrData hdrLen out short device pushed answered
    by_cases transmit : r.ringType = .tx
    · by_cases fits : hdrLen ≤ r.hw.headerCap
      · cases pushed.symm.trans (enaLlqTxPush_device cpu pkt hdrData transmit unlocked fits device)
        unfold pushOutcome at answered ⊢
        split at answered
        · cases answered
        · cases answered
          exact fields_llqDesc range bound (Nat.lt_of_le_of_lt short (by decide))
      · cases pushed.symm.trans (enaLlqTxPush_long cpu pkt hdrData transmit (Nat.lt_of_not_le fits))
        cases answered
    · unfold enaLlqTxPush at pushed
      rw [if_pos transmit] at pushed
      cases pushed
      cases answered
  · intro netbuf physAddr bufLen out address posted answered
    obtain ⟨_, again, refused | ⟨nb, id, pool, _, _, _, named, ⟨_, short⟩, ring⟩⟩ :=
      enaRxSubmitOne_cases r netbuf physAddr bufLen unlocked
    · cases posted.symm.trans again
      rw [refused.2.1] at answered
      cases answered
    cases posted.symm.trans again
    cases named.symm.trans answered
    rw [ring]
    refine (congrArg RxDesc.fields (store_same _ _ _)).trans (fields_rxSubmitDesc ?_ address)
    exact Nat.lt_succ_of_le short

theorem descriptors_lossless_short :
    ((enaLlqTxPush (pushRing true) 0 shortPkt none 64).toOption.map
      fun out => (out.reqId, (out.desc 0).fields)) =
      some (some 0, shortPkt.fields 0 true false 64) := by
  have pushed : enaLlqTxPush (pushRing true) 0 shortPkt none 64 =
      .ok (pushOutcome (pushRing true) shortPkt none 64) :=
    enaLlqTxPush_device 0 shortPkt none rfl rfl (by decide) (by decide)
  rw [pushed]
  have read := (descriptors_lossless shortPkt ⟨by decide, by decide, by decide, by decide⟩
    (pushRing true) rfl 0 (by decide)).2.1 0 none 64 _ (by decide) (by decide) pushed rfl
  exact congrArg (fun fields => some (some 0, fields)) read

end EnaDriver.Datapath
