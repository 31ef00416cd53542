import EnaDriver.Datapath.RequestPool
import EnaDriver.Support.Custody

/-!
# Allocation and reset of a ring

Allocation builds a ring in host memory, and a device reset returns its
software state to that condition after releasing the buffers it still holds.
Neither touches the memory of the completion queue once it is allocated.
-/

namespace EnaDriver.Datapath

open Support.Laps Support.Windows Support.Custody

/-! ## Allocation -/

/-- The hardware part of a freshly allocated ring.  It counts as valid before
the first queue creation. -/
def HwQueue.fresh : HwQueue where
  valid := true
  sqIdx := 0
  sqDbOffset := 0
  sqDb := none
  cqIdx := 0
  cqDbOffset := 0
  cqDb := none
  cqUnmaskDbOffset := 0
  isLlq := false
  pushBufVirt := none
  pushBufPhys := 0
  pushBufSize := 0
  llqHeaderLen := 0
  llqEntrySize := 0

def RingType.cqElemSize : RingType → Nat
  | .tx => 8
  | .rx => 16

/-- The allocations of a ring: the context, the two queues, four arrays, and
for a transmit ring the head write-back and the deferred-release array. -/
def RingType.allocations : RingType → Nat
  | .tx => 9
  | .rx => 7

def Ring.fresh (qid : Nat) (ringType : RingType) (sqDepth cqDepth : Depth)
    (sqPhys cqPhys sqHeadWbPhys : Nat) : Ring where
  qid := qid
  ringType := ringType
  hw := .fresh
  sqPhys := sqPhys
  sqHeadWbPhys := sqHeadWbPhys
  sqDepth := sqDepth
  sqTail := .start
  sqHead := 0
  cqPhys := cqPhys
  cqDepth := cqDepth
  cqHead := .start
  cqElemSize := ringType.cqElemSize
  txDescs := fun _ => ⟨0, 0, 0, 0⟩
  rxDescs := fun _ => ⟨0, 0, 0, 0, 0⟩
  pool := .fresh sqDepth
  ringLock := false
  txOwnerCpu := cpuIdNone
  txOwnerWarned := false
  txForeign := fun _ => ⟨0, 0⟩
  txForeignCount := 0
  dropNetbufCb := false
  refillNetbuf := false
  txBufs := fun _ => .empty
  rxBufs := fun _ => .empty
  txPackets := 0
  txBytes := 0
  rxPackets := 0
  rxBytes := 0
  rxDropped := 0
  txDropped := 0
  rxRefillErr := 0

/-- Allocate a ring.  `memory` gives the address of each allocation in order,
or its failure; every failure gives back what was allocated before it. -/
def enaRingAlloc (qid : Nat) (ringType : RingType) (sqDepth cqDepth : UInt16)
    (memory : Nat → Option Nat) : Except Int Ring :=
  match Depth.ofRaw? sqDepth, Depth.ofRaw? cqDepth with
  | some sq, some cq =>
    if (List.range ringType.allocations).all fun i => (memory i).isSome then
      let wb := match ringType with
        | .tx => (memory 7).getD 0
        | .rx => 0
      .ok (.fresh qid ringType sq cq ((memory 1).getD 0) ((memory 2).getD 0) wb)
    else
      .error (-ENOMEM)
  | _, _ => .error (-EINVAL)

theorem enaRingAlloc_ok {qid : Nat} {ringType : RingType} {sqDepth cqDepth : UInt16}
    {memory : Nat → Option Nat} {r : Ring}
    (built : enaRingAlloc qid ringType sqDepth cqDepth memory = .ok r) :
    r.sqDepth.val = sqDepth.toNat ∧ r.cqDepth.val = cqDepth.toNat ∧
      ∃ sqPhys cqPhys wbPhys,
        r = .fresh qid ringType r.sqDepth r.cqDepth sqPhys cqPhys wbPhys := by
  unfold enaRingAlloc at built
  split at built
  · rename_i sq cq sqFound cqFound
    split at built
    · cases built
      exact ⟨Depth.ofRaw?_val sqFound, Depth.ofRaw?_val cqFound, _, _, _, rfl⟩
    · cases built
  · cases built

/-! ## Reset -/

def resetSlot (r : Ring) (i : Nat) : Ring × List Event :=
  match r.slotNetbuf i with
  | none => (r, [])
  | some nb =>
    (enaRingSlotClear r i,
      [if r.dropNetbufCb then .dropNetbufCb i nb else .ukNetbufFree i nb])

def resetSlots : List Nat → Ring → Ring × List Event
  | [], r => (r, [])
  | i :: rest, r =>
    let (cleared, freed) := resetSlot r i
    let (last, events) := resetSlots rest cleared
    (last, freed ++ events)

/-- The queue ids and doorbells of a ring that is being reset.  The offsets, the
unmask offset and the push buffer keep their values. -/
def HwQueue.invalidate (hw : HwQueue) : HwQueue :=
  { hw with valid := false, sqIdx := 0, cqIdx := 0, sqDb := none, cqDb := none }

def enaRingResetSwState (r : Ring) : Ring × List Event :=
  let r := { r with
    hw := r.hw.invalidate
    sqTail := .start
    sqHead := 0
    cqHead := .start }
  let (r, events) := resetSlots (List.range r.sqDepth.val) r
  ({ r with
    pool := .fresh r.sqDepth
    txForeignCount := 0 }, events)

def enaAdapterInvalidateIoRing (r : Ring) : Except Fault (Ring × List Event) := do
  let r ← enaRingLock r
  let (r, events) := enaRingResetSwState r
  return (enaRingUnlock r, events)

/-! ## What the slot loop leaves behind -/

/-- The slot loop changes the tracking slots and nothing else. -/
theorem resetSlots_frame (slots : List Nat) (r : Ring) :
    ∃ txBufs rxBufs, (resetSlots slots r).1 = { r with txBufs := txBufs, rxBufs := rxBufs } := by
  induction slots generalizing r with
  | nil => exact ⟨r.txBufs, r.rxBufs, rfl⟩
  | cons i rest ih =>
    have step : ∃ txBufs rxBufs,
        (resetSlot r i).1 = { r with txBufs := txBufs, rxBufs := rxBufs } := by
      unfold resetSlot
      cases r.slotNetbuf i with
      | none => exact ⟨r.txBufs, r.rxBufs, rfl⟩
      | some nb =>
        unfold enaRingSlotClear
        cases r.ringType with
        | tx => exact ⟨_, r.rxBufs, rfl⟩
        | rx => exact ⟨r.txBufs, _, rfl⟩
    obtain ⟨txFirst, rxFirst, first⟩ := step
    obtain ⟨txLast, rxLast, last⟩ := ih (resetSlot r i).1
    refine ⟨txLast, rxLast, ?_⟩
    change (resetSlots rest (resetSlot r i).1).1 = _
    rw [last, first]

/-! ## What a reset gives back -/

def FreesOnly (events : List Event) : Prop :=
  ∀ event ∈ events, ∃ id nb, event = .dropNetbufCb id nb ∨ event = .ukNetbufFree id nb

theorem FreesOnly.append {first second : List Event} (before : FreesOnly first)
    (after : FreesOnly second) : FreesOnly (first ++ second) := by
  intro event member
  exact (List.mem_append.mp member).elim (before event) (after event)

theorem FreesOnly.consumes {events : List Event} (frees : FreesOnly events) :
    consumed events = 0 := by
  apply List.countP_eq_zero.mpr
  intro event member
  rcases frees event member with ⟨id, nb, rfl | rfl⟩
  · simp [Event.isConsumed]
  · simp [Event.isConsumed]

theorem FreesOnly.room {events : List Event} (frees : FreesOnly events) :
    ∀ event ∈ events, event.isNoRoom = false := by
  intro event member
  rcases frees event member with ⟨id, nb, rfl | rfl⟩
  · rfl
  · rfl

/-- A cleared slot reports its netbuf, and nothing else. -/
theorem resetSlot_events (r : Ring) (i : Nat) :
    freed (resetSlot r i).2 = (r.slotNetbuf i).toList.map (i, ·) ∧ FreesOnly (resetSlot r i).2 := by
  unfold resetSlot
  cases r.slotNetbuf i with
  | none => simp [FreesOnly]
  | some nb =>
    cases r.dropNetbufCb with
    | false => simp [freed, Event.frees, FreesOnly]
    | true => simp [freed, Event.frees, FreesOnly]

/-- A cleared slot holds nothing, and the other slots are as before. -/
theorem resetSlot_slotNetbuf (r : Ring) (i id : Nat) :
    (resetSlot r i).1.slotNetbuf id = if id = i then none else r.slotNetbuf id := by
  unfold resetSlot
  cases stored : r.slotNetbuf i with
  | none =>
    by_cases same : id = i
    · simp [same, stored]
    · simp [same]
  | some nb =>
    by_cases same : id = i
    · simp only [enaRingSlotClear, Ring.slotNetbuf, same]
      cases r.ringType with
      | tx => simp [TxBuffer.empty]
      | rx => simp [RxBuffer.empty]
    · simp only [enaRingSlotClear, Ring.slotNetbuf, if_neg same]
      cases r.ringType with
      | tx => simp [store_other _ _ same]
      | rx => simp [store_other _ _ same]

section Ledger

variable {α β : Type} (payload : α → Option Netbuf)

theorem resetSlot_steps {r : Ring} {ledger : Ledger α β}
    (netbufs : ∀ id, r.slotNetbuf id = (ledger id).item?.bind payload) (i : Nat) :
    ∃ actions, Steps ReleaseOnly ledger actions (store ledger i .free) ∧
      freed (resetSlot r i).2 = yielded payload actions := by
  rw [(resetSlot_events r i).1, netbufs i]
  cases heldItem : (ledger i).item? with
  | none =>
    have isFree : ledger i = .free := by
      cases status : ledger i with
      | free => rfl
      | active item =>
        rw [status] at heldItem
        cases heldItem
      | parked item keeper =>
        rw [status] at heldItem
        cases heldItem
    refine ⟨[], ?_, rfl⟩
    rw [store_self ledger isFree]
    exact .nil ledger
  | some item =>
    refine ⟨[.release i item], .single (.release heldItem) ⟨i, item, rfl⟩, ?_⟩
    exact (List.append_nil _).symm

/-- The slot loop releases every id it passes. -/
theorem resetSlots_steps (slots : List Nat) (r : Ring) (ledger : Ledger α β)
    (netbufs : ∀ id, r.slotNetbuf id = (ledger id).item?.bind payload) :
    FreesOnly (resetSlots slots r).2 ∧ ∃ actions after, Steps ReleaseOnly ledger actions after ∧
        freed (resetSlots slots r).2 = yielded payload actions ∧
        (∀ id, after id = if id ∈ slots then .free else ledger id) ∧
        ∀ id, (resetSlots slots r).1.slotNetbuf id = (after id).item?.bind payload := by
  induction slots generalizing r ledger with
  | nil =>
    refine ⟨by simp [resetSlots, FreesOnly], [], ledger, .nil ledger, rfl, ?_, netbufs⟩
    simp
  | cons i rest ih =>
    obtain ⟨_, frees⟩ := resetSlot_events r i
    obtain ⟨first, steps, freedFirst⟩ := resetSlot_steps payload netbufs i
    have cleared : ∀ id, (resetSlot r i).1.slotNetbuf id =
        (store ledger i .free id).item?.bind payload := by
      intro id
      rw [resetSlot_slotNetbuf]
      by_cases same : id = i
      · simp [same, Status.item?]
      · simp [same, store_other _ _ same, netbufs]
    obtain ⟨freesRest, second, after, more, freedRest, final, last⟩ :=
      ih (resetSlot r i).1 (store ledger i .free) cleared
    have events : (resetSlots (i :: rest) r).2 =
        (resetSlot r i).2 ++ (resetSlots rest (resetSlot r i).1).2 := rfl
    refine ⟨?_, first ++ second, after, steps.append more, ?_, fun id => ?_, last⟩
    · rw [events]
      exact frees.append freesRest
    · rw [events, freed_append, yielded_append, freedFirst, freedRest]
    · rw [final id]
      by_cases same : id = i
      · simp [same]
      · simp [same, store_other _ _ same]

def Ring.emptied (r : Ring) (txBufs : Nat → TxBuffer) (rxBufs : Nat → RxBuffer) : Ring :=
  { r with
    hw := r.hw.invalidate
    sqTail := .start
    sqHead := 0
    cqHead := .start
    txBufs := txBufs
    rxBufs := rxBufs
    pool := .fresh r.sqDepth
    txForeignCount := 0
    ringLock := false }

def Ring.begun (r : Ring) : Ring :=
  { r with
    ringLock := true
    hw := r.hw.invalidate
    sqTail := .start
    sqHead := 0
    cqHead := .start }

theorem enaAdapterInvalidateIoRing_ok {r : Ring} (unlocked : r.ringLock = false) :
    ∃ txBufs rxBufs,
      (resetSlots (List.range r.sqDepth.val) r.begun).1 =
        { r.begun with txBufs := txBufs, rxBufs := rxBufs } ∧
      enaAdapterInvalidateIoRing r =
        .ok (r.emptied txBufs rxBufs, (resetSlots (List.range r.sqDepth.val) r.begun).2) := by
  obtain ⟨txBufs, rxBufs, frame⟩ := resetSlots_frame (List.range r.sqDepth.val) r.begun
  refine ⟨txBufs, rxBufs, frame, ?_⟩
  unfold enaAdapterInvalidateIoRing
  rw [enaRingLock_free unlocked]
  change Except.ok ({ (resetSlots (List.range r.sqDepth.val) r.begun).1 with
    ringLock := false
    pool := .fresh (resetSlots (List.range r.sqDepth.val) r.begun).1.sqDepth
    txForeignCount := 0 }, _) = _
  rw [frame]
  rfl

/-- A reset of an unlocked ring releases every item of a ledger that its slots
agree with. -/
theorem enaAdapterInvalidateIoRing_steps {r : Ring} {ledger : Ledger α β}
    (outside : ∀ id, r.sqDepth.val ≤ id → ledger id = .free)
    (netbufs : ∀ id, r.slotNetbuf id = (ledger id).item?.bind payload)
    (unlocked : r.ringLock = false) :
    ∃ txBufs rxBufs events actions,
      enaAdapterInvalidateIoRing r = .ok (r.emptied txBufs rxBufs, events) ∧
      Steps ReleaseOnly ledger actions Ledger.empty ∧
      freed events = yielded payload actions ∧
      FreesOnly events ∧
      ∀ id, (r.emptied txBufs rxBufs).slotNetbuf id = none := by
  obtain ⟨frees, actions, after, steps, released, final, cleared⟩ :=
    resetSlots_steps payload (List.range r.sqDepth.val) r.begun ledger netbufs
  obtain ⟨txBufs, rxBufs, frame, ran⟩ := enaAdapterInvalidateIoRing_ok unlocked
  have empty : after = Ledger.empty := by
    funext id
    rw [final id]
    split
    · rfl
    · rename_i beyond
      exact outside id (Nat.le_of_not_lt fun inside => beyond (List.mem_range.mpr inside))
  subst empty
  rw [frame] at cleared
  exact ⟨txBufs, rxBufs, _, actions, ran, steps, released, frees, cleared⟩

end Ledger

end EnaDriver.Datapath
