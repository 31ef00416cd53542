import EnaDriver.Admin.Commands
import EnaDriver.Support.Blocks

/-!
# The bytes of a request entry

A command is built in place, in the slot of the request ring under the tail: the
slot is cleared, the request is copied, and the fields of the common descriptor are
written over it.  This module follows those writes byte by byte, together with the
invalidation of the completion slot when the command ids start over.  The bytes that
end up in the slot are those of `buildEntry`; which bytes around it change depends on
the length of the request.
-/

namespace EnaDriver.Admin

open Support.Blocks Datapath

abbrev ByteMem := Nat → Nat

def aqCommonDescSize : Nat := 4

def acqEntrySize : Nat := 64

def word32 (mem : ByteMem) (a : Nat) : Nat :=
  mem a + 2 ^ 8 * mem (a + 1) + 2 ^ 16 * mem (a + 2) + 2 ^ 24 * mem (a + 3)

/-- Copy the request into the cleared entry, over all of it or behind the common
descriptor, and return the flags that a full entry brings along. -/
def copyRequest (req : List Nat) (entry : Nat) (mem : ByteMem) : Nat × ByteMem :=
  if req = [] then
    (0, mem)
  else if aqEntrySize ≤ req.length then
    let mem := storeList mem entry (req.take aqEntrySize)
    (mem (entry + 3) &&& 0xFE, mem)
  else
    (0, storeList mem (entry + aqCommonDescSize) req)

def writeAqEntry (phase : Bool) (commandId : Nat) (req : AdminReq) (entry : Nat) (mem : ByteMem) :
    ByteMem :=
  let mem := storeList mem entry (List.replicate aqEntrySize 0)
  let (kept, mem) := copyRequest req.req entry mem
  let mem := storeList mem entry (le16 commandId)
  let mem := storeList mem (entry + 2) [req.opcode]
  let indirect := if 0 < word32 mem (entry + aqCommonDescSize) then 0x04 else 0
  storeList mem (entry + 3) [kept ||| indirect ||| phaseFlag phase]

def AdminQueues.aqSlot (q : AdminQueues) : Nat := q.aq.depth.slot q.aq.cursor.index

/-- Everything that the submission of a command writes to host memory before the
doorbell: the entry, and zeros over the completion slot when the ids start over. -/
def submitMemory (aqBase acqBase : Nat) (q : AdminQueues) (req : AdminReq) (mem : ByteMem) : ByteMem :=
  let mem := writeAqEntry q.aq.cursor.phase q.commandId req (aqBase + aqEntrySize * q.aqSlot) mem
  if q.restarts then
    storeList mem (acqBase + acqEntrySize * q.acqSlot) (List.replicate acqEntrySize 0)
  else mem

/-! ## What stays -/

section Frame

variable {entry : Nat} {mem : ByteMem}

/-- The lengths whose copy ends inside the entry. -/
def FitsEntry (length : Nat) : Prop := length ≤ aqEntrySize - aqCommonDescSize ∨ length = aqEntrySize

instance (length : Nat) : Decidable (FitsEntry length) := inferInstanceAs (Decidable (_ ∨ _))

theorem copyRequest_frame (req : List Nat) (fits : FitsEntry req.length) :
    SameOutside entry aqEntrySize mem (copyRequest req entry mem).2 := by
  unfold copyRequest
  split
  · exact .refl _ _ _
  split
  · refine .store mem (Nat.le_refl _) (Nat.add_le_add_left ?_ entry)
    exact List.length_take_le _ _
  rename_i short
  refine .store mem (Nat.le_add_right _ _) ?_
  unfold FitsEntry at fits
  unfold aqEntrySize aqCommonDescSize at *
  omega

theorem writeAqEntry_apart (phase : Bool) (commandId : Nat) (req : AdminReq) {a : Nat}
    (outside : a < entry ∨ entry + aqCommonDescSize ≤ a) :
    writeAqEntry phase commandId req entry mem a =
      (copyRequest req.req entry (storeList mem entry (List.replicate aqEntrySize 0))).2 a := by
  have field : ∀ low size, low + size ≤ 4 → a < entry + low ∨ entry + low + size ≤ a := by
    intro low size short
    unfold aqCommonDescSize at outside
    omega
  unfold writeAqEntry
  dsimp only
  rw [storeList_outside, storeList_outside, storeList_outside]
  · exact field 0 2 (by decide)
  · exact field 2 1 (by decide)
  · exact field 3 1 (by decide)

/-- An entry whose request fits is built inside its own bytes. -/
theorem writeAqEntry_frame (phase : Bool) (commandId : Nat) (req : AdminReq)
    (fits : FitsEntry req.req.length) :
    SameOutside entry aqEntrySize mem (writeAqEntry phase commandId req entry mem) := by
  intro a outside
  rw [writeAqEntry_apart phase commandId req (by unfold aqEntrySize aqCommonDescSize at *; omega),
    copyRequest_frame req.req fits a outside]
  apply storeList_outside
  rw [List.length_replicate]
  exact outside

/-- A request of 61 to 63 bytes reaches the byte behind the entry. -/
theorem writeAqEntry_overflows (phase : Bool) (commandId : Nat) (req : AdminReq)
    (accepted : req.req.length ≤ aqEntrySize) (long : ¬ FitsEntry req.req.length) :
    ∃ inside : 60 < req.req.length,
      writeAqEntry phase commandId req entry mem (entry + aqEntrySize) = req.req[60] := by
  unfold FitsEntry at long
  unfold aqEntrySize aqCommonDescSize at *
  have inside : 60 < req.req.length := by omega
  have present : req.req ≠ [] := by
    intro empty
    rw [empty] at inside
    cases inside
  have short : ¬ aqEntrySize ≤ req.req.length := by
    unfold aqEntrySize
    omega
  refine ⟨inside, ?_⟩
  rw [writeAqEntry_apart phase commandId req (Or.inr (by unfold aqCommonDescSize; omega))]
  unfold copyRequest
  rw [if_neg present, if_neg short]
  exact storeList_inside _ (entry + aqCommonDescSize) inside

end Frame

/-! ## What is written -/

def AqEntry.bytes (e : AqEntry) : List Nat := le16 e.commandId ++ [e.opcode, e.flags] ++ e.data

section Content

variable {entry : Nat} {mem : ByteMem}

theorem buildEntry_data (phase : Bool) (commandId : Nat) (req : AdminReq) {i : Nat}
    (inside : i < 60) :
    ((buildEntry phase commandId req).data[i]?).getD 0 =
      if aqEntrySize ≤ req.req.length then (req.req[aqCommonDescSize + i]?).getD 0
      else (req.req[i]?).getD 0 := by
  unfold buildEntry
  dsimp only
  by_cases full : aqEntrySize ≤ req.req.length
  · rw [decide_eq_true full, if_pos rfl, if_pos full, List.getElem?_drop]
    rfl
  rw [decide_eq_false full, if_neg Bool.false_ne_true, if_neg full, List.getElem?_take_of_lt inside]
  by_cases within : i < req.req.length
  · rw [List.getElem?_append_left within]
  · rw [List.getElem?_append_right (Nat.le_of_not_lt within),
      List.getElem?_replicate_of_lt (by omega), List.getElem?_eq_none (Nat.le_of_not_lt within)]
    rfl

theorem copyRequest_data (phase : Bool) (commandId : Nat) (req : AdminReq) {i : Nat}
    (inside : i < 60) :
    (copyRequest req.req entry (storeList mem entry (List.replicate aqEntrySize 0))).2
        (entry + aqCommonDescSize + i) =
      ((buildEntry phase commandId req).data[i]?).getD 0 := by
  have small : aqCommonDescSize + i < aqEntrySize := by
    unfold aqCommonDescSize aqEntrySize
    omega
  have zero : storeList mem entry (List.replicate aqEntrySize 0) (entry + aqCommonDescSize + i) = 0 := by
    rw [Nat.add_assoc, storeList_at, List.getElem?_replicate_of_lt small]
    rfl
  rw [buildEntry_data phase commandId req inside]
  unfold copyRequest
  by_cases empty : req.req = []
  · rw [if_pos empty, empty, if_neg (by decide)]
    exact zero
  rw [if_neg empty]
  split
  · rename_i full
    dsimp only
    rw [Nat.add_assoc, storeList_at, List.getElem?_take_of_lt small,
      List.getElem?_eq_getElem (Nat.lt_of_lt_of_le small full)]
    rfl
  · dsimp only
    rw [storeList_at, zero]

/-- The flags that a full request brings along. -/
theorem copyRequest_kept (req : List Nat) (entry : Nat) (mem : ByteMem) :
    (copyRequest req entry mem).1 =
      if aqEntrySize ≤ req.length then (req[3]?.getD 0) &&& 0xFE else 0 := by
  unfold copyRequest
  by_cases empty : req = []
  · rw [if_pos empty, empty, if_neg (by decide)]
  rw [if_neg empty]
  split
  · rename_i full
    have third : 3 < req.length := Nat.lt_of_lt_of_le (by decide) full
    dsimp only
    rw [storeList_at, List.getElem?_take_of_lt (by decide), List.getElem?_eq_getElem third]
    rfl
  · rfl

/-- A list starts with a word that is not zero exactly if one of its first four bytes
is not. -/
theorem any_take_four (data : List Nat) :
    (data.take 4).any (· != 0) =
      decide (0 < data[0]?.getD 0 + 2 ^ 8 * data[1]?.getD 0 + 2 ^ 16 * data[2]?.getD 0 +
        2 ^ 24 * data[3]?.getD 0) := by
  have word : ∀ a b c d : Nat, (a != 0 || (b != 0 || (c != 0 || d != 0))) =
      decide (0 < a + 2 ^ 8 * b + 2 ^ 16 * c + 2 ^ 24 * d) := by
    intro a b c d
    rw [Bool.eq_iff_iff]
    simp only [Bool.or_eq_true, bne_iff_ne, decide_eq_true_eq]
    omega
  match data with
  | [] => rfl
  | [a] => simpa using word a 0 0 0
  | [a, b] => simpa using word a b 0 0
  | [a, b, c] => simpa using word a b c 0
  | a :: b :: c :: d :: rest => simpa using word a b c d

/-- The word behind the common descriptor when the flags are written. -/
theorem controlLength_word (phase : Bool) (commandId : Nat) (req : AdminReq) :
    word32 (storeList (storeList
          (copyRequest req.req entry (storeList mem entry (List.replicate aqEntrySize 0))).2 entry
          (le16 commandId)) (entry + 2) [req.opcode]) (entry + aqCommonDescSize) =
      let data := (buildEntry phase commandId req).data
      data[0]?.getD 0 + 2 ^ 8 * data[1]?.getD 0 + 2 ^ 16 * data[2]?.getD 0 +
        2 ^ 24 * data[3]?.getD 0 := by
  have behind : ∀ i, i < 60 → storeList (storeList
      (copyRequest req.req entry (storeList mem entry (List.replicate aqEntrySize 0))).2 entry
        (le16 commandId)) (entry + 2) [req.opcode] (entry + aqCommonDescSize + i) =
      ((buildEntry phase commandId req).data[i]?).getD 0 := by
    intro i inside
    rw [storeList_outside, storeList_outside, copyRequest_data phase commandId req inside]
    · refine Or.inr ?_
      change entry + 2 ≤ entry + 4 + i
      omega
    · refine Or.inr ?_
      change entry + 2 + 1 ≤ entry + 4 + i
      omega
  unfold word32
  rw [← Nat.add_zero (entry + aqCommonDescSize), behind 0 (by decide), Nat.add_zero,
    behind 1 (by decide), behind 2 (by decide), behind 3 (by decide)]

theorem writeAqEntry_bytes (phase : Bool) (commandId : Nat) (req : AdminReq) {i : Nat}
    (inside : i < aqEntrySize) :
    writeAqEntry phase commandId req entry mem (entry + i) =
      ((buildEntry phase commandId req).bytes[i]?).getD 0 := by
  by_cases data : aqCommonDescSize ≤ i
  · obtain ⟨k, rfl⟩ := Nat.exists_eq_add_of_le data
    have small : k < 60 := by
      unfold aqCommonDescSize aqEntrySize at inside
      omega
    rw [writeAqEntry_apart phase commandId req (Or.inr (Nat.add_le_add_left data entry)), ← Nat.add_assoc,
      copyRequest_data phase commandId req small]
    have behind : (buildEntry phase commandId req).bytes[aqCommonDescSize + k]? =
        (buildEntry phase commandId req).data[k]? := by
      unfold AqEntry.bytes
      rw [List.getElem?_append_right (Nat.le_add_right 4 k)]
      exact congrArg (_[·]?) (Nat.add_sub_cancel_left 4 k)
    rw [behind]
  · have low : i = 0 ∨ i = 1 ∨ i = 2 ∨ i = 3 := by
      unfold aqCommonDescSize at data
      omega
    unfold writeAqEntry
    dsimp only
    rcases low with rfl | rfl | rfl | rfl
    · rw [storeList_outside _ (Or.inl (by omega)), storeList_outside _ (Or.inl (by omega)), storeList_at]
      rfl
    · rw [storeList_outside _ (Or.inl (by omega)), storeList_outside _ (Or.inl (by omega)), storeList_at]
      rfl
    · rw [storeList_outside _ (Or.inl (by omega)), storeList_base]
      rfl
    · rw [storeList_base, copyRequest_kept, controlLength_word phase]
      unfold AqEntry.bytes buildEntry
      dsimp only
      rw [any_take_four]
      by_cases full : aqEntrySize ≤ req.req.length
      · simp [full, le16]
      · simp [full, le16]

end Content

/-! ## One submission -/

/-- A submission changes no byte outside the slot of its entry, whatever memory held
before. -/
def WritesOwnSlot (aqBase acqBase : Nat) (q : AdminQueues) (req : AdminReq) : Prop :=
  ∀ mem, SameOutside (aqBase + aqEntrySize * q.aqSlot) aqEntrySize mem
    (submitMemory aqBase acqBase q req mem)

def RingsApart (aqBase acqBase : Nat) (q : AdminQueues) : Prop :=
  aqBase + aqEntrySize * q.aq.depth.val ≤ acqBase ∨
    acqBase + acqEntrySize * q.acq.depth.val ≤ aqBase

instance (aqBase acqBase : Nat) (q : AdminQueues) : Decidable (RingsApart aqBase acqBase q) :=
  inferInstanceAs (Decidable (_ ∨ _))

theorem acqSlot_outside {aqBase acqBase : Nat} {q : AdminQueues}
    (apart : RingsApart aqBase acqBase q) :
    acqBase + acqEntrySize * q.acqSlot < aqBase + aqEntrySize * q.aqSlot ∨
      aqBase + aqEntrySize * q.aqSlot + aqEntrySize ≤ acqBase + acqEntrySize * q.acqSlot := by
  have request : q.aqSlot < q.aq.depth.val := q.aq.depth.slot_lt _
  have completion : q.acqSlot < q.acq.depth.val := q.acq.depth.slot_lt _
  unfold RingsApart at apart
  unfold aqEntrySize acqEntrySize at *
  omega

/-- The device finds the entry of the command in its slot. -/
theorem submitMemory_entry {aqBase acqBase : Nat} {q : AdminQueues} {req : AdminReq} {mem : ByteMem}
    (apart : RingsApart aqBase acqBase q) {i : Nat} (inside : i < aqEntrySize) :
    submitMemory aqBase acqBase q req mem (aqBase + aqEntrySize * q.aqSlot + i) =
      ((q.entryOf req).bytes[i]?).getD 0 := by
  have entry := @writeAqEntry_bytes (aqBase + aqEntrySize * q.aqSlot) mem q.aq.cursor.phase q.commandId
    req i inside
  unfold submitMemory
  split
  · rw [storeList_outside]
    · exact entry
    rw [List.length_replicate]
    have request : q.aqSlot < q.aq.depth.val := q.aq.depth.slot_lt _
    have completion : q.acqSlot < q.acq.depth.val := q.acq.depth.slot_lt _
    unfold RingsApart at apart
    unfold aqEntrySize acqEntrySize at *
    omega
  · exact entry

/-- For every accepted request, every depth and every position of the rings: a
submission writes its own slot only, exactly if the request has at most 60 bytes or
all 64, and the ids do not start over behind a used completion ring. -/
theorem submit_writes_own_slot_iff (aqBase acqBase : Nat) (q : AdminQueues) (req : AdminReq)
    (accepted : req.req.length ≤ aqEntrySize) (apart : RingsApart aqBase acqBase q) :
    WritesOwnSlot aqBase acqBase q req ↔ FitsEntry req.req.length ∧ ¬ q.restarts := by
  constructor
  · intro own
    have steady : ¬ q.restarts := by
      intro restarts
      have kept := own (fun _ => 1) _ (acqSlot_outside apart)
      unfold submitMemory at kept
      dsimp only at kept
      rw [if_pos restarts, show acqEntrySize = 63 + 1 from rfl, List.replicate_succ,
        storeList_base] at kept
      exact absurd kept (by decide)
    refine ⟨?_, steady⟩
    by_contra long
    -- memory that differs from the first byte too many
    have kept := own (fun _ => (req.req[60]?).getD 0 + 1) _ (Or.inr (Nat.le_refl _))
    unfold submitMemory at kept
    dsimp only at kept
    obtain ⟨inside, written⟩ := writeAqEntry_overflows q.aq.cursor.phase q.commandId req accepted long
    rw [if_neg steady, written, List.getElem?_eq_getElem inside] at kept
    exact absurd kept (Nat.ne_of_lt (Nat.lt_succ_self _))
  · rintro ⟨fits, steady⟩ mem
    unfold submitMemory
    dsimp only
    rw [if_neg steady]
    exact writeAqEntry_frame _ _ req fits

def ringsAt (tail : Nat) : AdminQueues :=
  let q := AdminQueues.fresh ⟨0, 4096⟩ ⟨1, 8192⟩ ⟨2, 12288⟩ .four .four .four
  { q with aq := { q.aq with cursor := ⟨tail, true⟩ } }

theorem submit_writes_own_slot_short :
    WritesOwnSlot 4096 8192 (ringsAt 3) (destroySqReq 5) :=
  (submit_writes_own_slot_iff 4096 8192 (ringsAt 3) (destroySqReq 5) (by decide) (by decide)).mpr
    ⟨by decide, by decide⟩

/-- The whole entry stands in its slot: the id, the opcode, the flags and the id of
the queue. -/
theorem submitMemory_entry_own :
    (List.range 64).map (fun i => submitMemory 4096 8192 (ringsAt 3) (destroySqReq 5) (fun _ => 0)
      (4288 + i)) = [1, 0, 2, 5, 5] ++ List.replicate 59 0 := by
  have own : ∀ i ∈ List.range 64, submitMemory 4096 8192 (ringsAt 3) (destroySqReq 5) (fun _ => 0)
      (4288 + i) = (((ringsAt 3).entryOf (destroySqReq 5)).bytes[i]?).getD 0 := fun i inside =>
    @submitMemory_entry 4096 8192 (ringsAt 3) (destroySqReq 5) _ (by decide) i (List.mem_range.mp inside)
  rw [List.map_congr_left own]
  decide

/-- A request of 61 bytes in the last slot of a ring of four: its last byte lands
behind the ring. -/
theorem long_request_leaves_ring :
    submitMemory 4096 8192 (ringsAt 3) ⟨9, List.replicate 61 7, 0, 1⟩ (fun _ => 0)
      (4096 + 64 * 4) = 7 := by
  decide

end EnaDriver.Admin
