import EnaDriver.Datapath.State

/-!
# Request ids

Allocation and release of request ids, and the shape of a sound pool: the free
window holds each free id once, its ends agree with the count, and it holds
exactly the ids whose ownership mark is clear.
-/

namespace EnaDriver.Datapath

open Support.Laps Support.Windows

/-- Pop the head of the free window and mark the id as owned; `none` is `-EBUSY`. -/
def enaRingReqIdAlloc (d : Depth) (pool : RequestPool) : Option (Nat × RequestPool) :=
  if pool.freeReqCount = 0 then
    none
  else
    let id := pool.freeReqIds pool.freeReqHead
    some (id, { pool with
      freeReqHead := d.slot (pool.freeReqHead + 1)
      freeReqCount := pool.freeReqCount - 1
      reqAllocated := store pool.reqAllocated id true })

def Ring.slotNetbuf (r : Ring) (reqId : Nat) : Option Netbuf :=
  match r.ringType with
  | .tx => (r.txBufs reqId).netbuf
  | .rx => (r.rxBufs reqId).netbuf

def enaRingSlotClear (r : Ring) (reqId : Nat) : Ring :=
  match r.ringType with
  | .tx => { r with txBufs := store r.txBufs reqId TxBuffer.empty }
  | .rx => { r with rxBufs := store r.rxBufs reqId RxBuffer.empty }

def RequestPool.push (d : Depth) (pool : RequestPool) (reqId : Nat) : RequestPool :=
  { pool with
    reqAllocated := store pool.reqAllocated reqId false
    freeReqIds := store pool.freeReqIds pool.freeReqTail reqId
    freeReqTail := d.slot (pool.freeReqTail + 1)
    freeReqCount := pool.freeReqCount + 1 }

/-- Release an id.  The ownership mark makes a second release a no-op. -/
def enaRingReqIdFree (r : Ring) (reqId : Nat) : Int × Ring :=
  if r.sqDepth.val ≤ reqId then
    (-EINVAL, r)
  else if r.pool.reqAllocated reqId = false then
    (0, r)
  else if r.sqDepth.val ≤ r.pool.freeReqCount then
    (-EINVAL, r)
  else
    (0, enaRingSlotClear { r with pool := r.pool.push r.sqDepth reqId } reqId)

/-- A release of a request id changes the pool and the tracking slots. -/
theorem reqIdFree_ring (r : Ring) (reqId : Nat) : ∃ pool txBufs rxBufs,
    (enaRingReqIdFree r reqId).2 = { r with pool := pool, txBufs := txBufs, rxBufs := rxBufs } := by
  unfold enaRingReqIdFree enaRingSlotClear
  split
  · exact ⟨_, _, _, rfl⟩
  split
  · exact ⟨_, _, _, rfl⟩
  · split
    · exact ⟨_, _, _, rfl⟩
    · split <;> exact ⟨_, _, _, rfl⟩

/-! ## Sound pools -/

def RequestPool.free (d : Depth) (pool : RequestPool) : List Nat :=
  window d pool.freeReqIds pool.freeReqHead pool.freeReqCount

/-- The free window and the ownership marks describe the same ids. -/
structure RequestPool.Sound (d : Depth) (pool : RequestPool) : Prop where
  head_lt : pool.freeReqHead < d.val
  count_le : pool.freeReqCount ≤ d.val
  tail_eq : pool.freeReqTail = (pool.freeReqHead + pool.freeReqCount) % d.val
  nodup : (pool.free d).Nodup
  mem_iff : ∀ id, id ∈ pool.free d ↔ id < d.val ∧ pool.reqAllocated id = false

namespace RequestPool

variable {d : Depth} {id : Nat} {pool : RequestPool}

theorem Sound.congr_marks (sound : pool.Sound d) (flags : Nat → Bool) :
    ({ pool with reqInFlight := flags } : RequestPool).Sound d :=
  ⟨sound.head_lt, sound.count_le, sound.tail_eq, sound.nodup, sound.mem_iff⟩

theorem Sound.count_lt (sound : pool.Sound d) (bound : id < d.val)
    (owned : pool.reqAllocated id = true) : pool.freeReqCount < d.val := by
  have outside : id ∉ pool.free d := by
    intro member
    have clear := ((sound.mem_iff id).mp member).2
    rw [owned] at clear
    cases clear
  have extended : (id :: pool.free d).Nodup := List.nodup_cons.mpr ⟨outside, sound.nodup⟩
  have below : ∀ other ∈ id :: pool.free d, other < d.val :=
    List.forall_mem_cons.mpr ⟨bound, fun other member => ((sound.mem_iff other).mp member).1⟩
  have size := length_le_of_nodup extended below
  rw [List.length_cons, free, window_length] at size
  exact size

/-- The free window and the owned ids make up the ring. -/
theorem Sound.count_add_allocated (sound : pool.Sound d) :
    pool.freeReqCount + (List.range d.val).countP pool.reqAllocated = d.val := by
  have same : (pool.free d).Perm
      ((List.range d.val).filter fun id => decide ¬ pool.reqAllocated id = true) := by
    refine (List.perm_ext_iff_of_nodup sound.nodup (List.nodup_range.filter _)).mpr ?_
    intro id
    rw [sound.mem_iff, List.mem_filter, List.mem_range, decide_eq_true_eq, Bool.not_eq_true]
  have size := same.length_eq
  rw [free, window_length, ← List.countP_eq_length_filter] at size
  have whole : (List.range d.val).length = _ :=
    List.length_eq_countP_add_countP pool.reqAllocated
  rw [List.length_range] at whole
  omega

/-- What an allocation does: it takes the head of the free window. -/
theorem alloc_cases {next : RequestPool} (sound : pool.Sound d)
    (found : enaRingReqIdAlloc d pool = some (id, next)) :
    id < d.val ∧ pool.reqAllocated id = false ∧ pool.free d = id :: next.free d ∧
      next.reqAllocated = store pool.reqAllocated id true ∧
      next.reqInFlight = pool.reqInFlight ∧ next.freeReqCount + 1 = pool.freeReqCount ∧
      next.Sound d := by
  unfold enaRingReqIdAlloc at found
  split at found
  · cases found
  rename_i nonempty
  cases found
  obtain ⟨count, countEq⟩ : ∃ count, pool.freeReqCount = count + 1 :=
    ⟨pool.freeReqCount - 1, by omega⟩
  have split : pool.free d = pool.freeReqIds pool.freeReqHead ::
      window d pool.freeReqIds ((pool.freeReqHead + 1) % d.val) count := by
    rw [free, countEq, window_succ, Nat.mod_eq_of_lt sound.head_lt]
  have nodup := sound.nodup
  rw [split, List.nodup_cons] at nodup
  have member := (sound.mem_iff (pool.freeReqIds pool.freeReqHead)).mp
    (by rw [split]; exact List.mem_cons_self)
  refine ⟨member.1, member.2, ?_, rfl, rfl, Nat.succ_pred_eq_of_ne_zero nonempty, ?_⟩
  · rw [split, free, d.slot_eq_mod, countEq, Nat.add_sub_cancel]
  refine ⟨d.slot_lt _, Nat.le_trans (Nat.sub_le _ _) sound.count_le, ?_, ?_, ?_⟩
  · change pool.freeReqTail =
      (d.slot (pool.freeReqHead + 1) + (pool.freeReqCount - 1)) % d.val
    rw [sound.tail_eq, d.slot_eq_mod, Nat.mod_add_mod]
    congr 1
    omega
  · rw [free, d.slot_eq_mod, countEq, Nat.add_sub_cancel]
    exact nodup.2
  · intro other
    have before := sound.mem_iff other
    rw [split, List.mem_cons] at before
    change other ∈ window d pool.freeReqIds (d.slot (pool.freeReqHead + 1))
      (pool.freeReqCount - 1) ↔ other < d.val ∧
        store pool.reqAllocated (pool.freeReqIds pool.freeReqHead) true other = false
    rw [d.slot_eq_mod, countEq, Nat.add_sub_cancel]
    by_cases same : other = pool.freeReqIds pool.freeReqHead
    · rw [same, store_same]
      exact ⟨fun inside => absurd inside nodup.1, fun impossible => by cases impossible.2⟩
    · rw [store_other _ _ same, ← before]
      exact ⟨Or.inr, fun inside => inside.resolve_left same⟩

/-- What a release of an owned id does: it appends the id to the free window. -/
theorem push_cases (sound : pool.Sound d) (bound : id < d.val)
    (owned : pool.reqAllocated id = true) :
    (pool.push d id).free d = pool.free d ++ [id] ∧ (pool.push d id).Sound d := by
  have room := sound.count_lt bound owned
  have appended : (pool.push d id).free d = pool.free d ++ [id] := by
    change window d (store pool.freeReqIds pool.freeReqTail id) pool.freeReqHead
      (pool.freeReqCount + 1) = _
    rw [sound.tail_eq]
    exact window_push d _ _ _ _ room
  refine ⟨appended, sound.head_lt, Nat.succ_le_of_lt room, ?_, ?_, ?_⟩
  · change d.slot (pool.freeReqTail + 1) = (pool.freeReqHead + (pool.freeReqCount + 1)) % d.val
    rw [d.slot_eq_mod, sound.tail_eq, Nat.mod_add_mod, Nat.add_assoc]
  · rw [appended]
    refine List.nodup_append.mpr ⟨sound.nodup, List.nodup_singleton id, ?_⟩
    intro first inside second isId same
    have clear := ((sound.mem_iff first).mp inside).2
    rw [same, List.mem_singleton.mp isId, owned] at clear
    cases clear
  · intro other
    rw [appended, List.mem_append, List.mem_singleton, sound.mem_iff other]
    change _ ↔ other < d.val ∧ store pool.reqAllocated id false other = false
    by_cases same : other = id
    · rw [same, store_same]
      exact ⟨fun _ => ⟨bound, rfl⟩, fun _ => Or.inr rfl⟩
    · rw [store_other _ _ same]
      exact ⟨fun inside => inside.resolve_right same, Or.inl⟩

def fresh (d : Depth) : RequestPool where
  freeReqIds := fun index => index
  freeReqHead := 0
  freeReqTail := 0
  freeReqCount := d.val
  reqInFlight := fun _ => false
  reqAllocated := fun _ => false

theorem fresh_free (d : Depth) : (fresh d).free d = List.range d.val := window_identity d

theorem fresh_sound (d : Depth) : (fresh d).Sound d where
  head_lt := d.pos
  count_le := Nat.le_refl _
  tail_eq := by
    change 0 = (0 + d.val) % d.val
    rw [Nat.zero_add, Nat.mod_self]
  nodup := by
    rw [fresh_free]
    exact List.nodup_range
  mem_iff := by
    intro id
    rw [fresh_free, List.mem_range]
    exact ⟨fun bound => ⟨bound, rfl⟩, fun inside => inside.1⟩

end RequestPool

end EnaDriver.Datapath
