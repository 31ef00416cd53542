import EnaDriver.Netdev.Receive

/-!
# Bounce pools

The slots of a bounce pool are in its free window, in its map from request ids,
or in the hand of the call that popped them.  In a sound pool these are distinct
slots of the pool, and in a whole pool they are all of them.  Each move of the
driver takes one slot from one place to another; only a map entry that is
overwritten loses its slot.
-/

namespace EnaDriver.Datapath

open Support.Laps Support.Windows

namespace BouncePool

def free (pool : BouncePool) : List Nat :=
  window pool.nbDesc pool.freeIds pool.freeHead pool.freeCount

def mapped (pool : BouncePool) : List Nat := (List.range pool.nbDesc.val).filterMap pool.map

def slots (pool : BouncePool) (hand : List Nat) : List Nat := pool.free ++ (pool.mapped ++ hand)

def assign (pool : BouncePool) (reqId : Nat) (slot : Option Nat) : BouncePool :=
  { pool with map := store pool.map reqId slot }

structure Sound (pool : BouncePool) (hand : List Nat) : Prop where
  head_lt : pool.freeHead < pool.nbDesc.val
  tail_eq : pool.freeTail = (pool.freeHead + pool.freeCount) % pool.nbDesc.val
  distinct : (pool.slots hand).Subperm (List.range pool.nbDesc.val)

/-- Every slot is in one place. -/
def Whole (pool : BouncePool) (hand : List Nat) : Prop :=
  (pool.slots hand).Perm (List.range pool.nbDesc.val)

section

variable {pool next : BouncePool} {hand : List Nat} {slot reqId : Nat}

section

variable (sound : pool.Sound hand)
include sound

theorem Sound.nodup : (pool.slots hand).Nodup := by
  obtain ⟨_, same, inside⟩ := sound.distinct
  exact same.nodup_iff.mp (List.nodup_range.sublist inside)

theorem Sound.lt {slot : Nat} (member : slot ∈ pool.slots hand) :
    slot < pool.nbDesc.val := List.mem_range.mp (sound.distinct.subset member)

omit sound in
theorem mem_mapped (bound : reqId < pool.nbDesc.val) (found : pool.map reqId = some slot) :
    slot ∈ pool.mapped := List.mem_filterMap.mpr ⟨reqId, List.mem_range.mpr bound, found⟩

/-- A slot of a request is a slot of the pool. -/
theorem Sound.mapped_lt (bound : reqId < pool.nbDesc.val) (found : pool.map reqId = some slot) :
    slot < pool.nbDesc.val :=
  sound.lt (List.mem_append_right _ (List.mem_append_left _ (mem_mapped bound found)))

theorem Sound.not_free (bound : reqId < pool.nbDesc.val) (found : pool.map reqId = some slot) :
    slot ∉ pool.free := by
  intro member
  have apart := (List.nodup_append.mp sound.nodup).2.2
  exact apart slot member slot (List.mem_append_left _ (mem_mapped bound found)) rfl

/-- Two requests have different slots. -/
theorem Sound.injective {other : Nat} (bound : reqId < pool.nbDesc.val)
    (otherBound : other < pool.nbDesc.val) (found : pool.map reqId = some slot)
    (same : pool.map other = some slot) : reqId = other := by
  by_contra differs
  have front := filterMap_store_perm pool.map bound (some slot)
  rw [store_self _ found] at front
  have distinct := (List.nodup_append.mp (List.nodup_append.mp sound.nodup).2.1).1
  have apart := (front.nodup_iff.mp distinct)
  rw [Option.toList_some, List.singleton_append, List.nodup_cons] at apart
  apply apart.1
  refine List.mem_filterMap.mpr ⟨other, List.mem_range.mpr otherBound, ?_⟩
  rw [store_other _ _ (Ne.symm differs), same]

/-! ## Moves -/

/-- A move that keeps the ends of the window in step and adds no slot. -/
theorem Sound.move {handNext : List Nat} (depth : next.nbDesc = pool.nbDesc)
    (head : next.freeHead < next.nbDesc.val)
    (tail : next.freeTail = (next.freeHead + next.freeCount) % next.nbDesc.val)
    (fewer : (next.slots handNext).Subperm (pool.slots hand)) : next.Sound handNext :=
  ⟨head, tail, by rw [depth]; exact fewer.trans sound.distinct⟩

omit sound in
theorem Sound.room (sound : pool.Sound (slot :: hand)) : pool.freeCount < pool.nbDesc.val := by
  have size := sound.distinct.length_le
  rw [slots, free, List.length_append, window_length, List.length_append, List.length_cons,
    List.length_range] at size
  omega

theorem Sound.pop (some : pool.freeCount ≠ 0) : let popped := Netdev.BouncePool.pop pool
    popped.2.Sound (popped.1 :: hand) ∧
      (popped.2.slots (popped.1 :: hand)).Perm (pool.slots hand) := by
  intro popped
  obtain ⟨count, counted⟩ : ∃ count, pool.freeCount = count + 1 := ⟨pool.freeCount - 1, by omega⟩
  have split : pool.free = popped.1 :: popped.2.free := by
    change window _ _ _ _ = pool.freeIds pool.freeHead :: window pool.nbDesc pool.freeIds
      (pool.nbDesc.slot (pool.freeHead + 1)) (pool.freeCount - 1)
    rw [counted, window_succ, Nat.mod_eq_of_lt sound.head_lt, pool.nbDesc.slot_eq_mod,
      Nat.add_sub_cancel]
  have moved : (popped.2.slots (popped.1 :: hand)).Perm (pool.slots hand) := by
    rw [slots, slots, split]
    change (popped.2.free ++ (pool.mapped ++ popped.1 :: hand)).Perm _
    rw [← List.append_assoc, List.cons_append, ← List.append_assoc]
    exact List.perm_middle
  refine ⟨sound.move rfl (pool.nbDesc.slot_lt _) ?_ moved.subperm, moved⟩
  change pool.freeTail =
    (pool.nbDesc.slot (pool.freeHead + 1) + (pool.freeCount - 1)) % pool.nbDesc.val
  rw [sound.tail_eq, pool.nbDesc.slot_eq_mod, Nat.mod_add_mod]
  congr 1
  omega

end

theorem Sound.giveBack (sound : pool.Sound (slot :: hand)) :
    (pool.giveBack slot).Sound hand ∧
      ((pool.giveBack slot).slots hand).Perm (pool.slots (slot :: hand)) := by
  have appended : (pool.giveBack slot).free = pool.free ++ [slot] := by
    change window _ (store pool.freeIds pool.freeTail slot) _ _ = _
    rw [sound.tail_eq]
    exact window_push _ _ _ _ _ sound.room
  have moved : ((pool.giveBack slot).slots hand).Perm (pool.slots (slot :: hand)) := by
    rw [slots, slots, appended]
    change (pool.free ++ [slot] ++ (pool.mapped ++ hand)).Perm _
    rw [List.append_assoc, List.singleton_append]
    exact List.Perm.append_left _ List.perm_middle.symm
  refine ⟨sound.move rfl sound.head_lt ?_ moved.subperm, moved⟩
  change pool.nbDesc.slot (pool.freeTail + 1) =
    (pool.freeHead + (pool.freeCount + 1)) % pool.nbDesc.val
  rw [pool.nbDesc.slot_eq_mod, sound.tail_eq, Nat.mod_add_mod, Nat.add_assoc]

/-- The slots with the entry of one request in front. -/
theorem slots_assign (pool : BouncePool) (hand : List Nat) (bound : reqId < pool.nbDesc.val)
    (value : Option Nat) :
    ((pool.assign reqId value).slots hand).Perm
      ((pool.assign reqId none).slots (value.toList ++ hand)) := by
  have front := filterMap_store_perm pool.map bound value
  refine List.Perm.append_left _ ?_
  change ((List.range _).filterMap _ ++ hand).Perm ((List.range _).filterMap _ ++ _)
  refine (front.append_right hand).trans ?_
  rw [← List.append_assoc]
  exact List.perm_append_comm.append_right hand

theorem assign_self {value : Option Nat} (found : pool.map reqId = value) : pool.assign reqId value = pool := by
  rw [assign, store_self _ found]

/-- Recording the slot in hand moves it into the map; an entry that is
overwritten loses its slot. -/
theorem Sound.assign {value : Option Nat} (sound : pool.Sound (value.toList ++ hand))
    (bound : reqId < pool.nbDesc.val) :
    (pool.assign reqId value).Sound hand ∧
      (pool.map reqId = none →
        ((pool.assign reqId value).slots hand).Perm (pool.slots (value.toList ++ hand))) := by
  have moved := pool.slots_assign hand bound value
  refine ⟨sound.move rfl sound.head_lt sound.tail_eq (moved.subperm.trans ?_), fun empty => ?_⟩
  · have before := pool.slots_assign (value.toList ++ hand) bound (pool.map reqId)
    rw [assign_self rfl] at before
    refine List.Subperm.trans ?_ before.symm.subperm
    refine (List.subperm_append_left _).mpr ((List.subperm_append_left _).mpr ?_)
    exact (List.sublist_append_right _ _).subperm
  · rwa [assign_self empty] at moved

/-- Forgetting the slot of a request takes it into the hand. -/
theorem Sound.unmap (sound : pool.Sound hand) (bound : reqId < pool.nbDesc.val)
    (found : pool.map reqId = some slot) :
    (pool.unmap reqId).Sound (slot :: hand) ∧
      ((pool.unmap reqId).slots (slot :: hand)).Perm (pool.slots hand) := by
  have moved := pool.slots_assign hand bound (some slot)
  rw [assign_self found] at moved
  exact ⟨sound.move rfl sound.head_lt sound.tail_eq moved.symm.subperm, moved.symm⟩

/-- A completion takes the slot of its request back to the free window. -/
theorem Sound.reclaim (sound : pool.Sound hand) (bound : reqId < pool.nbDesc.val)
    (found : pool.map reqId = some slot) :
    ((pool.unmap reqId).giveBack slot).Sound hand ∧
      (((pool.unmap reqId).giveBack slot).slots hand).Perm (pool.slots hand) := by
  obtain ⟨unmapped, first⟩ := sound.unmap bound found
  obtain ⟨given, second⟩ := unmapped.giveBack
  exact ⟨given, second.trans first⟩

def reclaimed (pool : BouncePool) (reqId : Nat) : BouncePool :=
  match pool.map reqId with
  | none => pool
  | some slot => (pool.unmap reqId).giveBack slot

theorem reclaimed_depth (pool : BouncePool) (reqId : Nat) :
    (pool.reclaimed reqId).nbDesc = pool.nbDesc := by
  unfold reclaimed
  split <;> rfl

theorem reclaimed_phys (pool : BouncePool) (reqId : Nat) :
    (pool.reclaimed reqId).phys = pool.phys := by
  unfold reclaimed
  split <;> rfl

theorem reclaimed_map (pool : BouncePool) (reqId : Nat) :
    (pool.reclaimed reqId).map = store pool.map reqId none := by
  unfold reclaimed
  split
  · rename_i vacant
    exact (store_self _ vacant).symm
  · rfl

theorem Sound.reclaimed (sound : pool.Sound hand) (bound : reqId < pool.nbDesc.val) :
    (pool.reclaimed reqId).Sound hand ∧
      ((pool.reclaimed reqId).slots hand).Perm (pool.slots hand) := by
  unfold BouncePool.reclaimed
  split
  · exact ⟨sound, .refl _⟩
  · rename_i slot found
    exact sound.reclaim bound found

theorem Whole.of_perm {handNext : List Nat} (whole : pool.Whole hand)
    (depth : next.nbDesc = pool.nbDesc) (moved : (next.slots handNext).Perm (pool.slots hand)) :
    next.Whole handNext := by
  rw [Whole, depth]
  exact moved.trans whole

/-- In a whole pool without mapped slots all slots are free. -/
theorem Whole.count (whole : pool.Whole []) (none : ∀ id, id < pool.nbDesc.val → pool.map id = none) :
    pool.freeCount = pool.nbDesc.val := by
  have empty : pool.mapped = [] :=
    List.filterMap_eq_nil_iff.mpr fun id member => none id (List.mem_range.mp member)
  have size := whole.length_eq
  rw [slots, empty, free, List.append_nil, List.append_nil, window_length, List.length_range] at size
  exact size

end

def fresh (phys : Nat) (d : Depth) : BouncePool where
  phys := phys
  nbDesc := d
  freeIds := fun index => index
  freeHead := 0
  freeTail := 0
  freeCount := d.val
  map := fun _ => none

theorem fresh_slots (phys : Nat) (d : Depth) : (fresh phys d).slots [] = List.range d.val := by
  have none : (fresh phys d).mapped = [] := List.filterMap_eq_nil_iff.mpr fun _ _ => rfl
  rw [slots, none, List.append_nil, List.append_nil]
  exact window_identity d

theorem fresh_whole (phys : Nat) (d : Depth) : (fresh phys d).Whole [] := by
  rw [Whole, fresh_slots]
  exact List.Perm.refl _

theorem fresh_sound (phys : Nat) (d : Depth) : (fresh phys d).Sound [] where
  head_lt := d.pos
  tail_eq := by
    change 0 = (0 + d.val) % d.val
    rw [Nat.zero_add, Nat.mod_self]
  distinct := (fresh_whole phys d).subperm

end BouncePool

end EnaDriver.Datapath
