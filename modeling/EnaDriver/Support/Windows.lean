import EnaDriver.Support.Laps
import Mathlib.Data.List.Nodup
import Mathlib.Data.List.Perm.Subperm

/-!
# First-in first-out windows of circular arrays

A pool stored in a circular array is the window of `count` cells that starts at
`head`.  Popping drops the first cell of the window, and writing the cell after
the window appends one element.  Cells outside the window are never read.
-/

namespace EnaDriver.Support.Windows

open Support.Laps

variable {α : Type}

def store (array : Nat → α) (index : Nat) (value : α) : Nat → α :=
  fun i => if i = index then value else array i

@[simp] theorem store_same (array : Nat → α) (index : Nat) (value : α) :
    store array index value index = value := if_pos rfl

variable {bound index : Nat}

theorem store_other (array : Nat → α) {other : Nat} (value : α) (ne : other ≠ index) :
    store array index value other = array other := if_neg ne

/-- What is found in an array and was not stored last is found in another place. -/
theorem of_store {array : Nat → α} {other : Nat} {value found : α}
    (here : store array index value other = found) (differs : value ≠ found) :
    other ≠ index ∧ array other = found := by
  by_cases same : other = index
  · rw [same, store_same] at here
    exact absurd here differs
  · exact ⟨same, (store_other array value same).symm.trans here⟩

@[simp] theorem store_store (array : Nat → α) (index : Nat) (first second : α) :
    store (store array index first) index second = store array index second := by
  funext i
  unfold store
  split <;> rfl

theorem store_self (array : Nat → α) {value : α} (already : array index = value) :
    store array index value = array := by
  funext i
  by_cases same : i = index
  · rw [same, store_same, already]
  · exact store_other _ _ same

theorem countP_store (marks : Nat → Bool) (inside : index < bound) (mark : Bool) :
    (List.range bound).countP (store marks index mark) + (if marks index then 1 else 0) =
      (List.range bound).countP marks + (if mark then 1 else 0) := by
  induction bound with
  | zero => exact absurd inside (Nat.not_lt_zero index)
  | succ bound ih =>
    simp only [List.range_succ, List.countP_append, List.countP_singleton]
    by_cases here : index = bound
    · have others : (List.range bound).countP (store marks index mark) =
          (List.range bound).countP marks := by
        refine List.countP_congr fun i member => ?_
        have lt := List.mem_range.mp member
        rw [store_other _ _ (by omega)]
      rw [others, ← here, store_same]
      omega
    · have earlier := ih (by omega)
      rw [store_other _ _ (Ne.symm here)]
      omega

theorem store_agree {γ : Type} {f : α → γ} {array : Nat → γ} {source : Nat → α}
    (agree : ∀ i, array i = f (source i)) (index : Nat) (value : α) (i : Nat) :
    store array index (f value) i = f (store source index value i) := by
  unfold store
  split
  · rfl
  · exact agree i

/-- The `count` cells from `head` on, in circular order. -/
def window (d : Depth) (array : Nat → α) (head count : Nat) : List α :=
  (List.range count).map fun offset => array ((head + offset) % d.val)

@[simp] theorem window_length (d : Depth) (array : Nat → α) (head count : Nat) :
    (window d array head count).length = count := by
  simp [window]

/-- Popping: the first cell, then the window that starts one cell later. -/
theorem window_succ (d : Depth) (array : Nat → α) (head count : Nat) :
    window d array head (count + 1) =
      array (head % d.val) :: window d array ((head + 1) % d.val) count := by
  unfold window
  rw [List.range_succ_eq_map, List.map_cons, List.map_map, Nat.add_zero]
  refine congrArg (List.cons _) (List.map_congr_left fun offset _ => ?_)
  change array ((head + (offset + 1)) % d.val) = _
  rw [Nat.mod_add_mod, Nat.add_assoc, Nat.add_comm 1 offset]

/-- Distinct offsets below the depth name distinct cells. -/
theorem cell_ne {d : Depth} {head first second : Nat} (order : first < second)
    (bound : second < d.val) : (head + first) % d.val ≠ (head + second) % d.val := by
  intro same
  have divides : d.val ∣ (head + second) - (head + first) :=
    Nat.dvd_of_mod_eq_zero (Nat.sub_mod_eq_zero_of_mod_eq same.symm)
  have zero := Nat.eq_zero_of_dvd_of_lt divides (by omega)
  omega

/-- Writing the cell after the window leaves the window unchanged. -/
theorem window_store_outside (d : Depth) (array : Nat → α) (head count : Nat) (value : α)
    (room : count < d.val) :
    window d (store array ((head + count) % d.val) value) head count =
      window d array head count := by
  refine List.map_congr_left fun offset member => ?_
  exact store_other array value (cell_ne (List.mem_range.mp member) room)

theorem window_push (d : Depth) (array : Nat → α) (head count : Nat) (value : α)
    (room : count < d.val) :
    window d (store array ((head + count) % d.val) value) head (count + 1) =
      window d array head count ++ [value] := by
  have kept := window_store_outside d array head count value room
  unfold window at kept ⊢
  rw [List.range_succ, List.map_append, kept, List.map_singleton, store_same]

/-- A freshly filled pool holds every index once, in order. -/
theorem window_identity (d : Depth) : window d (fun index => index) 0 d.val = List.range d.val := by
  unfold window
  conv_rhs => rw [← List.map_id (List.range d.val)]
  refine List.map_congr_left fun offset member => ?_
  change (0 + offset) % d.val = offset
  rw [Nat.zero_add, Nat.mod_eq_of_lt (List.mem_range.mp member)]

/-! ## Swap removal -/

/-- Storing the last cell over cell `index` and dropping the last cell removes
exactly cell `index`, up to order. -/
theorem swapRemove_perm (array : Nat → α) {last : Nat} (inside : index ≤ last) :
    ((List.range (last + 1)).map array).Perm
      (array index :: (List.range last).map (store array index (array last))) := by
  rw [List.range_succ, List.map_append, List.map_singleton]
  rcases Nat.lt_or_eq_of_le inside with below | same
  · have present : index ∈ List.range last := List.mem_range.mpr below
    have split := List.perm_cons_erase present
    have others : ((List.range last).erase index).map (store array index (array last)) =
        ((List.range last).erase index).map array := by
      refine List.map_congr_left fun i member => store_other _ _ fun equal => ?_
      exact List.nodup_range.not_mem_erase (equal ▸ member)
    have left := (split.map array).append_right [array last]
    have right := split.map (store array index (array last))
    rw [List.map_cons, store_same, others] at right
    rw [List.map_cons, List.cons_append] at left
    exact left.trans (((List.perm_append_singleton _ _).trans right.symm).cons _)
  · have others : (List.range last).map (store array index (array last)) =
        (List.range last).map array := by
      refine List.map_congr_left fun i member => store_other _ _ ?_
      have below := List.mem_range.mp member
      omega
    rw [others, same]
    exact List.perm_append_singleton _ _

/-! ## Partial maps -/

theorem filterMap_store_perm (map : Nat → Option α) (inside : index < bound) (value : Option α) :
    ((List.range bound).filterMap (store map index value)).Perm
      (value.toList ++ (List.range bound).filterMap (store map index none)) := by
  have split := List.perm_cons_erase (List.mem_range.mpr inside)
  have others : ((List.range bound).erase index).filterMap (store map index value) =
      ((List.range bound).erase index).filterMap (store map index none) := by
    apply List.filterMap_congr
    intro i member
    have differs : i ≠ index := by
      rintro rfl
      exact List.nodup_range.not_mem_erase member
    rw [store_other _ _ differs, store_other _ _ differs]
  have left := split.filterMap (store map index value)
  have right := split.filterMap (store map index none)
  rw [List.filterMap_cons, store_same] at left right
  rw [others] at left
  cases value with
  | none => exact left.trans right.symm
  | some value => exact left.trans (right.symm.cons value)

/-! ## Distinct ids -/

theorem length_le_of_nodup {ids : List Nat} (distinct : ids.Nodup)
    (below : ∀ id ∈ ids, id < bound) : ids.length ≤ bound := by
  have inside : ids ⊆ List.range bound := fun id member => List.mem_range.mpr (below id member)
  have size := (distinct.subperm inside).length_le
  rwa [List.length_range] at size

end EnaDriver.Support.Windows
