import Mathlib.Init

/-!
# Blocks of cells

Memory is a function from addresses to cells.  Storing a list of cells changes the
block that starts at its address and has its length, and nothing else.
`SameOutside` says that two memories agree outside a block.
-/

namespace EnaDriver.Support.Blocks

variable {α : Type}

def storeList (mem : Nat → α) (base : Nat) (cells : List α) : Nat → α := fun a =>
  if base ≤ a then (cells[a - base]?).getD (mem a) else mem a

theorem storeList_outside (mem : Nat → α) {base a : Nat} {cells : List α}
    (outside : a < base ∨ base + cells.length ≤ a) : storeList mem base cells a = mem a := by
  unfold storeList
  split
  · rename_i above
    have beyond : cells.length ≤ a - base := by omega
    rw [List.getElem?_eq_none beyond]
    rfl
  · rfl

theorem storeList_at (mem : Nat → α) (base i : Nat) (cells : List α) :
    storeList mem base cells (base + i) = (cells[i]?).getD (mem (base + i)) := by
  unfold storeList
  rw [if_pos (Nat.le_add_right base i), Nat.add_sub_cancel_left]

theorem storeList_inside (mem : Nat → α) (base : Nat) {cells : List α} {i : Nat}
    (inside : i < cells.length) : storeList mem base cells (base + i) = cells[i] := by
  rw [storeList_at, List.getElem?_eq_getElem inside]
  rfl

theorem storeList_base (mem : Nat → α) (base : Nat) (first : α) (rest : List α) :
    storeList mem base (first :: rest) base = first :=
  @storeList_inside _ mem base (first :: rest) 0 (Nat.succ_pos _)

def SameOutside (base size : Nat) (mem next : Nat → α) : Prop :=
  ∀ a, a < base ∨ base + size ≤ a → next a = mem a

namespace SameOutside

variable {base size : Nat}

theorem refl (base size : Nat) (mem : Nat → α) : SameOutside base size mem mem := fun _ _ => rfl

/-- A list stored inside the block leaves the rest alone. -/
theorem store (mem : Nat → α) {at_ : Nat} {cells : List α} (low : base ≤ at_)
    (high : at_ + cells.length ≤ base + size) :
    SameOutside base size mem (storeList mem at_ cells) := by
  intro a outside
  apply storeList_outside
  omega

end SameOutside

end EnaDriver.Support.Blocks
