import EnaDriver.Support.Polling
import EnaDriver.Support.Windows
import Mathlib.Data.List.Basic

/-!
# Shared memory across epochs

A writer fills the slots of a circular queue, and a reader polls them in the
order of their lap phases.  A new epoch returns the reader to slot zero and
leaves the memory as it is.  Every slot carries a tag that tells whether it was
written in the current epoch.  If no old entry can be read in the first lap, the
reader never consumes an entry of an earlier epoch.
-/

namespace EnaDriver.Support.Epochs

open Support.Laps Support.Windows Support.Polling

variable {α : Type}

/-- Memory by slot, and the slots written in this epoch. -/
structure EpochMem (α : Type) where
  mem : Nat → α
  fresh : Nat → Bool

/-- The writes between one iteration of a reader and the next, for each of them. -/
abbrev Script (α : Type) := List (List (Nat × α))

namespace EpochMem

def write (m : EpochMem α) (write : Nat × α) : EpochMem α :=
  ⟨store m.mem write.1 write.2, store m.fresh write.1 true⟩

def writeAll (m : EpochMem α) (writes : List (Nat × α)) : EpochMem α := writes.foldl write m

def after (m : EpochMem α) (script : Script α) : EpochMem α := script.foldl writeAll m

def views (m : EpochMem α) : Script α → List (EpochMem α)
  | [] => []
  | writes :: script => m.writeAll writes :: (m.writeAll writes).views script

def newEpoch (m : EpochMem α) : EpochMem α := { m with fresh := fun _ => false }

end EpochMem

/-- A later state of the memory in the same epoch. -/
def Grows (m later : EpochMem α) : Prop := ∃ writes, later = m.writeAll writes

theorem Grows.refl (m : EpochMem α) : Grows m m := ⟨[], rfl⟩

theorem Grows.trans {m middle later : EpochMem α} (first : Grows m middle)
    (second : Grows middle later) : Grows m later := by
  obtain ⟨early, rfl⟩ := first
  obtain ⟨late, rfl⟩ := second
  exact ⟨early ++ late, (List.foldl_append ..).symm⟩

/-- The views of a reader and the memory at the end grow from one to the next. -/
def Growing : EpochMem α → List (EpochMem α) → EpochMem α → Prop
  | m, [], last => Grows m last
  | m, view :: views, last => Grows m view ∧ Growing view views last

theorem growing_replicate (m : EpochMem α) (count : Nat) :
    Growing m (List.replicate count m) m := by
  induction count with
  | zero => exact .refl m
  | succ count ih => exact ⟨.refl m, ih⟩

/-- A reader that outlives the script finds the final memory. -/
theorem growing_views (m : EpochMem α) (script : Script α) (count : Nat) :
    Growing m (m.views script ++ List.replicate count (m.after script)) (m.after script) := by
  induction script generalizing m with
  | nil => exact growing_replicate m count
  | cons writes script ih => exact ⟨⟨writes, rfl⟩, ih (m.writeAll writes)⟩

theorem Growing.grows {m last : EpochMem α} {views : List (EpochMem α)}
    (growing : Growing m views last) : Grows m last := by
  induction views generalizing m with
  | nil => exact growing
  | cons view views ih => exact growing.1.trans (ih growing.2)

/-! ## Readers -/

section Covers

variable (d : Depth) (usable : α → Bool)

/-- Every slot was written in this epoch, or the reader has not reached it in its
first lap and cannot use what is in it. -/
def Covers (m : EpochMem α) (position : Nat) : Prop :=
  ∀ slot, slot < d.val → m.fresh slot = true ∨ position ≤ slot ∧ usable (m.mem slot) = false

variable {d usable} {m later : EpochMem α} {position : Nat}

theorem Covers.write (covers : Covers d usable m position) (entry : Nat × α) :
    Covers d usable (m.write entry) position := by
  intro slot bound
  change store m.fresh entry.1 true slot = true ∨ position ≤ slot ∧
    usable (store m.mem entry.1 entry.2 slot) = false
  by_cases here : slot = entry.1
  · rw [here, store_same]
    exact Or.inl rfl
  · rw [store_other _ _ here, store_other _ _ here]
    exact covers slot bound

theorem Covers.grows (covers : Covers d usable m position) (grows : Grows m later) :
    Covers d usable later position := by
  obtain ⟨writes, rfl⟩ := grows
  induction writes generalizing m with
  | nil => exact covers
  | cons entry writes ih => exact ih (covers.write entry)

theorem covers_newEpoch (unusable : ∀ slot, slot < d.val → usable (m.mem slot) = false) :
    Covers d usable m.newEpoch 0 := fun slot bound => Or.inr ⟨Nat.zero_le _, unusable slot bound⟩

/-- An entry that the reader consumes was written in this epoch. -/
theorem Covers.read (covers : Covers d usable m position)
    (consumed : lapPhase d position = true → usable (m.mem (position % d.val)) = true) :
    m.fresh (position % d.val) = true ∧ Covers d usable m (position + 1) := by
  have here : m.fresh (position % d.val) = true := by
    rcases covers _ (Nat.mod_lt _ d.pos) with fresh | ⟨ahead, unusable⟩
    · exact fresh
    · have first : position < d.val := Nat.lt_of_le_of_lt ahead (Nat.mod_lt _ d.pos)
      rw [consumed (lapPhase_of_lt d first)] at unusable
      cases unusable
  refine ⟨here, ?_⟩
  intro slot bound
  rcases covers slot bound with fresh | ⟨ahead, unusable⟩
  · exact Or.inl fresh
  by_cases same : slot = position
  · rw [same] at bound
    rw [Nat.mod_eq_of_lt bound] at here
    rw [same]
    exact Or.inl here
  · exact Or.inr ⟨by omega, unusable⟩

end Covers

def readFlags (slots : List Nat) (views : List (EpochMem α)) : List Bool :=
  List.zipWith (fun slot view => view.fresh slot) slots views

section Poll

variable {σ ο : Type} {entry : σ → (Nat → α) → Option (Nat × σ × List ο)} {budget : Nat}
  (d : Depth) (usable : α → Bool) (slotsOf : List ο → List Nat) (At : σ → Nat → Prop)
  (slotsOf_nil : slotsOf [] = [])
  (slotsOf_append : ∀ first second, slotsOf (first ++ second) = slotsOf first ++ slotsOf second)
  (consumes : ∀ {state view added next outputs position}, At state position →
    entry state view = some (added, next, outputs) →
    At next (position + 1) ∧ slotsOf outputs = [position % d.val] ∧
      (lapPhase d position = true → usable (view (position % d.val)) = true))
include slotsOf_nil slotsOf_append consumes

/-- A poll over growing memory consumes entries of this epoch only. -/
theorem iterates_fresh {views : List (EpochMem α)} {m last : EpochMem α} {position count total : Nat}
    {state final : σ} {outputs : List ο} (located : At state position)
    (covers : Covers d usable m position) (growing : Growing m views last)
    (iterates : Iterates entry budget count state (views.map EpochMem.mem) total outputs final) :
    (∀ flag ∈ readFlags (slotsOf outputs) views, flag = true) ∧
      Covers d usable last (position + (slotsOf outputs).length) := by
  induction views generalizing m position count state outputs with
  | nil =>
    cases iterates with
    | stop reason =>
      rw [slotsOf_nil]
      refine ⟨?_, covers.grows growing.grows⟩
      intro flag member
      cases member
  | cons view views ih =>
    cases iterates with
    | stop reason =>
      rw [slotsOf_nil]
      refine ⟨?_, covers.grows growing.grows⟩
      intro flag member
      cases member
    | @step _ _ added _ next _ _ _ here rest more read later =>
      obtain ⟨moved, slot, usableEntry⟩ := consumes located read
      obtain ⟨fresh, covered⟩ := (covers.grows growing.1).read usableEntry
      obtain ⟨flags, final⟩ := ih moved covered growing.2 later
      rw [slotsOf_append, slot, List.singleton_append]
      constructor
      · exact List.forall_mem_cons.mpr ⟨fresh, flags⟩
      · rw [List.length_cons]
        have shift : position + 1 + (slotsOf rest).length =
            position + ((slotsOf rest).length + 1) := by omega
        rw [← shift]
        exact final

end Poll

end EnaDriver.Support.Epochs
