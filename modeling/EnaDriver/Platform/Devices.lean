import Mathlib.Data.List.Perm.Basic

/-!
# The registry of devices

The bus keeps no pointer to the structure of a driver, so the driver has a table of its
own.  A device that finds no free slot is added all the same, and nothing tears it down.
-/

namespace EnaDriver.Platform.Devices

def ENOSPC : Int := 28

/-- A device structure, by the number of its allocation, with its bus device. -/
structure Edev where
  id : Nat
  pdev : Nat
  deriving DecidableEq

/-- `s_edevs`, and where the structures made so far went that are not in it. -/
structure Registry where
  slots : List (Option Edev)
  made : Nat
  tornDown : List Edev
  lost : List Edev

/-- `ENA_PCI_MAX_DEVS` free slots. -/
def boot : Registry := ⟨List.replicate 8 none, 0, [], []⟩

def enaPciFindEdev (slots : List (Option Edev)) (pdev : Nat) : Option Edev :=
  (slots.flatMap Option.toList).find? (·.pdev = pdev)

def enaPciTrackEdev (e : Edev) (slots : List (Option Edev)) : Int × List (Option Edev) :=
  if none ∈ slots then (0, slots.set (slots.idxOf none) (some e)) else (-ENOSPC, slots)

def enaPciRemoveDev (s : Registry) (pdev : Nat) : Registry :=
  match enaPciFindEdev s.slots pdev with
  | none => s
  | some e =>
    { s with slots := s.slots.set (s.slots.idxOf (some e)) none, tornDown := e :: s.tornDown }

inductive Op where
  | add (pdev : Nat)
  | remove (pdev : Nat)

/-- The end of `ena_pci_add_dev` ignores that the table is full. -/
def step (s : Registry) : Op → Registry
  | .add pdev =>
    let e : Edev := ⟨s.made, pdev⟩
    let (ret, slots) := enaPciTrackEdev e s.slots
    ⟨slots, s.made + 1, s.tornDown, if ret = 0 then s.lost else e :: s.lost⟩
  | .remove pdev => enaPciRemoveDev s pdev

def all (s : Registry) : List Edev := s.slots.flatMap Option.toList ++ (s.tornDown ++ s.lost)

/-- Whatever takes the place of a slot, the table has it instead. -/
theorem set_perm {slots : List (Option Edev)} {old : Option Edev} (new : Option Edev)
    (stored : old ∈ slots) :
    (old.toList ++ (slots.set (slots.idxOf old) new).flatMap Option.toList).Perm
      (new.toList ++ slots.flatMap Option.toList) := by
  induction slots with
  | nil => cases stored
  | cons slot rest ih =>
    by_cases here : slot = old
    · rw [here, List.idxOf_cons_self]
      exact List.perm_append_comm_assoc ..
    · have later := ih ((List.mem_cons.mp stored).resolve_left (Ne.symm here))
      rw [List.idxOf_cons_ne rest here]
      refine (List.perm_append_comm_assoc ..).trans ((later.append_left _).trans ?_)
      exact List.perm_append_comm_assoc ..

theorem step_all (s : Registry) (op : Op) :
    (∃ pdev, (step s op).made = s.made + 1 ∧ (all (step s op)).Perm (⟨s.made, pdev⟩ :: all s)) ∨
      (step s op).made = s.made ∧ (all (step s op)).Perm (all s) := by
  cases op with
  | add pdev =>
    refine .inl ⟨pdev, rfl, ?_⟩
    unfold step enaPciTrackEdev
    dsimp only
    by_cases free : none ∈ s.slots
    · rw [if_pos free]
      exact (set_perm (some ⟨s.made, pdev⟩) free).append_right _
    · rw [if_neg free]
      exact (List.perm_middle.append_left _).trans List.perm_middle
  | remove pdev =>
    refine .inr ?_
    unfold step enaPciRemoveDev
    dsimp only
    split
    · exact ⟨rfl, .refl _⟩
    · rename_i e found
      obtain ⟨slot, member, held⟩ := List.mem_flatMap.mp (List.mem_of_find?_eq_some found)
      cases Option.mem_toList.mp held
      exact ⟨rfl, List.perm_middle.trans ((set_perm none member).append_right _)⟩

/-- Whatever is added and removed, in whatever order, each structure that was made is in
one place: in the table, torn down once, or without a slot. -/
theorem every_device_in_one_place (ops : List Op) :
    ((all (ops.foldl step boot)).map Edev.id).Perm (List.range (ops.foldl step boot).made) := by
  refine List.foldlRecOn (motive := fun s => ((all s).map Edev.id).Perm (List.range s.made))
    ops step (.refl _) fun s perm op _ => ?_
  rcases step_all s op with ⟨pdev, made, more⟩ | ⟨made, same⟩
  · rw [made, List.range_succ]
    exact (more.map _).trans ((perm.cons _).trans (List.perm_append_singleton ..).symm)
  · rw [made]
    exact (same.map _).trans perm

end EnaDriver.Platform.Devices
