import EnaDriver.Platform.BarSizing
import EnaDriver.Support.Chains

/-!
# Walks of the capability list

Two functions look for the MSI-X capability of a device.  They follow the pointers
that the device holds without a bound, and drop the reserved low bits of the first
pointer only.  A cyclic list is followed forever, and a last pointer whose reserved
bits are set is followed into the header of the configuration space.
-/

namespace EnaDriver.Platform

open Support.Chains

def ENODEV : Int := 19

def capIdMsix : BitVec 32 := 0x11

def platPciCfgRead (space : ConfigSpace) (reg : Nat) : BitVec 32 := space.value (dword reg)

def capId (dw : BitVec 32) : BitVec 32 := dw &&& 0xFF

def capNext (dw : BitVec 32) : BitVec 8 := (dw >>> 8).setWidth 8

def msgCtrl (dw : BitVec 32) : BitVec 32 := dw >>> 16 &&& 0xFFFF

/-- The pointer at which both walks start. -/
def firstCap (space : ConfigSpace) : BitVec 8 := (platPciCfgRead space 0x34 &&& 0xFC).setWidth 8

/-- The loop of the two walks, for at most as many iterations as given: what `found`
makes of the first MSI-X header, or `missing` when a pointer is zero. -/
def capWalk {α : Type} (space : ConfigSpace) (found : BitVec 8 → BitVec 32 → α) (missing : α) :
    Nat → BitVec 8 → Option α
  | 0, _ => none
  | fuel + 1, cap =>
    if cap = 0 then
      some missing
    else
      let dw := platPciCfgRead space cap.toNat
      if capId dw = capIdMsix then
        some (found cap dw)
      else
        capWalk space found missing fuel (capNext dw)

/-- The number of vectors that the device exposes, zero without the capability. -/
def enaPlatMsixProbe (space : ConfigSpace) (fuel : Nat) : Option Nat :=
  capWalk space (fun _ dw => (msgCtrl dw &&& 0x7FF).toNat + 1) 0 fuel (firstCap space)

structure MsixLoc where
  msgctlOff : Nat
  count : Nat
  table : Nat
  pba : Nat

def msixLocate (space : ConfigSpace) (cap : BitVec 8) (dw : BitVec 32) : Int × MsixLoc :=
  let tableOff := platPciCfgRead space (cap.toNat + 4)
  let pbaOff := platPciCfgRead space (cap.toNat + 8)
  let barReg := 0x10 + 4 * (tableOff &&& 0x7).toNat
  let barLo := platPciCfgRead space barReg &&& ~~~0x0F
  let barBase :=
    if platPciCfgRead space barReg &&& 0x06 = 0x04 then
      barLo.toNat + (platPciCfgRead space (barReg + 4)).toNat * 2 ^ 32
    else
      barLo.toNat
  let loc : MsixLoc := ⟨cap.toNat + 2, (msgCtrl dw &&& 0x7FF).toNat + 1, 0, 0⟩
  if barBase = 0 then
    (-ENODEV, loc)
  else
    (0, { loc with
      table := barBase + (tableOff &&& ~~~0x7).toNat
      pba := barBase + (pbaOff &&& ~~~0x7).toNat })

/-- Look for the capability; the location is cleared first. -/
def msixFind (space : ConfigSpace) (fuel : Nat) : Option (Int × MsixLoc) :=
  capWalk space (msixLocate space) (-ENODEV, ⟨0, 0, 0, 0⟩) fuel (firstCap space)

/-! ## Lists of standard form -/

def IsMsix (space : ConfigSpace) (cap : BitVec 8) : Prop :=
  capId (platPciCfgRead space cap.toNat) = capIdMsix

instance (space : ConfigSpace) : DecidablePred (IsMsix space) :=
  fun cap => inferInstanceAs (Decidable (capId (platPciCfgRead space cap.toNat) = capIdMsix))

/-- The capabilities from a pointer on.  The reserved low bits of every pointer are
ignored, and a pointer that is otherwise zero ends the list. -/
inductive Lists (space : ConfigSpace) : BitVec 8 → List (BitVec 8) → Prop where
  | nil {ptr : BitVec 8} (ends : ptr &&& 0xFC = 0) : Lists space ptr []
  | cons {ptr : BitVec 8} {rest : List (BitVec 8)} (more : ptr &&& 0xFC ≠ 0)
      (tail : Lists space (capNext (platPciCfgRead space (ptr &&& 0xFC).toNat)) rest) :
      Lists space ptr ((ptr &&& 0xFC) :: rest)

/-- Both walks come to an end, and on a list of standard form they find the
capability if and only if it is there and agree on the number of vectors. -/
structure WalksRight (space : ConfigSpace) : Prop where
  probeEnds : ∃ fuel vectors, enaPlatMsixProbe space fuel = some vectors
  findEnds : ∃ fuel out, msixFind space fuel = some out
  found : ∀ caps, Lists space (firstCap space) caps → ∀ fuel vectors out,
    enaPlatMsixProbe space fuel = some vectors → msixFind space fuel = some out →
      (vectors ≠ 0 ↔ ∃ cap ∈ caps, IsMsix space cap) ∧
      (out.2.count ≠ 0 ↔ ∃ cap ∈ caps, IsMsix space cap) ∧ vectors = out.2.count

/-! ## The chain of pointers -/

def follow (space : ConfigSpace) (cap : BitVec 8) : BitVec 8 :=
  capNext (platPciCfgRead space cap.toNat)

def capPointer (space : ConfigSpace) (n : Nat) : BitVec 8 := (follow space)^[n] (firstCap space)

/-- Among the first 65 pointers there is a zero with no MSI-X capability before it, or
an MSI-X capability with no pointer below four up to it. -/
def Followable (space : ConfigSpace) : Prop :=
  ∃ n ≤ 64, (capPointer space n = 0 ∧ ∀ i < n, ¬IsMsix space (capPointer space i)) ∨
    (IsMsix space (capPointer space n) ∧ ∀ i ≤ n, 4 ≤ (capPointer space i).toNat)

def CapStop (space : ConfigSpace) (cap : BitVec 8) : Prop := cap = 0 ∨ IsMsix space cap

instance (space : ConfigSpace) : DecidablePred (CapStop space) :=
  fun cap => inferInstanceAs (Decidable (cap = 0 ∨ IsMsix space cap))

section Walk

variable {α : Type} {space : ConfigSpace} {found : BitVec 8 → BitVec 32 → α} {missing : α}

def atStop (space : ConfigSpace) (found : BitVec 8 → BitVec 32 → α) (missing : α)
    (cap : BitVec 8) : α :=
  if cap = 0 then missing else found cap (platPciCfgRead space cap.toNat)

theorem capWalk_eq_search (fuel : Nat) (cap : BitVec 8) : capWalk space found missing fuel cap =
    (search (follow space) (CapStop space) fuel cap).map (atStop space found missing) := by
  induction fuel generalizing cap with
  | zero => rfl
  | succ fuel ih =>
    unfold capWalk search atStop
    by_cases zero : cap = 0
    · have stop : CapStop space cap := .inl zero
      rw [if_pos zero, if_pos stop, Option.map_some, if_pos zero]
    rw [if_neg zero]
    dsimp only
    by_cases msix : capId (platPciCfgRead space cap.toNat) = capIdMsix
    · have stop : CapStop space cap := .inr msix
      rw [if_pos msix, if_pos stop, Option.map_some, if_neg zero]
    · have runs : ¬CapStop space cap := not_or.mpr ⟨zero, msix⟩
      rw [if_neg msix, if_neg runs, ih]
      rfl

theorem capWalk_stops {fuel : Nat} {result : α}
    (ended : capWalk space found missing fuel (firstCap space) = some result) :
    ∃ n, StopsAt (follow space) (CapStop space) (firstCap space) n ∧
      result = atStop space found missing (capPointer space n) := by
  rw [capWalk_eq_search] at ended
  obtain ⟨last, searched, rfl⟩ := Option.map_eq_some_iff.mp ended
  obtain ⟨n, stopsAt, rfl⟩ := search_stopsAt searched
  exact ⟨n, stopsAt, rfl⟩

theorem capWalk_returns {n : Nat}
    (stopsAt : StopsAt (follow space) (CapStop space) (firstCap space) n) :
    capWalk space found missing (n + 1) (firstCap space) =
      some (atStop space found missing (capPointer space n)) := by
  rw [capWalk_eq_search, search_returns stopsAt]
  rfl

end Walk

section Pointers

variable {space : ConfigSpace}

/-- The header that a pointer selects does not depend on its reserved bits. -/
theorem dword_masked : ∀ ptr : BitVec 8, dword (ptr &&& 0xFC).toNat = dword ptr.toNat := by
  decide +kernel

theorem masked_zero_iff : ∀ ptr : BitVec 8, ptr &&& 0xFC = 0 ↔ ptr.toNat < 4 := by
  decide +kernel

theorem isMsix_masked (ptr : BitVec 8) : IsMsix space (ptr &&& 0xFC) ↔ IsMsix space ptr := by
  unfold IsMsix platPciCfgRead
  rw [dword_masked]

theorem follow_masked (ptr : BitVec 8) : follow space (ptr &&& 0xFC) = follow space ptr := by
  unfold follow platPciCfgRead
  rw [dword_masked]

/-- A chain that stops does so within 64 steps: there are no more registers. -/
theorem capStops_within {n : Nat} (stops : CapStop space (capPointer space n)) :
    ∃ k ≤ 64, StopsAt (follow space) (CapStop space) (firstCap space) k := by
  have determined : ∀ one other : BitVec 8, dword one.toNat = dword other.toNat →
      follow space one = follow space other := by
    intro one other same
    unfold follow platPciCfgRead
    rw [same]
  obtain ⟨i, bound, again⟩ := stops_within determined stops
  obtain ⟨k, least, stopsAt⟩ := stopsAt_of_stop again
  exact ⟨k, Nat.le_trans least (Nat.le_trans bound (by simp)), stopsAt⟩

/-- A list of standard form is the chain up to the first pointer below four. -/
theorem Lists.chain {ptr : BitVec 8} {caps : List (BitVec 8)} (lists : Lists space ptr caps) :
    (∀ cap ∈ caps, ∃ i < caps.length, cap = (follow space)^[i] ptr &&& 0xFC) ∧
      (∀ i < caps.length, (follow space)^[i] ptr &&& 0xFC ∈ caps ∧ 4 ≤ ((follow space)^[i] ptr).toNat) ∧
      ((follow space)^[caps.length] ptr).toNat < 4 := by
  induction lists with
  | nil ends =>
    refine ⟨(fun cap member => nomatch member), fun i below => absurd below (Nat.not_lt_zero i), ?_⟩
    exact (masked_zero_iff _).mp ends
  | @cons ptr rest more tail ih =>
    have start : capNext (platPciCfgRead space (ptr &&& 0xFC).toNat) = follow space ptr :=
      follow_masked ptr
    rw [start] at ih
    obtain ⟨named, inside, ends⟩ := ih
    refine ⟨fun cap member => ?_, fun i below => ?_, ends⟩
    · rcases List.mem_cons.mp member with rfl | later
      · exact ⟨0, Nat.succ_pos _, rfl⟩
      · obtain ⟨i, below, same⟩ := named cap later
        exact ⟨i + 1, Nat.succ_lt_succ below, same⟩
    · cases i with
      | zero => exact ⟨List.mem_cons_self, Nat.le_of_not_lt (mt (masked_zero_iff ptr).mpr more)⟩
      | succ i =>
        obtain ⟨member, high⟩ := inside i (Nat.lt_of_succ_lt_succ below)
        exact ⟨List.mem_cons_of_mem _ member, high⟩

/-- A chain whose pointers are at least four up to one below four is a list of
standard form. -/
theorem lists_of_chain {ptr : BitVec 8} {n : Nat}
    (high : ∀ i < n, 4 ≤ ((follow space)^[i] ptr).toNat) (low : ((follow space)^[n] ptr).toNat < 4) :
    ∃ caps, Lists space ptr caps ∧ caps.length = n := by
  induction n generalizing ptr with
  | zero => exact ⟨[], .nil ((masked_zero_iff ptr).mpr low), rfl⟩
  | succ n ih =>
    have more : ptr &&& 0xFC ≠ 0 := fun zero =>
      absurd ((masked_zero_iff ptr).mp zero) (Nat.not_lt_of_le (high 0 (Nat.succ_pos n)))
    obtain ⟨rest, tail, length⟩ := @ih (follow space ptr)
      (fun i below => high (i + 1) (Nat.succ_lt_succ below)) low
    rw [← follow_masked] at tail
    exact ⟨_, .cons more tail, congrArg Nat.succ length⟩

end Pointers

/-! ## When the walks are right -/

section Right

variable {space : ConfigSpace}

theorem msixLocate_count (space : ConfigSpace) (cap : BitVec 8) (dw : BitVec 32) :
    (msixLocate space cap dw).2.count = (msgCtrl dw &&& 0x7FF).toNat + 1 := by
  unfold msixLocate
  extract_lets
  split <;> rfl

/-- At the stop of both walks, the capability is found unless the pointer is zero. -/
theorem walks_agree {fuel vectors : Nat} {out : Int × MsixLoc}
    (probed : enaPlatMsixProbe space fuel = some vectors) (found : msixFind space fuel = some out) :
    ∃ n, StopsAt (follow space) (CapStop space) (firstCap space) n ∧ vectors = out.2.count ∧
      (vectors ≠ 0 ↔ capPointer space n ≠ 0) := by
  obtain ⟨n, stopsAt, rfl⟩ := capWalk_stops probed
  obtain ⟨k, again, rfl⟩ := capWalk_stops found
  cases stopsAt.unique again
  refine ⟨n, stopsAt, ?_⟩
  unfold atStop
  split
  · rename_i zero
    exact ⟨rfl, fun differs => absurd rfl differs, fun differs => absurd zero differs⟩
  · rename_i nonzero
    exact ⟨(msixLocate_count space _ _).symm, fun _ => nonzero, fun _ => Nat.succ_ne_zero _⟩

theorem Followable.stopsAt (followable : Followable space) :
    ∃ n, StopsAt (follow space) (CapStop space) (firstCap space) n := by
  obtain ⟨n, _, stops⟩ := followable
  have stop : CapStop space (capPointer space n) := stops.imp And.left And.left
  obtain ⟨k, _, stopsAt⟩ := stopsAt_of_stop stop
  exact ⟨k, stopsAt⟩

/-- On a list of standard form, the chain stops at a pointer other than zero if and
only if the capability is in the list. -/
theorem Followable.found_iff (followable : Followable space) {caps : List (BitVec 8)}
    (lists : Lists space (firstCap space) caps) {k : Nat}
    (stopsAt : StopsAt (follow space) (CapStop space) (firstCap space) k) :
    capPointer space k ≠ 0 ↔ ∃ cap ∈ caps, IsMsix space cap := by
  obtain ⟨named, inside, ends⟩ := lists.chain
  obtain ⟨n, _, ⟨zero, none⟩ | ⟨msix, high⟩⟩ := followable
  · -- the list ends no later than the zero, so it has no MSI-X capability
    have early : caps.length ≤ n := by
      refine Nat.le_of_not_lt fun late => ?_
      have positive := (inside n late).2
      rw [show (follow space)^[n] (firstCap space) = 0 from zero] at positive
      exact absurd positive (by decide)
    have absent : ¬∃ cap ∈ caps, IsMsix space cap := by
      rintro ⟨cap, member, here⟩
      obtain ⟨i, below, rfl⟩ := named cap member
      exact none i (Nat.lt_of_lt_of_le below early) ((isMsix_masked _).mp here)
    have before : k ≤ n := Nat.le_of_not_lt fun later => stopsAt.first n later (Or.inl zero)
    refine iff_of_false (fun nonzero => ?_) absent
    have here : IsMsix space (capPointer space k) := stopsAt.stops.resolve_left nonzero
    rcases Nat.eq_or_lt_of_le before with rfl | less
    · exact nonzero zero
    · exact none k less here
  · -- the list reaches the capability, since no pointer up to it ends the list
    have reached : n < caps.length := by
      refine Nat.lt_of_not_le fun short => ?_
      exact absurd ends (Nat.not_lt_of_le (high caps.length short))
    have before : k ≤ n := Nat.le_of_not_lt fun later => stopsAt.first n later (Or.inr msix)
    refine iff_of_true (fun zero => ?_) ⟨_, (inside n reached).1, (isMsix_masked _).mpr msix⟩
    have positive := high k before
    rw [zero] at positive
    exact absurd positive (by decide)

/-- The condition is needed. -/
theorem WalksRight.followable (right : WalksRight space) : Followable space := by
  obtain ⟨fuel, vectors, probed⟩ := right.probeEnds
  obtain ⟨n, stopsAt, _⟩ := capWalk_stops probed
  obtain ⟨k, bound, again⟩ := capStops_within (n := n) stopsAt.stops
  cases stopsAt.unique again
  refine ⟨n, bound, ?_⟩
  by_cases zero : capPointer space n = 0
  · exact .inl ⟨zero, fun i below msix => stopsAt.first i below (Or.inr msix)⟩
  have msix : IsMsix space (capPointer space n) := stopsAt.stops.resolve_left zero
  refine .inr ⟨msix, fun i upTo => Nat.le_of_not_lt fun low => ?_⟩
  -- the list of standard form ends at the first pointer below four
  have ends : ∃ i, (capPointer space i).toNat < 4 := ⟨i, low⟩
  obtain ⟨caps, lists, length⟩ := lists_of_chain
    (fun j below => Nat.le_of_not_lt (Nat.find_min ends below)) (Nat.find_spec ends)
  have atMost : caps.length ≤ n := by
    rw [length]
    exact Nat.le_trans (Nat.find_le low) upTo
  obtain ⟨vectors, out, probed, found, nonzero⟩ : ∃ vectors out,
      enaPlatMsixProbe space (n + 1) = some vectors ∧ msixFind space (n + 1) = some out ∧
        vectors ≠ 0 := by
    refine ⟨_, _, capWalk_returns stopsAt, capWalk_returns stopsAt, ?_⟩
    unfold atStop
    rw [if_neg zero]
    exact Nat.succ_ne_zero _
  obtain ⟨cap, member, here⟩ := (right.found caps lists _ _ _ probed found).1.mp nonzero
  obtain ⟨j, below, rfl⟩ := lists.chain.1 cap member
  exact stopsAt.first j (Nat.lt_of_lt_of_le below atMost) (Or.inr ((isMsix_masked _).mp here))

end Right

/-- Both walks end and find the capability if and only if the device's pointers are
followable. -/
theorem walksRight_iff (space : ConfigSpace) : WalksRight space ↔ Followable space := by
  constructor
  · exact WalksRight.followable
  intro followable
  obtain ⟨n, stopsAt⟩ := followable.stopsAt
  refine ⟨⟨_, _, capWalk_returns stopsAt⟩, ⟨_, _, capWalk_returns stopsAt⟩, ?_⟩
  intro caps lists fuel vectors out probed found
  obtain ⟨k, stops, agree, nonzero⟩ := walks_agree probed found
  have right := nonzero.trans (followable.found_iff lists stops)
  exact ⟨right, agree ▸ right, agree⟩

def selfPointing : ConfigSpace where
  value := fun i => if i = dword 0x34 then 0x40 else if i = dword 0x40 then 0x4005 else 0
  writable := fun _ => 0

/-- The list points to a capability that is not MSI-X, and its walk never ends. -/
theorem selfPointing_forever : firstCap selfPointing = 0x40 ∧
    ∀ fuel, enaPlatMsixProbe selfPointing fuel = none := by
  have turn : ∀ fuel found missing, @capWalk Nat selfPointing found missing fuel 0x40 = none := by
    intro fuel found missing
    induction fuel with
    | zero => rfl
    | succ fuel ih => exact ih
  exact ⟨rfl, fun fuel => turn fuel _ _⟩

end EnaDriver.Platform
