import Mathlib.Data.List.Perm.Lattice
import Mathlib.Data.List.Range

/-!
# Counting the marked indices below a bound

A loop that counts the marked indices it has passed can name them again by the
indices below its count only if the marked indices come first.
-/

namespace EnaDriver.Support.Gaps

variable {marked : Nat → Bool} {bound : Nat}

def below (marked : Nat → Bool) (bound : Nat) : List Nat := (List.range bound).filter marked

/-- Below a bound, no unmarked index comes before a marked one. -/
def NoGap (marked : Nat → Bool) (bound : Nat) : Prop :=
  ∀ q, q < bound → marked q = true → ∀ p, p < q → marked p = true

theorem mem_below {q : Nat} : q ∈ below marked bound ↔ q < bound ∧ marked q = true := by
  rw [below, List.mem_filter, List.mem_range]

theorem below_nodup : (below marked bound).Nodup := List.nodup_range.filter _

theorem below_length_le : (below marked bound).length ≤ bound := by
  have few := List.length_filter_le marked (List.range bound)
  rwa [List.length_range] at few

theorem below_full (all : ∀ q, q < bound → marked q = true) : below marked bound = List.range bound :=
  List.filter_eq_self.mpr fun q member => all q (List.mem_range.mp member)

theorem below_subset {smaller : Nat} (le : smaller ≤ bound) :
    below marked smaller ⊆ below marked bound := by
  intro q member
  obtain ⟨lt, here⟩ := mem_below.mp member
  exact mem_below.mpr ⟨Nat.lt_of_lt_of_le lt le, here⟩

theorem NoGap.lt_length (noGap : NoGap marked bound) {q : Nat} (lt : q < bound)
    (here : marked q = true) : q < (below marked bound).length := by
  have all : ∀ p, p < q + 1 → marked p = true := by
    intro p earlier
    rcases Nat.lt_succ_iff_lt_or_eq.mp earlier with before | rfl
    · exact noGap q lt here p before
    · exact here
  have inside := below_nodup.length_le_of_subset (@below_subset marked bound (q + 1) lt)
  rwa [below_full all, List.length_range] at inside

/-- The indices below the count name the marked indices again exactly where these
come first. -/
theorem recount_perm_iff :
    (below marked (below marked bound).length).Perm (below marked bound) ↔ NoGap marked bound := by
  constructor
  · intro same q lt here p earlier
    have count : (below marked (below marked bound).length).length =
        (List.range (below marked bound).length).length := by
      rw [List.length_range]
      exact same.length_eq
    have all := List.length_filter_eq_length_iff.mp count
    have low := (mem_below.mp (same.mem_iff.mpr (mem_below.mpr ⟨lt, here⟩))).1
    exact all p (List.mem_range.mpr (Nat.lt_trans earlier low))
  · intro noGap
    rw [List.perm_ext_iff_of_nodup below_nodup below_nodup]
    intro q
    constructor
    · intro member
      exact below_subset below_length_le member
    · intro member
      obtain ⟨lt, here⟩ := mem_below.mp member
      exact mem_below.mpr ⟨noGap.lt_length lt here, here⟩

/-- A split of the indices below a bound cuts them at an index. -/
theorem range_split {before after : List Nat} {q : Nat} (split : List.range bound = before ++ q :: after) :
    before = List.range q ∧ q < bound := by
  rw [List.range_eq_range'] at split
  obtain ⟨k, le, first, rest⟩ := List.range'_eq_append_iff.mp split
  have small : 0 < bound - k := by
    by_contra none
    rw [Nat.eq_zero_of_not_pos none] at rest
    cases rest
  obtain ⟨more, size⟩ := Nat.exists_eq_succ_of_ne_zero (Nat.ne_of_gt small)
  rw [size, List.range'_succ] at rest
  have head := (List.cons.inj rest).1
  constructor
  · rw [first, ← List.range_eq_range']
    congr 1
    omega
  · omega

end EnaDriver.Support.Gaps
