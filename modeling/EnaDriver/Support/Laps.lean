import Mathlib.Algebra.Group.Nat.Defs
import Mathlib.Data.Nat.Basic
import Mathlib.Logic.Function.Iterate

/-!
# Lap counters of circular queues

The position of one side of a circular queue is a free-running 16-bit counter
together with a phase bit.  The counter selects a slot by masking, and the
phase bit flips whenever the counter enters slot zero.  Both are functions of
the number of steps taken, for every power-of-two depth and across every wrap
of the counter.
-/

namespace EnaDriver.Support.Laps

/-- A queue depth: a power of two between 4 and 32768. -/
structure Depth where
  val : Nat
  isPow : ∃ k, 2 ≤ k ∧ k ≤ 15 ∧ val = 2 ^ k
  deriving DecidableEq

namespace Depth

variable (d : Depth)

theorem two_mul_dvd : 2 * d.val ∣ 65536 := by
  obtain ⟨k, _, upper, eq⟩ := d.isPow
  have split : (65536 : Nat) = 2 ^ (k + 1) * 2 ^ (15 - k) := by
    rw [← Nat.pow_add, show k + 1 + (15 - k) = 16 by omega]
  rw [split, eq, Nat.pow_succ, Nat.mul_comm 2]
  exact Nat.dvd_mul_right _ _

theorem dvd : d.val ∣ 65536 :=
  Nat.dvd_trans (Nat.dvd_mul_left _ _) d.two_mul_dvd

theorem four_le : 4 ≤ d.val := by
  obtain ⟨k, lower, _, eq⟩ := d.isPow
  rw [eq]
  exact Nat.pow_le_pow_right (by decide : 0 < 2) lower

theorem le : d.val ≤ 32768 := by
  obtain ⟨k, _, upper, eq⟩ := d.isPow
  rw [eq]
  exact Nat.pow_le_pow_right (by decide : 0 < 2) upper

theorem pos : 0 < d.val := Nat.lt_of_lt_of_le (by decide) d.four_le

theorem eq_of_val {first second : Depth} (same : first.val = second.val) : first = second := by
  cases first
  cases second
  cases same
  rfl

def four : Depth := ⟨4, 2, by decide⟩

def slot (d : Depth) (counter : Nat) : Nat := counter &&& (d.val - 1)

theorem slot_eq_mod (counter : Nat) : d.slot counter = counter % d.val := by
  obtain ⟨k, _, _, eq⟩ := d.isPow
  rw [slot, eq, Nat.and_two_pow_sub_one_eq_mod]

theorem slot_lt (counter : Nat) : d.slot counter < d.val := by
  rw [slot_eq_mod]
  exact Nat.mod_lt _ d.pos

theorem slot_wrap (counter : Nat) : d.slot (counter % 65536) = counter % d.val := by
  rw [slot_eq_mod, Nat.mod_mod_of_dvd _ d.dvd]

def accepts (raw : Nat) : Bool := decide (4 ≤ raw) && raw &&& (raw - 1) == 0

theorem isPow_of_accepts {raw : Nat} (bound : raw < 65536) (ok : accepts raw = true) :
    ∃ k, 2 ≤ k ∧ k ≤ 15 ∧ raw = 2 ^ k := by
  simp only [accepts, Bool.and_eq_true, decide_eq_true_eq, beq_iff_eq] at ok
  obtain ⟨k, eq⟩ := (Nat.and_sub_one_eq_zero_iff_isPowerOfTwo (by omega : raw ≠ 0)).mp ok.2
  refine ⟨k, ?_, ?_, eq⟩
  · by_contra small
    have : 2 ^ k ≤ 2 ^ 1 := Nat.pow_le_pow_right (by decide) (by omega)
    omega
  · by_contra large
    have : 2 ^ 16 ≤ 2 ^ k := Nat.pow_le_pow_right (by decide) (by omega)
    omega

theorem accepts_val : accepts d.val = true := by
  obtain ⟨k, _, _, eq⟩ := d.isPow
  have mask := (Nat.and_sub_one_eq_zero_iff_isPowerOfTwo (Nat.ne_of_gt d.pos)).mpr ⟨k, eq⟩
  simp only [accepts, Bool.and_eq_true, decide_eq_true_eq, beq_iff_eq]
  exact ⟨d.four_le, mask⟩

def ofRaw? (raw : UInt16) : Option Depth :=
  if ok : accepts raw.toNat = true then
    some ⟨raw.toNat, isPow_of_accepts raw.toNat_lt ok⟩
  else
    none

theorem ofRaw?_val {raw : UInt16} {d : Depth} (found : ofRaw? raw = some d) :
    d.val = raw.toNat := by
  unfold ofRaw? at found
  split at found
  · cases found
    rfl
  · cases found

theorem ofRaw?_ofNat : ofRaw? (UInt16.ofNat d.val) = some d := by
  have small : d.val < 2 ^ 16 := Nat.lt_of_le_of_lt d.le (by decide)
  have same : (UInt16.ofNat d.val).toNat = d.val := by
    rw [UInt16.toNat_ofNat', Nat.mod_eq_of_lt small]
  unfold ofRaw?
  rw [dif_pos (same.symm ▸ d.accepts_val)]
  exact congrArg some (eq_of_val same)

end Depth

/-! ## Positions -/

/-- A queue position: the free-running counter and its phase bit. -/
structure Cursor where
  index : Nat
  phase : Bool
  deriving DecidableEq, Repr

def lapPhase (d : Depth) (count : Nat) : Bool := count / d.val % 2 == 0

namespace Cursor

def start : Cursor := ⟨0, true⟩

/-- One step: increment the 16-bit counter and flip the phase on entering slot zero. -/
def advance (d : Depth) (cursor : Cursor) : Cursor :=
  let next := (cursor.index + 1) % 65536
  ⟨next, if d.slot next = 0 then !cursor.phase else cursor.phase⟩

def after (d : Depth) (count : Nat) : Cursor := ⟨count % 65536, lapPhase d count⟩

@[simp] theorem after_zero (d : Depth) : after d 0 = start := by
  simp [after, start, lapPhase]

theorem slot_after (d : Depth) (count : Nat) : d.slot (after d count).index = count % d.val :=
  d.slot_wrap count

theorem lapPhase_succ (d : Depth) (count : Nat) :
    lapPhase d (count + 1) =
      if (count + 1) % d.val = 0 then !lapPhase d count else lapPhase d count := by
  unfold lapPhase
  rw [Nat.succ_div]
  by_cases wraps : (count + 1) % d.val = 0
  · rw [if_pos (Nat.dvd_of_mod_eq_zero wraps), if_pos wraps]
    rcases Nat.mod_two_eq_zero_or_one (count / d.val) with even | odd
    · rw [even, show (count / d.val + 1) % 2 = 1 by omega]
      rfl
    · rw [odd, show (count / d.val + 1) % 2 = 0 by omega]
      rfl
  · rw [if_neg (fun divides => wraps (Nat.mod_eq_zero_of_dvd divides)), if_neg wraps, Nat.add_zero]

/-- Stepping commutes with counting, across the wrap of the 16-bit counter. -/
theorem advance_after (d : Depth) (count : Nat) :
    (after d count).advance d = after d (count + 1) := by
  have next : (count % 65536 + 1) % 65536 = (count + 1) % 65536 := by omega
  simp only [advance, after, next, d.slot_wrap, lapPhase_succ]

/-- The position after `count` steps of a queue that may have started in the
other phase. -/
def lapped (d : Depth) (flipped : Bool) (count : Nat) : Cursor :=
  ⟨count % 65536, flipped ^^ lapPhase d count⟩

theorem advance_lapped (d : Depth) (flipped : Bool) (count : Nat) :
    (lapped d flipped count).advance d = lapped d flipped (count + 1) := by
  have next : (count % 65536 + 1) % 65536 = (count + 1) % 65536 := by omega
  simp only [advance, lapped, next, d.slot_wrap, lapPhase_succ]
  split
  · rw [Bool.xor_not]
  · rfl

/-- Every 16-bit position is one of them. -/
theorem exists_lapped (d : Depth) {cursor : Cursor} (bound : cursor.index < 65536) :
    ∃ flipped, cursor = lapped d flipped cursor.index := by
  refine ⟨cursor.phase ^^ lapPhase d cursor.index, ?_⟩
  rw [lapped, Nat.mod_eq_of_lt bound, Bool.xor_assoc, Bool.xor_self, Bool.xor_false]

theorem after_fresh_iff (d : Depth) (count : Nat) :
    (d.slot (after d count).index = 0 ∧ (after d count).phase = true) ↔ 2 * d.val ∣ count := by
  rw [slot_after, after, lapPhase, beq_iff_eq]
  constructor
  · rintro ⟨slotZero, even⟩
    refine ⟨count / d.val / 2, ?_⟩
    have whole := Nat.div_add_mod count d.val
    have half := Nat.div_add_mod (count / d.val) 2
    rw [slotZero, Nat.add_zero] at whole
    rw [even, Nat.add_zero] at half
    calc count = d.val * (count / d.val) := whole.symm
      _ = d.val * (2 * (count / d.val / 2)) := by rw [half]
      _ = 2 * d.val * (count / d.val / 2) := by rw [Nat.mul_comm 2 d.val, Nat.mul_assoc]
  · rintro ⟨pairs, rfl⟩
    have shape : 2 * d.val * pairs = d.val * (2 * pairs) := by
      rw [Nat.mul_comm 2 d.val, Nat.mul_assoc]
    rw [shape, Nat.mul_mod_right, Nat.mul_div_cancel_left _ d.pos]
    exact ⟨rfl, Nat.mul_mod_right 2 pairs⟩

end Cursor

/-! ## Fresh and stale entries -/

/-- An entry written one lap earlier carries the other phase. -/
theorem lapPhase_add_depth (d : Depth) (count : Nat) :
    lapPhase d (count + d.val) = !lapPhase d count := by
  unfold lapPhase
  rw [Nat.add_div_right _ d.pos]
  rcases Nat.mod_two_eq_zero_or_one (count / d.val) with even | odd
  · rw [even, show (count / d.val).succ % 2 = 1 by omega]
    rfl
  · rw [odd, show (count / d.val).succ % 2 = 0 by omega]
    rfl

theorem lapPhase_wrap (d : Depth) (count : Nat) : lapPhase d (count % 65536) = lapPhase d count := by
  obtain ⟨pairs, whole⟩ := d.two_mul_dvd
  have split : count = count % 65536 + d.val * (2 * (pairs * (count / 65536))) := by
    calc count = count % 65536 + 65536 * (count / 65536) := (Nat.mod_add_div count 65536).symm
      _ = count % 65536 + 2 * d.val * pairs * (count / 65536) := by rw [← whole]
      _ = count % 65536 + d.val * (2 * (pairs * (count / 65536))) := by
        simp only [Nat.mul_comm, Nat.mul_left_comm, Nat.mul_assoc]
  have laps : count / d.val % 2 = count % 65536 / d.val % 2 := by
    calc count / d.val % 2
        = (count % 65536 + d.val * (2 * (pairs * (count / 65536)))) / d.val % 2 := by rw [← split]
      _ = (count % 65536 / d.val + 2 * (pairs * (count / 65536))) % 2 := by
        rw [Nat.add_mul_div_left _ _ d.pos]
      _ = count % 65536 / d.val % 2 := Nat.add_mul_mod_self_left _ _ _
  unfold lapPhase
  rw [laps]

theorem lapPhase_of_lt (d : Depth) {count : Nat} (bound : count < d.val) :
    lapPhase d count = true := by
  simp [lapPhase, Nat.div_eq_of_lt bound]

/-- The phase bit of a 16-bit position is a function of its counter. -/
def Cursor.InPhase (cursor : Cursor) (d : Depth) (flipped : Bool) : Prop :=
  cursor.index < 65536 ∧ cursor.phase = (flipped ^^ lapPhase d cursor.index)

namespace Cursor

variable {d : Depth} {flipped : Bool}

theorem inPhase_lapped (d : Depth) (flipped : Bool) (count : Nat) :
    (lapped d flipped count).InPhase d flipped := by
  refine ⟨Nat.mod_lt _ (by decide), ?_⟩
  change (flipped ^^ lapPhase d count) = (flipped ^^ lapPhase d (count % 65536))
  rw [lapPhase_wrap]

theorem inPhase_after (d : Depth) (count : Nat) : (after d count).InPhase d false := by
  have same : after d count = lapped d false count := by
    rw [after, lapped, Bool.false_xor]
  rw [same]
  exact inPhase_lapped d false count

theorem InPhase.advance {cursor : Cursor} (here : cursor.InPhase d flipped) :
    (cursor.advance d).InPhase d flipped := by
  have same : cursor = lapped d flipped cursor.index := by
    rw [lapped, Nat.mod_eq_of_lt here.1, ← here.2]
  rw [same, advance_lapped]
  exact inPhase_lapped d flipped _

end Cursor

end EnaDriver.Support.Laps
