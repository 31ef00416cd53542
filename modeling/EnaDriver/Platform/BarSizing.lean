import Mathlib.Data.BitVec

/-!
# The size of a memory region

The probe measures a base address register by writing all ones to it and reading
back which bits the device lets it change.  The mask that is read is 32 bits wide
and is negated as a 64-bit value, so the size that comes out has its high half set.
A region of four GiB or more has no writable bit in the low register and comes out
as absent.  Only the absence of a region is measured correctly.
-/

namespace EnaDriver.Platform

/-! ## Configuration registers -/

/-- The configuration space of a function: 64 registers, and for each the bits that
a write can change. -/
structure ConfigSpace where
  value : Fin 64 → BitVec 32
  writable : Fin 64 → BitVec 32

/-- The register that a configuration address selects: the two low bits of the
address and all above the eighth are dropped. -/
def dword (reg : Nat) : Fin 64 := ⟨reg / 4 % 64, Nat.mod_lt _ (by decide)⟩

theorem dword_next (reg : Nat) : dword (reg + 4) ≠ dword reg := by
  intro same
  have values : (reg + 4) / 4 % 64 = reg / 4 % 64 := congrArg Fin.val same
  omega

/-- Write a register: the bits that are not writable stay. -/
def ConfigSpace.written (space : ConfigSpace) (i : Fin 64) (val : BitVec 32) : ConfigSpace :=
  let kept := space.value i &&& ~~~space.writable i
  { space with value := Function.update space.value i (kept ||| val &&& space.writable i) }

abbrev Config := StateM ConfigSpace

def pciRead32 (reg : Nat) : Config (BitVec 32) := do
  return (← get).value (dword reg)

def pciWrite32 (reg : Nat) (val : BitVec 32) : Config Unit :=
  modify fun space => space.written (dword reg) val

/-- Probe the size of a region by writing all ones and reading back the decode
mask. -/
def pciReadBarSize (reg : Nat) : Config (BitVec 64) := do
  let barLoOrig ← pciRead32 reg
  let bar64 := barLoOrig &&& 0x06 == 0x04
  let barHiOrig ← if bar64 then pciRead32 (reg + 4) else pure 0
  pciWrite32 reg 0xFFFFFFFF
  if bar64 then pciWrite32 (reg + 4) 0xFFFFFFFF
  let maskLo ← pciRead32 reg
  let mask ←
    if bar64 then do
      let maskHi ← pciRead32 (reg + 4)
      if maskLo = 0xFFFFFFFF then
        pure (maskHi.setWidth 64 <<< 32 ||| maskLo.setWidth 64)
      else
        -- the mask is widened after the low nibble is cleared
        pure ((maskLo &&& ~~~0x0F).setWidth 64)
    else
      pure ((maskLo &&& ~~~0x0F).setWidth 64)
  pciWrite32 reg barLoOrig
  if bar64 then pciWrite32 (reg + 4) barHiOrig
  if mask = 0 then
    return 0
  return ~~~mask + 1

/-! ## Regions by the sizing rules -/

inductive Region where
  | unimplemented
  | memory32 (prefetch : Bool) (k : Nat) (low : 4 ≤ k) (high : k ≤ 31)
  | memory64 (prefetch : Bool) (k : Nat) (low : 4 ≤ k) (high : k ≤ 63)

def Region.size : Region → Nat
  | .unimplemented => 0
  | .memory32 _ k _ _ => 2 ^ k
  | .memory64 _ k _ _ => 2 ^ k

def typeBits (wide prefetch : Bool) : BitVec 32 :=
  (if wide then 0x04 else 0) ||| if prefetch then 0x08 else 0

/-- The registers of a region: the address bits below the size are zero and cannot
be written, the type bits are fixed, and the base above them is arbitrary. -/
def Region.Describes (region : Region) (reg : Nat) (space : ConfigSpace) : Prop :=
  let lo := dword reg
  let hi := dword (reg + 4)
  match region with
  | .unimplemented => space.value lo = 0 ∧ space.writable lo = 0
  | .memory32 prefetch k _ _ =>
    space.writable lo = BitVec.allOnes 32 <<< k ∧
      space.value lo &&& ~~~space.writable lo = typeBits false prefetch
  | .memory64 prefetch k _ _ =>
    space.writable lo = (BitVec.allOnes 64 <<< k).setWidth 32 ∧
      space.writable hi = (BitVec.allOnes 64 <<< k >>> 32).setWidth 32 ∧
      space.value lo &&& ~~~space.writable lo = typeBits true prefetch ∧
        space.value hi &&& ~~~space.writable hi = 0

/-! ## What the probe reads and restores -/

/-- The size that the probe makes of the mask in the low register. -/
def measured (maskLo : BitVec 32) : BitVec 64 :=
  let mask := (maskLo &&& ~~~0x0F).setWidth 64
  if mask = 0 then 0 else ~~~mask + 1

section Registers

variable {space : ConfigSpace} {i j : Fin 64}

theorem written_self (val : BitVec 32) : (space.written i val).value i =
    space.value i &&& ~~~space.writable i ||| val &&& space.writable i :=
  Function.update_self i _ _

theorem written_other (differs : j ≠ i) (val : BitVec 32) :
    (space.written i val).value j = space.value j :=
  Function.update_of_ne differs _ _

theorem written_ones : (space.written i 0xFFFFFFFF).value i =
    space.value i &&& ~~~space.writable i ||| space.writable i := by
  rw [written_self]
  congr 1
  exact BitVec.allOnes_and

theorem written_comm (differs : j ≠ i) (first second : BitVec 32) :
    (space.written i first).written j second = (space.written j second).written i first := by
  unfold ConfigSpace.written
  dsimp only
  rw [Function.update_of_ne differs, Function.update_of_ne differs.symm,
    Function.update_comm differs.symm]

theorem written_restored (val : BitVec 32) :
    (space.written i val).written i (space.value i) = space := by
  have bits : (space.value i &&& ~~~space.writable i ||| val &&& space.writable i) &&&
      ~~~space.writable i ||| space.value i &&& space.writable i = space.value i := by
    ext n bound
    simp only [BitVec.getElem_or, BitVec.getElem_and, BitVec.getElem_not]
    cases (space.value i)[n] <;> cases (space.writable i)[n] <;> simp
  unfold ConfigSpace.written
  dsimp only
  rw [Function.update_self, Function.update_idem, bits, Function.update_eq_self]

end Registers

section Probe

variable {reg : Nat} {space : ConfigSpace}

theorem pciRead32_bind {α : Type} (next : BitVec 32 → Config α) :
    (pciRead32 reg >>= next) space = next (space.value (dword reg)) space := rfl

theorem pciWrite32_bind {α : Type} (val : BitVec 32) (next : Unit → Config α) :
    (pciWrite32 reg val >>= next) space = next () (space.written (dword reg) val) := rfl

def shown (reg : Nat) (space : ConfigSpace) : BitVec 32 :=
  space.value (dword reg) &&& ~~~space.writable (dword reg) ||| space.writable (dword reg)

theorem pciReadBarSize_narrow (narrow : (space.value (dword reg) &&& 0x06 == 0x04) = false) :
    pciReadBarSize reg space = (measured (shown reg space), space) := by
  have ran : pciReadBarSize reg space =
      (measured ((space.written (dword reg) 0xFFFFFFFF).value (dword reg)),
        (space.written (dword reg) 0xFFFFFFFF).written (dword reg) (space.value (dword reg))) := by
    unfold pciReadBarSize measured
    rw [pciRead32_bind]
    dsimp only
    rw [narrow]
    simp only [Bool.false_eq_true, if_false, pure_bind, pciWrite32_bind, pciRead32_bind]
    split <;> rfl
  rw [ran, written_ones, written_restored]
  rfl

/-- The registers of a 64-bit region are measured and restored one by one.  The high
register matters only when the low one shows nothing but ones. -/
theorem pciReadBarSize_wide (wide : (space.value (dword reg) &&& 0x06 == 0x04) = true)
    (partly : shown reg space ≠ 0xFFFFFFFF) :
    pciReadBarSize reg space = (measured (shown reg space), space) := by
  have apart := dword_next reg
  have low : ((space.written (dword reg) 0xFFFFFFFF).written (dword (reg + 4)) 0xFFFFFFFF).value
      (dword reg) = shown reg space := by
    rw [written_other apart.symm, written_ones]
    rfl
  have ran : pciReadBarSize reg space = (measured (shown reg space),
      (((space.written (dword reg) 0xFFFFFFFF).written (dword (reg + 4)) 0xFFFFFFFF).written (dword reg)
        (space.value (dword reg))).written (dword (reg + 4)) (space.value (dword (reg + 4)))) := by
    unfold pciReadBarSize measured
    rw [pciRead32_bind]
    dsimp only
    rw [wide]
    simp only [if_true, pciWrite32_bind, pciRead32_bind, low, if_neg partly, pure_bind]
    split <;> rfl
  have inner := @written_restored (space.written (dword (reg + 4)) 0xFFFFFFFF) (dword reg) 0xFFFFFFFF
  rw [written_other apart.symm] at inner
  rw [ran, @written_comm space (dword reg) (dword (reg + 4)) apart, inner, written_restored]

end Probe

/-! ## The measured size -/

/-- A mask whose lowest writable bit is in the low register comes out with the high
half set. -/
theorem measured_low : ∀ k : Fin 32, 4 ≤ k.val → ∀ wide prefetch,
    (measured (typeBits wide prefetch ||| BitVec.allOnes 32 <<< k.val)).toNat =
      2 ^ 64 - 2 ^ 32 + 2 ^ k.val := by
  decide +kernel

theorem measured_none (prefetch : Bool) : measured (typeBits true prefetch ||| 0) = 0 := by
  cases prefetch <;> rfl

theorem low_writable : ∀ k : Fin 64, (BitVec.allOnes 64 <<< k.val).setWidth 32 =
    if k.val < 32 then BitVec.allOnes 32 <<< k.val else 0 := by
  decide +kernel

/-- A low register with type bits and an address mask does not show only ones. -/
theorem shown_not_ones : ∀ k : Fin 64, 4 ≤ k.val → ∀ prefetch,
    typeBits true prefetch ||| (BitVec.allOnes 64 <<< k.val).setWidth 32 ≠ 0xFFFFFFFF := by
  decide +kernel

def Region.probed : Region → Nat
  | .unimplemented => 0
  | .memory32 _ k _ _ => 2 ^ 64 - 2 ^ 32 + 2 ^ k
  | .memory64 _ k _ _ => if k < 32 then 2 ^ 64 - 2 ^ 32 + 2 ^ k else 0

/-- The type bits are where the probe looks for them, whatever the base is. -/
theorem typeBits_read {value writable : BitVec 32} {wide prefetch : Bool}
    (aligned : writable &&& 0x0F = 0) (fixed : value &&& ~~~writable = typeBits wide prefetch) :
    (value &&& 0x06 == 0x04) = wide := by
  have nibble : value &&& 0x0F = typeBits wide prefetch &&& 0x0F := by
    rw [← fixed]
    ext n bound
    have clear : (writable &&& 0x0F)[n] = false := by
      rw [aligned]
      exact BitVec.getElem_zero bound
    simp only [BitVec.getElem_and, BitVec.getElem_not] at clear ⊢
    cases bit : writable[n] with
    | false => simp
    | true =>
      rw [bit, Bool.true_and] at clear
      rw [clear, Bool.and_false, Bool.and_false]
  have part : (0x06 : BitVec 32) = 0x0F &&& 0x06 := by decide
  rw [part, ← BitVec.and_assoc, nibble]
  cases wide <;> cases prefetch <;> rfl

theorem mask_aligned : ∀ k : Fin 64, 4 ≤ k.val →
    (BitVec.allOnes 64 <<< k.val).setWidth 32 &&& (0x0F : BitVec 32) = 0 := by
  decide +kernel

theorem pciReadBarSize_region {region : Region} {reg : Nat} {space : ConfigSpace}
    (describes : region.Describes reg space) :
    (pciReadBarSize reg space).1.toNat = region.probed ∧ (pciReadBarSize reg space).2 = space := by
  cases region with
  | unimplemented =>
    obtain ⟨value, writable⟩ := describes
    have ran := @pciReadBarSize_narrow reg space (by rw [value]; rfl)
    rw [ran]
    unfold shown
    rw [value, writable]
    exact ⟨rfl, rfl⟩
  | memory32 prefetch k low high =>
    obtain ⟨writable, fixed⟩ := describes
    have same := low_writable ⟨k, by omega⟩
    rw [if_pos (by dsimp only; omega)] at same
    have aligned : space.writable (dword reg) &&& 0x0F = 0 := by
      rw [writable, ← same]
      exact mask_aligned ⟨k, by omega⟩ low
    rw [pciReadBarSize_narrow (typeBits_read aligned fixed)]
    unfold shown
    rw [fixed, writable]
    exact ⟨measured_low ⟨k, by omega⟩ low false prefetch, rfl⟩
  | memory64 prefetch k low high =>
    obtain ⟨lowBits, _, fixed, _⟩ := describes
    have aligned : space.writable (dword reg) &&& 0x0F = 0 := by
      rw [lowBits]
      exact mask_aligned ⟨k, by omega⟩ low
    have partly : shown reg space ≠ 0xFFFFFFFF := by
      unfold shown
      rw [fixed, lowBits]
      exact shown_not_ones ⟨k, by omega⟩ low prefetch
    rw [pciReadBarSize_wide (typeBits_read aligned fixed) partly]
    refine ⟨?_, rfl⟩
    unfold shown Region.probed
    rw [fixed, lowBits, low_writable ⟨k, by omega⟩]
    dsimp only
    split
    · exact measured_low ⟨k, by omega⟩ low true prefetch
    · rw [measured_none]
      rfl

/-- The probe measures exactly the absent regions correctly.  It always restores the
registers. -/
theorem pciReadBarSize_exact_iff (region : Region) (reg : Nat) (space : ConfigSpace)
    (describes : region.Describes reg space) :
    ((pciReadBarSize reg space).1.toNat = region.size ∧ (pciReadBarSize reg space).2 = space) ↔
      region = .unimplemented := by
  obtain ⟨size, restored⟩ := pciReadBarSize_region describes
  rw [size]
  constructor
  · rintro ⟨exact, _⟩
    cases region with
    | unimplemented => rfl
    | memory32 prefetch k low high =>
      unfold Region.probed Region.size at exact
      dsimp only at exact
      omega
    | memory64 prefetch k low high =>
      unfold Region.probed Region.size at exact
      dsimp only at exact
      split at exact
      · omega
      · exact absurd exact.symm (Nat.ne_of_gt (Nat.two_pow_pos k))
  · rintro rfl
    exact ⟨rfl, restored⟩

def ConfigSpace.empty : ConfigSpace := ⟨fun _ => 0, fun _ => 0⟩

theorem pciReadBarSize_exact_empty :
    (pciReadBarSize 0x18 .empty).1.toNat = 0 ∧ (pciReadBarSize 0x18 .empty).2 = .empty :=
  (pciReadBarSize_exact_iff .unimplemented 0x18 .empty ⟨rfl, rfl⟩).mpr rfl

/-- A function whose registers at 0x18 describe a prefetchable 64-bit region of 1 MiB,
programmed to 0xFE000000. -/
def ConfigSpace.oneMiB : ConfigSpace where
  value := fun i => if i = dword 0x18 then 0xFE00000C else 0
  writable := fun i => if i = dword 0x18 then 0xFFF00000 else if i = dword 0x1C then 0xFFFFFFFF else 0

/-- A region of 1 MiB is measured as 2^64 - 2^32 + 2^20 bytes. -/
theorem pciReadBarSize_oneMiB :
    (Region.memory64 true 20 (by decide) (by decide)).Describes 0x18 .oneMiB ∧
      (pciReadBarSize 0x18 .oneMiB).1.toNat = 2 ^ 64 - 2 ^ 32 + 2 ^ 20 ∧
      (Region.memory64 true 20 (by decide) (by decide)).size = 2 ^ 20 := by
  refine ⟨⟨?_, ?_, ?_, ?_⟩, ?_, ?_⟩ <;> decide +kernel

end EnaDriver.Platform
