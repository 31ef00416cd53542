import EnaDriver.Lifecycle.ArrayRuns

/-!
# The depth of a configured queue

Two functions round a depth down to a power of two: the negotiation clears low bits
of the device's limits until one is left, and the configuration of a queue shifts a
one to the highest bit of the request.  Both yield the same power of two, so rounding
the limits first and the request afterwards comes to rounding the clamped request
once, and a queue is never refused for its depth.
-/

namespace EnaDriver.Lifecycle

open Support.Laps Support.Programs Datapath Admin

/-! ## Rounding down -/

section Rounding

variable {v w : Nat}

theorem clear_even (positive : 0 < v) : (2 * v) &&& (2 * v - 1) = 2 * (v &&& (v - 1)) := by
  have half := @Nat.and_div_two (2 * v) (2 * v - 1)
  have parity := @Nat.and_mod_two_eq_one (2 * v) (2 * v - 1)
  have first : 2 * v / 2 = v := by omega
  have second : (2 * v - 1) / 2 = v - 1 := by omega
  rw [first, second] at half
  omega

theorem clear_odd (v : Nat) : (2 * v + 1) &&& (2 * v) = 2 * v := by
  have half := @Nat.and_div_two (2 * v + 1) (2 * v)
  have parity := @Nat.and_mod_two_eq_one (2 * v + 1) (2 * v)
  have first : (2 * v + 1) / 2 = v := by omega
  have second : 2 * v / 2 = v := by omega
  rw [first, second, Nat.and_self] at half
  omega

theorem clearLowBits_even (fuel : Nat) (positive : 0 < v) :
    clearLowBits fuel (2 * v) = 2 * clearLowBits fuel v := by
  induction fuel generalizing v with
  | zero => rfl
  | succ fuel ih =>
    rw [clearLowBits, clearLowBits, clear_even positive]
    by_cases last : v &&& (v - 1) = 0
    · rw [if_neg (by omega), if_neg (by omega)]
    · rw [if_pos (by omega), if_pos (by omega), ih (Nat.pos_of_ne_zero last)]

/-- The loop ends at the highest bit.  A turn on an odd number clears the lowest bit,
and on an even one the loop runs as on its half. -/
theorem clearLowBits_eq {fuel : Nat} (positive : 0 < v) (bound : v < 2 ^ fuel) :
    clearLowBits fuel v = 2 ^ v.log2 := by
  induction v using Nat.strongRecOn generalizing fuel with
  | ind v ih =>
    obtain ⟨half, rfl | rfl⟩ : ∃ half, v = 2 * half ∨ v = 2 * half + 1 := ⟨v / 2, by omega⟩
    · have some : 0 < half := by omega
      rw [clearLowBits_even fuel some, ih half (by omega) some (by omega),
        Nat.log2_two_mul (Nat.ne_of_gt some), Nat.pow_succ, Nat.mul_comm]
    cases fuel with
    | zero => omega
    | succ fuel =>
      rw [clearLowBits, Nat.add_sub_cancel, clear_odd]
      by_cases last : half = 0
      · rw [last]
        rfl
      have some := Nat.pos_of_ne_zero last
      have log : (2 * half + 1).log2 = half.log2 + 1 := by
        rw [Nat.log2_def, if_pos (by omega)]
        congr 2
        omega
      rw [if_pos (by omega), clearLowBits_even fuel some,
        ih half (by omega) some (by rw [Nat.pow_succ] at bound; omega), log, Nat.pow_succ,
        Nat.mul_comm]

theorem roundings_agree (positive : 0 < v) (bound : v < 2 ^ 32) :
    clearLowBits 32 v = enaNetdevRoundDownPow2 v := by
  rw [enaNetdevRoundDownPow2, if_neg (Nat.ne_of_gt positive), clearLowBits_eq positive bound]

/-- A number between another one and its highest bit has the same highest bit. -/
theorem log2_between (above : 2 ^ v.log2 ≤ w) (below : w ≤ v) : w.log2 = v.log2 := by
  have some : w ≠ 0 := Nat.ne_of_gt (Nat.lt_of_lt_of_le (Nat.two_pow_pos _) above)
  have positive : v ≠ 0 := by omega
  have fits : w < 2 ^ (v.log2 + 1) :=
    Nat.lt_of_le_of_lt below ((Nat.log2_lt positive).mp (Nat.lt_succ_self _))
  exact Nat.le_antisymm (Nat.le_of_lt_succ ((Nat.log2_lt some).mpr fits))
    ((Nat.le_log2 some).mpr above)

theorem pow_log2_mono (positive : v ≠ 0) (below : v ≤ w) : 2 ^ v.log2 ≤ 2 ^ w.log2 :=
  Nat.pow_le_pow_right (by decide)
    ((Nat.le_log2 (by omega)).mpr (Nat.le_trans (Nat.log2_self_le positive) below))

theorem min_pow_log2 (some : v ≠ 0) (other : w ≠ 0) :
    min (2 ^ v.log2) (2 ^ w.log2) = 2 ^ (min v w).log2 := by
  rcases Nat.le_total v w with le | le
  · rw [Nat.min_eq_left le, Nat.min_eq_left (pow_log2_mono some le)]
  · rw [Nat.min_eq_right le, Nat.min_eq_right (pow_log2_mono other le)]

end Rounding

/-! ## The clamps -/

def topDepth (resp : Response) : Nat := min 4096 (min (resp 1).toNat (resp 3).toNat)

def askedDepth (nbDesc top : Nat) : Nat := if nbDesc = 0 then top else max 4 (min nbDesc top)

section Clamps

variable {resp : Response} (sqDeep : 4 ≤ (resp 1).toNat) (cqDeep : 4 ≤ (resp 3).toNat)
include sqDeep cqDeep

theorem topDepth_range : 4 ≤ topDepth resp ∧ topDepth resp ≤ 4096 := by
  unfold topDepth
  omega

/-- The negotiated limit is the highest bit of the largest depth. -/
theorem maxRingSize_limits {a : Adapter} (known : a.settings.limits = limitsOf resp)
    (side : RingType) : maxRingSize side a = 2 ^ (topDepth resp).log2 := by
  have clamp : ∀ raw, 4 ≤ raw → clampQueueDepth raw = 2 ^ (min 4096 raw).log2 := by
    intro raw deep
    rw [clampQueueDepth, Nat.max_eq_right (by omega), clearLowBits_eq (by omega) (by omega)]
  have size : min (clampQueueDepth (resp 3).toNat) (clampQueueDepth (resp 1).toNat) =
      2 ^ (topDepth resp).log2 := by
    rw [clamp _ sqDeep, clamp _ cqDeep, min_pow_log2 (by omega) (by omega), topDepth]
    congr 2
    omega
  cases side with
  | tx =>
    rw [maxRingSize, known]
    exact size
  | rx =>
    rw [maxRingSize, known]
    exact size

/-- Rounding the limit first and the request afterwards rounds the clamped request. -/
theorem clampDescCount_eq (nbDesc : Nat) :
    enaNetdevClampDescCount nbDesc (2 ^ (topDepth resp).log2) =
      2 ^ (askedDepth nbDesc (topDepth resp)).log2 := by
  obtain ⟨lower, upper⟩ := topDepth_range sqDeep cqDeep
  have below := @Nat.log2_self_le (topDepth resp) (by omega)
  have four : 2 ^ 2 ≤ 2 ^ (topDepth resp).log2 :=
    Nat.pow_le_pow_right (by decide) ((Nat.le_log2 (by omega)).mpr lower)
  have round : ∀ v, v ≠ 0 → enaNetdevRoundDownPow2 v = 2 ^ v.log2 := fun v some => if_neg some
  unfold enaNetdevClampDescCount askedDepth minRingDesc maxRingDesc
  dsimp only
  have same : ∀ w, 2 ^ (topDepth resp).log2 ≤ w → w ≤ topDepth resp →
      w.log2 = (topDepth resp).log2 := fun w => log2_between
  rw [round _ (by omega)]
  congr 1
  by_cases none : nbDesc = 0
  · have some : 2 ^ (topDepth resp).log2 ≠ 0 := by omega
    rw [if_pos none, if_pos none, if_neg some, if_neg (by omega), same _ (by omega) (by omega)]
  rw [if_neg none, if_neg none]
  by_cases exceeds : 2 ^ (topDepth resp).log2 < nbDesc
  · rw [if_pos ⟨by omega, exceeds⟩, same _ (by omega) (by omega),
      same (max 4 (min nbDesc (topDepth resp))) (by omega) (by omega)]
  · rw [if_neg (fun both => exceeds both.2)]
    congr 1
    omega

end Clamps

/-! ## Main result -/

/-- The largest power of two not above the clamped request, in the range of depths. -/
structure RightDepth (resp : Response) (nbDesc depth : Nat) : Prop where
  power : ∃ k, depth = 2 ^ k
  lower : 4 ≤ depth
  upper : depth ≤ topDepth resp
  below : depth ≤ askedDepth nbDesc (topDepth resp)
  largest : ∀ k, 2 ^ k ≤ askedDepth nbDesc (topDepth resp) → 2 ^ k ≤ depth

variable {side : RingType}

/-- The ring allocation refuses a depth of the clamp for want of memory only. -/
theorem enaRingAlloc_refused {q : Nat} {d : Depth} {memory : Nat → Option Nat}
    {refused : Int} (given : enaRingAlloc q side (UInt16.ofNat d.val) (UInt16.ofNat d.val) memory =
      .error refused) : refused = -ENOMEM := by
  unfold enaRingAlloc at given
  rw [Depth.ofRaw?_ofNat] at given
  dsimp only at given
  split at given
  · cases given
  · cases given
    rfl

theorem storedRings_set {π : Type} {array : List (Option π)} {q : Nat} {new port : π}
    (stored : (array.set q (some new))[q]? = some (some port)) : port = new := by
  rw [List.getElem?_set_self'] at stored
  cases found : array[q]? with
  | none =>
    rw [found] at stored
    cases stored
  | some old =>
    rw [found] at stored
    cases stored
    rfl

/-- The ring behind a queue that was just configured. -/
theorem configuredPort_depths {q phys : Nat} {alloc : Bool} {ring r : Ring}
    {m : Machine} (found : ringAt side q (setRings side
      ((rings side m).set q (some (configuredPort alloc phys ring side))) m) = some r) :
    r.sqDepth = ring.sqDepth ∧ r.cqDepth = ring.cqDepth := by
  cases side with
  | tx =>
    obtain ⟨port, stored, same⟩ := ringAt_tx.mp found
    rw [← same, (storedRings_set stored)]
    exact ⟨rfl, rfl⟩
  | rx =>
    obtain ⟨port, stored, same⟩ := ringAt_rx.mp found
    rw [← same, (storedRings_set stored)]
    exact ⟨rfl, rfl⟩

theorem clampDescCount_right {resp : Response} {a : Adapter} (sqDeep : 4 ≤ (resp 1).toNat)
    (cqDeep : 4 ≤ (resp 3).toNat) (known : a.settings.limits = limitsOf resp) (side : RingType)
    (nbDesc : Nat) :
    RightDepth resp nbDesc (enaNetdevClampDescCount nbDesc (maxRingSize side a)) := by
  obtain ⟨lower, upper⟩ := topDepth_range sqDeep cqDeep
  have asked : 4 ≤ askedDepth nbDesc (topDepth resp) ∧
      askedDepth nbDesc (topDepth resp) ≤ topDepth resp := by
    unfold askedDepth
    split <;> omega
  have largest : ∀ k, 2 ^ k ≤ askedDepth nbDesc (topDepth resp) →
      2 ^ k ≤ 2 ^ (askedDepth nbDesc (topDepth resp)).log2 := fun k le =>
    Nat.pow_le_pow_right (by decide) ((Nat.le_log2 (by omega)).mpr le)
  have below := @Nat.log2_self_le (askedDepth nbDesc (topDepth resp)) (by omega)
  rw [maxRingSize_limits sqDeep cqDeep known, clampDescCount_eq sqDeep cqDeep]
  exact ⟨⟨_, rfl⟩, largest 2 asked.1, by omega, below, largest⟩

/-- A queue is built with this depth, or for want of memory not at all. -/
theorem configureQueue_depth {env : Env} {q nbDesc : Nat} {alloc : Bool} {ret : Int}
    {m final : Machine} (ran : configureQueue env side q nbDesc alloc m = .ok (ret, final)) :
    ret = -ENOMEM ∨ ret = 0 ∧ ∀ r, ringAt side q final = some r →
      r.sqDepth = r.cqDepth ∧
        r.sqDepth.val = enaNetdevClampDescCount nbDesc (maxRingSize side m.adapter) := by
  obtain ⟨a, _, read, rest⟩ := bind_returned ran
  cases read
  obtain ⟨_, cleared, freed, rest⟩ := bind_returned rest
  obtain ⟨result, allocated, built, rest⟩ := bind_returned rest
  obtain ⟨d, depth⟩ := enaNetdevClampDescCount_depth nbDesc (maxRingSize side m.adapter)
  unfold ringAlloc at built
  rw [depth, Depth.ofRaw?_ofNat, if_neg (Option.some_ne_none d)] at built
  obtain ⟨memory, _, _, outcome⟩ := bind_returned built
  cases outcome
  cases given : enaRingAlloc q side (UInt16.ofNat d.val) (UInt16.ofNat d.val) fun i => memory[i]? with
  | error refused =>
    rw [given] at rest
    cases rest
    exact .inl (enaRingAlloc_refused given)
  | ok ring =>
    rw [given] at rest
    obtain ⟨bounce, _, _, rest⟩ := bind_returned rest
    split at rest
    · cases rest
      refine .inr ⟨rfl, fun r found => ?_⟩
      obtain ⟨sqDepth, cqDepth⟩ := configuredPort_depths found
      obtain ⟨sq, cq, _⟩ := enaRingAlloc_ok given
      have value : (UInt16.ofNat d.val).toNat = d.val := (Depth.ofRaw?_val (Depth.ofRaw?_ofNat d)).symm
      rw [sqDepth, cqDepth, sq, value]
      exact ⟨Depth.eq_of_val (sq.trans cq.symm), depth.symm⟩
    · cases rest
      exact .inl rfl

/-- After the negotiation of the limits, a queue of either direction is configured with
the largest power of two not above the clamped request, and never refused for its
depth; both roundings agree on every 32-bit number. -/
theorem configured_depth_right {exec : CtrlExec} {before between : Machine} {resp : Response}
    (answered : exec [] (getFeatureReq .maxQueuesNum 56) before = .ok ((0, resp), between))
    (sqDeep : 4 ≤ (resp 1).toNat) (cqDeep : 4 ≤ (resp 3).toNat) :
    (∃ after, enaInitGetQueueLimits exec before = .ok (0, after) ∧
      ∀ (m : Machine), m.adapter.settings.limits = after.adapter.settings.limits →
        ∀ (env : Env) (side : RingType) (q nbDesc : Nat) (alloc : Bool) (depth : Nat),
          depth = enaNetdevClampDescCount nbDesc (maxRingSize side m.adapter) →
          RightDepth resp nbDesc depth ∧
          (∀ memory refused, enaRingAlloc q side (UInt16.ofNat depth) (UInt16.ofNat depth) memory =
            .error refused → refused = -ENOMEM) ∧
          ∀ ret final, configureQueue env side q nbDesc alloc m = .ok (ret, final) →
            ret = -ENOMEM ∨ ret = 0 ∧ ∀ r, ringAt side q final = some r →
              r.sqDepth = r.cqDepth ∧ r.sqDepth.val = depth) ∧
    ∀ v, 0 < v → v < 2 ^ 32 → clearLowBits 32 v = enaNetdevRoundDownPow2 v := by
  constructor
  · have negotiated : enaInitGetQueueLimits exec before = .ok (0, between.withAdapter
        (between.adapter.updateSettings fun s => { s with limits := limitsOf resp })) := by
      unfold enaInitGetQueueLimits
      rw [run_bind, answered]
      rfl
    refine ⟨_, negotiated, fun m known env side q nbDesc alloc depth clamped => ?_⟩
    obtain ⟨d, accepted⟩ := enaNetdevClampDescCount_depth nbDesc (maxRingSize side m.adapter)
    rw [clamped]
    refine ⟨clampDescCount_right sqDeep cqDeep known side nbDesc, fun memory refused given => ?_,
      fun ret final ran => configureQueue_depth ran⟩
    rw [accepted] at given
    exact enaRingAlloc_refused given
  · exact fun v => roundings_agree

def oneThousand : Response := fun _ => 1000

def thousandExec : CtrlExec := fun _ _ m => .ok ((0, oneThousand), m)

theorem configured_depth_right_thousand :
    ∃ after, enaInitGetQueueLimits thousandExec (.probed plainDevice) = .ok (0, after) ∧
      RightDepth oneThousand 500 (enaNetdevClampDescCount 500 (maxRingSize .tx after.adapter)) := by
  have answered : thousandExec [] (getFeatureReq .maxQueuesNum 56) (.probed plainDevice) =
      .ok ((0, oneThousand), .probed plainDevice) := rfl
  obtain ⟨⟨after, negotiated, right⟩, _⟩ := configured_depth_right answered (by decide) (by decide)
  exact ⟨after, negotiated, (right after rfl .obliging .tx 0 500 false _ rfl).1⟩

end EnaDriver.Lifecycle
