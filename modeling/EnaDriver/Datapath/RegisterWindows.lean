import EnaDriver.Datapath.PollProgress

/-!
# Registers that a ring writes to

A ring writes to the device through offsets that the device chose: the doorbells
of its two queues, the unmask register of its completion queue and, in device
placement, its push buffer.  The functions of the datapath write through the
stored offsets only and leave them alone, so that a ring whose offsets lie inside
the register windows never writes outside them.
-/

namespace EnaDriver.Datapath

open Support.Laps
open Support.Programs

variable {cpu : Nat} {events : List Event} {p : RxPort} {push : Option Nat} {ret : Int}

/-! ## Windows -/

def DeviceMap.Register (dev : DeviceMap) (offset : Nat) : Prop :=
  offset % 4 = 0 ∧ offset + 4 ≤ dev.bar0Size

/-- The check of the driver is exact. -/
theorem badOffset_false_iff (dev : DeviceMap) (offset : Nat) :
    dev.badOffset offset = false ↔ dev.Register offset := by
  have low : offset &&& 3 = offset % 4 := Nat.and_two_pow_sub_one_eq_mod offset 2
  unfold DeviceMap.badOffset DeviceMap.Register
  rw [low]
  simp only [Bool.or_eq_false_iff, decide_eq_false_iff_not, bne_eq_false_iff_eq, Nat.not_lt]
  exact And.comm

theorem register_of_checked {dev map : DeviceMap} {offset : Nat} (bar0 : map.bar0Size = dev.bar0Size)
    (checked : ¬ (offset ≠ 0 ∧ map.badOffset offset = true)) (present : offset ≠ 0) :
    dev.Register offset := by
  have good : map.badOffset offset = false := by
    cases bad : map.badOffset offset with
    | false => rfl
    | true => exact absurd ⟨present, bad⟩ checked
  obtain ⟨aligned, inside⟩ := (badOffset_false_iff map offset).mp good
  exact ⟨aligned, bar0 ▸ inside⟩

structure Windowed (dev : DeviceMap) (r : Ring) : Prop where
  sqDb : ∀ offset, r.hw.sqDb = some offset → dev.Register offset
  cqDb : ∀ offset, r.hw.cqDb = some offset → dev.Register offset
  unmask : r.hw.cqUnmaskDbOffset = 0 ∨ dev.Register r.hw.cqUnmaskDbOffset
  push : r.hw.isLlq = true → ∀ offset, r.hw.pushBufVirt = some offset →
    offset + r.sqDepth.val * r.hw.entrySize ≤ dev.bar2Size

def Event.Inside (dev : DeviceMap) : Event → Prop
  | .regWrite32 offset _ => dev.Register offset
  | .llqEntry offset size _ _ => offset + size ≤ dev.bar2Size
  | _ => True

/-- Windows depend on the hardware part and the depth alone. -/
theorem Windowed.congr {dev : DeviceMap} {r next : Ring} (windowed : Windowed dev r)
    (hw : next.hw = r.hw) (depth : next.sqDepth = r.sqDepth) : Windowed dev next := by
  refine ⟨?_, ?_, ?_, ?_⟩
  · rw [hw]
    exact windowed.sqDb
  · rw [hw]
    exact windowed.cqDb
  · rw [hw]
    exact windowed.unmask
  · rw [hw, depth]
    exact windowed.push

theorem fresh_windowed (dev : DeviceMap) (qid : Nat) (side : RingType) (sq cq : Depth)
    (sqPhys cqPhys wbPhys : Nat) :
    Windowed dev (.fresh qid side sq cq sqPhys cqPhys wbPhys) where
  sqDb := fun _ found => nomatch found
  cqDb := fun _ found => nomatch found
  unmask := .inl rfl
  push := fun pushed => nomatch pushed

/-- A reset forgets the doorbells and keeps the other offsets. -/
theorem emptied_windowed {dev : DeviceMap} {r : Ring} (windowed : Windowed dev r)
    (txBufs : Nat → TxBuffer) (rxBufs : Nat → RxBuffer) :
    Windowed dev (r.emptied txBufs rxBufs) where
  sqDb := fun _ found => nomatch found
  cqDb := fun _ found => nomatch found
  unmask := windowed.unmask
  push := windowed.push

/-! ## Steps of the datapath -/

/-- A step leaves the offsets alone and writes through them. -/
structure Confined (dev : DeviceMap) (r : Ring) (events : List Event) (next : Ring) : Prop where
  hw : next.hw = r.hw
  depth : next.sqDepth = r.sqDepth
  inside : Windowed dev r → ∀ event ∈ events, event.Inside dev

section Steps

variable {dev : DeviceMap} {r middle next : Ring} {first second events : List Event}

theorem nothing_inside : ∀ event ∈ ([] : List Event), event.Inside dev := nofun

theorem one_inside {event : Event} (inside : event.Inside dev) :
    ∀ other ∈ [event], other.Inside dev :=
  List.forall_mem_singleton.mpr inside

theorem Confined.trans (earlier : Confined dev r first middle)
    (later : Confined dev middle second next) : Confined dev r (first ++ second) next where
  hw := later.hw.trans earlier.hw
  depth := later.depth.trans earlier.depth
  inside := fun windowed => List.forall_mem_append.mpr
    ⟨earlier.inside windowed, later.inside (windowed.congr earlier.hw earlier.depth)⟩

theorem Confined.windowed (confined : Confined dev r first next) (windowed : Windowed dev r) :
    Windowed dev next :=
  windowed.congr confined.hw confined.depth

theorem bell_inside {bell : Option Nat} {rings : Prop} [Decidable rings] {value : Nat}
    (registers : ∀ offset, bell = some offset → dev.Register offset) :
    ∀ event ∈ (match bell with
      | none => []
      | some offset => if rings then [Event.regWrite32 offset value] else []), event.Inside dev := by
  cases bell with
  | none => exact nothing_inside
  | some offset =>
    dsimp only
    split
    · exact one_inside (registers offset rfl)
    · exact nothing_inside

theorem pushedEntry_inside {offset : Nat} (windowed : Windowed dev r) (llq : r.hw.isLlq = true)
    (found : r.hw.pushBufVirt = some offset) :
    offset + r.sqSlot * r.hw.entrySize + r.hw.entrySize / 8 * 8 ≤ dev.bar2Size := by
  have area := windowed.push llq offset found
  have slot : r.sqSlot < r.sqDepth.val := r.sqDepth.slot_lt _
  have fits : (r.sqSlot + 1) * r.hw.entrySize ≤ r.sqDepth.val * r.hw.entrySize :=
    Nat.mul_le_mul_right _ slot
  have words : r.hw.entrySize / 8 * 8 ≤ r.hw.entrySize := Nat.div_mul_le_self _ 8
  rw [Nat.succ_mul] at fits
  omega

theorem llqFallsBack_false {offsets : Ring} (pushes : llqFallsBack offsets = false) :
    offsets.hw.isLlq = true ∧ ∃ offset, offsets.hw.pushBufVirt = some offset := by
  simp only [llqFallsBack, Bool.or_eq_false_iff, Bool.not_eq_false', Option.isNone_eq_false_iff]
    at pushes
  exact ⟨pushes.1.1, Option.isSome_iff_exists.mp pushes.1.2⟩

theorem confined_steps (dev : DeviceMap) : TxSteps (Confined dev) where
  trans := Confined.trans
  books := by
    intro r next events books
    refine ⟨congrArg (·.2.1) books.same, congrArg (·.2.2.1) books.same, fun _ event member => ?_⟩
    have silent := books.silent event member
    cases event <;> trivial
  produced := fun r => ⟨rfl, rfl, fun _ => nothing_inside⟩
  passed := fun r => ⟨rfl, rfl, fun _ => nothing_inside⟩
  noted := by
    intro r event consumed
    refine ⟨rfl, rfl, fun _ => one_inside ?_⟩
    cases event <;> trivial
  doorbell := fun r => ⟨rfl, rfl, fun windowed => bell_inside windowed.sqDb⟩
  reported := fun r rcvd => ⟨rfl, rfl, fun windowed => bell_inside windowed.cqDb⟩
  acknowledged := fun r cdesc => ⟨rfl, rfl, fun _ => nothing_inside⟩
  pushed := by
    intro r desc header pushes
    obtain ⟨llq, offset, buffer⟩ := llqFallsBack_false pushes
    refine ⟨rfl, rfl, fun windowed => one_inside ?_⟩
    rw [buffer]
    exact pushedEntry_inside windowed llq buffer

theorem resetSlots_freesOnly (slots : List Nat) (r : Ring) : FreesOnly (resetSlots slots r).2 := by
  induction slots generalizing r with
  | nil => exact fun _ member => nomatch member
  | cons i rest ih => exact (resetSlot_events r i).2.append (ih _)

/-- A reset keeps the offsets inside and writes nothing. -/
theorem enaAdapterInvalidateIoRing_inside
    (returned : enaAdapterInvalidateIoRing r = .ok (next, events)) :
    (Windowed dev r → Windowed dev next) ∧ ∀ event ∈ events, event.Inside dev := by
  cases lock : r.ringLock with
  | true =>
    unfold enaAdapterInvalidateIoRing at returned
    rw [enaRingLock_held lock] at returned
    cases returned
  | false =>
    obtain ⟨txBufs, rxBufs, _, ran⟩ := enaAdapterInvalidateIoRing_ok lock
    cases returned.symm.trans ran
    refine ⟨fun windowed => emptied_windowed windowed txBufs rxBufs, fun event member => ?_⟩
    rcases resetSlots_freesOnly _ _ event member with ⟨_, _, rfl | rfl⟩ <;> trivial

end Steps

/-! ## Creation and destruction of queues

A command may rebuild the ring under the feet of the call that issued it, so each
update is judged by the ring that it finds. -/

/-- Activation installs a push area that fits. -/
theorem activate_windowed {dev map : DeviceMap} {r : Ring} (bar2 : map.bar2Size = dev.bar2Size)
    (windowed : Windowed dev r) (fits : ∀ offset, push = some offset →
      ∃ headers, map.badPushArea r.sqDepth.val offset headers = false) :
    Windowed dev { r with hw := r.hw.activate map r.sqDepth.val push } := by
  cases push with
  | none => exact ⟨windowed.sqDb, windowed.cqDb, windowed.unmask, windowed.push⟩
  | some offset =>
    refine ⟨windowed.sqDb, windowed.cqDb, windowed.unmask, fun _ other same => ?_⟩
    cases same
    obtain ⟨headers, area⟩ := fits offset rfl
    have inside : offset + r.sqDepth.val * map.llq.pushEntrySize ≤ map.bar2Size := by
      simp only [DeviceMap.badPushArea, Bool.or_eq_false_iff, decide_eq_false_iff_not,
        Nat.not_lt] at area
      exact area.1.2
    have size : (r.hw.activate map r.sqDepth.val (some offset)).entrySize =
        map.llq.pushEntrySize := by
      have some : map.llq.pushEntrySize ≠ 0 := by
        unfold LlqInfo.pushEntrySize
        split
        · decide
        · assumption
      exact if_neg some
    dsimp only
    rw [size, ← bar2]
    exact inside

section Access

variable {σ : Type}

theorem carries (inv : σ → Prop) : Composes (Ends (ε := Fault) (Carries inv)) :=
  Ends.composes (Carries.refl inv) (Carries.trans inv)

/-- The commands and the ring access of a program, for an invariant of its states
that lets a ring change within the windows.  The device chooses unmask registers
inside the windows. -/
structure WindowAccess (dev : DeviceMap) (inv : σ → Prop) (look : σ → Option Ring)
    (exec : Exec (Prog σ Fault)) (ring : RingAccess (Prog σ Fault)) : Prop where
  command : ∀ req, Ends (Carries inv) (exec req)
  unmask : ∀ (req : AdminReq) (state : σ) (resp : Response) (final : σ), req.opcode = 3 →
    16 ≤ req.respCap → exec req state = .ok ((0, resp), final) →
      resp.cqUnmaskOffset = 0 ∨ dev.Register resp.cqUnmaskOffset
  get : ∀ state r final, ring.get state = .ok (r, final) → final = state ∧ look state = some r
  modify : ∀ state change, ∃ final, ring.modify change state = .ok ((), final) ∧
    look final = (look state).map change ∧
      (inv state → (∀ r, look state = some r → Windowed dev r → Windowed dev (change r)) → inv final)

variable {dev map : DeviceMap} {inv : σ → Prop} {look : σ → Option Ring}
  {exec : Exec (Prog σ Fault)} {ring : RingAccess (Prog σ Fault)}
  (access : WindowAccess dev inv look exec ring)
include access

namespace WindowAccess

/-- An update of the hardware part that keeps the windows of every ring. -/
theorem modifyHw {change : HwQueue → HwQueue}
    (keeps : ∀ r, Windowed dev r → Windowed dev { r with hw := change r.hw }) :
    Ends (Carries inv) (ring.modifyHw change) := by
  intro state value final ran holds
  obtain ⟨other, same, _, kept⟩ := access.modify state fun r => { r with hw := change r.hw }
  cases same.symm.trans ran
  exact kept holds fun r _ windowed => keeps r windowed

theorem destroyCq (cqIdx : Nat) : Ends (Carries inv) (enaAdminDestroyCq exec cqIdx) :=
  (carries inv).bind (access.command _) fun _ => (carries inv).pure _

theorem destroySq (sqIdx : Nat) : Ends (Carries inv) (enaAdminDestroySq exec sqIdx) :=
  (carries inv).bind (access.command _) fun _ => (carries inv).pure _

theorem get_ends : Ends (Carries inv) ring.get := by
  intro state r final got holds
  obtain ⟨rfl, _⟩ := access.get _ _ _ got
  exact holds

/-- The answer to CREATE_CQ is stored whole; of its offsets only the unmask
register is used from there. -/
theorem createCq (msixVector : Nat) :
    Ends (Carries inv) (enaAdminCreateCq map exec ring msixVector) := by
  refine (carries inv).bind access.get_ends fun r => ?_
  intro state value final ran holds
  obtain ⟨⟨ret, resp⟩, between, executed, rest⟩ := bind_returned ran
  have kept := access.command _ _ _ _ executed holds
  dsimp only at rest
  by_cases failed : ret ≠ 0
  · rw [if_pos failed] at rest
    cases rest
    exact kept
  rw [if_neg failed] at rest
  have zero : ret = 0 := Decidable.not_not.mp failed
  subst zero
  have good := access.unmask _ _ _ _ rfl (Nat.le_refl 16) executed
  refine (carries inv).bind (access.modifyHw fun r windowed => ?_) (fun _ => ?_)
    _ _ _ rest kept
  · exact ⟨windowed.sqDb, windowed.cqDb, good, windowed.push⟩
  · refine Ends.ite ?_ ((carries inv).pure _)
    exact (carries inv).bind (access.destroyCq _) fun _ => (carries inv).pure _

/-- A doorbell is mapped after its offset is checked. -/
theorem mapCqRegisters (bar0 : map.bar0Size = dev.bar0Size) :
    Ends (Carries inv) (Datapath.mapCqRegisters map exec ring) := by
  intro state value final ran holds
  obtain ⟨made, start, got, rest⟩ := bind_returned ran
  obtain ⟨rfl, found⟩ := access.get _ _ _ got
  have destroyed (ret : Int) : Ends (Carries inv) (do
      let _ ← enaAdminDestroyCq exec made.hw.cqIdx
      return ret) :=
    (carries inv).bind (access.destroyCq _) fun _ => (carries inv).pure _
  by_cases bad : made.hw.cqDbOffset ≠ 0 ∧ map.badOffset made.hw.cqDbOffset = true
  · rw [if_pos bad] at rest
    exact destroyed _ _ _ _ rest holds
  rw [if_neg bad] at rest
  obtain ⟨_, between, mapped, rest⟩ := bind_returned rest
  have kept : inv between := by
    obtain ⟨other, same, _, keeps⟩ := access.modify start fun r => { r with hw :=
      { r.hw with cqDb := if r.hw.cqDbOffset ≠ 0 then some r.hw.cqDbOffset else r.hw.cqDb } }
    cases same.symm.trans mapped
    refine keeps holds fun r here windowed => ?_
    cases found.symm.trans here
    refine ⟨windowed.sqDb, fun offset bell => ?_, windowed.unmask, windowed.push⟩
    dsimp only at bell
    split at bell
    · rename_i present
      cases bell
      exact register_of_checked bar0 bad present
    · exact windowed.cqDb offset bell
  refine Ends.ite (destroyed _) ((carries inv).pure _) _ _ _ rest kept

theorem createSqCommon (placement : Placement) (direction : Nat) :
    Ends (Carries inv) (enaAdminCreateSqCommon map exec ring placement direction) := by
  refine (carries inv).bind access.get_ends fun r => ?_
  refine (carries inv).bind (access.command _) fun answer => ?_
  refine Ends.ite ((carries inv).pure _) ?_
  refine (carries inv).bind (access.modifyHw fun r windowed => ?_) fun _ => ?_
  · exact ⟨windowed.sqDb, windowed.cqDb, windowed.unmask, windowed.push⟩
  · refine Ends.ite ?_ ((carries inv).pure _)
    exact (carries inv).bind (access.destroySq _) fun _ => (carries inv).pure _

def Pushable (map : DeviceMap) (look : σ → Option Ring) (push : Option Nat) (state : σ) : Prop :=
  ∀ offset, push = some offset → ∃ r headers, look state = some r ∧
    map.badPushArea r.sqDepth.val offset headers = false

variable {state final : σ}

theorem createSqLlq {direction : Nat}
    (ran : Datapath.createSqLlq map exec ring direction state = .ok (push, final))
    (holds : inv state) : inv final ∧ Pushable map look push final := by
  have nothing (last : σ) : Pushable map look none last := fun _ found => nomatch found
  obtain ⟨r, start, got, rest⟩ := bind_returned ran
  obtain ⟨rfl, found⟩ := access.get _ _ _ got
  by_cases host : map.wantsLlq r = false
  · rw [if_pos host] at rest
    cases rest
    exact ⟨holds, nothing _⟩
  rw [if_neg host] at rest
  obtain ⟨⟨ret, descsOff, headersOff⟩, made, created, rest⟩ := bind_returned rest
  have kept := access.createSqCommon _ _ _ _ _ created holds
  dsimp only at rest
  by_cases failed : ret ≠ 0
  · rw [if_pos failed] at rest
    cases rest
    exact ⟨kept, nothing _⟩
  rw [if_neg failed] at rest
  obtain ⟨now, again, read, judged⟩ := bind_returned rest
  obtain ⟨rfl, present⟩ := access.get _ _ _ read
  by_cases bad : map.badPushArea now.sqDepth.val descsOff headersOff = true
  · rw [if_pos bad] at judged
    obtain ⟨_, last, destroyed, ended⟩ := bind_returned judged
    cases ended
    exact ⟨access.destroySq _ _ _ _ destroyed kept, nothing _⟩
  · rw [if_neg bad] at judged
    cases judged
    refine ⟨kept, fun offset same => ?_⟩
    cases same
    exact ⟨now, headersOff, present, Bool.not_eq_true _ ▸ bad⟩

theorem createSqPlaced {direction : Nat}
    (ran : Datapath.createSqPlaced map exec ring direction state = .ok ((ret, push), final))
    (holds : inv state) : inv final ∧ Pushable map look push final := by
  obtain ⟨placed, between, tried, rest⟩ := bind_returned ran
  obtain ⟨kept, pushable⟩ := access.createSqLlq tried holds
  cases placed with
  | some descsOff =>
    cases rest
    exact ⟨kept, pushable⟩
  | none =>
    obtain ⟨made, last, created, rest⟩ := bind_returned rest
    cases rest
    have hosted : Ends (Carries inv) (enaAdminCreateSq map exec ring direction) :=
      (carries inv).bind (access.createSqCommon _ _) fun _ =>
        (carries inv).pure _
    exact ⟨hosted _ _ _ created kept, fun _ found => nomatch found⟩

/-- Mapping the doorbell of the submission queue leaves the depth alone. -/
theorem mapSqRegisters (bar0 : map.bar0Size = dev.bar0Size)
    (ran : Datapath.mapSqRegisters map exec ring state = .ok (ret, final)) (holds : inv state)
    (pushable : Pushable map look push state) :
    inv final ∧ (ret = 0 → Pushable map look push final) := by
  obtain ⟨made, start, got, rest⟩ := bind_returned ran
  obtain ⟨rfl, found⟩ := access.get _ _ _ got
  by_cases bad : made.hw.sqDbOffset ≠ 0 ∧ map.badOffset made.hw.sqDbOffset = true
  · rw [if_pos bad] at rest
    obtain ⟨_, second, sqDestroyed, rest⟩ := bind_returned rest
    obtain ⟨failed, third, read, rest⟩ := bind_returned rest
    obtain ⟨_, last, cqDestroyed, ended⟩ := bind_returned rest
    cases ended
    have kept := access.get_ends _ _ _ read (access.destroySq _ _ _ _ sqDestroyed holds)
    exact ⟨access.destroyCq _ _ _ _ cqDestroyed kept, fun zero => absurd zero (by decide)⟩
  · rw [if_neg bad] at rest
    obtain ⟨_, last, mapped, ended⟩ := bind_returned rest
    cases ended
    obtain ⟨other, same, looks, keeps⟩ := access.modify start fun r => { r with hw :=
      { r.hw with sqDb := if r.hw.sqDbOffset ≠ 0 then some r.hw.sqDbOffset else r.hw.sqDb } }
    cases same.symm.trans mapped
    refine ⟨keeps holds fun r here windowed => ?_, fun _ offset pushed => ?_⟩
    · cases found.symm.trans here
      refine ⟨fun offset bell => ?_, windowed.cqDb, windowed.unmask, windowed.push⟩
      dsimp only at bell
      split at bell
      · rename_i present
        cases bell
        exact register_of_checked bar0 bad present
      · exact windowed.sqDb offset bell
    · obtain ⟨r, headers, here, fits⟩ := pushable offset pushed
      rw [here] at looks
      exact ⟨_, headers, looks, fits⟩

/-- Creation stores only offsets that it has checked. -/
theorem createHw (bar0 : map.bar0Size = dev.bar0Size) (bar2 : map.bar2Size = dev.bar2Size)
    (msixVector : Nat) : Ends (Carries inv) (enaRingCreateHw map exec ring msixVector) := by
  refine (carries inv).bind access.get_ends fun r => ?_
  refine Ends.ite ((carries inv).pure _) ?_
  refine (carries inv).bind (access.createCq _) fun ret => ?_
  refine Ends.ite ((carries inv).pure _) ?_
  refine (carries inv).bind (access.mapCqRegisters bar0) fun ret => ?_
  refine Ends.ite ((carries inv).pure _) ?_
  intro state value final ran holds
  obtain ⟨⟨ret, push⟩, placed, created, rest⟩ := bind_returned ran
  obtain ⟨kept, pushable⟩ := access.createSqPlaced created holds
  dsimp only at rest
  by_cases failed : ret ≠ 0
  · rw [if_pos failed] at rest
    refine (carries inv).bind access.get_ends (fun failed => ?_) _ _ _ rest kept
    exact (carries inv).bind (access.destroyCq _) fun _ => (carries inv).pure _
  rw [if_neg failed] at rest
  obtain ⟨mapped, between, ranMap, rest⟩ := bind_returned rest
  obtain ⟨kept, pushable⟩ := access.mapSqRegisters bar0 ranMap kept pushable
  by_cases bad : mapped ≠ 0
  · rw [if_pos bad] at rest
    cases rest
    exact kept
  rw [if_neg bad] at rest
  obtain ⟨_, last, activated, ended⟩ := bind_returned rest
  cases ended
  obtain ⟨other, same, _, keeps⟩ := access.modify between fun r =>
    { r with hw := r.hw.activate map r.sqDepth.val push }
  cases same.symm.trans activated
  refine keeps kept fun r here windowed => activate_windowed bar2 windowed fun offset pushed => ?_
  obtain ⟨other, headers, there, fits⟩ := pushable (Decidable.not_not.mp bad) offset pushed
  cases here.symm.trans there
  exact ⟨headers, fits⟩

theorem destroyHw : Ends (Carries inv) (enaRingDestroyHw exec ring) := by
  refine (carries inv).bind access.get_ends fun r => ?_
  refine (carries inv).bind (access.destroySq _) fun sqRet => ?_
  refine (carries inv).bind access.get_ends fun r => ?_
  refine (carries inv).bind (access.destroyCq _) fun cqRet => ?_
  refine (carries inv).bind (access.modifyHw fun r windowed => ?_) fun _ =>
    (carries inv).pure _
  exact ⟨(fun _ found => nomatch found), (fun _ found => nomatch found), .inl rfl,
    fun pushed => nomatch pushed⟩

end WindowAccess

end Access

end EnaDriver.Datapath
