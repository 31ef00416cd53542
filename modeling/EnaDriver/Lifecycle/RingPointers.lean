import EnaDriver.Lifecycle.MemoryRuns

/-!
# The two references to a ring

The array of the adapter owns a ring; the queue of the netdev has a second pointer
to it, which the data path follows.  A reconfiguration frees the old ring before
the new one is there, and it assigns the pointer of the queue only together with a
new ring; a teardown does not assign it at all.  So the pointer survives the ring
in exactly the steps that the condition `Prepared` leaves out.
-/

namespace EnaDriver.Lifecycle.Memory

open Support.Programs Support.Allocation
open Support.Runs Datapath

/-- A queue that points to a ring points to the one of its cell, and all blocks of
that ring are in use. -/
def Pointed (s : Held Ledger) : Prop :=
  ∀ side q ring, s.data.pointer side q = some ring →
    (s.data.side side).slot q = some ring ∧ ∀ id ∈ ring.blocks, id ∈ s.heap.live

/-- What keeps the two references together: a call finds the netdev, and a queue is
configured when it has a cell, with all its allocations or, while it has no ring, with
a failure among those of the ring.  The Unikraft netdev, which outlives its teardown,
is torn down when no queue has had a ring. -/
def Prepared (fails : Nat → Bool) (build : Build) (s : Held Ledger) : MemOp → Prop
  | .configure .. => s.data.freed = false
  | .rssInit _ => True
  | .queueConfigure running side q _ => s.data.freed = false ∧
    (queueRefused build side q s.data ∨ running = true ∨
      (s.data.side side).Fits q ∧
        ((∃ i, i < side.allocations ∧ fails (s.heap.asked + i) = true) ∧
            s.data.pointer side q = none ∨
          (∀ i, i < side.allocations + 3 → fails (s.heap.asked + i) = false) ∧
            (s.data.side side).rings.isSome = true))
  | .teardown => s.data.freed = false ∧
    (∀ side, s.data.Bounded side) ∧ (build = .host ∨ ∀ side q, s.data.pointer side q = none)

section Pointers

variable {fails : Nat → Bool} {build : Build} {s : Held Ledger}

/-- The blocks of a ring in a cell are in use. -/
theorem Pointed.of_slots (sound : Sound s)
    (stored : ∀ side q ring, s.data.pointer side q = some ring →
      (s.data.side side).slot q = some ring) : Pointed s := by
  intro side q ring points
  have found := stored side q ring points
  refine ⟨found, fun id member => sound.tidy.live (.slot side q) id ?_⟩
  unfold Ledger.owned
  dsimp only
  rw [found]
  exact member

theorem Pointed.of_sameRings {after : Held Ledger} (pointed : Pointed s) (sound : Sound after)
    (same : SameRings s after) : Pointed after := by
  refine .of_slots sound fun side q ring points => ?_
  unfold Ledger.pointer at points
  rw [(same side q).2] at points
  rw [(same side q).1]
  exact (pointed side q ring points).1

/-- After a step on one queue only that queue matters. -/
theorem pointed_settled_iff {h : Heap} {side : RingType} {q : Nat} {ring : Option RingMem}
    {queue : QueueMem} (pointed : Pointed s)
    (sound : Sound ⟨h, s.data.settled side q ring queue⟩) :
    Pointed ⟨h, s.data.settled side q ring queue⟩ ↔
      ∀ found, queue.ring = some found →
        ((s.data.settled side q ring queue).side side).slot q = some found := by
  constructor
  · intro holds found points
    refine (holds side q found ?_).1
    unfold Ledger.pointer
    dsimp only
    rw [Ledger.settled_queue]
    exact points
  · intro here
    refine .of_slots sound fun other p found points => ?_
    unfold Ledger.pointer at points
    dsimp only at points ⊢
    by_cases same : other = side
    · subst same
      by_cases this : p = q
      · subst this
        rw [Ledger.settled_queue] at points
        exact here found points
      rw [Ledger.settled_queue_other this] at points
      rw [Ledger.settled_side]
      change ((s.data.side other).withCell q ring).slot p = some found
      rw [Direction.slot_withCell_other this]
      exact (pointed other p found points).1
    · rw [Ledger.settled_other same] at points ⊢
      exact (pointed other p found points).1

theorem queue_prepared_iff {side : RingType} {q nbDesc : Nat} (sound : Sound s)
    (pointed : Pointed s) (fits : (s.data.side side).Fits q) :
    ((∃ i, i < side.allocations ∧ fails (s.heap.asked + i) = true) ∧
          s.data.pointer side q = none ∨
        (∀ i, i < side.allocations + 3 → fails (s.heap.asked + i) = false) ∧
          (s.data.side side).rings.isSome = true) ↔
      ∃ ret next, configureQueue fails side q nbDesc s = .ok (ret, next) ∧ Pointed next := by
  have configured := configureQueue_configured fails sound.tidy fits nbDesc
  cases outcome : configureQueue fails side q nbDesc s with
  | error fault =>
    rw [outcome] at configured
    cases configured with
    | noRing k early refused result => cases result
    | pooled given rest => cases rest <;> contradiction
  | ok out =>
    obtain ⟨ret, next⟩ := out
    have kept := configureQueue_sound sound outcome
    rw [outcome] at configured
    have only : (∃ ret' next', (Except.ok (ret, next) : Except HeapFault (Int × Held Ledger)) =
        .ok (ret', next') ∧ Pointed next') ↔ Pointed next := by
      constructor
      · rintro ⟨_, _, same, holds⟩
        cases same
        exact holds
      · exact fun holds => ⟨ret, next, rfl, holds⟩
    rw [only]
    clear only outcome
    cases configured with
    | noRing k early refused result =>
      cases result
      rw [pointed_settled_iff pointed kept, Ledger.slot_settled_none]
      constructor
      · rintro (⟨_, none⟩ | ⟨served, _⟩)
        · intro found points
          cases none.symm.trans points
        · rw [served k (by omega)] at refused
          cases refused
      · intro absent
        refine .inl ⟨⟨k, early, refused⟩, ?_⟩
        cases points : s.data.pointer side q with
        | none => rfl
        | some found => cases absent found points
    | pooled given rest =>
      have served : ¬∃ i, i < side.allocations ∧ fails (s.heap.asked + i) = true := by
        rintro ⟨i, early, refused⟩
        rw [given i early] at refused
        cases refused
      cases rest with
      | failed k early refused result =>
        cases result
        rw [pointed_settled_iff pointed kept, Ledger.slot_settled_none]
        constructor
        · rintro (⟨failed, _⟩ | ⟨all, _⟩)
          · exact absurd failed served
          · have fine := all (side.allocations + k) (by omega)
            rw [Heap.without_asked] at refused
            rw [fine] at refused
            cases refused
        · intro absent
          cases absent _ rfl
      | complete more result =>
        cases result
        rw [pointed_settled_iff pointed kept]
        constructor
        · rintro (⟨failed, _⟩ | ⟨_, present⟩)
          · exact absurd failed served
          · intro found points
            rw [Ledger.slot_settled fits present]
            exact points
        intro stored
        have there := stored _ rfl
        refine .inr ⟨fun i early => ?_, ?_⟩
        · by_cases base : i < side.allocations
          · exact given i base
          · have late := more (i - side.allocations) (by omega)
            rwa [Nat.add_sub_of_le (Nat.le_of_not_lt base)] at late
        rw [Ledger.settled_side] at there
        unfold Direction.withQueue Direction.withCell Direction.slot at there
        cases array : (s.data.side side).rings with
        | none =>
          rw [array] at there
          cases there
        | some array => rfl

/-- A program that returns in every case with the same rings. -/
theorem keeps_pointed {α : Type} {program : HeapProg Ledger α}
    (keeps : Keeps Sound SameRings program) (sound : Sound s) (pointed : Pointed s) :
    ∃ next, (program s).map Prod.snd = .ok next ∧ Pointed next := by
  obtain ⟨value, next, ran, kept, same⟩ := keeps s sound
  exact ⟨next, by rw [ran]; rfl, pointed.of_sameRings kept same⟩

theorem teardown_prepared_iff (sound : Sound s) :
    Prepared fails build s .teardown ↔
      ∃ next, (enaNetdevTeardown build s).map Prod.snd = .ok next ∧ Pointed next := by
  constructor
  · rintro ⟨present, bounded, left⟩
    obtain ⟨_, next, ran, kept, _, pointers⟩ :=
      @enaNetdevTeardown_returns s build sound present bounded
    refine ⟨next, by rw [ran]; rfl, .of_slots kept fun side q ring points => ?_⟩
    rw [pointers] at points
    rcases left with host | none
    · subst host
      cases points
    · cases build with
      | host => cases points
      | unikraft options => cases (none side q).symm.trans points
  · rintro ⟨next, stepped, pointed⟩
    obtain ⟨_, ran⟩ := map_snd_ok stepped
    have bounded := enaNetdevTeardown_bounded sound ran
    obtain ⟨_, other, returned, _, gone, pointers⟩ :=
      @enaNetdevTeardown_returns s build sound (netdev_used ran) bounded
    cases ran.symm.trans returned
    refine ⟨netdev_used ran, bounded, ?_⟩
    cases build with
    | host => exact .inl rfl
    | unikraft options =>
      refine .inr fun side q => ?_
      cases points : s.data.pointer side q with
      | none => rfl
      | some ring =>
        have stored := (pointed side q ring (by rw [pointers]; exact points)).1
        unfold Direction.slot at stored
        rw [gone side] at stored
        cases stored

/-- The condition says exactly which steps leave the references together. -/
theorem prepared_iff (sound : Sound s) (pointed : Pointed s) (op : MemOp) :
    Prepared fails build s op ↔ ∃ next, memStep fails build s op = .ok next ∧ Pointed next := by
  cases op with
  | configure running nbRx nbTx =>
    constructor
    · intro present
      obtain ⟨_, next, ran, kept, same⟩ :=
        @enaNetdevConfigure_returns fails s sound present build running nbRx nbTx
      exact ⟨next, by rw [memStep, ran]; rfl, pointed.of_sameRings kept same⟩
    · rintro ⟨next, stepped, _⟩
      obtain ⟨_, ran⟩ := map_snd_ok stepped
      exact netdev_used ran
  | rssInit features =>
    exact ⟨fun _ => keeps_pointed (enaRssInit_keeps fails features) sound pointed,
      fun _ => trivial⟩
  | teardown => exact teardown_prepared_iff sound
  | queueConfigure running side q nbDesc =>
    have same : ∃ next, (Except.ok s : Except HeapFault (Held Ledger)) = .ok next ∧ Pointed next :=
      ⟨s, rfl, pointed⟩
    by_cases gone : s.data.freed = true
    · refine ⟨fun ready => absurd gone (by rw [ready.1]; decide), fun ⟨_, stepped, _⟩ => ?_⟩
      obtain ⟨_, ran⟩ := map_snd_ok stepped
      exact absurd gone (by rw [netdev_used ran]; decide)
    have present := Bool.eq_false_iff.mpr gone
    unfold Prepared memStep queueConfigure
    dsimp only
    rw [run_bind, useNetdev_run present, ok_bind, run_bind, run_get, ok_bind, run_ite]
    by_cases refused : queueRefused build side q s.data
    · rw [if_pos refused]
      exact ⟨fun _ => same, fun _ => ⟨present, .inl refused⟩⟩
    rw [if_neg refused, run_ite]
    cases running with
    | true => exact ⟨fun _ => same, fun _ => ⟨present, .inr (.inl rfl)⟩⟩
    | false =>
      rw [if_neg (by decide)]
      by_cases fits : (s.data.side side).Fits q
      · have exact := @queue_prepared_iff fails s side q nbDesc sound pointed fits
        constructor
        · rintro ⟨_, refusal | stopped | ⟨_, allocations⟩⟩
          · exact absurd refusal refused
          · cases stopped
          · obtain ⟨ret, next, ran, holds⟩ := exact.mp allocations
            exact ⟨next, by rw [ran]; rfl, holds⟩
        · rintro ⟨next, stepped, holds⟩
          obtain ⟨ret, ran⟩ := map_snd_ok stepped
          exact ⟨present, .inr (.inr ⟨fits, exact.mpr ⟨ret, next, ran, holds⟩⟩)⟩
      · rw [configureQueue_outside fits]
        constructor
        · rintro ⟨_, refusal | stopped | ⟨inside, _⟩⟩
          · exact absurd refusal refused
          · cases stopped
          · exact absurd inside fits
        · rintro ⟨_, stepped, _⟩
          cases stepped

end Pointers

/-- Along a run every queue points to the ring of its cell or to none, and that ring
is in use, exactly when every step of the run meets the condition. -/
theorem ring_pointers_agree_iff (fails : Nat → Bool) (build : Build) (s : Held Ledger)
    (sound : Sound s) (pointed : Pointed s) (ops : List MemOp) :
    Holds (memStep fails build) Pointed s ops ↔
      Meets (memStep fails build) (Prepared fails build) s ops :=
  holds_iff_meets Sound Pointed (fun _ _ _ before stepped => memStep_sound before stepped)
    (fun _ op before holds => prepared_iff before holds op) sound pointed ops

def oneQueue : Held Ledger := ⟨.empty, .fresh 1 256⟩

theorem oneQueue_pointed : Pointed oneQueue := by
  intro side q ring points
  cases points

theorem ring_pointers_agree_iff_first :
    Sound oneQueue ∧ Pointed oneQueue ∧
      Holds (memStep (fun _ => false) .host) Pointed oneQueue
        [.configure false 1 1, .queueConfigure false .rx 0 256] := by
  have observed : (memStep (fun _ => false) .host oneQueue (.configure false 1 1)).toOption.map
      (fun s => (s.data.freed, (s.data.side .rx).rings)) = some (false, some ⟨0, [none]⟩) := by
    decide +kernel
  refine ⟨fresh_sound 1 256, oneQueue_pointed, ?_⟩
  refine (ring_pointers_agree_iff _ _ oneQueue (fresh_sound 1 256) oneQueue_pointed _).mpr ?_
  refine ⟨rfl, fun next stepped => ⟨?_, fun _ _ => trivial⟩⟩
  rw [stepped] at observed
  obtain ⟨present, array⟩ := Prod.mk.inj (Option.some.inj observed)
  refine ⟨present, .inr (.inr ⟨?_, .inr ⟨fun _ _ => rfl, by rw [array]; rfl⟩⟩)⟩
  intro stored found
  cases array.symm.trans found
  decide

/-- What is seen of the first receive queue: its pointer, its cell, and whether the
ring it points to is in use. -/
def firstQueue (s : Held Ledger) : Option Nat × Option Nat × Bool :=
  ((s.data.pointer .rx 0).map RingMem.ring, ((s.data.side .rx).slot 0).map RingMem.ring,
    ((s.data.pointer .rx 0).map fun ring => decide (ring.ring ∈ s.heap.live)).getD true)

/-- A queue is configured, and configured again when there is no memory: it keeps
pointing to the ring that was freed.  So it does after a failure for the bounce pool
and after a teardown. -/
theorem reconfigure_leaves_freed_ring :
    (∃ s, run (memStep (fun n => decide (12 ≤ n)) .host) oneQueue
        [.configure false 1 1, .queueConfigure false .rx 0 256,
          .queueConfigure false .rx 0 256] = .ok s ∧
      firstQueue s = (some 2, none, false)) ∧
    (∃ s, run (memStep (fun n => decide (9 ≤ n)) .host) oneQueue
        [.configure false 1 1, .queueConfigure false .rx 0 256] = .ok s ∧
      firstQueue s = (some 2, none, false)) ∧
    ∃ s, run (memStep (fun _ => false) (.unikraft ⟨true, 8⟩)) oneQueue
        [.configure false 1 1, .queueConfigure false .rx 0 256, .teardown] = .ok s ∧
      firstQueue s = (some 2, none, false) := by
  refine ⟨ok_of_observed ?_, ok_of_observed ?_, ok_of_observed ?_⟩
  · decide +kernel
  · decide +kernel
  · decide +kernel

end EnaDriver.Lifecycle.Memory
