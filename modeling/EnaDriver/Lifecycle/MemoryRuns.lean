import EnaDriver.Lifecycle.Memory

/-!
# Runs on the memory of the driver

The calls that allocate or release, one after the other, with allocations failing
at any point.  Every step keeps the driver sound: each block has one owner, and no
block is released twice.  What a step can fail on is an index outside a ring array,
since the arrays keep the size of their first allocation, and a netdev that the host
build has freed.
-/

namespace EnaDriver.Lifecycle.Memory

open Support.Programs Support.Allocation
open Support.Runs Datapath

variable {after : Held Ledger} {queue : QueueMem} {fails : Nat → Bool}

/-! ## Scaling tables -/

/-- The tables exist together, and the hash tables only with them. -/
def RssMem.Whole (rss : RssMem) : Prop :=
  rss = .null ∨ rss.hostIndTable.isSome = true ∧ rss.indTable.isSome = true

def Ledger.withRss (m : Ledger) (rss : RssMem) : Ledger := { m with rss := rss }

section Tables

variable {fails : Nat → Bool} {h : Heap} {m : Ledger} {rss : RssMem} {count : Nat}

theorem enaRssFini_run {s : Held Ledger} (nodup : s.data.rss.blocks.Nodup)
    (live : ∀ id ∈ s.data.rss.blocks, id ∈ s.heap.live) :
    enaRssFini s = .ok ((), ⟨s.heap.without s.data.rss.blocks, s.data.withRss .null⟩) := by
  unfold enaRssFini
  rw [run_bind, run_get, ok_bind, run_bind, releaseAll_run nodup live]
  rfl

def RssMem.Spans (rss : RssMem) (first count : Nat) : Prop :=
  rss.blocks.Nodup ∧ ∀ id, id ∈ rss.blocks ↔ first ≤ id ∧ id < first + count

theorem allocRssTable_fails (spans : rss.Spans h.asked count) (store : Nat → RssMem → RssMem)
    (refused : fails (h.asked + count) = true) :
    allocRssTable fails store ⟨h.take count, m.withRss rss⟩ =
      .ok (false, ⟨h.skip (count + 1), m.withRss .null⟩) := by
  have live : ∀ id ∈ rss.blocks, id ∈ ((h.take count).skip 1).live := by
    intro id member
    rw [Heap.skip_live, Heap.mem_take]
    exact .inr ((spans.2 id).mp member)
  unfold allocRssTable
  rw [run_bind, alloc_fails refused, ok_bind]
  dsimp only
  rw [run_bind, enaRssFini_run spans.1 live, ok_bind]
  dsimp only
  change Except.ok (false, (⟨((h.take count).skip 1).without rss.blocks, _⟩ : Held Ledger)) = _
  rw [Heap.take_without h spans.2]
  rfl

theorem allocRssTable_gives (store : Nat → RssMem → RssMem)
    (given : fails (h.asked + count) = false) :
    allocRssTable fails store ⟨h.take count, m.withRss rss⟩ =
      .ok (true, ⟨h.take (count + 1), m.withRss (store (h.asked + count) rss)⟩) := by
  unfold allocRssTable
  rw [run_bind, alloc_gives given, ok_bind, Heap.take_take]
  rfl

end Tables

/-- What `ena_rss_init` comes to. -/
inductive Scaled (fails : Nat → Bool) (s : Held Ledger)
    (outcome : Except HeapFault (Int × Held Ledger)) : Prop where
  | untouched (ret : Int) (result : outcome = .ok (ret, s))
  | failed (k : Nat) (refused : fails (s.heap.asked + k) = true)
      (result : outcome = .ok (-ENOMEM, ⟨s.heap.skip (k + 1), s.data.withRss .null⟩))
  | complete (count : Nat) (given : ∀ i, i < count → fails (s.heap.asked + i) = false)
      (rss : RssMem) (whole : rss.Whole) (spans : rss.Spans s.heap.asked count)
      (result : outcome = .ok (0, ⟨s.heap.take count, s.data.withRss rss⟩))

theorem allocRssTable_optional {h : Heap} {m : Ledger} {rss : RssMem} {count : Nat}
    (spans : rss.Spans h.asked count) (wanted : Bool) (store : Nat → RssMem → RssMem)
    (grows : (store (h.asked + count) rss).Spans h.asked (count + 1)) :
    (fails (h.asked + count) = true ∧
      onlyIf (wanted = true) true (allocRssTable fails store) ⟨h.take count, m.withRss rss⟩ =
        .ok (false, ⟨h.skip (count + 1), m.withRss .null⟩)) ∨
    ∃ more next, next.Spans h.asked more ∧
      (next = rss ∧ more = count ∨ next = store (h.asked + count) rss ∧ more = count + 1) ∧
      (∀ i, count ≤ i → i < more → fails (h.asked + i) = false) ∧
      onlyIf (wanted = true) true (allocRssTable fails store) ⟨h.take count, m.withRss rss⟩ =
        .ok (true, ⟨h.take more, m.withRss next⟩) := by
  rw [run_onlyIf]
  cases wanted with
  | false =>
    refine .inr ⟨count, rss, spans, .inl ⟨rfl, rfl⟩, fun i late early => ?_, rfl⟩
    exact absurd late (Nat.not_le_of_lt early)
  | true =>
    rw [if_pos rfl]
    cases asked : fails (h.asked + count) with
    | true => exact .inl ⟨rfl, allocRssTable_fails spans store asked⟩
    | false =>
      refine .inr ⟨count + 1, _, grows, .inr ⟨rfl, rfl⟩, fun i late early => ?_,
        allocRssTable_gives store asked⟩
      have here : i = count := by omega
      exact here ▸ asked

def RssMem.base (first : Nat) : RssMem := ⟨some first, some (first + 1), none, none⟩

/-- What the requests for the hash tables come to, after the two that were served. -/
theorem allocHashTables_scaled {h : Heap} {m : Ledger} (features : RssFeatures)
    (given : ∀ i, i < 2 → fails (h.asked + i) = false) :
    Scaled fails ⟨h, m⟩ (allocHashTables fails features ⟨h.take 2, m.withRss (.base h.asked)⟩) := by
  have two : (RssMem.base h.asked).Spans h.asked 2 := by
    unfold RssMem.Spans RssMem.base RssMem.blocks
    simp
    omega
  have three : ({ RssMem.base h.asked with hashKey := some (h.asked + 2) } : RssMem).Spans
      h.asked 3 := by
    unfold RssMem.Spans RssMem.base RssMem.blocks
    simp
    omega
  unfold allocHashTables
  rw [run_bind]
  rcases allocRssTable_optional two features.hashFunction
    (fun addr rss => { rss with hashKey := some addr }) three with ⟨refused, ran⟩ | found
  · rw [ran]
    exact .failed 2 refused rfl
  obtain ⟨more, rss, spans, which, served, ran⟩ := found
  have grows : ({ rss with hashCtrl := some (h.asked + more) } : RssMem).Spans
      h.asked (more + 1) := by
    rcases which with ⟨rfl, rfl⟩ | ⟨rfl, rfl⟩ <;>
    · unfold RssMem.Spans RssMem.base RssMem.blocks
      simp
      omega
  have tables : rss.hostIndTable.isSome = true ∧ rss.indTable.isSome = true := by
    rcases which with ⟨rfl, rfl⟩ | ⟨rfl, rfl⟩ <;> exact ⟨rfl, rfl⟩
  have early : ∀ i, i < more → fails (h.asked + i) = false := by
    intro i below
    by_cases base : i < 2
    · exact given i base
    · exact served i (Nat.le_of_not_lt base) below
  rw [ran, ok_bind]
  dsimp only
  rw [if_neg Bool.noConfusion, run_bind]
  rcases allocRssTable_optional spans features.hashInput
    (fun addr rss => { rss with hashCtrl := some addr }) grows with ⟨refused, again⟩ | last
  · rw [again]
    exact .failed more refused rfl
  obtain ⟨total, all, covers, which, rest, again⟩ := last
  rw [again]
  refine .complete total (fun i below => ?_) all (.inr ?_) covers rfl
  · by_cases base : i < more
    · exact early i base
    · exact rest i (Nat.le_of_not_lt base) below
  · rcases which with ⟨rfl, rfl⟩ | ⟨rfl, rfl⟩ <;> exact tables

theorem enaRssInit_scaled (fails : Nat → Bool) {s : Held Ledger} (whole : s.data.rss.Whole)
    (features : RssFeatures) : Scaled fails s (enaRssInit fails features s) := by
  unfold enaRssInit
  by_cases unsupported : features.indirectionTable = false
  · rw [if_pos unsupported]
    exact .untouched _ rfl
  rw [if_neg unsupported, run_bind, run_get, ok_bind]
  dsimp only
  rw [run_ite]
  by_cases there : s.data.rss.hostIndTable.isSome = true ∧ s.data.rss.indTable.isSome = true
  · rw [if_pos there]
    exact .untouched 0 rfl
  rw [if_neg there, run_bind]
  have null : s.data.rss = .null := whole.resolve_right there
  have self : s.data = s.data.withRss .null := by
    unfold Ledger.withRss
    rw [← null]
  cases first : fails s.heap.asked with
  | true =>
    refine .failed 0 first ?_
    rw [alloc_fails first, ok_bind, ← self]
    rfl
  | false =>
    rw [alloc_gives first, ok_bind]
    dsimp only
    rw [run_bind]
    unfold onRss
    rw [update_run, ok_bind, run_bind]
    cases second : fails (s.heap.asked + 1) with
    | true =>
      have member : s.heap.asked ∈ ((s.heap.take 1).skip 1).live := by
        rw [Heap.skip_live, Heap.mem_take]
        omega
      have only : ∀ id, id ∈ [s.heap.asked] ↔
          s.heap.asked ≤ id ∧ id < s.heap.asked + 1 := by
        intro id
        rw [List.mem_singleton]
        omega
      refine .failed 1 second ?_
      rw [alloc_fails second, ok_bind]
      dsimp only
      rw [run_bind, release_run member, ok_bind, run_bind, update_run, ok_bind, run_pure]
      dsimp only
      rw [Heap.take_without _ only, null]
      rfl
    | false =>
      have given : ∀ i, i < 2 → fails (s.heap.asked + i) = false := by
        intro i early
        have which : i = 0 ∨ i = 1 := by omega
        rcases which with rfl | rfl
        · exact first
        · exact second
      rw [alloc_gives second, ok_bind]
      dsimp only
      rw [run_bind, update_run, ok_bind, Heap.take_take]
      dsimp only
      rw [null]
      exact allocHashTables_scaled features given

/-! ## The netdev -/

section Netdev

variable {s : Held Ledger}

theorem useNetdev_run (present : s.data.freed = false) : useNetdev s = .ok ((), s) := by
  simp [useNetdev, present]

/-- A call on the netdev that returns has found it. -/
theorem netdev_used {α : Type} {next : Unit → HeapProg Ledger α} {out : α × Held Ledger}
    (ran : (useNetdev >>= next) s = .ok out) : s.data.freed = false := by
  obtain ⟨_, used, _⟩ := bind_ok ran
  cases gone : s.data.freed with
  | false => rfl
  | true => simp [useNetdev, gone] at used

end Netdev

/-! ## Sound drivers -/

/-- Every block has one owner, and the scaling tables are complete. -/
structure Sound (s : Held Ledger) : Prop where
  tidy : Tidy s.data.owned s.heap
  whole : s.data.rss.Whole

/-! ## Configuration -/

section Queue

variable {m : Ledger} {side : RingType} {q : Nat}

theorem owned_settled_slot (ring : Option RingMem) (queue : QueueMem) :
    (m.settled side q ring queue).owned (.slot side q) = (ring.map RingMem.blocks).getD [] ∨
      (m.settled side q ring queue).owned (.slot side q) = [] := by
  unfold Ledger.owned
  dsimp only
  rw [Ledger.settled_side]
  change ((((m.side side).withCell q ring).slot q).map RingMem.blocks).getD [] = _ ∨
    ((((m.side side).withCell q ring).slot q).map RingMem.blocks).getD [] = _
  unfold Direction.slot Direction.withCell
  cases (m.side side).rings with
  | none => exact .inr rfl
  | some array =>
    by_cases here : q < array.cells.length
    · exact .inl (by simp [here])
    · exact .inr (by simp [here])

theorem owned_settled_slot_none (queue : QueueMem) :
    (m.settled side q none queue).owned (.slot side q) = [] := by
  rcases owned_settled_slot none queue with empty | empty
  · exact empty
  · exact empty

theorem tidy_cleared {h : Heap} (tidy : Tidy m.owned h) (empty : queue.bounce = []) :
    Tidy (m.settled side q none queue).owned
      (h.without (m.owned (.slot side q) ++ m.owned (.bounce side q))) := by
  have ring : Tidy (m.settled side q none ((m.side side).queues q)).owned
      (h.without (m.owned (.slot side q))) := by
    refine tidy.release (.slot side q) (owned_settled_slot_none _) fun other apart => ?_
    by_cases here : other = .bounce side q
    · rw [here, Ledger.owned_settled_bounce]
      rfl
    · exact Ledger.owned_settled_other apart here
  have others : ∀ other, other ≠ .bounce side q → (m.settled side q none queue).owned other =
      (m.settled side q none ((m.side side).queues q)).owned other := by
    intro other apart
    by_cases here : other = .slot side q
    · rw [here, owned_settled_slot_none, owned_settled_slot_none]
    · rw [Ledger.owned_settled_other here apart, Ledger.owned_settled_other here apart]
  have pool := ring.release (.bounce side q) (Ledger.owned_settled_bounce.trans empty) others
  rw [Ledger.owned_settled_bounce, Heap.without_without] at pool
  exact pool

theorem tidy_filled {h : Heap} (tidy : Tidy (m.settled side q none queue).owned h) :
    Tidy (m.settled side q (some (ringAt side h.asked))
        (withPool (ringAt side h.asked) (h.asked + side.allocations))).owned
      (h.take (side.allocations + 3)) := by
  have ring : Tidy (m.settled side q (some (ringAt side h.asked)) queue).owned
      (h.take side.allocations) := by
    have either := @owned_settled_slot m side q (some (ringAt side h.asked)) queue
    refine tidy.acquire (.slot side q) ?_ ?_ fun other apart => ?_
    · rcases either with whole | none
      · rw [whole]
        exact ringAt_blocks_nodup side h.asked
      · rw [none]
        exact List.nodup_nil
    · intro id member
      rcases either with whole | none
      · rw [whole] at member
        exact mem_ringAt_blocks.mp member
      · rw [none] at member
        exact absurd member List.not_mem_nil
    · by_cases here : other = .bounce side q
      · rw [here, Ledger.owned_settled_bounce, Ledger.owned_settled_bounce]
      · rw [Ledger.owned_settled_other apart here, Ledger.owned_settled_other apart here]
  rw [← Heap.take_take]
  refine ring.acquire (.bounce side q) ?_ ?_ fun other apart => ?_
  · rw [Ledger.owned_settled_bounce]
    simp [withPool, QueueMem.bounce]
  · intro id member
    rw [Ledger.owned_settled_bounce] at member
    simp only [withPool, QueueMem.bounce, Option.toList, List.cons_append, List.nil_append,
      List.mem_cons, List.not_mem_nil, or_false] at member
    rw [Heap.take_asked]
    omega
  · by_cases here : other = .slot side q
    · subst here
      unfold Ledger.owned
      dsimp only
      rw [Ledger.settled_side, Ledger.settled_side]
      rfl
    · rw [Ledger.owned_settled_other here apart, Ledger.owned_settled_other here apart]

end Queue

section Preserved

variable {fails : Nat → Bool} {s : Held Ledger} {side : RingType} {q : Nat}

/-- Whatever an accepted configuration of a queue comes to, the driver stays sound. -/
theorem Configured.sound {ret : Int} (sound : Sound s)
    (configured : Configured fails s side q (.ok (ret, after))) : Sound after := by
  cases configured with
  | noRing k early refused result =>
    cases result
    exact ⟨(tidy_cleared sound.tidy rfl).skip _, sound.whole⟩
  | pooled given rest =>
    cases rest with
    | failed k early refused result =>
      cases result
      exact ⟨(tidy_cleared sound.tidy rfl).skip _, sound.whole⟩
    | complete served result =>
      cases result
      exact ⟨tidy_filled (tidy_cleared sound.tidy rfl : Tidy
        (s.data.settled side q none (withRing (ringAt side s.heap.asked))).owned _), sound.whole⟩

theorem configureQueue_outside (outside : ¬(s.data.side side).Fits q) (nbDesc : Nat) :
    configureQueue fails side q nbDesc s = .error (.badAccess q) := by
  unfold configureQueue freeCell
  rw [run_bind, run_get, ok_bind, run_bind, run_bind, cell_outside outside]
  rfl

theorem configureQueue_sound {nbDesc : Nat} {ret : Int} (sound : Sound s)
    (ran : configureQueue fails side q nbDesc s = .ok (ret, after)) : Sound after := by
  by_cases fits : (s.data.side side).Fits q
  · have configured := configureQueue_configured fails sound.tidy fits nbDesc
    rw [ran] at configured
    exact configured.sound sound
  · rw [configureQueue_outside fits] at ran
    cases ran

end Preserved

/-! ## Steps that leave rings alone -/

def SameRings (before after : Held Ledger) : Prop :=
  ∀ side q, (after.data.side side).slot q = (before.data.side side).slot q ∧
    ((after.data.side side).queues q).ring = ((before.data.side side).queues q).ring

theorem SameRings.refl (s : Held Ledger) : SameRings s s := fun _ _ => ⟨rfl, rfl⟩

theorem SameRings.trans (first second third : Held Ledger) (one : SameRings first second)
    (two : SameRings second third) : SameRings first third :=
  fun side q => ⟨(two side q).1.trans (one side q).1, (two side q).2.trans (one side q).2⟩

section Arrays

variable {fails : Nat → Bool}

/-- A direction whose cells and pools stay as they are owns what it has owned, its
array apart. -/
theorem owned_onSide {m : Ledger} {side : RingType} {change : Direction → Direction}
    (slots : ∀ q, (change (m.side side)).slot q = (m.side side).slot q)
    (queues : (change (m.side side)).queues = (m.side side).queues) (owner : Owner)
    (apart : owner ≠ .array side) : (m.onSide side change).owned owner = m.owned owner := by
  cases owner with
  | array other =>
    have away : other ≠ side := fun same => apart (same ▸ rfl)
    unfold Ledger.owned
    dsimp only
    rw [Ledger.onSide_other away]
  | slot other q =>
    unfold Ledger.owned
    dsimp only
    by_cases here : other = side
    · rw [here, Ledger.onSide_self, slots]
    · rw [Ledger.onSide_other here]
  | bounce other q =>
    unfold Ledger.owned
    dsimp only
    by_cases here : other = side
    · rw [here, Ledger.onSide_self, queues]
    · rw [Ledger.onSide_other here]
  | rss => rfl

theorem sameRings_onSide {m : Ledger} {side : RingType} {change : Direction → Direction}
    (slots : ∀ q, (change (m.side side)).slot q = (m.side side).slot q)
    (queues : (change (m.side side)).queues = (m.side side).queues) (before after : Heap) :
    SameRings ⟨before, m⟩ ⟨after, m.onSide side change⟩ := by
  intro other q
  dsimp only
  by_cases here : other = side
  · rw [here, Ledger.onSide_self, slots, queues]
    exact ⟨rfl, rfl⟩
  · rw [Ledger.onSide_other here]
    exact ⟨rfl, rfl⟩

theorem slot_newArray {d : Direction} (absent : d.rings = none) (addr count q : Nat) :
    ({ d with rings := some ⟨addr, List.replicate count none⟩ } : Direction).slot q = d.slot q := by
  unfold Direction.slot
  rw [absent]
  by_cases here : q < count
  · simp [here]
  · simp [here]

theorem allocRingArray_keeps (side : RingType) (count : Nat) :
    Keeps Sound SameRings (allocRingArray fails side count) := by
  intro s sound
  unfold allocRingArray
  refine Returns.after (run_get s) ?_
  cases present : (s.data.side side).rings with
  | some array => exact Returns.pure ⟨sound, SameRings.refl s⟩
  | none =>
    rw [if_neg (by decide)]
    cases asked : fails s.heap.asked with
    | true =>
      refine Returns.after (alloc_fails asked) (Returns.pure ⟨?_, SameRings.refl s⟩)
      exact ⟨sound.tidy.skip 1, sound.whole⟩
    | false =>
      have slots := slot_newArray present s.heap.asked count
      refine Returns.after (alloc_gives asked) ?_
      refine Returns.after (update_run _ _) (Returns.pure ⟨⟨?_, ?_⟩, ?_⟩)
      · dsimp only
        refine sound.tidy.acquire (.array side) ?_ ?_ (owned_onSide slots rfl)
        · unfold Ledger.owned
          simp
        · unfold Ledger.owned
          simp
      · exact sound.whole
      · exact sameRings_onSide slots rfl _ _

/-- Another number of rings changes no pointer. -/
theorem numRings_keeps (side : RingType) (count : Nat) :
    Keeps Sound SameRings (update fun m => m.onSide side fun d => { d with numRings := count }) := by
  refine Keeps.update fun s sound => ⟨⟨?_, sound.whole⟩, sameRings_onSide (fun _ => rfl) rfl _ _⟩
  refine sound.tidy.forget fun owner => .inl ?_
  dsimp only
  by_cases here : owner = .array side
  · subst here
    unfold Ledger.owned
    dsimp only
    rw [Ledger.onSide_self]
  · exact owned_onSide (fun _ => rfl) rfl owner here

theorem enaNetdevAllocRingArrays_keeps (nbRxQueues nbTxQueues : Nat) :
    Keeps Sound SameRings (enaNetdevAllocRingArrays fails nbRxQueues nbTxQueues) := by
  unfold enaNetdevAllocRingArrays
  refine Keeps.bind SameRings.trans (allocRingArray_keeps .rx nbRxQueues) fun rx => ?_
  refine Keeps.ite (Keeps.pure SameRings.refl _) ?_
  refine Keeps.bind SameRings.trans (numRings_keeps .rx nbRxQueues) fun _ => ?_
  refine Keeps.bind SameRings.trans (allocRingArray_keeps .tx nbTxQueues) fun tx => ?_
  refine Keeps.ite (Keeps.pure SameRings.refl _) ?_
  refine Keeps.bind SameRings.trans (numRings_keeps .tx nbTxQueues) fun _ => ?_
  exact Keeps.pure SameRings.refl _

theorem withCounts_keeps (build : Build) (nbRxQueues nbTxQueues : Nat) :
    Keeps Sound SameRings (update fun m => m.withCounts nbRxQueues nbTxQueues build) := by
  cases build with
  | host => exact Keeps.update fun s sound => ⟨⟨sound.tidy, sound.whole⟩, SameRings.refl s⟩
  | unikraft options => exact Keeps.update fun s sound => ⟨sound, SameRings.refl s⟩

theorem enaNetdevConfigure_returns {s : Held Ledger} (sound : Sound s)
    (present : s.data.freed = false) (build : Build) (running : Bool) (nbRxQueues nbTxQueues : Nat) :
    Returns (enaNetdevConfigure fails build running nbRxQueues nbTxQueues) s fun _ after =>
      Sound after ∧ SameRings s after := by
  refine Returns.after (useNetdev_run present) ((?_ : Keeps Sound SameRings _) s sound)
  refine Keeps.bind SameRings.trans (Keeps.get SameRings.refl) fun s => ?_
  refine Keeps.ite (Keeps.pure SameRings.refl _) ?_
  refine Keeps.ite (Keeps.pure SameRings.refl _) ?_
  refine Keeps.ite (Keeps.pure SameRings.refl _) ?_
  refine Keeps.bind SameRings.trans (enaNetdevAllocRingArrays_keeps _ _) fun ret => ?_
  refine Keeps.ite (Keeps.pure SameRings.refl _) ?_
  refine Keeps.bind SameRings.trans (withCounts_keeps build _ _) fun _ => ?_
  exact Keeps.pure SameRings.refl _

end Arrays

theorem owned_withRss {m : Ledger} {rss : RssMem} {owner : Owner} (apart : owner ≠ .rss) :
    (m.withRss rss).owned owner = m.owned owner := by
  cases owner with
  | array side => rfl
  | slot side q => rfl
  | bounce side q => rfl
  | rss => exact absurd rfl apart

theorem enaRssInit_keeps (fails : Nat → Bool) (features : RssFeatures) :
    Keeps Sound SameRings (enaRssInit fails features) := by
  intro s sound
  cases enaRssInit_scaled fails sound.whole features with
  | untouched ret result => exact ⟨ret, s, result, sound, SameRings.refl s⟩
  | failed k refused result =>
    refine ⟨_, _, result, ⟨?_, .inl rfl⟩, fun _ _ => ⟨rfl, rfl⟩⟩
    refine (sound.tidy.skip _).forget fun owner => ?_
    by_cases here : owner = .rss
    · exact .inr (here ▸ rfl)
    · exact .inl (owned_withRss here)
  | complete count given rss whole spans result =>
    refine ⟨_, _, result, ⟨?_, whole⟩, fun _ _ => ⟨rfl, rfl⟩⟩
    exact sound.tidy.acquire .rss spans.1 (fun id member => (spans.2 id).mp member)
      fun other apart => owned_withRss apart

/-! ## Teardown -/

/-- Where the array of a direction is, how long it is, and up to which index its
rings are freed. -/
def Ledger.extent (m : Ledger) (side : RingType) : Option (Nat × Nat) × Nat :=
  ((m.side side).rings.map fun array => (array.addr, array.cells.length),
    if (m.side side).numRings = 0 then m.maxQueues side else (m.side side).numRings)

/-- The loop over the array of a direction stays inside it. -/
def Ledger.Bounded (m : Ledger) (side : RingType) : Prop :=
  ∀ array, (m.side side).rings = some array → (m.extent side).2 ≤ array.cells.length

def Ledger.pointer (m : Ledger) (side : RingType) (q : Nat) : Option RingMem :=
  ((m.side side).queues q).ring

def SameExtent (before after : Held Ledger) : Prop :=
  after.data.extent = before.data.extent ∧ after.data.pointer = before.data.pointer

theorem SameExtent.refl (s : Held Ledger) : SameExtent s s := ⟨rfl, rfl⟩

theorem SameExtent.trans (first second third : Held Ledger) (one : SameExtent first second)
    (two : SameExtent second third) : SameExtent first third :=
  ⟨two.1.trans one.1, two.2.trans one.2⟩

section Extent

variable {m other : Ledger} {side : RingType} {q : Nat}

theorem fits_iff_extent :
    (m.side side).Fits q ↔ ∀ addr length, (m.extent side).1 = some (addr, length) → q < length := by
  unfold Direction.Fits Ledger.extent
  constructor
  · intro fits addr length found
    obtain ⟨array, stored, same⟩ := Option.map_eq_some_iff.mp found
    cases same
    exact fits array stored
  · intro each array stored
    exact each array.addr array.cells.length (by rw [stored]; rfl)

theorem fits_congr (same : other.extent = m.extent) :
    (other.side side).Fits q ↔ (m.side side).Fits q := by
  rw [fits_iff_extent, fits_iff_extent, same]

theorem bounded_iff_fits : m.Bounded side ↔ ∀ q, q < (m.extent side).2 → (m.side side).Fits q := by
  constructor
  · intro bounded q early array stored
    exact Nat.lt_of_lt_of_le early (bounded array stored)
  · intro fits array stored
    by_contra beyond
    have early := Nat.lt_of_not_le beyond
    exact absurd (fits _ early array stored) (Nat.lt_irrefl _)

theorem bounded_congr (same : other.extent side = m.extent side) :
    other.Bounded side ↔ m.Bounded side := by
  rw [bounded_iff_fits, bounded_iff_fits, same]
  constructor
  · intro each q early
    rw [fits_iff_extent, ← same, ← fits_iff_extent]
    exact each q early
  · intro each q early
    rw [fits_iff_extent, same, ← fits_iff_extent]
    exact each q early

/-- A queue that keeps its pointer leaves the extents alone. -/
theorem sameExtent_settled (ring : Option RingMem)
    (kept : queue.ring = ((m.side side).queues q).ring) (before after : Heap) :
    SameExtent ⟨before, m⟩ ⟨after, m.settled side q ring queue⟩ := by
  constructor
  · funext other
    unfold Ledger.extent
    dsimp only
    by_cases here : other = side
    · subst here
      rw [Ledger.settled_side]
      unfold Direction.withQueue Direction.withCell
      dsimp only
      rw [Option.map_map]
      simp [Function.comp_def]
      rfl
    · rw [Ledger.settled_other here]
      rfl
  · funext other p
    unfold Ledger.pointer
    dsimp only
    by_cases here : other = side
    · subst here
      by_cases this : p = q
      · rw [this, Ledger.settled_queue, kept]
      · rw [Ledger.settled_queue_other this]
    · rw [Ledger.settled_other here]

end Extent

section Release

variable {s : Held Ledger} {side : RingType}

theorem freeBounce_keeps (side : RingType) (q : Nat) :
    Keeps Sound SameExtent (freeBounce side q) := by
  intro s sound
  have run := freeBounce_run (sound.tidy.nodup (.bounce side q)) (sound.tidy.live (.bounce side q))
  refine ⟨(), _, run, ⟨?_, sound.whole⟩, ?_, ?_⟩
  · refine sound.tidy.release (.bounce side q) ?_ fun other apart => ?_
    · unfold Ledger.owned Direction.withQueue
      simp [QueueMem.clearBounce, QueueMem.bounce]
    cases other with
    | array other =>
      unfold Ledger.owned
      dsimp only
      by_cases here : other = side
      · rw [here, Ledger.onSide_self]
        rfl
      · rw [Ledger.onSide_other here]
    | slot other p =>
      unfold Ledger.owned
      dsimp only
      by_cases here : other = side
      · rw [here, Ledger.onSide_self]
        rfl
      · rw [Ledger.onSide_other here]
    | bounce other p =>
      unfold Ledger.owned
      dsimp only
      by_cases here : other = side
      · have away : p ≠ q := fun same => apart (here ▸ same ▸ rfl)
        rw [here, Ledger.onSide_self]
        unfold Direction.withQueue
        dsimp only
        rw [Function.update_of_ne away]
      · rw [Ledger.onSide_other here]
    | rss => rfl
  · funext other
    unfold Ledger.extent
    dsimp only
    by_cases here : other = side
    · rw [here, Ledger.onSide_self]
      rfl
    · rw [Ledger.onSide_other here]
      rfl
  · funext other p
    unfold Ledger.pointer
    dsimp only
    by_cases here : other = side
    · rw [here, Ledger.onSide_self]
      unfold Direction.withQueue
      dsimp only
      by_cases this : p = q
      · rw [this, Function.update_self]
        rfl
      · rw [Function.update_of_ne this]
    · rw [Ledger.onSide_other here]

theorem freeBounces_keeps (limit : Nat) :
    Keeps Sound SameExtent ((List.range limit).forM fun q => do
      freeBounce .rx q
      freeBounce .tx q) := by
  refine (Keeps.composes SameExtent.refl SameExtent.trans).forM fun q _ => ?_
  exact Keeps.bind SameExtent.trans (freeBounce_keeps .rx q) fun _ => freeBounce_keeps .tx q

/-- One cell of an array that reaches so far. -/
theorem freeCell_returns {q : Nat} (sound : Sound s) (fits : (s.data.side side).Fits q) :
    Returns (freeCell side q) s fun _ after => Sound after ∧ SameExtent s after := by
  refine ⟨(), _, freeCell_run sound.tidy fits, ⟨?_, sound.whole⟩, sameExtent_settled none rfl _ _⟩
  refine sound.tidy.release (.slot side q) (owned_settled_slot_none _) fun other apart => ?_
  dsimp only
  by_cases here : other = .bounce side q
  · rw [here, Ledger.owned_settled_bounce]
    rfl
  · exact Ledger.owned_settled_other apart here

theorem freeCell_outside {q : Nat} (outside : ¬(s.data.side side).Fits q) :
    freeCell side q s = .error (.badAccess q) := by
  unfold freeCell
  rw [run_bind, cell_outside outside]
  rfl

/-- The loop over cells returns exactly when the array reaches far enough. -/
theorem freeCells_returns {qs : List Nat} (sound : Sound s)
    (fits : ∀ q ∈ qs, (s.data.side side).Fits q) :
    Returns (qs.forM (freeCell side)) s fun _ after => Sound after ∧ SameExtent s after := by
  induction qs generalizing s with
  | nil => exact Returns.pure ⟨sound, SameExtent.refl s⟩
  | cons q qs ih =>
    have step : (q :: qs).forM (freeCell side) = (do freeCell side q; qs.forM (freeCell side)) := rfl
    rw [step]
    refine (freeCell_returns sound (fits q List.mem_cons_self)).bind fun _ middle kept => ?_
    have still : ∀ p ∈ qs, (middle.data.side side).Fits p := fun p member =>
      (fits_congr kept.2.1).mpr (fits p (List.mem_cons_of_mem q member))
    refine (ih kept.1 still).mono fun _ last rest => ?_
    exact ⟨rest.1, SameExtent.trans _ _ _ kept.2 rest.2⟩

theorem freeCells_fits {qs : List Nat} {out : PUnit × Held Ledger} (sound : Sound s)
    (ran : qs.forM (freeCell side) s = .ok out) : ∀ q ∈ qs, (s.data.side side).Fits q := by
  induction qs generalizing s with
  | nil =>
    intro q member
    exact absurd member List.not_mem_nil
  | cons q qs ih =>
    have step : (q :: qs).forM (freeCell side) = (do freeCell side q; qs.forM (freeCell side)) := rfl
    rw [step, run_bind] at ran
    by_cases fits : (s.data.side side).Fits q
    · obtain ⟨_, middle, began, kept, same⟩ := freeCell_returns sound fits
      rw [began, ok_bind] at ran
      exact List.forall_mem_cons.mpr
        ⟨fits, fun p later => (fits_congr same.1).mp (ih kept ran p later)⟩
    · rw [freeCell_outside fits] at ran
      cases ran

end Release

structure Cleaned (side : RingType) (before after : Held Ledger) : Prop where
  gone : (after.data.side side).rings = none
  others : ∀ other, other ≠ side → after.data.extent other = before.data.extent other
  pointers : after.data.pointer = before.data.pointer

section Cleanup

variable {s : Held Ledger} {side : RingType}

/-- The array goes, and with it what was known about rings behind the bound. -/
theorem releaseArray_returns {array : RingArray} (sound : Sound s)
    (stored : (s.data.side side).rings = some array) :
    Returns (do
      release array.addr
      update fun m => m.onSide side fun d => { d with rings := none, numRings := 0 })
      s fun _ after => Sound after ∧ Cleaned side s after := by
  have owns : s.data.owned (.array side) = [array.addr] := by
    unfold Ledger.owned
    dsimp only
    rw [stored]
    rfl
  have live : array.addr ∈ s.heap.live :=
    sound.tidy.live (.array side) _ (owns ▸ List.mem_singleton_self _)
  have released : Tidy (Function.update s.data.owned (.array side) [])
      (s.heap.without (s.data.owned (.array side))) :=
    sound.tidy.release (.array side) (Function.update_self ..)
      fun other apart => Function.update_of_ne apart ..
  rw [owns] at released
  refine Returns.after (release_run live) ⟨(), _, update_run _ _, ⟨?_, sound.whole⟩, ?_, ?_, ?_⟩
  · refine released.forget fun owner => ?_
    dsimp only
    cases owner with
    | array other =>
      by_cases here : other = side
      · right
        unfold Ledger.owned
        dsimp only
        rw [here, Ledger.onSide_self]
        rfl
      · left
        have apart : Owner.array other ≠ .array side := fun same => here (by cases same; rfl)
        rw [Function.update_of_ne apart]
        unfold Ledger.owned
        dsimp only
        rw [Ledger.onSide_other here]
    | slot other q =>
      by_cases here : other = side
      · right
        unfold Ledger.owned
        dsimp only
        rw [here, Ledger.onSide_self]
        rfl
      · left
        rw [Function.update_of_ne (by simp)]
        unfold Ledger.owned
        dsimp only
        rw [Ledger.onSide_other here]
    | bounce other q =>
      left
      rw [Function.update_of_ne (by simp)]
      unfold Ledger.owned
      dsimp only
      by_cases here : other = side
      · rw [here, Ledger.onSide_self]
      · rw [Ledger.onSide_other here]
    | rss =>
      left
      rw [Function.update_of_ne (by simp)]
      rfl
  · dsimp only
    rw [Ledger.onSide_self]
  · intro other apart
    unfold Ledger.extent
    dsimp only
    rw [Ledger.onSide_other apart]
    rfl
  · funext other q
    unfold Ledger.pointer
    dsimp only
    by_cases here : other = side
    · rw [here, Ledger.onSide_self]
    · rw [Ledger.onSide_other here]

theorem cleanupRings_returns (sound : Sound s) (bounded : s.data.Bounded side) :
    Returns (cleanupRings side) s fun _ after => Sound after ∧ Cleaned side s after := by
  unfold cleanupRings
  refine Returns.after (run_get s) ?_
  dsimp only
  cases stored : (s.data.side side).rings with
  | none => exact Returns.pure ⟨sound, stored, fun _ _ => rfl, rfl⟩
  | some array =>
    dsimp only
    have fits : ∀ q ∈ List.range (s.data.extent side).2, (s.data.side side).Fits q :=
      fun q member => bounded_iff_fits.mp bounded q (List.mem_range.mp member)
    refine (freeCells_returns sound fits).bind fun _ middle kept => ?_
    have there : (middle.data.extent side).1 = some (array.addr, array.cells.length) := by
      rw [kept.2.1]
      unfold Ledger.extent
      rw [stored]
      rfl
    obtain ⟨later, held, same⟩ := Option.map_eq_some_iff.mp there
    have addr : later.addr = array.addr := (Prod.mk.inj same).1
    rw [← addr]
    refine (releaseArray_returns kept.1 held).mono fun _ last rest => ⟨rest.1, rest.2.gone, ?_, ?_⟩
    · intro other apart
      rw [rest.2.others other apart, kept.2.1]
    · rw [rest.2.pointers, kept.2.2]

theorem cleanupRings_bounded {out : Unit × Held Ledger} (sound : Sound s)
    (ran : cleanupRings side s = .ok out) : s.data.Bounded side := by
  unfold cleanupRings at ran
  rw [run_bind, run_get, ok_bind] at ran
  dsimp only at ran
  intro array stored
  rw [stored] at ran
  dsimp only at ran
  rw [run_bind] at ran
  obtain ⟨middle, began, -⟩ := bind_ok ran
  have fits := freeCells_fits sound began
  refine bounded_iff_fits.mpr (fun q early => fits q (List.mem_range.mpr early)) array stored

end Cleanup

/-- The pointers of the queues after a teardown: the host build frees the queues. -/
def pointersLeft : Build → Ledger → RingType → Nat → Option RingMem
  | .host, _ => fun _ _ => none
  | .unikraft _, m => m.pointer

section Teardown

variable {s : Held Ledger} {build : Build}

theorem enaRssFini_returns (sound : Sound s) :
    Returns enaRssFini s fun _ after => Sound after ∧ after.data.side = s.data.side := by
  refine ⟨(), _, enaRssFini_run (sound.tidy.nodup .rss) (sound.tidy.live .rss), ⟨?_, .inl rfl⟩, rfl⟩
  exact sound.tidy.release .rss rfl fun other apart => owned_withRss apart

/-- The end of a teardown: the tables, and in the host build the queues. -/
theorem withoutNetdev_returns (sound : Sound s) (gone : ∀ side, (s.data.side side).rings = none) :
    Returns (do
      onlyIf (Build.hasRss build = true) () enaRssFini
      update fun m => m.withoutNetdev build)
      s fun _ after => Sound after ∧ (∀ side, (after.data.side side).rings = none) ∧
        after.data.pointer = pointersLeft build s.data := by
  have tables : Returns (onlyIf (Build.hasRss build = true) () enaRssFini) s
      fun _ after => Sound after ∧ after.data.side = s.data.side := by
    unfold onlyIf
    split
    · exact enaRssFini_returns sound
    · exact Returns.pure ⟨sound, rfl⟩
  refine tables.bind fun _ middle kept => ⟨(), _, update_run _ _, ?_⟩
  obtain ⟨still, same⟩ := kept
  cases build with
  | host =>
    refine ⟨⟨still.tidy.forget fun owner => ?_, still.whole⟩, fun side => ?_, rfl⟩
    · cases owner with
      | array side => exact .inl rfl
      | slot side q => exact .inl rfl
      | bounce side q => exact .inr rfl
      | rss => exact .inl rfl
    · unfold Ledger.withoutNetdev
      dsimp only
      rw [same]
      exact gone side
  | unikraft options =>
    refine ⟨still, fun side => ?_, ?_⟩
    · unfold Ledger.withoutNetdev
      dsimp only
      rw [same]
      exact gone side
    · unfold Ledger.withoutNetdev pointersLeft Ledger.pointer
      dsimp only
      rw [same]

theorem enaNetdevTeardown_returns (sound : Sound s) (present : s.data.freed = false)
    (bounded : ∀ side, s.data.Bounded side) :
    Returns (enaNetdevTeardown build) s fun _ after => Sound after ∧
      (∀ side, (after.data.side side).rings = none) ∧
      after.data.pointer = pointersLeft build s.data := by
  refine Returns.after (useNetdev_run present) ?_
  refine Returns.bind (freeBounces_keeps _ s sound) fun _ pools keptPools => ?_
  have rxBounded := (bounded_congr (congrFun keptPools.2.1 .rx)).mpr (bounded .rx)
  refine (cleanupRings_returns keptPools.1 rxBounded).bind fun _ rx keptRx => ?_
  have sameTx : rx.data.extent .tx = s.data.extent .tx := by
    rw [keptRx.2.others .tx (by decide), keptPools.2.1]
  have txBounded := (bounded_congr sameTx).mpr (bounded .tx)
  refine (cleanupRings_returns keptRx.1 txBounded).bind fun _ tx keptTx => ?_
  have gone : ∀ side, (tx.data.side side).rings = none := by
    intro side
    cases side with
    | tx => exact keptTx.2.gone
    | rx =>
      have same := keptTx.2.others .rx (by decide)
      unfold Ledger.extent at same
      rw [keptRx.2.gone] at same
      exact Option.map_eq_none_iff.mp (Prod.mk.inj same).1
  refine (withoutNetdev_returns keptTx.1 gone).mono fun _ after rest => ⟨rest.1, rest.2.1, ?_⟩
  rw [rest.2.2]
  cases build with
  | host => rfl
  | unikraft options =>
    change tx.data.pointer = s.data.pointer
    rw [keptTx.2.pointers, keptRx.2.pointers, keptPools.2.2]

theorem enaNetdevTeardown_bounded {out : Unit × Held Ledger} (sound : Sound s)
    (ran : enaNetdevTeardown build s = .ok out) : ∀ side, s.data.Bounded side := by
  have present := netdev_used ran
  unfold enaNetdevTeardown at ran
  rw [run_bind, useNetdev_run present, ok_bind, run_bind] at ran
  obtain ⟨_, pools, freed, still, kept⟩ := freeBounces_keeps (Build.queueLimit build) s sound
  rw [freed, ok_bind, run_bind] at ran
  obtain ⟨first, began, ran⟩ := bind_ok ran
  have rxBounded := cleanupRings_bounded still began
  obtain ⟨_, rx, cleaned, sound, keptRx⟩ := cleanupRings_returns still rxBounded
  cases began.symm.trans cleaned
  rw [run_bind] at ran
  obtain ⟨second, continued, -⟩ := bind_ok ran
  have txBounded := cleanupRings_bounded sound continued
  intro side
  cases side with
  | rx => exact (bounded_congr (congrFun kept.1 .rx)).mp rxBounded
  | tx =>
    refine (bounded_congr ?_).mp txBounded
    rw [keptRx.others .tx (by decide), kept.1]

end Teardown

/-! ## Runs -/

inductive MemOp where
  | configure (running : Bool) (nbRxQueues nbTxQueues : Nat)
  | queueConfigure (running : Bool) (side : RingType) (queueId nbDesc : Nat)
  | rssInit (features : RssFeatures)
  | teardown
  deriving DecidableEq, Repr

section Steps

variable (fails : Nat → Bool) (build : Build)

def memStep (s : Held Ledger) : MemOp → Except HeapFault (Held Ledger)
  | .configure running nbRx nbTx =>
    (enaNetdevConfigure fails build running nbRx nbTx s).map Prod.snd
  | .queueConfigure running side q nbDesc =>
    (queueConfigure fails build running side q nbDesc s).map Prod.snd
  | .rssInit features => (enaRssInit fails features s).map Prod.snd
  | .teardown => (enaNetdevTeardown build s).map Prod.snd

end Steps

/-- The state after a program that returns. -/
theorem map_snd_ok {α : Type} {outcome : Except HeapFault (α × Held Ledger)}
    (ran : outcome.map Prod.snd = .ok after) : ∃ value, outcome = .ok (value, after) := by
  cases outcome with
  | error fault => cases ran
  | ok out =>
    cases ran
    exact ⟨out.1, rfl⟩

theorem memStep_sound {build : Build} {s : Held Ledger} {op : MemOp} (sound : Sound s)
    (stepped : memStep fails build s op = .ok after) : Sound after := by
  cases op with
  | configure running nbRx nbTx =>
    obtain ⟨_, ran⟩ := map_snd_ok stepped
    obtain ⟨_, other, returned, kept, -⟩ :=
      enaNetdevConfigure_returns sound (netdev_used ran) build running nbRx nbTx
    cases ran.symm.trans returned
    exact kept
  | queueConfigure running side q nbDesc =>
    obtain ⟨ret, ran⟩ := map_snd_ok stepped
    have present := netdev_used ran
    unfold queueConfigure at ran
    rw [run_bind, useNetdev_run present, ok_bind, run_bind, run_get, ok_bind, run_ite] at ran
    split at ran
    · cases ran
      exact sound
    rw [run_ite] at ran
    split at ran
    · cases ran
      exact sound
    · exact configureQueue_sound sound ran
  | rssInit features =>
    obtain ⟨_, ran⟩ := map_snd_ok stepped
    obtain ⟨_, other, returned, kept, -⟩ := enaRssInit_keeps fails features s sound
    cases ran.symm.trans returned
    exact kept
  | teardown =>
    obtain ⟨_, ran⟩ := map_snd_ok stepped
    obtain ⟨_, other, returned, kept, -⟩ :=
      enaNetdevTeardown_returns sound (netdev_used ran) (enaNetdevTeardown_bounded sound ran)
    cases ran.symm.trans returned
    exact kept

def Ledger.fresh (maxQueues maxRingSize : Nat) : Ledger where
  freed := false
  side := fun _ => ⟨none, 0, fun _ => .null⟩
  nbQueues := fun _ => 0
  maxQueues := fun _ => maxQueues
  maxRingSize := fun _ => maxRingSize
  rss := .null

theorem fresh_sound (maxQueues maxRingSize : Nat) :
    Sound ⟨.empty, .fresh maxQueues maxRingSize⟩ := by
  have nothing : ∀ owner, (Ledger.fresh maxQueues maxRingSize).owned owner = [] := by
    intro owner
    cases owner <;> rfl
  refine ⟨⟨fun owner => ?_, fun owner id member => ?_, fun first second id one two => ?_⟩, .inl rfl⟩
  · rw [nothing]
    exact List.nodup_nil
  · rw [nothing] at member
    exact absurd member List.not_mem_nil
  · rw [nothing] at one
    exact absurd one List.not_mem_nil

end EnaDriver.Lifecycle.Memory
