import EnaDriver.Support.Programs
import Mathlib.Order.Interval.Finset.Nat

/-!
# Programs that allocate

Blocks of a heap are named by the number of the request that gave them, so a
name is never given twice and a pointer to a released block stays
recognisable.  Which requests fail is an assumption of a run.  Releasing a block
that is not in use is a fault, and so are an access outside an array and a use of a
structure that was freed.

`Attempted` is the rule for code that makes several requests in a row and takes
back the earlier ones when a later one fails.  `Tidy` says which owner each
block belongs to; releasing and acquiring keep it.
-/

namespace EnaDriver.Support.Allocation

open Support.Programs

variable {count id : Nat} {ids : List Nat}

variable {δ ρ α ο : Type}

/-! ## Heaps -/

/-- The blocks in use, and the number of requests so far. -/
@[ext]
structure Heap where
  live : Finset Nat
  asked : Nat
  fresh : ∀ id ∈ live, id < asked

namespace Heap

def empty : Heap := ⟨∅, 0, fun _ member => absurd member (Finset.notMem_empty _)⟩

def take (h : Heap) (count : Nat) : Heap where
  live := h.live ∪ Finset.Ico h.asked (h.asked + count)
  asked := h.asked + count
  fresh := by
    intro id member
    rcases Finset.mem_union.mp member with old | new
    · exact Nat.lt_add_right count (h.fresh id old)
    · exact (Finset.mem_Ico.mp new).2

def skip (h : Heap) (count : Nat) : Heap where
  live := h.live
  asked := h.asked + count
  fresh := fun id member => Nat.lt_add_right count (h.fresh id member)

def without (h : Heap) (ids : List Nat) : Heap where
  live := h.live \ ids.toFinset
  asked := h.asked
  fresh := fun id member => h.fresh id (Finset.mem_sdiff.mp member).1

section

variable (h : Heap)

@[simp] theorem take_asked (count : Nat) : (h.take count).asked = h.asked + count := rfl

@[simp] theorem skip_live (count : Nat) : (h.skip count).live = h.live := rfl

@[simp] theorem without_asked (ids : List Nat) : (h.without ids).asked = h.asked := rfl

@[simp] theorem without_live (ids : List Nat) :
    (h.without ids).live = h.live \ ids.toFinset := rfl

theorem mem_take :
    id ∈ (h.take count).live ↔ id ∈ h.live ∨ h.asked ≤ id ∧ id < h.asked + count := by
  unfold take
  rw [Finset.mem_union, Finset.mem_Ico]

theorem mem_without :
    id ∈ (h.without ids).live ↔ id ∈ h.live ∧ id ∉ ids := by
  rw [without_live, Finset.mem_sdiff, List.mem_toFinset]

@[simp] theorem take_zero : h.take 0 = h := by
  ext id
  · rw [mem_take]
    grind
  · rfl

@[simp] theorem take_take (first second : Nat) :
    (h.take first).take second = h.take (first + second) := by
  ext id
  · rw [mem_take, mem_take, mem_take, take_asked]
    grind
  · exact Nat.add_assoc _ _ _

@[simp] theorem without_nil : h.without [] = h := by
  ext id
  · simp
  · rfl

@[simp] theorem without_without (first second : List Nat) :
    (h.without first).without second = h.without (first ++ second) := by
  ext id
  · rw [mem_without, mem_without, mem_without, List.mem_append, not_or, and_assoc]
  · rfl

/-- Releasing what was taken leaves the requests only. -/
theorem take_without (exactly : ∀ id, id ∈ ids ↔ h.asked ≤ id ∧ id < h.asked + count)
    (failed : Nat) :
    ((h.take count).skip failed).without ids = h.skip (count + failed) := by
  ext id
  · rw [mem_without, skip_live, skip_live, mem_take, exactly]
    have old := h.fresh id
    grind
  · exact Nat.add_assoc _ _ _

end

end Heap

/-! ## Programs -/

inductive HeapFault where
  | badFree (id : Nat)
  | badAccess (index : Nat)
  | freed
  deriving DecidableEq, Repr

/-- A heap together with what the program keeps. -/
structure Held (δ : Type) where
  heap : Heap
  data : δ

abbrev HeapProg (δ : Type) := Prog (Held δ) HeapFault

def update (change : δ → δ) : HeapProg δ Unit := modify fun s => ⟨s.heap, change s.data⟩

def alloc (fails : Nat → Bool) : HeapProg δ (Option Nat) := do
  let s ← get
  if fails s.heap.asked then
    modify fun s => ⟨s.heap.skip 1, s.data⟩
    return none
  modify fun s => ⟨s.heap.take 1, s.data⟩
  return some s.heap.asked

def release (id : Nat) : HeapProg δ Unit := do
  let s ← get
  if id ∈ s.heap.live then
    modify fun s => ⟨s.heap.without [id], s.data⟩
  else
    throw (.badFree id)

def releaseAll (ids : List Nat) : HeapProg δ Unit := ids.forM release

/-- Request a block; when there is none, release the given ones and report. -/
def allocOr (fails : Nat → Bool) (undo : List Nat) (error : ρ)
    (next : Nat → HeapProg δ (Except ρ α)) : HeapProg δ (Except ρ α) := do
  let block ← alloc fails
  match block with
  | none =>
    releaseAll undo
    return .error error
  | some id => next id

section Run

variable {fails : Nat → Bool} {s : Held δ}

@[simp] theorem update_run (change : δ → δ) (s : Held δ) :
    update change s = .ok ((), ⟨s.heap, change s.data⟩) := rfl

theorem alloc_fails (failed : fails s.heap.asked = true) :
    alloc fails s = .ok (none, ⟨s.heap.skip 1, s.data⟩) := by
  unfold alloc
  simp [failed]

theorem alloc_gives (given : fails s.heap.asked = false) :
    alloc fails s = .ok (some s.heap.asked, ⟨s.heap.take 1, s.data⟩) := by
  unfold alloc
  simp [given]

theorem release_run (member : id ∈ s.heap.live) :
    release id s = .ok ((), ⟨s.heap.without [id], s.data⟩) := by
  unfold release
  simp [member]

theorem releaseAll_run (nodup : ids.Nodup) (live : ∀ id ∈ ids, id ∈ s.heap.live) :
    releaseAll ids s = .ok ((), ⟨s.heap.without ids, s.data⟩) := by
  induction ids generalizing s with
  | nil =>
    rw [Heap.without_nil]
    rfl
  | cons id ids ih =>
    have step : (releaseAll (id :: ids) : HeapProg δ Unit) = (do release id; releaseAll ids) := rfl
    obtain ⟨apart, later⟩ := List.nodup_cons.mp nodup
    have still : ∀ other ∈ ids, other ∈ (s.heap.without [id]).live := by
      intro other member
      refine (Heap.mem_without _).mpr ⟨live other (List.mem_cons_of_mem _ member), ?_⟩
      rw [List.mem_singleton]
      exact fun same => apart (same ▸ member)
    rw [step, run_bind, release_run (live id List.mem_cons_self), ok_bind, ih later still,
      Heap.without_without]
    rfl

end Run

/-! ## Requests in a row -/

/-- The outcome of code that makes `total` requests in a row, the first `done` of
which have been served: all of them are, or the first that fails leaves nothing. -/
inductive Attempted (fails : Nat → Bool) (h : Heap) (data : δ) (error : ρ) (value : α)
    (done total : Nat) (outcome : Except HeapFault (Except ρ α × Held δ)) : Prop where
  | complete (given : ∀ i, done ≤ i → i < total → fails (h.asked + i) = false)
      (result : outcome = .ok (.ok value, ⟨h.take total, data⟩))
  | stopped (k : Nat) (late : done ≤ k) (early : k < total)
      (given : ∀ i, done ≤ i → i < k → fails (h.asked + i) = false)
      (failed : fails (h.asked + k) = true)
      (result : outcome = .ok (.error error, ⟨h.skip (k + 1), data⟩))

namespace Attempted

variable {fails : Nat → Bool} {h : Heap} {data : δ} {error : ρ} {value : α} {total : Nat}

theorem last : Attempted fails h data error value total total
    ((pure (.ok value) : HeapProg δ (Except ρ α)) ⟨h.take total, data⟩) :=
  .complete (fun _ late early => absurd late (Nat.not_le_of_lt early)) rfl

/-- One more request: the release list has to name exactly the blocks that were
given before. -/
theorem step {done : Nat} {undo : List Nat} {next : Nat → HeapProg δ (Except ρ α)}
    (within : done < total) (nodup : undo.Nodup)
    (exactly : ∀ id, id ∈ undo ↔ h.asked ≤ id ∧ id < h.asked + done)
    (rest : Attempted fails h data error value (done + 1) total
      (next (h.asked + done) ⟨h.take (done + 1), data⟩)) :
    Attempted fails h data error value done total
      (allocOr fails undo error next ⟨h.take done, data⟩) := by
  cases asked : fails (h.asked + done) with
  | true =>
    refine .stopped done (Nat.le_refl _) within
      (fun _ late early => absurd late (Nat.not_le_of_lt early)) asked ?_
    have taken : ∀ id ∈ undo, id ∈ ((h.take done).skip 1).live := by
      intro id member
      rw [Heap.skip_live, Heap.mem_take]
      exact .inr ((exactly id).mp member)
    unfold allocOr
    rw [run_bind, alloc_fails asked, ok_bind]
    change (releaseAll undo ⟨(h.take done).skip 1, data⟩ >>= _) = _
    rw [releaseAll_run nodup taken, Heap.take_without h exactly]
    rfl
  | false =>
    have moved : allocOr fails undo error next ⟨h.take done, data⟩ =
        next (h.asked + done) ⟨h.take (done + 1), data⟩ := by
      unfold allocOr
      rw [run_bind, alloc_gives asked, ok_bind, Heap.take_take]
      rfl
    have served : ∀ i, done ≤ i → (done + 1 ≤ i → fails (h.asked + i) = false) →
        fails (h.asked + i) = false := by
      intro i late later
      rcases Nat.eq_or_lt_of_le late with same | after
      · exact same ▸ asked
      · exact later after
    cases rest with
    | complete given result =>
      exact .complete (fun i late early => served i late fun after => given i after early)
        (moved.trans result)
    | stopped k late early given failed result =>
      exact .stopped k (Nat.le_of_succ_le late) early
        (fun i late early => served i late fun after => given i after early) failed
        (moved.trans result)

end Attempted

/-! ## Owners -/

/-- The blocks of every owner are in use, and no block has two owners or is named
twice by one. -/
structure Tidy (owned : ο → List Nat) (h : Heap) : Prop where
  nodup : ∀ owner, (owned owner).Nodup
  live : ∀ owner, ∀ id ∈ owned owner, id ∈ h.live
  apart : ∀ first second id, id ∈ owned first → id ∈ owned second → first = second

namespace Tidy

variable {owned later : ο → List Nat} {h : Heap}

theorem skip (tidy : Tidy owned h) (count : Nat) : Tidy owned (h.skip count) where
  nodup := tidy.nodup
  live := tidy.live
  apart := tidy.apart

/-- Some owners forget what they have. -/
theorem forget (tidy : Tidy owned h)
    (fewer : ∀ owner, later owner = owned owner ∨ later owner = []) : Tidy later h := by
  have kept : ∀ owner id, id ∈ later owner → id ∈ owned owner := by
    intro owner id member
    rcases fewer owner with same | none
    · exact same ▸ member
    · rw [none] at member
      exact absurd member List.not_mem_nil
  refine ⟨fun owner => ?_, fun owner id member => ?_, fun first second id one two => ?_⟩
  · rcases fewer owner with same | none
    · rw [same]
      exact tidy.nodup owner
    · rw [none]
      exact List.nodup_nil
  · exact tidy.live owner id (kept owner id member)
  · exact tidy.apart first second id (kept first id one) (kept second id two)

theorem release (tidy : Tidy owned h) (owner : ο) (gone : later owner = [])
    (same : ∀ other, other ≠ owner → later other = owned other) :
    Tidy later (h.without (owned owner)) := by
  have kept : ∀ other id, id ∈ later other → other ≠ owner ∧ id ∈ owned other := by
    intro other id member
    by_cases here : other = owner
    · rw [here, gone] at member
      exact absurd member List.not_mem_nil
    · exact ⟨here, same other here ▸ member⟩
  refine ⟨fun other => ?_, fun other id member => ?_, fun first second id one two => ?_⟩
  · by_cases here : other = owner
    · rw [here, gone]
      exact List.nodup_nil
    · rw [same other here]
      exact tidy.nodup other
  · obtain ⟨apart, old⟩ := kept other id member
    refine (Heap.mem_without _).mpr ⟨tidy.live other id old, fun shared => ?_⟩
    exact apart (tidy.apart other owner id old shared)
  · exact tidy.apart first second id (kept first id one).2 (kept second id two).2

/-- An owner gets blocks of the latest requests. -/
theorem acquire (tidy : Tidy owned h) (owner : ο) (nodup : (later owner).Nodup)
    (new : ∀ id ∈ later owner, h.asked ≤ id ∧ id < h.asked + count)
    (same : ∀ other, other ≠ owner → later other = owned other) :
    Tidy later (h.take count) := by
  have either : ∀ other id, id ∈ later other →
      other = owner ∧ h.asked ≤ id ∧ id < h.asked + count ∨ other ≠ owner ∧ id ∈ owned other := by
    intro other id member
    by_cases here : other = owner
    · exact .inl ⟨here, new id (here ▸ member)⟩
    · exact .inr ⟨here, same other here ▸ member⟩
  have old : ∀ other id, id ∈ owned other → id < h.asked :=
    fun other id member => h.fresh id (tidy.live other id member)
  refine ⟨fun other => ?_, fun other id member => ?_, fun first second id one two => ?_⟩
  · by_cases here : other = owner
    · rw [here]
      exact nodup
    · rw [same other here]
      exact tidy.nodup other
  · rw [Heap.mem_take]
    rcases either other id member with ⟨_, range⟩ | ⟨_, owns⟩
    · exact .inr range
    · exact .inl (tidy.live other id owns)
  · rcases either first id one with ⟨here, range⟩ | ⟨_, owns⟩ <;>
      rcases either second id two with ⟨there, other⟩ | ⟨_, shares⟩
    · exact here.trans there.symm
    · exact absurd (old second id shares) (Nat.not_lt_of_le range.1)
    · exact absurd (old first id owns) (Nat.not_lt_of_le other.1)
    · exact tidy.apart first second id owns shares

end Tidy

end EnaDriver.Support.Allocation
