import EnaDriver.Support.Polling
import EnaDriver.Support.Windows

/-!
# A completion queue that is written in laps

A device writes entries into a circular queue in order, each with the phase of its
lap, and never more entries than it was given requests.  Ahead of the last entry
every slot has the phase of another lap, so a reader at the end of what was
written finds nothing, also where the device has overrun a reader that is behind.
-/

namespace EnaDriver.Support.Completions

open Support.Laps Support.Windows Support.Polling

/-- The memory of a completion queue, and the number of entries written. -/
structure Posts (κ : Type) where
  cq : Nat → κ
  count : Nat

section

variable {κ σ ο : Type} (d : Depth) (phase : κ → Bool) (limit : Nat)

def Posts.post (posts : Posts κ) (entry : κ) : Posts κ :=
  if posts.count < limit ∧ phase entry = lapPhase d posts.count then
    ⟨store posts.cq (posts.count % d.val) entry, posts.count + 1⟩
  else posts

def Posts.postAll (posts : Posts κ) (entries : List κ) : Posts κ :=
  entries.foldl (Posts.post d phase limit) posts

def Posts.views (posts : Posts κ) : List (List κ) → List (Posts κ)
  | [] => []
  | entries :: script =>
    let next := posts.postAll d phase limit entries
    next :: next.views script

def Posts.after (posts : Posts κ) (script : List (List κ)) : Posts κ :=
  script.foldl (Posts.postAll d phase limit) posts

/-- In the lap ahead of the last entry every slot has another phase, and no more
entries were written than there were requests. -/
structure Ahead (posts : Posts κ) : Prop where
  stale : ∀ i, posts.count ≤ i → i < posts.count + d.val →
    phase (posts.cq (i % d.val)) ≠ lapPhase d i
  bounded : posts.count ≤ limit

variable {d phase limit} {posts : Posts κ}

/-- A queue without entries, in memory with the phase of no first lap. -/
theorem ahead_fresh {blank : κ} (unset : phase blank = false) :
    Ahead d phase limit ⟨fun _ => blank, 0⟩ where
  stale := by
    intro i _ near
    rw [unset, lapPhase_of_lt d (by simpa using near)]
    exact Bool.false_ne_true
  bounded := Nat.zero_le limit

theorem Ahead.mono {more : Nat} (ahead : Ahead d phase limit posts) (le : limit ≤ more) :
    Ahead d phase more posts :=
  ⟨ahead.stale, Nat.le_trans ahead.bounded le⟩

/-- A reader at the end finds another phase. -/
theorem Ahead.here (ahead : Ahead d phase limit posts) :
    phase (posts.cq (posts.count % d.val)) ≠ lapPhase d posts.count :=
  ahead.stale posts.count (Nat.le_refl _) (Nat.lt_add_of_pos_right d.pos)

theorem Ahead.post (ahead : Ahead d phase limit posts) (entry : κ) :
    Ahead d phase limit (posts.post d phase limit entry) := by
  unfold Posts.post
  split
  · rename_i allowed
    refine ⟨fun i least near => ?_, allowed.1⟩
    change posts.count + 1 ≤ i at least
    change i < posts.count + 1 + d.val at near
    change phase (store posts.cq (posts.count % d.val) entry (i % d.val)) ≠ _
    by_cases last : i = posts.count + d.val
    · rw [last, Nat.add_mod_right, store_same, allowed.2, lapPhase_add_depth]
      cases lapPhase d posts.count <;> decide
    · have apart := @cell_ne d posts.count 0 (i - posts.count) (by omega) (by omega)
      rw [Nat.add_zero, show posts.count + (i - posts.count) = i by omega] at apart
      rw [store_other _ _ (Ne.symm apart)]
      exact ahead.stale i (by omega) (by omega)
  · exact ahead

/-- The entries of the last lap are where they were written. -/
def Recent (d : Depth) (source : Nat → κ) (posts : Posts κ) : Prop :=
  ∀ k, k < posts.count → posts.count ≤ k + d.val → posts.cq (k % d.val) = source k

theorem Recent.post {source : Nat → κ} (recent : Recent d source posts) :
    Recent d source (posts.post d phase limit (source posts.count)) := by
  unfold Posts.post
  split
  · intro k early late
    change k < posts.count + 1 at early
    change posts.count + 1 ≤ k + d.val at late
    change store posts.cq (posts.count % d.val) (source posts.count) (k % d.val) = source k
    by_cases last : k = posts.count
    · rw [last, store_same]
    · have apart := @cell_ne d k 0 (posts.count - k) (by omega) (by omega)
      rw [Nat.add_zero, show k + (posts.count - k) = posts.count by omega] at apart
      rw [store_other _ _ apart]
      exact recent k (by omega) (by omega)
  · exact recent

theorem Ahead.postAll (ahead : Ahead d phase limit posts) (entries : List κ) :
    Ahead d phase limit (posts.postAll d phase limit entries) := by
  induction entries generalizing posts with
  | nil => exact ahead
  | cons entry entries ih => exact ih (ahead.post entry)

theorem count_le_post (posts : Posts κ) (entry : κ) :
    posts.count ≤ (posts.post d phase limit entry).count := by
  unfold Posts.post
  split
  · exact Nat.le_succ _
  · exact Nat.le_refl _

theorem count_le_postAll (posts : Posts κ) (entries : List κ) :
    posts.count ≤ (posts.postAll d phase limit entries).count := by
  induction entries generalizing posts with
  | nil => exact Nat.le_refl _
  | cons entry entries ih => exact Nat.le_trans (count_le_post posts entry) (ih _)

/-- A device that has answered every request writes nothing. -/
theorem postAll_full (full : posts.count = limit) (entries : List κ) :
    posts.postAll d phase limit entries = posts := by
  induction entries with
  | nil => rfl
  | cons entry entries ih =>
    have idle : posts.post d phase limit entry = posts := if_neg fun allowed => by omega
    rw [Posts.postAll, List.foldl_cons, idle]
    exact ih

theorem views_full (full : posts.count = limit) (script : List (List κ)) :
    posts.views d phase limit script = List.replicate script.length posts := by
  induction script with
  | nil => rfl
  | cons entries script ih =>
    rw [Posts.views, postAll_full full, ih]
    rfl

theorem after_full (full : posts.count = limit) (script : List (List κ)) :
    posts.after d phase limit script = posts := by
  induction script with
  | nil => rfl
  | cons entries script ih =>
    rw [Posts.after, List.foldl_cons, postAll_full full]
    exact ih

/-! ## Polls -/

variable {entry : σ → (Nat → κ) → Option (Nat × σ × List ο)} {budget : Nat}

theorem after_keeps (Inv : Posts κ → Prop)
    (posted : ∀ {posts} entries, Inv posts → Inv (posts.postAll d phase limit entries))
    (start : Inv posts) (script : List (List κ)) : Inv (posts.after d phase limit script) := by
  induction script generalizing posts with
  | nil => exact start
  | cons entries script ih => exact ih (posted entries start)

/-- The iterations of a poll over memory that stands still. -/
theorem iterates_settled (Inv : σ → Posts κ → Prop)
    (reads : ∀ {state posts added next outputs}, Inv state posts →
      entry state posts.cq = some (added, next, outputs) → Inv next posts)
    {size count total : Nat} {state last : σ} {outputs : List ο} (start : Inv state posts)
    (iterates : Iterates entry budget count state (List.replicate size posts.cq) total outputs last) :
    Inv last posts := by
  induction size generalizing count state outputs with
  | zero =>
    cases iterates with
    | stop reason => exact start
  | succ size ih =>
    cases iterates with
    | stop reason => exact start
    | step more read later => exact ih (reads start read) later

/-- The poll rule.  What entries of the device and iterations of the poll keep, a
poll keeps while the device writes between its iterations. -/
theorem iterates_posts (Inv : σ → Posts κ → Prop)
    (posted : ∀ {state posts} entries, Inv state posts →
      Inv state (posts.postAll d phase limit entries))
    (reads : ∀ {state posts added next outputs}, Inv state posts →
      entry state posts.cq = some (added, next, outputs) → Inv next posts)
    {script : List (List κ)} {size count total : Nat} {state last : σ} {outputs : List ο}
    (start : Inv state posts)
    (iterates : Iterates entry budget count state
      ((posts.views d phase limit script).map Posts.cq ++
        List.replicate size (posts.after d phase limit script).cq) total outputs last) :
    Inv last (posts.after d phase limit script) := by
  induction script generalizing posts count state outputs with
  | nil => exact iterates_settled Inv reads start iterates
  | cons entries script ih =>
    have moved := posted entries start
    cases iterates with
    | stop reason => exact after_keeps (Inv _) posted start (entries :: script)
    | step more read later => exact ih (reads moved read) later

end

end EnaDriver.Support.Completions
