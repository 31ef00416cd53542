import EnaDriver.Support.Laps

/-!
# Budgeted poll loops over shared memory

A poll loop reads one entry per iteration from memory that another party may
write between iterations.  The loop is given the sequence of memory views its
iterations observe.  Two rules describe it: a relation that every iteration
respects relates the two ends of the loop, and a loop that consumes entries in
the order of their lap phases stops within one lap of the last change.
-/

namespace EnaDriver.Support.Polling

open Support.Laps

variable {σ μ ο : Type}

/-- Iterate while the count is below the budget.  An iteration leaves the loop
with `none`; the result is `none` when the loop outlives its views. -/
def pollLoop (entry : σ → μ → Option (Nat × σ × List ο)) (budget : Nat) :
    Nat → σ → List μ → Option (Nat × σ × List ο)
  | count, state, [] => if budget ≤ count then some (count, state, []) else none
  | count, state, view :: views =>
    if budget ≤ count then
      some (count, state, [])
    else match entry state view with
      | none => some (count, state, [])
      | some (added, next, outputs) =>
        (pollLoop entry budget (count + added) next views).map
          fun (total, last, rest) => (total, last, outputs ++ rest)

variable {entry : σ → μ → Option (Nat × σ × List ο)} {budget : Nat}

/-- The iterations of a loop from a count on: each of them finds the count below
the budget and reads the next view; the loop stops at the budget, or at a view
that gives it nothing. -/
inductive Iterates (entry : σ → μ → Option (Nat × σ × List ο)) (budget : Nat) :
    Nat → σ → List μ → Nat → List ο → σ → Prop where
  | stop {count : Nat} {state : σ} {views : List μ}
      (reason : budget ≤ count ∨ ∃ view rest, views = view :: rest ∧ entry state view = none) :
      Iterates entry budget count state views count [] state
  | step {count total added : Nat} {state next last : σ} {view : μ} {views : List μ}
      {outputs rest : List ο} (more : count < budget)
      (read : entry state view = some (added, next, outputs))
      (later : Iterates entry budget (count + added) next views total rest last) :
      Iterates entry budget count state (view :: views) total (outputs ++ rest) last

/-- The loop enters iteration `k`: the iterations before it stayed in the loop, and
the count is still below the budget. -/
inductive Reaches (entry : σ → μ → Option (Nat × σ × List ο)) (budget : Nat) :
    Nat → σ → List μ → Nat → Prop where
  | here {count : Nat} {state : σ} {views : List μ} (more : count < budget) :
      Reaches entry budget count state views 0
  | later {count added k : Nat} {state next : σ} {view : μ} {views : List μ} {outputs : List ο}
      (more : count < budget) (read : entry state view = some (added, next, outputs))
      (rest : Reaches entry budget (count + added) next views k) :
      Reaches entry budget count state (view :: views) (k + 1)

/-- A loop that leaves at its first view, or spends its budget there, enters no other
iteration. -/
theorem Reaches.first {count k : Nat} {state : σ} {view : μ} {views : List μ}
    (reached : Reaches entry budget count state (view :: views) k)
    (spent : (entry state view).all (fun step => decide (budget ≤ count + step.1)) = true) :
    k = 0 := by
  cases reached with
  | here => rfl
  | later more read rest =>
    rw [read, Option.all_some, decide_eq_true_iff] at spent
    cases rest <;> omega

/-- A finished loop is a sequence of iterations. -/
theorem pollLoop_iterates {views : List μ} {count total : Nat} {state last : σ}
    {outputs : List ο}
    (finished : pollLoop entry budget count state views = some (total, last, outputs)) :
    Iterates entry budget count state views total outputs last := by
  induction views generalizing count state outputs with
  | nil =>
    unfold pollLoop at finished
    split at finished
    · rename_i full
      cases finished
      exact .stop (Or.inl full)
    · cases finished
  | cons view views ih =>
    unfold pollLoop at finished
    split at finished
    · rename_i full
      cases finished
      exact .stop (Or.inl full)
    rename_i more
    cases read : entry state view with
    | none =>
      rw [read] at finished
      cases finished
      exact .stop (Or.inr ⟨view, views, rfl, read⟩)
    | some step =>
      obtain ⟨added, next, here⟩ := step
      rw [read] at finished
      obtain ⟨⟨reached, final, rest⟩, looped, same⟩ := Option.map_eq_some_iff.mp finished
      cases same
      exact .step (Nat.lt_of_not_le more) read (ih looped)

/-- The loop rule.  A relation that holds of no work, and that an iteration
extends at the front, relates the ends of every sequence of iterations. -/
theorem Iterates.rel (Rel : σ → List ο → σ → Prop) {views : List μ}
    (idle : ∀ state, Rel state [] state)
    (extend : ∀ {state view added next outputs rest last}, view ∈ views →
      entry state view = some (added, next, outputs) → Rel next rest last →
      Rel state (outputs ++ rest) last)
    {count total : Nat} {state last : σ} {outputs : List ο}
    (iterates : Iterates entry budget count state views total outputs last) :
    Rel state outputs last := by
  induction iterates with
  | stop reason => exact idle _
  | step more read later ih =>
    apply extend List.mem_cons_self read
    apply ih
    intro state view added next outputs rest last member
    exact extend (List.mem_cons_of_mem _ member)

/-! ## Stopping -/

/-- A whole lap of matching phases cannot continue on the same memory. -/
theorem lap_stops {d : Depth} {flag : Nat → Bool} {first : Nat}
    (matched : flag (first % d.val) = lapPhase d first) :
    flag ((first + d.val) % d.val) ≠ lapPhase d (first + d.val) := by
  rw [Nat.add_mod_right, matched, lapPhase_add_depth]
  cases lapPhase d first <;> decide

theorem within_lap {d : Depth} {flag : Nat → Bool} {first position : Nat}
    (bound : position ≤ first + d.val)
    (matched : position = first ∨ flag (first % d.val) = lapPhase d first)
    (phase : flag (position % d.val) = lapPhase d position) : position < first + d.val := by
  rcases matched with same | known
  · have := d.pos
    omega
  · apply Nat.lt_of_le_of_ne bound
    rintro rfl
    exact lap_stops known phase

structure CountsIterations (entry : σ → μ → Option (Nat × σ × List ο)) (size : List ο → Nat) :
    Prop where
  none : size [] = 0
  one : ∀ {state view added next outputs}, entry state view = some (added, next, outputs) →
    ∀ rest, size (outputs ++ rest) = size rest + 1

section Total

variable (d : Depth) (At : σ → Nat → Prop) (flag : μ → Nat → Bool)
  (consumes : ∀ {state view added next outputs position}, At state position →
    entry state view = some (added, next, outputs) →
    At next (position + 1) ∧ flag view (position % d.val) = lapPhase d position)
include consumes

/-- While the entry at `first` keeps its phase, the loop stops within one lap of
it: the entries consumed since then match their phases, and `left` more of them
complete the lap. -/
theorem pollLoop_lap {left first position count : Nat} {state : σ} {views : List μ} {shown : Bool}
    (located : At state position) (lap : position + left = first + d.val)
    (enough : left < views.length) (steady : ∀ view ∈ views, flag view (first % d.val) = shown)
    (matched : position = first ∨ shown = lapPhase d first) :
    ∃ total last outputs, pollLoop entry budget count state views = some (total, last, outputs) ∧
      ∀ size, CountsIterations entry size → position + size outputs ≤ first + d.val := by
  have idle : ∀ size, CountsIterations entry size → position + size [] ≤ first + d.val := by
    intro size counts
    rw [counts.none]
    omega
  induction left generalizing position count state views with
  | zero =>
    obtain ⟨view, rest, rfl⟩ := List.exists_cons_of_length_pos enough
    have behind : shown = lapPhase d first := by
      rcases matched with same | known
      · have := d.pos
        omega
      · exact known
    have here := steady view List.mem_cons_self
    unfold pollLoop
    split
    · exact ⟨count, state, [], rfl, idle⟩
    cases read : entry state view with
    | none => exact ⟨count, state, [], rfl, idle⟩
    | some step =>
      have again := (consumes located read).2
      rw [show position = first + d.val by omega] at again
      exact absurd again (lap_stops (here.trans behind))
  | succ left ih =>
    obtain ⟨view, rest, rfl⟩ := List.exists_cons_of_length_pos (Nat.zero_lt_of_lt enough)
    unfold pollLoop
    split
    · exact ⟨count, state, [], rfl, idle⟩
    cases read : entry state view with
    | none => exact ⟨count, state, [], rfl, idle⟩
    | some step =>
      obtain ⟨added, next, outputs⟩ := step
      obtain ⟨moved, phase⟩ := consumes located read
      have behind : shown = lapPhase d first := by
        rcases matched with same | known
        · rw [← same, ← phase, same]
          exact (steady view List.mem_cons_self).symm
        · exact known
      obtain ⟨total, last, more, looped, bound⟩ :=
        @ih (position + 1) (count + added) next rest moved (by omega)
          (Nat.lt_of_succ_lt_succ enough)
          (fun other member => steady other (List.mem_cons_of_mem _ member)) (Or.inr behind)
          (fun size counts => by rw [counts.none]; omega)
      refine ⟨total, last, outputs ++ more, by simp only [looped]; rfl, ?_⟩
      intro size counts
      have later := bound size counts
      rw [counts.one read]
      omega

/-- A loop over finitely many changing views followed by settled memory stops. -/
theorem pollLoop_total (changing : List μ) (settled : μ) {position count : Nat} {state : σ}
    (located : At state position) :
    ∃ result, pollLoop entry budget count state
      (changing ++ List.replicate (d.val + 1) settled) = some result := by
  induction changing generalizing position count state with
  | nil =>
    have enough : d.val < (List.replicate (d.val + 1) settled).length := by
      rw [List.length_replicate]
      exact Nat.lt_succ_self _
    have steady : ∀ view ∈ List.replicate (d.val + 1) settled,
        flag view (position % d.val) = flag settled (position % d.val) := by
      intro view member
      rw [List.eq_of_mem_replicate member]
    obtain ⟨total, last, outputs, looped, _⟩ :=
      pollLoop_lap d At flag consumes located rfl enough steady (Or.inl rfl)
    exact ⟨_, looped⟩
  | cons view changing ih =>
    rw [List.cons_append]
    unfold pollLoop
    split
    · exact ⟨_, rfl⟩
    cases read : entry state view with
    | none => exact ⟨_, rfl⟩
    | some step =>
      obtain ⟨added, next, outputs⟩ := step
      obtain ⟨result, looped⟩ := @ih (position + 1) (count + added) next (consumes located read).1
      exact ⟨_, by simp only [looped]; rfl⟩

end Total

end EnaDriver.Support.Polling
