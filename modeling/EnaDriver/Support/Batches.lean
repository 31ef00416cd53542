import EnaDriver.Support.Polling

/-!
# Poll loops over memory that stands still

On memory that does not change while it runs, a poll loop is a walk over a list:
the consecutive entries from its position on that are ready, at most one lap of
them.  The lap is enough because the entry one lap ahead of a ready one carries
the wrong phase.
-/

namespace EnaDriver.Support.Batches

open Support.Laps Support.Polling

variable {σ μ ο ε : Type}

/-! ## Batches -/

/-- The entries from `position` on up to the first that is not ready, at most
`bound` of them. -/
def batch (ready : Nat → Bool) (entryAt : Nat → ε) (position bound : Nat) : List ε :=
  ((List.range' position bound).takeWhile ready).map entryAt

section

variable {ready : Nat → Bool} {entryAt : Nat → ε} {position : Nat}

theorem batch_ready (here : ready position = true) (bound : Nat) :
    batch ready entryAt position (bound + 1) =
      entryAt position :: batch ready entryAt (position + 1) bound := by
  rw [batch, List.range'_succ, List.takeWhile_cons_of_pos here, List.map_cons]
  rfl

theorem batch_stale (here : ready position = false) (bound : Nat) :
    batch ready entryAt position bound = [] := by
  cases bound with
  | zero => rfl
  | succ bound =>
    rw [batch, List.range'_succ, List.takeWhile_cons_of_neg (by rw [here]; decide)]
    rfl

theorem batch_length_le (bound : Nat) : (batch ready entryAt position bound).length ≤ bound := by
  rw [batch, List.length_map]
  exact Nat.le_trans (List.takeWhile_prefix ready).length_le (Nat.le_of_eq List.length_range')

theorem mem_batch {bound : Nat} {entry : ε} (member : entry ∈ batch ready entryAt position bound) :
    ∃ index, ready index = true ∧ entryAt index = entry := by
  induction bound generalizing position with
  | zero => cases member
  | succ bound ih =>
    cases here : ready position with
    | false =>
      rw [batch_stale here] at member
      cases member
    | true =>
      rw [batch_ready here] at member
      rcases List.mem_cons.mp member with same | later
      · exact ⟨position, here, same.symm⟩
      · exact ih later

end

/-! ## Walks -/

/-- Settle the entries of a list in order while the count is below the budget. -/
def settleAll (settle : σ → ε → Nat × σ × List ο) (budget : Nat) :
    Nat → σ → List ε → Nat × σ × List ο
  | count, state, [] => (count, state, [])
  | count, state, entry :: rest =>
    if budget ≤ count then
      (count, state, [])
    else
      let (added, next, outputs) := settle state entry
      let (total, last, more) := settleAll settle budget (count + added) next rest
      (total, last, outputs ++ more)

section Fixed

variable {read : σ → μ → Option (Nat × σ × List ο)} {settle : σ → ε → Nat × σ × List ο}
  {budget : Nat} (d : Depth) (At : σ → Nat → Prop) (ready : Nat → Bool) (entryAt : Nat → ε)
  (flag : Nat → Bool) (settled : μ)
  (reads : ∀ {state position}, At state position →
    read state settled =
      if ready position then some (settle state (entryAt position)) else none)
  (moves : ∀ {state position}, At state position → ready position = true →
    At (settle state (entryAt position)).2.1 (position + 1))
  (phased : ∀ {position}, ready position = true → flag (position % d.val) = lapPhase d position)
include reads moves phased

theorem pollLoop_settleAll {left first position count : Nat} {state : σ}
    (located : At state position) (lap : position + left = first + d.val)
    (matched : position = first ∨ flag (first % d.val) = lapPhase d first) :
    pollLoop read budget count state (List.replicate (left + 1) settled) =
      some (settleAll settle budget count state (batch ready entryAt position left)) := by
  induction left generalizing position count state with
  | zero =>
    have stale : ready position = false := by
      by_contra here
      have phase := phased (Bool.of_not_eq_false here)
      have behind : flag (first % d.val) = lapPhase d first := by
        rcases matched with same | known
        · have := d.pos
          omega
        · exact known
      rw [show position = first + d.val by omega] at phase
      exact lap_stops behind phase
    rw [List.replicate_succ, pollLoop, reads located, stale]
    split <;> rfl
  | succ left ih =>
    rw [List.replicate_succ, pollLoop, reads located]
    cases here : ready position with
    | false =>
      rw [batch_stale here]
      split <;> rfl
    | true =>
      rw [batch_ready here, settleAll]
      split
      · rfl
      have behind : flag (first % d.val) = lapPhase d first := by
        rcases matched with same | known
        · rw [← same]
          exact phased here
        · exact known
      have rest := @ih (position + 1) (count + (settle state (entryAt position)).1)
        (settle state (entryAt position)).2.1 (moves located here) (by omega) (Or.inr behind)
      rw [if_pos rfl]
      simp only [rest, Option.map_some]

end Fixed

end EnaDriver.Support.Batches
