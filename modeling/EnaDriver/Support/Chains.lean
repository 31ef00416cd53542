import Mathlib.Data.Fintype.Pigeonhole
import Mathlib.Data.Fintype.Card
import Mathlib.Logic.Function.Iterate

/-!
# Searches along a chain

A search follows a successor function until it meets a state at which it stops.
When the successor of a state is determined by one of finitely many keys, a chain
that does not stop within as many steps as there are keys has repeated a key, and
never stops.
-/

namespace EnaDriver.Support.Chains

variable {σ κ : Type} {next : σ → σ} {stop : σ → Prop} {state : σ}

/-- The first state of a chain at which the search stops, within the given number of
states. -/
def search (next : σ → σ) (stop : σ → Prop) [DecidablePred stop] : Nat → σ → Option σ
  | 0, _ => none
  | fuel + 1, state => if stop state then some state else search next stop fuel (next state)

/-- The search stops for the first time after the given number of steps. -/
structure StopsAt (next : σ → σ) (stop : σ → Prop) (state : σ) (n : Nat) : Prop where
  stops : stop (next^[n] state)
  first : ∀ i < n, ¬stop (next^[i] state)

theorem StopsAt.unique {n k : Nat} (one : StopsAt next stop state n)
    (other : StopsAt next stop state k) : n = k := by
  rcases Nat.lt_trichotomy n k with less | same | more
  · exact absurd one.stops (other.first n less)
  · exact same
  · exact absurd other.stops (one.first k more)

/-- A chain that stops somewhere stops for a first time, no later. -/
theorem stopsAt_of_stop [DecidablePred stop] {n : Nat} (stops : stop (next^[n] state)) :
    ∃ k ≤ n, StopsAt next stop state k := by
  have found : ∃ k, stop (next^[k] state) := ⟨n, stops⟩
  exact ⟨Nat.find found, Nat.find_le stops, Nat.find_spec found, fun _ below => Nat.find_min found below⟩

section Search

variable [DecidablePred stop]

theorem search_stopsAt {fuel : Nat} {state last : σ}
    (ended : search next stop fuel state = some last) :
    ∃ n, StopsAt next stop state n ∧ last = next^[n] state := by
  induction fuel generalizing state with
  | zero => cases ended
  | succ fuel ih =>
    unfold search at ended
    split at ended
    · rename_i stops
      cases ended
      exact ⟨0, ⟨stops, fun i below => absurd below (Nat.not_lt_zero i)⟩, rfl⟩
    rename_i runs
    obtain ⟨n, stopsAt, rfl⟩ := ih ended
    refine ⟨n + 1, ⟨stopsAt.stops, fun i below => ?_⟩, rfl⟩
    cases i with
    | zero => exact runs
    | succ i => exact stopsAt.first i (Nat.lt_of_succ_lt_succ below)

theorem search_returns {state : σ} {n : Nat} (stopsAt : StopsAt next stop state n) :
    search next stop (n + 1) state = some (next^[n] state) := by
  induction n generalizing state with
  | zero => exact if_pos stopsAt.stops
  | succ n ih =>
    have runs : ¬stop state := stopsAt.first 0 (Nat.succ_pos n)
    have later : StopsAt next stop (next state) n :=
      ⟨stopsAt.stops, fun i below => stopsAt.first (i + 1) (Nat.succ_lt_succ below)⟩
    exact (if_neg runs).trans (ih later)

end Search

/-! ## Finitely many keys -/

/-- Two states of a chain with one successor make the chain periodic. -/
theorem iterate_periodic {i j : Nat} (order : i < j)
    (same : next (next^[i] state) = next (next^[j] state)) {n : Nat} (late : j < n) :
    next^[n] state = next^[n - (j - i)] state := by
  obtain ⟨d, rfl⟩ := Nat.exists_eq_add_of_lt late
  have here : next^[j + d + 1] state = next^[d] (next (next^[j] state)) := by
    rw [← Function.iterate_succ_apply' next j, ← Function.iterate_add_apply]
    congr 1
    omega
  have there : next^[j + d + 1 - (j - i)] state = next^[d] (next (next^[i] state)) := by
    rw [← Function.iterate_succ_apply' next i, ← Function.iterate_add_apply]
    congr 1
    omega
  rw [here, there, same]

theorem stops_within [Fintype κ] {key : σ → κ}
    (determined : ∀ one other, key one = key other → next one = next other) {n : Nat}
    (stops : stop (next^[n] state)) : ∃ k ≤ Fintype.card κ, stop (next^[k] state) := by
  induction n using Nat.strong_induction_on with
  | h n ih =>
    by_cases few : n ≤ Fintype.card κ
    · exact ⟨n, few, stops⟩
    -- one of the keys occurs twice among the first states
    obtain ⟨i, j, differs, same⟩ := Fintype.exists_ne_map_eq_of_card_lt
      (fun i : Fin (Fintype.card κ + 1) => key (next^[i.val] state)) (by simp)
    wlog order : i.val < j.val generalizing i j with swapped
    · have apart : i.val ≠ j.val := fun equal => differs (Fin.ext equal)
      exact swapped j i differs.symm same.symm (by omega)
    have late : j.val < n := by have := j.isLt; omega
    rw [iterate_periodic order (determined _ _ same) late] at stops
    exact ih _ (by omega) stops

end EnaDriver.Support.Chains
