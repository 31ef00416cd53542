import Mathlib.Data.List.Basic

/-!
# Runs of fallible systems

A system takes operations one at a time and may fault.  A run is the left fold
of its step function.  One induction turns an invariant that every guarded step
keeps into a statement about every guarded run: the run does not fault, and it
ends in a state with the invariant.
-/

namespace EnaDriver.Support.Runs

variable {σ ω ε : Type}

/-- A composed computation that succeeds has a first part that succeeds. -/
theorem bind_ok {α β : Type} {value : Except ε α} {next : α → Except ε β} {result : β}
    (composed : value >>= next = .ok result) :
    ∃ middle, value = .ok middle ∧ next middle = .ok result := by
  cases value with
  | error fault => cases composed
  | ok middle => exact ⟨middle, rfl, composed⟩

/-- What is observed of the result of a computation shows that it succeeds. -/
theorem ok_of_observed {α β : Type} {value : Except ε α} {observe : α → β} {seen : β}
    (observed : value.toOption.map observe = some seen) :
    ∃ result, value = .ok result ∧ observe result = seen := by
  cases value with
  | error fault => cases observed
  | ok result => exact ⟨result, rfl, Option.some.inj observed⟩

theorem observed_of_ok {α β : Type} {value : Except ε α} {result : α} (ran : value = .ok result)
    (observe : α → β) {seen : β} (observed : value.toOption.map observe = some seen) :
    observe result = seen := by
  rw [ran] at observed
  exact Option.some.inj observed

/-- Take the operations in order; a fault ends the run. -/
def run (step : σ → ω → Except ε σ) (state : σ) (ops : List ω) : Except ε σ :=
  ops.foldlM step state

/-- Every operation meets the guard in the state it is issued in. -/
def Meets (step : σ → ω → Except ε σ) (guard : σ → ω → Prop) : σ → List ω → Prop
  | _, [] => True
  | state, op :: ops =>
    guard state op ∧ ∀ next, step state op = .ok next → Meets step guard next ops

section

variable {step : σ → ω → Except ε σ} {guard : σ → ω → Prop} {ops : List ω}

@[simp] theorem run_nil (state : σ) : run step state [] = .ok state := rfl

theorem run_cons {state next : σ} {op : ω} (stepped : step state op = .ok next) (ops : List ω) :
    run step state (op :: ops) = run step next ops := by
  unfold run
  rw [List.foldlM_cons, stepped]
  rfl

theorem meets_of_forall (always : ∀ state op, guard state op) (state : σ) (ops : List ω) :
    Meets step guard state ops := by
  induction ops generalizing state with
  | nil => trivial
  | cons op ops ih => exact ⟨always state op, fun next _ => ih next⟩

theorem meets_of_mem (always : ∀ op ∈ ops, ∀ state, guard state op) (state : σ) :
    Meets step guard state ops := by
  induction ops generalizing state with
  | nil => trivial
  | cons op ops ih =>
    refine ⟨always op List.mem_cons_self state, fun next _ => ih ?_ next⟩
    exact fun other member => always other (List.mem_cons_of_mem op member)

/-- A guard that can only fail from some operation on. -/
theorem meets_append {early : List ω} {state : σ} (always : ∀ op ∈ early, ∀ state, guard state op)
    (rest : ∀ next, run step state early = .ok next → Meets step guard next ops) :
    Meets step guard state (early ++ ops) := by
  induction early generalizing state with
  | nil => exact rest state rfl
  | cons op early ih =>
    refine ⟨always op List.mem_cons_self state, fun next stepped => ih ?_ fun last ran => ?_⟩
    · exact fun other member => always other (List.mem_cons_of_mem op member)
    · exact rest last ((run_cons stepped early).trans ran)

theorem meets_cons {state next : σ} {op : ω} (ok : guard state op)
    (stepped : step state op = .ok next) (rest : Meets step guard next ops) :
    Meets step guard state (op :: ops) := by
  refine ⟨ok, fun other same => ?_⟩
  cases stepped.symm.trans same
  exact rest

/-- Whether every operation of a run passes a check in the state it is issued in. -/
def passes (step : σ → ω → Except ε σ) (check : σ → ω → Bool) : σ → List ω → Bool
  | _, [] => true
  | state, op :: ops => check state op && match step state op with
    | .error _ => true
    | .ok next => passes step check next ops

/-- A sound check of a guard computes that a run meets it. -/
theorem meets_of_passes {check : σ → ω → Bool}
    (sound : ∀ state op, check state op = true → guard state op) {state : σ}
    (passed : passes step check state ops = true) : Meets step guard state ops := by
  induction ops generalizing state with
  | nil => trivial
  | cons op ops ih =>
    obtain ⟨here, rest⟩ := Bool.and_eq_true_iff.mp passed
    refine ⟨sound state op here, fun next stepped => ih ?_⟩
    rw [stepped] at rest
    exact rest

/-- The run rule: a guarded step that keeps the invariant and does not fault
gives guarded runs that do not fault and end inside the invariant. -/
theorem run_invariant (guard : σ → ω → Prop) (Inv : σ → Prop)
    (keeps : ∀ state op, Inv state → guard state op →
      ∃ next, step state op = .ok next ∧ Inv next)
    {state : σ} (start : Inv state) (meets : Meets step guard state ops) :
    ∃ last, run step state ops = .ok last ∧ Inv last := by
  induction ops generalizing state with
  | nil => exact ⟨state, rfl, start⟩
  | cons op ops ih =>
    obtain ⟨next, stepped, kept⟩ := keeps state op start meets.1
    obtain ⟨last, ran, holds⟩ := ih kept (meets.2 next stepped)
    exact ⟨last, (run_cons stepped ops).trans ran, holds⟩

/-- The partial rule: what every guarded step that returns keeps holds at the end of
every guarded run that returns. -/
theorem run_kept_meets (Inv : σ → Prop)
    (keeps : ∀ state op next, Inv state → guard state op → step state op = .ok next → Inv next)
    {state last : σ} (start : Inv state) (meets : Meets step guard state ops)
    (ran : run step state ops = .ok last) : Inv last := by
  induction ops generalizing state with
  | nil =>
    cases ran
    exact start
  | cons op ops ih =>
    unfold run at ran
    rw [List.foldlM_cons] at ran
    obtain ⟨next, stepped, rest⟩ := bind_ok ran
    exact ih (keeps state op next start meets.1 stepped) (meets.2 next stepped) rest

/-- What every step that returns keeps holds at the end of every run that returns. -/
theorem run_kept (Inv : σ → Prop)
    (keeps : ∀ state op next, Inv state → step state op = .ok next → Inv next) {state last : σ}
    (start : Inv state) (ran : run step state ops = .ok last) : Inv last :=
  run_kept_meets Inv (fun state op next holds _ => keeps state op next holds)
    start (meets_of_forall (fun _ _ => trivial) state ops : Meets step (fun _ _ => True) state ops) ran

/-- The run returns, and the property holds in every state on its way. -/
def Holds (step : σ → ω → Except ε σ) (property : σ → Prop) : σ → List ω → Prop
  | state, [] => property state
  | state, op :: ops =>
    property state ∧ ∃ next, step state op = .ok next ∧ Holds step property next ops

/-- The exact rule: when the guard says, from every state of the invariant with the
property, whether the step returns with the property, then the guarded runs are
those that have the property all along. -/
theorem holds_iff_meets (Inv property : σ → Prop)
    (keeps : ∀ state op next, Inv state → step state op = .ok next → Inv next)
    (exact : ∀ state op, Inv state → property state →
      (guard state op ↔ ∃ next, step state op = .ok next ∧ property next))
    {state : σ} (start : Inv state) (holds : property state) (ops : List ω) :
    Holds step property state ops ↔ Meets step guard state ops := by
  induction ops generalizing state with
  | nil => exact ⟨fun _ => trivial, fun _ => holds⟩
  | cons op ops ih =>
    constructor
    · rintro ⟨_, next, stepped, rest⟩
      have there : property next := by
        cases ops with
        | nil => exact rest
        | cons other ops => exact rest.1
      refine meets_cons ((exact state op start holds).mpr ⟨next, stepped, there⟩) stepped ?_
      exact (ih (keeps state op next start stepped) there).mp rest
    · rintro ⟨met, rest⟩
      obtain ⟨next, stepped, there⟩ := (exact state op start holds).mp met
      refine ⟨holds, next, stepped, ?_⟩
      exact (ih (keeps state op next start stepped) there).mpr (rest next stepped)

end

/-! ## Logs -/

/-- Every entry of a log has the property with respect to the entries before it. -/
def Throughout {τ : Type} (property : List τ → τ → Prop) (log : List τ) : Prop :=
  ∀ i entry, log[i]? = some entry → property (log.take i) entry

section Logs

variable {τ : Type} {property : List τ → τ → Prop}

theorem Throughout.nil : Throughout property [] := by
  intro i entry found
  cases found

theorem Throughout.append {log entries : List τ} (before : Throughout property log)
    (here : ∀ i entry, entries[i]? = some entry → property (log ++ entries.take i) entry) :
    Throughout property (log ++ entries) := by
  intro i entry found
  by_cases early : i < log.length
  · rw [List.getElem?_append_left early] at found
    rw [List.take_append_of_le_length (Nat.le_of_lt early)]
    exact before i entry found
  · have late : log.length ≤ i := Nat.le_of_not_lt early
    rw [List.getElem?_append_right late] at found
    rw [List.take_append, List.take_of_length_le late]
    exact here _ entry found

end Logs

end EnaDriver.Support.Runs
