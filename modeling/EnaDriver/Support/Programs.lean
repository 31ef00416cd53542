import Mathlib.Init

/-!
# Stateful programs that may fault

Total correctness of programs over a state that may fault.  `Returns` says that
a program returns and what holds of its result and final state.  `Keeps` is the
form for programs that preserve an invariant and relate their two ends by a
preorder, and `Ends` is its partial form, which says nothing about runs that
fault.  Both are judgements that compositions of programs inherit, and what holds
of the steps of a function is carried through it by the rules of `Composes`.
-/

namespace EnaDriver.Support.Programs

variable {σ ε α β : Type}

abbrev Prog (σ ε : Type) := StateT σ (Except ε)

/-- Run a program under a condition; `otherwise` is the result in the other case. -/
def onlyIf (condition : Prop) [Decidable condition] (otherwise : α) (program : Prog σ ε α) :
    Prog σ ε α :=
  if condition then program else pure otherwise

/-! ## Running a program -/

section Run

variable (state : σ)

@[simp] theorem run_pure (value : α) : (pure value : Prog σ ε α) state = .ok (value, state) := rfl

@[simp] theorem run_bind (program : Prog σ ε α) (next : α → Prog σ ε β) :
    (program >>= next) state = program state >>= fun out => next out.1 out.2 := rfl

@[simp] theorem run_map (change : α → β) (program : Prog σ ε α) :
    (change <$> program) state = program state >>= fun out => .ok (change out.1, out.2) := rfl

@[simp] theorem run_get : (get : Prog σ ε σ) state = .ok (state, state) := rfl

@[simp] theorem run_modify (change : σ → σ) :
    (modify change : Prog σ ε Unit) state = .ok ((), change state) := rfl

@[simp] theorem run_throw (fault : ε) : (throw fault : Prog σ ε α) state = .error fault := rfl

@[simp] theorem run_ite {condition : Prop} [Decidable condition] (yes no : Prog σ ε α) :
    (if condition then yes else no) state = if condition then yes state else no state := by
  split <;> rfl

@[simp] theorem run_onlyIf (condition : Prop) [Decidable condition] (otherwise : α)
    (program : Prog σ ε α) :
    onlyIf condition otherwise program state =
      if condition then program state else .ok (otherwise, state) :=
  run_ite state program (pure otherwise)

@[simp] theorem ok_bind (value : α) (next : α → Except ε β) :
    ((.ok value : Except ε α) >>= next) = next value := rfl

end Run

/-! ## What a program achieves -/

/-- From `state` the program returns, and its result and final state satisfy
the postcondition. -/
def Returns (program : Prog σ ε α) (state : σ) (post : α → σ → Prop) : Prop :=
  ∃ value final, program state = .ok (value, final) ∧ post value final

namespace Returns

variable {state : σ} {program : Prog σ ε α} {next : α → Prog σ ε β}

theorem pure {value : α} {post : α → σ → Prop} (holds : post value state) :
    Returns (Pure.pure value : Prog σ ε α) state post :=
  ⟨value, state, rfl, holds⟩

theorem bind {middle : α → σ → Prop} {post : β → σ → Prop} (first : Returns program state middle)
    (second : ∀ value final, middle value final → Returns (next value) final post) :
    Returns (program >>= next) state post := by
  obtain ⟨value, between, ran, holds⟩ := first
  obtain ⟨result, final, continued, ended⟩ := second value between holds
  refine ⟨result, final, ?_, ended⟩
  change (program state >>= fun out => next out.1 out.2) = _
  rw [ran]
  exact continued

/-- A first part whose outcome is known. -/
theorem after {state between : σ} {value : α} {post : β → σ → Prop}
    (ran : program state = .ok (value, between)) (rest : Returns (next value) between post) :
    Returns (program >>= next) state post := by
  obtain ⟨result, final, continued, holds⟩ := rest
  refine ⟨result, final, ?_, holds⟩
  rw [run_bind, ran]
  exact continued

theorem get {post : σ → σ → Prop} (holds : post state state) :
    Returns (MonadState.get : Prog σ ε σ) state post :=
  ⟨state, state, rfl, holds⟩

theorem update {change : σ → σ} {post : Unit → σ → Prop} (holds : post () (change state)) :
    Returns (modify change : Prog σ ε Unit) state post :=
  ⟨(), change state, rfl, holds⟩

theorem mono {post wider : α → σ → Prop} (returned : Returns program state post)
    (weaken : ∀ value final, post value final → wider value final) :
    Returns program state wider := by
  obtain ⟨value, final, ran, holds⟩ := returned
  exact ⟨value, final, ran, weaken value final holds⟩

end Returns

/-- From every state with the invariant the program returns, keeps the
invariant, and relates the two ends. -/
def Keeps (inv : σ → Prop) (rel : σ → σ → Prop) (program : Prog σ ε α) : Prop :=
  ∀ state, inv state → Returns program state fun _ final => inv final ∧ rel state final

namespace Keeps

variable {inv : σ → Prop} {rel : σ → σ → Prop}

theorem pure (refl : ∀ state, rel state state) (value : α) :
    Keeps inv rel (Pure.pure value : Prog σ ε α) :=
  fun state holds => Returns.pure ⟨holds, refl state⟩

theorem bind (trans : ∀ first second third, rel first second → rel second third → rel first third)
    {program : Prog σ ε α} {next : α → Prog σ ε β} (first : Keeps inv rel program)
    (second : ∀ value, Keeps inv rel (next value)) : Keeps inv rel (program >>= next) := by
  intro state holds
  refine (first state holds).bind fun value between step => ?_
  refine (second value between step.1).mono fun _ final rest => ?_
  exact ⟨rest.1, trans _ _ _ step.2 rest.2⟩

theorem ite {condition : Prop} [Decidable condition] {yes no : Prog σ ε α}
    (whenTrue : Keeps inv rel yes) (whenFalse : Keeps inv rel no) :
    Keeps inv rel (if condition then yes else no) := by
  split
  · exact whenTrue
  · exact whenFalse

theorem get (refl : ∀ state, rel state state) : Keeps inv rel (MonadState.get : Prog σ ε σ) :=
  fun state holds => Returns.get ⟨holds, refl state⟩

theorem update {change : σ → σ}
    (keeps : ∀ state, inv state → inv (change state) ∧ rel state (change state)) :
    Keeps inv rel (modify change : Prog σ ε Unit) :=
  fun state holds => Returns.update (keeps state holds)

end Keeps

theorem bind_returned {program : Prog σ ε α} {next : α → Prog σ ε β} {state final : σ} {value : β}
    (ran : (program >>= next) state = .ok (value, final)) :
    ∃ first between, program state = .ok (first, between) ∧
      next first between = .ok (value, final) := by
  rw [run_bind] at ran
  cases begun : program state with
  | error fault =>
    rw [begun] at ran
    cases ran
  | ok out =>
    rw [begun] at ran
    exact ⟨out.1, out.2, rfl, ran⟩

theorem bind_lifted {result : Except ε α} {next : α → Prog σ ε β} {state final : σ} {value : β}
    (ran : ((liftM result : Prog σ ε α) >>= next) state = .ok (value, final)) :
    ∃ got, result = .ok got ∧ next got state = .ok (value, final) := by
  obtain ⟨got, between, lifted, rest⟩ := bind_returned ran
  cases result with
  | error fault => cases lifted
  | ok found =>
    cases lifted
    exact ⟨got, rfl, rest⟩

/-- What holds of the first state holds of the second. -/
def Carries (inv : σ → Prop) (state final : σ) : Prop := inv state → inv final

theorem Carries.refl (inv : σ → Prop) (state : σ) : Carries inv state state := fun holds => holds

theorem Carries.trans (inv : σ → Prop) (first second third : σ) (earlier : Carries inv first second)
    (later : Carries inv second third) : Carries inv first third :=
  fun holds => later (earlier holds)

/-- Whenever the program returns, its two ends are related. -/
def Ends (rel : σ → σ → Prop) (program : Prog σ ε α) : Prop :=
  ∀ state value final, program state = .ok (value, final) → rel state final

namespace Ends

variable {rel : σ → σ → Prop}

theorem pure (refl : ∀ state, rel state state) (value : α) :
    Ends rel (Pure.pure value : Prog σ ε α) := by
  intro state other final ran
  cases ran
  exact refl state

theorem bind (trans : ∀ first second third, rel first second → rel second third → rel first third)
    {program : Prog σ ε α} {next : α → Prog σ ε β} (first : Ends rel program)
    (second : ∀ value, Ends rel (next value)) : Ends rel (program >>= next) := by
  intro state value final ran
  rw [run_bind] at ran
  cases begun : program state with
  | error fault =>
    rw [begun] at ran
    cases ran
  | ok middle =>
    rw [begun, ok_bind] at ran
    exact trans _ _ _ (first state middle.1 middle.2 begun) (second _ _ _ _ ran)

theorem mono {wider : σ → σ → Prop} {program : Prog σ ε α} (ends : Ends rel program)
    (weaken : ∀ {state final}, rel state final → wider state final) : Ends wider program :=
  fun state value final ran => weaken (ends state value final ran)

theorem ite {condition : Prop} [Decidable condition] {yes no : Prog σ ε α}
    (whenTrue : Ends rel yes) (whenFalse : Ends rel no) :
    Ends rel (if condition then yes else no) := by
  split
  · exact whenTrue
  · exact whenFalse

theorem get (refl : ∀ state, rel state state) : Ends rel (MonadState.get : Prog σ ε σ) := by
  intro state value final ran
  cases ran
  exact refl state

theorem update {change : σ → σ} (related : ∀ state, rel state (change state)) :
    Ends rel (modify change : Prog σ ε Unit) := by
  intro state value final ran
  cases ran
  exact related state

theorem throw (fault : ε) : Ends rel (MonadExcept.throw fault : Prog σ ε α) := by
  intro state value final ran
  cases ran

theorem lift (refl : ∀ state, rel state state) (result : Except ε α) :
    Ends rel (liftM result : Prog σ ε α) := by
  intro state value final ran
  cases result with
  | error fault => cases ran
  | ok outcome =>
    cases ran
    exact refl state

end Ends

/-! ## Judgements that compositions inherit -/

/-- A judgement on programs that every composition of them inherits. -/
structure Composes (J : {α : Type} → Prog σ ε α → Prop) : Prop where
  pure : ∀ {α : Type} (value : α), J (Pure.pure value : Prog σ ε α)
  bind : ∀ {α β : Type} {program : Prog σ ε α} {next : α → Prog σ ε β},
    J program → (∀ value, J (next value)) → J (program >>= next)

theorem Keeps.composes {inv : σ → Prop} {rel : σ → σ → Prop} (refl : ∀ state, rel state state)
    (trans : ∀ first second third, rel first second → rel second third → rel first third) :
    @Composes σ ε (Keeps inv rel) :=
  ⟨Keeps.pure refl, Keeps.bind trans⟩

theorem Ends.composes {rel : σ → σ → Prop} (refl : ∀ state, rel state state)
    (trans : ∀ first second third, rel first second → rel second third → rel first third) :
    @Composes σ ε (Ends rel) :=
  ⟨Ends.pure refl, Ends.bind trans⟩

namespace Composes

variable {J : {α : Type} → Prog σ ε α → Prop} {items : List α}

theorem ite (_ : Composes J) {condition : Prop} [Decidable condition] {yes no : Prog σ ε α}
    (whenTrue : J yes) (whenFalse : J no) : J (if condition then yes else no) := by
  split
  · exact whenTrue
  · exact whenFalse

variable (rules : Composes J)
include rules

theorem onlyIf {condition : Prop} [Decidable condition] {otherwise : α} {program : Prog σ ε α}
    (runs : J program) : J (Programs.onlyIf condition otherwise program) :=
  rules.ite runs (rules.pure otherwise)

/-- A program whose result is ignored, and a constant result. -/
theorem after {program : Prog σ ε α} (first : J program) (value : β) :
    J (do let _ ← program; Pure.pure value) :=
  rules.bind first fun _ => rules.pure value

theorem foldlM {step : β → α → Prog σ ε β} (each : ∀ acc, ∀ item ∈ items, J (step acc item))
    (acc : β) : J (items.foldlM step acc) := by
  induction items generalizing acc with
  | nil => exact rules.pure acc
  | cons item rest ih =>
    rw [List.foldlM_cons]
    refine rules.bind (each acc item List.mem_cons_self) fun next => ?_
    exact ih (fun acc other member => each acc other (List.mem_cons_of_mem _ member)) next

theorem forM {step : α → Prog σ ε PUnit} (each : ∀ item ∈ items, J (step item)) :
    J (items.forM step) := by
  induction items with
  | nil => exact rules.pure _
  | cons item rest ih =>
    rw [List.forM_eq_forM, List.forM_cons]
    refine rules.bind (each item List.mem_cons_self) fun _ => ?_
    exact ih fun other member => each other (List.mem_cons_of_mem _ member)

theorem mapM {step : α → Prog σ ε β} (each : ∀ item ∈ items, J (step item)) :
    J (items.mapM step) := by
  induction items with
  | nil => exact rules.pure _
  | cons item rest ih =>
    rw [List.mapM_cons]
    refine rules.bind (each item List.mem_cons_self) fun _ => rules.bind ?_ fun _ => rules.pure _
    exact ih fun other member => each other (List.mem_cons_of_mem _ member)

end Composes

end EnaDriver.Support.Programs
