import EnaDriver.Support.Windows

/-!
# Custody of numbered items

A ledger records for every id whether it is free, holds an item, or holds an
item that is parked with a keeper.  Items enter through free ids and leave from
ids that hold them, so over any sequence of actions the items that entered are
the items that left and the items still held.
-/

namespace EnaDriver.Support.Custody

open Support.Windows

variable {α β π : Type} {bound : Nat}

/-- The custody of one id. -/
inductive Status (α β : Type) where
  | free
  | active (item : α)
  | parked (item : α) (keeper : β)

def Status.item? : Status α β → Option α
  | .free => none
  | .active item => some item
  | .parked item _ => some item

def Status.isHeld : Status α β → Bool
  | .free => false
  | _ => true

def Status.isActive : Status α β → Bool
  | .active _ => true
  | _ => false

/-- The custody of every id. -/
abbrev Ledger (α β : Type) := Nat → Status α β

def Ledger.empty : Ledger α β := fun _ => .free

/-- What can happen to one id. -/
inductive Action (α β : Type) where
  | accept (id : Nat) (item : α)
  | park (id : Nat) (keeper : β)
  | release (id : Nat) (item : α)

def Action.id : Action α β → Nat
  | .accept id _ => id
  | .park id _ => id
  | .release id _ => id

/-- One action.  An item enters through a free id, is parked while active, and
leaves from the id that holds it. -/
inductive Step : Ledger α β → Action α β → Ledger α β → Prop where
  | accept {ledger : Ledger α β} {id : Nat} (item : α) (isFree : ledger id = .free) :
      Step ledger (.accept id item) (store ledger id (.active item))
  | park {ledger : Ledger α β} {id : Nat} {item : α} (keeper : β)
      (held : ledger id = .active item) :
      Step ledger (.park id keeper) (store ledger id (.parked item keeper))
  | release {ledger : Ledger α β} {id : Nat} {item : α}
      (held : (ledger id).item? = some item) :
      Step ledger (.release id item) (store ledger id .free)

variable {before after : Ledger α β}

theorem Step.other {action : Action α β} (step : Step before action after) {id : Nat}
    (differs : id ≠ action.id) : after id = before id := by
  cases step with
  | accept item isFree => exact store_other _ _ differs
  | park keeper held => exact store_other _ _ differs
  | release held => exact store_other _ _ differs

inductive Steps (allowed : Ledger α β → Action α β → Prop) :
    Ledger α β → List (Action α β) → Ledger α β → Prop where
  | nil (ledger : Ledger α β) : Steps allowed ledger [] ledger
  | cons {first second third : Ledger α β} {action : Action α β} {actions : List (Action α β)}
      (step : Step first action second) (ok : allowed first action)
      (rest : Steps allowed second actions third) :
      Steps allowed first (action :: actions) third

section

variable {allowed : Ledger α β → Action α β → Prop} {actions : List (Action α β)}

theorem Steps.single {first second : Ledger α β} {action : Action α β}
    (step : Step first action second) (ok : allowed first action) :
    Steps allowed first [action] second :=
  .cons step ok (.nil second)

theorem Steps.append {first second third : Ledger α β} {before after : List (Action α β)}
    (earlier : Steps allowed first before second) (later : Steps allowed second after third) :
    Steps allowed first (before ++ after) third := by
  induction earlier with
  | nil ledger => exact later
  | cons step ok rest ih => exact .cons step ok (ih later)

theorem Steps.mono {wider : Ledger α β → Action α β → Prop} {first last : Ledger α β}
    (steps : Steps allowed first actions last)
    (weaken : ∀ ledger action, allowed ledger action → wider ledger action) :
    Steps wider first actions last := by
  induction steps with
  | nil ledger => exact .nil ledger
  | cons step ok rest ih => exact .cons step (weaken _ _ ok) ih

/-- The sequence rule: what allowed actions keep holds at the end, and what they
imply holds of each of them. -/
theorem Steps.invariant (Inv : Ledger α β → Prop) (Good : Action α β → Prop)
    (keeps : ∀ {before action after}, Step before action after → allowed before action →
      Inv before → Good action ∧ Inv after)
    {first last : Ledger α β}
    (steps : Steps allowed first actions last) (start : Inv first) :
    (∀ action ∈ actions, Good action) ∧ Inv last := by
  induction steps with
  | nil ledger => exact ⟨fun _ member => absurd member List.not_mem_nil, start⟩
  | @cons before middle after action actions step ok rest ih =>
    obtain ⟨good, kept⟩ := keeps step ok start
    obtain ⟨later, final⟩ := ih kept
    exact ⟨List.forall_mem_cons.mpr ⟨good, later⟩, final⟩

end

variable {actions : List (Action α β)} {allowed : Ledger α β → Action α β → Prop}
  {first last : Ledger α β}

/-- The actions of a sequence stay below a bound when items enter only below it
and nothing is held above it. -/
theorem Steps.bounded (steps : Steps allowed first actions last)
    (enters : ∀ ledger id item, allowed ledger (.accept id item) → id < bound)
    (outside : ∀ id, bound ≤ id → first id = .free) : ∀ action ∈ actions, action.id < bound := by
  refine (steps.invariant (fun current => ∀ id, bound ≤ id → current id = .free)
    (fun action => action.id < bound) (fun {before action next} step ok outside => ?_) outside).1
  have inside : action.id < bound := by
    by_contra beyond
    have free := outside action.id (Nat.le_of_not_lt beyond)
    cases step with
    | accept item isFree => exact beyond (enters _ _ _ ok)
    | park keeper held => cases free.symm.trans held
    | release held => cases (congrArg Status.item? free).symm.trans held
  refine ⟨inside, fun id beyond => ?_⟩
  have other : id ≠ action.id := by omega
  exact (step.other other).trans (outside id beyond)

def ReleaseOnly (_ : Ledger α β) (action : Action α β) : Prop :=
  ∃ id item, action = .release id item

/-- What a sequence of releases lets go was held when it began, and what it
leaves was there before. -/
theorem Steps.release_origin (steps : Steps ReleaseOnly first actions last) :
    (∀ id item, Action.release id item ∈ actions → (first id).item? = some item) ∧
      ∀ id, last id = first id ∨ last id = .free := by
  obtain ⟨each, kept⟩ := steps.invariant
    (fun current => ∀ id, current id = first id ∨ current id = .free)
    (fun action => ∀ id item, action = .release id item → (first id).item? = some item)
    (fun {before action after} step ok during => by
      obtain ⟨place, found, same⟩ := ok
      subst same
      cases step with
      | release heldItem =>
        constructor
        · intro id item same
          cases same
          rcases during place with untouched | gone
          · rwa [untouched] at heldItem
          · rw [gone] at heldItem
            cases heldItem
        · intro other
          by_cases same : other = place
          · rw [same, store_same]
            exact Or.inr rfl
          · rw [store_other _ _ same]
            exact during other)
    (fun _ => Or.inl rfl)
  exact ⟨fun id item member => each _ member id item rfl, kept⟩

/-! ## Entries and exits -/

def entered (actions : List (Action α β)) : List (Nat × α) :=
  actions.filterMap fun
    | .accept id item => some (id, item)
    | _ => none

def yielded (payload : α → Option π) (actions : List (Action α β)) : List (Nat × π) :=
  actions.flatMap fun
    | .release id item => (payload item).toList.map (id, ·)
    | _ => []

theorem entered_append (first second : List (Action α β)) :
    entered (first ++ second) = entered first ++ entered second := List.filterMap_append

theorem yielded_append (payload : α → Option π) (first second : List (Action α β)) :
    yielded payload (first ++ second) = yielded payload first ++ yielded payload second :=
  List.flatMap_append

def AcceptOnly (bound : Nat) (_ : Ledger α β) (action : Action α β) : Prop :=
  ∃ id item, action = .accept id item ∧ id < bound

theorem Steps.entered_of_release (steps : Steps ReleaseOnly first actions last) :
    entered actions = [] := by
  induction steps with
  | nil ledger => rfl
  | cons step ok rest ih =>
    obtain ⟨id, item, rfl⟩ := ok
    exact ih

theorem Steps.yielded_of_accept (steps : Steps (AcceptOnly bound) first actions last)
    (payload : α → Option π) : yielded payload actions = [] := by
  induction steps with
  | nil ledger => rfl
  | cons step ok rest ih =>
    obtain ⟨id, item, rfl, _⟩ := ok
    exact ih

theorem mem_yielded {payload : α → Option π} {id : Nat} {value : π}
    (member : (id, value) ∈ yielded payload actions) :
    ∃ item, Action.release id item ∈ actions ∧ payload item = some value := by
  obtain ⟨action, inside, leaves⟩ := List.mem_flatMap.mp member
  cases action with
  | accept other item => cases leaves
  | park other keeper => cases leaves
  | release other item =>
    obtain ⟨_, isPayload, same⟩ := List.mem_map.mp leaves
    cases same
    exact ⟨item, inside, Option.mem_toList.mp isPayload⟩

def lastUnder (entries : List (Nat × α)) (id : Nat) : Option α :=
  (entries.filter fun entry => entry.1 == id).getLast?.map Prod.snd

theorem lastUnder_append (first second : List (Nat × α)) (id : Nat) :
    lastUnder (first ++ second) id = (lastUnder second id).or (lastUnder first id) := by
  simp only [lastUnder, List.filter_append, List.getLast?_append]
  cases (second.filter fun entry => entry.1 == id).getLast? with
  | none => rfl
  | some entry => rfl

/-- What an id holds is what last entered under it. -/
theorem Steps.held_last (steps : Steps allowed first actions last) (entries : List (Nat × α))
    (known : ∀ id item, (first id).item? = some item → lastUnder entries id = some item) :
    ∀ id item, (last id).item? = some item →
      lastUnder (entries ++ entered actions) id = some item := by
  induction steps generalizing entries with
  | nil ledger =>
    intro id item held
    rw [lastUnder_append]
    exact known id item held
  | @cons before middle after action actions step ok rest ih =>
    have between : ∀ id item, (middle id).item? = some item →
        lastUnder (entries ++ entered [action]) id = some item := by
      intro id item held
      rw [lastUnder_append]
      cases step with
      | @accept place found isFree =>
        by_cases same : id = place
        · rw [same, store_same] at held
          cases held
          simp [entered, lastUnder, same]
        · rw [store_other _ _ same] at held
          have other : (place == id) = false := beq_false_of_ne (Ne.symm same)
          have before := known id item held
          simpa [entered, lastUnder, other] using before
      | @park place found keeper active =>
        refine known id item ?_
        by_cases same : id = place
        · rw [same, store_same] at held
          rw [same, active]
          exact held
        · rwa [store_other _ _ same] at held
      | @release place found heldItem =>
        refine known id item ?_
        by_cases same : id = place
        · rw [same, store_same] at held
          cases held
        · rwa [store_other _ _ same] at held
    have later := ih _ between
    rwa [List.append_assoc, ← entered_append] at later

/-- What an id holds was there before or has entered since. -/
theorem Steps.held_origin (steps : Steps allowed first actions last) :
    ∀ id item, (last id).item? = some item →
      (first id).item? = some item ∨ (id, item) ∈ entered actions := by
  induction steps with
  | nil ledger => exact fun id item held => Or.inl held
  | @cons before middle after action actions step ok rest ih =>
    intro id item held
    have sooner : (id, item) ∈ entered actions → (id, item) ∈ entered (action :: actions) := by
      intro member
      rw [← List.singleton_append, entered_append]
      exact List.mem_append_right _ member
    rcases ih id item held with between | member
    · by_cases same : id = action.id
      · cases step with
        | accept entering isFree =>
          rw [same, Action.id, store_same] at between
          cases between
          exact Or.inr (by simp [entered, same, Action.id])
        | park keeper active =>
          rw [same, Action.id, store_same] at between
          rw [same, Action.id, active]
          exact Or.inl between
        | release heldItem =>
          rw [same, Action.id, store_same] at between
          cases between
      · rw [step.other same] at between
        exact Or.inl between
    · exact Or.inr (sooner member)

/-! ## Counting -/

def Status.holds (wanted : α → Bool) (status : Status α β) : Bool := status.item?.any wanted

/-- How many of the first `bound` ids hold an item with the property. -/
def held (wanted : α → Bool) (bound : Nat) (ledger : Ledger α β) : Nat :=
  (List.range bound).countP fun id => (ledger id).holds wanted

def Action.accepts (wanted : α → Bool) : Action α β → Bool
  | .accept _ item => wanted item
  | _ => false

def Action.releases (wanted : α → Bool) : Action α β → Bool
  | .release _ item => wanted item
  | _ => false

theorem held_empty (wanted : α → Bool) (bound : Nat) :
    held wanted bound (Ledger.empty : Ledger α β) = 0 :=
  List.countP_eq_zero.mpr fun _ _ nothing => by cases nothing

theorem held_store (wanted : α → Bool) (id : Nat) (inside : id < bound) (ledger : Ledger α β)
    (status : Status α β) :
    held wanted bound (store ledger id status) + ((ledger id).holds wanted).toNat =
      held wanted bound ledger + (status.holds wanted).toNat := by
  induction bound with
  | zero => cases inside
  | succ bound ih =>
    simp only [held, List.range_succ, List.countP_append, List.countP_singleton] at ih ⊢
    by_cases last : id = bound
    · have below : (List.range bound).countP (fun i => (store ledger id status i).holds wanted) =
          (List.range bound).countP (fun i => (ledger i).holds wanted) := by
        refine List.countP_congr fun i member => ?_
        rw [store_other _ _ (Nat.ne_of_lt (last ▸ List.mem_range.mp member))]
      rw [below, ← last, store_same]
      cases (ledger id).holds wanted <;> cases status.holds wanted <;> simp
    · have rest := ih (Nat.lt_of_le_of_ne (Nat.le_of_lt_succ inside) last)
      rw [store_other _ _ (Ne.symm last)]
      omega

theorem holds_of_item {wanted : α → Bool} (status : Status α β) {item : α}
    (heldItem : status.item? = some item) : status.holds wanted = wanted item := by
  rw [Status.holds, heldItem]
  rfl

theorem entered_count (wanted : α → Bool) (actions : List (Action α β)) :
    (entered actions).countP (fun entry => wanted entry.2) =
      actions.countP (Action.accepts wanted) := by
  induction actions with
  | nil => rfl
  | cons action rest ih =>
    rw [List.countP_cons, ← ih]
    cases action with
    | accept id item => exact List.countP_cons
    | park id keeper => rfl
    | release id item => rfl

theorem yielded_count (payload : α → Option π) (wanted : π → Bool) (actions : List (Action α β)) :
    (yielded payload actions).countP (fun entry => wanted entry.2) =
      actions.countP (Action.releases fun item => (payload item).any wanted) := by
  induction actions with
  | nil => rfl
  | cons action rest ih =>
    rw [yielded, List.flatMap_cons, List.countP_append, List.countP_cons]
    change _ + (yielded payload rest).countP _ = _
    rw [ih, Nat.add_comm]
    congr 1
    cases action with
    | accept id item => rfl
    | park id keeper => rfl
    | release id item =>
      cases value : payload item with
      | none => simp [Action.releases, value]
      | some value => simp [Action.releases, value, List.countP_singleton]

/-- One action keeps the balance of items that entered, left and are held. -/
theorem Step.balance {action : Action α β} (step : Step before action after)
    (inside : action.id < bound) (wanted : α → Bool) :
    (action.accepts wanted).toNat + held wanted bound before =
      (action.releases wanted).toNat + held wanted bound after := by
  cases step with
  | @accept id item isFree =>
    have counted := held_store wanted id inside before (.active item)
    rw [isFree, holds_of_item (.active item) rfl] at counted
    simpa [Action.accepts, Action.releases, Status.holds, Status.item?, Nat.add_comm]
      using counted.symm
  | @park id item keeper heldItem =>
    have counted := held_store wanted id inside before (.parked item keeper)
    rw [heldItem, holds_of_item (.active item) rfl,
      holds_of_item (.parked item keeper) rfl] at counted
    simpa [Action.accepts, Action.releases] using counted.symm
  | @release id item heldItem =>
    have counted := held_store wanted id inside before .free
    rw [holds_of_item _ heldItem] at counted
    simpa [Action.accepts, Action.releases, Status.holds, Status.item?, Nat.add_comm]
      using counted.symm

/-- The balance of a whole sequence: what entered and was held is what left and
is held. -/
theorem Steps.balance (steps : Steps allowed before actions after)
    (inside : ∀ action ∈ actions, action.id < bound) (wanted : α → Bool) :
    actions.countP (Action.accepts wanted) + held wanted bound before =
      actions.countP (Action.releases wanted) + held wanted bound after := by
  induction steps with
  | nil ledger => rfl
  | @cons first second third action rest step ok steps ih =>
    have here := step.balance (inside action List.mem_cons_self) wanted
    have later := ih fun other member => inside other (List.mem_cons_of_mem _ member)
    rw [List.countP_cons, List.countP_cons]
    cases accepts : action.accepts wanted <;> cases releases : action.releases wanted <;>
      simp only [accepts, releases, Bool.toNat_true, Bool.toNat_false] at here ⊢ <;>
      simp only [if_true, Bool.false_eq_true, if_false] <;> omega

end EnaDriver.Support.Custody
