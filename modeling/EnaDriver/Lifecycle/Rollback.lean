import EnaDriver.Admin.Encodings
import EnaDriver.Lifecycle.HeldRuns
import EnaDriver.Support.Gaps

/-!
# Taking back a start

Starting creates the queues of the attached rings, and an error takes back the
queues of the rings below the number created.  The calls on queues are recorded
beside the programs that make them.  Number and index agree exactly where the
attached rings come first, and otherwise queues of the failed start stay behind.
-/

namespace EnaDriver.Lifecycle

open Support.Programs Support.Runs Support.Gaps Datapath Admin

/-! ## Calls on queues -/

inductive QueueCall where
  | create (side : RingType) (q : Nat) (ret : Int)
  | destroy (side : RingType) (q : Nat)
deriving DecidableEq, Repr

def QueueCall.created? : QueueCall → Option (RingType × Nat)
  | .create side q ret => if ret = 0 then some (side, q) else none
  | .destroy _ _ => none

def QueueCall.destroyed? : QueueCall → Option (RingType × Nat)
  | .create _ _ _ => none
  | .destroy side q => some (side, q)

/-- The rings that were destroyed are the rings that were created, each as often. -/
def TakenBack (calls : List QueueCall) : Prop :=
  (calls.filterMap QueueCall.destroyed?).Perm (calls.filterMap QueueCall.created?)

instance (calls : List QueueCall) : Decidable (TakenBack calls) :=
  inferInstanceAs (Decidable (List.Perm _ _))

section Recorded

variable (exec : CtrlExec)

def destroyHwCalls (side : RingType) (q : Nat) : Driver (List QueueCall) := do
  let found ← cell side q
  if found.isSome then
    noteRing side q
    let _ ← enaRingDestroyHw (exec []) (portAccess side q)
    return [.destroy side q]
  else
    return []

def createRingsCalls (side : RingType) : List Nat → Driver (Created × List QueueCall)
  | [] => return (⟨0, 0⟩, [])
  | q :: rest => do
    let found ← cell side q
    if found.isSome then
      let ret ← createHw exec side q
      if ret ≠ 0 then
        return (⟨ret, 0⟩, [.create side q ret])
      let later ← createRingsCalls side rest
      return (⟨later.1.ret, later.1.count + 1⟩, .create side q ret :: later.2)
    else
      createRingsCalls side rest

def destroyEachCalls (side : RingType) : List Nat → Driver (List QueueCall)
  | [] => return []
  | q :: rest => do
    let here ← destroyHwCalls exec side q
    let later ← destroyEachCalls side rest
    return here ++ later

def startRingsHwCalls (nbRx nbTx : Nat) : Driver (Int × List QueueCall) := do
  let tx ← createRingsCalls exec .tx (List.range nbTx)
  if tx.1.ret ≠ 0 then
    let undone ← destroyEachCalls exec .tx (List.range tx.1.count)
    return (tx.1.ret, tx.2 ++ undone)
  let rx ← createRingsCalls exec .rx (List.range nbRx)
  if rx.1.ret ≠ 0 then
    let undoneRx ← destroyEachCalls exec .rx (List.range rx.1.count)
    let undoneTx ← destroyEachCalls exec .tx (List.range tx.1.count)
    return (rx.1.ret, tx.2 ++ rx.2 ++ undoneRx ++ undoneTx)
  enaIntrUnmaskAll
  return (0, tx.2 ++ rx.2)

/-! ### The record changes nothing -/

theorem destroyHwCalls_erase (side : RingType) (q : Nat) :
    (fun _ => ()) <$> destroyHwCalls exec side q = destroyHw exec side q := by
  simp only [destroyHwCalls, destroyHw, map_bind]
  congr 1
  funext found
  split <;> simp

theorem createRingsCalls_erase (side : RingType) (indices : List Nat) :
    Prod.fst <$> createRingsCalls exec side indices = createRings exec side indices := by
  induction indices with
  | nil => rfl
  | cons q rest ih =>
    simp only [createRingsCalls, createRings, map_bind]
    congr 1
    funext found
    split
    · simp only [map_bind]
      congr 1
      funext ret
      split
      · simp
      · rw [← ih]
        simp
    · exact ih

theorem destroyEachCalls_erase (side : RingType) (indices : List Nat) :
    (fun _ => ()) <$> destroyEachCalls exec side indices = indices.forM (destroyHw exec side) := by
  induction indices with
  | nil => rfl
  | cons q rest ih =>
    have step : (q :: rest).forM (destroyHw exec side) =
        destroyHw exec side q >>= fun _ => rest.forM (destroyHw exec side) := rfl
    rw [step, ← ih, ← destroyHwCalls_erase]
    simp [destroyEachCalls]

theorem startRingsHwCalls_erase (nbRx nbTx : Nat) :
    Prod.fst <$> startRingsHwCalls exec nbRx nbTx = enaNetdevStartRingsHw exec nbRx nbTx := by
  have undo := fun side bound => destroyEachCalls_erase exec side (List.range bound)
  simp only [startRingsHwCalls, enaNetdevStartRingsHw, destroyRings, ← createRingsCalls_erase, ← undo,
    map_bind, bind_map_left]
  congr 1
  funext tx
  split
  · simp
  · simp only [map_bind]
    congr 1
    funext rx
    split <;> simp

end Recorded

/-! ## The calls of a start -/

def attached (m : Machine) (side : RingType) (q : Nat) : Bool := (ringAt side q m).isSome

section Spec

variable {frame : Frame} {m : Machine} {side : RingType} {q : Nat}

def filled (frame : Frame) (side : RingType) (q : Nat) : Bool := (cells frame side)[q]?.getD false

theorem filled_iff : filled frame side q = true ↔ (cells frame side)[q]? = some true := by
  unfold filled
  cases (cells frame side)[q]? <;> simp

theorem filled_rings (fits : frame.Fits m) :
    filled frame side q = ((rings side m)[q]?.getD none).isSome := by
  rw [filled, ← fits_cells fits side, List.getElem?_map]
  cases (rings side m)[q]? <;> rfl

theorem attached_filled (fits : frame.Fits m) : attached m side = filled frame side := by
  funext q
  rw [filled_rings fits]
  cases side with
  | tx =>
    change (m.tx[q]?.bind fun cell => cell.map TxPort.ring).isSome = (m.tx[q]?.getD none).isSome
    rcases m.tx[q]? with _ | _ | _ <;> rfl
  | rx =>
    change (m.rx[q]?.bind fun cell => cell.map RxPort.ring).isSome = (m.rx[q]?.getD none).isSome
    rcases m.rx[q]? with _ | _ | _ <;> rfl

theorem cell_filled (fits : frame.Fits m) (inside : cells frame side = [] ∨ q < counted frame side) :
    ∃ found, cell side q m = .ok (found, m) ∧ found.isSome = filled frame side q := by
  obtain ⟨found, ran, _⟩ := cell_run fits inside
  refine ⟨found, ran, ?_⟩
  have read : (ringCell (rings side m) q >>= fun found => Except.ok (found, m)) = .ok (found, m) := ran
  rw [filled_rings fits]
  unfold ringCell at read
  split at read
  · rename_i empty
    cases read
    rw [List.isEmpty_iff.mp empty]
    rfl
  split at read
  · cases read
  · rename_i stored
    cases read
    rw [stored]
    rfl

/-- What the creations of a direction record: all filled cells, or those before a
cell at which creation fails. -/
def CreationRecord (frame : Frame) (side : RingType) (indices : List Nat)
    (run : Created × List QueueCall) : Prop :=
  (run.1.ret = 0 ∧ run.1.count = (indices.filter (filled frame side)).length ∧
      run.2 = (indices.filter (filled frame side)).map (.create side · 0)) ∨
    (run.1.ret ≠ 0 ∧ ∃ before q after, indices = before ++ q :: after ∧
      run.1.count = (before.filter (filled frame side)).length ∧
      run.2 = (before.filter (filled frame side)).map (.create side · 0) ++ [.create side q run.1.ret])

variable {run : Created × List QueueCall}

theorem CreationRecord.skip {rest : List Nat} (absent : ¬ filled frame side q = true)
    (later : CreationRecord frame side rest run) :
    CreationRecord frame side (q :: rest) run := by
  rcases later with ⟨zero, count, calls⟩ | ⟨nonzero, before, at_, after, split, count, calls⟩
  · left
    rw [List.filter_cons_of_neg absent]
    exact ⟨zero, count, calls⟩
  refine .inr ⟨nonzero, q :: before, at_, after, ?_, ?_⟩
  · rw [split]
    rfl
  · rw [List.filter_cons_of_neg absent]
    exact ⟨count, calls⟩

theorem CreationRecord.step {rest : List Nat} (here : filled frame side q = true)
    (later : CreationRecord frame side rest run) :
    CreationRecord frame side (q :: rest)
      (⟨run.1.ret, run.1.count + 1⟩, .create side q 0 :: run.2) := by
  rcases later with ⟨zero, count, calls⟩ | ⟨nonzero, before, at_, after, split, count, calls⟩
  · left
    rw [List.filter_cons_of_pos here, count, calls]
    exact ⟨zero, rfl, rfl⟩
  refine .inr ⟨nonzero, q :: before, at_, after, ?_, ?_⟩
  · rw [split]
    rfl
  · rw [List.filter_cons_of_pos here, count, calls]
    exact ⟨rfl, rfl⟩

variable {exec : CtrlExec} (command : ∀ ctrl req, KeepsUnheld frame false (exec ctrl req))

include command

theorem destroyHwCalls_spec (inside : cells frame side = [] ∨ q < counted frame side)
    (held : Unheld frame false m) :
    Returns (destroyHwCalls exec side q) m fun calls next =>
      calls = ([q].filter (filled frame side)).map (.destroy side) ∧ Unheld frame false next := by
  obtain ⟨found, ran, same⟩ := cell_filled held.fits inside
  refine Returns.after ran ?_
  rw [same]
  split
  · rename_i here
    refine (keeps_record _ m held).bind fun _ noted first => ?_
    have access := portAccess_keeps command (filled_iff.mp here)
    refine (access.destroyHw noted first.1).bind fun _ next second => ?_
    refine Returns.pure ⟨?_, second.1⟩
    rw [List.filter_cons_of_pos here]
    rfl
  · rename_i absent
    refine Returns.pure ⟨?_, held⟩
    rw [List.filter_cons_of_neg absent]
    rfl

theorem destroyEachCalls_spec {indices : List Nat}
    (inside : ∀ q ∈ indices, cells frame side = [] ∨ q < counted frame side)
    (held : Unheld frame false m) :
    Returns (destroyEachCalls exec side indices) m fun calls next =>
      calls = (indices.filter (filled frame side)).map (.destroy side) ∧ Unheld frame false next := by
  induction indices generalizing m with
  | nil => exact Returns.pure ⟨rfl, held⟩
  | cons q rest ih =>
    have later := fun other member => inside other (List.mem_cons_of_mem q member)
    refine (destroyHwCalls_spec command (inside q List.mem_cons_self) held).bind ?_
    rintro here between ⟨rfl, held₁⟩
    refine (ih later held₁).bind ?_
    rintro more next ⟨rfl, held₂⟩
    refine Returns.pure ⟨?_, held₂⟩
    rw [← List.map_append, ← List.filter_append]
    rfl

theorem createRingsCalls_spec {indices : List Nat}
    (inside : ∀ q ∈ indices, cells frame side = [] ∨ q < counted frame side)
    (held : Unheld frame false m) :
    Returns (createRingsCalls exec side indices) m fun run next =>
      CreationRecord frame side indices run ∧ Unheld frame false next := by
  induction indices generalizing m with
  | nil => exact Returns.pure ⟨.inl ⟨rfl, rfl, rfl⟩, held⟩
  | cons q rest ih =>
    have later := fun other member => inside other (List.mem_cons_of_mem q member)
    obtain ⟨found, ran, same⟩ := cell_filled held.fits (inside q List.mem_cons_self)
    refine Returns.after ran ?_
    rw [same]
    split
    · rename_i here
      refine (createHw_keeps command (filled_iff.mp here) m held).bind fun ret between first => ?_
      split
      · rename_i failed
        exact Returns.pure ⟨.inr ⟨failed, [], q, rest, rfl, rfl, rfl⟩, first.1⟩
      rename_i succeeded
      have zero : ret = 0 := Decidable.not_not.mp succeeded
      subst zero
      refine (ih later first.1).bind fun run next facts => ?_
      exact Returns.pure ⟨facts.1.step here, facts.2⟩
    · rename_i absent
      exact (ih later held).mono fun run next facts => ⟨facts.1.skip absent, facts.2⟩

omit command in
/-- Where creation fails at an index, it was reached from the start of the range. -/
theorem CreationRecord.failed {bound : Nat}
    (recorded : CreationRecord frame side (List.range bound) run) (nonzero : run.1.ret ≠ 0) :
    ∃ f, f < bound ∧ run.1.count = (below (filled frame side) f).length ∧
      run.2 = (below (filled frame side) f).map (.create side · 0) ++ [.create side f run.1.ret] := by
  rcases recorded with ⟨zero, _⟩ | ⟨_, before, f, after, split, count, calls⟩
  · exact absurd zero nonzero
  · obtain ⟨rfl, inside⟩ := range_split split
    exact ⟨f, inside, count, calls⟩

omit command in
theorem CreationRecord.succeeded {bound : Nat}
    (recorded : CreationRecord frame side (List.range bound) run) (zero : ¬ run.1.ret ≠ 0) :
    run.1.count = (below (filled frame side) bound).length ∧
      run.2 = (below (filled frame side) bound).map (.create side · 0) := by
  rcases recorded with ⟨_, facts⟩ | ⟨nonzero, _⟩
  · exact facts
  · exact absurd nonzero zero

end Spec

/-! ## Number and index -/

section Records

variable {side : RingType} (indices : List Nat)

@[simp] theorem created_creates :
    (indices.map (QueueCall.create side · 0)).filterMap QueueCall.created? =
      indices.map (Prod.mk side) := by
  rw [List.filterMap_map, ← List.filterMap_eq_map]
  rfl

@[simp] theorem created_destroys :
    (indices.map (QueueCall.destroy side)).filterMap QueueCall.created? = [] := by
  rw [List.filterMap_map, List.filterMap_eq_nil_iff]
  exact fun _ _ => rfl

@[simp] theorem destroyed_creates :
    (indices.map (QueueCall.create side · 0)).filterMap QueueCall.destroyed? = [] := by
  rw [List.filterMap_map, List.filterMap_eq_nil_iff]
  exact fun _ _ => rfl

@[simp] theorem destroyed_destroys :
    (indices.map (QueueCall.destroy side)).filterMap QueueCall.destroyed? =
      indices.map (Prod.mk side) := by
  rw [List.filterMap_map, ← List.filterMap_eq_map]
  rfl

@[simp] theorem created_failed {q : Nat} {ret : Int} (nonzero : ret ≠ 0) :
    [QueueCall.create side q ret].filterMap QueueCall.created? = [] := by
  simp [QueueCall.created?, nonzero]

@[simp] theorem destroyed_failed {q : Nat} {ret : Int} :
    [QueueCall.create side q ret].filterMap QueueCall.destroyed? = [] := rfl

end Records

def indicesOf (side : RingType) (ring : RingType × Nat) : Option Nat :=
  if ring.1 = side then some ring.2 else none

theorem indicesOf_map (side other : RingType) (indices : List Nat) :
    (indices.map (Prod.mk other)).filterMap (indicesOf side) =
      if other = side then indices else [] := by
  induction indices with
  | nil => simp
  | cons q rest ih =>
    rw [List.map_cons, List.filterMap_cons, ih]
    by_cases same : other = side
    · rw [if_pos same, if_pos same, indicesOf, if_pos same]
    · rw [if_neg same, if_neg same, indicesOf, if_neg same]

/-- Rings of two directions are the same in another order if they are in each. -/
theorem sides_perm_iff {rx tx rx' tx' : List Nat} :
    (rx.map (Prod.mk RingType.rx) ++ tx.map (Prod.mk RingType.tx)).Perm
        (tx'.map (Prod.mk RingType.tx) ++ rx'.map (Prod.mk RingType.rx)) ↔
      rx.Perm rx' ∧ tx.Perm tx' := by
  constructor
  · intro same
    have each := fun side => same.filterMap (indicesOf side)
    simp only [List.filterMap_append, indicesOf_map] at each
    exact ⟨by simpa using each .rx, by simpa using each .tx⟩
  · rintro ⟨rxSame, txSame⟩
    exact ((rxSame.map _).append (txSame.map _)).trans List.perm_append_comm

theorem side_perm_iff {side : RingType} {some_ other : List Nat} :
    (some_.map (Prod.mk side)).Perm (other.map (Prod.mk side)) ↔ some_.Perm other :=
  List.map_perm_map_iff fun _ _ same => (Prod.mk.inj same).2

section Failures

variable (tx rx : Nat → Bool) (nbTx f : Nat) {ret : Int} (nonzero : ret ≠ 0)

def txFailure (ret : Int) : List QueueCall :=
  (below tx f).map (.create .tx · 0) ++ [.create .tx f ret] ++
    (below tx (below tx f).length).map (.destroy .tx)

def rxFailure (ret : Int) : List QueueCall :=
  (below tx nbTx).map (.create .tx · 0) ++
    ((below rx f).map (.create .rx · 0) ++ [.create .rx f ret]) ++
    (below rx (below rx f).length).map (.destroy .rx) ++
    (below tx (below tx nbTx).length).map (.destroy .tx)

include nonzero

theorem takenBack_txFailure_iff : TakenBack (txFailure tx f ret) ↔ NoGap tx f := by
  simp only [TakenBack, txFailure, List.filterMap_append, created_creates, created_destroys,
    destroyed_creates, destroyed_destroys, created_failed nonzero, destroyed_failed, List.nil_append,
    List.append_nil]
  rw [side_perm_iff]
  exact recount_perm_iff

theorem takenBack_rxFailure_iff :
    TakenBack (rxFailure tx rx nbTx f ret) ↔ NoGap rx f ∧ NoGap tx nbTx := by
  simp only [TakenBack, rxFailure, List.filterMap_append, created_creates, created_destroys,
    destroyed_creates, destroyed_destroys, created_failed nonzero, destroyed_failed, List.nil_append,
    List.append_nil]
  rw [sides_perm_iff]
  exact and_congr recount_perm_iff recount_perm_iff

omit nonzero

theorem failed_mem_txFailure {side : RingType} {q : Nat} {code : Int}
    (member : .create side q code ∈ txFailure tx f ret) (failed : code ≠ 0) : side = .tx ∧ q = f := by
  simp only [txFailure, List.mem_append, List.mem_map, List.mem_singleton, QueueCall.create.injEq,
    reduceCtorEq, and_false, exists_const, or_false] at member
  rcases member with ⟨_, _, _, _, zero⟩ | ⟨here, same, _⟩
  · exact absurd zero.symm failed
  · exact ⟨here, same⟩

theorem failed_mem_rxFailure {side : RingType} {q : Nat} {code : Int}
    (member : .create side q code ∈ rxFailure tx rx nbTx f ret) (failed : code ≠ 0) :
    side = .rx ∧ q = f := by
  simp only [rxFailure, List.mem_append, List.mem_map, List.mem_singleton, QueueCall.create.injEq,
    reduceCtorEq, and_false, exists_const, or_false] at member
  rcases member with ⟨_, _, _, _, zero⟩ | ⟨_, _, _, _, zero⟩ | ⟨here, same, _⟩
  · exact absurd zero.symm failed
  · exact absurd zero.symm failed
  · exact ⟨here, same⟩

end Failures

/-- A start makes the calls of a failure at a transmit ring, of a failure at a receive
ring, or creations that all succeed. -/
theorem startRingsHwCalls_spec {frame : Frame} {exec : CtrlExec}
    (command : ∀ ctrl req, KeepsUnheld frame false (exec ctrl req)) {nbRx nbTx : Nat}
    (rx : Visitable frame .rx nbRx) (tx : Visitable frame .tx nbTx)
    (counts : ∀ side, cells frame side = [] ∨ counted frame side ≠ 0) {m : Machine}
    (held : Unheld frame false m) :
    Returns (startRingsHwCalls exec nbRx nbTx) m fun run _ =>
      (∃ f, run.1 ≠ 0 ∧ run.2 = txFailure (filled frame .tx) f run.1) ∨
      (∃ f, run.1 ≠ 0 ∧ run.2 = rxFailure (filled frame .tx) (filled frame .rx) nbTx f run.1) ∨
      ∀ side q ret, .create side q ret ∈ run.2 → ret = 0 := by
  refine (createRingsCalls_spec command (fun _ => tx.mem) held).bind ?_
  rintro txMade s₁ ⟨txRecord, held₁⟩
  split
  · rename_i nonzero
    obtain ⟨f, inside, count, calls⟩ := txRecord.failed nonzero
    have few : txMade.1.count ≤ nbTx := by
      rw [count]
      exact Nat.le_trans below_length_le (Nat.le_of_lt inside)
    refine (destroyEachCalls_spec command (fun _ => (tx.mono few).mem) held₁).bind ?_
    rintro undone s₂ ⟨rfl, _⟩
    refine Returns.pure (.inl ⟨f, nonzero, ?_⟩)
    rw [calls, count]
    rfl
  rename_i txZero
  obtain ⟨txCount, txCalls⟩ := txRecord.succeeded txZero
  refine (createRingsCalls_spec command (fun _ => rx.mem) held₁).bind ?_
  rintro rxMade s₂ ⟨rxRecord, held₂⟩
  split
  · rename_i nonzero
    obtain ⟨f, inside, count, calls⟩ := rxRecord.failed nonzero
    have few : rxMade.1.count ≤ nbRx := by
      rw [count]
      exact Nat.le_trans below_length_le (Nat.le_of_lt inside)
    have txFew : txMade.1.count ≤ nbTx := by
      rw [txCount]
      exact below_length_le
    refine (destroyEachCalls_spec command (fun _ => (rx.mono few).mem) held₂).bind ?_
    rintro undoneRx s₃ ⟨rfl, held₃⟩
    refine (destroyEachCalls_spec command (fun _ => (tx.mono txFew).mem) held₃).bind ?_
    rintro undoneTx s₄ ⟨rfl, _⟩
    refine Returns.pure (.inr (.inl ⟨f, nonzero, ?_⟩))
    rw [txCalls, calls, count, txCount]
    rfl
  · rename_i rxZero
    obtain ⟨_, rxCalls⟩ := rxRecord.succeeded rxZero
    refine ((unmaskAll_keeps counts).unheld s₂ held₂).bind fun _ s₃ _ => ?_
    refine Returns.pure (.inr (.inr fun side q ret member => ?_))
    rw [txCalls, rxCalls] at member
    simp only [List.mem_append, List.mem_map, QueueCall.create.injEq] at member
    rcases member with ⟨_, _, _, _, zero⟩ | ⟨_, _, _, _, zero⟩ <;> exact zero.symm

/-- A start whose creation fails at a ring destroys exactly the queues it created
if and only if no ring is missing before an attached one, among the rings of that
direction up to the failure and, where the failure is at a receive ring, among all
transmit rings. -/
theorem startRingsHw_takes_back_iff (env : Env) {tight : Prop} {m : Machine} (sound : Sound tight m) {nbRx nbTx : Nat}
    (rxCount : nbRx ≤ m.adapter.numRxRings) (txCount : nbTx ≤ m.adapter.numTxRings) :
    Returns (startRingsHwCalls (driverExec env 1) nbRx nbTx) m fun run next =>
      enaNetdevStartRingsHw (driverExec env 1) nbRx nbTx m = .ok (run.1, next) ∧
      ∀ side q ret, .create side q ret ∈ run.2 → ret ≠ 0 →
        (TakenBack run.2 ↔
          NoGap (attached m side) q ∧ (side = .rx → NoGap (attached m .tx) nbTx)) := by
  obtain ⟨run, next, ran, facts⟩ := startRingsHwCalls_spec (driverExec_unheld env sound.frame)
    (sound.visitable rxCount) (sound.visitable txCount) sound.counts sound.unheld
  refine ⟨run, next, ran, ?_, fun side q ret member failed => ?_⟩
  · rw [← startRingsHwCalls_erase, run_map, ran]
    rfl
  have same := fun side => @attached_filled _ _ side sound.unheld.fits
  rcases facts with ⟨f, nonzero, calls⟩ | ⟨f, nonzero, calls⟩ | none
  · rw [calls] at member ⊢
    obtain ⟨rfl, rfl⟩ := failed_mem_txFailure _ _ member failed
    rw [takenBack_txFailure_iff _ _ nonzero, same]
    exact ⟨fun noGap => ⟨noGap, nofun⟩, And.left⟩
  · rw [calls] at member ⊢
    obtain ⟨rfl, rfl⟩ := failed_mem_rxFailure _ _ _ _ member failed
    rw [takenBack_rxFailure_iff _ _ _ _ nonzero, same, same]
    exact ⟨fun noGap => ⟨noGap.1, fun _ => noGap.2⟩, fun noGap => ⟨noGap.1, noGap.2 rfl⟩⟩
  · exact absurd (none side q ret member) failed

/-! ## Small starts -/

def refusingReception : Env :=
  { Env.obliging with
    answer := fun _ entry =>
      .completes (if entry.opcode = 1 ∧ entry.createdDirection = 2 then 1 else 0) fun _ => 0 }

theorem refusingReception_prompt : Prompt refusingReception True := by
  intro t entry
  refine ⟨_, _, rfl, ?_, ?_⟩
  · split <;> decide
  · intro _ destroys
    rcases destroys with opcode | opcode <;>
      exact if_neg fun refused => absurd (opcode.symm.trans refused.1) (by decide)

def configureSecond : List Call :=
  [.configure false 1 2, .txqConfigure false 1 4, .rxqConfigure false 0 4 true]

theorem configureSecond_sound {last : Machine}
    (ran : run (hostStep refusingReception) scalingQueues configureSecond = .ok last) : Sound False last := by
  have prepared : Meets (hostStep refusingReception) (Prepared refusingReception) scalingQueues
      configureSecond :=
    ⟨fun _ => ⟨fun present => absurd rfl present, fun present => absurd rfl present⟩,
      fun _ _ => ⟨trivial, fun _ _ => ⟨trivial, fun _ _ => trivial⟩⟩⟩
  obtain ⟨_, again, kept⟩ := scalingQueues_unused.run_kept refusingReception_prompt prepared
  cases ran.symm.trans again
  exact kept.orderly.1

theorem startRingsHw_takes_back_iff_second :
    ∃ m, run (hostStep refusingReception) scalingQueues configureSecond = .ok m ∧
      Returns (startRingsHwCalls (driverExec refusingReception 1) 1 2) m fun out next =>
        enaNetdevStartRingsHw (driverExec refusingReception 1) 1 2 m = .ok (out.1, next) ∧
        ∀ side q ret, .create side q ret ∈ out.2 → ret ≠ 0 →
          (TakenBack out.2 ↔
            NoGap (attached m side) q ∧ (side = .rx → NoGap (attached m .tx) 2)) := by
  have observed : (run (hostStep refusingReception) scalingQueues configureSecond).toOption.map
      (fun m => (m.adapter.numRxRings, m.adapter.numTxRings)) = some (1, 2) := by
    decide +kernel
  obtain ⟨m, ran, counts⟩ := ok_of_observed observed
  obtain ⟨rx, tx⟩ := Prod.mk.inj counts
  exact ⟨m, ran, startRingsHw_takes_back_iff refusingReception (configureSecond_sound ran)
    (Nat.le_of_eq rx.symm) (Nat.le_of_eq tx.symm)⟩

/-- With the second transmit ring attached and the first one missing, the start takes
back the queues of the first transmit ring: those of the second one stay. -/
theorem start_leaves_second_ring :
    Prompt refusingReception True ∧
    ∃ m calls next, run (hostStep refusingReception) scalingQueues configureSecond = .ok m ∧
      startRingsHwCalls (driverExec refusingReception 1) 1 2 m = .ok ((-1, calls), next) ∧
      calls = [.create .tx 1 0, .create .rx 0 (-1)] ∧ ¬ TakenBack calls ∧
      (owned (some (.tx, 1)) next.log).sqs.length = 1 := by
  refine ⟨refusingReception_prompt, ?_⟩
  have observed : ((run (hostStep refusingReception) scalingQueues configureSecond).bind fun m =>
      (startRingsHwCalls (driverExec refusingReception 1) 1 2 m).map fun out =>
        (m, out)).toOption.map
      (fun seen => (seen.2.1, (owned (some (.tx, 1)) seen.2.2.log).sqs.length)) =
      some ((-1, [.create .tx 1 0, .create .rx 0 (-1)]), 1) := by
    decide +kernel
  obtain ⟨⟨m, out⟩, ran, seen⟩ := ok_of_observed observed
  obtain ⟨result, owns⟩ := Prod.mk.inj seen
  cases first : run (hostStep refusingReception) scalingQueues configureSecond with
  | error fault =>
    rw [first] at ran
    cases ran
  | ok start =>
    rw [first] at ran
    cases second : startRingsHwCalls (driverExec refusingReception 1) 1 2 start with
    | error fault =>
      change (startRingsHwCalls _ 1 2 start).map _ = _ at ran
      rw [second] at ran
      cases ran
    | ok ended =>
      change (startRingsHwCalls _ 1 2 start).map _ = _ at ran
      rw [second] at ran
      cases ran
      obtain ⟨⟨ret, calls⟩, next⟩ := out
      cases result
      exact ⟨m, _, next, rfl, second, rfl, by decide, owns⟩

end EnaDriver.Lifecycle
