import EnaDriver.Lifecycle.OwnedQueues

/-!
# Creation and destruction of the queues of many rings

What start, rollback and stop do to the queues that the device holds for each ring.
A loop over rings touches each of them once, so what one iteration establishes for
its ring is still there at the end.  A creation loop that stops at an error has
created queues for a first part of its rings, and the number that the rollback uses
does not reach beyond that part.
-/

namespace EnaDriver.Lifecycle

open Support.Programs Datapath Admin

/-! ## One ring -/

def book (side : RingType) (q : Nat) (m : Machine) : Option HwQueue × HeldQueues :=
  (hwAt side q m, owned (some (side, q)) m.log)

variable {bound nbRx nbTx : Nat} {indices : List Nat} {next : Machine}

theorem Spares.book {who : RingType → Nat → Prop} {m : Machine} (spares : Spares who m next)
    {side : RingType} {q : Nat} (spared : ¬ who side q) : book side q next = book side q m :=
  Prod.ext (spares.hw side q spared) (spares.owned side q spared)

/-- The device holds the two queues that the ring stores. -/
def Live (entry : Option HwQueue × HeldQueues) : Prop :=
  ∃ hw, entry.1 = some hw ∧ hw.cqIdx < 2 ^ 16 ∧ hw.sqIdx < 2 ^ 16 ∧
    entry.2.HasCq hw.cqIdx ∧ entry.2.HasSq hw.sqIdx

def Added (before after : Option HwQueue × HeldQueues) : Prop :=
  ∃ hw cq sq, after.1 = some hw ∧ cq.idx = hw.cqIdx ∧ sq.idx = hw.sqIdx ∧ sq.cqIdx = hw.cqIdx ∧
    after.2 = (before.2.addCq cq).addSq sq

section One

variable {frame : Frame} {reliable : Prop} {env : Env} {side : RingType} {q : Nat} {m : Machine}

theorem Steady.noted (steady : Steady frame reliable m) (side : RingType) (q : Nat) :
    Steady frame reliable (m.logged [.ring side q []]) where
  unheld := steady.unheld.logged _
  clean := steady.clean.append_one trivial
  ready := fun sure => ⟨(steady.ready sure).queues, (steady.ready sure).alive, (steady.ready sure).unlocked⟩

theorem spares_noted {who : RingType → Nat → Prop} (side : RingType) (q : Nat) :
    Spares who m (m.logged [.ring side q []]) := by
  refine Spares.logged (fun effect member => ?_) rfl rfl rfl fun other i => ?_
  · rw [List.mem_singleton.mp member]
    trivial
  · exact congrArg (Option.map Ring.hw) (ringAt_logged _)

theorem current_noted (side : RingType) (q : Nat) :
    current (m.logged [.ring side q []]).log = some (side, q) := by
  rw [Machine.logged_log, current_append]
  rfl

theorem owned_noted (who : Owner) (side : RingType) (q : Nat) :
    owned who (m.logged [.ring side q []]).log = owned who m.log :=
  owned_quiet (show Quiet (.ring side q []) from trivial) who m.log

theorem hwAt_ringOf (reliable : Prop) (attached : (cells frame side)[q]? = some true) (fits : frame.Fits m) :
    hwAt side q m = some ((ownView frame reliable side q).ringOf m).hw := by
  obtain ⟨r, found⟩ := attached_ringAt fits attached
  simp [hwAt, ownView, found]

/-- A read that finds no ring. -/
theorem cell_absent (fits : frame.Fits m) (ran : cell side q m = .ok (none, m)) :
    (cells frame side)[q]? ≠ some true := by
  intro attached
  rw [← fits_cells fits side] at attached
  obtain ⟨port, stored⟩ := attached_of_isSome attached
  have read : cell side q m = .ok (some port, m) := by
    change (ringCell (rings side m) q >>= fun found => Except.ok (found, m)) = _
    rw [ringCell_attached stored]
    rfl
  rw [read] at ran
  cases ran

theorem createHw_owned (prompt : Prompt env reliable) (nesting : Nat)
    (attached : (cells frame side)[q]? = some true) (steady : Steady frame reliable m) :
    Returns (createHw (driverExec env nesting) side q) m fun ret next =>
      Steady frame reliable next ∧ Spares (Only side q) m next ∧
      (ret = 0 → Live (book side q next) ∧ (reliable → Added (book side q m) (book side q next))) ∧
      (ret ≠ 0 → reliable → (book side q next).2 = (book side q m).2) := by
  refine Returns.after rfl (Returns.after (adapter_run _) ?_)
  have serves : Serves (ownView frame reliable side q) _ _ :=
    ownView_serves prompt attached nesting
  have started : (ownView frame reliable side q).inv (m.logged [.ring side q []]) :=
    ⟨steady.noted side q, current_noted side q⟩
  have before : (ownView frame reliable side q).held (m.logged [.ring side q []]) =
      owned (some (side, q)) m.log := owned_noted _ side q
  refine (serves.ringCreateHw m.adapter.map started (queueVector m.adapter q)).mono ?_
  rintro ret next ⟨moved, made, failed⟩
  have kept := moved.inv.1
  have hw := hwAt_ringOf reliable attached kept.unheld.fits
  refine ⟨kept, Spares.trans _ _ _ (spares_noted side q) moved.rel, fun zero => ?_, fun nonzero sure => ?_⟩
  · obtain ⟨_, _, base, placement, left, added, _, cqSmall, sqSmall⟩ := made zero
    rw [before] at left
    change owned (some (side, q)) next.log = _ at added
    have hasCq : base.HasCq ((ownView frame reliable side q).ringOf next).hw.cqIdx :=
      left.hasCq (HeldQueues.addCq_hasCq _ _)
    refine ⟨⟨_, hw, cqSmall, sqSmall, ?_, ?_⟩, fun sure => ?_⟩
    · change (owned (some (side, q)) next.log).HasCq _
      rw [added]
      exact hasCq
    · change (owned (some (side, q)) next.log).HasSq _
      rw [added]
      exact HeldQueues.addSq_hasSq _ _
    · rw [left.eq sure] at added
      refine ⟨_, _, _, hw, ?_, ?_, ?_, added⟩ <;> rfl
  · have same := (failed nonzero).eq sure
    rw [before] at same
    exact same

theorem destroyHw_owned (prompt : Prompt env reliable) (nesting : Nat)
    (inside : cells frame side = [] ∨ q < counted frame side) (steady : Steady frame reliable m)
    (live : (cells frame side)[q]? = some true → Live (book side q m)) :
    Returns (destroyHw (driverExec env nesting) side q) m fun _ next =>
      Steady frame reliable next ∧ Spares (Only side q) m next ∧
      (reliable → (cells frame side)[q]? = some true → ∀ hw, (book side q m).1 = some hw →
        (book side q next).2 = ((book side q m).2.dropSq hw.sqIdx).dropCq hw.cqIdx) := by
  obtain ⟨found, ran, present⟩ := cell_run steady.unheld.fits inside
  refine Returns.after ran ?_
  cases found with
  | none =>
    have absent := cell_absent steady.unheld.fits ran
    exact Returns.pure ⟨steady, Spares.refl m, fun _ attached => absurd attached absent⟩
  | some port =>
    have attached := cells_attached steady.unheld.fits (present port rfl)
    obtain ⟨hw, stored, cqSmall, sqSmall, hasCq, hasSq⟩ := live attached
    have serves : Serves (ownView frame reliable side q) _ _ :=
      ownView_serves prompt attached nesting
    have started : (ownView frame reliable side q).inv (m.logged [.ring side q []]) :=
      ⟨steady.noted side q, current_noted side q⟩
    have before : (ownView frame reliable side q).held (m.logged [.ring side q []]) =
        owned (some (side, q)) m.log := owned_noted _ side q
    have same : ((ownView frame reliable side q).ringOf (m.logged [.ring side q []])).hw = hw := by
      have there := hwAt_ringOf reliable attached
        (steady.unheld.logged [.ring side q []]).fits
      have spared : hwAt side q (m.logged [.ring side q []]) = some hw :=
        (congrArg (Option.map Ring.hw) (ringAt_logged _)).trans stored
      exact Option.some.inj (there.symm.trans spared)
    refine Returns.after rfl ?_
    have destroyed := serves.ringDestroyHw started
    rw [same, before] at destroyed
    refine (destroyed cqSmall sqSmall (fun _ => hasCq) fun _ => hasSq).bind ?_
    rintro _ next ⟨moved, _, middle, droppedSq, droppedCq⟩
    refine Returns.pure ⟨moved.inv.1, Spares.trans _ _ _ (spares_noted side q) moved.rel, ?_⟩
    intro sure _ other otherStored
    cases stored.symm.trans otherStored
    have first := droppedSq.resolve_right fun unsure => unsure.1 sure
    have second := droppedCq.resolve_right fun unsure => unsure.1 sure
    rw [first] at second
    exact second

end One

/-! ## Many rings -/

def Among (side : RingType) (indices : List Nat) : RingType → Nat → Prop :=
  fun other i => other = side ∧ i ∈ indices

section Loops

variable {frame : Frame} {reliable : Prop} {env : Env} {side : RingType} {m : Machine}

theorem only_among {q : Nat} (rest : List Nat) (other : RingType) (i : Nat)
    (only : Only side q other i) : Among side (q :: rest) other i :=
  ⟨only.1, only.2 ▸ List.mem_cons_self⟩

theorem among_cons {q : Nat} {rest : List Nat} (other : RingType) (i : Nat)
    (among : Among side rest other i) : Among side (q :: rest) other i :=
  ⟨among.1, List.mem_cons_of_mem q among.2⟩

def Gained (reliable : Prop) (side : RingType) (q : Nat) (m next : Machine) : Prop :=
  Live (book side q next) ∧ (reliable → Added (book side q m) (book side q next))

theorem Gained.congr {q : Nat} {before after : Machine} (gained : Gained reliable side q m next)
    (start : book side q before = book side q m) (last : book side q after = book side q next) :
    Gained reliable side q before after := by
  unfold Gained
  rw [start, last]
  exact gained

/-- A creation loop visits a first part of its rings before an error.  They have
queues, and there are at least as many of them as the loop has counted. -/
theorem createRings_owned (prompt : Prompt env reliable) (nesting : Nat)
    (distinct : indices.Nodup)
    (inside : ∀ q ∈ indices, cells frame side = [] ∨ q < counted frame side)
    (steady : Steady frame reliable m) :
    Returns (createRings (driverExec env nesting) side indices) m fun made next =>
      Steady frame reliable next ∧ Spares (Among side indices) m next ∧
      ∃ reached, made.count ≤ reached ∧ reached ≤ indices.length ∧
        (made.ret = 0 → reached = indices.length) ∧
        ((∀ q ∈ indices, (cells frame side)[q]? = some true) → made.count = reached) ∧
        (∀ q ∈ indices.take reached, (cells frame side)[q]? = some true →
          Gained reliable side q m next) ∧
        ∀ q ∈ indices.drop reached, reliable → (book side q next).2 = (book side q m).2 := by
  induction indices generalizing m with
  | nil =>
    refine Returns.pure ⟨steady, Spares.refl m, 0, Nat.le_refl 0, Nat.le_refl 0, fun _ => rfl,
      fun _ => rfl, ?_, ?_⟩
    · exact fun q member => nomatch member
    · exact fun q member => nomatch member
  | cons q rest ih =>
    obtain ⟨outside, restDistinct⟩ := List.nodup_cons.mp distinct
    have restInside := fun other member => inside other (List.mem_cons_of_mem q member)
    have restSpares : ¬ Among side rest side q := fun among => outside among.2
    obtain ⟨found, ran, present⟩ := cell_run steady.unheld.fits (inside q List.mem_cons_self)
    refine Returns.after ran ?_
    cases found with
    | none =>
      have absent := cell_absent steady.unheld.fits ran
      refine (ih restDistinct restInside steady).mono ?_
      rintro made next ⟨kept, spares, reached, few, short, whole, _, gained, missed⟩
      refine ⟨kept, spares.mono among_cons, reached + 1, Nat.le_succ_of_le few,
        Nat.succ_le_succ short, fun zero => congrArg (· + 1) (whole zero), ?_, ?_, missed⟩
      · exact fun all => absurd (all q List.mem_cons_self) absent
      · exact List.forall_mem_cons.mpr ⟨fun attached => absurd attached absent, gained⟩
    | some port =>
      have attached := cells_attached steady.unheld.fits (present port rfl)
      refine (createHw_owned prompt nesting attached steady).bind fun ret middle first => ?_
      obtain ⟨kept, spares, made, failed⟩ := first
      split
      · rename_i nonzero
        refine Returns.pure ⟨kept, spares.mono (only_among rest), 0, Nat.le_refl 0,
          Nat.zero_le _, fun zero => absurd zero nonzero, fun _ => rfl, ?_, ?_⟩
        · exact fun other member => nomatch member
        refine List.forall_mem_cons.mpr ⟨failed nonzero, fun other behind sure => ?_⟩
        have differs : ¬ Only side q side other := fun only => outside (only.2 ▸ behind)
        rw [spares.book differs]
      · rename_i zero
        have gainedHere := made (Decidable.not_not.mp zero)
        refine (ih restDistinct restInside kept).bind ?_
        rintro later next ⟨lastKept, restKept, reached, few, short, whole, all, gained, missed⟩
        refine Returns.pure ⟨lastKept, ?_, reached + 1, Nat.succ_le_succ few,
          Nat.succ_le_succ short, fun done => congrArg (· + 1) (whole done), ?_, ?_, ?_⟩
        · exact Spares.trans _ _ _ (spares.mono (only_among rest)) (restKept.mono among_cons)
        · intro every
          exact congrArg (· + 1) (all fun other member => every other (List.mem_cons_of_mem q member))
        · refine List.forall_mem_cons.mpr ⟨fun _ =>
            Gained.congr gainedHere rfl (restKept.book restSpares), fun other behind there => ?_⟩
          have differs : ¬ Only side q side other :=
            fun only => outside (only.2 ▸ List.mem_of_mem_take behind)
          exact (gained other behind there).congr (spares.book differs).symm rfl
        · intro other member sure
          have differs : ¬ Only side q side other :=
            fun only => outside (only.2 ▸ List.mem_of_mem_drop member)
          rw [missed other member sure, spares.book differs]

def Dropped (side : RingType) (q : Nat) (m next : Machine) : Prop :=
  ∀ hw, (book side q m).1 = some hw →
    (book side q next).2 = ((book side q m).2.dropSq hw.sqIdx).dropCq hw.cqIdx

/-- A destruction loop over rings whose queues are live. -/
theorem destroyList_owned (prompt : Prompt env reliable) (nesting : Nat)
    (distinct : indices.Nodup)
    (inside : ∀ q ∈ indices, cells frame side = [] ∨ q < counted frame side)
    (steady : Steady frame reliable m)
    (live : ∀ q ∈ indices, (cells frame side)[q]? = some true → Live (book side q m)) :
    Returns (indices.forM (destroyHw (driverExec env nesting) side)) m fun _ next =>
      Steady frame reliable next ∧ Spares (Among side indices) m next ∧
      (reliable → ∀ q ∈ indices, (cells frame side)[q]? = some true → Dropped side q m next) := by
  induction indices generalizing m with
  | nil => exact Returns.pure ⟨steady, Spares.refl m, fun _ q member => nomatch member⟩
  | cons q rest ih =>
    obtain ⟨outside, restDistinct⟩ := List.nodup_cons.mp distinct
    rw [List.forM_eq_forM, List.forM_cons]
    refine (destroyHw_owned prompt nesting (inside q List.mem_cons_self) steady
      (live q List.mem_cons_self)).bind ?_
    rintro _ middle ⟨kept, spares, dropped⟩
    have differs : ∀ other ∈ rest, ¬ Only side q side other :=
      fun other member only => outside (only.2 ▸ member)
    refine (ih restDistinct (fun other member => inside other (List.mem_cons_of_mem q member)) kept
      fun other member attached => ?_).mono ?_
    · rw [spares.book (differs other member)]
      exact live other (List.mem_cons_of_mem q member) attached
    rintro _ next ⟨lastKept, restKept, restDropped⟩
    refine ⟨lastKept, ?_, fun sure other member attached hw stored => ?_⟩
    · exact Spares.trans _ _ _ (spares.mono (only_among rest)) (restKept.mono among_cons)
    rcases List.mem_cons.mp member with rfl | behind
    · rw [restKept.book fun among => outside among.2]
      exact dropped sure attached hw stored
    · have same := spares.book (differs other behind)
      rw [← same] at stored
      rw [restDropped sure other behind attached hw stored, same]

theorem destroyRings_owned (prompt : Prompt env reliable) (nesting : Nat)
    (visitable : Visitable frame side bound) (steady : Steady frame reliable m)
    (live : ∀ q, q < bound → (cells frame side)[q]? = some true → Live (book side q m)) :
    Returns (destroyRings (driverExec env nesting) side bound) m fun _ next =>
      Steady frame reliable next ∧ Spares (Among side (List.range bound)) m next ∧
      (reliable → ∀ q, q < bound → (cells frame side)[q]? = some true → Dropped side q m next) := by
  refine (destroyList_owned prompt nesting List.nodup_range (fun _ => visitable.mem) steady
    fun q member => live q (List.mem_range.mp member)).mono ?_
  rintro _ next ⟨kept, spares, dropped⟩
  exact ⟨kept, spares, fun sure q below => dropped sure q (List.mem_range.mpr below)⟩

end Loops

/-! ## Start and stop -/

def bounds (nbRx nbTx : Nat) : RingType → Nat
  | .tx => nbTx
  | .rx => nbRx

def Below (nbRx nbTx : Nat) : RingType → Nat → Prop := fun side q => q < bounds nbRx nbTx side

/-- The outcome of a creation loop over the rings of a direction: those below
`reached` have queues. -/
structure Began (frame : Frame) (reliable : Prop) (side : RingType) (bound reached : Nat)
    (made : Created) (m next : Machine) : Prop where
  few : made.count ≤ reached
  short : reached ≤ bound
  whole : made.ret = 0 → reached = bound
  all : (∀ q, q < bound → (cells frame side)[q]? = some true) → made.count = reached
  gained : ∀ q, q < reached → (cells frame side)[q]? = some true → Gained reliable side q m next
  missed : ∀ q, reached ≤ q → q < bound → reliable → (book side q next).2 = (book side q m).2

section Phases

variable {frame : Frame} {reliable : Prop} {env : Env} {side : RingType} {m : Machine}

theorem among_range {other : RingType} {i : Nat} (among : Among side (List.range bound) other i) :
    other = side ∧ i < bound :=
  ⟨among.1, List.mem_range.mp among.2⟩

theorem createRange_owned (prompt : Prompt env reliable) (nesting : Nat)
    (visitable : Visitable frame side bound) (steady : Steady frame reliable m) :
    Returns (createRings (driverExec env nesting) side (List.range bound)) m fun made next =>
      Steady frame reliable next ∧ Spares (Among side (List.range bound)) m next ∧
      ∃ reached, Began frame reliable side bound reached made m next := by
  refine (createRings_owned prompt nesting List.nodup_range (fun _ => visitable.mem) steady).mono ?_
  rintro made next ⟨kept, spares, reached, few, short, whole, all, gained, missed⟩
  rw [List.length_range] at short whole
  refine ⟨kept, spares, reached, few, short, whole, ?_, fun q below => ?_, fun q late below => ?_⟩
  · exact fun every => all fun q member => every q (List.mem_range.mp member)
  · refine gained q ?_
    rw [List.take_range, Nat.min_eq_left short]
    exact List.mem_range.mpr below
  · refine missed q (List.mem_drop_iff_getElem.mpr ⟨q - reached, ?_, ?_⟩)
    · rw [List.length_range]
      omega
    · rw [List.getElem_range]
      omega

/-- Destroying what a creation added leaves what was there before. -/
theorem added_dropped {q : Nat} {middle : Machine}
    (added : Added (book side q m) (book side q middle)) (dropped : Dropped side q middle next) :
    (book side q next).2 = (book side q m).2 := by
  obtain ⟨hw, cq, sq, stored, cqSame, sqSame, _, whole⟩ := added
  rw [dropped hw stored, whole, ← sqSame, HeldQueues.dropSq_addSq, ← cqSame,
    HeldQueues.dropCq_addCq]

/-- The rollback of a direction, from a machine in which nothing happened to its
rings since the creation loop. -/
theorem rollback_owned (prompt : Prompt env reliable) (nesting : Nat) {reached : Nat}
    {made : Created} {middle now : Machine} (visitable : Visitable frame side bound)
    (began : Began frame reliable side bound reached made m middle)
    (same : ∀ q, book side q now = book side q middle) (steady : Steady frame reliable now) :
    Returns (destroyRings (driverExec env nesting) side made.count) now fun _ next =>
      Steady frame reliable next ∧ Spares (Among side (List.range bound)) now next ∧
      (reliable → (∀ q, q < bound → (cells frame side)[q]? = some true) →
        ∀ q, q < bound → (book side q next).2 = (book side q m).2) := by
  have within : made.count ≤ bound := Nat.le_trans began.few began.short
  refine (destroyRings_owned prompt nesting (visitable.mono within) steady fun q below attached => ?_).mono ?_
  · rw [same]
    exact (began.gained q (Nat.lt_of_lt_of_le below began.few) attached).1
  rintro _ next ⟨kept, spares, dropped⟩
  refine ⟨kept, spares.mono fun other i among => ⟨among.1, ?_⟩, fun sure every q below => ?_⟩
  · exact List.mem_range.mpr (Nat.lt_of_lt_of_le (among_range among).2 within)
  by_cases early : q < reached
  · have counted : q < made.count := (began.all every).symm ▸ early
    refine added_dropped ((began.gained q early (every q below)).2 sure) ?_
    have gone := dropped sure q counted (every q below)
    unfold Dropped at gone ⊢
    rw [← same q]
    exact gone
  · have spared : ¬ Among side (List.range made.count) side q := by
      intro among
      exact early (Nat.lt_of_lt_of_le (among_range among).2 began.few)
    rw [spares.book spared, same]
    exact began.missed q (Nat.le_of_not_lt early) below sure

theorem Steady.wrote (steady : Steady frame reliable m) (held : Unheld frame false next)
    (wrote : Wrote m next) :
    Steady frame reliable next ∧ ∀ who, Spares who m next := by
  obtain ⟨effects, writes, rfl⟩ := wrote
  have quiet := quiet_regWrites writes
  refine ⟨⟨held, (quiet_appended quiet m.log).2 steady.clean, fun sure => ?_⟩, fun who => ?_⟩
  · exact ⟨(steady.ready sure).queues, (steady.ready sure).alive, (steady.ready sure).unlocked⟩
  · exact Spares.logged quiet rfl rfl rfl fun other i => congrArg (Option.map Ring.hw) (ringAt_logged _)

theorem below_of_among (other : RingType) (i : Nat)
    (among : Among side (List.range (bounds nbRx nbTx side)) other i) :
    Below nbRx nbTx other i := by
  obtain ⟨rfl, below⟩ := among_range among
  exact below

theorem rx_spared {indices : List Nat} {q : Nat} : ¬ Among .tx indices .rx q := by
  simp [Among]

theorem tx_spared {indices : List Nat} {q : Nat} : ¬ Among .rx indices .tx q := by
  simp [Among]

/-- A start gives every ring below the bounds its queues, or takes back what it has
created. -/
theorem startRingsHw_owned (prompt : Prompt env reliable) (nesting : Nat)
    (visitable : ∀ side, Visitable frame side (bounds nbRx nbTx side))
    (counts : ∀ side, cells frame side = [] ∨ counted frame side ≠ 0)
    (steady : Steady frame reliable m) :
    Returns (enaNetdevStartRingsHw (driverExec env nesting) nbRx nbTx) m fun ret next =>
      Steady frame reliable next ∧ Spares (Below nbRx nbTx) m next ∧
      (ret = 0 → ∀ side q, q < bounds nbRx nbTx side → (cells frame side)[q]? = some true →
        Gained reliable side q m next) ∧
      (ret ≠ 0 → reliable →
        (∀ side q, q < bounds nbRx nbTx side → (cells frame side)[q]? = some true) →
        ∀ side q, q < bounds nbRx nbTx side → (book side q next).2 = (book side q m).2) := by
  refine (createRange_owned prompt nesting (visitable .tx) steady).bind ?_
  rintro txMade s₁ ⟨steady₁, spares₁, txReached, tx⟩
  split
  · rename_i nonzero
    refine (rollback_owned prompt nesting (visitable .tx) tx (fun _ => rfl) steady₁).bind ?_
    rintro _ s₂ ⟨steady₂, spares₂, restored⟩
    refine Returns.pure ⟨steady₂, ?_, fun zero => absurd zero nonzero, fun _ sure every side q below => ?_⟩
    · exact Spares.trans _ _ _ (spares₁.mono below_of_among) (spares₂.mono below_of_among)
    · cases side with
      | tx => exact restored sure (every .tx) q below
      | rx => rw [spares₂.book rx_spared, spares₁.book rx_spared]
  rename_i txZero
  have txWhole := tx.whole (Decidable.not_not.mp txZero)
  refine (createRange_owned prompt nesting (visitable .rx) steady₁).bind ?_
  rintro rxMade s₂ ⟨steady₂, spares₂, rxReached, rx⟩
  have upTo₂ : Spares (Below nbRx nbTx) m s₂ :=
    Spares.trans _ _ _ (spares₁.mono below_of_among) (spares₂.mono below_of_among)
  split
  · rename_i nonzero
    refine (rollback_owned prompt nesting (visitable .rx) rx (fun _ => rfl) steady₂).bind ?_
    rintro _ s₃ ⟨steady₃, spares₃, rxRestored⟩
    have txSame : ∀ q, book .tx q s₃ = book .tx q s₁ := fun q =>
      (spares₃.book tx_spared).trans (spares₂.book tx_spared)
    refine (rollback_owned prompt nesting (visitable .tx) tx txSame steady₃).bind ?_
    rintro _ s₄ ⟨steady₄, spares₄, txRestored⟩
    refine Returns.pure ⟨steady₄, ?_, fun zero => absurd zero nonzero, fun _ sure every side q below => ?_⟩
    · exact Spares.trans _ _ _ upTo₂
        (Spares.trans _ _ _ (spares₃.mono below_of_among) (spares₄.mono below_of_among))
    · cases side with
      | tx => exact txRestored sure (every .tx) q below
      | rx =>
        rw [spares₄.book rx_spared, rxRestored sure (every .rx) q below, spares₁.book rx_spared]
  rename_i rxZero
  have rxWhole := rx.whole (Decidable.not_not.mp rxZero)
  refine (unmaskAll_keeps counts s₂ steady₂.unheld).bind fun _ s₃ facts => ?_
  obtain ⟨steady₃, spares₃⟩ := steady₂.wrote facts.1 facts.2
  have none : ∀ side q, book side q s₃ = book side q s₂ := fun side q =>
    (spares₃ fun _ _ => False).book id
  refine Returns.pure ⟨steady₃, Spares.trans _ _ _ upTo₂ (spares₃ _), fun _ side q below attached => ?_,
    fun nonzero => absurd rfl nonzero⟩
  cases side with
  | tx =>
    refine (tx.gained q (txWhole.symm ▸ below) attached).congr rfl ?_
    exact (none .tx q).trans (spares₂.book tx_spared)
  | rx =>
    refine (rx.gained q (rxWhole.symm ▸ below) attached).congr ?_ (none .rx q)
    exact (spares₁.book rx_spared).symm

/-- The look at the TX rings before they are destroyed. -/
theorem lookedAt_run (fits : frame.Fits m)
    (inside : ∀ q ∈ indices, cells frame .tx = [] ∨ q < counted frame .tx) :
    (indices.forM (fun q => do let _ ← cell .tx q) : Driver PUnit) m = .ok ((), m) := by
  induction indices with
  | nil => rfl
  | cons q rest ih =>
    obtain ⟨found, ran, _⟩ := cell_run fits (inside q List.mem_cons_self)
    rw [List.forM_eq_forM, List.forM_cons, run_bind, run_bind, ran]
    exact ih fun other member => inside other (List.mem_cons_of_mem q member)

/-- A stop of rings whose queues are live destroys these queues. -/
theorem stopRingsHw_owned (prompt : Prompt env reliable) (nesting : Nat)
    (visitable : ∀ side, Visitable frame side (bounds nbRx nbTx side))
    (steady : Steady frame reliable m)
    (live : ∀ side q, q < bounds nbRx nbTx side → (cells frame side)[q]? = some true →
      Live (book side q m)) :
    Returns (enaNetdevStopRingsHw (driverExec env nesting) nbRx nbTx) m fun ret next =>
      ret = 0 ∧ Steady frame reliable next ∧ Spares (Below nbRx nbTx) m next ∧
      (reliable → ∀ side q, q < bounds nbRx nbTx side → (cells frame side)[q]? = some true →
        Dropped side q m next) := by
  refine Returns.after (lookedAt_run steady.unheld.fits fun _ => (visitable .tx).mem) ?_
  refine (destroyRings_owned prompt nesting (visitable .rx) steady (live .rx)).bind ?_
  rintro _ s₁ ⟨steady₁, spares₁, rxDropped⟩
  refine (destroyRings_owned prompt nesting (visitable .tx) steady₁ fun q below attached => ?_).bind ?_
  · rw [spares₁.book tx_spared]
    exact live .tx q below attached
  rintro _ s₂ ⟨steady₂, spares₂, txDropped⟩
  refine Returns.pure ⟨rfl, steady₂, ?_, fun sure side q below attached hw stored => ?_⟩
  · exact Spares.trans _ _ _ (spares₁.mono below_of_among) (spares₂.mono below_of_among)
  cases side with
  | tx =>
    rw [← spares₁.book tx_spared] at stored ⊢
    exact txDropped sure q below attached hw stored
  | rx =>
    rw [spares₂.book rx_spared]
    exact rxDropped sure q below attached hw stored

end Phases

end EnaDriver.Lifecycle
