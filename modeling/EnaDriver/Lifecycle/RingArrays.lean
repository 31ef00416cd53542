import EnaDriver.Lifecycle.Netdev

/-!
# The ring arrays over whole runs

An array keeps the size of its allocation while its count follows every later
configuration.  A run stays inside the arrays as long as no configuration asks for
more queues than an array has cells, and it frees every ring as long as no
configuration leaves a stored ring behind its new count.  Everything between two
configurations keeps the arrays as they are, a recovery inside an admin command
included.
-/

namespace EnaDriver.Lifecycle

open Support.Programs Datapath Admin

variable {bound nbRx nbTx : Nat} {α : Type} {program : Driver α}

/-! ## Frames by direction -/

def cells (frame : Frame) : RingType → List Bool
  | .tx => frame.tx
  | .rx => frame.rx

def counted (frame : Frame) : RingType → Nat
  | .tx => frame.numTx
  | .rx => frame.numRx

section Frames

variable {frame : Frame} {m : Machine} {side : RingType} {q : Nat}

theorem fits_cells (fits : frame.Fits m) (side : RingType) :
    (rings side m).map Option.isSome = cells frame side := by
  cases side with
  | tx => exact fits.tx
  | rx => exact fits.rx

theorem fits_counted (fits : frame.Fits m) (side : RingType) :
    numRings side m.adapter = counted frame side := by
  cases side with
  | tx => exact fits.numTx
  | rx => exact fits.numRx

theorem counted_le (frame : Frame) (side : RingType) :
    cells frame side = [] ∨ counted frame side ≤ (cells frame side).length := by
  cases side with
  | tx => exact frame.txFits
  | rx => exact frame.rxFits

/-- A read below the count, or of a null array, is an access. -/
theorem cell_run (fits : frame.Fits m) (inside : cells frame side = [] ∨ q < counted frame side) :
    ∃ found, cell side q m = .ok (found, m) ∧
      ∀ port, found = some port → (rings side m)[q]? = some (some port) := by
  have bound : rings side m = [] ∨ q < (rings side m).length := by
    have same := fits_cells fits side
    have size : (rings side m).length = (cells frame side).length := by
      rw [← same, List.length_map]
    rcases counted_le frame side with none | some
    · exact .inl (List.map_eq_nil_iff.mp (same.trans none))
    · rcases inside with none | below
      · exact .inl (List.map_eq_nil_iff.mp (same.trans none))
      · exact .inr (by omega)
  obtain ⟨found, ran, attached⟩ := ringCell_ok bound
  refine ⟨found, ?_, attached⟩
  change (ringCell (rings side m) q >>= fun found => Except.ok (found, m)) = _
  rw [ran]
  rfl

theorem cells_attached (fits : frame.Fits m) {port : Port side}
    (found : (rings side m)[q]? = some (some port)) : (cells frame side)[q]? = some true := by
  rw [← fits_cells fits side, List.getElem?_map, found]
  rfl

end Frames

/-! ## Programs that leave the arrays alone -/

section Programs

variable {frame : Frame} {env : Env} {exec : CtrlExec}
  (command : ∀ ctrl req, KeepsUnheld frame false (exec ctrl req)) {side : RingType} {q : Nat}
  {step : Nat → Driver Unit}

theorem keeps_bind {β : Type} {next : α → Driver β} (first : KeepsUnheld frame false program)
    (second : ∀ value, KeepsUnheld frame false (next value)) :
    KeepsUnheld frame false (program >>= next) :=
  Keeps.bind SameDev.trans first second

theorem keeps_pure (value : α) : KeepsUnheld frame false (pure value : Driver α) :=
  Keeps.pure SameDev.refl value

theorem keeps_adapter {change : Adapter → Adapter}
    (tx : ∀ a, (change a).numTxRings = a.numTxRings) (rx : ∀ a, (change a).numRxRings = a.numRxRings)
    (lock : ∀ a, (change a).adminLock = a.adminLock)
    (recover : ∀ a, (change a).recoverActive = a.recoverActive) :
    KeepsUnheld frame false (modifyAdapter change) :=
  Keeps.update fun m held =>
    ⟨held.withAdapter (tx m.adapter) (rx m.adapter) (lock m.adapter) (recover m.adapter), rfl⟩

theorem keeps_record (effect : Effect) : KeepsUnheld frame false (record effect) :=
  Keeps.update fun _ held => ⟨held.logged _, rfl⟩

theorem keeps_forM {items : List Nat} (each : ∀ item ∈ items, KeepsUnheld frame false (step item)) :
    KeepsUnheld frame false (items.forM step) :=
  (Keeps.composes SameDev.refl SameDev.trans).forM each

theorem cell_bind {next : Option (Port side) → Driver α}
    (inside : cells frame side = [] ∨ q < counted frame side)
    (absent : KeepsUnheld frame false (next none))
    (present : ∀ port, (cells frame side)[q]? = some true →
      KeepsUnheld frame false (next (some port))) :
    KeepsUnheld frame false (cell side q >>= next) := by
  intro m held
  obtain ⟨found, ran, attached⟩ := cell_run held.fits inside
  have entered : (cell side q >>= next) m = next found m := by rw [run_bind, ran, ok_bind]
  unfold Returns
  rw [entered]
  cases found with
  | none => exact absent m held
  | some port => exact present port (cells_attached held.fits (attached port rfl)) m held

theorem cell_keeps (inside : cells frame side = [] ∨ q < counted frame side) :
    KeepsUnheld frame false (cell side q) := by
  intro m held
  obtain ⟨found, ran, _⟩ := cell_run held.fits inside
  exact ⟨found, m, ran, held, rfl⟩

/-! ### Interrupts -/

def Wrote (m next : Machine) : Prop :=
  ∃ effects, (∀ effect ∈ effects, ∃ offset value, effect = .regWrite32 offset value) ∧
    next = m.logged effects

theorem Wrote.refl (m : Machine) : Wrote m m :=
  ⟨[], (fun _ member => nomatch member), (m.logged_nil).symm⟩

theorem Wrote.trans (first second third : Machine) (earlier : Wrote first second)
    (later : Wrote second third) : Wrote first third := by
  obtain ⟨effects, writes, rfl⟩ := earlier
  obtain ⟨more, moreWrites, rfl⟩ := later
  refine ⟨effects ++ more, fun effect member => ?_, Machine.logged_logged _ _ _⟩
  exact (List.mem_append.mp member).elim (writes effect) (moreWrites effect)

abbrev KeepsWriting {α : Type} (frame : Frame) (program : Driver α) : Prop :=
  Keeps (Unheld frame false) Wrote program

theorem KeepsWriting.unheld (writes : KeepsWriting frame program) :
    KeepsUnheld frame false program := by
  intro m held
  refine (writes m held).mono fun _ next facts => ⟨facts.1, ?_⟩
  obtain ⟨_, _, rfl⟩ := facts.2
  rfl

theorem writing_bind {β : Type} {next : α → Driver β} (first : KeepsWriting frame program)
    (second : ∀ value, KeepsWriting frame (next value)) :
    KeepsWriting frame (program >>= next) :=
  Keeps.bind Wrote.trans first second

theorem writing_pure (value : α) : KeepsWriting frame (pure value : Driver α) :=
  Keeps.pure Wrote.refl value

theorem writing_record (offset value : Nat) :
    KeepsWriting frame (record (.regWrite32 offset value)) := by
  refine Keeps.update fun m held => ⟨held.logged _, _, fun effect member => ?_, rfl⟩
  exact ⟨offset, value, List.mem_singleton.mp member⟩

theorem writing_forM {items : List Nat} (each : ∀ item ∈ items, KeepsWriting frame (step item)) :
    KeepsWriting frame (items.forM step) :=
  (Keeps.composes Wrote.refl Wrote.trans).forM each

theorem unmaskRing_keeps (counts : cells frame side = [] ∨ counted frame side ≠ 0) :
    KeepsWriting frame (unmaskRing side q) := by
  refine adapter_bind fun m held => ?_
  split
  · rename_i below
    have inside : cells frame side = [] ∨ q < counted frame side := by
      refine counts.imp_right fun some => ?_
      unfold loopBound at below
      rw [fits_counted held.fits side, if_neg some] at below
      exact below
    intro m held
    obtain ⟨found, ran, _⟩ := cell_run held.fits inside
    refine Returns.after ran ?_
    cases found with
    | none => exact writing_pure () m held
    | some port => exact Keeps.ite (writing_record _ _) (writing_pure ()) m held
  · exact writing_pure ()

theorem unmaskVector_keeps (counts : ∀ side, cells frame side = [] ∨ counted frame side ≠ 0)
    (vectorId : Nat) : KeepsWriting frame (enaIntrUnmaskVector vectorId) := by
  refine adapter_bind fun m _ => ?_
  refine Keeps.ite (writing_pure _) ?_
  refine Keeps.ite (writing_pure _) ?_
  refine Keeps.ite ?_ ?_
  · exact writing_bind (writing_record _ _) fun _ => writing_pure _
  · refine writing_bind (unmaskRing_keeps (counts .rx)) fun _ => ?_
    exact writing_bind (unmaskRing_keeps (counts .tx)) fun _ => writing_pure _

theorem unmaskAll_keeps (counts : ∀ side, cells frame side = [] ∨ counted frame side ≠ 0) :
    KeepsWriting frame enaIntrUnmaskAll := by
  refine adapter_bind fun m _ => writing_forM fun i _ => ?_
  exact writing_bind (unmaskVector_keeps counts i) fun _ => writing_pure _

theorem maskVector_keeps (vectorId : Nat) : KeepsWriting frame (enaIntrMaskVector vectorId) := by
  refine adapter_bind fun m _ => ?_
  refine Keeps.ite (writing_pure _) ?_
  exact Keeps.ite (writing_bind (writing_record _ _) fun _ => writing_pure _) (writing_pure _)

theorem maskAll_keeps : KeepsWriting frame enaIntrMaskAll := by
  refine adapter_bind fun m _ => writing_forM fun i _ => ?_
  exact writing_bind (maskVector_keeps i) fun _ => writing_pure _

theorem msixFini_keeps : KeepsUnheld frame false enaIntrMsixFini := by
  refine adapter_bind fun m _ => ?_
  refine Keeps.ite ?_ (keeps_pure ())
  refine keeps_bind maskAll_keeps.unheld fun _ => ?_
  exact keeps_adapter (fun _ => rfl) (fun _ => rfl) (fun _ => rfl) fun _ => rfl

theorem adminFini_keeps : KeepsUnheld frame false enaAdminFini := by
  intro m held
  refine ⟨(), _, enaAdminFini_run m, Unheld.logged (held.withAdapter ?_ ?_ ?_ ?_) _, rfl⟩ <;> rfl

/-! ### Queues -/

include command

theorem portAccess_keeps (attached : (cells frame side)[q]? = some true) :
    QueueAccess (Keeps (Unheld frame false) SameDev) (fun _ => True) (fun _ => True) (exec [])
      (portAccess side q) := by
  refine Keeps.queueAccess SameDev.refl SameDev.trans (command []) ?_ ?_
  · intro m held
    cases side with
    | tx =>
      obtain ⟨port, _, ran⟩ := held.fits.txAccess_get attached
      exact ⟨port.ring, m, ran, held, rfl⟩
    | rx =>
      obtain ⟨port, _, ran⟩ := held.fits.rxAccess_get attached
      exact ⟨port.ring, m, ran, held, rfl⟩
  · intro change
    cases side with
    | tx => exact Keeps.update fun _ held => ⟨held.updateTx q fun _ unlocked => unlocked, rfl⟩
    | rx => exact Keeps.update fun _ held => ⟨held.updateRx q fun _ unlocked => unlocked, rfl⟩

theorem createHw_keeps (attached : (cells frame side)[q]? = some true) :
    KeepsUnheld frame false (createHw exec side q) := by
  refine keeps_bind (keeps_record _) fun _ => adapter_bind fun m _ => ?_
  exact (portAccess_keeps command attached).createHw m.adapter.map trivial

theorem destroyHw_keeps (inside : cells frame side = [] ∨ q < counted frame side) :
    KeepsUnheld frame false (destroyHw exec side q) := by
  refine cell_bind inside (keeps_pure ()) fun port attached => ?_
  refine keeps_bind (keeps_record _) fun _ => ?_
  exact keeps_bind (portAccess_keeps command attached).destroyHw fun _ => keeps_pure _

/-- No more queues are counted than rings were visited. -/
theorem createRings_returns {indices : List Nat}
    (inside : ∀ q ∈ indices, cells frame side = [] ∨ q < counted frame side) {m : Machine}
    (held : Unheld frame false m) :
    Returns (createRings exec side indices) m fun made next =>
      made.count ≤ indices.length ∧ Unheld frame false next ∧ SameDev m next := by
  induction indices generalizing m with
  | nil => exact Returns.pure ⟨Nat.le_refl 0, held, rfl⟩
  | cons q rest ih =>
    have later := fun other member => inside other (List.mem_cons_of_mem q member)
    obtain ⟨found, ran, attached⟩ := cell_run held.fits (inside q List.mem_cons_self)
    refine Returns.after ran ?_
    cases found with
    | none =>
      refine (ih later held).mono fun made next facts => ?_
      exact ⟨Nat.le_succ_of_le facts.1, facts.2⟩
    | some port =>
      have here := cells_attached held.fits (attached port rfl)
      refine (createHw_keeps command here m held).bind fun ret between first => ?_
      split
      · exact Returns.pure ⟨Nat.zero_le _, first⟩
      · refine (ih later first.1).bind fun made next facts => ?_
        exact Returns.pure ⟨Nat.succ_le_succ facts.1, facts.2.1,
          SameDev.trans _ _ _ first.2 facts.2.2⟩

def Visitable (frame : Frame) (side : RingType) (bound : Nat) : Prop :=
  cells frame side = [] ∨ bound ≤ counted frame side

omit command in
theorem Visitable.mem (visitable : Visitable frame side bound) {q : Nat}
    (member : q ∈ List.range bound) : cells frame side = [] ∨ q < counted frame side :=
  visitable.imp_right fun below => Nat.lt_of_lt_of_le (List.mem_range.mp member) below

omit command in
theorem Visitable.mono {smaller : Nat} (visitable : Visitable frame side bound)
    (le : smaller ≤ bound) : Visitable frame side smaller :=
  visitable.imp_right (Nat.le_trans le)

theorem destroyRings_keeps (visitable : Visitable frame side bound) :
    KeepsUnheld frame false (destroyRings exec side bound) :=
  keeps_forM fun _ member => destroyHw_keeps command (visitable.mem member)

theorem startRingsHw_keeps (rx : Visitable frame .rx nbRx) (tx : Visitable frame .tx nbTx)
    (counts : ∀ side, cells frame side = [] ∨ counted frame side ≠ 0) :
    KeepsUnheld frame false (enaNetdevStartRingsHw exec nbRx nbTx) := by
  intro m held
  refine (createRings_returns command (fun _ => tx.mem) held).bind fun txMade middle first => ?_
  obtain ⟨txFew, txHeld, txDev⟩ := first
  rw [List.length_range] at txFew
  have undoTx := destroyRings_keeps command (tx.mono txFew)
  split
  · refine (undoTx middle txHeld).bind fun _ last undone => ?_
    exact Returns.pure ⟨undone.1, SameDev.trans _ _ _ txDev undone.2⟩
  refine (createRings_returns command (fun _ => rx.mem) txHeld).bind fun rxMade between second => ?_
  obtain ⟨rxFew, rxHeld, rxDev⟩ := second
  rw [List.length_range] at rxFew
  have dev := SameDev.trans _ _ _ txDev rxDev
  split
  · refine (destroyRings_keeps command (rx.mono rxFew) between rxHeld).bind fun _ next undoneRx => ?_
    refine (undoTx next undoneRx.1).bind fun _ last undoneTx => ?_
    exact Returns.pure ⟨undoneTx.1,
      SameDev.trans _ _ _ (SameDev.trans _ _ _ dev undoneRx.2) undoneTx.2⟩
  · refine ((unmaskAll_keeps counts).unheld between rxHeld).bind fun _ last unmasked => ?_
    exact Returns.pure ⟨unmasked.1, SameDev.trans _ _ _ dev unmasked.2⟩

theorem stopRingsHw_keeps (rx : Visitable frame .rx nbRx) (tx : Visitable frame .tx nbTx) :
    KeepsUnheld frame false (enaNetdevStopRingsHw exec nbRx nbTx) := by
  refine keeps_bind (keeps_forM fun q member => ?_) fun _ => ?_
  · exact keeps_bind (cell_keeps (tx.mem member)) fun _ => keeps_pure _
  refine keeps_bind (destroyRings_keeps command rx) fun _ => ?_
  exact keeps_bind (destroyRings_keeps command tx) fun _ => keeps_pure _

end Programs

/-! ## Sound machines -/

/-- The array of a direction has cells for its count.  In a tight machine the rings
are stored below the count. -/
structure Row (tight : Prop) (side : RingType) (m : Machine) : Prop where
  fits : rings side m = [] ∨
    0 < numRings side m.adapter ∧ numRings side m.adapter ≤ (rings side m).length
  stored : tight → ∀ q port, (rings side m)[q]? = some (some port) → q < numRings side m.adapter
  unlocked : Attached (fun port => (Port.ring port).ringLock = false) (rings side m)

structure Sound (tight : Prop) (m : Machine) : Prop where
  row : ∀ side, Row tight side m
  admin : m.adapter.adminLock = false
  recover : m.adapter.recoverActive = false

variable {tight : Prop}

theorem Row.congr {side : RingType} {m next : Machine} (row : Row tight side m)
    (same : rings side next = rings side m)
    (count : numRings side next.adapter = numRings side m.adapter) : Row tight side next := by
  refine ⟨?_, ?_, ?_⟩
  · rw [same, count]
    exact row.fits
  · rw [same, count]
    exact row.stored
  · rw [same]
    exact row.unlocked

section Sides

variable {side other : RingType} {m : Machine} {array : List (Option (Port side))} {count : Nat}

@[simp] theorem rings_setRings : rings side (setRings side array m) = array := by
  cases side <;> rfl

@[simp] theorem setRings_setRings (first : List (Option (Port side))) :
    setRings side array (setRings side first m) = setRings side array m := by
  cases side <;> rfl

theorem setRings_rings : setRings side (rings side m) m = m := by
  cases side <;> rfl

theorem rings_setRings_other (differs : other ≠ side) :
    rings other (setRings side array m) = rings other m := by
  cases side <;> cases other <;> first | rfl | exact absurd rfl differs

@[simp] theorem setRings_adapter : (setRings side array m).adapter = m.adapter := by
  cases side <;> rfl

@[simp] theorem setRings_dev : (setRings side array m).dev = m.dev := by
  cases side <;> rfl

@[simp] theorem rings_withAdapter (a : Adapter) : rings side (m.withAdapter a) = rings side m := by
  cases side <;> rfl

@[simp] theorem rings_logged (effects : List Effect) : rings side (m.logged effects) = rings side m := by
  cases side <;> rfl

@[simp] theorem numRings_setNumRings (a : Adapter) :
    numRings side (setNumRings side count a) = count := by
  cases side <;> rfl

theorem numRings_setNumRings_other (differs : other ≠ side) (a : Adapter) :
    numRings other (setNumRings side count a) = numRings other a := by
  cases side <;> cases other <;> first | rfl | exact absurd rfl differs

@[simp] theorem setNumRings_adminLock (a : Adapter) :
    (setNumRings side count a).adminLock = a.adminLock := by
  cases side <;> rfl

@[simp] theorem setNumRings_recoverActive (a : Adapter) :
    (setNumRings side count a).recoverActive = a.recoverActive := by
  cases side <;> rfl

end Sides

namespace Sound

variable {m next : Machine} (sound : Sound tight m)
include sound

theorem logged (effects : List Effect) : Sound tight (m.logged effects) :=
  ⟨fun side => (sound.row side).congr (rings_logged effects) rfl, sound.admin, sound.recover⟩

variable {side : RingType}

theorem change (row : Row tight side next)
    (others : ∀ other, other ≠ side →
      rings other next = rings other m ∧ numRings other next.adapter = numRings other m.adapter)
    (admin : next.adapter.adminLock = m.adapter.adminLock)
    (recover : next.adapter.recoverActive = m.adapter.recoverActive) : Sound tight next := by
  refine ⟨fun other => ?_, admin.trans sound.admin, recover.trans sound.recover⟩
  by_cases same : other = side
  · subst same
    exact row
  · exact (sound.row other).congr (others other same).1 (others other same).2

theorem setRings {array : List (Option (Port side))} (row : Row tight side (setRings side array m)) :
    Sound tight (Lifecycle.setRings side array m) := by
  refine sound.change row (fun other differs => ⟨rings_setRings_other differs, ?_⟩) ?_ ?_ <;>
    rw [setRings_adapter]

def frame : Frame where
  numTx := m.adapter.numTxRings
  numRx := m.adapter.numRxRings
  tx := m.tx.map Option.isSome
  rx := m.rx.map Option.isSome
  txFits := by
    rw [List.map_eq_nil_iff, List.length_map]
    exact (sound.row .tx).fits.imp_right And.right
  rxFits := by
    rw [List.map_eq_nil_iff, List.length_map]
    exact (sound.row .rx).fits.imp_right And.right

theorem cells_frame (side : RingType) :
    cells sound.frame side = (rings side m).map Option.isSome := by
  cases side <;> rfl

theorem counted_frame (side : RingType) : counted sound.frame side = numRings side m.adapter := by
  cases side <;> rfl

theorem unheld : Unheld sound.frame false m :=
  ⟨⟨rfl, rfl, rfl, rfl⟩, sound.admin, sound.recover,
    ⟨(sound.row .tx).unlocked, (sound.row .rx).unlocked⟩⟩

theorem counts (side : RingType) : cells sound.frame side = [] ∨ counted sound.frame side ≠ 0 := by
  rw [sound.cells_frame, sound.counted_frame, List.map_eq_nil_iff]
  exact (sound.row side).fits.imp_right fun fits => Nat.ne_of_gt fits.1

theorem visitable (le : bound ≤ numRings side m.adapter) : Visitable sound.frame side bound := by
  rw [← sound.counted_frame] at le
  exact .inr le

theorem of_unheld (held : Unheld sound.frame false next) : Sound tight next := by
  refine ⟨fun side => ?_, held.admin, held.recover⟩
  have same := (fits_cells held.fits side).trans (sound.cells_frame side)
  have count := (fits_counted held.fits side).trans (sound.counted_frame side)
  have size : (rings side next).length = (rings side m).length := by
    have lengths := congrArg List.length same
    rw [List.length_map, List.length_map] at lengths
    exact lengths
  refine ⟨?_, ?_, ?_⟩
  · rw [count, size]
    refine (sound.row side).fits.imp_left fun none => ?_
    rw [none] at same
    exact List.map_eq_nil_iff.mp same
  · intro held q port found
    rw [count]
    have attached : ((rings side m).map Option.isSome)[q]? = some true := by
      rw [← same, List.getElem?_map, found]
      rfl
    obtain ⟨old, before⟩ := attached_of_isSome attached
    exact (sound.row side).stored held q old before
  · cases side with
    | tx => exact held.rings.tx
    | rx => exact held.rings.rx

theorem keeps (kept : KeepsUnheld sound.frame false program) :
    Returns program m fun _ next =>
      Sound tight next ∧ SameDev m next ∧ ∀ side, rings side m = [] → rings side next = [] := by
  refine (kept m sound.unheld).mono fun _ next facts => ⟨sound.of_unheld facts.1, facts.2, ?_⟩
  intro side empty
  have same := (fits_cells facts.1.fits side).trans (sound.cells_frame side)
  rw [empty] at same
  exact List.map_eq_nil_iff.mp same

end Sound

def Counted (m : Machine) : Prop :=
  (∀ side, Host.nbQueues side m.dev = 0) ∨
    ∀ side, Host.nbQueues side m.dev = numRings side m.adapter ∧ rings side m ≠ []

/-- What a run of a build keeps: the queue numbers matter to the host build only. -/
def Orderly (tight : Prop) (build : Build) (m : Machine) : Prop :=
  Sound tight m ∧ (build = .host → Counted m)

section Kept

variable {m next : Machine}

theorem Counted.of_unheld (counted : Counted m) (sound : Sound tight m)
    (held : Unheld sound.frame false next) (dev : SameDev m next) : Counted next := by
  unfold Counted
  rw [dev]
  refine counted.imp_right fun all side => ?_
  have same := (fits_cells held.fits side).trans (sound.cells_frame side)
  have count := (fits_counted held.fits side).trans (sound.counted_frame side)
  refine ⟨(all side).1.trans count.symm, fun none => (all side).2 ?_⟩
  rw [none] at same
  exact List.map_eq_nil_iff.mp same.symm

theorem Orderly.of_unheld {build : Build} (orderly : Orderly tight build m)
    (held : Unheld orderly.1.frame false next) (dev : SameDev m next) : Orderly tight build next :=
  ⟨orderly.1.of_unheld held, fun host => (orderly.2 host).of_unheld orderly.1 held dev⟩

/-- A program that leaves the arrays alone keeps a machine orderly. -/
theorem Orderly.keeps {build : Build} (orderly : Orderly tight build m)
    (kept : KeepsUnheld orderly.1.frame false program) :
    Returns program m fun _ next => Orderly tight build next ∧ SameDev m next :=
  (kept m orderly.1.unheld).mono fun _ _ facts => ⟨orderly.of_unheld facts.1 facts.2, facts.2⟩

end Kept

/-! ## Configuration of the arrays -/

/-- A configuration that an array can follow: no more queues than it has cells and,
in a tight machine, no stored ring behind the new count. -/
def Resizable (tight : Prop) (side : RingType) (count : Nat) (m : Machine) : Prop :=
  rings side m ≠ [] → count ≤ (rings side m).length ∧
    (tight → ∀ found ∈ (rings side m).drop count, found = none)

section Configure

variable {env : Env} {side : RingType} {m : Machine} {count : Nat}

theorem Row.recount (row : Row tight side m) (some : 0 < count)
    (resizable : Resizable tight side count m)
    (present : rings side m ≠ []) :
    Row tight side (m.withAdapter (setNumRings side count m.adapter)) := by
  obtain ⟨fits, beyond⟩ := resizable present
  refine ⟨?_, ?_, ?_⟩
  · rw [rings_withAdapter, Machine.withAdapter_adapter, numRings_setNumRings]
    exact .inr ⟨some, fits⟩
  · intro held q port found
    rw [rings_withAdapter] at found
    rw [Machine.withAdapter_adapter, numRings_setNumRings]
    refine Nat.lt_of_not_le fun late => ?_
    have behind : ((rings side m).drop count)[q - count]? = Option.some (Option.some port) := by
      rw [List.getElem?_drop, Nat.add_sub_cancel' late, found]
    cases beyond held _ (List.mem_of_getElem? behind)
  · rw [rings_withAdapter]
    exact row.unlocked

theorem Row.allocated (some : 0 < count) (m : Machine) :
    Row tight side ((setRings side (List.replicate count none) m).withAdapter
      (setNumRings side count m.adapter)) := by
  have empty : ∀ (q : Nat) (port : Port side),
      (List.replicate count (none : Option (Port side)))[q]? ≠ Option.some (Option.some port) := by
    intro q port found
    rw [List.getElem?_replicate] at found
    split at found <;> cases found
  refine ⟨.inr ?_, ?_, ?_⟩
  · rw [rings_withAdapter, rings_setRings, Machine.withAdapter_adapter, numRings_setNumRings,
      List.length_replicate]
    exact ⟨some, Nat.le_refl count⟩
  · intro _ q port found
    rw [rings_withAdapter, rings_setRings] at found
    exact absurd found (empty q port)
  · intro q port found
    rw [rings_withAdapter, rings_setRings] at found
    exact absurd found (empty q port)

/-- One direction after a configuration: the count is the new one, the array exists,
and the other direction is as before. -/
structure Resized (tight : Prop) (side : RingType) (count : Nat) (m next : Machine) : Prop where
  sound : Sound tight next
  dev : SameDev m next
  count : numRings side next.adapter = count
  present : rings side next ≠ []
  others : ∀ other, other ≠ side →
    rings other next = rings other m ∧ numRings other next.adapter = numRings other m.adapter

/-- Allocate an array unless it exists, set its count and go on. -/
theorem allocRingArray_bind (sound : Sound tight m) (some : 0 < count)
    (resizable : Resizable tight side count m) {rest : Driver Int} {post : Int → Machine → Prop}
    (failed : ∀ next, rings side m = [] → Sound tight next → SameDev m next → post (-ENOMEM) next)
    (resized : ∀ next, Resized tight side count m next → Returns rest next post) :
    Returns (do
      let made ← allocRingArray env side count
      if made = false then
        return -ENOMEM
      modifyAdapter (setNumRings side count)
      rest) m post := by
  by_cases absent : rings side m = []
  · cases memory : env.heap m.log.length with
    | none =>
      have ran : allocRingArray env side count m =
          .ok (false, m.logged [.heapAlloc (env.heap m.log.length)]) := by
        simp [allocRingArray, absent, memory]
      refine Returns.after ran ?_
      exact Returns.pure (failed _ absent (sound.logged _) rfl)
    | some address =>
      have ran : allocRingArray env side count m = .ok (true, setRings side
          (List.replicate count none) (m.logged [.heapAlloc (env.heap m.log.length)])) := by
        simp [allocRingArray, absent, memory]
      refine Returns.after ran ?_
      refine Returns.after (modifyAdapter_run _ _) (resized _ ?_)
      rw [setRings_adapter]
      have others : ∀ other, other ≠ side →
          rings other ((setRings side (List.replicate count none)
            (m.logged [.heapAlloc (env.heap m.log.length)])).withAdapter
            (setNumRings side count m.adapter)) = rings other m ∧
          numRings other (setNumRings side count m.adapter) = numRings other m.adapter := by
        intro other differs
        rw [rings_withAdapter, rings_setRings_other differs, rings_logged,
          numRings_setNumRings_other differs]
        exact ⟨rfl, rfl⟩
      refine ⟨sound.change (Row.allocated some (m.logged _)) others ?_ ?_, ?_, ?_, ?_, others⟩
      · exact setNumRings_adminLock _
      · exact setNumRings_recoverActive _
      · exact setRings_dev.trans rfl
      · exact numRings_setNumRings _
      · rw [rings_withAdapter, rings_setRings]
        exact List.ne_nil_of_length_pos (Nat.lt_of_lt_of_eq some List.length_replicate.symm)
  · have ran : allocRingArray env side count m = .ok (true, m) := by
      simp [allocRingArray, absent]
    refine Returns.after ran (Returns.after (modifyAdapter_run _ _) (resized _ ?_))
    have others : ∀ other, other ≠ side →
        rings other (m.withAdapter (setNumRings side count m.adapter)) = rings other m ∧
        numRings other (setNumRings side count m.adapter) = numRings other m.adapter :=
      fun other differs => ⟨rings_withAdapter _, numRings_setNumRings_other differs _⟩
    refine ⟨sound.change ((sound.row side).recount some resizable absent) others ?_ ?_, rfl, ?_, ?_,
      others⟩
    · exact setNumRings_adminLock _
    · exact setNumRings_recoverActive _
    · exact numRings_setNumRings _
    · rw [rings_withAdapter]
      exact absent

/-- The arrays follow a configuration that both can follow, unless one of them has
still to be allocated and cannot be. -/
theorem allocRingArrays_returns (sound : Sound tight m) (rxSome : 0 < nbRx) (txSome : 0 < nbTx)
    (rx : Resizable tight .rx nbRx m) (tx : Resizable tight .tx nbTx m) :
    Returns (enaNetdevAllocRingArrays env nbRx nbTx) m fun ret next =>
      Sound tight next ∧ SameDev m next ∧ (ret ≠ 0 → ∃ side, rings side m = []) ∧
      (ret = 0 → ∀ side, numRings side next.adapter = Host.nbQueues side ⟨.configured, nbRx, nbTx⟩ ∧
        rings side next ≠ []) := by
  have refused : -ENOMEM ≠ 0 := by decide
  refine allocRingArray_bind sound rxSome rx ?_ fun middle first => ?_
  · exact fun next absent kept dev => ⟨kept, dev, fun _ => ⟨.rx, absent⟩, fun zero => absurd zero refused⟩
  obtain ⟨sameRings, sameCount⟩ := first.others .tx (by decide)
  have later : Resizable tight .tx nbTx middle := by
    unfold Resizable
    rw [sameRings]
    exact tx
  refine allocRingArray_bind first.sound txSome later ?_ fun last second => ?_
  · intro next absent kept dev
    refine ⟨kept, SameDev.trans _ _ _ first.dev dev, fun _ => ⟨.tx, ?_⟩, fun zero => absurd zero refused⟩
    exact sameRings ▸ absent
  obtain ⟨rxRings, rxCount⟩ := second.others .rx (by decide)
  refine Returns.pure ⟨second.sound, SameDev.trans _ _ _ first.dev second.dev,
    fun nonzero => absurd rfl nonzero, fun _ side => ?_⟩
  cases side with
  | tx => exact ⟨second.count, second.present⟩
  | rx => exact ⟨rxCount.trans first.count, rxRings ▸ first.present⟩

end Configure

end EnaDriver.Lifecycle
