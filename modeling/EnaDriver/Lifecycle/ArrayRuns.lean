import EnaDriver.Lifecycle.RingArrays

/-!
# Lifecycle runs inside the ring arrays

Every call of the lifecycle keeps a machine orderly when its configurations can be
followed by the arrays that exist.  A run of such calls makes no access outside an
array, and its teardowns find every ring that was stored.
-/

namespace EnaDriver.Lifecycle

open Support.Laps Support.Programs Support.Runs Datapath Admin

/-! ## Cells -/

section Cells

variable {tight : Prop} {side : RingType} {m : Machine} {q : Nat} {found : Option (Port side)}
  {build : Build}

theorem Row.setCell (row : Row tight side m)
    (inside : rings side m = [] ∨ q < numRings side m.adapter)
    (unlocked : ∀ port, found = some port → (Port.ring port).ringLock = false) :
    Row tight side (setRings side ((rings side m).set q found) m) := by
  have cases : ∀ i port, ((rings side m).set q found)[i]? = some (some port) →
      (tight → i < numRings side m.adapter) ∧ (Port.ring port).ringLock = false := by
    intro i port present
    rw [List.getElem?_set] at present
    split at present
    · rename_i here
      subst here
      split at present
      · rename_i bound
        refine ⟨fun _ => inside.resolve_left fun none => ?_, unlocked port (Option.some.inj present)⟩
        rw [none] at bound
        exact Nat.not_lt_zero q bound
      · cases present
    · exact ⟨fun held => row.stored held i port present, row.unlocked i port present⟩
  refine ⟨?_, ?_, ?_⟩
  · rw [rings_setRings, setRings_adapter, List.length_set]
    exact row.fits.imp_left fun none => by rw [none]; rfl
  · rw [rings_setRings, setRings_adapter]
    exact fun held i port present => (cases i port present).1 held
  · rw [rings_setRings]
    exact fun i port present => (cases i port present).2

theorem Orderly.logged (orderly : Orderly tight build m) (effects : List Effect) :
    Orderly tight build (m.logged effects) := by
  refine ⟨orderly.1.logged effects, fun host => ?_⟩
  refine (orderly.2 host).imp_right fun all side => ?_
  rw [rings_logged]
  exact all side

theorem Orderly.setCell (orderly : Orderly tight build m)
    (inside : rings side m = [] ∨ q < numRings side m.adapter)
    (unlocked : ∀ port, found = some port → (Port.ring port).ringLock = false) :
    Orderly tight build (setRings side ((rings side m).set q found) m) := by
  refine ⟨orderly.1.setRings ((orderly.1.row side).setCell inside unlocked), fun host => ?_⟩
  unfold Counted
  rw [setRings_dev, setRings_adapter]
  refine (orderly.2 host).imp_right fun all other => ⟨(all other).1, ?_⟩
  by_cases same : other = side
  · subst same
    rw [rings_setRings]
    exact fun none => (all other).2 (List.length_eq_zero_iff.mp
      (List.length_set.symm.trans (List.length_eq_zero_iff.mpr none)))
  · rw [rings_setRings_other same]
    exact (all other).2

theorem freeRing_run (inside : rings side m = [] ∨ q < (rings side m).length) :
    freeRing side q m = .ok ((), setRings side ((rings side m).set q none) m) := by
  obtain ⟨found, read, _⟩ := ringCell_ok inside
  have visited : cell side q m = .ok (found, m) := by
    change (ringCell (rings side m) q >>= fun found => Except.ok (found, m)) = _
    rw [read]
    rfl
  unfold freeRing
  rw [run_bind, visited]
  rfl

end Cells

/-! ## Configuration of a queue -/

section Queues

variable {tight : Prop} {env : Env} {side : RingType} {m : Machine} {q : Nat} {build : Build}

theorem heapAllocs_run (env : Env) (n : Nat) (m : Machine) :
    ∃ memory effects, heapAllocs env n m = .ok (memory, m.logged effects) := by
  induction n generalizing m with
  | zero => exact ⟨[], [], by simp [heapAllocs]⟩
  | succ n ih =>
    cases granted : env.heap m.log.length with
    | none => exact ⟨[], [.heapAlloc none], by simp [heapAllocs, granted]⟩
    | some address =>
      obtain ⟨memory, effects, ran⟩ := ih (m.logged [.heapAlloc (env.heap m.log.length)])
      rw [granted] at ran
      exact ⟨address :: memory, _, by simp [heapAllocs, granted, ran]; rfl⟩

theorem ringAlloc_run (env : Env) (q : Nat) (side : RingType) (depth : UInt16) (m : Machine) :
    ∃ result effects, ringAlloc env q side depth m = .ok (result, m.logged effects) ∧
      ∀ ring, result = .ok ring → ring.ringLock = false := by
  by_cases accepted : Depth.ofRaw? depth = none
  · exact ⟨.error (-EINVAL), [], by simp [ringAlloc, accepted], fun ring other => nomatch other⟩
  obtain ⟨memory, effects, ran⟩ := heapAllocs_run env side.allocations m
  refine ⟨enaRingAlloc q side depth depth fun i => memory[i]?, effects, ?_, fun ring built => ?_⟩
  · simp [ringAlloc, accepted, ran]
  · obtain ⟨_, _, _, _, _, fresh⟩ := enaRingAlloc_ok built
    rw [fresh]
    rfl

theorem configuredPort_unlocked {ring : Ring} (unlocked : ring.ringLock = false) (alloc : Bool)
    (bounce : Nat) (side : RingType) :
    (Port.ring (configuredPort alloc bounce ring side)).ringLock = false := by
  cases side <;> exact unlocked

theorem configureQueue_returns (orderly : Orderly tight build m)
    (inside : rings side m = [] ∨ q < numRings side m.adapter) (nbDesc : Nat) (alloc : Bool) :
    Returns (configureQueue env side q nbDesc alloc) m fun _ next => Orderly tight build next := by
  have fits : rings side m = [] ∨ q < (rings side m).length := by
    rcases (orderly.1.row side).fits with none | ⟨_, le⟩
    · exact .inl none
    · exact inside.imp_right fun below => Nat.lt_of_lt_of_le below le
  have cleared : Orderly tight build (setRings side ((rings side m).set q none) m) :=
    orderly.setCell inside fun port other => nomatch other
  refine Returns.after (adapter_run m) (Returns.after (freeRing_run fits) ?_)
  obtain ⟨result, effects, ran, unlocked⟩ := ringAlloc_run env q side
    (UInt16.ofNat (enaNetdevClampDescCount nbDesc (maxRingSize side m.adapter)))
    (setRings side ((rings side m).set q none) m)
  refine Returns.after ran ?_
  cases result with
  | error ret => exact Returns.pure (cleared.logged effects)
  | ok ring =>
    obtain ⟨memory, more, granted⟩ := heapAllocs_run env 3
      ((setRings side ((rings side m).set q none) m).logged effects)
    refine Returns.after granted ?_
    have kept := (cleared.logged effects).logged more
    have still : rings side (((setRings side ((rings side m).set q none) m).logged effects).logged
        more) = [] ∨ q < numRings side m.adapter := by
      rw [rings_logged, rings_logged, rings_setRings]
      exact inside.imp_left fun none => by rw [none]; rfl
    split
    · rename_i phys _ _
      refine Returns.after rfl (Returns.pure (kept.setCell ?_ fun port same => ?_))
      · rw [Machine.logged_adapter, Machine.logged_adapter, setRings_adapter]
        exact still
      · cases same
        exact configuredPort_unlocked (unlocked ring rfl) alloc phys side
    · exact Returns.pure kept

end Queues

/-! ## Cleanup -/

def emptied {π : Type} (indices : List Nat) (array : List (Option π)) : List (Option π) :=
  indices.foldl (fun rest q => rest.set q none) array

theorem emptied_stored {π : Type} {indices : List Nat} {array : List (Option π)} {i : Nat} {port : π}
    (found : (emptied indices array)[i]? = some (some port)) :
    array[i]? = some (some port) ∧ i ∉ indices := by
  induction indices generalizing array with
  | nil => exact ⟨found, List.not_mem_nil⟩
  | cons q rest ih =>
    obtain ⟨later, outside⟩ := ih found
    rw [List.getElem?_set] at later
    split at later
    · split at later <;> cases later
    rename_i differs
    refine ⟨later, fun member => ?_⟩
    rcases List.mem_cons.mp member with rfl | behind
    · exact differs rfl
    · exact outside behind

theorem storedRings_nil {π : Type} {array : List (Option π)}
    (empty : ∀ (q : Nat) (port : π), array[q]? ≠ some (some port)) : storedRings array = [] := by
  unfold storedRings
  rw [List.filter_eq_nil_iff]
  intro q _ present
  cases found : array[q]? with
  | none => simp [found] at present
  | some cell =>
    cases cell with
    | none => simp [found] at present
    | some port => exact empty q port found

section Cleanup

variable {tight : Prop} {side : RingType} {m : Machine}

/-- The loop of a cleanup empties the cells it visits. -/
theorem emptyCells_run (indices : List Nat) (inside : ∀ q ∈ indices, q < (rings side m).length) :
    indices.forM (freeRing side) m = .ok ((), setRings side (emptied indices (rings side m)) m) := by
  induction indices generalizing m with
  | nil =>
    rw [emptied, List.foldl_nil, setRings_rings]
    rfl
  | cons q rest ih =>
    have freed := freeRing_run (.inr (inside q List.mem_cons_self))
    have inner : ∀ other ∈ rest,
        other < (rings side (setRings side ((rings side m).set q none) m)).length := by
      intro other member
      rw [rings_setRings, List.length_set]
      exact inside other (List.mem_cons_of_mem q member)
    have later := ih inner
    rw [rings_setRings, setRings_setRings] at later
    rw [List.forM_eq_forM, List.forM_cons, run_bind, freed]
    exact later

/-- A cleanup frees every ring that is stored below the count, and the array. -/
theorem cleanupRings_returns (side : RingType) (sound : Sound tight m) :
    Returns (cleanupRings side) m fun lost next =>
      (tight → lost = []) ∧ Sound tight next ∧ SameDev m next ∧ rings side next = [] ∧
        ∀ other, other ≠ side → rings other next = rings other m := by
  refine Returns.after (run_get m) ?_
  by_cases absent : rings side m = []
  · rw [if_pos (List.isEmpty_iff.mpr absent)]
    exact Returns.pure ⟨fun _ => rfl, sound, rfl, absent, fun _ _ => rfl⟩
  rw [if_neg fun empty => absent (List.isEmpty_iff.mp empty)]
  obtain ⟨some, fits⟩ := (sound.row side).fits.resolve_left absent
  have bound : loopBound side m.adapter = numRings side m.adapter :=
    if_neg (Nat.ne_of_gt some)
  have visited : ∀ q ∈ List.range (loopBound side m.adapter), q < (rings side m).length := by
    intro q member
    rw [bound] at member
    exact Nat.lt_of_lt_of_le (List.mem_range.mp member) fits
  have emptied_run := emptyCells_run _ visited
  refine Returns.after emptied_run (Returns.after (run_get _) (Returns.after rfl
    (Returns.after (modifyAdapter_run _ _) (Returns.pure ?_))))
  have empty : rings side ((setRings side [] m).withAdapter
      (setNumRings side 0 m.adapter)) = [] := by
    rw [rings_withAdapter, rings_setRings]
  rw [setRings_setRings, setRings_adapter, rings_setRings]
  refine ⟨?_, ?_, setRings_dev, empty, fun other differs => ?_⟩
  · refine fun held => storedRings_nil fun q port found => ?_
    obtain ⟨stored, outside⟩ := emptied_stored found
    rw [bound, List.mem_range] at outside
    exact outside ((sound.row side).stored held q port stored)
  · have row : Row tight side ((setRings side [] m).withAdapter (setNumRings side 0 m.adapter)) := by
      refine ⟨.inl empty, ?_, ?_⟩
      · rw [empty]
        exact fun _ q port found => nomatch found
      · rw [empty]
        exact fun q port found => nomatch found
    refine sound.change row (fun other differs => ?_) ?_ ?_
    · rw [rings_withAdapter, rings_setRings_other differs]
      exact ⟨rfl, numRings_setNumRings_other differs _⟩
    · exact setNumRings_adminLock _
    · exact setNumRings_recoverActive _
  · rw [rings_withAdapter, rings_setRings_other differs]

theorem cleanupAdapterRings_returns (sound : Sound tight m) (rss : Bool) :
    Returns (enaNetdevCleanupAdapterRings rss) m fun lost next =>
      (tight → lost = .none) ∧ Sound tight next ∧ SameDev m next ∧ ∀ side, rings side next = [] := by
  refine (cleanupRings_returns .rx sound).bind fun lostRx middle first => ?_
  obtain ⟨rxNone, rxSound, rxDev, rxEmpty, _⟩ := first
  refine (cleanupRings_returns .tx rxSound).bind fun lostTx next second => ?_
  obtain ⟨txNone, txSound, txDev, txEmpty, others⟩ := second
  have fini : KeepsUnheld txSound.frame false (onlyIf (rss = true) () enaRssFini) :=
    have memory := memory_unheld txSound.frame false .obliging
    memory.onlyIf memory.rssFini
  refine (txSound.keeps fini).bind fun _ last facts => Returns.pure ?_
  obtain ⟨kept, dev, empty⟩ := facts
  refine ⟨fun held => ?_, kept, SameDev.trans _ _ _ (SameDev.trans _ _ _ rxDev txDev) dev,
    fun side => empty side ?_⟩
  · rw [rxNone held, txNone held]
    rfl
  · cases side with
    | tx => exact txEmpty
    | rx => exact (others .rx (by decide)).trans rxEmpty

theorem releaseDevice_returns (sound : Sound tight m) (rss : Bool) :
    Returns (releaseDevice rss) m fun lost next =>
      (tight → lost = .none) ∧ Sound tight next ∧ SameDev m next ∧ ∀ side, rings side next = [] := by
  refine (cleanupAdapterRings_returns sound rss).bind ?_
  rintro lost middle ⟨none, kept, dev, empty⟩
  refine (kept.keeps msixFini_keeps).bind fun _ next first => ?_
  refine (first.1.keeps adminFini_keeps).bind fun _ last second => Returns.pure ?_
  refine ⟨none, second.1, ?_, fun side => second.2.2 side (first.2.2 side (empty side))⟩
  exact SameDev.trans _ _ _ (SameDev.trans _ _ _ dev first.2.1) second.2.1

end Cleanup

/-! ## Calls -/

section Calls

variable {env : Env} {frame : Frame} {m : Machine}

theorem driverExec_unheld (env : Env) (frame : Frame) (ctrl : List Nat) (req : AdminReq) :
    KeepsUnheld frame false (driverExec env 1 ctrl req) :=
  execWith_unheld (resetAndRecover_unheld env) ctrl req

theorem clearRxChains_keeps : KeepsUnheld frame false enaNetdevClearRxChains := by
  refine Keeps.update fun m held => ⟨⟨⟨held.fits.numTx, held.fits.numRx, held.fits.tx, ?_⟩,
    held.admin, held.recover, held.rings.tx, ?_⟩, rfl⟩
  · have same : (m.rx.map (Option.map RxPort.clearChain)).map Option.isSome =
        m.rx.map Option.isSome := by
      rw [List.map_map]
      exact List.map_congr_left fun cell _ => by cases cell <;> rfl
    exact same.trans held.fits.rx
  · intro q port found
    rw [List.getElem?_map] at found
    obtain ⟨cell, before, became⟩ := Option.map_eq_some_iff.mp found
    obtain ⟨old, rfl, rfl⟩ := Option.map_eq_some_iff.mp became
    exact held.rings.rx q old before

/-- The refill finds no ring, or replaces the first one by one with the same
hardware part. -/
theorem refillFirst_returns (env : Env) (counts : cells frame .rx = [] ∨ counted frame .rx ≠ 0)
    (held : Unheld frame false m) :
    Returns (Unikraft.refillFirst env) m fun _ next =>
      next = m ∨ ∃ (port filled : RxPort) (events : List Event), m.rx[0]? = some (some port) ∧
        PostFrame port.ring filled.ring ∧
        next = (m.updateRx 0 fun _ => filled).logged [.ring .rx 0 events] := by
  obtain ⟨found, ran, attached⟩ : ∃ found : Option RxPort, rxCell 0 m = .ok (found, m) ∧
      ∀ port, found = some port → m.rx[0]? = some (some port) :=
    cell_run held.fits (counts.imp_right Nat.pos_of_ne_zero)
  refine Returns.after ran ?_
  cases found with
  | none => exact Returns.pure (.inl rfl)
  | some port =>
    have present := attached port rfl
    obtain ⟨ret, filled, events, refilled, posted, _⟩ :=
      enaRxRefill_frame port (port.ring.sqDepth.val - 1) (env.netbufs m.log.length)
        (held.rings.rx 0 port present)
    refine ⟨(), _, ?_, .inr ⟨port, filled, events, present, posted, rfl⟩⟩
    dsimp only
    rw [run_bind, run_get, ok_bind, run_bind]
    dsimp only
    rw [refilled]
    rfl

theorem refillFirst_keeps (counts : cells frame .rx = [] ∨ counted frame .rx ≠ 0) :
    KeepsUnheld frame false (Unikraft.refillFirst env) := by
  intro m held
  refine (refillFirst_returns env counts held).mono fun _ next outcome => ?_
  rcases outcome with rfl | ⟨port, filled, events, present, ⟨_, _, _, _, same⟩, rfl⟩
  · exact ⟨held, rfl⟩
  · have still : filled.ring.ringLock = false := by
      rw [same]
      exact held.rings.rx 0 port present
    exact ⟨(held.updateRx 0 fun _ _ => still).logged _, rfl⟩

theorem unikraftStart_keeps (env : Env) (counts : ∀ side, cells frame side = [] ∨ counted frame side ≠ 0)
    (options : Options) :
    KeepsUnheld frame false (Unikraft.enaNetdevStart env (driverExec env 1) options) := by
  have command := driverExec_unheld env frame
  refine adapter_bind fun m held => ?_
  refine keeps_bind (startRingsHw_keeps command (.inr ?_) (.inr ?_) counts) fun ret => ?_
  · exact Nat.le_of_eq held.fits.numRx
  · exact Nat.le_of_eq held.fits.numTx
  refine Keeps.ite (keeps_pure _) ?_
  refine keeps_bind (refillFirst_keeps (counts .rx)) fun _ => ?_
  refine adapter_bind fun m held => ?_
  refine keeps_bind ((Keeps.composes SameDev.refl SameDev.trans).onlyIf ?_) fun _ => ?_
  · exact (driver_unheld command).rssConfigure fun _ below => Nat.lt_of_lt_of_eq below held.fits.numRx
  · refine keeps_bind ?_ fun _ => keeps_pure _
    exact keeps_adapter (fun _ => rfl) (fun _ => rfl) (fun _ => rfl) fun _ => rfl

theorem unikraftStop_keeps (env : Env) :
    KeepsUnheld frame false (Unikraft.enaNetdevStop (driverExec env 1)) := by
  refine keeps_bind ?_ fun _ => ?_
  · exact keeps_adapter (fun _ => rfl) (fun _ => rfl) (fun _ => rfl) fun _ => rfl
  refine keeps_bind clearRxChains_keeps fun _ => ?_
  refine adapter_bind fun m held => ?_
  exact stopRingsHw_keeps (driverExec_unheld env frame) (.inr (Nat.le_of_eq held.fits.numRx))
    (.inr (Nat.le_of_eq held.fits.numTx))

end Calls

/-! ## The host build -/

section HostCalls

variable {tight : Prop} {env : Env} {m : Machine}

theorem Counted.nbQueues_le (counted : Counted m) (side : RingType) :
    Host.nbQueues side m.dev ≤ numRings side m.adapter := by
  rcases counted with zero | all
  · rw [zero side]
    exact Nat.zero_le _
  · exact Nat.le_of_eq (all side).1

section

variable (orderly : Orderly tight .host m)
include orderly

theorem Orderly.setState (state : NetdevState) :
    Orderly tight .host { m with dev := { m.dev with state := state } } := by
  refine ⟨⟨fun side => ?_, orderly.1.admin, orderly.1.recover⟩, fun host => ?_⟩
  · refine (orderly.1.row side).congr ?_ rfl
    cases side <;> rfl
  refine (orderly.2 host).imp (fun zero side => ?_) fun all side => ?_
  · cases side
    · exact zero .tx
    · exact zero .rx
  · cases side
    · exact all .tx
    · exact all .rx

theorem hostStart_returns :
    Returns (Host.enaNetdevStart env (driverExec env 1)) m fun _ next => Orderly tight .host next := by
  have command := driverExec_unheld env orderly.1.frame
  have few := fun side => (orderly.2 rfl).nbQueues_le side
  refine Returns.after (run_get m) ?_
  split
  · exact Returns.pure orderly
  have started := startRingsHw_keeps command (orderly.1.visitable (few .rx))
    (orderly.1.visitable (few .tx)) orderly.1.counts
  have scaled : KeepsUnheld orderly.1.frame false (onlyIf (1 < m.dev.nbRxQueues) 0
      (enaRssConfigure env (driverExec env 1) m.dev.nbRxQueues)) :=
    (Keeps.composes SameDev.refl SameDev.trans).onlyIf
      ((driver_unheld command).rssConfigure fun _ below => Nat.lt_of_lt_of_le below (few .rx))
  have linked : KeepsUnheld orderly.1.frame false
      (modifyAdapter fun a => { a with linkUp := true }) :=
    keeps_adapter (fun _ => rfl) (fun _ => rfl) (fun _ => rfl) fun _ => rfl
  refine (started m orderly.1.unheld).bind fun ret first facts => ?_
  split
  · exact Returns.pure (orderly.of_unheld facts.1 facts.2)
  refine (scaled first facts.1).bind fun ret second more => ?_
  have dev := SameDev.trans _ _ _ facts.2 more.2
  split
  · exact Returns.pure (orderly.of_unheld more.1 dev)
  refine (linked second more.1).bind fun _ third last => ?_
  have kept := orderly.of_unheld last.1 (SameDev.trans _ _ _ dev last.2)
  exact Returns.after rfl (Returns.pure (kept.setState .running))

theorem hostStop_returns :
    Returns (Host.enaNetdevStop (driverExec env 1)) m fun _ next => Orderly tight .host next := by
  have command := driverExec_unheld env orderly.1.frame
  have few := fun side => (orderly.2 rfl).nbQueues_le side
  have stopped := stopRingsHw_keeps command (orderly.1.visitable (few .rx))
    (orderly.1.visitable (few .tx))
  have linked : KeepsUnheld orderly.1.frame false
      (modifyAdapter fun a => { a with linkUp := false }) :=
    keeps_adapter (fun _ => rfl) (fun _ => rfl) (fun _ => rfl) fun _ => rfl
  refine Returns.after (run_get m) ?_
  split
  · exact Returns.pure orderly
  refine (clearRxChains_keeps m orderly.1.unheld).bind fun _ first facts => ?_
  refine (stopped first facts.1).bind fun ret second more => ?_
  have dev := SameDev.trans _ _ _ facts.2 more.2
  split
  · exact Returns.pure (orderly.of_unheld more.1 dev)
  refine (linked second more.1).bind fun _ third last => ?_
  have kept := orderly.of_unheld last.1 (SameDev.trans _ _ _ dev last.2)
  exact Returns.after rfl (Returns.pure (kept.setState .stopped))

theorem hostFree_returns :
    Returns (Host.enaNetdevFree (driverExec env 1)) m fun lost next =>
      (tight → lost = .none) ∧ Orderly tight .host next ∧ ∀ side, rings side next = [] := by
  refine (hostStop_returns orderly).bind fun _ stopped kept => ?_
  refine (releaseDevice_returns kept.1 true).bind fun lost released facts => ?_
  obtain ⟨none, sound, _, empty⟩ := facts
  refine Returns.after rfl (Returns.pure ⟨none, ⟨⟨fun side => ?_, sound.admin, sound.recover⟩, ?_⟩, ?_⟩)
  · refine (sound.row side).congr ?_ rfl
    cases side <;> rfl
  · refine fun _ => .inl fun side => ?_
    cases side <;> rfl
  · intro side
    cases side
    · exact empty .tx
    · exact empty .rx

theorem hostConfigure_returns {nbRx nbTx : Nat}
    (resizable : m.dev.state ≠ .running → ¬ Host.countRefused .rx m.adapter nbRx →
      ¬ Host.countRefused .tx m.adapter nbTx → Resizable tight .rx nbRx m ∧ Resizable tight .tx nbTx m) :
    Returns (Host.enaNetdevConfigure env nbRx nbTx) m fun _ next => Orderly tight .host next := by
  refine Returns.after (run_get m) ?_
  split
  · exact Returns.pure orderly
  rename_i idle
  split
  · exact Returns.pure orderly
  rename_i rxCount
  split
  · exact Returns.pure orderly
  rename_i txCount
  obtain ⟨rx, tx⟩ := resizable idle rxCount txCount
  have rxSome := Nat.pos_of_ne_zero fun zero => rxCount (.inl zero)
  have txSome := Nat.pos_of_ne_zero fun zero => txCount (.inl zero)
  refine (allocRingArrays_returns orderly.1 rxSome txSome rx tx).bind fun ret next facts => ?_
  obtain ⟨sound, dev, failed, made⟩ := facts
  split
  · rename_i nonzero
    refine Returns.pure ⟨sound, fun _ => .inl ?_⟩
    obtain ⟨side, absent⟩ := failed nonzero
    rw [dev]
    exact (orderly.2 rfl).resolve_right fun all => (all side).2 absent
  rename_i zero
  have counts := made (Decidable.not_not.mp zero)
  refine Returns.after rfl (Returns.pure ⟨⟨fun side => ?_, sound.admin, sound.recover⟩, ?_⟩)
  · refine (sound.row side).congr ?_ rfl
    cases side <;> rfl
  · refine fun _ => .inr fun side => ?_
    cases side
    · exact ⟨(counts .tx).1.symm, (counts .tx).2⟩
    · exact ⟨(counts .rx).1.symm, (counts .rx).2⟩

theorem hostQueueConfigure_returns (side : RingType) (q nbDesc : Nat) (alloc : Bool) :
    Returns (Host.queueConfigure env side q nbDesc alloc) m fun _ next => Orderly tight .host next := by
  refine Returns.after (run_get m) ?_
  split
  · exact Returns.pure orderly
  rename_i accepted
  split
  · exact Returns.pure orderly
  have below : q < Host.nbQueues side m.dev := Nat.lt_of_not_le fun beyond => accepted (.inl beyond)
  have inside := Nat.lt_of_lt_of_le below ((orderly.2 rfl).nbQueues_le side)
  exact configureQueue_returns orderly (.inr inside) nbDesc alloc

end

end HostCalls

/-! ## The Unikraft build -/

section UnikraftCalls

variable {tight : Prop} {env : Env} {m : Machine} {options : Options}

theorem orderly_unikraft (sound : Sound tight m) : Orderly tight (.unikraft options) m :=
  ⟨sound, fun other => nomatch other⟩

theorem unikraftTeardown_returns (sound : Sound tight m) :
    Returns (Unikraft.enaNetdevTeardown (driverExec env 1) options) m fun lost next =>
      (tight → lost = .none) ∧ Orderly tight (.unikraft options) next ∧ ∀ side, rings side next = [] := by
  refine (sound.keeps (unikraftStop_keeps env)).bind fun _ stopped kept => ?_
  refine (releaseDevice_returns kept.1 options.rss).mono fun lost released facts => ?_
  exact ⟨facts.1, orderly_unikraft facts.2.1, facts.2.2.2⟩

theorem unikraftConfigure_returns {running : Bool} {nbRx nbTx : Nat} (sound : Sound tight m)
    (resizable : running = false → ¬ Unikraft.countRefused options .rx m.adapter nbRx →
      ¬ Unikraft.countRefused options .tx m.adapter nbTx →
      Resizable tight .rx nbRx m ∧ Resizable tight .tx nbTx m) :
    Returns (Unikraft.enaNetdevConfigure env options running nbRx nbTx) m fun _ next =>
      Orderly tight (.unikraft options) next := by
  refine Returns.after (adapter_run m) ?_
  split
  · exact Returns.pure (orderly_unikraft sound)
  rename_i idle
  split
  · exact Returns.pure (orderly_unikraft sound)
  rename_i rxCount
  split
  · exact Returns.pure (orderly_unikraft sound)
  rename_i txCount
  obtain ⟨rx, tx⟩ := resizable (Bool.not_eq_true _ ▸ idle) rxCount txCount
  have rxSome := Nat.pos_of_ne_zero fun zero => rxCount (.inl zero)
  have txSome := Nat.pos_of_ne_zero fun zero => txCount (.inl zero)
  refine (allocRingArrays_returns sound rxSome txSome rx tx).mono fun ret next facts => ?_
  exact orderly_unikraft facts.1

theorem unikraftQueueConfigure_returns (sound : Sound tight m) (running : Bool) (side : RingType)
    (q nbDesc : Nat) (alloc : Bool) :
    Returns (Unikraft.queueConfigure env options running side q nbDesc alloc) m fun _ next =>
      Orderly tight (.unikraft options) next := by
  refine Returns.after (adapter_run m) ?_
  split
  · exact Returns.pure (orderly_unikraft sound)
  rename_i accepted
  split
  · exact Returns.pure (orderly_unikraft sound)
  refine configureQueue_returns (orderly_unikraft sound) ?_ nbDesc alloc
  refine (sound.row side).fits.imp_right fun fits => ?_
  exact Nat.lt_of_not_le fun beyond => accepted (.inr ⟨Nat.ne_of_gt fits.1, beyond⟩)

end UnikraftCalls

/-! ## Runs -/

/-- A configuration with these numbers of queues passes the checks of a build. -/
def Accepts (m : Machine) (running : Bool) (nbRx nbTx : Nat) : Build → Prop
  | .host => m.dev.state ≠ .running ∧ ¬ Host.countRefused .rx m.adapter nbRx ∧
      ¬ Host.countRefused .tx m.adapter nbTx
  | .unikraft options => running = false ∧ ¬ Unikraft.countRefused options .rx m.adapter nbRx ∧
      ¬ Unikraft.countRefused options .tx m.adapter nbTx

/-- A configuration that passes the checks is one that the arrays can follow. -/
def Followed (tight : Prop) (build : Build) (m : Machine) : Call → Prop
  | .configure running nbRx nbTx =>
    Accepts m running nbRx nbTx build → Resizable tight .rx nbRx m ∧ Resizable tight .tx nbTx m
  | _ => True

structure Device where
  machine : Machine
  lost : Lost

def Lost.add (earlier later : Lost) : Lost := ⟨earlier.rx ++ later.rx, earlier.tx ++ later.tx⟩

def callStep (env : Env) (build : Build) (d : Device) (call : Call) : Except Fault Device := do
  let (out, next) ← perform env (driverExec env 1) build call d.machine
  return ⟨next, d.lost.add out.2⟩

structure Unconfigured (m : Machine) : Prop where
  tx : m.tx = []
  rx : m.rx = []
  dev : m.dev.nbRxQueues = 0 ∧ m.dev.nbTxQueues = 0
  admin : m.adapter.adminLock = false
  recover : m.adapter.recoverActive = false

theorem Unconfigured.orderly {tight : Prop} {m : Machine} (fresh : Unconfigured m) (build : Build) :
    Orderly tight build m := by
  have empty : ∀ side, rings side m = [] := by
    intro side
    cases side with
    | tx => exact fresh.tx
    | rx => exact fresh.rx
  refine ⟨⟨fun side => ⟨.inl (empty side), ?_, ?_⟩, fresh.admin, fresh.recover⟩, fun _ => .inl ?_⟩
  · rw [empty side]
    exact fun _ q port found => nomatch found
  · rw [empty side]
    exact fun q port found => nomatch found
  · intro side
    cases side with
    | tx => exact fresh.dev.2
    | rx => exact fresh.dev.1

section Runs

variable {tight : Prop} {env : Env} {build : Build} {m : Machine}

/-- The result of a call that loses no ring. -/
theorem keepsRings {program : Driver Int} (kept : Returns program m fun _ next => Orderly tight build next) :
    Returns (do return (← program, Lost.none)) m fun out next =>
      (tight → out.2 = .none) ∧ Orderly tight build next :=
  kept.bind fun _ _ orderly => Returns.pure ⟨fun _ => rfl, orderly⟩

/-- A teardown that loses no ring and leaves no array. -/
theorem releasesRings {program : Driver Lost}
    (kept : Returns program m fun lost next =>
      (tight → lost = .none) ∧ Orderly tight build next ∧ ∀ side, rings side next = []) :
    Returns (do return ((0 : Int), ← program)) m fun out next =>
      (tight → out.2 = .none) ∧ Orderly tight build next ∧ ∀ side, rings side next = [] :=
  kept.bind fun _ _ facts => Returns.pure facts

/-- A teardown frees every ring and both arrays. -/
theorem perform_free (env : Env) (orderly : Orderly tight build m) :
    Returns (perform env (driverExec env 1) build .free) m fun out next =>
      (tight → out.2 = .none) ∧ Orderly tight build next ∧ ∀ side, rings side next = [] := by
  cases build with
  | host => exact releasesRings (hostFree_returns orderly)
  | unikraft options => exact releasesRings (unikraftTeardown_returns orderly.1)

theorem perform_orderly (env : Env) (orderly : Orderly tight build m) {call : Call} (followed : Followed tight build m call) :
    Returns (perform env (driverExec env 1) build call) m fun out next =>
      (tight → out.2 = .none) ∧ Orderly tight build next := by
  cases call with
  | configure running nbRx nbTx =>
    cases build with
    | host =>
      refine keepsRings (hostConfigure_returns orderly ?_)
      exact fun idle rx tx => followed ⟨idle, rx, tx⟩
    | unikraft options =>
      refine keepsRings (unikraftConfigure_returns orderly.1 ?_)
      exact fun idle rx tx => followed ⟨idle, rx, tx⟩
  | rxqConfigure running q nbDesc alloc =>
    cases build with
    | host => exact keepsRings (hostQueueConfigure_returns orderly .rx q nbDesc alloc)
    | unikraft options =>
      exact keepsRings (unikraftQueueConfigure_returns orderly.1 running .rx q nbDesc alloc)
  | txqConfigure running q nbDesc =>
    cases build with
    | host => exact keepsRings (hostQueueConfigure_returns orderly .tx q nbDesc false)
    | unikraft options =>
      exact keepsRings (unikraftQueueConfigure_returns orderly.1 running .tx q nbDesc false)
  | start =>
    cases build with
    | host => exact keepsRings (hostStart_returns orderly)
    | unikraft options =>
      have kept := orderly.keeps (unikraftStart_keeps env orderly.1.counts options)
      exact keepsRings (kept.mono fun _ _ facts => facts.1)
  | stop =>
    cases build with
    | host => exact keepsRings (hostStop_returns orderly)
    | unikraft options =>
      have kept := orderly.keeps (unikraftStop_keeps env)
      exact keepsRings (kept.mono fun _ _ facts => facts.1)
  | free => exact (perform_free env orderly).mono fun _ _ facts => ⟨facts.1, facts.2.1⟩

theorem callStep_orderly {d : Device} (orderly : Orderly tight build d.machine) 
    (none : tight → d.lost = .none)
    {call : Call} (followed : Followed tight build d.machine call) :
    ∃ next, callStep env build d call = .ok next ∧ Orderly tight build next.machine ∧
      (tight → next.lost = .none) := by
  obtain ⟨out, next, ran, lost, kept⟩ := perform_orderly env orderly followed
  refine ⟨⟨next, d.lost.add out.2⟩, ?_, kept, ?_⟩
  · unfold callStep
    rw [ran]
    rfl
  · intro held
    rw [none held, lost held]
    rfl

/-- In a run whose accepted configurations can be followed by the arrays that exist,
every index into an array is below the size it was allocated with, and a final
teardown frees every ring that was stored. -/
theorem ring_arrays_in_bounds (fresh : Unconfigured m) {calls : List Call}
    (followed : Meets (callStep env build) (fun d => Followed tight build d.machine) ⟨m, .none⟩ calls) :
    ∃ last final, run (callStep env build) ⟨m, .none⟩ calls = .ok last ∧
      callStep env build last .free = .ok final ∧ (tight → final.lost = .none) ∧
      ∀ side, rings side final.machine = [] := by
  obtain ⟨last, ran, orderly, none⟩ := run_invariant (fun d : Device => Followed tight build d.machine)
    (fun d : Device => Orderly tight build d.machine ∧ (tight → d.lost = .none))
    (fun d call holds ok => callStep_orderly holds.1 holds.2 ok) ⟨fresh.orderly build, fun _ => rfl⟩ followed
  obtain ⟨out, next, performed, lost, _, empty⟩ := perform_free env orderly
  refine ⟨last, ⟨next, last.lost.add out.2⟩, ran, ?_, ?_, empty⟩
  · unfold callStep
    rw [performed]
    rfl
  · intro held
    rw [none held, lost held]
    rfl

end Runs

/-! ## Small runs -/

/-- An initialised device with two queues in each direction, before its first
configuration. -/
def twoQueues : Machine :=
  { Machine.probed plainDevice with
    adapter := { Adapter.scaffold plainDevice with
      state := .adminReady
      queues := some (.fresh ⟨0, 0⟩ ⟨1, 0⟩ ⟨2, 0⟩ .four .four .four)
      settings := { Settings.zero with limits := ⟨2, 2, 4, 4, 0, 0, 0⟩ } } }

theorem twoQueues_unconfigured : Unconfigured twoQueues := ⟨rfl, rfl, ⟨rfl, rfl⟩, rfl, rfl⟩

instance (m : Machine) (running : Bool) (nbRx nbTx : Nat) :
    (build : Build) → Decidable (Accepts m running nbRx nbTx build)
  | .host => inferInstanceAs (Decidable (_ ∧ _))
  | .unikraft _ => inferInstanceAs (Decidable (_ ∧ _))

instance (tight : Prop) [Decidable tight] (side : RingType) (count : Nat) (m : Machine) :
    Decidable (Resizable tight side count m) :=
  inferInstanceAs (Decidable (_ → _ ∧ (_ → _)))

instance (tight : Prop) [Decidable tight] (build : Build) (m : Machine) :
    (call : Call) → Decidable (Followed tight build m call)
  | .configure _ _ _ => inferInstanceAs (Decidable (_ → _ ∧ _))
  | .rxqConfigure _ _ _ _ | .txqConfigure _ _ _ | .start | .stop | .free => isTrue trivial

/-- A second configuration lowers the number of receive queues to that of the rings
that are stored. -/
def shrinkReception : List Call :=
  [.configure false 2 2, .rxqConfigure false 0 4 true, .txqConfigure false 0 4,
    .txqConfigure false 1 4, .configure false 1 2, .start, .stop]

theorem ring_arrays_in_bounds_shrunk :
    ∃ last final, run (callStep .obliging .host) ⟨twoQueues, .none⟩ shrinkReception = .ok last ∧
      callStep .obliging .host last .free = .ok final ∧ final.lost = .none ∧
      ∀ side, rings side final.machine = [] := by
  obtain ⟨last, final, ran, freed, none, empty⟩ := @ring_arrays_in_bounds True .obliging .host _
    twoQueues_unconfigured shrinkReception
    (meets_of_passes (fun _ _ => of_decide_eq_true) (by decide +kernel))
  exact ⟨last, final, ran, freed, none trivial, empty⟩

/-- A second configuration with more queues is accepted and the array stays as it is,
so the configuration of the new queue reads behind its end.  A second configuration
with fewer queues is accepted as well, and a teardown then misses the ring behind the
new count. -/
theorem ring_arrays_left :
    run (callStep .obliging .host) ⟨twoQueues, .none⟩
        [.configure false 1 1, .configure false 2 1, .rxqConfigure false 1 4 true] =
      .error .badAccess ∧
    ∃ final, run (callStep .obliging .host) ⟨twoQueues, .none⟩
        [.configure false 2 1, .rxqConfigure false 1 4 true, .configure false 1 1, .free] = .ok final ∧
      final.lost = ⟨[1], []⟩ := by
  constructor
  · rfl
  have observed : (run (callStep .obliging .host) ⟨twoQueues, .none⟩
      [.configure false 2 1, .rxqConfigure false 1 4 true, .configure false 1 1,
        .free]).toOption.map Device.lost = some ⟨[1], []⟩ := by
    decide +kernel
  exact ok_of_observed observed

end EnaDriver.Lifecycle
