import EnaDriver.Datapath.Transmit
import EnaDriver.Datapath.Lifecycle

/-!
# Custody of transmit requests

The request pool, the tracking slots and the deferred releases of a transmit
ring together describe one ledger: every request id is free, in flight, or
completed and waiting for its owner core.  Each call of the transmit path is a
sequence of ledger actions, and the netbufs it frees are the items that these
actions release.
-/

namespace EnaDriver.Datapath

open Support.Laps Support.Windows
open Support.Custody

structure TxItem where
  netbuf : Option Netbuf
  cpu : Nat
  deriving DecidableEq, Repr

abbrev TxLedger := Ledger TxItem Nat

abbrev TxAction := Action TxItem Nat

def statusNetbuf (status : Status TxItem Nat) : Option Netbuf := status.item?.bind TxItem.netbuf

def Ring.foreign (r : Ring) : List TxForeignFree := (List.range r.txForeignCount).map r.txForeign

structure TxCustody (d : Depth) (pool : RequestPool) (bufs : Nat → TxBuffer)
    (foreign : List TxForeignFree) (ledger : TxLedger) : Prop where
  sound : pool.Sound d
  outside : ∀ id, d.val ≤ id → ledger id = .free
  allocated : ∀ id, pool.reqAllocated id = (ledger id).isHeld
  inFlight : ∀ id, pool.reqInFlight id = (ledger id).isActive
  netbuf : ∀ id, (bufs id).netbuf = statusNetbuf (ledger id)
  distinct : (foreign.map TxForeignFree.reqId).Nodup
  parked : ∀ id cpu, ⟨id, cpu⟩ ∈ foreign ↔ ∃ item, ledger id = .parked item cpu

def Tracks (r : Ring) (ledger : TxLedger) : Prop :=
  r.ringType = .tx ∧ TxCustody r.sqDepth r.pool r.txBufs r.foreign ledger

namespace TxCustody

variable {d : Depth} {pool next : RequestPool} {bufs : Nat → TxBuffer}
  {foreign rest : List TxForeignFree} {ledger : TxLedger} {id cpu : Nat} {item : TxItem}

section

variable (custody : TxCustody d pool bufs foreign ledger)
include custody

theorem lt (heldItem : (ledger id).item? = some item) : id < d.val := by
  by_contra outside
  rw [custody.outside id (Nat.le_of_not_lt outside)] at heldItem
  cases heldItem

omit custody in
theorem isHeld_of_item {status : Status TxItem Nat} (heldItem : status.item? = some item) :
    status.isHeld = true := by
  cases status with
  | free => cases heldItem
  | active _ => rfl
  | parked _ _ => rfl

theorem owned (heldItem : (ledger id).item? = some item) : pool.reqAllocated id = true :=
  (custody.allocated id).trans (isHeld_of_item heldItem)

/-- A deferred entry names a parked id. -/
theorem parked_of_mem (member : id ∈ foreign.map TxForeignFree.reqId) :
    ∃ item cpu, ledger id = .parked item cpu := by
  obtain ⟨entry, inside, same⟩ := List.mem_map.mp member
  obtain ⟨item, status⟩ := (custody.parked entry.reqId entry.ownerCpu).mp inside
  exact ⟨item, entry.ownerCpu, same ▸ status⟩

theorem room (active : ledger id = .active item) : foreign.length < d.val := by
  have absent : id ∉ foreign.map TxForeignFree.reqId := by
    intro member
    obtain ⟨_, _, status⟩ := custody.parked_of_mem member
    rw [active] at status
    cases status
  have below : ∀ other ∈ id :: foreign.map TxForeignFree.reqId, other < d.val := by
    intro other member
    rcases List.mem_cons.mp member with same | member
    · exact same ▸ custody.lt (by rw [active]; rfl)
    · obtain ⟨_, _, status⟩ := custody.parked_of_mem member
      exact custody.lt (by rw [status]; rfl)
  have size := length_le_of_nodup (List.nodup_cons.mpr ⟨absent, custody.distinct⟩) below
  rw [List.length_cons, List.length_map] at size
  exact size

/-- Ids that are not parked before or after a store keep the deferred entries right. -/
theorem parked_store (status : Status TxItem Nat)
    (before : ∀ item cpu, ledger id ≠ .parked item cpu)
    (after : ∀ item cpu, status ≠ .parked item cpu) (other cpu : Nat) :
    ⟨other, cpu⟩ ∈ foreign ↔ ∃ item, store ledger id status other = .parked item cpu := by
  rw [custody.parked other cpu]
  by_cases same : other = id
  · rw [same, store_same]
    constructor
    · rintro ⟨item, equal⟩
      exact absurd equal (before item cpu)
    · rintro ⟨item, equal⟩
      exact absurd equal (after item cpu)
  · rw [store_other _ _ same]

theorem outside_store (inside : id < d.val) (status : Status TxItem Nat) (other : Nat)
    (beyond : d.val ≤ other) : store ledger id status other = .free := by
  rw [store_other _ _ (by omega)]
  exact custody.outside other beyond

/-! ## The moves of the ring -/

/-- Submission: an allocated id becomes active. -/
theorem accept (found : enaRingReqIdAlloc d pool = some (id, next)) (item : TxItem)
    (buf : TxBuffer) (holds : buf.netbuf = item.netbuf) :
    ledger id = .free ∧ id < d.val ∧
      TxCustody d { next with reqInFlight := store next.reqInFlight id true }
        (store bufs id buf) foreign (store ledger id (.active item)) := by
  obtain ⟨inside, clear, _, marks, flags, _, sound⟩ :=
    RequestPool.alloc_cases custody.sound found
  have isFree : ledger id = .free := by
    have unheld := (custody.allocated id).symm.trans clear
    cases status : ledger id with
    | free => rfl
    | active _ =>
      rw [status] at unheld
      cases unheld
    | parked _ _ =>
      rw [status] at unheld
      cases unheld
  refine ⟨isFree, inside, ?_⟩
  exact {
    sound := sound.congr_marks _
    outside := custody.outside_store inside _
    allocated := by
      change ∀ i, next.reqAllocated i = _
      rw [marks]
      exact store_agree custody.allocated id (.active item)
    inFlight := by
      change ∀ i, store next.reqInFlight id true i = _
      rw [flags]
      exact store_agree custody.inFlight id (.active item)
    netbuf := by
      intro i
      by_cases same : i = id
      · rw [same, store_same, store_same, holds]
        rfl
      · rw [store_other _ _ same, store_other _ _ same, custody.netbuf]
    distinct := custody.distinct
    parked := custody.parked_store _ (by rw [isFree]; intro _ _ equal; cases equal)
      (by intro _ _ equal; cases equal) }

/-- A completion that is handed to the owner core. -/
theorem defer (active : ledger id = .active item) (cpu : Nat) :
    TxCustody d { pool with reqInFlight := store pool.reqInFlight id false } bufs
      (foreign ++ [⟨id, cpu⟩]) (store ledger id (.parked item cpu)) where
  sound := custody.sound.congr_marks _
  outside := custody.outside_store (custody.lt (by rw [active]; rfl)) _
  allocated := by
    intro i
    by_cases same : i = id
    · rw [same, store_same]
      exact custody.owned (by rw [active]; rfl)
    · rw [store_other _ _ same]
      exact custody.allocated i
  inFlight := store_agree custody.inFlight id (.parked item cpu)
  netbuf := by
    intro i
    by_cases same : i = id
    · rw [same, store_same, custody.netbuf, active]
      rfl
    · rw [store_other _ _ same, custody.netbuf]
  distinct := by
    rw [List.map_append, List.map_singleton]
    refine List.nodup_append.mpr ⟨custody.distinct, List.nodup_singleton id, ?_⟩
    intro first member second isId same
    obtain ⟨_, _, status⟩ := custody.parked_of_mem member
    rw [same, List.mem_singleton.mp isId, active] at status
    cases status
  parked := by
    intro other keeper
    rw [List.mem_append, List.mem_singleton, custody.parked other keeper]
    by_cases same : other = id
    · rw [same, store_same, active]
      constructor
      · rintro (⟨_, impossible⟩ | entry)
        · cases impossible
        · cases entry
          exact ⟨item, rfl⟩
      · rintro ⟨_, equal⟩
        cases equal
        exact Or.inr rfl
    · rw [store_other _ _ same]
      constructor
      · rintro (found | entry)
        · exact found
        · cases entry
          exact absurd rfl same
      · exact Or.inl

theorem released (heldItem : (ledger id).item? = some item) :
    (pool.push d id).Sound d ∧
      (∀ i, (pool.push d id).reqAllocated i = (store ledger id .free i).isHeld) ∧
      (∀ i, (store bufs id .empty i).netbuf = statusNetbuf (store ledger id .free i)) := by
  refine ⟨(RequestPool.push_cases custody.sound (custody.lt heldItem)
    (custody.owned heldItem)).2, store_agree custody.allocated id .free, ?_⟩
  intro i
  by_cases same : i = id
  · rw [same, store_same, store_same]
    rfl
  · rw [store_other _ _ same, store_other _ _ same, custody.netbuf]

/-- A completion whose buffer is freed at once. -/
theorem finish (active : ledger id = .active item) :
    TxCustody d
      (RequestPool.push d { pool with reqInFlight := store pool.reqInFlight id false } id)
      (store bufs id .empty) foreign (store ledger id .free) := by
  have heldItem : (ledger id).item? = some item := by rw [active]; rfl
  obtain ⟨sound, marks, netbufs⟩ := custody.released heldItem
  exact {
    sound := sound.congr_marks _
    outside := custody.outside_store (custody.lt heldItem) _
    allocated := marks
    inFlight := store_agree custody.inFlight id .free
    netbuf := netbufs
    distinct := custody.distinct
    parked := custody.parked_store _ (by rw [active]; intro _ _ equal; cases equal)
      (by intro _ _ equal; cases equal) }

/-- The owner core frees one deferred buffer. -/
theorem drain (removed : foreign.Perm (⟨id, cpu⟩ :: rest)) :
    ∃ item, ledger id = .parked item cpu ∧
      TxCustody d (pool.push d id) (store bufs id .empty) rest (store ledger id .free) := by
  obtain ⟨item, status⟩ := (custody.parked id cpu).mp (removed.mem_iff.mpr List.mem_cons_self)
  have heldItem : (ledger id).item? = some item := by rw [status]; rfl
  obtain ⟨sound, marks, netbufs⟩ := custody.released heldItem
  have distinct := (removed.map TxForeignFree.reqId).nodup_iff.mp custody.distinct
  rw [List.map_cons, List.nodup_cons] at distinct
  refine ⟨item, status, ?_⟩
  exact {
    sound := sound
    outside := custody.outside_store (custody.lt heldItem) _
    allocated := marks
    inFlight := by
      intro i
      by_cases same : i = id
      · rw [same, store_same]
        change pool.reqInFlight id = false
        rw [custody.inFlight, status]
        rfl
      · rw [store_other _ _ same]
        exact custody.inFlight i
    netbuf := netbufs
    distinct := distinct.2
    parked := by
      intro other keeper
      by_cases same : other = id
      · rw [same, store_same]
        constructor
        · intro member
          exact absurd (List.mem_map.mpr ⟨_, member, rfl⟩) distinct.1
        · rintro ⟨_, impossible⟩
          cases impossible
      · rw [store_other _ _ same, ← custody.parked other keeper, removed.mem_iff, List.mem_cons]
        constructor
        · exact Or.inr
        · rintro (entry | member)
          · cases entry
            exact absurd rfl same
          · exact member }

end

theorem fresh (d : Depth) : TxCustody d (.fresh d) (fun _ => .empty) [] Ledger.empty where
  sound := RequestPool.fresh_sound d
  outside := fun _ _ => rfl
  allocated := fun _ => rfl
  inFlight := fun _ => rfl
  netbuf := fun _ => rfl
  distinct := List.nodup_nil
  parked := by
    intro id cpu
    constructor
    · intro member
      cases member
    · rintro ⟨_, impossible⟩
      cases impossible

end TxCustody

/-! ## Reaping -/

/-- What a poll on `cpu` may do: free what is parked for it, or complete a request
that one of its views names, by freeing it as the owner or by parking it with
another owner. -/
def PollAllows (cpu owner : Nat) (named : Nat → Prop) (ledger : TxLedger) : TxAction → Prop
  | .accept _ _ => False
  | .park id keeper => named id ∧ keeper = owner ∧ cpu ≠ owner
  | .release id item =>
    ledger id = .parked item cpu ∨
      (named id ∧ ledger id = .active item ∧ (cpu = owner ∨ item.netbuf = none))

def PollFrame (r next : Ring) : Prop :=
  ∃ pool txBufs txForeign txForeignCount sqHead cqHead txOwnerWarned ringLock,
    next = { r with
      pool := pool, txBufs := txBufs, txForeign := txForeign, txForeignCount := txForeignCount,
      sqHead := sqHead, cqHead := cqHead, txOwnerWarned := txOwnerWarned, ringLock := ringLock }

def Acts (allowed : TxLedger → TxAction → Prop) (ledger : TxLedger) (events : List Event)
    (next : Ring) : Prop :=
  ∃ actions after, Steps allowed ledger actions after ∧ Tracks next after ∧
    freed events = yielded TxItem.netbuf actions ∧ ∀ event ∈ events, event.isNoRoom = false

/-- A change of a ring that reaps requests: on every ledger the ring agrees with
it is a sequence of allowed actions, and the consumer position moves by the
entries consumed. -/
def Reaps (cpu : Nat) (named : Nat → Prop) (r : Ring) (events : List Event) (next : Ring) : Prop :=
  ∀ ledger, Tracks r ledger → PollFrame r next ∧
    Acts (PollAllows cpu r.txOwnerCpu named) ledger events next ∧
    ∀ count, r.cqHead = Cursor.after r.cqDepth count →
      next.cqHead = Cursor.after r.cqDepth (count + consumed events)

section Relations

variable {cpu : Nat} {named : Nat → Prop} {r middle next : Ring} {first second : List Event}

theorem PollFrame.refl (r : Ring) : PollFrame r r := ⟨_, _, _, _, _, _, _, _, rfl⟩

theorem PollFrame.trans (earlier : PollFrame r middle) (later : PollFrame middle next) :
    PollFrame r next := by
  obtain ⟨_, _, _, _, _, _, _, _, rfl⟩ := earlier
  obtain ⟨_, _, _, _, _, _, _, _, rfl⟩ := later
  exact ⟨_, _, _, _, _, _, _, _, rfl⟩

theorem PollFrame.owner (frame : PollFrame r next) : next.txOwnerCpu = r.txOwnerCpu := by
  obtain ⟨_, _, _, _, _, _, _, _, rfl⟩ := frame
  rfl

theorem PollFrame.sqDepth (frame : PollFrame r next) : next.sqDepth = r.sqDepth := by
  obtain ⟨_, _, _, _, _, _, _, _, rfl⟩ := frame
  rfl

theorem PollFrame.cqDepth (frame : PollFrame r next) : next.cqDepth = r.cqDepth := by
  obtain ⟨_, _, _, _, _, _, _, _, rfl⟩ := frame
  rfl

theorem Acts.idle {allowed : TxLedger → TxAction → Prop} {ledger : TxLedger}
    (tracks : Tracks r ledger) : Acts allowed ledger [] r :=
  ⟨[], ledger, .nil ledger, tracks, rfl, fun _ member => absurd member List.not_mem_nil⟩

theorem Reaps.refl (r : Ring) : Reaps cpu named r [] r :=
  fun _ tracks => ⟨.refl r, .idle tracks, fun _ located => located⟩

theorem Reaps.trans (earlier : Reaps cpu named r first middle)
    (later : Reaps cpu named middle second next) : Reaps cpu named r (first ++ second) next := by
  intro ledger tracks
  obtain ⟨frame, ⟨before, between, steps, tracked, freedFirst, kept⟩, moved⟩ :=
    earlier ledger tracks
  obtain ⟨frameNext, ⟨after, final, more, ended, freedSecond, keptNext⟩, movedNext⟩ :=
    later between tracked
  rw [frame.owner] at more
  rw [frame.cqDepth] at movedNext
  refine ⟨frame.trans frameNext, ⟨before ++ after, final, steps.append more, ended, ?_, ?_⟩, ?_⟩
  · rw [freed_append, yielded_append, freedFirst, freedSecond]
  · exact List.forall_mem_append.mpr ⟨kept, keptNext⟩
  · intro count located
    rw [consumed_append, ← Nat.add_assoc]
    exact movedNext _ (moved count located)

end Relations

/-! ## The functions of the poll -/

theorem txReleaseBuffer_owned {r : Ring} {id : Nat} (isTx : r.ringType = .tx)
    (sound : r.pool.Sound r.sqDepth) (bound : id < r.sqDepth.val)
    (owned : r.pool.reqAllocated id = true) :
    txReleaseBuffer r id =
      ({ r with pool := r.pool.push r.sqDepth id, txBufs := store r.txBufs id .empty },
        freedBuffer id (r.txBufs id).netbuf) := by
  have room := sound.count_lt bound owned
  simp only [txReleaseBuffer, enaRingReqIdFree, enaRingSlotClear, isTx, owned, store_store,
    if_neg (Nat.not_le_of_lt bound), if_neg (Nat.not_le_of_lt room), Bool.true_eq_false, if_false]

theorem freed_freedBuffer (id : Nat) (netbuf : Option Netbuf) :
    freed (freedBuffer id netbuf) = netbuf.toList.map (id, ·) := by
  cases netbuf <;> rfl

theorem consumed_freedBuffer (id : Nat) (netbuf : Option Netbuf) :
    consumed (freedBuffer id netbuf) = 0 := by
  cases netbuf <;> rfl

theorem noRoom_freedBuffer (id : Nat) (netbuf : Option Netbuf) :
    ∀ event ∈ freedBuffer id netbuf, event.isNoRoom = false := by
  cases netbuf with
  | none => exact fun _ member => absurd member List.not_mem_nil
  | some nb =>
    exact List.forall_mem_singleton.mpr rfl

theorem Acts.release {allowed : TxLedger → TxAction → Prop} {ledger : TxLedger} {next : Ring}
    {id : Nat} {item : TxItem} (heldItem : (ledger id).item? = some item)
    (ok : allowed ledger (.release id item)) (tracked : Tracks next (store ledger id .free)) :
    Acts allowed ledger (freedBuffer id item.netbuf) next := by
  refine ⟨[.release id item], _, .single (.release heldItem) ok, tracked, ?_,
    noRoom_freedBuffer id item.netbuf⟩
  rw [freed_freedBuffer]
  exact (List.append_nil _).symm

section Poll

variable {cpu : Nat} {named : Nat → Prop} {r : Ring} {ledger : TxLedger}

/-- Freeing the buffer of a deferred entry and dropping the entry. -/
theorem dropForeign_reaps {i : Nat} (inside : i < r.txForeignCount)
    (mine : (r.txForeign i).ownerCpu = cpu) (tracks : Tracks r ledger) :
    let released := txReleaseBuffer r (r.txForeign i).reqId
    Reaps cpu named r released.2 (dropForeign released.1 i) ∧
      (dropForeign released.1 i).txForeignCount + 1 = r.txForeignCount := by
  intro released
  obtain ⟨last, counted⟩ : ∃ last, r.txForeignCount = last + 1 :=
    ⟨r.txForeignCount - 1, by omega⟩
  have removed := swapRemove_perm r.txForeign (show i ≤ last by omega)
  have entry : r.txForeign i = ⟨(r.txForeign i).reqId, cpu⟩ := by rw [← mine]
  rw [← counted, entry] at removed
  have release : ∀ ledger, Tracks r ledger → released =
      ({ r with
        pool := r.pool.push r.sqDepth (r.txForeign i).reqId
        txBufs := store r.txBufs (r.txForeign i).reqId .empty },
        freedBuffer (r.txForeign i).reqId (r.txBufs (r.txForeign i).reqId).netbuf) := by
    intro ledger tracks
    obtain ⟨item, status, _⟩ := tracks.2.drain removed
    have heldItem : (ledger (r.txForeign i).reqId).item? = some item := by rw [status]; rfl
    exact txReleaseBuffer_owned tracks.1 tracks.2.sound (tracks.2.lt heldItem)
      (tracks.2.owned heldItem)
  refine ⟨fun ledger tracks => ?_, ?_⟩
  · obtain ⟨item, status, after⟩ := tracks.2.drain removed
    have heldItem : (ledger (r.txForeign i).reqId).item? = some item := by rw [status]; rfl
    have stored : (r.txBufs (r.txForeign i).reqId).netbuf = item.netbuf := by
      rw [tracks.2.netbuf, status]
      rfl
    rw [release ledger tracks, stored, consumed_freedBuffer]
    refine ⟨⟨_, _, _, _, _, _, _, _, rfl⟩, .release heldItem (Or.inl status) ⟨tracks.1, ?_⟩,
      fun count located => located⟩
    simpa only [Ring.foreign, dropForeign, counted, Nat.add_sub_cancel] using after
  · rw [release ledger tracks]
    change r.txForeignCount - 1 + 1 = r.txForeignCount
    omega

theorem drainLoop_reaps (fuel i : Nat) (r : Ring) (tracks : Tracks r ledger)
    (enough : r.txForeignCount ≤ i + fuel) :
    ∃ next events, drainLoop cpu fuel i r = .ok (next, events) ∧
      Reaps cpu named r events next := by
  induction fuel generalizing i r ledger with
  | zero =>
    refine ⟨r, [], ?_, .refl r⟩
    rw [drainLoop, if_pos (by omega)]
  | succ fuel ih =>
    rw [drainLoop]
    split
    · exact ⟨r, [], rfl, .refl r⟩
    rename_i more
    have inside : i < r.txForeignCount := Nat.lt_of_not_le more
    split
    · exact ih (i + 1) r tracks (by omega)
    rename_i mine
    obtain ⟨step, counted⟩ : Reaps cpu named r _ _ ∧ _ :=
      dropForeign_reaps inside (Decidable.not_not.mp mine) tracks
    obtain ⟨_, ⟨_, after, _, tracked, _⟩, _⟩ := step ledger tracks
    obtain ⟨next, events, looped, reaped⟩ := ih i _ tracked (by omega)
    refine ⟨next, _, ?_, step.trans reaped⟩
    change (drainLoop cpu fuel i (dropForeign (txReleaseBuffer r _).1 i) >>= _) = _
    rw [looped]
    rfl

theorem enaTxDrainForeignFrees_reaps (cpu : Nat) (named : Nat → Prop) (r : Ring)
    (tracks : Tracks r ledger) :
    ∃ next events, enaTxDrainForeignFrees r cpu = .ok (next, events) ∧
      Reaps cpu named r events next := by
  unfold enaTxDrainForeignFrees
  split
  · exact ⟨r, [], rfl, .refl r⟩
  · exact drainLoop_reaps r.txForeignCount 0 r tracks (Nat.le_of_eq (Nat.zero_add _).symm)

def Ring.markWarned (r : Ring) (warned : Bool) : Ring := { r with txOwnerWarned := warned }

theorem enaTxReportForeignReaper_eq (r : Ring) :
    ∃ warned, enaTxReportForeignReaper r = r.markWarned warned := by
  unfold enaTxReportForeignReaper
  split
  · exact ⟨r.txOwnerWarned, rfl⟩
  · split
    · exact ⟨r.txOwnerWarned, rfl⟩
    · exact ⟨true, rfl⟩

/-- Freeing the buffer of a completed request. -/
theorem acknowledge_release (tracks : Tracks r ledger) {cdesc : TxCdesc} {item : TxItem}
    (active : ledger cdesc.reqId = .active item) (warned : Bool) :
    let released := txReleaseBuffer ((txAcknowledge r cdesc).markWarned warned) cdesc.reqId
    PollFrame r released.1 ∧ released.1.cqHead = r.cqHead ∧
      Tracks released.1 (store ledger cdesc.reqId .free) ∧
      released.2 = freedBuffer cdesc.reqId item.netbuf := by
  intro released
  obtain ⟨isTx, custody⟩ := tracks
  have heldItem : (ledger cdesc.reqId).item? = some item := by rw [active]; rfl
  have stored : (r.txBufs cdesc.reqId).netbuf = item.netbuf := by
    rw [custody.netbuf, active]
    rfl
  have release : released = _ := txReleaseBuffer_owned isTx (custody.sound.congr_marks _)
    (custody.lt heldItem) (custody.owned heldItem)
  rw [release, ← stored]
  exact ⟨⟨_, _, _, _, _, _, _, _, rfl⟩, rfl, ⟨isTx, custody.finish active⟩, rfl⟩

/-- Staging a buffer that a request in flight holds finds room. -/
theorem enaTxStageForeignFree_some (r : Ring) {nb : Netbuf} {id owner : Nat}
    (stored : (r.txBufs id).netbuf = some nb) (room : r.txForeignCount < r.sqDepth.val) :
    enaTxStageForeignFree r id owner =
      (true, { r with
        txForeign := store r.txForeign r.txForeignCount ⟨id, owner⟩
        txForeignCount := r.txForeignCount + 1 }, []) := by
  unfold enaTxStageForeignFree
  rw [stored]
  exact if_neg (Nat.not_le_of_lt room)

theorem enaTxStageForeignFree_none (r : Ring) {id owner : Nat}
    (stored : (r.txBufs id).netbuf = none) :
    enaTxStageForeignFree r id owner = (false, r, []) := by
  unfold enaTxStageForeignFree
  rw [stored]

theorem foreign_push (r : Ring) (entry : TxForeignFree) :
    (List.range (r.txForeignCount + 1)).map (store r.txForeign r.txForeignCount entry) =
      r.foreign ++ [entry] := by
  rw [List.range_succ, List.map_append, List.map_singleton, store_same, Ring.foreign]
  refine congrArg (· ++ [entry]) (List.map_congr_left fun i member => store_other _ _ ?_)
  exact Nat.ne_of_lt (List.mem_range.mp member)

/-- The disposal of a completed request, as the owner or for the owner. -/
theorem txDispose_acts (cpu : Nat) (tracks : Tracks r ledger) {cdesc : TxCdesc} {item : TxItem}
    (active : ledger cdesc.reqId = .active item) (seen : named cdesc.reqId) :
    let disposed := txDispose (txAcknowledge r cdesc) cpu cdesc.reqId
    PollFrame r disposed.1 ∧ disposed.1.cqHead = r.cqHead ∧ consumed disposed.2 = 0 ∧
      Acts (PollAllows cpu r.txOwnerCpu named) ledger disposed.2 disposed.1 := by
  intro disposed
  have heldItem : (ledger cdesc.reqId).item? = some item := by rw [active]; rfl
  have stored : (r.txBufs cdesc.reqId).netbuf = item.netbuf := by
    rw [tracks.2.netbuf, active]
    rfl
  by_cases mine : cpu = r.txOwnerCpu
  · have here : disposed = txReleaseBuffer (txAcknowledge r cdesc) cdesc.reqId :=
      if_neg (Decidable.not_not.mpr mine)
    obtain ⟨frame, head, tracked, events⟩ := acknowledge_release tracks active r.txOwnerWarned
    rw [here]
    refine ⟨frame, head, ?_, ?_⟩
    · exact events ▸ consumed_freedBuffer cdesc.reqId item.netbuf
    · exact events ▸ .release heldItem (Or.inr ⟨seen, active, Or.inl mine⟩) tracked
  · obtain ⟨warned, reported⟩ := enaTxReportForeignReaper_eq (txAcknowledge r cdesc)
    have foreign : cpu ≠ (txAcknowledge r cdesc).txOwnerCpu := mine
    have handed : disposed = txDispose (txAcknowledge r cdesc) cpu cdesc.reqId := rfl
    unfold txDispose at handed
    rw [if_pos foreign, reported] at handed
    dsimp only at handed
    cases netbuf : item.netbuf with
    | none =>
      -- nothing to hand over: the id is released on this core
      rw [enaTxStageForeignFree_none ((txAcknowledge r cdesc).markWarned warned)
        (stored.trans netbuf)] at handed
      obtain ⟨frame, head, tracked, events⟩ := acknowledge_release tracks active warned
      rw [handed]
      refine ⟨frame, head, ?_, ?_⟩
      · exact events ▸ consumed_freedBuffer cdesc.reqId item.netbuf
      · exact events ▸ .release heldItem (Or.inr ⟨seen, active, Or.inr netbuf⟩) tracked
    | some nb =>
      have room : r.txForeignCount < r.sqDepth.val := by
        have spare := tracks.2.room active
        rwa [Ring.foreign, List.length_map, List.length_range] at spare
      rw [enaTxStageForeignFree_some ((txAcknowledge r cdesc).markWarned warned)
        (stored.trans netbuf) room] at handed
      have tracked := tracks.2.defer active r.txOwnerCpu
      rw [← foreign_push] at tracked
      rw [handed]
      exact ⟨⟨_, _, _, _, _, _, _, _, rfl⟩, rfl, rfl, [.park cdesc.reqId r.txOwnerCpu], _,
        .single (.park r.txOwnerCpu active) ⟨seen, rfl, mine⟩, ⟨tracks.1, tracked⟩, rfl,
        fun _ member => absurd member List.not_mem_nil⟩

end Poll

end EnaDriver.Datapath
