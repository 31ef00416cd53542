import EnaDriver.Datapath.TransmitRuns

/-!
# The partition of transmit requests

In every run of a transmit ring the request ids are split into the free window,
the requests in flight and the deferred releases.  An id is handed out only
from the free window, a completed buffer always finds room in the deferred
array, and over any run the netbufs accepted are the netbufs freed and the
netbufs still held.
-/

namespace EnaDriver.Datapath

open Support.Laps Support.Windows
open Support.Custody Support.Runs

def Ring.foreignIds (r : Ring) : List Nat := r.foreign.map TxForeignFree.reqId

/-- The ids below the depth are the free window, the ids in flight and the
deferred ids, without overlap. -/
structure RequestPartition (r : Ring) : Prop where
  tail : r.pool.freeReqTail = (r.pool.freeReqHead + r.pool.freeReqCount) % r.sqDepth.val
  distinct : (r.pool.free r.sqDepth).Nodup
  freeIff : ∀ id, id ∈ r.pool.free r.sqDepth ↔ id < r.sqDepth.val ∧ r.pool.reqAllocated id = false
  foreignDistinct : r.foreignIds.Nodup
  inFlightBound : ∀ id, r.pool.reqInFlight id = true → id < r.sqDepth.val
  foreignBound : ∀ id ∈ r.foreignIds, id < r.sqDepth.val
  cover : ∀ id, id < r.sqDepth.val →
    id ∈ r.pool.free r.sqDepth ∨ r.pool.reqInFlight id = true ∨ id ∈ r.foreignIds
  freeNotInFlight : ∀ id ∈ r.pool.free r.sqDepth, r.pool.reqInFlight id = false
  freeNotForeign : ∀ id ∈ r.pool.free r.sqDepth, id ∉ r.foreignIds
  inFlightNotForeign : ∀ id, r.pool.reqInFlight id = true → id ∉ r.foreignIds

section Partition

variable {r : Ring} {ledger : TxLedger}

theorem Tracks.free_iff (tracks : Tracks r ledger) (id : Nat) :
    id ∈ r.pool.free r.sqDepth ↔ id < r.sqDepth.val ∧ ledger id = .free := by
  rw [tracks.2.sound.mem_iff, tracks.2.allocated]
  cases ledger id with
  | free => exact Iff.and Iff.rfl ⟨fun _ => rfl, fun _ => rfl⟩
  | active item => exact Iff.and Iff.rfl ⟨fun held => (by cases held), fun free => (by cases free)⟩
  | parked item keeper =>
    exact Iff.and Iff.rfl ⟨fun held => (by cases held), fun free => (by cases free)⟩

theorem Tracks.inFlight_iff (tracks : Tracks r ledger) (id : Nat) :
    r.pool.reqInFlight id = true ↔ ∃ item, ledger id = .active item := by
  constructor
  · intro marked
    exact tracks.active_of_inFlight (by rw [marked]; decide)
  · rintro ⟨item, active⟩
    rw [tracks.2.inFlight, active]
    rfl

theorem Tracks.foreign_iff (tracks : Tracks r ledger) (id : Nat) :
    id ∈ r.foreignIds ↔ ∃ item keeper, ledger id = .parked item keeper := by
  constructor
  · exact tracks.2.parked_of_mem
  · rintro ⟨item, keeper, parked⟩
    exact List.mem_map.mpr ⟨_, (tracks.2.parked id keeper).mpr ⟨item, parked⟩, rfl⟩

theorem Tracks.partition (tracks : Tracks r ledger) : RequestPartition r where
  tail := tracks.2.sound.tail_eq
  distinct := tracks.2.sound.nodup
  freeIff := tracks.2.sound.mem_iff
  foreignDistinct := tracks.2.distinct
  inFlightBound := by
    intro id marked
    obtain ⟨item, active⟩ := (tracks.inFlight_iff id).mp marked
    exact tracks.2.lt (by rw [active]; rfl)
  foreignBound := by
    intro id member
    obtain ⟨item, keeper, parked⟩ := (tracks.foreign_iff id).mp member
    exact tracks.2.lt (by rw [parked]; rfl)
  cover := by
    intro id bound
    rw [tracks.free_iff, tracks.inFlight_iff, tracks.foreign_iff]
    cases ledger id with
    | free => exact Or.inl ⟨bound, rfl⟩
    | active item => exact Or.inr (Or.inl ⟨item, rfl⟩)
    | parked item keeper => exact Or.inr (Or.inr ⟨item, keeper, rfl⟩)
  freeNotInFlight := by
    intro id member
    rw [tracks.2.inFlight, ((tracks.free_iff id).mp member).2]
    rfl
  freeNotForeign := by
    intro id member deferred
    obtain ⟨item, keeper, parked⟩ := (tracks.foreign_iff id).mp deferred
    rw [((tracks.free_iff id).mp member).2] at parked
    cases parked
  inFlightNotForeign := by
    intro id marked deferred
    obtain ⟨item, active⟩ := (tracks.inFlight_iff id).mp marked
    obtain ⟨other, keeper, parked⟩ := (tracks.foreign_iff id).mp deferred
    rw [active] at parked
    cases parked

end Partition

/-! ## Where a release comes from -/

/-- How an operation may come to free the netbuf of a request: by a completion
that names the request in flight, by draining a release deferred to this CPU,
or by a reset. -/
def FreedFrom (p : TxPort) (id : Nat) : TxOp → Prop
  | .poll cpu budget changing settled =>
    (p.ring.pool.reqInFlight id = true ∧
        NamedIn p cpu budget (pollViews p.ring changing settled) id) ∨
      ⟨id, cpu⟩ ∈ p.ring.foreign
  | .reset _ => True
  | _ => False

/-- The status of an id during a poll: untouched, released, or parked with
another owner by this poll. -/
def DuringPoll (cpu owner : Nat) (start current : TxLedger) : Prop :=
  ∀ id, current id = start id ∨ current id = .free ∨
    (∃ item, current id = .parked item owner ∧ cpu ≠ owner)

variable {actions : List TxAction} {cpu id owner : Nat} {op : TxOp} {start : TxLedger}
  {world : TxWorld} {ledger : TxLedger}

theorem DuringPoll.store {before : TxLedger} (during : DuringPoll cpu owner start before)
    (id : Nat) {status : Status TxItem Nat}
    (here : status = .free ∨ ∃ item, status = .parked item owner ∧ cpu ≠ owner) :
    DuringPoll cpu owner start (store before id status) := by
  intro other
  by_cases same : other = id
  · rw [same, store_same]
    exact Or.inr here
  · rw [store_other _ _ same]
    exact during other

theorem duringPoll_step {named : Nat → Prop} {before after : TxLedger} {action : TxAction}
    (step : Step before action after) (ok : PollAllows cpu owner named before action)
    (during : DuringPoll cpu owner start before) :
    (∀ id item, action = .release id item →
        start id = .parked item cpu ∨ (named id ∧ start id = .active item)) ∧
      DuringPoll cpu owner start after := by
  cases step with
  | accept item isFree => exact ok.elim
  | @park place item keeper held =>
    obtain ⟨_, isOwner, other⟩ := ok
    refine ⟨fun id item same => (by cases same), during.store place (Or.inr ⟨item, ?_, other⟩)⟩
    rw [isOwner]
  | @release place found heldItem =>
    refine ⟨fun id item same => ?_, during.store place (Or.inl rfl)⟩
    cases same
    rcases ok with parked | ⟨seen, active, _⟩
    · rcases during place with untouched | gone | ⟨item, moved, other⟩
      · exact Or.inl (untouched.symm.trans parked)
      · rw [gone] at parked
        cases parked
      · rw [moved] at parked
        cases parked
        exact absurd rfl other
    · rcases during place with untouched | gone | ⟨item, moved, other⟩
      · exact Or.inr ⟨seen, untouched.symm.trans active⟩
      · rw [gone] at active
        cases active
      · rw [moved] at active
        cases active

theorem poll_release_origin {named : Nat → Prop} {final : TxLedger}
    (steps : Steps (PollAllows cpu owner named) start actions final) {item : TxItem}
    (member : Action.release id item ∈ actions) :
    start id = .parked item cpu ∨ (named id ∧ start id = .active item) :=
  (steps.invariant (DuringPoll cpu owner start) _ duringPoll_step
    (fun _ => Or.inl rfl)).1 _ member id item rfl

/-- A netbuf that an operation frees was in the slot of its request, and the
operation had a reason to free it. -/
theorem TxEffect.release_origin {p : TxPort} {next : Ring} {entries : List TxLog}
    (tracks : Tracks p.ring ledger) (effect : TxEffect p op ledger next entries) {nb : Netbuf}
    (member : (id, nb) ∈ releases entries) :
    (p.ring.txBufs id).netbuf = some nb ∧ FreedFrom p id op := by
  obtain ⟨actions, after, steps, _, _, released⟩ := effect.acts
  rw [released] at member
  obtain ⟨item, inside, netbuf⟩ := mem_yielded member
  have stored : (ledger id).item? = some item → (p.ring.txBufs id).netbuf = some nb := by
    intro heldItem
    rw [tracks.2.netbuf, statusNetbuf, heldItem]
    exact netbuf
  cases op with
  | poll cpu budget changing settled =>
    rcases poll_release_origin steps inside with parked | ⟨named, active⟩
    · refine ⟨stored (by rw [parked]; rfl), Or.inr ?_⟩
      exact (tracks.2.parked id cpu).mpr ⟨item, parked⟩
    · refine ⟨stored (by rw [active]; rfl), Or.inl ⟨?_, named⟩⟩
      exact (tracks.inFlight_iff id).mpr ⟨item, active⟩
  | reset cpu => exact ⟨stored (steps.release_origin.1 id item inside), trivial⟩
  | submit cpu pkt =>
    obtain ⟨_, impossible, _⟩ := (steps.invariant (fun _ => True)
      (fun action => ∃ id, action = .accept id ⟨pkt.netbuf, cpu⟩ ∧ id < p.ring.sqDepth.val)
      (fun _ ok _ => ⟨ok, trivial⟩) trivial).1 _ inside
    cases impossible
  | llqPush cpu pkt hdrData hdrLen =>
    obtain ⟨_, impossible, _⟩ := (steps.invariant (fun _ => True)
      (fun action => ∃ id, action = .accept id ⟨pkt.netbuf, cpu⟩ ∧ id < p.ring.sqDepth.val)
      (fun _ ok _ => ⟨ok, trivial⟩) trivial).1 _ inside
    cases impossible
  | createHw cpu dev answers vector =>
    exact ((steps.invariant (fun _ => True) (fun _ => False)
      (fun _ ok _ => ok.elim) trivial).1 _ inside).elim
  | destroyHw cpu answers =>
    exact ((steps.invariant (fun _ => True) (fun _ => False)
      (fun _ ok _ => ok.elim) trivial).1 _ inside).elim

/-! ## Runs -/

/-- The history behind a state of the system: a ledger that the ring agrees
with, and the actions that led to it. -/
structure TxHistory (d cq : Depth) (world : TxWorld) (actions : List TxAction)
    (ledger : TxLedger) : Prop where
  steps : Steps (fun _ _ => True) Ledger.empty actions ledger
  tracks : Tracks world.port.ring ledger
  sqDepth : world.port.ring.sqDepth = d
  cqDepth : world.port.ring.cqDepth = cq
  bounded : ∀ action ∈ actions, action.id < d.val
  accepted : acceptances world.log = entered actions
  freed : releases world.log = yielded TxItem.netbuf actions
  kept : ∀ entry ∈ world.log, entry.isNoRoom = false
  unlocked : world.port.ring.ringLock = false
  located : ∃ count, world.port.ring.cqHead = Cursor.after cq count

/-- An item enters only under an id below the depth. -/
theorem OpAllows.accept_lt {p : TxPort} {item : TxItem}
    (ok : OpAllows p op ledger (.accept id item)) : id < p.ring.sqDepth.val := by
  cases op with
  | submit cpu pkt =>
    obtain ⟨_, same, bound⟩ := ok
    cases same
    exact bound
  | llqPush cpu pkt hdrData hdrLen =>
    obtain ⟨_, same, bound⟩ := ok
    cases same
    exact bound
  | poll cpu budget changing settled => exact ok.elim
  | reset cpu =>
    obtain ⟨_, _, impossible⟩ := ok
    cases impossible
  | createHw cpu dev answers vector => exact ok.elim
  | destroyHw cpu answers => exact ok.elim

theorem acceptances_append (first second : List TxLog) :
    acceptances (first ++ second) = acceptances first ++ acceptances second :=
  List.filterMap_append

theorem releases_append (first second : List TxLog) :
    releases (first ++ second) = releases first ++ releases second :=
  List.flatMap_append

theorem txHistory_start {qid : Nat} {sqDepth cqDepth : UInt16} {memory : Nat → Option Nat}
    {ring : Ring} (built : enaRingAlloc qid .tx sqDepth cqDepth memory = .ok ring)
    (queue : Option TxQueue) :
    TxHistory ring.sqDepth ring.cqDepth ⟨⟨ring, queue⟩, []⟩ [] Ledger.empty := by
  obtain ⟨_, _, _, _, _, fresh⟩ := enaRingAlloc_ok built
  exact {
    steps := .nil _
    tracks := by
      rw [fresh]
      exact ⟨rfl, TxCustody.fresh ring.sqDepth⟩
    sqDepth := rfl
    cqDepth := rfl
    bounded := fun _ member => absurd member List.not_mem_nil
    accepted := rfl
    freed := rfl
    kept := fun _ member => absurd member List.not_mem_nil
    unlocked := by
      rw [fresh]
      rfl
    located := ⟨0, by
      rw [Cursor.after_zero, fresh]
      rfl⟩ }

/-- What an operation adds to the history: its log entries are the record of
ledger actions that the operation may take. -/
structure TxExtends (world : TxWorld) (op : TxOp) (ledger : TxLedger) (entries : List TxLog)
    (more : List TxAction) (after : TxLedger) : Prop where
  steps : Steps (OpAllows world.port op) ledger more after
  accepted : acceptances entries = entered more
  freed : releases entries = yielded TxItem.netbuf more

theorem txHistory_step {d cq : Depth} (history : TxHistory d cq world actions ledger) (op : TxOp) :
    ∃ next entries more after, txApply world.port op = .ok (next, entries) ∧
      txStep world op = .ok ⟨next, world.log ++ entries⟩ ∧
      TxEffect world.port op ledger next.ring entries ∧
      TxExtends world op ledger entries more after ∧
      TxHistory d cq ⟨next, world.log ++ entries⟩ (actions ++ more) after := by
  obtain ⟨count, located⟩ := history.located
  obtain ⟨next, entries, ran, effect⟩ :=
    txApply_effect history.tracks history.unlocked (history.cqDepth ▸ located) op
  obtain ⟨more, after, steps, tracked, accepted, freed⟩ := effect.acts
  refine ⟨next, entries, more, after, ran, ?_, effect, ⟨steps, accepted, freed⟩, ?_⟩
  · rw [txStep, ran]
    rfl
  exact {
    steps := history.steps.append (steps.mono fun _ _ _ => trivial)
    tracks := tracked
    sqDepth := effect.sqDepth.trans history.sqDepth
    cqDepth := effect.cqDepth.trans history.cqDepth
    bounded := List.forall_mem_append.mpr ⟨history.bounded,
      history.sqDepth ▸ steps.bounded (fun _ _ _ ok => ok.accept_lt) history.tracks.2.outside⟩
    accepted := by
      rw [acceptances_append, entered_append, history.accepted, accepted]
    freed := by
      rw [releases_append, yielded_append, history.freed, freed]
    kept := List.forall_mem_append.mpr ⟨history.kept, effect.kept⟩
    unlocked := effect.unlocked
    located := by
      have moved := effect.done count (history.cqDepth ▸ located)
      rw [history.cqDepth] at moved
      exact ⟨_, moved⟩ }

/-- In any history the netbufs freed and held are the netbufs accepted. -/
theorem TxHistory.balance {d cq : Depth} (history : TxHistory d cq world actions ledger)
    (addr : Nat) :
    freedCount addr world.log + heldCount addr world.port.ring = acceptedCount addr world.log := by
  have balance := history.steps.balance history.bounded (TxItem.isAt addr)
  rw [held_empty, Nat.add_zero] at balance
  rw [freedCount, acceptedCount, history.freed, history.accepted, yielded_count TxItem.netbuf (fun nb => nb.addr == addr),
    entered_count,
    heldCount_eq history.tracks, history.sqDepth]
  exact balance.symm

/-! ## The discipline of the callers -/

/-- A caller offers a netbuf only when every earlier acceptance of it has been
followed by its release. -/
def NeverResubmits (world : TxWorld) (op : TxOp) : Prop :=
  ∀ nb, op.netbuf = some nb →
    freedCount nb.addr world.log = acceptedCount nb.addr world.log

/-- Under the discipline at most one acceptance of a netbuf is open. -/
theorem resubmit_step {entries : List TxLog}
    (took : acceptances entries = [] ∨ ∃ id, acceptances entries = [(id, ⟨op.netbuf, op.cpu⟩)])
    (offered : NeverResubmits world op) (addr : Nat)
    (before : acceptedCount addr world.log ≤ freedCount addr world.log + 1) :
    acceptedCount addr (world.log ++ entries) ≤ freedCount addr (world.log ++ entries) + 1 := by
  have grows : freedCount addr world.log ≤ freedCount addr (world.log ++ entries) := by
    rw [freedCount, freedCount, releases_append, List.countP_append]
    exact Nat.le_add_right _ _
  rw [acceptedCount, acceptances_append, List.countP_append]
  change acceptedCount addr world.log + _ ≤ _
  rcases took with none | ⟨id, one⟩
  · rw [none, List.countP_nil]
    omega
  rw [one, List.countP_singleton]
  split
  · rename_i here
    change op.netbuf.any (fun nb => nb.addr == addr) = true at here
    cases netbuf : op.netbuf with
    | none =>
      rw [netbuf] at here
      cases here
    | some nb =>
      rw [netbuf] at here
      have same : nb.addr = addr := beq_iff_eq.mp here
      have closed := offered nb netbuf
      rw [same] at closed
      omega
  · omega

/-! ## Main result -/

/-- In every run of an allocated transmit ring: no operation fails to return;
the request ids are partitioned; no buffer is lost for lack of room to defer;
the netbufs freed and held are the netbufs accepted; and under the discipline of
the callers each acceptance is followed by at most one release before the next.
The next operation, whatever it is, hands out only a free id, and frees only a
netbuf in the slot of a request that it completes, drains or resets. -/
theorem tx_requests_partitioned {qid : Nat} {sqDepth cqDepth : UInt16}
    {memory : Nat → Option Nat} {ring : Ring}
    (built : enaRingAlloc qid .tx sqDepth cqDepth memory = .ok ring) (queue : Option TxQueue)
    (ops : List TxOp) :
    ∃ world, run txStep ⟨⟨ring, queue⟩, []⟩ ops = .ok world ∧
      RequestPartition world.port.ring ∧
      (∀ entry ∈ world.log, entry.isNoRoom = false) ∧
      (∀ addr, freedCount addr world.log + heldCount addr world.port.ring =
        acceptedCount addr world.log) ∧
      (Meets txStep NeverResubmits ⟨⟨ring, queue⟩, []⟩ ops →
        ∀ addr, acceptedCount addr world.log ≤ freedCount addr world.log + 1) ∧
      ∀ op, ∃ next entries, txApply world.port op = .ok (next, entries) ∧
        (∀ id item, (id, item) ∈ acceptances entries →
          id ∈ world.port.ring.pool.free world.port.ring.sqDepth) ∧
        ∀ id nb, (id, nb) ∈ releases entries →
          (world.port.ring.txBufs id).netbuf = some nb ∧ FreedFrom world.port id op := by
  let Reached (world : TxWorld) : Prop :=
    ∃ actions ledger, TxHistory ring.sqDepth ring.cqDepth world actions ledger
  have start : Reached ⟨⟨ring, queue⟩, []⟩ := ⟨[], Ledger.empty, txHistory_start built queue⟩
  obtain ⟨world, ran, actions, ledger, history⟩ := run_invariant (fun _ _ => True) Reached
    (fun world op ⟨actions, ledger, history⟩ _ => by
      obtain ⟨next, entries, more, after, _, stepped, _, _, extended⟩ :=
        txHistory_step history op
      exact ⟨_, stepped, _, _, extended⟩)
    start (meets_of_forall (fun _ _ => trivial) _ ops)
  refine ⟨world, ran, history.tracks.partition, history.kept, history.balance, ?_, ?_⟩
  · intro disciplined
    obtain ⟨same, again, _, bounded⟩ := run_invariant NeverResubmits
      (fun world => Reached world ∧
        ∀ addr, acceptedCount addr world.log ≤ freedCount addr world.log + 1)
      (fun world op ⟨⟨actions, ledger, history⟩, bounded⟩ offered => by
        obtain ⟨next, entries, more, after, _, stepped, effect, _, extended⟩ :=
          txHistory_step history op
        have took : acceptances entries = [] ∨
            ∃ id, acceptances entries = [(id, ⟨op.netbuf, op.cpu⟩)] :=
          effect.took.imp_right fun ⟨id, one, _⟩ => ⟨id, one⟩
        exact ⟨_, stepped, ⟨_, _, extended⟩,
          fun addr => resubmit_step took offered addr (bounded addr)⟩)
      ⟨start, fun _ => Nat.zero_le _⟩ disciplined
    cases ran.symm.trans again
    exact bounded
  · intro op
    obtain ⟨next, entries, more, after, applied, _, effect, _⟩ := txHistory_step history op
    refine ⟨next, entries, applied, ?_, fun id nb => effect.release_origin history.tracks⟩
    intro id item member
    rcases effect.took with none | ⟨given, one, free, bound⟩
    · rw [none] at member
      cases member
    · rw [one] at member
      cases List.mem_singleton.mp member
      exact (history.tracks.free_iff id).mpr ⟨bound, free⟩

/-- The statement at a ring of the least depth that sends one packet and reaps it
on another CPU. -/
theorem tx_requests_partitioned_small :
    ∃ world, run txStep ⟨⟨smallTxRing, none⟩, []⟩
        [.submit 0 (smallPkt 7), .poll 1 0 [] (oneCompletion 0)] = .ok world ∧
      RequestPartition world.port.ring := by
  obtain ⟨world, ran, partition, _⟩ := tx_requests_partitioned smallTxRing_built none
    [.submit 0 (smallPkt 7), .poll 1 0 [] (oneCompletion 0)]
  exact ⟨world, ran, partition⟩

end EnaDriver.Datapath
