import EnaDriver.Datapath.TransmitPartition

/-!
# Releases on the submitting core

A netbuf belongs to the heap of the core that submitted it.  The ring keeps one
owner, the core of the last submission, and a completion is freed or deferred by
comparing with that owner alone.  Releases stay on the submitting core in every
run whose polls find the owner to be the submitter of each request they
complete, and not in general.
-/

namespace EnaDriver.Datapath

open Support.Laps Support.Windows
open Support.Custody Support.Runs

def submitterOf (log : List TxLog) (id : Nat) : Option Nat :=
  (lastUnder (acceptances log) id).map TxItem.cpu

def FreedByOwner (past : List TxLog) : TxLog → Prop
  | .accepted _ _ _ => True
  | .effect cpu event => ∀ id nb, (id, nb) ∈ event.frees → submitterOf past id = some cpu

def ReleasedBySubmitter (log : List TxLog) : Prop := Throughout FreedByOwner log

/-- At a poll, the owner of the ring is the submitter of every request in flight
whose completion the poll consumes. -/
def OwnerKnown (world : TxWorld) : TxOp → Prop
  | .poll cpu budget changing settled =>
    ∀ id, world.port.ring.pool.reqInFlight id = true →
      NamedIn world.port cpu budget (pollViews world.port.ring changing settled) id →
      submitterOf world.log id = some world.port.ring.txOwnerCpu
  | _ => True

/-! ## Submitters in a growing log -/

variable {log entries : List TxLog}

theorem submitterOf_append_of_nil (none : acceptances entries = []) (id : Nat) :
    submitterOf (log ++ entries) id = submitterOf log id := by
  rw [submitterOf, acceptances_append, none, List.append_nil]
  rfl

/-- New entries keep the property when what they free was submitted on their CPU. -/
theorem ReleasedBySubmitter.append (before : ReleasedBySubmitter log)
    (none : acceptances entries = [])
    (here : ∀ cpu event, .effect cpu event ∈ entries → ∀ id nb, (id, nb) ∈ event.frees →
      submitterOf log id = some cpu) :
    ReleasedBySubmitter (log ++ entries) := by
  apply Throughout.append before
  intro i entry found
  cases entry with
  | accepted cpu reqId netbuf => trivial
  | effect cpu event =>
    intro id nb frees
    have taken : acceptances (entries.take i) = [] := by
      rw [← List.take_append_drop i entries, acceptances_append] at none
      exact (List.append_eq_nil_iff.mp none).1
    rw [submitterOf_append_of_nil taken]
    exact here cpu event (List.mem_of_getElem? found) id nb frees

/-- Entries that free nothing keep the property. -/
theorem ReleasedBySubmitter.append_quiet (before : ReleasedBySubmitter log)
    (none : releases entries = []) : ReleasedBySubmitter (log ++ entries) := by
  apply Throughout.append before
  intro i entry found
  cases entry with
  | accepted cpu reqId netbuf => trivial
  | effect cpu event =>
    intro id nb frees
    have nothing := List.flatMap_eq_nil_iff.mp none _ (List.mem_of_getElem? found)
    rw [show event.frees = [] from nothing] at frees
    cases frees

/-! ## The invariant -/

/-- What an id holds is what was last accepted under it, and a parked item is
parked with its submitter. -/
structure OwnedLedger (log : List TxLog) (ledger : TxLedger) : Prop where
  last : ∀ id item, (ledger id).item? = some item → lastUnder (acceptances log) id = some item
  keeper : ∀ id item keeper, ledger id = .parked item keeper → item.cpu = keeper

theorem OwnedLedger.submitter {log : List TxLog} {ledger : TxLedger}
    (owned : OwnedLedger log ledger) {id : Nat} {item : TxItem}
    (held : (ledger id).item? = some item) : submitterOf log id = some item.cpu := by
  rw [submitterOf, owned.last id item held]
  rfl

structure OwnedPoll (cpu owner : Nat) (named : Nat → Prop) (start current : TxLedger) : Prop where
  origin : ∀ id item, (current id).item? = some item → (start id).item? = some item
  keeper : ∀ id item keeper, current id = .parked item keeper → item.cpu = keeper
  active : ∀ id item, current id = .active item → named id → item.cpu = owner

theorem ownedPoll_step {cpu owner : Nat} {named : Nat → Prop} {start before after : TxLedger}
    {action : TxAction} (step : Step before action after)
    (ok : PollAllows cpu owner named before action)
    (owned : OwnedPoll cpu owner named start before) :
    (∀ id item nb, action = .release id item → item.netbuf = some nb →
        item.cpu = cpu ∧ (start id).item? = some item) ∧
      OwnedPoll cpu owner named start after := by
  cases step with
  | accept item isFree => exact ok.elim
  | @park place item keeper held =>
    obtain ⟨seen, isOwner, _⟩ := ok
    refine ⟨fun id item nb same => (by cases same), ?_⟩
    have mine := owned.active place item held seen
    constructor
    · intro id other heldItem
      by_cases same : id = place
      · rw [same, store_same] at heldItem
        cases heldItem
        rw [same]
        exact owned.origin place item (by rw [held]; rfl)
      · rw [store_other _ _ same] at heldItem
        exact owned.origin id other heldItem
    · intro id other kept status
      by_cases same : id = place
      · rw [same, store_same] at status
        cases status
        exact mine.trans isOwner.symm
      · rw [store_other _ _ same] at status
        exact owned.keeper id other kept status
    · intro id other status
      exact owned.active id other (of_store status nofun).2
  | @release place item heldItem =>
    refine ⟨fun id found nb same netbuf => ?_, ?_⟩
    · cases same
      refine ⟨?_, owned.origin place item heldItem⟩
      rcases ok with parked | ⟨seen, active, mine | nothing⟩
      · exact owned.keeper place item cpu parked
      · exact (owned.active place item active seen).trans mine.symm
      · rw [nothing] at netbuf
        cases netbuf
    · have kept : ∀ id status, store before place .free id = status → status ≠ .free →
          before id = status := fun id status here notFree => (of_store here notFree.symm).2
      constructor
      · intro id other heldItem
        refine owned.origin id other ?_
        rwa [kept id _ rfl (by intro free; rw [free] at heldItem; cases heldItem)]
      · intro id other keeper status
        exact owned.keeper id other keeper (kept id _ status (by intro free; cases free))
      · intro id other status
        exact owned.active id other (kept id _ status (by intro free; cases free))

/-- A whole poll: it releases only what this CPU submitted, every item it leaves
was there before, and a parked item is still parked with its submitter. -/
theorem ownedPoll_run {cpu owner : Nat} {named : Nat → Prop} {start final : TxLedger}
    {actions : List TxAction} (steps : Steps (PollAllows cpu owner named) start actions final)
    (keeper : ∀ id item keeper, start id = .parked item keeper → item.cpu = keeper)
    (active : ∀ id item, start id = .active item → named id → item.cpu = owner) :
    (∀ id item nb, Action.release id item ∈ actions → item.netbuf = some nb →
        item.cpu = cpu ∧ (start id).item? = some item) ∧
      OwnedPoll cpu owner named start final := by
  obtain ⟨each, last⟩ := steps.invariant (OwnedPoll cpu owner named start) _ ownedPoll_step
    ⟨fun _ _ held => held, keeper, active⟩
  exact ⟨fun id item nb member => each _ member id item nb rfl, last⟩

theorem txApply_poll_entries {p next : TxPort} {cpu budget : Nat} {changing : List TxMem}
    {settled : TxMem} {entries : List TxLog}
    (applied : txApply p (.poll cpu budget changing settled) = .ok (next, entries)) :
    ∃ events : List Event, entries = events.map (.effect cpu) := by
  rw [txApply] at applied
  cases polled : enaTxPollCompletions p cpu budget (pollViews p.ring changing settled) with
  | error fault =>
    rw [polled] at applied
    cases applied
  | ok result =>
    rw [polled] at applied
    cases applied
    exact ⟨result.2.2, rfl⟩

section Step

variable {world : TxWorld} {ledger after : TxLedger} {entries : List TxLog}
  {actions : List TxAction}

/-- The items of the ledger are the last ones accepted, after any operation. -/
theorem OwnedLedger.last_extends {op : TxOp} (owned : OwnedLedger world.log ledger)
    (grown : TxExtends world op ledger entries actions after) :
    ∀ id item, (after id).item? = some item →
      lastUnder (acceptances (world.log ++ entries)) id = some item := by
  rw [acceptances_append, grown.accepted]
  exact grown.steps.held_last _ owned.last

theorem ownedLedger_accept {op : TxOp} (owned : OwnedLedger world.log ledger)
    (grown : TxExtends world op ledger entries actions after)
    (only : ∀ current action, OpAllows world.port op current action →
      ∃ id item, action = .accept id item) :
    OwnedLedger (world.log ++ entries) after := by
  refine ⟨owned.last_extends grown, ?_⟩
  refine (grown.steps.invariant
    (fun current => ∀ id item keeper, current id = .parked item keeper → item.cpu = keeper)
    (fun _ => True) (fun {before action next} step ok kept => ⟨trivial, ?_⟩) owned.keeper).2
  obtain ⟨given, item, rfl⟩ := only _ _ ok
  cases step with
  | accept item isFree =>
    intro id other keeper status
    exact kept id other keeper (of_store status nofun).2

/-- A poll whose completions find their submitter in the owner field. -/
theorem ownedLedger_poll {cpu budget : Nat} {changing : List TxMem} {settled : TxMem}
    {next : TxPort} (owned : OwnedLedger world.log ledger) (tracks : Tracks world.port.ring ledger)
    (applied : txApply world.port (.poll cpu budget changing settled) = .ok (next, entries))
    (grown : TxExtends world (.poll cpu budget changing settled) ledger entries actions after)
    (known : OwnerKnown world (.poll cpu budget changing settled))
    (released : ReleasedBySubmitter world.log) :
    OwnedLedger (world.log ++ entries) after ∧ ReleasedBySubmitter (world.log ++ entries) := by
  obtain ⟨steps, accepted, freed⟩ := grown
  obtain ⟨events, shape⟩ := txApply_poll_entries applied
  have none : acceptances entries = [] := by
    rw [shape]
    exact acceptances_map_effect cpu events
  have active : ∀ id item, ledger id = .active item →
      NamedIn world.port cpu budget (pollViews world.port.ring changing settled) id →
      item.cpu = world.port.ring.txOwnerCpu := by
    intro id item status named
    have inFlight := (tracks.inFlight_iff id).mpr ⟨item, status⟩
    have submitted := owned.submitter (show (ledger id).item? = some item by rw [status]; rfl)
    exact Option.some.inj (submitted.symm.trans (known id inFlight named))
  obtain ⟨mine, last⟩ := ownedPoll_run steps owned.keeper active
  constructor
  · exact ⟨owned.last_extends ⟨steps, accepted, freed⟩, last.keeper⟩
  apply released.append none
  intro other event member id nb frees
  have listed : (id, nb) ∈ yielded TxItem.netbuf actions := by
    rw [← freed]
    exact List.mem_flatMap.mpr ⟨_, member, frees⟩
  obtain ⟨item, inside, netbuf⟩ := mem_yielded listed
  obtain ⟨isMine, held⟩ := mine id item nb inside netbuf
  rw [shape] at member
  obtain ⟨_, _, same⟩ := List.mem_map.mp member
  cases same
  rw [← isMine]
  exact owned.submitter held

end Step

structure OwnedHistory (d cq : Depth) (world : TxWorld) : Prop where
  tracked : ∃ actions ledger, TxHistory d cq world actions ledger ∧ OwnedLedger world.log ledger
  released : ReleasedBySubmitter world.log

theorem ownedHistory_step {d cq : Depth} {world : TxWorld} {op : TxOp}
    (owned : OwnedHistory d cq world) (normal : op.isReset = false) (known : OwnerKnown world op) :
    ∃ next, txStep world op = .ok next ∧ OwnedHistory d cq next := by
  obtain ⟨actions, ledger, history, ledgerOwned⟩ := owned.tracked
  obtain ⟨next, entries, more, after, applied, stepped, effect, grown, extended⟩ :=
    txHistory_step history op
  have quiet : (∀ id, ¬ FreedFrom world.port id op) → releases entries = [] := by
    intro never
    apply List.eq_nil_iff_forall_not_mem.mpr
    rintro ⟨id, nb⟩ member
    exact never id (effect.release_origin history.tracks member).2
  refine ⟨_, stepped, ?_⟩
  cases op with
  | submit cpu pkt =>
    constructor
    · exact ⟨_, _, extended, ownedLedger_accept ledgerOwned grown
        fun _ _ ⟨id, same, _⟩ => ⟨id, _, same⟩⟩
    · exact owned.released.append_quiet (quiet fun _ origin => origin)
  | llqPush cpu pkt hdrData hdrLen =>
    constructor
    · exact ⟨_, _, extended, ownedLedger_accept ledgerOwned grown
        fun _ _ ⟨id, same, _⟩ => ⟨id, _, same⟩⟩
    · exact owned.released.append_quiet (quiet fun _ origin => origin)
  | poll cpu budget changing settled =>
    obtain ⟨stillOwned, released⟩ :=
      ownedLedger_poll ledgerOwned history.tracks applied grown known owned.released
    exact ⟨⟨_, _, extended, stillOwned⟩, released⟩
  | reset cpu => cases normal
  | createHw cpu dev answers vector =>
    constructor
    · exact ⟨_, _, extended, ownedLedger_accept ledgerOwned grown
        fun _ _ never => never.elim⟩
    · exact owned.released.append_quiet (quiet fun _ origin => origin)
  | destroyHw cpu answers =>
    constructor
    · exact ⟨_, _, extended, ownedLedger_accept ledgerOwned grown
        fun _ _ never => never.elim⟩
    · exact owned.released.append_quiet (quiet fun _ origin => origin)

/-! ## Main result -/

/-- In every run without a reset whose polls find the owner of the ring to be the
submitter of the requests they complete, every operation returns and every
release runs on the CPU that submitted the netbuf. -/
theorem tx_released_by_submitter {qid : Nat} {sqDepth cqDepth : UInt16}
    {memory : Nat → Option Nat} {ring : Ring}
    (built : enaRingAlloc qid .tx sqDepth cqDepth memory = .ok ring) (queue : Option TxQueue)
    (ops : List TxOp)
    (known : Meets txStep (fun world op => op.isReset = false ∧ OwnerKnown world op)
      ⟨⟨ring, queue⟩, []⟩ ops) :
    ∃ world, run txStep ⟨⟨ring, queue⟩, []⟩ ops = .ok world ∧ ReleasedBySubmitter world.log := by
  have start : OwnedHistory ring.sqDepth ring.cqDepth ⟨⟨ring, queue⟩, []⟩ := by
    constructor
    · refine ⟨[], Ledger.empty, txHistory_start built queue, ?_, ?_⟩
      · intro id item held
        cases held
      · intro id item keeper status
        cases status
    · exact Throughout.nil
  obtain ⟨world, ran, owned⟩ := run_invariant _ (OwnedHistory ring.sqDepth ring.cqDepth)
    (fun world op owned ok => ownedHistory_step owned ok.1 ok.2) start known
  exact ⟨world, ran, owned.released⟩

/-- A packet of CPU 0, completed by a poll on CPU 1 and freed by the next poll on
CPU 0. -/
theorem tx_released_by_submitter_deferred :
    ∃ world, run txStep ⟨⟨smallTxRing, none⟩, []⟩
        [.submit 0 (smallPkt 7), .poll 1 0 [] (oneCompletion 0), .poll 0 0 [] (oneCompletion 0)] =
          .ok world ∧ ReleasedBySubmitter world.log := by
  apply tx_released_by_submitter smallTxRing_built none
  apply meets_cons ⟨rfl, trivial⟩ rfl
  refine meets_cons ⟨rfl, ?_⟩ rfl (meets_cons ⟨rfl, ?_⟩ rfl trivial)
  · intro id inFlight _
    cases id with
    | zero => rfl
    | succ n => cases inFlight
  · intro id inFlight _
    cases id with
    | zero => cases inFlight
    | succ n => cases inFlight

/-- CPU 0 submits, then CPU 1 submits and becomes the owner of the ring.  When the
device completes the first packet, a poll on CPU 1 frees the netbuf of CPU 0. -/
theorem tx_released_on_foreign_core :
    ∃ world, run txStep ⟨⟨smallTxRing, none⟩, []⟩
        [.submit 0 (smallPkt 7), .submit 1 (smallPkt 8), .poll 1 0 [] (oneCompletion 0)] =
          .ok world ∧ ¬ ReleasedBySubmitter world.log := by
  refine ⟨_, rfl, ?_⟩
  intro released
  have submitted := released 3 (.effect 1 (.ukNetbufFree 0 (smallNetbuf 7))) rfl 0 (smallNetbuf 7)
    (List.mem_singleton.mpr rfl)
  cases submitted

end EnaDriver.Datapath
