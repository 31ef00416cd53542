import EnaDriver.Datapath.ReceiveRuns

/-!
# Tracking of receive requests

The three structures that track a receive request agree on every id, every
packet carries the netbuf that was posted under its id, and every netbuf that
was posted is held or was given away once.  The accounts balance in every run.
The agreement of the marks needs that no poll meets a reception longer than its
buffer: the drop of such a reception returns the id to the pool and leaves its
in-flight mark set.
-/

namespace EnaDriver.Datapath

open Support.Laps Support.Windows
open Support.Custody Support.Runs

/-- The in-flight mark, the ownership mark, the free window and the tracking slot
tell the same about every id. -/
structure RequestsAgree (r : Ring) : Prop where
  inFlight : ∀ id, id < r.sqDepth.val →
    (r.pool.reqInFlight id = true ↔ r.pool.reqAllocated id = true)
  window : ∀ id, id < r.sqDepth.val →
    (r.pool.reqAllocated id = true ↔ id ∉ r.pool.free r.sqDepth)
  netbuf : ∀ id, id < r.sqDepth.val →
    (r.pool.reqAllocated id = true ↔ (r.rxBufs id).netbuf.isSome = true)

def CarriesPosted (past : List Event) : Event → Prop
  | .rxPkt pkt => ∃ nb, pkt.netbuf = some nb ∧ lastUnder (posted past) pkt.reqId = some nb
  | _ => True

def postedCount (addr : Nat) (log : List Event) : Nat :=
  (posted log).countP fun entry => entry.2.addr == addr

/-- How often the netbuf at an address was handed to the caller or freed. -/
def givenCount (addr : Nat) (log : List Event) : Nat :=
  (given log).countP fun entry => entry.2.addr == addr

def rxHeldCount (addr : Nat) (r : Ring) : Nat :=
  (List.range r.sqDepth.val).countP fun id => (r.rxBufs id).netbuf.any fun nb => nb.addr == addr

variable {actions : List RxAction} {cq d : Depth} {ledger : RxLedger} {world : RxWorld}

theorem RxTracks.agree {r : Ring} (tracks : RxTracks r ledger) (marks : MarksAgree r) :
    RequestsAgree r where
  inFlight := by
    intro id _
    rw [marks id]
  window := by
    intro id bound
    rw [tracks.2.sound.mem_iff]
    simp [bound]
  netbuf := by
    intro id _
    rw [tracks.2.allocated, tracks.2.netbuf]
    rcases rxStatus_cases (ledger id) with isFree | ⟨nb, active⟩
    · simp [isFree, Status.isHeld, Status.item?]
    · simp [active, Status.isHeld, Status.item?]

theorem rxHeldCount_eq {r : Ring} (tracks : RxTracks r ledger) (addr : Nat) :
    rxHeldCount addr r = held (fun nb => nb.addr == addr) r.sqDepth.val ledger := by
  apply List.countP_congr
  intro id _
  rw [tracks.2.netbuf, Status.holds]

theorem posted_append (first second : List Event) :
    posted (first ++ second) = posted first ++ posted second := List.filterMap_append

/-! ## Histories -/

structure RxHistory (d cq : Depth) (world : RxWorld) (actions : List RxAction)
    (ledger : RxLedger) : Prop where
  steps : Steps (fun _ _ => True) Ledger.empty actions ledger
  tracks : RxTracks world.port.ring ledger
  sqDepth : world.port.ring.sqDepth = d
  cqDepth : world.port.ring.cqDepth = cq
  bounded : ∀ action ∈ actions, action.id < d.val
  entries : posted world.log = entered actions
  exits : given world.log = yielded some actions
  unlocked : world.port.ring.ringLock = false
  located : ∃ count, world.port.ring.cqHead = Cursor.after cq count

theorem rxHistory_start {qid : Nat} {sqDepth cqDepth : UInt16} {memory : Nat → Option Nat}
    {ring : Ring} (built : enaRingAlloc qid .rx sqDepth cqDepth memory = .ok ring)
    (dropCb refillCb : Bool) (queue : Option RxQueue) :
    RxHistory ring.sqDepth ring.cqDepth ⟨⟨ring.withCallbacks dropCb refillCb, queue⟩, []⟩ []
        Ledger.empty ∧ MarksAgree (ring.withCallbacks dropCb refillCb) := by
  obtain ⟨_, _, _, _, _, fresh⟩ := enaRingAlloc_ok built
  refine ⟨?_, ?_⟩
  · exact {
      steps := .nil _
      tracks := by
        rw [fresh]
        exact ⟨rfl, RxCustody.fresh ring.sqDepth⟩
      sqDepth := rfl
      cqDepth := rfl
      bounded := by simp
      entries := rfl
      exits := rfl
      unlocked := by
        rw [fresh]
        rfl
      located := ⟨0, by
        rw [Cursor.after_zero, fresh]
        rfl⟩ }
  · rw [fresh]
    intro id
    rfl

/-- The actions of an operation are on ids of the ring. -/
theorem effect_bounded {r : Ring} {op : RxOp} (tracks : RxTracks r ledger) {after : RxLedger}
    (steps : Steps (RxOpAllows r op) ledger actions after) :
    ∀ action ∈ actions, action.id < r.sqDepth.val := by
  refine steps.bounded ?_ tracks.2.outside
  intro ledger id nb ok
  cases op with
  | submitOne netbuf physAddr bufLen =>
    obtain ⟨_, _, same, bound⟩ := ok
    cases same
    exact bound
  | refill count alloc =>
    obtain ⟨_, _, same, bound⟩ := ok
    cases same
    exact bound
  | poll maxPkts changing settled =>
    obtain ⟨_, _, impossible⟩ := ok
    cases impossible
  | reset =>
    obtain ⟨_, _, impossible⟩ := ok
    cases impossible
  | createHw dev answers vector => exact ok.elim
  | destroyHw answers => exact ok.elim

section

variable (history : RxHistory d cq world actions ledger)
include history

theorem rxHistory_step (op : RxOp) :
    ∃ next events more after, rxApply world.port op = .ok (next, events) ∧
      rxStep world op = .ok ⟨next, world.log ++ events⟩ ∧
      RxEffect world.port op ledger next.ring events ∧
      Steps (RxOpAllows world.port.ring op) ledger more after ∧
      posted events = entered more ∧ given events = yielded some more ∧
      RxHistory d cq ⟨next, world.log ++ events⟩ (actions ++ more) after := by
  obtain ⟨count, located⟩ := history.located
  obtain ⟨next, events, ran, effect⟩ :=
    rxApply_effect history.tracks history.unlocked (history.cqDepth ▸ located) op
  obtain ⟨more, after, steps, tracked, entries, gave⟩ := effect.acts
  refine ⟨next, events, more, after, ran, ?_, effect, steps, entries, gave, ?_⟩
  · rw [rxStep, ran]
    rfl
  exact {
    steps := history.steps.append (steps.mono fun _ _ _ => trivial)
    tracks := tracked
    sqDepth := effect.sqDepth.trans history.sqDepth
    cqDepth := effect.cqDepth.trans history.cqDepth
    bounded := List.forall_mem_append.mpr
      ⟨history.bounded, history.sqDepth ▸ effect_bounded history.tracks steps⟩
    entries := by
      rw [posted_append, entered_append, history.entries, entries]
    exits := by
      rw [given_append, yielded_append, history.exits, gave]
    unlocked := effect.unlocked
    located := by
      have moved := effect.done count (history.cqDepth ▸ located)
      rw [history.cqDepth] at moved
      exact ⟨_, moved⟩ }

/-- In any history the netbufs given away and held are the netbufs posted. -/
theorem RxHistory.balance (addr : Nat) :
    givenCount addr world.log + rxHeldCount addr world.port.ring = postedCount addr world.log := by
  have balance := history.steps.balance history.bounded (fun nb => nb.addr == addr)
  rw [held_empty, Nat.add_zero] at balance
  rw [givenCount, postedCount, history.exits, history.entries,
    yielded_count some (fun nb : Netbuf => nb.addr == addr),
    entered_count (fun nb : Netbuf => nb.addr == addr),
    rxHeldCount_eq history.tracks, history.sqDepth]
  exact balance.symm

/-- What a request holds was last posted under its id. -/
theorem RxHistory.last {id : Nat} {nb : Netbuf} (held : (ledger id).item? = some nb) :
    lastUnder (posted world.log) id = some nb := by
  have known := history.steps.held_last []
    (by intro id item impossible; cases impossible) id nb held
  rwa [List.nil_append, ← history.entries] at known

/-! ## Packets carry what was posted -/

omit history in
theorem posted_take {events : List Event} (none : posted events = []) (i : Nat) :
    posted (events.take i) = [] := by
  rw [← List.take_append_drop i events, posted_append] at none
  exact (List.append_eq_nil_iff.mp none).1

/-- One operation keeps the property of the log, when it delivers no packet
without a netbuf. -/
theorem carriesPosted_step {more : List RxAction} {after : RxLedger} {op : RxOp} {next : Ring}
    {events : List Event} (effect : RxEffect world.port op ledger next events)
    (steps : Steps (RxOpAllows world.port.ring op) ledger more after)
    (entries : posted events = entered more) (gave : given events = yielded some more)
    (whole : ∀ pkt ∈ received events, pkt.netbuf.isSome = true)
    (before : Throughout CarriesPosted world.log) :
    Throughout CarriesPosted (world.log ++ events) := by
  apply before.append
  intro i event found
  cases event with
  | rxPkt pkt =>
    have member : pkt ∈ received events :=
      List.mem_filterMap.mpr ⟨_, List.mem_of_getElem? found, rfl⟩
    obtain ⟨nb, netbuf⟩ := Option.isSome_iff_exists.mp (whole pkt member)
    refine ⟨nb, netbuf, ?_⟩
    have listed : (pkt.reqId, nb) ∈ given events := by
      refine List.mem_flatMap.mpr ⟨_, List.mem_of_getElem? found, ?_⟩
      simp [Event.gives, netbuf]
    -- Only a poll delivers, and a poll posts nothing.
    cases op with
    | poll maxPkts changing settled =>
      rw [gave] at listed
      obtain ⟨item, released, same⟩ := mem_yielded listed
      cases same
      have held := steps.release_origin.1 pkt.reqId nb released
      have none : posted events = [] := entries.trans steps.entered_of_release
      rw [posted_append, posted_take none, List.append_nil]
      exact history.last held
    | submitOne netbuf physAddr bufLen =>
      rw [effect.quiet rfl] at member
      cases member
    | refill count alloc =>
      rw [effect.quiet rfl] at member
      cases member
    | reset =>
      rw [effect.quiet rfl] at member
      cases member
    | createHw dev answers vector =>
      rw [effect.quiet rfl] at member
      cases member
    | destroyHw answers =>
      rw [effect.quiet rfl] at member
      cases member
  | _ => trivial

end

/-! ## Main result -/

/-- In every run of an allocated receive ring in which no poll meets a reception
longer than its buffer: every operation returns, the structures of the ring agree
on every id, every packet carries the netbuf last posted under its id, and the
netbufs given away and held are the netbufs posted. -/
theorem rx_requests_tracked {qid : Nat} {sqDepth cqDepth : UInt16} {memory : Nat → Option Nat}
    {ring : Ring} (built : enaRingAlloc qid .rx sqDepth cqDepth memory = .ok ring)
    (dropCb refillCb : Bool) (queue : Option RxQueue) (ops : List RxOp)
    (fits : Meets rxStep (fun world op => OpFits world.port op)
      ⟨⟨ring.withCallbacks dropCb refillCb, queue⟩, []⟩ ops) :
    ∃ world, run rxStep ⟨⟨ring.withCallbacks dropCb refillCb, queue⟩, []⟩ ops = .ok world ∧
      RequestsAgree world.port.ring ∧ Throughout CarriesPosted world.log ∧
      ∀ addr, givenCount addr world.log + rxHeldCount addr world.port.ring =
        postedCount addr world.log := by
  let Reached (world : RxWorld) : Prop :=
    (∃ actions ledger, RxHistory ring.sqDepth ring.cqDepth world actions ledger) ∧
      MarksAgree world.port.ring ∧ Throughout CarriesPosted world.log
  obtain ⟨history, marks⟩ := rxHistory_start built dropCb refillCb queue
  have start : Reached ⟨⟨ring.withCallbacks dropCb refillCb, queue⟩, []⟩ :=
    ⟨⟨[], _, history⟩, marks, Throughout.nil⟩
  obtain ⟨world, ran, ⟨actions, ledger, history⟩, marks, carries⟩ := run_invariant _ Reached
    (fun world op ⟨⟨actions, ledger, history⟩, marks, carries⟩ ok => by
      obtain ⟨next, events, more, after, _, stepped, effect, steps, entries, gave, extended⟩ :=
        rxHistory_step history op
      obtain ⟨agree, whole⟩ := effect.agree marks ok
      exact ⟨_, stepped, ⟨_, _, extended⟩, agree,
        carriesPosted_step history effect steps entries gave whole carries⟩)
    start fits
  exact ⟨world, ran, history.tracks.agree marks, carries, history.balance⟩

/-- A buffer of 64 bytes that receives 60. -/
theorem rx_requests_tracked_short :
    ∃ world, run rxStep ⟨⟨smallRxRing.withCallbacks true false, none⟩, []⟩
        [.submitOne (some (emptyNetbuf 7)) 7 64, .poll 1 [] (receptions [(0, 60)])] = .ok world ∧
      RequestsAgree world.port.ring := by
  obtain ⟨world, ran, agree, _⟩ := rx_requests_tracked smallRxRing_built true false none
    [.submitOne (some (emptyNetbuf 7)) 7 64, .poll 1 [] (receptions [(0, 60)])] (by
      refine meets_cons trivial rfl (meets_cons ?_ rfl trivial)
      rintro k cdesc ⟨_, _, mem, found, rfl, _⟩ inFlight
      have same : mem = receptions [(0, 60)] := List.eq_of_mem_replicate (List.mem_of_getElem? found)
      subst same
      have isZero : ∀ slot, (receptions [(0, 60)] slot).reqId = 0 := by
        intro slot
        cases slot with
        | zero => rfl
        | succ n => rfl
      have short : ∀ slot, (receptions [(0, 60)] slot).length ≤ 64 := by
        intro slot
        cases slot with
        | zero => decide
        | succ n => exact Nat.zero_le _
      rw [isZero]
      exact short _)
  exact ⟨world, ran, agree⟩

/-- A reception of 100 bytes into a buffer of 64.  Its id goes back to the pool
with the in-flight mark set, and an empty reception that repeats the id is then
delivered without a netbuf. -/
theorem rx_oversize_leaves_mark :
    (∃ world, run rxStep ⟨⟨smallRxRing.withCallbacks true false, none⟩, []⟩
        [.submitOne (some (emptyNetbuf 7)) 7 64, .poll 1 [] (receptions [(0, 100)])] = .ok world ∧
      ¬ RequestsAgree world.port.ring) ∧
    ∃ world, run rxStep ⟨⟨smallRxRing.withCallbacks true false, none⟩, []⟩
        [.submitOne (some (emptyNetbuf 7)) 7 64, .poll 1 [] (receptions [(0, 100)]),
          .poll 1 [] (receptions [(0, 100), (0, 0)])] = .ok world ∧
      ¬ Throughout CarriesPosted world.log := by
  constructor
  · refine ⟨_, rfl, ?_⟩
    intro agree
    have marked := (agree.inFlight 0 (by decide)).mp rfl
    cases marked
  · refine ⟨_, rfl, ?_⟩
    intro carries
    obtain ⟨nb, netbuf, _⟩ := carries 4 _ rfl
    cases netbuf

end EnaDriver.Datapath
