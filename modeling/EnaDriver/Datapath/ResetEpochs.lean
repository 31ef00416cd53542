import EnaDriver.Datapath.RingSteps
import EnaDriver.Support.Epochs

/-!
# Completion entries across a reset

A reset returns the consumer position of a ring to slot zero with phase one and
leaves its completion memory as it is.  The memory is part of the state here:
during every operation the device writes entries, and every slot knows whether
it was written since the last reset.  When no entry that the memory holds at a
reset can be read in the first lap after it, no poll consumes an entry from
before a reset.
-/

namespace EnaDriver.Datapath

open Support.Laps Support.Polling
open Support.Runs Support.Epochs

/-! ## Consumed slots -/

def Event.consumedSlot? : Event → Option Nat
  | .txConsumed slot _ _ => some slot
  | .rxConsumed slot _ _ => some slot
  | _ => none

def consumedSlots (events : List Event) : List Nat := events.filterMap Event.consumedSlot?

theorem consumedSlots_append (first second : List Event) :
    consumedSlots (first ++ second) = consumedSlots first ++ consumedSlots second :=
  List.filterMap_append

theorem length_consumedSlots (events : List Event) :
    (consumedSlots events).length = consumed events := by
  induction events with
  | nil => rfl
  | cons event events ih =>
    rw [consumedSlots, List.filterMap_cons, consumed, List.countP_cons, ← consumed, ← ih]
    cases event <;> rfl

variable {cpu position : Nat} {events : List Event} {ledger : TxLedger} {p : TxPort}

theorem consumedSlots_of_quiet (quiet : consumed events = 0) :
    consumedSlots events = [] := by
  rw [← List.length_eq_zero_iff, length_consumedSlots]
  exact quiet

theorem consumedSlots_one {event : Event} {slot : Nat} (front : event.consumedSlot? = some slot)
    (one : consumed (event :: events) = 1) :
    consumedSlots (event :: events) = [slot] := by
  have split : consumedSlots (event :: events) = slot :: consumedSlots events := by
    rw [consumedSlots, List.filterMap_cons, front]
    rfl
  have size := length_consumedSlots (event :: events)
  rw [split, one] at size
  rw [split, List.length_eq_zero_iff.mp (Nat.succ.inj size)]

/-! ## Polls over growing memory -/

def usableTx (sqDepth : Depth) (cdesc : TxCdesc) : Bool :=
  cdesc.phase && decide (cdesc.reqId < sqDepth.val)

def usableRx (sqDepth : Depth) (cdesc : RxCdesc) : Bool :=
  cdesc.phase && decide (cdesc.reqId < sqDepth.val)

def epochViews {α : Type} (r : Ring) (cq : EpochMem α) (script : Script α) : List (EpochMem α) :=
  cq.views script ++ List.replicate (r.cqDepth.val + 1) (cq.after script)

theorem map_epochViews {α : Type} (r : Ring) (cq : EpochMem α) (script : Script α) :
    (epochViews r cq script).map EpochMem.mem =
      pollViews r ((cq.views script).map EpochMem.mem) (cq.after script).mem := by
  rw [epochViews, List.map_append, List.map_replicate]
  rfl

/-! ## Transmit polls -/

section Transmit

def TxAt (sq cq : Depth) (p : TxPort) (position : Nat) : Prop :=
  (∃ ledger, Tracks p.ring ledger) ∧ p.ring.sqDepth = sq ∧ p.ring.cqDepth = cq ∧
    p.ring.cqHead = Cursor.after cq position

/-- One iteration consumes one entry, in the slot of its position; in the first lap
only a usable one. -/
theorem txPollEntry_consumes {sq cq : Depth} {added : Nat} {next : TxPort} {mem : TxMem}
    {outputs : List Event} (here : TxAt sq cq p position)
    (read : txPollEntry cpu p mem = some (added, next, outputs)) :
    TxAt sq cq next (position + 1) ∧ consumedSlots outputs = [position % cq.val] ∧
      (lapPhase cq position = true → usableTx sq (mem (position % cq.val)) = true) := by
  obtain ⟨⟨ledger, tracks⟩, sqDepth, cqDepth, head⟩ := here
  obtain ⟨phase, bound, outcome⟩ := txPollEntry_cases read
  obtain ⟨reaped, one⟩ : Reaps cpu (fun _ => True) _ _ _ ∧ _ :=
    txPollEntry_reaps read trivial tracks
  obtain ⟨frame, ⟨_, after, _, tracked, _⟩, moved⟩ := reaped ledger tracks
  have depth : next.ring.sqDepth = sq := by
    obtain ⟨_, _, _, _, _, _, _, _, same⟩ := frame
    rw [same]
    exact sqDepth
  have slot : p.ring.cqSlot = position % cq.val := by
    rw [Ring.cqSlot, cqDepth, head, Cursor.slot_after]
  rw [cqDepth, one] at moved
  refine ⟨⟨⟨after, tracked⟩, depth, frame.cqDepth.trans cqDepth, moved position head⟩, ?_, ?_⟩
  · rw [← slot]
    rcases outcome with ⟨_, _, _, events⟩ | ⟨_, _, _, events⟩
    · rw [events] at one ⊢
      exact consumedSlots_one rfl one
    · rw [events] at one ⊢
      exact consumedSlots_one rfl one
  · intro first
    rw [slot, head] at phase
    rw [slot, sqDepth] at bound
    rw [usableTx, phase, decide_eq_true bound]
    change (lapPhase cq position && true) = true
    rw [first]
    rfl

/-- The drain of a poll leaves the position alone. -/
theorem TxAt.drained {drained : Ring} {first : List Event} {named : Nat → Prop}
    (tracks : Tracks p.ring ledger)
    (located : p.ring.cqHead = Cursor.after p.ring.cqDepth position)
    (drain : enaTxDrainForeignFrees { p.ring with ringLock := true } cpu = .ok (drained, first))
    (reaped : Reaps cpu named { p.ring with ringLock := true } first drained) :
    TxAt p.ring.sqDepth p.ring.cqDepth { p with ring := drained } position := by
  obtain ⟨frame, ⟨_, between, _, tracked, _⟩, moved⟩ := reaped ledger tracks
  refine ⟨⟨between, tracked⟩, ?_, frame.cqDepth, ?_⟩
  · obtain ⟨_, _, _, _, _, _, _, _, same⟩ := frame
    rw [same]
  · have head := moved position located
    rw [enaTxDrainForeignFrees_consumed drain] at head
    exact head

/-- A transmit poll consumes entries of this epoch only. -/
theorem enaTxPollCompletions_fresh {next : TxPort} {budget : Nat} {ret : Int}
    {cq : EpochMem TxCdesc} {script : Script TxCdesc} (tracks : Tracks p.ring ledger)
    (unlocked : p.ring.ringLock = false)
    (located : p.ring.cqHead = Cursor.after p.ring.cqDepth position)
    (covers : Covers p.ring.cqDepth (usableTx p.ring.sqDepth) cq position)
    (returned : enaTxPollCompletions p cpu budget
      ((epochViews p.ring cq script).map EpochMem.mem) = .ok (ret, next, events)) :
    (∀ flag ∈ readFlags (consumedSlots events) (epochViews p.ring cq script), flag = true) ∧
      Covers p.ring.cqDepth (usableTx p.ring.sqDepth) (cq.after script)
        (position + consumed events) := by
  have growing := growing_views cq script (p.ring.cqDepth.val + 1)
  rcases enaTxPollCompletions_cases tracks unlocked returned with
    ⟨_, rfl, _⟩ | ⟨drained, first, cleaned, last, rest, drain, reaped, looped, rfl, rfl, _⟩
  · refine ⟨?_, covers.grows growing.grows⟩
    intro flag member
    cases member
  have quiet := enaTxDrainForeignFrees_consumed drain
  have fresh := iterates_fresh p.ring.cqDepth (usableTx p.ring.sqDepth) consumedSlots
    (TxAt p.ring.sqDepth p.ring.cqDepth) rfl consumedSlots_append txPollEntry_consumes
    (TxAt.drained tracks located drain reaped) covers growing (pollLoop_iterates looped)
  rw [consumedSlots_append, consumedSlots_of_quiet quiet, List.nil_append, consumed_append, quiet,
    Nat.zero_add, ← length_consumedSlots]
  exact fresh

end Transmit

/-! ## Receive polls -/

section Receive

def RxAt (sq cq : Depth) (p : RxPort) (position : Nat) : Prop :=
  (∃ ledger, RxTracks p.ring ledger) ∧ p.ring.sqDepth = sq ∧ p.ring.cqDepth = cq ∧
    p.ring.cqHead = Cursor.after cq position

/-- One iteration consumes one entry, in the slot of its position; in the first lap
only a usable one. -/
theorem rxPollEntry_consumes {sq cq : Depth} {added : Nat} {p next : RxPort} {mem : RxMem}
    {outputs : List Event} (here : RxAt sq cq p position)
    (read : rxPollEntry p mem = some (added, next, outputs)) :
    RxAt sq cq next (position + 1) ∧ consumedSlots outputs = [position % cq.val] ∧
      (lapPhase cq position = true → usableRx sq (mem (position % cq.val)) = true) := by
  obtain ⟨⟨ledger, tracks⟩, sqDepth, cqDepth, head⟩ := here
  obtain ⟨phase, bound, entry⟩ := rxPollEntry_cases read
  obtain ⟨frame, ⟨_, after, _, tracked, _⟩, moved⟩ := rxPollEntry_reaps read tracks ledger tracks
  have one := entry.consumed tracks
  have slot : p.ring.cqSlot = position % cq.val := by
    rw [Ring.cqSlot, cqDepth, head, Cursor.slot_after]
  rw [cqDepth, one] at moved
  refine ⟨⟨⟨after, tracked⟩, frame.depths.1.trans sqDepth, frame.depths.2.1.trans cqDepth,
    moved position head⟩, ?_, ?_⟩
  · rw [← slot]
    cases entry with
    | skipped idle => exact consumedSlots_one rfl one
    | dropped inFlight oversize => exact consumedSlots_one rfl one
    | delivered inFlight fits => exact consumedSlots_one rfl one
  intro first
  rw [slot, head] at phase
  rw [slot, sqDepth] at bound
  rw [usableRx, phase, decide_eq_true bound]
  change (lapPhase cq position && true) = true
  rw [first]
  rfl

theorem enaRxPoll_fresh {p : RxPort} {maxPkts : Nat} {polled : RxPolled} {cq : EpochMem RxCdesc}
    {script : Script RxCdesc} {ledger : RxLedger} (tracks : RxTracks p.ring ledger)
    (unlocked : p.ring.ringLock = false)
    (located : p.ring.cqHead = Cursor.after p.ring.cqDepth position)
    (covers : Covers p.ring.cqDepth (usableRx p.ring.sqDepth) cq position)
    (returned : enaRxPoll p maxPkts ((epochViews p.ring cq script).map EpochMem.mem) = .ok polled) :
    (∀ flag ∈ readFlags (consumedSlots polled.events) (epochViews p.ring cq script),
        flag = true) ∧
      Covers p.ring.cqDepth (usableRx p.ring.sqDepth) (cq.after script)
        (position + consumed polled.events) := by
  have growing := growing_views cq script (p.ring.cqDepth.val + 1)
  rcases enaRxPoll_cases unlocked returned with
    ⟨_, none, _⟩ | ⟨rcvd, last, outputs, iterates, _, rfl⟩
  · rw [none]
    refine ⟨?_, covers.grows growing.grows⟩
    intro flag member
    cases member
  have quiet := (enaRxReportHead_quiet last.ring rcvd).2
  have lockedAt : RxAt p.ring.sqDepth p.ring.cqDepth
      { p with ring := { p.ring with ringLock := true } } position :=
    ⟨⟨ledger, tracks⟩, rfl, rfl, located⟩
  have fresh := iterates_fresh p.ring.cqDepth (usableRx p.ring.sqDepth) consumedSlots
    (RxAt p.ring.sqDepth p.ring.cqDepth) rfl consumedSlots_append rxPollEntry_consumes lockedAt
    covers growing iterates
  simp only
  rw [consumedSlots_append, consumedSlots_of_quiet quiet, List.append_nil, consumed_append, quiet,
    Nat.add_zero, ← length_consumedSlots]
  exact fresh

end Receive

/-! ## The systems -/

/-- A ring with its completion memory, and for every entry consumed whether the
device wrote it after the last reset. -/
structure EpochWorld (π α : Type) where
  port : π
  cq : EpochMem α
  reads : List Bool

def EpochWorld.next {π α : Type} (world : EpochWorld π α) (port : π) (isReset : Bool)
    (script : Script α) (reads : List Bool) : EpochWorld π α :=
  ⟨port, if isReset then (world.cq.after script).newEpoch else world.cq.after script,
    world.reads ++ reads⟩

def TxOp.over (cq : EpochMem TxCdesc) (script : Script TxCdesc) : TxOp → TxOp
  | .poll cpu budget _ _ =>
    .poll cpu budget ((cq.views script).map EpochMem.mem) (cq.after script).mem
  | op => op

def logSlots (entries : List TxLog) : List Nat :=
  entries.filterMap fun
    | .accepted _ _ _ => none
    | .effect _ event => event.consumedSlot?

def txEpochStep (world : EpochWorld TxPort TxCdesc) (step : TxOp × Script TxCdesc) :
    Except Fault (EpochWorld TxPort TxCdesc) := do
  let (port, entries) ← txApply world.port (step.1.over world.cq step.2)
  return world.next port step.1.isReset step.2
    (readFlags (logSlots entries) (epochViews world.port.ring world.cq step.2))

/-- At a reset the completion memory holds no entry that the next lap can read. -/
def TxForgets (world : EpochWorld TxPort TxCdesc) (step : TxOp × Script TxCdesc) : Prop :=
  step.1.isReset = true → ∀ slot, slot < world.port.ring.cqDepth.val →
    usableTx world.port.ring.sqDepth ((world.cq.after step.2).mem slot) = false

instance (world : EpochWorld TxPort TxCdesc) (step : TxOp × Script TxCdesc) :
    Decidable (TxForgets world step) :=
  inferInstanceAs (Decidable (_ → ∀ slot, slot < _ → _))

def RxOp.over (cq : EpochMem RxCdesc) (script : Script RxCdesc) : RxOp → RxOp
  | .poll maxPkts _ _ =>
    .poll maxPkts ((cq.views script).map EpochMem.mem) (cq.after script).mem
  | op => op

def rxEpochStep (world : EpochWorld RxPort RxCdesc) (step : RxOp × Script RxCdesc) :
    Except Fault (EpochWorld RxPort RxCdesc) := do
  let (port, events) ← rxApply world.port (step.1.over world.cq step.2)
  return world.next port step.1.isReset step.2
    (readFlags (consumedSlots events) (epochViews world.port.ring world.cq step.2))

/-- At a reset the completion memory holds no entry that the next lap can read. -/
def RxForgets (world : EpochWorld RxPort RxCdesc) (step : RxOp × Script RxCdesc) : Prop :=
  step.1.isReset = true → ∀ slot, slot < world.port.ring.cqDepth.val →
    usableRx world.port.ring.sqDepth ((world.cq.after step.2).mem slot) = false

instance (world : EpochWorld RxPort RxCdesc) (step : RxOp × Script RxCdesc) :
    Decidable (RxForgets world step) :=
  inferInstanceAs (Decidable (_ → ∀ slot, slot < _ → _))

/-- No entry from before a reset was consumed after it. -/
def NothingStale {π α : Type} (world : EpochWorld π α) : Prop := ∀ read ∈ world.reads, read = true

theorem NothingStale.append {π α : Type} {world : EpochWorld π α} (stale : NothingStale world)
    {reads : List Bool} (fresh : ∀ read ∈ reads, read = true) (port : π) (isReset : Bool)
    (script : Script α) : NothingStale (world.next port isReset script reads) :=
  List.forall_mem_append.mpr ⟨stale, fresh⟩

structure TxEpochs (world : EpochWorld TxPort TxCdesc) : Prop where
  tracks : ∃ ledger, Tracks world.port.ring ledger
  unlocked : world.port.ring.ringLock = false
  covered : ∃ position, world.port.ring.cqHead = Cursor.after world.port.ring.cqDepth position ∧
    Covers world.port.ring.cqDepth (usableTx world.port.ring.sqDepth) world.cq position
  stale : NothingStale world

theorem logSlots_effects (cpu : Nat) (events : List Event) :
    logSlots (events.map (.effect cpu)) = consumedSlots events := by
  rw [logSlots, List.filterMap_map]
  rfl

theorem logSlots_submission {pkt : TxPkt} {out : TxOutcome} (quiet : Quiet out.events) :
    logSlots (submissionLog cpu pkt out) = [] := by
  have events := (logSlots_effects cpu out.events).trans (consumedSlots_of_quiet quiet.consumed)
  rw [submissionLog, logSlots, List.filterMap_append, ← logSlots, ← logSlots, events, List.append_nil]
  cases out.reqId with
  | none => rfl
  | some reqId => rfl

/-- An operation other than a poll consumes nothing. -/
theorem txApply_logSlots {next : TxPort} {op : TxOp} {entries : List TxLog}
    (tracks : Tracks p.ring ledger) (unlocked : p.ring.ringLock = false)
    (notPoll : ∀ cpu budget changing settled, op ≠ .poll cpu budget changing settled)
    (ran : txApply p op = .ok (next, entries)) : logSlots entries = [] := by
  cases op with
  | submit cpu pkt =>
    obtain ⟨out, submitted, none, _⟩ := enaTxSubmit_cases p.ring cpu pkt unlocked
    rw [txApply, submitted] at ran
    cases ran
    apply logSlots_submission
    rw [none]
    exact .nil
  | llqPush cpu pkt hdrData hdrLen =>
    obtain ⟨out, pushed, quiet, _⟩ := enaLlqTxPush_cases p.ring cpu pkt hdrData hdrLen unlocked
    rw [txApply, pushed] at ran
    cases ran
    exact logSlots_submission quiet
  | poll cpu budget changing settled => exact absurd rfl (notPoll cpu budget changing settled)
  | reset cpu =>
    obtain ⟨_, _, events, _, emptied, _, _, _, frees⟩ :=
      enaAdapterInvalidateIoRing_empties tracks unlocked
    rw [txApply, emptied] at ran
    cases ran
    rw [logSlots_effects]
    exact consumedSlots_of_quiet frees.consumes
  | createHw cpu dev answers vector =>
    obtain ⟨ret, hw, created⟩ := createHwOn_hwOnly dev answers vector p.ring
    rw [txApply, created] at ran
    cases ran
    rfl
  | destroyHw cpu answers =>
    obtain ⟨ret, hw, destroyed⟩ := destroyHwOn_hwOnly answers p.ring
    rw [txApply, destroyed] at ran
    cases ran
    rfl

theorem length_logSlots (entries : List TxLog) :
    (logSlots entries).length = entries.countP TxLog.isConsumed := by
  induction entries with
  | nil => rfl
  | cons entry entries ih =>
    rw [logSlots, List.filterMap_cons, List.countP_cons, ← ih]
    cases entry with
    | accepted cpu reqId netbuf => rfl
    | effect cpu event => cases event <;> rfl

theorem TxOp.isReset_over (cq : EpochMem TxCdesc) (script : Script TxCdesc) (op : TxOp) :
    (op.over cq script).isReset = op.isReset := by
  cases op <;> rfl

/-- What an operation consumes is of this epoch, and the memory covers the position
after it. -/
theorem txApply_fresh {next : TxPort} {op : TxOp} {cq : EpochMem TxCdesc}
    {script : Script TxCdesc} {entries : List TxLog} (tracks : Tracks p.ring ledger)
    (unlocked : p.ring.ringLock = false)
    (located : p.ring.cqHead = Cursor.after p.ring.cqDepth position)
    (covers : Covers p.ring.cqDepth (usableTx p.ring.sqDepth) cq position)
    (ran : txApply p (op.over cq script) = .ok (next, entries)) :
    (∀ read ∈ readFlags (logSlots entries) (epochViews p.ring cq script), read = true) ∧
      Covers p.ring.cqDepth (usableTx p.ring.sqDepth) (cq.after script)
        (position + (logSlots entries).length) := by
  have grown := covers.grows (growing_views cq script 0).grows
  by_cases isPoll : ∃ cpu budget changing settled, op = .poll cpu budget changing settled
  · obtain ⟨cpu, budget, changing, settled, rfl⟩ := isPoll
    obtain ⟨⟨ret, last, events⟩, polled, ran⟩ := bind_ok ran
    cases ran
    rw [← map_epochViews] at polled
    rw [logSlots_effects, length_consumedSlots]
    exact enaTxPollCompletions_fresh tracks unlocked located covers polled
  · have same : op.over cq script = op := by
      cases op with
      | poll cpu budget changing settled => exact absurd ⟨_, _, _, _, rfl⟩ isPoll
      | _ => rfl
    rw [same] at ran
    rw [txApply_logSlots tracks unlocked
      (fun cpu budget changing settled here => isPoll ⟨_, _, _, _, here⟩) ran]
    refine ⟨?_, grown⟩
    intro read member
    cases member

theorem txEpochStep_epochs {world : EpochWorld TxPort TxCdesc} (epochs : TxEpochs world)
    (step : TxOp × Script TxCdesc) (forgets : TxForgets world step) :
    ∃ next, txEpochStep world step = .ok next ∧ TxEpochs next := by
  obtain ⟨op, script⟩ := step
  obtain ⟨ledger, tracks⟩ := epochs.tracks
  obtain ⟨position, located, covers⟩ := epochs.covered
  obtain ⟨next, entries, ran, effect⟩ :=
    txApply_effect tracks epochs.unlocked located (op.over world.cq script)
  obtain ⟨_, after, _, tracked, _⟩ := effect.acts
  obtain ⟨fresh, covered⟩ := txApply_fresh tracks epochs.unlocked located covers ran
  have moved := effect.done position located
  rw [TxOp.isReset_over, ← length_logSlots] at moved
  refine ⟨_, by rw [txEpochStep, ran]; rfl, ⟨after, tracked⟩, effect.unlocked, ?_,
    epochs.stale.append fresh _ _ _⟩
  change ∃ position, next.ring.cqHead = Cursor.after next.ring.cqDepth position ∧
    Covers next.ring.cqDepth (usableTx next.ring.sqDepth)
      (if op.isReset then (world.cq.after script).newEpoch else world.cq.after script) position
  rw [effect.cqDepth, effect.sqDepth]
  cases resets : op.isReset with
  | true =>
    rw [resets] at moved
    exact ⟨0, moved, covers_newEpoch (forgets resets)⟩
  | false =>
    rw [resets] at moved
    exact ⟨_, moved, covered⟩

structure RxEpochs (world : EpochWorld RxPort RxCdesc) : Prop where
  tracks : ∃ ledger, RxTracks world.port.ring ledger
  unlocked : world.port.ring.ringLock = false
  covered : ∃ position, world.port.ring.cqHead = Cursor.after world.port.ring.cqDepth position ∧
    Covers world.port.ring.cqDepth (usableRx world.port.ring.sqDepth) world.cq position
  stale : NothingStale world

/-- An operation other than a poll consumes nothing. -/
theorem rxApply_consumedSlots {p next : RxPort} {op : RxOp} {ledger : RxLedger}
    (tracks : RxTracks p.ring ledger) (unlocked : p.ring.ringLock = false)
    (notPoll : ∀ maxPkts changing settled, op ≠ .poll maxPkts changing settled)
    (ran : rxApply p op = .ok (next, events)) : consumedSlots events = [] := by
  cases op with
  | submitOne netbuf physAddr bufLen =>
    obtain ⟨out, _, ran⟩ := bind_ok ran
    cases ran
    unfold postingLog
    split <;> rfl
  | refill count alloc =>
    obtain ⟨_, _, refilled, _, silent, _⟩ := enaRxRefill_posts p count alloc tracks unlocked
    rw [rxApply, refilled] at ran
    cases ran
    exact consumedSlots_of_quiet silent.consumes
  | poll maxPkts changing settled => exact absurd rfl (notPoll maxPkts changing settled)
  | reset =>
    obtain ⟨_, _, _, _, emptied, _, _, _, frees⟩ :=
      enaAdapterInvalidateIoRing_releases tracks unlocked
    rw [rxApply, emptied] at ran
    cases ran
    exact consumedSlots_of_quiet frees.consumes
  | createHw dev answers vector =>
    obtain ⟨ret, hw, created⟩ := createHwOn_hwOnly dev answers vector p.ring
    rw [rxApply, created] at ran
    cases ran
    rfl
  | destroyHw answers =>
    obtain ⟨ret, hw, destroyed⟩ := destroyHwOn_hwOnly answers p.ring
    rw [rxApply, destroyed] at ran
    cases ran
    rfl

theorem RxOp.isReset_over (cq : EpochMem RxCdesc) (script : Script RxCdesc) (op : RxOp) :
    (op.over cq script).isReset = op.isReset := by
  cases op <;> rfl

/-- What an operation consumes is of this epoch, and the memory covers the position
after it. -/
theorem rxApply_fresh {p next : RxPort} {op : RxOp} {cq : EpochMem RxCdesc}
    {script : Script RxCdesc} {ledger : RxLedger} (tracks : RxTracks p.ring ledger)
    (unlocked : p.ring.ringLock = false)
    (located : p.ring.cqHead = Cursor.after p.ring.cqDepth position)
    (covers : Covers p.ring.cqDepth (usableRx p.ring.sqDepth) cq position)
    (ran : rxApply p (op.over cq script) = .ok (next, events)) :
    (∀ read ∈ readFlags (consumedSlots events) (epochViews p.ring cq script), read = true) ∧
      Covers p.ring.cqDepth (usableRx p.ring.sqDepth) (cq.after script)
        (position + consumed events) := by
  have grown := covers.grows (growing_views cq script 0).grows
  by_cases isPoll : ∃ maxPkts changing settled, op = .poll maxPkts changing settled
  · obtain ⟨maxPkts, changing, settled, rfl⟩ := isPoll
    obtain ⟨polled, returned, ran⟩ := bind_ok ran
    cases ran
    rw [← map_epochViews] at returned
    exact enaRxPoll_fresh tracks unlocked located covers returned
  have same : op.over cq script = op := by
    cases op with
    | poll maxPkts changing settled => exact absurd ⟨_, _, _, rfl⟩ isPoll
    | _ => rfl
  rw [same] at ran
  rw [← length_consumedSlots, rxApply_consumedSlots tracks unlocked
    (fun maxPkts changing settled here => isPoll ⟨_, _, _, here⟩) ran]
  refine ⟨?_, grown⟩
  intro read member
  cases member

theorem rxEpochStep_epochs {world : EpochWorld RxPort RxCdesc} (epochs : RxEpochs world)
    (step : RxOp × Script RxCdesc) (forgets : RxForgets world step) :
    ∃ next, rxEpochStep world step = .ok next ∧ RxEpochs next := by
  obtain ⟨op, script⟩ := step
  obtain ⟨ledger, tracks⟩ := epochs.tracks
  obtain ⟨position, located, covers⟩ := epochs.covered
  obtain ⟨next, events, ran, effect⟩ :=
    rxApply_effect tracks epochs.unlocked located (op.over world.cq script)
  obtain ⟨_, after, _, tracked, _⟩ := effect.acts
  obtain ⟨fresh, covered⟩ := rxApply_fresh tracks epochs.unlocked located covers ran
  have moved := effect.done position located
  rw [RxOp.isReset_over] at moved
  refine ⟨_, by rw [rxEpochStep, ran]; rfl, ⟨after, tracked⟩, effect.unlocked, ?_,
    epochs.stale.append fresh _ _ _⟩
  change ∃ position, next.ring.cqHead = Cursor.after next.ring.cqDepth position ∧
    Covers next.ring.cqDepth (usableRx next.ring.sqDepth)
      (if op.isReset then (world.cq.after script).newEpoch else world.cq.after script) position
  rw [effect.cqDepth, effect.sqDepth]
  cases resets : op.isReset with
  | true =>
    rw [resets] at moved
    exact ⟨0, moved, covers_newEpoch (forgets resets)⟩
  | false =>
    rw [resets] at moved
    exact ⟨_, moved, covered⟩

end EnaDriver.Datapath
