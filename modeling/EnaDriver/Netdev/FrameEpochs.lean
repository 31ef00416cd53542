import EnaDriver.Netdev.BounceRuns
import EnaDriver.Netdev.FrameRuns
import EnaDriver.Datapath.ResetEpochs
import EnaDriver.Datapath.Positions

/-!
# Frames across a reset

The partial frame of a receive queue survives a reset of its ring.  When no frame
is partial at a reset, every netbuf of a frame that is returned later was
received after the reset.  With the completion entries of the rings, this is all
that a reset can leave behind.
-/

namespace EnaDriver.Netdev

open Support.Laps Support.Polling
open Support.Custody Support.Runs Support.Epochs
open Datapath

/-! ## The partial frame in a turn -/

variable {answers : Nat → Option Netbuf} {build : Build} {c : RxChannel} {inputs : List RxInput}
  {memory : Nat → Option Nat} {p : RxPort} {qid : Nat} {result : Received} {ring : Ring}
  {views : List RxMem}

/-- A poll leaves the partial frame alone. -/
theorem enaRxPoll_chain {maxPkts : Nat} {polled : RxPolled} (unlocked : p.ring.ringLock = false)
    (returned : enaRxPoll p maxPkts views = .ok polled) :
    polled.port.queue.map RxQueue.chain = p.queue.map RxQueue.chain := by
  rcases enaRxPoll_cases unlocked returned with
    ⟨same, _, _⟩ | ⟨rcvd, last, outputs, iterates, _, rfl⟩
  · rw [same]
  refine iterates.rel (fun state _ final =>
    final.queue.map RxQueue.chain = state.queue.map RxQueue.chain) (fun _ => rfl) ?_
  intro state view added next outputs rest final _ read later
  obtain ⟨_, _, entry⟩ := rxPollEntry_cases read
  rw [later]
  cases entry with
  | skipped idle => rfl
  | dropped inFlight oversize =>
    rw [Option.map_map]
    cases state.queue with
    | none => rfl
    | some q => exact congrArg some (reclaimSlot_chain q _)
  | delivered inFlight fits => rfl

theorem rxDrop_accepted (r : Ring) (id : Nat) : acceptedEntries (rxDrop r id).2 = [] := by
  unfold rxDrop
  simp only
  cases (r.rxBufs id).netbuf with
  | none => rfl
  | some nb =>
    simp only
    split <;> rfl

/-- Every packet that a poll stores belongs to an entry that it accepts. -/
theorem rxIterates_accepted {last : RxPort} {budget count total : Nat} {outputs : List Event}
    (iterates : Iterates rxPollEntry budget count p views total outputs last) :
    (acceptedEntries outputs).length = (received outputs).length := by
  induction iterates with
  | stop reason => rfl
  | step more read later ih =>
    obtain ⟨_, _, entry⟩ := rxPollEntry_cases read
    rw [acceptedEntries, List.filterMap_append, received, List.filterMap_append,
      List.length_append, List.length_append, ← acceptedEntries, ← received, ← acceptedEntries,
      ← received, ih, Nat.add_right_cancel_iff]
    cases entry with
    | skipped idle => rfl
    | dropped inFlight oversize =>
      change (acceptedEntries (rxDrop _ _).2).length = (received (rxDrop _ _).2).length
      rw [rxDrop_accepted, rxDrop_received]
      rfl
    | delivered inFlight fits => rfl

theorem enaRxPoll_accepted {maxPkts : Nat} {polled : RxPolled}
    (unlocked : p.ring.ringLock = false) (returned : enaRxPoll p maxPkts views = .ok polled) :
    (acceptedEntries polled.events).length = (received polled.events).length := by
  rcases enaRxPoll_cases unlocked returned with
    ⟨_, none, _⟩ | ⟨rcvd, last, outputs, iterates, _, rfl⟩
  · rw [none]
    rfl
  have report : acceptedEntries (enaRxReportHead last.ring rcvd) = [] := by
    rcases enaRxReportHead_cases last.ring rcvd with report | ⟨_, _, report⟩ <;> rw [report] <;> rfl
  have accepted : acceptedEntries (outputs ++ enaRxReportHead last.ring rcvd) =
      acceptedEntries outputs := by
    rw [acceptedEntries, List.filterMap_append, ← acceptedEntries, ← acceptedEntries, report,
      List.append_nil]
  have packets : received (outputs ++ enaRxReportHead last.ring rcvd) = received outputs := by
    rw [received, List.filterMap_append, ← received, ← received, enaRxReportHead_received,
      List.append_nil]
  simp only [accepted, packets]
  exact rxIterates_accepted iterates

def keptNetbufs (fragments : List Fragment) : List Netbuf := fragments.filterMap Fragment.kept

/-- Joining a fragment adds it to the partial frame or to the frame returned. -/
theorem joinChain_flatten (c : RxChannel) (nb : Netbuf) (pkt : RxPkt) (mem : RxMem) :
    (joinChain c nb pkt mem).1.frame.toList.flatten ++ (joinChain c nb pkt mem).2.queue.chain =
      c.queue.chain ++ [nb] := by
  unfold joinChain
  cases chain : c.queue.chain with
  | nil =>
    dsimp only
    split
    · rfl
    · change [nb] ++ c.queue.chain = _
      rw [chain]
      rfl
  | cons head rest =>
    dsimp only
    split
    · change (head :: rest ++ [nb] ++ []) ++ [] = _
      rw [List.append_nil, List.append_nil]
    · rfl

/-- The frame that a turn returns and the partial frame it leaves are made of the
partial frame before it and of the fragments it received. -/
theorem rxTurn_sublist {input : RxInput} {result : TurnResult} {ledger : RxLedger}
    (tracks : RxTracks c.ring ledger) (unlocked : c.ring.ringLock = false)
    (turned : rxTurn build c input = .ok result) :
    (result.turn.frame.toList.flatten ++ result.channel.queue.chain).Sublist
      (c.queue.chain ++ keptNetbufs result.fragments) := by
  have same := turned
  unfold rxTurn at same
  obtain ⟨polled, ran, _⟩ := bind_ok same
  obtain ⟨reaped, free⟩ := enaRxPoll_reaps (p := c.port) tracks unlocked ran
  obtain ⟨_, ⟨_, after, _, tracked, _⟩, _⟩ := reaped ledger tracks
  obtain ⟨start, counts, finish, next, events, form, refilled, again⟩ :=
    rxTurn_refilled build ran tracked free
  cases again.symm.trans turned
  have chain : (chainAfter c polled).Sublist c.queue.chain := by
    have kept := enaRxPoll_chain (p := c.port) unlocked ran
    unfold chainAfter
    split
    · exact List.nil_sublist _
    change (polled.port.queue.getD c.queue).chain.Sublist c.queue.chain
    cases found : polled.port.queue with
    | none => exact List.Sublist.refl _
    | some q =>
      rw [found] at kept
      rw [Option.getD_some, Option.some.inj kept]
  have front : ∀ rest, (chainAfter c polled).Sublist (c.queue.chain ++ rest) :=
    fun rest => chain.trans (List.sublist_append_left _ rest)
  cases form with
  | empty freed nothing =>
    rw [refilled.chain]
    exact front _
  | null freed packet absent =>
    rw [refilled.chain]
    exact front _
  | unfit freed packet carried large =>
    rw [refilled.chain]
    exact List.nil_sublist _
  | @kept freed pkt rest nb filled packet carried fits moved =>
      dsimp only
      rw [joinChain_flatten, refilled.chain, returnSlot_chain]
      apply chain.append
      -- the packet is that of an accepted entry, so its fragment is among the fates
      have accepted := enaRxPoll_accepted (p := c.port) unlocked ran
      rw [packet] at accepted
      obtain ⟨cdesc, others, entries⟩ := List.exists_cons_of_length_eq_add_one accepted
      rw [keptNetbufs, fates, List.filterMap_append, entries]
      apply List.Sublist.trans _ (List.sublist_append_right _ _)
      exact List.Sublist.cons_cons filled (List.nil_sublist _)

/-! ## The system -/

structure FrameWorld where
  channel : RxChannel
  received : List Netbuf
  returned : List (List Netbuf)

def frameStep (world : FrameWorld) : RxBounceOp → Except Fault FrameWorld
  | .turn build input => do
    let result ← rxTurn build world.channel input
    return ⟨result.channel, world.received ++ keptNetbufs result.fragments,
      world.returned ++ result.turn.frame.toList⟩
  | .reset => do
    let channel ← rxBounceStep world.channel .reset
    return ⟨channel, [], []⟩
  | op => do
    let channel ← rxBounceStep world.channel op
    return { world with channel := channel }

/-- Every netbuf of the frames returned since the last reset was received since
then. -/
def FramesFresh (world : FrameWorld) : Prop := world.returned.flatten.Sublist world.received

def NoPartialFrame (world : FrameWorld) : RxBounceOp → Prop
  | .reset => world.channel.queue.chain = []
  | _ => True

instance (world : FrameWorld) : (op : RxBounceOp) → Decidable (NoPartialFrame world op)
  | .reset => inferInstanceAs (Decidable (world.channel.queue.chain = []))
  | .refill _ _ _ | .refillCount _ _ _ | .turn _ _ | .createHw _ _ _ | .destroyHw _ =>
    isTrue trivial

structure FrameServed (phys : Nat) (world : FrameWorld) : Prop where
  served : RxServed phys False world.channel
  fresh : (world.returned.flatten ++ world.channel.queue.chain).Sublist world.received

theorem refill_chain {counts : Bool} {next : RxChannel} {events : List Event} {ledger : RxLedger}
    (tracks : RxTracks c.ring ledger) (unlocked : c.ring.ringLock = false)
    (refilled : refill build c answers counts = .ok (next, events)) :
    next.queue.chain = c.queue.chain := by
  obtain ⟨_, _, ran, effect⟩ := refill_refilled tracks unlocked build answers counts
  cases ran.symm.trans refilled
  exact effect.chain

theorem frameStep_served {phys : Nat} {world : FrameWorld} (frames : FrameServed phys world)
    (op : RxBounceOp) (whole : NoPartialFrame world op) :
    ∃ next, frameStep world op = .ok next ∧ FrameServed phys next := by
  obtain ⟨ledger, tracks⟩ := frames.served.tracks
  have unlocked := frames.served.unlocked
  obtain ⟨c, ran, served⟩ := rxBounceStep_served frames.served op False.elim
  have plain := congrArg (· >>= fun channel => Except.ok { world with channel := channel }) ran
  cases op with
  | refill build answers counts =>
    refine ⟨{ world with channel := c }, plain, served, ?_⟩
    obtain ⟨⟨next, events⟩, refilled, same⟩ := bind_ok ran
    cases same
    change (world.returned.flatten ++ c.queue.chain).Sublist _
    rw [refill_chain tracks unlocked refilled]
    exact frames.fresh
  | refillCount count build answers =>
    refine ⟨{ world with channel := c }, plain, served, ?_⟩
    obtain ⟨_, port, _, refilled, effect⟩ :=
      enaRxRefill_refilled (c := world.channel) tracks unlocked count build answers
    rw [rxBounceStep, refilled] at ran
    cases ran
    change (world.returned.flatten ++ (world.channel.update port).queue.chain).Sublist _
    rw [effect.chain]
    exact frames.fresh
  | turn build input =>
    obtain ⟨result, turned, same⟩ := bind_ok ran
    cases same
    refine ⟨_, by rw [frameStep, turned]; rfl, served, ?_⟩
    have step := rxTurn_sublist tracks unlocked turned
    change ((world.returned ++ result.turn.frame.toList).flatten ++ result.channel.queue.chain).Sublist
      (world.received ++ keptNetbufs result.fragments)
    rw [List.flatten_append, List.append_assoc]
    apply ((List.Sublist.refl world.returned.flatten).append step).trans
    rw [← List.append_assoc]
    exact frames.fresh.append (List.Sublist.refl _)
  | reset =>
    refine ⟨⟨c, [], []⟩, congrArg (· >>= fun c => Except.ok (FrameWorld.mk c [] [])) ran,
      served, ?_⟩
    obtain ⟨⟨ring, events⟩, _, same⟩ := bind_ok ran
    cases same
    change List.Sublist world.channel.queue.chain []
    rw [show world.channel.queue.chain = [] from whole]
  | createHw dev answers vector =>
    refine ⟨{ world with channel := c }, plain, served, ?_⟩
    obtain ⟨⟨ret, ring⟩, _, same⟩ := bind_ok ran
    cases same
    exact frames.fresh
  | destroyHw answers =>
    refine ⟨{ world with channel := c }, plain, served, ?_⟩
    obtain ⟨⟨ret, ring⟩, _, same⟩ := bind_ok ran
    cases same
    exact frames.fresh

def Returned (world : FrameWorld) (frame : Option (List Netbuf)) (fragments : List Fragment)
    (last : FrameWorld) : Prop :=
  last.received = world.received ++ keptNetbufs fragments ∧
    last.returned = world.returned ++ frame.toList

theorem frameStep_observes : Observes frameStep FrameWorld.channel Returned where
  idle := fun _ => by simp [Returned, keptNetbufs]
  append := by
    rintro first between last frame early late ⟨before, none⟩ ⟨after, some⟩
    rw [Returned, after, before, some, none]
    simp [keptNetbufs]
  refill := by
    intro world build answers next events refilled
    refine ⟨{ world with channel := next }, ?_, rfl, by simp [Returned, keptNetbufs]⟩
    change (refill build world.channel answers true >>= fun _ => _) >>= _ = _
    rw [refilled]
    rfl
  turn := by
    intro world build input result turned
    refine ⟨⟨result.channel, world.received ++ keptNetbufs result.fragments,
      world.returned ++ result.turn.frame.toList⟩, ?_, rfl, rfl, rfl⟩
    rw [frameStep, turned]
    rfl

/-- A receive call is a run of the system that returns the frame of the call. -/
theorem enaNetdevRxOne_frames {world : FrameWorld} {answers : Nat → Option Netbuf}
    {inputs : List RxInput} {result : Received}
    (returned : enaNetdevRxOne world.channel answers inputs = .ok result) :
    Calls frameStep FrameWorld.channel Returned world (callOps .unikraft answers inputs) result :=
  frameStep_observes.rxOne returned

theorem enaNetdevRxqRecv_frames {world : FrameWorld} {answers : Nat → Option Netbuf}
    {inputs : List RxInput} {result : Received} {running : Bool} {nbRxQueues : Nat}
    (returned : enaNetdevRxqRecv running nbRxQueues world.channel answers inputs = .ok result) :
    Calls frameStep FrameWorld.channel Returned world (callOps .host answers inputs) result :=
  frameStep_observes.rxqRecv returned

/-! ## Nothing survives a reset -/

def firstEpoch {α : Type} (mem : Nat → α) : EpochMem α := ⟨mem, fun _ => true⟩

theorem txEpochs_start {sqDepth cqDepth : UInt16}
    (built : enaRingAlloc qid .tx sqDepth cqDepth memory = .ok ring) (queue : Option TxQueue)
    (mem : TxMem) : TxEpochs ⟨⟨ring, queue⟩, firstEpoch mem, []⟩ := by
  have history := txHistory_start built queue
  obtain ⟨_, _, _, _, _, fresh⟩ := enaRingAlloc_ok built
  refine ⟨⟨_, history.tracks⟩, history.unlocked, ⟨0, ?_, fun _ _ => Or.inl rfl⟩, ?_⟩
  · rw [Cursor.after_zero, fresh]
    rfl
  · intro read member
    cases member

theorem rxEpochs_start {sqDepth cqDepth : UInt16}
    (built : enaRingAlloc qid .rx sqDepth cqDepth memory = .ok ring) (dropCb refillCb : Bool)
    (queue : Option RxQueue) (mem : RxMem) :
    RxEpochs ⟨⟨ring.withCallbacks dropCb refillCb, queue⟩, firstEpoch mem, []⟩ := by
  obtain ⟨_, _, _, _, _, fresh⟩ := enaRingAlloc_ok built
  refine ⟨⟨Ledger.empty, ?_⟩, ?_, ⟨0, ?_, fun _ _ => Or.inl rfl⟩, ?_⟩
  · change RxTracks (ring.withCallbacks dropCb refillCb) _
    rw [fresh]
    exact ⟨rfl, RxCustody.fresh ring.sqDepth⟩
  · change ring.ringLock = false
    rw [fresh]
    rfl
  · change ring.cqHead = _
    rw [Cursor.after_zero, fresh]
    rfl
  · intro read member
    cases member

theorem frameServed_start {depth : UInt16}
    (built : enaRingAlloc qid .rx depth depth memory = .ok ring) (allocRxpkts : Bool) (phys : Nat) :
    FrameServed phys ⟨.configured ring allocRxpkts phys, [], []⟩ :=
  ⟨rxConfigured_served built allocRxpkts phys False, List.Sublist.refl []⟩

/-- In every run in which no completion entry is readable in the first lap after
any reset and no frame is partial at any reset, no poll of a transmit ring or of
a receive ring consumes an entry from before a reset, and no frame returned after
a reset has a fragment from before it. -/
theorem nothing_survives_reset {qid : Nat} {sqDepth cqDepth depth : UInt16}
    {memory : Nat → Option Nat} {txRing rxRing netRing : Ring}
    (txBuilt : enaRingAlloc qid .tx sqDepth cqDepth memory = .ok txRing)
    (rxBuilt : enaRingAlloc qid .rx sqDepth cqDepth memory = .ok rxRing)
    (netBuilt : enaRingAlloc qid .rx depth depth memory = .ok netRing)
    (txQueue : Option TxQueue) (rxQueue : Option RxQueue) (dropCb refillCb allocRxpkts : Bool)
    (phys : Nat) (txMem : TxMem) (rxMem : RxMem) (txSteps : List (TxOp × Script TxCdesc))
    (rxSteps : List (RxOp × Script RxCdesc)) (netOps : List RxBounceOp)
    (txForgets : Meets txEpochStep TxForgets ⟨⟨txRing, txQueue⟩, firstEpoch txMem, []⟩ txSteps)
    (rxForgets : Meets rxEpochStep RxForgets
      ⟨⟨rxRing.withCallbacks dropCb refillCb, rxQueue⟩, firstEpoch rxMem, []⟩ rxSteps)
    (noPartial : Meets frameStep NoPartialFrame
      ⟨.configured netRing allocRxpkts phys, [], []⟩ netOps) :
    (∃ world, run txEpochStep ⟨⟨txRing, txQueue⟩, firstEpoch txMem, []⟩ txSteps = .ok world ∧
      NothingStale world) ∧
    (∃ world, run rxEpochStep
        ⟨⟨rxRing.withCallbacks dropCb refillCb, rxQueue⟩, firstEpoch rxMem, []⟩ rxSteps = .ok world ∧
      NothingStale world) ∧
    ∃ world, run frameStep ⟨.configured netRing allocRxpkts phys, [], []⟩ netOps = .ok world ∧
      FramesFresh world := by
  refine ⟨?_, ?_, ?_⟩
  · obtain ⟨world, ran, epochs⟩ := run_invariant TxForgets TxEpochs
      (fun _ step epochs forgets => txEpochStep_epochs epochs step forgets)
      (txEpochs_start txBuilt txQueue txMem) txForgets
    exact ⟨world, ran, epochs.stale⟩
  · obtain ⟨world, ran, epochs⟩ := run_invariant RxForgets RxEpochs
      (fun _ step epochs forgets => rxEpochStep_epochs epochs step forgets)
      (rxEpochs_start rxBuilt dropCb refillCb rxQueue rxMem) rxForgets
    exact ⟨world, ran, epochs.stale⟩
  · obtain ⟨world, ran, frames⟩ := run_invariant NoPartialFrame (FrameServed phys)
      (fun _ op frames whole => frameStep_served frames op whole)
      (frameServed_start netBuilt allocRxpkts phys) noPartial
    exact ⟨world, ran, (List.sublist_append_left _ _).trans frames.fresh⟩

/-- A transmit ring is used for two whole laps, so that the entries in memory have the
phase that the first lap after a reset does not read; after the reset one more
packet is sent. -/
def txAcrossReset : List (TxOp × Script TxCdesc) :=
  (.createHw 0 smallDevice willing 0, []) ::
    (List.range 8).flatMap (fun n =>
      [(.submit 0 (smallPkt n), [[(n % 4, ⟨n % 4, 0, if n < 4 then 1 else 0, 0, 0⟩)]]),
        (.poll 0 0 [] silentInput.settled, [])]) ++
    [(.reset 0, []), (.createHw 0 smallDevice willing 0, []),
      (.submit 0 (smallPkt 8), [[(0, ⟨0, 0, 1, 0, 0⟩)]]), (.poll 0 0 [] silentInput.settled, [])]

/-- The same of a receive ring. -/
def rxAcrossReset : List (RxOp × Script RxCdesc) :=
  (.createHw smallDevice willing 0, []) ::
    (List.range 8).flatMap (fun n =>
      [(.submitOne (some (emptyNetbuf n)) n 64,
          [[(n % 4, ⟨if n < 4 then 0x0D000000 else 0x0C000000, 60, n % 4, 0, 0, 0⟩)]]),
        (.poll 1 [] (completionsAt []), [])]) ++
    [(.reset, []), (.createHw smallDevice willing 0, []),
      (.submitOne (some (emptyNetbuf 8)) 8 64, [[(0, wholeFrame)]]),
      (.poll 1 [] (completionsAt []), [])]

/-- A frame of two fragments is returned before a reset, and another frame after it. -/
def framesAcrossReset : List RxBounceOp :=
  [.createHw smallDevice willing 0, .refillCount 2 .unikraft (provides 2),
    .turn .unikraft (quietInput [headPart, shortTail]),
    .turn .unikraft (quietInput [headPart, shortTail]), .reset,
    .createHw smallDevice willing 0, .refillCount 2 .unikraft (provides 2),
    .turn .unikraft (quietInput [wholeFrame])]

theorem nothing_survives_reset_traffic :
    (∃ world, run txEpochStep ⟨⟨smallTxRing, none⟩, firstEpoch silentInput.settled, []⟩
        txAcrossReset = .ok world ∧ NothingStale world ∧ world.reads.length = 9) ∧
    (∃ world, run rxEpochStep
        ⟨⟨smallRxRing.withCallbacks true true, none⟩, firstEpoch (completionsAt []), []⟩
        rxAcrossReset = .ok world ∧ NothingStale world ∧ world.reads.length = 9) ∧
    ∃ world, run frameStep ⟨.configured smallRxRing true 65536, [], []⟩ framesAcrossReset =
        .ok world ∧ FramesFresh world ∧ world.returned.length = 1 := by
  obtain ⟨⟨tx, txRan, txFresh⟩, ⟨rx, rxRan, rxFresh⟩, net, netRan, netFresh⟩ :=
    nothing_survives_reset smallTxRing_built smallRxRing_built smallRxRing_built none none true
      true true 65536 silentInput.settled (completionsAt []) txAcrossReset rxAcrossReset
      framesAcrossReset
      (meets_of_passes (fun _ _ => of_decide_eq_true) (by decide +kernel))
      (meets_of_passes (fun _ _ => of_decide_eq_true) (by decide +kernel))
      (meets_of_passes (fun _ _ => of_decide_eq_true) (by decide +kernel))
  have txReads : tx.reads.length = 9 :=
    observed_of_ok txRan (fun world => world.reads.length) (by decide +kernel)
  have rxReads : rx.reads.length = 9 :=
    observed_of_ok rxRan (fun world => world.reads.length) (by decide +kernel)
  have returned : net.returned.length = 1 :=
    observed_of_ok netRan (fun world => world.returned.length) (by decide +kernel)
  exact ⟨⟨tx, txRan, txFresh, txReads⟩, ⟨rx, rxRan, rxFresh, rxReads⟩, net, netRan, netFresh,
    returned⟩

/-- The device completes a packet right before a reset; the ring is created again
and a second packet is queued, and the next poll takes the old entry for its
completion.  A frame is partial at a reset, and the frame that is returned after
it begins with the old fragment. -/
theorem completion_and_fragment_survive_reset :
    (∃ world, run txEpochStep ⟨⟨smallTxRing, none⟩, firstEpoch silentInput.settled, []⟩
        [(.createHw 0 smallDevice willing 0, []), (.submit 0 (smallPkt 7), [[(0, ⟨0, 0, 1, 0, 0⟩)]]),
          (.reset 0, []), (.createHw 0 smallDevice willing 0, []), (.submit 0 (smallPkt 8), []),
          (.poll 0 0 [] silentInput.settled, [])] = .ok world ∧
      ¬ NothingStale world) ∧
    ∃ world, run frameStep ⟨.configured smallRxRing true 65536, [], []⟩
        [.createHw smallDevice willing 0, .refillCount 2 .unikraft (provides 2),
          .turn .unikraft (quietInput [headPart]), .reset, .createHw smallDevice willing 0,
          .refillCount 2 .unikraft (provides 2), .turn .unikraft (quietInput [wholeFrame])] =
          .ok world ∧
      ¬ FramesFresh world := by
  constructor
  · have observed : (run txEpochStep ⟨⟨smallTxRing, none⟩, firstEpoch silentInput.settled, []⟩
        [(.createHw 0 smallDevice willing 0, []), (.submit 0 (smallPkt 7), [[(0, ⟨0, 0, 1, 0, 0⟩)]]),
          (.reset 0, []), (.createHw 0 smallDevice willing 0, []), (.submit 0 (smallPkt 8), []),
          (.poll 0 0 [] silentInput.settled, [])]).toOption.map EpochWorld.reads =
        some [false] := by decide +kernel
    obtain ⟨world, ran, reads⟩ := ok_of_observed observed
    refine ⟨world, ran, ?_⟩
    intro stale
    have read := stale false
    rw [reads] at read
    cases read (List.mem_singleton.mpr rfl)
  · have observed : (run frameStep ⟨.configured smallRxRing true 65536, [], []⟩
        [.createHw smallDevice willing 0, .refillCount 2 .unikraft (provides 2),
          .turn .unikraft (quietInput [headPart]), .reset, .createHw smallDevice willing 0,
          .refillCount 2 .unikraft (provides 2),
          .turn .unikraft (quietInput [wholeFrame])]).toOption.map (fun world =>
            (world.received.length, world.returned.flatten.length)) = some (1, 2) := by
      decide +kernel
    obtain ⟨world, ran, seen⟩ := ok_of_observed observed
    obtain ⟨received, returned⟩ := Prod.mk.inj seen
    refine ⟨world, ran, ?_⟩
    intro fresh
    have shorter := fresh.length_le
    rw [received, returned] at shorter
    omega

end EnaDriver.Netdev
