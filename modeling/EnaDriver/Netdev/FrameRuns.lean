import EnaDriver.Netdev.Reassembly
import EnaDriver.Datapath.ReceiveRuns

/-!
# Runs of receive calls

Both receive functions refill the queue and take turns until a frame is complete
or the ring is empty.  In every run of receive calls and refills in which only
last fragments are dropped, the chains returned are the intact frames of the
device, in its order.
-/

namespace EnaDriver.Netdev

open Support.Laps Support.Custody Support.Runs
open Support.Segments
open Datapath

/-! ## Receive calls -/

/-- The device keeps to its stream. -/
def HonestTurn (stream : List RxCdesc) (c : RxChannel) (n : Nat) (input : RxInput) : Prop :=
  HonestPoll stream n c.ring (Shows 1 c.port (pollViews c.ring input.changing input.settled))

/-- The device keeps to its stream, and the driver drops last fragments only. -/
def TurnAllows (stream : List RxCdesc) (c : RxChannel) (n : Nat) (input : RxInput) : Prop :=
  HonestTurn stream c n input ∧ DropsLast c (pollViews c.ring input.changing input.settled)

/-- Every turn of a receive loop meets a condition on the channel and on the
number of entries consumed before it. -/
def TurnsMeet (build : Build) (guard : RxChannel → Nat → RxInput → Prop) :
    RxChannel → Nat → List RxInput → Prop
  | _, _, [] => True
  | c, n, input :: inputs =>
    guard c n input ∧ ∀ result, rxTurn build c input = .ok result → result.turn = .again →
      TurnsMeet build guard result.channel (n + result.fragments.length) inputs

def NetWorld.after (world : NetWorld) (received : Received) : NetWorld :=
  ⟨received.channel, world.fragments ++ received.fragments,
    world.returned ++ received.frame.toList, world.log ++ received.events⟩

variable {d : Depth} {frames : List (List RxCdesc)} {ledger : RxLedger} {world : NetWorld}

theorem Follows.consumed_le (history : Follows frames d world ledger) :
    world.fragments.length ≤ frames.flatten.length := by
  have shorter := history.follows.length_le
  rwa [List.length_map] at shorter

/-- The loop of a receive call.  Every turn before the last consumes an entry, so
the loop ends within the stream. -/
theorem Follows.recvLoop (formed : ∀ frame ∈ frames, WellFormed frame)
    (history : Follows frames d world ledger) (build : Build) {inputs : List RxInput}
    (enough : frames.flatten.length < world.fragments.length + inputs.length)
    (meets : TurnsMeet build (TurnAllows frames.flatten) world.channel world.fragments.length
      inputs) :
    ∃ received, Netdev.recvLoop build world.channel inputs = .ok received ∧
      ∃ after, Follows frames d (world.after received) after := by
  induction inputs generalizing world ledger with
  | nil =>
    have shorter := history.consumed_le
    rw [List.length_nil] at enough
    omega
  | cons input inputs ih =>
    obtain ⟨⟨honest, drops⟩, rest⟩ := meets
    obtain ⟨result, turned, ⟨between, middle⟩, progress⟩ :=
      history.turn formed build honest drops
    cases ends : result.turn with
    | done status frame =>
      refine ⟨⟨status, frame, result.channel, result.events, result.fragments⟩, ?_,
        between, ?_⟩
      · simp only [Netdev.recvLoop, turned, bind, Except.bind, ends]
        rfl
      · rw [ends] at middle
        exact middle
    | again =>
      have more : 0 < result.fragments.length := List.length_pos_iff.mpr (progress ends)
      obtain ⟨received, looped, after, final⟩ := ih middle
        (by
          simp only [List.length_append, List.length_cons] at enough ⊢
          omega)
        (by
          have next := rest result turned ends
          rwa [← List.length_append] at next)
      refine ⟨{ received with
        events := result.events ++ received.events
        fragments := result.fragments ++ received.fragments }, ?_, after, ?_⟩
      · simp only [Netdev.recvLoop, turned, bind, Except.bind, ends, looped]
        rfl
      · simp only [NetWorld.after, ends, Turn.frame, Option.toList_none, List.append_nil,
          List.append_assoc] at final ⊢
        exact final

/-- A refill and the receive loop after it. -/
theorem Follows.receive (formed : ∀ frame ∈ frames, WellFormed frame)
    (history : Follows frames d world ledger) (build : Build) {answers : Nat → Option Netbuf}
    {inputs : List RxInput}
    (enough : frames.flatten.length < world.fragments.length + inputs.length)
    (meets : ∀ c events, Netdev.refill build world.channel answers true = .ok (c, events) →
      TurnsMeet build (TurnAllows frames.flatten) c world.fragments.length inputs) :
    ∃ c events received, Netdev.refill build world.channel answers true = .ok (c, events) ∧
      Netdev.recvLoop build c inputs = .ok received ∧
      ∃ after, Follows frames d
        (world.after { received with events := events ++ received.events }) after := by
  obtain ⟨c, events, between, refilled, middle⟩ := history.refill build answers true
  obtain ⟨received, looped, after, final⟩ :=
    middle.recvLoop formed build enough (meets c events refilled)
  refine ⟨c, events, received, refilled, looped, after, ?_⟩
  simp only [NetWorld.after, List.append_assoc] at final ⊢
  exact final

inductive NetOp where
  | refill (build : Build) (answers : Nat → Option Netbuf) (counts : Bool)
  | rxOne (answers : Nat → Option Netbuf) (inputs : List RxInput)
  | rxqRecv (running : Bool) (nbRxQueues : Nat) (answers : Nat → Option Netbuf)
      (inputs : List RxInput)

def netStep (world : NetWorld) : NetOp → Except Fault NetWorld
  | .refill build answers counts => do
    let (c, events) ← refill build world.channel answers counts
    return { world with channel := c, log := world.log ++ events }
  | .rxOne answers inputs => do
    let received ← enaNetdevRxOne world.channel answers inputs
    return world.after received
  | .rxqRecv running nbRxQueues answers inputs => do
    let received ← enaNetdevRxqRecv running nbRxQueues world.channel answers inputs
    return world.after received

/-- The turns of a receive call, which is given an input for each turn it may
take, meet a condition. -/
def CallMeets (guard : RxChannel → Nat → RxInput → Prop) (stream : List RxCdesc)
    (world : NetWorld) (build : Build) (answers : Nat → Option Netbuf) (inputs : List RxInput) :
    Prop :=
  stream.length < world.fragments.length + inputs.length ∧
    ∀ c events, refill build world.channel answers true = .ok (c, events) →
      TurnsMeet build guard c world.fragments.length inputs

def OpMeets (guard : RxChannel → Nat → RxInput → Prop) (stream : List RxCdesc)
    (world : NetWorld) : NetOp → Prop
  | .refill _ _ _ => True
  | .rxOne answers inputs => CallMeets guard stream world .unikraft answers inputs
  | .rxqRecv running nbRxQueues answers inputs =>
    running = true → world.channel.queue.queueId < nbRxQueues →
      world.channel.queue.queueId < maxQueues →
      CallMeets guard stream world .host answers inputs

theorem Follows.step (formed : ∀ frame ∈ frames, WellFormed frame)
    (history : Follows frames d world ledger) (op : NetOp)
    (meets : OpMeets (TurnAllows frames.flatten) frames.flatten world op) :
    ∃ next, netStep world op = .ok next ∧ ∃ after, Follows frames d next after := by
  cases op with
  | refill build answers counts =>
    obtain ⟨c, events, after, ran, extended⟩ := history.refill build answers counts
    refine ⟨_, ?_, after, extended⟩
    simp only [netStep, ran]
    rfl
  | rxOne answers inputs =>
    obtain ⟨c, events, received, refilled, looped, extended⟩ :=
      history.receive formed .unikraft meets.1 meets.2
    refine ⟨_, ?_, extended⟩
    change enaNetdevRxRefillHelper world.channel answers = .ok (c, events) at refilled
    simp only [netStep, enaNetdevRxOne, refilled, looped, bind, Except.bind]
    rfl
  | rxqRecv running nbRxQueues answers inputs =>
    by_cases ready : running = false
    · refine ⟨_, by simp only [netStep, enaNetdevRxqRecv, if_pos ready]; rfl, ledger, ?_⟩
      simpa [NetWorld.after] using history
    by_cases beyond : nbRxQueues ≤ world.channel.queue.queueId ∨
        maxQueues ≤ world.channel.queue.queueId
    · refine ⟨_, by
        simp only [netStep, enaNetdevRxqRecv, if_neg ready, if_pos beyond]
        rfl, ledger, ?_⟩
      simpa [NetWorld.after] using history
    obtain ⟨enough, turns⟩ := meets (Bool.of_not_eq_false ready) (by omega) (by omega)
    obtain ⟨c, events, received, refilled, looped, extended⟩ :=
      history.receive formed .host enough turns
    refine ⟨_, ?_, extended⟩
    change hostRefill world.channel answers true = .ok (c, events) at refilled
    simp only [netStep, enaNetdevRxqRecv, if_neg ready, if_neg beyond, refilled, looped,
      bind, Except.bind]
    rfl

/-! ## Main result -/

def NetWorld.start (ring : Ring) (queue : RxQueue) : NetWorld := ⟨⟨ring, queue⟩, [], [], []⟩

def smallRxQueue : RxQueue := ⟨0, true, none, none, []⟩

def smallStart : NetWorld :=
  .start { smallRxRing.withCallbacks true true with hw := .fresh } smallRxQueue

def completionsAt (entries : List RxCdesc) : RxMem := fun slot =>
  entries.getD slot ⟨0, 0, 0, 0, 0, 0⟩

def provides (count : Nat) : Nat → Option Netbuf := fun call =>
  if call < count then some (emptyNetbuf (call + 7)) else none

def smallRefilled (count : Nat) : RxChannel :=
  match refill .unikraft smallStart.channel (provides count) true with
  | .ok (c, _) => c
  | .error _ => smallStart.channel

theorem smallRefilled_eq {count : Nat} {c : RxChannel} {events : List Event}
    (refilled : refill .unikraft smallStart.channel (provides count) true = .ok (c, events)) :
    c = smallRefilled count := by
  rw [smallRefilled, refilled]

/-- A turn over memory that does not change, without netbufs for its refill. -/
def quietInput (entries : List RxCdesc) : RxInput :=
  ⟨[], completionsAt entries, fun _ => none, completionsAt entries⟩

def wholeFrame : RxCdesc := ⟨0x0D000000, 60, 0, 0, 0, 0⟩

def headPart : RxCdesc := ⟨0x05000000, 60, 0, 0, 0, 0⟩

def shortTail : RxCdesc := ⟨0x09000000, 60, 1, 0, 0, 0⟩

def thirdFrame : RxCdesc := { wholeFrame with reqId := 2 }

end EnaDriver.Netdev
