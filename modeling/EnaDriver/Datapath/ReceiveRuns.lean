import EnaDriver.Datapath.ReceiveCalls
import EnaDriver.Datapath.QueueCreation

/-!
# Runs of a receive ring

Every operation on a receive ring, with any content of the completion queue and
any allocation callback, as one step of a system with a log of events.
-/

namespace EnaDriver.Datapath

open Support.Laps Support.Polling
open Support.Custody

/-! ## The system -/

inductive RxOp where
  | submitOne (netbuf : Option Netbuf) (physAddr bufLen : Nat)
  | refill (count : Nat) (alloc : AllocNetbuf)
  | poll (maxPkts : Nat) (changing : List RxMem) (settled : RxMem)
  | reset
  | createHw (dev : DeviceMap) (answers : AdminReq → Int × Response) (vector : Nat)
  | destroyHw (answers : AdminReq → Int × Response)

structure RxWorld where
  port : RxPort
  log : List Event

def postingLog (netbuf : Option Netbuf) (out : RxOutcome) : List Event :=
  match netbuf, out.reqId with
  | some nb, some reqId => [.rxPosted reqId nb]
  | _, _ => []

def rxApply (p : RxPort) : RxOp → Except Fault (RxPort × List Event)
  | .submitOne netbuf physAddr bufLen => do
    let out ← enaRxSubmitOne p.ring netbuf physAddr bufLen
    return ({ p with ring := out.ring }, postingLog netbuf out)
  | .refill count alloc => do
    let (_, next, events) ← enaRxRefill p count alloc
    return (next, events)
  | .poll maxPkts changing settled => do
    let polled ← enaRxPoll p maxPkts (pollViews p.ring changing settled)
    return (polled.port, polled.events)
  | .reset => do
    let (ring, events) ← enaAdapterInvalidateIoRing p.ring
    return ({ p with ring := ring }, events)
  | .createHw dev answers vector => do
    let (_, ring) ← createHwOn dev answers vector p.ring
    return ({ p with ring := ring }, [])
  | .destroyHw answers => do
    let (_, ring) ← destroyHwOn answers p.ring
    return ({ p with ring := ring }, [])

def rxStep (world : RxWorld) (op : RxOp) : Except Fault RxWorld := do
  let (port, events) ← rxApply world.port op
  return ⟨port, world.log ++ events⟩

def Ring.withCallbacks (r : Ring) (dropNetbufCb refillNetbuf : Bool) : Ring :=
  { r with dropNetbufCb := dropNetbufCb, refillNetbuf := refillNetbuf }

/-! ## A small ring -/

def smallRxRing : Ring := .fresh 0 .rx .four .four 4096 8192 0

theorem smallRxRing_built :
    enaRingAlloc 0 .rx 4 4 (fun i => some (4096 * i)) = .ok smallRxRing := rfl

def emptyNetbuf (addr : Nat) : Netbuf := ⟨addr, addr, 0, 64, addr, 0, 0, false, false, false⟩

/-- Completion memory with receptions in the first slots, each a whole frame in
the first lap, and nothing else. -/
def receptions (entries : List (Nat × Nat)) : RxMem := fun slot =>
  match entries[slot]? with
  | some (reqId, length) => ⟨0x0D000000, length, reqId, 0, 0, 0⟩
  | none => ⟨0, 0, 0, 0, 0, 0⟩

/-! ## Effects -/

def RxOp.isReset : RxOp → Bool
  | .reset => true
  | _ => false

def RxOp.isPoll : RxOp → Bool
  | .poll _ _ _ => true
  | _ => false

def RxOpAllows (r : Ring) : RxOp → RxLedger → RxAction → Prop
  | .submitOne _ _ _, ledger, action => AcceptOnly r.sqDepth.val ledger action
  | .refill _ _, ledger, action => AcceptOnly r.sqDepth.val ledger action
  | .poll _ _ _, ledger, action => ReleaseOnly ledger action
  | .reset, ledger, action => ReleaseOnly ledger action
  | .createHw _ _ _, _, _ => False
  | .destroyHw _, _, _ => False

/-- No poll finds a reception longer than its buffer. -/
def OpFits (p : RxPort) : RxOp → Prop
  | .poll maxPkts changing settled =>
    PollFits p.ring (Shows maxPkts p (pollViews p.ring changing settled))
  | _ => True

/-- Everything an operation can do, as seen by the ledger, the positions and the
marks. -/
structure RxEffect (p : RxPort) (op : RxOp) (ledger : RxLedger) (next : Ring)
    (events : List Event) : Prop where
  unlocked : next.ringLock = false
  sqDepth : next.sqDepth = p.ring.sqDepth
  cqDepth : next.cqDepth = p.ring.cqDepth
  acts : ∃ actions after, Steps (RxOpAllows p.ring op) ledger actions after ∧ RxTracks next after ∧
    posted events = entered actions ∧ given events = yielded some actions
  sent : ∀ count, p.ring.sqTail = Cursor.after p.ring.sqDepth count →
    next.sqTail = Cursor.after p.ring.sqDepth
      (if op.isReset then 0 else count + (posted events).length)
  done : ∀ count, p.ring.cqHead = Cursor.after p.ring.cqDepth count →
    next.cqHead = Cursor.after p.ring.cqDepth
      (if op.isReset then 0 else count + consumed events)
  agree : MarksAgree p.ring → OpFits p op → MarksAgree next ∧
    ∀ pkt ∈ received events, pkt.netbuf.isSome = true
  quiet : op.isPoll = false → received events = []

/-! ## The effect of each operation -/

section Effects

variable {p : RxPort} {ledger : RxLedger}

/-- An operation that changes the hardware part alone. -/
theorem RxEffect.unchanged (tracks : RxTracks p.ring ledger)
    (unlocked : p.ring.ringLock = false) {op : RxOp} (normal : op.isReset = false) (hw : HwQueue) :
    RxEffect p op ledger { p.ring with hw := hw } [] where
  unlocked := unlocked
  sqDepth := rfl
  cqDepth := rfl
  acts := ⟨[], ledger, .nil ledger, tracks, rfl, rfl⟩
  sent := by
    intro count located
    rw [normal]
    exact located
  done := by
    intro count located
    rw [normal]
    exact located
  agree := fun agree _ => ⟨agree, by simp [received]⟩
  quiet := fun _ => rfl

theorem RxEffect.posting {next : Ring} (tracks : RxTracks p.ring ledger) {op : RxOp}
    (normal : op.isReset = false)
    (allows : ∀ ledger action, AcceptOnly p.ring.sqDepth.val ledger action →
      RxOpAllows p.ring op ledger action)
    {events : List Event} (posts : RxPosts p.ring events next) (silent : RxSilent events)
    (unlocked : next.ringLock = false) : RxEffect p op ledger next events := by
  obtain ⟨⟨_, _, _, _, rfl⟩, ⟨actions, after, steps, tracked, entries⟩, moved, agree⟩ :=
    posts ledger tracks
  exact {
    unlocked := unlocked
    sqDepth := rfl
    cqDepth := rfl
    acts := ⟨actions, after, steps.mono allows, tracked, entries,
      silent.gives.trans (steps.yielded_of_accept some).symm⟩
    sent := by
      intro count located
      rw [normal]
      exact moved count located
    done := by
      intro count located
      rw [normal, silent.consumes]
      exact located
    agree := fun start _ => ⟨agree start, by simp [silent.receives]⟩
    quiet := fun _ => silent.receives }

theorem rxDrop_posted (r : Ring) (id : Nat) : posted (rxDrop r id).2 = [] := by
  unfold rxDrop
  simp only
  cases (r.rxBufs id).netbuf with
  | none => rfl
  | some nb =>
    simp only
    split <;> rfl

theorem rxIterates_posted {p last : RxPort} {views : List RxMem} {budget count total : Nat}
    {outputs : List Event}
    (iterates : Iterates rxPollEntry budget count p views total outputs last) :
    posted outputs = [] := by
  induction iterates with
  | stop reason => rfl
  | step more read later ih =>
    obtain ⟨_, _, entry⟩ := rxPollEntry_cases read
    rw [posted, List.filterMap_append, List.append_eq_nil_iff]
    refine ⟨?_, ih⟩
    cases entry with
    | skipped idle => rfl
    | dropped inFlight oversize => exact rxDrop_posted _ _
    | delivered inFlight fits => rfl

theorem enaRxPoll_posted {p : RxPort} {maxPkts : Nat} {views : List RxMem} {polled : RxPolled}
    (unlocked : p.ring.ringLock = false) (returned : enaRxPoll p maxPkts views = .ok polled) :
    posted polled.events = [] := by
  rcases enaRxPoll_cases unlocked returned with
    ⟨_, none, _⟩ | ⟨rcvd, last, outputs, iterates, _, rfl⟩
  · rw [none]
    rfl
  rw [posted, List.filterMap_append, List.append_eq_nil_iff]
  refine ⟨rxIterates_posted iterates, ?_⟩
  rcases enaRxReportHead_cases last.ring rcvd with report | ⟨_, _, report⟩ <;> rw [report] <;> rfl

theorem rxApply_effect (tracks : RxTracks p.ring ledger) (unlocked : p.ring.ringLock = false)
    {count : Nat} (located : p.ring.cqHead = Cursor.after p.ring.cqDepth count) (op : RxOp) :
    ∃ next events, rxApply p op = .ok (next, events) ∧
      RxEffect p op ledger next.ring events := by
  cases op with
  | submitOne netbuf physAddr bufLen =>
    obtain ⟨out, ran, outcome⟩ := enaRxSubmitOne_cases p.ring netbuf physAddr bufLen unlocked
    refine ⟨{ p with ring := out.ring }, postingLog netbuf out, ?_, ?_⟩
    · rw [rxApply, ran]
      rfl
    rcases outcome with ⟨_, refused, ring⟩ | ⟨nb, reqId, pool, rfl, found, _, taken, _, ring⟩
    · have quiet : postingLog netbuf out = [] := by
        cases netbuf <;> simp [postingLog, refused]
      rw [ring, quiet]
      exact RxEffect.unchanged tracks unlocked rfl p.ring.hw
    have one : postingLog (some nb) out = [.rxPosted reqId nb] := by
      simp [postingLog, taken]
    rw [ring, one]
    apply RxEffect.posting tracks rfl _ (rxSubmitted_posts found nb physAddr bufLen)
      (.cons ⟨rfl, rfl, rfl⟩ .nil) unlocked
    exact fun _ _ ok => ok
  | refill count alloc =>
    obtain ⟨next, events, ran, posts, silent, free⟩ :=
      enaRxRefill_posts p count alloc tracks unlocked
    refine ⟨next, events, ?_, ?_⟩
    · rw [rxApply, ran]
      rfl
    · apply RxEffect.posting tracks rfl _ posts silent free
      exact fun _ _ ok => ok
  | poll maxPkts changing settled =>
    obtain ⟨polled, ran⟩ := enaRxPoll_total maxPkts changing settled tracks unlocked located
    obtain ⟨reaped, free⟩ := enaRxPoll_reaps tracks unlocked ran
    obtain ⟨frame, ⟨actions, after, steps, tracked, gave⟩, moved⟩ := reaped ledger tracks
    have none := enaRxPoll_posted unlocked ran
    refine ⟨polled.port, polled.events, ?_, ?_⟩
    · rw [rxApply, ran]
      rfl
    exact {
      unlocked := free
      sqDepth := frame.depths.1
      cqDepth := frame.depths.2.1
      acts := ⟨actions, after, steps, tracked, none.trans steps.entered_of_release.symm, gave⟩
      sent := by
        intro count located
        rw [none, frame.depths.2.2]
        exact located
      done := moved
      agree := fun agree fits => enaRxPoll_agree tracks unlocked ran agree fits
      quiet := by simp [RxOp.isPoll] }
  | reset =>
    obtain ⟨txBufs, rxBufs, events, actions, ran, steps, tracked, gave, frees⟩ :=
      enaAdapterInvalidateIoRing_releases tracks unlocked
    refine ⟨{ p with ring := p.ring.emptied txBufs rxBufs }, events, ?_, ?_⟩
    · rw [rxApply, ran]
      rfl
    exact {
      unlocked := rfl
      sqDepth := rfl
      cqDepth := rfl
      acts := ⟨actions, _, steps, tracked,
        frees.silent.2.trans steps.entered_of_release.symm, gave⟩
      sent := fun count _ => (Cursor.after_zero _).symm
      done := fun count _ => (Cursor.after_zero _).symm
      agree := fun _ _ => ⟨fun _ => rfl, by simp [frees.silent.1]⟩
      quiet := fun _ => frees.silent.1 }
  | createHw dev answers vector =>
    obtain ⟨ret, hw, ran⟩ := createHwOn_hwOnly dev answers vector p.ring
    refine ⟨{ p with ring := { p.ring with hw := hw } }, [], ?_,
      RxEffect.unchanged tracks unlocked rfl hw⟩
    rw [rxApply, ran]
    rfl
  | destroyHw answers =>
    obtain ⟨ret, hw, ran⟩ := destroyHwOn_hwOnly answers p.ring
    refine ⟨{ p with ring := { p.ring with hw := hw } }, [], ?_,
      RxEffect.unchanged tracks unlocked rfl hw⟩
    rw [rxApply, ran]
    rfl

end Effects

end EnaDriver.Datapath
