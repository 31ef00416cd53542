import EnaDriver.Datapath.ResetEpochs
import EnaDriver.Datapath.TransmitPartition
import EnaDriver.Support.Completions

/-!
# The idle shortcut of the transmit poll

A transmit poll returns at once when every request id is free.  Requests that were
submitted and not completed hold their ids, and so do deferred releases.  A device
that posts at most one completion for each request has then nothing left in the
completion queue, and the poll without the shortcut returns the same result and
leaves the same ring.  This is a count of requests and completions: it needs
neither the order of completions nor a completion queue as deep as the submission
queue.
-/

namespace EnaDriver.Datapath

open Support.Laps Support.Windows Support.Polling
open Support.Custody Support.Completions Support.Runs

/-! ## The poll without its shortcut -/

/-- `ena_tx_poll_completions` without the check for a ring whose ids are all free. -/
def enaTxPollFull (p : TxPort) (cpu budget : Nat) (views : List TxMem) :
    Except Fault (Int × TxPort × List Event) :=
  if p.ring.ringType ≠ .tx then
    .ok (-EINVAL, p, [])
  else if p.ring.hw.valid = false then
    .ok (0, p, [])
  else do
    let budget := if budget = 0 then p.ring.cqDepth.val else budget
    let r ← enaRingLock p.ring
    let (r, drained) ← enaTxDrainForeignFrees r cpu
    let (cleaned, p, events) ←
      stillRunning (pollLoop (txPollEntry cpu) budget 0 { p with ring := r } views)
    return (cleaned, { p with ring := enaRingUnlock p.ring }, drained ++ events)

def Ring.Idle (r : Ring) : Prop := r.pool.freeReqCount = r.sqDepth.val

theorem enaTxPollFull_busy {p : TxPort} (cpu budget : Nat) (views : List TxMem)
    (busy : p.ring.pool.freeReqCount < p.ring.sqDepth.val) :
    enaTxPollFull p cpu budget views = enaTxPollCompletions p cpu budget views := by
  unfold enaTxPollFull enaTxPollCompletions
  rw [if_neg (Nat.not_le.mpr busy)]

/-- The shortcut is taken. -/
theorem enaTxPollCompletions_idle {p : TxPort} (cpu budget : Nat) (views : List TxMem)
    (transmit : p.ring.ringType = .tx) (idle : p.ring.Idle) :
    enaTxPollCompletions p cpu budget views = .ok (0, p, []) := by
  unfold enaTxPollCompletions
  rw [if_neg (not_not_intro transmit), if_pos (Nat.le_of_eq idle.symm)]
  split <;> rfl

/-- A stale entry under the consumer position ends a poll that has nothing to drain. -/
theorem enaTxPollFull_stale {p : TxPort} (cpu budget : Nat) {mem : TxMem} {views : List TxMem}
    (transmit : p.ring.ringType = .tx) (unlocked : p.ring.ringLock = false)
    (none : p.ring.txForeignCount = 0) (stale : (mem p.ring.cqSlot).phase ≠ p.ring.cqHead.phase) :
    enaTxPollFull p cpu budget (mem :: views) = .ok (0, p, []) := by
  have left : txPollEntry cpu { p with ring := { p.ring with ringLock := true } } mem = .none :=
    if_pos stale
  have positive : ¬ (if budget = 0 then p.ring.cqDepth.val else budget) ≤ 0 := by
    have depth := p.ring.cqDepth.pos
    split <;> omega
  unfold enaTxPollFull
  rw [if_neg (not_not_intro transmit)]
  split
  · rfl
  rw [enaRingLock_free unlocked]
  change (enaTxDrainForeignFrees { p.ring with ringLock := true } cpu >>= _) = _
  unfold enaTxDrainForeignFrees
  rw [if_pos none]
  change (stillRunning (pollLoop (txPollEntry cpu) _ 0
    { p with ring := { p.ring with ringLock := true } } (mem :: views)) >>= _) = _
  rw [pollLoop, if_neg positive, left]
  change Except.ok (_, { p with ring := enaRingUnlock { p.ring with ringLock := true } }, _) = _
  rw [enaRingUnlock_lock unlocked]
  rfl

/-! ## The system -/

/-- A transmit port, the number of requests submitted to it, and the completion
queue as the device has written it. -/
structure PolledWorld where
  port : TxPort
  submitted : Nat
  posts : Posts TxCdesc

/-- A step of a CPU or of the device.  The device also writes between the iterations
of a poll.  A full poll is one of a CPU that looked at the free ids before another
CPU changed them. -/
inductive PolledOp where
  | submit (cpu : Nat) (pkt : TxPkt)
  | llqPush (cpu : Nat) (pkt : TxPkt) (hdrData : Option (List UInt8)) (hdrLen : Nat)
  | poll (cpu budget : Nat) (script : List (List TxCdesc))
  | fullPoll (cpu budget : Nat) (script : List (List TxCdesc))
  | post (entry : TxCdesc)

namespace PolledWorld

def views (world : PolledWorld) (script : List (List TxCdesc)) : List TxMem :=
  pollViews world.port.ring
    ((world.posts.views world.port.ring.cqDepth TxCdesc.phase world.submitted script).map Posts.cq)
    (world.posts.after world.port.ring.cqDepth TxCdesc.phase world.submitted script).cq

def polled (world : PolledWorld) (port : TxPort) (script : List (List TxCdesc)) : PolledWorld :=
  { world with
    port := port
    posts := world.posts.after world.port.ring.cqDepth TxCdesc.phase world.submitted script }

def sent (world : PolledWorld) (out : TxOutcome) : PolledWorld :=
  { world with
    port := { world.port with ring := out.ring }
    submitted := world.submitted + out.reqId.toList.length }

end PolledWorld

def polledStep (world : PolledWorld) : PolledOp → Except Fault PolledWorld
  | .submit cpu pkt => do
    let out ← enaTxSubmit world.port.ring cpu pkt
    return world.sent out
  | .llqPush cpu pkt hdrData hdrLen => do
    let out ← enaLlqTxPush world.port.ring cpu pkt hdrData hdrLen
    return world.sent out
  | .poll cpu budget script => do
    let (_, port, _) ← enaTxPollCompletions world.port cpu budget (world.views script)
    return world.polled port script
  | .fullPoll cpu budget script => do
    let (_, port, _) ← enaTxPollFull world.port cpu budget (world.views script)
    return world.polled port script
  | .post entry => .ok { world with
      posts := world.posts.post world.port.ring.cqDepth TxCdesc.phase world.submitted entry }

def PolledWorld.start (port : TxPort) : PolledWorld := ⟨port, 0, ⟨fun _ => ⟨0, 0, 0, 0, 0⟩, 0⟩⟩

/-! ## Requests and completions -/

def Ring.inFlight (r : Ring) : Nat := (List.range r.sqDepth.val).countP r.pool.reqInFlight

/-- The consumer is not ahead of the device, the device is not ahead of the requests,
and every request is in flight or was completed by an entry consumed. -/
def Counted (sq cq : Depth) (submitted : Nat) (p : TxPort) (posts : Posts TxCdesc) : Prop :=
  ∃ done, TxAt sq cq p done ∧ done ≤ posts.count ∧ submitted ≤ done + p.ring.inFlight ∧
    Ahead cq TxCdesc.phase submitted posts

section Counting

variable {sq cq : Depth} {submitted : Nat} {p next : TxPort} {posts : Posts TxCdesc}

variable (counted : Counted sq cq submitted p posts)
include counted

theorem Counted.postAll (entries : List TxCdesc) :
    Counted sq cq submitted p (posts.postAll cq TxCdesc.phase submitted entries) := by
  obtain ⟨done, here, behind, balance, ahead⟩ := counted
  exact ⟨done, here, Nat.le_trans behind (count_le_postAll posts entries), balance,
    ahead.postAll entries⟩

/-- An iteration consumes an entry of the device, and completes one request at most. -/
theorem Counted.read {cpu added : Nat} {outputs : List Event}
    (read : txPollEntry cpu p posts.cq = some (added, next, outputs)) :
    Counted sq cq submitted next posts := by
  obtain ⟨done, here, behind, balance, ahead⟩ := counted
  obtain ⟨moved, _, _⟩ := txPollEntry_consumes here read
  obtain ⟨_, sqDepth, cqDepth, head⟩ := here
  obtain ⟨phase, bound, outcome⟩ := txPollEntry_cases read
  have more : done < posts.count := by
    refine Nat.lt_of_le_of_ne behind fun same => ?_
    rw [Ring.cqSlot, cqDepth, head, Cursor.slot_after] at phase
    apply ahead.here
    rw [← same]
    exact phase
  have fewer : p.ring.inFlight ≤ next.ring.inFlight + 1 := by
    unfold Ring.inFlight
    rw [moved.2.1, ← sqDepth]
    rcases outcome with ⟨_, _, ring, _⟩ | ⟨_, _, ring, _⟩
    · rw [ring]
      exact Nat.le_succ _
    have marks : next.ring.pool.reqInFlight =
        store p.ring.pool.reqInFlight (posts.cq p.ring.cqSlot).reqId false := by
      rw [ring]
      exact (txDispose_untouched (txAcknowledge p.ring (posts.cq p.ring.cqSlot)) cpu
        (posts.cq p.ring.cqSlot).reqId).marks
    have balanced := countP_store p.ring.pool.reqInFlight bound false
    rw [marks]
    simp only [Bool.false_eq_true, if_false] at balanced
    split at balanced <;> omega
  exact ⟨done + 1, moved, more, by omega, ahead⟩

/-- Releasing what was deferred to a CPU completes no request. -/
theorem Counted.drained {cpu : Nat} {drained : Ring} {first : List Event} {ledger : TxLedger}
    {named : Nat → Prop} (tracks : Tracks p.ring ledger)
    (drain : enaTxDrainForeignFrees { p.ring with ringLock := true } cpu = .ok (drained, first))
    (reaped : Reaps cpu named { p.ring with ringLock := true } first drained) :
    Counted sq cq submitted { p with ring := drained } posts := by
  obtain ⟨done, ⟨_, sqDepth, cqDepth, head⟩, behind, balance, ahead⟩ := counted
  have located : p.ring.cqHead = Cursor.after p.ring.cqDepth done := by
    rw [cqDepth]
    exact head
  have here := TxAt.drained tracks located drain reaped
  rw [sqDepth, cqDepth] at here
  have tracked : Tracks { p.ring with ringLock := true } ledger := tracks
  have untouched := enaTxDrainForeignFrees_untouched tracked drain
  have same : drained.inFlight = p.ring.inFlight := by
    unfold Ring.inFlight
    rw [untouched.marks, untouched.sqDepth]
  exact ⟨done, here, behind, by rw [← same] at balance; exact balance, ahead⟩

/-- A submission is refused, or adds a request in flight. -/
theorem Counted.submitted_one {cpu reqId : Nat} {pkt : TxPkt} {pool : RequestPool} {ring : Ring}
    (found : enaRingReqIdAlloc p.ring.sqDepth p.ring.pool = some (reqId, pool))
    (queued : ring = txSubmitted p.ring cpu pkt reqId pool ∨ ring = llqPushed p.ring pkt reqId pool) :
    Counted sq cq (submitted + 1) { p with ring := ring } posts := by
  obtain ⟨done, ⟨⟨ledger, tracks⟩, sqDepth, cqDepth, head⟩, behind, balance, ahead⟩ := counted
  obtain ⟨isFree, bound, tracked⟩ := txTrack_tracks tracks found cpu pkt
  obtain ⟨_, _, _, _, flags, _, _⟩ := RequestPool.alloc_cases tracks.2.sound found
  have idle : p.ring.pool.reqInFlight reqId = false := by
    rw [tracks.2.inFlight, isFree]
    rfl
  have fields : Tracks ring (store ledger reqId (.active ⟨pkt.netbuf, cpu⟩)) ∧
      ring.sqDepth = p.ring.sqDepth ∧ ring.cqDepth = p.ring.cqDepth ∧ ring.cqHead = p.ring.cqHead ∧
      ring.pool.reqInFlight = store p.ring.pool.reqInFlight reqId true := by
    rcases queued with same | same
    · rw [same]
      exact ⟨tracked, rfl, rfl, rfl, congrArg (store · reqId true) flags⟩
    · rw [same]
      exact ⟨tracked, rfl, rfl, rfl, congrArg (store · reqId true) flags⟩
  have counted := countP_store p.ring.pool.reqInFlight bound true
  rw [idle, if_neg Bool.false_ne_true, if_pos rfl, Nat.add_zero] at counted
  have grown : ring.inFlight = p.ring.inFlight + 1 := by
    unfold Ring.inFlight
    rw [fields.2.2.2.2, fields.2.1]
    exact counted
  refine ⟨done, ⟨⟨_, fields.1⟩, fields.2.1.trans sqDepth, fields.2.2.1.trans cqDepth,
    fields.2.2.2.1.trans head⟩, behind, ?_, ahead.mono (Nat.le_succ _)⟩
  change submitted + 1 ≤ done + ring.inFlight
  omega

end Counting

/-! ## Idle rings -/

section Idle

variable {r : Ring} {ledger : TxLedger}

theorem Tracks.free_of_idle (tracks : Tracks r ledger) (idle : r.Idle) (id : Nat) :
    (ledger id).item? = none := by
  cases held : (ledger id).item? with
  | none => rfl
  | some item =>
    have count := tracks.2.sound.count_lt (tracks.2.lt held) (tracks.2.owned held)
    unfold Ring.Idle at idle
    omega

theorem Tracks.inFlight_of_idle (tracks : Tracks r ledger) (idle : r.Idle) : r.inFlight = 0 := by
  refine List.countP_eq_zero.mpr fun id _ => ?_
  have free := tracks.free_of_idle idle id
  rw [tracks.2.inFlight]
  cases status : ledger id with
  | free => exact Bool.false_ne_true
  | active item =>
    rw [status] at free
    cases free
  | parked item keeper => exact Bool.false_ne_true

theorem Tracks.foreign_of_idle (tracks : Tracks r ledger) (idle : r.Idle) : r.txForeignCount = 0 := by
  by_contra some
  have member : r.txForeign 0 ∈ r.foreign :=
    List.mem_map.mpr ⟨0, List.mem_range.mpr (Nat.pos_of_ne_zero some), rfl⟩
  obtain ⟨item, parked⟩ := (tracks.2.parked (r.txForeign 0).reqId (r.txForeign 0).ownerCpu).mp member
  have free := tracks.free_of_idle idle (r.txForeign 0).reqId
  rw [parked] at free
  cases free

end Idle

structure Balanced (world : PolledWorld) : Prop where
  unlocked : world.port.ring.ringLock = false
  counted : Counted world.port.ring.sqDepth world.port.ring.cqDepth world.submitted world.port
    world.posts

/-- What makes the shortcut of a poll unobservable. -/
structure NothingToReap (world : PolledWorld) : Prop where
  stale : (world.posts.cq world.port.ring.cqSlot).phase ≠ world.port.ring.cqHead.phase
  foreign : world.port.ring.txForeignCount = 0
  answered : world.posts.count = world.submitted

namespace Balanced

variable {world : PolledWorld}

theorem nothingToReap (balanced : Balanced world) (idle : world.port.ring.Idle) :
    NothingToReap world := by
  obtain ⟨done, ⟨⟨ledger, tracks⟩, _, _, head⟩, behind, balance, ahead⟩ := balanced.counted
  have none := tracks.inFlight_of_idle idle
  have bounded := ahead.bounded
  have level : done = world.posts.count := by omega
  refine ⟨?_, tracks.foreign_of_idle idle, by omega⟩
  rw [Ring.cqSlot, head, Cursor.slot_after, level]
  exact ahead.here

/-- With nothing to reap the device writes nothing and a full poll changes nothing. -/
theorem fullPoll_idle (balanced : Balanced world) (idle : world.port.ring.Idle) (cpu budget : Nat)
    (script : List (List TxCdesc)) :
    enaTxPollFull world.port cpu budget (world.views script) = .ok (0, world.port, []) ∧
      world.polled world.port script = world := by
  have reaped := balanced.nothingToReap idle
  obtain ⟨_, ⟨⟨_, tracks⟩, _⟩, _⟩ := balanced.counted
  constructor
  · have same : world.views script =
        world.posts.cq :: List.replicate (script.length + world.port.ring.cqDepth.val)
          world.posts.cq := by
      rw [PolledWorld.views, pollViews, views_full reaped.answered, after_full reaped.answered,
        List.map_replicate, List.replicate_append_replicate, ← Nat.add_assoc, List.replicate_succ]
    rw [same]
    exact enaTxPollFull_stale cpu budget tracks.1 balanced.unlocked reaped.foreign reaped.stale
  · rw [PolledWorld.polled, after_full reaped.answered]

theorem poll (balanced : Balanced world) (cpu budget : Nat) (script : List (List TxCdesc)) :
    ∃ ret port events,
      enaTxPollCompletions world.port cpu budget (world.views script) = .ok (ret, port, events) ∧
      Balanced (world.polled port script) := by
  obtain ⟨done, ⟨⟨ledger, tracks⟩, _, _, head⟩, _⟩ := balanced.counted
  obtain ⟨ret, port, events, ran⟩ := enaTxPollCompletions_total cpu budget
    ((world.posts.views world.port.ring.cqDepth TxCdesc.phase world.submitted script).map Posts.cq)
    (world.posts.after world.port.ring.cqDepth TxCdesc.phase world.submitted script).cq tracks
    balanced.unlocked head
  refine ⟨ret, port, events, ran, ?_⟩
  rcases enaTxPollCompletions_cases tracks balanced.unlocked ran with
    ⟨rfl, _, _⟩ | ⟨drained, first, cleaned, last, rest, drain, reaped, looped, rfl, _⟩
  · refine ⟨balanced.unlocked, ?_⟩
    exact after_keeps (Counted _ _ world.submitted world.port) (fun entries kept => kept.postAll entries)
      balanced.counted script
  have started := balanced.counted.drained tracks drain reaped
  obtain ⟨reached, here, behind, balance, ahead⟩ := iterates_posts
    (Counted world.port.ring.sqDepth world.port.ring.cqDepth world.submitted)
    (fun entries kept => kept.postAll entries) (fun kept read => kept.read read) started
    (pollLoop_iterates looped)
  obtain ⟨tracked, sqDepth, cqDepth, located⟩ := here
  refine ⟨rfl, ?_⟩
  change Counted last.ring.sqDepth last.ring.cqDepth world.submitted _ _
  rw [sqDepth, cqDepth]
  exact ⟨reached, ⟨tracked, sqDepth, cqDepth, located⟩, behind, balance, ahead⟩

/-- A refused or an accepted submission keeps the balance. -/
theorem sent (balanced : Balanced world) (cpu : Nat) (pkt : TxPkt) {out : TxOutcome}
    (outcome : (out.reqId = none ∧ out.ring = world.port.ring) ∨ ∃ reqId pool,
      enaRingReqIdAlloc world.port.ring.sqDepth world.port.ring.pool = some (reqId, pool) ∧
        out.reqId = some reqId ∧ (out.ring = txSubmitted world.port.ring cpu pkt reqId pool ∨
          out.ring = llqPushed world.port.ring pkt reqId pool)) :
    Balanced (world.sent out) := by
  rcases outcome with ⟨none, same⟩ | ⟨reqId, pool, found, given, queued⟩
  · unfold PolledWorld.sent
    rw [none, same]
    exact balanced
  obtain ⟨done, ⟨tracks, sqDepth, cqDepth, head⟩, rest⟩ :=
    balanced.counted.submitted_one found queued
  have unlocked : out.ring.ringLock = false := by
    rcases queued with same | same <;> (rw [same]; exact balanced.unlocked)
  unfold PolledWorld.sent
  rw [given]
  refine ⟨unlocked, ?_⟩
  change Counted out.ring.sqDepth out.ring.cqDepth (world.submitted + 1) _ _
  rw [sqDepth, cqDepth]
  exact ⟨done, ⟨tracks, sqDepth, cqDepth, head⟩, rest⟩

theorem step (balanced : Balanced world) (op : PolledOp) :
    ∃ next, polledStep world op = .ok next ∧ Balanced next := by
  cases op with
  | submit cpu pkt =>
    obtain ⟨out, ran, _, outcome⟩ := enaTxSubmit_cases world.port.ring cpu pkt balanced.unlocked
    refine ⟨world.sent out, by rw [polledStep, ran]; rfl, balanced.sent cpu pkt ?_⟩
    rcases outcome with ⟨_, none, ring⟩ | ⟨reqId, pool, found, _, given, _, _, ring⟩
    · exact .inl ⟨none, ring⟩
    · exact .inr ⟨reqId, pool, found, given, .inl ring⟩
  | llqPush cpu pkt hdrData hdrLen =>
    obtain ⟨out, ran, _, outcome⟩ :=
      enaLlqTxPush_cases world.port.ring cpu pkt hdrData hdrLen balanced.unlocked
    refine ⟨world.sent out, by rw [polledStep, ran]; rfl, balanced.sent cpu pkt ?_⟩
    rcases outcome with ⟨_, none, ring⟩ | ⟨reqId, pool, found, _, given, ring⟩
    · exact .inl ⟨none, ring⟩
    · exact .inr ⟨reqId, pool, found, given, ring⟩
  | poll cpu budget script =>
    obtain ⟨ret, port, events, ran, kept⟩ := balanced.poll cpu budget script
    exact ⟨_, by rw [polledStep, ran]; rfl, kept⟩
  | fullPoll cpu budget script =>
    by_cases idle : world.port.ring.Idle
    · obtain ⟨ran, same⟩ := balanced.fullPoll_idle idle cpu budget script
      exact ⟨world, by rw [polledStep, ran]; exact congrArg Except.ok same, balanced⟩
    obtain ⟨_, ⟨⟨_, tracks⟩, _⟩, _⟩ := balanced.counted
    have busy := Nat.lt_of_le_of_ne tracks.2.sound.count_le idle
    obtain ⟨ret, port, events, ran, kept⟩ := balanced.poll cpu budget script
    rw [← enaTxPollFull_busy cpu budget _ busy] at ran
    exact ⟨_, by rw [polledStep, ran]; rfl, kept⟩
  | post entry =>
    exact ⟨_, rfl, balanced.unlocked, balanced.counted.postAll [entry]⟩

theorem start {qid : Nat} {sqDepth cqDepth : UInt16} {memory : Nat → Option Nat} {ring : Ring}
    (built : enaRingAlloc qid .tx sqDepth cqDepth memory = .ok ring) (hw : HwQueue)
    (queue : Option TxQueue) : Balanced (.start ⟨{ ring with hw := hw }, queue⟩) := by
  obtain ⟨_, _, _, _, _, fresh⟩ := enaRingAlloc_ok built
  have tracks : Tracks { ring with hw := hw } Ledger.empty := by
    rw [fresh]
    exact ⟨rfl, TxCustody.fresh ring.sqDepth⟩
  have head : ring.cqHead = Cursor.after ring.cqDepth 0 := by
    rw [Cursor.after_zero, fresh]
    rfl
  refine ⟨?_, 0, ⟨⟨_, tracks⟩, rfl, rfl, head⟩, Nat.le_refl 0, Nat.zero_le _, ahead_fresh rfl⟩
  change ring.ringLock = false
  rw [fresh]
  rfl

end Balanced

/-- In every state that a transmit ring reaches from its creation without a reset,
with any CPUs that submit and poll and a device that posts no more completions than
there are requests: where every id is free, the entry under the consumer position is
stale and no release is deferred, and a poll with its shortcut and one without return
the same and leave the same ring. -/
theorem idle_shortcut_unobservable {qid : Nat} {sqDepth cqDepth : UInt16}
    {memory : Nat → Option Nat} {ring : Ring}
    (built : enaRingAlloc qid .tx sqDepth cqDepth memory = .ok ring) (hw : HwQueue)
    (queue : Option TxQueue) (ops : List PolledOp) :
    ∃ world, run polledStep (.start ⟨{ ring with hw := hw }, queue⟩) ops = .ok world ∧
      (world.port.ring.pool.freeReqCount = world.port.ring.sqDepth.val →
        (world.posts.cq world.port.ring.cqSlot).phase ≠ world.port.ring.cqHead.phase ∧
        world.port.ring.txForeignCount = 0 ∧
        ∀ cpu budget script,
          enaTxPollCompletions world.port cpu budget (world.views script) = .ok (0, world.port, []) ∧
          enaTxPollFull world.port cpu budget (world.views script) = .ok (0, world.port, [])) := by
  obtain ⟨world, ran, balanced⟩ := run_invariant (fun _ _ => True) Balanced
    (fun _ op kept _ => kept.step op) (Balanced.start built hw queue)
    (meets_of_forall (fun _ _ => trivial) _ ops)
  refine ⟨world, ran, fun idle => ?_⟩
  have reaped := balanced.nothingToReap idle
  obtain ⟨_, ⟨⟨_, tracks⟩, _⟩, _⟩ := balanced.counted
  refine ⟨reaped.stale, reaped.foreign, fun cpu budget script => ?_⟩
  exact ⟨enaTxPollCompletions_idle cpu budget _ tracks.1 idle,
    (balanced.fullPoll_idle idle cpu budget script).1⟩

/-- A packet that is sent on one CPU and completed on another, whose release is
deferred to the first. -/
def sentElsewhere : List PolledOp :=
  [.submit 0 (smallPkt 4096), .post ⟨0, 0, 1, 0, 0⟩, .fullPoll 1 0 [], .poll 0 0 []]

theorem idle_shortcut_unobservable_deferred :
    ∃ world, run polledStep (.start ⟨smallTxRing, none⟩) sentElsewhere = .ok world ∧
      world.port.ring.pool.freeReqCount = world.port.ring.sqDepth.val ∧
      (world.posts.cq world.port.ring.cqSlot).phase ≠ world.port.ring.cqHead.phase ∧
      world.port.ring.txForeignCount = 0 ∧
      ∀ cpu budget script,
        enaTxPollCompletions world.port cpu budget (world.views script) = .ok (0, world.port, []) ∧
        enaTxPollFull world.port cpu budget (world.views script) = .ok (0, world.port, []) := by
  obtain ⟨world, ran, shown⟩ :=
    idle_shortcut_unobservable smallTxRing_built smallTxRing.hw none sentElsewhere
  have observed : (run polledStep (.start ⟨smallTxRing, none⟩) sentElsewhere).toOption.map
      (fun world => decide (world.port.ring.pool.freeReqCount = world.port.ring.sqDepth.val)) =
        some true := by
    decide +kernel
  have same : run polledStep (.start ⟨smallTxRing, none⟩) sentElsewhere = .ok world := ran
  rw [same] at observed
  have idle := of_decide_eq_true (Option.some.inj observed)
  exact ⟨world, same, idle, shown idle⟩

end EnaDriver.Datapath
