import EnaDriver.Netdev.TransmitBounce

/-!
# Transmit calls statement by statement

A transmit call holds the ring lock while it reaps completions and while it
queues its packet, and holds no lock around the bookkeeping of its bounce slot.
Here every critical section and every statement that touches shared data is one
step.  Between two steps another core may poll the ring, and the device may
write its completion memory.
-/

namespace EnaDriver.Netdev

open Support.Windows
open Support.Runs
open Datapath

structure XmitCall where
  build : Build
  cpu : Nat
  frame : TxFrame
  stale : List UInt8

/-- The next statement of the transmitting core, with the local variables that
are still needed. -/
inductive XmitPc where
  | idle
  | reap (call : XmitCall)
  | stall (call : XmitCall)
  | bump (call : XmitCall)
  | reserve (call : XmitCall)
  | pick (call : XmitCall)
  | advance (call : XmitCall) (slot : Nat)
  | take (call : XmitCall) (slot : Nat)
  | markTaken (call : XmitCall) (slot : Nat)
  | submit (call : XmitCall) (slot : Option Nat)
  | doorbell (slot : Option Nat) (reqId : Nat)
  | record (slot reqId : Nat)
  | label (reqId : Nat)
  | calm
  | markKept
  | refuse
  | drop (slot : Option Nat)
  | putId (slot : Nat)
  | putTail
  | putCount
  | markBack

structure RaceWorld where
  channel : TxChannel
  mem : TxMem
  pc : XmitPc

def TxChannel.mapPool (c : TxChannel) (change : BouncePool → BouncePool) : TxChannel :=
  { c with queue := { c.queue with bounce := c.queue.bounce.map change } }

/-- Assign `bounce_in_use`. -/
def TxChannel.markInUse (c : TxChannel) : TxChannel :=
  { c with queue := { c.queue with
    bounceInUse := c.queue.bounce.any fun pool => decide (pool.freeCount < pool.nbDesc.val) } }

def TxChannel.countDropped (c : TxChannel) : TxChannel :=
  { c with ring := { c.ring with txDropped := (c.ring.txDropped + 1) % 2 ^ 64 } }

def submitSection (r : Ring) (cpu : Nat) (pkt : TxPkt) (hdrData : Option (List UInt8)) :
    Except Fault TxOutcome :=
  if r.hw.isLlq then
    let maxHdr := if r.hw.llqHeaderLen = 0 then 96 else r.hw.llqHeaderLen
    enaLlqTxPush r cpu pkt hdrData (min pkt.len maxHdr % 2 ^ 16)
  else enaTxSubmit r cpu pkt

def afterStall (call : XmitCall) (q : TxQueue) : XmitPc :=
  match q.bounce with
  | none => .reserve call
  | some pool =>
    if pool.freeCount = 0 ∧ q.bounceWaitPolls < txBounceStallLimit then .bump call
    else .reserve call

/-- What follows the test of the bus address, of the free count and of the length. -/
def afterReserve (call : XmitCall) (q : TxQueue) : XmitPc :=
  if dmaLowMemLimit ≤ call.frame.phys call.build then
    .submit call none
  else match q.bounce with
    | none => .refuse
    | some pool =>
      if pool.freeCount = 0 then .refuse
      else if txBounceSize < call.frame.nb.len then .refuse
      else .pick call

def xmitStep (world : RaceWorld) : Except Fault RaceWorld :=
  let c := world.channel
  let goto (c : TxChannel) (pc : XmitPc) : RaceWorld := { world with channel := c, pc := pc }
  match world.pc with
  | .idle => .ok world
  | .reap call => do
    let (_, p, _) ← enaTxPollCompletions c.port call.cpu (xmitBudget call.build)
      (pollViews c.ring [] world.mem)
    return goto (c.update p) (.stall call)
  | .stall call => .ok (goto c (afterStall call c.queue))
  | .bump call => .ok (goto
      { c with queue := { c.queue with bounceWaitPolls := c.queue.bounceWaitPolls + 1 } }
      (.reserve call))
  | .reserve call => .ok (goto c (afterReserve call c.queue))
  | .pick call => .ok (goto c
      (.advance call ((c.queue.bounce.map fun pool => pool.freeIds pool.freeHead).getD 0)))
  | .advance call slot => .ok (goto
      (c.mapPool fun pool => { pool with freeHead := pool.nbDesc.slot (pool.freeHead + 1) })
      (.take call slot))
  | .take call slot => .ok (goto
      (c.mapPool fun pool => { pool with freeCount := pool.freeCount - 1 })
      (.markTaken call slot))
  | .markTaken call slot => .ok (goto c.markInUse (.submit call (some slot)))
  | .submit call slot => do
    let out ← submitSection c.ring call.cpu (xmitPkt call.build call.frame c.queue slot)
      (xmitHeader call.frame call.stale slot)
    return goto { c with ring := out.ring }
      (if out.ret = 0 then .doorbell slot (out.reqId.getD 0) else .drop slot)
  | .doorbell slot reqId => .ok (goto c (slot.elim .idle (.record · reqId)))
  | .record slot reqId => .ok (goto (c.mapPool (·.assign reqId (some slot))) (.label reqId))
  | .label reqId => .ok (goto { c with queue := { c.queue with bounceReqId := reqId } } .calm)
  | .calm => .ok (goto { c with queue := { c.queue with bounceWaitPolls := 0 } } .markKept)
  | .markKept => .ok (goto c.markInUse .idle)
  | .refuse => .ok (goto c.countDropped .idle)
  | .drop slot => .ok (goto c.countDropped (slot.elim .idle .putId))
  | .putId slot => .ok (goto
      (c.mapPool fun pool => { pool with freeIds := store pool.freeIds pool.freeTail slot })
      .putTail)
  | .putTail => .ok (goto
      (c.mapPool fun pool => { pool with freeTail := pool.nbDesc.slot (pool.freeTail + 1) })
      .putCount)
  | .putCount => .ok (goto
      (c.mapPool fun pool => { pool with freeCount := pool.freeCount + 1 }) .markBack)
  | .markBack => .ok (goto c.markInUse .idle)

/-- A step of the system: the transmitting core begins a call or takes its next
step, another core polls, or the device writes. -/
inductive RaceOp where
  | call (call : XmitCall)
  | step
  | poll (cpu budget : Nat)
  | device (mem : TxMem)

/-- One step of the system.  A core that is inside a call begins no other. -/
def raceStep (world : RaceWorld) : RaceOp → Except Fault RaceWorld
  | .call call =>
    match world.pc with
    | .idle => .ok { world with pc := .reap call }
    | _ => .ok world
  | .step => xmitStep world
  | .poll cpu budget => do
    let (_, p, _) ← enaTxPollCompletions world.channel.port cpu budget
      (pollViews world.channel.ring [] world.mem)
    return { world with channel := world.channel.update p }
  | .device mem => .ok { world with mem := mem }

/-! ## A call that is not disturbed -/

/-- The transmitting core gets from one state to another on its own. -/
def Reaches (world last : RaceWorld) : Prop :=
  ∃ count, run raceStep world (List.replicate count .step) = .ok last

theorem Reaches.refl (world : RaceWorld) : Reaches world world := ⟨0, rfl⟩

theorem Reaches.step {world last : RaceWorld} (next : RaceWorld)
    (stepped : xmitStep world = .ok next) (later : Reaches next last) : Reaches world last := by
  obtain ⟨count, ran⟩ := later
  refine ⟨count + 1, ?_⟩
  rw [List.replicate_succ]
  exact (run_cons (show raceStep world .step = .ok next from stepped) _).trans ran

section Alone

variable {c : TxChannel} {mem : TxMem} {pool : BouncePool} {last : RaceWorld}

/-- The test of the stall counter and the statement it guards. -/
theorem reaches_noteStall (call : XmitCall)
    (later : Reaches ⟨{ c with queue := noteStall c.queue }, mem, .reserve call⟩ last) :
    Reaches ⟨c, mem, .stall call⟩ last := by
  obtain ⟨ring, queueId, bounce, inUse, reqId, waitPolls⟩ := c
  refine .step _ rfl ?_
  cases bounce with
  | none => exact later
  | some pool =>
    unfold noteStall at later
    unfold afterStall
    simp only at later ⊢
    split at later
    · rename_i full
      rw [if_pos full]
      exact .step _ rfl later
    · rename_i ready
      rw [if_neg ready]
      exact later

/-- The four statements that take a slot. -/
theorem reaches_pop (call : XmitCall) (holds : c.queue.bounce = some pool)
    (later : Reaches ⟨{ c with queue := TxQueue.withPool c.queue (BouncePool.pop pool).2 }, mem,
      .submit call (some (BouncePool.pop pool).1)⟩ last) :
    Reaches ⟨c, mem, .pick call⟩ last := by
  obtain ⟨ring, queueId, bounce, inUse, reqId, waitPolls⟩ := c
  cases holds
  refine .step _ rfl ?_
  refine .step _ rfl ?_
  refine .step _ rfl ?_
  exact .step _ rfl later

theorem reaches_record (slot reqId : Nat) (holds : c.queue.bounce = some pool)
    (later : Reaches ⟨{ c with queue :=
      { TxQueue.withPool c.queue (pool.assign reqId (some slot)) with
        bounceReqId := reqId, bounceWaitPolls := 0 } }, mem, .idle⟩ last) :
    Reaches ⟨c, mem, .record slot reqId⟩ last := by
  obtain ⟨ring, queueId, bounce, inUse, label, waitPolls⟩ := c
  cases holds
  refine .step _ rfl ?_
  refine .step _ rfl ?_
  refine .step _ rfl ?_
  exact .step _ rfl later

theorem reaches_giveBack (slot : Nat) (holds : c.queue.bounce = some pool)
    (later : Reaches ⟨{ c with queue := TxQueue.withPool c.queue (pool.giveBack slot) }, mem,
      .idle⟩ last) :
    Reaches ⟨c, mem, .putId slot⟩ last := by
  obtain ⟨ring, queueId, bounce, inUse, reqId, waitPolls⟩ := c
  cases holds
  refine .step _ rfl ?_
  refine .step _ rfl ?_
  refine .step _ rfl ?_
  exact .step _ rfl later

theorem enaNetdevTxXmitOne_submitSection {r : Ring} {cpu : Nat} {pkt : TxPkt}
    {hdrData : Option (List UInt8)} {out : TxOutcome}
    (sent : enaNetdevTxXmitOne r cpu pkt hdrData = .ok out) :
    ∃ first, submitSection r cpu pkt hdrData = .ok first ∧ first.ret = out.ret ∧
      first.reqId = out.reqId ∧ first.ring = out.ring := by
  unfold enaNetdevTxXmitOne at sent
  unfold submitSection
  split at sent
  · rename_i pushes
    rw [if_pos pushes]
    exact ⟨out, sent, rfl, rfl, rfl⟩
  rename_i plain
  rw [if_neg plain]
  obtain ⟨first, submitted, rest⟩ := bind_ok sent
  cases rest
  exact ⟨first, submitted, rfl, rfl, rfl⟩

theorem reaches_settle (call : XmitCall) (slot : Option Nat) {out : TxOutcome}
    (stocked : slot.isSome = true → c.queue.bounce.isSome = true)
    (sent : enaNetdevTxXmitOne c.ring call.cpu (xmitPkt call.build call.frame c.queue slot)
      (xmitHeader call.frame call.stale slot) = .ok out) :
    Reaches ⟨c, mem, .submit call slot⟩ ⟨xmitSettle c slot out, mem, .idle⟩ := by
  obtain ⟨first, submitted, ret, given, ring⟩ := enaNetdevTxXmitOne_submitSection sent
  refine .step ⟨{ c with ring := first.ring }, mem,
    if first.ret = 0 then .doorbell slot (first.reqId.getD 0) else .drop slot⟩ ?_ ?_
  · rw [xmitStep]
    simp only [submitted]
    rfl
  rw [ret, given, ring]
  unfold xmitSettle
  by_cases ok : out.ret = 0
  · rw [if_pos ok, if_pos ok]
    refine .step _ rfl ?_
    cases slot with
    | none => exact .refl _
    | some slot =>
      obtain ⟨pool, holds⟩ := Option.isSome_iff_exists.mp (stocked rfl)
      simp only [holds]
      exact reaches_record slot _ holds (.refl _)
  · rw [if_neg ok, if_neg ok]
    refine .step _ rfl ?_
    cases slot with
    | none => exact .refl _
    | some slot =>
      obtain ⟨pool, holds⟩ := Option.isSome_iff_exists.mp (stocked rfl)
      simp only [holds]
      exact reaches_giveBack slot holds (.refl _)

/-- A packet for which no slot is found is counted and refused. -/
theorem reaches_refuse (call : XmitCall) {ret : Int}
    (refused : xmitReserve call.build call.frame c.queue = .error ret) :
    Reaches ⟨c, mem, .reserve call⟩ ⟨c.countDropped, mem, .idle⟩ := by
  refine .step ⟨c, mem, .refuse⟩ ?_ (.step _ rfl (.refl _))
  change Except.ok (RaceWorld.mk c mem (afterReserve call c.queue)) = _
  unfold xmitReserve at refused
  unfold afterReserve
  split at refused
  · cases refused
  rename_i low
  rw [if_neg low]
  cases holds : c.queue.bounce with
  | none => rfl
  | some pool =>
    simp only [holds] at refused ⊢
    split at refused
    · rename_i empty
      rw [if_pos empty]
    rename_i stocked
    rw [if_neg stocked]
    split at refused
    · rename_i long
      rw [if_pos long]
    · cases refused

/-- A packet that is sent directly or through the slot that was taken. -/
theorem reaches_reserve (call : XmitCall) {slot : Option Nat} {queue : TxQueue}
    (reserved : xmitReserve call.build call.frame c.queue = .ok (slot, queue)) :
    (slot.isSome = true → queue.bounce.isSome = true) ∧
      (Reaches ⟨{ c with queue := queue }, mem, .submit call slot⟩ last →
        Reaches ⟨c, mem, .reserve call⟩ last) := by
  unfold xmitReserve at reserved
  split at reserved
  · rename_i high
    cases reserved
    refine ⟨fun none => (Bool.false_ne_true none).elim,
      fun later => .step ⟨c, mem, .submit call none⟩ ?_ later⟩
    change Except.ok (RaceWorld.mk c mem (afterReserve call c.queue)) = _
    rw [afterReserve, if_pos high]
  · rename_i low
    cases holds : c.queue.bounce with
    | none =>
      rw [holds] at reserved
      cases reserved
    | some pool =>
      simp only [holds] at reserved
      split at reserved
      · cases reserved
      rename_i stocked
      split at reserved
      · cases reserved
      rename_i short
      cases reserved
      refine ⟨fun _ => rfl,
        fun later => .step ⟨c, mem, .pick call⟩ ?_ (reaches_pop call holds later)⟩
      change Except.ok (RaceWorld.mk c mem (afterReserve call c.queue)) = _
      rw [afterReserve, if_neg low]
      simp only [holds]
      rw [if_neg stocked, if_neg short]

/-- The machine refines the call: a call that no other core disturbs ends in the
channel that `xmit` returns. -/
theorem xmit_reaches (call : XmitCall) {out : Xmitted}
    (ran : xmit call.build call.cpu c call.frame ⟨[], mem, call.stale⟩ = .ok out) :
    Reaches ⟨c, mem, .reap call⟩ ⟨out.channel, mem, .idle⟩ := by
  unfold xmit at ran
  obtain ⟨⟨ret, p, events⟩, polled, ran⟩ := bind_ok ran
  refine .step ⟨c.update p, mem, .stall call⟩ ?_ (reaches_noteStall call ?_)
  · rw [xmitStep]
    simp only [polled]
    rfl
  simp only at ran
  cases reserved : xmitReserve call.build call.frame (noteStall (c.update p).queue) with
  | error ret =>
    rw [reserved] at ran
    cases ran
    exact reaches_refuse call reserved
  | ok choice =>
    obtain ⟨slot, queue⟩ := choice
    rw [reserved] at ran
    obtain ⟨sent, submitted, ran⟩ := bind_ok ran
    cases ran
    obtain ⟨stocked, before⟩ := reaches_reserve
      (c := ⟨(c.update p).ring, noteStall (c.update p).queue⟩) call reserved
    exact before (reaches_settle call slot stocked submitted)

end Alone

/-- In every state that a configured transmit queue can reach, a call that no other core
disturbs returns, and statement by statement it ends in the channel of the whole call. -/
theorem lone_call_is_xmit {qid : Nat} {depth : UInt16} {memory : Nat → Option Nat} {ring : Ring}
    (built : enaRingAlloc qid .tx depth depth memory = .ok ring) (phys : Nat) (ops : List TxBounceOp) :
    ∃ world, run txBounceStep (.configured ring phys) ops = .ok world ∧
      ∀ call mem, ∃ out count,
        xmit call.build call.cpu world.channel call.frame ⟨[], mem, call.stale⟩ = .ok out ∧
        run raceStep ⟨world.channel, mem, .idle⟩ (.call call :: List.replicate count .step) =
          .ok ⟨out.channel, mem, .idle⟩ := by
  obtain ⟨world, ran, served⟩ := run_invariant (fun _ _ => True) (TxServed phys False)
    (fun _ op served _ => txBounceStep_served served op False.elim)
    (configured_served built phys False) (meets_of_forall (fun _ _ => trivial) _ ops)
  refine ⟨world, ran, fun call mem => ?_⟩
  obtain ⟨out, sent, _⟩ := served.xmit call.build call.cpu call.frame ⟨[], mem, call.stale⟩
  obtain ⟨count, reached⟩ := xmit_reaches call sent
  exact ⟨out, count, sent, (run_cons rfl _).trans reached⟩

theorem lone_call_is_xmit_reset :
    ∃ world, run txBounceStep (.configured smallTxRing 65536) [.reset] = .ok world ∧
      ∀ call mem, ∃ out count, run raceStep ⟨world.channel, mem, .idle⟩
        (.call call :: List.replicate count .step) = .ok ⟨out, mem, .idle⟩ := by
  obtain ⟨world, ran, calls⟩ := lone_call_is_xmit smallTxRing_built 65536 [.reset]
  refine ⟨world, ran, fun call mem => ?_⟩
  obtain ⟨out, count, _, reached⟩ := calls call mem
  exact ⟨out.channel, count, reached⟩

end EnaDriver.Netdev
