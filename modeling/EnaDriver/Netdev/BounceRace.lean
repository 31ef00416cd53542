import EnaDriver.Netdev.TransmitSteps
import EnaDriver.Netdev.BounceRuns

/-!
# Bounce slots and polls from another core

The slot of a packet is recorded in the map after the packet was queued and the
doorbell was rung.  A poll of another core that reaps the packet in between finds
no slot to return, and the record that follows is never cleared.  A second window
is open while a failed call gives its slot back: between its write to the free
array and its update of the tail, a reclaim of another core overwrites the entry.
As long as no poll finds such a completion in either window, every slot that no
request in flight uses is free exactly once whenever the transmitting core is
idle.
-/

namespace EnaDriver.Netdev

open Support.Laps Support.Windows Support.Polling
open Support.Runs
open Datapath

/-! ## Completions that a poll may find -/

/-- The completion memory reports the id: an entry of the next lap names it, with
the phase that the driver expects there. -/
def Reported (r : Ring) (mem : TxMem) (id : Nat) : Prop :=
  ∃ ahead, ahead < r.cqDepth.val ∧
    let position := (Cursor.advance r.cqDepth)^[ahead] r.cqHead
    (mem (r.cqDepth.slot position.index)).phase = position.phase ∧
      (mem (r.cqDepth.slot position.index)).reqId = id

theorem iterate_advance_after (d : Depth) (count ahead : Nat) :
    (Cursor.advance d)^[ahead] (Cursor.after d count) = Cursor.after d (count + ahead) := by
  induction ahead with
  | zero => rfl
  | succ ahead ih =>
    rw [Function.iterate_succ_apply', ih, Cursor.advance_after]
    rfl

variable {cpu first : Nat} {mem : TxMem} {p : TxPort}

theorem reported_of_matched {r : Ring} {position : Nat}
    (located : r.cqHead = Cursor.after r.cqDepth first) (least : first ≤ position)
    (bound : position < first + r.cqDepth.val)
    (phase : (mem (position % r.cqDepth.val)).phase = lapPhase r.cqDepth position) :
    Reported r mem (mem (position % r.cqDepth.val)).reqId := by
  obtain ⟨ahead, rfl⟩ := Nat.exists_eq_add_of_le least
  refine ⟨ahead, Nat.lt_of_add_lt_add_left bound, ?_⟩
  rw [located, iterate_advance_after]
  simp only [Cursor.slot_after]
  exact ⟨phase, trivial⟩

/-! ## Polls -/

/-- A port in the middle of a poll over memory that stands still: the entries
since `first` matched their phases. -/
structure Polling (d : Depth) (mem : TxMem) (first : Nat) (r : Ring) : Prop where
  depth : r.cqDepth = d
  located : ∃ position, r.cqHead = Cursor.after d position ∧ first ≤ position ∧
    position ≤ first + d.val ∧
    (position = first ∨ (mem (first % d.val)).phase = lapPhase d first)

/-- An iteration of such a poll reads an entry that was reported when it began,
and moves on. -/
theorem Polling.read {d : Depth} {added : Nat} {start : Ring} {next : TxPort}
    {outputs : List Event} (polling : Polling d mem first p.ring)
    (begun : start.cqDepth = d ∧ start.cqHead = Cursor.after d first)
    (read : txPollEntry cpu p mem = some (added, next, outputs)) :
    Reported start mem (mem p.ring.cqSlot).reqId ∧
      ∀ ring : Ring, ring.cqDepth = p.ring.cqDepth → ring.cqHead = p.ring.cqHead →
        Polling d mem first ring.advanceCq := by
  obtain ⟨sameDepth, position, located, least, bound, matched⟩ := polling
  obtain ⟨phase, _, _⟩ := txPollEntry_cases read
  have slot : p.ring.cqSlot = position % d.val := by
    rw [Ring.cqSlot, sameDepth, located, Cursor.slot_after]
  rw [slot, located] at phase
  have strict := @within_lap d (fun slot => (mem slot).phase) first position bound matched phase
  rw [slot]
  obtain ⟨rfl, headStart⟩ := begun
  refine ⟨reported_of_matched headStart least strict phase, ?_⟩
  intro ring sameRing head
  refine ⟨sameRing.trans sameDepth, position + 1, ?_, ?_, ?_, ?_⟩
  · change Cursor.advance ring.cqDepth ring.cqHead = _
    rw [sameRing, sameDepth, head, located, Cursor.advance_after]
  · exact Nat.le_succ_of_le least
  · exact strict
  · right
    rcases matched with rfl | known
    · exact phase
    · exact known

/-! ## Slots in the middle of a call -/

def XmitPc.hand : XmitPc → List Nat
  | .advance _ slot | .take _ slot | .markTaken _ slot | .record slot _ | .putId slot => [slot]
  | .submit _ slot | .doorbell slot _ | .drop slot => slot.toList
  | _ => []

/-- The pool after the statements that complete taking or returning a slot. -/
def XmitPc.finish : XmitPc → BouncePool → BouncePool
  | .advance _ _, pool =>
    { pool with
      freeHead := pool.nbDesc.slot (pool.freeHead + 1)
      freeCount := pool.freeCount - 1 }
  | .take _ _, pool => { pool with freeCount := pool.freeCount - 1 }
  | .putTail, pool =>
    { pool with
      freeTail := pool.nbDesc.slot (pool.freeTail + 1)
      freeCount := pool.freeCount + 1 }
  | .putCount, pool => { pool with freeCount := pool.freeCount + 1 }
  | _, pool => pool

def XmitPc.taking : XmitPc → Bool
  | .pick _ | .advance _ _ | .take _ _ => true
  | _ => false

/-- The request that was queued with a slot that is not in the map yet. -/
def XmitPc.unrecorded : XmitPc → Option Nat
  | .doorbell (some _) reqId | .record _ reqId => some reqId
  | _ => none

/-- What the transmitting core relies on: there is a slot to take, and the request
of its packet is in flight and has no slot yet. -/
structure XmitPc.Relies (pc : XmitPc) (r : Ring) (pool : BouncePool) : Prop where
  stocked : pc.taking = true → pool.freeCount ≠ 0
  queued : ∀ reqId, pc.unrecorded = some reqId →
    reqId < pool.nbDesc.val ∧ r.pool.reqInFlight reqId = true ∧ pool.map reqId = none

/-- The completion of a request does not disturb the transmitting core: it is not
the request whose slot is still to be recorded, and no slot is returned while
the tail of the free array is behind. -/
structure XmitPc.Harmless (pc : XmitPc) (pool : BouncePool) (id : Nat) : Prop where
  recorded : pc.unrecorded ≠ some id
  settled : pc = .putTail → pool.map id = none

/-- A statement that neither takes a slot nor has one to record relies on nothing. -/
theorem XmitPc.relies_nothing {pc : XmitPc} {r : Ring} {pool : BouncePool}
    (taking : pc.taking = false) (unrecorded : pc.unrecorded = none) : pc.Relies r pool where
  stocked := by
    intro takes
    rw [taking] at takes
    cases takes
  queued := by
    intro reqId found
    rw [unrecorded] at found
    cases found

structure Shares (pc : XmitPc) (r : Ring) (pool : BouncePool) : Prop where
  depth : pool.nbDesc = r.sqDepth
  sound : (pc.finish pool).Sound pc.hand
  accounts : Accounts r (pc.finish pool) pc.hand
  relies : pc.Relies r pool

namespace Shares

variable {pc : XmitPc} {r next : Ring} {pool : BouncePool} {id : Nat}

theorem congr (shares : Shares pc r pool) (marks : next.pool.reqInFlight = r.pool.reqInFlight)
    (depth : next.sqDepth = r.sqDepth) : Shares pc next pool where
  depth := shares.depth.trans depth.symm
  sound := shares.sound
  accounts := shares.accounts.congr marks
  relies := by
    refine ⟨shares.relies.stocked, ?_⟩
    rw [marks]
    exact shares.relies.queued

theorem finish_depth (pc : XmitPc) (pool : BouncePool) : (pc.finish pool).nbDesc = pool.nbDesc := by
  unfold XmitPc.finish
  split <;> rfl

theorem finish_map (pc : XmitPc) (pool : BouncePool) : (pc.finish pool).map = pool.map := by
  unfold XmitPc.finish
  split <;> rfl

/-- Returning a slot and finishing the statements of the core commute. -/
theorem finish_reclaimed (shares : Shares pc r pool) (harmless : pc.Harmless pool id) :
    pc.finish (pool.reclaimed id) = (pc.finish pool).reclaimed id := by
  unfold BouncePool.reclaimed
  rw [finish_map]
  cases found : pool.map id with
  | none => rfl
  | some slot =>
    cases pc with
    | putTail =>
      have vacant := harmless.settled rfl
      rw [found] at vacant
      cases vacant
    | advance call taken =>
      have stocked := shares.relies.stocked rfl
      have count : pool.freeCount + 1 - 1 = pool.freeCount - 1 + 1 := by omega
      simp only [XmitPc.finish, BouncePool.unmap, BouncePool.giveBack, count]
    | take call taken =>
      have stocked := shares.relies.stocked rfl
      have count : pool.freeCount + 1 - 1 = pool.freeCount - 1 + 1 := by omega
      simp only [XmitPc.finish, BouncePool.unmap, BouncePool.giveBack, count]
    | _ => rfl

theorem relies_reclaimed (shares : Shares pc r pool) (harmless : pc.Harmless pool id)
    (marks : next.pool.reqInFlight = store r.pool.reqInFlight id false) :
    pc.Relies next (pool.reclaimed id) := by
  constructor
  · intro taking
    have stocked := shares.relies.stocked taking
    have more : pool.freeCount ≤ (pool.reclaimed id).freeCount := by
      unfold BouncePool.reclaimed
      split
      · exact Nat.le_refl _
      · exact Nat.le_succ _
    omega
  · intro reqId unrecorded
    obtain ⟨bound, marked, vacant⟩ := shares.relies.queued reqId unrecorded
    have other : reqId ≠ id := by
      rintro rfl
      exact harmless.recorded unrecorded
    rw [pool.reclaimed_depth, marks, store_other _ _ other, pool.reclaimed_map, store_other _ _ other]
    exact ⟨bound, marked, vacant⟩

/-- The core moves on, and what it has to finish stays the same. -/
theorem goto (shares : Shares pc r pool) {following : XmitPc} {after : BouncePool}
    (depth : after.nbDesc = pool.nbDesc) (finish : following.finish after = pc.finish pool)
    (hand : following.hand = pc.hand) (relies : following.Relies r after) :
    Shares following r after := by
  constructor
  · exact depth.trans shares.depth
  · rw [finish, hand]
    exact shares.sound
  · rw [finish, hand]
    exact shares.accounts
  · exact relies

/-- A completion that is harmless keeps the slots of the queue. -/
theorem complete (shares : Shares pc r pool) (harmless : pc.Harmless pool id)
    (bound : id < r.sqDepth.val)
    (marks : next.pool.reqInFlight = store r.pool.reqInFlight id false)
    (depth : next.sqDepth = r.sqDepth) : Shares pc next (pool.reclaimed id) := by
  have inside : id < (pc.finish pool).nbDesc.val := by
    rw [finish_depth, shares.depth]
    exact bound
  constructor
  · rw [pool.reclaimed_depth, shares.depth, depth]
  · rw [shares.finish_reclaimed harmless]
    exact (shares.sound.reclaimed inside).1
  · rw [shares.finish_reclaimed harmless]
    exact shares.accounts.complete shares.sound inside marks
  · exact shares.relies_reclaimed harmless marks

end Shares

def SharesPool (pc : XmitPc) (p : TxPort) : Prop :=
  ∃ q pool, p.queue = some q ∧ q.bounce = some pool ∧ Shares pc p.ring pool

def FindsHarmless (pc : XmitPc) (seen : Nat → Prop) (p : TxPort) : Prop :=
  ∀ q pool, p.queue = some q → q.bounce = some pool → ∀ id, seen id →
    p.ring.pool.reqInFlight id = true → pc.Harmless pool id

/-- One iteration that reads a harmless completion keeps the slots, and leaves the
completions that are still to come harmless. -/
theorem txPollEntry_sharesPool {pc : XmitPc} {seen : Nat → Prop} {added : Nat} {next : TxPort}
    {outputs : List Event} (shares : SharesPool pc p) (finds : FindsHarmless pc seen p)
    (saw : seen (mem p.ring.cqSlot).reqId)
    (read : txPollEntry cpu p mem = some (added, next, outputs)) :
    SharesPool pc next ∧ FindsHarmless pc seen next ∧
      ∃ ring : Ring, ring.cqDepth = p.ring.cqDepth ∧ ring.cqHead = p.ring.cqHead ∧
        next.ring = ring.advanceCq := by
  obtain ⟨_, bound, _⟩ := txPollEntry_cases read
  unfold txPollEntry at read
  simp only at read
  split at read
  · cases read
  split at read
  · cases read
  split at read
  · cases read
    obtain ⟨q, pool, found, holds, share⟩ := shares
    exact ⟨⟨q, pool, found, holds, share.congr rfl rfl⟩, finds, p.ring, rfl, rfl, rfl⟩
  rename_i flies
  cases read
  have disposed := txDispose_untouched (txAcknowledge p.ring (mem p.ring.cqSlot)) cpu
    (mem p.ring.cqSlot).reqId
  obtain ⟨q, pool, found, holds, share⟩ := shares
  have inside : (mem p.ring.cqSlot).reqId < pool.nbDesc.val := by
    rw [share.depth]
    exact bound
  have harmless := finds q pool found holds _ saw (Bool.not_eq_false _ ▸ flies)
  have reclaimed := enaNetdevTxqReclaimSlot_bounce holds inside
  refine ⟨⟨_, _, congrArg (Option.map _) found, reclaimed, ?_⟩, ?_, _, disposed.cqDepth,
    disposed.cqHead, rfl⟩
  · exact (share.complete harmless bound disposed.marks disposed.sqDepth).congr rfl rfl
  intro after last foundAfter holdsAfter id sawId marked
  rw [found] at foundAfter
  cases foundAfter
  cases reclaimed.symm.trans holdsAfter
  change (txDispose _ cpu _).1.pool.reqInFlight id = true at marked
  rw [disposed.marks] at marked
  change store p.ring.pool.reqInFlight _ false _ = true at marked
  obtain ⟨other, marked⟩ := of_store marked nofun
  have before := finds q pool found holds id sawId marked
  refine ⟨before.recorded, fun here => ?_⟩
  rw [pool.reclaimed_map, store_other _ _ other]
  exact before.settled here

/-- A poll over memory that stands still keeps the slots if every completion it
may find is harmless. -/
theorem enaTxPollCompletions_sharesPool {pc : XmitPc} {budget : Nat} {after : TxPort} {ret : Int}
    {events : List Event} {ledger : TxLedger} (tracks : Tracks p.ring ledger)
    (unlocked : p.ring.ringLock = false)
    (located : p.ring.cqHead = Cursor.after p.ring.cqDepth first) (shares : SharesPool pc p)
    (finds : FindsHarmless pc (Reported p.ring mem) p)
    (returned : enaTxPollCompletions p cpu budget (pollViews p.ring [] mem) =
      .ok (ret, after, events)) : SharesPool pc after := by
  have kept := enaTxPollCompletions_keeps
    (fun port => Polling p.ring.cqDepth mem first port.ring ∧ SharesPool pc port ∧
      FindsHarmless pc (Reported p.ring mem) port) tracks unlocked ?_ ?_ ?_ returned
  · exact kept.2.1
  · rintro r next queue ⟨polling, ⟨q, pool, found, holds, share⟩, harmless⟩ untouched
    refine ⟨⟨untouched.cqDepth.trans polling.depth, ?_⟩,
      ⟨q, pool, found, holds, share.congr untouched.marks untouched.sqDepth⟩, ?_⟩
    · rw [untouched.cqHead]
      exact polling.located
    · intro other last foundOther holdsOther id saw marked
      rw [untouched.marks] at marked
      exact harmless other last foundOther holdsOther id saw marked
  · rintro state view added next outputs member ⟨polling, share, harmless⟩ read
    have same : view = mem := by simpa [pollViews] using member
    rw [same] at read
    obtain ⟨reported, moves⟩ := polling.read ⟨rfl, located⟩ read
    obtain ⟨kept, later, ring, depth, head, advanced⟩ :=
      txPollEntry_sharesPool share harmless reported read
    rw [advanced]
    exact ⟨moves ring depth head, kept, later⟩
  · refine ⟨⟨rfl, first, located, Nat.le_refl _, Nat.le_add_right _ _, Or.inl rfl⟩, shares, finds⟩

/-! ## The system -/

/-- What holds between the steps of the system. -/
structure RaceServed (world : RaceWorld) : Prop where
  tracks : ∃ ledger, Tracks world.channel.ring ledger
  unlocked : world.channel.ring.ringLock = false
  located : ∃ count, world.channel.ring.cqHead = Cursor.after world.channel.ring.cqDepth count
  shares : SharesPool world.pc world.channel.port

/-- No poll finds a completion that disturbs the transmitting core. -/
def Timely (world : RaceWorld) : RaceOp → Prop
  | .poll _ _ => ∀ pool, world.channel.queue.bounce = some pool → ∀ id,
      Reported world.channel.ring world.mem id →
        world.channel.ring.pool.reqInFlight id = true → world.pc.Harmless pool id
  | _ => True

section Served

variable {world : RaceWorld}

theorem RaceServed.poll (served : RaceServed world) (cpu budget : Nat)
    (finds : FindsHarmless world.pc (Reported world.channel.ring world.mem) world.channel.port) :
    ∃ ret p events, enaTxPollCompletions world.channel.port cpu budget
        (pollViews world.channel.ring [] world.mem) = .ok (ret, p, events) ∧
      RaceServed { world with channel := world.channel.update p } := by
  obtain ⟨ledger, tracks⟩ := served.tracks
  obtain ⟨count, located⟩ := served.located
  obtain ⟨ret, p, events, ran⟩ := enaTxPollCompletions_total cpu budget [] world.mem
    (p := world.channel.port) tracks served.unlocked located
  obtain ⟨reaped, unlocked⟩ := enaTxPollCompletions_reaps tracks served.unlocked ran
  obtain ⟨frame, ⟨_, after, _, tracked, _⟩, moved⟩ := reaped ledger tracks
  obtain ⟨q, pool, found, holds, share⟩ :=
    enaTxPollCompletions_sharesPool tracks served.unlocked located served.shares finds ran
  refine ⟨ret, p, events, ran, ⟨after, tracked⟩, unlocked, ⟨count + consumed events, ?_⟩, ?_⟩
  · change p.ring.cqHead = Cursor.after p.ring.cqDepth _
    rw [frame.cqDepth]
    exact moved count located
  · refine ⟨_, pool, rfl, ?_, share⟩
    rw [TxChannel.update, found]
    exact holds

/-- A step that changes neither the requests nor the positions of the ring. -/
theorem RaceServed.step (served : RaceServed world) {c : TxChannel} {pc : XmitPc}
    {pool : BouncePool} (tracks : ∀ ledger, Tracks world.channel.ring ledger → Tracks c.ring ledger)
    (unlocked : c.ring.ringLock = false)
    (positions : c.ring.cqDepth = world.channel.ring.cqDepth ∧
      c.ring.cqHead = world.channel.ring.cqHead)
    (holds : c.queue.bounce = some pool) (share : Shares pc c.ring pool) :
    RaceServed ⟨c, world.mem, pc⟩ where
  tracks := by
    obtain ⟨ledger, tracked⟩ := served.tracks
    exact ⟨ledger, tracks ledger tracked⟩
  unlocked := unlocked
  located := by
    obtain ⟨count, located⟩ := served.located
    refine ⟨count, ?_⟩
    change c.ring.cqHead = Cursor.after c.ring.cqDepth count
    rw [positions.1, positions.2]
    exact located
  shares := ⟨c.queue, pool, rfl, holds, share⟩

theorem RaceServed.submit {c : TxChannel} {call : XmitCall} {slot : Option Nat}
    (served : RaceServed ⟨c, mem, .submit call slot⟩) :
    ∃ next, xmitStep ⟨c, mem, .submit call slot⟩ = .ok next ∧ RaceServed next := by
  obtain ⟨ledger, tracks⟩ := served.tracks
  obtain ⟨q, pool, found, holds, share⟩ := served.shares
  cases found
  obtain ⟨out, sent, _, outcome⟩ := enaNetdevTxXmitOne_cases c.ring call.cpu
    (xmitPkt call.build call.frame c.queue slot) (xmitHeader call.frame call.stale slot)
    served.unlocked
  obtain ⟨first, submitted, ret, given, ring⟩ := enaNetdevTxXmitOne_submitSection sent
  refine ⟨⟨{ c with ring := first.ring }, mem,
    if first.ret = 0 then .doorbell slot (first.reqId.getD 0) else .drop slot⟩, ?_, ?_⟩
  · rw [xmitStep]
    simp only [submitted]
    rfl
  rw [ret, given, ring]
  rcases outcome with ⟨failed, _, same⟩ | ⟨reqId, free, alloc, ok, id, queuedRing⟩
  · rw [if_neg failed, same]
    exact served.step (fun _ tracked => tracked) served.unlocked ⟨rfl, rfl⟩ holds
      (share.goto rfl rfl rfl (XmitPc.relies_nothing rfl rfl))
  obtain ⟨queued, tracked, unlocked, depth, head⟩ :=
    queued_of_alloc tracks served.unlocked alloc queuedRing
  obtain ⟨count, located⟩ := served.located
  rw [if_pos ok, id]
  refine ⟨⟨_, tracked⟩, unlocked, ⟨count, ?_⟩, c.queue, pool, rfl, holds, ?_⟩
  · change out.ring.cqHead = Cursor.after out.ring.cqDepth count
    rw [head, depth]
    exact located
  have accounts : Accounts c.ring pool slot.toList := share.accounts
  refine ⟨share.depth.trans queued.sqDepth.symm, share.sound,
    accounts.queued queued.marks, ?_, ?_⟩
  · intro takes
    cases takes
  intro unrecorded found
  have same : unrecorded = reqId := by
    cases slot with
    | none => cases found
    | some slot =>
      cases found
      rfl
  rw [same]
  refine ⟨?_, ?_, accounts.vacant queued.idle⟩
  · rw [share.depth]
    exact queued.bound
  · change out.ring.pool.reqInFlight reqId = true
    rw [queued.marks, store_same]

/-- Every step of the transmitting core returns and keeps the slots. -/
theorem xmitStep_served (served : RaceServed world) :
    ∃ next, xmitStep world = .ok next ∧ RaceServed next := by
  obtain ⟨c, mem, pc⟩ := world
  obtain ⟨q, pool, found, holds, share⟩ := served.shares
  cases found
  change c.queue.bounce = some pool at holds
  -- most statements leave the ring alone
  have keep : ∀ {following : XmitPc} {queue : TxQueue} {after : BouncePool},
      queue.bounce = some after → Shares following c.ring after →
        RaceServed ⟨⟨c.ring, queue⟩, mem, following⟩ := fun holdsAfter shares =>
    served.step (c := ⟨c.ring, _⟩) (fun _ tracked => tracked) served.unlocked ⟨rfl, rfl⟩ holdsAfter
      shares
  cases pc with
  | idle => exact ⟨_, rfl, served⟩
  | reap call =>
    have finds : FindsHarmless (.reap call) (Reported c.ring mem) c.port := by
      intro q pool _ _ id _ _
      constructor
      · intro unrecorded
        cases unrecorded
      · intro here
        cases here
    obtain ⟨ret, p, events, ran, polled⟩ := served.poll call.cpu (xmitBudget call.build) finds
    refine ⟨⟨c.update p, mem, .stall call⟩, ?_, ?_⟩
    · rw [xmitStep]
      simp only [ran]
      rfl
    · obtain ⟨q, pool, found, holds, share⟩ := polled.shares
      cases found
      exact polled.step (fun _ tracked => tracked) polled.unlocked ⟨rfl, rfl⟩ holds
        (share.goto rfl rfl rfl (XmitPc.relies_nothing rfl rfl))
  | stall call =>
    refine ⟨_, rfl, keep holds ?_⟩
    unfold afterStall
    simp only [holds]
    split <;> exact share.goto rfl rfl rfl (XmitPc.relies_nothing rfl rfl)
  | bump call =>
    exact ⟨_, rfl, keep holds (share.goto rfl rfl rfl (XmitPc.relies_nothing rfl rfl))⟩
  | reserve call =>
    refine ⟨_, rfl, keep holds ?_⟩
    unfold afterReserve
    simp only [holds]
    split
    · exact share.goto rfl rfl rfl (XmitPc.relies_nothing rfl rfl)
    split
    · exact share.goto rfl rfl rfl (XmitPc.relies_nothing rfl rfl)
    rename_i stocked
    split
    · exact share.goto rfl rfl rfl (XmitPc.relies_nothing rfl rfl)
    · refine share.goto rfl rfl rfl ⟨fun _ => stocked, ?_⟩
      intro reqId found
      cases found
  | pick call =>
    refine ⟨_, rfl, keep holds ?_⟩
    rw [holds]
    have stocked := share.relies.stocked rfl
    obtain ⟨sound, moved⟩ := BouncePool.Sound.pop
      (show pool.Sound [] from share.sound) stocked
    have accounts : Accounts c.ring pool [] := share.accounts
    refine ⟨share.depth, sound, accounts.move rfl rfl rfl moved, fun _ => stocked, ?_⟩
    intro reqId found
    cases found
  | advance call slot =>
    refine ⟨_, rfl, keep (congrArg (Option.map _) holds) (share.goto rfl rfl rfl ?_)⟩
    refine ⟨fun _ => share.relies.stocked rfl, ?_⟩
    intro reqId found
    cases found
  | take call slot =>
    exact ⟨_, rfl, keep (congrArg (Option.map _) holds)
      (share.goto rfl rfl rfl (XmitPc.relies_nothing rfl rfl))⟩
  | markTaken call slot =>
    exact ⟨_, rfl, keep holds (share.goto rfl rfl rfl (XmitPc.relies_nothing rfl rfl))⟩
  | submit call slot => exact served.submit
  | doorbell slot reqId =>
    refine ⟨_, rfl, keep holds ?_⟩
    cases slot with
    | none => exact share.goto rfl rfl rfl (XmitPc.relies_nothing rfl rfl)
    | some slot =>
      refine share.goto rfl rfl rfl ⟨?_, share.relies.queued⟩
      intro takes
      cases takes
  | record slot reqId =>
    obtain ⟨bound, marked, vacant⟩ := share.relies.queued reqId rfl
    have sound : pool.Sound [slot] := share.sound
    have accounts : Accounts c.ring pool [slot] := share.accounts
    obtain ⟨assigned, _⟩ :=
      BouncePool.Sound.assign (show pool.Sound ((some slot).toList ++ []) from sound) bound
    refine ⟨_, rfl, keep (congrArg (Option.map _) holds) ?_⟩
    exact ⟨share.depth, assigned, accounts.record sound bound marked vacant,
      XmitPc.relies_nothing rfl rfl⟩
  | label reqId =>
    exact ⟨_, rfl, keep holds (share.goto rfl rfl rfl (XmitPc.relies_nothing rfl rfl))⟩
  | calm =>
    exact ⟨_, rfl, keep holds (share.goto rfl rfl rfl (XmitPc.relies_nothing rfl rfl))⟩
  | markKept =>
    exact ⟨_, rfl, keep holds (share.goto rfl rfl rfl (XmitPc.relies_nothing rfl rfl))⟩
  | refuse =>
    have counted : Shares .refuse c.countDropped.ring pool := share.congr rfl rfl
    exact ⟨_, rfl, served.step (fun _ tracked => tracked) served.unlocked ⟨rfl, rfl⟩ holds
      (counted.goto rfl rfl rfl (XmitPc.relies_nothing rfl rfl))⟩
  | drop slot =>
    have counted : Shares (.drop slot) c.countDropped.ring pool := share.congr rfl rfl
    refine ⟨_, rfl, served.step (fun _ tracked => tracked) served.unlocked ⟨rfl, rfl⟩ holds ?_⟩
    cases slot with
    | none => exact counted.goto rfl rfl rfl (XmitPc.relies_nothing rfl rfl)
    | some slot => exact counted.goto rfl rfl rfl (XmitPc.relies_nothing rfl rfl)
  | putId slot =>
    have sound : pool.Sound [slot] := share.sound
    have accounts : Accounts c.ring pool [slot] := share.accounts
    obtain ⟨given, moved⟩ := sound.giveBack
    refine ⟨_, rfl, keep (congrArg (Option.map _) holds) ?_⟩
    exact ⟨share.depth, given, accounts.move rfl rfl rfl moved, XmitPc.relies_nothing rfl rfl⟩
  | putTail =>
    exact ⟨_, rfl, keep (congrArg (Option.map _) holds)
      (share.goto rfl rfl rfl (XmitPc.relies_nothing rfl rfl))⟩
  | putCount =>
    exact ⟨_, rfl, keep (congrArg (Option.map _) holds)
      (share.goto rfl rfl rfl (XmitPc.relies_nothing rfl rfl))⟩
  | markBack =>
    exact ⟨_, rfl, keep holds (share.goto rfl rfl rfl (XmitPc.relies_nothing rfl rfl))⟩

theorem raceStep_served (served : RaceServed world) (op : RaceOp) (timely : Timely world op) :
    ∃ next, raceStep world op = .ok next ∧ RaceServed next := by
  cases op with
  | call call =>
    obtain ⟨c, mem, pc⟩ := world
    rw [raceStep]
    split
    · rename_i here
      cases here
      obtain ⟨q, pool, found, holds, share⟩ := served.shares
      cases found
      exact ⟨_, rfl, served.step (fun _ tracked => tracked) served.unlocked ⟨rfl, rfl⟩ holds
        (share.goto rfl rfl rfl (XmitPc.relies_nothing rfl rfl))⟩
    · exact ⟨_, rfl, served⟩
  | step => exact xmitStep_served served
  | poll cpu budget =>
    have finds : FindsHarmless world.pc (Reported world.channel.ring world.mem)
        world.channel.port := by
      intro q pool found holds
      cases found
      exact timely pool holds
    obtain ⟨ret, p, events, ran, polled⟩ := served.poll cpu budget finds
    refine ⟨_, ?_, polled⟩
    rw [raceStep, ran]
    rfl
  | device mem => exact ⟨_, rfl, served.tracks, served.unlocked, served.located, served.shares⟩

end Served

/-! ## Interleavings -/

def RaceWorld.configured (ring : Ring) (phys : Nat) (mem : TxMem) : RaceWorld :=
  ⟨(TxBounceWorld.configured ring phys).channel, mem, .idle⟩

theorem raceConfigured_served {qid : Nat} {depth : UInt16} {memory : Nat → Option Nat} {ring : Ring}
    (built : enaRingAlloc qid .tx depth depth memory = .ok ring) (phys : Nat) (mem : TxMem) :
    RaceServed (.configured ring phys mem) := by
  have served := configured_served built phys True
  obtain ⟨q, pool, found, holds, serves⟩ := served.keeps
  exact ⟨served.tracks, served.unlocked, served.located, q, pool, found, holds, serves.depth,
    serves.sound, serves.accounts trivial, XmitPc.relies_nothing rfl rfl⟩

def XmitPc.isIdle : XmitPc → Bool
  | .idle => true
  | _ => false

/-- A request that has completed has no slot in the map, and a slot that no request
in flight has is in the free window exactly once. -/
structure SlotsReturned (r : Ring) (pool : BouncePool) : Prop where
  cleared : ∀ id, r.pool.reqInFlight id = false → pool.map id = none
  free : ∀ slot, slot < pool.nbDesc.val →
    (∀ id, id < pool.nbDesc.val → r.pool.reqInFlight id = true → pool.map id ≠ some slot) →
      pool.free.count slot = 1

theorem Accounts.returned {r : Ring} {pool : BouncePool} (accounts : Accounts r pool []) :
    SlotsReturned r pool where
  cleared := fun _ idle => accounts.vacant idle
  free := by
    intro slot bound unused
    have once : (pool.slots []).count slot = 1 := by
      rw [accounts.whole.count_eq slot]
      exact List.count_eq_one_of_mem List.nodup_range (List.mem_range.mpr bound)
    have absent : slot ∉ pool.mapped := by
      intro member
      obtain ⟨id, inside, assigned⟩ := List.mem_filterMap.mp member
      exact unused id (List.mem_range.mp inside) (accounts.flying id slot assigned) assigned
    rw [BouncePool.slots, List.append_nil, List.count_append, List.count_eq_zero.mpr absent] at once
    exact once

def ReturnedWhenIdle (world : RaceWorld) : Prop :=
  world.pc.isIdle = true → ∃ pool, world.channel.queue.bounce = some pool ∧
    SlotsReturned world.channel.ring pool

/-- In every interleaving in which no poll finds a completion that disturbs the
transmitting core, every step returns, and the slots are returned whenever the
core is idle. -/
theorem bounce_slots_returned {qid : Nat} {depth : UInt16} {memory : Nat → Option Nat} {ring : Ring}
    (built : enaRingAlloc qid .tx depth depth memory = .ok ring) (phys : Nat) (mem : TxMem)
    (ops : List RaceOp) (timely : Meets raceStep Timely (.configured ring phys mem) ops) :
    ∃ world, run raceStep (.configured ring phys mem) ops = .ok world ∧
      ReturnedWhenIdle world := by
  obtain ⟨world, ran, served⟩ := run_invariant Timely RaceServed
    (fun _ op served timely => raceStep_served served op timely)
    (raceConfigured_served built phys mem) timely
  refine ⟨world, ran, ?_⟩
  intro isIdle
  obtain ⟨q, pool, found, holds, share⟩ := served.shares
  cases found
  refine ⟨pool, holds, ?_⟩
  have accounts := share.accounts
  cases here : world.pc with
  | idle =>
    rw [here] at accounts
    exact Accounts.returned accounts
  | _ =>
    rw [here] at isIdle
    cases isIdle

def lowCall (len : Nat) : XmitCall :=
  ⟨.unikraft, 0, ⟨{ smallNetbuf 4096 with len := len }, 0, []⟩, []⟩

def blankMem : TxMem := fun _ => ⟨0, 0, 0, 0, 0⟩

def callSteps (len count : Nat) : List RaceOp := .call (lowCall len) :: List.replicate count .step

/-- Another core polls after the device has completed the first request. -/
def otherCorePolls : List RaceOp := [.device (oneCompletion 0), .poll 1 0]

def pollTimely (world : RaceWorld) : RaceOp → Bool
  | .poll _ _ => world.channel.queue.bounce.all fun pool =>
    (List.range world.channel.ring.cqDepth.val).all fun ahead =>
      let position := (Cursor.advance world.channel.ring.cqDepth)^[ahead] world.channel.ring.cqHead
      let entry := world.mem (world.channel.ring.cqDepth.slot position.index)
      entry.phase != position.phase || !world.channel.ring.pool.reqInFlight entry.reqId ||
        world.pc.unrecorded != some entry.reqId && match world.pc with
          | .putTail => pool.map entry.reqId == none
          | _ => true
  | _ => true

theorem pollTimely_sound (world : RaceWorld) (op : RaceOp) (checked : pollTimely world op = true) :
    Timely world op := by
  cases op with
  | poll cpu budget =>
    rintro pool held id ⟨ahead, bound, fresh, rfl⟩ marked
    rw [pollTimely, held, Option.all_some, List.all_eq_true] at checked
    have here := checked ahead (List.mem_range.mpr bound)
    dsimp only at here
    rw [fresh, marked, bne_self_eq_false, Bool.false_or, Bool.not_true, Bool.false_or,
      Bool.and_eq_true] at here
    refine ⟨bne_iff_ne.mp here.1, fun put => ?_⟩
    have vacant := here.2
    rw [put] at vacant
    exact beq_iff_eq.mp vacant
  | call call => trivial
  | step => trivial
  | device mem => trivial

/-- A packet is sent from a slot.  Another core polls its completion in the middle of
the next call, whose packet is in flight at the end. -/
theorem bounce_slots_returned_sent :
    ∃ world, run raceStep (.configured smallTxRing 65536 blankMem)
        (callSteps 64 13 ++ callSteps 64 5 ++ otherCorePolls ++ List.replicate 8 .step) =
          .ok world ∧
      world.pc.isIdle = true ∧ ReturnedWhenIdle world := by
  obtain ⟨world, ran, returned⟩ := bounce_slots_returned smallTxRing_built 65536 blankMem
    (callSteps 64 13 ++ callSteps 64 5 ++ otherCorePolls ++ List.replicate 8 .step)
    (meets_of_passes pollTimely_sound (by decide +kernel))
  exact ⟨world, ran, observed_of_ok ran (fun world => world.pc.isIdle) (by decide +kernel),
    returned⟩

/-- What is seen of the slots: whether the core is idle, the marks of the requests,
the number of slots, the map and the free window. -/
structure SeenSlots where
  idle : Bool
  marks : List Bool
  size : Nat
  map : List (Option Nat)
  free : List Nat
  deriving DecidableEq

def RaceWorld.seenSlots (world : RaceWorld) : Option SeenSlots :=
  world.channel.queue.bounce.map fun pool =>
    ⟨world.pc.isIdle, (List.range 4).map world.channel.ring.pool.reqInFlight, pool.nbDesc.val,
      (List.range 4).map pool.map, pool.free⟩

/-- A poll after the doorbell and before the record loses the slot: the completed
request has it in the map for good.  A poll in the middle of the give-back of an
empty packet, which the ring refuses, overwrites the slot that is given back: it
is not free, and the slot of the request that is still in flight is. -/
theorem poll_inside_call_loses_slot :
    (∃ world, run raceStep (.configured smallTxRing 65536 blankMem)
        (callSteps 64 9 ++ otherCorePolls ++ List.replicate 4 .step) = .ok world ∧
      ¬ ReturnedWhenIdle world) ∧
    ∃ world, run raceStep (.configured smallTxRing 65536 blankMem)
        (callSteps 64 13 ++ callSteps 64 13 ++ callSteps 0 10 ++ otherCorePolls ++
          List.replicate 3 .step) = .ok world ∧
      ¬ ReturnedWhenIdle world := by
  constructor
  · have observed : (run raceStep (.configured smallTxRing 65536 blankMem)
        (callSteps 64 9 ++ otherCorePolls ++ List.replicate 4 .step)).toOption.map
          RaceWorld.seenSlots = some (some ⟨true, [false, false, false, false], 4,
            [some 0, none, none, none], [1, 2, 3]⟩) := by decide +kernel
    obtain ⟨world, ran, seen⟩ := ok_of_observed observed
    obtain ⟨pool, holds, same⟩ := Option.map_eq_some_iff.mp seen
    obtain ⟨idle, marks, _, map, _⟩ := SeenSlots.mk.inj same
    refine ⟨world, ran, ?_⟩
    intro returned
    obtain ⟨found, holdsFound, slots⟩ := returned idle
    cases holds.symm.trans holdsFound
    have cleared := slots.cleared 0 (List.cons.inj marks).1
    cases (List.cons.inj map).1.symm.trans cleared
  · have observed : (run raceStep (.configured smallTxRing 65536 blankMem)
        (callSteps 64 13 ++ callSteps 64 13 ++ callSteps 0 10 ++ otherCorePolls ++
          List.replicate 3 .step)).toOption.map
          RaceWorld.seenSlots = some (some ⟨true, [false, true, false, false], 4,
            [none, some 1, none, none], [3, 0, 1]⟩) := by decide +kernel
    obtain ⟨world, ran, seen⟩ := ok_of_observed observed
    obtain ⟨pool, holds, same⟩ := Option.map_eq_some_iff.mp seen
    obtain ⟨idle, _, size, map, free⟩ := SeenSlots.mk.inj same
    refine ⟨world, ran, ?_⟩
    intro returned
    obtain ⟨found, holdsFound, slots⟩ := returned idle
    cases holds.symm.trans holdsFound
    have once := slots.free 2 (by rw [size]; decide) ?_
    · rw [free] at once
      cases once
    intro id bound _ assigned
    have listed : some 2 ∈ (List.range 4).map pool.map := by
      rw [size] at bound
      exact List.mem_map.mpr ⟨id, List.mem_range.mpr bound, assigned⟩
    rw [map] at listed
    revert listed
    decide

end EnaDriver.Netdev
