import EnaDriver.Netdev.Transmit
import EnaDriver.Datapath.TransmitRuns

/-!
# Bounce slots of a transmit queue

Between the calls of a transmit queue every request in flight that was bounced
has its slot in the map, so the slots of requests in flight are distinct and
none of them is free.  The map entries of a reset stay behind; as long as no
request in flight has a slot at a reset, the free window and the map together
hold every slot.
-/

namespace EnaDriver.Netdev

open Support.Laps Support.Windows Support.Polling
open Support.Custody
open Datapath

/-! ## Pools that serve a ring -/

def PostedAt (phys : Nat) (buf : TxBuffer) : Option Nat → Prop
  | some slot => buf.physAddr = phys + slot * txBounceSize ∧ buf.dataLen ≤ txBounceSize
  | none => dmaLowMemLimit ≤ buf.physAddr

/-- Every slot is free, in hand, or the slot of a request in flight. -/
structure Accounts (r : Ring) (pool : BouncePool) (hand : List Nat) : Prop where
  whole : pool.Whole hand
  flying : ∀ id slot, pool.map id = some slot → r.pool.reqInFlight id = true

namespace Accounts

variable {r next : Ring} {pool after : BouncePool} {hand : List Nat} {id slot : Nat}

section

variable (accounts : Accounts r pool hand)
include accounts

/-- The same marks, and slots that only changed places. -/
theorem move {handNext : List Nat} (marks : next.pool.reqInFlight = r.pool.reqInFlight)
    (depth : after.nbDesc = pool.nbDesc) (map : after.map = pool.map)
    (moved : (after.slots handNext).Perm (pool.slots hand)) :
    Accounts next after handNext where
  whole := accounts.whole.of_perm depth moved
  flying := by
    rw [marks, map]
    exact accounts.flying

theorem congr (marks : next.pool.reqInFlight = r.pool.reqInFlight) : Accounts next pool hand :=
  accounts.move marks rfl rfl (.refl _)

theorem vacant (idle : r.pool.reqInFlight id = false) : pool.map id = none := by
  cases assigned : pool.map id with
  | none => rfl
  | some slot =>
    have marked := accounts.flying id slot assigned
    rw [idle] at marked
    cases marked

/-- A completion returns the slot of its request. -/
theorem complete (sound : pool.Sound hand) (bound : id < pool.nbDesc.val)
    (marks : next.pool.reqInFlight = store r.pool.reqInFlight id false) :
    Accounts next (pool.reclaimed id) hand where
  whole := accounts.whole.of_perm (pool.reclaimed_depth id) (sound.reclaimed bound).2
  flying := by
    intro other slot assigned
    rw [pool.reclaimed_map] at assigned
    obtain ⟨apart, assigned⟩ := of_store assigned nofun
    rw [marks, store_other _ _ apart]
    exact accounts.flying other slot assigned

/-- A request that is queued without a slot of its own. -/
theorem queued (marks : next.pool.reqInFlight = store r.pool.reqInFlight id true) :
    Accounts next pool hand where
  whole := accounts.whole
  flying := by
    intro other slot assigned
    rw [marks]
    by_cases same : other = id
    · rw [same, store_same]
    · rw [store_other _ _ same]
      exact accounts.flying other slot assigned

end

theorem record (accounts : Accounts r pool [slot]) (sound : pool.Sound [slot])
    (bound : id < pool.nbDesc.val) (marked : r.pool.reqInFlight id = true)
    (vacant : pool.map id = none) : Accounts r (pool.assign id (some slot)) [] where
  whole := by
    obtain ⟨_, moved⟩ :=
      BouncePool.Sound.assign (show pool.Sound ((some slot).toList ++ []) from sound) bound
    exact accounts.whole.of_perm rfl (moved vacant)
  flying := by
    intro other taken assigned
    change store pool.map id (some slot) other = _ at assigned
    by_cases same : other = id
    · rw [same]
      exact marked
    · rw [store_other _ _ same] at assigned
      exact accounts.flying other taken assigned

end Accounts

/-- The pool of a ring of the same depth is sound, and a request in flight that
uses a slot has it in the map and was posted inside it.  Under the given
condition every slot is free, in hand, or the slot of a request in flight. -/
structure Serves (phys : Nat) (uses : Nat → Option Nat) (condition : Prop) (r : Ring)
    (pool : BouncePool) (hand : List Nat) : Prop where
  depth : pool.nbDesc = r.sqDepth
  base : pool.phys = phys
  sound : pool.Sound hand
  placed : ∀ id, r.pool.reqInFlight id = true → PostedAt phys (r.txBufs id) (uses id)
  mapped : ∀ id slot, r.pool.reqInFlight id = true → uses id = some slot →
    pool.map id = some slot
  accounts : condition → Accounts r pool hand

variable {cpu : Nat} {events : List Event} {ledger : TxLedger} {p : TxPort} {q : TxQueue}

/-- What the completion callback does to a pool. -/
theorem enaNetdevTxqReclaimSlot_bounce {pool : BouncePool} {id : Nat}
    (holds : q.bounce = some pool) (inside : id < pool.nbDesc.val) :
    (enaNetdevTxqReclaimSlot q id).bounce = some (pool.reclaimed id) := by
  unfold enaNetdevTxqReclaimSlot BouncePool.reclaimed
  simp only [holds, if_neg (Nat.not_le_of_lt inside)]
  cases pool.map id with
  | none => exact holds
  | some slot => rfl

structure Queued (r : Ring) (id : Nat) (buf : TxBuffer) (next : Ring) : Prop where
  bound : id < r.sqDepth.val
  idle : r.pool.reqInFlight id = false
  marks : next.pool.reqInFlight = store r.pool.reqInFlight id true
  bufs : next.txBufs = store r.txBufs id buf
  sqDepth : next.sqDepth = r.sqDepth

namespace Serves

variable {phys : Nat} {uses : Nat → Option Nat} {condition : Prop} {r next : Ring}
  {pool : BouncePool} {hand : List Nat} {slot id : Nat} {buf : TxBuffer}

/-- A ring that leaves the requests in flight alone keeps its pool. -/
theorem untouched (serves : Serves phys uses condition r pool hand)
    (untouched : Untouched (r.pool.reqInFlight · = true) r next) :
    Serves phys uses condition next pool hand where
  depth := serves.depth.trans untouched.sqDepth.symm
  base := serves.base
  sound := serves.sound
  placed := by
    intro id marked
    rw [untouched.marks] at marked
    rw [untouched.bufs id marked]
    exact serves.placed id marked
  mapped := by
    rw [untouched.marks]
    exact serves.mapped
  accounts := fun ok => (serves.accounts ok).congr untouched.marks

/-- The consumer position does not matter. -/
theorem advanceCq (serves : Serves phys uses condition r pool hand) :
    Serves phys uses condition r.advanceCq pool hand :=
  ⟨serves.depth, serves.base, serves.sound, serves.placed, serves.mapped,
    fun ok => (serves.accounts ok).congr rfl⟩

/-- The completion of one request returns its slot. -/
theorem complete (serves : Serves phys uses condition r pool []) (holds : q.bounce = some pool)
    (bound : id < r.sqDepth.val)
    (marks : next.pool.reqInFlight = store r.pool.reqInFlight id false)
    (bufs : ∀ other, other ≠ id → next.txBufs other = r.txBufs other)
    (depth : next.sqDepth = r.sqDepth) :
    ∃ after, (enaNetdevTxqReclaimSlot q id).bounce = some after ∧
      Serves phys uses condition next after [] := by
  have inside : id < pool.nbDesc.val := by
    rw [serves.depth]
    exact bound
  have fewer : ∀ other, next.pool.reqInFlight other = true →
      other ≠ id ∧ r.pool.reqInFlight other = true := by
    intro other marked
    rw [marks] at marked
    exact of_store marked nofun
  refine ⟨pool.reclaimed id, enaNetdevTxqReclaimSlot_bounce holds inside, ?_⟩
  constructor
  · rw [pool.reclaimed_depth, serves.depth, depth]
  · exact (pool.reclaimed_phys id).trans serves.base
  · exact (serves.sound.reclaimed inside).1
  · intro other marked
    obtain ⟨differs, before⟩ := fewer other marked
    rw [bufs other differs]
    exact serves.placed other before
  · intro other slot marked used
    obtain ⟨differs, before⟩ := fewer other marked
    rw [pool.reclaimed_map, store_other _ _ differs]
    exact serves.mapped other slot before used
  · intro ok
    exact (serves.accounts ok).complete serves.sound inside marks

theorem pop (serves : Serves phys uses condition r pool []) (some : pool.freeCount ≠ 0) :
    Serves phys uses condition r (BouncePool.pop pool).2 [(BouncePool.pop pool).1] := by
  obtain ⟨sound, moved⟩ := serves.sound.pop some
  exact ⟨serves.depth, serves.base, sound, serves.placed, serves.mapped,
    fun ok => (serves.accounts ok).move rfl rfl rfl moved⟩

theorem giveBack (serves : Serves phys uses condition r pool [slot]) :
    Serves phys uses condition r (pool.giveBack slot) [] := by
  obtain ⟨sound, moved⟩ := serves.sound.giveBack
  exact ⟨serves.depth, serves.base, sound, serves.placed, serves.mapped,
    fun ok => (serves.accounts ok).move rfl rfl rfl moved⟩

/-- A new request was posted where its packet or its slot is. -/
theorem placed_queued (serves : Serves phys uses condition r pool hand)
    (queued : Queued r id buf next) {use : Option Nat} (posted : PostedAt phys buf use)
    (other : Nat) (marked : next.pool.reqInFlight other = true) :
    PostedAt phys (next.txBufs other) (store uses id use other) := by
  rw [queued.marks] at marked
  rw [queued.bufs]
  by_cases same : other = id
  · rw [same, store_same, store_same]
    exact posted
  · rw [store_other _ _ same] at marked
    rw [store_other _ _ same, store_other _ _ same]
    exact serves.placed other marked

/-- Queueing a packet outside low memory: it uses no slot, and the map keeps what
it has under the id. -/
theorem queueDirect (serves : Serves phys uses condition r pool [])
    (queued : Queued r id buf next) (high : dmaLowMemLimit ≤ buf.physAddr) :
    Serves phys (store uses id none) condition next pool [] where
  depth := serves.depth.trans queued.sqDepth.symm
  base := serves.base
  sound := serves.sound
  placed := serves.placed_queued queued high
  mapped := by
    intro other slot marked used
    rw [queued.marks] at marked
    by_cases same : other = id
    · rw [same, store_same] at used
      cases used
    · rw [store_other _ _ same] at marked used
      exact serves.mapped other slot marked used
  accounts := fun ok => (serves.accounts ok).queued queued.marks

/-- Queueing a packet through the slot in hand and recording it under the id. -/
theorem queueBounced (serves : Serves phys uses condition r pool [slot])
    (queued : Queued r id buf next) (posted : PostedAt phys buf (some slot)) :
    Serves phys (store uses id (some slot)) condition next (pool.assign id (some slot)) [] := by
  have inside : id < pool.nbDesc.val := by
    rw [serves.depth]
    exact queued.bound
  obtain ⟨sound, moved⟩ :=
    BouncePool.Sound.assign (show pool.Sound ((some slot).toList ++ []) from serves.sound) inside
  constructor
  · exact serves.depth.trans queued.sqDepth.symm
  · exact serves.base
  · exact sound
  · exact serves.placed_queued queued posted
  · intro other taken marked used
    rw [queued.marks] at marked
    change store pool.map id (some slot) other = _
    by_cases same : other = id
    · rw [same, store_same] at used ⊢
      exact used
    · rw [store_other _ _ same] at marked used ⊢
      exact serves.mapped other taken marked used
  · intro ok
    -- a stale entry would belong to a request in flight, and the id is free
    have vacant := (serves.accounts ok).vacant queued.idle
    have marked : next.pool.reqInFlight id = true := by
      rw [queued.marks, store_same]
    exact ((serves.accounts ok).queued queued.marks).record serves.sound inside marked vacant

/-- A reset clears the marks.  The map stays, so the accounts balance only if no
request in flight has a slot. -/
theorem reset (serves : Serves phys uses condition r pool [])
    (vacant : condition → ∀ id, r.pool.reqInFlight id = true → pool.map id = none)
    (marks : next.pool.reqInFlight = fun _ => false) (depth : next.sqDepth = r.sqDepth) :
    Serves phys uses condition next pool [] := by
  have none : ∀ id, next.pool.reqInFlight id ≠ true := by
    intro id
    rw [marks]
    exact Bool.false_ne_true
  constructor
  · exact serves.depth.trans depth.symm
  · exact serves.base
  · exact serves.sound
  · intro id marked
    exact absurd marked (none id)
  · intro id slot marked
    exact absurd marked (none id)
  · intro ok
    refine ⟨(serves.accounts ok).whole, ?_⟩
    intro id slot assigned
    have empty := vacant ok id ((serves.accounts ok).flying id slot assigned)
    rw [assigned] at empty
    cases empty

end Serves

def KeepsPool (phys : Nat) (uses : Nat → Option Nat) (condition : Prop) (r : Ring)
    (queue : Option TxQueue) : Prop :=
  ∃ q pool, queue = some q ∧ q.bounce = some pool ∧ Serves phys uses condition r pool []

section Calls

variable {phys : Nat} {uses : Nat → Option Nat} {condition : Prop} {r next : Ring} {after : TxPort}

theorem KeepsPool.untouched {queue : Option TxQueue} (keeps : KeepsPool phys uses condition r queue)
    (untouched : Untouched (r.pool.reqInFlight · = true) r next) :
    KeepsPool phys uses condition next queue := by
  obtain ⟨q, pool, found, holds, serves⟩ := keeps
  exact ⟨q, pool, found, holds, serves.untouched untouched⟩

/-! ## Polls -/

theorem txPollEntry_keepsPool {count : Nat} {mem : TxMem}
    (keeps : KeepsPool phys uses condition p.ring p.queue)
    (read : txPollEntry cpu p mem = some (count, after, events)) :
    KeepsPool phys uses condition after.ring after.queue := by
  obtain ⟨_, bound, _⟩ := txPollEntry_cases read
  unfold txPollEntry at read
  simp only at read
  split at read
  · cases read
  split at read
  · cases read
  split at read
  · cases read
    obtain ⟨q, pool, found, holds, serves⟩ := keeps
    exact ⟨q, pool, found, holds, serves.advanceCq⟩
  cases read
  have disposed := txDispose_untouched (txAcknowledge p.ring (mem p.ring.cqSlot)) cpu
    (mem p.ring.cqSlot).reqId
  obtain ⟨q, pool, found, holds, serves⟩ := keeps
  obtain ⟨last, reclaimed, served⟩ :=
    serves.complete holds bound disposed.marks disposed.bufs disposed.sqDepth
  exact ⟨_, last, congrArg (Option.map _) found, reclaimed, served.advanceCq⟩

/-- The poll rule: what the release of parked requests and every iteration keep, a
poll keeps. -/
theorem enaTxPollCompletions_keeps (Inv : TxPort → Prop) {budget : Nat}
    {views : List TxMem} {ret : Int} (tracks : Tracks p.ring ledger)
    (unlocked : p.ring.ringLock = false)
    (calm : ∀ {r next queue}, Inv ⟨r, queue⟩ → Untouched (r.pool.reqInFlight · = true) r next →
      Inv ⟨next, queue⟩) (entry : ∀ {state mem added next outputs}, mem ∈ views → Inv state →
      txPollEntry cpu state mem = some (added, next, outputs) → Inv next) (start : Inv p)
    (returned : enaTxPollCompletions p cpu budget views = .ok (ret, after, events)) :
    Inv after := by
  rcases enaTxPollCompletions_cases tracks unlocked returned with
    ⟨rfl, _⟩ | ⟨drained, first, cleaned, last, rest, drain, _, looped, rfl, _⟩
  · exact start
  have locked : Inv ⟨{ p.ring with ringLock := true }, p.queue⟩ :=
    calm start ⟨rfl, fun _ _ => rfl, rfl, rfl, rfl⟩
  have between : Inv ⟨drained, p.queue⟩ :=
    calm locked (enaTxDrainForeignFrees_untouched (show Tracks _ ledger from tracks) drain)
  have ended : Inv last := by
    have iterates := pollLoop_iterates looped
    refine iterates.rel (fun state _ final => Inv state → Inv final) (fun _ start => start) ?_ between
    intro state view added after outputs rest final member read later start
    exact later (entry member start read)
  exact calm ended ⟨rfl, fun _ _ => rfl, rfl, rfl, rfl⟩

theorem enaTxPollCompletions_keepsPool {budget : Nat} {views : List TxMem} {ret : Int}
    (tracks : Tracks p.ring ledger) (unlocked : p.ring.ringLock = false)
    (keeps : KeepsPool phys uses condition p.ring p.queue)
    (returned : enaTxPollCompletions p cpu budget views = .ok (ret, after, events)) :
    KeepsPool phys uses condition after.ring after.queue :=
  enaTxPollCompletions_keeps (fun port => KeepsPool phys uses condition port.ring port.queue)
    tracks unlocked (fun start untouched => start.untouched untouched)
    (fun _ start read => txPollEntry_keepsPool start read) keeps returned

/-! ## Transmit calls -/

/-- A packet is refused without a trace on the ring, or queued under the id at the
head of the free window. -/
theorem enaNetdevTxXmitOne_cases (r : Ring) (cpu : Nat) (pkt : TxPkt)
    (hdrData : Option (List UInt8)) (unlocked : r.ringLock = false) :
    ∃ out, enaNetdevTxXmitOne r cpu pkt hdrData = .ok out ∧ Quiet out.events ∧
      ((out.ret ≠ 0 ∧ out.reqId = none ∧ out.ring = r) ∨
        ∃ reqId pool, enaRingReqIdAlloc r.sqDepth r.pool = some (reqId, pool) ∧ out.ret = 0 ∧
          out.reqId = some reqId ∧
          (out.ring = txSubmitted r cpu pkt reqId pool ∨
            out.ring = llqPushed r pkt reqId pool)) := by
  unfold enaNetdevTxXmitOne
  split
  · exact enaLlqTxPush_cases r cpu pkt hdrData _ unlocked
  obtain ⟨out, ran, none, outcome⟩ := enaTxSubmit_cases r cpu pkt unlocked
  rw [ran]
  refine ⟨_, rfl, ?_, ?_⟩
  · rw [none]
    change Quiet ([] ++ if out.ret = 0 then _ else _)
    rw [List.nil_append]
    split
    · exact enaTxDoorbell_quiet out.ring
    · exact .nil
  · rcases outcome with refused | ⟨reqId, pool, found, ret, given, _, _, ring⟩
    · exact Or.inl refused
    · exact Or.inr ⟨reqId, pool, found, ret, given, Or.inl ring⟩

/-- A queued packet is a new request in flight, on a ring that is tracked. -/
theorem queued_of_alloc {reqId : Nat} {pkt : TxPkt} {pool : RequestPool}
    (tracks : Tracks r ledger) (unlocked : r.ringLock = false)
    (found : enaRingReqIdAlloc r.sqDepth r.pool = some (reqId, pool))
    (ring : next = txSubmitted r cpu pkt reqId pool ∨ next = llqPushed r pkt reqId pool) :
    Queued r reqId ⟨pkt.netbuf, pkt.physAddr, pkt.len, 1, reqId⟩ next ∧
      Tracks next (store ledger reqId (.active ⟨pkt.netbuf, cpu⟩)) ∧ next.ringLock = false ∧
      next.cqDepth = r.cqDepth ∧ next.cqHead = r.cqHead := by
  obtain ⟨bound, _, _, _, flags, _, _⟩ := RequestPool.alloc_cases tracks.2.sound found
  obtain ⟨isFree, _, tracked⟩ := txTrack_tracks tracks found cpu pkt
  have idle : r.pool.reqInFlight reqId = false := by
    rw [tracks.2.inFlight, isFree]
    rfl
  rcases ring with rfl | rfl
  · exact ⟨⟨bound, idle, congrArg (store · reqId true) flags, rfl, rfl⟩, tracked, unlocked, rfl, rfl⟩
  · exact ⟨⟨bound, idle, congrArg (store · reqId true) flags, rfl, rfl⟩, tracked, unlocked, rfl, rfl⟩

inductive Reserved (build : Build) (frame : TxFrame) (q : TxQueue) (pool : BouncePool) :
    Except Int (Option Nat × TxQueue) → Prop
  | refused (ret : Int) : Reserved build frame q pool (.error ret)
  | direct (high : dmaLowMemLimit ≤ frame.phys build) :
      Reserved build frame q pool (.ok (none, q))
  | bounced (stocked : pool.freeCount ≠ 0) (short : frame.nb.len ≤ txBounceSize) :
      Reserved build frame q pool
        (.ok (some (BouncePool.pop pool).1, TxQueue.withPool q (BouncePool.pop pool).2))

theorem xmitReserve_cases (build : Build) (frame : TxFrame) {pool : BouncePool}
    (holds : q.bounce = some pool) : Reserved build frame q pool (xmitReserve build frame q) := by
  unfold xmitReserve
  split
  · rename_i high
    exact .direct high
  simp only [holds]
  split
  · exact .refused _
  rename_i stocked
  split
  · exact .refused _
  · rename_i short
    exact .bounced stocked (Nat.le_of_not_lt short)

end Calls

/-! ## The system -/

structure TxBounceWorld where
  channel : TxChannel
  uses : Nat → Option Nat

/-- An operation on a transmit queue.  Recovery from a reset creates the queues of
the ring again. -/
inductive TxBounceOp where
  | txOne (cpu : Nat) (frame : TxFrame) (input : TxInput)
  | txqXmit (running : Bool) (nbTxQueues cpu : Nat) (frame : TxFrame) (input : TxInput)
  | poll (cpu budget : Nat) (changing : List TxMem) (settled : TxMem)
  | reset
  | createHw (dev : DeviceMap) (answers : AdminReq → Int × Response) (vector : Nat)
  | destroyHw (answers : AdminReq → Int × Response)

def TxBounceWorld.sent (world : TxBounceWorld) (out : Xmitted) : TxBounceWorld where
  channel := out.channel
  uses := match out.reqId with
    | none => world.uses
    | some reqId => store world.uses reqId out.slot

def TxBounceWorld.withRing (world : TxBounceWorld) (ring : Ring) : TxBounceWorld :=
  { world with channel := { world.channel with ring := ring } }

def txBounceStep (world : TxBounceWorld) : TxBounceOp → Except Fault TxBounceWorld
  | .txOne cpu frame input => do
    let out ← enaNetdevTxOne cpu world.channel frame input
    return world.sent out
  | .txqXmit running nbTxQueues cpu frame input => do
    let out ← enaNetdevTxqXmit running nbTxQueues cpu world.channel frame input
    return world.sent out
  | .poll cpu budget changing settled => do
    let (_, port, _) ← enaTxPollCompletions world.channel.port cpu budget
      (pollViews world.channel.ring changing settled)
    return { world with channel := world.channel.update port }
  | .reset => do
    let (ring, _) ← enaAdapterInvalidateIoRing world.channel.ring
    return world.withRing ring
  | .createHw dev answers vector => do
    let (_, ring) ← createHwOn dev answers vector world.channel.ring
    return world.withRing ring
  | .destroyHw answers => do
    let (_, ring) ← destroyHwOn answers world.channel.ring
    return world.withRing ring

/-- At a reset no request in flight has a bounce slot. -/
def TxVacant (world : TxBounceWorld) : TxBounceOp → Prop
  | .reset => ∀ pool, world.channel.queue.bounce = some pool →
      ∀ id, world.channel.ring.pool.reqInFlight id = true → pool.map id = none
  | _ => True

structure TxServed (phys : Nat) (condition : Prop) (world : TxBounceWorld) : Prop where
  tracks : ∃ ledger, Tracks world.channel.ring ledger
  unlocked : world.channel.ring.ringLock = false
  located : ∃ count, world.channel.ring.cqHead = Cursor.after world.channel.ring.cqDepth count
  keeps : KeepsPool phys world.uses condition world.channel.ring (some world.channel.queue)

section Served

variable {phys : Nat} {condition : Prop} {world : TxBounceWorld}

/-- A change of the ring that leaves its requests and its positions alone. -/
theorem TxServed.withRing (served : TxServed phys condition world) {ring : Ring}
    (tracks : ∀ ledger, Tracks world.channel.ring ledger → Tracks ring ledger)
    (unlocked : ring.ringLock = false)
    (untouched : Untouched (world.channel.ring.pool.reqInFlight · = true) world.channel.ring ring) :
    TxServed phys condition (world.withRing ring) where
  tracks := by
    obtain ⟨ledger, tracked⟩ := served.tracks
    exact ⟨ledger, tracks ledger tracked⟩
  unlocked := unlocked
  located := by
    obtain ⟨count, located⟩ := served.located
    refine ⟨count, ?_⟩
    change ring.cqHead = Cursor.after ring.cqDepth count
    rw [untouched.cqDepth, untouched.cqHead]
    exact located
  keeps := served.keeps.untouched untouched

theorem TxServed.poll (served : TxServed phys condition world) (cpu budget : Nat)
    (changing : List TxMem) (settled : TxMem) :
    ∃ ret port events, enaTxPollCompletions world.channel.port cpu budget
        (pollViews world.channel.ring changing settled) = .ok (ret, port, events) ∧
      TxServed phys condition { world with channel := world.channel.update port } := by
  obtain ⟨ledger, tracks⟩ := served.tracks
  obtain ⟨count, located⟩ := served.located
  obtain ⟨ret, port, events, ran⟩ := enaTxPollCompletions_total cpu budget changing settled
    (p := world.channel.port) tracks served.unlocked located
  obtain ⟨reaped, unlocked⟩ := enaTxPollCompletions_reaps tracks served.unlocked ran
  obtain ⟨frame, ⟨_, after, _, tracked, _⟩, moved⟩ := reaped ledger tracks
  have kept := enaTxPollCompletions_keepsPool tracks served.unlocked served.keeps ran
  refine ⟨ret, port, events, ran, ⟨after, tracked⟩, unlocked, ⟨count + consumed events, ?_⟩, ?_⟩
  · change port.ring.cqHead = Cursor.after port.ring.cqDepth _
    rw [frame.cqDepth]
    exact moved count located
  · obtain ⟨q, pool, found, holds, serves⟩ := kept
    refine ⟨_, pool, rfl, ?_, serves⟩
    rw [TxChannel.update, found]
    exact holds

/-- A packet may be sent without a slot from outside low memory, and through a
slot if it is not longer than the slot. -/
def Suits (build : Build) (frame : TxFrame) : Option Nat → Prop
  | none => dmaLowMemLimit ≤ frame.phys build
  | some _ => frame.nb.len ≤ txBounceSize

/-- The packet of a call is sent from where its slot or its data is. -/
theorem xmitPkt_postedAt {build : Build} {frame : TxFrame} {pool : BouncePool} {slot : Option Nat}
    (suits : Suits build frame slot) (holds : q.bounce = some pool) (netbuf : Option Netbuf)
    (reqId : Nat) :
    PostedAt pool.phys ⟨netbuf, (xmitPkt build frame q slot).physAddr,
      (xmitPkt build frame q slot).len, 1, reqId⟩ slot := by
  have fields : (xmitPkt build frame q slot).physAddr = xmitAddr build frame q slot ∧
      (xmitPkt build frame q slot).len = frame.nb.len % 2 ^ 32 := by
    unfold xmitPkt enaNetdevClassifyTxPkt
    split <;> exact ⟨rfl, rfl⟩
  rw [fields.1, fields.2]
  cases slot with
  | none => exact suits
  | some slot =>
    constructor
    · change xmitAddr build frame q (some slot) = _
      rw [xmitAddr, holds]
      rfl
    · exact Nat.le_trans (Nat.mod_le _ _) suits

theorem noteStall_bounce (q : TxQueue) : (noteStall q).bounce = q.bounce := by
  unfold noteStall
  split
  · rfl
  · split <;> rfl

/-- Queueing a packet with the slot it reserved, and settling the slot. -/
theorem TxServed.send {c : TxChannel} {uses : Nat → Option Nat} {pool : BouncePool}
    (slot : Option Nat) {build : Build} {frame : TxFrame} (cpu : Nat)
    (hdrData : Option (List UInt8)) (tracks : Tracks c.ring ledger)
    (unlocked : c.ring.ringLock = false)
    (located : ∃ count, c.ring.cqHead = Cursor.after c.ring.cqDepth count)
    (holds : c.queue.bounce = some pool)
    (serves : Serves phys uses condition c.ring pool slot.toList) (suits : Suits build frame slot) :
    ∃ out, enaNetdevTxXmitOne c.ring cpu (xmitPkt build frame c.queue slot) hdrData = .ok out ∧
      TxServed phys condition ⟨xmitSettle c slot out, match out.reqId with
        | none => uses
        | some reqId => store uses reqId slot⟩ := by
  have posted := xmitPkt_postedAt suits holds
  rw [serves.base] at posted
  obtain ⟨out, ran, _, outcome⟩ := enaNetdevTxXmitOne_cases c.ring cpu
    (xmitPkt build frame c.queue slot) hdrData unlocked
  refine ⟨out, ran, ?_⟩
  rcases outcome with ⟨failed, absent, ring⟩ | ⟨reqId, free, found, ret, given, ring⟩
  · unfold xmitSettle
    rw [absent, if_neg failed, ring]
    cases slot with
    | none =>
      exact ⟨⟨ledger, tracks⟩, unlocked, located, c.queue, pool, rfl, holds,
        serves.untouched ⟨rfl, fun _ _ => rfl, rfl, rfl, rfl⟩⟩
    | some slot =>
      simp only [holds]
      exact ⟨⟨ledger, tracks⟩, unlocked, located, _, _, rfl, rfl,
        serves.giveBack.untouched ⟨rfl, fun _ _ => rfl, rfl, rfl, rfl⟩⟩
  · obtain ⟨queued, tracked, free, depth, head⟩ := queued_of_alloc tracks unlocked found ring
    have moved : ∃ count, out.ring.cqHead = Cursor.after out.ring.cqDepth count := by
      rw [head, depth]
      exact located
    unfold xmitSettle
    rw [if_pos ret, given]
    cases slot with
    | none =>
      exact ⟨⟨_, tracked⟩, free, moved, c.queue, pool, rfl, holds,
        serves.queueDirect queued (posted _ _)⟩
    | some slot =>
      simp only [holds]
      exact ⟨⟨_, tracked⟩, free, moved, _, _, rfl, rfl, serves.queueBounced queued (posted _ _)⟩

theorem TxServed.xmit (served : TxServed phys condition world) (build : Build) (cpu : Nat)
    (frame : TxFrame) (input : TxInput) :
    ∃ out, xmit build cpu world.channel frame input = .ok out ∧
      TxServed phys condition (world.sent out) := by
  obtain ⟨_, port, reaped, ran, polled⟩ :=
    served.poll cpu (xmitBudget build) input.changing input.settled
  obtain ⟨ledger, tracks⟩ := polled.tracks
  obtain ⟨q, pool, found, holds, serves⟩ := polled.keeps
  cases found
  have stalled : (noteStall (world.channel.update port).queue).bounce = some pool :=
    (noteStall_bounce _).trans holds
  unfold Netdev.xmit
  rw [ran]
  simp only [bind, Except.bind]
  have reserved := xmitReserve_cases build frame stalled
  cases chosen : xmitReserve build frame (noteStall (world.channel.update port).queue) with
  | error ret =>
    exact ⟨_, rfl, ⟨ledger, tracks⟩, polled.unlocked, polled.located, _, pool, rfl, stalled,
      serves.untouched ⟨rfl, fun _ _ => rfl, rfl, rfl, rfl⟩⟩
  | ok choice =>
    obtain ⟨slot, queue⟩ := choice
    rw [chosen] at reserved
    cases reserved with
    | direct high =>
      obtain ⟨out, sent, after⟩ := TxServed.send
        (c := ⟨port.ring, noteStall (world.channel.update port).queue⟩) none
        cpu (xmitHeader frame input.stale none) tracks polled.unlocked polled.located stalled
        serves (show Suits build frame none from high)
      simp only [show (world.channel.update port).ring = port.ring from rfl, sent]
      exact ⟨_, rfl, after⟩
    | bounced stocked short =>
      obtain ⟨out, sent, after⟩ := TxServed.send
        (c := ⟨port.ring, TxQueue.withPool (noteStall (world.channel.update port).queue)
          (BouncePool.pop pool).2⟩) (some (BouncePool.pop pool).1)
        cpu (xmitHeader frame input.stale (some (BouncePool.pop pool).1)) tracks
        polled.unlocked polled.located rfl (serves.pop stocked)
        (show Suits build frame (some _) from short)
      simp only [show (world.channel.update port).ring = port.ring from rfl, sent]
      exact ⟨_, rfl, after⟩

theorem txBounceStep_served (served : TxServed phys condition world) (op : TxBounceOp)
    (vacant : condition → TxVacant world op) :
    ∃ next, txBounceStep world op = .ok next ∧ TxServed phys condition next := by
  cases op with
  | txOne cpu frame input =>
    obtain ⟨out, ran, kept⟩ := served.xmit .unikraft cpu frame input
    refine ⟨world.sent out, ?_, kept⟩
    rw [txBounceStep, enaNetdevTxOne, ran]
    rfl
  | txqXmit running nbTxQueues cpu frame input =>
    rw [txBounceStep, enaNetdevTxqXmit]
    split
    · exact ⟨_, rfl, served.tracks, served.unlocked, served.located, served.keeps⟩
    split
    · exact ⟨_, rfl, served.tracks, served.unlocked, served.located, served.keeps⟩
    · obtain ⟨out, ran, kept⟩ := served.xmit .host cpu frame input
      refine ⟨world.sent out, ?_, kept⟩
      rw [ran]
      rfl
  | poll cpu budget changing settled =>
    obtain ⟨_, port, _, ran, kept⟩ := served.poll cpu budget changing settled
    refine ⟨_, ?_, kept⟩
    rw [txBounceStep, ran]
    rfl
  | reset =>
    obtain ⟨ledger, tracks⟩ := served.tracks
    obtain ⟨txBufs, rxBufs, events, _, ran, _, tracked, _, _⟩ :=
      enaAdapterInvalidateIoRing_empties tracks served.unlocked
    obtain ⟨q, pool, found, holds, serves⟩ := served.keeps
    cases found
    refine ⟨world.withRing (world.channel.ring.emptied txBufs rxBufs), ?_, ⟨_, tracked⟩, rfl,
      ⟨0, (Cursor.after_zero _).symm⟩, _, pool, rfl, holds,
      serves.reset (fun ok => vacant ok pool holds) rfl rfl⟩
    rw [txBounceStep, ran]
    rfl
  | createHw dev answers vector =>
    obtain ⟨ret, hw, ran⟩ := createHwOn_hwOnly dev answers vector world.channel.ring
    refine ⟨world.withRing { world.channel.ring with hw := hw }, ?_, served.withRing
      (fun _ tracked => tracked) served.unlocked ⟨rfl, fun _ _ => rfl, rfl, rfl, rfl⟩⟩
    rw [txBounceStep, ran]
    rfl
  | destroyHw answers =>
    obtain ⟨ret, hw, ran⟩ := destroyHwOn_hwOnly answers world.channel.ring
    refine ⟨world.withRing { world.channel.ring with hw := hw }, ?_, served.withRing
      (fun _ tracked => tracked) served.unlocked ⟨rfl, fun _ _ => rfl, rfl, rfl, rfl⟩⟩
    rw [txBounceStep, ran]
    rfl

end Served

/-! ## Configured queues -/

def TxQueue.configured (queueId phys : Nat) (d : Depth) : TxQueue where
  queueId := queueId
  bounce := some (.fresh phys d)
  bounceInUse := false
  bounceReqId := 0
  bounceWaitPolls := 0

def TxBounceWorld.configured (ring : Ring) (phys : Nat) : TxBounceWorld :=
  ⟨⟨ring, TxQueue.configured ring.qid phys ring.sqDepth⟩, fun _ => none⟩

theorem configured_served {qid : Nat} {depth : UInt16} {memory : Nat → Option Nat} {ring : Ring}
    (built : enaRingAlloc qid .tx depth depth memory = .ok ring) (phys : Nat) (condition : Prop) :
    TxServed phys condition (.configured ring phys) := by
  obtain ⟨_, _, _, _, _, fresh⟩ := enaRingAlloc_ok built
  have idle : ring.pool.reqInFlight = fun _ => false := by
    rw [fresh]
    rfl
  have nothing : ∀ id, ring.pool.reqInFlight id ≠ true := by
    intro id
    rw [idle]
    exact Bool.false_ne_true
  refine ⟨⟨Ledger.empty, ?_⟩, ?_, ⟨0, ?_⟩, _, _, rfl, rfl, ?_⟩
  · change Tracks ring _
    rw [fresh]
    exact ⟨rfl, TxCustody.fresh ring.sqDepth⟩
  · change ring.ringLock = false
    rw [fresh]
    rfl
  · change ring.cqHead = _
    rw [Cursor.after_zero, fresh]
    rfl
  · exact {
      depth := rfl
      base := rfl
      sound := BouncePool.fresh_sound phys ring.sqDepth
      placed := fun id marked => absurd marked (nothing id)
      mapped := fun id slot marked => absurd marked (nothing id)
      accounts := by
        intro _
        refine ⟨BouncePool.fresh_whole phys ring.sqDepth, ?_⟩
        intro id slot impossible
        cases impossible }

end EnaDriver.Netdev
