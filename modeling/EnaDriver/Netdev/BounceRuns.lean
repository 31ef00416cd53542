import EnaDriver.Netdev.TransmitBounce
import EnaDriver.Netdev.ReceiveBounce
import EnaDriver.Netdev.Reassembly
import EnaDriver.Datapath.Positions

/-!
# Bounce slots over whole runs

In every run of a transmit or receive queue the requests in flight have slots of
their own.  Slots are lost only at a reset: the ring forgets its requests, and
nothing returns their slots to the queue.
-/

namespace EnaDriver.Netdev

open Support.Laps
open Support.Custody Support.Runs
open Datapath

/-! ## Receive calls as operations -/

variable {c : RxChannel} {inputs : List RxInput} {phys : Nat} {result : Received}

def callOps (build : Build) (answers : Nat → Option Netbuf) (inputs : List RxInput) :
    List RxBounceOp := .refill build answers true :: inputs.map (.turn build)

/-- A system over the operations of a receive queue: each step is one on its channel,
and `Sees` relates its states around a frame that is returned and the fragments. -/
structure Observes {ω : Type} (step : ω → RxBounceOp → Except Fault ω) (channel : ω → RxChannel)
    (Sees : ω → Option (List Netbuf) → List Fragment → ω → Prop) : Prop where
  idle : ∀ world, Sees world none [] world
  append : ∀ {first between last frame early late}, Sees first none early between →
    Sees between frame late last → Sees first frame (early ++ late) last
  refill : ∀ {world build answers next events},
    refill build (channel world) answers true = .ok (next, events) →
    ∃ last, step world (.refill build answers true) = .ok last ∧ channel last = next ∧
      Sees world none [] last
  turn : ∀ {world build input result}, rxTurn build (channel world) input = .ok result →
    ∃ last, step world (.turn build input) = .ok last ∧ channel last = result.channel ∧
      Sees world result.turn.frame result.fragments last

section Observes

variable {ω : Type} {step : ω → RxBounceOp → Except Fault ω} {channel : ω → RxChannel}
  {Sees : ω → Option (List Netbuf) → List Fragment → ω → Prop} {answers : Nat → Option Netbuf}
  {build : Build} {world : ω}

def Calls (step : ω → RxBounceOp → Except Fault ω) (channel : ω → RxChannel)
    (Sees : ω → Option (List Netbuf) → List Fragment → ω → Prop) (world : ω)
    (allowed : List RxBounceOp) (result : Received) : Prop :=
  ∃ ops last, ops ⊆ allowed ∧ run step world ops = .ok last ∧ channel last = result.channel ∧
    Sees world result.frame result.fragments last

namespace Observes

variable (observes : Observes step channel Sees)
include observes

theorem recvLoop (returned : recvLoop build (channel world) inputs = .ok result) :
    Calls step channel Sees world (inputs.map (.turn build)) result := by
  induction inputs generalizing world result with
  | nil => cases returned
  | cons input inputs ih =>
    rw [Netdev.recvLoop] at returned
    obtain ⟨turned, ran, returned⟩ := bind_ok returned
    obtain ⟨next, stepped, here, seen⟩ := observes.turn ran
    split at returned
    · rename_i ends
      cases returned
      rw [ends] at seen
      exact ⟨[.turn build input], next, by simp, run_cons stepped [], here, seen⟩
    rename_i again
    obtain ⟨rest, looped, returned⟩ := bind_ok returned
    cases returned
    rw [again] at seen
    rw [← here] at looped
    obtain ⟨ops, last, among, ran, there, later⟩ := ih looped
    exact ⟨.turn build input :: ops, last, List.cons_subset_cons _ among,
      (run_cons stepped _).trans ran, there, observes.append seen later⟩

theorem call {between : RxChannel} {events : List Event} {received : Received}
    (refilled : Netdev.refill build (channel world) answers true = .ok (between, events))
    (looped : Netdev.recvLoop build between inputs = .ok received) :
    Calls step channel Sees world (callOps build answers inputs)
      { received with events := events ++ received.events } := by
  obtain ⟨next, stepped, here, seen⟩ := observes.refill refilled
  rw [← here] at looped
  obtain ⟨ops, last, among, ran, there, later⟩ := observes.recvLoop looped
  exact ⟨.refill build answers true :: ops, last, List.cons_subset_cons _ among,
    (run_cons stepped _).trans ran, there, observes.append seen later⟩

theorem rxOne (returned : enaNetdevRxOne (channel world) answers inputs = .ok result) :
    Calls step channel Sees world (callOps .unikraft answers inputs) result := by
  rw [enaNetdevRxOne] at returned
  obtain ⟨⟨between, events⟩, refilled, returned⟩ := bind_ok returned
  obtain ⟨received, looped, returned⟩ := bind_ok returned
  cases returned
  exact observes.call refilled looped

theorem rxqRecv {running : Bool} {nbRxQueues : Nat}
    (returned : enaNetdevRxqRecv running nbRxQueues (channel world) answers inputs = .ok result) :
    Calls step channel Sees world (callOps .host answers inputs) result := by
  unfold enaNetdevRxqRecv at returned
  split at returned
  · cases returned
    exact ⟨[], world, List.nil_subset _, rfl, rfl, observes.idle world⟩
  split at returned
  · cases returned
    exact ⟨[], world, List.nil_subset _, rfl, rfl, observes.idle world⟩
  · obtain ⟨⟨between, events⟩, refilled, returned⟩ := bind_ok returned
    obtain ⟨received, looped, returned⟩ := bind_ok returned
    cases returned
    exact observes.call refilled looped

end Observes

end Observes

theorem rxBounceStep_observes : Observes rxBounceStep id fun _ _ _ _ => True where
  idle := fun _ => trivial
  append := fun _ _ => trivial
  refill := by
    intro c build answers next events refilled
    refine ⟨next, ?_, rfl, trivial⟩
    rw [rxBounceStep, show refill build c answers true = _ from refilled]
    rfl
  turn := by
    intro c build input result turned
    refine ⟨result.channel, ?_, rfl, trivial⟩
    rw [rxBounceStep, show rxTurn build c input = _ from turned]
    rfl

/-- A receive call of the Unikraft build is a run of operations. -/
theorem enaNetdevRxOne_run {answers : Nat → Option Netbuf}
    (returned : enaNetdevRxOne c answers inputs = .ok result) :
    ∃ ops, ops ⊆ callOps .unikraft answers inputs ∧ run rxBounceStep c ops = .ok result.channel := by
  obtain ⟨ops, _, among, ran, here, _⟩ := rxBounceStep_observes.rxOne returned
  exact ⟨ops, among, ran.trans (congrArg Except.ok here)⟩

theorem enaNetdevRxqRecv_run {answers : Nat → Option Netbuf} {running : Bool} {nbRxQueues : Nat}
    (returned : enaNetdevRxqRecv running nbRxQueues c answers inputs = .ok result) :
    ∃ ops, ops ⊆ callOps .host answers inputs ∧ run rxBounceStep c ops = .ok result.channel := by
  obtain ⟨ops, _, among, ran, here, _⟩ := rxBounceStep_observes.rxqRecv returned
  exact ⟨ops, among, ran.trans (congrArg Except.ok here)⟩

/-! ## Configured receive queues -/

def RxChannel.configured (ring : Ring) (allocRxpkts : Bool) (phys : Nat) : RxChannel where
  ring := ring.withCallbacks true true
  queue :=
    { queueId := ring.qid
      allocRxpkts := allocRxpkts
      bounce := some (.fresh phys ring.sqDepth)
      pendingSlot := none
      chain := [] }

theorem rxConfigured_served {qid : Nat} {depth : UInt16} {memory : Nat → Option Nat} {ring : Ring}
    (built : enaRingAlloc qid .rx depth depth memory = .ok ring) (allocRxpkts : Bool) (phys : Nat)
    (condition : Prop) : RxServed phys condition (.configured ring allocRxpkts phys) := by
  obtain ⟨_, _, _, _, _, fresh⟩ := enaRingAlloc_ok built
  have empty : ∀ id, (ring.rxBufs id).netbuf = none := by
    intro id
    rw [fresh]
    rfl
  refine ⟨⟨Ledger.empty, ?_⟩, ?_, ⟨0, ?_⟩, _, _, rfl, rfl, rfl, ?_⟩
  · change RxTracks (ring.withCallbacks true true) _
    rw [fresh]
    exact ⟨rfl, RxCustody.fresh ring.sqDepth⟩
  · change ring.ringLock = false
    rw [fresh]
    rfl
  · change ring.cqHead = _
    rw [Cursor.after_zero, fresh]
    rfl
  · exact {
      depth := rfl
      base := rfl
      sound := BouncePool.fresh_sound phys ring.sqDepth
      placed := by
        intro id nb held
        cases (empty id).symm.trans held
      whole := fun _ => BouncePool.fresh_whole phys ring.sqDepth
      flying := by
        intro _ id slot impossible
        cases impossible }

/-! ## Slots of requests in flight -/

/-- The requests in flight and the free window are apart: `uses` gives the slot of
a bounced request, and `dma` the address and the length that were posted. -/
structure SlotsApart (pool : BouncePool) (size : Nat) (flies : Nat → Prop)
    (uses : Nat → Option Nat) (dma : Nat → Nat × Nat) : Prop where
  apart : ∀ first second slot, flies first → flies second → uses first = some slot →
    uses second = some slot → first = second
  busy : ∀ id slot, flies id → uses id = some slot → slot ∉ pool.free
  once : pool.free.Nodup
  inside : ∀ id slot, flies id → uses id = some slot → slot < pool.nbDesc.val ∧
    pool.phys + slot * size ≤ (dma id).1 ∧ (dma id).1 + (dma id).2 ≤ pool.phys + (slot + 1) * size
  direct : ∀ id, flies id → uses id = none → dmaLowMemLimit ≤ (dma id).1

theorem slotsApart_of_map {pool : BouncePool} {size : Nat} {flies : Nat → Prop}
    {uses : Nat → Option Nat} {dma : Nat → Nat × Nat} (sound : pool.Sound [])
    (bound : ∀ id, flies id → id < pool.nbDesc.val)
    (mapped : ∀ id slot, flies id → uses id = some slot → pool.map id = some slot ∧
      (dma id).1 = pool.phys + slot * size ∧ (dma id).2 ≤ size)
    (direct : ∀ id, flies id → uses id = none → dmaLowMemLimit ≤ (dma id).1) :
    SlotsApart pool size flies uses dma where
  apart := by
    intro first second slot fliesFirst fliesSecond usesFirst usesSecond
    exact sound.injective (bound first fliesFirst) (bound second fliesSecond)
      (mapped first slot fliesFirst usesFirst).1 (mapped second slot fliesSecond usesSecond).1
  busy := fun id slot flying used => sound.not_free (bound id flying) (mapped id slot flying used).1
  once := (List.nodup_append.mp sound.nodup).1
  inside := by
    intro id slot flying used
    obtain ⟨found, start, short⟩ := mapped id slot flying used
    refine ⟨sound.mapped_lt (bound id flying) found, Nat.le_of_eq start.symm, ?_⟩
    rw [start, Nat.succ_mul]
    omega
  direct := direct

def TxApart (world : TxBounceWorld) : Prop :=
  ∃ pool, world.channel.queue.bounce = some pool ∧
    SlotsApart pool txBounceSize (world.channel.ring.pool.reqInFlight · = true) world.uses
      fun id => ((world.channel.ring.txBufs id).physAddr, (world.channel.ring.txBufs id).dataLen)

theorem TxServed.inFlight_lt {condition : Prop} {world : TxBounceWorld}
    (served : TxServed phys condition world) (id : Nat)
    (marked : world.channel.ring.pool.reqInFlight id = true) :
    id < world.channel.ring.sqDepth.val := by
  obtain ⟨ledger, tracks⟩ := served.tracks
  obtain ⟨item, active⟩ := tracks.active_of_inFlight (by rw [marked]; decide)
  exact tracks.2.lt (by rw [active]; rfl)

theorem TxServed.apart {condition : Prop} {world : TxBounceWorld}
    (served : TxServed phys condition world) : TxApart world := by
  obtain ⟨_, pool, found, holds, serves⟩ := served.keeps
  obtain ⟨ledger, tracks⟩ := served.tracks
  cases found
  refine ⟨pool, holds, slotsApart_of_map serves.sound ?_ ?_ ?_⟩
  · intro id marked
    rw [serves.depth]
    exact served.inFlight_lt id marked
  · intro id slot marked used
    have posted := serves.placed id marked
    rw [used] at posted
    exact ⟨serves.mapped id slot marked used, by rw [serves.base]; exact posted.1, posted.2⟩
  · intro id marked none
    have posted := serves.placed id marked
    rw [none] at posted
    exact posted

def rxSlotOf (pool : BouncePool) (buf : RxBuffer) : Option Nat :=
  buf.netbuf.bind fun nb =>
    if nb.physAddr < dmaLowMemLimit then some ((buf.physAddr - pool.phys) / rxBufSize) else none

/-- The slots of a receive channel.  A request in flight holds a buffer. -/
def RxApart (c : RxChannel) : Prop :=
  ∃ pool, c.queue.bounce = some pool ∧
    SlotsApart pool rxBufSize
      (fun id => c.ring.pool.reqInFlight id = true ∧ (c.ring.rxBufs id).netbuf.isSome = true)
      (fun id => rxSlotOf pool (c.ring.rxBufs id))
      fun id => ((c.ring.rxBufs id).physAddr, (c.ring.rxBufs id).dataLen)

theorem RxServed.apart {condition : Prop} (served : RxServed phys condition c) : RxApart c := by
  obtain ⟨_, pool, found, holds, _, serves⟩ := served.keeps
  obtain ⟨ledger, tracks⟩ := served.tracks
  cases found
  refine ⟨pool, holds, slotsApart_of_map serves.sound ?_ ?_ ?_⟩
  · rintro id ⟨_, filled⟩
    obtain ⟨nb, stored⟩ := Option.isSome_iff_exists.mp filled
    rw [serves.depth]
    exact tracks.2.lt (tracks.active_of_netbuf stored)
  · rintro id slot ⟨_, filled⟩ used
    obtain ⟨nb, stored⟩ := Option.isSome_iff_exists.mp filled
    have posted := serves.placed id nb stored
    rw [rxSlotOf, stored, Option.bind_some] at used
    cases assigned : pool.map id with
    | none =>
      rw [assigned] at posted
      rw [if_neg (Nat.not_lt_of_le posted.1)] at used
      cases used
    | some own =>
      rw [assigned] at posted
      obtain ⟨low, start, short⟩ := posted
      rw [if_pos low, start, serves.base, Nat.add_sub_cancel_left,
        Nat.mul_div_cancel own (by decide)] at used
      cases used
      exact ⟨rfl, by rw [serves.base]; exact start, short⟩
  · rintro id ⟨_, filled⟩ none
    obtain ⟨nb, stored⟩ := Option.isSome_iff_exists.mp filled
    have posted := serves.placed id nb stored
    cases assigned : pool.map id with
    | none =>
      rw [assigned] at posted
      change dmaLowMemLimit ≤ (c.ring.rxBufs id).physAddr
      rw [posted.2]
      exact posted.1
    | some own =>
      rw [assigned] at posted
      rw [rxSlotOf, stored, Option.bind_some, if_pos posted.1] at none
      cases none

theorem txRun_served {qid : Nat} {depth : UInt16} {memory : Nat → Option Nat} {ring : Ring}
    (built : enaRingAlloc qid .tx depth depth memory = .ok ring) (phys : Nat) (ops : List TxBounceOp) :
    ∃ world, run txBounceStep (.configured ring phys) ops = .ok world ∧ TxServed phys False world :=
  run_invariant (fun _ _ => True) (TxServed phys False)
    (fun _ op served _ => txBounceStep_served served op False.elim)
    (configured_served built phys False) (meets_of_forall (fun _ _ => trivial) _ ops)

theorem rxRun_served {qid : Nat} {depth : UInt16} {memory : Nat → Option Nat} {ring : Ring}
    (built : enaRingAlloc qid .rx depth depth memory = .ok ring) (allocRxpkts : Bool) (phys : Nat)
    (ops : List RxBounceOp) :
    ∃ c, run rxBounceStep (.configured ring allocRxpkts phys) ops = .ok c ∧ RxServed phys False c :=
  run_invariant (fun _ _ => True) (RxServed phys False)
    (fun _ op served _ => rxBounceStep_served served op False.elim)
    (rxConfigured_served built allocRxpkts phys False) (meets_of_forall (fun _ _ => trivial) _ ops)

/-- In every run of a transmit queue and of a receive queue, with any completions,
allocations and resets, every operation returns and the slots of the requests in
flight are apart. -/
theorem bounce_slots_apart {qid : Nat} {depth : UInt16} {memory : Nat → Option Nat}
    {txRing rxRing : Ring} (txBuilt : enaRingAlloc qid .tx depth depth memory = .ok txRing)
    (rxBuilt : enaRingAlloc qid .rx depth depth memory = .ok rxRing) (allocRxpkts : Bool)
    (txPhys rxPhys : Nat) (txOps : List TxBounceOp) (rxOps : List RxBounceOp) :
    (∃ world, run txBounceStep (.configured txRing txPhys) txOps = .ok world ∧ TxApart world) ∧
      ∃ c, run rxBounceStep (.configured rxRing allocRxpkts rxPhys) rxOps = .ok c ∧ RxApart c := by
  obtain ⟨world, txRan, tx⟩ := txRun_served txBuilt txPhys txOps
  obtain ⟨c, rxRan, rx⟩ := rxRun_served rxBuilt allocRxpkts rxPhys rxOps
  exact ⟨⟨world, txRan, tx.apart⟩, c, rxRan, rx.apart⟩

def lowFrame (addr : Nat) : TxFrame := ⟨smallNetbuf addr, 0, []⟩

def silentInput : TxInput := ⟨[], fun _ => ⟨0, 0, 0, 0, 0⟩, []⟩

theorem bounce_slots_apart_small :
    (∃ world, run txBounceStep (.configured smallTxRing 65536)
        [.txOne 0 (lowFrame 4096) silentInput, .reset, .txOne 0 (lowFrame 8192) silentInput] =
          .ok world ∧ TxApart world) ∧
      ∃ c, run rxBounceStep (.configured smallRxRing true 131072)
        [.refillCount 2 .unikraft fun i => some (smallNetbuf (4096 * i))] = .ok c ∧ RxApart c :=
  bounce_slots_apart smallTxRing_built smallRxRing_built true 65536 131072 _ _

/-! ## Slots between the operations -/

/-- No slot is lost: the free window and the slots of the requests that are checked
out are all slots, so the window is full when no request is. -/
structure SlotsAccounted (pool : BouncePool) (checkedOut : Nat → Bool) : Prop where
  all : (pool.free ++ (List.range pool.nbDesc.val).filterMap fun id =>
    if checkedOut id then pool.map id else none).Perm (List.range pool.nbDesc.val)
  idle : (∀ id, checkedOut id = false) → pool.freeCount = pool.nbDesc.val

theorem slotsAccounted_of_whole {pool : BouncePool} {checkedOut : Nat → Bool}
    (whole : pool.Whole []) (held : ∀ id slot, pool.map id = some slot → checkedOut id = true) :
    SlotsAccounted pool checkedOut where
  all := by
    have same : (fun id => if checkedOut id then pool.map id else none) = pool.map := by
      funext id
      cases found : pool.map id with
      | none => exact ite_self none
      | some slot => rw [if_pos (held id slot found)]
    rw [same]
    rw [BouncePool.Whole, BouncePool.slots, List.append_nil] at whole
    exact whole
  idle := by
    intro nothing
    refine whole.count fun id _ => ?_
    cases found : pool.map id with
    | none => rfl
    | some slot => cases (nothing id).symm.trans (held id slot found)

def TxAccounted (world : TxBounceWorld) : Prop :=
  ∃ pool, world.channel.queue.bounce = some pool ∧
    SlotsAccounted pool world.channel.ring.pool.reqAllocated

def RxAccounted (c : RxChannel) : Prop :=
  ∃ pool, c.queue.bounce = some pool ∧ SlotsAccounted pool c.ring.pool.reqAllocated

theorem TxServed.accounted {world : TxBounceWorld} (served : TxServed phys True world) :
    TxAccounted world := by
  obtain ⟨_, pool, found, holds, serves⟩ := served.keeps
  obtain ⟨ledger, tracks⟩ := served.tracks
  cases found
  have accounts := serves.accounts trivial
  refine ⟨pool, holds, slotsAccounted_of_whole accounts.whole ?_⟩
  intro id slot assigned
  have marked := accounts.flying id slot assigned
  obtain ⟨item, active⟩ := tracks.active_of_inFlight (by rw [marked]; decide)
  rw [tracks.2.allocated id, active]
  rfl

theorem RxServed.accounted (served : RxServed phys True c) :
    RxAccounted c := by
  obtain ⟨_, pool, found, holds, _, serves⟩ := served.keeps
  obtain ⟨ledger, tracks⟩ := served.tracks
  cases found
  refine ⟨pool, holds, slotsAccounted_of_whole (serves.whole trivial) ?_⟩
  intro id slot assigned
  rcases serves.flying trivial id slot assigned with filled | never
  · obtain ⟨nb, stored⟩ := Option.isSome_iff_exists.mp filled
    rw [tracks.2.allocated id, tracks.active_of_netbuf stored]
    rfl
  · exact never.elim

/-- In every run in which no request in flight has a slot when a reset comes, no
slot is lost in any state. -/
theorem bounce_slots_accounted {qid : Nat} {depth : UInt16} {memory : Nat → Option Nat}
    {txRing rxRing : Ring} (txBuilt : enaRingAlloc qid .tx depth depth memory = .ok txRing)
    (rxBuilt : enaRingAlloc qid .rx depth depth memory = .ok rxRing) (allocRxpkts : Bool)
    (txPhys rxPhys : Nat) (txOps : List TxBounceOp) (rxOps : List RxBounceOp)
    (txVacant : Meets txBounceStep TxVacant (.configured txRing txPhys) txOps)
    (rxVacant : Meets rxBounceStep RxVacant (.configured rxRing allocRxpkts rxPhys) rxOps) :
    (∃ world, run txBounceStep (.configured txRing txPhys) txOps = .ok world ∧
        TxAccounted world) ∧
      ∃ c, run rxBounceStep (.configured rxRing allocRxpkts rxPhys) rxOps = .ok c ∧
        RxAccounted c := by
  constructor
  · obtain ⟨world, ran, served⟩ := run_invariant TxVacant (TxServed txPhys True)
      (fun _ op served vacant => txBounceStep_served served op fun _ => vacant)
      (configured_served txBuilt txPhys True) txVacant
    exact ⟨world, ran, served.accounted⟩
  · obtain ⟨c, ran, served⟩ := run_invariant RxVacant (RxServed rxPhys True)
      (fun _ op served vacant => rxBounceStep_served served op fun _ => vacant)
      (rxConfigured_served rxBuilt allocRxpkts rxPhys True) rxVacant
    exact ⟨c, ran, served.accounted⟩

/-- The requests in flight that have a slot. -/
def slotted (r : Ring) (bounce : Option BouncePool) : List Nat :=
  (List.range r.sqDepth.val).filter fun id =>
    r.pool.reqInFlight id && (bounce.bind fun pool => pool.map id).isSome

theorem vacant_of_slotted {r : Ring} {pool : BouncePool} {bounce : Option BouncePool}
    (bounded : ∀ id, r.pool.reqInFlight id = true → id < r.sqDepth.val)
    (empty : slotted r bounce = []) (held : bounce = some pool) (id : Nat)
    (marked : r.pool.reqInFlight id = true) : pool.map id = none := by
  have absent := List.filter_eq_nil_iff.mp empty id (List.mem_range.mpr (bounded id marked))
  rw [marked, Bool.true_and, held, Option.bind_some, Option.not_isSome_iff_eq_none] at absent
  exact absent

/-- A packet in low memory is sent and completed.  One above the limit, which needs no
slot, is in flight when the reset comes. -/
def txBeforeReset : List TxBounceOp :=
  [.createHw smallDevice willing 0, .txOne 0 (lowFrame 4096) silentInput,
    .txOne 0 (lowFrame dmaLowMemLimit) silentInput, .poll 0 0 [] (oneCompletion 0)]

/-- The same of a receive queue with two buffers in low memory. -/
def rxBeforeReset : List RxBounceOp :=
  let mem := receptions [(0, 60), (1, 60)]
  [.createHw smallDevice willing 0, .refillCount 2 .unikraft fun i => some (smallNetbuf (4096 * i)),
    .turn .unikraft ⟨[], mem, fun _ => none, mem⟩, .turn .unikraft ⟨[], mem, fun _ => none, mem⟩,
    .refillCount 1 .unikraft fun _ => some (smallNetbuf dmaLowMemLimit)]

theorem bounce_slots_accounted_reset :
    (∃ world, run txBounceStep (.configured smallTxRing 65536)
        (txBeforeReset ++ [.reset, .txOne 0 (lowFrame 8192) silentInput]) = .ok world ∧
          TxAccounted world) ∧
      ∃ c, run rxBounceStep (.configured smallRxRing true 131072)
        (rxBeforeReset ++ [.reset, .refillCount 2 .unikraft fun i => some (smallNetbuf (4096 * i))]) =
          .ok c ∧ RxAccounted c := by
  apply bounce_slots_accounted smallTxRing_built smallRxRing_built true 65536 131072
  · refine meets_append (by simp [txBeforeReset, TxVacant]) fun world ran =>
      ⟨fun pool held => ?_, fun _ _ => ⟨trivial, fun _ _ => trivial⟩⟩
    obtain ⟨_, again, served⟩ := txRun_served smallTxRing_built 65536 txBeforeReset
    cases ran.symm.trans again
    exact vacant_of_slotted served.inFlight_lt (observed_of_ok ran
      (fun world => slotted world.channel.ring world.channel.queue.bounce) (by decide +kernel)) held
  · refine meets_append (by simp [rxBeforeReset, RxVacant]) fun c ran =>
      ⟨fun pool held => ?_, fun _ _ => ⟨trivial, fun _ _ => trivial⟩⟩
    obtain ⟨_, again, served⟩ := rxRun_served smallRxRing_built true 131072 rxBeforeReset
    cases ran.symm.trans again
    obtain ⟨_, tracks⟩ := served.tracks
    exact vacant_of_slotted tracks.2.bounded
      (observed_of_ok ran (fun c => slotted c.ring c.queue.bounce) (by decide +kernel)) held

def accounted (r : Ring) (pool : BouncePool) : List Nat × Nat :=
  (pool.free ++ (List.range pool.nbDesc.val).filterMap fun id =>
    if r.pool.reqAllocated id then pool.map id else none, pool.nbDesc.val)

/-- A packet in low memory is queued and the device is reset: no request is checked
out, and three of the four slots are left. -/
theorem reset_loses_slot :
    ∃ world, run txBounceStep (.configured smallTxRing 65536)
        [.txOne 0 (lowFrame 4096) silentInput, .reset] = .ok world ∧ ¬ TxAccounted world := by
  have observed : (run txBounceStep (.configured smallTxRing 65536)
      [.txOne 0 (lowFrame 4096) silentInput, .reset]).toOption.map (fun world =>
        world.channel.queue.bounce.map (accounted world.channel.ring)) =
      some (some ([1, 2, 3], 4)) := by decide +kernel
  obtain ⟨world, ran, seen⟩ := ok_of_observed observed
  refine ⟨world, ran, ?_⟩
  rintro ⟨pool, found, slots⟩
  rw [found] at seen
  obtain ⟨left, size⟩ := Prod.mk.inj (Option.some.inj seen)
  have short := slots.all.length_eq
  rw [left, size] at short
  cases short

end EnaDriver.Netdev
