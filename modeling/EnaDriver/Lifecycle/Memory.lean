import EnaDriver.Lifecycle.Netdev
import EnaDriver.Support.Allocation

/-!
# The memory of the driver

The functions that allocate and release, at the level of single blocks: the nine
blocks of a ring, the three of a bounce pool, the two ring arrays and the four
scaling tables.  Heap blocks and DMA blocks are not told apart.  What the blocks
contain is left to the other modules, and so is the memory of the interrupt
vectors and of the admin queues.

A ring is referred to from two places.  The array of the adapter owns it, and the
queue of the netdev has a pointer of its own that the data path goes through.
-/

namespace EnaDriver.Lifecycle.Memory

open Support.Laps Support.Programs Support.Allocation
open Datapath

/-! ## What the driver keeps -/

structure RingMem where
  ring : Nat
  sqVirt : Nat
  cqVirt : Nat
  freeReqIds : Nat
  rawBufs : Nat
  reqInFlight : Nat
  reqAllocated : Nat
  sqHeadWbVirt : Option Nat
  txForeign : Option Nat
  deriving DecidableEq, Repr

def RingMem.blocks (r : RingMem) : List Nat :=
  r.sqHeadWbVirt.toList ++ [r.reqInFlight, r.reqAllocated] ++ r.txForeign.toList ++
    [r.rawBufs, r.freeReqIds, r.cqVirt, r.sqVirt, r.ring]

/-- `adapter->rx_rings` or `adapter->tx_rings`. -/
structure RingArray where
  addr : Nat
  cells : List (Option RingMem)
  deriving DecidableEq, Repr

structure QueueMem where
  ring : Option RingMem
  bounceBuf : Option Nat
  bounceFreeIds : Option Nat
  bounceMap : Option Nat
  deriving DecidableEq, Repr

namespace QueueMem

def null : QueueMem := ⟨none, none, none, none⟩

def bounce (q : QueueMem) : List Nat :=
  q.bounceBuf.toList ++ q.bounceFreeIds.toList ++ q.bounceMap.toList

def clearBounce (q : QueueMem) : QueueMem := ⟨q.ring, none, none, none⟩

end QueueMem

structure Direction where
  rings : Option RingArray
  numRings : Nat
  queues : Nat → QueueMem

namespace Direction

def slot (d : Direction) (q : Nat) : Option RingMem :=
  d.rings.bind fun array => array.cells[q]?.join

def withQueue (d : Direction) (q : Nat) (change : QueueMem → QueueMem) : Direction :=
  { d with queues := Function.update d.queues q (change (d.queues q)) }

def withCell (d : Direction) (q : Nat) (ring : Option RingMem) : Direction :=
  { d with rings := d.rings.map fun array => ⟨array.addr, array.cells.set q ring⟩ }

end Direction

structure RssMem where
  hostIndTable : Option Nat
  indTable : Option Nat
  hashKey : Option Nat
  hashCtrl : Option Nat
  deriving DecidableEq, Repr

namespace RssMem

def null : RssMem := ⟨none, none, none, none⟩

def blocks (rss : RssMem) : List Nat :=
  rss.hostIndTable.toList ++ rss.indTable.toList ++ rss.hashKey.toList ++ rss.hashCtrl.toList

end RssMem

/-- The pointers of the driver, and the numbers that its functions read.  `freed` says
that the host build has freed the netdev. -/
structure Ledger where
  freed : Bool
  side : RingType → Direction
  nbQueues : RingType → Nat
  maxQueues : RingType → Nat
  maxRingSize : RingType → Nat
  rss : RssMem

namespace Ledger

def onSide (m : Ledger) (side : RingType) (change : Direction → Direction) : Ledger :=
  { m with side := Function.update m.side side (change (m.side side)) }

end Ledger

/-- Every call on the netdev reads it. -/
def useNetdev : HeapProg Ledger Unit := do
  let s ← get
  if s.data.freed then
    throw .freed

/-! ## Rings -/

section Rings

variable (fails : Nat → Bool)

/-- `ena_ring_alloc`: every failure releases the blocks in its own order. -/
def enaRingAlloc (ringType : RingType) (sqDepth cqDepth : UInt16) :
    HeapProg Ledger (Except Int RingMem) :=
  if Depth.ofRaw? sqDepth = none ∨ Depth.ofRaw? cqDepth = none then
    return .error (-EINVAL)
  else
    allocOr fails [] (-ENOMEM) fun ring =>
    allocOr fails [ring] (-ENOMEM) fun sq =>
    allocOr fails [sq, ring] (-ENOMEM) fun cq =>
    allocOr fails [cq, sq, ring] (-ENOMEM) fun ids =>
    allocOr fails [ids, cq, sq, ring] (-ENOMEM) fun bufs =>
    allocOr fails [bufs, ids, cq, sq, ring] (-ENOMEM) fun inFlight =>
    allocOr fails [inFlight, bufs, ids, cq, sq, ring] (-ENOMEM) fun allocated =>
    match ringType with
    | .rx => return .ok ⟨ring, sq, cq, ids, bufs, inFlight, allocated, none, none⟩
    | .tx =>
      allocOr fails [inFlight, allocated, bufs, ids, cq, sq, ring] (-ENOMEM) fun wb =>
      allocOr fails [wb, allocated, inFlight, bufs, ids, cq, sq, ring] (-ENOMEM) fun foreign =>
      return .ok ⟨ring, sq, cq, ids, bufs, inFlight, allocated, some wb, some foreign⟩

end Rings

def enaRingFree (ring : RingMem) : HeapProg Ledger Unit := releaseAll ring.blocks

/-! ## Queues -/

def cell (side : RingType) (q : Nat) : HeapProg Ledger (Option RingMem) := do
  let s ← get
  match (s.data.side side).rings with
  | none => return none
  | some array =>
    match array.cells[q]? with
    | none => throw (.badAccess q)
    | some found => return found

def setCell (side : RingType) (q : Nat) (ring : Option RingMem) : HeapProg Ledger Unit :=
  update fun m => m.onSide side (·.withCell q ring)

def freeCell (side : RingType) (q : Nat) : HeapProg Ledger Unit := do
  let found ← cell side q
  match found with
  | none => return ()
  | some ring =>
    enaRingFree ring
    setCell side q none

def onQueue (side : RingType) (q : Nat) (change : QueueMem → QueueMem) : HeapProg Ledger Unit :=
  update fun m => m.onSide side (·.withQueue q change)

def freeBounce (side : RingType) (q : Nat) : HeapProg Ledger Unit := do
  let s ← get
  releaseAll ((s.data.side side).queues q).bounce
  onQueue side q QueueMem.clearBounce

section Configure

variable (fails : Nat → Bool)

/-- The end of a failed configuration. -/
def dropRing (side : RingType) (q : Nat) (ring : RingMem) : HeapProg Ledger Int := do
  enaRingFree ring
  setCell side q none
  return -ENOMEM

/-- The three blocks of the bounce pool of a new ring.  A failure frees what there
is of the pool and then the ring. -/
def allocBounce (side : RingType) (q : Nat) (ring : RingMem) : HeapProg Ledger Int := do
  let buf ← alloc fails
  match buf with
  | none => dropRing side q ring
  | some buf =>
    onQueue side q fun queue => { queue with bounceBuf := some buf }
    let ids ← alloc fails
    match ids with
    | none =>
      freeBounce side q
      dropRing side q ring
    | some ids =>
      onQueue side q fun queue => { queue with bounceFreeIds := some ids }
      let map ← alloc fails
      match map with
      | none =>
        freeBounce side q
        dropRing side q ring
      | some map =>
        onQueue side q fun queue => { queue with bounceMap := some map }
        return 0

def configureQueue (side : RingType) (queueId nbDesc : Nat) : HeapProg Ledger Int := do
  let s ← get
  let depth := UInt16.ofNat (enaNetdevClampDescCount nbDesc (s.data.maxRingSize side))
  freeCell side queueId
  freeBounce side queueId
  let built ← enaRingAlloc fails side depth depth
  match built with
  | .error ret => return ret
  | .ok ring =>
    setCell side queueId (some ring)
    onQueue side queueId fun queue => { queue with ring := some ring }
    allocBounce fails side queueId ring

def queueRefused : Build → RingType → Nat → Ledger → Prop
  | .host, side, q, m => m.nbQueues side ≤ q ∨ Host.queueLimit ≤ q
  | .unikraft options, side, q, m =>
    options.queueLimit ≤ q ∨ ((m.side side).numRings ≠ 0 ∧ (m.side side).numRings ≤ q)

instance (build : Build) (side : RingType) (q : Nat) (m : Ledger) :
    Decidable (queueRefused build side q m) := by
  cases build with
  | host => exact inferInstanceAs (Decidable (_ ∨ _))
  | unikraft options => exact inferInstanceAs (Decidable (_ ∨ _))

/-- `ena_netdev_rxq_configure` and `ena_netdev_txq_configure`.  `running` is what the
state of the netdev says; in the Unikraft build a result other than zero stands for
the null queue. -/
def queueConfigure (build : Build) (running : Bool) (side : RingType) (queueId nbDesc : Nat) :
    HeapProg Ledger Int := do
  useNetdev
  let s ← get
  if queueRefused build side queueId s.data then
    return -EINVAL
  if running then
    return -EBUSY
  configureQueue fails side queueId nbDesc

/-- The array of a direction; the result tells whether it exists. -/
def allocRingArray (side : RingType) (count : Nat) : HeapProg Ledger Bool := do
  let s ← get
  if (s.data.side side).rings.isSome then
    return true
  let block ← alloc fails
  match block with
  | none => return false
  | some addr =>
    update fun m => m.onSide side fun d =>
      { d with rings := some ⟨addr, List.replicate count none⟩ }
    return true

def enaNetdevAllocRingArrays (nbRxQueues nbTxQueues : Nat) : HeapProg Ledger Int := do
  let rx ← allocRingArray fails .rx nbRxQueues
  if rx = false then
    return -ENOMEM
  update fun m => m.onSide .rx fun d => { d with numRings := nbRxQueues }
  let tx ← allocRingArray fails .tx nbTxQueues
  if tx = false then
    return -ENOMEM
  update fun m => m.onSide .tx fun d => { d with numRings := nbTxQueues }
  return 0

def countRefused : Build → RingType → Nat → Ledger → Prop
  | .host, side, count, m => count = 0 ∨ m.maxQueues side < count ∨ Host.queueLimit < count
  | .unikraft options, side, count, m =>
    count = 0 ∨ (m.maxQueues side ≠ 0 ∧ m.maxQueues side < count) ∨ options.queueLimit < count

instance (build : Build) (side : RingType) (count : Nat) (m : Ledger) :
    Decidable (countRefused build side count m) := by
  cases build with
  | host => exact inferInstanceAs (Decidable (_ ∨ _ ∨ _))
  | unikraft options => exact inferInstanceAs (Decidable (_ ∨ _ ∨ _))

def Ledger.withCounts (m : Ledger) (nbRxQueues nbTxQueues : Nat) : Build → Ledger
  | .host => { m with nbQueues := fun
      | .rx => nbRxQueues
      | .tx => nbTxQueues }
  | .unikraft _ => m

def enaNetdevConfigure (build : Build) (running : Bool) (nbRxQueues nbTxQueues : Nat) :
    HeapProg Ledger Int := do
  useNetdev
  let s ← get
  if running then
    return -EBUSY
  if countRefused build .rx nbRxQueues s.data then
    return -EINVAL
  if countRefused build .tx nbTxQueues s.data then
    return -EINVAL
  let ret ← enaNetdevAllocRingArrays fails nbRxQueues nbTxQueues
  if ret ≠ 0 then
    return ret
  update fun m => m.withCounts nbRxQueues nbTxQueues build
  return 0

end Configure

/-! ## Scaling tables -/

structure RssFeatures where
  indirectionTable : Bool
  hashFunction : Bool
  hashInput : Bool
  deriving DecidableEq, Repr

def onRss (change : RssMem → RssMem) : HeapProg Ledger Unit :=
  update fun m => { m with rss := change m.rss }

def enaRssFini : HeapProg Ledger Unit := do
  let s ← get
  releaseAll s.data.rss.blocks
  onRss fun _ => .null

section Rss

variable (fails : Nat → Bool)

/-- A table that only some devices have; a failure releases all tables. -/
def allocRssTable (store : Nat → RssMem → RssMem) : HeapProg Ledger Bool := do
  let block ← alloc fails
  match block with
  | none =>
    enaRssFini
    return false
  | some addr =>
    onRss (store addr)
    return true

def allocHashTables (features : RssFeatures) : HeapProg Ledger Int := do
  let ok ← onlyIf (features.hashFunction = true) true
    (allocRssTable fails fun addr rss => { rss with hashKey := some addr })
  if ok = false then
    return -ENOMEM
  let ok ← onlyIf (features.hashInput = true) true
    (allocRssTable fails fun addr rss => { rss with hashCtrl := some addr })
  if ok = false then
    return -ENOMEM
  return 0

/-- `ena_rss_init`.  The exchange about the limits of the table only sets its size. -/
def enaRssInit (features : RssFeatures) : HeapProg Ledger Int := do
  if features.indirectionTable = false then
    return -EOPNOTSUPP
  let s ← get
  if s.data.rss.hostIndTable.isSome ∧ s.data.rss.indTable.isSome then
    return 0
  let host ← alloc fails
  match host with
  | none => return -ENOMEM
  | some host =>
    onRss fun rss => { rss with hostIndTable := some host }
    let table ← alloc fails
    match table with
    | none =>
      release host
      onRss fun rss => { rss with hostIndTable := none }
      return -ENOMEM
    | some table =>
      onRss fun rss => { rss with indTable := some table }
      allocHashTables fails features

end Rss

/-! ## Teardown -/

def cleanupRings (side : RingType) : HeapProg Ledger Unit := do
  let s ← get
  let d := s.data.side side
  match d.rings with
  | none => return ()
  | some array =>
    let count := if d.numRings = 0 then s.data.maxQueues side else d.numRings
    (List.range count).forM (freeCell side)
    release array.addr
    update fun m => m.onSide side fun d => { d with rings := none, numRings := 0 }

def Build.queueLimit : Build → Nat
  | .host => Host.queueLimit
  | .unikraft options => options.queueLimit

/-- `ena_rss_fini` is called where the build has scaling. -/
def Build.hasRss : Build → Bool
  | .host => true
  | .unikraft options => options.rss

/-- The host build frees the netdev with its queues. -/
def Ledger.withoutNetdev (m : Ledger) : Build → Ledger
  | .host => { m with
      freed := true
      side := fun side => { m.side side with queues := fun _ => .null }
      nbQueues := fun _ => 0 }
  | .unikraft _ => m

/-- `ena_netdev_teardown` of the Unikraft build and `ena_netdev_free` of the host
build.  The stop before it allocates and releases nothing. -/
def enaNetdevTeardown (build : Build) : HeapProg Ledger Unit := do
  useNetdev
  (List.range (Build.queueLimit build)).forM fun q => do
    freeBounce .rx q
    freeBounce .tx q
  cleanupRings .rx
  cleanupRings .tx
  onlyIf (Build.hasRss build = true) () enaRssFini
  update fun m => m.withoutNetdev build

/-! ## The state of one queue -/

def Ledger.settled (m : Ledger) (side : RingType) (q : Nat) (ring : Option RingMem)
    (queue : QueueMem) : Ledger :=
  m.onSide side fun d => (d.withCell q ring).withQueue q fun _ => queue

namespace Ledger

variable {m : Ledger} {side : RingType} {q : Nat} {ring : Option RingMem} {queue : QueueMem}

@[simp] theorem onSide_self (change : Direction → Direction) :
    (m.onSide side change).side side = change (m.side side) :=
  Function.update_self ..

theorem onSide_other {other : RingType} (apart : other ≠ side) (change : Direction → Direction) :
    (m.onSide side change).side other = m.side other :=
  Function.update_of_ne apart ..

@[simp] theorem onSide_onSide (first second : Direction → Direction) :
    (m.onSide side first).onSide side second = m.onSide side fun d => second (first d) := by
  unfold onSide
  simp

theorem settled_side : (m.settled side q ring queue).side side =
    ((m.side side).withCell q ring).withQueue q fun _ => queue :=
  onSide_self _

theorem settled_other {other : RingType} (apart : other ≠ side) :
    (m.settled side q ring queue).side other = m.side other :=
  onSide_other apart _

@[simp] theorem settled_queue : ((m.settled side q ring queue).side side).queues q = queue := by
  rw [settled_side]
  exact Function.update_self ..

theorem settled_queue_other {other : Nat} (apart : other ≠ q) :
    ((m.settled side q ring queue).side side).queues other = (m.side side).queues other := by
  rw [settled_side]
  exact Function.update_of_ne apart ..

@[simp] theorem settled_rss : (m.settled side q ring queue).rss = m.rss := rfl

theorem settled_withCell (again : Option RingMem) :
    (m.settled side q ring queue).onSide side (·.withCell q again) =
      m.settled side q again queue := by
  unfold settled
  rw [onSide_onSide]
  congr 1
  funext d
  unfold Direction.withCell Direction.withQueue
  simp [Function.comp_def]

theorem settled_withQueue (change : QueueMem → QueueMem) :
    (m.settled side q ring queue).onSide side (·.withQueue q change) =
      m.settled side q ring (change queue) := by
  unfold settled
  rw [onSide_onSide]
  congr 1
  funext d
  unfold Direction.withCell Direction.withQueue
  simp

end Ledger

def Direction.Fits (d : Direction) (q : Nat) : Prop :=
  ∀ array, d.rings = some array → q < array.cells.length

namespace Direction

variable {d : Direction} {q : Nat}

theorem slot_withCell (fits : d.Fits q) (present : d.rings.isSome = true) (ring : Option RingMem) :
    (d.withCell q ring).slot q = ring := by
  obtain ⟨array, stored⟩ := Option.isSome_iff_exists.mp present
  unfold slot withCell
  rw [stored]
  simp [fits array stored]

theorem slot_withCell_none : (d.withCell q none).slot q = none := by
  unfold slot withCell
  cases d.rings with
  | none => rfl
  | some array =>
    simp only [Option.map_some, Option.bind_some, List.getElem?_set_self']
    cases array.cells[q]? <;> rfl

theorem slot_withCell_other {other : Nat} (apart : other ≠ q) (ring : Option RingMem) :
    (d.withCell q ring).slot other = d.slot other := by
  unfold slot withCell
  cases d.rings with
  | none => rfl
  | some array => simp [List.getElem?_set_ne (Ne.symm apart)]

/-- A direction whose cell and queue are assigned what they hold. -/
theorem withCell_slot (fits : d.Fits q) : d.withCell q (d.slot q) = d := by
  unfold slot withCell
  cases stored : d.rings with
  | none =>
    cases d
    cases stored
    rfl
  | some array =>
    have here := fits array stored
    cases d
    cases stored
    simp [List.getElem?_eq_getElem here]

end Direction

theorem Ledger.settled_self {m : Ledger} {side : RingType} {q : Nat} (fits : (m.side side).Fits q) :
    m.settled side q ((m.side side).slot q) ((m.side side).queues q) = m := by
  have same : ((m.side side).withCell q ((m.side side).slot q)).withQueue q
      (fun _ => (m.side side).queues q) = m.side side := by
    rw [Direction.withCell_slot fits]
    unfold Direction.withQueue
    rw [Function.update_eq_self]
  unfold settled onSide
  dsimp only
  rw [same, Function.update_eq_self]

/-! ## What a ring is made of -/

def ringAt (side : RingType) (first : Nat) : RingMem where
  ring := first
  sqVirt := first + 1
  cqVirt := first + 2
  freeReqIds := first + 3
  rawBufs := first + 4
  reqInFlight := first + 5
  reqAllocated := first + 6
  sqHeadWbVirt := match side with
    | .tx => some (first + 7)
    | .rx => none
  txForeign := match side with
    | .tx => some (first + 8)
    | .rx => none

theorem mem_ringAt_blocks {side : RingType} {first id : Nat} :
    id ∈ (ringAt side first).blocks ↔ first ≤ id ∧ id < first + side.allocations := by
  cases side <;>
    simp only [RingMem.blocks, ringAt, RingType.allocations, Option.toList, List.cons_append,
      List.nil_append, List.append_nil, List.mem_cons, List.not_mem_nil, or_false] <;>
    omega

theorem ringAt_blocks_nodup (side : RingType) (first : Nat) : (ringAt side first).blocks.Nodup := by
  cases side <;> simp [RingMem.blocks, ringAt]

section Runs

variable (fails : Nat → Bool) (s : Held Ledger)

theorem enaRingAlloc_refused {side : RingType} {sqDepth cqDepth : UInt16}
    (refused : Depth.ofRaw? sqDepth = none ∨ Depth.ofRaw? cqDepth = none) :
    enaRingAlloc fails side sqDepth cqDepth s = .ok (.error (-EINVAL), s) := by
  unfold enaRingAlloc
  rw [if_pos refused]
  rfl

theorem enaRingAlloc_attempted {side : RingType} {sqDepth cqDepth : UInt16}
    (accepted : ¬(Depth.ofRaw? sqDepth = none ∨ Depth.ofRaw? cqDepth = none)) :
    Attempted fails s.heap s.data (-ENOMEM) (ringAt side s.heap.asked) 0 side.allocations
      (enaRingAlloc fails side sqDepth cqDepth s) := by
  suffices attempt : Attempted fails s.heap s.data (-ENOMEM) (ringAt side s.heap.asked) 0
      side.allocations (enaRingAlloc fails side sqDepth cqDepth ⟨s.heap.take 0, s.data⟩) by
    rwa [Heap.take_zero] at attempt
  have seven : 7 ≤ side.allocations := by cases side <;> decide
  unfold enaRingAlloc
  rw [if_neg accepted]
  refine .step (by omega) (by simp) (by simp) ?_
  refine .step (by omega) (by simp) (by simp; omega) ?_
  refine .step (by omega) (by simp) (by simp; omega) ?_
  refine .step (by omega) (by simp) (by simp; omega) ?_
  refine .step (by omega) (by simp) (by simp; omega) ?_
  refine .step (by omega) (by simp) (by simp; omega) ?_
  refine .step (by omega) (by simp) (by simp; omega) ?_
  cases side with
  | rx => exact .last
  | tx =>
    refine .step (by decide) (by simp) (by simp; omega) ?_
    refine .step (by decide) (by simp) (by simp; omega) ?_
    exact .last

def served (fails : Nat → Bool) (first i : Nat) : Option Nat :=
  if fails (first + i) then none else some (first + i)

/-- The ring model of the data path has a ring, or the same error, in the same
cases. -/
theorem enaRingAlloc_agrees (qid : Nat) (side : RingType) (sqDepth cqDepth : UInt16) :
    ∃ built after, enaRingAlloc fails side sqDepth cqDepth s = .ok (built, after) ∧
      built.map (fun _ => ()) =
        (Datapath.enaRingAlloc qid side sqDepth cqDepth (served fails s.heap.asked)).map
          fun _ => () := by
  by_cases refused : Depth.ofRaw? sqDepth = none ∨ Depth.ofRaw? cqDepth = none
  · refine ⟨_, _, enaRingAlloc_refused fails s refused, ?_⟩
    unfold Datapath.enaRingAlloc
    rcases refused with none | none
    · rw [none]
      rfl
    · rw [none]
      cases Depth.ofRaw? sqDepth <;> rfl
  · have attempt := @enaRingAlloc_attempted fails s side sqDepth cqDepth refused
    obtain ⟨sqRefused, cqRefused⟩ := not_or.mp refused
    obtain ⟨sq, sqFound⟩ := Option.ne_none_iff_exists'.mp sqRefused
    obtain ⟨cq, cqFound⟩ := Option.ne_none_iff_exists'.mp cqRefused
    unfold Datapath.enaRingAlloc
    rw [sqFound, cqFound]
    dsimp only
    cases attempt with
    | complete given result =>
      refine ⟨_, _, result, ?_⟩
      rw [if_pos]
      · rfl
      rw [List.all_eq_true]
      intro i member
      unfold served
      rw [given i (Nat.zero_le _) (List.mem_range.mp member)]
      rfl
    | stopped k late early given failed result =>
      refine ⟨_, _, result, ?_⟩
      rw [if_neg]
      · rfl
      intro all
      have found := List.all_eq_true.mp all k (List.mem_range.mpr early)
      unfold served at found
      rw [failed] at found
      cases found

end Runs

/-! ## What belongs to whom -/

/-- Who releases a block. -/
inductive Owner where
  | array (side : RingType)
  | slot (side : RingType) (q : Nat)
  | bounce (side : RingType) (q : Nat)
  | rss
  deriving DecidableEq, Repr

namespace Ledger

def owned (m : Ledger) : Owner → List Nat
  | .array side => ((m.side side).rings.map RingArray.addr).toList
  | .slot side q => (((m.side side).slot q).map RingMem.blocks).getD []
  | .bounce side q => ((m.side side).queues q).bounce
  | .rss => m.rss.blocks

variable {m : Ledger} {side : RingType} {q : Nat} {ring : Option RingMem} {queue : QueueMem}

/-- Another cell and queue concern two owners only. -/
theorem owned_settled_other {owner : Owner} (noSlot : owner ≠ .slot side q)
    (noBounce : owner ≠ .bounce side q) :
    (m.settled side q ring queue).owned owner = m.owned owner := by
  cases owner with
  | array other =>
    by_cases here : other = side
    · subst here
      unfold owned
      dsimp only
      rw [settled_side]
      unfold Direction.withQueue Direction.withCell
      simp [Function.comp_def]
    · unfold owned
      dsimp only
      rw [settled_other here]
  | slot other p =>
    unfold owned
    dsimp only
    by_cases here : other = side
    · subst here
      have apart : p ≠ q := fun same => noSlot (same ▸ rfl)
      rw [settled_side]
      change ((((m.side other).withCell q ring).slot p).map RingMem.blocks).getD [] = _
      rw [Direction.slot_withCell_other apart]
    · rw [settled_other here]
  | bounce other p =>
    unfold owned
    dsimp only
    by_cases here : other = side
    · subst here
      have apart : p ≠ q := fun same => noBounce (same ▸ rfl)
      rw [settled_queue_other apart]
    · rw [settled_other here]
  | rss => rfl

@[simp] theorem owned_settled_bounce :
    (m.settled side q ring queue).owned (.bounce side q) = queue.bounce := by
  unfold owned
  dsimp only
  rw [settled_queue]

theorem slot_settled (fits : (m.side side).Fits q) (present : (m.side side).rings.isSome = true) :
    ((m.settled side q ring queue).side side).slot q = ring := by
  rw [settled_side]
  exact Direction.slot_withCell fits present ring

theorem slot_settled_none : ((m.settled side q none queue).side side).slot q = none := by
  rw [settled_side]
  exact Direction.slot_withCell_none

end Ledger

/-! ## Outcomes -/

section Outcomes

variable {fails : Nat → Bool} {s : Held Ledger} {side : RingType} {q : Nat}

theorem cell_run (fits : (s.data.side side).Fits q) :
    cell side q s = .ok ((s.data.side side).slot q, s) := by
  unfold cell Direction.slot
  rw [run_bind, run_get, ok_bind]
  cases stored : (s.data.side side).rings with
  | none => rfl
  | some array =>
    dsimp only [Option.bind_some]
    rw [List.getElem?_eq_getElem (fits array stored)]
    rfl

/-- An index outside the array is a fault. -/
theorem cell_outside (outside : ¬(s.data.side side).Fits q) :
    cell side q s = .error (.badAccess q) := by
  unfold Direction.Fits at outside
  push Not at outside
  obtain ⟨array, stored, beyond⟩ := outside
  unfold cell
  rw [run_bind, run_get, ok_bind]
  dsimp only
  rw [stored]
  dsimp only
  rw [List.getElem?_eq_none beyond]
  rfl

theorem freeCell_run (tidy : Tidy s.data.owned s.heap) (fits : (s.data.side side).Fits q) :
    freeCell side q s =
      .ok ((), ⟨s.heap.without (s.data.owned (.slot side q)),
        s.data.settled side q none ((s.data.side side).queues q)⟩) := by
  have nodup := tidy.nodup (.slot side q)
  have live := tidy.live (.slot side q)
  have self := Ledger.settled_self fits
  unfold freeCell
  rw [run_bind, cell_run fits, ok_bind]
  unfold Ledger.owned at nodup live ⊢
  dsimp only at nodup live ⊢
  cases found : (s.data.side side).slot q with
  | none =>
    rw [found] at self
    rw [self, Option.map_none, Option.getD_none, Heap.without_nil]
    rfl
  | some ring =>
    rw [found] at nodup live self
    dsimp only [Option.map_some, Option.getD_some] at nodup live ⊢
    rw [run_bind]
    unfold enaRingFree setCell
    rw [releaseAll_run nodup live, ok_bind, update_run]
    dsimp only
    nth_rewrite 1 [← self]
    rw [Ledger.settled_withCell]

theorem freeBounce_run (nodup : ((s.data.side side).queues q).bounce.Nodup)
    (live : ∀ id ∈ ((s.data.side side).queues q).bounce, id ∈ s.heap.live) :
    freeBounce side q s =
      .ok ((), ⟨s.heap.without ((s.data.side side).queues q).bounce,
        s.data.onSide side (·.withQueue q QueueMem.clearBounce)⟩) := by
  unfold freeBounce
  rw [run_bind, run_get, ok_bind, run_bind, releaseAll_run nodup live]
  rfl

def withRing (ring : RingMem) : QueueMem := ⟨some ring, none, none, none⟩

def withPool (ring : RingMem) (first : Nat) : QueueMem :=
  ⟨some ring, some first, some (first + 1), some (first + 2)⟩

/-- What the three requests of a bounce pool come to: a failure frees the pool and
the ring but leaves the queue with its pointer to the ring. -/
inductive Pooled (fails : Nat → Bool) (h : Heap) (m : Ledger) (side : RingType) (q : Nat)
    (outcome : Except HeapFault (Int × Held Ledger)) : Prop where
  | failed (k : Nat) (early : k < 3) (refused : fails (h.asked + (side.allocations + k)) = true)
      (result : outcome = .ok (-ENOMEM, ⟨h.skip (side.allocations + k + 1),
        m.settled side q none (withRing (ringAt side h.asked))⟩))
  | complete (given : ∀ k, k < 3 → fails (h.asked + (side.allocations + k)) = false)
      (result : outcome = .ok (0, ⟨h.take (side.allocations + 3),
        m.settled side q (some (ringAt side h.asked))
          (withPool (ringAt side h.asked) (h.asked + side.allocations))⟩))

/-- Dropping the ring when the requests for the pool have left nothing. -/
theorem dropRing_run (h : Heap) (m : Ledger) (queue : QueueMem) {blocks : List Nat} {count : Nat}
    (exactly : ∀ id, id ∈ blocks ↔
      h.asked + side.allocations ≤ id ∧ id < h.asked + (side.allocations + count)) :
    dropRing side q (ringAt side h.asked)
        ⟨((h.take (side.allocations + count)).skip 1).without blocks,
          m.settled side q (some (ringAt side h.asked)) queue⟩ =
      .ok (-ENOMEM, ⟨h.skip (side.allocations + count + 1), m.settled side q none queue⟩) := by
  have live : ∀ id ∈ (ringAt side h.asked).blocks,
      id ∈ (((h.take (side.allocations + count)).skip 1).without blocks).live := by
    intro id member
    have range := mem_ringAt_blocks.mp member
    rw [Heap.mem_without, Heap.skip_live, Heap.mem_take, exactly]
    omega
  have whole : ∀ id, id ∈ blocks ++ (ringAt side h.asked).blocks ↔
      h.asked ≤ id ∧ id < h.asked + (side.allocations + count) := by
    intro id
    rw [List.mem_append, mem_ringAt_blocks, exactly]
    omega
  unfold dropRing enaRingFree setCell
  rw [run_bind, releaseAll_run (ringAt_blocks_nodup side h.asked) live, ok_bind, run_bind,
    update_run, ok_bind, run_pure]
  dsimp only
  rw [Heap.without_without, Heap.take_without h whole, Ledger.settled_withCell]

theorem freeBounce_dropRing_run (h : Heap) (m : Ledger) (queue : QueueMem) (count : Nat)
    (nodup : queue.bounce.Nodup)
    (exactly : ∀ id, id ∈ queue.bounce ↔
      h.asked + side.allocations ≤ id ∧ id < h.asked + (side.allocations + count)) :
    (do freeBounce side q; dropRing side q (ringAt side h.asked))
        ⟨(h.take (side.allocations + count)).skip 1,
          m.settled side q (some (ringAt side h.asked)) queue⟩ =
      .ok (-ENOMEM, ⟨h.skip (side.allocations + count + 1),
        m.settled side q none queue.clearBounce⟩) := by
  have live : ∀ id ∈ queue.bounce, id ∈ ((h.take (side.allocations + count)).skip 1).live := by
    intro id member
    have range := (exactly id).mp member
    rw [Heap.skip_live, Heap.mem_take]
    omega
  rw [run_bind, freeBounce_run (by rwa [Ledger.settled_queue]) (by rwa [Ledger.settled_queue]),
    ok_bind]
  dsimp only
  rw [Ledger.settled_withQueue, Ledger.settled_queue]
  exact dropRing_run h m _ exactly

theorem allocBounce_pooled (h : Heap) (m : Ledger) :
    Pooled fails h m side q (allocBounce fails side q (ringAt side h.asked)
      ⟨h.take side.allocations,
        m.settled side q (some (ringAt side h.asked)) (withRing (ringAt side h.asked))⟩) := by
  unfold allocBounce
  cases first : fails (h.asked + side.allocations) with
  | true =>
    have nothing : ∀ id, id ∈ ([] : List Nat) ↔
        h.asked + side.allocations ≤ id ∧ id < h.asked + (side.allocations + 0) := by simp
    have dropped := @dropRing_run side q h m (withRing (ringAt side h.asked)) [] 0 nothing
    rw [Heap.without_nil] at dropped
    refine .failed 0 (by decide) first ?_
    rw [run_bind, alloc_fails first, ok_bind]
    exact dropped
  | false =>
    rw [run_bind, alloc_gives first, ok_bind]
    dsimp only
    rw [run_bind]
    unfold onQueue
    rw [update_run, ok_bind, Heap.take_take, Heap.take_asked, Ledger.settled_withQueue]
    cases second : fails (h.asked + (side.allocations + 1)) with
    | true =>
      refine .failed 1 (by decide) second ?_
      rw [run_bind, alloc_fails second, ok_bind]
      refine freeBounce_dropRing_run h m _ 1 ?_ ?_
      · simp [withRing, QueueMem.bounce]
      · simp [withRing, QueueMem.bounce]
        omega
    | false =>
      rw [run_bind, alloc_gives second, ok_bind]
      dsimp only
      rw [run_bind, update_run, ok_bind, Heap.take_take, Heap.take_asked,
        Ledger.settled_withQueue]
      cases third : fails (h.asked + (side.allocations + 2)) with
      | true =>
        refine .failed 2 (by decide) third ?_
        rw [run_bind, alloc_fails third, ok_bind]
        refine freeBounce_dropRing_run h m _ 2 ?_ ?_
        · simp [withRing, QueueMem.bounce]
        · simp [withRing, QueueMem.bounce]
          omega
      | false =>
        refine .complete (fun k early => ?_) ?_
        · have which : k = 0 ∨ k = 1 ∨ k = 2 := by omega
          rcases which with rfl | rfl | rfl
          · exact first
          · exact second
          · exact third
        · rw [run_bind, alloc_gives third, ok_bind]
          dsimp only
          rw [run_bind, update_run, ok_bind, Heap.take_take, Heap.take_asked,
            Ledger.settled_withQueue]
          rfl

/-- What an accepted configuration of a queue comes to.  Whatever happens, the old
ring and the old pool are gone; the pointer of the queue is the old one when there
is no new ring, and the new one otherwise. -/
inductive Configured (fails : Nat → Bool) (s : Held Ledger) (side : RingType) (q : Nat)
    (outcome : Except HeapFault (Int × Held Ledger)) : Prop where
  | noRing (k : Nat) (early : k < side.allocations) (refused : fails (s.heap.asked + k) = true)
      (result : outcome = .ok (-ENOMEM,
        ⟨(s.heap.without (s.data.owned (.slot side q) ++ s.data.owned (.bounce side q))).skip (k + 1),
          s.data.settled side q none ((s.data.side side).queues q).clearBounce⟩))
  | pooled (given : ∀ i, i < side.allocations → fails (s.heap.asked + i) = false)
      (rest : Pooled fails
        (s.heap.without (s.data.owned (.slot side q) ++ s.data.owned (.bounce side q)))
        s.data side q outcome)

theorem configureQueue_configured (fails : Nat → Bool) (tidy : Tidy s.data.owned s.heap)
    (fits : (s.data.side side).Fits q) (nbDesc : Nat) :
    Configured fails s side q (configureQueue fails side q nbDesc s) := by
  have accepted : Depth.ofRaw? (UInt16.ofNat
      (enaNetdevClampDescCount nbDesc (s.data.maxRingSize side))) ≠ none := by
    obtain ⟨d, depth⟩ := enaNetdevClampDescCount_depth nbDesc (s.data.maxRingSize side)
    rw [depth, Depth.ofRaw?_ofNat]
    exact Option.some_ne_none d
  have nodup := tidy.nodup (.bounce side q)
  have live : ∀ id ∈ s.data.owned (.bounce side q),
      id ∈ (s.heap.without (s.data.owned (.slot side q))).live := by
    intro id member
    refine (Heap.mem_without _).mpr ⟨tidy.live _ id member, fun shared => ?_⟩
    cases tidy.apart _ _ id member shared
  have cleared : configureQueue fails side q nbDesc s =
      (do
        let built ← enaRingAlloc fails side
          (UInt16.ofNat (enaNetdevClampDescCount nbDesc (s.data.maxRingSize side)))
          (UInt16.ofNat (enaNetdevClampDescCount nbDesc (s.data.maxRingSize side)))
        match built with
        | .error ret => return ret
        | .ok ring =>
          setCell side q (some ring)
          onQueue side q fun queue => { queue with ring := some ring }
          allocBounce fails side q ring)
        ⟨s.heap.without (s.data.owned (.slot side q) ++ s.data.owned (.bounce side q)),
          s.data.settled side q none ((s.data.side side).queues q).clearBounce⟩ := by
    unfold configureQueue
    rw [run_bind, run_get, ok_bind, run_bind, freeCell_run tidy fits, ok_bind, run_bind,
      freeBounce_run (by rwa [Ledger.settled_queue]) (by rwa [Ledger.settled_queue]), ok_bind]
    dsimp only
    rw [Ledger.settled_withQueue, Ledger.settled_queue, Heap.without_without]
    rfl
  rw [cleared, run_bind]
  cases enaRingAlloc_attempted fails
    ⟨s.heap.without (s.data.owned (.slot side q) ++ s.data.owned (.bounce side q)),
      s.data.settled side q none ((s.data.side side).queues q).clearBounce⟩
    (fun refused => refused.elim accepted accepted) with
  | complete given result =>
    refine .pooled (fun i early => given i (Nat.zero_le _) early) ?_
    rw [result, ok_bind]
    dsimp only
    rw [run_bind]
    unfold setCell onQueue
    rw [update_run, ok_bind, run_bind, update_run, ok_bind]
    dsimp only
    rw [Ledger.settled_withCell, Ledger.settled_withQueue]
    exact allocBounce_pooled _ s.data
  | stopped k late early given failed result =>
    refine .noRing k early failed ?_
    rw [result, ok_bind]
    rfl

end Outcomes

end EnaDriver.Lifecycle.Memory
