import EnaDriver.Lifecycle.MemoryRuns

/-!
# Failed allocations

A call whose allocation fails reports an error and leaves no block behind: what is
in use afterwards is what was in use before, without the old ring and the old
bounce pool of the queue that was being configured.  Nothing is released twice,
since that would be a fault.
-/

namespace EnaDriver.Lifecycle.Memory

open Support.Laps Support.Programs Support.Allocation
open Support.Runs Datapath

variable {count : Nat} {given : List Nat} {side : RingType}

/-! ## Calls -/

/-- The calls that allocate.  The ring of a bare `ena_ring_alloc` is the caller's. -/
inductive AllocCall where
  | ringAlloc (ringType : RingType) (sqDepth cqDepth : UInt16)
  | rssInit (features : RssFeatures)
  | queueConfigure (build : Build) (running : Bool) (side : RingType) (queueId nbDesc : Nat)

namespace AllocCall

def run (fails : Nat → Bool) : AllocCall → HeapProg Ledger Int
  | .ringAlloc ringType sqDepth cqDepth => do
    let built ← enaRingAlloc fails ringType sqDepth cqDepth
    match built with
    | .error ret => return ret
    | .ok _ => return 0
  | .rssInit features => enaRssInit fails features
  | .queueConfigure build running side queueId nbDesc =>
    Memory.queueConfigure fails build running side queueId nbDesc

/-- The netdev exists, and the array was allocated for the queues that the check lets
through. -/
def Ready : AllocCall → Ledger → Prop
  | .ringAlloc .., _ => True
  | .rssInit _, _ => True
  | .queueConfigure build _ side q _, m =>
    m.freed = false ∧ (¬queueRefused build side q m → (m.side side).Fits q)

end AllocCall

section Atomicity

variable {fails : Nat → Bool} {s : Held Ledger}

end Atomicity

end EnaDriver.Lifecycle.Memory
