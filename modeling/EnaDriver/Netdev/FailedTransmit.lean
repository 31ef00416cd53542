import EnaDriver.Datapath.Placements
import EnaDriver.Netdev.BounceRuns

/-!
# Transmit calls that fail

A transmit call first reaps completions.  An error after that leaves the ring as
the reap left it, apart from the count of dropped packets, and gives the bounce
slot back: the free slots are the same ones, in another order.  No doorbell is
written and no tracking slot refers to the packet, which stays with the caller.
-/

namespace EnaDriver.Netdev

open Support.Windows Support.Runs Support.Custody
open Datapath

/-! ## Tracking slots -/

def Refers (r : Ring) (addr id : Nat) : Prop := ∃ nb, (r.txBufs id).netbuf = some nb ∧ nb.addr = addr

variable {c : TxChannel} {cpu : Nat} {out : TxOutcome} {pkt : TxPkt} {pool : BouncePool}
  {r : Ring}

/-- What an id holds during a poll it held before. -/
theorem pollSteps_item {owner : Nat} {named : Nat → Prop} {first last : TxLedger}
    {actions : List TxAction} (steps : Steps (PollAllows cpu owner named) first actions last) :
    ∀ id item, (last id).item? = some item → (first id).item? = some item := by
  refine (steps.invariant
    (fun current => ∀ id item, (current id).item? = some item → (first id).item? = some item)
    (fun _ => True) (fun {before action after} step ok kept => ⟨trivial, fun id item found => ?_⟩)
    fun _ _ found => found).2
  by_cases here : id = action.id
  · cases step with
    | accept _ _ => exact ok.elim
    | @park place held keeper active =>
      have same : id = place := here
      rw [same, store_same] at found
      refine kept id item ?_
      rw [same, active]
      exact found
    | @release place _ _ =>
      have same : id = place := here
      rw [same, store_same] at found
      cases found
  · rw [step.other here] at found
    exact kept id item found

/-- A poll makes no tracking slot refer to another netbuf. -/
theorem enaTxPollCompletions_refers {budget : Nat} {p after : TxPort} {views : List TxMem}
    {ret : Int} {events : List Event} {ledger : TxLedger} (tracks : Tracks p.ring ledger)
    (unlocked : p.ring.ringLock = false)
    (ran : enaTxPollCompletions p cpu budget views = .ok (ret, after, events)) {addr id : Nat}
    (refers : Refers after.ring addr id) : Refers p.ring addr id := by
  obtain ⟨reaps, _⟩ := enaTxPollCompletions_reaps tracks unlocked ran
  obtain ⟨_, ⟨actions, final, steps, tracked, _⟩, _⟩ := reaps ledger tracks
  obtain ⟨nb, stored, same⟩ := refers
  rw [tracked.2.netbuf] at stored
  obtain ⟨item, held, netbuf⟩ := Option.bind_eq_some_iff.mp stored
  refine ⟨nb, ?_, same⟩
  rw [tracks.2.netbuf, statusNetbuf, pollSteps_item steps id item held]
  exact netbuf

/-! ## Refusals -/

def isRegWrite : Event → Bool
  | .regWrite32 _ _ => true
  | _ => false

theorem fallbackHeaderCopy_noRegWrite (pkt : TxPkt) (hdrData : Option (List UInt8)) (hdrLen : Nat) :
    ∀ event ∈ fallbackHeaderCopy pkt hdrData hdrLen, isRegWrite event = false := by
  unfold fallbackHeaderCopy
  cases pkt.netbuf with
  | none => exact fun _ member => absurd member List.not_mem_nil
  | some nb =>
    intro event member
    change event ∈ (if _ then _ else _) at member
    split at member
    · rw [List.mem_singleton.mp member]
      rfl
    · exact absurd member List.not_mem_nil

/-- A submission that is refused leaves the ring and has no event. -/
theorem submitOutcome_refused (refused : (submitOutcome r cpu pkt).ret ≠ 0) :
    (submitOutcome r cpu pkt).ring = r ∧ (submitOutcome r cpu pkt).rung.events = [] := by
  have quiet := (submitOutcome_hostPlaced r cpu pkt).2
  constructor
  · revert refused
    unfold submitOutcome
    intro refused
    split
    · rfl
    split
    · split
      · rfl
      · rename_i valid sized _ _ _ found
        rw [if_neg valid, if_pos sized, found] at refused
        exact absurd rfl refused
    · rfl
  · unfold TxOutcome.rung
    rw [quiet, if_neg refused]
    rfl

theorem pushOutcome_refused {hdrData : Option (List UInt8)} {hdrLen : Nat}
    (refused : (pushOutcome r pkt hdrData hdrLen).ret ≠ 0) :
    pushOutcome r pkt hdrData hdrLen = .refuse r EBUSY := by
  revert refused
  unfold pushOutcome
  cases enaRingReqIdAlloc r.sqDepth r.pool with
  | none => exact fun _ => rfl
  | some taken => exact fun refused => absurd rfl refused

theorem enaNetdevTxXmitOne_refused {hdrData : Option (List UInt8)} (transmit : r.ringType = .tx)
    (unlocked : r.ringLock = false) (ran : enaNetdevTxXmitOne r cpu pkt hdrData = .ok out)
    (refused : out.ret ≠ 0) :
    out.ring = r ∧ ∀ event ∈ out.events, isRegWrite event = false := by
  have none : ∀ event ∈ ([] : List Event), isRegWrite event = false :=
    fun _ member => absurd member List.not_mem_nil
  unfold enaNetdevTxXmitOne at ran
  split at ran
  · simp only at ran
    by_cases fits : min pkt.len (if r.hw.llqHeaderLen = 0 then 96 else r.hw.llqHeaderLen) % 2 ^ 16 ≤
        r.hw.headerCap
    · cases falls : llqFallsBack r with
      | false =>
        rw [enaLlqTxPush_device cpu pkt hdrData transmit unlocked fits falls] at ran
        cases ran
        rw [pushOutcome_refused refused]
        exact ⟨rfl, none⟩
      | true =>
        rw [enaLlqTxPush_fallback cpu pkt hdrData transmit unlocked fits falls] at ran
        cases ran
        obtain ⟨same, quiet⟩ := submitOutcome_refused refused
        refine ⟨same, ?_⟩
        rw [quiet, List.append_nil]
        exact fallbackHeaderCopy_noRegWrite pkt hdrData _
    · rw [enaLlqTxPush_long cpu pkt hdrData transmit (Nat.lt_of_not_le fits)] at ran
      cases ran
      exact ⟨rfl, none⟩
  · rw [enaTxSubmit_eq cpu pkt transmit unlocked] at ran
    cases ran
    obtain ⟨same, quiet⟩ := submitOutcome_refused refused
    refine ⟨same, ?_⟩
    change ∀ event ∈ (submitOutcome r cpu pkt).rung.events, _
    rw [quiet]
    exact none

/-! ## Bounce slots -/

/-- A slot that is taken and given back is free again, behind the others. -/
theorem pop_giveBack_free (sound : pool.Sound []) (stocked : pool.freeCount ≠ 0) :
    (((BouncePool.pop pool).2.giveBack (BouncePool.pop pool).1).free).Perm pool.free := by
  obtain ⟨popped, taken⟩ := sound.pop stocked
  obtain ⟨_, given⟩ := popped.giveBack
  exact (List.perm_append_right_iff _).mp (given.trans taken)

/-! ## Transmit calls -/

structure Undone (reaped : TxChannel) (frame : TxFrame) (channel : TxChannel) : Prop where
  sqTail : channel.ring.sqTail = reaped.ring.sqTail
  pool : channel.ring.pool = reaped.ring.pool
  txBufs : channel.ring.txBufs = reaped.ring.txBufs
  slots : ∀ pool, reaped.queue.bounce = some pool →
    ∃ left, channel.queue.bounce = some left ∧ left.free.Perm pool.free ∧ left.map = pool.map
  untracked : ∀ id, ¬ Refers channel.ring frame.nb.addr id

def BouncePool.returned (taken : BouncePool) : Option Nat → BouncePool
  | none => taken
  | some slot => taken.giveBack slot

theorem xmitSettle_refused (slot : Option Nat) (refused : out.ret ≠ 0)
    (holds : c.queue.bounce = some pool) :
    (xmitSettle c slot out).ring = { out.ring with txDropped := (out.ring.txDropped + 1) % 2 ^ 64 } ∧
      (xmitSettle c slot out).queue.bounce = some (BouncePool.returned pool slot) := by
  unfold xmitSettle
  rw [if_neg refused]
  cases slot with
  | none => exact ⟨rfl, holds⟩
  | some slot =>
    rw [holds]
    exact ⟨rfl, rfl⟩

section Served

variable {phys : Nat} {condition : Prop} {world : TxBounceWorld}

/-- A negative result is the error of the ring. -/
theorem refused_of_negative {build : Build} {ret : Int}
    (negative : (if ret = 0 then xmitSuccess build else ret) < 0) : ret ≠ 0 := by
  intro zero
  rw [if_pos zero] at negative
  cases build <;> exact absurd negative (by decide)

theorem undone_of_refused (reaped : TxChannel) {slot : Option Nat} {frame : TxFrame}
    (refused : out.ret ≠ 0) (same : out.ring = reaped.ring)
    (untracked : ∀ id, ¬ Refers reaped.ring frame.nb.addr id) {taken : BouncePool}
    (owns : reaped.queue.bounce = some pool) (holds : c.queue.bounce = some taken)
    (restored : (BouncePool.returned taken slot).free.Perm pool.free ∧
      (BouncePool.returned taken slot).map = pool.map) :
    Undone reaped frame (xmitSettle c slot out) := by
  obtain ⟨ring, bounce⟩ := xmitSettle_refused slot refused holds
  rw [same] at ring
  refine ⟨by rw [ring], by rw [ring], by rw [ring], ?_, ?_⟩
  · intro other found
    cases owns.symm.trans found
    exact ⟨_, bounce, restored⟩
  · rw [ring]
    exact untracked

/-- A transmit call reaps and returns; an error undoes everything behind the reap. -/
theorem TxServed.xmit_undone (served : TxServed phys condition world) (build : Build) (cpu : Nat)
    (frame : TxFrame) (input : TxInput)
    (fresh : ∀ id, ¬ Refers world.channel.ring frame.nb.addr id) :
    ∃ ret port reaped out, enaTxPollCompletions world.channel.port cpu (xmitBudget build)
        (pollViews world.channel.ring input.changing input.settled) = .ok (ret, port, reaped) ∧
      Netdev.xmit build cpu world.channel frame input = .ok out ∧
      (out.ret < 0 → Undone (world.channel.update port) frame out.channel ∧
        ∃ rest, out.events = reaped ++ rest ∧ ∀ event ∈ rest, isRegWrite event = false) := by
  obtain ⟨ret, port, reaped, ran, polled⟩ :=
    served.poll cpu (xmitBudget build) input.changing input.settled
  obtain ⟨before, tracksBefore⟩ := served.tracks
  obtain ⟨ledger, tracks⟩ := polled.tracks
  obtain ⟨q, pool, found, holds, serves⟩ := polled.keeps
  cases found
  have untracked : ∀ id, ¬ Refers port.ring frame.nb.addr id := fun id refers =>
    fresh id (enaTxPollCompletions_refers (p := world.channel.port) tracksBefore served.unlocked ran refers)
  have stalled : (noteStall (world.channel.update port).queue).bounce = some pool :=
    (noteStall_bounce _).trans holds
  refine ⟨ret, port, reaped, ?_⟩
  unfold Netdev.xmit
  rw [ran]
  simp only [bind, Except.bind]
  have reserved := xmitReserve_cases build frame stalled
  cases chosen : xmitReserve build frame (noteStall (world.channel.update port).queue) with
  | error code =>
    refine ⟨_, trivial, rfl, fun _ => ⟨⟨rfl, rfl, rfl, fun other owns => ?_, untracked⟩, [], ?_, ?_⟩⟩
    · cases holds.symm.trans owns
      exact ⟨pool, stalled, .refl _, rfl⟩
    · exact (List.append_nil reaped).symm
    · exact fun _ member => absurd member List.not_mem_nil
  | ok choice =>
    obtain ⟨slot, queue⟩ := choice
    rw [chosen] at reserved
    obtain ⟨out, sent, _⟩ := enaNetdevTxXmitOne_cases port.ring cpu (xmitPkt build frame queue slot)
      (xmitHeader frame input.stale slot) polled.unlocked
    simp only [show (world.channel.update port).ring = port.ring from rfl, sent]
    refine ⟨_, trivial, rfl, fun negative => ?_⟩
    have refused := refused_of_negative negative
    obtain ⟨same, quiet⟩ := enaNetdevTxXmitOne_refused tracks.1 polled.unlocked sent refused
    refine ⟨?_, out.events, rfl, quiet⟩
    change Undone _ _ (xmitSettle _ slot out)
    cases reserved with
    | direct high =>
      refine undone_of_refused (world.channel.update port) refused same untracked holds stalled ?_
      exact ⟨.refl _, rfl⟩
    | bounced stocked short =>
      refine undone_of_refused (world.channel.update port) refused same untracked holds rfl ?_
      exact ⟨pop_giveBack_free serves.sound stocked, rfl⟩

end Served

/-- A call of one of the two transmit functions; `running` and the number of queues
are looked at by the host build only. -/
def transmit (build : Build) (running : Bool) (nbTxQueues cpu : Nat) (c : TxChannel)
    (frame : TxFrame) (input : TxInput) : Except Fault Xmitted :=
  match build with
  | .unikraft => enaNetdevTxOne cpu c frame input
  | .host => enaNetdevTxqXmit running nbTxQueues cpu c frame input

def GetsToReap (build : Build) (running : Bool) (nbTxQueues : Nat) (c : TxChannel) : Prop :=
  build = .host → running = true ∧ c.queue.queueId < nbTxQueues ∧ c.queue.queueId < maxQueues

theorem transmit_getsToReap {build : Build} {running : Bool} {nbTxQueues : Nat}
    (gets : GetsToReap build running nbTxQueues c) (cpu : Nat) (frame : TxFrame) (input : TxInput) :
    transmit build running nbTxQueues cpu c frame input = Netdev.xmit build cpu c frame input := by
  cases build with
  | unikraft => rfl
  | host =>
    obtain ⟨on, first, second⟩ := gets rfl
    change enaNetdevTxqXmit running nbTxQueues cpu c frame input = _
    unfold enaNetdevTxqXmit
    rw [if_neg (by rw [on]; decide), if_neg (by omega)]

/-- In every state that a configured transmit queue can reach, a call that gets to its
reap for a packet that no tracking slot refers to returns, and an error leaves the
channel as the reap left it, rings no doorbell and keeps no reference to the packet. -/
theorem failed_transmit_undone {qid : Nat} {depth : UInt16} {memory : Nat → Option Nat} {ring : Ring}
    (built : enaRingAlloc qid .tx depth depth memory = .ok ring) (phys : Nat) (ops : List TxBounceOp) :
    ∃ world, run txBounceStep (.configured ring phys) ops = .ok world ∧
      ∀ build running nbTxQueues, GetsToReap build running nbTxQueues world.channel →
      ∀ cpu frame input, (∀ id, ¬ Refers world.channel.ring frame.nb.addr id) →
        ∃ ret port reaped out, enaTxPollCompletions world.channel.port cpu (xmitBudget build)
            (pollViews world.channel.ring input.changing input.settled) = .ok (ret, port, reaped) ∧
          transmit build running nbTxQueues cpu world.channel frame input = .ok out ∧
          (out.ret < 0 → Undone (world.channel.update port) frame out.channel ∧
            ∃ rest, out.events = reaped ++ rest ∧ ∀ event ∈ rest, isRegWrite event = false) := by
  obtain ⟨world, ran, served⟩ := run_invariant (fun _ _ => True) (TxServed phys False)
    (fun _ op served _ => txBounceStep_served served op False.elim)
    (configured_served built phys False) (meets_of_forall (fun _ _ => trivial) _ ops)
  refine ⟨world, ran, fun build running nbTxQueues gets cpu frame input fresh => ?_⟩
  rw [transmit_getsToReap gets]
  exact served.xmit_undone build cpu frame input fresh

def emptyFrame (addr : Nat) : TxFrame := ⟨{ smallNetbuf addr with len := 0 }, 0, []⟩

/-- The ring refuses a packet of no bytes, whose slot goes back. -/
theorem failed_transmit_undone_empty :
    ∃ world ret port reaped out, run txBounceStep (.configured smallTxRing 65536) [] = .ok world ∧
      enaTxPollCompletions world.channel.port 0 32
        (pollViews world.channel.ring [] fun _ => ⟨0, 0, 0, 0, 0⟩) = .ok (ret, port, reaped) ∧
      transmit .unikraft true 1 0 world.channel (emptyFrame 4096) silentInput = .ok out ∧
      out.ret = -EINVAL ∧ Undone (world.channel.update port) (emptyFrame 4096) out.channel := by
  obtain ⟨world, ran, calls⟩ := failed_transmit_undone smallTxRing_built 65536 []
  cases ran
  have fresh : ∀ id, ¬ Refers smallTxRing (emptyFrame 4096).nb.addr id := by
    rintro id ⟨nb, stored, _⟩
    cases stored
  obtain ⟨ret, port, reaped, out, polled, sent, undone⟩ :=
    calls .unikraft true 1 nofun 0 (emptyFrame 4096) silentInput fresh
  have observed : (transmit .unikraft true 1 0 (TxBounceWorld.configured smallTxRing 65536).channel
      (emptyFrame 4096) silentInput).toOption.map Xmitted.ret = some (-EINVAL) := by
    decide +kernel
  rw [sent] at observed
  have refused : out.ret = -EINVAL := Option.some.inj observed
  refine ⟨_, ret, port, reaped, out, rfl, polled, sent, refused, (undone ?_).1⟩
  rw [refused]
  decide

end EnaDriver.Netdev
