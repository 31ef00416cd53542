import EnaDriver.Netdev.ReceiveCalls
import EnaDriver.Datapath.PollProgress

/-!
# Work of one call

The loops of the polls and of the reception count only the entries they accept,
so their budgets do not bound the entries they consume.  What does is the phase:
as long as the device leaves the phase of the entry that a call starts at alone,
the call consumes at most one lap of the completion queue and returns.  A device
that writes that entry again while the call runs can keep it running.
-/

namespace EnaDriver.Netdev

open Support.Laps Support.Polling
open Datapath

/-! ## Refills and turns -/

structure KeepsQueue (r : Ring) (next : Ring) (events : List Event) : Prop where
  same : SameHead r next
  unlocked : next.ringLock = r.ringLock
  quiet : consumed events = 0

variable {c : RxChannel}

theorem enaRxRefill_keepsQueue (unlocked : c.ring.ringLock = false) (count : Nat)
    (alloc : AllocNetbuf) :
    ∃ ret p events, enaRxRefill c.port count alloc = .ok (ret, p, events) ∧
      KeepsQueue c.ring (c.update p).ring events := by
  obtain ⟨ret, p, events, ran, ⟨_, _, _, _, ring⟩, quiet⟩ :=
    enaRxRefill_frame c.port count alloc unlocked
  refine ⟨ret, p, events, ran, ?_⟩
  change KeepsQueue c.ring p.ring events
  rw [ring]
  exact ⟨⟨rfl, rfl, rfl, rfl, rfl⟩, rfl, quiet⟩

theorem KeepsQueue.countErr {r : Ring} {next : RxChannel} {events : List Event}
    (keeps : KeepsQueue r next.ring events) (ret : Int) (spare : Nat) :
    KeepsQueue r (countRefillErr next ret spare).ring events := by
  unfold countRefillErr
  split
  · obtain ⟨⟨ringType, hw, sqDepth, cqDepth, cqHead⟩, unlocked, quiet⟩ := keeps
    exact ⟨⟨ringType, hw, sqDepth, cqDepth, cqHead⟩, unlocked, quiet⟩
  · exact keeps

theorem refill_keepsQueue (build : Build) (unlocked : c.ring.ringLock = false)
    (answers : Nat → Option Netbuf) (counts : Bool) :
    ∃ next events, refill build c answers counts = .ok (next, events) ∧
      KeepsQueue c.ring next.ring events := by
  obtain ⟨next, events, ran⟩ := refill_total unlocked build answers counts
  refine ⟨next, events, ran, @refill_rule _ _ _ (fun next events => KeepsQueue c.ring next.ring events)
    ⟨⟨rfl, rfl, rfl, rfl, rfl⟩, rfl, rfl⟩ ?_ (fun ret spare keeps => keeps.countErr ret spare)
    _ _ _ ran⟩
  intro count ret p events ran
  obtain ⟨_, _, _, same, keeps⟩ :=
    enaRxRefill_keepsQueue unlocked count (enaNetbufAllocHelper build answers)
  cases ran.symm.trans same
  exact keeps

theorem consumed_unposted (netbufs : List Netbuf) : consumed (netbufs.map .unposted) = 0 := by
  induction netbufs with
  | nil => rfl
  | cons nb rest ih => exact ih

/-- What a turn does to the completion queue beyond its poll: nothing, and it asks
for another turn only after a packet. -/
structure TurnKeeps (polled : RxPolled) (result : TurnResult) : Prop where
  same : SameHead polled.port.ring result.channel.ring
  unlocked : result.channel.ring.ringLock = false
  consumes : consumed result.events = consumed polled.events
  again : result.turn = .again → received polled.events ≠ []

theorem rxTurn_keeps (build : Build) {input : RxInput} {polled : RxPolled}
    (ran : enaRxPoll c.port 1 (pollViews c.ring input.changing input.settled) = .ok polled)
    (unlocked : polled.port.ring.ringLock = false) :
    ∃ result, rxTurn build c input = .ok result ∧ TurnKeeps polled result := by
  obtain ⟨between, counts, finish, form, turned⟩ := rxTurn_forms build ran
  obtain ⟨dropped, start⟩ := form.start
  obtain ⟨next, events, refilled, keeps⟩ := refill_keepsQueue build
    (start ▸ unlocked : between.ring.ringLock = false) input.answers counts
  obtain ⟨ring, freed, during⟩ := form.result next events
  refine ⟨_, turned next events refilled, ?_, ?_, ?_, ?_⟩
  · rw [ring]
    obtain ⟨⟨ringType, hw, sqDepth, cqDepth, cqHead⟩, _, _⟩ := keeps
    rw [start] at ringType hw sqDepth cqDepth cqHead
    exact ⟨ringType, hw, sqDepth, cqDepth, cqHead⟩
  · rw [ring, keeps.unlocked, start]
    exact unlocked
  · rw [during, consumed_append, consumed_append, consumed_unposted, keeps.quiet]
    rfl
  · intro again
    cases form with
    | kept freed packet => exact packet ▸ List.cons_ne_nil _ _
    | _ => cases again

/-! ## The loop of a reception -/

def RxInput.views (input : RxInput) : List RxMem := input.settled :: input.changing

theorem RxInput.mem_views {input : RxInput} {r : Ring} {view : RxMem}
    (member : view ∈ pollViews r input.changing input.settled) : view ∈ input.views := by
  rcases List.mem_append.mp member with changing | settled
  · exact List.mem_cons_of_mem _ changing
  · rw [List.eq_of_mem_replicate settled]
    exact List.mem_cons_self

/-- While the entry at `first` keeps its phase, a reception at a position of that
lap returns and consumes at most what is left of the lap. -/
theorem recvLoop_within (build : Build) {d : Depth} {flipped shown : Bool} {first : Nat}
    (inputs : List RxInput) {position left : Nat}
    (located : rxPoller.HeadAt d flipped c.port position) (unlocked : c.ring.ringLock = false)
    (lap : position + left = first + d.val) (enough : left < inputs.length) (short : left ≤ d.val)
    (kept : ∀ input ∈ inputs, ∀ view ∈ input.views,
      (flipped ^^ (view (first % d.val)).phase) = shown)
    (matched : position = first ∨ shown = lapPhase d first) :
    ∃ out, recvLoop build c inputs = .ok out ∧ consumed out.events ≤ left := by
  induction inputs generalizing c position left with
  | nil => cases enough
  | cons input inputs ih =>
    have views : left < (pollViews c.ring input.changing input.settled).length := by
      have depth : c.ring.cqDepth = d := located.1
      rw [pollViews, List.length_append, List.length_replicate, depth]
      omega
    obtain ⟨polled, ran, bound, reached, free, passed, packet⟩ :=
      enaRxPoll_within 1 located unlocked lap views
        (fun view member => kept input List.mem_cons_self view (RxInput.mem_views member)) matched
    obtain ⟨result, turned, same, freeNext, consumes, again⟩ := rxTurn_keeps build ran free
    rw [recvLoop, turned]
    cases ended : result.turn with
    | done status frame =>
      refine ⟨_, by simp only [bind, Except.bind, ended]; rfl, ?_⟩
      change consumed result.events ≤ left
      rw [consumes]
      exact bound
    | again =>
      -- a turn that goes on has consumed an entry
      have progress := packet (again ended)
      have moved : rxPoller.HeadAt d flipped result.channel.port
          (position + consumed polled.events) :=
        ⟨same.cqDepth.trans reached.1, same.cqHead.trans reached.2⟩
      have rest : position + consumed polled.events + (left - consumed polled.events) =
          first + d.val := by omega
      obtain ⟨out, looped, bounded⟩ := ih moved freeNext rest
        (by rw [List.length_cons] at enough; omega) (by omega)
        (fun other member => kept other (List.mem_cons_of_mem _ member))
        (Or.inr (passed.resolve_left (Nat.ne_of_gt progress)))
      refine ⟨_, by simp only [bind, Except.bind, ended, looped]; rfl, ?_⟩
      change consumed (result.events ++ out.events) ≤ left
      rw [consumed_append, consumes]
      omega

/-! ## Main result -/

/-- Whatever else the device writes while a call runs: as long as it leaves the
phase of the entry under the head at the start of the call alone, the two polls
and the reception return, and none of them consumes more than one lap.  The
views and inputs are what the device may show while the call runs, and there are
more of them than one lap. -/
theorem calls_end_within_lap (shown : Bool) :
    (∀ (p : TxPort) (cpu budget : Nat) (views : List TxMem),
      p.ring.ringLock = false → p.ring.cqHead.index < 65536 →
      p.ring.cqDepth.val < views.length →
      (∀ view ∈ views, (view p.ring.cqSlot).phase = shown) →
      ∃ ret next events, enaTxPollCompletions p cpu budget views = .ok (ret, next, events) ∧
        consumed events ≤ p.ring.cqDepth.val) ∧
    (∀ (p : RxPort) (maxPkts : Nat) (views : List RxMem),
      p.ring.ringLock = false → p.ring.cqHead.index < 65536 →
      p.ring.cqDepth.val < views.length →
      (∀ view ∈ views, (view p.ring.cqSlot).phase = shown) →
      ∃ polled, enaRxPoll p maxPkts views = .ok polled ∧
        consumed polled.events ≤ p.ring.cqDepth.val) ∧
    ∀ (c : RxChannel) (answers : Nat → Option Netbuf) (inputs : List RxInput),
      c.ring.ringLock = false → c.ring.cqHead.index < 65536 →
      c.ring.cqDepth.val < inputs.length →
      (∀ input ∈ inputs, ∀ view ∈ input.views, (view c.ring.cqSlot).phase = shown) →
      ∃ out, enaNetdevRxOne c answers inputs = .ok out ∧
        consumed out.events ≤ c.ring.cqDepth.val := by
  refine ⟨?_, ?_, ?_⟩
  · intro p cpu budget views unlocked small enough kept
    exact enaTxPollCompletions_within unlocked small cpu budget enough kept
  · intro p maxPkts views unlocked small enough kept
    obtain ⟨flipped, head⟩ := Cursor.exists_lapped p.ring.cqDepth small
    have shows : ∀ view ∈ views, (flipped ^^ (view (p.ring.cqHead.index % p.ring.cqDepth.val)).phase)
        = (flipped ^^ shown) := by
      intro view member
      rw [← p.ring.cqDepth.slot_eq_mod]
      exact congrArg (flipped ^^ ·) (kept view member)
    obtain ⟨polled, ran, bound, _⟩ :=
      enaRxPoll_within maxPkts ⟨rfl, head⟩ unlocked rfl enough shows (Or.inl rfl)
    exact ⟨polled, ran, bound⟩
  · intro c answers inputs unlocked small enough kept
    obtain ⟨flipped, head⟩ := Cursor.exists_lapped c.ring.cqDepth small
    have shows : ∀ input ∈ inputs, ∀ view ∈ input.views,
        (flipped ^^ (view (c.ring.cqHead.index % c.ring.cqDepth.val)).phase) =
          (flipped ^^ shown) := by
      intro input inside view member
      rw [← c.ring.cqDepth.slot_eq_mod]
      exact congrArg (flipped ^^ ·) (kept input inside view member)
    obtain ⟨next, events, refilled, keeps⟩ := refill_keepsQueue .unikraft unlocked answers true
    obtain ⟨out, looped, bound⟩ := recvLoop_within .unikraft inputs
      ⟨keeps.same.cqDepth, keeps.same.cqHead.trans head⟩ (keeps.unlocked.trans unlocked) rfl
      enough (Nat.le_refl _) shows (Or.inl rfl)
    change enaNetdevRxRefillHelper c answers = _ at refilled
    refine ⟨{ out with events := events ++ out.events }, ?_, ?_⟩
    · rw [enaNetdevRxOne, refilled]
      simp only [bind, Except.bind, looped]
      rfl
    · rw [consumed_append, keeps.quiet, Nat.zero_add]
      exact bound

/-- Polls during which the device goes on to write behind the entry under the head. -/
theorem calls_end_within_lap_written :
    (∃ ret next events, enaTxPollCompletions ⟨sentRing, none⟩ 0 0
        ([[0], [0, 3], [0, 3, 2], [0, 3, 2, 1], [0, 3, 2, 1]].map completionsOf) =
          .ok (ret, next, events) ∧ consumed events ≤ 4) ∧
    (∃ polled, enaRxPoll ⟨smallRxRing, none⟩ 4
        ([[(0, 9)], [(0, 9), (3, 9)], [(0, 9), (3, 9), (2, 9)], [(0, 9), (3, 9), (2, 9), (1, 9)],
          [(0, 9), (3, 9), (2, 9), (1, 9)]].map receptions) = .ok polled ∧
      consumed polled.events ≤ 4) ∧
    ∃ out, enaNetdevRxOne ⟨smallRxRing.withCallbacks true true, ⟨0, true, none, none, []⟩⟩
        (fun call => some (emptyNetbuf call))
        (List.replicate 5 ⟨[receptions [(0, 9)]], receptions [(0, 9), (1, 9)], fun _ => none,
          receptions [(0, 9)]⟩) = .ok out ∧
      consumed out.events ≤ 4 := by
  refine ⟨(calls_end_within_lap true).1 _ 0 0 _ rfl (by decide) (by decide) ?_,
    (calls_end_within_lap true).2.1 _ 4 _ rfl (by decide) (by decide) ?_,
    (calls_end_within_lap true).2.2 _ _ _ rfl (by decide) (by decide) ?_⟩
  · exact List.forall_mem_map.mpr (by decide)
  · exact List.forall_mem_map.mpr (by decide)
  · intro input member
    rw [List.eq_of_mem_replicate member]
    exact List.forall_mem_cons.mpr ⟨rfl, List.forall_mem_singleton.mpr rfl⟩

/-- Completion memory in which every entry names a request that is not in flight
and carries the phase of the given position. -/
def idleEntries (position : Nat) : TxMem :=
  fun _ => ⟨1, 0, if lapPhase .four position then 1 else 0, 0, 0⟩

theorem pollLoop_idleEntries (n : Nat) {position : Nat} {p : TxPort}
    (cqDepth : p.ring.cqDepth = .four) (sqDepth : p.ring.sqDepth = .four)
    (head : p.ring.cqHead = Cursor.after .four position)
    (idle : p.ring.pool.reqInFlight 1 = false) :
    pollLoop (txPollEntry 0) 1 0 p ((List.range' position n).map idleEntries) = none := by
  induction n generalizing position p with
  | zero => rfl
  | succ n ih =>
    have phase : ∀ slot, (idleEntries position slot).phase = lapPhase .four position := by
      intro slot
      unfold idleEntries TxCdesc.phase
      cases lapPhase .four position <;> rfl
    have fresh : (idleEntries position p.ring.cqSlot).phase = p.ring.cqHead.phase := by
      rw [phase, head]
      rfl
    have read : txPollEntry 0 p (idleEntries position) =
        some (0, { p with ring := p.ring.advanceCq },
          [.txConsumed p.ring.cqSlot (idleEntries position p.ring.cqSlot) .skipped]) := by
      unfold txPollEntry
      have inRange : ¬ p.ring.sqDepth.val ≤ (idleEntries position p.ring.cqSlot).reqId := by
        rw [sqDepth]
        exact (by decide : ¬ Depth.four.val ≤ 1)
      have skipped : p.ring.pool.reqInFlight (idleEntries position p.ring.cqSlot).reqId = false :=
        idle
      simp only [fresh, ne_eq, not_true, if_false, inRange, skipped, if_true]
    have next : pollLoop (txPollEntry 0) 1 0 { p with ring := p.ring.advanceCq }
        ((List.range' (position + 1) n).map idleEntries) = none := by
      refine @ih (position + 1) { p with ring := p.ring.advanceCq } cqDepth sqDepth ?_ idle
      change p.ring.cqHead.advance p.ring.cqDepth = _
      rw [head, cqDepth, Cursor.advance_after]
    rw [List.range'_succ, List.map_cons, pollLoop, if_neg (by decide), read]
    simp only [Nat.zero_add, next, Option.map_none]

/-- The device writes each slot again as soon as the poll has passed it, always
with a completion of a request that is not in flight.  The budget is one request,
and after any number of iterations, each of which consumed an entry, the poll is
still running. -/
theorem poll_outlives_rewriting_device :
    sentRing.pool.reqInFlight 1 = false ∧
    ∀ n, enaTxPollCompletions ⟨sentRing, none⟩ 0 1 ((List.range' 0 n).map idleEntries) =
      .error .unbounded := by
  refine ⟨rfl, fun n => ?_⟩
  have looped := pollLoop_idleEntries n (p := ⟨{ sentRing with ringLock := true }, none⟩)
    rfl rfl (Cursor.after_zero .four).symm rfl
  change (stillRunning (pollLoop (txPollEntry 0) 1 0 ⟨{ sentRing with ringLock := true }, none⟩
    ((List.range' 0 n).map idleEntries)) >>= _) = _
  rw [looped]
  rfl

end EnaDriver.Netdev
