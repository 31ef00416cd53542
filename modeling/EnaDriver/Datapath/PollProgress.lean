import EnaDriver.Datapath.RingSteps

/-!
# Progress of the completion polls

What an iteration of either poll loop does to the consumer position, for every
state of a ring: it passes the entry under the head, and it does so exactly when
the entry is fresh and names a request id of the ring.  So a poll moves past a
fresh entry exactly when the id of that entry is in range; an entry with another
id stays under the head of every later poll.
-/

namespace EnaDriver.Datapath

open Support.Laps Support.Polling

/-! ## What a release leaves alone -/

/-- The fields that decide which entries a poll consumes are unchanged. -/
structure SameHead (r next : Ring) : Prop where
  ringType : next.ringType = r.ringType
  hw : next.hw = r.hw
  sqDepth : next.sqDepth = r.sqDepth
  cqDepth : next.cqDepth = r.cqDepth
  cqHead : next.cqHead = r.cqHead

theorem SameHead.trans {r middle next : Ring} (earlier : SameHead r middle)
    (later : SameHead middle next) : SameHead r next where
  ringType := later.ringType.trans earlier.ringType
  hw := later.hw.trans earlier.hw
  sqDepth := later.sqDepth.trans earlier.sqDepth
  cqDepth := later.cqDepth.trans earlier.cqDepth
  cqHead := later.cqHead.trans earlier.cqHead

theorem Books.sameHead {r next : Ring} {events : List Event} (books : Books r events next) :
    SameHead r next :=
  ⟨congrArg (·.1) books.same, congrArg (·.2.1) books.same, congrArg (·.2.2.1) books.same,
    congrArg (·.2.2.2.1) books.same, congrArg (·.2.2.2.2.2.1) books.same⟩

theorem txAcknowledge_sameHead (r : Ring) (cdesc : TxCdesc) : SameHead r (txAcknowledge r cdesc) :=
  ⟨rfl, rfl, rfl, rfl, rfl⟩

/-! ## One iteration -/

/-- An iteration passes the entry under the head, which has this phase and names
this request id. -/
structure Passes (r : Ring) (phase : Bool) (reqId : Nat) (events : List Event) (next : Ring) :
    Prop where
  fresh : phase = r.cqHead.phase
  inRange : reqId < r.sqDepth.val
  sqDepth : next.sqDepth = r.sqDepth
  cqDepth : next.cqDepth = r.cqDepth
  cqHead : next.cqHead = r.cqHead.advance r.cqDepth
  one : consumed events = 1

variable {added budget total : Nat} {events outputs : List Event} {p : TxPort}

theorem SameHead.passes {r middle : Ring} (same : SameHead r middle) {phase : Bool} {reqId : Nat}
    (fresh : phase = r.cqHead.phase) (inRange : reqId < r.sqDepth.val) (one : consumed events = 1) :
    Passes r phase reqId events middle.advanceCq where
  fresh := fresh
  inRange := inRange
  sqDepth := same.sqDepth
  cqDepth := same.cqDepth
  cqHead := by
    change middle.cqHead.advance middle.cqDepth = _
    rw [same.cqHead, same.cqDepth]
  one := one

theorem txPollEntry_passes {cpu : Nat} {next : TxPort} {mem : TxMem}
    (read : txPollEntry cpu p mem = some (added, next, events)) :
    Passes p.ring (mem p.ring.cqSlot).phase (mem p.ring.cqSlot).reqId events next.ring := by
  obtain ⟨fresh, inRange, ⟨_, _, ring, happened⟩ | ⟨_, _, ring, happened⟩⟩ :=
    txPollEntry_cases read
  · rw [ring, happened]
    exact SameHead.passes ⟨rfl, rfl, rfl, rfl, rfl⟩ fresh inRange rfl
  have books := books_dispose (txAcknowledge p.ring (mem p.ring.cqSlot)) cpu
    (mem p.ring.cqSlot).reqId
  rw [ring, happened]
  apply ((txAcknowledge_sameHead _ _).trans books.sameHead).passes fresh inRange
  rw [consumed, List.countP_cons_of_pos rfl]
  exact congrArg (· + 1) books.consumed

theorem txPollEntry_stays {cpu : Nat} {mem : TxMem} (read : txPollEntry cpu p mem = none)
    (fresh : (mem p.ring.cqSlot).phase = p.ring.cqHead.phase) :
    p.ring.sqDepth.val ≤ (mem p.ring.cqSlot).reqId := by
  by_contra inRange
  simp only [txPollEntry, fresh, ne_eq, not_true, if_false, inRange] at read
  split at read <;> cases read

theorem rxPollEntry_passes {p next : RxPort} {mem : RxMem}
    (read : rxPollEntry p mem = some (added, next, events)) :
    Passes p.ring (mem p.ring.cqSlot).phase (mem p.ring.cqSlot).reqId events next.ring := by
  obtain ⟨fresh, inRange, entry⟩ := rxPollEntry_cases read
  cases entry with
  | skipped idle => exact SameHead.passes ⟨rfl, rfl, rfl, rfl, rfl⟩ fresh inRange rfl
  | dropped inFlight oversize =>
    have books := books_drop p.ring (mem p.ring.cqSlot).reqId
    apply books.sameHead.passes fresh inRange
    rw [consumed, List.countP_cons_of_pos rfl]
    exact congrArg (· + 1) books.consumed
  | delivered inFlight fits =>
    exact (books_deliver p.ring (mem p.ring.cqSlot)).sameHead.passes fresh inRange rfl

theorem rxPollEntry_stays {p : RxPort} {mem : RxMem} (read : rxPollEntry p mem = none)
    (fresh : (mem p.ring.cqSlot).phase = p.ring.cqHead.phase) :
    p.ring.sqDepth.val ≤ (mem p.ring.cqSlot).reqId := by
  by_contra inRange
  simp only [rxPollEntry, fresh, ne_eq, not_true, if_false, inRange] at read
  split at read
  · cases read
  · split at read <;> cases read

/-! ## The loops

Both loops are treated at once. -/

/-- An iteration over ports with a ring and views with completion entries, which
continues exactly by passing the entry under the head. -/
structure Poller (π μ : Type) where
  entry : π → μ → Option (Nat × π × List Event)
  ring : π → Ring
  phase : μ → Nat → Bool
  reqId : μ → Nat → Nat
  passes : ∀ {p next : π} {mem : μ} {added : Nat} {events : List Event},
    entry p mem = some (added, next, events) →
      Passes (ring p) (phase mem (ring p).cqSlot) (reqId mem (ring p).cqSlot) events (ring next)
  stays : ∀ {p : π} {mem : μ}, entry p mem = none →
    phase mem (ring p).cqSlot = (ring p).cqHead.phase →
      (ring p).sqDepth.val ≤ reqId mem (ring p).cqSlot

def txPoller (cpu : Nat) : Poller TxPort TxMem where
  entry := txPollEntry cpu
  ring := TxPort.ring
  phase mem slot := (mem slot).phase
  reqId mem slot := (mem slot).reqId
  passes := txPollEntry_passes
  stays := txPollEntry_stays

def rxPoller : Poller RxPort RxMem where
  entry := rxPollEntry
  ring := RxPort.ring
  phase mem slot := (mem slot).phase
  reqId mem slot := (mem slot).reqId
  passes := rxPollEntry_passes
  stays := rxPollEntry_stays

namespace Poller

variable {π μ : Type} (poller : Poller π μ) {views : List μ} {flipped : Bool}

/-- The head moves by the entries consumed. -/
theorem cqAhead {count : Nat} {p last : π}
    (iterates : Iterates poller.entry budget count p views total outputs last) :
    (poller.ring last).cqHead = (poller.ring p).cqAhead (consumed outputs) := by
  have moved := iterates.rel (fun state outputs last =>
    (poller.ring last).cqHead = (poller.ring state).cqAhead (consumed outputs)) (fun _ => rfl) ?_
  · exact moved
  · intro state view added next outputs rest last _ read later
    have passed := poller.passes read
    rw [later, consumed_append, passed.one, Nat.add_comm, Ring.cqAhead, Ring.cqAhead,
      passed.cqDepth, passed.cqHead, Function.iterate_succ_apply]

/-- A loop with budget left passes a fresh first entry exactly when the id of that
entry is in range. -/
theorem passes_iff {p last : π} {view : μ}
    (iterates : Iterates poller.entry budget 0 p (view :: views) total outputs last)
    (more : 0 < budget)
    (fresh : poller.phase view (poller.ring p).cqSlot = (poller.ring p).cqHead.phase) :
    0 < consumed outputs ↔
      poller.reqId view (poller.ring p).cqSlot < (poller.ring p).sqDepth.val := by
  cases iterates with
  | stop reason =>
    rcases reason with full | ⟨_, _, same, read⟩
    · omega
    · cases same
      have outside := poller.stays read fresh
      rw [consumed_nil]
      omega
  | step _ read later =>
    have passed := poller.passes read
    rw [consumed_append, passed.one]
    exact ⟨fun _ => passed.inRange, fun _ => by omega⟩

/-- The position of a port on its completion queue; `flipped` says whether the
queue started in the other phase. -/
def HeadAt (d : Depth) (flipped : Bool) (p : π) (position : Nat) : Prop :=
  (poller.ring p).cqDepth = d ∧ (poller.ring p).cqHead = Cursor.lapped d flipped position

theorem HeadAt.step {d : Depth} {position : Nat} {p next : π} {mem : μ}
    (located : poller.HeadAt d flipped p position)
    (read : poller.entry p mem = some (added, next, events)) :
    poller.HeadAt d flipped next (position + 1) ∧
      (flipped ^^ poller.phase mem (position % d.val)) = lapPhase d position := by
  have passed := poller.passes read
  obtain ⟨depth, head⟩ := located
  have slot : (poller.ring p).cqSlot = position % d.val := by
    rw [Ring.cqSlot, depth, head]
    exact d.slot_wrap position
  refine ⟨⟨passed.cqDepth.trans depth, ?_⟩, ?_⟩
  · rw [passed.cqHead, depth, head, Cursor.advance_lapped]
  · rw [← slot, passed.fresh, head, Cursor.lapped, ← Bool.xor_assoc, Bool.xor_self, Bool.false_xor]

/-- The position moves by the entries consumed. -/
theorem HeadAt.iterates {d : Depth} {position count : Nat} {p last : π}
    (located : poller.HeadAt d flipped p position)
    (iterates : Iterates poller.entry budget count p views total outputs last) :
    poller.HeadAt d flipped last (position + consumed outputs) := by
  induction iterates generalizing position with
  | stop reason => exact located
  | step more read later ih =>
    obtain ⟨moved, _⟩ := HeadAt.step poller located read
    rw [consumed_append, (poller.passes read).one, ← Nat.add_assoc]
    exact ih moved

/-- While the entry at `first` keeps its phase, a loop at a position of that lap
ends within the lap, at a position of it. -/
theorem steady (budget : Nat) {d : Depth} {p : π} {position left first : Nat} {shown : Bool}
    (located : poller.HeadAt d flipped p position) (lap : position + left = first + d.val)
    (enough : left < views.length)
    (kept : ∀ view ∈ views, (flipped ^^ poller.phase view (first % d.val)) = shown)
    (matched : position = first ∨ shown = lapPhase d first) :
    ∃ total last outputs,
      pollLoop poller.entry budget 0 p views = some (total, last, outputs) ∧
        consumed outputs ≤ left ∧
        poller.HeadAt d flipped last (position + consumed outputs) ∧
        (consumed outputs = 0 ∨ shown = lapPhase d first) := by
  have counts : CountsIterations poller.entry consumed := by
    refine ⟨rfl, ?_⟩
    intro state view added next outputs read rest
    rw [consumed_append, (poller.passes read).one, Nat.add_comm]
  obtain ⟨total, last, outputs, looped, bound⟩ := pollLoop_lap d (poller.HeadAt d flipped)
    (fun view slot => flipped ^^ poller.phase view slot) (HeadAt.step poller) located lap enough
    kept matched
  have within := bound consumed counts
  have iterates := pollLoop_iterates looped
  refine ⟨total, last, outputs, looped, by omega, HeadAt.iterates poller located iterates, ?_⟩
  cases iterates with
  | stop reason => exact Or.inl rfl
  | step more read later =>
    right
    rcases matched with same | known
    · rw [← kept _ List.mem_cons_self, ← same]
      exact (HeadAt.step poller located read).2
    · exact known

/-- A loop ends once the device has stopped writing for one lap. -/
theorem settles (budget : Nat) (p : π) (small : (poller.ring p).cqHead.index < 65536)
    (changing : List μ) (settled : μ) :
    ∃ total last outputs,
      pollLoop poller.entry budget 0 p (pollViews (poller.ring p) changing settled) =
        some (total, last, outputs) := by
  obtain ⟨flipped, head⟩ := Cursor.exists_lapped (poller.ring p).cqDepth small
  obtain ⟨⟨total, last, outputs⟩, looped⟩ := pollLoop_total (poller.ring p).cqDepth
    (poller.HeadAt (poller.ring p).cqDepth flipped)
    (fun view slot => flipped ^^ poller.phase view slot) (HeadAt.step poller)
    changing settled ⟨rfl, head⟩
  exact ⟨total, last, outputs, looped⟩

end Poller

theorem pollViews_head {μ : Type} (r : Ring) (changing : List μ) (settled : μ) :
    ∃ rest, pollViews r changing settled = changing.headD settled :: rest := by
  cases changing with
  | nil => exact ⟨List.replicate r.cqDepth.val settled, List.replicate_succ⟩
  | cons view rest => exact ⟨rest ++ List.replicate (r.cqDepth.val + 1) settled, rfl⟩

/-! ## The calls -/

structure Pollable (r : Ring) (ringType : RingType) : Prop where
  ringType : r.ringType = ringType
  valid : r.hw.valid = true
  unlocked : r.ringLock = false
  small : r.cqHead.index < 65536

/-- A transmit poll over a ring with requests outstanding drains the deferred
releases, which leaves the head alone, and then runs its loop. -/
theorem enaTxPollCompletions_loop (pollable : Pollable p.ring .tx)
    (outstanding : p.ring.pool.freeReqCount < p.ring.sqDepth.val) (cpu budget : Nat) :
    ∃ drained first, SameHead p.ring drained ∧ consumed first = 0 ∧
      ∀ views cleaned last rest,
        pollLoop (txPollEntry cpu) (if budget = 0 then p.ring.cqDepth.val else budget) 0
            ⟨drained, p.queue⟩ views = some (cleaned, last, rest) →
          enaTxPollCompletions p cpu budget views =
            .ok (cleaned, { last with ring := enaRingUnlock last.ring }, first ++ rest) := by
  obtain ⟨isTx, valid, unlocked, _⟩ := pollable
  obtain ⟨drained, first, ran, books⟩ := drain_books { p.ring with ringLock := true } cpu
  have locked : SameHead p.ring { p.ring with ringLock := true } := ⟨rfl, rfl, rfl, rfl, rfl⟩
  refine ⟨drained, first, locked.trans books.sameHead, books.consumed, ?_⟩
  intro views cleaned last rest looped
  unfold enaTxPollCompletions
  rw [if_neg (not_not.mpr isTx), if_neg (by rw [valid]; decide),
    if_neg (Nat.not_le_of_lt outstanding)]
  simp only [enaRingLock_free unlocked]
  change (enaTxDrainForeignFrees { p.ring with ringLock := true } cpu >>= _) = _
  rw [ran]
  change (stillRunning (pollLoop _ _ 0 (TxPort.mk drained p.queue) views) >>= _) = _
  rw [looped]
  rfl

theorem enaRxPoll_loop {p : RxPort} (pollable : Pollable p.ring .rx) {maxPkts : Nat}
    (wanted : maxPkts ≠ 0) {views : List RxMem} {rcvd : Nat} {last : RxPort}
    (looped : pollLoop rxPollEntry maxPkts 0 { p with ring := { p.ring with ringLock := true } }
      views = some (rcvd, last, outputs)) :
    enaRxPoll p maxPkts views = .ok ⟨rcvd, outputs.countP Event.isRxDropped,
      { last with ring := enaRingUnlock last.ring }, outputs ++ enaRxReportHead last.ring rcvd⟩ := by
  obtain ⟨isRx, valid, unlocked, _⟩ := pollable
  unfold enaRxPoll
  rw [if_neg (by rw [isRx]; simp [wanted]), if_neg (by rw [valid]; decide),
    enaRingLock_free unlocked]
  change (stillRunning (pollLoop rxPollEntry maxPkts 0
    { p with ring := { p.ring with ringLock := true } } views) >>= _) = _
  rw [looped]
  rfl

/-! ## Bounds -/

section Bounds

variable {d : Depth} {flipped shown : Bool} {position left first : Nat}

/-- While the entry at `first` keeps its phase, a receive poll at a position of
that lap returns and stays within the lap. -/
theorem enaRxPoll_within (maxPkts : Nat) {p : RxPort} {views : List RxMem}
    (located : rxPoller.HeadAt d flipped p position) (unlocked : p.ring.ringLock = false)
    (lap : position + left = first + d.val) (enough : left < views.length)
    (kept : ∀ view ∈ views, (flipped ^^ (view (first % d.val)).phase) = shown)
    (matched : position = first ∨ shown = lapPhase d first) :
    ∃ polled, enaRxPoll p maxPkts views = .ok polled ∧ consumed polled.events ≤ left ∧
      rxPoller.HeadAt d flipped polled.port (position + consumed polled.events) ∧
      polled.port.ring.ringLock = false ∧
      (consumed polled.events = 0 ∨ shown = lapPhase d first) ∧
      (received polled.events ≠ [] → 0 < consumed polled.events) := by
  have idle : ∀ ret : Int, ∃ polled : RxPolled,
      (Except.ok ⟨ret, 0, p, []⟩ : Except Fault RxPolled) = .ok polled ∧
        consumed polled.events ≤ left ∧
        rxPoller.HeadAt d flipped polled.port (position + consumed polled.events) ∧
        polled.port.ring.ringLock = false ∧
        (consumed polled.events = 0 ∨ shown = lapPhase d first) ∧
        (received polled.events ≠ [] → 0 < consumed polled.events) :=
    fun ret => ⟨⟨ret, 0, p, []⟩, rfl, Nat.zero_le _, located, unlocked, Or.inl rfl,
      fun some => absurd rfl some⟩
  unfold enaRxPoll
  split
  · exact idle (-EINVAL)
  split
  · exact idle 0
  obtain ⟨rcvd, last, outputs, looped, bound, reached, passed⟩ := rxPoller.steady maxPkts
    (p := { p with ring := { p.ring with ringLock := true } }) located lap enough kept matched
  have report := enaRxReportHead_quiet last.ring rcvd
  have count : consumed (outputs ++ enaRxReportHead last.ring rcvd) = consumed outputs := by
    rw [consumed_append, report.2, Nat.add_zero]
  rw [enaRingLock_free unlocked]
  refine ⟨⟨rcvd, outputs.countP Event.isRxDropped,
    { last with ring := enaRingUnlock last.ring },
    outputs ++ enaRxReportHead last.ring rcvd⟩, ?_, ?_, ?_, rfl, ?_, ?_⟩
  · change (stillRunning (pollLoop rxPoller.entry maxPkts 0
      { p with ring := { p.ring with ringLock := true } } views) >>= _) = _
    rw [looped]
    rfl
  · rw [count]
    exact bound
  · rw [count]
    exact reached
  · rw [count]
    exact passed
  · rw [count, received, List.filterMap_append]
    change received outputs ++ received _ ≠ [] → _
    rw [enaRxReportHead_received, List.append_nil]
    intro some
    cases pollLoop_iterates looped with
    | stop reason => exact absurd rfl some
    | step more read later =>
      rw [consumed_append, (rxPoller.passes read).one]
      omega

end Bounds

/-- While the entry under the head keeps its phase, a transmit poll returns and
consumes at most one lap. -/
theorem enaTxPollCompletions_within (unlocked : p.ring.ringLock = false)
    (small : p.ring.cqHead.index < 65536) (cpu budget : Nat) {views : List TxMem} {shown : Bool}
    (enough : p.ring.cqDepth.val < views.length)
    (kept : ∀ view ∈ views, (view p.ring.cqSlot).phase = shown) :
    ∃ ret next events, enaTxPollCompletions p cpu budget views = .ok (ret, next, events) ∧
      consumed events ≤ p.ring.cqDepth.val := by
  by_cases isTx : p.ring.ringType = .tx
  · by_cases valid : p.ring.hw.valid = true
    · by_cases outstanding : p.ring.pool.freeReqCount < p.ring.sqDepth.val
      · obtain ⟨drained, first, same, quiet, returns⟩ :=
          enaTxPollCompletions_loop ⟨isTx, valid, unlocked, small⟩ outstanding cpu budget
        obtain ⟨flipped, head⟩ := Cursor.exists_lapped p.ring.cqDepth small
        have slot : p.ring.cqSlot = p.ring.cqHead.index % p.ring.cqDepth.val :=
          p.ring.cqDepth.slot_eq_mod _
        have shows : ∀ view ∈ views, (flipped ^^ (txPoller cpu).phase view
            (p.ring.cqHead.index % p.ring.cqDepth.val)) = (flipped ^^ shown) := by
          intro view member
          rw [← slot]
          exact congrArg (flipped ^^ ·) (kept view member)
        obtain ⟨cleaned, last, rest, looped, bound, _⟩ := (txPoller cpu).steady
          (if budget = 0 then p.ring.cqDepth.val else budget) (p := ⟨drained, p.queue⟩)
          ⟨same.cqDepth, same.cqHead.trans head⟩ rfl enough shows (Or.inl rfl)
        refine ⟨_, _, _, returns _ _ _ _ looped, ?_⟩
        rw [consumed_append, quiet, Nat.zero_add]
        exact bound
      · refine ⟨0, p, [], ?_, Nat.zero_le _⟩
        rw [enaTxPollCompletions, if_neg (not_not.mpr isTx), if_neg (by rw [valid]; decide),
          if_pos (Nat.le_of_not_lt outstanding)]
    · refine ⟨0, p, [], ?_, Nat.zero_le _⟩
      rw [enaTxPollCompletions, if_neg (not_not.mpr isTx), if_pos (Bool.of_not_eq_true valid)]
  · refine ⟨-EINVAL, p, [], ?_, Nat.zero_le _⟩
    rw [enaTxPollCompletions, if_pos isTx]

/-! ## The first entry -/

theorem enaTxPollCompletions_passes_iff (pollable : Pollable p.ring .tx)
    (outstanding : p.ring.pool.freeReqCount < p.ring.sqDepth.val) (cpu budget : Nat)
    (changing : List TxMem) (settled : TxMem)
    (fresh : (changing.headD settled p.ring.cqSlot).phase = p.ring.cqHead.phase) :
    ∃ ret next events, enaTxPollCompletions p cpu budget (pollViews p.ring changing settled) =
        .ok (ret, next, events) ∧
      next.ring.cqHead = p.ring.cqAhead (consumed events) ∧
      (0 < consumed events ↔
        (changing.headD settled p.ring.cqSlot).reqId < p.ring.sqDepth.val) := by
  obtain ⟨drained, first, same, quiet, returns⟩ :=
    enaTxPollCompletions_loop pollable outstanding cpu budget
  have views : pollViews drained changing settled = pollViews p.ring changing settled := by
    rw [pollViews, pollViews, same.cqDepth]
  have slot : drained.cqSlot = p.ring.cqSlot := by
    rw [Ring.cqSlot, Ring.cqSlot, same.cqDepth, same.cqHead]
  have small : drained.cqHead.index < 65536 := by
    rw [same.cqHead]
    exact pollable.small
  have more : 0 < if budget = 0 then p.ring.cqDepth.val else budget := by
    have := p.ring.cqDepth.pos
    split <;> omega
  obtain ⟨cleaned, last, rest, looped⟩ :=
    (txPoller cpu).settles _ ⟨drained, p.queue⟩ small changing settled
  have iterates := pollLoop_iterates looped
  change pollLoop (txPollEntry cpu) _ 0 _ (pollViews drained changing settled) = _ at looped
  rw [views] at looped
  refine ⟨_, _, _, returns _ _ _ _ looped, ?_, ?_⟩
  · have moved : last.ring.cqHead = drained.cqAhead (consumed rest) :=
      (txPoller cpu).cqAhead iterates
    change last.ring.cqHead = _
    rw [moved, consumed_append, quiet, Nat.zero_add, Ring.cqAhead, Ring.cqAhead, same.cqDepth,
      same.cqHead]
  obtain ⟨others, split⟩ := pollViews_head drained changing settled
  change Iterates _ _ 0 _ (pollViews drained changing settled) _ _ _ at iterates
  rw [split] at iterates
  have passes := (txPoller cpu).passes_iff iterates more
    (by change (changing.headD settled drained.cqSlot).phase = drained.cqHead.phase
        rw [slot, same.cqHead]
        exact fresh)
  change _ ↔ (changing.headD settled drained.cqSlot).reqId < drained.sqDepth.val at passes
  rw [slot, same.sqDepth] at passes
  rw [consumed_append, quiet, Nat.zero_add]
  exact passes

theorem enaRxPoll_passes_iff {p : RxPort} (pollable : Pollable p.ring .rx) {maxPkts : Nat}
    (wanted : maxPkts ≠ 0) (changing : List RxMem) (settled : RxMem)
    (fresh : (changing.headD settled p.ring.cqSlot).phase = p.ring.cqHead.phase) :
    ∃ polled, enaRxPoll p maxPkts (pollViews p.ring changing settled) = .ok polled ∧
      polled.port.ring.cqHead = p.ring.cqAhead (consumed polled.events) ∧
      (0 < consumed polled.events ↔
        (changing.headD settled p.ring.cqSlot).reqId < p.ring.sqDepth.val) := by
  obtain ⟨rcvd, last, outputs, looped⟩ := rxPoller.settles maxPkts
    { p with ring := { p.ring with ringLock := true } } pollable.small changing settled
  have iterates := pollLoop_iterates looped
  refine ⟨_, enaRxPoll_loop pollable wanted looped, ?_, ?_⟩
  · have moved := rxPoller.cqAhead iterates
    change last.ring.cqHead = p.ring.cqAhead (consumed outputs) at moved
    change last.ring.cqHead = p.ring.cqAhead (consumed (outputs ++ _))
    rw [moved, consumed_append, (enaRxReportHead_quiet _ rcvd).2, Nat.add_zero]
  obtain ⟨others, split⟩ := pollViews_head p.ring changing settled
  change Iterates _ _ 0 _ (pollViews p.ring changing settled) _ _ _ at iterates
  rw [split] at iterates
  have passed := rxPoller.passes_iff iterates (Nat.pos_of_ne_zero wanted) fresh
  change 0 < consumed (outputs ++ _) ↔ _
  rw [consumed_append, (enaRxReportHead_quiet _ rcvd).2]
  exact passed

/-- On every ring with an entry of the right phase under its head, whatever the
device writes afterwards, a poll moves past that entry exactly when the entry
names a request id of the ring. -/
theorem poll_passes_entry_iff (cpu budget maxPkts : Nat) :
    (∀ (p : TxPort) (changing : List TxMem) (settled : TxMem),
      Pollable p.ring .tx → p.ring.pool.freeReqCount < p.ring.sqDepth.val →
      (changing.headD settled p.ring.cqSlot).phase = p.ring.cqHead.phase →
      ∃ ret next events, enaTxPollCompletions p cpu budget (pollViews p.ring changing settled) =
          .ok (ret, next, events) ∧
        next.ring.cqHead = p.ring.cqAhead (consumed events) ∧
        (0 < consumed events ↔
          (changing.headD settled p.ring.cqSlot).reqId < p.ring.sqDepth.val)) ∧
    ∀ (p : RxPort) (changing : List RxMem) (settled : RxMem),
      Pollable p.ring .rx → maxPkts ≠ 0 →
      (changing.headD settled p.ring.cqSlot).phase = p.ring.cqHead.phase →
      ∃ polled, enaRxPoll p maxPkts (pollViews p.ring changing settled) = .ok polled ∧
        polled.port.ring.cqHead = p.ring.cqAhead (consumed polled.events) ∧
        (0 < consumed polled.events ↔
          (changing.headD settled p.ring.cqSlot).reqId < p.ring.sqDepth.val) := by
  constructor
  · intro p changing settled pollable outstanding fresh
    exact enaTxPollCompletions_passes_iff pollable outstanding cpu budget changing settled fresh
  · intro p changing settled pollable wanted fresh
    exact enaRxPoll_passes_iff pollable wanted changing settled fresh

def sentRing : Ring :=
  match enaTxSubmit { smallTxRing with hw := { smallTxRing.hw with valid := true } } 0
      (smallPkt 7) with
  | .ok out => out.ring
  | .error _ => smallTxRing

/-- A completion of that packet is passed. -/
theorem poll_passes_entry_iff_sent :
    ∃ ret next events, enaTxPollCompletions ⟨sentRing, none⟩ 0 1
        (pollViews sentRing [] (oneCompletion 0)) = .ok (ret, next, events) ∧
      0 < consumed events := by
  obtain ⟨ret, next, events, ran, _, passed⟩ := (poll_passes_entry_iff 0 1 1).1 ⟨sentRing, none⟩ []
    (oneCompletion 0) ⟨rfl, rfl, rfl, by decide⟩ (by decide) rfl
  exact ⟨ret, next, events, ran, passed.mpr (by decide)⟩

/-- A completion with an id out of range in slot zero, and the completion of the
packet behind it. -/
def strayCompletion : TxMem
  | 0 => ⟨4, 0, 1, 0, 0⟩
  | 1 => ⟨0, 0, 1, 0, 0⟩
  | _ => ⟨0, 0, 0, 0, 0⟩

/-- The stray entry has the phase of the head, and yet every poll, with whatever
budget, leaves the port as it finds it.  So no later poll ever gets to the valid
completion in slot one, and the packet stays in flight. -/
theorem stray_completion_blocks_queue :
    (strayCompletion sentRing.cqSlot).phase = sentRing.cqHead.phase ∧
      sentRing.pool.reqInFlight (strayCompletion 1).reqId = true ∧
      ∀ budget views, enaTxPollCompletions ⟨sentRing, none⟩ 0 budget (strayCompletion :: views) =
        .ok (0, ⟨sentRing, none⟩, []) := by
  refine ⟨rfl, rfl, ?_⟩
  intro budget views
  cases budget with
  | zero => rfl
  | succ budget => rfl

end EnaDriver.Datapath
