import EnaDriver.Datapath.TransmitCustody
import EnaDriver.Support.Runs

/-!
# The transmit calls as custody actions

One statement per call: a poll reaps, a successful submission accepts one item
under a free id, a refused one changes nothing that is tracked, and a reset
releases everything.
-/

namespace EnaDriver.Datapath

open Support.Laps Support.Windows Support.Polling
open Support.Custody Support.Runs

variable {budget count : Nat} {events : List Event} {ledger : TxLedger} {p : TxPort}
  {views : List TxMem}

/-! ## Requests that a call leaves alone -/

/-- The marks and the consumer position stay, and the requests that satisfy `kept`
stay as they are. -/
structure Untouched (kept : Nat → Prop) (r next : Ring) : Prop where
  marks : next.pool.reqInFlight = r.pool.reqInFlight
  bufs : ∀ id, kept id → next.txBufs id = r.txBufs id
  sqDepth : next.sqDepth = r.sqDepth
  cqDepth : next.cqDepth = r.cqDepth
  cqHead : next.cqHead = r.cqHead

section Untouched

variable {kept : Nat → Prop} {r middle next : Ring}

theorem Untouched.refl (kept : Nat → Prop) (r : Ring) : Untouched kept r r :=
  ⟨rfl, fun _ _ => rfl, rfl, rfl, rfl⟩

theorem Untouched.trans (earlier : Untouched kept r middle) (later : Untouched kept middle next) :
    Untouched kept r next :=
  ⟨later.marks.trans earlier.marks, fun id ok => (later.bufs id ok).trans (earlier.bufs id ok),
    later.sqDepth.trans earlier.sqDepth, later.cqDepth.trans earlier.cqDepth,
    later.cqHead.trans earlier.cqHead⟩

theorem Untouched.mono {wider : Nat → Prop} (untouched : Untouched wider r next)
    (weaken : ∀ id, kept id → wider id) : Untouched kept r next :=
  ⟨untouched.marks, fun id ok => untouched.bufs id (weaken id ok), untouched.sqDepth,
    untouched.cqDepth, untouched.cqHead⟩

theorem enaRingReqIdFree_untouched (r : Ring) (id : Nat) :
    Untouched (· ≠ id) r (enaRingReqIdFree r id).2 := by
  unfold enaRingReqIdFree
  split
  · exact .refl _ r
  split
  · exact .refl _ r
  split
  · exact .refl _ r
  unfold enaRingSlotClear
  simp only
  split
  · exact ⟨rfl, fun other differs => store_other _ _ differs, rfl, rfl, rfl⟩
  · exact ⟨rfl, fun _ _ => rfl, rfl, rfl, rfl⟩

theorem txReleaseBuffer_untouched (r : Ring) (id : Nat) :
    Untouched (· ≠ id) r (txReleaseBuffer r id).1 := by
  let forgotten : Ring :=
    { r with txBufs := store r.txBufs id { r.txBufs id with netbuf := none } }
  have first : Untouched (· ≠ id) r forgotten :=
    ⟨rfl, fun other differs => store_other _ _ differs, rfl, rfl, rfl⟩
  exact first.trans (enaRingReqIdFree_untouched forgotten id)

/-- The disposal of one request leaves the others alone. -/
theorem txDispose_untouched (r : Ring) (cpu id : Nat) :
    Untouched (· ≠ id) r (txDispose r cpu id).1 := by
  unfold txDispose
  split
  · obtain ⟨warned, reported⟩ := enaTxReportForeignReaper_eq r
    have marked : Untouched (· ≠ id) r (r.markWarned warned) := ⟨rfl, fun _ _ => rfl, rfl, rfl, rfl⟩
    rw [reported]
    unfold enaTxStageForeignFree
    simp only
    split
    · rename_i staged
      split at staged
      · cases staged
      · split at staged
        · cases staged
        · cases staged
          exact marked.trans ⟨rfl, fun _ _ => rfl, rfl, rfl, rfl⟩
    · rename_i handed
      split at handed
      · cases handed
        exact marked.trans (txReleaseBuffer_untouched _ id)
      split at handed
      · cases handed
        refine marked.trans (Untouched.trans ?_ (txReleaseBuffer_untouched _ id))
        exact ⟨rfl, fun other differs => store_other _ _ differs, rfl, rfl, rfl⟩
      · cases handed
  · exact txReleaseBuffer_untouched r id

/-- The drain releases parked requests only, so it leaves those in flight alone. -/
theorem drainLoop_untouched {cpu : Nat} (fuel i : Nat) {r next : Ring} (tracks : Tracks r ledger)
    (drained : drainLoop cpu fuel i r = .ok (next, events)) :
    Untouched (r.pool.reqInFlight · = true) r next := by
  induction fuel generalizing i r events ledger with
  | zero =>
    rw [drainLoop] at drained
    split at drained
    · cases drained
      exact .refl _ _
    · cases drained
  | succ fuel ih =>
    rw [drainLoop] at drained
    split at drained
    · cases drained
      exact .refl _ _
    rename_i more
    split at drained
    · exact ih (i + 1) tracks drained
    rename_i mine
    have inside : i < r.txForeignCount := Nat.lt_of_not_le more
    obtain ⟨step, _⟩ : Reaps cpu (fun _ => True) r _ _ ∧ _ :=
      dropForeign_reaps inside (Decidable.not_not.mp mine) tracks
    obtain ⟨_, ⟨_, after, _, tracked, _⟩, _⟩ := step ledger tracks
    obtain ⟨_, looped, same⟩ := bind_ok drained
    cases same
    have parked : r.pool.reqInFlight (r.txForeign i).reqId = false := by
      have member : (r.txForeign i).reqId ∈ r.foreign.map TxForeignFree.reqId :=
        List.mem_map.mpr ⟨_, List.mem_map.mpr ⟨i, List.mem_range.mpr inside, rfl⟩, rfl⟩
      obtain ⟨item, keeper, status⟩ := tracks.2.parked_of_mem member
      rw [tracks.2.inFlight, status]
      rfl
    have first : Untouched (r.pool.reqInFlight · = true) r
        (dropForeign (txReleaseBuffer r (r.txForeign i).reqId).1 i) := by
      refine Untouched.mono (Untouched.trans (txReleaseBuffer_untouched r _)
        ⟨rfl, fun _ _ => rfl, rfl, rfl, rfl⟩) ?_
      rintro id marked rfl
      rw [parked] at marked
      cases marked
    have rest := ih i tracked looped
    rw [first.marks] at rest
    exact first.trans rest

theorem enaTxDrainForeignFrees_untouched {cpu : Nat} (tracks : Tracks r ledger)
    (drained : enaTxDrainForeignFrees r cpu = .ok (next, events)) :
    Untouched (r.pool.reqInFlight · = true) r next := by
  unfold enaTxDrainForeignFrees at drained
  split at drained
  · cases drained
    exact .refl _ _
  · exact drainLoop_untouched _ _ tracks drained

end Untouched

/-! ## Poll -/

section Poll

variable {cpu : Nat} {named : Nat → Prop} {r : Ring} {next : TxPort}

theorem Reaps.lock (r : Ring) (locked : Bool) :
    Reaps cpu named r [] { r with ringLock := locked } :=
  fun _ tracks => ⟨⟨_, _, _, _, _, _, _, _, rfl⟩, Acts.idle tracks, fun _ located => located⟩

theorem Tracks.active_of_inFlight (tracks : Tracks r ledger) {id : Nat}
    (marked : r.pool.reqInFlight id ≠ false) : ∃ item, ledger id = .active item := by
  rw [tracks.2.inFlight] at marked
  cases status : ledger id with
  | free =>
    rw [status] at marked
    exact absurd rfl marked
  | active item => exact ⟨item, rfl⟩
  | parked item keeper =>
    rw [status] at marked
    exact absurd rfl marked

/-- The two ways in which an iteration continues the loop. -/
theorem txPollEntry_cases {mem : TxMem}
    (read : txPollEntry cpu p mem = some (count, next, events)) :
    (mem p.ring.cqSlot).phase = p.ring.cqHead.phase ∧
      (mem p.ring.cqSlot).reqId < p.ring.sqDepth.val ∧
      ((p.ring.pool.reqInFlight (mem p.ring.cqSlot).reqId = false ∧ count = 0 ∧
          next.ring = p.ring.advanceCq ∧
          events = [.txConsumed p.ring.cqSlot (mem p.ring.cqSlot) .skipped]) ∨
        (p.ring.pool.reqInFlight (mem p.ring.cqSlot).reqId ≠ false ∧ count = 1 ∧
          let disposed := txDispose (txAcknowledge p.ring (mem p.ring.cqSlot)) cpu
            (mem p.ring.cqSlot).reqId
          next.ring = disposed.1.advanceCq ∧
          events = .txConsumed p.ring.cqSlot (mem p.ring.cqSlot) .accepted :: disposed.2)) := by
  unfold txPollEntry at read
  simp only at read
  split at read
  · cases read
  rename_i fresh
  split at read
  · cases read
  rename_i bound
  refine ⟨Decidable.not_not.mp fresh, Nat.lt_of_not_le bound, ?_⟩
  split at read
  · rename_i idle
    cases read
    exact Or.inl ⟨idle, rfl, rfl, rfl⟩
  · rename_i busy
    cases read
    exact Or.inr ⟨busy, rfl, rfl, rfl⟩

theorem advance_position {head : Cursor} {d : Depth} (one : consumed events = 1) (count : Nat)
    (located : head = Cursor.after d count) :
    head.advance d = Cursor.after d (count + consumed events) := by
  rw [located, Cursor.advance_after, one]

theorem txPollEntry_reaps {mem : TxMem}
    (read : txPollEntry cpu p mem = some (count, next, events))
    (seen : named (mem p.ring.cqSlot).reqId) (tracks : Tracks p.ring ledger) :
    Reaps cpu named p.ring events next.ring ∧ consumed events = 1 := by
  obtain ⟨_, _, ⟨_, _, ring, happened⟩ | ⟨marked, _, ring, happened⟩⟩ := txPollEntry_cases read
  · rw [ring, happened]
    refine ⟨fun ledger tracks => ⟨⟨_, _, _, _, _, _, _, _, rfl⟩,
      ⟨[], ledger, .nil ledger, tracks, rfl, ?_⟩, advance_position rfl⟩, rfl⟩
    exact List.forall_mem_singleton.mpr rfl
  · obtain ⟨item, active⟩ := tracks.active_of_inFlight marked
    have one : consumed events = 1 := by
      have quiet := (txDispose_acts cpu tracks active seen).2.2.1
      rw [happened, consumed, List.countP_cons_of_pos rfl]
      exact congrArg (· + 1) quiet
    refine ⟨fun ledger tracks => ?_, one⟩
    obtain ⟨item, active⟩ := tracks.active_of_inFlight marked
    obtain ⟨frame, head, _, actions, after, steps, tracked, released, kept⟩ :=
      txDispose_acts cpu tracks active seen
    rw [ring]
    refine ⟨frame.trans ⟨_, _, _, _, _, _, _, _, rfl⟩, ⟨actions, after, steps, tracked, ?_, ?_⟩, ?_⟩
    · rw [happened]
      exact released
    · rw [happened]
      exact List.forall_mem_cons.mpr ⟨rfl, kept⟩
    · intro position located
      refine Eq.trans ?_ (advance_position one position located)
      change Cursor.advance _ _ = _
      rw [head, frame.cqDepth]

theorem txPollEntry_head {mem : TxMem}
    (read : txPollEntry cpu p mem = some (count, next, events)) :
    next.ring.cqDepth = p.ring.cqDepth ∧
      next.ring.cqHead = p.ring.cqHead.advance p.ring.cqDepth := by
  obtain ⟨_, _, ⟨_, _, ring, _⟩ | ⟨_, _, ring, _⟩⟩ := txPollEntry_cases read
  · rw [ring]
    exact ⟨rfl, rfl⟩
  have untouched := txDispose_untouched (txAcknowledge p.ring (mem p.ring.cqSlot)) cpu
    (mem p.ring.cqSlot).reqId
  rw [ring, Ring.advanceCq, untouched.cqDepth, untouched.cqHead]
  exact ⟨rfl, rfl⟩

/-- Iteration `k` of the loop of a poll is entered, and finds this fresh entry. -/
def TxFinds (cpu budget count : Nat) (p : TxPort) (views : List TxMem) (k : Nat)
    (cdesc : TxCdesc) : Prop :=
  Reaches (txPollEntry cpu) budget count p views k ∧
    EntryAhead TxCdesc.phase p.ring views k cdesc

/-- A poll gets past its early exits, makes the releases deferred to its core, and
finds this entry in iteration `k` of its loop. -/
def TxShows (p : TxPort) (cpu budget : Nat) (views : List TxMem) (k : Nat) (cdesc : TxCdesc) :
    Prop :=
  p.ring.hw.valid = true ∧ p.ring.pool.freeReqCount < p.ring.sqDepth.val ∧
    ∃ drained first,
      enaTxDrainForeignFrees { p.ring with ringLock := true } cpu = .ok (drained, first) ∧
      TxFinds cpu (if budget = 0 then p.ring.cqDepth.val else budget) 0 { p with ring := drained }
        views k cdesc

/-- The request ids of the entries that a poll consumes. -/
def NamedIn (p : TxPort) (cpu budget : Nat) (views : List TxMem) (id : Nat) : Prop :=
  id < p.ring.sqDepth.val ∧ ∃ k cdesc, TxShows p cpu budget views k cdesc ∧ cdesc.reqId = id

theorem TxFinds.head {mem : TxMem} {added : Nat} (more : count < budget)
    (read : txPollEntry cpu p mem = some (added, next, events)) (views : List TxMem) :
    TxFinds cpu budget count p (mem :: views) 0 (mem p.ring.cqSlot) :=
  ⟨.here more, mem, rfl, rfl, (txPollEntry_cases read).1⟩

theorem TxFinds.tail {mem : TxMem} {added k : Nat} {cdesc : TxCdesc}
    (found : TxFinds cpu budget (count + added) next views k cdesc) (more : count < budget)
    (read : txPollEntry cpu p mem = some (added, next, events)) :
    TxFinds cpu budget count p (mem :: views) (k + 1) cdesc := by
  obtain ⟨depth, head⟩ := txPollEntry_head read
  exact ⟨.later more read found.1, found.2.tail depth head⟩

theorem txIterates_reaps {total : Nat}
    (iterates : Iterates (txPollEntry cpu) budget count p views total events next)
    (tracks : Tracks p.ring ledger)
    (seen : ∀ k cdesc, TxFinds cpu budget count p views k cdesc →
      cdesc.reqId < p.ring.sqDepth.val → named cdesc.reqId) :
    Reaps cpu named p.ring events next.ring := by
  induction iterates generalizing ledger with
  | stop reason => exact .refl _
  | step more read later ih =>
    obtain ⟨_, bound, _⟩ := txPollEntry_cases read
    obtain ⟨first, _⟩ := txPollEntry_reaps read (seen 0 _ (.head more read _) bound) tracks
    obtain ⟨frame, ⟨_, between, _, tracked, _⟩, _⟩ := first ledger tracks
    refine first.trans (ih tracked fun k cdesc found inside => ?_)
    exact seen (k + 1) cdesc (found.tail more read) (frame.sqDepth ▸ inside)

/-- A poll that gets past its early exits drains, loops and unlocks. -/
theorem enaTxPollCompletions_cases {ret : Int} (tracks : Tracks p.ring ledger)
    (unlocked : p.ring.ringLock = false)
    (returned : enaTxPollCompletions p cpu budget views = .ok (ret, next, events)) :
    (next = p ∧ events = [] ∧
        (p.ring.hw.valid = false ∨ p.ring.sqDepth.val ≤ p.ring.pool.freeReqCount)) ∨
      ∃ drained first cleaned last rest,
        enaTxDrainForeignFrees { p.ring with ringLock := true } cpu = .ok (drained, first) ∧
        Reaps cpu (NamedIn p cpu budget views) { p.ring with ringLock := true } first drained ∧
        pollLoop (txPollEntry cpu) (if budget = 0 then p.ring.cqDepth.val else budget) 0
          { p with ring := drained } views = some (cleaned, last, rest) ∧
        next = { last with ring := enaRingUnlock last.ring } ∧ events = first ++ rest ∧
        p.ring.hw.valid = true ∧ p.ring.pool.freeReqCount < p.ring.sqDepth.val := by
  unfold enaTxPollCompletions at returned
  split at returned
  · rename_i other
    exact absurd tracks.1 other
  split at returned
  · rename_i invalid
    cases returned
    exact Or.inl ⟨rfl, rfl, Or.inl invalid⟩
  rename_i valid
  split at returned
  · rename_i idle
    cases returned
    exact Or.inl ⟨rfl, rfl, Or.inr idle⟩
  rename_i busy
  obtain ⟨drained, first, ranDrain, reaped⟩ := enaTxDrainForeignFrees_reaps cpu
    (NamedIn p cpu budget views) { p.ring with ringLock := true } tracks
  simp only [enaRingLock_free unlocked] at returned
  obtain ⟨_, locked, returned⟩ := bind_ok returned
  cases locked
  obtain ⟨_, ran, returned⟩ := bind_ok returned
  cases ranDrain.symm.trans ran
  obtain ⟨⟨cleaned, last, rest⟩, looped, returned⟩ := bind_ok returned
  cases returned
  cases finished : pollLoop (txPollEntry cpu)
      (if budget = 0 then p.ring.cqDepth.val else budget) 0 { p with ring := drained } views with
  | none =>
    rw [finished] at looped
    cases looped
  | some result =>
    rw [finished] at looped
    cases looped
    exact Or.inr ⟨drained, first, cleaned, last, rest, ranDrain, reaped, finished, rfl, rfl,
      Bool.of_not_eq_false valid, Nat.lt_of_not_le busy⟩

theorem enaTxPollCompletions_reaps {ret : Int} (tracks : Tracks p.ring ledger)
    (unlocked : p.ring.ringLock = false)
    (returned : enaTxPollCompletions p cpu budget views = .ok (ret, next, events)) :
    Reaps cpu (NamedIn p cpu budget views) p.ring events next.ring ∧
      next.ring.ringLock = false := by
  rcases enaTxPollCompletions_cases tracks unlocked returned with
    ⟨same, none, _⟩ |
    ⟨drained, first, cleaned, last, rest, drain, reaped, looped, left, joined, valid, busy⟩
  · rw [same, none]
    exact ⟨.refl _, unlocked⟩
  obtain ⟨frame, ⟨_, between, _, tracked, _⟩, _⟩ := reaped ledger tracks
  have loop : Reaps cpu (NamedIn p cpu budget views) drained rest last.ring :=
    txIterates_reaps (p := { p with ring := drained }) (pollLoop_iterates looped) tracked
      fun k cdesc found inside => ⟨frame.sqDepth ▸ inside, k, cdesc,
        ⟨valid, busy, drained, first, drain, found⟩, rfl⟩
  have whole := ((Reaps.lock p.ring true).trans reaped).trans (loop.trans (.lock last.ring false))
  rw [List.nil_append, List.append_nil] at whole
  rw [left, joined]
  exact ⟨whole, rfl⟩

/-- A poll returns once the device has stopped writing for one lap. -/
theorem enaTxPollCompletions_total (cpu : Nat) (budget : Nat) (changing : List TxMem)
    (settled : TxMem) (tracks : Tracks p.ring ledger) (unlocked : p.ring.ringLock = false)
    (located : p.ring.cqHead = Cursor.after p.ring.cqDepth count) :
    ∃ ret next events, enaTxPollCompletions p cpu budget
      (changing ++ List.replicate (p.ring.cqDepth.val + 1) settled) = .ok (ret, next, events) := by
  let views := changing ++ List.replicate (p.ring.cqDepth.val + 1) settled
  obtain ⟨drained, first, ranDrain, reaped⟩ := enaTxDrainForeignFrees_reaps cpu
    (fun _ => True) { p.ring with ringLock := true } tracks
  obtain ⟨frame, ⟨_, between, _, tracked, _⟩, moved⟩ := reaped ledger tracks
  let At (state : TxPort) (position : Nat) : Prop :=
    (∃ ledger, Tracks state.ring ledger) ∧ state.ring.cqDepth = p.ring.cqDepth ∧
      state.ring.cqHead = Cursor.after p.ring.cqDepth position
  have consumes : ∀ {state : TxPort} {view : TxMem} {added : Nat} {next : TxPort}
      {outputs : List Event} {position : Nat}, At state position →
      txPollEntry cpu state view = some (added, next, outputs) →
      At next (position + 1) ∧
        (view (position % p.ring.cqDepth.val)).phase = lapPhase p.ring.cqDepth position := by
    intro state view added next outputs position here read
    obtain ⟨⟨ledger, tracks⟩, depth, head⟩ := here
    obtain ⟨phase, _, _⟩ := txPollEntry_cases read
    obtain ⟨reaped, one⟩ : Reaps cpu (fun _ => True) _ _ _ ∧ _ :=
      txPollEntry_reaps read trivial tracks
    obtain ⟨frame, ⟨_, after, _, tracked, _⟩, moved⟩ := reaped ledger tracks
    rw [depth, one] at moved
    refine ⟨⟨⟨after, tracked⟩, frame.cqDepth.trans depth, moved position head⟩, ?_⟩
    rw [Ring.cqSlot, depth, head, Cursor.slot_after] at phase
    exact phase
  have stops : ∃ result, pollLoop (txPollEntry cpu)
      (if budget = 0 then p.ring.cqDepth.val else budget) 0 { p with ring := drained } views =
        some result :=
    pollLoop_total p.ring.cqDepth At (fun view slot => (view slot).phase) consumes changing settled
      ⟨⟨between, tracked⟩, frame.cqDepth, moved count located⟩
  obtain ⟨⟨cleaned, last, rest⟩, looped⟩ := stops
  unfold enaTxPollCompletions
  split
  · exact ⟨_, _, _, rfl⟩
  split
  · exact ⟨_, _, _, rfl⟩
  split
  · exact ⟨_, _, _, rfl⟩
  refine ⟨cleaned, { last with ring := enaRingUnlock last.ring }, first ++ rest, ?_⟩
  simp only [enaRingLock_free unlocked]
  change (enaTxDrainForeignFrees { p.ring with ringLock := true } cpu >>= _) = _
  rw [ranDrain]
  change (stillRunning (pollLoop _ _ 0 { p with ring := drained } _) >>= _) = _
  rw [looped]
  rfl

end Poll

/-! ## Submission -/

/-- Dropping a lock that was just taken gives back the unlocked ring. -/
theorem refuse_cases {r same : Ring} {error : Int} (positive : 0 < error) (back : same = r) :
    (TxOutcome.refuse same error).ret ≠ 0 ∧ (TxOutcome.refuse same error).reqId = none ∧
      (TxOutcome.refuse same error).ring = r := by
  refine ⟨?_, rfl, back⟩
  change -error ≠ 0
  omega

def txSubmitted (r : Ring) (cpu : Nat) (pkt : TxPkt) (reqId : Nat) (pool : RequestPool) : Ring :=
  let tracked := txTrack r pool reqId pkt
  { txCount tracked.advanceSq pkt with
    txDescs := store r.txDescs r.sqSlot (txSubmitDesc pkt reqId r.sqTail.phase)
    txOwnerCpu := cpu }

/-- A submission is refused without a trace, or it queues the packet under the
id at the head of the free window. -/
theorem enaTxSubmit_cases (r : Ring) (cpu : Nat) (pkt : TxPkt) (unlocked : r.ringLock = false) :
    ∃ out, enaTxSubmit r cpu pkt = .ok out ∧ out.events = [] ∧
      ((out.ret ≠ 0 ∧ out.reqId = none ∧ out.ring = r) ∨
        ∃ reqId pool, enaRingReqIdAlloc r.sqDepth r.pool = some (reqId, pool) ∧ out.ret = 0 ∧
          out.reqId = some reqId ∧ r.hw.valid = true ∧ (0 < pkt.len ∧ pkt.len ≤ 0xFFFF) ∧
          out.ring = txSubmitted r cpu pkt reqId pool) := by
  unfold enaTxSubmit
  split
  · exact ⟨_, rfl, rfl, Or.inl (refuse_cases (by decide) rfl)⟩
  split
  · exact ⟨_, rfl, rfl, Or.inl (refuse_cases (by decide) rfl)⟩
  rename_i valid
  split
  · exact ⟨_, rfl, rfl, Or.inl (refuse_cases (by decide) rfl)⟩
  rename_i sized
  rw [enaRingLock_free unlocked]
  change ∃ out, (if r.pool.freeReqCount = 0 then _ else _) = Except.ok out ∧ _
  split
  · exact ⟨_, rfl, rfl, Or.inl (refuse_cases (by decide) (enaRingUnlock_lock unlocked))⟩
  dsimp only
  cases found : enaRingReqIdAlloc r.sqDepth r.pool with
  | none =>
    exact ⟨_, rfl, rfl, Or.inl (refuse_cases (by decide) (enaRingUnlock_lock unlocked))⟩
  | some taken =>
    obtain ⟨reqId, pool⟩ := taken
    refine ⟨_, rfl, rfl, Or.inr ⟨reqId, pool, rfl, rfl, rfl,
      Bool.not_eq_false _ ▸ valid, by omega, ?_⟩⟩
    cases r
    cases unlocked
    rfl

/-! ## Low-latency push -/

/-- Events that neither free a buffer, nor lose one, nor consume an entry. -/
def Quiet (events : List Event) : Prop :=
  ∀ event ∈ events, event.frees = [] ∧ event.isConsumed = false ∧ event.isNoRoom = false

theorem Quiet.nil : Quiet [] := fun _ member => absurd member List.not_mem_nil

theorem Quiet.cons {event : Event}
    (first : event.frees = [] ∧ event.isConsumed = false ∧ event.isNoRoom = false)
    (rest : Quiet events) : Quiet (event :: events) :=
  List.forall_mem_cons.mpr ⟨first, rest⟩

theorem Quiet.append {first second : List Event} (earlier : Quiet first) (later : Quiet second) :
    Quiet (first ++ second) :=
  List.forall_mem_append.mpr ⟨earlier, later⟩

theorem Quiet.freed (quiet : Quiet events) :
    EnaDriver.Datapath.freed events = [] :=
  List.flatMap_eq_nil_iff.mpr fun event member => (quiet event member).1

theorem Quiet.consumed (quiet : Quiet events) :
    EnaDriver.Datapath.consumed events = 0 :=
  List.countP_eq_zero.mpr fun event member => by
    rw [(quiet event member).2.1]
    decide

theorem enaTxDoorbell_quiet (r : Ring) : Quiet (enaTxDoorbell r) := by
  unfold enaTxDoorbell
  cases r.hw.sqDb with
  | none => exact .nil
  | some offset =>
    cases r.hw.valid with
    | false => exact .nil
    | true => exact .cons ⟨rfl, rfl, rfl⟩ .nil

theorem fallbackHeaderCopy_quiet (pkt : TxPkt) (hdrData : Option (List UInt8)) (hdrLen : Nat) :
    Quiet (fallbackHeaderCopy pkt hdrData hdrLen) := by
  unfold fallbackHeaderCopy
  cases pkt.netbuf with
  | none => exact .nil
  | some nb =>
    change Quiet (if _ then _ else _)
    split
    · exact .cons ⟨rfl, rfl, rfl⟩ .nil
    · exact .nil

def llqPushed (r : Ring) (pkt : TxPkt) (reqId : Nat) (pool : RequestPool) : Ring :=
  txCount (txTrack r pool reqId pkt).advanceSq pkt

/-- A push is refused without a trace on the ring, or it queues the packet in
host memory or in the push buffer. -/
theorem enaLlqTxPush_cases (r : Ring) (cpu : Nat) (pkt : TxPkt) (hdrData : Option (List UInt8))
    (hdrLen : Nat) (unlocked : r.ringLock = false) :
    ∃ out, enaLlqTxPush r cpu pkt hdrData hdrLen = .ok out ∧ Quiet out.events ∧
      ((out.ret ≠ 0 ∧ out.reqId = none ∧ out.ring = r) ∨
        ∃ reqId pool, enaRingReqIdAlloc r.sqDepth r.pool = some (reqId, pool) ∧ out.ret = 0 ∧
          out.reqId = some reqId ∧
          (out.ring = txSubmitted r cpu pkt reqId pool ∨ out.ring = llqPushed r pkt reqId pool)) := by
  unfold enaLlqTxPush
  split
  · exact ⟨_, rfl, .nil, Or.inl (refuse_cases (by decide) rfl)⟩
  split
  · exact ⟨_, rfl, .nil, Or.inl (refuse_cases (by decide) rfl)⟩
  split
  · obtain ⟨out, submitted, none, outcome⟩ := enaTxSubmit_cases r cpu pkt unlocked
    rw [submitted]
    refine ⟨_, rfl, ?_, ?_⟩
    · refine ((fallbackHeaderCopy_quiet pkt hdrData hdrLen).append ?_).append ?_
      · rw [none]
        exact .nil
      · split
        · exact enaTxDoorbell_quiet out.ring
        · exact .nil
    · rcases outcome with refused | ⟨reqId, pool, found, ret, given, _, _, ring⟩
      · exact Or.inl refused
      · exact Or.inr ⟨reqId, pool, found, ret, given, Or.inl ring⟩
  · rw [enaRingLock_free unlocked]
    change ∃ out, (if r.pool.freeReqCount = 0 then _ else _) = Except.ok out ∧ _
    split
    · exact ⟨_, rfl, .nil, Or.inl (refuse_cases (by decide) (enaRingUnlock_lock unlocked))⟩
    change ∃ out, (if 0 < r.hw.pushBufSize ∧
      r.hw.pushBufSize < (r.sqSlot + 1) * r.hw.entrySize then _ else _) = Except.ok out ∧ _
    split
    · exact ⟨_, rfl, .nil, Or.inl (refuse_cases (by decide) (enaRingUnlock_lock unlocked))⟩
    dsimp only
    cases found : enaRingReqIdAlloc r.sqDepth r.pool with
    | none =>
      exact ⟨_, rfl, .nil, Or.inl (refuse_cases (by decide) (enaRingUnlock_lock unlocked))⟩
    | some taken =>
      obtain ⟨reqId, pool⟩ := taken
      refine ⟨_, rfl, .cons ⟨rfl, rfl, rfl⟩ (enaTxDoorbell_quiet _),
        Or.inr ⟨reqId, pool, rfl, rfl, rfl, Or.inr ?_⟩⟩
      cases r
      cases unlocked
      rfl

theorem txTrack_tracks {r : Ring} (tracks : Tracks r ledger) {reqId : Nat} {pool : RequestPool}
    (found : enaRingReqIdAlloc r.sqDepth r.pool = some (reqId, pool)) (cpu : Nat) (pkt : TxPkt) :
    ledger reqId = .free ∧ reqId < r.sqDepth.val ∧
      Tracks (txTrack r pool reqId pkt) (store ledger reqId (.active ⟨pkt.netbuf, cpu⟩)) := by
  obtain ⟨isFree, bound, custody⟩ := tracks.2.accept found ⟨pkt.netbuf, cpu⟩
    ⟨pkt.netbuf, pkt.physAddr, pkt.len, 1, reqId⟩ rfl
  exact ⟨isFree, bound, tracks.1, custody⟩

/-! ## Reset -/

/-- A reset of an unlocked transmit ring empties it and releases every request. -/
theorem enaAdapterInvalidateIoRing_empties {r : Ring} (tracks : Tracks r ledger)
    (unlocked : r.ringLock = false) :
    ∃ txBufs rxBufs events actions,
      enaAdapterInvalidateIoRing r = .ok (r.emptied txBufs rxBufs, events) ∧
      Steps ReleaseOnly ledger actions Ledger.empty ∧
      Tracks (r.emptied txBufs rxBufs) Ledger.empty ∧
      freed events = yielded TxItem.netbuf actions ∧ FreesOnly events := by
  have netbufs : ∀ id, r.slotNetbuf id = (ledger id).item?.bind TxItem.netbuf := by
    intro id
    rw [Ring.slotNetbuf, tracks.1]
    exact tracks.2.netbuf id
  obtain ⟨txBufs, rxBufs, events, actions, ran, steps, released, frees, cleared⟩ :=
    enaAdapterInvalidateIoRing_steps TxItem.netbuf tracks.2.outside netbufs unlocked
  have custody : TxCustody r.sqDepth (.fresh r.sqDepth) txBufs [] Ledger.empty := by
    refine { TxCustody.fresh r.sqDepth with netbuf := ?_ }
    intro id
    have empty := cleared id
    rw [Ring.slotNetbuf, show (r.emptied txBufs rxBufs).ringType = .tx from tracks.1] at empty
    exact empty
  exact ⟨txBufs, rxBufs, events, actions, ran, steps, ⟨tracks.1, custody⟩, released, frees⟩

/-- A reset of an unlocked transmit ring releases every request and leaves the
ring as allocated, apart from its hardware part. -/
theorem enaAdapterInvalidateIoRing_acts {r : Ring} (tracks : Tracks r ledger)
    (unlocked : r.ringLock = false) :
    ∃ next events, enaAdapterInvalidateIoRing r = .ok (next, events) ∧
      Acts ReleaseOnly ledger events next ∧ consumed events = 0 ∧ next.ringLock = false ∧
      next.sqDepth = r.sqDepth ∧ next.cqDepth = r.cqDepth ∧
      next.sqTail = .start ∧ next.cqHead = .start := by
  obtain ⟨txBufs, rxBufs, events, actions, ran, steps, tracked, released, frees⟩ :=
    enaAdapterInvalidateIoRing_empties tracks unlocked
  exact ⟨_, events, ran, ⟨actions, _, steps, tracked, released, frees.room⟩,
    frees.consumes, rfl, rfl, rfl, rfl, rfl⟩

end EnaDriver.Datapath
