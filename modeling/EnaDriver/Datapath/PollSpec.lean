import EnaDriver.Datapath.PollProgress
import EnaDriver.Support.Batches

/-!
# The completion polls against a list specification

While the completion queue stands still, a poll takes the fresh entries from the
head on up to the first stale or out-of-range one, and walks this list in order:
an entry of a request in flight is accepted, or dropped when it does not fit, and
every other entry is skipped, until the budget is used up.  What a poll returns,
where it leaves the head and which ids it releases are read off the verdicts.
-/

namespace EnaDriver.Datapath

open Support.Laps Support.Windows Support.Polling
open Support.Batches

/-! ## The specification -/

section Specification

variable {ε : Type} (reqId : ε → Nat) (fits : ε → Bool)

/-- Walk a list of entries with the in-flight flags and the budget that is left. -/
def judge : Nat → (Nat → Bool) → List ε → List (ε × Verdict)
  | 0, _, _ => []
  | _ + 1, _, [] => []
  | budget + 1, flags, entry :: rest =>
    if flags (reqId entry) = false then
      (entry, .skipped) :: judge (budget + 1) flags rest
    else if fits entry = false then
      (entry, .dropped) :: judge (budget + 1) flags rest
    else
      (entry, .accepted) :: judge budget (store flags (reqId entry) false) rest

def withVerdict (verdict : Verdict) (judged : List (ε × Verdict)) : List ε :=
  judged.filterMap fun (entry, given) => if given = verdict then some entry else none

def settledIds (judged : List (ε × Verdict)) : List Nat :=
  judged.filterMap fun (entry, given) => if given = .skipped then none else some (reqId entry)

def flagsAfter (flags : Nat → Bool) (judged : List (ε × Verdict)) : Nat → Bool :=
  (withVerdict .accepted judged).foldl (fun flags entry => store flags (reqId entry) false) flags

end Specification

/-- Give one id back: it has to be owned, and the free window to have room. -/
def RequestPool.release (d : Depth) (pool : RequestPool) (id : Nat) : RequestPool :=
  if pool.reqAllocated id = true ∧ pool.freeReqCount < d.val then pool.push d id else pool

def RequestPool.withFlags (pool : RequestPool) (flags : Nat → Bool) : RequestPool :=
  { pool with reqInFlight := flags }

def RequestPool.afterWalk {ε : Type} (d : Depth) (pool : RequestPool) (reqId : ε → Nat)
    (judged : List (ε × Verdict)) : RequestPool :=
  ((settledIds reqId judged).foldl (RequestPool.release d) pool).withFlags
    (flagsAfter reqId pool.reqInFlight judged)

/-- The fresh entries from the head of a ring on, up to the first stale one or the
first with an id out of range. -/
def freshEntries {ε : Type} (r : Ring) (phase : ε → Bool) (reqId : ε → Nat) (mem : Nat → ε) :
    List ε :=
  batch
    (fun position =>
      phase (mem (position % r.cqDepth.val)) == lapPhase r.cqDepth position &&
        decide (reqId (mem (position % r.cqDepth.val)) < r.sqDepth.val))
    (fun position => mem (position % r.cqDepth.val)) r.cqHead.index r.cqDepth.val

/-! ## Releases -/

variable {r : Ring}

theorem enaRingReqIdFree_pool {id : Nat} (inRange : id < r.sqDepth.val) :
    (enaRingReqIdFree r id).2.pool = r.pool.release r.sqDepth id := by
  unfold enaRingReqIdFree RequestPool.release
  rw [if_neg (Nat.not_le_of_lt inRange)]
  split
  · rename_i clear
    rw [if_neg (fun both => by rw [clear] at both; cases both.1)]
  rename_i owned
  split
  · rename_i full
    rw [if_neg (fun both => Nat.not_le_of_lt both.2 full)]
  · rename_i room
    rw [if_pos ⟨Bool.of_not_eq_false owned, Nat.lt_of_not_le room⟩]
    unfold enaRingSlotClear
    split <;> rfl

/-- Releasing an id leaves the tracking slots of the other ids alone. -/
theorem enaRingReqIdFree_rxBufs (r : Ring) {id other : Nat} (apart : other ≠ id) :
    (enaRingReqIdFree r id).2.rxBufs other = r.rxBufs other := by
  unfold enaRingReqIdFree
  split
  · rfl
  split
  · rfl
  split
  · rfl
  · unfold enaRingSlotClear
    split
    · rfl
    · exact store_other _ _ apart

namespace RequestPool

variable {d : Depth}

theorem release_inFlight (pool : RequestPool) (id : Nat) :
    (pool.release d id).reqInFlight = pool.reqInFlight := by
  unfold release
  split <;> rfl

theorem release_withFlags (pool : RequestPool) (flags : Nat → Bool) (id : Nat) :
    (pool.withFlags flags).release d id = (pool.release d id).withFlags flags := by
  by_cases room : pool.reqAllocated id = true ∧ pool.freeReqCount < d.val
  · rw [release, release, if_pos room]
    exact if_pos room
  · rw [release, release, if_neg room]
    exact if_neg room

theorem releases_withFlags (pool : RequestPool) (flags : Nat → Bool) (ids : List Nat) :
    ids.foldl (release d) (pool.withFlags flags) =
      (ids.foldl (release d) pool).withFlags flags := by
  induction ids generalizing pool with
  | nil => rfl
  | cons id rest ih => rw [List.foldl_cons, List.foldl_cons, release_withFlags, ih]

section Walk

variable {ε : Type} {reqId : ε → Nat} {pool : RequestPool} {entry : ε}
  {judged : List (ε × Verdict)}

theorem afterWalk_skipped :
    pool.afterWalk d reqId ((entry, .skipped) :: judged) = pool.afterWalk d reqId judged := rfl

theorem afterWalk_dropped :
    pool.afterWalk d reqId ((entry, .dropped) :: judged) =
      (pool.release d (reqId entry)).afterWalk d reqId judged := by
  change ((settledIds reqId judged).foldl (release d) (pool.release d (reqId entry))).withFlags
    (flagsAfter reqId pool.reqInFlight judged) = _
  rw [afterWalk, release_inFlight]

theorem afterWalk_accepted :
    pool.afterWalk d reqId ((entry, .accepted) :: judged) =
      ((pool.withFlags (store pool.reqInFlight (reqId entry) false)).release d
        (reqId entry)).afterWalk d reqId judged := by
  change ((settledIds reqId judged).foldl (release d) (pool.release d (reqId entry))).withFlags
    (flagsAfter reqId (store pool.reqInFlight (reqId entry) false) judged) = _
  rw [afterWalk, release_inFlight, release_withFlags, releases_withFlags]
  rfl

end Walk

theorem Sound.releases {pool : RequestPool} (sound : pool.Sound d) {ids : List Nat}
    (distinct : ids.Nodup) (owned : ∀ id ∈ ids, id < d.val ∧ pool.reqAllocated id = true) :
    (ids.foldl (release d) pool).free d = pool.free d ++ ids := by
  induction ids generalizing pool with
  | nil => exact (List.append_nil _).symm
  | cons id rest ih =>
    obtain ⟨inRange, held⟩ := owned id List.mem_cons_self
    obtain ⟨absent, later⟩ := List.nodup_cons.mp distinct
    obtain ⟨pushed, soundNext⟩ := push_cases sound inRange held
    have step : pool.release d id = pool.push d id :=
      if_pos ⟨held, sound.count_lt inRange held⟩
    rw [List.foldl_cons, step, ih soundNext later ?_, pushed, List.append_assoc]
    · rfl
    · intro other member
      obtain ⟨bound, otherHeld⟩ := owned other (List.mem_cons_of_mem _ member)
      have apart : other ≠ id := fun same => absent (same ▸ member)
      exact ⟨bound, (store_other _ _ apart).trans otherHeld⟩

end RequestPool

/-! ## The ids of a walk -/

section Ids

variable {ε : Type} {reqId : ε → Nat} {fits : ε → Bool}

theorem judge_length_le (budget : Nat) (flags : Nat → Bool) (entries : List ε) :
    (judge reqId fits budget flags entries).length ≤ entries.length := by
  fun_induction judge reqId fits budget flags entries with
  | case1 => exact Nat.zero_le _
  | case2 => exact Nat.le_refl _
  | case3 budget flags entry rest idle ih => exact Nat.succ_le_succ ih
  | case4 budget flags entry rest busy large ih => exact Nat.succ_le_succ ih
  | case5 budget flags entry rest busy small ih => exact Nat.succ_le_succ ih

theorem mem_settledIds {budget : Nat} {flags : Nat → Bool} {entries : List ε} {id : Nat}
    (member : id ∈ settledIds reqId (judge reqId fits budget flags entries)) :
    flags id = true ∧ ∃ entry ∈ entries, reqId entry = id := by
  fun_induction judge reqId fits budget flags entries with
  | case1 => cases member
  | case2 => cases member
  | case3 budget flags entry rest idle ih =>
    obtain ⟨marked, other, inside, same⟩ := ih member
    exact ⟨marked, other, List.mem_cons_of_mem _ inside, same⟩
  | case4 budget flags entry rest busy large ih =>
    rcases List.mem_cons.mp member with here | later
    · rw [here]
      exact ⟨Bool.of_not_eq_false busy, entry, List.mem_cons_self, rfl⟩
    · obtain ⟨marked, other, inside, same⟩ := ih later
      exact ⟨marked, other, List.mem_cons_of_mem _ inside, same⟩
  | case5 budget flags entry rest busy small ih =>
    rcases List.mem_cons.mp member with here | later
    · rw [here]
      exact ⟨Bool.of_not_eq_false busy, entry, List.mem_cons_self, rfl⟩
    obtain ⟨marked, other, inside, same⟩ := ih later
    exact ⟨(of_store marked nofun).2, other, List.mem_cons_of_mem _ inside, same⟩

def NoRepeatAfterLarge (reqId : ε → Nat) (fits : ε → Bool) (entries : List ε) : Prop :=
  entries.Pairwise fun earlier later => fits earlier = false → reqId later ≠ reqId earlier

/-- A walk settles no id twice. -/
theorem settledIds_nodup {budget : Nat} {flags : Nat → Bool} {entries : List ε}
    (apart : NoRepeatAfterLarge reqId fits entries) :
    (settledIds reqId (judge reqId fits budget flags entries)).Nodup := by
  fun_induction judge reqId fits budget flags entries with
  | case1 => exact List.nodup_nil
  | case2 => exact List.nodup_nil
  | case3 budget flags entry rest idle ih => exact ih (List.pairwise_cons.mp apart).2
  | case4 budget flags entry rest busy large ih =>
    obtain ⟨differs, later⟩ := List.pairwise_cons.mp apart
    refine List.nodup_cons.mpr ⟨?_, ih later⟩
    intro member
    obtain ⟨_, other, inside, same⟩ := mem_settledIds member
    exact differs other inside large same
  | case5 budget flags entry rest busy small ih =>
    refine List.nodup_cons.mpr ⟨?_, ih (List.pairwise_cons.mp apart).2⟩
    intro member
    have marked := (mem_settledIds member).1
    rw [store_same] at marked
    cases marked

end Ids

/-! ## One entry of a poll -/

def txSettle (cpu : Nat) (p : TxPort) (cdesc : TxCdesc) : Nat × TxPort × List Event :=
  if p.ring.pool.reqInFlight cdesc.reqId = false then
    (0, { p with ring := p.ring.advanceCq }, [.txConsumed p.ring.cqSlot cdesc .skipped])
  else
    let (r, events) := txDispose (txAcknowledge p.ring cdesc) cpu cdesc.reqId
    (1, { ring := r.advanceCq, queue := p.queue.map (enaNetdevTxqReclaimSlot · cdesc.reqId) },
      .txConsumed p.ring.cqSlot cdesc .accepted :: events)

def rxSettle (p : RxPort) (cdesc : RxCdesc) : Nat × RxPort × List Event :=
  if p.ring.pool.reqInFlight cdesc.reqId = false then
    (0, { p with ring := p.ring.advanceCq }, [.rxConsumed p.ring.cqSlot cdesc .skipped])
  else if (p.ring.rxBufs cdesc.reqId).dataLen < cdesc.length then
    let (r, events) := rxDrop p.ring cdesc.reqId
    (0, { ring := r.advanceCq, queue := p.queue.map (RxQueue.reclaimSlot · cdesc.reqId) },
      .rxConsumed p.ring.cqSlot cdesc .dropped :: events)
  else
    (1, { p with ring := (rxDeliver p.ring cdesc).advanceCq },
      [.rxConsumed p.ring.cqSlot cdesc .accepted,
        .rxPkt (rxPacket (p.ring.rxBufs cdesc.reqId) cdesc)])

theorem txPollEntry_eq (cpu : Nat) (p : TxPort) (mem : TxMem) :
    txPollEntry cpu p mem =
      if (mem p.ring.cqSlot).phase = p.ring.cqHead.phase ∧
          (mem p.ring.cqSlot).reqId < p.ring.sqDepth.val then
        some (txSettle cpu p (mem p.ring.cqSlot))
      else none := by
  unfold txPollEntry txSettle
  by_cases fresh : (mem p.ring.cqSlot).phase = p.ring.cqHead.phase
  · by_cases inRange : (mem p.ring.cqSlot).reqId < p.ring.sqDepth.val
    · simp only [fresh, inRange, ne_eq, not_true, and_self, if_true, if_false,
        Nat.not_le_of_lt inRange]
      split <;> rfl
    · simp only [fresh, inRange, ne_eq, not_true, and_false, if_false, Nat.le_of_not_lt inRange,
        if_true]
  · simp only [ne_eq, fresh, not_false_iff, false_and, if_true, if_false]

theorem rxPollEntry_eq (p : RxPort) (mem : RxMem) :
    rxPollEntry p mem =
      if (mem p.ring.cqSlot).phase = p.ring.cqHead.phase ∧
          (mem p.ring.cqSlot).reqId < p.ring.sqDepth.val then
        some (rxSettle p (mem p.ring.cqSlot))
      else none := by
  unfold rxPollEntry rxSettle
  by_cases fresh : (mem p.ring.cqSlot).phase = p.ring.cqHead.phase
  · by_cases inRange : (mem p.ring.cqSlot).reqId < p.ring.sqDepth.val
    · simp only [fresh, inRange, ne_eq, not_true, and_self, if_true, if_false,
        Nat.not_le_of_lt inRange]
      split
      · rfl
      · split <;> rfl
    · simp only [fresh, inRange, ne_eq, not_true, and_false, if_false, Nat.le_of_not_lt inRange,
        if_true]
  · simp only [ne_eq, fresh, not_false_iff, false_and, if_true, if_false]

/-! ## The walk of a poll -/

/-- The walk of a poll follows the specification: from `count` accepted entries to
`total`, with these verdicts, from one ring to the next. -/
structure Walks {ε : Type} (reqId : ε → Nat) (judged : List (ε × Verdict)) (r : Ring)
    (count total : Nat) (next : Ring) : Prop where
  total : total = count + (withVerdict .accepted judged).length
  pool : next.pool = r.pool.afterWalk r.sqDepth reqId judged
  cqHead : next.cqHead = r.cqAhead judged.length

/-- How a ring settles one entry: the verdict, what it adds to the count and the ring
after it. -/
inductive Settling {ε : Type} (reqId : ε → Nat) (fits : ε → Bool) (r : Ring) (entry : ε) :
    Verdict → Nat → Ring → Prop
  | skipped {middle : Ring} (idle : r.pool.reqInFlight (reqId entry) = false)
      (same : SameHead r middle) (pool : middle.pool = r.pool) :
      Settling reqId fits r entry .skipped 0 middle.advanceCq
  | dropped {middle : Ring} (busy : ¬ r.pool.reqInFlight (reqId entry) = false)
      (large : fits entry = false) (same : SameHead r middle)
      (pool : middle.pool = r.pool.release r.sqDepth (reqId entry)) :
      Settling reqId fits r entry .dropped 0 middle.advanceCq
  | accepted {middle : Ring} (busy : ¬ r.pool.reqInFlight (reqId entry) = false)
      (small : ¬ fits entry = false) (same : SameHead r middle)
      (pool : middle.pool = (r.pool.withFlags
        (store r.pool.reqInFlight (reqId entry) false)).release r.sqDepth (reqId entry)) :
      Settling reqId fits r entry .accepted 1 middle.advanceCq

section Walks

variable {ε : Type} {reqId : ε → Nat} {fits : ε → Bool} {judged : List (ε × Verdict)}
  {r middle next last : Ring} {count total added : Nat} {entry : ε} {verdict : Verdict}

theorem cqAhead_succ (same : SameHead r middle) (length : Nat) :
    middle.advanceCq.cqAhead length = r.cqAhead (length + 1) := by
  change (Cursor.advance middle.cqDepth)^[length] (middle.cqHead.advance middle.cqDepth) = _
  rw [same.cqDepth, same.cqHead, Ring.cqAhead, Function.iterate_succ_apply]

theorem SameHead.inRange {entries : List ε} (same : SameHead r middle)
    (inRange : ∀ entry ∈ entries, reqId entry < r.sqDepth.val) :
    ∀ entry ∈ entries, reqId entry < middle.advanceCq.sqDepth.val := by
  intro entry member
  change reqId entry < middle.sqDepth.val
  rw [same.sqDepth]
  exact inRange entry member

/-- The walk over the rest of a list, after one entry of it is settled. -/
theorem Settling.walks (settles : Settling reqId fits r entry verdict added next)
    (rest : Walks reqId judged next (count + added) total last) :
    Walks reqId ((entry, verdict) :: judged) r count total last where
  total := by
    rw [rest.total]
    cases settles with
    | accepted =>
      change count + 1 + _ = count + ((withVerdict .accepted judged).length + 1)
      omega
    | _ => rfl
  pool := by
    rw [rest.pool]
    cases settles with
    | @skipped middle idle same pool =>
      rw [RequestPool.afterWalk_skipped]
      change middle.pool.afterWalk middle.sqDepth reqId judged = _
      rw [pool, same.sqDepth]
    | dropped busy large same pool =>
      rw [RequestPool.afterWalk_dropped, ← pool, ← same.sqDepth]
      rfl
    | accepted busy small same pool =>
      rw [RequestPool.afterWalk_accepted, ← pool, ← same.sqDepth]
      rfl
  cqHead := by
    rw [rest.cqHead]
    cases settles with
    | skipped idle same | dropped busy large same | accepted busy small same =>
      rw [cqAhead_succ same]
      rfl

/-- The specification walks on with the flags and the budget that are left. -/
theorem Settling.judge (settles : Settling reqId fits r entry verdict added next) {budget : Nat}
    (more : count < budget) (entries : List ε) :
    judge reqId fits (budget - count) r.pool.reqInFlight (entry :: entries) =
      (entry, verdict) ::
        judge reqId fits (budget - (count + added)) next.pool.reqInFlight entries := by
  obtain ⟨left, remaining⟩ : ∃ left, budget - count = left + 1 := ⟨budget - count - 1, by omega⟩
  rw [remaining, Datapath.judge]
  cases settles with
  | @skipped middle idle same pool =>
    change _ = _ :: Datapath.judge _ _ (budget - count) middle.pool.reqInFlight _
    rw [if_pos idle, remaining, pool]
  | @dropped middle busy large same pool =>
    change _ = _ :: Datapath.judge _ _ (budget - count) middle.pool.reqInFlight _
    rw [if_neg busy, if_pos large, remaining, pool, RequestPool.release_inFlight]
  | @accepted middle busy small same pool =>
    have next : budget - (count + 1) = left := by omega
    change _ = _ :: Datapath.judge _ _ _ middle.pool.reqInFlight _
    rw [if_neg busy, if_neg small, next, pool, RequestPool.release_inFlight]
    rfl

theorem judge_nil (budget : Nat) (flags : Nat → Bool) : judge reqId fits budget flags [] = [] := by
  cases budget with
  | zero => rfl
  | succ budget => rfl

/-- A poll whose single entries are settled as specified walks a list as specified,
and its log falls into one part for each verdict. -/
theorem settleAll_walks {π : Type} (ring : π → Ring) {settle : π → ε → Nat × π × List Event}
    {Shows : List Event → ε × Verdict → Prop} {inv : π → List ε → Prop}
    (step : ∀ p entry rest, inv p (entry :: rest) → ∃ verdict,
      Settling reqId fits (ring p) entry verdict (settle p entry).1 (ring (settle p entry).2.1) ∧
        Shows (settle p entry).2.2 (entry, verdict) ∧ inv (settle p entry).2.1 rest)
    (budget count : Nat) (entries : List ε) {p : π} (holds : inv p entries) :
    let judged := judge reqId fits (budget - count) (ring p).pool.reqInFlight entries
    let out := settleAll settle budget count p entries
    Walks reqId judged (ring p) count out.1 (ring out.2.1) ∧
      ∃ parts, out.2.2 = parts.flatten ∧ List.Forall₂ Shows parts judged := by
  induction entries generalizing p count with
  | nil =>
    rw [judge_nil]
    exact ⟨⟨rfl, rfl, rfl⟩, [], rfl, .nil⟩
  | cons entry rest ih =>
    by_cases more : count < budget
    · obtain ⟨verdict, settles, shown, later⟩ := step p entry rest holds
      obtain ⟨walks, parts, log, each⟩ := ih (count + (settle p entry).1) later
      rw [settles.judge more, settleAll, if_neg (Nat.not_le_of_lt more)]
      refine ⟨settles.walks walks, _ :: parts, ?_, .cons shown each⟩
      rw [List.flatten_cons, ← log]
    · have spent := Nat.le_of_not_lt more
      rw [Nat.sub_eq_zero_of_le spent, settleAll, if_pos spent, judge]
      exact ⟨⟨rfl, rfl, rfl⟩, [], rfl, .nil⟩

end Walks

/-! ## Transmit -/

def txVerdicts (events : List Event) : List (TxCdesc × Verdict) :=
  events.filterMap fun
    | .txConsumed _ cdesc verdict => some (cdesc, verdict)
    | _ => none

theorem txVerdicts_parts {parts : List (List Event)} {judged : List (TxCdesc × Verdict)}
    (each : List.Forall₂ (fun part item => txVerdicts part = [item]) parts judged) :
    txVerdicts parts.flatten = judged := by
  induction each with
  | nil => rfl
  | cons first _ ih =>
    rw [List.flatten_cons, txVerdicts, List.filterMap_append]
    change txVerdicts _ ++ txVerdicts _ = _
    rw [first, ih]
    rfl

theorem txReleaseBuffer_pool {reqId : Nat} (inRange : reqId < r.sqDepth.val) :
    (txReleaseBuffer r reqId).1.pool = r.pool.release r.sqDepth reqId :=
  enaRingReqIdFree_pool
    (r := { r with txBufs := store r.txBufs reqId { r.txBufs reqId with netbuf := none } }) inRange

/-- On the owner core an accepted completion is released at once. -/
theorem txSettle_accept {cpu : Nat} {p : TxPort} {cdesc : TxCdesc}
    (owner : p.ring.txOwnerCpu = cpu) (busy : ¬ p.ring.pool.reqInFlight cdesc.reqId = false) :
    txSettle cpu p cdesc =
      (1, ⟨(txReleaseBuffer (txAcknowledge p.ring cdesc) cdesc.reqId).1.advanceCq,
          p.queue.map (enaNetdevTxqReclaimSlot · cdesc.reqId)⟩,
        .txConsumed p.ring.cqSlot cdesc .accepted ::
          freedBuffer cdesc.reqId (p.ring.txBufs cdesc.reqId).netbuf) := by
  have here : ¬ cpu ≠ (txAcknowledge p.ring cdesc).txOwnerCpu := not_not.mpr owner.symm
  rw [txSettle, if_neg busy, txDispose, if_neg here]
  rfl

/-- What a transmit poll on the owner core needs of the entries before it. -/
structure TxAwaits (cpu : Nat) (p : TxPort) (entries : List TxCdesc) : Prop where
  owner : p.ring.txOwnerCpu = cpu
  inRange : ∀ entry ∈ entries, entry.reqId < p.ring.sqDepth.val

/-- One entry of a transmit poll on the owner core is settled as specified. -/
theorem TxAwaits.settles {cpu : Nat} {p : TxPort} {entry : TxCdesc} {rest : List TxCdesc}
    (awaits : TxAwaits cpu p (entry :: rest)) :
    ∃ verdict, Settling TxCdesc.reqId (fun _ => true) p.ring entry verdict (txSettle cpu p entry).1
        (txSettle cpu p entry).2.1.ring ∧
      txVerdicts (txSettle cpu p entry).2.2 = [(entry, verdict)] ∧
      TxAwaits cpu (txSettle cpu p entry).2.1 rest := by
  have here := awaits.inRange entry List.mem_cons_self
  have later := fun other member => awaits.inRange other (List.mem_cons_of_mem entry member)
  by_cases idle : p.ring.pool.reqInFlight entry.reqId = false
  · rw [txSettle, if_pos idle]
    exact ⟨.skipped, .skipped idle ⟨rfl, rfl, rfl, rfl, rfl⟩ rfl, rfl, awaits.owner, later⟩
  have same := (txAcknowledge_sameHead p.ring entry).trans
    (books_releaseBuffer _ entry.reqId).sameHead
  rw [txSettle_accept awaits.owner idle]
  refine ⟨.accepted, .accepted idle Bool.noConfusion same (txReleaseBuffer_pool here), ?_,
    (releaseBuffer_others _ _).1.trans awaits.owner, same.inRange later⟩
  cases (p.ring.txBufs entry.reqId).netbuf with
  | none => rfl
  | some nb => rfl

/-! ## Receive -/

def rxVerdicts (events : List Event) : List (RxCdesc × Verdict) :=
  events.filterMap fun
    | .rxConsumed _ cdesc verdict => some (cdesc, verdict)
    | _ => none

/-- The drops of a poll are its entries with that verdict. -/
theorem rxVerdicts_dropped (events : List Event) :
    (withVerdict .dropped (rxVerdicts events)).length = events.countP Event.isRxDropped := by
  induction events with
  | nil => rfl
  | cons event rest ih =>
    cases event with
    | rxConsumed slot cdesc verdict =>
      cases verdict with
      | dropped =>
        rw [List.countP_cons_of_pos rfl, ← ih]
        rfl
      | accepted => exact ih
      | skipped => exact ih
    | _ => exact ih

theorem rxVerdicts_append (first second : List Event) :
    rxVerdicts (first ++ second) = rxVerdicts first ++ rxVerdicts second :=
  List.filterMap_append

theorem received_append (first second : List Event) :
    received (first ++ second) = received first ++ received second :=
  List.filterMap_append

def ShowsRx (bufs : Nat → RxBuffer) (part : List Event) (item : RxCdesc × Verdict) : Prop :=
  rxVerdicts part = [item] ∧ received part =
    (withVerdict .accepted [item]).map fun entry => rxPacket (bufs entry.reqId) entry

theorem showsRx_parts {bufs : Nat → RxBuffer} {parts : List (List Event)}
    {judged : List (RxCdesc × Verdict)} (each : List.Forall₂ (ShowsRx bufs) parts judged) :
    rxVerdicts parts.flatten = judged ∧ received parts.flatten =
      (withVerdict .accepted judged).map fun entry => rxPacket (bufs entry.reqId) entry := by
  induction each with
  | nil => exact ⟨rfl, rfl⟩
  | @cons part item parts judged first _ ih =>
    have split : withVerdict .accepted (item :: judged) =
        withVerdict .accepted [item] ++ withVerdict .accepted judged :=
      @List.filterMap_append _ _ [item] judged _
    rw [List.flatten_cons, rxVerdicts_append, received_append, first.1, first.2, ih.1, ih.2, split,
      List.map_append]
    exact ⟨rfl, rfl⟩

theorem rxDrop_release {id : Nat} (inRange : id < r.sqDepth.val) :
    (rxDrop r id).1.pool = r.pool.release r.sqDepth id ∧
      (∀ other, other ≠ id → (rxDrop r id).1.rxBufs other = r.rxBufs other) ∧
      rxVerdicts (rxDrop r id).2 = [] ∧ received (rxDrop r id).2 = [] := by
  unfold rxDrop
  simp only
  split
  · refine ⟨enaRingReqIdFree_pool (r := { r with rxDropped := (r.rxDropped + 1) % 2 ^ 64 }) inRange,
      fun other apart => enaRingReqIdFree_rxBufs _ apart, rfl, rfl⟩
  refine ⟨enaRingReqIdFree_pool (r := { r with
      rxDropped := (r.rxDropped + 1) % 2 ^ 64
      rxBufs := store r.rxBufs id { r.rxBufs id with netbuf := none } }) inRange, ?_, ?_, ?_⟩
  · intro other apart
    rw [enaRingReqIdFree_rxBufs _ apart]
    exact store_other _ _ apart
  · split <;> rfl
  · split <;> rfl

/-- A delivery releases its id, clears its flag and leaves the other slots alone. -/
theorem rxDeliver_release {cdesc : RxCdesc} (inRange : cdesc.reqId < r.sqDepth.val) :
    (rxDeliver r cdesc).pool = (r.pool.withFlags
        (store r.pool.reqInFlight cdesc.reqId false)).release r.sqDepth cdesc.reqId ∧
      ∀ other, other ≠ cdesc.reqId → (rxDeliver r cdesc).rxBufs other = r.rxBufs other :=
  ⟨enaRingReqIdFree_pool (r := rxCounted r cdesc) inRange,
    fun _ apart => enaRingReqIdFree_rxBufs (rxCounted r cdesc) apart⟩

def fitsBuffer (bufs : Nat → RxBuffer) (cdesc : RxCdesc) : Bool :=
  decide (cdesc.length ≤ (bufs cdesc.reqId).dataLen)

/-- What a receive poll needs of the entries before it; `bufs` are the tracking slots at
its start, and those of the requests that are still in flight have not changed. -/
structure RxAwaits (bufs : Nat → RxBuffer) (p : RxPort) (entries : List RxCdesc) : Prop where
  inRange : ∀ entry ∈ entries, entry.reqId < p.ring.sqDepth.val
  apart : NoRepeatAfterLarge RxCdesc.reqId (fitsBuffer bufs) entries
  agree : ∀ entry ∈ entries, p.ring.pool.reqInFlight entry.reqId = true →
    p.ring.rxBufs entry.reqId = bufs entry.reqId

section RxAwaits

variable {bufs : Nat → RxBuffer} {p : RxPort} {entry : RxCdesc} {rest : List RxCdesc}

theorem RxAwaits.tail (awaits : RxAwaits bufs p (entry :: rest)) {next : RxPort}
    (inRange : ∀ other ∈ rest, other.reqId < next.ring.sqDepth.val)
    (kept : ∀ other ∈ rest, next.ring.pool.reqInFlight other.reqId = true →
      p.ring.pool.reqInFlight other.reqId = true ∧
        next.ring.rxBufs other.reqId = p.ring.rxBufs other.reqId) :
    RxAwaits bufs next rest where
  inRange := inRange
  apart := (List.pairwise_cons.mp awaits.apart).2
  agree := by
    intro other member marked
    obtain ⟨before, same⟩ := kept other member marked
    exact same.trans (awaits.agree other (List.mem_cons_of_mem _ member) before)

/-- One entry of a receive poll is settled as specified. -/
theorem RxAwaits.settles (awaits : RxAwaits bufs p (entry :: rest)) :
    ∃ verdict, Settling RxCdesc.reqId (fitsBuffer bufs) p.ring entry verdict (rxSettle p entry).1
        (rxSettle p entry).2.1.ring ∧
      ShowsRx bufs (rxSettle p entry).2.2 (entry, verdict) ∧
      RxAwaits bufs (rxSettle p entry).2.1 rest := by
  have here := awaits.inRange entry List.mem_cons_self
  have later := fun other member => awaits.inRange other (List.mem_cons_of_mem entry member)
  have differs := (List.pairwise_cons.mp awaits.apart).1
  by_cases idle : p.ring.pool.reqInFlight entry.reqId = false
  · rw [rxSettle, if_pos idle]
    exact ⟨.skipped, .skipped idle ⟨rfl, rfl, rfl, rfl, rfl⟩ rfl, ⟨rfl, rfl⟩,
      awaits.tail later fun _ _ marked => ⟨marked, rfl⟩⟩
  have own := awaits.agree entry List.mem_cons_self (Bool.of_not_eq_false idle)
  by_cases large : fitsBuffer bufs entry = false
  · have oversize : (p.ring.rxBufs entry.reqId).dataLen < entry.length := by
      rw [own]
      exact Nat.lt_of_not_le (of_decide_eq_false large)
    obtain ⟨pool, others, verdicts, nothing⟩ := rxDrop_release here
    have same := (books_drop p.ring entry.reqId).sameHead
    rw [rxSettle, if_neg idle, if_pos oversize]
    refine ⟨.dropped, .dropped idle large same pool, ⟨?_, nothing⟩,
      awaits.tail (same.inRange later) fun other member marked => ⟨?_, others _ (differs other member large)⟩⟩
    · exact congrArg ((entry, _) :: ·) verdicts
    · change (rxDrop p.ring entry.reqId).1.pool.reqInFlight other.reqId = true at marked
      rwa [pool, RequestPool.release_inFlight] at marked
  · have short : ¬ (p.ring.rxBufs entry.reqId).dataLen < entry.length := by
      rw [own]
      exact Nat.not_lt_of_le (of_decide_eq_true (Bool.of_not_eq_false large))
    obtain ⟨pool, others⟩ := rxDeliver_release here
    have same := (books_deliver p.ring entry).sameHead
    rw [rxSettle, if_neg idle, if_neg short, own]
    refine ⟨.accepted, .accepted idle large same pool, ⟨rfl, rfl⟩,
      awaits.tail (same.inRange later) fun other member marked => ?_⟩
    change (rxDeliver p.ring entry).pool.reqInFlight other.reqId = true at marked
    rw [pool, RequestPool.release_inFlight] at marked
    change store p.ring.pool.reqInFlight entry.reqId false other.reqId = true at marked
    -- an id whose flag is still set is not the one just delivered
    obtain ⟨apartId, marked⟩ := of_store marked nofun
    exact ⟨marked, others _ apartId⟩

end RxAwaits

/-! ## The loop over fixed memory -/

section Fixed

variable {π ε : Type} (poller : Poller π (Nat → ε)) {settle : π → ε → Nat × π × List Event}
  {phase : ε → Bool} {reqId : ε → Nat} (mem : Nat → ε)
  (reads : ∀ p : π, poller.entry p mem =
    if phase (mem (poller.ring p).cqSlot) = (poller.ring p).cqHead.phase ∧
        reqId (mem (poller.ring p).cqSlot) < (poller.ring p).sqDepth.val then
      some (settle p (mem (poller.ring p).cqSlot))
    else none)
include reads

/-- While the completion queue stands still, a loop settles its fresh entries. -/
theorem Poller.fixed (budget : Nat) (p : π) (small : (poller.ring p).cqHead.index < 65536)
    (phased : (poller.ring p).cqHead.phase =
      lapPhase (poller.ring p).cqDepth (poller.ring p).cqHead.index) :
    pollLoop poller.entry budget 0 p (pollViews (poller.ring p) [] mem) =
      some (settleAll settle budget 0 p (freshEntries (poller.ring p) phase reqId mem)) := by
  let d := (poller.ring p).cqDepth
  let sq := (poller.ring p).sqDepth
  let At (state : π) (position : Nat) : Prop :=
    (poller.ring state).sqDepth = sq ∧ (poller.ring state).cqDepth = d ∧
      (poller.ring state).cqHead = Cursor.after d position
  have start : At p (poller.ring p).cqHead.index := by
    refine ⟨rfl, rfl, ?_⟩
    rw [Cursor.after, Nat.mod_eq_of_lt small, ← phased]
  have looped : ∀ {state : π} {position : Nat}, At state position →
      poller.entry state mem =
        if (phase (mem (position % d.val)) == lapPhase d position &&
            decide (reqId (mem (position % d.val)) < sq.val)) = true then
          some (settle state (mem (position % d.val)))
        else none := by
    intro state position located
    obtain ⟨sqDepth, cqDepth, head⟩ := located
    have slot : (poller.ring state).cqSlot = position % d.val := by
      rw [Ring.cqSlot, cqDepth, head, Cursor.slot_after]
    have ready : (phase (mem (position % d.val)) == lapPhase d position &&
        decide (reqId (mem (position % d.val)) < sq.val)) = true ↔
        phase (mem (position % d.val)) = (Cursor.after d position).phase ∧
          reqId (mem (position % d.val)) < sq.val := by
      rw [Bool.and_eq_true, beq_iff_eq, decide_eq_true_eq]
      rfl
    rw [reads, slot, head, sqDepth]
    exact if_congr ready.symm rfl rfl
  apply pollLoop_settleAll d At _ _ (fun slot => phase (mem slot)) mem looped _ _ start rfl
    (Or.inl rfl)
  · intro state position located ready
    have read := looped located
    rw [if_pos ready] at read
    have passed := poller.passes read
    obtain ⟨sqDepth, cqDepth, head⟩ := located
    refine ⟨passed.sqDepth.trans sqDepth, passed.cqDepth.trans cqDepth, ?_⟩
    rw [passed.cqHead, cqDepth, head, Cursor.advance_after]
  · intro position ready
    exact beq_iff_eq.mp (Bool.and_eq_true_iff.mp ready).1

end Fixed

theorem freshEntries_inRange {ε : Type} (r : Ring) (phase : ε → Bool) (reqId : ε → Nat)
    (mem : Nat → ε) : ∀ entry ∈ freshEntries r phase reqId mem, reqId entry < r.sqDepth.val := by
  intro entry member
  obtain ⟨position, ready, same⟩ := mem_batch member
  rw [← same]
  exact of_decide_eq_true (Bool.and_eq_true_iff.mp ready).2

/-! ## Main result -/

/-- A ring on whose completion queue a poll can start: the phase of its head is
that of the lap of its head. -/
structure Phased (r : Ring) (ringType : RingType) : Prop extends Pollable r ringType where
  phased : r.cqHead.phase = lapPhase r.cqDepth r.cqHead.index

theorem cqAhead_after {ringType : RingType} (ready : Phased r ringType) (length : Nat) :
    r.cqAhead length = Cursor.after r.cqDepth (r.cqHead.index + length) := by
  have start : r.cqHead = Cursor.after r.cqDepth r.cqHead.index := by
    rw [Cursor.after, Nat.mod_eq_of_lt ready.small, ← ready.phased]
  induction length with
  | zero => exact start
  | succ length ih =>
    rw [Ring.cqAhead, Function.iterate_succ_apply', ← Ring.cqAhead, ih, Cursor.advance_after]
    rfl

/-- What the specification says of a poll, for the verdicts it gives: how many
entries are accepted, where the head ends, at most one lap is consumed, and the
pool after it; in a sound pool whose in-flight ids are owned exactly the settled
ids are released. -/
structure MeetsSpec {ε : Type} (reqId : ε → Nat) (r : Ring) (judged : List (ε × Verdict))
    (ret : Int) (next : Ring) : Prop where
  ret : ret = (withVerdict .accepted judged).length
  cqHead : next.cqHead = Cursor.after r.cqDepth (r.cqHead.index + judged.length)
  lap : judged.length ≤ r.cqDepth.val
  pool : next.pool = r.pool.afterWalk r.sqDepth reqId judged
  released : r.pool.Sound r.sqDepth →
    (∀ id, r.pool.reqInFlight id = true → r.pool.reqAllocated id = true) →
    next.pool.free r.sqDepth = r.pool.free r.sqDepth ++ settledIds reqId judged

theorem Walks.meetsSpec {ε : Type} {reqId : ε → Nat} {fits : ε → Bool} {phase : ε → Bool}
    {mem : Nat → ε} {r start next last : Ring} {ringType : RingType} {budget total : Nat}
    (ready : Phased r ringType)
    (apart : NoRepeatAfterLarge reqId fits (freshEntries r phase reqId mem))
    (walks : Walks reqId
      (judge reqId fits budget r.pool.reqInFlight (freshEntries r phase reqId mem)) start 0 total
      next) (same : SameHead r start) (pool : start.pool = r.pool)
    (unlocked : last.pool = next.pool ∧ last.cqHead = next.cqHead) :
    MeetsSpec reqId r (judge reqId fits budget r.pool.reqInFlight
      (freshEntries r phase reqId mem)) total last where
  ret := by
    rw [walks.total, Nat.zero_add]
  cqHead := by
    rw [unlocked.2, walks.cqHead, ← cqAhead_after ready, Ring.cqAhead, Ring.cqAhead, same.cqDepth,
      same.cqHead]
  lap := Nat.le_trans (judge_length_le budget _ _) (batch_length_le _)
  pool := by rw [unlocked.1, walks.pool, pool, same.sqDepth]
  released := by
    intro sound owned
    rw [unlocked.1, walks.pool, pool, same.sqDepth]
    apply sound.releases (settledIds_nodup apart)
    intro id member
    obtain ⟨marked, entry, inside, named⟩ := mem_settledIds member
    exact ⟨named ▸ freshEntries_inRange r phase reqId mem entry inside, owned id marked⟩

def Ring.locked (r : Ring) : Ring := { r with ringLock := true }

theorem enaTxPollCompletions_meets {p : TxPort} {cpu : Nat} (budget : Nat) (mem : TxMem)
    (ready : Phased p.ring .tx) (outstanding : p.ring.pool.freeReqCount < p.ring.sqDepth.val)
    (undeferred : p.ring.txForeignCount = 0) (owner : p.ring.txOwnerCpu = cpu) :
    let judged := judge TxCdesc.reqId (fun _ => true)
      (if budget = 0 then p.ring.cqDepth.val else budget) p.ring.pool.reqInFlight
      (freshEntries p.ring TxCdesc.phase TxCdesc.reqId mem)
    ∃ ret next events, enaTxPollCompletions p cpu budget (pollViews p.ring [] mem) =
        .ok (ret, next, events) ∧
      txVerdicts events = judged ∧ MeetsSpec TxCdesc.reqId p.ring judged ret next.ring := by
  intro judged
  have drain : enaTxDrainForeignFrees p.ring.locked cpu = .ok (p.ring.locked, []) :=
    if_pos undeferred
  have looped : pollLoop (txPollEntry cpu) _ 0 _ (pollViews p.ring [] mem) = some _ :=
    (txPoller cpu).fixed mem (txPollEntry_eq cpu · mem)
      (if budget = 0 then p.ring.cqDepth.val else budget) ⟨p.ring.locked, p.queue⟩ ready.small
      ready.phased
  obtain ⟨walked, parts, log, each⟩ := @settleAll_walks _ TxCdesc.reqId (fun _ => true) _
    TxPort.ring (txSettle cpu) (fun part item => txVerdicts part = [item]) (TxAwaits cpu)
    (fun _ _ _ => TxAwaits.settles) (if budget = 0 then p.ring.cqDepth.val else budget) 0
    (freshEntries p.ring TxCdesc.phase TxCdesc.reqId mem) ⟨p.ring.locked, p.queue⟩
    ⟨owner, freshEntries_inRange p.ring _ _ mem⟩
  have apart : NoRepeatAfterLarge TxCdesc.reqId (fun _ => true)
      (freshEntries p.ring TxCdesc.phase TxCdesc.reqId mem) :=
    List.pairwise_of_forall fun _ _ large => by cases large
  rcases settled : settleAll (txSettle cpu) (if budget = 0 then p.ring.cqDepth.val else budget) 0
    ⟨p.ring.locked, p.queue⟩ (freshEntries p.ring TxCdesc.phase TxCdesc.reqId mem) with
    ⟨cleaned, last, events⟩
  change pollLoop (txPollEntry cpu) _ 0 (TxPort.mk p.ring.locked p.queue) _ =
    some (settleAll (txSettle cpu) _ 0 ⟨p.ring.locked, p.queue⟩
      (freshEntries p.ring TxCdesc.phase TxCdesc.reqId mem)) at looped
  rw [settled] at looped walked log
  refine ⟨cleaned, { last with ring := enaRingUnlock last.ring }, events, ?_,
    (congrArg txVerdicts log).trans (txVerdicts_parts each),
    walked.meetsSpec ready apart ⟨rfl, rfl, rfl, rfl, rfl⟩ rfl ⟨rfl, rfl⟩⟩
  unfold enaTxPollCompletions
  rw [if_neg (not_not.mpr ready.ringType), if_neg (by rw [ready.valid]; decide),
    if_neg (Nat.not_le_of_lt outstanding)]
  simp only [enaRingLock_free ready.unlocked]
  change (enaTxDrainForeignFrees p.ring.locked cpu >>= _) = _
  rw [drain]
  change (stillRunning (pollLoop (txPollEntry cpu) _ 0 (TxPort.mk p.ring.locked p.queue) _) >>= _) = _
  rw [looped]
  rfl

theorem enaRxPoll_meets {p : RxPort} {maxPkts : Nat} (mem : RxMem) (ready : Phased p.ring .rx)
    (wanted : maxPkts ≠ 0)
    (apart : NoRepeatAfterLarge RxCdesc.reqId (fitsBuffer p.ring.rxBufs)
      (freshEntries p.ring RxCdesc.phase RxCdesc.reqId mem)) :
    let judged := judge RxCdesc.reqId (fitsBuffer p.ring.rxBufs) maxPkts
      p.ring.pool.reqInFlight (freshEntries p.ring RxCdesc.phase RxCdesc.reqId mem)
    ∃ polled, enaRxPoll p maxPkts (pollViews p.ring [] mem) = .ok polled ∧
      rxVerdicts polled.events = judged ∧
      received polled.events = (withVerdict .accepted judged).map
        (fun entry => rxPacket (p.ring.rxBufs entry.reqId) entry) ∧
      polled.dropped = (withVerdict .dropped judged).length ∧
      MeetsSpec RxCdesc.reqId p.ring judged polled.ret polled.port.ring := by
  intro judged
  have looped : pollLoop rxPollEntry maxPkts 0 _ (pollViews p.ring [] mem) = some _ :=
    rxPoller.fixed mem (rxPollEntry_eq · mem) maxPkts ⟨p.ring.locked, p.queue⟩ ready.small
      ready.phased
  obtain ⟨walked, parts, log, each⟩ := settleAll_walks RxPort.ring
    (fun _ _ _ awaits => RxAwaits.settles awaits) maxPkts 0
    (freshEntries p.ring RxCdesc.phase RxCdesc.reqId mem) (p := ⟨p.ring.locked, p.queue⟩)
    ⟨freshEntries_inRange p.ring _ _ mem, apart, fun _ _ _ => rfl⟩
  obtain ⟨verdicts, packets⟩ := showsRx_parts each
  rcases settled : settleAll rxSettle maxPkts 0 ⟨p.ring.locked, p.queue⟩
    (freshEntries p.ring RxCdesc.phase RxCdesc.reqId mem) with ⟨rcvd, last, outputs⟩
  change pollLoop rxPollEntry maxPkts 0 (RxPort.mk p.ring.locked p.queue) _ =
    some (settleAll rxSettle maxPkts 0 ⟨p.ring.locked, p.queue⟩
      (freshEntries p.ring RxCdesc.phase RxCdesc.reqId mem)) at looped
  rw [settled] at looped walked log
  rw [← log] at verdicts packets
  have report : rxVerdicts (enaRxReportHead last.ring rcvd) = [] := by
    rcases enaRxReportHead_cases last.ring rcvd with report | ⟨_, _, report⟩ <;> rw [report] <;> rfl
  have returned := enaRxPoll_loop ready.toPollable wanted looped
  refine ⟨_, returned, ?_, ?_, ?_,
    walked.meetsSpec ready apart ⟨rfl, rfl, rfl, rfl, rfl⟩ rfl ⟨rfl, rfl⟩⟩
  · change rxVerdicts (outputs ++ _) = judged
    rw [rxVerdicts_append, report, List.append_nil]
    exact verdicts
  · change received (outputs ++ _) = _
    rw [received_append, enaRxReportHead_received, List.append_nil]
    exact packets
  · change outputs.countP Event.isRxDropped = _
    rw [← rxVerdicts_dropped]
    exact congrArg (fun judged => (withVerdict .dropped judged).length) verdicts

/-- The polls equal their list specification on every completion queue that stands
still.  A transmit poll is one with a request outstanding and no deferred release,
on the core that owns the ring; on receive no entry repeats the id of an earlier one
that is longer than its buffer. -/
theorem polls_meet_list_spec :
    (∀ (p : TxPort) (cpu budget : Nat) (mem : TxMem), Phased p.ring .tx →
      p.ring.pool.freeReqCount < p.ring.sqDepth.val → p.ring.txForeignCount = 0 →
      p.ring.txOwnerCpu = cpu →
      let judged := judge TxCdesc.reqId (fun _ => true)
        (if budget = 0 then p.ring.cqDepth.val else budget) p.ring.pool.reqInFlight
        (freshEntries p.ring TxCdesc.phase TxCdesc.reqId mem)
      ∃ ret next events, enaTxPollCompletions p cpu budget (pollViews p.ring [] mem) =
          .ok (ret, next, events) ∧
        txVerdicts events = judged ∧ MeetsSpec TxCdesc.reqId p.ring judged ret next.ring) ∧
    ∀ (p : RxPort) (maxPkts : Nat) (mem : RxMem), Phased p.ring .rx → maxPkts ≠ 0 →
      NoRepeatAfterLarge RxCdesc.reqId (fitsBuffer p.ring.rxBufs)
        (freshEntries p.ring RxCdesc.phase RxCdesc.reqId mem) →
      let judged := judge RxCdesc.reqId (fitsBuffer p.ring.rxBufs) maxPkts
        p.ring.pool.reqInFlight (freshEntries p.ring RxCdesc.phase RxCdesc.reqId mem)
      ∃ polled, enaRxPoll p maxPkts (pollViews p.ring [] mem) = .ok polled ∧
        rxVerdicts polled.events = judged ∧
        received polled.events = (withVerdict .accepted judged).map
          (fun entry => rxPacket (p.ring.rxBufs entry.reqId) entry) ∧
        polled.dropped = (withVerdict .dropped judged).length ∧
        MeetsSpec RxCdesc.reqId p.ring judged polled.ret polled.port.ring := by
  constructor
  · intro p cpu budget mem ready outstanding undeferred owner
    exact enaTxPollCompletions_meets budget mem ready outstanding undeferred owner
  · intro p maxPkts mem ready wanted apart
    exact enaRxPoll_meets mem ready wanted apart

def filledRing : Ring :=
  match Support.Runs.run rxStep ⟨⟨smallRxRing.withCallbacks true false, none⟩, []⟩
      [.submitOne (some (emptyNetbuf 7)) 7 64, .submitOne (some (emptyNetbuf 8)) 8 64] with
  | .ok world => world.port.ring
  | .error _ => smallRxRing

/-- One packet is in flight, and a completion of it is in the queue, with a second
one behind it; two buffers are posted, and the second reception is too long. -/
theorem polls_meet_list_spec_both :
    (∃ ret next events, enaTxPollCompletions ⟨sentRing, none⟩ 0 0
        (pollViews sentRing [] (completionsOf [0, 0])) = .ok (ret, next, events) ∧
      (txVerdicts events).map Prod.snd = [.accepted, .skipped] ∧ ret = 1 ∧
      next.ring.cqHead = ⟨2, true⟩) ∧
    ∃ polled, enaRxPoll ⟨filledRing, none⟩ 2
        (pollViews filledRing [] (receptions [(0, 60), (1, 100)])) = .ok polled ∧
      (rxVerdicts polled.events).map Prod.snd = [.accepted, .dropped] ∧ polled.dropped = 1 ∧
      polled.ret = 1 ∧ polled.port.ring.cqHead = ⟨2, true⟩ := by
  constructor
  · obtain ⟨ret, next, events, ran, verdicts, spec⟩ := polls_meet_list_spec.1 ⟨sentRing, none⟩ 0 0
      (completionsOf [0, 0]) ⟨⟨rfl, rfl, rfl, by decide⟩, by decide⟩ (by decide) rfl rfl
    refine ⟨ret, next, events, ran, ?_, spec.ret, spec.cqHead⟩
    rw [verdicts]
    decide +kernel
  · obtain ⟨polled, ran, verdicts, _, dropped, spec⟩ := polls_meet_list_spec.2 ⟨filledRing, none⟩ 2
      (receptions [(0, 60), (1, 100)])
      ⟨⟨rfl, rfl, rfl, by decide +kernel⟩, by decide +kernel⟩ (by decide)
      (by unfold NoRepeatAfterLarge; decide +kernel)
    refine ⟨polled, ran, ?_, dropped, spec.ret, spec.cqHead⟩
    rw [verdicts]
    decide +kernel

end EnaDriver.Datapath
