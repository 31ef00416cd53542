import EnaDriver.Datapath.Positions
import EnaDriver.Datapath.DeviceQueues

/-!
# Completed transmits give their ids back

A device that completes every submitted request once, in any order, leaves
nothing in flight when all its completions are consumed.  Whether the ids are
free again depends on the owner of the ring: a completion that is polled off the
owner is parked for it.  In every run whose polls find the owner to be the
polling CPU, a drained ring is as it was allocated: every id is free, no release
is deferred, and every accepted netbuf was released.  A push to a device-placed
queue does not record the owner, and there the ids do not come back.
-/

namespace EnaDriver.Datapath

open Support.Laps Support.Windows Support.Polling
open Support.Custody Support.Runs

variable {actions : List TxAction} {events : List Event} {first last : TxLedger} {op : TxOp}
  {views : List TxMem} {allowed : TxLedger → TxAction → Prop}

/-! ## What was submitted and what was completed -/

def TxLog.completed? : TxLog → Option Nat
  | .effect _ (.txConsumed _ cdesc _) => some cdesc.reqId
  | _ => none

def completions (log : List TxLog) : List Nat := log.filterMap TxLog.completed?

def submittedCount (id : Nat) (log : List TxLog) : Nat :=
  ((acceptances log).map Prod.fst).count id

/-- A request was submitted under the id, and its completion was not consumed. -/
def Outstanding (log : List TxLog) (id : Nat) : Prop :=
  (completions log).count id < submittedCount id log

/-- The device completes each request once: every entry names an outstanding
request, and no two entries name the same one. -/
structure CompletesOnce (log : List TxLog) (entries : Nat → TxCdesc → Prop) : Prop where
  outstanding : ∀ k cdesc, entries k cdesc → Outstanding log cdesc.reqId
  once : ∀ j k first second, entries j first → entries k second →
    first.reqId = second.reqId → j = k

def HonestCompletions (world : TxWorld) : TxOp → Prop
  | .poll cpu budget changing settled => CompletesOnce world.log
      (TxShows world.port cpu budget (pollViews world.port.ring changing settled))
  | _ => True

def OnOwner (world : TxWorld) : TxOp → Prop
  | .poll cpu _ _ _ => world.port.ring.txOwnerCpu = cpu ∨ ∀ id, ¬Outstanding world.log id
  | _ => True

/-- Nothing is left of the traffic: every id is free, no release is deferred, and
the netbufs freed are the netbufs accepted. -/
structure Drained (world : TxWorld) : Prop where
  free : world.port.ring.pool.freeReqCount = world.port.ring.sqDepth.val
  undeferred : world.port.ring.txForeignCount = 0
  released : ∀ addr, freedCount addr world.log = acceptedCount addr world.log

theorem completions_append (first second : List TxLog) :
    completions (first ++ second) = completions first ++ completions second :=
  List.filterMap_append

theorem submittedCount_append (id : Nat) (first second : List TxLog) :
    submittedCount id (first ++ second) = submittedCount id first + submittedCount id second := by
  rw [submittedCount, acceptances_append, List.map_append, List.count_append]
  rfl

theorem completions_map_effect (cpu : Nat) (events : List Event) :
    completions (events.map (.effect cpu)) = (txEntries events).map TxCdesc.reqId := by
  induction events with
  | nil => rfl
  | cons event events ih =>
    cases event with
    | txConsumed slot cdesc verdict =>
      change cdesc.reqId :: completions (events.map (.effect cpu)) = _
      rw [ih]
      rfl
    | _ => exact ih

/-! ## The entries of a poll -/

section Poll

variable {cpu : Nat} {p next : TxPort} {ledger : TxLedger}

/-- What a poll has consumed: entries that it found, whose requests are no longer in
flight. -/
structure Consumes (r : Ring) (found : Nat → TxCdesc → Prop) (entries : List TxCdesc)
    (next : Ring) : Prop where
  shown : ∀ k cdesc, entries[k]? = some cdesc → found k cdesc
  settled : ∀ cdesc ∈ entries, next.pool.reqInFlight cdesc.reqId = false
  fewer : ∀ id, next.pool.reqInFlight id = true → r.pool.reqInFlight id = true

theorem Consumes.nil (r : Ring) (found : Nat → TxCdesc → Prop) : Consumes r found [] r where
  shown := by
    intro k cdesc member
    cases member
  settled := by
    intro cdesc member
    cases member
  fewer := fun _ marked => marked

/-- An iteration consumes the entry at the head and clears the flag of its request. -/
theorem txPollEntry_clears {mem : TxMem} {added : Nat} (tracks : Tracks p.ring ledger)
    (read : txPollEntry cpu p mem = some (added, next, events)) :
    txEntries events = [mem p.ring.cqSlot] ∧
      next.ring.pool.reqInFlight (mem p.ring.cqSlot).reqId = false ∧
      ∀ id, next.ring.pool.reqInFlight id = true → p.ring.pool.reqInFlight id = true := by
  obtain ⟨_, one⟩ : Reaps cpu (fun _ => True) _ _ _ ∧ _ := txPollEntry_reaps read trivial tracks
  have entries : ∀ verdict rest, events =
      .txConsumed p.ring.cqSlot (mem p.ring.cqSlot) verdict :: rest →
      txEntries events = [mem p.ring.cqSlot] := by
    rintro verdict rest rfl
    have quiet : consumed rest = 0 := by
      rw [consumed, List.countP_cons_of_pos rfl] at one
      exact Nat.succ.inj one
    change mem p.ring.cqSlot :: txEntries rest = _
    rw [txEntries_of_quiet quiet]
  obtain ⟨_, _, ⟨idle, _, ring, happened⟩ | ⟨_, _, ring, happened⟩⟩ := txPollEntry_cases read
  · rw [ring]
    exact ⟨entries _ _ happened, idle, fun _ marked => marked⟩
  have untouched := txDispose_untouched (txAcknowledge p.ring (mem p.ring.cqSlot)) cpu
    (mem p.ring.cqSlot).reqId
  have marks : next.ring.pool.reqInFlight =
      store p.ring.pool.reqInFlight (mem p.ring.cqSlot).reqId false := by
    rw [ring]
    exact untouched.marks
  refine ⟨entries _ _ happened, ?_, ?_⟩
  · rw [marks, store_same]
  · intro id marked
    rw [marks] at marked
    exact (of_store marked Bool.false_ne_true).2

/-- One more iteration in front of a poll. -/
theorem Consumes.cons {mem : TxMem} {added budget count : Nat} {rest : List Event} {last : Ring}
    (tracks : Tracks p.ring ledger) (more : count < budget)
    (read : txPollEntry cpu p mem = some (added, next, events))
    (later : Consumes next.ring (TxFinds cpu budget (count + added) next views) (txEntries rest)
      last) :
    Consumes p.ring (TxFinds cpu budget count p (mem :: views)) (txEntries (events ++ rest))
      last := by
  obtain ⟨one, cleared, fewer⟩ := txPollEntry_clears tracks read
  rw [txEntries_append, one, List.singleton_append]
  constructor
  · intro k cdesc found
    cases k with
    | zero =>
      cases found
      exact .head more read views
    | succ k => exact (later.shown k cdesc found).tail more read
  · refine List.forall_mem_cons.mpr ⟨?_, later.settled⟩
    by_contra marked
    rw [later.fewer _ (Bool.of_not_eq_false marked)] at cleared
    cases cleared
  · intro id marked
    exact fewer id (later.fewer id marked)

theorem txPollLoop_consumes {budget count total : Nat} (tracks : Tracks p.ring ledger)
    (iterates : Iterates (txPollEntry cpu) budget count p views total events next) :
    Consumes p.ring (TxFinds cpu budget count p views) (txEntries events) next.ring := by
  induction iterates generalizing ledger with
  | stop reason => exact Consumes.nil _ _
  | @step count total added p middle last mem views here rest more read later ih =>
    obtain ⟨reaped, _⟩ : Reaps cpu (fun _ => True) _ _ _ ∧ _ :=
      txPollEntry_reaps read trivial tracks
    obtain ⟨_, ⟨_, between, _, tracked, _⟩, _⟩ := reaped ledger tracks
    exact Consumes.cons tracks more read (ih tracked)

theorem enaTxPollCompletions_consumes {budget : Nat} {ret : Int} (tracks : Tracks p.ring ledger)
    (unlocked : p.ring.ringLock = false)
    (returned : enaTxPollCompletions p cpu budget views = .ok (ret, next, events)) :
    Consumes p.ring (TxShows p cpu budget views) (txEntries events) next.ring := by
  rcases enaTxPollCompletions_cases tracks unlocked returned with
    ⟨rfl, rfl, _⟩ |
    ⟨drained, first, cleaned, last, rest, drain, reaped, looped, rfl, rfl, valid, busy⟩
  · exact Consumes.nil _ _
  have tracked : Tracks { p.ring with ringLock := true } ledger := tracks
  have untouched := enaTxDrainForeignFrees_untouched tracked drain
  obtain ⟨_, ⟨_, between, _, after, _⟩, _⟩ := reaped ledger tracked
  have loop := txPollLoop_consumes (p := { p with ring := drained }) after
    (pollLoop_iterates looped)
  rw [txEntries_append, txEntries_of_quiet (enaTxDrainForeignFrees_consumed drain),
    List.nil_append]
  constructor
  · intro k cdesc found
    exact ⟨valid, busy, drained, first, drain, loop.shown k cdesc found⟩
  · exact loop.settled
  · intro id marked
    have before := loop.fewer id marked
    rw [untouched.marks] at before
    exact before

/-- An honest device gives a poll at most one entry for each request. -/
theorem Consumes.nodup {log : List TxLog} {r last : Ring} {found : Nat → TxCdesc → Prop}
    {entries : List TxCdesc} (consumes : Consumes r found entries last)
    (honest : CompletesOnce log found) :
    (entries.map TxCdesc.reqId).Nodup := by
  rw [List.nodup_iff_getElem?_ne_getElem?]
  intro i j before inside same
  rw [List.length_map] at inside
  rw [List.getElem?_map, List.getElem?_map, List.getElem?_eq_getElem inside,
    List.getElem?_eq_getElem (Nat.lt_trans before inside)] at same
  have first := consumes.shown i _ (List.getElem?_eq_getElem (Nat.lt_trans before inside))
  have second := consumes.shown j _ (List.getElem?_eq_getElem inside)
  have equal := honest.once i j _ _ first second (Option.some.inj same)
  omega

end Poll

/-! ## One operation -/

def Unparked (ledger : TxLedger) : Prop := ∀ id item keeper, ledger id ≠ .parked item keeper

def activeCount (ledger : TxLedger) (id : Nat) : Nat := if (ledger id).isActive then 1 else 0

theorem activeCount_store (ledger : TxLedger) (place : Nat) (status : Status TxItem Nat) (id : Nat) :
    activeCount (store ledger place status) id =
      if id = place then (if status.isActive then 1 else 0) else activeCount ledger id := by
  unfold activeCount
  by_cases same : id = place
  · rw [if_pos same, same, store_same]
  · rw [if_neg same, store_other _ _ same]

/-- An id becomes active only by an acceptance. -/
theorem activeCount_step {before after : TxLedger} {action : TxAction}
    (step : Step before action after) (id : Nat) :
    activeCount after id ≤ activeCount before id + ((entered [action]).map Prod.fst).count id := by
  cases step with
  | @accept place item isFree =>
    rw [activeCount_store]
    split
    · rename_i same
      change 1 ≤ activeCount before id + [place].count id
      rw [same, List.count_cons_self]
      omega
    · exact Nat.le_add_right _ _
  | park keeper held =>
    rw [activeCount_store]
    split
    · exact Nat.zero_le _
    · exact Nat.le_add_right _ _
  | release held =>
    rw [activeCount_store]
    split
    · exact Nat.zero_le _
    · exact Nat.le_add_right _ _

theorem activeCount_steps (steps : Steps allowed first actions last) (id : Nat) :
    activeCount last id ≤ activeCount first id + ((entered actions).map Prod.fst).count id := by
  induction steps with
  | nil ledger => exact Nat.le_add_right _ _
  | @cons before middle after action actions step ok rest ih =>
    have here := activeCount_step step id
    rw [← List.singleton_append, entered_append, List.map_append, List.count_append]
    omega

theorem Unparked.store {ledger : TxLedger} (unparked : Unparked ledger) (place : Nat)
    {status : Status TxItem Nat} (here : ∀ item keeper, status ≠ .parked item keeper) :
    Unparked (store ledger place status) := by
  intro id item keeper parked
  exact unparked id item keeper (of_store parked (here item keeper)).2

/-- Actions that do not park leave nothing parked. -/
theorem Unparked.steps (steps : Steps allowed first actions last) (unparked : Unparked first)
    (stays : ∀ ledger id keeper, ¬allowed ledger (.park id keeper)) : Unparked last := by
  refine (steps.invariant Unparked (fun _ => True) (fun step ok unparked => ⟨trivial, ?_⟩)
    unparked).2
  cases step with
  | accept item isFree => exact unparked.store _ (fun _ _ same => by cases same)
  | park keeper held => exact absurd ok (stays _ _ _)
  | release held => exact unparked.store _ (fun _ _ same => by cases same)

/-- A poll finds nothing to do in a ledger in which every id is free. -/
theorem pollSteps_of_free {cpu owner : Nat} {named : Nat → Prop}
    (steps : Steps (PollAllows cpu owner named) first actions last)
    (free : ∀ id, first id = .free) : ∀ id, last id = .free := by
  refine (steps.invariant (fun ledger => ∀ id, ledger id = .free) (fun _ => True)
    (fun step ok free => ⟨trivial, ?_⟩) free).2
  cases step with
  | accept item isFree => exact ok.elim
  | park keeper held =>
    rw [free] at held
    cases held
  | release held =>
    rw [free] at held
    cases held

/-- Only a poll off the owner parks, and only what is in flight. -/
theorem unparked_step {world : TxWorld} {ledger after : TxLedger} (unparked : Unparked ledger)
    (owner : OnOwner world op)
    (idle : (∀ id, ¬Outstanding world.log id) → ∀ id, ledger id = .free)
    (steps : Steps (OpAllows world.port op) ledger actions after) : Unparked after := by
  cases op with
  | poll cpu budget changing settled =>
    rcases owner with same | none
    · exact Unparked.steps steps unparked (fun _ _ _ ok => ok.2.2 same.symm)
    · intro id item keeper parked
      rw [pollSteps_of_free steps (idle none)] at parked
      cases parked
  | submit cpu pkt =>
    refine Unparked.steps steps unparked ?_
    rintro _ id keeper ⟨_, impossible, _⟩
    cases impossible
  | llqPush cpu pkt hdrData hdrLen =>
    refine Unparked.steps steps unparked ?_
    rintro _ id keeper ⟨_, impossible, _⟩
    cases impossible
  | reset cpu =>
    refine Unparked.steps steps unparked ?_
    rintro _ id keeper ⟨_, _, impossible⟩
    cases impossible
  | createHw cpu dev answers vector => exact Unparked.steps steps unparked (fun _ _ _ ok => ok)
  | destroyHw cpu answers => exact Unparked.steps steps unparked (fun _ _ _ ok => ok)

def OpConsumes (p : TxPort) (entries : List TxLog) (next : Ring) : TxOp → Prop
  | .poll cpu budget changing settled => ∃ consumed,
      completions entries = consumed.map TxCdesc.reqId ∧
        Consumes p.ring (TxShows p cpu budget (pollViews p.ring changing settled)) consumed next
  | _ => completions entries = []

theorem completions_of_quiet {cpu : Nat} (quiet : consumed events = 0) :
    completions (events.map (.effect cpu)) = [] := by
  rw [completions_map_effect, txEntries_of_quiet quiet]
  rfl

theorem completions_submissionLog {cpu : Nat} {pkt : TxPkt} {out : TxOutcome}
    (quiet : consumed out.events = 0) : completions (submissionLog cpu pkt out) = [] := by
  rw [submissionLog, completions_append, completions_of_quiet quiet]
  cases out.reqId with
  | none => rfl
  | some reqId => rfl

theorem txApply_consumes {p next : TxPort} {entries : List TxLog} {ledger : TxLedger}
    (tracks : Tracks p.ring ledger) (unlocked : p.ring.ringLock = false)
    (applied : txApply p op = .ok (next, entries)) : OpConsumes p entries next.ring op := by
  cases op with
  | submit cpu pkt =>
    obtain ⟨out, ran, none, _⟩ := enaTxSubmit_cases p.ring cpu pkt unlocked
    rw [txApply, ran] at applied
    cases applied
    exact completions_submissionLog (by rw [none]; rfl)
  | llqPush cpu pkt hdrData hdrLen =>
    obtain ⟨out, ran, quiet, _⟩ := enaLlqTxPush_cases p.ring cpu pkt hdrData hdrLen unlocked
    rw [txApply, ran] at applied
    cases applied
    exact completions_submissionLog quiet.consumed
  | poll cpu budget changing settled =>
    obtain ⟨⟨ret, port, events⟩, ran, applied⟩ := bind_ok applied
    cases applied
    exact ⟨txEntries events, completions_map_effect cpu events,
      enaTxPollCompletions_consumes tracks unlocked ran⟩
  | reset cpu =>
    obtain ⟨ring, events, ran, _, quiet, _⟩ := enaAdapterInvalidateIoRing_acts tracks unlocked
    rw [txApply, ran] at applied
    cases applied
    exact completions_of_quiet quiet
  | createHw cpu dev answers vector =>
    obtain ⟨_, _, applied⟩ := bind_ok applied
    cases applied
    rfl
  | destroyHw cpu answers =>
    obtain ⟨_, _, applied⟩ := bind_ok applied
    cases applied
    rfl

/-! ## Runs -/

structure Settles (d cq : Depth) (world : TxWorld) (ledger : TxLedger) : Prop where
  history : ∃ actions, TxHistory d cq world actions ledger
  unparked : Unparked ledger
  counted : ∀ id,
    (completions world.log).count id + activeCount ledger id ≤ submittedCount id world.log

namespace Settles

variable {d cq : Depth} {world : TxWorld} {ledger : TxLedger}

theorem free (settles : Settles d cq world ledger) (none : ∀ id, ¬Outstanding world.log id)
    (id : Nat) : ledger id = .free := by
  cases status : ledger id with
  | free => rfl
  | active item =>
    have counted := settles.counted id
    rw [activeCount, status] at counted
    exact absurd counted (none id)
  | parked item keeper => exact absurd status (settles.unparked id item keeper)

theorem drained (settles : Settles d cq world ledger) (none : ∀ id, ¬Outstanding world.log id) :
    Drained world := by
  have free := settles.free none
  obtain ⟨actions, history⟩ := settles.history
  constructor
  · have sound := history.tracks.2.sound
    have all : List.range world.port.ring.sqDepth.val ⊆
        world.port.ring.pool.free world.port.ring.sqDepth := by
      intro id member
      exact (history.tracks.free_iff id).mpr ⟨List.mem_range.mp member, free id⟩
    have size := (List.nodup_range.subperm all).length_le
    rw [List.length_range, RequestPool.free, window_length] at size
    exact Nat.le_antisymm sound.count_le size
  · by_contra some
    have member : world.port.ring.txForeign 0 ∈ world.port.ring.foreign :=
      List.mem_map_of_mem (List.mem_range.mpr (Nat.pos_of_ne_zero some))
    obtain ⟨item, parked⟩ := (history.tracks.2.parked _ _).mp member
    rw [free] at parked
    cases parked
  · intro addr
    have balance := history.balance addr
    have nothing : heldCount addr world.port.ring = 0 := by
      rw [heldCount, List.countP_eq_zero]
      intro id _
      rw [history.tracks.2.netbuf, free]
      exact Bool.false_ne_true
    omega

/-- One operation keeps the state. -/
theorem step (settles : Settles d cq world ledger) (honest : HonestCompletions world op)
    (owner : OnOwner world op) :
    ∃ next after, txStep world op = .ok next ∧ Settles d cq next after := by
  obtain ⟨actions, history⟩ := settles.history
  obtain ⟨next, entries, more, after, applied, stepped, _, extended, later⟩ :=
    txHistory_step history op
  refine ⟨_, after, stepped, ⟨_, later⟩, ?_, ?_⟩
  · exact unparked_step settles.unparked owner settles.free extended.steps
  intro id
  have before := settles.counted id
  have active := activeCount_steps extended.steps id
  rw [← extended.accepted] at active
  change _ ≤ _ + submittedCount id entries at active
  rw [completions_append, List.count_append, submittedCount_append]
  have quiet (none : completions entries = []) :
      (completions world.log).count id + (completions entries).count id + activeCount after id ≤
        submittedCount id world.log + submittedCount id entries := by
    rw [none, List.count_nil]
    omega
  have consumes := txApply_consumes history.tracks history.unlocked applied
  cases op with
  | poll cpu budget changing settled =>
    obtain ⟨consumed, named, consumes⟩ := consumes
    by_cases member : id ∈ consumed.map TxCdesc.reqId
    · obtain ⟨cdesc, inside, rfl⟩ := List.mem_map.mp member
      obtain ⟨k, found⟩ := List.mem_iff_getElem?.mp inside
      have once := List.nodup_iff_count_le_one.mp (consumes.nodup honest) cdesc.reqId
      have unanswered := honest.outstanding k cdesc (consumes.shown k cdesc found)
      have idle : activeCount after cdesc.reqId = 0 := by
        rw [activeCount, ← later.tracks.2.inFlight, consumes.settled cdesc inside]
        rfl
      rw [named, idle]
      unfold Outstanding at unanswered
      omega
    · rw [named, List.count_eq_zero_of_not_mem member]
      omega
  | submit cpu pkt => exact quiet consumes
  | llqPush cpu pkt hdrData hdrLen => exact quiet consumes
  | reset cpu => exact quiet consumes
  | createHw cpu dev answers vector => exact quiet consumes
  | destroyHw cpu answers => exact quiet consumes

end Settles

instance (log : List TxLog) (id : Nat) : Decidable (Outstanding log id) :=
  inferInstanceAs (Decidable (_ < _))

end EnaDriver.Datapath
