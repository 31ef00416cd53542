import EnaDriver.Datapath.Descriptors
import EnaDriver.Datapath.ResetEpochs
import EnaDriver.Support.QueuePair

/-!
# Rings and the device behind them

A ring whose queues have the same depth, together with a device that fetches
its descriptors in order up to the doorbell and posts one completion for each,
in any order.  The driver does not track the space in either queue; the ids in
use do.  No submission overwrites a descriptor that was not fetched, and no
completion is overwritten before it was consumed.
-/

namespace EnaDriver.Datapath

open Support.Laps Support.Windows Support.Polling
open Support.Custody Support.Runs Support.QueuePair

variable {Live : Nat → Prop} {cpu done : Nat} {events : List Event}

/-! ## The system -/

/-- A ring and its device, with everything submitted so far, the number of
descriptors that the last doorbell covers, and the completions consumed. -/
structure PairWorld (π δ κ : Type) where
  port : π
  dev : Device δ κ
  submitted : List δ
  rung : Nat
  consumed : List κ

/-- The world after queue creation: the completion memory is zeroed. -/
def PairWorld.start {π δ κ : Type} (port : π) (blank : κ) : PairWorld π δ κ :=
  ⟨port, .fresh blank, [], 0, []⟩

def Event.regWrite? : Event → Option Nat
  | .regWrite32 _ value => some value
  | _ => none

def PairWorld.ring {π δ κ : Type} (world : PairWorld π δ κ) (events : List Event) :
    PairWorld π δ κ :=
  match (events.filterMap Event.regWrite?).getLast? with
  | none => world
  | some value =>
    { world with dev := { world.dev with doorbell := value }, rung := world.submitted.length }

theorem PairWorld.ring_port {π δ κ : Type} (world : PairWorld π δ κ) (events : List Event) :
    (world.ring events).port = world.port := by
  unfold ring
  split <;> rfl

def txEntries (events : List Event) : List TxCdesc :=
  events.filterMap fun
    | .txConsumed _ cdesc _ => some cdesc
    | _ => none

def rxEntries (events : List Event) : List RxCdesc :=
  events.filterMap fun
    | .rxConsumed _ cdesc _ => some cdesc
    | _ => none

abbrev TxScript := List (List (DeviceAct TxCdesc))

abbrev RxScript := List (List (DeviceAct RxCdesc))

def txDeviceViews (r : Ring) (dev : Device TxDesc TxCdesc) (script : TxScript) :
    List (Device TxDesc TxCdesc) :=
  pollViews r (dev.views r.sqDepth TxDesc.reqId TxCdesc.reqId TxCdesc.phase r.txDescs script)
    (dev.after r.sqDepth TxDesc.reqId TxCdesc.reqId TxCdesc.phase r.txDescs script)

def rxDeviceViews (r : Ring) (dev : Device RxDesc RxCdesc) (script : RxScript) :
    List (Device RxDesc RxCdesc) :=
  pollViews r (dev.views r.sqDepth RxDesc.reqId RxCdesc.reqId RxCdesc.phase r.rxDescs script)
    (dev.after r.sqDepth RxDesc.reqId RxCdesc.reqId RxCdesc.phase r.rxDescs script)

/-- A step of a transmit ring or of its device.  The device also acts between the
iterations of a poll. -/
inductive TxPairOp where
  | submit (cpu : Nat) (pkt : TxPkt)
  | doorbell
  | poll (cpu budget : Nat) (script : TxScript)
  | device (actions : List (DeviceAct TxCdesc))

def txPairStep (world : PairWorld TxPort TxDesc TxCdesc) :
    TxPairOp → Except Fault (PairWorld TxPort TxDesc TxCdesc)
  | .submit cpu pkt => do
    let r := world.port.ring
    let out ← enaTxSubmit r cpu pkt
    return { world with
      port := { world.port with ring := out.ring }
      submitted := world.submitted ++
        out.reqId.toList.map fun reqId => txSubmitDesc pkt reqId r.sqTail.phase }
  | .doorbell => .ok (world.ring (enaTxDoorbell world.port.ring))
  | .poll cpu budget script => do
    let r := world.port.ring
    let (_, port, events) ← enaTxPollCompletions world.port cpu budget
      ((txDeviceViews r world.dev script).map Device.cq)
    return { world with
      port := port
      dev := world.dev.after r.sqDepth TxDesc.reqId TxCdesc.reqId TxCdesc.phase r.txDescs script
      consumed := world.consumed ++ txEntries events }
  | .device actions =>
    let r := world.port.ring
    .ok { world with
      dev := world.dev.acts r.sqDepth TxDesc.reqId TxCdesc.reqId TxCdesc.phase r.txDescs actions }

inductive RxPairOp where
  | submitOne (netbuf : Option Netbuf) (physAddr bufLen : Nat)
  | doorbell
  | poll (maxPkts : Nat) (script : RxScript)
  | device (actions : List (DeviceAct RxCdesc))

def rxPairStep (world : PairWorld RxPort RxDesc RxCdesc) :
    RxPairOp → Except Fault (PairWorld RxPort RxDesc RxCdesc)
  | .submitOne netbuf physAddr bufLen => do
    let r := world.port.ring
    let out ← enaRxSubmitOne r netbuf physAddr bufLen
    return { world with
      port := { world.port with ring := out.ring }
      submitted := world.submitted ++
        out.reqId.toList.map fun reqId => rxSubmitDesc physAddr bufLen reqId r.sqTail.phase }
  | .doorbell => .ok (world.ring (enaRxDoorbell world.port.ring))
  | .poll maxPkts script => do
    let r := world.port.ring
    let polled ← enaRxPoll world.port maxPkts ((rxDeviceViews r world.dev script).map Device.cq)
    return { world with
      port := polled.port
      dev := world.dev.after r.sqDepth RxDesc.reqId RxCdesc.reqId RxCdesc.phase r.rxDescs script
      consumed := world.consumed ++ rxEntries polled.events }
  | .device actions =>
    let r := world.port.ring
    .ok { world with
      dev := world.dev.acts r.sqDepth RxDesc.reqId RxCdesc.reqId RxCdesc.phase r.rxDescs actions }

/-! ## The invariant -/

structure PairSound {π δ κ : Type} (d : Depth) (hw : HwQueue) (idOf : δ → Nat) (descPhase : δ → Bool)
    (entryId : κ → Nat) (entryPhase : κ → Bool) (r : Ring) (sq : Nat → δ) (live : Nat → Bool)
    (world : PairWorld π δ κ) : Prop where
  hw : r.hw = hw
  unlocked : r.ringLock = false
  sqDepth : r.sqDepth = d
  cqDepth : r.cqDepth = d
  sqTail : r.sqTail = Cursor.after d world.submitted.length
  cqHead : r.cqHead = Cursor.after d world.consumed.length
  sync : Sync d idOf entryId entryPhase sq world.dev world.submitted world.rung
    world.consumed.length (fun id => live id = true)
  laps : ∀ i desc, world.submitted[i]? = some desc → descPhase desc = lapPhase d i
  consumed : world.consumed <+: world.dev.posted

structure QueuesAgree {π δ κ : Type} (d : Depth) (descPhase : δ → Bool) (sq : Nat → δ)
    (world : PairWorld π δ κ) : Prop where
  /-- every descriptor that was not fetched is in its slot -/
  unfetched : ∀ i desc, world.dev.fetched.length ≤ i → world.submitted[i]? = some desc →
    sq (i % d.val) = desc
  /-- the device has fetched what was submitted, in order and as it was written -/
  fetched : world.dev.fetched <+: world.submitted
  laps : ∀ i desc, world.submitted[i]? = some desc → descPhase desc = lapPhase d i
  /-- it stops fetching only when it has everything that the doorbell covers -/
  caughtUp : world.dev.fetchIndex = world.dev.doorbell ↔ world.dev.fetched.length = world.rung
  /-- every completion that was not consumed is in its slot -/
  unread : ∀ i entry, world.consumed.length ≤ i → world.dev.posted[i]? = some entry →
    world.dev.cq (i % d.val) = entry
  consumed : world.consumed <+: world.dev.posted

section Sound

variable {π δ κ : Type} {d : Depth} {hw : HwQueue} {idOf : δ → Nat} {descPhase : δ → Bool}
  {entryId : κ → Nat} {entryPhase : κ → Bool} {r : Ring} {sq : Nat → δ} {live : Nat → Bool}
  {world : PairWorld π δ κ}

namespace PairSound

section

variable (sound : PairSound d hw idOf descPhase entryId entryPhase r sq live world)
include sound

theorem agree :
    QueuesAgree d descPhase sq world where
  unfetched := sound.sync.intact
  fetched := sound.sync.fetched
  laps := sound.laps
  caughtUp := sound.sync.caughtUp
  unread := sound.sync.unread
  consumed := sound.consumed

theorem located : r.cqHead = Cursor.after r.cqDepth world.consumed.length := by
  rw [sound.cqDepth]
  exact sound.cqHead

/-- The device as the iterations of a poll find it. -/
theorem follows (script : List (List (DeviceAct κ))) :
    Follows d idOf entryId entryPhase sq world.dev
      (pollViews r (world.dev.views r.sqDepth idOf entryId entryPhase sq script)
        (world.dev.after r.sqDepth idOf entryId entryPhase sq script))
      (world.dev.after d idOf entryId entryPhase sq script) := by
  rw [sound.sqDepth]
  exact follows_views d idOf entryId entryPhase sq world.dev script _

/-- Whatever the device does. -/
theorem acts (actions : List (DeviceAct κ)) :
    PairSound d hw idOf descPhase entryId entryPhase r sq live
      { world with dev := world.dev.acts d idOf entryId entryPhase sq actions } :=
  { sound with
    sync := sound.sync.acts actions
    consumed := sound.consumed.trans
      (Reached.posted d idOf entryId entryPhase sq ⟨actions, rfl⟩) }

theorem ring (bell : ∀ event ∈ events, ∃ offset, event = .regWrite32 offset r.sqTail.index) :
    PairSound d hw idOf descPhase entryId entryPhase r sq live (world.ring events) := by
  unfold PairWorld.ring
  split
  · exact sound
  rename_i value found
  have member := List.mem_of_getLast? found
  obtain ⟨event, inside, wrote⟩ := List.mem_filterMap.mp member
  obtain ⟨offset, rfl⟩ := bell event inside
  cases wrote
  rw [sound.sqTail]
  exact { sound with sync := sound.sync.ring }

theorem submit
    {desc : δ} {next : Ring} {nextSq : Nat → δ} {nextLive : Nat → Bool} (port : π)
    (idle : live (idOf desc) = false) (bound : idOf desc < d.val)
    (phase : descPhase desc = r.sqTail.phase)
    (wrote : nextSq = store sq r.sqSlot desc) (marked : nextLive = store live (idOf desc) true)
    (moved : next.sqTail = r.sqTail.advance r.sqDepth)
    (rest : next.hw = r.hw ∧ next.ringLock = false ∧ next.sqDepth = r.sqDepth ∧
      next.cqDepth = r.cqDepth ∧ next.cqHead = r.cqHead) :
    PairSound d hw idOf descPhase entryId entryPhase next nextSq nextLive
      { world with port := port, submitted := world.submitted ++ [desc] } := by
  have slot : r.sqSlot = world.submitted.length % d.val := by
    rw [Ring.sqSlot, sound.sqDepth, sound.sqTail, Cursor.slot_after]
  have free : ¬live (idOf desc) = true := by
    rw [idle]
    exact Bool.false_ne_true
  constructor
  · exact rest.1.trans sound.hw
  · exact rest.2.1
  · exact rest.2.2.1.trans sound.sqDepth
  · exact rest.2.2.2.1.trans sound.cqDepth
  · rw [moved, sound.sqTail, sound.sqDepth, Cursor.advance_after, List.length_append]
    rfl
  · exact rest.2.2.2.2.trans sound.cqHead
  · rw [wrote, slot, marked]
    apply (sound.sync.submit free bound).congr
    intro id
    by_cases same : id = idOf desc
    · simp [same]
    · simp [same, store_other _ _ same]
  · intro i other member
    rcases concat_cases member with ⟨_, early⟩ | ⟨rfl, rfl⟩
    · exact sound.laps i other early
    · rw [phase, sound.sqTail]
      rfl
  · exact sound.consumed

theorem polled
    {next : Ring} {nextLive : Nat → Bool} {last : Device δ κ} {entries : List κ} (port : π)
    (sync : Sync d idOf entryId entryPhase sq last world.submitted world.rung
      (world.consumed.length + entries.length) (fun id => nextLive id = true))
    (ordered : entries <+: last.posted.drop world.consumed.length)
    (grown : world.dev.posted <+: last.posted)
    (moved : next.cqHead = Cursor.after d (world.consumed.length + entries.length))
    (rest : next.hw = r.hw ∧ next.ringLock = false ∧ next.sqDepth = r.sqDepth ∧
      next.cqDepth = r.cqDepth ∧ next.sqTail = r.sqTail) :
    PairSound d hw idOf descPhase entryId entryPhase next sq nextLive
      { world with port := port, dev := last, consumed := world.consumed ++ entries } := by
  have size : (world.consumed ++ entries).length = world.consumed.length + entries.length :=
    List.length_append
  constructor
  · exact rest.1.trans sound.hw
  · exact rest.2.1
  · exact rest.2.2.1.trans sound.sqDepth
  · exact rest.2.2.2.1.trans sound.cqDepth
  · exact rest.2.2.2.2.trans sound.sqTail
  · rw [size]
    exact moved
  · rw [size]
    exact sync
  · exact sound.laps
  · have early := sound.consumed.trans grown
    rw [← List.take_append_drop world.consumed.length last.posted,
      ← List.prefix_iff_eq_take.mp early]
    exact (List.prefix_append_right_inj _).mpr ordered

end

theorem start {port : π} {blank : κ} (same : r.hw = hw) (unlocked : r.ringLock = false)
    (sqDepth : r.sqDepth = d) (cqDepth : r.cqDepth = d) (sqTail : r.sqTail = .start)
    (cqHead : r.cqHead = .start) (phase : entryPhase blank = false) :
    PairSound d hw idOf descPhase entryId entryPhase r sq (fun _ => false) (.start port blank) := by
  refine ⟨same, unlocked, sqDepth, cqDepth, sqTail.trans (Cursor.after_zero _).symm,
    cqHead.trans (Cursor.after_zero _).symm, (sync_fresh _ phase).congr ?_, ?_, List.prefix_rfl⟩
  · exact fun id => ⟨False.elim, Bool.false_ne_true⟩
  · exact fun i desc found => nomatch found

end PairSound

end Sound

/-- The ids in use once one of them was released. -/
theorem released_iff {allocated : Nat → Bool} (marks : ∀ id, Live id ↔ allocated id = true)
    (reqId id : Nat) :
    (Live id ∧ id ≠ reqId) ↔ store allocated reqId false id = true := by
  rw [marks]
  by_cases same : id = reqId
  · simp [same]
  · simp [same, store_other _ _ same]

theorem cqSlot_at {d : Depth} {r : Ring} (cqDepth : r.cqDepth = d) (head : r.cqHead = Cursor.after d done) :
    r.cqSlot = done % d.val := by
  rw [Ring.cqSlot, cqDepth, head, Cursor.slot_after]

/-! ## Transmit rings -/

section Transmit

variable {d : Depth} {hw : HwQueue} {world : PairWorld TxPort TxDesc TxCdesc}

structure TxSound (d : Depth) (hw : HwQueue) (world : PairWorld TxPort TxDesc TxCdesc) : Prop where
  tracks : ∃ ledger, Tracks world.port.ring ledger
  pair : PairSound d hw TxDesc.reqId TxDesc.phase TxCdesc.reqId TxCdesc.phase world.port.ring
    world.port.ring.txDescs world.port.ring.pool.reqInFlight world

def TxHolds (d : Depth) (p : TxPort) (done : Nat) (Live : Nat → Prop) : Prop :=
  TxAt d d p done ∧ ∀ id, Live id ↔ p.ring.pool.reqInFlight id = true

theorem txEntries_append (first second : List Event) :
    txEntries (first ++ second) = txEntries first ++ txEntries second :=
  List.filterMap_append

theorem txEntries_of_quiet (quiet : consumed events = 0) :
    txEntries events = [] := by
  apply List.filterMap_eq_nil_iff.mpr
  intro event member
  have idle := List.countP_eq_zero.mp quiet event member
  cases event with
  | txConsumed slot cdesc verdict => exact absurd rfl idle
  | _ => rfl

/-- One iteration consumes the entry under the position. -/
theorem txPollEntry_reads {added : Nat} {p next : TxPort} {mem : TxMem} {outputs : List Event}
    (holds : TxHolds d p done Live) (read : txPollEntry cpu p mem = some (added, next, outputs)) :
    (mem (done % d.val)).phase = lapPhase d done ∧ txEntries outputs = [mem (done % d.val)] ∧
      added ≤ 1 ∧ (Live (mem (done % d.val)).reqId →
        TxHolds d next (done + 1) (fun id => Live id ∧ id ≠ (mem (done % d.val)).reqId)) := by
  obtain ⟨here, marks⟩ := holds
  obtain ⟨moved, _, _⟩ := txPollEntry_consumes here read
  obtain ⟨⟨ledger, tracks⟩, sqDepth, cqDepth, head⟩ := here
  obtain ⟨phase, _, outcome⟩ := txPollEntry_cases read
  obtain ⟨_, one⟩ : Reaps cpu (fun _ => True) _ _ _ ∧ _ := txPollEntry_reaps read trivial tracks
  have slot := cqSlot_at cqDepth head
  rw [slot] at phase outcome
  have entries : ∀ verdict events, outputs = .txConsumed (done % d.val) (mem (done % d.val)) verdict ::
      events → txEntries outputs = [mem (done % d.val)] := by
    rintro verdict events rfl
    have quiet : consumed events = 0 := by
      rw [consumed, List.countP_cons_of_pos rfl] at one
      exact Nat.succ.inj one
    change mem (done % d.val) :: txEntries events = _
    rw [txEntries_of_quiet quiet]
  refine ⟨by rw [phase, head]; rfl, ?_⟩
  rcases outcome with ⟨idle, none, _, events⟩ | ⟨_, some, ring, events⟩
  · refine ⟨entries _ _ events, by omega, ?_⟩
    intro live
    rw [(marks _).mp live] at idle
    cases idle
  refine ⟨entries _ _ events, by omega, ?_⟩
  intro _
  refine ⟨moved, ?_⟩
  intro id
  have untouched := (txDispose_untouched (txAcknowledge p.ring (mem (done % d.val))) cpu
    (mem (done % d.val)).reqId).marks
  rw [ring]
  change _ ↔ (txDispose _ _ _).1.pool.reqInFlight id = true
  rw [untouched]
  exact released_iff marks _ id

/-- An iteration leaves the loop for the phase, or for an id that is not in use. -/
theorem txPollEntry_leaves {p : TxPort} {mem : TxMem} (holds : TxHolds d p done Live)
    (left : txPollEntry cpu p mem = none) :
    (mem (done % d.val)).phase ≠ lapPhase d done ∨ ¬Live (mem (done % d.val)).reqId := by
  obtain ⟨⟨⟨ledger, tracks⟩, sqDepth, cqDepth, head⟩, marks⟩ := holds
  have slot := cqSlot_at cqDepth head
  unfold txPollEntry at left
  simp only [slot] at left
  split at left
  · rename_i differs
    rw [head] at differs
    exact Or.inl differs
  split at left
  · rename_i outside
    right
    rw [marks, tracks.2.inFlight, tracks.2.outside _ outside]
    exact Bool.false_ne_true
  · split at left
    · cases left
    · cases left

theorem map_txDeviceViews (r : Ring) (dev : Device TxDesc TxCdesc) (script : TxScript) :
    (txDeviceViews r dev script).map Device.cq = ((dev.views r.sqDepth TxDesc.reqId TxCdesc.reqId
      TxCdesc.phase r.txDescs script).map Device.cq) ++ List.replicate (r.cqDepth.val + 1)
        (dev.after r.sqDepth TxDesc.reqId TxCdesc.reqId TxCdesc.phase r.txDescs script).cq := by
  rw [txDeviceViews, pollViews, List.map_append, List.map_replicate]

/-- The iterations of a poll agree with the device throughout. -/
theorem enaTxPollCompletions_sync {ledger : TxLedger} (tracks : Tracks world.port.ring ledger)
    (pair : PairSound d hw TxDesc.reqId TxDesc.phase TxCdesc.reqId TxCdesc.phase world.port.ring
      world.port.ring.txDescs world.port.ring.pool.reqInFlight world) {budget : Nat}
    {script : TxScript} {ret : Int} {port : TxPort}
    (returned : enaTxPollCompletions world.port cpu budget
      ((txDeviceViews world.port.ring world.dev script).map Device.cq) = .ok (ret, port, events)) :
    let last := world.dev.after d TxDesc.reqId TxCdesc.reqId TxCdesc.phase
      world.port.ring.txDescs script
    Sync d TxDesc.reqId TxCdesc.reqId TxCdesc.phase world.port.ring.txDescs last world.submitted
        world.rung (world.consumed.length + (txEntries events).length)
        (fun id => port.ring.pool.reqInFlight id = true) ∧
      txEntries events <+: last.posted.drop world.consumed.length ∧
      port.ring.cqHead = Cursor.after d (world.consumed.length + (txEntries events).length) ∧
      (hw.valid = true → budget = 0 ∨ d.val ≤ budget →
        world.dev.posted.length ≤ world.consumed.length + (txEntries events).length) := by
  intro last
  have follows := pair.follows script
  rcases enaTxPollCompletions_cases tracks pair.unlocked returned with
    ⟨rfl, rfl, reason⟩ | ⟨drained, first, cleaned, left, rest, drain, reaped, looped, rfl, rfl, _⟩
  · refine ⟨follows.sync d _ _ _ _ pair.sync, List.nil_prefix, pair.cqHead, ?_⟩
    intro valid _
    by_contra behind
    have more : world.consumed.length < world.dev.posted.length := Nat.lt_of_not_le behind
    obtain ⟨_, _, live⟩ := pair.sync.next more
    rcases reason with invalid | idle
    · rw [pair.hw, valid] at invalid
      cases invalid
    · obtain ⟨item, active⟩ := tracks.active_of_inFlight (Bool.ne_false_iff.mpr live)
      have heldItem := congrArg Status.item? active
      have count := tracks.2.sound.count_lt (tracks.2.lt heldItem) (tracks.2.owned heldItem)
      omega
  · have tracked : Tracks { world.port.ring with ringLock := true } ledger := tracks
    have silent := txEntries_of_quiet (enaTxDrainForeignFrees_consumed drain)
    have untouched := enaTxDrainForeignFrees_untouched tracked drain
    have holds : TxHolds d { world.port with ring := drained } world.consumed.length
        (fun id => world.port.ring.pool.reqInFlight id = true) := by
      have here := TxAt.drained tracks pair.located drain reaped
      rw [pair.sqDepth, pair.cqDepth] at here
      refine ⟨here, ?_⟩
      intro id
      change _ ↔ drained.pool.reqInFlight id = true
      rw [untouched.marks]
    obtain ⟨Remains, ⟨⟨_, _, _, head⟩, marks⟩, synced, ordered, reason⟩ :=
      iterates_sync d TxDesc.reqId TxCdesc.reqId TxCdesc.phase world.port.ring.txDescs txEntries
        (TxHolds d) rfl txEntries_append txPollEntry_reads txPollEntry_leaves holds pair.sync follows
        (pollLoop_iterates looped)
    rw [txEntries_append, silent, List.nil_append]
    refine ⟨synced.congr marks, ordered, head, ?_⟩
    intro _ whole
    have room := pair.sync.room
    rw [pair.cqDepth] at reason
    rcases reason with all | spent
    · exact all
    · split at spent
      · omega
      · omega

/-- A poll consumes the next completions in order; one over the whole queue
consumes every completion posted before it. -/
theorem txPoll_sound (sound : TxSound d hw world) (cpu budget : Nat) (script : TxScript) :
    ∃ next, txPairStep world (.poll cpu budget script) = .ok next ∧ TxSound d hw next ∧
      (hw.valid = true → budget = 0 ∨ d.val ≤ budget → world.dev.posted <+: next.consumed) := by
  obtain ⟨⟨ledger, tracks⟩, pair⟩ := sound
  obtain ⟨ret, port, events, returned⟩ := enaTxPollCompletions_total cpu budget
    ((world.dev.views world.port.ring.sqDepth TxDesc.reqId TxCdesc.reqId TxCdesc.phase
      world.port.ring.txDescs script).map Device.cq)
    (world.dev.after world.port.ring.sqDepth TxDesc.reqId TxCdesc.reqId TxCdesc.phase
      world.port.ring.txDescs script).cq tracks pair.unlocked pair.located
  rw [← map_txDeviceViews] at returned
  obtain ⟨reaped, unlocked⟩ := enaTxPollCompletions_reaps tracks pair.unlocked returned
  obtain ⟨frame, ⟨_, after, _, tracked, _⟩, _⟩ := reaped ledger tracks
  obtain ⟨synced, ordered, head, all⟩ := enaTxPollCompletions_sync tracks pair returned
  have stepped : txPairStep world (.poll cpu budget script) = .ok { world with
      port := port
      dev := world.dev.after d TxDesc.reqId TxCdesc.reqId TxCdesc.phase world.port.ring.txDescs script
      consumed := world.consumed ++ txEntries events } := by
    rw [txPairStep, returned, pair.sqDepth]
    rfl
  have grown := (pair.follows script).posted d _ _ _ world.port.ring.txDescs
  have rest : port.ring.hw = world.port.ring.hw ∧ port.ring.ringLock = false ∧
      port.ring.sqDepth = world.port.ring.sqDepth ∧ port.ring.cqDepth = world.port.ring.cqDepth ∧
      port.ring.sqTail = world.port.ring.sqTail ∧ port.ring.txDescs = world.port.ring.txDescs := by
    obtain ⟨_, _, _, _, _, _, _, _, same⟩ := frame
    rw [same] at unlocked ⊢
    exact ⟨rfl, unlocked, rfl, rfl, rfl, rfl⟩
  have kept := pair.polled port synced ordered grown head
    ⟨rest.1, rest.2.1, rest.2.2.1, rest.2.2.2.1, rest.2.2.2.2.1⟩
  refine ⟨_, stepped, ⟨⟨after, tracked⟩, rest.2.2.2.2.2 ▸ kept⟩, ?_⟩
  intro valid whole
  refine List.prefix_of_prefix_length_le grown kept.consumed ?_
  rw [List.length_append]
  exact all valid whole

theorem enaTxDoorbell_index (r : Ring) :
    ∀ event ∈ enaTxDoorbell r, ∃ offset, event = .regWrite32 offset r.sqTail.index := by
  unfold enaTxDoorbell
  intro event member
  split at member
  · cases member
  · rename_i offset _
    split at member
    · exact ⟨offset, List.mem_singleton.mp member⟩
    · cases member

theorem txPairStep_sound (sound : TxSound d hw world) (op : TxPairOp) :
    ∃ next, txPairStep world op = .ok next ∧ TxSound d hw next := by
  cases op with
  | submit cpu pkt =>
    obtain ⟨⟨ledger, tracks⟩, pair⟩ := sound
    obtain ⟨out, ran, _, outcome⟩ := enaTxSubmit_cases world.port.ring cpu pkt pair.unlocked
    have stepped : txPairStep world (.submit cpu pkt) = .ok { world with
        port := { world.port with ring := out.ring }
        submitted := world.submitted ++ out.reqId.toList.map fun reqId =>
          txSubmitDesc pkt reqId world.port.ring.sqTail.phase } := by
      rw [txPairStep, ran]
      rfl
    refine ⟨_, stepped, ?_⟩
    rcases outcome with ⟨_, none, ring⟩ | ⟨reqId, pool, found, _, given, _, _, ring⟩
    · rw [none, ring]
      simp only [Option.toList_none, List.map_nil, List.append_nil]
      exact ⟨⟨ledger, tracks⟩, pair⟩
    obtain ⟨isFree, bound, tracked⟩ := txTrack_tracks tracks found cpu pkt
    obtain ⟨_, _, _, _, flags, _, _⟩ := RequestPool.alloc_cases tracks.2.sound found
    rw [pair.sqDepth] at bound
    have small := d.le
    have named : (txSubmitDesc pkt reqId world.port.ring.sqTail.phase).reqId = reqId :=
      reqId_read (by omega) rfl rfl
    rw [given, ring]
    refine ⟨⟨_, tracked⟩, pair.submit _ ?_ ?_ (@phase_read pkt reqId _ _ rfl) rfl ?_ rfl
      ⟨rfl, pair.unlocked, rfl, rfl, rfl⟩⟩
    · rw [named, tracks.2.inFlight, isFree]
      rfl
    · rw [named]
      exact bound
    · change store pool.reqInFlight reqId true = _
      rw [named, flags]
  | doorbell =>
    obtain ⟨tracks, pair⟩ := sound
    have kept := pair.ring (enaTxDoorbell_index world.port.ring)
    exact ⟨_, rfl, by rw [world.ring_port]; exact tracks, by rw [world.ring_port]; exact kept⟩
  | poll cpu budget script =>
    obtain ⟨next, stepped, kept, _⟩ := txPoll_sound sound cpu budget script
    exact ⟨next, stepped, kept⟩
  | device actions =>
    obtain ⟨tracks, pair⟩ := sound
    refine ⟨_, rfl, tracks, ?_⟩
    have kept := pair.acts actions
    rw [← pair.sqDepth] at kept ⊢
    exact kept

end Transmit

/-! ## Receive rings -/

section Receive

variable {d : Depth} {hw : HwQueue} {world : PairWorld RxPort RxDesc RxCdesc}

/-- What holds between the steps of a receive ring and its device.  The ids in use
are the allocated ones: the in-flight mark of a dropped reception stays behind. -/
structure RxSound (d : Depth) (hw : HwQueue) (world : PairWorld RxPort RxDesc RxCdesc) : Prop where
  tracks : ∃ ledger, RxTracks world.port.ring ledger
  pair : PairSound d hw RxDesc.reqId RxDesc.phase RxCdesc.reqId RxCdesc.phase world.port.ring
    world.port.ring.rxDescs world.port.ring.pool.reqAllocated world

def RxHolds (d : Depth) (p : RxPort) (done : Nat) (Live : Nat → Prop) : Prop :=
  RxAt d d p done ∧ ∀ id, Live id ↔ p.ring.pool.reqAllocated id = true

theorem rxEntries_append (first second : List Event) :
    rxEntries (first ++ second) = rxEntries first ++ rxEntries second :=
  List.filterMap_append

theorem rxEntries_of_quiet (quiet : consumed events = 0) :
    rxEntries events = [] := by
  apply List.filterMap_eq_nil_iff.mpr
  intro event member
  have idle := List.countP_eq_zero.mp quiet event member
  cases event with
  | rxConsumed slot cdesc verdict => exact absurd rfl idle
  | _ => rfl

/-- One iteration consumes the entry under the position. -/
theorem rxPollEntry_reads {added : Nat} {p next : RxPort} {mem : RxMem} {outputs : List Event}
    (holds : RxHolds d p done Live) (read : rxPollEntry p mem = some (added, next, outputs)) :
    (mem (done % d.val)).phase = lapPhase d done ∧ rxEntries outputs = [mem (done % d.val)] ∧
      added ≤ 1 ∧ (Live (mem (done % d.val)).reqId →
        RxHolds d next (done + 1) (fun id => Live id ∧ id ≠ (mem (done % d.val)).reqId)) := by
  obtain ⟨here, marks⟩ := holds
  obtain ⟨moved, _, _⟩ := rxPollEntry_consumes here read
  obtain ⟨⟨ledger, tracks⟩, sqDepth, cqDepth, head⟩ := here
  obtain ⟨phase, _, entry⟩ := rxPollEntry_cases read
  have slot := cqSlot_at cqDepth head
  rw [slot] at phase entry
  have one := entry.consumed tracks
  have inUse : Live (mem (done % d.val)).reqId →
      ∃ nb, ledger (mem (done % d.val)).reqId = .active nb := by
    intro live
    have owned := (marks _).mp live
    rcases rxStatus_cases (ledger (mem (done % d.val)).reqId) with isFree | held
    · rw [tracks.2.allocated, isFree] at owned
      cases owned
    · exact held
  refine ⟨by rw [phase, head]; rfl, ?_⟩
  cases entry with
  | skipped idle =>
    refine ⟨rfl, Nat.zero_le 1, ?_⟩
    intro live
    obtain ⟨nb, active⟩ := inUse live
    rw [tracks.2.flagged _ (by rw [active]; rfl)] at idle
    cases idle
  | dropped inFlight oversize =>
    refine ⟨?_, Nat.zero_le 1, ?_⟩
    · have quiet : consumed (rxDrop p.ring (mem (done % d.val)).reqId).2 = 0 := by
        rw [consumed, List.countP_cons_of_pos rfl] at one
        exact Nat.succ.inj one
      change mem (done % d.val) :: rxEntries _ = _
      rw [rxEntries_of_quiet quiet]
    · intro live
      obtain ⟨nb, active⟩ := inUse live
      refine ⟨moved, ?_⟩
      rw [rxDrop_held tracks active]
      exact released_iff marks _
  | delivered inFlight fits =>
    refine ⟨rfl, Nat.le_refl 1, ?_⟩
    intro live
    obtain ⟨nb, active⟩ := inUse live
    refine ⟨moved, ?_⟩
    rw [rxDeliver_held tracks active]
    exact released_iff marks _

/-- An iteration leaves the loop for the phase, or for an id that is not in use. -/
theorem rxPollEntry_leaves {p : RxPort} {mem : RxMem} (holds : RxHolds d p done Live)
    (left : rxPollEntry p mem = none) :
    (mem (done % d.val)).phase ≠ lapPhase d done ∨ ¬Live (mem (done % d.val)).reqId := by
  obtain ⟨⟨⟨ledger, tracks⟩, sqDepth, cqDepth, head⟩, marks⟩ := holds
  have slot := cqSlot_at cqDepth head
  unfold rxPollEntry at left
  simp only [slot] at left
  split at left
  · rename_i differs
    rw [head] at differs
    exact Or.inl differs
  split at left
  · rename_i outside
    right
    rw [marks, tracks.2.allocated, tracks.2.outside _ outside]
    exact Bool.false_ne_true
  · split at left
    · cases left
    · split at left
      · cases left
      · cases left

theorem map_rxDeviceViews (r : Ring) (dev : Device RxDesc RxCdesc) (script : RxScript) :
    (rxDeviceViews r dev script).map Device.cq = pollViews r
      ((dev.views r.sqDepth RxDesc.reqId RxCdesc.reqId RxCdesc.phase r.rxDescs script).map Device.cq)
      (dev.after r.sqDepth RxDesc.reqId RxCdesc.reqId RxCdesc.phase r.rxDescs script).cq := by
  rw [rxDeviceViews, pollViews, pollViews, List.map_append, List.map_replicate]

/-- The iterations of a poll agree with the device throughout. -/
theorem enaRxPoll_sync {ledger : RxLedger} (tracks : RxTracks world.port.ring ledger)
    (pair : PairSound d hw RxDesc.reqId RxDesc.phase RxCdesc.reqId RxCdesc.phase world.port.ring
      world.port.ring.rxDescs world.port.ring.pool.reqAllocated world)
    {maxPkts : Nat} {script : RxScript} {polled : RxPolled}
    (returned : enaRxPoll world.port maxPkts
      ((rxDeviceViews world.port.ring world.dev script).map Device.cq) = .ok polled) :
    let last := world.dev.after d RxDesc.reqId RxCdesc.reqId RxCdesc.phase
      world.port.ring.rxDescs script
    Sync d RxDesc.reqId RxCdesc.reqId RxCdesc.phase world.port.ring.rxDescs last world.submitted
        world.rung (world.consumed.length + (rxEntries polled.events).length)
        (fun id => polled.port.ring.pool.reqAllocated id = true) ∧
      rxEntries polled.events <+: last.posted.drop world.consumed.length ∧
      polled.port.ring.cqHead =
        Cursor.after d (world.consumed.length + (rxEntries polled.events).length) ∧
      (hw.valid = true → d.val ≤ maxPkts →
        world.dev.posted.length ≤ world.consumed.length + (rxEntries polled.events).length) := by
  intro last
  have follows := pair.follows script
  rcases enaRxPoll_cases pair.unlocked returned with
    ⟨same, silent, _, _, reason⟩ | ⟨rcvd, left, outputs, iterates, _, rfl⟩
  · rw [same, silent]
    refine ⟨follows.sync d _ _ _ _ pair.sync, List.nil_prefix, pair.cqHead, ?_⟩
    intro valid whole
    have positive := d.pos
    rcases reason with other | none | invalid
    · exact absurd tracks.1 other
    · omega
    · rw [pair.hw, valid] at invalid
      cases invalid
  · have holds : RxHolds d { world.port with ring := { world.port.ring with ringLock := true } }
        world.consumed.length (fun id => world.port.ring.pool.reqAllocated id = true) :=
      ⟨⟨⟨ledger, tracks⟩, pair.sqDepth, pair.cqDepth, pair.cqHead⟩, fun _ => Iff.rfl⟩
    obtain ⟨Remains, ⟨⟨_, _, _, head⟩, marks⟩, synced, ordered, reason⟩ :=
      iterates_sync d RxDesc.reqId RxCdesc.reqId RxCdesc.phase world.port.ring.rxDescs rxEntries
        (RxHolds d) rfl rxEntries_append rxPollEntry_reads rxPollEntry_leaves holds pair.sync follows
        iterates
    have quiet := rxEntries_of_quiet (enaRxReportHead_quiet left.ring rcvd).2
    simp only
    rw [rxEntries_append, quiet, List.append_nil]
    refine ⟨synced.congr marks, ordered, head, ?_⟩
    intro _ whole
    have room := pair.sync.room
    rcases reason with all | spent
    · exact all
    · omega

/-- A poll consumes the next completions in order; one over the whole queue
consumes every completion posted before it. -/
theorem rxPoll_sound (sound : RxSound d hw world) (maxPkts : Nat) (script : RxScript) :
    ∃ next, rxPairStep world (.poll maxPkts script) = .ok next ∧ RxSound d hw next ∧
      (hw.valid = true → d.val ≤ maxPkts → world.dev.posted <+: next.consumed) := by
  obtain ⟨⟨ledger, tracks⟩, pair⟩ := sound
  obtain ⟨polled, returned⟩ := enaRxPoll_total maxPkts
    ((world.dev.views world.port.ring.sqDepth RxDesc.reqId RxCdesc.reqId RxCdesc.phase
      world.port.ring.rxDescs script).map Device.cq)
    (world.dev.after world.port.ring.sqDepth RxDesc.reqId RxCdesc.reqId RxCdesc.phase
      world.port.ring.rxDescs script).cq tracks pair.unlocked pair.located
  rw [← map_rxDeviceViews] at returned
  obtain ⟨reaped, unlocked⟩ := enaRxPoll_reaps tracks pair.unlocked returned
  obtain ⟨frame, ⟨_, after, _, tracked, _⟩, _⟩ := reaped ledger tracks
  obtain ⟨synced, ordered, head, all⟩ := enaRxPoll_sync tracks pair returned
  have stepped : rxPairStep world (.poll maxPkts script) = .ok { world with
      port := polled.port
      dev := world.dev.after d RxDesc.reqId RxCdesc.reqId RxCdesc.phase world.port.ring.rxDescs script
      consumed := world.consumed ++ rxEntries polled.events } := by
    rw [rxPairStep, returned, pair.sqDepth]
    rfl
  have grown := (pair.follows script).posted d _ _ _ world.port.ring.rxDescs
  have rest : polled.port.ring.hw = world.port.ring.hw ∧
      polled.port.ring.sqTail = world.port.ring.sqTail ∧
      polled.port.ring.rxDescs = world.port.ring.rxDescs := by
    obtain ⟨_, _, _, _, _, _, _, same⟩ := frame
    rw [same]
    exact ⟨rfl, rfl, rfl⟩
  have kept := pair.polled polled.port synced ordered grown head
    ⟨rest.1, unlocked, frame.depths.1, frame.depths.2.1, rest.2.1⟩
  refine ⟨_, stepped, ⟨⟨after, tracked⟩, rest.2.2 ▸ kept⟩, ?_⟩
  intro valid whole
  refine List.prefix_of_prefix_length_le grown kept.consumed ?_
  rw [List.length_append]
  exact all valid whole

theorem enaRxDoorbell_index (r : Ring) :
    ∀ event ∈ enaRxDoorbell r, ∃ offset, event = .regWrite32 offset r.sqTail.index :=
  enaTxDoorbell_index r

theorem rxPairStep_sound (sound : RxSound d hw world) (op : RxPairOp) :
    ∃ next, rxPairStep world op = .ok next ∧ RxSound d hw next := by
  cases op with
  | submitOne netbuf physAddr bufLen =>
    obtain ⟨⟨ledger, tracks⟩, pair⟩ := sound
    obtain ⟨out, ran, outcome⟩ :=
      enaRxSubmitOne_cases world.port.ring netbuf physAddr bufLen pair.unlocked
    have stepped : rxPairStep world (.submitOne netbuf physAddr bufLen) = .ok { world with
        port := { world.port with ring := out.ring }
        submitted := world.submitted ++ out.reqId.toList.map fun reqId =>
          rxSubmitDesc physAddr bufLen reqId world.port.ring.sqTail.phase } := by
      rw [rxPairStep, ran]
      rfl
    refine ⟨_, stepped, ?_⟩
    rcases outcome with ⟨_, none, ring⟩ | ⟨nb, reqId, pool, _, found, _, given, _, ring⟩
    · rw [none, ring]
      simp only [Option.toList_none, List.map_nil, List.append_nil]
      exact ⟨⟨ledger, tracks⟩, pair⟩
    obtain ⟨_, ⟨_, after, _, tracked, _⟩, _⟩ :=
      rxSubmitted_posts found nb physAddr bufLen ledger tracks
    obtain ⟨bound, clear, _, marks, _, _, _⟩ :=
      RequestPool.alloc_cases tracks.2.sound found
    rw [pair.sqDepth] at bound
    rw [given, ring]
    exact ⟨⟨after, tracked⟩, pair.submit _ clear bound (phase_rxSubmitDesc _ _ _ _) rfl marks
      rfl ⟨rfl, pair.unlocked, rfl, rfl, rfl⟩⟩
  | doorbell =>
    obtain ⟨tracks, pair⟩ := sound
    have kept := pair.ring (enaRxDoorbell_index world.port.ring)
    exact ⟨_, rfl, by rw [world.ring_port]; exact tracks, by rw [world.ring_port]; exact kept⟩
  | poll maxPkts script =>
    obtain ⟨next, stepped, kept, _⟩ := rxPoll_sound sound maxPkts script
    exact ⟨next, stepped, kept⟩
  | device actions =>
    obtain ⟨tracks, pair⟩ := sound
    refine ⟨_, rfl, tracks, ?_⟩
    have kept := pair.acts actions
    rw [← pair.sqDepth] at kept ⊢
    exact kept

end Receive

/-! ## Main result -/

theorem txSound_start {qid : Nat} {depth : UInt16} {memory : Nat → Option Nat} {ring : Ring}
    (built : enaRingAlloc qid .tx depth depth memory = .ok ring) (hw : HwQueue)
    (queue : Option TxQueue) :
    TxSound ring.sqDepth hw (.start ⟨{ ring with hw := hw }, queue⟩ ⟨0, 0, 0, 0, 0⟩) := by
  obtain ⟨sqDepth, cqDepth, _, _, _, fresh⟩ := enaRingAlloc_ok built
  have same : ring.cqDepth = ring.sqDepth := Depth.eq_of_val (cqDepth.trans sqDepth.symm)
  rw [fresh]
  exact ⟨⟨_, rfl, TxCustody.fresh ring.sqDepth⟩, PairSound.start rfl rfl rfl same rfl rfl rfl⟩

theorem rxSound_start {qid : Nat} {depth : UInt16} {memory : Nat → Option Nat} {ring : Ring}
    (built : enaRingAlloc qid .rx depth depth memory = .ok ring) (dropCb refillCb : Bool)
    (hw : HwQueue) (queue : Option RxQueue) :
    RxSound ring.sqDepth hw
      (.start ⟨{ ring.withCallbacks dropCb refillCb with hw := hw }, queue⟩ ⟨0, 0, 0, 0, 0, 0⟩) := by
  obtain ⟨sqDepth, cqDepth, _, _, _, fresh⟩ := enaRingAlloc_ok built
  have same : ring.cqDepth = ring.sqDepth := Depth.eq_of_val (cqDepth.trans sqDepth.symm)
  rw [fresh]
  exact ⟨⟨_, rfl, RxCustody.fresh ring.sqDepth⟩, PairSound.start rfl rfl rfl same rfl rfl rfl⟩

/-- For either direction, after every interleaving of submissions, doorbells, polls
and device actions from queue creation on, the queues agree, and a poll over the
whole queue consumes every completion posted before it. -/
theorem queues_agree {qid : Nat} {depth : UInt16} {memory : Nat → Option Nat}
    {txRing rxRing : Ring} (txBuilt : enaRingAlloc qid .tx depth depth memory = .ok txRing)
    (rxBuilt : enaRingAlloc qid .rx depth depth memory = .ok rxRing) (hw : HwQueue)
    (txQueue : Option TxQueue) (rxQueue : Option RxQueue) (dropCb refillCb : Bool)
    (txOps : List TxPairOp) (rxOps : List RxPairOp) :
    (∃ world, run txPairStep (.start ⟨{ txRing with hw := hw }, txQueue⟩ ⟨0, 0, 0, 0, 0⟩) txOps =
        .ok world ∧
      QueuesAgree txRing.sqDepth TxDesc.phase world.port.ring.txDescs world ∧
      ∀ cpu budget script, ∃ next, txPairStep world (.poll cpu budget script) = .ok next ∧
        (hw.valid = true → budget = 0 ∨ txRing.sqDepth.val ≤ budget →
          world.dev.posted <+: next.consumed)) ∧
    ∃ world, run rxPairStep
        (.start ⟨{ rxRing.withCallbacks dropCb refillCb with hw := hw }, rxQueue⟩ ⟨0, 0, 0, 0, 0, 0⟩)
        rxOps = .ok world ∧
      QueuesAgree rxRing.sqDepth RxDesc.phase world.port.ring.rxDescs world ∧
      ∀ maxPkts script, ∃ next, rxPairStep world (.poll maxPkts script) = .ok next ∧
        (hw.valid = true → rxRing.sqDepth.val ≤ maxPkts → world.dev.posted <+: next.consumed) := by
  constructor
  · obtain ⟨world, ran, sound⟩ := run_invariant (fun _ _ => True) (TxSound txRing.sqDepth hw)
      (fun world op sound _ => txPairStep_sound sound op) (txSound_start txBuilt hw txQueue)
      (meets_of_forall (fun _ _ => trivial) _ txOps)
    refine ⟨world, ran, sound.pair.agree, ?_⟩
    intro cpu budget script
    obtain ⟨next, stepped, _, all⟩ := txPoll_sound sound cpu budget script
    exact ⟨next, stepped, all⟩
  · obtain ⟨world, ran, sound⟩ := run_invariant (fun _ _ => True) (RxSound rxRing.sqDepth hw)
      (fun world op sound _ => rxPairStep_sound sound op)
      (rxSound_start rxBuilt dropCb refillCb hw rxQueue)
      (meets_of_forall (fun _ _ => trivial) _ rxOps)
    refine ⟨world, ran, sound.pair.agree, ?_⟩
    intro maxPkts script
    obtain ⟨next, stepped, _, all⟩ := rxPoll_sound sound maxPkts script
    exact ⟨next, stepped, all⟩

def liveHw : HwQueue := { HwQueue.fresh with valid := true, sqDb := some 0 }

/-- Two packets are fetched, completed in the other order and reaped. -/
theorem queues_agree_small :
    ∃ world, run txPairStep (.start ⟨{ smallTxRing with hw := liveHw }, none⟩ ⟨0, 0, 0, 0, 0⟩)
        [.submit 0 (smallPkt 7), .submit 0 (smallPkt 8), .doorbell,
          .device [.fetch, .fetch, .complete 1 ⟨1, 0, 1, 0, 0⟩, .complete 0 ⟨0, 0, 1, 0, 0⟩],
          .poll 0 0 []] = .ok world ∧
      QueuesAgree .four TxDesc.phase world.port.ring.txDescs world ∧
      world.consumed = [⟨1, 0, 1, 0, 0⟩, ⟨0, 0, 1, 0, 0⟩] := by
  obtain ⟨⟨world, ran, agree, _⟩, _⟩ := queues_agree smallTxRing_built smallRxRing_built liveHw none
    none true true [.submit 0 (smallPkt 7), .submit 0 (smallPkt 8), .doorbell,
      .device [.fetch, .fetch, .complete 1 ⟨1, 0, 1, 0, 0⟩, .complete 0 ⟨0, 0, 1, 0, 0⟩],
      .poll 0 0 []] []
  have observed : (run txPairStep
      (.start ⟨{ smallTxRing with hw := liveHw }, none⟩ ⟨0, 0, 0, 0, 0⟩)
      [.submit 0 (smallPkt 7), .submit 0 (smallPkt 8), .doorbell,
        .device [.fetch, .fetch, .complete 1 ⟨1, 0, 1, 0, 0⟩, .complete 0 ⟨0, 0, 1, 0, 0⟩],
        .poll 0 0 []]).toOption.map PairWorld.consumed =
      some [⟨1, 0, 1, 0, 0⟩, ⟨0, 0, 1, 0, 0⟩] := by
    decide +kernel
  obtain ⟨same, again, entries⟩ := ok_of_observed observed
  cases ran.symm.trans again
  exact ⟨world, ran, agree, entries⟩

end EnaDriver.Datapath
