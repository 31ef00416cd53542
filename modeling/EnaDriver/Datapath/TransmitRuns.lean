import EnaDriver.Datapath.TransmitCalls
import EnaDriver.Datapath.QueueCreation

/-!
# Runs of a transmit ring

Every operation on a transmit ring, from any CPU and with any content of the
completion queue, as one step of a system with a log.  The log records the
accepted packets and the effects of every operation with the CPU it ran on.
-/

namespace EnaDriver.Datapath

open Support.Laps Support.Windows
open Support.Custody

/-! ## The system -/

/-- An operation on a transmit ring.  A poll sees the memory change finitely
often and then stand still.  A reset invalidates the ring; creation and
destruction of its queues meet any device answers. -/
inductive TxOp where
  | submit (cpu : Nat) (pkt : TxPkt)
  | llqPush (cpu : Nat) (pkt : TxPkt) (hdrData : Option (List UInt8)) (hdrLen : Nat)
  | poll (cpu budget : Nat) (changing : List TxMem) (settled : TxMem)
  | reset (cpu : Nat)
  | createHw (cpu : Nat) (dev : DeviceMap) (answers : AdminReq → Int × Response) (vector : Nat)
  | destroyHw (cpu : Nat) (answers : AdminReq → Int × Response)

inductive TxLog where
  | accepted (cpu reqId : Nat) (netbuf : Option Netbuf)
  | effect (cpu : Nat) (event : Event)
  deriving DecidableEq, Repr

structure TxWorld where
  port : TxPort
  log : List TxLog

def submissionLog (cpu : Nat) (pkt : TxPkt) (out : TxOutcome) : List TxLog :=
  (match out.reqId with
    | none => []
    | some reqId => [.accepted cpu reqId pkt.netbuf]) ++ out.events.map (.effect cpu)

def txApply (p : TxPort) : TxOp → Except Fault (TxPort × List TxLog)
  | .submit cpu pkt => do
    let out ← enaTxSubmit p.ring cpu pkt
    return ({ p with ring := out.ring }, submissionLog cpu pkt out)
  | .llqPush cpu pkt hdrData hdrLen => do
    let out ← enaLlqTxPush p.ring cpu pkt hdrData hdrLen
    return ({ p with ring := out.ring }, submissionLog cpu pkt out)
  | .poll cpu budget changing settled => do
    let (_, next, events) ←
      enaTxPollCompletions p cpu budget (pollViews p.ring changing settled)
    return (next, events.map (.effect cpu))
  | .reset cpu => do
    let (ring, events) ← enaAdapterInvalidateIoRing p.ring
    return ({ p with ring := ring }, events.map (.effect cpu))
  | .createHw _ dev answers vector => do
    let (_, ring) ← createHwOn dev answers vector p.ring
    return ({ p with ring := ring }, [])
  | .destroyHw _ answers => do
    let (_, ring) ← destroyHwOn answers p.ring
    return ({ p with ring := ring }, [])

def txStep (world : TxWorld) (op : TxOp) : Except Fault TxWorld := do
  let (port, entries) ← txApply world.port op
  return ⟨port, world.log ++ entries⟩

/-! ## A small ring -/

def smallTxRing : Ring := .fresh 0 .tx .four .four 4096 8192 28672

theorem smallTxRing_built :
    enaRingAlloc 0 .tx 4 4 (fun i => some (4096 * i)) = .ok smallTxRing := rfl

def smallNetbuf (addr : Nat) : Netbuf := ⟨addr, addr, 64, 2048, addr, 0, 0, false, false, false⟩

def smallPkt (addr : Nat) : TxPkt :=
  ⟨some (smallNetbuf addr), addr, 64, 0, 0, false, false, false, false⟩

/-- Completion memory with entries for these requests in the first slots, of the
first lap, and nothing else. -/
def completionsOf (ids : List Nat) : TxMem := fun slot =>
  match ids[slot]? with
  | some reqId => ⟨reqId, 0, 1, 0, 0⟩
  | none => ⟨0, 0, 0, 0, 0⟩

def oneCompletion (reqId : Nat) : TxMem
  | 0 => ⟨reqId, 0, 1, 0, 0⟩
  | _ => ⟨0, 0, 0, 0, 0⟩

/-! ## Reading the log -/

namespace TxLog

def accepted? : TxLog → Option (Nat × TxItem)
  | .accepted cpu reqId netbuf => some (reqId, ⟨netbuf, cpu⟩)
  | .effect _ _ => none

def frees : TxLog → List (Nat × Netbuf)
  | .accepted _ _ _ => []
  | .effect _ event => event.frees

def isNoRoom : TxLog → Bool
  | .accepted _ _ _ => false
  | .effect _ event => event.isNoRoom

def isConsumed : TxLog → Bool
  | .accepted _ _ _ => false
  | .effect _ event => event.isConsumed

end TxLog

def acceptances (log : List TxLog) : List (Nat × TxItem) := log.filterMap TxLog.accepted?

def releases (log : List TxLog) : List (Nat × Netbuf) := log.flatMap TxLog.frees

def TxItem.isAt (addr : Nat) (item : TxItem) : Bool := item.netbuf.any fun nb => nb.addr == addr

def acceptedCount (addr : Nat) (log : List TxLog) : Nat :=
  (acceptances log).countP fun entry => entry.2.isAt addr

def freedCount (addr : Nat) (log : List TxLog) : Nat :=
  (releases log).countP fun entry => entry.2.addr == addr

def heldCount (addr : Nat) (r : Ring) : Nat :=
  (List.range r.sqDepth.val).countP fun id => (r.txBufs id).netbuf.any fun nb => nb.addr == addr

/-! ## Effects as ledger actions -/

theorem freed_map_effect (cpu : Nat) (events : List Event) :
    releases (events.map (.effect cpu)) = freed events := by
  rw [releases, freed, List.flatMap_map]
  rfl

theorem acceptances_map_effect (cpu : Nat) (events : List Event) :
    acceptances (events.map (.effect cpu)) = [] := by
  rw [acceptances, List.filterMap_map]
  exact List.filterMap_eq_nil_iff.mpr fun _ _ => rfl

theorem consumed_map_effect (cpu : Nat) (events : List Event) :
    (events.map (TxLog.effect cpu)).countP TxLog.isConsumed = consumed events := by
  rw [List.countP_map]
  rfl

theorem noRoom_map_effect {cpu : Nat} {events : List Event}
    (kept : ∀ event ∈ events, event.isNoRoom = false) :
    ∀ entry ∈ events.map (TxLog.effect cpu), entry.isNoRoom = false := by
  intro entry member
  obtain ⟨event, inside, same⟩ := List.mem_map.mp member
  rw [← same]
  exact kept event inside

theorem heldCount_eq {r : Ring} {ledger : TxLedger} (tracks : Tracks r ledger) (addr : Nat) :
    heldCount addr r = held (TxItem.isAt addr) r.sqDepth.val ledger := by
  refine List.countP_congr fun id _ => ?_
  rw [tracks.2.netbuf, statusNetbuf, Status.holds]
  cases (ledger id).item? with
  | none => exact Iff.rfl
  | some item => exact Iff.rfl

def OpAllows (p : TxPort) : TxOp → TxLedger → TxAction → Prop
  | .submit cpu pkt, _, action =>
    ∃ id, action = .accept id ⟨pkt.netbuf, cpu⟩ ∧ id < p.ring.sqDepth.val
  | .llqPush cpu pkt _ _, _, action =>
    ∃ id, action = .accept id ⟨pkt.netbuf, cpu⟩ ∧ id < p.ring.sqDepth.val
  | .poll cpu budget changing settled, ledger, action =>
    PollAllows cpu p.ring.txOwnerCpu
      (NamedIn p cpu budget (pollViews p.ring changing settled)) ledger action
  | .reset _, ledger, action => ReleaseOnly ledger action
  | .createHw _ _ _ _, _, _ => False
  | .destroyHw _ _, _, _ => False

namespace TxOp

def isReset : TxOp → Bool
  | .reset _ => true
  | _ => false

def cpu : TxOp → Nat
  | .submit cpu _ => cpu
  | .llqPush cpu _ _ _ => cpu
  | .poll cpu _ _ _ => cpu
  | .reset cpu => cpu
  | .createHw cpu _ _ _ => cpu
  | .destroyHw cpu _ => cpu

def netbuf : TxOp → Option Netbuf
  | .submit _ pkt => pkt.netbuf
  | .llqPush _ pkt _ _ => pkt.netbuf
  | _ => none

end TxOp

/-- Everything an operation can do, as seen by the ledger and the positions. -/
structure TxEffect (p : TxPort) (op : TxOp) (ledger : TxLedger) (next : Ring)
    (entries : List TxLog) : Prop where
  unlocked : next.ringLock = false
  sqDepth : next.sqDepth = p.ring.sqDepth
  cqDepth : next.cqDepth = p.ring.cqDepth
  acts : ∃ actions after, Steps (OpAllows p op) ledger actions after ∧ Tracks next after ∧
    acceptances entries = entered actions ∧ releases entries = yielded TxItem.netbuf actions
  took : acceptances entries = [] ∨ ∃ id, acceptances entries = [(id, ⟨op.netbuf, op.cpu⟩)] ∧
    ledger id = .free ∧ id < p.ring.sqDepth.val
  kept : ∀ entry ∈ entries, entry.isNoRoom = false
  sent : ∀ count, p.ring.sqTail = Cursor.after p.ring.sqDepth count →
    next.sqTail = Cursor.after p.ring.sqDepth
      (if op.isReset then 0 else count + (acceptances entries).length)
  done : ∀ count, p.ring.cqHead = Cursor.after p.ring.cqDepth count →
    next.cqHead = Cursor.after p.ring.cqDepth
      (if op.isReset then 0 else count + entries.countP TxLog.isConsumed)

/-! ## The effect of each operation -/

section Effects

variable {p : TxPort} {ledger : TxLedger}

/-- An operation that leaves everything tracked as it is. -/
theorem TxEffect.unchanged (tracks : Tracks p.ring ledger) (unlocked : p.ring.ringLock = false)
    {op : TxOp} (normal : op.isReset = false) {entries : List TxLog}
    (quiet : acceptances entries = [] ∧ releases entries = [] ∧
      entries.countP TxLog.isConsumed = 0 ∧ ∀ entry ∈ entries, entry.isNoRoom = false)
    (hw : HwQueue) : TxEffect p op ledger { p.ring with hw := hw } entries where
  unlocked := unlocked
  sqDepth := rfl
  cqDepth := rfl
  acts := ⟨[], ledger, .nil ledger, tracks, quiet.1, quiet.2.1⟩
  took := Or.inl quiet.1
  kept := quiet.2.2.2
  sent := by
    intro count located
    rw [normal, quiet.1]
    exact located
  done := by
    intro count located
    rw [normal, quiet.2.2.1]
    exact located

theorem quiet_nil : acceptances [] = [] ∧ releases [] = [] ∧
    ([] : List TxLog).countP TxLog.isConsumed = 0 ∧
    ∀ entry ∈ ([] : List TxLog), entry.isNoRoom = false :=
  ⟨rfl, rfl, rfl, fun _ member => absurd member List.not_mem_nil⟩

/-- A submission that was refused, or that accepted its packet. -/
theorem submission_effect (tracks : Tracks p.ring ledger) (unlocked : p.ring.ringLock = false)
    {op : TxOp} (normal : op.isReset = false) {cpu : Nat} {pkt : TxPkt}
    (offers : op.netbuf = pkt.netbuf ∧ op.cpu = cpu)
    (allows : ∀ id, id < p.ring.sqDepth.val →
      OpAllows p op ledger (.accept id ⟨pkt.netbuf, cpu⟩))
    {out : TxOutcome} (quiet : Quiet out.events)
    (outcome : (out.reqId = none ∧ out.ring = p.ring) ∨ ∃ reqId pool,
      enaRingReqIdAlloc p.ring.sqDepth p.ring.pool = some (reqId, pool) ∧
        out.reqId = some reqId ∧ (out.ring = txSubmitted p.ring cpu pkt reqId pool ∨
          out.ring = llqPushed p.ring pkt reqId pool)) :
    TxEffect p op ledger out.ring (submissionLog cpu pkt out) := by
  have kept : ∀ entry ∈ out.events.map (TxLog.effect cpu), entry.isNoRoom = false :=
    noRoom_map_effect fun event member => (quiet event member).2.2
  have freedNone : releases (out.events.map (.effect cpu)) = [] := by
    rw [freed_map_effect, quiet.freed]
  have consumedNone : (out.events.map (TxLog.effect cpu)).countP TxLog.isConsumed = 0 := by
    rw [consumed_map_effect, quiet.consumed]
  rcases outcome with ⟨none, ring⟩ | ⟨reqId, pool, found, given, ring⟩
  · have entries : submissionLog cpu pkt out = out.events.map (.effect cpu) := by
      rw [submissionLog, none]
      rfl
    rw [ring, entries]
    exact TxEffect.unchanged tracks unlocked normal
      ⟨acceptances_map_effect cpu out.events, freedNone, consumedNone, kept⟩ p.ring.hw
  · have entries : submissionLog cpu pkt out =
        .accepted cpu reqId pkt.netbuf :: out.events.map (.effect cpu) := by
      rw [submissionLog, given]
      rfl
    have took : acceptances (submissionLog cpu pkt out) = [(reqId, ⟨pkt.netbuf, cpu⟩)] := by
      rw [entries]
      exact congrArg _ (acceptances_map_effect cpu out.events)
    obtain ⟨isFree, bound, tracked⟩ := txTrack_tracks tracks found cpu pkt
    have fields : out.ring.ringLock = false ∧ out.ring.sqDepth = p.ring.sqDepth ∧
        out.ring.cqDepth = p.ring.cqDepth ∧
        out.ring.sqTail = p.ring.sqTail.advance p.ring.sqDepth ∧
        out.ring.cqHead = p.ring.cqHead ∧
        Tracks out.ring (store ledger reqId (.active ⟨pkt.netbuf, cpu⟩)) := by
      rcases ring with ring | ring
      · rw [ring]
        exact ⟨unlocked, rfl, rfl, rfl, rfl, tracked⟩
      · rw [ring]
        exact ⟨unlocked, rfl, rfl, rfl, rfl, tracked⟩
    exact {
      unlocked := fields.1
      sqDepth := fields.2.1
      cqDepth := fields.2.2.1
      acts := ⟨[.accept reqId ⟨pkt.netbuf, cpu⟩], _,
        .single (.accept _ isFree) (allows reqId bound), fields.2.2.2.2.2, took,
        by rw [entries]; exact freedNone⟩
      took := Or.inr ⟨reqId, by rw [took, offers.1, offers.2], isFree, bound⟩
      kept := by
        rw [entries]
        exact List.forall_mem_cons.mpr ⟨rfl, kept⟩
      sent := by
        intro count located
        rw [normal, took, fields.2.2.2.1, located, Cursor.advance_after]
        rfl
      done := by
        intro count located
        rw [normal, fields.2.2.2.2.1, located, entries, List.countP_cons, consumedNone]
        rfl }

theorem poll_effect {cpu budget : Nat} {changing : List TxMem} {settled : TxMem}
    {next : Ring} {events : List Event} (tracks : Tracks p.ring ledger)
    (reaped : Reaps cpu (NamedIn p cpu budget (pollViews p.ring changing settled)) p.ring events next)
    (unlocked : next.ringLock = false) :
    TxEffect p (.poll cpu budget changing settled) ledger next
      (events.map (.effect cpu)) := by
  obtain ⟨frame, ⟨actions, after, steps, tracked, released, kept⟩, moved⟩ := reaped ledger tracks
  have noneAccepted : entered actions = [] := by
    refine List.filterMap_eq_nil_iff.mpr fun action member => ?_
    have never := (steps.invariant (fun _ => True)
      (fun action => ∀ id item, action ≠ .accept id item)
      (fun _ ok _ => ⟨fun id item same => by rw [same] at ok; exact ok, trivial⟩) trivial).1
        action member
    cases action with
    | accept id item => exact absurd rfl (never id item)
    | park id keeper => rfl
    | release id item => rfl
  exact {
    unlocked := unlocked
    sqDepth := frame.sqDepth
    cqDepth := frame.cqDepth
    acts := ⟨actions, after, steps, tracked,
      by rw [acceptances_map_effect, noneAccepted], by rw [freed_map_effect, released]⟩
    took := Or.inl (acceptances_map_effect cpu events)
    kept := noRoom_map_effect kept
    sent := by
      intro count located
      obtain ⟨_, _, _, _, _, _, _, _, rfl⟩ := frame
      rw [acceptances_map_effect]
      exact located
    done := by
      intro count located
      rw [consumed_map_effect]
      exact moved count located }

theorem txApply_effect (tracks : Tracks p.ring ledger) (unlocked : p.ring.ringLock = false)
    {count : Nat} (located : p.ring.cqHead = Cursor.after p.ring.cqDepth count) (op : TxOp) :
    ∃ next entries, txApply p op = .ok (next, entries) ∧
      TxEffect p op ledger next.ring entries := by
  cases op with
  | submit cpu pkt =>
    obtain ⟨out, ran, none, outcome⟩ := enaTxSubmit_cases p.ring cpu pkt unlocked
    refine ⟨{ p with ring := out.ring }, submissionLog cpu pkt out, ?_, ?_⟩
    · rw [txApply, ran]
      rfl
    have allows : ∀ id, id < p.ring.sqDepth.val →
        OpAllows p (.submit cpu pkt) ledger (.accept id ⟨pkt.netbuf, cpu⟩) :=
      fun id bound => ⟨id, rfl, bound⟩
    refine submission_effect tracks unlocked rfl ⟨rfl, rfl⟩ allows (none ▸ .nil) ?_
    rcases outcome with ⟨_, none, ring⟩ | ⟨reqId, pool, found, _, given, _, _, ring⟩
    · exact Or.inl ⟨none, ring⟩
    · exact Or.inr ⟨reqId, pool, found, given, Or.inl ring⟩
  | llqPush cpu pkt hdrData hdrLen =>
    obtain ⟨out, ran, quiet, outcome⟩ :=
      enaLlqTxPush_cases p.ring cpu pkt hdrData hdrLen unlocked
    refine ⟨{ p with ring := out.ring }, submissionLog cpu pkt out, ?_, ?_⟩
    · rw [txApply, ran]
      rfl
    have allows : ∀ id, id < p.ring.sqDepth.val →
        OpAllows p (.llqPush cpu pkt hdrData hdrLen) ledger
          (.accept id ⟨pkt.netbuf, cpu⟩) :=
      fun id bound => ⟨id, rfl, bound⟩
    refine submission_effect tracks unlocked rfl ⟨rfl, rfl⟩ allows quiet ?_
    rcases outcome with ⟨_, none, ring⟩ | ⟨reqId, pool, found, _, given, ring⟩
    · exact Or.inl ⟨none, ring⟩
    · exact Or.inr ⟨reqId, pool, found, given, ring⟩
  | poll cpu budget changing settled =>
    obtain ⟨ret, next, events, ran⟩ :=
      enaTxPollCompletions_total cpu budget changing settled tracks unlocked located
    obtain ⟨reaped, free⟩ := enaTxPollCompletions_reaps tracks unlocked ran
    refine ⟨next, events.map (.effect cpu), ?_, poll_effect tracks reaped free⟩
    rw [txApply, pollViews, ran]
    rfl
  | reset cpu =>
    obtain ⟨next, events, ran, ⟨actions, after, steps, tracked, released, kept⟩, quiet, free,
      sqDepth, cqDepth, sqTail, cqHead⟩ := enaAdapterInvalidateIoRing_acts tracks unlocked
    refine ⟨{ p with ring := next }, events.map (.effect cpu), ?_, ?_⟩
    · rw [txApply, ran]
      rfl
    exact {
      unlocked := free
      sqDepth := sqDepth
      cqDepth := cqDepth
      acts := ⟨actions, after, steps, tracked,
        by rw [acceptances_map_effect]; exact steps.entered_of_release.symm,
        by rw [freed_map_effect, released]⟩
      took := Or.inl (acceptances_map_effect cpu events)
      kept := noRoom_map_effect kept
      sent := fun count _ => sqTail.trans (Cursor.after_zero _).symm
      done := fun count _ => cqHead.trans (Cursor.after_zero _).symm }
  | createHw cpu dev answers vector =>
    obtain ⟨ret, hw, ran⟩ := createHwOn_hwOnly dev answers vector p.ring
    refine ⟨{ p with ring := { p.ring with hw := hw } }, [], ?_,
      TxEffect.unchanged tracks unlocked rfl quiet_nil hw⟩
    rw [txApply, ran]
    rfl
  | destroyHw cpu answers =>
    obtain ⟨ret, hw, ran⟩ := destroyHwOn_hwOnly answers p.ring
    refine ⟨{ p with ring := { p.ring with hw := hw } }, [], ?_,
      TxEffect.unchanged tracks unlocked rfl quiet_nil hw⟩
    rw [txApply, ran]
    rfl

end Effects

end EnaDriver.Datapath
