import EnaDriver.Admin.EventPoll
import EnaDriver.Datapath.Positions

/-!
# Phase bits of the circular queues

Each queue keeps its phase bit next to its counter and flips it when the counter
enters slot zero.  Between operations the bit is a function of the 16-bit counter:
the parity of the lap, inverted for a queue whose counter starts at zero.  The
event ring may be rebuilt while its poll runs; the poll keeps the mask it started
with, which stays right because a recovery keeps the depth of a ring it finds.
-/

namespace EnaDriver.Admin

open Support.Laps Support.Programs Support.Runs Datapath

/-! ## Admin queues -/

structure AdminQueues.Phased (q : AdminQueues) : Prop where
  aq : q.aq.cursor.InPhase q.aq.depth false
  acq : q.acq.cursor.InPhase q.acq.depth false
  aenq : q.aenq.cursor.InPhase q.aenq.depth true

namespace AdminQueues.Phased

variable {q : AdminQueues}

theorem started (d : Depth) : Cursor.start.InPhase d false := by
  rw [← Cursor.after_zero d]
  exact Cursor.inPhase_after d 0

theorem fresh (aqBuf acqBuf aenqBuf : DmaBuf) (aq acq aenq : Depth) :
    (AdminQueues.fresh aqBuf acqBuf aenqBuf aq acq aenq).Phased where
  aq := started aq
  acq := started acq
  aenq := by
    refine ⟨Nat.lt_of_le_of_lt aenq.le (by decide), ?_⟩
    change true = (true ^^ lapPhase aenq aenq.val)
    rw [lapPhase, Nat.div_self aenq.pos]
    rfl

theorem restartAcq (phased : q.Phased) : q.restartAcq = q := by
  have same : lapPhase q.acq.depth q.acq.cursor.index = q.acq.cursor.phase := by
    rw [phased.acq.2, Bool.false_xor]
  unfold AdminQueues.restartAcq
  rw [same]

theorem takeId (phased : q.Phased) : q.takeId.2.Phased := ⟨phased.aq, phased.acq, phased.aenq⟩

theorem submitted (phased : q.Phased) : q.submitted.Phased := by
  have same : q.submitted = q.takeId.2.advanceAq := by
    unfold AdminQueues.submitted
    rw [phased.takeId.restartAcq, ite_self]
  rw [same]
  exact ⟨phased.aq.advance, phased.acq, phased.aenq⟩

end AdminQueues.Phased

/-- The admin rings, if there are any, are in phase and the event ring has the given
depth. -/
abbrev AtDepth (depth : Depth) (m : Machine) : Prop :=
  m.Queued fun q => q.Phased ∧ q.aenq.depth = depth

theorem phased_stable (depth : Depth) : Stable fun q => q.Phased ∧ q.aenq.depth = depth where
  submitted := by
    rintro q ⟨phased, same⟩
    exact ⟨phased.submitted, (congrArg AdminQueue.depth (submitted_aenq q)).trans same⟩
  advanced := fun q ⟨phased, same⟩ => ⟨⟨phased.aq, phased.acq.advance, phased.aenq⟩, same⟩

variable {depth : Depth} {env : Env} {final m next : Machine} {nesting : Nat}

/-- A recovery leaves rings in phase, and the depth of an event ring that it found. -/
theorem resetAndRecover_atDepth {ret : Int}
    (ran : enaAdapterResetAndRecover env nesting m = .ok (ret, final)) (holds : AtDepth depth m) :
    ∃ after, AtDepth after final ∧ (m.adapter.queues.isSome = true → after = depth) := by
  cases active : m.adapter.recoverActive with
  | true =>
    obtain ⟨_, _, kept⟩ := calm_refused env nesting m ret final ran active
    exact ⟨depth, kept _ (phased_stable depth) holds, fun _ => rfl⟩
  | false =>
    cases nesting with
    | zero => simp [enaAdapterResetAndRecover, active] at ran
    | succ nesting =>
      simp only [enaAdapterResetAndRecover, run_bind, adapter_run, ok_bind, run_ite, active,
        Bool.false_eq_true, if_false] at ran
      obtain ⟨between, _, ⟨_, gone⟩ | ⟨_, same | ⟨t, phys, _, stays⟩⟩⟩ := recoverOnce_rings ran
      · exact ⟨depth, .bare gone, fun _ => rfl⟩
      · exact ⟨depth, holds.congr same, fun _ => rfl⟩
      · refine ⟨m.adapter.depths.2.2, stays _ (phased_stable _) ⟨.fresh _ _ _ _ _ _, rfl⟩, ?_⟩
        intro present
        obtain ⟨q, found⟩ := Option.isSome_iff_exists.mp present
        unfold Adapter.depths
        rw [found]
        exact (holds q found).2

theorem driverExec_atDepth {ctrl : List Nat} {req : AdminReq} {out : Int × Response}
    (ran : driverExec env nesting ctrl req m = .ok (out, final)) (holds : AtDepth depth m) :
    AtDepth depth final := by
  obtain ⟨out, last, executed, ended⟩ := bind_returned ran
  cases ended
  have recovered {start : Machine} {ret : Int} (there : start.adapter.queues.isSome = true)
      (again : enaAdapterResetAndRecover env nesting start = .ok (ret, final))
      (here : AtDepth depth start) : AtDepth depth final := by
    obtain ⟨after, kept, same⟩ := resetAndRecover_atDepth again here
    rw [same there] at kept
    exact kept
  have stable := phased_stable depth
  rcases enaAdminExecCmd_returned executed with ⟨_, rfl⟩ |
    ⟨q, present, ⟨_, _, ret, again⟩ | ⟨status, response, _, _, rfl | ⟨_, ret, again⟩⟩⟩
  · exact holds
  · exact recovered rfl again (.set rfl (stable.submitted q (holds q present)))
  · exact .set rfl (stable.advanced _ (stable.submitted q (holds q present)))
  · exact recovered rfl again (.set rfl (stable.advanced _ (stable.submitted q (holds q present))))

/-! ## Events -/

theorem acknowledge_atDepth {view : AenqView} {entry : Option AenqEntry}
    (ran : aenqAcknowledge (depth.val - 1) view m = .ok (entry, final)) (holds : AtDepth depth m) :
    AtDepth depth final ∧ final.adapter.queues.isSome = true := by
  unfold aenqAcknowledge at ran
  rw [run_bind, adapter_run, ok_bind] at ran
  cases present : m.adapter.queues with
  | none =>
    rw [present] at ran
    cases ran
  | some q =>
    rw [present] at ran
    obtain ⟨phased, same⟩ := holds q present
    dsimp only at ran
    split at ran
    · cases ran
    rw [run_ite] at ran
    split at ran
    · cases ran
      exact ⟨holds, congrArg Option.isSome present⟩
    · cases ran
      refine ⟨.set rfl ⟨⟨phased.aq, phased.acq, ?_⟩, same⟩, rfl⟩
      subst same
      exact phased.aenq.advance

theorem dispatch_atDepth {entry : AenqEntry}
    (ran : aenqDispatch env nesting entry m = .ok ((), final))
    (present : m.adapter.queues.isSome = true) (holds : AtDepth depth m) : AtDepth depth final := by
  unfold aenqDispatch at ran
  rw [run_bind, adapter_run, ok_bind, run_ite] at ran
  split at ran
  · obtain ⟨ret, _, handled, ended⟩ := bind_returned ran
    cases ended
    unfold enaAenqDefaultHandler at handled
    cases group : AenqGroup.ofCode entry.group with
    | fatalError =>
      rw [group] at handled
      obtain ⟨after, kept, same⟩ := resetAndRecover_atDepth handled holds
      rw [same present] at kept
      exact kept
    | _ =>
      rw [group] at handled
      cases handled
      exact holds.congr rfl
  · cases ran
    exact holds

/-- An event is acknowledged with the mask of the depth and handled; a ring that its
recovery builds has that depth again. -/
theorem aenqIteration_atDepth {view : AenqView} {more : Bool}
    (ran : aenqIteration env nesting (depth.val - 1) view m = .ok (more, final))
    (holds : AtDepth depth m) : AtDepth depth final := by
  obtain ⟨entry, last, tested, rest⟩ := bind_returned ran
  obtain ⟨kept, present⟩ := acknowledge_atDepth tested holds
  cases entry with
  | none =>
    cases rest
    exact kept
  | some entry =>
    obtain ⟨_, after, dispatched, ended⟩ := bind_returned rest
    cases ended
    exact dispatch_atDepth dispatched present kept

theorem aenqLoop_atDepth (views : Nat → AenqView) (left : Nat) {i count : Nat}
    (ran : aenqLoop env nesting (depth.val - 1) views left i m = .ok (count, final))
    (holds : AtDepth depth m) : AtDepth depth final := by
  induction left generalizing i m count with
  | zero =>
    cases ran
    exact holds
  | succ left ih =>
    obtain ⟨more, next, iterated, rest⟩ := bind_returned ran
    have kept := aenqIteration_atDepth iterated holds
    rw [run_ite] at rest
    split at rest
    · obtain ⟨_, _, looped, ended⟩ := bind_returned rest
      cases ended
      exact ih looped kept
    · cases rest
      exact kept

theorem poll_atDepth {views : Nat → AenqView} {maxEvents : Nat} {ret : Int}
    (ran : enaAdminAenqPoll env nesting views maxEvents m = .ok (ret, final))
    (holds : AtDepth depth m) : AtDepth depth final := by
  unfold enaAdminAenqPoll at ran
  rw [run_bind, adapter_run, ok_bind] at ran
  cases present : m.adapter.queues with
  | none =>
    rw [present] at ran
    cases ran
    exact holds
  | some q =>
    rw [present] at ran
    obtain ⟨count, _, looped, ended⟩ := bind_returned ran
    cases ended
    rw [(holds q present).2] at looped
    exact aenqLoop_atDepth views maxEvents looped holds

/-! ## The system -/

/-- The operations on the admin rings.  The rest of the driver leaves them alone. -/
inductive AdminOp
  | init (aqDepth acqDepth aenqDepth : UInt16)
  | fini
  | exec (nesting : Nat) (ctrl : List Nat) (req : AdminReq)
  | recover (nesting : Nat)
  | poll (nesting : Nat) (views : Nat → AenqView) (maxEvents : Nat)
  | other (change : Machine → Machine)
    (keeps : ∀ m, (change m).adapter.queues = m.adapter.queues)

def AdminOp.program (env : Env) : AdminOp → Driver Unit
  | .init aqDepth acqDepth aenqDepth => do
    let _ ← enaAdminInit env aqDepth acqDepth aenqDepth
  | .fini => enaAdminFini
  | .exec nesting ctrl req => do
    let _ ← driverExec env nesting ctrl req
  | .recover nesting => do
    let _ ← enaAdapterResetAndRecover env nesting
  | .poll nesting views maxEvents => do
    let _ ← enaAdminAenqPoll env nesting views maxEvents
  | .other change _ => modify change

def adminStep (env : Env) (m : Machine) (op : AdminOp) : Except Fault Machine := do
  let (_, next) ← op.program env m
  return next

theorem init_atDepth {aqDepth acqDepth aenqDepth : UInt16} {ret : Int}
    (ran : enaAdminInit env aqDepth acqDepth aenqDepth m = .ok (ret, final))
    (holds : AtDepth depth m) : ∃ after, AtDepth after final := by
  rcases enaAdminInit_cases env aqDepth acqDepth aenqDepth m with ⟨_, same⟩ | ⟨_, same⟩ |
    ⟨effects, _, same⟩ | ⟨aq, acq, aenq, a, b, c, _, _, _, same⟩
  · cases ran.symm.trans same
    exact ⟨depth, holds⟩
  · cases ran.symm.trans same
    exact ⟨depth, .bare (released_bare m)⟩
  · cases ran.symm.trans same
    exact ⟨depth, .bare (released_bare m)⟩
  · cases ran.symm.trans same
    exact ⟨aenq, .set rfl ⟨.fresh _ _ _ _ _ _, rfl⟩⟩

theorem adminStep_atDepth {op : AdminOp} (stepped : adminStep env m op = .ok next)
    (holds : AtDepth depth m) : ∃ after, AtDepth after next := by
  obtain ⟨⟨_, last⟩, ran, ended⟩ := bind_ok stepped
  cases ended
  cases op with
  | init aqDepth acqDepth aenqDepth =>
    obtain ⟨ret, _, ran, ended⟩ := bind_returned ran
    cases ended
    exact init_atDepth ran holds
  | fini =>
    cases ran.symm.trans (enaAdminFini_run m)
    exact ⟨depth, .bare rfl⟩
  | exec nesting ctrl req =>
    obtain ⟨out, _, ran, ended⟩ := bind_returned ran
    cases ended
    exact ⟨depth, driverExec_atDepth ran holds⟩
  | recover nesting =>
    obtain ⟨ret, _, ran, ended⟩ := bind_returned ran
    cases ended
    obtain ⟨after, kept, _⟩ := resetAndRecover_atDepth ran holds
    exact ⟨after, kept⟩
  | poll nesting views maxEvents =>
    obtain ⟨ret, _, ran, ended⟩ := bind_returned ran
    cases ended
    exact ⟨depth, poll_atDepth ran holds⟩
  | other change keeps =>
    cases ran
    exact ⟨depth, holds.congr (keeps m)⟩

/-- In every run that starts without admin rings the rings that exist are in phase. -/
theorem adminRun_phased {ops : List AdminOp} (bare : m.adapter.queues = none)
    (ran : run (adminStep env) m ops = .ok final) {q : AdminQueues}
    (present : final.adapter.queues = some q) : q.Phased := by
  have kept := run_kept (fun m => ∃ depth, AtDepth depth m)
    (fun _ _ _ holds stepped => holds.elim fun _ holds => adminStep_atDepth stepped holds)
    ⟨.four, .bare bare⟩ ran
  obtain ⟨depth, holds⟩ := kept
  exact (holds q present).1

def Ring.Phased (r : Ring) : Prop :=
  r.sqTail.InPhase r.sqDepth false ∧ r.cqHead.InPhase r.cqDepth false

theorem located_phased {d cq : Depth} {r : Ring} {sent done : Nat} (located : Located d cq r sent done) :
    Ring.Phased r := by
  unfold Ring.Phased
  rw [located.sqDepth, located.cqDepth, located.sqTail, located.cqHead]
  exact ⟨Cursor.inPhase_after d sent, Cursor.inPhase_after cq done⟩

/-- After every history of a transmit ring, of a receive ring and of the admin rings,
each phase bit is a function of its counter.  So the phase that a command recomputes
when the ids restart is the one expected already. -/
theorem phases_follow_counters {qid : Nat} {sqDepth cqDepth : UInt16}
    {memory : Nat → Option Nat} {txRing rxRing : Ring}
    (txBuilt : enaRingAlloc qid .tx sqDepth cqDepth memory = .ok txRing)
    (rxBuilt : enaRingAlloc qid .rx sqDepth cqDepth memory = .ok rxRing)
    (txQueue : Option TxQueue) (rxQueue : Option RxQueue) (dropCb refillCb : Bool)
    (txOps : List TxOp) (rxOps : List RxOp) (bare : m.adapter.queues = none) {ops : List AdminOp}
    (ran : run (adminStep env) m ops = .ok final) :
    (∃ tally, run txTally ⟨⟨txRing, txQueue⟩, 0, 0⟩ txOps = .ok tally ∧ Ring.Phased tally.port.ring) ∧
    (∃ tally, run rxTally ⟨⟨rxRing.withCallbacks dropCb refillCb, rxQueue⟩, 0, 0⟩ rxOps = .ok tally ∧
      Ring.Phased tally.port.ring) ∧
    ∀ q, final.adapter.queues = some q → q.Phased ∧ q.takeId.2.restartAcq = q.takeId.2 := by
  refine ⟨?_, ?_, fun q present => ?_⟩
  · obtain ⟨tally, sent, _, _, located⟩ := txTally_run txBuilt txQueue txOps
    exact ⟨tally, sent, located_phased located⟩
  · obtain ⟨tally, posted, _, _, located⟩ := rxTally_run rxBuilt dropCb refillCb rxQueue rxOps
    exact ⟨tally, posted, located_phased located⟩
  · have phased := adminRun_phased bare ran present
    exact ⟨phased, phased.takeId.restartAcq⟩

/-- Initialised admin rings after one command, next to an idle ring of each direction. -/
theorem phases_follow_counters_command :
    ∃ final q, run (adminStep .obliging) ⟨.scaffold plainDevice, ⟨.running, 0, 0⟩, [], [], []⟩
        [.init 4 4 4, .exec 1 [] (destroySqReq 0)] = .ok final ∧
      final.adapter.queues = some q ∧ q.acq.cursor = ⟨1, true⟩ ∧ q.Phased := by
  have observed : (run (adminStep .obliging) ⟨.scaffold plainDevice, ⟨.running, 0, 0⟩, [], [], []⟩
      [.init 4 4 4, .exec 1 [] (destroySqReq 0)]).toOption.map
        (fun m => m.adapter.queues.map fun q => q.acq.cursor) = some (some ⟨1, true⟩) := by
    decide +kernel
  obtain ⟨final, ran, seen⟩ := ok_of_observed observed
  obtain ⟨q, present, moved⟩ := Option.map_eq_some_iff.mp seen
  obtain ⟨_, _, phased⟩ := phases_follow_counters smallTxRing_built smallRxRing_built none none true
    true [] [] rfl ran
  exact ⟨final, q, ran, present, moved, (phased q present).1⟩

end EnaDriver.Admin
