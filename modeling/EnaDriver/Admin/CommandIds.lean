import EnaDriver.Admin.Exec
import EnaDriver.Support.Runs

/-!
# Command ids and completion slots

An honest device that answers late.  For its command number `n` since the
initialisation it writes one completion with the id of that command into slot
`n` modulo the depth, with the phase of that lap, before one of the reads that
the driver still makes.  The id has 12 bits, the position 16 and the phase one,
and when the ids start over the driver clears the slot it is about to poll.  A
cleared slot carries phase zero, so in a lap of phase zero it looks like a
completion.
-/

namespace EnaDriver.Admin

open Support.Laps Support.Windows Support.Programs
open Support.Runs Datapath

/-! ## The device -/

/-- One command together with its completion: the status, the response and the
read of the driver before which it lands. -/
structure SlowCommand where
  req : AdminReq
  fits : req.req.length ≤ aqEntrySize
  status : UInt8
  response : Response
  delay : Nat
  within : delay < polls req

/-- A command queue with its completion memory, and the number of commands that
the device has seen. -/
structure SlowQueue where
  adapter : Adapter
  acq : AcqMem
  acqDepth : Depth
  issued : Nat

def SlowCommand.completion (c : SlowCommand) (d : Depth) (n commandId : Nat) : AcqEntry :=
  ⟨commandId, c.status.toNat, phaseFlag (lapPhase d n), c.response⟩

/-- The completion memory once the device has answered. -/
def SlowQueue.written (w : SlowQueue) (c : SlowCommand) (commandId : Nat) : AcqMem :=
  store w.acq (w.issued % w.acqDepth.val) (c.completion w.acqDepth w.issued commandId)

/-- The queue as the driver accesses it while the device serves one command.
The completion lands before the doorbell of the next command at the latest. -/
def slowIo (c : SlowCommand) : AdminIo (Prog SlowQueue Fault) where
  adapter := do
    let w ← get
    return w.adapter
  modify := fun change => modify fun w => { w with adapter := change w.adapter }
  regWrite32 := fun _ _ => return ()
  clearAcq := fun slot => modify fun w => { w with acq := store w.acq slot .zero }
  ringAqDb := fun entry _ => do
    let w ← get
    let written := w.written c entry.commandId
    modify fun w => { w with acq := written, issued := w.issued + 1 }
    return fun k => if k < c.delay then w.acq else written

section Access

variable (c : SlowCommand) (w : SlowQueue)

@[simp] theorem slowIo_adapter : (slowIo c).adapter w = .ok (w.adapter, w) := rfl

@[simp] theorem slowIo_modify (change : Adapter → Adapter) :
    (slowIo c).modify change w = .ok ((), ⟨change w.adapter, w.acq, w.acqDepth, w.issued⟩) := rfl

@[simp] theorem slowIo_regWrite32 (offset value : Nat) :
    (slowIo c).regWrite32 offset value w = .ok ((), w) := rfl

@[simp] theorem slowIo_clearAcq (slot : Nat) :
    (slowIo c).clearAcq slot w = .ok ((), ⟨w.adapter, store w.acq slot .zero, w.acqDepth, w.issued⟩) :=
  rfl

@[simp] theorem slowIo_ringAqDb (entry : AqEntry) (tail : Nat) :
    (slowIo c).ringAqDb entry tail w =
      .ok (fun k => if k < c.delay then w.acq else w.written c entry.commandId,
        ⟨w.adapter, w.written c entry.commandId, w.acqDepth, w.issued + 1⟩) := rfl

end Access

/-- One command of a history.  No initialisation lies between the commands of a
history, so a status that asks for a recovery finds one running. -/
def slowStep (w : SlowQueue) (c : SlowCommand) : Except Fault SlowQueue := do
  let (_, next) ← enaAdminExecCmd (slowIo c) (pure (-EBUSY)) c.req w
  return next

/-- What the caller is to get: the status and the response of this command. -/
def SlowCommand.answer (c : SlowCommand) (commandId : Nat) : ExecOut :=
  ⟨-(c.status.toNat : Int), copiedResponse c.req.respCap c.response, some commandId⟩

/-! ## Polling -/

variable {d : Depth} {n slot : Nat} {q : AdminQueues} {views : AcqViews} {w : SlowQueue}
  (c : SlowCommand)

theorem pollAcq_waits {phase : Bool} {wait polls i : Nat}
    (early : ∀ k, i ≤ k → k < i + wait → (views k slot).phase ≠ phase)
    (found : (views (i + wait) slot).phase = phase) (budget : wait < polls) :
    pollAcq phase slot views polls i = some (i + wait) := by
  induction wait generalizing polls i with
  | zero =>
    obtain ⟨rest, rfl⟩ : ∃ rest, polls = rest + 1 := ⟨polls - 1, by omega⟩
    simp only [Nat.add_zero] at found ⊢
    simp [pollAcq, found]
  | succ wait ih =>
    obtain ⟨rest, rfl⟩ : ∃ rest, polls = rest + 1 := ⟨polls - 1, by omega⟩
    have here := early i (Nat.le_refl i) (by omega)
    have later := @ih rest (i + 1) (fun k low high => early k (by omega) (by omega))
      (by rw [show i + 1 + wait = i + (wait + 1) by omega]; exact found) (by omega)
    simp only [pollAcq, here, if_false, later]
    congr 1
    omega

theorem pollAcq_now {phase : Bool} {polls : Nat} (found : (views 0 slot).phase = phase)
    (budget : 0 < polls) :
    pollAcq phase slot views polls 0 = some 0 :=
  pollAcq_waits (fun k _ high => absurd high (by omega)) found budget

/-! ## What a history leaves -/

/-- The queue after `n` commands since its initialisation: the id, the position
and the phase are functions of `n`, and every slot of the lap ahead still
carries the phase of the lap before. -/
structure SlowAt (d : Depth) (n : Nat) (w : SlowQueue) : Prop where
  queues : ∃ q, w.adapter.queues = some q ∧ q.nextCommandId = n % 4095 + 1 ∧ q.acq.depth = d ∧
    q.acq.cursor = Cursor.after d n
  alive : w.adapter.state ≠ .error
  unlocked : w.adapter.adminLock = false
  depth : w.acqDepth = d
  issued : w.issued = n
  stale : ∀ k, n ≤ k → k < n + d.val → (w.acq (k % d.val)).phase = !lapPhase d k

/-- The ids start over with a used completion ring. -/
def IdsRestart (n : Nat) : Prop := n % 4095 = 0 ∧ 0 < n % 65536

def ClearedLooksDone (d : Depth) (n : Nat) : Prop := IdsRestart n ∧ lapPhase d n = false

instance (n : Nat) : Decidable (IdsRestart n) := inferInstanceAs (Decidable (_ ∧ _))

instance (d : Depth) (n : Nat) : Decidable (ClearedLooksDone d n) :=
  inferInstanceAs (Decidable (_ ∧ _))

/-- The ids run from 1 to 4095 and start over. -/
theorem idAfter_eq (id : q.nextCommandId = n % 4095 + 1) :
    q.idAfter = (n + 1) % 4095 + 1 := by
  have own : q.commandId = n % 4095 + 1 := by rw [AdminQueues.commandId, id, if_neg (by omega)]
  have masked : (q.commandId + 1) &&& commandIdMask = (n % 4095 + 1 + 1) % 4096 := by
    rw [own]
    exact Nat.and_two_pow_sub_one_eq_mod _ 12
  unfold AdminQueues.idAfter
  rw [masked]
  dsimp only
  split <;> omega

theorem id_masked (n : Nat) : (n % 4095 + 1) &&& commandIdMask = n % 4095 + 1 := by
  have masked : (n % 4095 + 1) &&& commandIdMask = (n % 4095 + 1) % 4096 :=
    Nat.and_two_pow_sub_one_eq_mod _ 12
  rw [masked]
  omega

/-- The consumer position decides alone whether the slot is cleared. -/
theorem restart_iff (at_ : q.acq.cursor = Cursor.after d n) :
    (n % 4095 + 1 = 1 ∧ 0 < q.acq.cursor.index) ↔ IdsRestart n := by
  rw [at_]
  simp [IdsRestart, Cursor.after]

/-- The recomputed phase is the one already expected. -/
theorem restartAcq_eq (depth : q.acq.depth = d) (at_ : q.acq.cursor = Cursor.after d n) :
    q.restartAcq = q := by
  have same : lapPhase q.acq.depth q.acq.cursor.index = q.acq.cursor.phase := by
    rw [at_, depth]
    exact lapPhase_wrap d n
  unfold AdminQueues.restartAcq
  rw [same]

/-- The completion memory that the command number `n` polls. -/
def clearedAt (d : Depth) (n : Nat) (mem : AcqMem) : AcqMem :=
  if IdsRestart n then store mem (n % d.val) .zero else mem

def slowOutcome (d : Depth) (n : Nat) (c : SlowCommand) : ExecOut :=
  if ClearedLooksDone d n ∧ 1 < c.delay then .fails EIO else c.answer (n % 4095 + 1)

theorem judge_completion (d : Depth) (n : Nat) :
    judge (n % 4095 + 1) c.req.respCap (c.completion d n (n % 4095 + 1)) =
      c.answer (n % 4095 + 1) := by
  simp [judge, SlowCommand.completion, SlowCommand.answer, id_masked]

theorem judge_zero (n respCap : Nat) : judge (n % 4095 + 1) respCap .zero = .fails EIO := by
  simp [judge, AcqEntry.zero]

theorem slow_poll {mem : AcqMem}
    (stale : (mem (n % d.val)).phase = !lapPhase d n) (views : AcqViews)
    (shown : ∀ k, views k (n % d.val) = if k < c.delay then clearedAt d n mem (n % d.val)
      else c.completion d n (n % 4095 + 1)) :
    ∃ i, pollAcq (lapPhase d n) (n % d.val) views (polls c.req) 0 = some i ∧
      judge (n % 4095 + 1) c.req.respCap (views (i + 1) (n % d.val)) = slowOutcome d n c := by
  have completed : (c.completion d n (n % 4095 + 1)).phase = lapPhase d n := phaseFlag_testBit _
  by_cases looks : ClearedLooksDone d n
  · -- the cleared slot carries the expected phase, so the first read ends the poll
    have zero : clearedAt d n mem (n % d.val) = .zero := by
      rw [clearedAt, if_pos looks.1, store_same]
    have first : (views 0 (n % d.val)).phase = lapPhase d n := by
      rw [shown]
      split
      · rw [zero, looks.2]
        rfl
      · exact completed
    refine ⟨0, pollAcq_now first (Nat.lt_of_le_of_lt (Nat.zero_le _) c.within), ?_⟩
    rw [shown]
    by_cases late : 1 < c.delay
    · rw [if_pos late, zero, judge_zero, slowOutcome, if_pos ⟨looks, late⟩]
    · rw [if_neg late, judge_completion, slowOutcome, if_neg (fun both => late both.2)]
  · -- until the completion lands the slot carries the other phase
    have other : (clearedAt d n mem (n % d.val)).phase ≠ lapPhase d n := by
      unfold clearedAt
      split
      · rename_i restarts
        have phase : lapPhase d n = true := by
          cases phase : lapPhase d n with
          | true => rfl
          | false => exact absurd ⟨restarts, phase⟩ looks
        rw [store_same, phase]
        decide
      · rw [stale]
        cases lapPhase d n <;> decide
    have found := @pollAcq_waits (n % d.val) views (lapPhase d n) c.delay (polls c.req) 0
      (fun k _ early => by rw [shown, if_pos (by omega)]; exact other)
      (by rw [shown, if_neg (by omega)]; exact completed) c.within
    refine ⟨0 + c.delay, found, ?_⟩
    rw [shown, if_neg (by omega), judge_completion, slowOutcome, if_neg (fun both => looks both.1)]

/-- The rings after the id of command number `n` is taken. -/
def AdminQueues.withNextId (q : AdminQueues) (n : Nat) : AdminQueues :=
  { q with nextCommandId := (n + 1) % 4095 + 1, idBound := by omega }

def SlowQueue.afterCommand (w : SlowQueue) (d : Depth) (n : Nat) (q : AdminQueues)
    (c : SlowCommand) : SlowQueue where
  adapter := w.adapter.setQueues (q.withNextId n).advanceAq.advanceAcq
  acq := store (clearedAt d n w.acq) (n % d.val) (c.completion d n (n % 4095 + 1))
  acqDepth := w.acqDepth
  issued := n + 1

theorem restartIds_slow (w : SlowQueue) (depth : q.acq.depth = d)
    (at_ : q.acq.cursor = Cursor.after d n) :
    restartIds (slowIo c) (n % 4095 + 1) q w =
      .ok (q, ⟨w.adapter, clearedAt d n w.acq, w.acqDepth, w.issued⟩) := by
  have slot : q.acqSlot = n % d.val := by
    rw [AdminQueues.acqSlot, at_, depth, Cursor.slot_after]
  unfold restartIds clearedAt
  by_cases restarts : IdsRestart n
  · simp [(restart_iff at_).mpr restarts, restarts, slowIo, restartAcq_eq depth at_, slot]
  · rw [if_neg (fun holds => restarts ((restart_iff at_).mp holds)), if_neg restarts]
    rfl

theorem awaitCompletion_slow {commandId i : Nat} {req : AdminReq} (w : SlowQueue)
    (found : pollAcq q.acq.cursor.phase slot views (polls req) 0 = some i) :
    awaitCompletion (slowIo c) q slot commandId req views w =
      .ok (judge commandId req.respCap (views (i + 1) slot),
        ⟨w.adapter.setQueues q.advanceAcq, w.acq, w.acqDepth, w.issued⟩) := by
  unfold awaitCompletion
  rw [found]
  simp [AdminIo.setQueues]

theorem enaAdminExecLocked_slow (id : q.nextCommandId = n % 4095 + 1) (depth : q.acq.depth = d)
    (at_ : q.acq.cursor = Cursor.after d n) (devDepth : w.acqDepth = d) (issued : w.issued = n)
    (stale : (w.acq (n % d.val)).phase = !lapPhase d n) :
    enaAdminExecLocked (slowIo c) q c.req w = .ok (slowOutcome d n c, w.afterCommand d n q c) := by
  have taken : q.takeId = (n % 4095 + 1, q.withNextId n) := by
    simp only [AdminQueues.takeId, AdminQueues.commandId, id, idAfter_eq id, Nat.add_one_ne_zero,
      if_false, AdminQueues.withNextId]
  have slot : (q.withNextId n).acqSlot = n % d.val := by
    change q.acq.depth.slot q.acq.cursor.index = _
    rw [at_, depth, Cursor.slot_after]
  have phase : (q.withNextId n).advanceAq.acq.cursor.phase = lapPhase d n := by
    change q.acq.cursor.phase = _
    rw [at_]
    rfl
  subst devDepth issued
  obtain ⟨i, found, judged⟩ := slow_poll c stale (fun k =>
    if k < c.delay then clearedAt w.acqDepth w.issued w.acq else
      store (clearedAt w.acqDepth w.issued w.acq) (w.issued % w.acqDepth.val)
        (c.completion w.acqDepth w.issued (w.issued % 4095 + 1)))
    (by
      intro k
      split
      · rfl
      · exact store_same _ _ _)
  rw [← phase] at found
  unfold enaAdminExecLocked
  rw [if_neg (Nat.not_lt.mpr c.fits), taken]
  simp only [run_bind]
  rw [restartIds_slow c w (q := q.withNextId w.issued) depth at_]
  simp only [ok_bind, AdminIo.setQueues, slowIo_modify, slowIo_ringAqDb, slot]
  rw [← judged]
  exact awaitCompletion_slow c _ found

/-! ## One command -/

/-- The completion memory after one more command, one lap further on. -/
theorem stale_next {mem : AcqMem}
    (stale : ∀ k, n ≤ k → k < n + d.val → (mem (k % d.val)).phase = !lapPhase d k)
    (c : SlowCommand) (commandId : Nat) {k : Nat} (low : n + 1 ≤ k) (high : k < n + 1 + d.val) :
    (store (clearedAt d n mem) (n % d.val) (c.completion d n commandId) (k % d.val)).phase =
      !lapPhase d k := by
  by_cases last : k = n + d.val
  · rw [last, Nat.add_mod_right, store_same, lapPhase_add_depth, Bool.not_not]
    exact phaseFlag_testBit _
  have differs : k % d.val ≠ n % d.val := by
    intro same
    have gap : (k - n) % d.val = 0 := Nat.sub_mod_eq_zero_of_mod_eq same
    rw [Nat.mod_eq_of_lt (by omega)] at gap
    omega
  have kept : clearedAt d n mem (k % d.val) = mem (k % d.val) := by
    unfold clearedAt
    split
    · exact store_other _ _ differs
    · rfl
  rw [store_other _ _ differs, kept]
  exact stale k (by omega) (by omega)

theorem enaAdminLockTake_slow (unlocked : w.adapter.adminLock = false) :
    enaAdminLockTake (slowIo c) w =
      .ok ((), ⟨w.adapter.setLock true, w.acq, w.acqDepth, w.issued⟩) := by
  simp [enaAdminLockTake, unlocked]

theorem SlowAt.slow_exec (at_ : SlowAt d n w) (c : SlowCommand)
    (recover : Prog SlowQueue Fault Int) :
    ∃ next, SlowAt d (n + 1) next ∧
      enaAdminExecCmd (slowIo c) recover c.req w =
        if (slowOutcome d n c).ret = -ETIMEDOUT then
          recover next >>= fun out => .ok (slowOutcome d n c, out.2)
        else .ok (slowOutcome d n c, next) := by
  obtain ⟨q, present, id, depth, cursor⟩ := at_.queues
  have stale := at_.stale n (Nat.le_refl n) (Nat.lt_add_of_pos_right d.pos)
  have ran := enaAdminExecLocked_slow (w := ⟨w.adapter.setLock true, w.acq, w.acqDepth, w.issued⟩)
    c id depth cursor at_.depth at_.issued stale
  refine ⟨⟨((w.adapter.setLock true).setQueues (q.withNextId n).advanceAq.advanceAcq).setLock false,
    store (clearedAt d n w.acq) (n % d.val) (c.completion d n (n % 4095 + 1)), w.acqDepth, n + 1⟩,
    ?_, ?_⟩
  · refine ⟨⟨_, rfl, rfl, depth, ?_⟩, at_.alive, rfl, at_.depth, rfl, ?_⟩
    · change q.acq.cursor.advance q.acq.depth = _
      rw [cursor, depth, Cursor.advance_after]
    · intro k low high
      exact stale_next at_.stale c _ low high
  · unfold enaAdminExecCmd
    simp only [run_bind, slowIo_adapter, ok_bind, present, if_neg at_.alive,
      enaAdminLockTake_slow c at_.unlocked, ran, enaAdminLockDrop, slowIo_modify, run_ite, run_pure]
    rfl

/-! ## Histories -/

theorem slowStep_at (at_ : SlowAt d n w) (c : SlowCommand) :
    ∃ next, slowStep w c = .ok next ∧ SlowAt d (n + 1) next := by
  obtain ⟨next, after, ran⟩ := at_.slow_exec c (pure (-EBUSY))
  refine ⟨next, ?_, after⟩
  unfold slowStep
  rw [ran]
  split <;> rfl

theorem slowRun_at (at_ : SlowAt d n w) (history : List SlowCommand) :
    ∃ last, run slowStep w history = .ok last ∧ SlowAt d (n + history.length) last := by
  induction history generalizing n w with
  | nil => exact ⟨w, rfl, at_⟩
  | cons c rest ih =>
    obtain ⟨next, stepped, after⟩ := slowStep_at at_ c
    obtain ⟨last, ran, reached⟩ := ih after
    refine ⟨last, (run_cons stepped rest).trans ran, ?_⟩
    rw [List.length_cons, Nat.add_comm rest.length 1, ← Nat.add_assoc]
    exact reached

/-- The queue right after an initialisation: cleared completion memory, and a
device that has seen no command. -/
def SlowQueue.start (a : Adapter) (d : Depth) : SlowQueue := ⟨a, fun _ => .zero, d, 0⟩

/-- A successful initialisation leaves the queue at the start of its history. -/
theorem slowAt_start {env : Env} {aqDepth acqDepth aenqDepth : UInt16} {m started : Machine}
    (initialised : enaAdminInit env aqDepth acqDepth aenqDepth m = .ok (0, started))
    (accepted : Depth.ofRaw? acqDepth = some d) (unlocked : m.adapter.adminLock = false) :
    SlowAt d 0 (.start started.adapter d) := by
  rcases enaAdminInit_cases env aqDepth acqDepth aenqDepth m with
    ⟨_, ran⟩ | ⟨_, ran⟩ | ⟨_, _, ran⟩ | ⟨aq, acq, aenq, a, b, c, _, found, _, ran⟩
  · cases ran.symm.trans initialised
  · cases ran.symm.trans initialised
  · cases ran.symm.trans initialised
  · cases ran.symm.trans initialised
    cases found.symm.trans accepted
    have free : m.released.adapter.adminLock = false := by
      unfold Machine.released
      split
      · exact unlocked
      · exact unlocked
    refine ⟨⟨_, rfl, rfl, rfl, (Cursor.after_zero d).symm⟩, ?_, free, rfl, rfl, ?_⟩
    · exact fun same => EnaState.noConfusion same
    · intro k _ high
      rw [lapPhase_of_lt d (by omega)]
      change AcqEntry.zero.phase = false
      decide

/-! ## The contract of a command -/

def AnswersOwn (recover : Prog SlowQueue Fault Int) (w : SlowQueue) (n : Nat) (c : SlowCommand) :
    Prop :=
  ∃ next, enaAdminExecCmd (slowIo c) recover c.req w = .ok (c.answer (n % 4095 + 1), next)

/-- The outcome is the answer unless the cleared slot is taken for it. -/
theorem slowOutcome_eq_iff (d : Depth) (n : Nat) (c : SlowCommand) :
    slowOutcome d n c = c.answer (n % 4095 + 1) ↔ (ClearedLooksDone d n → c.delay ≤ 1) := by
  unfold slowOutcome
  split
  · rename_i both
    constructor
    · intro same
      cases congrArg ExecOut.outCommandId same
    · intro early
      exact absurd (early both.1) (Nat.not_le.mpr both.2)
  · rename_i apart
    exact ⟨fun _ looks => Nat.not_lt.mp fun late => apart ⟨looks, late⟩, fun _ => rfl⟩

theorem SlowAt.answersOwn_iff (at_ : SlowAt d n w) (c : SlowCommand)
    {recover : Prog SlowQueue Fault Int} (returns : ∀ state, ∃ out, recover state = .ok out) :
    AnswersOwn recover w n c ↔ (ClearedLooksDone d n → c.delay ≤ 1) := by
  obtain ⟨next, _, ran⟩ := at_.slow_exec c recover
  have ended : ∃ last, enaAdminExecCmd (slowIo c) recover c.req w = .ok (slowOutcome d n c, last) := by
    rw [ran]
    split
    · obtain ⟨out, recovered⟩ := returns next
      rw [recovered]
      exact ⟨out.2, rfl⟩
    · exact ⟨next, rfl⟩
  obtain ⟨last, ended⟩ := ended
  rw [← slowOutcome_eq_iff]
  constructor
  · rintro ⟨other, answered⟩
    exact congrArg Prod.fst (Except.ok.inj (ended.symm.trans answered))
  · intro same
    exact ⟨last, by rw [ended, same]⟩

/-- For every depth of the rings, every number of commands since the
initialisation and every delay, a command gets its own answer exactly if its
completion lands by the second read whenever a cleared slot carries the phase
it waits for. -/
theorem execCmd_answersOwn_iff {env : Env} {aqDepth acqDepth aenqDepth : UInt16}
    {m started : Machine} {d : Depth}
    (initialised : enaAdminInit env aqDepth acqDepth aenqDepth m = .ok (0, started))
    (accepted : Depth.ofRaw? acqDepth = some d) (unlocked : m.adapter.adminLock = false)
    (history : List SlowCommand) (c : SlowCommand) {recover : Prog SlowQueue Fault Int}
    (returns : ∀ state, ∃ out, recover state = .ok out) :
    ∃ w, run slowStep (.start started.adapter d) history = .ok w ∧
      (AnswersOwn recover w history.length c ↔
        (ClearedLooksDone d history.length → c.delay ≤ 1)) := by
  obtain ⟨w, ran, at_⟩ := slowRun_at (slowAt_start initialised accepted unlocked) history
  rw [Nat.zero_add] at at_
  exact ⟨w, ran, at_.answersOwn_iff c returns⟩

/-- A command whose completion lands before the read number `delay`. -/
def landing (delay : Nat) : SlowCommand :=
  ⟨⟨9, [], 0, delay + 1⟩, Nat.zero_le _, 0, fun _ => 0, delay, by simp [polls]⟩

def fourDeep : Adapter :=
  (Machine.probed plainDevice).adapter.ready
    (.fresh ⟨0, 4096⟩ ⟨1, 8192⟩ ⟨2, 12288⟩ .four .four .four)

theorem fourDeep_initialised :
    ∃ log, enaAdminInit .obliging 4 4 4 (.probed plainDevice) =
      .ok (0, ((Machine.probed plainDevice).withAdapter fourDeep).logged log) :=
  ⟨_, rfl⟩

theorem execCmd_answersOwn_first :
    ∃ w, run slowStep (.start fourDeep .four) [] = .ok w ∧
      (AnswersOwn (pure 0) w 0 (landing 7) ↔ (ClearedLooksDone .four 0 → 7 ≤ 1)) := by
  obtain ⟨log, initialised⟩ := fourDeep_initialised
  exact execCmd_answersOwn_iff initialised rfl rfl [] (landing 7) fun state => ⟨(0, state), rfl⟩

/-- The command after the first 4095 of them, with a completion that lands after
the second read. -/
theorem execCmd_wrapped_not_own :
    ∃ w, run slowStep (.start fourDeep .four) (List.replicate 4095 (landing 0)) = .ok w ∧
      ¬ AnswersOwn (pure 0) w 4095 (landing 2) := by
  obtain ⟨log, initialised⟩ := fourDeep_initialised
  obtain ⟨w, ran, at_⟩ := slowRun_at (slowAt_start initialised rfl rfl)
    (List.replicate 4095 (landing 0))
  rw [List.length_replicate, Nat.zero_add] at at_
  refine ⟨w, ran, fun answered => ?_⟩
  have early := (at_.answersOwn_iff (landing 2) fun state => ⟨(0, state), rfl⟩).mp answered
    (by decide)
  exact absurd early (by decide)

end EnaDriver.Admin
