import EnaDriver.Admin.Recovery

/-!
# One command of a machine

The outcome of an admin command on a whole machine: it is refused without a
trace, or it is written to the request ring and either answered or times out.
Everything else about commands is derived from this case distinction.
-/

namespace EnaDriver.Admin

open Support.Programs Datapath

namespace AdminQueues

def restarts (q : AdminQueues) : Prop := q.commandId = 1 ∧ 0 < q.acq.cursor.index

instance (q : AdminQueues) : Decidable q.restarts := inferInstanceAs (Decidable (_ ∧ _))

def submitted (q : AdminQueues) : AdminQueues :=
  (if q.restarts then q.takeId.2.restartAcq else q.takeId.2).advanceAq

def restartEffects (q : AdminQueues) : List Effect :=
  if q.restarts then [.regWrite32 acqTailOff q.acq.cursor.index] else []

def entryOf (q : AdminQueues) (req : AdminReq) : AqEntry :=
  buildEntry q.aq.cursor.phase q.commandId req

end AdminQueues

def Machine.timedOut (m : Machine) (q : AdminQueues) (ctrl : List Nat) (req : AdminReq) : Machine :=
  (m.withAdapter ((m.adapter.setQueues q.submitted).setState .error)).logged
    (q.restartEffects ++ [.command (q.entryOf req) ctrl .silent])

def Machine.answered (m : Machine) (q : AdminQueues) (ctrl : List Nat) (req : AdminReq)
    (answer : Answer) : Machine :=
  (m.withAdapter (m.adapter.setQueues q.submitted.advanceAcq)).logged
    (q.restartEffects ++ [.command (q.entryOf req) ctrl answer,
      .regWrite32 acqTailOff q.submitted.advanceAcq.acq.cursor.index])

/-- A completion under another id is an error, whatever its status says. -/
def answeredOut (q : AdminQueues) (req : AdminReq) : Answer → ExecOut
  | .completes status response =>
    ⟨-(status.toNat : Int), copiedResponse req.respCap response, some q.commandId⟩
  | .stray => .fails EIO
  | .silent => .fails ETIMEDOUT

/-! ## The steps -/

section Steps

variable (env : Env) (ctrl : List Nat) (m : Machine)

@[simp] theorem machineIo_adapter : (machineIo env ctrl).adapter m = .ok (m.adapter, m) := rfl

@[simp] theorem machineIo_modify (change : Adapter → Adapter) :
    (machineIo env ctrl).modify change m = .ok ((), m.withAdapter (change m.adapter)) := rfl

@[simp] theorem machineIo_regWrite32 (offset value : Nat) :
    (machineIo env ctrl).regWrite32 offset value m =
      .ok ((), m.logged [.regWrite32 offset value]) := rfl

@[simp] theorem machineIo_ringAqDb (entry : AqEntry) (tail : Nat) :
    (machineIo env ctrl).ringAqDb entry tail m =
      .ok ((env.answer m.log.length entry).views m.adapter.acqPhase entry.commandId,
        m.logged [.command entry ctrl (env.answer m.log.length entry)]) := rfl

theorem restartIds_machine (q : AdminQueues) :
    restartIds (machineIo env ctrl) q.commandId q.takeId.2 m =
      .ok (if q.restarts then q.takeId.2.restartAcq else q.takeId.2, m.logged q.restartEffects) := by
  unfold restartIds AdminQueues.restartEffects
  by_cases restarts : q.restarts
  · rw [if_pos restarts, if_pos restarts, if_pos (c := q.commandId = 1 ∧ 0 < q.takeId.2.acq.cursor.index) restarts]
    rfl
  · rw [if_neg restarts, if_neg restarts, if_neg (c := q.commandId = 1 ∧ 0 < q.takeId.2.acq.cursor.index)
      restarts, Machine.logged_nil]
    rfl

end Steps

theorem views_answered_poll {answer : Answer} (answered : answer ≠ .silent) (phase : Bool)
    (commandId slot : Nat) (req : AdminReq) :
    pollAcq phase slot (answer.views phase commandId) (polls req) 0 = some 0 := by
  obtain ⟨rest, positive⟩ : ∃ rest, polls req = rest + 1 := by
    refine ⟨polls req - 1, ?_⟩
    unfold polls
    split <;> omega
  rw [positive]
  cases answer with
  | silent => exact absurd rfl answered
  | _ => simp [pollAcq, Answer.views]

theorem views_silent_poll (phase : Bool) (commandId slot n i : Nat) :
    pollAcq phase slot (Answer.silent.views phase commandId) n i = none := by
  induction n generalizing i with
  | zero => rfl
  | succ n ih =>
    have other : ¬ (Answer.silent.views phase commandId i slot).phase = phase := by
      simp [Answer.views]
    rw [pollAcq, if_neg other]
    exact ih (i + 1)

theorem judge_answered {answer : Answer} (answered : answer ≠ .silent) (q : AdminQueues)
    (req : AdminReq) (phase : Bool) (i slot : Nat) :
    judge q.commandId req.respCap (answer.views phase q.commandId i slot) =
      answeredOut q req answer := by
  cases answer with
  | silent => exact absurd rfl answered
  | completes status response => simp [judge, Answer.views, answeredOut, q.commandId_masked]
  | stray =>
    have other : (q.commandId + 1) &&& commandIdMask ≠ q.commandId := by
      change (q.commandId + 1) &&& (2 ^ 12 - 1) ≠ q.commandId
      rw [Nat.and_two_pow_sub_one_eq_mod]
      omega
    simp [judge, Answer.views, answeredOut, other]

/-! ## The command -/

section Command

variable {env : Env} {ctrl : List Nat} {m : Machine} {q : AdminQueues} {req : AdminReq}

def answerTo (env : Env) (m : Machine) (q : AdminQueues) (req : AdminReq) : Answer :=
  env.answer (m.logged q.restartEffects).log.length (q.entryOf req)

def Machine.rung (m : Machine) (q : AdminQueues) (ctrl : List Nat) (req : AdminReq)
    (answer : Answer) : Machine :=
  (m.withAdapter (m.adapter.setQueues q.submitted)).logged
    (q.restartEffects ++ [.command (q.entryOf req) ctrl answer])

def AdminQueues.polledSlot (q : AdminQueues) : Nat :=
  (if q.restarts then q.takeId.2.restartAcq else q.takeId.2).acqSlot

theorem enaAdminExecLocked_rung (fits : req.req.length ≤ aqEntrySize) :
    enaAdminExecLocked (machineIo env ctrl) q req m =
      awaitCompletion (machineIo env ctrl) q.submitted q.polledSlot q.commandId req
        ((answerTo env m q req).views q.submitted.acq.cursor.phase q.commandId)
        (m.rung q ctrl req (answerTo env m q req)) := by
  unfold enaAdminExecLocked
  rw [if_neg (Nat.not_lt.mpr fits)]
  change (restartIds (machineIo env ctrl) q.commandId q.takeId.2 >>= _) m = _
  rw [run_bind, restartIds_machine, ok_bind]
  dsimp only
  rw [run_bind, AdminIo.setQueues, machineIo_modify, ok_bind, run_bind, machineIo_ringAqDb, ok_bind]
  unfold Machine.rung
  rw [← Machine.logged_logged]
  rfl

theorem enaAdminExecLocked_machine (fits : req.req.length ≤ aqEntrySize) :
    enaAdminExecLocked (machineIo env ctrl) q req m =
      match answerTo env m q req with
      | .silent => .ok (.fails ETIMEDOUT, m.timedOut q ctrl req)
      | answer => .ok (answeredOut q req answer, m.answered q ctrl req answer) := by
  rw [enaAdminExecLocked_rung fits]
  unfold awaitCompletion
  cases answerTo env m q req with
  | silent =>
    rw [views_silent_poll]
    rfl
  | _ =>
    rw [views_answered_poll (by simp)]
    simp [AdminIo.setQueues, judge_answered, Machine.rung, Machine.answered]
    rfl

/-- What follows the locked section of a command. -/
theorem execCmd_unlock (recover : Driver Int) (out : ExecOut) :
    (do
      enaAdminLockDrop (machineIo env ctrl)
      if out.ret = -ETIMEDOUT then
        let _ ← recover
      return out : Driver ExecOut) m =
      if out.ret = -ETIMEDOUT then
        recover (m.withAdapter (m.adapter.setLock false)) >>= fun last => .ok (out, last.2)
      else .ok (out, m.withAdapter (m.adapter.setLock false)) := by
  by_cases timeout : out.ret = -ETIMEDOUT <;> simp [timeout, enaAdminLockDrop]

theorem answered_unlocked (unlocked : m.adapter.adminLock = false) (answer : Answer) :
    m.answered q ctrl req answer =
      ((m.withAdapter (m.adapter.setLock true)).answered q ctrl req answer).withAdapter
        (((m.withAdapter (m.adapter.setLock true)).answered q ctrl req answer).adapter.setLock
          false) := by
  change (m.withAdapter (m.adapter.setQueues q.submitted.advanceAcq)).logged _ =
    (m.withAdapter ((m.adapter.setLock false).setQueues q.submitted.advanceAcq)).logged _
  rw [Adapter.setLock_self unlocked]

/-- A command either changes nothing and is refused, or it is issued. -/
theorem enaAdminExecCmd_cases (recover : Driver Int) (unlocked : m.adapter.adminLock = false) :
    (∃ error, (error = EINVAL ∨ error = ENODEV) ∧
      (m.adapter.queues = none ∨ m.adapter.state = .error ∨ aqEntrySize < req.req.length) ∧
      enaAdminExecCmd (machineIo env ctrl) recover req m = .ok (.fails error, m)) ∨
    (∃ q, m.adapter.queues = some q ∧ m.adapter.state ≠ .error ∧ req.req.length ≤ aqEntrySize ∧
      ((answerTo env m q req = .silent ∧
        enaAdminExecCmd (machineIo env ctrl) recover req m =
          recover (m.timedOut q ctrl req) >>= fun out => .ok (.fails ETIMEDOUT, out.2)) ∨
      ∃ answer, answerTo env m q req = answer ∧ answer ≠ .silent ∧
        enaAdminExecCmd (machineIo env ctrl) recover req m =
          if (answeredOut q req answer).ret = -ETIMEDOUT then
            recover (m.answered q ctrl req answer) >>= fun out =>
              .ok (answeredOut q req answer, out.2)
          else .ok (answeredOut q req answer, m.answered q ctrl req answer))) := by
  cases present : m.adapter.queues with
  | none =>
    refine .inl ⟨EINVAL, .inl rfl, .inl rfl, ?_⟩
    simp [enaAdminExecCmd, present]
  | some q =>
    by_cases dead : m.adapter.state = .error
    · refine .inl ⟨ENODEV, .inr rfl, .inr (.inl dead), ?_⟩
      simp [enaAdminExecCmd, present, dead]
    have opened : enaAdminExecCmd (machineIo env ctrl) recover req m =
        (enaAdminExecLocked (machineIo env ctrl) q req >>= fun out => do
          enaAdminLockDrop (machineIo env ctrl)
          if out.ret = -ETIMEDOUT then
            let _ ← recover
          return out) (m.withAdapter (m.adapter.setLock true)) := by
      simp [enaAdminExecCmd, present, dead, enaAdminLockTake, unlocked]
    rw [opened, run_bind]
    by_cases long : aqEntrySize < req.req.length
    · refine .inl ⟨EINVAL, .inl rfl, .inr (.inr long), ?_⟩
      have refused : enaAdminExecLocked (machineIo env ctrl) q req
          (m.withAdapter (m.adapter.setLock true)) =
          .ok (.fails EINVAL, m.withAdapter (m.adapter.setLock true)) := by
        unfold enaAdminExecLocked
        rw [if_pos long]
        rfl
      have other : ¬ (ExecOut.fails EINVAL).ret = -ETIMEDOUT := by decide
      have same : (m.withAdapter (m.adapter.setLock true)).withAdapter
          ((m.adapter.setLock true).setLock false) = m := by
        change m.withAdapter (m.adapter.setLock false) = m
        rw [Adapter.setLock_self unlocked]
        rfl
      rw [refused, ok_bind, execCmd_unlock, if_neg other]
      exact congrArg (fun last => Except.ok (ExecOut.fails EINVAL, last)) same
    · have fits := Nat.not_lt.mp long
      refine .inr ⟨q, rfl, dead, fits, ?_⟩
      have sameAnswer : answerTo env (m.withAdapter (m.adapter.setLock true)) q req =
          answerTo env m q req := rfl
      have free := Adapter.setLock_self unlocked
      rw [enaAdminExecLocked_machine fits, sameAnswer]
      cases answerTo env m q req with
      | silent =>
        have same : m.timedOut q ctrl req = ((m.withAdapter (m.adapter.setLock true)).timedOut
            q ctrl req).withAdapter (((m.withAdapter (m.adapter.setLock true)).timedOut
            q ctrl req).adapter.setLock false) := by
          change (m.withAdapter ((m.adapter.setQueues q.submitted).setState .error)).logged _ =
            (m.withAdapter (((m.adapter.setLock false).setQueues q.submitted).setState
              .error)).logged _
          rw [free]
        refine .inl ⟨rfl, ?_⟩
        have timeout : (ExecOut.fails ETIMEDOUT).ret = -ETIMEDOUT := rfl
        rw [ok_bind, execCmd_unlock]
        dsimp only
        rw [if_pos timeout, same]
      | _ =>
        refine .inr ⟨_, rfl, by simp, ?_⟩
        rw [ok_bind, execCmd_unlock, ← answered_unlocked unlocked]

end Command

/-! ## What a command keeps -/

section Keeps

variable {inv : Machine → Prop} {rel : Machine → Machine → Prop} {env : Env}

/-- A command keeps what its two outcomes and the recovery it may start keep. -/
theorem enaAdminExecCmd_keeps (refl : ∀ m, rel m m)
    (trans : ∀ first second third, rel first second → rel second third → rel first third)
    (unlocked : ∀ m, inv m → m.adapter.adminLock = false) {recover : Driver Int}
    (recovers : Keeps inv rel recover) {ctrl : List Nat} {req : AdminReq}
    (timesOut : ∀ m q, inv m → m.adapter.queues = some q → m.adapter.state ≠ .error →
      answerTo env m q req = .silent →
      inv (m.timedOut q ctrl req) ∧ rel m (m.timedOut q ctrl req))
    (answers : ∀ m q answer, inv m → m.adapter.queues = some q → m.adapter.state ≠ .error →
      answerTo env m q req = answer →
      inv (m.answered q ctrl req answer) ∧ rel m (m.answered q ctrl req answer)) :
    Keeps inv rel (enaAdminExecCmd (machineIo env ctrl) recover req) := by
  intro m holds
  unfold Returns
  rcases enaAdminExecCmd_cases recover (unlocked m holds) with
    ⟨error, _, _, ran⟩ | ⟨q, present, alive, _, ⟨silent, ran⟩ | ⟨answer, given, _, ran⟩⟩
  · exact ⟨_, m, ran, holds, refl m⟩
  · obtain ⟨between, step⟩ := timesOut m q holds present alive silent
    obtain ⟨ret, last, recovered, after, rest⟩ := recovers _ between
    refine ⟨.fails ETIMEDOUT, last, ?_, after, trans _ _ _ step rest⟩
    rw [ran, recovered]
    rfl
  · obtain ⟨between, step⟩ := answers m q answer holds present alive given
    split at ran
    · obtain ⟨ret, last, recovered, after, rest⟩ := recovers _ between
      refine ⟨answeredOut q req answer, last, ?_, after, trans _ _ _ step rest⟩
      rw [ran, recovered]
      rfl
    · exact ⟨_, _, ran, between, step⟩

end Keeps

end EnaDriver.Admin
