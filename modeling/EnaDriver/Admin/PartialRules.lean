import EnaDriver.Admin.Commands
import EnaDriver.Admin.Preservation

/-!
# What returning calls keep

The partial form of the rules for recovery.  A preorder that relates the two ends
of every kind of step, whenever the step returns, relates the two ends of every
function composed of them.  No assumption on the ring arrays is needed, since an
access outside them does not return.
-/

namespace EnaDriver.Admin

open Support.Programs Support.Runs Datapath

/-- A look at the ring arrays asks for nothing: one outside them does not return. -/
theorem Ends.looks {rel : Machine → Machine → Prop} (refl : ∀ m, rel m m)
    (trans : ∀ first second third, rel first second → rel second third → rel first third) :
    Looks (Ends rel) (fun _ _ => True) fun _ _ => True where
  toComposes := Ends.composes refl trans
  adapter := fun each m value final ran =>
    each m.adapter (fun _ _ => trivial) (fun _ _ => trivial) m value final ran
  txCell := by
    intro α q next _ absent present
    refine Ends.bind trans (Ends.bind trans (Ends.get refl) fun m =>
      Ends.lift refl (ringCell m.tx q)) fun cell => ?_
    cases cell with
    | none => exact absent
    | some port => exact present port trivial
  rxCell := by
    intro α q next _ absent present
    refine Ends.bind trans (Ends.bind trans (Ends.get refl) fun m =>
      Ends.lift refl (ringCell m.rx q)) fun cell => ?_
    cases cell with
    | none => exact absent
    | some port => exact present port trivial

/-- The partial form of the rule. -/
abbrev EndsDriver (rel : Machine → Machine → Prop) (env : Env) (exec : CtrlExec) : Prop :=
  Rebuilds (Ends rel) (fun _ _ => True) (fun _ _ => True) env exec

/-! ## Restart -/

/-- A judgement that holds of every kind of step that the admin rings are built with
after a reset. -/
structure Restarts (J : {α : Type} → Driver α → Prop) (Inside Filled : RingType → Nat → Prop)
    (env : Env) : Prop extends Allocates J Inside Filled env where
  forget : J (modifyAdapter Adapter.finished)
  install : ∀ aq acq aenq rings, J (installAdminRings aq acq aenq rings)
  reset : J (enaDeviceReset env)
  handler : J (modifyAdapter (·.setHandler true))
  take : J (enaAdminLockTake (machineIo env []))
  drop : J (enaAdminLockDrop (machineIo env []))

namespace Restarts

variable {J : {α : Type} → Driver α → Prop} {Inside Filled : RingType → Nat → Prop} {env : Env}
  (steps : Restarts J Inside Filled env)
include steps

theorem allocAdminRings : J (Admin.allocAdminRings env) := by
  refine steps.bind steps.dmaAlloc fun aq => ?_
  cases aq with
  | none => exact steps.pure _
  | some aq =>
    refine steps.bind steps.dmaAlloc fun acq => ?_
    cases acq with
    | none => exact steps.after (steps.dmaFree aq) _
    | some acq =>
      refine steps.bind steps.dmaAlloc fun aenq => ?_
      cases aenq with
      | none => exact steps.bind (steps.dmaFree aq) fun _ => steps.after (steps.dmaFree acq) _
      | some aenq => exact steps.pure _

theorem adminInit (aqDepth acqDepth aenqDepth : UInt16) :
    J (enaAdminInit env aqDepth acqDepth aenqDepth) := by
  refine steps.adapter fun a _ _ => steps.ite (steps.pure _) ?_
  refine steps.bind (steps.onlyIf (steps.adminFini steps.forget)) fun _ => ?_
  unfold buildAdminRings
  split
  · refine steps.bind steps.allocAdminRings fun rings => ?_
    cases rings with
    | none => exact steps.pure _
    | some rings => exact steps.after (steps.install _ _ _ rings) _
  · exact steps.pure _

theorem resetAndInit (handler : Bool) : J (Admin.resetAndInit env handler) := by
  refine steps.bind steps.take fun _ => steps.bind steps.reset fun ret => steps.ite ?_ ?_
  · exact steps.after steps.drop _
  · refine steps.adapter fun a _ _ => steps.bind (steps.adminInit _ _ _) fun init => ?_
    refine steps.bind (steps.onlyIf steps.handler) fun _ => ?_
    exact steps.after steps.drop _

end Restarts

/-! ## Recovery -/

/-- Every kind of step that a recovery is composed of relates its ends, and so do
the commands whose timeouts are handled by a recovery that does. -/
structure EndsRecovery (rel : Machine → Machine → Prop) (env : Env) : Prop where
  refl : ∀ m, rel m m
  trans : ∀ first second third, rel first second → rel second third → rel first third
  active : ∀ now, Ends rel (modifyAdapter (·.setRecover now))
  failed : Ends rel (modifyAdapter (·.setState .error))
  invalidateTx : ∀ q, Ends rel (invalidateTxRing q)
  invalidateRx : ∀ q, Ends rel (invalidateRxRing q)
  reset : ∀ handler, Ends rel (resetAndInit env handler)
  driver : ∀ recover, Ends rel recover → EndsDriver rel env (execWith env recover)

namespace EndsRecovery

variable {rel : Machine → Machine → Prop} {env : Env} (steps : EndsRecovery rel env)
include steps

theorem recoverOnce {recover : Driver Int} (recovers : Ends rel recover) :
    Ends rel (Admin.recoverOnce env (execWith env recover)) := by
  have driver := steps.driver recover recovers
  have invalidate : Ends rel enaAdapterInvalidateIoRings := by
    refine driver.adapter fun a _ _ => ?_
    refine driver.bind (driver.forM fun q _ => steps.invalidateTx q) fun _ => ?_
    exact driver.forM fun q _ => steps.invalidateRx q
  refine driver.bind (steps.active true) fun _ => ?_
  refine driver.adapter fun a _ _ => ?_
  refine driver.bind steps.failed fun _ => ?_
  refine driver.bind invalidate fun _ => ?_
  refine driver.bind (steps.reset _) fun out => ?_
  refine Ends.ite ?_ ?_
  · exact driver.bind (steps.active false) fun _ => driver.pure _
  · refine driver.bind driver.rebuild fun ret => ?_
    exact driver.bind (steps.active false) fun _ => driver.pure _

/-- A recovery relates its ends at every depth of the call chain. -/
theorem resetAndRecover (nesting : Nat) : Ends rel (enaAdapterResetAndRecover env nesting) := by
  induction nesting with
  | zero =>
    refine (Ends.looks steps.refl steps.trans).adapter fun a _ _ => ?_
    exact Ends.ite (Ends.pure steps.refl _) (Ends.throw _)
  | succ nesting ih =>
    have driver := steps.driver _ ih
    refine driver.adapter fun a _ _ => ?_
    exact Ends.ite (driver.pure _) (steps.recoverOnce ih)

end EndsRecovery

/-! ## Commands -/

section Commands

variable {env : Env} {recover : Driver Int} {ctrl : List Nat} {req : AdminReq} {m final : Machine}

/-- A command that returns was refused without a trace, or it was issued and the
recovery that its outcome asks for returned. -/
theorem enaAdminExecCmd_returned {out : ExecOut}
    (ran : enaAdminExecCmd (machineIo env ctrl) recover req m = .ok (out, final)) :
    (out.ret ≠ 0 ∧ final = m) ∨
    ∃ q, m.adapter.queues = some q ∧
      ((out.ret ≠ 0 ∧ answerTo env m q req = .silent ∧
        ∃ ret, recover (m.timedOut q ctrl req) = .ok (ret, final)) ∨
      ∃ answer, answerTo env m q req = answer ∧ answer ≠ .silent ∧ out = answeredOut q req answer ∧
        (final = m.answered q ctrl req answer ∨ out.ret = -ETIMEDOUT ∧
          ∃ ret, recover (m.answered q ctrl req answer) = .ok (ret, final))) := by
  cases lock : m.adapter.adminLock with
  | true =>
    unfold enaAdminExecCmd at ran
    rw [run_bind, machineIo_adapter, ok_bind] at ran
    cases present : m.adapter.queues with
    | none =>
      rw [present] at ran
      cases ran
      exact .inl ⟨by decide, rfl⟩
    | some q =>
      rw [present] at ran
      dsimp only at ran
      by_cases dead : m.adapter.state = .error
      · rw [if_pos dead] at ran
        cases ran
        exact .inl ⟨by decide, rfl⟩
      · rw [if_neg dead] at ran
        obtain ⟨_, between, taken, _⟩ := bind_returned ran
        simp [enaAdminLockTake, lock] at taken
        cases taken
  | false =>
    rcases enaAdminExecCmd_cases recover lock with
      ⟨error, which, _, same⟩ | ⟨q, present, alive, _, ⟨silent, same⟩ | ⟨answer, given, answered, same⟩⟩
    · rw [same] at ran
      cases ran
      refine .inl ⟨?_, rfl⟩
      rcases which with rfl | rfl <;> decide
    · rw [same] at ran
      obtain ⟨out, recovered, ended⟩ := bind_ok ran
      cases ended
      exact .inr ⟨q, present, .inl ⟨by decide, silent, out.1, recovered⟩⟩
    · rw [same] at ran
      split at ran
      · obtain ⟨out, recovered, ended⟩ := bind_ok ran
        cases ended
        exact .inr ⟨q, present, .inr ⟨answer, given, answered, rfl,
          .inr ⟨by assumption, out.1, recovered⟩⟩⟩
      · cases ran
        exact .inr ⟨q, present, .inr ⟨answer, given, answered, rfl, .inl rfl⟩⟩

/-- A command relates its ends when its two outcomes and the recovery do. -/
theorem execWith_ends {rel : Machine → Machine → Prop} (refl : ∀ m, rel m m)
    (trans : ∀ first second third, rel first second → rel second third → rel first third)
    (recovers : Ends rel recover)
    (timesOut : ∀ m q, m.adapter.queues = some q → answerTo env m q req = .silent →
      rel m (m.timedOut q ctrl req))
    (answers : ∀ m q answer, m.adapter.queues = some q → answerTo env m q req = answer →
      rel m (m.answered q ctrl req answer)) :
    Ends rel (execWith env recover ctrl req) := by
  intro m value final ran
  obtain ⟨out, last, executed, ended⟩ := bind_returned ran
  cases ended
  rcases enaAdminExecCmd_returned executed with ⟨_, rfl⟩ |
    ⟨q, present, ⟨_, silent, ret, recovered⟩ | ⟨answer, given, _, _, rfl | ⟨_, ret, recovered⟩⟩⟩
  · exact refl _
  · exact trans _ _ _ (timesOut m q present silent) (recovers _ _ _ recovered)
  · exact answers m q answer present given
  · exact trans _ _ _ (answers m q answer present given) (recovers _ _ _ recovered)

theorem execWith_accepted {resp : Response}
    (ran : execWith env recover ctrl req m = .ok ((0, resp), final)) :
    ∃ q response, answerTo env m q req = .completes 0 response ∧
      resp = copiedResponse req.respCap response := by
  obtain ⟨out, last, executed, ended⟩ := bind_returned ran
  injection ended with same
  have ret : out.ret = 0 := congrArg (fun out => out.1.1) same
  have given : out.resp = resp := congrArg (fun out => out.1.2) same
  rcases enaAdminExecCmd_returned executed with ⟨failed, _⟩ |
    ⟨q, present, ⟨failed, _⟩ | ⟨answer, answers, answered, rfl, _⟩⟩
  · exact absurd ret failed
  · exact absurd ret failed
  · cases answer with
    | silent => exact absurd rfl answered
    | stray => cases ret
    | completes status response =>
      have accepted : status = 0 := by
        have zero : status.toNat = 0 := by
          change -(status.toNat : Int) = 0 at ret
          omega
        exact UInt8.toNat_inj.mp zero
      subst accepted
      exact ⟨q, response, answers, given.symm⟩

end Commands

end EnaDriver.Admin
