import EnaDriver.Admin.Commands

/-!
# When a command starts a recovery

The decision to reset the device is taken from the result code of a command, one
function above the place where the completion is read.  The device of this module
is arbitrary: what the completion ring shows at each read after the doorbell is
any function of the entry and the tail.  A counter beside the adapter records the
recoveries that a command starts; what a recovery does to the adapter is arbitrary
too.
-/

namespace EnaDriver.Admin

open Support.Programs Datapath

abbrev AcqDevice := AqEntry → Nat → AcqViews

structure Watched where
  adapter : Adapter
  recoveries : Nat

def watchedIo (device : AcqDevice) : AdminIo (Prog Watched Fault) where
  adapter := do
    let w ← get
    return w.adapter
  modify := fun change => modify fun w => { w with adapter := change w.adapter }
  regWrite32 := fun _ _ => return ()
  clearAcq := fun _ => return ()
  ringAqDb := fun entry tail => return device entry tail

def watchedRecover (outcome : Adapter → Int × Adapter) : Prog Watched Fault Int := fun w =>
  .ok ((outcome w.adapter).1, ⟨(outcome w.adapter).2, w.recoveries + 1⟩)

section Access

variable (device : AcqDevice) (w : Watched)

@[simp] theorem watchedIo_adapter : (watchedIo device).adapter w = .ok (w.adapter, w) := rfl

@[simp] theorem watchedIo_modify (change : Adapter → Adapter) :
    (watchedIo device).modify change w = .ok ((), ⟨change w.adapter, w.recoveries⟩) := rfl

@[simp] theorem watchedIo_ringAqDb (entry : AqEntry) (tail : Nat) :
    (watchedIo device).ringAqDb entry tail w = .ok (device entry tail, w) := rfl

theorem restartIds_watched (q : AdminQueues) :
    restartIds (watchedIo device) q.commandId q.takeId.2 w =
      .ok (if q.restarts then q.takeId.2.restartAcq else q.takeId.2, w) := by
  unfold restartIds
  by_cases restarts : q.restarts
  · rw [if_pos restarts,
      if_pos (c := q.commandId = 1 ∧ 0 < q.takeId.2.acq.cursor.index) restarts]
    rfl
  · rw [if_neg restarts,
      if_neg (c := q.commandId = 1 ∧ 0 < q.takeId.2.acq.cursor.index) restarts]
    rfl

end Access

/-! ## The completion of a command -/

section Completion

variable (device : AcqDevice) (q : AdminQueues) (req : AdminReq)

def shown : AcqViews := device (q.entryOf req) q.submitted.aq.cursor.index

/-- The read at which a command finds its slot completed, if one of its reads does. -/
def completionRead : Option Nat :=
  pollAcq q.submitted.acq.cursor.phase q.polledSlot (shown device q req) (polls req) 0

def completionAt (i : Nat) : AcqEntry := shown device q req (i + 1) q.polledSlot

end Completion

def Issues (a : Adapter) (req : AdminReq) (q : AdminQueues) : Prop :=
  a.queues = some q ∧ a.state ≠ .error ∧ req.req.length ≤ aqEntrySize

/-- The request is issued, and no completion arrives within its reads. -/
def Unanswered (device : AcqDevice) (a : Adapter) (req : AdminReq) : Prop :=
  ∃ q, Issues a req q ∧ completionRead device q req = none

/-- The request is issued, and its own completion carries the status byte 110. -/
def AnsweredTimedOut (device : AcqDevice) (a : Adapter) (req : AdminReq) : Prop :=
  ∃ q i, Issues a req q ∧ completionRead device q req = some i ∧
    (completionAt device q req i).command &&& commandIdMask = q.commandId ∧
    (completionAt device q req i).status = 110

/-! ## One command -/

section Command

variable {device : AcqDevice} {outcome : Adapter → Int × Adapter} {w : Watched} {q : AdminQueues}
  {req : AdminReq}

def lockedRet (device : AcqDevice) (q : AdminQueues) (req : AdminReq) : Int :=
  if aqEntrySize < req.req.length then -EINVAL
  else match completionRead device q req with
    | none => -ETIMEDOUT
    | some i => (judge q.commandId req.respCap (completionAt device q req i)).ret

theorem enaAdminExecLocked_watched :
    Returns (enaAdminExecLocked (watchedIo device) q req) w fun out next =>
      out.ret = lockedRet device q req ∧ next.recoveries = w.recoveries := by
  unfold enaAdminExecLocked lockedRet
  by_cases long : aqEntrySize < req.req.length
  · rw [if_pos long, if_pos long]
    exact ⟨_, _, rfl, rfl, rfl⟩
  rw [if_neg long, if_neg long]
  change Returns (restartIds (watchedIo device) q.commandId q.takeId.2 >>= _) w _
  refine Returns.after (restartIds_watched device w q) ?_
  refine Returns.after (watchedIo_modify device _ _) ?_
  refine Returns.after (watchedIo_ringAqDb device _ _ _) ?_
  change Returns (awaitCompletion (watchedIo device) q.submitted q.polledSlot q.commandId req
    (shown device q req)) _ _
  unfold awaitCompletion completionRead
  cases pollAcq q.submitted.acq.cursor.phase q.polledSlot (shown device q req) (polls req) 0 with
  | none => exact ⟨_, _, rfl, rfl, rfl⟩
  | some i => exact ⟨_, _, rfl, rfl, rfl⟩

/-- A completion gives the result code of a timeout exactly if it is the command's
own and carries the status 110. -/
theorem judge_timedOut_iff (commandId respCap : Nat) (entry : AcqEntry) :
    (judge commandId respCap entry).ret = -ETIMEDOUT ↔
      entry.command &&& commandIdMask = commandId ∧ entry.status = 110 := by
  unfold judge
  split
  · rename_i foreign
    exact ⟨fun same => absurd same (by decide), fun both => absurd both.1 foreign⟩
  rename_i own
  constructor
  · intro same
    exact ⟨Decidable.not_not.mp own, Int.ofNat.inj (Int.neg_inj.mp same)⟩
  · rintro ⟨_, status⟩
    change -(entry.status : Int) = -ETIMEDOUT
    rw [status]
    rfl

/-- The result code of a timeout comes from a missing completion or from a status. -/
theorem lockedRet_timedOut_iff (present : w.adapter.queues = some q) (alive : w.adapter.state ≠ .error) :
    lockedRet device q req = -ETIMEDOUT ↔
      Unanswered device w.adapter req ∨ AnsweredTimedOut device w.adapter req := by
  unfold lockedRet
  by_cases long : aqEntrySize < req.req.length
  · rw [if_pos long]
    refine ⟨fun same => absurd same (by decide), ?_⟩
    rintro (⟨_, issued, _⟩ | ⟨_, _, issued, _⟩)
    · exact absurd long (Nat.not_lt.mpr issued.2.2)
    · exact absurd long (Nat.not_lt.mpr issued.2.2)
  rw [if_neg long]
  have issued : Issues w.adapter req q := ⟨present, alive, Nat.not_lt.mp long⟩
  have only : ∀ other, Issues w.adapter req other → other = q := fun other issues =>
    Option.some.inj (issues.1.symm.trans present)
  cases found : completionRead device q req with
  | none => exact ⟨fun _ => Or.inl ⟨q, issued, found⟩, fun _ => rfl⟩
  | some i =>
    refine (judge_timedOut_iff _ _ _).trans ⟨fun both => Or.inr ⟨q, i, issued, found, both⟩, ?_⟩
    rintro (⟨other, issues, absent⟩ | ⟨other, j, issues, same, both⟩)
    · rw [only other issues, found] at absent
      cases absent
    · cases only other issues
      cases found.symm.trans same
      exact both

/-- A refused command starts no recovery, and an issued one starts one exactly for
the result code of a timeout. -/
theorem enaAdminExecCmd_watched (unlocked : w.adapter.adminLock = false) :
    Returns (enaAdminExecCmd (watchedIo device) (watchedRecover outcome) req) w fun _ next =>
      (w.recoveries < next.recoveries ↔
        Unanswered device w.adapter req ∨ AnsweredTimedOut device w.adapter req) := by
  have refused : (∀ q, ¬ Issues w.adapter req q) →
      (w.recoveries < w.recoveries ↔
        Unanswered device w.adapter req ∨ AnsweredTimedOut device w.adapter req) := by
    intro never
    refine ⟨fun less => absurd less (Nat.lt_irrefl _), ?_⟩
    rintro (⟨q, issued, _⟩ | ⟨q, _, issued, _⟩)
    · exact absurd issued (never q)
    · exact absurd issued (never q)
  unfold enaAdminExecCmd
  refine Returns.after (watchedIo_adapter device w) ?_
  cases present : w.adapter.queues with
  | none =>
    refine Returns.pure (refused ?_)
    rintro q ⟨found, _⟩
    rw [present] at found
    cases found
  | some q =>
    change Returns (if w.adapter.state = .error then _ else _) w _
    split
    · rename_i dead
      exact Returns.pure (refused fun _ issued => issued.2.1 dead)
    rename_i alive
    have taken : enaAdminLockTake (watchedIo device) w =
        .ok ((), ⟨w.adapter.setLock true, w.recoveries⟩) := by
      simp [enaAdminLockTake, unlocked]
    refine Returns.after taken ?_
    refine enaAdminExecLocked_watched.bind fun out next locked => ?_
    obtain ⟨ret, count⟩ := locked
    refine Returns.after (watchedIo_modify device next _) ?_
    rw [← lockedRet_timedOut_iff present alive, ← ret]
    by_cases timeout : out.ret = -ETIMEDOUT
    · rw [if_pos timeout]
      refine ⟨_, _, rfl, ?_⟩
      change w.recoveries < next.recoveries + 1 ↔ _
      rw [count]
      exact ⟨fun _ => timeout, fun _ => Nat.lt_succ_self _⟩
    · rw [if_neg timeout]
      refine ⟨_, _, rfl, ?_⟩
      change w.recoveries < next.recoveries ↔ _
      rw [count]
      exact ⟨fun less => absurd less (Nat.lt_irrefl _), fun same => absurd same timeout⟩

end Command

/-- Every command returns, and it starts a recovery if and only if it stays without a
completion, unless its completion carries the status 110, which the driver cannot
tell from a timeout. -/
theorem recovery_iff_unanswered (device : AcqDevice) (outcome : Adapter → Int × Adapter)
    (w : Watched) (req : AdminReq) (unlocked : w.adapter.adminLock = false) :
    Returns (enaAdminExecCmd (watchedIo device) (watchedRecover outcome) req) w fun _ next =>
      ((w.recoveries < next.recoveries ↔ Unanswered device w.adapter req) ↔
        ¬ AnsweredTimedOut device w.adapter req) := by
  refine (enaAdminExecCmd_watched unlocked).mono fun _ next started => ?_
  rw [started]
  constructor
  · rintro same ⟨q, i, issued, found, both⟩
    obtain ⟨other, issues, absent⟩ := same.mp (Or.inr ⟨q, i, issued, found, both⟩)
    cases Option.some.inj (issues.1.symm.trans issued.1)
    cases absent.symm.trans found
  · intro plain
    exact ⟨fun either => either.resolve_right plain, Or.inl⟩

def completingWith (status : Nat) : AcqDevice := fun entry _ _ _ =>
  ⟨entry.commandId, status, phaseFlag true, fun _ => 0⟩

theorem recovery_iff_unanswered_refusal :
    Returns (enaAdminExecCmd (watchedIo (completingWith 3)) (watchedRecover fun a => (0, a))
        (destroySqReq 0)) ⟨(onePair plainDevice).adapter, 0⟩ fun _ next =>
      (0 < next.recoveries ↔ Unanswered (completingWith 3) (onePair plainDevice).adapter
        (destroySqReq 0)) := by
  refine (recovery_iff_unanswered (completingWith 3) (fun a => (0, a))
    ⟨(onePair plainDevice).adapter, 0⟩ (destroySqReq 0) rfl).mono fun _ next iff => iff.mpr ?_
  rintro ⟨q, i, _, _, _, status⟩
  exact absurd (show 3 = 110 from status) (by decide)

def Effect.isReset : Effect → Bool
  | .reset _ => true
  | _ => false

/-- The device answers the destruction of a queue with the status 110, and the driver
resets it. -/
theorem status_resets_device :
    (enaAdminExecCmd
        (machineIo { Env.obliging with answer := fun _ _ => .completes 110 fun _ => 0 } [])
        (enaAdapterResetAndRecover
          { Env.obliging with answer := fun _ _ => .completes 110 fun _ => 0 } 1)
        (destroySqReq 0) (onePair plainDevice)).toOption.map
      (fun out => (out.1.ret, out.2.log.any Effect.isReset)) = some (-110, true) := by
  decide +kernel

end EnaDriver.Admin
