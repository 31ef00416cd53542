import EnaDriver.Admin.PartialRules
import EnaDriver.Admin.Reset

/-!
# Admin rings across a recovery

The commands of a recovery find it active, so none of them starts another one.
What commands keep of the admin rings therefore holds of the rings that a recovery
leaves, if it holds of those that it found or of fresh ones with their depths.
-/

namespace EnaDriver.Admin

open Support.Programs Datapath

structure Stable (property : AdminQueues → Prop) : Prop where
  submitted : ∀ q, property q → property q.submitted
  advanced : ∀ q, property q → property q.advanceAcq

def Machine.Queued (property : AdminQueues → Prop) (m : Machine) : Prop :=
  ∀ q, m.adapter.queues = some q → property q

variable {env : Env} {final m next : Machine} {nesting : Nat} {property : AdminQueues → Prop}

namespace Machine.Queued

theorem congr (holds : m.Queued property) (same : next.adapter.queues = m.adapter.queues) :
    next.Queued property := fun q present => holds q (same.symm.trans present)

theorem bare (absent : m.adapter.queues = none) : m.Queued property := by
  intro q present
  rw [absent] at present
  cases present

theorem set {q : AdminQueues} (present : m.adapter.queues = some q) (holds : property q) :
    m.Queued property := by
  intro other found
  cases present.symm.trans found
  exact holds

end Machine.Queued

/-- While a recovery is active it stays active, and the admin rings stay and keep
what commands keep. -/
def Calm (m next : Machine) : Prop :=
  m.adapter.recoverActive = true → next.adapter.recoverActive = true ∧
    next.adapter.queues.isSome = m.adapter.queues.isSome ∧
    ∀ property, Stable property → m.Queued property → next.Queued property

theorem Calm.refl (m : Machine) : Calm m m := fun active => ⟨active, rfl, fun _ _ holds => holds⟩

theorem Calm.trans (first second third : Machine) (earlier : Calm first second)
    (later : Calm second third) : Calm first third := by
  intro active
  obtain ⟨between, present, kept⟩ := earlier active
  obtain ⟨last, still, more⟩ := later between
  exact ⟨last, still.trans present, fun _ stable holds => more _ stable (kept _ stable holds)⟩

theorem Calm.quiet (queues : next.adapter.queues = m.adapter.queues)
    (active : next.adapter.recoverActive = m.adapter.recoverActive) : Calm m next :=
  fun now => ⟨active.trans now, congrArg Option.isSome queues, fun _ _ holds => holds.congr queues⟩

/-- A recovery that is asked for while one is active is refused. -/
theorem calm_refused (env : Env) (nesting : Nat) :
    Ends Calm (enaAdapterResetAndRecover env nesting) := by
  intro m ret final ran active
  have same : final = m := by
    cases nesting with
    | zero =>
      simp [enaAdapterResetAndRecover, active] at ran
      exact ran.2.symm
    | succ nesting =>
      simp [enaAdapterResetAndRecover, active] at ran
      exact ran.2.symm
  rw [same]
  exact Calm.refl m active

theorem calm_command (env : Env) (nesting : Nat) (ctrl : List Nat) (req : AdminReq) :
    Ends Calm (driverExec env nesting ctrl req) := by
  refine execWith_ends Calm.refl Calm.trans (calm_refused env nesting) ?_ ?_
  · intro m q present _ active
    refine ⟨active, (congrArg Option.isSome present).symm, fun property stable holds => ?_⟩
    exact .set rfl (stable.submitted q (holds q present))
  · intro m q answer present _ active
    refine ⟨active, (congrArg Option.isSome present).symm, fun property stable holds => ?_⟩
    exact .set rfl (stable.advanced _ (stable.submitted q (holds q present)))

theorem calm_access (env : Env) (nesting : Nat) {ring : RingAccess Driver} (get : Ends Calm ring.get)
    (setHw : ∀ change : Ring → HwQueue, Ends Calm (ring.modify fun r => { r with hw := change r })) :
    QueueAccess (Ends Calm) (fun _ => True) (fun _ => True) (driverExec env nesting []) ring where
  toComposes := Ends.composes Calm.refl Calm.trans
  command := fun req _ => calm_command env nesting [] req
  get := fun each => Ends.bind Calm.trans get fun r => each r trivial
  setHw := setHw

theorem calm_driver (env : Env) (nesting : Nat) : EndsDriver Calm env (driverExec env nesting) := by
  have looks := Ends.looks Calm.refl Calm.trans
  have noted (effect : Effect) : Ends Calm (record effect) := Ends.update fun _ => Calm.quiet rfl rfl
  exact {
    toLooks := looks
    settings := fun _ => Ends.update fun _ => Calm.quiet rfl rfl
    dmaAlloc := looks.bind (Ends.get Calm.refl) fun _ => looks.bind (noted _) fun _ => looks.pure _
    dmaFree := fun _ => noted _
    heap := looks.bind (Ends.get Calm.refl) fun _ => looks.bind (noted _) fun _ => looks.pure _
    command := fun ctrl req _ => calm_command env nesting ctrl req
    createTx := by
      intro q _
      refine looks.bind (noted _) fun _ => looks.adapter fun a _ _ => ?_
      refine (calm_access env nesting ?_ fun _ => Ends.update fun _ => ?_).createHw _ trivial
      · exact looks.txCell trivial (Ends.throw _) fun _ _ => looks.pure _
      · exact Calm.quiet rfl rfl
    createRx := by
      intro q _
      refine looks.bind (noted _) fun _ => looks.adapter fun a _ _ => ?_
      refine (calm_access env nesting ?_ fun _ => Ends.update fun _ => ?_).createHw _ trivial
      · exact looks.rxCell trivial (Ends.throw _) fun _ _ => looks.pure _
      · exact Calm.quiet rfl rfl
    refill := by
      intro q _
      refine looks.rxCell trivial (looks.pure _) fun port _ => Ends.ite ?_ (looks.pure _)
      refine looks.bind (Ends.get Calm.refl) fun m => ?_
      refine looks.bind (Ends.lift Calm.refl _) fun out => ?_
      exact looks.bind (Ends.update fun _ => Calm.quiet rfl rfl) fun _ => noted _ }

/-! ## Recoveries -/

def AtReset (m between : Machine) : Prop :=
  enaAdapterInvalidateIoRings (m.withAdapter ((m.adapter.setRecover true).setState .error)) =
    .ok ((), between)

theorem atReset_adapter {between : Machine} (cleared : AtReset m between) :
    between.adapter = (m.adapter.setRecover true).setState .error := by
  let rel (m next : Machine) : Prop := next.adapter = m.adapter
  have same (m : Machine) : rel m m := rfl
  have looks := @Ends.looks rel same fun _ _ _ earlier later => Eq.trans later earlier
  have ends : Ends rel enaAdapterInvalidateIoRings := by
    refine looks.adapter fun a _ _ => looks.bind (looks.forM fun q _ => ?_) fun _ =>
      looks.forM fun q _ => ?_
    · refine looks.txCell trivial (looks.pure _) fun port _ => ?_
      refine looks.bind (Ends.lift same _) fun out => ?_
      exact looks.bind (Ends.update fun _ => rfl) fun _ => Ends.update fun _ => rfl
    · refine looks.rxCell trivial (looks.pure _) fun port _ => ?_
      refine looks.bind (Ends.lift same _) fun out => ?_
      exact looks.bind (Ends.update fun _ => rfl) fun _ => Ends.update fun _ => rfl
  exact ends _ _ _ cleared

theorem released_bare (m : Machine) : m.released.adapter.queues = none := by
  unfold Machine.released
  split
  · rfl
  · rename_i absent
    exact Option.not_isSome_iff_eq_none.mp absent

theorem released_active (m : Machine) :
    m.released.adapter.recoverActive = m.adapter.recoverActive := by
  unfold Machine.released
  split <;> rfl

def LosesRings (env : Env) (m between : Machine) : Prop :=
  ∃ last, resetAndInit env m.adapter.aenqHandler between = .ok ((0, -ENOMEM), last)

/-- A recovery loses the admin rings, or it leaves those that it found, or fresh ones
with their depths to which commands were issued. -/
theorem recoverOnce_rings {ret : Int}
    (ran : recoverOnce env (driverExec env nesting) m = .ok (ret, final)) :
    ∃ between, AtReset m between ∧
      ((LosesRings env m between ∧ final.adapter.queues = none) ∨
      ¬ LosesRings env m between ∧ (final.adapter.queues = m.adapter.queues ∨
        ∃ t phys, final.adapter.queues.isSome = true ∧ ∀ property, Stable property →
          property (freshFrom t phys m.adapter.depths) → final.Queued property)) := by
  have opened := ran
  obtain ⟨_, _, set, opened⟩ := bind_returned opened
  cases set
  obtain ⟨_, _, set, opened⟩ := bind_returned opened
  cases set
  obtain ⟨_, _, set, opened⟩ := bind_returned opened
  cases set
  obtain ⟨_, between, cleared, _⟩ := bind_returned opened
  change AtReset m between at cleared
  have adapter := atReset_adapter cleared
  refine ⟨between, cleared, ?_⟩
  rw [recoverOnce_opened env _ cleared] at ran
  obtain ⟨out, last, reset, rest⟩ := bind_returned ran
  have lock : between.adapter.adminLock = false := by
    cases held : between.adapter.adminLock with
    | false => rfl
    | true =>
      obtain ⟨_, _, taken, _⟩ := bind_returned reset
      simp [enaAdminLockTake, held] at taken
      cases taken
  have kept (differs : out ≠ (0, -ENOMEM)) : ¬ LosesRings env m between := by
    rintro ⟨other, lost⟩
    cases reset.symm.trans lost
    exact differs rfl
  rcases resetAndInit_cases env m.adapter.aenqHandler lock (congrArg Adapter.state adapter) with
    ⟨code, effects, nonzero, _, same⟩ | ⟨effects, _, same⟩ | ⟨phys, same⟩
  · cases reset.symm.trans same
    rw [run_ite, if_pos (.inl nonzero)] at rest
    cases rest
    refine .inr ⟨kept (by simp [nonzero]), .inl ?_⟩
    change between.adapter.queues = m.adapter.queues
    rw [adapter]
    rfl
  · cases reset.symm.trans same
    rw [run_ite, if_pos (.inr (by decide))] at rest
    cases rest
    exact .inl ⟨⟨_, same⟩, released_bare (between.logged [.reset .ready])⟩
  · cases reset.symm.trans same
    rw [run_ite, if_neg (by decide)] at rest
    obtain ⟨_, rebuilt, built, ended⟩ := bind_returned rest
    obtain ⟨_, present, stays⟩ := (calm_driver env nesting).rebuild _ _ _ built
      ((released_active _).trans (congrArg Adapter.recoverActive adapter))
    cases ended
    have depths : between.adapter.depths = m.adapter.depths := by
      rw [adapter]
      rfl
    refine .inr ⟨kept (by decide), .inr ⟨between.resetDone.log.length, phys, present, ?_⟩⟩
    intro property stable holds
    rw [← depths] at holds
    exact (stays property stable (.set rfl holds)).congr rfl

end EnaDriver.Admin
