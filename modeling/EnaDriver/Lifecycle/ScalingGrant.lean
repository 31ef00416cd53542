import EnaDriver.Lifecycle.QuietSteps

/-!
# When scaling can be configured

The configuration of receive-side scaling succeeds when the device supports an
indirection table and accepts the feature settings, the allocations are granted,
and tables from an earlier configuration are complete.
-/

namespace EnaDriver.Lifecycle

open Support.Programs Datapath Admin

/-- The tables and control buffers that a configuration fills. -/
structure Complete (s : Settings) : Prop where
  host : s.rss.hostIndTable.isSome = true
  table : s.rss.indTable.isSome = true
  size : s.rss.indTableSize ≠ 0
  key : s.attr.supports .rssHashFunction = true → s.rss.hashKey.isSome = true
  ctrl : s.attr.supports .rssHashInput = true → s.rss.hashCtrl.isSome = true

/-- Scaling is supported, and what it needs is granted from now on. -/
structure Scalable (env : Env) (m : Machine) : Prop where
  supported : m.adapter.settings.attr.supports .rssIndirectionTable = true
  complete : m.adapter.settings.rss.hostIndTable.isSome = true ∧
    m.adapter.settings.rss.indTable.isSome = true → Complete m.adapter.settings
  heap : ∀ t, m.log.length ≤ t → (env.heap t).isSome = true
  dma : ∀ t, m.log.length ≤ t → (env.dma t).isSome = true
  accepted : ∀ t entry status response, m.log.length ≤ t → entry.opcode = 9 →
    env.answer t entry = .completes status response → status = 0

theorem Scalable.mono {env : Env} {m next : Machine} (scalable : Scalable env m)
    (later : m.log.length ≤ next.log.length)
    (settings : next.adapter.settings = m.adapter.settings) : Scalable env next where
  supported := settings ▸ scalable.supported
  complete := settings ▸ scalable.complete
  heap := fun t late => scalable.heap t (Nat.le_trans later late)
  dma := fun t late => scalable.dma t (Nat.le_trans later late)
  accepted := fun t entry status response late =>
    scalable.accepted t entry status response (Nat.le_trans later late)

structure Onward (frame : Frame) (m next : Machine) : Prop where
  steady : Steady frame True next
  later : m.log.length ≤ next.log.length
  attr : next.adapter.settings.attr = m.adapter.settings.attr

theorem Onward.trans {frame : Frame} {first second third : Machine}
    (earlier : Onward frame first second) (later : Onward frame second third) :
    Onward frame first third :=
  ⟨later.steady, Nat.le_trans earlier.later later.later, later.attr.trans earlier.attr⟩

def withRss (change : RssInfo → RssInfo) (m : Machine) : Machine :=
  m.withAdapter (m.adapter.updateSettings fun s => { s with rss := change s.rss })

section Grant

variable {frame : Frame} {env : Env} {m : Machine}

theorem Onward.refl (steady : Steady frame True m) : Onward frame m m :=
  ⟨steady, Nat.le_refl _, rfl⟩

theorem Onward.withRss (steady : Steady frame True m) (change : RssInfo → RssInfo) :
    Onward frame m (withRss change m) := by
  refine ⟨steady.spared ?_ (Grows.same rfl) ⟨rfl, rfl⟩, Nat.le_refl _, rfl⟩
  exact steady.unheld.withAdapter rfl rfl rfl rfl

theorem Onward.logged (steady : Steady frame True m) {effect : Effect} (quiet : Quiet effect) :
    Onward frame m (m.logged [effect]) := by
  refine ⟨(steady_logged_one steady quiet).1, ?_, rfl⟩
  rw [Machine.logged_log, List.length_append]
  exact Nat.le_add_right _ _

/-! ## Commands -/

section

variable (steady : Steady frame True m)
include steady

end

section Configure

variable (prompt : Prompt env True) (steady : Steady frame True m)
  (accepted : ∀ t entry status response, m.log.length ≤ t → entry.opcode = 9 →
    env.answer t entry = .completes status response → status = 0)
include prompt steady accepted

variable (complete : Complete m.adapter.settings)
include complete

end Configure

end Grant

end EnaDriver.Lifecycle
