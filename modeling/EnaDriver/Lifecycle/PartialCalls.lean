import EnaDriver.Admin.PartialRules
import EnaDriver.Lifecycle.Netdev

/-!
# What returning lifecycle calls keep

A judgement that holds of every kind of step of the lifecycle holds of every call.
Configuration and release are followed apart, since they ask for fewer kinds of
steps.  The release of the admin rings at the end of a teardown is asked for by
itself: it is not a step that every state of a device allows.
-/

namespace EnaDriver.Lifecycle

open Support.Programs Datapath Admin

variable {J : {α : Type} → Driver α → Prop} {env : Env} {exec : CtrlExec}

structure Configures (J : {α : Type} → Driver α → Prop) (env : Env) : Prop
    extends Looks J (fun _ _ => True) fun _ _ => True where
  get : J (MonadState.get : Driver Machine)
  heap : J (heapAlloc env)
  count : ∀ side n, J (modifyAdapter (setNumRings side n))
  array : ∀ side n, J (modify (setRings side (List.replicate n none)) : Driver Unit)
  detach : ∀ side q, J (setCell side q none)
  attach : ∀ side q allocRxpkts bounce sq cq sqPhys cqPhys wbPhys,
    J (setCell side q (some (configuredPort allocRxpkts bounce
      (.fresh q side sq cq sqPhys cqPhys wbPhys) side)))

structure Releases (J : {α : Type} → Driver α → Prop) (env : Env) : Prop
    extends Configures J env, Allocates J (fun _ _ => True) (fun _ _ => True) env where
  vectors : J (modifyAdapter fun a => { a with irqVectors := none })
  mask : ∀ value, J (record (.regWrite32 intrMaskOff value))

structure Calls (J : {α : Type} → Driver α → Prop) (env : Env) (exec : CtrlExec) : Prop
    extends Releases J env, Negotiates J (fun _ _ => True) (fun _ _ => True) env exec where
  dev : ∀ change : Netdev → Netdev, J (modify fun m => { m with dev := change m.dev } : Driver Unit)
  link : ∀ up, J (modifyAdapter fun a => { a with linkUp := up })
  clearChains : J enaNetdevClearRxChains
  unmask : ∀ side q, J (unmaskRing side q)
  create : ∀ side q, J (createHw exec side q)
  destroy : ∀ side q, J (destroyHw exec side q)
  refillFirst : J (Unikraft.refillFirst env)

/-! ## Configuration -/

namespace Configures

variable (steps : Configures J env)
include steps

variable (side : RingType)

theorem cell (q : Nat) : J (Lifecycle.cell side q) := by
  rw [← bind_pure (Lifecycle.cell side q)]
  cases side with
  | tx => exact steps.txCell trivial (steps.pure _) fun _ _ => steps.pure _
  | rx => exact steps.rxCell trivial (steps.pure _) fun _ _ => steps.pure _

theorem heapAllocs (n : Nat) : J (Lifecycle.heapAllocs env n) := by
  induction n with
  | zero => exact steps.pure _
  | succ n ih =>
    refine steps.bind steps.heap fun memory => ?_
    cases memory with
    | none => exact steps.pure _
    | some addr => exact steps.bind ih fun _ => steps.pure _

theorem allocRingArray (n : Nat) : J (Lifecycle.allocRingArray env side n) := by
  refine steps.bind steps.get fun m => steps.ite (steps.pure _) ?_
  refine steps.bind steps.heap fun memory => ?_
  cases memory with
  | none => exact steps.pure _
  | some _ => exact steps.after (steps.array side n) _

theorem allocRingArrays (nbRx nbTx : Nat) : J (enaNetdevAllocRingArrays env nbRx nbTx) := by
  refine steps.bind (steps.allocRingArray .rx nbRx) fun _ => steps.ite (steps.pure _) ?_
  refine steps.bind (steps.count .rx nbRx) fun _ => ?_
  refine steps.bind (steps.allocRingArray .tx nbTx) fun _ => steps.ite (steps.pure _) ?_
  exact steps.after (steps.count .tx nbTx) _

theorem freeRing (q : Nat) : J (Lifecycle.freeRing side q) :=
  steps.bind (steps.cell side q) fun _ => steps.detach side q

theorem configureQueue (q nbDesc : Nat) (allocRxpkts : Bool) :
    J (Lifecycle.configureQueue env side q nbDesc allocRxpkts) := by
  refine steps.adapter fun a _ _ => ?_
  refine steps.bind (steps.freeRing side q) fun _ => ?_
  unfold ringAlloc
  split
  · exact steps.pure _
  rw [bind_assoc]
  refine steps.bind (steps.heapAllocs _) fun memory => ?_
  rw [pure_bind]
  cases built : enaRingAlloc q side _ _ fun i => memory[i]? with
  | error ret => exact steps.pure ret
  | ok ring =>
    obtain ⟨_, _, sqPhys, cqPhys, wbPhys, same⟩ := enaRingAlloc_ok built
    refine steps.bind (steps.heapAllocs 3) fun bounce => ?_
    split
    · rw [same]
      exact steps.after (steps.attach side q _ _ _ _ sqPhys cqPhys wbPhys) _
    · exact steps.pure _

theorem unikraftConfigure (options : Options) (running : Bool) (nbRx nbTx : Nat) :
    J (Unikraft.enaNetdevConfigure env options running nbRx nbTx) := by
  refine steps.adapter fun a _ _ => steps.ite (steps.pure _) ?_
  exact steps.ite (steps.pure _) (steps.ite (steps.pure _) (steps.allocRingArrays nbRx nbTx))

theorem hostQueueConfigure (q nbDesc : Nat) (allocRxpkts : Bool) :
    J (Host.queueConfigure env side q nbDesc allocRxpkts) := by
  refine steps.bind steps.get fun m => steps.ite (steps.pure _) (steps.ite (steps.pure _) ?_)
  exact steps.configureQueue side q nbDesc allocRxpkts

theorem unikraftQueueConfigure (options : Options) (running : Bool) (side : RingType)
    (q nbDesc : Nat) (allocRxpkts : Bool) :
    J (Unikraft.queueConfigure env options running side q nbDesc allocRxpkts) := by
  refine steps.adapter fun a _ _ => steps.ite (steps.pure _) (steps.ite (steps.pure _) ?_)
  exact steps.configureQueue side q nbDesc allocRxpkts

end Configures

/-! ## Release -/

namespace Releases

variable (steps : Releases J env)
include steps

theorem msixFini : J enaIntrMsixFini := by
  have maskVector (i : Nat) : J (enaIntrMaskVector i) :=
    steps.adapter fun a _ _ => steps.ite (steps.pure _)
      (steps.ite (steps.after (steps.mask 1) _) (steps.pure _))
  refine steps.adapter fun a _ _ => steps.ite ?_ (steps.pure _)
  refine steps.bind (steps.adapter fun a _ _ => ?_) fun _ => steps.vectors
  exact steps.forM fun i _ => steps.after (maskVector i) _

theorem cleanupRings (side : RingType) : J (Lifecycle.cleanupRings side) := by
  refine steps.bind steps.get fun m => steps.ite (steps.pure _) ?_
  refine steps.bind (steps.forM fun q _ => steps.freeRing side q) fun _ => ?_
  refine steps.bind steps.get fun m => ?_
  refine steps.bind (steps.array side 0) fun _ => ?_
  exact steps.after (steps.count side 0) _

/-- Everything that a teardown releases before the admin rings. -/
theorem cleanupAdapterRings (rss : Bool) : J (enaNetdevCleanupAdapterRings rss) := by
  refine steps.bind (steps.cleanupRings .rx) fun _ => ?_
  refine steps.bind (steps.cleanupRings .tx) fun _ => ?_
  exact steps.after (steps.onlyIf steps.rssFini) _

theorem releaseDevice (fini : J enaAdminFini) (rss : Bool) : J (Lifecycle.releaseDevice rss) := by
  refine steps.bind (steps.cleanupAdapterRings rss) fun _ => ?_
  refine steps.bind steps.msixFini fun _ => ?_
  exact steps.after fini _

end Releases

namespace Calls

variable (steps : Calls J env exec)
include steps

/-! ## Start and stop -/

theorem unmaskVector (vectorId : Nat) : J (enaIntrUnmaskVector vectorId) := by
  refine steps.adapter fun a _ _ => steps.ite (steps.pure _) (steps.ite (steps.pure _) ?_)
  refine steps.ite (steps.after (steps.mask 0) _) ?_
  refine steps.bind (steps.unmask .rx _) fun _ => ?_
  exact steps.after (steps.unmask .tx _) _

theorem unmaskAll : J enaIntrUnmaskAll :=
  steps.adapter fun _ _ _ => steps.forM fun i _ => steps.after (steps.unmaskVector i) _

theorem createRings (side : RingType) (indices : List Nat) :
    J (Lifecycle.createRings exec side indices) := by
  induction indices with
  | nil => exact steps.pure _
  | cons q rest ih =>
    refine steps.bind (steps.cell side q) fun found => steps.ite ?_ ih
    refine steps.bind (steps.create side q) fun ret => steps.ite (steps.pure _) ?_
    exact steps.bind ih fun _ => steps.pure _

theorem destroyRings (side : RingType) (bound : Nat) :
    J (Lifecycle.destroyRings exec side bound) :=
  steps.forM fun q _ => steps.destroy side q

theorem startRingsHw (nbRx nbTx : Nat) : J (enaNetdevStartRingsHw exec nbRx nbTx) := by
  refine steps.bind (steps.createRings .tx _) fun tx => steps.ite ?_ ?_
  · exact steps.after (steps.destroyRings .tx _) _
  refine steps.bind (steps.createRings .rx _) fun rx => steps.ite ?_ ?_
  · refine steps.bind (steps.destroyRings .rx _) fun _ => ?_
    exact steps.after (steps.destroyRings .tx _) _
  · exact steps.after steps.unmaskAll _

theorem stopRingsHw (nbRx nbTx : Nat) : J (enaNetdevStopRingsHw exec nbRx nbTx) := by
  have looks : J ((List.range nbTx).forM fun q => do
      let _ ← Lifecycle.cell .tx q) :=
    steps.forM fun q _ => steps.after (steps.cell .tx q) _
  refine steps.bind looks fun _ => ?_
  refine steps.bind (steps.destroyRings .rx nbRx) fun _ => ?_
  exact steps.after (steps.destroyRings .tx nbTx) _

/-! ## Calls -/

theorem hostStop : J (Host.enaNetdevStop exec) := by
  refine steps.bind steps.get fun m => steps.ite (steps.pure _) ?_
  refine steps.bind steps.clearChains fun _ => ?_
  refine steps.bind (steps.stopRingsHw _ _) fun ret => steps.ite (steps.pure _) ?_
  refine steps.bind (steps.link false) fun _ => ?_
  exact steps.after (steps.dev fun dev => { dev with state := .stopped }) _

theorem unikraftStop : J (Unikraft.enaNetdevStop exec) := by
  refine steps.bind (steps.link false) fun _ => ?_
  refine steps.bind steps.clearChains fun _ => ?_
  exact steps.adapter fun a _ _ => steps.stopRingsHw _ _

theorem hostStart : J (Host.enaNetdevStart env exec) := by
  refine steps.bind steps.get fun m => steps.ite (steps.pure _) ?_
  refine steps.bind (steps.startRingsHw _ _) fun ret => steps.ite (steps.pure _) ?_
  refine steps.bind (steps.onlyIf (steps.rssConfigure fun _ _ => trivial)) fun ret => steps.ite (steps.pure _) ?_
  refine steps.bind (steps.link true) fun _ => ?_
  exact steps.after (steps.dev fun dev => { dev with state := .running }) _

theorem unikraftStart (options : Options) : J (Unikraft.enaNetdevStart env exec options) := by
  refine steps.adapter fun a _ _ => ?_
  refine steps.bind (steps.startRingsHw _ _) fun ret => steps.ite (steps.pure _) ?_
  refine steps.bind steps.refillFirst fun _ => ?_
  refine steps.adapter fun a _ _ => ?_
  refine steps.bind (steps.onlyIf (steps.rssConfigure fun _ _ => trivial)) fun _ => ?_
  exact steps.after (steps.link true) _

theorem hostConfigure (nbRx nbTx : Nat) : J (Host.enaNetdevConfigure env nbRx nbTx) := by
  refine steps.bind steps.get fun m => steps.ite (steps.pure _) ?_
  refine steps.ite (steps.pure _) (steps.ite (steps.pure _) ?_)
  refine steps.bind (steps.allocRingArrays nbRx nbTx) fun ret => steps.ite (steps.pure _) ?_
  exact steps.after (steps.dev fun _ => ⟨.configured, nbRx, nbTx⟩) _

/-- Every call that returns relates its ends, a teardown if the release of the admin
rings does. -/
theorem perform (build : Build) {call : Call} (fini : call = .free → J enaAdminFini) :
    J (Lifecycle.perform env exec build call) := by
  have ended {α β : Type} {program : Driver α} (runs : J program) (result : α → β) :
      J (do return result (← program)) :=
    steps.bind runs fun _ => steps.pure _
  cases build with
  | host =>
    cases call with
    | configure running nbRx nbTx => exact ended (steps.hostConfigure nbRx nbTx) _
    | rxqConfigure running q nbDesc alloc => exact ended (steps.hostQueueConfigure .rx q nbDesc alloc) _
    | txqConfigure running q nbDesc => exact ended (steps.hostQueueConfigure .tx q nbDesc false) _
    | start => exact ended steps.hostStart _
    | stop => exact ended steps.hostStop _
    | free =>
      refine ended (steps.bind steps.hostStop fun _ => ?_) _
      refine steps.bind (steps.releaseDevice (fini rfl) true) fun _ => ?_
      exact steps.after (steps.dev fun _ => ⟨.unconfigured, 0, 0⟩) _
  | unikraft options =>
    cases call with
    | configure running nbRx nbTx => exact ended (steps.unikraftConfigure options running nbRx nbTx) _
    | rxqConfigure running q nbDesc alloc =>
      exact ended (steps.unikraftQueueConfigure options running .rx q nbDesc alloc) _
    | txqConfigure running q nbDesc =>
      exact ended (steps.unikraftQueueConfigure options running .tx q nbDesc false) _
    | start => exact ended (steps.unikraftStart options) _
    | stop => exact ended steps.unikraftStop _
    | free =>
      refine ended (steps.bind steps.unikraftStop fun _ => ?_) _
      exact steps.releaseDevice (fini rfl) options.rss

end Calls

end EnaDriver.Lifecycle
