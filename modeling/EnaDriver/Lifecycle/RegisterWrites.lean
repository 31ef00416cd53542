import EnaDriver.Lifecycle.Probe

/-!
# Register writes of a whole device

A ring stores the offsets that the device answered and writes through them later,
also when its creation failed and the ring stays attached.  The doorbells and the
push area are checked before the ring stores them where writes look for them.  The
unmask register of a completion queue is stored first and checked afterwards: the
driver writes inside the register windows as long as the device answers unmask
registers inside them, and a rejected answer is written through otherwise.
-/

namespace EnaDriver.Lifecycle

open Support.Laps Support.Programs Support.Runs
open Datapath Admin

variable {events : List Event} {q : Nat} {recover : Driver Int} {side : RingType} {α : Type}

/-! ## The invariant -/

def fixedRegisters : List Nat := [acqTailOff, aenqHeadDbOff, intrMaskOff]

def InsideWindows (dev : DeviceMap) : Effect → Prop
  | .regWrite32 offset _ => offset ∈ fixedRegisters ∨ dev.Register offset
  | .ring _ _ events => ∀ event ∈ events, event.Inside dev
  | _ => True

/-- Everything written so far is inside, and so is everything that an attached ring
can write. -/
structure InWindows (dev : DeviceMap) (m : Machine) : Prop where
  bar0 : m.adapter.map.bar0Size = dev.bar0Size
  bar2 : m.adapter.map.bar2Size = dev.bar2Size
  rings : ∀ side q r, ringAt side q m = some r → Windowed dev r
  log : ∀ effect ∈ m.log, InsideWindows dev effect

/-- The device answers CREATE_CQ with an unmask register inside, or with none. -/
def AnswersInside (env : Env) (dev : DeviceMap) : Prop :=
  ∀ t entry response, entry.opcode = 3 → env.answer t entry = .completes 0 response →
    response.cqUnmaskOffset = 0 ∨ dev.Register response.cqUnmaskOffset

abbrev Stays (dev : DeviceMap) {α : Type} (program : Driver α) : Prop :=
  Ends (Carries (InWindows dev)) program

section Invariant

variable {dev : DeviceMap} {m : Machine}

variable (holds : InWindows dev m)
include holds

theorem InWindows.logged {effects : List Effect}
    (inside : ∀ effect ∈ effects, InsideWindows dev effect) : InWindows dev (m.logged effects) where
  bar0 := holds.bar0
  bar2 := holds.bar2
  rings := fun side q r found => holds.rings side q r ((ringAt_logged effects).symm.trans found)
  log := fun effect member =>
    (List.mem_append.mp member).elim (holds.log effect) (inside effect)

theorem InWindows.withAdapter {a : Adapter}
    (sizes : a.map.bar0Size = m.adapter.map.bar0Size ∧ a.map.bar2Size = m.adapter.map.bar2Size) :
    InWindows dev (m.withAdapter a) where
  bar0 := sizes.1.trans holds.bar0
  bar2 := sizes.2.trans holds.bar2
  rings := fun side q r found => holds.rings side q r ((ringAt_withAdapter a).symm.trans found)
  log := holds.log

theorem InWindows.setRings (side : RingType) (array : List (Option (Port side)))
    (each : ∀ (q : Nat) (port : Port side), array[q]? = some (some port) → Windowed dev port.ring) :
    InWindows dev (setRings side array m) := by
  cases side with
  | tx =>
    refine ⟨holds.bar0, holds.bar2, fun other q r found => ?_, holds.log⟩
    cases other with
    | tx =>
      obtain ⟨port, stored, rfl⟩ := ringAt_tx.mp found
      exact each q port stored
    | rx => exact holds.rings .rx q r found
  | rx =>
    refine ⟨holds.bar0, holds.bar2, fun other q r found => ?_, holds.log⟩
    cases other with
    | tx => exact holds.rings .tx q r found
    | rx =>
      obtain ⟨port, stored, rfl⟩ := ringAt_rx.mp found
      exact each q port stored

/-- The rings of an array are inside. -/
theorem InWindows.port {port : Port side}
    (stored : (Lifecycle.rings side m)[q]? = some (some port)) : Windowed dev port.ring := by
  cases side with
  | tx => exact holds.rings .tx q _ (ringAt_tx.mpr ⟨port, stored, rfl⟩)
  | rx => exact holds.rings .rx q _ (ringAt_rx.mpr ⟨port, stored, rfl⟩)

theorem InWindows.setCell (side : RingType) (q : Nat) (cell : Option (Port side))
    (inside : ∀ port, cell = some port → Windowed dev port.ring) :
    InWindows dev (Lifecycle.setRings side ((Lifecycle.rings side m).set q cell) m) := by
  refine holds.setRings side _ fun i port stored => ?_
  rw [List.getElem?_set] at stored
  split at stored
  · split at stored
    · exact inside port (Option.some.inj stored)
    · cases stored
  · exact holds.port stored

theorem InWindows.updateRing {change : Ring → Ring}
    (keeps : ∀ r, ringAt side q m = some r → Windowed dev r → Windowed dev (change r)) :
    InWindows dev (m.updateRing side q change) := by
  refine ⟨?_, ?_, fun other i r found => ?_, ?_⟩
  · rw [updateRing_adapter]
    exact holds.bar0
  · rw [updateRing_adapter]
    exact holds.bar2
  · rw [ringAt_updateRing] at found
    obtain ⟨old, present, same⟩ := Option.map_eq_some_iff.mp found
    have windowed := holds.rings other i old present
    split at same
    · rename_i here
      obtain ⟨rfl, rfl⟩ := here
      rw [← same]
      exact keeps old present windowed
    · rw [← same]
      exact windowed
  · rw [updateRing_log]
    exact holds.log

/-- A ring that takes a step of the datapath, with what it wrote. -/
theorem InWindows.stepped (side : RingType) {port next : Port side}
    (stored : (Lifecycle.rings side m)[q]? = some (some port))
    (confined : Confined dev port.ring events next.ring) :
    InWindows dev ((Lifecycle.setRings side
      ((Lifecycle.rings side m).modify q (Option.map fun _ => next)) m).logged [.ring side q events]) := by
  have windowed := holds.port stored
  refine InWindows.logged (holds.setRings side _ fun i other found => ?_) fun effect member => ?_
  · rw [getElem?_modify_map] at found
    obtain ⟨cell, present, same⟩ := Option.map_eq_some_iff.mp found
    split at same
    · obtain ⟨_, _, rfl⟩ := Option.map_eq_some_iff.mp same
      exact confined.windowed windowed
    · rw [same] at present
      exact holds.port present
  · rw [List.mem_singleton.mp member]
    exact confined.inside windowed

theorem InWindows.invalidated {r next : Ring} (attached : ringAt side q m = some r)
    (invalidates : enaAdapterInvalidateIoRing r = .ok (next, events)) :
    InWindows dev ((m.updateRing side q fun _ => next).logged [.ring side q events]) := by
  obtain ⟨keeps, inside⟩ := enaAdapterInvalidateIoRing_inside invalidates
  refine InWindows.logged (holds.updateRing fun old found windowed => ?_) fun effect member => ?_
  · cases attached.symm.trans found
    exact keeps windowed
  · rw [List.mem_singleton.mp member]
    exact inside

end Invariant

/-! ## Primitive steps -/

section Steps

variable {dev : DeviceMap} {env : Env} {R : Ring → List Event → Ring → Prop}

theorem stays_pure (value : α) : Stays dev (pure value : Driver α) :=
  Ends.pure (Carries.refl _) value

theorem stays_bind {β : Type} {program : Driver α} {next : α → Driver β}
    (first : Stays dev program) (second : ∀ value, Stays dev (next value)) :
    Stays dev (program >>= next) :=
  Ends.bind (Carries.trans _) first second

theorem stays_get : Stays dev (get : Driver Machine) := Ends.get (Carries.refl _)

theorem stays_adapter : Stays dev adapter := stays_bind stays_get fun _ => stays_pure _

theorem stays_modifyAdapter (change : Adapter → Adapter)
    (sizes : ∀ a, (change a).map.bar0Size = a.map.bar0Size ∧
      (change a).map.bar2Size = a.map.bar2Size := by exact fun _ => ⟨rfl, rfl⟩) :
    Stays dev (modifyAdapter change) := by
  intro m value final ran holds
  cases ran
  exact holds.withAdapter (sizes m.adapter)

theorem stays_settings (change : Settings → Settings) : Stays dev (modifySettings change) :=
  stays_modifyAdapter (·.updateSettings change)

theorem stays_record {effect : Effect} (inside : InsideWindows dev effect) :
    Stays dev (record effect) := by
  intro m value final ran holds
  cases ran
  refine holds.logged fun other member => ?_
  rw [List.mem_singleton.mp member]
  exact inside

theorem stays_heapAlloc : Stays dev (heapAlloc env) :=
  stays_bind stays_get fun _ => stays_bind (stays_record trivial) fun _ => stays_pure _

/-! ## Admin rings -/

theorem stays_installAdminRings (aq acq aenq : Depth) (rings : DmaBuf × DmaBuf × DmaBuf) :
    Stays dev (installAdminRings aq acq aenq rings) := by
  refine stays_bind (stays_modifyAdapter _) fun _ => ?_
  refine stays_bind (stays_record trivial) fun _ => ?_
  refine stays_bind (stays_record (.inl (by decide))) fun _ => ?_
  refine stays_bind (stays_record (.inl (by decide))) fun _ => ?_
  exact stays_modifyAdapter _

theorem restarts_stay (dev : DeviceMap) (env : Env) :
    Restarts (Ends (Carries (InWindows dev))) (fun _ _ => True) (fun _ _ => True) env where
  toLooks := Ends.looks (Carries.refl _) (Carries.trans _)
  settings := stays_settings
  dmaAlloc := stays_bind stays_get fun _ => stays_bind (stays_record trivial) fun _ => stays_pure _
  dmaFree := fun buf => stays_record trivial
  heap := stays_heapAlloc
  forget := stays_modifyAdapter _
  install := stays_installAdminRings
  reset := by
    refine stays_bind stays_get fun m => Ends.ite (stays_pure _) ?_
    refine stays_bind (stays_record trivial) fun _ => ?_
    split
    · exact stays_pure _
    · exact stays_bind (stays_modifyAdapter _) fun _ => stays_pure _
    · exact stays_pure _
  handler := stays_modifyAdapter _
  take := by
    have locked : Stays dev (modifyAdapter (·.setLock true)) := stays_modifyAdapter _
    exact stays_bind stays_adapter fun a =>
      Ends.ite (stays_bind (Ends.throw _) fun _ => locked) locked
  drop := stays_modifyAdapter (·.setLock false)

/-! ## Commands -/

theorem restartEffects_inside (q : AdminQueues) :
    ∀ effect ∈ q.restartEffects, InsideWindows dev effect := by
  intro effect member
  unfold AdminQueues.restartEffects at member
  split at member
  · rw [List.mem_singleton.mp member]
    exact .inl (by decide)
  · cases member

theorem stays_execWith (recovers : Stays dev recover) (ctrl : List Nat) (req : AdminReq) :
    Stays dev (execWith env recover ctrl req) := by
  refine execWith_ends (Carries.refl _) (Carries.trans _) recovers ?_ ?_
  · intro m q _ _ holds
    refine InWindows.logged (holds.withAdapter (a := (m.adapter.setQueues q.submitted).setState .error)
      ⟨rfl, rfl⟩) (List.forall_mem_append.mpr ⟨restartEffects_inside q, ?_⟩)
    exact List.forall_mem_singleton.mpr trivial
  · intro m q answer _ _ holds
    refine InWindows.logged (holds.withAdapter (a := m.adapter.setQueues q.submitted.advanceAcq)
      ⟨rfl, rfl⟩) (List.forall_mem_append.mpr ⟨restartEffects_inside q, ?_⟩)
    exact List.forall_mem_cons.mpr ⟨trivial, List.forall_mem_singleton.mpr (.inl (by decide))⟩

/-! ## Queues -/

/-- A step on a cell of an array: the continuation is judged by the ring found. -/
theorem stays_attached {π : Type} {array : Machine → List (Option π)} {next : Option π → Driver α}
    (absent : Stays dev (next none))
    (present : ∀ m port value final, InWindows dev m → (array m)[q]? = some (some port) →
      next (some port) m = .ok (value, final) → InWindows dev final) :
    Stays dev ((do
      let m ← get
      liftM (ringCell (array m) q)) >>= next) := by
  intro m value final ran holds
  obtain ⟨cell, between, looked, rest⟩ := bind_returned ran
  obtain ⟨rfl, stored⟩ := ringCell_returned looked
  cases cell with
  | none => exact absent _ _ _ rest holds
  | some port => exact present _ port value final holds (stored port rfl) rest

theorem machine_windowAccess (answers : AnswersInside env dev) (recovers : Stays dev recover)
    (side : RingType) (q : Nat) :
    WindowAccess dev (InWindows dev) (ringAt side q) (execWith env recover []) (portAccess side q) where
  command := stays_execWith recovers []
  unmask := by
    intro req m resp final opcode fits ran
    obtain ⟨queues, response, answer, rfl⟩ := execWith_accepted ran
    have whole : copiedResponse req.respCap response 3 = response 3 :=
      copiedResponse_word response (by omega)
    unfold Response.cqUnmaskOffset
    rw [whole]
    exact answers _ _ response opcode answer
  get := fun m r final => portAccess_got
  modify := by
    intro m change
    refine ⟨m.updateRing side q change, portAccess_modify change, ?_, fun holds keeps => ?_⟩
    · rw [ringAt_updateRing]
      simp
    · exact holds.updateRing keeps

theorem stays_createHw (answers : AnswersInside env dev) (recovers : Stays dev recover)
    (side : RingType) (q : Nat) :
    Stays dev (createHw (execWith env recover) side q) := by
  refine stays_bind (stays_record nothing_inside) fun _ => ?_
  intro m value final ran holds
  exact (machine_windowAccess answers recovers side q).createHw holds.bar0 holds.bar2 _ _ _ _ ran holds

theorem stays_destroyHw (answers : AnswersInside env dev) (recovers : Stays dev recover)
    (side : RingType) (q : Nat) :
    Stays dev (destroyHw (execWith env recover) side q) := by
  refine stays_bind (stays_bind stays_get fun m => Ends.lift (Carries.refl _) _) fun found => ?_
  refine Ends.ite ?_ (stays_pure _)
  refine stays_bind (stays_record nothing_inside) fun _ => ?_
  exact stays_bind (machine_windowAccess answers recovers side q).destroyHw fun _ => stays_pure _

theorem stays_unmaskRing (side : RingType) (q : Nat) : Stays dev (unmaskRing side q) := by
  refine stays_bind stays_adapter fun a => Ends.ite ?_ (stays_pure _)
  refine stays_attached (stays_pure _) ?_
  intro m port value final holds stored ran
  have windowed : Windowed dev port.ring := holds.port stored
  dsimp only at ran
  split at ran
  · rename_i present
    have inside : InsideWindows dev (.regWrite32 port.ring.hw.cqUnmaskDbOffset intrUnmask) :=
      .inr (windowed.unmask.resolve_left present)
    exact stays_record inside _ _ _ ran holds
  · cases ran
    exact holds

/-! ## Traffic -/

theorem TxTraffic.apply_steps (steps : TxSteps R) {p next : TxPort} {traffic : TxTraffic}
    (applied : traffic.apply p = .ok (next, events)) : R p.ring events next.ring := by
  cases traffic with
  | submit cpu pkt =>
    obtain ⟨out, ran, rest⟩ := bind_ok applied
    cases rest
    exact steps.submit ran
  | llqPush cpu pkt hdrData hdrLen =>
    obtain ⟨out, ran, rest⟩ := bind_ok applied
    cases rest
    exact steps.llqPush ran
  | doorbell =>
    cases applied
    exact steps.doorbell p.ring
  | poll cpu budget views =>
    obtain ⟨⟨ret, last, happened⟩, ran, rest⟩ := bind_ok applied
    cases rest
    exact steps.pollCompletions ran

theorem RxTraffic.apply_steps (steps : RingSteps R) {p next : RxPort} {traffic : RxTraffic}
    (applied : traffic.apply p = .ok (next, events)) : R p.ring events next.ring := by
  cases traffic with
  | submitOne netbuf physAddr bufLen =>
    obtain ⟨out, ran, rest⟩ := bind_ok applied
    cases rest
    exact steps.rxSubmitOne ran
  | refill count alloc =>
    obtain ⟨⟨ret, last, happened⟩, ran, rest⟩ := bind_ok applied
    cases rest
    exact steps.rxRefill ran
  | doorbell =>
    cases applied
    exact steps.doorbell p.ring
  | poll maxPkts views =>
    obtain ⟨polled, ran, rest⟩ := bind_ok applied
    cases rest
    exact steps.rxPoll ran

theorem stays_transmit (q : Nat) (traffic : TxTraffic) : Stays dev (transmit q traffic) := by
  refine stays_attached (stays_pure _) ?_
  intro m port value final holds stored ran
  obtain ⟨⟨next, events⟩, took, rest⟩ := bind_lifted ran
  cases rest
  exact holds.stepped .tx stored (TxTraffic.apply_steps (confined_steps dev) took)

theorem stays_receive (q : Nat) (traffic : RxTraffic) : Stays dev (receive q traffic) := by
  refine stays_attached (stays_pure _) ?_
  intro m port value final holds stored ran
  obtain ⟨⟨next, events⟩, took, rest⟩ := bind_lifted ran
  cases rest
  exact holds.stepped .rx stored (RxTraffic.apply_steps (confined_steps dev).toRingSteps took)

theorem InWindows.refilled {port : RxPort} {q count : Nat} (holds : InWindows dev m)
    (stored : m.rx[q]? = some (some port))
    (ran : (do
      let m ← get
      let (_, filled, events) ← enaRxRefill port count (env.netbufs m.log.length)
      modify fun m => m.updateRx q fun _ => filled
      record (.ring .rx q events) : Driver Unit) m = .ok (value, final)) : InWindows dev final := by
  obtain ⟨_, _, got, rest⟩ := bind_returned ran
  cases got
  obtain ⟨⟨ret, filled, events⟩, took, rest⟩ := bind_lifted rest
  cases rest
  exact holds.stepped .rx stored ((confined_steps dev).rxRefill took)

theorem stays_recoverRefill (q : Nat) : Stays dev (recoverRefill env q) := by
  refine stays_attached (stays_pure _) ?_
  intro m port value final holds stored ran
  dsimp only at ran
  split at ran
  · exact holds.refilled stored ran
  · cases ran
    exact holds

theorem stays_refillFirst : Stays dev (Unikraft.refillFirst env) :=
  stays_attached (stays_pure _) fun _ _ _ _ holds stored ran => holds.refilled stored ran

theorem stays_invalidateTx (q : Nat) : Stays dev (invalidateTxRing q) := by
  refine stays_attached (stays_pure _) ?_
  intro m port value final holds stored ran
  obtain ⟨⟨ring, events⟩, took, rest⟩ := bind_lifted ran
  cases rest
  exact holds.invalidated (ringAt_tx.mpr ⟨port, stored, rfl⟩) took

theorem stays_invalidateRx (q : Nat) : Stays dev (invalidateRxRing q) := by
  refine stays_attached (stays_pure _) ?_
  intro m port value final holds stored ran
  obtain ⟨⟨ring, events⟩, took, rest⟩ := bind_lifted ran
  cases rest
  exact holds.invalidated (ringAt_rx.mpr ⟨port, stored, rfl⟩) took

end Steps

/-! ## Runs -/

section Runs

variable {dev : DeviceMap} {env : Env} (answers : AnswersInside env dev)
include answers

theorem driver_stays (recovers : Stays dev recover) :
    EndsDriver (Carries (InWindows dev)) env (execWith env recover) where
  toAllocates := (restarts_stay dev env).toAllocates
  command := fun ctrl req _ => stays_execWith recovers ctrl req
  createTx := fun q _ => stays_createHw answers recovers .tx q
  createRx := fun q _ => stays_createHw answers recovers .rx q
  refill := fun q _ => stays_recoverRefill q

theorem recovery_stays : EndsRecovery (Carries (InWindows dev)) env where
  refl := Carries.refl _
  trans := Carries.trans _
  active := fun now => stays_modifyAdapter _
  failed := stays_modifyAdapter _
  invalidateTx := stays_invalidateTx
  invalidateRx := stays_invalidateRx
  reset := (restarts_stay dev env).resetAndInit
  driver := fun recover recovers => driver_stays answers recovers

theorem calls_stay (nesting : Nat) :
    Calls (Ends (Carries (InWindows dev))) env (driverExec env nesting) where
  toLooks := Ends.looks (Carries.refl _) (Carries.trans _)
  get := stays_get
  heap := stays_heapAlloc
  settings := stays_settings
  dmaAlloc := (restarts_stay dev env).dmaAlloc
  dmaFree := (restarts_stay dev env).dmaFree
  command := fun ctrl req _ => stays_execWith ((recovery_stays answers).resetAndRecover nesting) ctrl req
  dev := by
    intro change m value final ran holds
    cases ran
    exact ⟨holds.bar0, holds.bar2, holds.rings, holds.log⟩
  link := fun up => stays_modifyAdapter _
  vectors := stays_modifyAdapter _
  count := by
    intro side n
    refine stays_modifyAdapter _ fun a => ?_
    cases side <;> exact ⟨rfl, rfl⟩
  array := by
    intro side n m value final ran holds
    cases ran
    refine holds.setRings side _ fun q port stored => ?_
    rw [List.getElem?_replicate] at stored
    split at stored
    · cases Option.some.inj stored
    · cases stored
  detach := by
    intro side q m value final ran holds
    cases ran
    exact holds.setCell side q none fun _ found => nomatch found
  attach := by
    intro side q allocRxpkts bounce sq cq sqPhys cqPhys wbPhys m value final ran holds
    cases ran
    refine holds.setCell side q _ fun port found => ?_
    cases found
    have fresh := fresh_windowed dev q side sq cq sqPhys cqPhys wbPhys
    cases side with
    | tx => exact fresh
    | rx => exact fresh.congr rfl rfl
  clearChains := by
    intro m value final ran holds
    cases ran
    refine holds.setRings .rx _ fun q port stored => ?_
    rw [List.getElem?_map] at stored
    obtain ⟨cell, present, same⟩ := Option.map_eq_some_iff.mp stored
    obtain ⟨old, rfl, rfl⟩ := Option.map_eq_some_iff.mp same
    exact holds.rings .rx q _ (ringAt_rx.mpr ⟨old, present, rfl⟩)
  mask := fun value => stays_record (.inl (by decide))
  unmask := stays_unmaskRing
  create := stays_createHw answers ((recovery_stays answers).resetAndRecover nesting)
  destroy := stays_destroyHw answers ((recovery_stays answers).resetAndRecover nesting)
  refillFirst := stays_refillFirst

theorem initRun_stays (nesting mtu : Nat) :
    Stays dev (enaInitRun env (driverExec env nesting) mtu) := by
  have recovers := (recovery_stays answers).resetAndRecover nesting
  refine (driver_stays answers recovers).initRun ?_ (stays_modifyAdapter _)
    (stays_modifyAdapter _) mtu
  refine stays_bind (restarts_stay dev env).dmaAlloc fun page => ?_
  cases page with
  | none => exact stays_pure _
  | some buf =>
    refine stays_bind (stays_execWith recovers _ _) fun answer => Ends.ite ?_ ?_
    · exact stays_bind (stays_record trivial) fun _ => stays_pure _
    · exact stays_bind (stays_modifyAdapter _) fun _ => stays_pure _

theorem setup_stays (platform : Platform) : Stays dev (enaIntrSetup env platform) := by
  have calls := calls_stay answers 0
  have table (n : Nat) : Stays dev (enaIntrMsixInit env n) := by
    refine Ends.ite (stays_pure _) (stays_bind stays_heapAlloc fun memory => ?_)
    cases memory with
    | none => exact stays_bind (stays_modifyAdapter _) fun _ => stays_pure _
    | some _ => exact stays_bind (stays_modifyAdapter _) fun _ => stays_pure _
  refine stays_bind stays_adapter fun a => Ends.ite (stays_pure _) ?_
  refine Ends.ite (stays_pure _) (Ends.ite (stays_pure _) ?_)
  refine stays_bind (table _) fun ret => Ends.ite (stays_pure _) ?_
  refine stays_bind (calls.unmaskVector 0) fun _ => ?_
  split
  · exact stays_pure _
  · refine Ends.ite ?_ (stays_pure _)
    exact stays_bind calls.msixFini fun _ => stays_pure _

theorem event_stays (nesting : Nat) (entry : AenqEntry) :
    Stays dev (enaAenqDefaultHandler env nesting entry) := by
  unfold enaAenqDefaultHandler
  split
  · exact (recovery_stays answers).resetAndRecover nesting
  · exact stays_bind (stays_modifyAdapter _) fun _ => stays_pure _
  · exact stays_bind (stays_modifyAdapter _) fun _ => stays_pure _
  · exact stays_pure _

theorem deviceOp_stays (build : Build) (op : DeviceOp) : Stays dev (op.perform env build) := by
  have fini : Stays dev enaAdminFini := (restarts_stay dev env).adminFini (restarts_stay dev env).forget
  cases op with
  | adminInit aq acq aenq => exact stays_bind ((restarts_stay dev env).adminInit aq acq aenq) fun _ => stays_pure _
  | adminFini => exact fini
  | initRun mtu => exact stays_bind (initRun_stays answers 1 mtu) fun _ => stays_pure _
  | register => exact stays_modifyAdapter (·.setHandler true)
  | setup platform => exact stays_bind (setup_stays answers platform) fun _ => stays_pure _
  | msixFini => exact (calls_stay answers 1).msixFini
  | call request =>
    refine stays_bind ?_ fun _ => stays_pure _
    exact (calls_stay answers 1).perform build fun _ => fini
  | event entry => exact stays_bind (event_stays answers 1 entry) fun _ => stays_pure _
  | unmask vectorId =>
    exact stays_bind ((calls_stay answers 1).unmaskVector vectorId) fun _ => stays_pure _
  | transmit q traffic => exact stays_transmit q traffic
  | receive q traffic => exact stays_receive q traffic

end Runs

theorem probed_inWindows (dev : DeviceMap) : InWindows dev (.probed dev) where
  bar0 := rfl
  bar2 := rfl
  rings := by
    intro side q r found
    cases side <;> cases found
  log := fun _ member => nomatch member

/-- With a device that answers unmask registers inside the windows, everything that
the driver writes in any run is inside, and so is everything that the rings attached
at its end can write. -/
theorem register_writes_stay_inside {env : Env} {dev : DeviceMap} (answers : AnswersInside env dev)
    (build : Build) {ops : List DeviceOp} {last : Machine}
    (ran : run (deviceStep env build) (.probed dev) ops = .ok last) :
    (∀ effect ∈ last.log, InsideWindows dev effect) ∧
      ∀ side q r, ringAt side q last = some r → Windowed dev r := by
  have holds : InWindows dev last := by
    refine run_kept (InWindows dev) ?_ (probed_inWindows dev) ran
    intro m op next holds stepped
    obtain ⟨⟨value, final⟩, performed, same⟩ := bind_ok stepped
    cases same
    exact deviceOp_stays answers build op _ _ _ performed holds
  exact ⟨holds.log, holds.rings⟩

/-! ## One ring of each direction -/

def unmasking (offset : UInt32) : Env :=
  { Env.obliging with
    answer := fun _ entry =>
      .completes 0 fun word => if entry.opcode = 3 ∧ word = 3 then offset else 0 }

def addAndStart : List DeviceOp :=
  [.adminInit 32 32 32, .initRun 1500, .register, .setup ⟨0, 2, none⟩,
    .call (.configure false 1 1), .call (.rxqConfigure false 0 4 true),
    .call (.txqConfigure false 0 4), .call .start, .unmask 1]

def fullBuild : Build := .unikraft ⟨true, 8⟩

theorem unmasking_answersInside {offset : UInt32} {dev : DeviceMap}
    (inside : dev.Register offset.toNat) : AnswersInside (unmasking offset) dev := by
  intro t entry response opcode answer
  injection answer with _ same
  rw [← same]
  refine .inr ?_
  change dev.Register (if entry.opcode = 3 ∧ 3 = 3 then offset else 0).toNat
  rw [if_pos ⟨opcode, rfl⟩]
  exact inside

theorem register_writes_stay_inside_pair :
    ∃ last, run (deviceStep (unmasking 0x800) fullBuild) (.probed plainDevice) addAndStart =
      .ok last ∧
      (∀ effect ∈ last.log, InsideWindows plainDevice effect) ∧
        ∀ side q r, ringAt side q last = some r → Windowed plainDevice r := by
  have observed : (run (deviceStep (unmasking 0x800) fullBuild) (.probed plainDevice)
      addAndStart).toOption.map (fun last => last.tx.length) = some 1 := by decide +kernel
  obtain ⟨last, ran, _⟩ := ok_of_observed observed
  exact ⟨last, ran, register_writes_stay_inside
    (unmasking_answersInside ⟨by decide, by decide⟩) fullBuild ran⟩

def writes (log : List Effect) : List (Nat × Nat) :=
  log.filterMap fun effect =>
    match effect with
    | .regWrite32 offset value => some (offset, value)
    | _ => none

theorem mem_writes {log : List Effect} {offset value : Nat} (found : (offset, value) ∈ writes log) :
    Effect.regWrite32 offset value ∈ log := by
  obtain ⟨effect, member, same⟩ := List.mem_filterMap.mp found
  cases effect <;> cases same
  exact member

/-- The offset of the unmask register that the first transmit ring stores, and what
has been written. -/
def unmaskFacts (m : Machine) : Option Nat × List (Nat × Nat) :=
  ((ringAt .tx 0 m).map fun r => r.hw.cqUnmaskDbOffset, writes m.log)

/-- The device answers an unmask register outside the window.  The creation of the
completion queue fails and the ring stays attached with the rejected offset, to
which the next enabled interrupt writes. -/
theorem rejected_unmask_register_is_written :
    ∃ last, run (deviceStep (unmasking 0x2000) fullBuild) (.probed plainDevice) addAndStart =
      .ok last ∧
      (ringAt .tx 0 last).map (fun r => r.hw.cqUnmaskDbOffset) = some 0x2000 ∧
      Effect.regWrite32 0x2000 intrUnmask ∈ last.log ∧
      ¬ InsideWindows plainDevice (.regWrite32 0x2000 intrUnmask) := by
  have observed : (run (deviceStep (unmasking 0x2000) fullBuild) (.probed plainDevice)
      addAndStart).toOption.map unmaskFacts = some (some 0x2000, [(acqTailOff, 0),
        (aenqHeadDbOff, 32), (acqTailOff, 1), (acqTailOff, 2), (acqTailOff, 3), (acqTailOff, 4),
        (acqTailOff, 5), (intrMaskOff, 0), (acqTailOff, 6), (acqTailOff, 7),
        (0x2000, intrUnmask)]) := by decide +kernel
  obtain ⟨last, ran, seen⟩ := ok_of_observed observed
  have stored : (ringAt .tx 0 last).map (fun r => r.hw.cqUnmaskDbOffset) = some 0x2000 :=
    congrArg Prod.fst seen
  have written : writes last.log = _ := congrArg Prod.snd seen
  refine ⟨last, ran, stored, mem_writes (written ▸ by simp), ?_⟩
  rintro (known | ⟨_, inside⟩)
  · revert known
    decide
  · revert inside
    decide

end EnaDriver.Lifecycle
