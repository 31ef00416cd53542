import EnaDriver.Lifecycle.Probe
import EnaDriver.Platform.BarSizing

/-!
# The addition of a device

`ena_pci_add_dev` acquires the two register windows, the memory of the device, the
admin rings, the host information page and the vector table.  Each of its exits has a
cleanup list of its own.  Up to the scaffold the lists are complete; the later ones
free the device and what hangs on it, and leave both windows mapped.

The windows are those of a build with virtual memory management, where mapping one
takes an address range and unmapping it gives the range back.
-/

namespace EnaDriver.Lifecycle

open Support.Programs Support.Runs
open Datapath Admin EnaDriver.Platform

/-! ## Resources -/

/-- What the call acquires; the admin rings and the host information page are DMA
memory. -/
inductive Resource where
  | window (bar : Bar)
  | device
  | dma (buf : DmaBuf)
  | vectors
  deriving DecidableEq

inductive Act where
  | acquire (resource : Resource)
  | release (resource : Resource)
  deriving DecidableEq

/-- Every resource has been released as often as it was acquired. -/
def Settled (acts : List Act) : Prop :=
  ∀ resource, acts.count (.release resource) = acts.count (.acquire resource)

def dmaActs (log : List Effect) : List Act :=
  log.filterMap fun
    | .dmaAlloc (some buf) => some (.acquire (.dma buf))
    | .dmaFree buf => some (.release (.dma buf))
    | _ => none

def vectorActs : Option Nat → Option Nat → List Act
  | none, some _ => [.acquire .vectors]
  | some _, none => [.release .vectors]
  | _, _ => []

/-! ## The function -/

structure Addition where
  space : ConfigSpace
  machine : Machine
  acts : List Act

abbrev Adding := Prog Addition Fault

/-- What the platform answers: whether it maps a window, whether there is memory for
the device, the vectors and the result of the netdev core. -/
structure Answers where
  maps : Bar → Bool
  memory : Bool
  msix : Platform
  registered : Int

def act (done : Act) : Adding Unit := modify fun w => { w with acts := w.acts ++ [done] }

def config {α : Type} (program : Config α) : Adding α := fun w =>
  let (value, space) := program w.space
  .ok (value, { w with space })

def inside {α : Type} (program : Driver α) : Adding α := fun w => do
  let (value, next) ← program w.machine
  let dma := dmaActs (next.log.drop w.machine.log.length)
  let table := vectorActs w.machine.adapter.irqVectors next.adapter.irqVectors
  return (value, { w with machine := next, acts := w.acts ++ dma ++ table })

def pciReadBar (reg : Nat) : Config (BitVec 64) := do
  let barLo ← pciRead32 reg
  let bar := (barLo &&& ~~~0x0F).setWidth 64
  if barLo &&& 0x06 == 0x04 then
    let barHi ← pciRead32 (reg + 4)
    return bar ||| barHi.setWidth 64 <<< 32
  return bar

def pciEnableDevice : Config Unit := do
  let cmd ← pciRead32 0x04
  pciWrite32 0x04 (cmd ||| 0x07)

/-- The address and the size of the push region; an I/O region counts as absent. -/
def probePushRegion : Config (BitVec 64 × BitVec 64) := do
  let bar2Lo ← pciRead32 0x18
  if bar2Lo &&& 0x01 = 0 then
    let bar2Phys ← pciReadBar 0x18
    let bar2Size ← pciReadBarSize 0x18
    return (bar2Phys, bar2Size)
  return (0, 0)

def bar0MinSize : Nat := 0x104

def enaDeviceInitScaffold (bar0Size : Nat) : Adding Int := do
  if bar0Size < bar0MinSize then
    return -EINVAL
  modify fun w => { w with machine := .probed ⟨true, bar0Size, false, 0, LlqInfo.zero⟩ }
  return 0

section Functions

variable (env : Env) (exec : CtrlExec) (answers : Answers)

def enaPciMapBar (bar : Bar) : Adding Bool := do
  onlyIf (answers.maps bar) () (act (.acquire (.window bar)))
  return answers.maps bar

def enaPciUnmapBar (bar : Bar) : Adding Unit := act (.release (.window bar))

/-- `ena_pci_add_dev` from the admin queues on. -/
def bringUp : Adding Int := do
  let ret ← inside (enaAdminInit env 32 32 32)
  if ret ≠ 0 then
    act (.release .device)
    return ret
  let ret ← inside (enaInitRun env exec 1500)
  if ret ≠ 0 then
    inside enaAdminFini
    act (.release .device)
    return ret
  inside (modifyAdapter (·.setHandler true))
  let _ ← inside (enaIntrSetup env answers.msix)
  if answers.registered < 0 then
    inside enaIntrMsixFini
    inside enaAdminFini
    act (.release .device)
    return answers.registered
  return 0

/-- The scaffold clears the adapter, so the second window is mapped after it. -/
def mapPushWindow (bar2Phys bar2Size : BitVec 64) : Adding Unit := do
  if bar2Phys ≠ 0 ∧ bar2Size ≠ 0 then
    let mapped ← enaPciMapBar answers .bar2
    onlyIf mapped () (inside (modifyAdapter fun a =>
      { a with map := { a.map with bar2Mapped := true, bar2Size := bar2Size.toNat } }))

def enaPciAddDev : Adding Int := do
  let probed ← config (pciReadBarSize 0x10)
  -- the size is kept in 32 bits
  let low := probed.toNat % 2 ^ 32
  let bar0Size := max (if low = 0 then 0x4000 else low) 0x104
  let mapped ← enaPciMapBar answers .bar0
  if mapped = false then
    return -ENOMEM
  let push ← config probePushRegion
  config pciEnableDevice
  if answers.memory = false then
    enaPciUnmapBar .bar0
    return -ENOMEM
  act (.acquire .device)
  let ret ← enaDeviceInitScaffold bar0Size
  if ret ≠ 0 then
    enaPciUnmapBar .bar0
    act (.release .device)
    return ret
  mapPushWindow answers push.1 push.2
  bringUp env exec answers

end Functions

/-! ## The device of an addition -/

theorem inside_returned {α : Type} {program : Driver α} {w final : Addition} {value : α}
    (ran : inside program w = .ok (value, final)) :
    program w.machine = .ok (value, final.machine) := by
  obtain ⟨⟨got, next⟩, called, rest⟩ := bind_ok ran
  cases rest
  exact called

def bringUpOps (answers : Answers) (opened negotiated : Int) : List DeviceOp :=
  if opened ≠ 0 then [.adminInit 32 32 32]
  else if negotiated ≠ 0 then [.adminInit 32 32 32, .initRun 1500, .adminFini]
  else if answers.registered < 0 then
    [.adminInit 32 32 32, .initRun 1500, .register, .setup answers.msix, .msixFini, .adminFini]
  else [.adminInit 32 32 32, .initRun 1500, .register, .setup answers.msix]

def bringUpReturn (answers : Answers) (opened negotiated : Int) : Int :=
  if opened ≠ 0 then opened else if negotiated ≠ 0 then negotiated else min answers.registered 0

theorem inside_step {α : Type} (env : Env) (build : Build) (op : DeviceOp) {program : Driver α}
    (performs : op.perform env build = (do let _ ← program)) {w final : Addition} {value : α}
    (ran : inside program w = .ok (value, final)) :
    deviceStep env build w.machine op = .ok final.machine := by
  unfold deviceStep
  rw [performs, run_bind, inside_returned ran]
  rfl

/-- The bring-up of a device is a run of the system.  The results of the admin queues and
of the initialisation fix its calls, and with them what is returned. -/
theorem bringUp_run {env : Env} (build : Build) {answers : Answers} {ret : Int} {w final : Addition}
    (ran : bringUp env (driverExec env 1) answers w = .ok (ret, final)) :
    ∃ opened negotiated first, enaAdminInit env 32 32 32 w.machine = .ok (opened, first) ∧
      (opened = 0 → ∃ second, enaInitRun env (driverExec env 1) 1500 first = .ok (negotiated, second)) ∧
      ret = bringUpReturn answers opened negotiated ∧
      run (deviceStep env build) w.machine (bringUpOps answers opened negotiated) =
        .ok final.machine := by
  obtain ⟨opened, first, opens, rest⟩ := bind_returned ran
  have init := inside_step env build (.adminInit 32 32 32) rfl opens
  unfold bringUpOps bringUpReturn
  by_cases accepted : opened = 0
  case neg =>
    rw [if_pos accepted] at rest
    cases rest
    refine ⟨_, 0, _, inside_returned opens, fun zero => absurd zero accepted, ?_⟩
    rw [if_pos accepted, if_pos accepted]
    exact ⟨rfl, run_cons init []⟩
  rw [if_neg (not_not_intro accepted)] at rest
  obtain ⟨negotiated, second, negotiates, rest⟩ := bind_returned rest
  refine ⟨opened, negotiated, _, inside_returned opens,
    fun _ => ⟨_, inside_returned negotiates⟩, ?_⟩
  have runs := inside_step env build (.initRun 1500) rfl negotiates
  simp only [if_neg (not_not_intro accepted)]
  by_cases agreed : negotiated = 0
  case neg =>
    rw [if_pos agreed] at rest
    obtain ⟨_, third, released, rest⟩ := bind_returned rest
    cases rest
    have fini := inside_step env build .adminFini bind_pure_unit.symm released
    rw [if_pos agreed, if_pos agreed, run_cons init, run_cons runs, run_cons fini, run_nil]
    exact ⟨rfl, rfl⟩
  rw [if_neg (not_not_intro agreed)] at rest
  obtain ⟨_, third, handler, rest⟩ := bind_returned rest
  have register := inside_step env build .register bind_pure_unit.symm handler
  obtain ⟨_, fourth, vectors, rest⟩ := bind_returned rest
  have setup := inside_step env build (.setup answers.msix) rfl vectors
  simp only [if_neg (not_not_intro agreed)]
  split at rest
  case isTrue refused =>
    obtain ⟨_, fifth, table, rest⟩ := bind_returned rest
    obtain ⟨_, sixth, released, rest⟩ := bind_returned rest
    cases rest
    have msix := inside_step env build .msixFini bind_pure_unit.symm table
    have fini := inside_step env build .adminFini bind_pure_unit.symm released
    rw [if_pos refused, run_cons init, run_cons runs, run_cons register, run_cons setup,
      run_cons msix, run_cons fini, run_nil]
    exact ⟨(Int.min_eq_left (Int.le_of_lt refused)).symm, rfl⟩
  case isFalse registered =>
    cases rest
    rw [if_neg registered, run_cons init, run_cons runs, run_cons register, run_cons setup, run_nil]
    exact ⟨(Int.min_eq_right (Int.not_lt.mp registered)).symm, rfl⟩

/-! ## What is released -/

def KeepsWindow (w final : Addition) : Prop :=
  ∃ more, final.acts = w.acts ++ more ∧ Act.release (.window .bar0) ∉ more

namespace KeepsWindow

theorem refl (w : Addition) : KeepsWindow w w := ⟨[], (List.append_nil _).symm, List.not_mem_nil⟩

theorem trans (first second third : Addition) (earlier : KeepsWindow first second)
    (later : KeepsWindow second third) : KeepsWindow first third := by
  obtain ⟨before, grown, absent⟩ := earlier
  obtain ⟨after, grownAgain, absentAgain⟩ := later
  refine ⟨before ++ after, ?_, ?_⟩
  · rw [grownAgain, grown, List.append_assoc]
  · rw [List.mem_append]
    exact not_or_intro absent absentAgain

/-- A device whose first window was mapped and stays so is not cleaned up. -/
theorem unsettled {w final : Addition} (keeps : KeepsWindow w final)
    (mapped : w.acts = [.acquire (.window .bar0)]) : ¬ Settled final.acts := by
  obtain ⟨more, grown, absent⟩ := keeps
  intro settled
  have counts := settled (.window .bar0)
  rw [grown, mapped, List.count_append, List.count_append, List.count_eq_zero_of_not_mem absent,
    List.count_singleton_self] at counts
  exact absurd counts (by rw [List.count_singleton]; simp; omega)

end KeepsWindow

theorem keeps_act {done : Act} (other : done ≠ .release (.window .bar0)) :
    Ends KeepsWindow (act done) :=
  Ends.update fun _ => ⟨[done], rfl, fun member => other (List.mem_singleton.mp member).symm⟩

theorem keeps_inside {α : Type} (program : Driver α) : Ends KeepsWindow (inside program) := by
  intro w value final ran
  obtain ⟨⟨_, next⟩, _, rest⟩ := bind_ok ran
  cases rest
  refine ⟨_, List.append_assoc _ _ _, ?_⟩
  rw [List.mem_append]
  rintro (dma | table)
  · obtain ⟨effect, _, same⟩ := List.mem_filterMap.mp dma
    split at same <;> cases same
  · unfold vectorActs at table
    split at table <;> simp at table

theorem bringUp_keeps (env : Env) (exec : CtrlExec) (answers : Answers) :
    Ends KeepsWindow (bringUp env exec answers) := by
  have composes := Ends.composes KeepsWindow.refl KeepsWindow.trans (ε := Fault)
  have freed : Ends KeepsWindow (act (.release .device)) := keeps_act (by decide)
  refine composes.bind (keeps_inside _) fun _ => Ends.ite (composes.bind freed fun _ => composes.pure _) ?_
  refine composes.bind (keeps_inside _) fun _ => Ends.ite
    (composes.bind (keeps_inside _) fun _ => composes.bind freed fun _ => composes.pure _) ?_
  refine composes.bind (keeps_inside _) fun _ => composes.bind (keeps_inside _) fun _ => Ends.ite ?_
    (composes.pure _)
  exact composes.bind (keeps_inside _) fun _ => composes.bind (keeps_inside _) fun _ =>
    composes.bind freed fun _ => composes.pure _

theorem mapPushWindow_keeps (answers : Answers) (bar2Phys bar2Size : BitVec 64) :
    Ends KeepsWindow (mapPushWindow answers bar2Phys bar2Size) := by
  have composes := Ends.composes KeepsWindow.refl KeepsWindow.trans (ε := Fault)
  refine Ends.ite ?_ (composes.pure _)
  refine composes.bind (composes.bind (Ends.ite (keeps_act (by decide)) (composes.pure _)) fun _ =>
    composes.pure _) fun mapped => Ends.ite (keeps_inside _) (composes.pure _)

theorem config_returned {α : Type} {program : Config α} {w final : Addition} {value : α}
    (ran : config program w = .ok (value, final)) : final.acts = w.acts := by
  cases ran
  rfl

theorem settled_nil : Settled [] := fun _ => rfl

theorem settled_pair (resource : Resource) : Settled [.acquire resource, .release resource] := by
  intro other
  by_cases same : resource = other
  · subst same
    simp
  · simp [same]

theorem scaffold_accepts {bar0Size : Nat} (large : bar0MinSize ≤ bar0Size) {ret : Int}
    {w final : Addition} (ran : enaDeviceInitScaffold bar0Size w = .ok (ret, final)) :
    ret = 0 ∧ final.acts = w.acts := by
  unfold enaDeviceInitScaffold at ran
  rw [if_neg (Nat.not_lt_of_le large)] at ran
  cases ran
  exact ⟨rfl, rfl⟩

/-- A failed call has released everything exactly when it failed before the scaffold:
on the first window or on the memory of the device.  The scaffold itself accepts every
window size that the call passes. -/
theorem enaPciAddDev_settled_iff {env : Env} {exec : CtrlExec} {answers : Answers} {ret : Int}
    {w final : Addition} (fresh : w.acts = [])
    (ran : enaPciAddDev env exec answers w = .ok (ret, final)) (failed : ret ≠ 0) :
    Settled final.acts ↔ (answers.maps .bar0 = false ∨ answers.memory = false) := by
  obtain ⟨_, first, sized, rest⟩ := bind_returned ran
  have untouched := (config_returned sized).trans fresh
  obtain ⟨mapped, second, tried, rest⟩ := bind_returned rest
  cases maps : answers.maps .bar0 with
  | false =>
    simp only [enaPciMapBar, onlyIf, maps] at tried
    cases tried
    cases rest
    rw [untouched]
    exact ⟨fun _ => Or.inl rfl, fun _ => settled_nil⟩
  | true =>
    simp only [enaPciMapBar, onlyIf, maps] at tried
    cases tried
    obtain ⟨push, third, read, rest⟩ := bind_returned rest
    obtain ⟨_, fourth, enabled, rest⟩ := bind_returned rest
    have one : fourth.acts = [.acquire (.window .bar0)] := by
      rw [config_returned enabled, config_returned read]
      change first.acts ++ _ = _
      rw [untouched]
      rfl
    split at rest
    · rename_i refused
      cases rest
      change Settled (fourth.acts ++ _) ↔ _
      rw [one]
      exact ⟨fun _ => Or.inr refused, fun _ => settled_pair _⟩
    rename_i granted
    have keeps : KeepsWindow fourth final := by
      obtain ⟨_, fifth, taken, rest⟩ := bind_returned rest
      obtain ⟨_, sixth, built, rest⟩ := bind_returned rest
      obtain ⟨rfl, same⟩ := scaffold_accepts (Nat.le_max_right _ 0x104) built
      obtain ⟨_, seventh, pushed, raised⟩ := bind_returned rest
      have held := keeps_act (by decide) _ _ _ taken
      have windows := mapPushWindow_keeps _ _ _ _ _ _ pushed
      have later := KeepsWindow.trans _ _ _ windows (bringUp_keeps _ _ _ _ _ _ raised)
      refine KeepsWindow.trans _ _ _ held ?_
      rw [KeepsWindow, ← same]
      exact later
    constructor
    · exact fun settled => absurd settled (keeps.unsettled one)
    · rintro (unmapped | refused)
      · cases unmapped
      · exact absurd refused granted

/-- A platform that maps every window, has no vectors and accepts the device. -/
def Answers.obliging : Answers where
  maps := fun _ => true
  memory := true
  msix := ⟨-ENOTSUP, 0, none⟩
  registered := 0

def Addition.start : Addition := ⟨.oneMiB, .probed plainDevice, []⟩

/-- A device without memory for its structure gives its window back. -/
theorem enaPciAddDev_settled_memory :
    ∃ final, enaPciAddDev .obliging (driverExec .obliging 1)
        { Answers.obliging with memory := false } .start = .ok (-ENOMEM, final) ∧
      Settled final.acts := by
  obtain ⟨final, ran⟩ : ∃ final, enaPciAddDev .obliging (driverExec .obliging 1)
      { Answers.obliging with memory := false } .start = .ok (-ENOMEM, final) := ⟨_, rfl⟩
  exact ⟨final, ran, (enaPciAddDev_settled_iff rfl ran (by decide)).mpr (Or.inr rfl)⟩

def Env.starved : Env := { Env.obliging with dma := fun _ => none }

def leftMapped : List Act :=
  [.acquire (.window .bar0), .acquire .device, .acquire (.window .bar2), .release .device]

/-- The device is freed, and both of its windows stay mapped. -/
theorem enaPciAddDev_leaves_windows :
    ∃ final, enaPciAddDev Env.starved (driverExec Env.starved 1) .obliging .start =
        .ok (-ENOMEM, final) ∧ final.acts = leftMapped ∧ ¬ Settled final.acts := by
  have observed : (enaPciAddDev Env.starved (driverExec Env.starved 1) .obliging
      .start).toOption.map (fun out => (out.1, out.2.acts)) = some (-ENOMEM, leftMapped) := by
    decide +kernel
  obtain ⟨⟨ret, final⟩, ran, seen⟩ := ok_of_observed observed
  obtain ⟨rfl, acts⟩ := Prod.mk.inj seen
  refine ⟨final, ran, acts, ?_⟩
  rw [acts]
  intro settled
  exact absurd (settled (.window .bar0)) (by decide)

end EnaDriver.Lifecycle
