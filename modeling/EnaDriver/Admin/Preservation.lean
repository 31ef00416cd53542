import EnaDriver.Admin.Recovery
import EnaDriver.Datapath.ReceiveCalls

/-!
# What recovery keeps

Recovery is composed of a few kinds of steps: admin commands, updates of the
negotiated settings, allocations and releases of control buffers, creations of
queues and the refill of a ring.  A judgement that holds of each kind of step holds
of every function built from them, whichever branches it takes.
-/

namespace EnaDriver.Admin

open Support.Programs Datapath

/-! ## Attached rings -/

structure Frame where
  numTx : Nat
  numRx : Nat
  tx : List Bool
  rx : List Bool
  txFits : tx = [] ∨ numTx ≤ tx.length
  rxFits : rx = [] ∨ numRx ≤ rx.length

structure Frame.Fits (frame : Frame) (m : Machine) : Prop where
  numTx : m.adapter.numTxRings = frame.numTx
  numRx : m.adapter.numRxRings = frame.numRx
  tx : m.tx.map Option.isSome = frame.tx
  rx : m.rx.map Option.isSome = frame.rx

variable {q : Nat}

theorem ringCell_ok {π : Type} {rings : List (Option π)} (fits : rings = [] ∨ q < rings.length) :
    ∃ cell, ringCell rings q = .ok cell ∧
      ∀ port, cell = some port → rings[q]? = some (some port) := by
  unfold ringCell
  rcases fits with rfl | bound
  · exact ⟨none, rfl, fun port found => nomatch found⟩
  by_cases empty : rings.isEmpty
  · rw [List.isEmpty_iff.mp empty] at bound
    exact absurd bound (Nat.not_lt_zero q)
  · rw [if_neg empty, List.getElem?_eq_getElem bound]
    exact ⟨rings[q], rfl, fun port found => by rw [found]⟩

theorem ringCell_attached {π : Type} {rings : List (Option π)} {port : π}
    (found : rings[q]? = some (some port)) : ringCell rings q = .ok (some port) := by
  unfold ringCell
  cases rings with
  | nil => cases found
  | cons first rest =>
    rw [if_neg (c := (first :: rest).isEmpty = true) Bool.false_ne_true, found]

theorem attached_of_isSome {π : Type} {rings : List (Option π)}
    (attached : (rings.map Option.isSome)[q]? = some true) :
    ∃ port, rings[q]? = some (some port) := by
  rw [List.getElem?_map] at attached
  obtain ⟨cell, found, present⟩ := Option.map_eq_some_iff.mp attached
  obtain ⟨port, rfl⟩ := Option.isSome_iff_exists.mp present
  exact ⟨port, found⟩

section Cells

variable {frame : Frame} {m : Machine} {q : Nat}

theorem Frame.Fits.txCell_run (fits : frame.Fits m) (bound : q < frame.numTx) :
    ∃ cell, txCell q m = .ok (cell, m) ∧ ∀ port, cell = some port → m.tx[q]? = some (some port) := by
  have inside : m.tx = [] ∨ q < m.tx.length := by
    rcases frame.txFits with none | some
    · exact .inl (List.map_eq_nil_iff.mp (fits.tx.trans none))
    · rw [← fits.tx, List.length_map] at some
      exact .inr (Nat.lt_of_lt_of_le bound some)
  obtain ⟨cell, ran, found⟩ := ringCell_ok inside
  refine ⟨cell, ?_, found⟩
  change (ringCell m.tx q >>= fun cell => Except.ok (cell, m)) = _
  rw [ran]
  rfl

theorem Frame.Fits.rxCell_run (fits : frame.Fits m) (bound : q < frame.numRx) :
    ∃ cell, rxCell q m = .ok (cell, m) ∧ ∀ port, cell = some port → m.rx[q]? = some (some port) := by
  have inside : m.rx = [] ∨ q < m.rx.length := by
    rcases frame.rxFits with none | some
    · exact .inl (List.map_eq_nil_iff.mp (fits.rx.trans none))
    · rw [← fits.rx, List.length_map] at some
      exact .inr (Nat.lt_of_lt_of_le bound some)
  obtain ⟨cell, ran, found⟩ := ringCell_ok inside
  refine ⟨cell, ?_, found⟩
  change (ringCell m.rx q >>= fun cell => Except.ok (cell, m)) = _
  rw [ran]
  rfl

theorem txCell_attached {port : TxPort} (found : m.tx[q]? = some (some port)) :
    txCell q m = .ok (some port, m) := by
  change (ringCell m.tx q >>= fun cell => Except.ok (cell, m)) = _
  rw [ringCell_attached found]
  rfl

theorem rxCell_attached {port : RxPort} (found : m.rx[q]? = some (some port)) :
    rxCell q m = .ok (some port, m) := by
  change (ringCell m.rx q >>= fun cell => Except.ok (cell, m)) = _
  rw [ringCell_attached found]
  rfl

theorem Frame.Fits.txAccess_get (fits : frame.Fits m) (attached : frame.tx[q]? = some true) :
    ∃ port, m.tx[q]? = some (some port) ∧ (txAccess q).get m = .ok (port.ring, m) := by
  rw [← fits.tx] at attached
  obtain ⟨port, found⟩ := attached_of_isSome attached
  refine ⟨port, found, ?_⟩
  change (txCell q >>= _) m = _
  rw [run_bind, txCell_attached found]
  rfl

theorem Frame.Fits.rxAccess_get (fits : frame.Fits m) (attached : frame.rx[q]? = some true) :
    ∃ port, m.rx[q]? = some (some port) ∧ (rxAccess q).get m = .ok (port.ring, m) := by
  rw [← fits.rx] at attached
  obtain ⟨port, found⟩ := attached_of_isSome attached
  refine ⟨port, found, ?_⟩
  change (rxCell q >>= _) m = _
  rw [run_bind, rxCell_attached found]
  rfl

theorem Frame.Fits.tx_attached (fits : frame.Fits m) {port : TxPort}
    (found : m.tx[q]? = some (some port)) : frame.tx[q]? = some true := by
  rw [← fits.tx, List.getElem?_map, found]
  rfl

theorem Frame.Fits.rx_attached (fits : frame.Fits m) {port : RxPort}
    (found : m.rx[q]? = some (some port)) : frame.rx[q]? = some true := by
  rw [← fits.rx, List.getElem?_map, found]
  rfl

end Cells

/-! ## Attached rings as a list -/

def Attached {π : Type} (property : π → Prop) (rings : List (Option π)) : Prop :=
  ∀ (q : Nat) (port : π), rings[q]? = some (some port) → property port

section Lists

variable {π : Type} {property : π → Prop} {change : π → π} {rings : List (Option π)}

theorem getElem?_modify_map (change : π → π) (rings : List (Option π)) (q i : Nat) :
    (rings.modify q (Option.map change))[i]? =
      rings[i]?.map fun cell => if q = i then cell.map change else cell := by
  rw [List.getElem?_modify]
  by_cases same : q = i
  · subst same
    simp
  · simp [same]

theorem Attached.modify {q : Nat} (holds : Attached property rings)
    (keeps : ∀ port, property port → property (change port)) :
    Attached property (rings.modify q (Option.map change)) := by
  intro i port found
  rw [getElem?_modify_map] at found
  obtain ⟨cell, before, became⟩ := Option.map_eq_some_iff.mp found
  split at became
  · obtain ⟨old, rfl, rfl⟩ := Option.map_eq_some_iff.mp became
    exact keeps old (holds i old before)
  · subst became
    exact holds i port before

theorem modify_absent {q : Nat} (absent : ∀ port, rings[q]? ≠ some (some port)) :
    rings.modify q (Option.map change) = rings := by
  apply List.ext_getElem?
  intro i
  rw [getElem?_modify_map]
  by_cases same : q = i
  · subst same
    cases found : rings[q]? with
    | none => rfl
    | some cell =>
      cases cell with
      | none => simp
      | some port => exact absurd found (absent port)
  · simp [same]

theorem modify_attached {q : Nat} {port : π} {other : π → π} (found : rings[q]? = some (some port))
    (same : other port = change port) :
    rings.modify q (Option.map other) = rings.modify q (Option.map change) := by
  apply List.ext_getElem?
  intro i
  rw [getElem?_modify_map, getElem?_modify_map]
  by_cases here : q = i
  · subst here
    simp [found, same]
  · simp [here]

theorem isSome_modify (change : π → π) (rings : List (Option π)) (q : Nat) :
    (rings.modify q (Option.map change)).map Option.isSome = rings.map Option.isSome := by
  apply List.ext_getElem?
  intro i
  rw [List.getElem?_map, getElem?_modify_map, List.getElem?_map, Option.map_map]
  congr 1
  funext cell
  by_cases same : q = i <;> simp [same]

end Lists

variable {m : Machine} {frame : Frame}

theorem Frame.Fits.logged (fits : frame.Fits m) (effects : List Effect) :
    frame.Fits (m.logged effects) :=
  ⟨fits.numTx, fits.numRx, fits.tx, fits.rx⟩

theorem Frame.Fits.withAdapter (fits : frame.Fits m) {a : Adapter}
    (tx : a.numTxRings = m.adapter.numTxRings) (rx : a.numRxRings = m.adapter.numRxRings) :
    frame.Fits (m.withAdapter a) :=
  ⟨tx.trans fits.numTx, rx.trans fits.numRx, fits.tx, fits.rx⟩

theorem Frame.Fits.updateTx (fits : frame.Fits m) (q : Nat) (change : TxPort → TxPort) :
    frame.Fits (m.updateTx q change) :=
  ⟨fits.numTx, fits.numRx, (isSome_modify change m.tx q).trans fits.tx, fits.rx⟩

theorem Frame.Fits.updateRx (fits : frame.Fits m) (q : Nat) (change : RxPort → RxPort) :
    frame.Fits (m.updateRx q change) :=
  ⟨fits.numTx, fits.numRx, fits.tx, (isSome_modify change m.rx q).trans fits.rx⟩

theorem updateTx_attached {port : TxPort} {other change : TxPort → TxPort}
    (found : m.tx[q]? = some (some port)) (same : other port = change port) :
    m.updateTx q other = m.updateTx q change :=
  congrArg (fun tx => { m with tx := tx }) (modify_attached found same)

theorem updateRx_attached {port : RxPort} {other change : RxPort → RxPort}
    (found : m.rx[q]? = some (some port)) (same : other port = change port) :
    m.updateRx q other = m.updateRx q change :=
  congrArg (fun rx => { m with rx := rx }) (modify_attached found same)

theorem updateTx_absent {change : TxPort → TxPort} (absent : ∀ port, m.tx[q]? ≠ some (some port)) :
    m.updateTx q change = m :=
  congrArg (fun tx => { m with tx := tx }) (modify_absent absent)

theorem updateRx_absent {change : RxPort → RxPort} (absent : ∀ port, m.rx[q]? ≠ some (some port)) :
    m.updateRx q change = m :=
  congrArg (fun rx => { m with rx := rx }) (modify_absent absent)

/-! ## The rule -/

def FeatureReq (req : AdminReq) : Prop := req.opcode = 8 ∨ req.opcode = 9

/-- A judgement that a program inherits from what follows a look at the adapter or at
a cell of a ring array.  The indices below the counts of an adapter are `Inside`, and
a ring that is found is `Filled`. -/
structure Looks (J : {α : Type} → Driver α → Prop) (Inside Filled : RingType → Nat → Prop) : Prop
    extends Composes J where
  adapter : ∀ {α : Type} {next : Adapter → Driver α},
    (∀ a, (∀ q < a.numTxRings, Inside .tx q) → (∀ q < a.numRxRings, Inside .rx q) → J (next a)) →
      J (Admin.adapter >>= next)
  txCell : ∀ {α : Type} {q : Nat} {next : Option TxPort → Driver α}, Inside .tx q → J (next none) →
    (∀ port, Filled .tx q → J (next (some port))) → J (Admin.txCell q >>= next)
  rxCell : ∀ {α : Type} {q : Nat} {next : Option RxPort → Driver α}, Inside .rx q → J (next none) →
    (∀ port, Filled .rx q → J (next (some port))) → J (Admin.rxCell q >>= next)

structure Allocates (J : {α : Type} → Driver α → Prop) (Inside Filled : RingType → Nat → Prop)
    (env : Env) : Prop extends Looks J Inside Filled where
  settings : ∀ change, J (modifySettings change)
  dmaAlloc : J (enaDmaAlloc env)
  dmaFree : ∀ buf, J (enaDmaFree buf)
  heap : J (heapAlloc env)

structure Negotiates (J : {α : Type} → Driver α → Prop) (Inside Filled : RingType → Nat → Prop)
    (env : Env) (exec : CtrlExec) : Prop extends Allocates J Inside Filled env where
  command : ∀ ctrl req, FeatureReq req → J (exec ctrl req)

structure Rebuilds (J : {α : Type} → Driver α → Prop) (Inside Filled : RingType → Nat → Prop)
    (env : Env) (exec : CtrlExec) : Prop extends Negotiates J Inside Filled env exec where
  createTx : ∀ q, Filled .tx q → J (createTxHw exec q)
  createRx : ∀ q, Filled .rx q → J (createRxHw exec q)
  refill : ∀ q, Filled .rx q → J (recoverRefill env q)

/-! ## Looks inside the ring arrays -/

def Frame.Inside (frame : Frame) : RingType → Nat → Prop
  | .tx, q => q < frame.numTx
  | .rx, q => q < frame.numRx

def Frame.Filled (frame : Frame) : RingType → Nat → Prop
  | .tx, q => frame.tx[q]? = some true
  | .rx, q => frame.rx[q]? = some true ∧ q < frame.numRx

theorem adapter_bind {inv : Machine → Prop} {rel : Machine → Machine → Prop} {α : Type}
    {next : Adapter → Driver α} (each : ∀ m, inv m → Keeps inv rel (next m.adapter)) :
    Keeps inv rel (adapter >>= next) :=
  fun m holds => each m holds m holds

section Access

variable {frame : Frame} {inv : Machine → Prop} {rel : Machine → Machine → Prop} {exec : CtrlExec}
  (refl : ∀ m, rel m m)
  (trans : ∀ first second third, rel first second → rel second third → rel first third)
  (fits : ∀ m, inv m → frame.Fits m)
include refl trans fits

theorem Keeps.looks : Looks (Keeps inv rel) frame.Inside frame.Filled where
  toComposes := Keeps.composes refl trans
  adapter := by
    intro α next each m holds
    refine each m.adapter (fun q below => ?_) (fun q below => ?_) m holds
    · exact Nat.lt_of_lt_of_eq below (fits m holds).numTx
    · exact Nat.lt_of_lt_of_eq below (fits m holds).numRx
  txCell := by
    intro α q next inside absent present m holds
    obtain ⟨cell, ran, found⟩ := (fits m holds).txCell_run inside
    refine Returns.after ran ?_
    cases cell with
    | none => exact absent m holds
    | some port => exact present port ((fits m holds).tx_attached (found port rfl)) m holds
  rxCell := by
    intro α q next inside absent present m holds
    obtain ⟨cell, ran, found⟩ := (fits m holds).rxCell_run inside
    refine Returns.after ran ?_
    cases cell with
    | none => exact absent m holds
    | some port => exact present port ⟨(fits m holds).rx_attached (found port rfl), inside⟩ m holds

variable (command : ∀ req, Keeps inv rel (exec [] req))
include command

theorem createTxHw_keeps {q : Nat} (attached : frame.Filled .tx q)
    (noted : Keeps inv rel (noteRing .tx q))
    (setHw : ∀ change : Ring → HwQueue,
      Keeps inv rel ((txAccess q).modify fun r => { r with hw := change r })) :
    Keeps inv rel (createTxHw exec q) := by
  have access := Keeps.queueAccess refl trans command (fun m holds => by
    obtain ⟨port, _, ran⟩ := (fits m holds).txAccess_get attached
    exact ⟨port.ring, m, ran, holds, refl m⟩) setHw
  exact Keeps.bind trans noted fun _ => adapter_bind fun m _ => access.createHw m.adapter.map trivial

theorem createRxHw_keeps {q : Nat} (attached : frame.Filled .rx q)
    (noted : Keeps inv rel (noteRing .rx q))
    (setHw : ∀ change : Ring → HwQueue,
      Keeps inv rel ((rxAccess q).modify fun r => { r with hw := change r })) :
    Keeps inv rel (createRxHw exec q) := by
  have access := Keeps.queueAccess refl trans command (fun m holds => by
    obtain ⟨port, _, ran⟩ := (fits m holds).rxAccess_get attached.1
    exact ⟨port.ring, m, ran, holds, refl m⟩) setHw
  exact Keeps.bind trans noted fun _ => adapter_bind fun m _ => access.createHw m.adapter.map trivial

end Access

section Refill

variable {frame : Frame} {inv : Machine → Prop} {rel : Machine → Machine → Prop} {env : Env}

theorem recoverRefill_keeps (refl : ∀ m, rel m m) (fits : ∀ m, inv m → frame.Fits m) {q : Nat}
    (bound : q < frame.numRx)
    (unlocked : ∀ m port, inv m → m.rx[q]? = some (some port) → port.ring.ringLock = false)
    (posts : ∀ m port (filled : RxPort) events, inv m → m.rx[q]? = some (some port) →
      PostFrame port.ring filled.ring →
      inv ((m.updateRx q fun _ => filled).logged [.ring .rx q events]) ∧
        rel m ((m.updateRx q fun _ => filled).logged [.ring .rx q events])) :
    Keeps inv rel (recoverRefill env q) := by
  intro m holds
  obtain ⟨cell, ran, found⟩ := (fits m holds).rxCell_run bound
  unfold Returns recoverRefill
  rw [run_bind, ran, ok_bind]
  cases cell with
  | none => exact ⟨(), m, rfl, holds, refl m⟩
  | some port =>
    have attached := found port rfl
    dsimp only
    split
    · obtain ⟨ret, filled, events, refilled, frame, _⟩ :=
        enaRxRefill_frame port (port.ring.sqDepth.val - 1) (env.netbufs m.log.length)
          (unlocked m port holds attached)
      refine ⟨(), _, ?_, posts m port filled events holds attached frame⟩
      rw [run_bind, run_get, ok_bind, run_bind]
      dsimp only
      rw [refilled]
      rfl
    · exact ⟨(), m, rfl, holds, refl m⟩

end Refill

/-! ## Allocation -/

variable {J : {α : Type} → Driver α → Prop} {Inside Filled : RingType → Nat → Prop} {env : Env}
  {exec : CtrlExec}

namespace Allocates

variable (steps : Allocates J Inside Filled env)
include steps

theorem freeDma (buf : Option DmaBuf) : J (Admin.freeDma buf) := by
  cases buf with
  | none => exact steps.pure ()
  | some buf => exact steps.dmaFree buf

theorem rssFini : J enaRssFini := by
  refine steps.adapter fun a _ _ => ?_
  refine steps.bind (steps.freeDma _) fun _ => ?_
  refine steps.bind (steps.freeDma _) fun _ => ?_
  refine steps.bind (steps.freeDma _) fun _ => ?_
  exact steps.settings _

/-- The release of the admin rings, whose last step forgets them. -/
theorem adminFini (forget : J (modifyAdapter Adapter.finished)) : J enaAdminFini := by
  refine steps.adapter fun a _ _ => ?_
  refine steps.bind (steps.freeDma _) fun _ => ?_
  refine steps.bind (steps.freeDma _) fun _ => ?_
  refine steps.bind (steps.freeDma _) fun _ => ?_
  exact steps.bind (steps.freeDma _) fun _ => forget

theorem rssHostTable : J (rssAllocHostTable env) := by
  refine steps.bind steps.heap fun memory => ?_
  cases memory with
  | none => exact steps.pure _
  | some _ => exact steps.after (steps.settings _) _

theorem rssIndTable : J (rssAllocIndTable env) := by
  refine steps.bind steps.dmaAlloc fun buf => ?_
  cases buf with
  | none => exact steps.after (steps.settings _) _
  | some buf => exact steps.after (steps.settings _) _

theorem rssHashKey : J (rssAllocHashKey env) := by
  refine steps.bind steps.dmaAlloc fun buf => ?_
  cases buf with
  | none => exact steps.after steps.rssFini _
  | some buf => exact steps.after (steps.settings _) _

theorem rssHashCtrl : J (rssAllocHashCtrl env) := by
  refine steps.bind steps.dmaAlloc fun buf => ?_
  cases buf with
  | none => exact steps.after steps.rssFini _
  | some buf => exact steps.after (steps.settings _) _

end Allocates

namespace Negotiates

variable (steps : Negotiates J Inside Filled env exec)
include steps

/-! ## Features -/

theorem getDeviceAttributes : J (enaInitGetDeviceAttributes exec) := by
  refine steps.bind (steps.command _ _ (.inl rfl)) fun answer => ?_
  exact steps.ite (steps.pure _) (steps.after (steps.settings _) _)

theorem getQueueLimits : J (enaInitGetQueueLimits exec) := by
  refine steps.bind (steps.command _ _ (.inl rfl)) fun answer => ?_
  exact steps.ite (steps.pure _) (steps.after (steps.settings _) _)

theorem setMtu (mtu : Nat) : J (enaInitSetMtu exec mtu) := by
  refine steps.ite (steps.pure _) ?_
  refine steps.bind (steps.command _ _ (.inr rfl)) fun answer => ?_
  exact steps.ite (steps.pure _) (steps.after (steps.settings _) _)

theorem configAenq : J (enaInitConfigAenq exec) := by
  refine steps.adapter fun a _ _ => ?_
  refine steps.ite (steps.pure _) ?_
  refine steps.bind (steps.command _ _ (.inl rfl)) fun got => ?_
  refine steps.ite (steps.pure _) (steps.ite (steps.pure _) ?_)
  refine steps.bind (steps.command _ _ (.inr rfl)) fun set => ?_
  exact steps.ite (steps.pure _) (steps.after (steps.settings _) _)

/-- A bring-up inherits from the announcement of the host information page and from
the updates of the adapter outside its settings. -/
theorem initRun (hostInfo : J (enaInitSetHostInfo env exec))
    (forget : J (modifyAdapter fun a => { a with map := { a.map with llq := LlqInfo.zero } }))
    (configured : J (modifyAdapter (·.setState .configured))) (mtu : Nat) :
    J (enaInitRun env exec mtu) := by
  have configLlq : J (enaInitConfigLlq exec) := by
    refine steps.bind forget fun _ => steps.adapter fun a _ _ => ?_
    exact steps.ite (steps.pure _) (steps.after (steps.command _ _ (.inl rfl)) _)
  refine steps.bind steps.getDeviceAttributes fun ret => steps.ite (steps.pure _) ?_
  refine steps.bind steps.getQueueLimits fun ret => steps.ite (steps.pure _) ?_
  refine steps.bind hostInfo fun ret => steps.ite (steps.pure _) ?_
  refine steps.bind steps.configAenq fun _ => ?_
  refine steps.bind configLlq fun ret => steps.ite (steps.pure _) ?_
  refine steps.bind (steps.setMtu mtu) fun ret => steps.ite (steps.pure _) ?_
  refine steps.bind steps.getDeviceAttributes fun ret => steps.ite (steps.pure _) ?_
  exact steps.after configured _

/-! ## Scaling -/

theorem rssQueryIndTableLimits : J (enaRssQueryIndTableLimits exec) := by
  refine steps.adapter fun a _ _ => ?_
  refine steps.ite (steps.pure _) ?_
  refine steps.bind (steps.command _ _ (.inl rfl)) fun answer => ?_
  refine steps.ite (steps.pure _) ?_
  split
  · exact steps.pure _
  · exact steps.settings _

theorem rssInit : J (enaRssInit env exec) := by
  refine steps.adapter fun a _ _ => ?_
  refine steps.ite (steps.pure _) (steps.ite (steps.pure _) ?_)
  refine steps.bind (steps.settings _) fun _ => ?_
  refine steps.bind steps.rssQueryIndTableLimits fun _ => ?_
  refine steps.bind steps.rssHostTable fun ok => steps.ite (steps.pure _) ?_
  refine steps.bind steps.rssIndTable fun ok => steps.ite (steps.pure _) ?_
  refine steps.adapter fun a _ _ => ?_
  refine steps.bind (steps.onlyIf steps.rssHashKey) fun ok => steps.ite (steps.pure _) ?_
  refine steps.adapter fun a _ _ => ?_
  refine steps.bind (steps.onlyIf steps.rssHashCtrl) fun ok => steps.ite (steps.pure _) ?_
  exact steps.after (steps.settings _) _

theorem rssSetHashKey (key : Option (List Nat)) : J (enaRssSetHashKey exec key) := by
  refine steps.adapter fun a _ _ => ?_
  split
  · exact steps.pure _
  · refine steps.ite (steps.pure _) (steps.bind (steps.settings _) fun _ => ?_)
    exact steps.bind (steps.command _ _ (.inr rfl)) fun _ => steps.pure _

theorem rssSetHashCtrl : J (enaRssSetHashCtrl exec) := by
  refine steps.adapter fun a _ _ => ?_
  split
  · exact steps.pure _
  · refine steps.bind (steps.settings _) fun _ => ?_
    exact steps.bind (steps.command _ _ (.inr rfl)) fun _ => steps.pure _

theorem rssSetIndTable {numQueues : Nat} (few : ∀ q < numQueues, Inside .rx q) :
    J (enaRssSetIndTable exec numQueues) := by
  unfold enaRssSetIndTable
  by_cases zero : numQueues = 0
  · rw [if_pos zero]
    exact steps.pure _
  rw [if_neg zero]
  have target (i : Nat) : J (tableTarget numQueues i) :=
    steps.rxCell (few _ (Nat.mod_lt i (Nat.pos_of_ne_zero zero))) (steps.pure _)
      fun port _ => steps.pure _
  refine steps.adapter fun a _ _ => ?_
  dsimp only
  split
  · refine steps.ite (steps.pure _) ?_
    refine steps.bind (steps.mapM fun i _ => target i) fun entries => ?_
    refine steps.bind (steps.settings _) fun _ => ?_
    exact steps.bind (steps.command _ _ (.inr rfl)) fun _ => steps.pure _
  · exact steps.pure _

theorem rssReadbackIndTable : J (enaRssReadbackIndTable exec) := by
  refine steps.adapter fun a _ _ => ?_
  split
  · exact steps.pure _
  · exact steps.ite (steps.pure _) (steps.after (steps.command _ _ (.inl rfl)) _)

theorem rssConfigure {numQueues : Nat} (few : ∀ q < numQueues, Inside .rx q) :
    J (enaRssConfigure env exec numQueues) := by
  refine steps.ite (steps.pure _) ?_
  refine steps.bind steps.rssInit fun ret => steps.ite (steps.pure _) ?_
  refine steps.adapter fun a _ _ => ?_
  refine steps.bind (steps.onlyIf (steps.rssSetHashKey _)) fun ret => steps.ite (steps.pure _) ?_
  refine steps.adapter fun a _ _ => ?_
  refine steps.bind (steps.onlyIf steps.rssSetHashCtrl) fun ret => steps.ite (steps.pure _) ?_
  refine steps.bind (steps.rssSetIndTable few) fun ret => steps.ite (steps.pure _) ?_
  refine steps.bind steps.rssReadbackIndTable fun _ => ?_
  exact steps.after (steps.settings _) _

end Negotiates

/-! ## Recovery -/

namespace Rebuilds

variable (steps : Rebuilds J Inside Filled env exec)
include steps

theorem reapplyDeviceFeatures : J (enaInitReapplyDeviceFeatures env exec) := by
  refine steps.bind steps.getDeviceAttributes fun attrs => ?_
  refine steps.adapter fun a _ _ => ?_
  refine steps.bind (steps.onlyIf (steps.setMtu _)) fun mtu => ?_
  refine steps.adapter fun a _ _ => ?_
  refine steps.bind (steps.onlyIf steps.configAenq) fun aenq => ?_
  refine steps.adapter fun a _ inside => ?_
  exact steps.bind (steps.onlyIf (steps.rssConfigure inside)) fun rss => steps.pure _

theorem recoverTxRing {q : Nat} (inside : Inside .tx q) (acc : Created) :
    J (Admin.recoverTxRing exec acc q) := by
  refine steps.txCell inside (steps.pure _) fun port attached => ?_
  refine steps.ite (steps.pure _) ?_
  exact steps.bind (steps.createTx q attached) fun ret => steps.pure _

theorem recoverRxRing {q : Nat} (inside : Inside .rx q) (acc : Created) :
    J (Admin.recoverRxRing env exec acc q) := by
  refine steps.rxCell inside (steps.pure _) fun port attached => ?_
  refine steps.ite (steps.pure _) ?_
  refine steps.bind (steps.createRx q attached) fun ret => steps.ite (steps.pure _) ?_
  exact steps.after (steps.refill q attached) _

theorem recoverIoRings : J (enaAdapterRecoverIoRings env exec) := by
  refine steps.adapter fun a inside _ => ?_
  refine steps.bind (steps.foldlM (fun acc q member => ?_) _) fun tx => ?_
  · exact steps.recoverTxRing (inside q (List.mem_range.mp member)) acc
  refine steps.adapter fun a _ inside => ?_
  refine steps.bind (steps.foldlM (fun acc q member => ?_) _) fun both => ?_
  · exact steps.recoverRxRing (inside q (List.mem_range.mp member)) acc
  refine steps.ite (steps.pure _) ?_
  exact steps.bind steps.reapplyDeviceFeatures fun features => steps.pure _

theorem hasIoRings : J enaAdapterHasIoRings := by
  have txCell {q : Nat} (inside : Inside .tx q) : J (Admin.txCell q) := by
    rw [← bind_pure (Admin.txCell q)]
    exact steps.txCell inside (steps.pure _) fun _ _ => steps.pure _
  have rxCell {q : Nat} (inside : Inside .rx q) : J (Admin.rxCell q) := by
    rw [← bind_pure (Admin.rxCell q)]
    exact steps.rxCell inside (steps.pure _) fun _ _ => steps.pure _
  change J (Admin.adapter >>= fun a => do
    let tx ← (List.range a.numTxRings).mapM Admin.txCell
    let rx ← (List.range a.numRxRings).mapM Admin.rxCell
    return tx.any Option.isSome || rx.any Option.isSome)
  refine steps.adapter fun a insideTx insideRx => ?_
  refine steps.bind (steps.mapM fun q member => txCell (insideTx q (List.mem_range.mp member)))
    fun tx => ?_
  exact steps.bind (steps.mapM fun q member => rxCell (insideRx q (List.mem_range.mp member)))
    fun rx => steps.pure _

theorem rebuild : J (Admin.rebuild env exec) := by
  refine steps.bind steps.hasIoRings fun rings => ?_
  refine steps.adapter fun a _ _ => ?_
  exact steps.bind (steps.onlyIf steps.configAenq) fun _ => steps.recoverIoRings

end Rebuilds

end EnaDriver.Admin
