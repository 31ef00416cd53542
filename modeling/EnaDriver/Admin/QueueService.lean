import EnaDriver.Admin.Commands
import EnaDriver.Admin.HeldQueues

/-!
# Queue commands of a whole machine

The driver serves queue commands on the device of a machine, as long as a timeout
inside the commands does not start a recovery.  Creation of the queues of a ring is
then balanced: the device holds one more queue of each kind, or the same queues as
before.
-/

namespace EnaDriver.Admin

open Support.Programs Datapath

/-! ## Rings by side -/

def ringAt (side : RingType) (q : Nat) (m : Machine) : Option Ring :=
  match side with
  | .tx => m.tx[q]?.bind fun cell => cell.map TxPort.ring
  | .rx => m.rx[q]?.bind fun cell => cell.map RxPort.ring

def portAccess (side : RingType) (q : Nat) : RingAccess Driver :=
  match side with
  | .tx => txAccess q
  | .rx => rxAccess q

def Machine.updateRing (m : Machine) (side : RingType) (q : Nat) (change : Ring → Ring) : Machine :=
  match side with
  | .tx => m.updateTx q fun p => { p with ring := change p.ring }
  | .rx => m.updateRx q fun p => { p with ring := change p.ring }

section Sides

variable {m : Machine} {side : RingType} {q : Nat} {r : Ring}

theorem ringAt_tx : ringAt .tx q m = some r ↔ ∃ port, m.tx[q]? = some (some port) ∧ port.ring = r := by
  constructor
  · intro attached
    obtain ⟨cell, found, mapped⟩ := Option.bind_eq_some_iff.mp attached
    obtain ⟨port, rfl, same⟩ := Option.map_eq_some_iff.mp mapped
    exact ⟨port, found, same⟩
  · rintro ⟨port, found, rfl⟩
    simp [ringAt, found]

theorem ringAt_rx : ringAt .rx q m = some r ↔ ∃ port, m.rx[q]? = some (some port) ∧ port.ring = r := by
  constructor
  · intro attached
    obtain ⟨cell, found, mapped⟩ := Option.bind_eq_some_iff.mp attached
    obtain ⟨port, rfl, same⟩ := Option.map_eq_some_iff.mp mapped
    exact ⟨port, found, same⟩
  · rintro ⟨port, found, rfl⟩
    simp [ringAt, found]

theorem portAccess_get (attached : ringAt side q m = some r) :
    (portAccess side q).get m = .ok (r, m) := by
  cases side with
  | tx =>
    obtain ⟨port, found, rfl⟩ := ringAt_tx.mp attached
    change (txCell q >>= _) m = _
    rw [run_bind, txCell_attached found]
    rfl
  | rx =>
    obtain ⟨port, found, rfl⟩ := ringAt_rx.mp attached
    change (rxCell q >>= _) m = _
    rw [run_bind, rxCell_attached found]
    rfl

theorem ringCell_returned {π : Type} {array : List (Option π)} {q : Nat} {m final : Machine}
    {cell : Option π} (ran : (liftM (ringCell array q) : Driver (Option π)) m = .ok (cell, final)) :
    final = m ∧ ∀ port, cell = some port → array[q]? = some (some port) := by
  unfold ringCell at ran
  split at ran
  · cases ran
    exact ⟨rfl, fun _ found => nomatch found⟩
  split at ran
  · cases ran
  · rename_i found
    cases ran
    exact ⟨rfl, fun port same => same ▸ found⟩

theorem portAccess_got {side : RingType} {q : Nat} {m final : Machine} {r : Ring}
    (got : (portAccess side q).get m = .ok (r, final)) : final = m ∧ ringAt side q m = some r := by
  cases side with
  | tx =>
    obtain ⟨cell, between, looked, rest⟩ := bind_returned got
    obtain ⟨rfl, stored⟩ := ringCell_returned looked
    cases cell with
    | none => cases rest
    | some port =>
      cases rest
      exact ⟨rfl, ringAt_tx.mpr ⟨port, stored port rfl, rfl⟩⟩
  | rx =>
    obtain ⟨cell, between, looked, rest⟩ := bind_returned got
    obtain ⟨rfl, stored⟩ := ringCell_returned looked
    cases cell with
    | none => cases rest
    | some port =>
      cases rest
      exact ⟨rfl, ringAt_rx.mpr ⟨port, stored port rfl, rfl⟩⟩

theorem portAccess_modify (change : Ring → Ring) :
    (portAccess side q).modify change m = .ok ((), m.updateRing side q change) := by
  cases side <;> rfl

theorem ringAt_updateRing (other : RingType) (index : Nat) (change : Ring → Ring) :
    ringAt side q (m.updateRing other index change) =
      (ringAt side q m).map fun r => if other = side ∧ index = q then change r else r := by
  cases side <;> cases other
  · change (m.tx.modify index _)[q]?.bind _ = _
    rw [getElem?_modify_map]
    cases found : m.tx[q]? with
    | none => simp [ringAt, found]
    | some cell => cases cell <;> by_cases same : index = q <;> simp [ringAt, found, same]
  · change ringAt .tx q m = _
    simp
  · change ringAt .rx q m = _
    simp
  · change (m.rx.modify index _)[q]?.bind _ = _
    rw [getElem?_modify_map]
    cases found : m.rx[q]? with
    | none => simp [ringAt, found]
    | some cell => cases cell <;> by_cases same : index = q <;> simp [ringAt, found, same]

@[simp] theorem ringAt_logged (effects : List Effect) :
    ringAt side q (m.logged effects) = ringAt side q m := by
  cases side <;> rfl

@[simp] theorem ringAt_withAdapter (a : Adapter) :
    ringAt side q (m.withAdapter a) = ringAt side q m := by
  cases side <;> rfl

@[simp] theorem updateRing_log (change : Ring → Ring) :
    (m.updateRing side q change).log = m.log := by
  cases side <;> rfl

@[simp] theorem updateRing_adapter (change : Ring → Ring) :
    (m.updateRing side q change).adapter = m.adapter := by
  cases side <;> rfl

end Sides

/-! ## What a command does to the queues of the device -/

section Commands

variable {m : Machine} {q : AdminQueues} {ctrl : List Nat} {req : AdminReq}

@[simp] theorem ringAt_timedOut (side : RingType) (i : Nat) :
    ringAt side i (m.timedOut q ctrl req) = ringAt side i m := by
  cases side <;> rfl

@[simp] theorem ringAt_answered (side : RingType) (i : Nat) (answer : Answer) :
    ringAt side i (m.answered q ctrl req answer) = ringAt side i m := by
  cases side <;> rfl

theorem heldQueues_restart (q : AdminQueues) (log : List Effect) :
    heldQueues (log ++ q.restartEffects) = heldQueues log := by
  rw [heldQueues_append]
  unfold AdminQueues.restartEffects
  split <;> rfl

theorem heldQueues_timedOut : heldQueues (m.timedOut q ctrl req).log = heldQueues m.log := by
  change heldQueues (m.log ++ (q.restartEffects ++ _)) = _
  rw [← List.append_assoc, heldQueues_append, heldQueues_restart]
  rfl

variable (q req) in
theorem completed_zero (status : UInt8) (response : Response) :
    (answeredOut q req (.completes status response)).ret = 0 ↔ status = 0 := by
  constructor
  · intro zero
    have none : status.toNat = 0 := by
      have := (show -(status.toNat : Int) = 0 from zero)
      omega
    exact UInt8.toNat_inj.mp none
  · rintro rfl
    rfl

theorem copied_queueIdx {cap : Nat} (response : Response) (fits : 16 ≤ cap) :
    (copiedResponse cap response).queueIdx = response.queueIdx := by
  unfold Response.queueIdx
  rw [copiedResponse_word response (by omega)]

theorem served_copied (held : HeldQueues) (wellFormed : QueueReq req) (response : Response) :
    held.served req.opcode (reqData req) (copiedResponse req.respCap response) =
      held.served req.opcode (reqData req) response := by
  by_cases creates : req.opcode = 1 ∨ req.opcode = 3
  · have same := copied_queueIdx response (wellFormed.capacity creates)
    rcases creates with one | three
    · simp [one, HeldQueues.served, same]
    · simp [three, HeldQueues.served, same]
  · unfold HeldQueues.served
    split <;> first | rfl | (exfalso; omega)

theorem heldQueues_answered (wellFormed : QueueReq req) (answer : Answer) :
    heldQueues (m.answered q ctrl req answer).log =
      if (answeredOut q req answer).ret = 0 then
        (heldQueues m.log).served req.opcode (reqData req) (answeredOut q req answer).resp
      else heldQueues m.log := by
  change heldQueues (m.log ++ (q.restartEffects ++ _)) = _
  rw [← List.append_assoc, heldQueues_append, heldQueues_restart]
  cases answer with
  | completes status response =>
    exact (if_congr (completed_zero q req status response) (served_copied _ wellFormed response)
      rfl).symm
  | stray => rfl
  | silent => rfl

end Commands

/-! ## The driver serves queue commands -/

/-- The outcomes of commands and updates of the hardware part keep an invariant and
a preorder, and a recovery that a command asks for changes nothing. -/
structure KeepsQueues (inv : Machine → Prop) (rel : Machine → Machine → Prop) (reliable : Prop)
    (env : Env) (recover : Driver Int) : Prop where
  refl : ∀ m, rel m m
  trans : ∀ first second third, rel first second → rel second third → rel first third
  unlocked : ∀ m, inv m → m.adapter.adminLock = false
  timesOut : ∀ m q ctrl req, inv m → m.adapter.queues = some q → m.adapter.state ≠ .error →
    answerTo env m q req = .silent →
    inv (m.timedOut q ctrl req) ∧ rel m (m.timedOut q ctrl req) ∧
      ∃ ret, recover (m.timedOut q ctrl req) = .ok (ret, m.timedOut q ctrl req)
  answers : ∀ m q ctrl req answer, inv m → m.adapter.queues = some q →
    m.adapter.state ≠ .error → answerTo env m q req = answer → answer ≠ .silent →
    inv (m.answered q ctrl req answer) ∧ rel m (m.answered q ctrl req answer) ∧
      ((answeredOut q req answer).ret = -ETIMEDOUT →
        ∃ ret, recover (m.answered q ctrl req answer) = .ok (ret, m.answered q ctrl req answer))
  destroys : reliable → ∀ m req, inv m → req.opcode = 2 ∨ req.opcode = 4 →
    ∃ q response, m.adapter.queues = some q ∧ m.adapter.state ≠ .error ∧
      answerTo env m q req = .completes 0 response
  setHw : ∀ m side q (change : Ring → HwQueue), inv m →
    inv (m.updateRing side q fun r => { r with hw := change r }) ∧
      rel m (m.updateRing side q fun r => { r with hw := change r })

def queueView (inv : Machine → Prop) (rel : Machine → Machine → Prop) (reliable : Prop)
    (side : RingType) (q : Nat) : View Machine where
  inv := inv
  rel := rel
  held := fun m => heldQueues m.log
  ringOf := fun m => (ringAt side q m).getD (.fresh 0 side .four .four 0 0 0)
  alive := fun m => m.adapter.state ≠ .error
  reliable := reliable
  strict := False

section Service

variable {inv : Machine → Prop} {rel : Machine → Machine → Prop} {reliable : Prop} {env : Env}
  {recover : Driver Int} (keeps : KeepsQueues inv rel reliable env recover) {side : RingType} {q : Nat}
include keeps

theorem KeepsQueues.exec (m : Machine) (req : AdminReq) (holds : inv m) (wellFormed : QueueReq req) :
    Returns (execWith env recover [] req) m fun out next =>
      (queueView inv rel reliable side q).Outcome req m out next := by
  suffices outcome : Returns (enaAdminExecCmd (machineIo env []) recover req) m fun out next =>
      (queueView inv rel reliable side q).Outcome req m (out.ret, out.resp) next from
    outcome.bind fun out next facts => Returns.pure facts
  unfold Returns
  rcases enaAdminExecCmd_cases recover (keeps.unlocked m holds) with
    ⟨error, code, refused, ran⟩ |
    ⟨aq, present, alive, _, ⟨silent, ran⟩ | ⟨answer, given, answered, ran⟩⟩
  · have nonzero : (ExecOut.fails error).ret ≠ 0 := by rcases code with rfl | rfl <;> decide
    refine ⟨_, m, ran, holds, keeps.refl m, rfl, ?_, ?_, fun _ => rfl, ?_⟩
    · exact fun zero => absurd zero nonzero
    · exact fun zero => absurd zero nonzero
    · intro sure destroys
      obtain ⟨aq, _, present, alive, _⟩ := keeps.destroys sure m req holds destroys
      rcases refused with none | dead | long
      · rw [present] at none
        cases none
      · exact absurd dead alive
      · exact absurd long (Nat.not_lt.mpr wellFormed.short)
  · obtain ⟨kept, related, ret, quiet⟩ := keeps.timesOut m aq [] req holds present alive silent
    have nonzero : (ExecOut.fails ETIMEDOUT).ret ≠ 0 := by decide
    refine ⟨.fails ETIMEDOUT, m.timedOut aq [] req, ?_, kept, related, ?_, ?_, ?_, ?_, ?_⟩
    · rw [ran, quiet]
      rfl
    · simp [queueView]
    · exact fun zero => absurd zero nonzero
    · exact fun zero => absurd zero nonzero
    · exact fun _ => heldQueues_timedOut
    · intro sure destroys
      obtain ⟨other, _, otherPresent, _, accepted⟩ := keeps.destroys sure m req holds destroys
      cases present.symm.trans otherPresent
      rw [silent] at accepted
      cases accepted
  · obtain ⟨kept, related, quiet⟩ :=
      keeps.answers m aq [] req answer holds present alive given answered
    have returned : enaAdminExecCmd (machineIo env []) recover req m =
        .ok (answeredOut aq req answer, m.answered aq [] req answer) := by
      rw [ran]
      split
      · rename_i timeout
        obtain ⟨ret, same⟩ := quiet timeout
        rw [same]
        rfl
      · rfl
    refine ⟨answeredOut aq req answer, m.answered aq [] req answer, returned, kept, related, ?_, ?_,
      ?_, ?_, ?_⟩
    · simp [queueView]
    · exact fun _ => alive
    · exact fun zero => (heldQueues_answered wellFormed answer).trans (if_pos zero)
    · exact fun nonzero => (heldQueues_answered wellFormed answer).trans (if_neg nonzero)
    · intro sure destroys
      obtain ⟨other, response, otherPresent, _, accepted⟩ := keeps.destroys sure m req holds destroys
      cases present.symm.trans otherPresent
      rw [given] at accepted
      rw [accepted]
      exact (completed_zero aq req 0 response).mpr rfl

theorem KeepsQueues.serves (attached : ∀ m, inv m → ∃ r, ringAt side q m = some r) :
    Serves (queueView inv rel reliable side q) (execWith env recover []) (portAccess side q) where
  refl := keeps.refl
  trans := keeps.trans
  get := by
    intro m holds
    obtain ⟨r, found⟩ := attached m holds
    have same : (queueView inv rel reliable side q).ringOf m = r := by
      simp [queueView, found]
    rw [same, portAccess_get found]
  setHw := by
    intro m change holds
    obtain ⟨r, found⟩ := attached m holds
    obtain ⟨kept, related⟩ := keeps.setHw m side q change holds
    refine ⟨(), _, portAccess_modify _, kept, related, ?_, ?_, ?_⟩
    · exact congrArg heldQueues (updateRing_log _)
    · simp [queueView, found, ringAt_updateRing]
    · intro alive
      change (m.updateRing side q _).adapter.state ≠ .error
      rw [updateRing_adapter]
      exact alive
  exec := fun m req holds wellFormed _ => keeps.exec m req holds wellFormed

end Service

/-! ## Balance -/

structure Machine.Ready (m : Machine) : Prop where
  queues : m.adapter.queues.isSome = true
  alive : m.adapter.state ≠ .error
  unlocked : m.adapter.adminLock = false

/-- Every command is answered, none with the code of a timeout, and destroy
commands succeed. -/
def Env.Answering (env : Env) : Prop :=
  ∀ t entry, ∃ status response, env.answer t entry = .completes status response ∧
    status ≠ 110 ∧ (entry.opcode = 2 ∨ entry.opcode = 4 → status = 0)

theorem answering_keeps {env : Env} (answering : env.Answering) (side : RingType) (q : Nat)
    (recover : Driver Int) :
    KeepsQueues (fun m => m.Ready ∧ ∃ r, ringAt side q m = some r) (fun _ _ => True) True env
      recover where
  refl := fun _ => trivial
  trans := fun _ _ _ _ _ => trivial
  unlocked := fun _ holds => holds.1.unlocked
  timesOut := by
    intro m aq ctrl req holds present alive silent
    obtain ⟨status, response, answer, _⟩ := answering (m.logged aq.restartEffects).log.length
      (aq.entryOf req)
    rw [answerTo, answer] at silent
    cases silent
  answers := by
    intro m aq ctrl req answer holds present alive given _
    obtain ⟨ready, r, attached⟩ := holds
    refine ⟨⟨⟨rfl, alive, ready.unlocked⟩, r, ?_⟩, trivial, ?_⟩
    · rw [ringAt_answered, attached]
    intro timeout
    obtain ⟨status, _, same, differs, _⟩ := answering (m.logged aq.restartEffects).log.length
      (aq.entryOf req)
    rw [answerTo, same] at given
    cases given
    refine absurd ?_ differs
    have code : -(status.toNat : Int) = -110 := timeout
    apply UInt8.toNat_inj.mp
    change status.toNat = 110
    omega
  destroys := by
    intro _ m req holds destroys
    obtain ⟨aq, present⟩ := Option.isSome_iff_exists.mp holds.1.queues
    obtain ⟨status, response, answer, _, accepted⟩ :=
      answering (m.logged aq.restartEffects).log.length (aq.entryOf req)
    cases accepted destroys
    exact ⟨aq, response, present, holds.1.alive, answer⟩
  setHw := by
    intro m other index change holds
    obtain ⟨ready, r, attached⟩ := holds
    refine ⟨⟨⟨?_, ?_, ?_⟩, ?_⟩, trivial⟩
    · rw [updateRing_adapter]
      exact ready.queues
    · rw [updateRing_adapter]
      exact ready.alive
    · rw [updateRing_adapter]
      exact ready.unlocked
    · rw [ringAt_updateRing, attached]
      exact ⟨_, rfl⟩

/-- Creation of the queues of an attached ring is balanced: an error leaves the
queues of the device as they were, and success adds one completion queue and one
submission queue bound to it, whose ids the ring stores. -/
theorem create_hw_balanced {env : Env} {m : Machine} {side : RingType} {q : Nat} {r : Ring}
    (ready : m.Ready) (answering : env.Answering) (attached : ringAt side q m = some r)
    (nesting msixVector : Nat) :
    Returns (enaRingCreateHw m.adapter.map (driverExec env nesting []) (portAccess side q) msixVector)
      m fun ret final =>
        (ret ≠ 0 → heldQueues final.log = heldQueues m.log) ∧
        (ret = 0 → ∃ made placement, ringAt side q final = some made ∧ made.hw.valid = true ∧
          heldQueues final.log =
            ((heldQueues m.log).addCq (cqRecord r (sentVector msixVector) made.hw.cqIdx)).addSq
              (sqRecord r placement made.hw.sqIdx made.hw.cqIdx)) := by
  have keeps := answering_keeps answering side q (enaAdapterResetAndRecover env nesting)
  have serves := keeps.serves fun _ holds => holds.2
  have old : (queueView (fun m => m.Ready ∧ ∃ r, ringAt side q m = some r) (fun _ _ => True) True
      side q).ringOf m = r := by
    simp [queueView, attached]
  refine (serves.ringCreateHw m.adapter.map ⟨ready, r, attached⟩ msixVector).mono ?_
  rintro ret final ⟨moved, made, failed⟩
  refine ⟨fun nonzero => (failed nonzero).eq trivial, fun zero => ?_⟩
  obtain ⟨_, valid, base, placement, left, added, _⟩ := made zero
  obtain ⟨_, next, found⟩ := moved.inv
  have new : (queueView (fun m => m.Ready ∧ ∃ r, ringAt side q m = some r) (fun _ _ => True) True
      side q).ringOf final = next := by
    simp [queueView, found]
  rw [old, new] at added left
  rw [new] at valid
  rw [left.eq trivial] at added
  exact ⟨next, placement, found, valid, added⟩

theorem obliging_answering : Env.obliging.Answering :=
  fun _ _ => ⟨0, fun _ => 0, rfl, by decide, fun _ => rfl⟩

/-- The transmit ring of a pair on a device that accepts everything. -/
theorem create_hw_balanced_pair :
    Returns (enaRingCreateHw plainDevice (driverExec .obliging 1 []) (portAccess .tx 0) 0)
      (onePair plainDevice) fun ret final =>
        (ret ≠ 0 → heldQueues final.log = .none) ∧
        (ret = 0 → ∃ made placement, ringAt .tx 0 final = some made ∧ made.hw.valid = true ∧
          heldQueues final.log =
            (HeldQueues.none.addCq (cqRecord (.fresh 0 .tx .four .four 0 0 0) (sentVector 0)
              made.hw.cqIdx)).addSq (sqRecord (.fresh 0 .tx .four .four 0 0 0) placement
                made.hw.sqIdx made.hw.cqIdx)) :=
  create_hw_balanced (m := onePair plainDevice) ⟨rfl, by decide, rfl⟩ obliging_answering rfl 1 0

end EnaDriver.Admin
