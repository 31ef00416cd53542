import EnaDriver.Admin.Preservation

/-!
# The queues that the device holds

A device holds the completion and submission queues that it accepted and was not
told to destroy since its last reset, each with what it was created for.  The
second part follows the creation and the destruction of the queues of a ring over
any executor that serves commands on such a device: a creation that succeeds adds
one queue of each kind, and a creation that fails adds nothing unless a command
that destroys a queue is refused.
-/

namespace EnaDriver.Admin

open Support.Programs Datapath

variable {i idx : Nat} {req : AdminReq}

/-! ## Commands as the device reads them -/

def reqData (req : AdminReq) : List Nat := (buildEntry true 0 req).data

def u16At (data : List Nat) (i : Nat) : Nat := data.getD i 0 + 256 * data.getD (i + 1) 0

def u32At (data : List Nat) (i : Nat) : Nat := u16At data i + 2 ^ 16 * u16At data (i + 2)

structure CqRecord where
  idx : Nat
  depth : Nat
  vector : Nat
  deriving DecidableEq, Repr

structure SqRecord where
  idx : Nat
  cqIdx : Nat
  depth : Nat
  direction : Nat
  placement : Nat
  deriving DecidableEq, Repr

structure HeldQueues where
  cqs : List CqRecord
  sqs : List SqRecord
  deriving DecidableEq, Repr

namespace HeldQueues

def none : HeldQueues := ⟨[], []⟩

def addCq (held : HeldQueues) (cq : CqRecord) : HeldQueues := { held with cqs := cq :: held.cqs }

def addSq (held : HeldQueues) (sq : SqRecord) : HeldQueues := { held with sqs := sq :: held.sqs }

def dropCq (held : HeldQueues) (idx : Nat) : HeldQueues :=
  { held with cqs := held.cqs.eraseP fun cq => cq.idx = idx }

def dropSq (held : HeldQueues) (idx : Nat) : HeldQueues :=
  { held with sqs := held.sqs.eraseP fun sq => sq.idx = idx }

/-- A queue that is created and destroyed again leaves nothing. -/
theorem dropCq_addCq (held : HeldQueues) (cq : CqRecord) : (held.addCq cq).dropCq cq.idx = held := by
  simp [addCq, dropCq]

theorem dropSq_addSq (held : HeldQueues) (sq : SqRecord) : (held.addSq sq).dropSq sq.idx = held := by
  simp [addSq, dropSq]

def HasCq (held : HeldQueues) (idx : Nat) : Prop := ∃ cq ∈ held.cqs, cq.idx = idx

def HasSq (held : HeldQueues) (idx : Nat) : Prop := ∃ sq ∈ held.sqs, sq.idx = idx

theorem addCq_hasCq (held : HeldQueues) (cq : CqRecord) : (held.addCq cq).HasCq cq.idx :=
  ⟨cq, List.mem_cons_self, rfl⟩

theorem addSq_hasSq (held : HeldQueues) (sq : SqRecord) : (held.addSq sq).HasSq sq.idx :=
  ⟨sq, List.mem_cons_self, rfl⟩

def served (held : HeldQueues) (opcode : Nat) (data : List Nat) (resp : Response) : HeldQueues :=
  match opcode with
  | 1 => held.addSq ⟨resp.queueIdx, u16At data 4, u16At data 6, data.getD 0 0 / 32, data.getD 2 0⟩
  | 2 => held.dropSq (u16At data 0)
  | 3 => held.addCq ⟨resp.queueIdx, u16At data 2, u32At data 4⟩
  | 4 => held.dropCq (u16At data 0)
  | _ => held

/-- The queues after an effect.  A reset that completes removes all of them. -/
def after (held : HeldQueues) : Effect → HeldQueues
  | .command entry _ (.completes status resp) =>
    if status = 0 then held.served entry.opcode entry.data resp else held
  | .reset .ready => none
  | _ => held

end HeldQueues

def heldQueues (log : List Effect) : HeldQueues := log.foldl HeldQueues.after .none

theorem heldQueues_append (log effects : List Effect) :
    heldQueues (log ++ effects) = effects.foldl HeldQueues.after (heldQueues log) :=
  List.foldl_append

/-! ## The queue commands -/

section Served

variable (held : HeldQueues) (resp : Response)

theorem reqData_getD (short : req.req.length < aqEntrySize) (inside : i < 60) :
    (reqData req).getD i 0 = req.req.getD i 0 := by
  have data : reqData req = (req.req ++ List.replicate 60 0).take 60 := by
    simp [reqData, buildEntry, Nat.not_le.mpr short]
  rw [data, List.getD_eq_getElem?_getD, List.getD_eq_getElem?_getD, List.getElem?_take_of_lt inside]
  by_cases bound : i < req.req.length
  · rw [List.getElem?_append_left bound]
  · have beyond := Nat.not_lt.mp bound
    rw [List.getElem?_append_right beyond, List.getElem?_eq_none beyond, List.getElem?_replicate]
    split <;> rfl

theorem reqData_u16 (short : req.req.length < aqEntrySize) (inside : i < 59) :
    u16At (reqData req) i = u16At req.req i := by
  have first : i < 60 := by omega
  have second : i + 1 < 60 := by omega
  rw [u16At, u16At, reqData_getD short first, reqData_getD short second]

theorem reqData_u32 (short : req.req.length < aqEntrySize) (inside : i < 57) :
    u32At (reqData req) i = u32At req.req i := by
  have first : i < 59 := by omega
  have second : i + 2 < 59 := by omega
  rw [u32At, u32At, reqData_u16 short first, reqData_u16 short second]

theorem le16_joined {value : Nat} (small : value < 2 ^ 16) :
    value % 256 + 256 * (value / 256 % 256) = value := by omega

theorem le32_joined (value : Nat) :
    value % 256 + 256 * (value / 256 % 256) +
      2 ^ 16 * (value / 2 ^ 16 % 256 + 256 * (value / 2 ^ 16 / 256 % 256)) = value % 2 ^ 32 := by
  omega

theorem queueIdx_lt (resp : Response) : resp.queueIdx < 2 ^ 16 := Nat.mod_lt _ (by decide)

def cqRecord (r : Ring) (msixVector idx : Nat) : CqRecord := ⟨idx, r.cqDepth.val, msixVector % 2 ^ 32⟩

def sqRecord (r : Ring) (placement : Placement) (idx cqIdx : Nat) : SqRecord :=
  ⟨idx, cqIdx, r.sqDepth.val, r.ringType.direction, placement.code⟩

def sentVector (msixVector : Nat) : Nat := if msixVector ≠ 0 then msixVector else msixNone

theorem sqRecord_hwOnly {r next : Ring} (same : HwOnly r next) (placement : Placement)
    (idx cqIdx : Nat) : sqRecord next placement idx cqIdx = sqRecord r placement idx cqIdx := by
  obtain ⟨_, rfl⟩ := same
  rfl

theorem wantsLlq_hwOnly (dev : DeviceMap) {r next : Ring} (same : HwOnly r next) :
    dev.wantsLlq next = dev.wantsLlq r := by
  obtain ⟨_, rfl⟩ := same
  rfl

@[simp] theorem activate_cqIdx (hw : HwQueue) (dev : DeviceMap) (sqDepth : Nat) (push : Option Nat) :
    (hw.activate dev sqDepth push).cqIdx = hw.cqIdx := by
  cases push <;> rfl

@[simp] theorem activate_sqIdx (hw : HwQueue) (dev : DeviceMap) (sqDepth : Nat) (push : Option Nat) :
    (hw.activate dev sqDepth push).sqIdx = hw.sqIdx := by
  cases push <;> rfl

theorem served_createCq (r : Ring) (msixVector words : Nat) :
    held.served 3 (reqData (createCqReq r.cqDepth.val r.cqPhys msixVector words)) resp =
      held.addCq (cqRecord r msixVector resp.queueIdx) := by
  have short : (createCqReq r.cqDepth.val r.cqPhys msixVector words).req.length < aqEntrySize := by
    simp [createCqReq, le32, le16, memAddr, aqEntrySize]
  have depth : u16At (reqData (createCqReq r.cqDepth.val r.cqPhys msixVector words)) 2 =
      r.cqDepth.val :=
    (reqData_u16 short (by decide)).trans
      (le16_joined (Nat.lt_of_le_of_lt r.cqDepth.le (by decide)))
  have vector : u32At (reqData (createCqReq r.cqDepth.val r.cqPhys msixVector words)) 4 =
      msixVector % 2 ^ 32 :=
    (reqData_u32 short (by decide)).trans (le32_joined msixVector)
  change held.addCq ⟨resp.queueIdx, u16At _ 2, u32At _ 4⟩ = _
  rw [depth, vector]
  rfl

theorem served_createSq (r : Ring) (placement : Placement) {cqIdx : Nat} (small : cqIdx < 2 ^ 16) :
    held.served 1 (reqData (createSqReq placement r.sqDepth.val r.sqPhys r.sqHeadWbPhys cqIdx
      r.ringType.direction)) resp =
      held.addSq (sqRecord r placement resp.queueIdx cqIdx) := by
  have short : (createSqReq placement r.sqDepth.val r.sqPhys r.sqHeadWbPhys cqIdx
      r.ringType.direction).req.length < aqEntrySize := by
    cases placement <;> simp [createSqReq, le32, le16, memAddr, aqEntrySize]
  have completion : u16At (reqData (createSqReq placement r.sqDepth.val r.sqPhys r.sqHeadWbPhys cqIdx
      r.ringType.direction)) 4 = cqIdx :=
    (reqData_u16 short (by decide)).trans (le16_joined small)
  have depth : u16At (reqData (createSqReq placement r.sqDepth.val r.sqPhys r.sqHeadWbPhys cqIdx
      r.ringType.direction)) 6 = r.sqDepth.val :=
    (reqData_u16 short (by decide)).trans
      (le16_joined (Nat.lt_of_le_of_lt r.sqDepth.le (by decide)))
  have direction : (reqData (createSqReq placement r.sqDepth.val r.sqPhys r.sqHeadWbPhys cqIdx
      r.ringType.direction)).getD 0 0 / 32 = r.ringType.direction := by
    have byte := reqData_getD short (i := 0) (by decide)
    rw [byte]
    change r.ringType.direction % 8 * 32 / 32 = _
    cases r.ringType <;> rfl
  have policy : (reqData (createSqReq placement r.sqDepth.val r.sqPhys r.sqHeadWbPhys cqIdx
      r.ringType.direction)).getD 2 0 = placement.code :=
    reqData_getD short (by decide)
  change held.addSq ⟨resp.queueIdx, u16At _ 4, u16At _ 6, _, _⟩ = _
  rw [completion, depth, direction, policy]
  rfl

/-- The id that a destroy command names. -/
theorem destroyCqReq_target (small : idx < 2 ^ 16) :
    u16At (reqData (destroyCqReq idx)) 0 = idx := by
  have short : (destroyCqReq idx).req.length < aqEntrySize := by
    simp [destroyCqReq, le16, aqEntrySize]
  exact (reqData_u16 short (by decide)).trans (le16_joined small)

theorem destroySqReq_target (small : idx < 2 ^ 16) :
    u16At (reqData (destroySqReq idx)) 0 = idx := by
  have short : (destroySqReq idx).req.length < aqEntrySize := by
    simp [destroySqReq, le16, aqEntrySize]
  exact (reqData_u16 short (by decide)).trans (le16_joined small)

theorem served_destroyCq (small : idx < 2 ^ 16) :
    held.served 4 (reqData (destroyCqReq idx)) resp = held.dropCq idx :=
  congrArg held.dropCq (destroyCqReq_target small)

theorem served_destroySq (small : idx < 2 ^ 16) :
    held.served 2 (reqData (destroySqReq idx)) resp = held.dropSq idx :=
  congrArg held.dropSq (destroySqReq_target small)

structure QueueReq (req : AdminReq) : Prop where
  short : req.req.length ≤ aqEntrySize
  capacity : req.opcode = 1 ∨ req.opcode = 3 → 16 ≤ req.respCap

theorem createCqReq_queueReq (cqDepth cqPhys msixVector words : Nat) :
    QueueReq (createCqReq cqDepth cqPhys msixVector words) where
  short := by simp [createCqReq, le32, le16, memAddr, aqEntrySize]
  capacity := fun _ => Nat.le_refl 16

theorem createSqReq_queueReq (placement : Placement)
    (sqDepth sqPhys sqHeadWbPhys cqIdx direction : Nat) :
    QueueReq (createSqReq placement sqDepth sqPhys sqHeadWbPhys cqIdx direction) where
  short := by cases placement <;> simp [createSqReq, le32, le16, memAddr, aqEntrySize]
  capacity := fun _ => Nat.le_refl 16

theorem destroyCqReq_queueReq (idx : Nat) : QueueReq (destroyCqReq idx) where
  short := by simp [destroyCqReq, le16, aqEntrySize]
  capacity := by rintro (other | other) <;> cases other

theorem destroySqReq_queueReq (idx : Nat) : QueueReq (destroySqReq idx) where
  short := by simp [destroySqReq, le16, aqEntrySize]
  capacity := by rintro (other | other) <;> cases other

end Served

/-! ## Creation and destruction over any executor -/

/-- What is followed through the functions of one ring: an invariant and a
preorder of the states, the queues of the device, the ring, whether the last
command was answered, whether destroy commands are always accepted, and whether
they have to name a queue that is there. -/
structure View (σ : Type) where
  inv : σ → Prop
  rel : σ → σ → Prop
  held : σ → HeldQueues
  ringOf : σ → Ring
  alive : σ → Prop
  reliable : Prop
  strict : Prop

namespace View

variable {σ : Type} (view : View σ)

/-- Between two states only the hardware part of the ring changed, apart from what
the invariant and the preorder allow. -/
structure Moved (s next : σ) : Prop where
  inv : view.inv next
  rel : view.rel s next
  hwOnly : HwOnly (view.ringOf s) (view.ringOf next)

/-- Under a strict view a destroy command names a queue of the device. -/
def Allowed (req : AdminReq) (s : σ) : Prop :=
  view.strict → (req.opcode = 2 → (view.held s).HasSq (u16At (reqData req) 0)) ∧
    (req.opcode = 4 → (view.held s).HasCq (u16At (reqData req) 0))

structure Outcome (req : AdminReq) (s : σ) (out : Int × Response) (next : σ) : Prop where
  inv : view.inv next
  rel : view.rel s next
  ring : view.ringOf next = view.ringOf s
  alive : out.1 = 0 → view.alive next
  accepted : out.1 = 0 → view.held next = (view.held s).served req.opcode (reqData req) out.2
  refused : out.1 ≠ 0 → view.held next = view.held s
  reliable : view.reliable → req.opcode = 2 ∨ req.opcode = 4 → out.1 = 0

def Leftover (before after : HeldQueues) : Prop :=
  ∃ cqs sqs, after = ⟨cqs ++ before.cqs, sqs ++ before.sqs⟩ ∧
    (view.reliable → cqs = [] ∧ sqs = [])

def Dropped (dropped before after : HeldQueues) : Prop :=
  after = dropped ∨ ¬ view.reliable ∧ after = before

variable {view} {before middle after : HeldQueues}

theorem Leftover.refl (held : HeldQueues) : view.Leftover held held :=
  ⟨[], [], rfl, fun _ => ⟨rfl, rfl⟩⟩

theorem Leftover.trans (earlier : view.Leftover before middle) (later : view.Leftover middle after) :
    view.Leftover before after := by
  obtain ⟨cqs, sqs, rfl, none⟩ := earlier
  obtain ⟨moreCqs, moreSqs, rfl, noMore⟩ := later
  refine ⟨moreCqs ++ cqs, moreSqs ++ sqs, by simp, fun reliable => ?_⟩
  obtain ⟨rfl, rfl⟩ := none reliable
  obtain ⟨rfl, rfl⟩ := noMore reliable
  exact ⟨rfl, rfl⟩

theorem Leftover.hasCq (left : view.Leftover before after) (has : before.HasCq idx) :
    after.HasCq idx := by
  obtain ⟨cqs, sqs, rfl, _⟩ := left
  obtain ⟨cq, member, same⟩ := has
  exact ⟨cq, List.mem_append_right cqs member, same⟩

/-- A destroyed submission queue leaves the completion queues alone. -/
theorem Dropped.hasCq {sqIdx : Nat} (dropped : view.Dropped (before.dropSq sqIdx) before after)
    (has : before.HasCq idx) : after.HasCq idx := by
  rcases dropped with rfl | ⟨_, rfl⟩
  · exact has
  · exact has

theorem Leftover.eq (left : view.Leftover before after) (reliable : view.reliable) :
    after = before := by
  obtain ⟨cqs, sqs, rfl, none⟩ := left
  obtain ⟨rfl, rfl⟩ := none reliable
  rfl

/-- Destroying a queue that was created after the first of two points. -/
theorem Leftover.dropCq {cq : CqRecord} (left : view.Leftover (before.addCq cq) middle)
    (dropped : view.Dropped (middle.dropCq cq.idx) middle after) : view.Leftover before after := by
  obtain ⟨cqs, sqs, rfl, none⟩ := left
  rcases dropped with rfl | ⟨unreliable, rfl⟩
  · by_cases inside : cqs.any fun other => other.idx = cq.idx
    · refine ⟨cqs.eraseP (fun other => other.idx = cq.idx) ++ [cq], sqs, ?_, fun reliable => ?_⟩
      · simp [HeldQueues.dropCq, HeldQueues.addCq, List.eraseP_append, inside]
      · rw [(none reliable).1] at inside
        cases inside
    · refine ⟨cqs, sqs, ?_, none⟩
      simp [HeldQueues.dropCq, HeldQueues.addCq, List.eraseP_append, inside]
  · exact ⟨cqs ++ [cq], sqs, by simp [HeldQueues.addCq],
      fun reliable => absurd reliable unreliable⟩

theorem Leftover.dropSq {sq : SqRecord} (left : view.Leftover (before.addSq sq) middle)
    (dropped : view.Dropped (middle.dropSq sq.idx) middle after) : view.Leftover before after := by
  obtain ⟨cqs, sqs, rfl, none⟩ := left
  rcases dropped with rfl | ⟨unreliable, rfl⟩
  · by_cases inside : sqs.any fun other => other.idx = sq.idx
    · refine ⟨cqs, sqs.eraseP (fun other => other.idx = sq.idx) ++ [sq], ?_, fun reliable => ?_⟩
      · simp [HeldQueues.dropSq, HeldQueues.addSq, List.eraseP_append, inside]
      · rw [(none reliable).2] at inside
        cases inside
    · refine ⟨cqs, sqs, ?_, none⟩
      simp [HeldQueues.dropSq, HeldQueues.addSq, List.eraseP_append, inside]
  · exact ⟨cqs, sqs ++ [sq], by simp [HeldQueues.addSq],
      fun reliable => absurd reliable unreliable⟩

end View

structure Serves {σ : Type} (view : View σ) (exec : Exec (Prog σ Fault))
    (ring : RingAccess (Prog σ Fault)) : Prop where
  refl : ∀ s, view.rel s s
  trans : ∀ first second third, view.rel first second → view.rel second third →
    view.rel first third
  get : ∀ s, view.inv s → ring.get s = .ok (view.ringOf s, s)
  setHw : ∀ s (change : Ring → HwQueue), view.inv s →
    Returns (ring.modify fun r => { r with hw := change r }) s fun _ next =>
      view.inv next ∧ view.rel s next ∧ view.held next = view.held s ∧
      view.ringOf next = { view.ringOf s with hw := change (view.ringOf s) } ∧
      (view.alive s → view.alive next)
  exec : ∀ s req, view.inv s → QueueReq req → view.Allowed req s →
    Returns (exec req) s fun out next => view.Outcome req s out next

namespace Serves

variable {σ : Type} {view : View σ} {exec : Exec (Prog σ Fault)} {ring : RingAccess (Prog σ Fault)}
  (serves : Serves view exec ring) (dev : DeviceMap) {s : σ}
include serves

variable (holds : view.inv s)
include holds

theorem moved_refl : view.Moved s s := ⟨holds, serves.refl s, .refl _⟩

omit holds in
theorem moved_trans {middle next : σ} (earlier : view.Moved s middle)
    (later : view.Moved middle next) : view.Moved s next :=
  ⟨later.inv, serves.trans _ _ _ earlier.rel later.rel, earlier.hwOnly.trans later.hwOnly⟩

omit holds in
omit serves in
theorem Outcome.moved {out : Int × Response} {next : σ} (outcome : view.Outcome req s out next) :
    view.Moved s next :=
  ⟨outcome.inv, outcome.rel, ⟨(view.ringOf s).hw, outcome.ring⟩⟩

omit holds in
omit serves in
theorem allowed_create (creates : req.opcode = 1 ∨ req.opcode = 3) :
    view.Allowed req s := by
  refine fun _ => ⟨fun other => ?_, fun other => ?_⟩
  · rcases creates with same | same <;> rw [same] at other <;> cases other
  · rcases creates with same | same <;> rw [same] at other <;> cases other

theorem getRing {α : Type} {next : Ring → Prog σ Fault α} {post : α → σ → Prop}
    (rest : Returns (next (view.ringOf s)) s post) : Returns (ring.get >>= next) s post := by
  unfold Returns
  rw [run_bind, serves.get s holds, ok_bind]
  exact rest

/-- A destroy command removes the queue, or was refused. -/
theorem destroyCq (small : idx < 2 ^ 16) (named : view.strict → (view.held s).HasCq idx) :
    Returns (enaAdminDestroyCq exec idx) s fun _ next => view.Moved s next ∧
      view.ringOf next = view.ringOf s ∧
      view.Dropped ((view.held s).dropCq idx) (view.held s) (view.held next) := by
  have allowed : view.Allowed (destroyCqReq idx) s := by
    refine fun strict => ⟨fun other => ?_, fun _ => ?_⟩
    · cases other
    · rw [destroyCqReq_target small]
      exact named strict
  refine (serves.exec s (destroyCqReq idx) holds (destroyCqReq_queueReq idx) allowed).bind
    fun out next outcome => ?_
  refine Returns.pure ⟨Outcome.moved outcome, outcome.ring, ?_⟩
  by_cases zero : out.1 = 0
  · left
    rw [outcome.accepted zero]
    exact served_destroyCq _ _ small
  · right
    exact ⟨fun reliable => zero (outcome.reliable reliable (.inr rfl)), outcome.refused zero⟩

theorem destroySq (small : idx < 2 ^ 16) (named : view.strict → (view.held s).HasSq idx) :
    Returns (enaAdminDestroySq exec idx) s fun _ next => view.Moved s next ∧
      view.ringOf next = view.ringOf s ∧
      view.Dropped ((view.held s).dropSq idx) (view.held s) (view.held next) := by
  have allowed : view.Allowed (destroySqReq idx) s := by
    refine fun strict => ⟨fun _ => ?_, fun other => ?_⟩
    · rw [destroySqReq_target small]
      exact named strict
    · cases other
  refine (serves.exec s (destroySqReq idx) holds (destroySqReq_queueReq idx) allowed).bind
    fun out next outcome => ?_
  refine Returns.pure ⟨Outcome.moved outcome, outcome.ring, ?_⟩
  by_cases zero : out.1 = 0
  · left
    rw [outcome.accepted zero]
    exact served_destroySq _ _ small
  · right
    exact ⟨fun reliable => zero (outcome.reliable reliable (.inl rfl)), outcome.refused zero⟩

/-- A completion queue is created and its id stored, or nothing is left of it. -/
theorem createCq (msixVector : Nat) :
    Returns (enaAdminCreateCq dev exec ring msixVector) s fun ret next => view.Moved s next ∧
      (ret = 0 → view.alive next ∧ (view.ringOf next).hw.cqIdx < 2 ^ 16 ∧
        view.held next =
          (view.held s).addCq (cqRecord (view.ringOf s) msixVector (view.ringOf next).hw.cqIdx)) ∧
      (ret ≠ 0 → view.Leftover (view.held s) (view.held next)) := by
  refine serves.getRing holds ?_
  refine (serves.exec s _ holds (createCqReq_queueReq _ _ _ _) (allowed_create (.inr rfl))).bind
    fun out middle outcome => ?_
  dsimp only
  by_cases zero : out.1 = 0
  · rw [if_neg (fun differs => differs zero)]
    have added : view.held middle = (view.held s).addCq
        (cqRecord (view.ringOf s) msixVector out.2.queueIdx) := by
      rw [outcome.accepted zero]
      exact served_createCq _ _ _ _ _
    refine (serves.setHw middle _ outcome.inv).bind fun _ stored facts => ?_
    obtain ⟨kept, related, sameHeld, sameRing, stillAlive⟩ := facts
    have moved : view.Moved s stored :=
      serves.moved_trans (Outcome.moved outcome) ⟨kept, related, ⟨_, sameRing⟩⟩
    have idx : (view.ringOf stored).hw.cqIdx = out.2.queueIdx := by rw [sameRing]
    split
    · have named : (view.held stored).HasCq out.2.queueIdx := by
        rw [sameHeld, added]
        exact HeldQueues.addCq_hasCq _ _
      refine (serves.destroyCq kept (queueIdx_lt out.2) fun _ => named).bind fun _ last dropped => ?_
      obtain ⟨lastMoved, _, left⟩ := dropped
      refine Returns.pure ⟨serves.moved_trans moved lastMoved, ?_, fun _ => ?_⟩
      · intro impossible
        cases impossible
      · rw [sameHeld, added] at left
        exact (View.Leftover.refl _).dropCq left
    · refine Returns.pure ⟨moved, fun _ => ?_, fun differs => absurd rfl differs⟩
      refine ⟨stillAlive (outcome.alive zero), ?_, ?_⟩
      · rw [idx]
        exact queueIdx_lt out.2
      · rw [sameHeld, added, idx]
  · rw [if_pos zero]
    refine Returns.pure ⟨Outcome.moved outcome, fun zero' => absurd zero' zero, fun _ => ?_⟩
    rw [outcome.refused zero]
    exact .refl _

section

variable (small : (view.ringOf s).hw.cqIdx < 2 ^ 16)
include small

/-- A submission queue is created and its id stored, or nothing is left of it. -/
theorem createSqCommon (placement : Placement) :
    Returns (enaAdminCreateSqCommon dev exec ring placement (view.ringOf s).ringType.direction) s
      fun out next => view.Moved s next ∧
        (view.ringOf next).hw.cqIdx = (view.ringOf s).hw.cqIdx ∧
        (out.1 = 0 → view.alive next ∧ (view.ringOf next).hw.sqIdx < 2 ^ 16 ∧
          view.held next = (view.held s).addSq (sqRecord (view.ringOf s) placement
            (view.ringOf next).hw.sqIdx (view.ringOf s).hw.cqIdx)) ∧
        (out.1 ≠ 0 → view.Leftover (view.held s) (view.held next)) := by
  refine serves.getRing holds ?_
  refine (serves.exec s _ holds (createSqReq_queueReq _ _ _ _ _ _) (allowed_create (.inl rfl))).bind
    fun out middle outcome => ?_
  dsimp only
  by_cases zero : out.1 = 0
  · rw [if_neg (fun differs => differs zero)]
    have added : view.held middle = (view.held s).addSq (sqRecord (view.ringOf s) placement
        out.2.queueIdx (view.ringOf s).hw.cqIdx) := by
      rw [outcome.accepted zero]
      exact served_createSq _ _ _ _ small
    refine (serves.setHw middle _ outcome.inv).bind fun _ stored facts => ?_
    obtain ⟨kept, related, sameHeld, sameRing, stillAlive⟩ := facts
    have moved : view.Moved s stored :=
      serves.moved_trans (Outcome.moved outcome) ⟨kept, related, ⟨_, sameRing⟩⟩
    have idx : (view.ringOf stored).hw.sqIdx = out.2.queueIdx := by rw [sameRing]
    have completion : (view.ringOf stored).hw.cqIdx = (view.ringOf s).hw.cqIdx := by
      rw [sameRing, outcome.ring]
    split
    · have named : (view.held stored).HasSq out.2.queueIdx := by
        rw [sameHeld, added]
        exact HeldQueues.addSq_hasSq _ _
      refine (serves.destroySq kept (queueIdx_lt out.2) fun _ => named).bind fun _ last dropped => ?_
      obtain ⟨lastMoved, lastRing, left⟩ := dropped
      refine Returns.pure ⟨serves.moved_trans moved lastMoved, ?_, ?_, fun _ => ?_⟩
      · rw [lastRing, completion]
      · intro impossible
        cases impossible
      · rw [sameHeld, added] at left
        exact (View.Leftover.refl _).dropSq left
    · refine Returns.pure ⟨moved, completion, fun _ => ?_, fun differs => absurd rfl differs⟩
      refine ⟨stillAlive (outcome.alive zero), ?_, ?_⟩
      · rw [idx]
        exact queueIdx_lt out.2
      · rw [sameHeld, added, idx]
  · rw [if_pos zero]
    refine Returns.pure ⟨Outcome.moved outcome, ?_, fun zero' => absurd zero' zero, fun _ => ?_⟩
    · rw [outcome.ring]
    · rw [outcome.refused zero]
      exact .refl _

theorem createSq :
    Returns (enaAdminCreateSq dev exec ring (view.ringOf s).ringType.direction) s
      fun ret next => view.Moved s next ∧
        (view.ringOf next).hw.cqIdx = (view.ringOf s).hw.cqIdx ∧
        (ret = 0 → view.alive next ∧ (view.ringOf next).hw.sqIdx < 2 ^ 16 ∧
          view.held next = (view.held s).addSq (sqRecord (view.ringOf s) .host
            (view.ringOf next).hw.sqIdx (view.ringOf s).hw.cqIdx)) ∧
        (ret ≠ 0 → view.Leftover (view.held s) (view.held next)) :=
  (serves.createSqCommon dev holds small .host).bind fun _ _ facts => Returns.pure facts

/-- The attempt in device placement creates a queue, or leaves nothing. -/
theorem createSqLlq :
    Returns (Datapath.createSqLlq dev exec ring (view.ringOf s).ringType.direction) s
      fun placed next => view.Moved s next ∧
        (view.ringOf next).hw.cqIdx = (view.ringOf s).hw.cqIdx ∧
        (placed = none → view.Leftover (view.held s) (view.held next) ∧
          (dev.wantsLlq (view.ringOf s) = false → view.held next = view.held s)) ∧
        (placed ≠ none → dev.wantsLlq (view.ringOf s) = true ∧ view.alive next ∧
          (view.ringOf next).hw.sqIdx < 2 ^ 16 ∧
          view.held next = (view.held s).addSq (sqRecord (view.ringOf s) .dev
            (view.ringOf next).hw.sqIdx (view.ringOf s).hw.cqIdx)) := by
  refine serves.getRing holds ?_
  by_cases wants : dev.wantsLlq (view.ringOf s) = false
  · rw [if_pos wants]
    exact Returns.pure ⟨serves.moved_refl holds, rfl, fun _ => ⟨.refl _, fun _ => rfl⟩,
      fun differs => absurd rfl differs⟩
  rw [if_neg wants]
  refine (serves.createSqCommon dev holds small .dev).bind fun out middle facts => ?_
  obtain ⟨moved, completion, created, failed⟩ := facts
  by_cases zero : out.1 = 0
  · obtain ⟨alive, fits, added⟩ := created zero
    dsimp only
    rw [if_neg (fun differs => differs zero)]
    refine serves.getRing moved.inv ?_
    split
    · have named : (view.held middle).HasSq (view.ringOf middle).hw.sqIdx := by
        rw [added]
        exact HeldQueues.addSq_hasSq _ _
      refine (serves.destroySq moved.inv fits fun _ => named).bind fun _ last dropped => ?_
      obtain ⟨lastMoved, lastRing, left⟩ := dropped
      refine Returns.pure ⟨serves.moved_trans moved lastMoved, ?_, fun _ => ⟨?_, ?_⟩,
        fun differs => absurd rfl differs⟩
      · rw [lastRing, completion]
      · rw [added] at left
        exact (View.Leftover.refl _).dropSq left
      · intro unwanted
        exact absurd unwanted wants
    · refine Returns.pure ⟨moved, completion, (fun impossible => by cases impossible), fun _ => ?_⟩
      exact ⟨Bool.not_eq_false _ |>.mp wants, alive, fits, added⟩
  · dsimp only
    rw [if_pos zero]
    exact Returns.pure ⟨moved, completion,
      fun _ => ⟨failed zero, fun unwanted => absurd unwanted wants⟩,
      fun differs => absurd rfl differs⟩

/-- The submission queue of a ring is created in one of the placements, or nothing
is left of it. -/
theorem createSqPlaced :
    Returns (Datapath.createSqPlaced dev exec ring (view.ringOf s).ringType.direction) s
      fun out next => view.Moved s next ∧
        (view.ringOf next).hw.cqIdx = (view.ringOf s).hw.cqIdx ∧
        (out.1 = 0 → view.alive next ∧ (view.ringOf next).hw.sqIdx < 2 ^ 16 ∧
          ∃ base placement, view.Leftover (view.held s) base ∧
            view.held next = base.addSq (sqRecord (view.ringOf s) placement
              (view.ringOf next).hw.sqIdx (view.ringOf s).hw.cqIdx) ∧
            (dev.wantsLlq (view.ringOf s) = false → base = view.held s ∧ placement = .host)) ∧
        (out.1 ≠ 0 → view.Leftover (view.held s) (view.held next)) := by
  refine (serves.createSqLlq dev holds small).bind fun placed middle facts => ?_
  obtain ⟨moved, completion, absent, present⟩ := facts
  cases placed with
  | some descsOff =>
    obtain ⟨wants, alive, fits, added⟩ := present (by simp)
    refine Returns.pure ⟨moved, completion, fun _ => ⟨alive, fits, _, .dev, .refl _, added, ?_⟩,
      fun differs => absurd rfl differs⟩
    intro unwanted
    rw [wants] at unwanted
    cases unwanted
  | none =>
    obtain ⟨left, untouched⟩ := absent rfl
    have sameType : (view.ringOf middle).ringType = (view.ringOf s).ringType := by
      obtain ⟨_, same⟩ := moved.hwOnly
      rw [same]
    have placedSmall : (view.ringOf middle).hw.cqIdx < 2 ^ 16 := by
      rw [completion]
      exact small
    have created := serves.createSq dev moved.inv placedSmall
    rw [sameType] at created
    refine created.bind fun ret last facts => ?_
    obtain ⟨lastMoved, lastCompletion, made, failed⟩ := facts
    have whole := serves.moved_trans moved lastMoved
    refine Returns.pure ⟨whole, lastCompletion.trans completion, fun zero => ?_, fun differs => ?_⟩
    · obtain ⟨alive, fits, added⟩ := made zero
      refine ⟨alive, fits, view.held middle, .host, left, ?_, fun unwanted => ⟨untouched unwanted, rfl⟩⟩
      rw [added, sqRecord_hwOnly moved.hwOnly, completion]
    · exact left.trans (failed differs)

/-- The registers of a completion queue are mapped, or the queue is destroyed. -/
theorem mapCqRegisters (named : view.strict → (view.held s).HasCq (view.ringOf s).hw.cqIdx) :
    Returns (Datapath.mapCqRegisters dev exec ring) s fun ret next => view.Moved s next ∧
      (view.ringOf next).hw.cqIdx = (view.ringOf s).hw.cqIdx ∧
      (ret = 0 → view.held next = view.held s ∧ (view.alive s → view.alive next)) ∧
      (ret ≠ 0 → view.Dropped ((view.held s).dropCq (view.ringOf s).hw.cqIdx) (view.held s)
        (view.held next)) := by
  refine serves.getRing holds ?_
  split
  · refine (serves.destroyCq holds small named).bind fun _ last dropped => ?_
    obtain ⟨moved, sameRing, left⟩ := dropped
    refine Returns.pure ⟨moved, by rw [sameRing], fun zero => ?_, fun _ => left⟩
    cases zero
  refine (serves.setHw s _ holds).bind fun _ stored facts => ?_
  obtain ⟨kept, related, sameHeld, sameRing, stillAlive⟩ := facts
  have moved : view.Moved s stored := ⟨kept, related, ⟨_, sameRing⟩⟩
  have idx : (view.ringOf stored).hw.cqIdx = (view.ringOf s).hw.cqIdx := by rw [sameRing]
  split
  · refine (serves.destroyCq kept small fun strict => sameHeld ▸ named strict).bind
      fun _ last dropped => ?_
    obtain ⟨lastMoved, lastRing, left⟩ := dropped
    refine Returns.pure ⟨serves.moved_trans moved lastMoved, by rw [lastRing, idx], fun zero => ?_,
      fun _ => ?_⟩
    · cases zero
    · rw [sameHeld] at left
      exact left
  · exact Returns.pure ⟨moved, idx, fun _ => ⟨sameHeld, stillAlive⟩,
      fun differs => absurd rfl differs⟩

end

/-- The doorbell of a submission queue is mapped, or both queues are destroyed. -/
theorem mapSqRegisters (cqSmall : (view.ringOf s).hw.cqIdx < 2 ^ 16)
    (sqSmall : (view.ringOf s).hw.sqIdx < 2 ^ 16)
    (cqNamed : view.strict → (view.held s).HasCq (view.ringOf s).hw.cqIdx)
    (sqNamed : view.strict → (view.held s).HasSq (view.ringOf s).hw.sqIdx) :
    Returns (Datapath.mapSqRegisters dev exec ring) s fun ret next => view.Moved s next ∧
      (view.ringOf next).hw.cqIdx = (view.ringOf s).hw.cqIdx ∧
      (view.ringOf next).hw.sqIdx = (view.ringOf s).hw.sqIdx ∧
      (ret = 0 → view.held next = view.held s ∧ (view.alive s → view.alive next)) ∧
      (ret ≠ 0 → ∃ middle,
        view.Dropped ((view.held s).dropSq (view.ringOf s).hw.sqIdx) (view.held s) middle ∧
        view.Dropped (middle.dropCq (view.ringOf s).hw.cqIdx) middle (view.held next)) := by
  refine serves.getRing holds ?_
  split
  · refine (serves.destroySq holds sqSmall sqNamed).bind fun _ middle dropped => ?_
    obtain ⟨moved, sameRing, left⟩ := dropped
    refine serves.getRing moved.inv ?_
    rw [sameRing]
    have cqStill := fun strict => left.hasCq (cqNamed strict)
    refine (serves.destroyCq moved.inv cqSmall cqStill).bind fun _ last droppedCq => ?_
    obtain ⟨lastMoved, lastRing, leftCq⟩ := droppedCq
    refine Returns.pure ⟨serves.moved_trans moved lastMoved, by rw [lastRing, sameRing],
      by rw [lastRing, sameRing], fun zero => ?_, fun _ => ⟨_, left, leftCq⟩⟩
    cases zero
  · refine (serves.setHw s _ holds).bind fun _ stored facts => ?_
    obtain ⟨kept, related, sameHeld, sameRing, stillAlive⟩ := facts
    refine Returns.pure ⟨⟨kept, related, ⟨_, sameRing⟩⟩, by rw [sameRing], by rw [sameRing],
      fun _ => ⟨sameHeld, stillAlive⟩, fun differs => absurd rfl differs⟩

/-- Creation adds one queue of each kind and stores their ids, or leaves nothing
that an accepted destroy command would have removed. -/
theorem ringCreateHw (msixVector : Nat) :
    Returns (enaRingCreateHw dev exec ring msixVector) s fun ret next => view.Moved s next ∧
      (ret = 0 → view.alive next ∧ (view.ringOf next).hw.valid = true ∧
        ∃ base placement,
          view.Leftover ((view.held s).addCq (cqRecord (view.ringOf s) (sentVector msixVector)
            (view.ringOf next).hw.cqIdx)) base ∧
          view.held next = base.addSq (sqRecord (view.ringOf s) placement
            (view.ringOf next).hw.sqIdx (view.ringOf next).hw.cqIdx) ∧
          (dev.wantsLlq (view.ringOf s) = false → placement = .host ∧
            base = (view.held s).addCq (cqRecord (view.ringOf s) (sentVector msixVector)
              (view.ringOf next).hw.cqIdx)) ∧
          (view.ringOf next).hw.cqIdx < 2 ^ 16 ∧ (view.ringOf next).hw.sqIdx < 2 ^ 16) ∧
      (ret ≠ 0 → view.Leftover (view.held s) (view.held next)) := by
  refine serves.getRing holds ?_
  split
  · refine Returns.pure ⟨serves.moved_refl holds, fun zero => ?_, fun _ => .refl _⟩
    cases zero
  refine (serves.createCq dev holds (sentVector msixVector)).bind fun ret s₁ facts => ?_
  obtain ⟨moved₁, made₁, failed₁⟩ := facts
  by_cases zero₁ : ret = 0
  swap
  · rw [if_pos zero₁]
    exact Returns.pure ⟨moved₁, fun zero => absurd zero zero₁, fun _ => failed₁ zero₁⟩
  rw [if_neg (fun differs => differs zero₁)]
  obtain ⟨alive₁, small₁, added₁⟩ := made₁ zero₁
  have cq₁ : (view.held s₁).HasCq (view.ringOf s₁).hw.cqIdx := by
    rw [added₁]
    exact HeldQueues.addCq_hasCq _ _
  refine (serves.mapCqRegisters dev moved₁.inv small₁ fun _ => cq₁).bind fun ret s₂ facts => ?_
  obtain ⟨moved₂, idx₂, mapped₂, failed₂⟩ := facts
  have upTo₂ := serves.moved_trans moved₁ moved₂
  by_cases zero₂ : ret = 0
  swap
  · rw [if_pos zero₂]
    refine Returns.pure ⟨upTo₂, fun zero => absurd zero zero₂, fun _ => ?_⟩
    have left := failed₂ zero₂
    rw [added₁] at left
    exact (View.Leftover.refl _).dropCq left
  rw [if_neg (fun differs => differs zero₂)]
  obtain ⟨held₂, _⟩ := mapped₂ zero₂
  have small₂ : (view.ringOf s₂).hw.cqIdx < 2 ^ 16 := by
    rw [idx₂]
    exact small₁
  have sameType : (view.ringOf s₂).ringType = (view.ringOf s).ringType := by
    obtain ⟨_, same⟩ := upTo₂.hwOnly
    rw [same]
  have placedSpec := serves.createSqPlaced dev upTo₂.inv small₂
  rw [sameType] at placedSpec
  refine placedSpec.bind fun out s₃ facts => ?_
  obtain ⟨moved₃, idx₃, made₃, failed₃⟩ := facts
  have upTo₃ := serves.moved_trans upTo₂ moved₃
  have small₃ : (view.ringOf s₃).hw.cqIdx < 2 ^ 16 := by
    rw [idx₃]
    exact small₂
  have record : (cqRecord (view.ringOf s) (sentVector msixVector) (view.ringOf s₁).hw.cqIdx).idx =
      (view.ringOf s₃).hw.cqIdx := (idx₃.trans idx₂).symm
  dsimp only
  by_cases zero₃ : out.1 = 0
  swap
  · rw [if_pos zero₃]
    refine serves.getRing moved₃.inv ?_
    have cq₃ : (view.held s₃).HasCq (view.ringOf s₃).hw.cqIdx := by
      rw [idx₃, idx₂]
      exact (failed₃ zero₃).hasCq (held₂.symm ▸ cq₁)
    refine (serves.destroyCq moved₃.inv small₃ fun _ => cq₃).bind fun _ s₄ dropped => ?_
    obtain ⟨moved₄, _, left₄⟩ := dropped
    refine Returns.pure ⟨serves.moved_trans upTo₃ moved₄, fun zero => absurd zero zero₃, fun _ => ?_⟩
    have left := failed₃ zero₃
    rw [held₂, added₁] at left
    rw [← record] at left₄
    exact left.dropCq left₄
  rw [if_neg (fun differs => differs zero₃)]
  obtain ⟨alive₃, sqSmall, base, placement, left, added₃, host⟩ := made₃ zero₃
  rw [held₂, added₁] at left host
  rw [sqRecord_hwOnly upTo₂.hwOnly] at added₃
  have sq₃ : (view.held s₃).HasSq (view.ringOf s₃).hw.sqIdx := by
    rw [added₃]
    exact HeldQueues.addSq_hasSq _ _
  have cq₃ : (view.held s₃).HasCq (view.ringOf s₃).hw.cqIdx := by
    rw [added₃, idx₃, idx₂]
    exact left.hasCq (added₁ ▸ cq₁)
  refine (serves.mapSqRegisters dev moved₃.inv small₃ sqSmall (fun _ => cq₃) fun _ => sq₃).bind
    fun ret s₄ facts => ?_
  obtain ⟨moved₄, idx₄, sqIdx₄, mapped₄, failed₄⟩ := facts
  have upTo₄ := serves.moved_trans upTo₃ moved₄
  by_cases zero₄ : ret = 0
  swap
  · rw [if_pos zero₄]
    refine Returns.pure ⟨upTo₄, fun zero => absurd zero zero₄, fun _ => ?_⟩
    obtain ⟨middle, leftSq, leftCq⟩ := failed₄ zero₄
    rw [added₃] at leftSq
    rw [← record] at leftCq
    exact (left.trans ((View.Leftover.refl _).dropSq leftSq)).dropCq leftCq
  rw [if_neg (fun differs => differs zero₄)]
  obtain ⟨held₄, stillAlive₄⟩ := mapped₄ zero₄
  refine (serves.setHw s₄ _ moved₄.inv).bind fun _ s₅ facts => ?_
  obtain ⟨kept, related, sameHeld, sameRing, stillAlive⟩ := facts
  have idx₅ : (view.ringOf s₅).hw.cqIdx = (view.ringOf s₁).hw.cqIdx := by
    rw [sameRing, activate_cqIdx, idx₄, idx₃, idx₂]
  have sqIdx₅ : (view.ringOf s₅).hw.sqIdx = (view.ringOf s₃).hw.sqIdx := by
    rw [sameRing, activate_sqIdx, sqIdx₄]
  have valid : (view.ringOf s₅).hw.valid = true := by
    rw [sameRing]
    rfl
  refine Returns.pure ⟨serves.moved_trans upTo₄ ⟨kept, related, ⟨_, sameRing⟩⟩, fun _ => ?_,
    fun differs => absurd rfl differs⟩
  refine ⟨stillAlive (stillAlive₄ alive₃), valid, base, placement, ?_, ?_, ?_, ?_, ?_⟩
  · rw [idx₅]
    exact left
  · rw [sameHeld, held₄, added₃, sqIdx₅, idx₅, idx₂]
  · intro unwanted
    rw [← wantsLlq_hwOnly dev upTo₂.hwOnly] at unwanted
    obtain ⟨sameBase, sameHost⟩ := host unwanted
    rw [idx₅]
    exact ⟨sameHost, sameBase⟩
  · rw [idx₅]
    exact small₁
  · rw [sqIdx₅]
    exact sqSmall

/-- Destruction removes both queues, as far as its commands are accepted, and tears
down the hardware part in any case. -/
theorem ringDestroyHw (cqSmall : (view.ringOf s).hw.cqIdx < 2 ^ 16)
    (sqSmall : (view.ringOf s).hw.sqIdx < 2 ^ 16)
    (cqNamed : view.strict → (view.held s).HasCq (view.ringOf s).hw.cqIdx)
    (sqNamed : view.strict → (view.held s).HasSq (view.ringOf s).hw.sqIdx) :
    Returns (enaRingDestroyHw exec ring) s fun _ next => view.Moved s next ∧
      view.ringOf next = { view.ringOf s with hw := (view.ringOf s).hw.tearDown } ∧
      ∃ middle,
        view.Dropped ((view.held s).dropSq (view.ringOf s).hw.sqIdx) (view.held s) middle ∧
        view.Dropped (middle.dropCq (view.ringOf s).hw.cqIdx) middle (view.held next) := by
  refine serves.getRing holds ?_
  refine (serves.destroySq holds sqSmall sqNamed).bind fun _ s₁ dropped => ?_
  obtain ⟨moved₁, ring₁, left₁⟩ := dropped
  refine serves.getRing moved₁.inv ?_
  rw [ring₁]
  have cqStill := fun strict => left₁.hasCq (cqNamed strict)
  refine (serves.destroyCq moved₁.inv cqSmall cqStill).bind fun _ s₂ dropped => ?_
  obtain ⟨moved₂, ring₂, left₂⟩ := dropped
  refine (serves.setHw s₂ _ moved₂.inv).bind fun _ s₃ facts => ?_
  obtain ⟨kept, related, sameHeld, sameRing, _⟩ := facts
  have moved₃ : view.Moved s₂ s₃ := ⟨kept, related, ⟨_, sameRing⟩⟩
  refine Returns.pure ⟨serves.moved_trans (serves.moved_trans moved₁ moved₂) moved₃, ?_, _, left₁, ?_⟩
  · rw [sameRing, ring₂, ring₁]
  · rw [sameHeld]
    exact left₂

end Serves

end EnaDriver.Admin
