import EnaDriver.Lifecycle.RingArrays

/-!
# Queues by the ring they belong to

The log notes the ring that queue commands are for.  The queues that the device
holds for a ring are those it was told to create for that ring and not to destroy
for that ring since.  A destroy command is in order when the device holds the queue
that it names for the ring that it is for.

A device is prompt when it answers every command within the poll budget, and not
with the code of a timeout; then no command starts a recovery.
-/

namespace EnaDriver.Lifecycle

open Support.Programs Support.Runs Datapath Admin

variable {effect : Effect} {effects : List Effect}

/-! ## Owners -/

/-- The ring that a queue was created for, if the log names one. -/
abbrev Owner := Option (RingType × Nat)

def noted (owner : Owner) : Effect → Owner
  | .ring side q _ => some (side, q)
  | _ => owner

def current (log : List Effect) : Owner := log.foldl noted none

def bookAfter (who : Owner) (book : Owner × HeldQueues) (effect : Effect) : Owner × HeldQueues :=
  match effect with
  | .command entry _ (.completes status resp) =>
    if book.1 = who ∧ status = 0 then (book.1, book.2.served entry.opcode entry.data resp) else book
  | .reset .ready => (book.1, .none)
  | effect => (noted book.1 effect, book.2)

def owned (who : Owner) (log : List Effect) : HeldQueues :=
  (log.foldl (bookAfter who) (none, .none)).2

/-- A destroy command names a queue that the device holds for the ring it is for. -/
def NamesOwn (before : List Effect) : Effect → Prop
  | .command entry _ _ =>
    (entry.opcode = 2 → (owned (current before) before).HasSq (u16At entry.data 0)) ∧
      (entry.opcode = 4 → (owned (current before) before).HasCq (u16At entry.data 0))
  | _ => True

/-- Every destroy command of a log is in order. -/
def Clean (log : List Effect) : Prop := Throughout NamesOwn log

section Books

variable {who : Owner} {log : List Effect} {entry : AqEntry}

theorem bookAfter_current (who : Owner) (book : Owner × HeldQueues) (effect : Effect) :
    (bookAfter who book effect).1 = noted book.1 effect := by
  unfold bookAfter
  split
  · split <;> rfl
  · rfl
  · rfl

theorem foldl_current (who : Owner) (log : List Effect) (book : Owner × HeldQueues) :
    (log.foldl (bookAfter who) book).1 = log.foldl noted book.1 := by
  induction log generalizing book with
  | nil => rfl
  | cons effect rest ih =>
    rw [List.foldl_cons, List.foldl_cons, ih, bookAfter_current]

theorem owned_append_one (who : Owner) (log : List Effect) (effect : Effect) :
    owned who (log ++ [effect]) = (bookAfter who (current log, owned who log) effect).2 := by
  unfold owned
  rw [List.foldl_append, List.foldl_cons, List.foldl_nil]
  congr 2
  exact Prod.ext (foldl_current who log (none, .none)) rfl

theorem current_append (log effects : List Effect) :
    current (log ++ effects) = effects.foldl noted (current log) := List.foldl_append

def Quiet : Effect → Prop
  | .command entry _ _ => entry.opcode = 8 ∨ entry.opcode = 9
  | .reset .ready => False
  | _ => True

theorem owned_quiet (quiet : Quiet effect) (who : Owner) (log : List Effect) :
    owned who (log ++ [effect]) = owned who log := by
  rw [owned_append_one]
  unfold bookAfter
  split
  · rename_i entry _ status resp
    have same : (owned who log).served entry.opcode entry.data resp = owned who log := by
      rcases quiet with read | write
      · rw [read]
        rfl
      · rw [write]
        rfl
    split
    · exact same
    · rfl
  · exact absurd quiet id
  · rfl

theorem quiet_names (quiet : Quiet effect) (log : List Effect) :
    NamesOwn log effect := by
  cases effect with
  | command entry ctrl answer =>
    constructor
    · intro destroys
      rcases quiet with same | same <;> rw [destroys] at same <;> cases same
    · intro destroys
      rcases quiet with same | same <;> rw [destroys] at same <;> cases same
  | _ => trivial

theorem Clean.append_one (clean : Clean log) (names : NamesOwn log effect) :
    Clean (log ++ [effect]) := by
  refine Throughout.append clean fun i entry found => ?_
  cases i with
  | zero =>
    cases found
    rw [List.take_zero, List.append_nil]
    exact names
  | succ i => cases found

/-- Effects that concern no queue leave the books and the order of the log alone. -/
theorem quiet_appended (quiet : ∀ effect ∈ effects, Quiet effect) (log : List Effect) :
    (∀ who, owned who (log ++ effects) = owned who log) ∧ (Clean log → Clean (log ++ effects)) := by
  induction effects generalizing log with
  | nil =>
    rw [List.append_nil]
    exact ⟨fun _ => rfl, id⟩
  | cons effect rest ih =>
    have here := quiet effect List.mem_cons_self
    have later := ih (fun other member => quiet other (List.mem_cons_of_mem effect member))
      (log ++ [effect])
    rw [List.append_assoc, List.singleton_append] at later
    refine ⟨fun who => (later.1 who).trans (owned_quiet here who log), fun clean => ?_⟩
    exact later.2 (clean.append_one (quiet_names here log))

/-- The note of a ring, and the register writes around a command, are quiet. -/
theorem quiet_regWrites
    (writes : ∀ effect ∈ effects, ∃ offset value, effect = .regWrite32 offset value) :
    ∀ effect ∈ effects, Quiet effect := by
  intro effect member
  obtain ⟨_, _, rfl⟩ := writes effect member
  trivial

theorem restartEffects_writes (q : AdminQueues) :
    ∀ effect ∈ q.restartEffects, ∃ offset value, effect = .regWrite32 offset value := by
  intro effect member
  unfold AdminQueues.restartEffects at member
  split at member
  · exact ⟨_, _, List.mem_singleton.mp member⟩
  · cases member

theorem current_writes
    (writes : ∀ effect ∈ effects, ∃ offset value, effect = .regWrite32 offset value)
    (log : List Effect) : current (log ++ effects) = current log := by
  rw [current_append]
  induction effects with
  | nil => rfl
  | cons effect rest ih =>
    obtain ⟨_, _, rfl⟩ := writes effect List.mem_cons_self
    exact ih fun other member => writes other (List.mem_cons_of_mem _ member)

end Books

/-! ## Commands -/

section Commands

variable {m : Machine} {q : AdminQueues} {req : AdminReq} {status : UInt8} {response : Response}

theorem answered_log (ctrl : List Nat) :
    (m.answered q ctrl req (.completes status response)).log =
      ((m.log ++ q.restartEffects) ++ [.command (q.entryOf req) ctrl (.completes status response)]) ++
        [.regWrite32 acqTailOff q.submitted.advanceAcq.acq.cursor.index] := by
  change m.log ++ (q.restartEffects ++ [_, _]) = _
  rw [List.append_assoc, List.append_assoc]
  rfl

/-- An accepted command changes the queues of the ring it is for. -/
theorem owned_answered (who : Owner) (ctrl : List Nat) :
    owned who (m.answered q ctrl req (.completes status response)).log =
      if current m.log = who ∧ status = 0 then
        (owned who m.log).served req.opcode (reqData req) response
      else owned who m.log := by
  have quiet := quiet_appended (quiet_regWrites (restartEffects_writes q)) m.log
  have same := current_writes (restartEffects_writes q) m.log
  rw [answered_log, owned_quiet (by trivial), owned_append_one, same, quiet.1 who]
  change (if current m.log = who ∧ status = 0 then _ else _ : Owner × HeldQueues).2 = _
  split <;> rfl

theorem current_answered (ctrl : List Nat) :
    current (m.answered q ctrl req (.completes status response)).log = current m.log := by
  rw [answered_log, current_append, current_append, current_writes (restartEffects_writes q)]
  rfl

theorem clean_answered (clean : Clean m.log) (ctrl : List Nat)
    (names : (req.opcode = 2 → (owned (current m.log) m.log).HasSq (u16At (reqData req) 0)) ∧
      (req.opcode = 4 → (owned (current m.log) m.log).HasCq (u16At (reqData req) 0))) :
    Clean (m.answered q ctrl req (.completes status response)).log := by
  have quiet := quiet_appended (quiet_regWrites (restartEffects_writes q)) m.log
  have same := current_writes (restartEffects_writes q) m.log
  rw [answered_log]
  refine Clean.append_one (Clean.append_one (quiet.2 clean) ?_) trivial
  change (_ → (owned (current _) _).HasSq _) ∧ (_ → (owned (current _) _).HasCq _)
  rw [same, quiet.1]
  exact names

end Commands

/-- Every command is answered, none with the code of a timeout, and destroy commands
succeed where the device is reliable. -/
def Prompt (env : Env) (reliable : Prop) : Prop :=
  ∀ t entry, ∃ status response, env.answer t entry = .completes status response ∧
    status ≠ 110 ∧ (reliable → entry.opcode = 2 ∨ entry.opcode = 4 → status = 0)

/-- A command on a prompt device is refused by the driver or answered. -/
theorem exec_prompt {env : Env} {reliable : Prop} (prompt : Prompt env reliable) {m : Machine}
    (unlocked : m.adapter.adminLock = false) (nesting : Nat) (ctrl : List Nat) (req : AdminReq) :
    (∃ ret, ret ≠ 0 ∧ (m.adapter.queues = none ∨ m.adapter.state = .error ∨
        aqEntrySize < req.req.length) ∧
      driverExec env nesting ctrl req m = .ok ((ret, fun _ => 0), m)) ∨
    ∃ q status response, m.adapter.queues = some q ∧ m.adapter.state ≠ .error ∧
      env.answer (m.logged q.restartEffects).log.length (q.entryOf req) = .completes status response ∧
      (reliable → req.opcode = 2 ∨ req.opcode = 4 → status = 0) ∧
      driverExec env nesting ctrl req m = .ok ((-(status.toNat : Int),
        copiedResponse req.respCap response), m.answered q ctrl req (.completes status response)) := by
  rcases @enaAdminExecCmd_cases env ctrl m req (enaAdapterResetAndRecover env nesting) unlocked with
    ⟨error, code, refused, ran⟩ |
    ⟨aq, present, alive, _, ⟨silent, _⟩ | ⟨answer, given, _, ran⟩⟩
  · refine .inl ⟨-error, ?_, refused, ?_⟩
    · rcases code with rfl | rfl <;> decide
    · unfold driverExec execWith
      rw [run_bind, ran]
      rfl
  · obtain ⟨status, response, answered, _⟩ := prompt (m.logged aq.restartEffects).log.length
      (aq.entryOf req)
    rw [answerTo, answered] at silent
    cases silent
  · obtain ⟨status, response, answered, differs, accepted⟩ := prompt (m.logged aq.restartEffects).log.length
      (aq.entryOf req)
    rw [answerTo, answered] at given
    subst given
    refine .inr ⟨aq, status, response, present, alive, answered, accepted, ?_⟩
    have inTime : (answeredOut aq req (.completes status response)).ret ≠ -ETIMEDOUT := by
      intro late
      apply differs
      have code : -(status.toNat : Int) = -110 := late
      apply UInt8.toNat_inj.mp
      change status.toNat = 110
      omega
    rw [if_neg inTime] at ran
    unfold driverExec execWith
    rw [run_bind, ran]
    rfl

/-! ## What is spared -/

def hwAt (side : RingType) (q : Nat) (m : Machine) : Option HwQueue := (ringAt side q m).map Ring.hw

/-- Nothing happened to the netdev and the settings, nor to the queues and the
hardware parts of the other rings. -/
structure Spares (who : RingType → Nat → Prop) (m next : Machine) : Prop where
  dev : SameDev m next
  settings : next.adapter.settings = m.adapter.settings
  later : m.log.length ≤ next.log.length
  hw : ∀ side q, ¬ who side q → hwAt side q next = hwAt side q m
  owned : ∀ side q, ¬ who side q → owned (some (side, q)) next.log = owned (some (side, q)) m.log
  unowned : Lifecycle.owned none next.log = Lifecycle.owned none m.log

namespace Spares

variable {who wider : RingType → Nat → Prop}

theorem refl (m : Machine) : Spares who m m :=
  ⟨rfl, rfl, Nat.le_refl _, fun _ _ _ => rfl, fun _ _ _ => rfl, rfl⟩

theorem trans (first second third : Machine) (earlier : Spares who first second)
    (later : Spares who second third) : Spares who first third where
  dev := SameDev.trans _ _ _ earlier.dev later.dev
  settings := later.settings.trans earlier.settings
  later := Nat.le_trans earlier.later later.later
  hw := fun side q spared => (later.hw side q spared).trans (earlier.hw side q spared)
  owned := fun side q spared => (later.owned side q spared).trans (earlier.owned side q spared)
  unowned := later.unowned.trans earlier.unowned

theorem mono {m next : Machine} (spares : Spares who m next)
    (covers : ∀ side q, who side q → wider side q) : Spares wider m next where
  dev := spares.dev
  settings := spares.settings
  later := spares.later
  hw := fun side q spared => spares.hw side q fun touched => spared (covers side q touched)
  owned := fun side q spared => spares.owned side q fun touched => spared (covers side q touched)
  unowned := spares.unowned

/-- Effects that concern no queue spare every ring. -/
theorem logged {m next : Machine} (quiet : ∀ effect ∈ effects, Quiet effect)
    (log : next.log = m.log ++ effects) (dev : SameDev m next)
    (settings : next.adapter.settings = m.adapter.settings)
    (hw : ∀ side q, hwAt side q next = hwAt side q m) : Spares who m next := by
  have books := (quiet_appended quiet m.log).1
  refine ⟨dev, settings, ?_, fun side q _ => hw side q, fun side q _ => ?_, ?_⟩
  · rw [log, List.length_append]
    exact Nat.le_add_right _ _
  · rw [log]
    exact books _
  · rw [log]
    exact books _

end Spares

/-! ## The commands of one ring -/

def Only (side : RingType) (q : Nat) : RingType → Nat → Prop := fun other i => other = side ∧ i = q

/-- No lock is held and the log is in order; the admin queue accepts commands where
the device is reliable. -/
structure Steady (frame : Frame) (reliable : Prop) (m : Machine) : Prop where
  unheld : Unheld frame false m
  clean : Clean m.log
  ready : reliable → m.Ready

def ownView (frame : Frame) (reliable : Prop) (side : RingType) (q : Nat) : View Machine where
  inv := fun m => Steady frame reliable m ∧ current m.log = some (side, q)
  rel := Spares (Only side q)
  held := fun m => owned (some (side, q)) m.log
  ringOf := fun m => (ringAt side q m).getD (.fresh 0 side .four .four 0 0 0)
  alive := fun _ => True
  reliable := reliable
  strict := True

section Serves

variable {frame : Frame} {reliable : Prop} {env : Env} {side : RingType} {q : Nat} {m : Machine}

theorem attached_ringAt (fits : frame.Fits m) (attached : (cells frame side)[q]? = some true) :
    ∃ r, ringAt side q m = some r := by
  rw [← fits_cells fits side] at attached
  obtain ⟨port, found⟩ := attached_of_isSome attached
  cases side with
  | tx => exact ⟨_, ringAt_tx.mpr ⟨port, found, rfl⟩⟩
  | rx => exact ⟨_, ringAt_rx.mpr ⟨port, found, rfl⟩⟩

theorem Steady.answered (steady : Steady frame reliable m) {aq : AdminQueues}
    (alive : m.adapter.state ≠ .error) {ctrl : List Nat} {req : AdminReq} {status : UInt8}
    {response : Response}
    (names : (req.opcode = 2 → (owned (current m.log) m.log).HasSq (u16At (reqData req) 0)) ∧
      (req.opcode = 4 → (owned (current m.log) m.log).HasCq (u16At (reqData req) 0))) :
    Steady frame reliable (m.answered aq ctrl req (.completes status response)) where
  unheld := by refine Unheld.logged (steady.unheld.withAdapter ?_ ?_ ?_ ?_) _ <;> rfl
  clean := clean_answered steady.clean ctrl names
  ready := fun _ => ⟨rfl, alive, steady.unheld.admin⟩

/-- A prompt device serves the commands of a ring. -/
theorem ownView_exec (prompt : Prompt env reliable) (nesting : Nat) {req : AdminReq}
    (holds : (ownView frame reliable side q).inv m) (wellFormed : QueueReq req)
    (allowed : (ownView frame reliable side q).Allowed req m) :
    Returns (driverExec env nesting [] req) m fun out next =>
      (ownView frame reliable side q).Outcome req m out next := by
  obtain ⟨steady, here⟩ := holds
  have names := allowed trivial
  rcases exec_prompt prompt steady.unheld.admin nesting [] req with
    ⟨ret, nonzero, refused, ran⟩ | ⟨aq, status, response, present, alive, _, accepted, ran⟩
  · refine ⟨_, m, ran, ⟨steady, here⟩, Spares.refl m, rfl, fun _ => trivial, ?_, fun _ => rfl, ?_⟩
    · exact fun zero => absurd zero nonzero
    intro sure _
    have ready := steady.ready sure
    rcases refused with none | dead | long
    · have queues := ready.queues
      rw [none] at queues
      cases queues
    · exact absurd dead ready.alive
    · exact absurd long (Nat.not_lt.mpr wellFormed.short)
  · have kept : Steady frame reliable (m.answered aq [] req (.completes status response)) := by
      refine steady.answered alive ?_
      rw [here]
      exact names
    have zero_iff : -(status.toNat : Int) = 0 ↔ status = 0 :=
      completed_zero aq req status response
    refine ⟨_, _, ran, ⟨kept, (current_answered []).trans here⟩, ⟨rfl, rfl, ?_, ?_, ?_, ?_⟩, ?_,
      fun _ => trivial, ?_, ?_, ?_⟩
    · rw [answered_log]
      simp only [List.length_append]
      omega
    · intro other i _
      exact congrArg (Option.map Ring.hw) (ringAt_answered other i (.completes status response))
    · intro other i spared
      rw [owned_answered, here, if_neg]
      rintro ⟨same, _⟩
      cases same
      exact spared ⟨rfl, rfl⟩
    · rw [owned_answered, here, if_neg]
      rintro ⟨same, _⟩
      cases same
    · simp [ownView]
    · intro zero
      change owned _ _ = (owned _ m.log).served _ _ (copiedResponse req.respCap response)
      rw [owned_answered, here, if_pos ⟨rfl, zero_iff.mp zero⟩, served_copied _ wellFormed]
    · intro nonzero
      change owned _ _ = owned _ m.log
      rw [owned_answered, if_neg fun both => nonzero (zero_iff.mpr both.2)]
    · exact fun sure destroys => zero_iff.mpr (accepted sure destroys)

theorem updateRing_unheld (held : Unheld frame false m) (change : Ring → HwQueue) :
    Unheld frame false (m.updateRing side q fun r => { r with hw := change r }) := by
  cases side with
  | tx => exact held.updateTx q fun _ unlocked => unlocked
  | rx => exact held.updateRx q fun _ unlocked => unlocked

theorem updateRing_dev (change : Ring → Ring) : (m.updateRing side q change).dev = m.dev := by
  cases side <;> rfl

theorem ownView_serves (prompt : Prompt env reliable)
    (attached : (cells frame side)[q]? = some true) (nesting : Nat) :
    Serves (ownView frame reliable side q) (driverExec env nesting []) (portAccess side q) where
  refl := Spares.refl
  trans := Spares.trans
  get := by
    intro m holds
    obtain ⟨r, found⟩ := attached_ringAt holds.1.unheld.fits attached
    have same : (ownView frame reliable side q).ringOf m = r := by
      simp [ownView, found]
    rw [same, portAccess_get found]
  setHw := by
    intro m change holds
    obtain ⟨r, found⟩ := attached_ringAt holds.1.unheld.fits attached
    obtain ⟨steady, here⟩ := holds
    refine ⟨(), _, portAccess_modify _, ⟨⟨updateRing_unheld steady.unheld change, ?_, ?_⟩, ?_⟩,
      ⟨updateRing_dev _, ?_, ?_, ?_, ?_, ?_⟩, ?_, ?_, fun _ => trivial⟩
    · rw [updateRing_log]
      exact steady.clean
    · intro sure
      have ready := steady.ready sure
      refine ⟨?_, ?_, ?_⟩ <;> rw [updateRing_adapter]
      · exact ready.queues
      · exact ready.alive
      · exact ready.unlocked
    · rw [updateRing_log]
      exact here
    · rw [updateRing_adapter]
    · rw [updateRing_log]
    · intro other i spared
      unfold hwAt
      rw [ringAt_updateRing]
      have differs : ¬ (side = other ∧ q = i) := fun same => spared ⟨same.1.symm, same.2.symm⟩
      simp only [if_neg differs, Option.map_id']
    · intro other i _
      rw [updateRing_log]
    · rw [updateRing_log]
    · change owned _ (m.updateRing side q _).log = _
      rw [updateRing_log]
      rfl
    · simp [ownView, found, ringAt_updateRing]
  exec := fun m req holds wellFormed allowed => ownView_exec prompt nesting holds wellFormed allowed

end Serves

end EnaDriver.Lifecycle
