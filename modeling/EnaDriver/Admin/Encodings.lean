import EnaDriver.Admin.EntryMemory

/-!
# The commands of the driver as entries

Every request that the driver builds, with its parameters, and two questions about
the entries they become.  The flag for an indirect control buffer is derived from the
first data word, which only some commands use for a control buffer.  And a submission
queue is named by its index and its direction, but its destruction carries the index
only.
-/

namespace EnaDriver.Admin

open Support.Programs Datapath

/-! ## Statistics -/

/-- `enum ena_admin_get_stats_type`, as far as the driver uses it. -/
inductive StatsType where
  | basic
  | eni
  deriving DecidableEq, Repr

def StatsType.code : StatsType → Nat
  | .basic => 0
  | .eni => 2

/-- `struct ena_admin_aq_get_stats_cmd`: no control buffer, the type, the scope of the
whole interface, no queue, this device, and no requested metrics. -/
def getStatsReq (type : StatsType) : AdminReq where
  opcode := 11
  req := ctrlBuffInfo 0 0 ++ [type.code, 1] ++ le16 0 ++ le16 0 ++ le16 0xFFFF ++ le32 0 ++ le32 0
  respCap := 56
  maxPolls := 100

/-! ## Commands -/

/-- An admin command that the driver builds.  A feature command has at most 44 bytes
behind its common part. -/
inductive BuiltCommand where
  | getFeature (feature : Feature) (length phys : Nat) (payload : List Nat)
      (fits : payload.length ≤ 44) (respCap : Nat)
  | setFeature (feature : Feature) (length phys : Nat) (payload : List Nat)
      (fits : payload.length ≤ 44)
  | getStats (type : StatsType)
  | createCq (cqDepth cqPhys msixVector entrySizeWords : Nat)
  | destroyCq (cqIdx : Nat)
  | createSq (placement : Placement) (sqDepth sqPhys sqHeadWbPhys cqIdx : Nat) (ringType : RingType)
  | destroySq (sqIdx : Nat)

namespace BuiltCommand

def req : BuiltCommand → AdminReq
  | .getFeature feature length phys payload _ respCap =>
    getFeatureWith feature (ctrlBuffInfo length phys) payload respCap
  | .setFeature feature length phys payload _ =>
    setFeatureReq feature (ctrlBuffInfo length phys) payload
  | .getStats type => getStatsReq type
  | .createCq cqDepth cqPhys msixVector entrySizeWords =>
    createCqReq cqDepth cqPhys msixVector entrySizeWords
  | .destroyCq cqIdx => destroyCqReq cqIdx
  | .createSq placement sqDepth sqPhys sqHeadWbPhys cqIdx ringType =>
    createSqReq placement sqDepth sqPhys sqHeadWbPhys cqIdx ringType.direction
  | .destroySq sqIdx => destroySqReq sqIdx

/-- The length of the control buffer that a command carries; the commands about queues
have no field for one. -/
def ctrlLength : BuiltCommand → Nat
  | .getFeature _ length _ _ _ _ => length % 2 ^ 32
  | .setFeature _ length _ _ _ => length % 2 ^ 32
  | _ => 0

def aboutQueue : BuiltCommand → Bool
  | .createCq .. => true
  | .destroyCq _ => true
  | .createSq .. => true
  | .destroySq _ => true
  | _ => false

end BuiltCommand

theorem feature_requests_built (feature : Feature) (respCap phys size mtu supported groups : Nat) :
    ∀ request ∈ [getFeatureReq feature respCap, hostAttrReq phys, mtuReq mtu,
        aenqReq supported groups, hashKeyReq phys, hashCtrlReq phys, indTableReq size phys,
        indTableReadReq size phys, indTableLimitsReq],
      ∃ command : BuiltCommand, command.req = request := by
  intro request member
  simp only [List.mem_cons, List.not_mem_nil, or_false] at member
  rcases member with rfl | rfl | rfl | rfl | rfl | rfl | rfl | rfl | rfl
  · exact ⟨.getFeature feature 0 0 _ (Nat.le_of_ble_eq_true rfl) respCap, rfl⟩
  · exact ⟨.setFeature .hostAttrConfig 0 0 _ (Nat.le_of_ble_eq_true rfl), rfl⟩
  · exact ⟨.setFeature .mtu 0 0 _ (Nat.le_of_ble_eq_true rfl), rfl⟩
  · exact ⟨.setFeature .aenqConfig 0 0 _ (Nat.le_of_ble_eq_true rfl), rfl⟩
  · exact ⟨.setFeature .rssHashFunction 48 phys _ (Nat.le_of_ble_eq_true rfl), rfl⟩
  · exact ⟨.setFeature .rssHashInput 256 phys _ (Nat.le_of_ble_eq_true rfl), rfl⟩
  · exact ⟨.setFeature .rssIndirectionTable (size * 4) phys _ (Nat.le_of_ble_eq_true rfl), rfl⟩
  · exact ⟨.getFeature .rssIndirectionTable (size * 4) phys _ (Nat.le_of_ble_eq_true rfl) 16, rfl⟩
  · exact ⟨.getFeature .rssIndirectionTable 0 0 _ (Nat.le_of_ble_eq_true rfl) 16, rfl⟩

/-! ## The flag for an indirect control buffer -/

def firstWord (data : List Nat) : Nat :=
  data[0]?.getD 0 + 2 ^ 8 * data[1]?.getD 0 + 2 ^ 16 * data[2]?.getD 0 + 2 ^ 24 * data[3]?.getD 0

theorem firstWord_le32 (value : Nat) (rest : List Nat) :
    firstWord (le32 value ++ rest) = value % 2 ^ 32 := by
  change value % 256 + 2 ^ 8 * (value / 256 % 256) + 2 ^ 16 * (value / 2 ^ 16 % 256) +
    2 ^ 24 * (value / 2 ^ 16 / 256 % 256) = value % 2 ^ 32
  omega

theorem firstWord_le16 (value : Nat) : firstWord (le16 value ++ le16 0) = value % 2 ^ 16 := by
  change value % 256 + 2 ^ 8 * (value / 256 % 256) + 2 ^ 16 * (0 % 256) + 2 ^ 24 * (0 / 256 % 256) =
    value % 2 ^ 16
  omega

/-- A short request brings no flags of its own: the flag for a control buffer follows
from its first word. -/
theorem buildEntry_flags (phase : Bool) (commandId : Nat) {req : AdminReq}
    (short : req.req.length < aqEntrySize) :
    (buildEntry phase commandId req).flags =
      (if 0 < firstWord req.req then 0x04 else 0) ||| phaseFlag phase := by
  have notFull : ¬ aqEntrySize ≤ req.req.length := Nat.not_le.mpr short
  have bytes : ∀ i, i < 60 →
      ((buildEntry phase commandId req).data[i]?).getD 0 = (req.req[i]?).getD 0 := by
    intro i inside
    rw [buildEntry_data phase commandId req inside, if_neg notFull]
  have word : firstWord (buildEntry phase commandId req).data = firstWord req.req := by
    unfold firstWord
    rw [bytes 0 (by decide), bytes 1 (by decide), bytes 2 (by decide), bytes 3 (by decide)]
  have flags : (buildEntry phase commandId req).flags =
      0 ||| (if ((buildEntry phase commandId req).data.take 4).any (· != 0) then 0x04 else 0) |||
        phaseFlag phase := by
    unfold buildEntry
    dsimp only
    rw [decide_eq_false notFull]
    rfl
  rw [flags, any_take_four, Nat.zero_or, ← word]
  unfold firstWord
  simp only [decide_eq_true_eq]

/-- The flag for a control buffer is set exactly if the first word is not zero, and
nothing else but the phase is in the flags. -/
theorem flag_iff_firstWord (phase : Bool) (commandId : Nat) {req : AdminReq}
    (short : req.req.length < aqEntrySize) :
    ((buildEntry phase commandId req).flags.testBit 2 = true ↔ firstWord req.req ≠ 0) ∧
      ((buildEntry phase commandId req).flags = phaseFlag phase ↔ firstWord req.req = 0) := by
  rw [buildEntry_flags phase commandId short]
  by_cases zero : firstWord req.req = 0
  · rw [zero]
    cases phase <;> decide
  · rw [if_pos (Nat.pos_of_ne_zero zero)]
    simp only [zero, ne_eq, not_false_eq_true, iff_true, iff_false]
    cases phase <;> decide

namespace BuiltCommand

/-- The flags of the entry of a command tell whether it carries a control buffer, and
the data of a command about a queue leave no trace in them. -/
def FlagsHonest (command : BuiltCommand) : Prop :=
  ∀ phase commandId,
    ((buildEntry phase commandId command.req).flags.testBit 2 = true ↔ command.ctrlLength ≠ 0) ∧
      (command.aboutQueue = true → (buildEntry phase commandId command.req).flags = phaseFlag phase)

/-- The commands whose first data word is their control buffer or zero. -/
def FirstWordFree : BuiltCommand → Prop
  | .createCq .. => False
  | .createSq .. => False
  | .destroyCq cqIdx => cqIdx % 2 ^ 16 = 0
  | .destroySq sqIdx => sqIdx % 2 ^ 16 = 0
  | _ => True

theorem short (command : BuiltCommand) : command.req.req.length < aqEntrySize := by
  cases command with
  | getFeature feature length phys payload fits respCap =>
    change (ctrlBuffInfo length phys ++ [1, feature.code, 0, 0] ++ payload).length < 64
    rw [List.length_append]
    exact Nat.lt_of_le_of_lt (Nat.add_le_add_left fits 16) (by decide)
  | setFeature feature length phys payload fits =>
    change (ctrlBuffInfo length phys ++ [1, feature.code, 0, 0] ++ payload).length < 64
    rw [List.length_append]
    exact Nat.lt_of_le_of_lt (Nat.add_le_add_left fits 16) (by decide)
  | getStats type => exact Nat.le_of_ble_eq_true rfl
  | createCq cqDepth cqPhys msixVector entrySizeWords => exact Nat.le_of_ble_eq_true rfl
  | destroyCq cqIdx => exact Nat.le_of_ble_eq_true rfl
  | createSq placement sqDepth sqPhys sqHeadWbPhys cqIdx ringType =>
    cases placement with
    | host => exact Nat.le_of_ble_eq_true rfl
    | dev => exact Nat.le_of_ble_eq_true rfl
  | destroySq sqIdx => exact Nat.le_of_ble_eq_true rfl

/-- A command without a control buffer is honest exactly if its first word is zero. -/
theorem flagsHonest_iff_zero {command : BuiltCommand} (bare : command.ctrlLength = 0) :
    command.FlagsHonest ↔ firstWord command.req.req = 0 := by
  constructor
  · intro honest
    obtain ⟨flag, _⟩ := honest true 0
    obtain ⟨word, _⟩ := flag_iff_firstWord true 0 command.short
    by_contra differs
    exact flag.mp (word.mpr differs) bare
  · intro zero phase commandId
    obtain ⟨flag, flags⟩ := flag_iff_firstWord phase commandId command.short
    refine ⟨flag.trans ⟨fun differs => absurd zero differs, fun carries => absurd bare carries⟩, ?_⟩
    exact fun _ => flags.mpr zero

theorem flagsHonest_of_length {command : BuiltCommand} (other : command.aboutQueue = false)
    (word : firstWord command.req.req = command.ctrlLength) : command.FlagsHonest := by
  intro phase commandId
  obtain ⟨flag, _⟩ := flag_iff_firstWord phase commandId command.short
  rw [word] at flag
  refine ⟨flag, fun queue => ?_⟩
  rw [other] at queue
  cases queue

/-- For every command of the driver and all its parameters: the flags are honest exactly
for the commands with a field for a control buffer and for the destruction of the
queues with index zero. -/
theorem flagsHonest_iff (command : BuiltCommand) : command.FlagsHonest ↔ command.FirstWordFree := by
  cases command with
  | getFeature feature length phys payload fits respCap =>
    refine ⟨fun _ => trivial, fun _ => flagsHonest_of_length rfl ?_⟩
    exact firstWord_le32 length _
  | setFeature feature length phys payload fits =>
    refine ⟨fun _ => trivial, fun _ => flagsHonest_of_length rfl ?_⟩
    exact firstWord_le32 length _
  | getStats type =>
    refine ⟨fun _ => trivial, fun _ => flagsHonest_of_length rfl ?_⟩
    exact firstWord_le32 0 _
  | createCq cqDepth cqPhys msixVector entrySizeWords =>
    refine (flagsHonest_iff_zero rfl).trans ⟨fun zero => ?_, False.elim⟩
    change 32 + _ + _ + _ = 0 at zero
    omega
  | destroyCq cqIdx =>
    refine (flagsHonest_iff_zero rfl).trans ?_
    change firstWord (le16 cqIdx ++ le16 0) = 0 ↔ _
    rw [firstWord_le16]
    rfl
  | createSq placement sqDepth sqPhys sqHeadWbPhys cqIdx ringType =>
    refine (flagsHonest_iff_zero rfl).trans ⟨fun zero => ?_, False.elim⟩
    change _ + _ + _ + 2 ^ 24 * 1 = 0 at zero
    omega
  | destroySq sqIdx =>
    refine (flagsHonest_iff_zero rfl).trans ?_
    change firstWord (le16 sqIdx ++ le16 0) = 0 ↔ _
    rw [firstWord_le16]
    rfl

/-- The destruction of submission queue 1 claims an indirect control buffer. -/
theorem destroy_claims_control_buffer :
    (BuiltCommand.destroySq 1).ctrlLength = 0 ∧
      (buildEntry true 1 (BuiltCommand.destroySq 1).req).flags = 0x05 := by
  decide

end BuiltCommand

/-! ## The name of a submission queue -/

/-- The direction in the identity byte of CREATE_SQ, bits 7:5. -/
def AqEntry.createdDirection (entry : AqEntry) : Nat := (entry.data[0]?).getD 0 >>> 5

/-- The direction and the index in `struct ena_admin_sq` of DESTROY_SQ, as the reference
lays it out: two bytes of index, then an identity byte with the direction in bits 7:5. -/
def AqEntry.namedSq (entry : AqEntry) : Nat × Nat :=
  ((entry.data[2]?).getD 0 >>> 5, (entry.data[0]?).getD 0 + 2 ^ 8 * (entry.data[1]?).getD 0)

theorem BuiltCommand.data_byte (command : BuiltCommand) (phase : Bool) (commandId : Nat) {i : Nat}
    (inside : i < 60) :
    ((buildEntry phase commandId command.req).data[i]?).getD 0 = (command.req.req[i]?).getD 0 := by
  rw [buildEntry_data phase commandId command.req inside, if_neg (Nat.not_le.mpr command.short)]

theorem destroySq_names (phase : Bool) (commandId sqIdx : Nat) :
    (buildEntry phase commandId (destroySqReq sqIdx)).namedSq = (0, sqIdx % 2 ^ 16) := by
  have byte : ∀ i, i < 60 → _ := fun i inside =>
    (BuiltCommand.destroySq sqIdx).data_byte phase commandId (i := i) inside
  unfold AqEntry.namedSq
  rw [show destroySqReq sqIdx = (BuiltCommand.destroySq sqIdx).req from rfl, byte 0 (by decide),
    byte 1 (by decide), byte 2 (by decide)]
  refine Prod.ext (by decide : (0 % 256) >>> 5 = 0) ?_
  change sqIdx % 256 + 2 ^ 8 * (sqIdx / 256 % 256) = sqIdx % 2 ^ 16
  omega

theorem createSq_direction (phase : Bool) (commandId : Nat) (placement : Placement)
    (sqDepth sqPhys sqHeadWbPhys cqIdx : Nat) (side : RingType) :
    (buildEntry phase commandId
      (createSqReq placement sqDepth sqPhys sqHeadWbPhys cqIdx side.direction)).createdDirection =
        side.direction := by
  have byte := (BuiltCommand.createSq placement sqDepth sqPhys sqHeadWbPhys cqIdx side).data_byte phase
    commandId (i := 0) (by decide)
  refine (congrArg (· >>> 5) byte).trans ?_
  cases side with
  | tx => exact (by decide : (1 % 8 * 32) >>> 5 = 1)
  | rx => exact (by decide : (2 % 8 * 32) >>> 5 = 2)

/-! ## Commands on record -/

abbrev Record := List (AqEntry × Int × Response)

structure Recorder where
  ring : Ring
  sent : Record

/-- The phases and the ids of the entries by their number, and a device whose answers
depend on everything it was sent. -/
structure Line where
  phase : Nat → Bool
  commandId : Nat → Nat
  answer : Record → AqEntry → Int × Response

def Line.exec (line : Line) : Exec (Prog Recorder Fault) := fun req s =>
  let entry := buildEntry (line.phase s.sent.length) (line.commandId s.sent.length) req
  .ok (line.answer s.sent entry, ⟨s.ring, s.sent ++ [(entry, line.answer s.sent entry)]⟩)

def recorderRing : RingAccess (Prog Recorder Fault) where
  get := fun s => .ok (s.ring, s)
  modify := fun change s => .ok ((), ⟨change s.ring, s.sent⟩)

/-- Every CREATE_SQ between two states carries the direction of the given side. -/
def Directed (side : RingType) (s t : Recorder) : Prop :=
  ∃ added, t.sent = s.sent ++ added ∧
    ∀ command ∈ added, command.1.opcode = 1 → command.1.createdDirection = side.direction

section Directed

variable {side : RingType}

theorem Directed.refl (s : Recorder) : Directed side s s :=
  ⟨[], (List.append_nil _).symm, fun _ member => absurd member List.not_mem_nil⟩

theorem Directed.trans (s t u : Recorder) (earlier : Directed side s t) (later : Directed side t u) :
    Directed side s u := by
  obtain ⟨first, sent, directed⟩ := earlier
  obtain ⟨second, more, rest⟩ := later
  exact ⟨first ++ second, by rw [more, sent, List.append_assoc],
    List.forall_mem_append.mpr ⟨directed, rest⟩⟩

/-- On a ring of the given side, every command returns and creates no submission queue
of the other side. -/
theorem recorderRing_directed (side : RingType) (line : Line) :
    QueueAccess (Keeps (fun s : Recorder => s.ring.ringType = side) (Directed side)) (fun _ => True)
      (· = side) line.exec recorderRing where
  toComposes := Keeps.composes Directed.refl Directed.trans
  command := by
    intro req request s own
    refine ⟨_, _, rfl, own, _, rfl, fun command member => ?_⟩
    rw [List.mem_singleton.mp member]
    cases request with
    | createCq cqDepth cqPhys words _ => exact fun other => absurd (show 3 = 1 from other) (by decide)
    | destroyCq cqIdx => exact fun other => absurd (show 4 = 1 from other) (by decide)
    | createSq placement sqDepth sqPhys sqHeadWbPhys cqIdx same =>
      subst same
      exact fun _ => createSq_direction _ _ placement sqDepth sqPhys sqHeadWbPhys cqIdx _
    | destroySq sqIdx => exact fun other => absurd (show 2 = 1 from other) (by decide)
  get := fun next s own => next s.ring own s own
  setHw := fun change s own => ⟨(), _, rfl, own, [], (List.append_nil _).symm, fun _ member =>
    absurd member List.not_mem_nil⟩

end Directed

/-- The creation of the queues of a ring returns, and it sends only the direction of the
ring. -/
theorem createHw_directed (line : Line) (dev : DeviceMap) (msixVector : Nat) (s : Recorder) :
    ∃ ret t, enaRingCreateHw dev line.exec recorderRing msixVector s = .ok (ret, t) ∧
      Directed s.ring.ringType s t := by
  obtain ⟨ret, t, ran, _, directed⟩ :=
    (recorderRing_directed s.ring.ringType line).createHw dev trivial s rfl
  exact ⟨ret, t, ran, directed⟩

/-- Every submission queue that the second record destroys is, by direction and index,
one that the first record created. -/
def DestroysOwn (created destroyed : Record) : Prop :=
  ∀ removal ∈ destroyed, removal.1.opcode = 2 →
    ∃ creation ∈ created, creation.1.opcode = 1 ∧ creation.2.1 = 0 ∧
      removal.1.namedSq = (creation.1.createdDirection, creation.2.2.queueIdx)

/-- For every ring of either direction, created behind any commands and destroyed behind
any others, on any device: the destruction never names the queue that the creation
established, because it names no direction. -/
theorem destroyHw_never_names_own (line : Line) (dev : DeviceMap) (msixVector : Nat) (r : Ring)
    (before later : Record) :
    ∃ ret s created failed t destroyed,
      enaRingCreateHw dev line.exec recorderRing msixVector ⟨r, before⟩ = .ok (ret, s) ∧
      s.sent = before ++ created ∧
      enaRingDestroyHw line.exec recorderRing ⟨s.ring, later⟩ = .ok (failed, t) ∧
      t.sent = later ++ destroyed ∧ ¬ DestroysOwn created destroyed := by
  obtain ⟨ret, s, ran, created, sent, directed⟩ := createHw_directed line dev msixVector ⟨r, before⟩
  refine ⟨ret, s, created, _, _, _, ran, sent, rfl, List.append_assoc _ _ _, ?_⟩
  intro own
  obtain ⟨creation, member, opcode, _, named⟩ := own _ List.mem_cons_self rfl
  rw [destroySq_names, directed creation member opcode] at named
  have zero : 0 = r.ringType.direction := congrArg Prod.fst named
  cases side : r.ringType with
  | tx =>
    rw [side] at zero
    exact absurd zero (by decide)
  | rx =>
    rw [side] at zero
    exact absurd zero (by decide)

/-- A transmit ring and a receive ring with index 0, as a device with one counter per
direction numbers them: both destructions name direction 0, and neither the transmit
queue 0 nor the receive queue 0. -/
theorem destroySq_leaves_out_direction :
    (buildEntry true 1 (createSqReq .host 16 4096 0 0 RingType.tx.direction)).createdDirection = 1 ∧
      (buildEntry true 2 (createSqReq .host 16 8192 0 1 RingType.rx.direction)).createdDirection = 2 ∧
      (buildEntry true 3 (destroySqReq 0)).namedSq = (0, 0) := by
  decide

end EnaDriver.Admin
