import EnaDriver.Admin.Recovery
import EnaDriver.Support.Completions
import EnaDriver.Support.Runs

/-!
# The event ring, statement by statement

The device writes event `k` into slot `k` modulo the depth, with the phase of its
lap, as soon as `k` is below the last head doorbell.  The driver polls the ring:
it tests the phase of one entry, advances its head, writes the doorbell, and only
then reads the group, the syndrome and the payload of the entry for its handler.
Every one of these is a step of its own, and the device may write between any two
of them.

The doorbell of an event is what allows the device to write the event of the next
lap into the same slot.  As long as the device does not use this before the
handler has read the entry, every event is handed over once, in order and as it
was posted.
-/

namespace EnaDriver.Admin

open Support.Laps Support.Completions
open Support.Runs

/-! ## The two parties -/

structure AenqEvent where
  group : Nat
  syndrome : Nat
  inline : Nat → Nat

def AenqEntry.phase (entry : AenqEntry) : Bool := entry.flags.testBit 0

def aenqEntryOf (d : Depth) (events : Nat → AenqEvent) (k : Nat) : AenqEntry where
  group := (events k).group
  syndrome := (events k).syndrome
  flags := (lapPhase d k).toNat
  inline := (events k).inline

def AenqEntry.blank : AenqEntry := ⟨0, 0, 0, fun _ => 0⟩

structure AenqCall where
  group : Nat
  syndrome : Nat
  words : List Nat
  deriving DecidableEq, Repr

/-- The next statement of `ena_admin_aenq_poll` with its local variables: the events
that may still be dispatched, and the slot of `entry`. -/
inductive AenqPc where
  | outside
  | test (left : Nat)
  | advance (left slot : Nat)
  | acknowledge (left slot : Nat)
  | readGroup (left slot : Nat)
  | readSyndrome (left slot group : Nat)
  | handle (left slot group syndrome : Nat) (read todo : List Nat)
  deriving DecidableEq, Repr

/-- The ring, the last head doorbell without its wrap, the position of the driver and
the calls of the handler. -/
structure EventWorld where
  posts : Posts AenqEntry
  doorbell : Nat
  cursor : Cursor
  pc : AenqPc
  calls : List AenqCall

/-- The ring after `ena_admin_init`. -/
def EventWorld.start (d : Depth) : EventWorld where
  posts := ⟨fun _ => .blank, 0⟩
  doorbell := d.val
  cursor := ⟨d.val, true⟩
  pc := .outside
  calls := []

/-- The device takes a 16-bit doorbell for the next value that it can stand for. -/
def unwrapDoorbell (doorbell value : Nat) : Nat :=
  doorbell + (value + 65536 - doorbell % 65536) % 65536

/-- What may happen next: the device posts an event, a poll begins, or the poll takes
a step. -/
inductive EventOp where
  | post
  | poll (maxEvents : Nat)
  | step
  deriving DecidableEq, Repr

section Steps

variable (d : Depth) (events : Nat → AenqEvent) (words : List Nat)

/-- One statement of the poll.  The handler reads the given words of the entry. -/
def aenqStep (w : EventWorld) : EventWorld :=
  match w.pc with
  | .outside => w
  | .test 0 => { w with pc := .outside }
  | .test (left + 1) =>
    let slot := d.slot w.cursor.index
    if (w.posts.cq slot).phase = w.cursor.phase then { w with pc := .advance left slot }
    else { w with pc := .outside }
  | .advance left slot => { w with cursor := w.cursor.advance d, pc := .acknowledge left slot }
  | .acknowledge left slot =>
    { w with doorbell := unwrapDoorbell w.doorbell w.cursor.index, pc := .readGroup left slot }
  | .readGroup left slot => { w with pc := .readSyndrome left slot (w.posts.cq slot).group }
  | .readSyndrome left slot group =>
    { w with pc := .handle left slot group (w.posts.cq slot).syndrome [] words }
  | .handle left slot group syndrome read (word :: todo) =>
    { w with pc := .handle left slot group syndrome (read ++ [(w.posts.cq slot).inline word]) todo }
  | .handle left _ group syndrome read [] =>
    { w with pc := .test left, calls := w.calls ++ [⟨group, syndrome, read⟩] }

def EventWorld.post (w : EventWorld) : EventWorld :=
  { w with
    posts := w.posts.post d AenqEntry.phase w.doorbell (aenqEntryOf d events w.posts.count) }

end Steps

def AenqPc.reading : AenqPc → Option Nat
  | .readGroup _ slot => some slot
  | .readSyndrome _ slot _ => some slot
  | .handle _ slot _ _ _ _ => some slot
  | _ => none

/-- The device does not write into the slot that is being read. -/
def LeavesReader (d : Depth) (w : EventWorld) (op : EventOp) : Prop :=
  op = .post → w.posts.count < w.doorbell → w.pc.reading ≠ some (w.posts.count % d.val)

instance (d : Depth) (w : EventWorld) (op : EventOp) : Decidable (LeavesReader d w op) :=
  inferInstanceAs (Decidable (_ → _ → _))

/-! ## Where the poll is -/

def AenqEvent.call (words : List Nat) (event : AenqEvent) : AenqCall :=
  ⟨event.group, event.syndrome, words.map event.inline⟩

section Invariant

variable (d : Depth) (events : Nat → AenqEvent) (words : List Nat)

/-- The position of the driver after `n` events. -/
def aenqCursor (n : Nat) : Cursor := .lapped d true (d.val + n)

structure Acknowledged (w : EventWorld) (n slot : Nat) : Prop where
  cursor : w.cursor = aenqCursor d (n + 1)
  doorbell : w.doorbell = d.val + n + 1
  posted : n < w.posts.count
  kept : w.posts.count ≤ n + d.val
  here : slot = n % d.val

/-- What is known at each statement when `n` events have been handed over. -/
def Placed (w : EventWorld) (n : Nat) : AenqPc → Prop
  | .outside => w.cursor = aenqCursor d n ∧ w.doorbell = d.val + n
  | .test _ => w.cursor = aenqCursor d n ∧ w.doorbell = d.val + n
  | .advance _ slot =>
    w.cursor = aenqCursor d n ∧ w.doorbell = d.val + n ∧ n < w.posts.count ∧ slot = n % d.val
  | .acknowledge _ slot =>
    w.cursor = aenqCursor d (n + 1) ∧ w.doorbell = d.val + n ∧ n < w.posts.count ∧
      slot = n % d.val
  | .readGroup _ slot => Acknowledged d w n slot
  | .readSyndrome _ slot group => Acknowledged d w n slot ∧ group = (events n).group
  | .handle _ slot group syndrome read todo =>
    Acknowledged d w n slot ∧ group = (events n).group ∧ syndrome = (events n).syndrome ∧
      read ++ todo.map (events n).inline = words.map (events n).inline

structure InOrder (w : EventWorld) : Prop where
  ahead : Ahead d AenqEntry.phase w.doorbell w.posts
  recent : Recent d (aenqEntryOf d events) w.posts
  behind : w.calls.length ≤ w.posts.count
  calls : w.calls = (List.range w.calls.length).map fun k => (events k).call words
  placed : Placed d events words w w.calls.length w.pc

end Invariant

section Proofs

variable {d : Depth} {events : Nat → AenqEvent} {words : List Nat} {w : EventWorld}

theorem aenqEntryOf_phase (k : Nat) : (aenqEntryOf d events k).phase = lapPhase d k := by
  change (lapPhase d k).toNat.testBit 0 = lapPhase d k
  cases lapPhase d k <;> decide

theorem aenqCursor_phase (n : Nat) : (aenqCursor d n).phase = lapPhase d n := by
  unfold aenqCursor Cursor.lapped
  rw [Nat.add_comm, lapPhase_add_depth]
  cases lapPhase d n <;> rfl

theorem aenqCursor_slot (n : Nat) : d.slot (aenqCursor d n).index = n % d.val := by
  unfold aenqCursor Cursor.lapped
  rw [d.slot_wrap, Nat.add_mod_left]

theorem aenqCursor_advance (n : Nat) : (aenqCursor d n).advance d = aenqCursor d (n + 1) :=
  Cursor.advance_lapped d true (d.val + n)

theorem unwrapDoorbell_next (n : Nat) :
    unwrapDoorbell (d.val + n) (aenqCursor d (n + 1)).index = d.val + n + 1 := by
  unfold unwrapDoorbell aenqCursor Cursor.lapped
  dsimp only
  omega

/-- The phase test finds an event exactly when one is left to hand over. -/
theorem InOrder.test_iff (inOrder : InOrder d events words w)
    (cursor : w.cursor = aenqCursor d w.calls.length)
    (doorbell : w.doorbell = d.val + w.calls.length) :
    (w.posts.cq (d.slot w.cursor.index)).phase = w.cursor.phase ↔
      w.calls.length < w.posts.count := by
  rw [cursor, aenqCursor_slot, aenqCursor_phase]
  have bounded := inOrder.ahead.bounded
  have behind := inOrder.behind
  constructor
  · intro found
    by_contra done
    have same : w.calls.length = w.posts.count := by omega
    rw [same] at found
    exact inOrder.ahead.here found
  · intro left
    rw [inOrder.recent _ left (by omega), aenqEntryOf_phase]

theorem Acknowledged.at_pc {n slot : Nat} (acknowledged : Acknowledged d w n slot) (pc : AenqPc) :
    Acknowledged d { w with pc := pc } n slot :=
  ⟨acknowledged.cursor, acknowledged.doorbell, acknowledged.posted, acknowledged.kept,
    acknowledged.here⟩

theorem Acknowledged.entry {n slot : Nat} (acknowledged : Acknowledged d w n slot)
    (recent : Recent d (aenqEntryOf d events) w.posts) :
    w.posts.cq slot = aenqEntryOf d events n := by
  rw [acknowledged.here]
  exact recent n acknowledged.posted acknowledged.kept

/-- An event that the device posts elsewhere does not disturb the poll. -/
theorem InOrder.post (inOrder : InOrder d events words w) (leaves : LeavesReader d w .post) :
    InOrder d events words (w.post d events) := by
  have grows : w.posts.count ≤ (w.post d events).posts.count := count_le_post w.posts _
  have acknowledged : ∀ {n slot}, w.pc.reading = some slot → Acknowledged d w n slot →
      Acknowledged d (w.post d events) n slot := by
    intro n slot reading before
    refine ⟨before.cursor, before.doorbell, Nat.lt_of_lt_of_le before.posted grows, ?_, before.here⟩
    have kept := before.kept
    unfold EventWorld.post Posts.post
    dsimp only
    split
    · rename_i allowed
      have apart := leaves rfl allowed.1
      rw [reading, before.here] at apart
      change w.posts.count + 1 ≤ n + d.val
      by_contra full
      have last : w.posts.count = n + d.val := by omega
      rw [last, Nat.add_mod_right] at apart
      exact apart rfl
    · exact kept
  refine ⟨inOrder.ahead.post _, inOrder.recent.post, Nat.le_trans inOrder.behind grows,
    inOrder.calls, ?_⟩
  have placed := inOrder.placed
  change Placed d events words (w.post d events) w.calls.length w.pc
  cases position : w.pc with
  | outside =>
    rw [position] at placed
    exact placed
  | test left =>
    rw [position] at placed
    exact placed
  | advance left slot =>
    rw [position] at placed
    exact ⟨placed.1, placed.2.1, Nat.lt_of_lt_of_le placed.2.2.1 grows, placed.2.2.2⟩
  | acknowledge left slot =>
    rw [position] at placed
    exact ⟨placed.1, placed.2.1, Nat.lt_of_lt_of_le placed.2.2.1 grows, placed.2.2.2⟩
  | readGroup left slot =>
    rw [position] at placed
    exact acknowledged (by rw [position]; rfl) placed
  | readSyndrome left slot group =>
    rw [position] at placed
    exact ⟨acknowledged (by rw [position]; rfl) placed.1, placed.2⟩
  | handle left slot group syndrome read todo =>
    rw [position] at placed
    exact ⟨acknowledged (by rw [position]; rfl) placed.1, placed.2⟩

/-- One statement of the poll. -/
theorem InOrder.step (inOrder : InOrder d events words w) :
    InOrder d events words (aenqStep d words w) := by
  obtain ⟨ahead, recent, behind, calls, placed⟩ := inOrder
  have whole : InOrder d events words w := ⟨ahead, recent, behind, calls, placed⟩
  unfold aenqStep
  cases position : w.pc with
  | outside => exact whole
  | test left =>
    rw [position] at placed
    cases left with
    | zero => exact ⟨ahead, recent, behind, calls, placed⟩
    | succ left =>
      dsimp only
      split
      · rename_i found
        have more := (whole.test_iff placed.1 placed.2).mp found
        refine ⟨ahead, recent, behind, calls, placed.1, placed.2, more, ?_⟩
        rw [placed.1, aenqCursor_slot]
      · exact ⟨ahead, recent, behind, calls, placed⟩
  | advance left slot =>
    rw [position] at placed
    refine ⟨ahead, recent, behind, calls, ?_, placed.2⟩
    dsimp only
    rw [placed.1, aenqCursor_advance]
  | acknowledge left slot =>
    rw [position] at placed
    obtain ⟨cursor, doorbell, more, here⟩ := placed
    have next : unwrapDoorbell w.doorbell w.cursor.index = d.val + w.calls.length + 1 := by
      rw [doorbell, cursor, unwrapDoorbell_next]
    have bounded := ahead.bounded
    have grown : w.doorbell ≤ d.val + w.calls.length + 1 := by omega
    have kept : w.posts.count ≤ w.calls.length + d.val := by omega
    dsimp only
    rw [next]
    exact ⟨ahead.mono grown, recent, behind, calls, cursor, rfl, more, kept, here⟩
  | readGroup left slot =>
    rw [position] at placed
    dsimp only
    rw [Acknowledged.entry placed recent]
    exact ⟨ahead, recent, behind, calls, Acknowledged.at_pc placed _, rfl⟩
  | readSyndrome left slot group =>
    rw [position] at placed
    dsimp only
    rw [placed.1.entry recent]
    exact ⟨ahead, recent, behind, calls, placed.1.at_pc _, placed.2, rfl, rfl⟩
  | handle left slot group syndrome read todo =>
    rw [position] at placed
    obtain ⟨acknowledged, sameGroup, sameSyndrome, sameWords⟩ := placed
    cases todo with
    | cons word todo =>
      dsimp only
      rw [acknowledged.entry recent]
      refine ⟨ahead, recent, behind, calls, acknowledged.at_pc _, sameGroup, sameSyndrome, ?_⟩
      rw [← sameWords, List.append_assoc]
      rfl
    | nil =>
      rw [List.map_nil, List.append_nil] at sameWords
      dsimp only
      have length : (w.calls ++ [(⟨group, syndrome, read⟩ : AenqCall)]).length =
        w.calls.length + 1 := List.length_append
      refine ⟨ahead, recent, ?_, ?_, ?_⟩
      · dsimp only
        rw [length]
        exact acknowledged.posted
      · dsimp only
        rw [length, List.range_succ, List.map_append, ← calls, sameGroup, sameSyndrome, sameWords]
        rfl
      · change _ ∧ _
        rw [length]
        exact ⟨acknowledged.cursor, acknowledged.doorbell⟩

end Proofs

end EnaDriver.Admin
