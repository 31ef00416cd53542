import EnaDriver.Support.Polling
import EnaDriver.Support.Windows
import Mathlib.Data.List.Perm.Basic

/-!
# Submission and completion queues

A driver writes descriptors into a circular submission queue and rings a doorbell
with its 16-bit producer index.  A device fetches descriptors in order up to the
doorbell and posts one completion for each of them, in any order, into a circular
completion queue of the same depth.  The driver never asks how far the device
is: it submits under ids that are free, and an id is free again when its
completion was consumed.  This is enough: the ids of descriptors that were not
fetched, of descriptors that were not completed and of completions that were not
consumed are distinct, so neither queue overflows.
-/

namespace EnaDriver.Support.QueuePair

open Support.Laps Support.Windows Support.Polling
open scoped List

/-- A device: the doorbell register, the index of the next descriptor to fetch,
the descriptors to be completed, the producer position and the memory of the
completion queue, and everything it has fetched and posted. -/
structure Device (δ κ : Type) where
  doorbell : Nat
  fetchIndex : Nat
  pending : List δ
  producer : Cursor
  cq : Nat → κ
  fetched : List δ
  posted : List κ

/-- What a device may do: fetch the next descriptor, or complete one of those it
has fetched. -/
inductive DeviceAct (κ : Type) where
  | fetch
  | complete (which : Nat) (entry : κ)

section Device

variable {δ κ : Type} (d : Depth) (idOf : δ → Nat) (entryId : κ → Nat) (entryPhase : κ → Bool)

def Device.fresh (blank : κ) : Device δ κ := ⟨0, 0, [], .start, fun _ => blank, [], []⟩

def Device.fetch (sq : Nat → δ) (dev : Device δ κ) : Device δ κ :=
  if dev.fetchIndex = dev.doorbell then dev
  else
    let desc := sq (d.slot dev.fetchIndex)
    { dev with
      fetchIndex := (dev.fetchIndex + 1) % 65536
      pending := dev.pending ++ [desc]
      fetched := dev.fetched ++ [desc] }

/-- Post the completion of a fetched descriptor.  It carries the id of the
descriptor and the phase of the lap; a device that names another does nothing. -/
def Device.complete (dev : Device δ κ) (which : Nat) (entry : κ) : Device δ κ :=
  match dev.pending[which]? with
  | none => dev
  | some desc =>
    if entryId entry = idOf desc ∧ entryPhase entry = dev.producer.phase then
      { dev with
        pending := dev.pending.eraseIdx which
        producer := dev.producer.advance d
        cq := store dev.cq (d.slot dev.producer.index) entry
        posted := dev.posted ++ [entry] }
    else dev

def Device.act (sq : Nat → δ) (dev : Device δ κ) : DeviceAct κ → Device δ κ
  | .fetch => dev.fetch d sq
  | .complete which entry => dev.complete d idOf entryId entryPhase which entry

def Device.acts (sq : Nat → δ) (dev : Device δ κ) (actions : List (DeviceAct κ)) : Device δ κ :=
  actions.foldl (Device.act d idOf entryId entryPhase sq) dev

def Device.views (sq : Nat → δ) (dev : Device δ κ) :
    List (List (DeviceAct κ)) → List (Device δ κ)
  | [] => []
  | actions :: script =>
    let next := dev.acts d idOf entryId entryPhase sq actions
    next :: next.views sq script

def Device.after (sq : Nat → δ) (dev : Device δ κ) (script : List (List (DeviceAct κ))) :
    Device δ κ :=
  script.foldl (Device.acts d idOf entryId entryPhase sq) dev

end Device

/-! ## The invariant -/

/-- The ids in use are those listed, each once. -/
structure Lists (ids : List Nat) (Live : Nat → Prop) : Prop where
  nodup : ids.Nodup
  live : ∀ id, id ∈ ids ↔ Live id

theorem Lists.perm {ids others : List Nat} {Live : Nat → Prop} (lists : Lists ids Live)
    (same : others.Perm ids) : Lists others Live where
  nodup := same.nodup_iff.mpr lists.nodup
  live := fun id => same.mem_iff.trans (lists.live id)

/-- Driver and device agree.  `submitted` is everything the driver has submitted,
`rung` the number of descriptors that the last doorbell covers, `done` the number
of completions consumed, and `Live` holds of the ids in use. -/
structure Sync {δ κ : Type} (d : Depth) (idOf : δ → Nat) (entryId : κ → Nat)
    (entryPhase : κ → Bool) (sq : Nat → δ) (dev : Device δ κ) (submitted : List δ)
    (rung done : Nat) (Live : Nat → Prop) : Prop where
  outstanding : Lists ((submitted.drop dev.fetched.length).map idOf ++
    (dev.pending.map idOf ++ (dev.posted.drop done).map entryId)) Live
  bounded : ∀ id, Live id → id < d.val
  fetched : dev.fetched <+: submitted
  covered : dev.fetched.length ≤ rung ∧ rung ≤ submitted.length
  doorbell : dev.doorbell = rung % 65536
  fetchIndex : dev.fetchIndex = dev.fetched.length % 65536
  producer : dev.producer = Cursor.after d dev.posted.length
  intact : ∀ i desc, dev.fetched.length ≤ i → submitted[i]? = some desc → sq (i % d.val) = desc
  consumed : done ≤ dev.posted.length
  phases : ∀ i entry, dev.posted[i]? = some entry → entryPhase entry = lapPhase d i
  unread : ∀ i entry, done ≤ i → dev.posted[i]? = some entry → dev.cq (i % d.val) = entry
  stale : ∀ i, dev.posted.length ≤ i → i < dev.posted.length + d.val →
    entryPhase (dev.cq (i % d.val)) ≠ lapPhase d i

section Sync

variable {δ κ : Type} {d : Depth} {idOf : δ → Nat} {entryId : κ → Nat} {entryPhase : κ → Bool}
  {sq : Nat → δ} {dev : Device δ κ} {submitted : List δ} {rung done : Nat} {Live : Nat → Prop}

/-- Positions less than a lap apart have different slots. -/
theorem slot_ne {first second : Nat} (before : first < second) (near : second < first + d.val) :
    first % d.val ≠ second % d.val := by
  have apart := @cell_ne d first 0 (second - first) (by omega) (by omega)
  rw [Nat.add_zero, show first + (second - first) = second by omega] at apart
  exact apart

/-- An entry of a list to which one was added. -/
theorem concat_cases {α : Type} {list : List α} {last value : α} {i : Nat}
    (found : (list ++ [last])[i]? = some value) :
    (i < list.length ∧ list[i]? = some value) ∨ (i = list.length ∧ value = last) := by
  rw [List.getElem?_append] at found
  split at found
  · rename_i early
    exact Or.inl ⟨early, found⟩
  have bound := (List.getElem?_eq_some_iff.mp found).1
  rw [List.length_singleton] at bound
  have here : i = list.length := by omega
  rw [here, Nat.sub_self] at found
  exact Or.inr ⟨here, (Option.some.inj found).symm⟩

/-- A fresh device and a driver that has submitted nothing. -/
theorem sync_fresh (blank : κ) (unwritten : entryPhase blank = false) :
    Sync d idOf entryId entryPhase sq (Device.fresh blank) [] 0 0 (fun _ => False) where
  outstanding := ⟨List.nodup_nil, fun _ => ⟨fun member => absurd member List.not_mem_nil, False.elim⟩⟩
  bounded := fun _ impossible => impossible.elim
  fetched := List.prefix_rfl
  covered := ⟨Nat.le_refl 0, Nat.le_refl 0⟩
  doorbell := rfl
  fetchIndex := rfl
  producer := (Cursor.after_zero d).symm
  intact := by
    intro i desc _ found
    cases found
  consumed := Nat.le_refl 0
  phases := by
    intro i entry found
    cases found
  unread := by
    intro i entry _ found
    cases found
  stale := by
    intro i _ bound
    rw [lapPhase_of_lt d (by simpa [Device.fresh] using bound)]
    change entryPhase blank ≠ true
    rw [unwritten]
    exact Bool.false_ne_true

namespace Sync

variable (sync : Sync d idOf entryId entryPhase sq dev submitted rung done Live)
include sync

/-- The ids in use may be given by any description of them. -/
theorem congr {Other : Nat → Prop} (same : ∀ id, Live id ↔ Other id) :
    Sync d idOf entryId entryPhase sq dev submitted rung done Other :=
  { sync with
    outstanding := ⟨sync.outstanding.nodup, fun id => (sync.outstanding.live id).trans (same id)⟩
    bounded := fun id live => sync.bounded id ((same id).mpr live) }

/-- Neither queue overflows. -/
theorem room :
    (submitted.length - dev.fetched.length) + (dev.pending.length + (dev.posted.length - done)) ≤
      d.val := by
  have size := length_le_of_nodup sync.outstanding.nodup
    (fun id member => sync.bounded id ((sync.outstanding.live id).mp member))
  rw [List.length_append, List.length_append, List.length_map, List.length_map, List.length_map,
    List.length_drop, List.length_drop] at size
  exact size

/-- The device has fetched all it may exactly when its index is the doorbell. -/
theorem caughtUp : dev.fetchIndex = dev.doorbell ↔ dev.fetched.length = rung := by
  have room := sync.room
  have small := d.le
  have covered := sync.covered
  rw [sync.fetchIndex, sync.doorbell]
  omega

/-! ### The device -/

theorem fetch : Sync d idOf entryId entryPhase sq (dev.fetch d sq) submitted rung done Live := by
  unfold Device.fetch
  split
  · exact sync
  rename_i behind
  have short : dev.fetched.length < rung := by
    have covered := sync.covered
    have differs : dev.fetched.length ≠ rung := fun same => behind (sync.caughtUp.mpr same)
    omega
  have inside : dev.fetched.length < submitted.length := Nat.lt_of_lt_of_le short sync.covered.2
  have found := List.getElem?_eq_getElem inside
  have here : sq (d.slot dev.fetchIndex) = submitted[dev.fetched.length] := by
    rw [sync.fetchIndex, d.slot_wrap]
    exact sync.intact _ _ (Nat.le_refl _) found
  have size : (dev.fetched ++ [submitted[dev.fetched.length]]).length = dev.fetched.length + 1 :=
    List.length_append
  rw [here]
  constructor
  · apply sync.outstanding.perm
    simp only [size, List.map_append, List.map_cons, List.map_nil, List.append_assoc,
      List.drop_eq_getElem_cons inside, List.cons_append, List.nil_append]
    exact (List.Perm.append_left _ List.perm_middle).trans List.perm_middle
  · exact sync.bounded
  · rw [List.prefix_iff_eq_take, size, List.take_succ_eq_append_getElem inside,
      ← List.prefix_iff_eq_take.mp sync.fetched]
  · rw [size]
    exact ⟨short, sync.covered.2⟩
  · exact sync.doorbell
  · change (dev.fetchIndex + 1) % 65536 = _
    rw [size, sync.fetchIndex]
    omega
  · exact sync.producer
  · intro i other least
    rw [size] at least
    exact sync.intact i other (by omega)
  · exact sync.consumed
  · exact sync.phases
  · exact sync.unread
  · exact sync.stale

theorem complete (which : Nat) (entry : κ) :
    Sync d idOf entryId entryPhase sq (dev.complete d idOf entryId entryPhase which entry)
      submitted rung done Live := by
  unfold Device.complete
  split
  · exact sync
  rename_i desc found
  split
  · rename_i honest
    obtain ⟨inside, here⟩ := List.getElem?_eq_some_iff.mp found
    have room := sync.room
    have consumed := sync.consumed
    have slot : d.slot dev.producer.index = dev.posted.length % d.val := by
      rw [sync.producer, Cursor.slot_after]
    have size : (dev.posted ++ [entry]).length = dev.posted.length + 1 := List.length_append
    rw [slot]
    constructor
    · apply sync.outstanding.perm
      apply List.Perm.append_left
      have taken : (desc :: dev.pending.eraseIdx which).Perm dev.pending :=
        here ▸ List.getElem_cons_eraseIdx_perm inside
      have named := taken.map idOf
      rw [List.map_cons, ← honest.1] at named
      simp only [List.drop_append_of_le_length consumed, List.map_append, List.map_cons,
        List.map_nil]
      refine List.Perm.trans ?_ (named.append_right _)
      rw [← List.append_assoc]
      exact List.perm_append_comm
    · exact sync.bounded
    · exact sync.fetched
    · exact sync.covered
    · exact sync.doorbell
    · exact sync.fetchIndex
    · rw [size, sync.producer, Cursor.advance_after]
    · exact sync.intact
    · rw [size]
      omega
    · intro i other member
      rcases concat_cases member with ⟨_, early⟩ | ⟨rfl, rfl⟩
      · exact sync.phases i other early
      · rw [honest.2, sync.producer]
        rfl
    · intro i other least member
      change store dev.cq (dev.posted.length % d.val) entry (i % d.val) = other
      rcases concat_cases member with ⟨before, early⟩ | ⟨rfl, rfl⟩
      · rw [store_other _ _ (slot_ne before (by omega))]
        exact sync.unread i other least early
      · rw [store_same]
    · rw [size]
      intro i least bound
      change entryPhase (store dev.cq (dev.posted.length % d.val) entry (i % d.val)) ≠ _
      rcases Nat.lt_or_ge i (dev.posted.length + d.val) with near | far
      · rw [store_other _ _ (slot_ne least near).symm]
        exact sync.stale i (by omega) near
      · have next : i = dev.posted.length + d.val := by omega
        rw [next, Nat.add_mod_right, store_same, honest.2, sync.producer, lapPhase_add_depth]
        exact (Bool.not_eq_self _).mp ∘ Eq.symm
  · exact sync

theorem act (action : DeviceAct κ) :
    Sync d idOf entryId entryPhase sq (dev.act d idOf entryId entryPhase sq action) submitted rung
      done Live := by
  cases action with
  | fetch => exact sync.fetch
  | complete which entry => exact sync.complete which entry

theorem acts (actions : List (DeviceAct κ)) :
    Sync d idOf entryId entryPhase sq (dev.acts d idOf entryId entryPhase sq actions) submitted
      rung done Live := by
  induction actions generalizing dev with
  | nil => exact sync
  | cons action actions ih => exact ih (sync.act action)

/-! ### The driver -/

/-- Submitting a descriptor under a free id keeps the agreement: it overwrites
no descriptor that was not fetched. -/
theorem submit {desc : δ} (idle : ¬Live (idOf desc)) (bound : idOf desc < d.val) :
    Sync d idOf entryId entryPhase (store sq (submitted.length % d.val) desc) dev
      (submitted ++ [desc]) rung done (fun id => Live id ∨ id = idOf desc) := by
  have ahead : dev.fetched.length ≤ submitted.length := sync.fetched.length_le
  have size : (submitted ++ [desc]).length = submitted.length + 1 := List.length_append
  have listed : ((submitted ++ [desc]).drop dev.fetched.length).map idOf ++
      (dev.pending.map idOf ++ (dev.posted.drop done).map entryId) ~
      idOf desc :: ((submitted.drop dev.fetched.length).map idOf ++
        (dev.pending.map idOf ++ (dev.posted.drop done).map entryId)) := by
    rw [List.drop_append_of_le_length ahead, List.map_append, List.append_assoc]
    exact List.perm_middle
  have outstanding : Lists (((submitted ++ [desc]).drop dev.fetched.length).map idOf ++
      (dev.pending.map idOf ++ (dev.posted.drop done).map entryId))
      (fun id => Live id ∨ id = idOf desc) := by
    constructor
    · rw [listed.nodup_iff, List.nodup_cons, sync.outstanding.live]
      exact ⟨idle, sync.outstanding.nodup⟩
    · intro id
      rw [listed.mem_iff, List.mem_cons, sync.outstanding.live, Or.comm]
  have bounded : ∀ id, Live id ∨ id = idOf desc → id < d.val := by
    rintro id (live | rfl)
    · exact sync.bounded id live
    · exact bound
  have room : submitted.length < dev.fetched.length + d.val := by
    have total := length_le_of_nodup outstanding.nodup
      (fun id member => bounded id ((outstanding.live id).mp member))
    rw [List.length_append, List.length_map, List.length_drop, size] at total
    omega
  constructor
  · exact outstanding
  · exact bounded
  · exact sync.fetched.trans (List.prefix_append _ _)
  · have covered := sync.covered
    rw [size]
    omega
  · exact sync.doorbell
  · exact sync.fetchIndex
  · exact sync.producer
  · intro i other least member
    rcases concat_cases member with ⟨before, early⟩ | ⟨rfl, rfl⟩
    · rw [store_other _ _ (slot_ne before (by omega))]
      exact sync.intact i other least early
    · rw [store_same]
  · exact sync.consumed
  · exact sync.phases
  · exact sync.unread
  · exact sync.stale

theorem ring :
    Sync d idOf entryId entryPhase sq { dev with doorbell := submitted.length % 65536 } submitted
      submitted.length done Live :=
  { sync with
    covered := ⟨sync.fetched.length_le, Nat.le_refl _⟩
    doorbell := rfl }

theorem next (more : done < dev.posted.length) :
    dev.cq (done % d.val) = dev.posted[done] ∧
      entryPhase (dev.cq (done % d.val)) = lapPhase d done ∧
      Live (entryId (dev.cq (done % d.val))) := by
  have found := List.getElem?_eq_getElem more
  have here := sync.unread done _ (Nat.le_refl _) found
  rw [here]
  refine ⟨rfl, sync.phases done _ found, (sync.outstanding.live _).mp ?_⟩
  rw [List.drop_eq_getElem_cons more, List.map_cons]
  exact List.mem_append_right _ (List.mem_append_right _ List.mem_cons_self)

/-- Consuming the next completion keeps the agreement and frees its id. -/
theorem consume (more : done < dev.posted.length) :
    Sync d idOf entryId entryPhase sq dev submitted rung (done + 1)
      (fun id => Live id ∧ id ≠ entryId (dev.cq (done % d.val))) := by
  have here := (sync.next more).1
  have listed : (submitted.drop dev.fetched.length).map idOf ++
        (dev.pending.map idOf ++ (dev.posted.drop done).map entryId) ~
      entryId dev.posted[done] :: ((submitted.drop dev.fetched.length).map idOf ++
        (dev.pending.map idOf ++ (dev.posted.drop (done + 1)).map entryId)) := by
    rw [List.drop_eq_getElem_cons more, List.map_cons]
    exact (List.Perm.append_left _ List.perm_middle).trans List.perm_middle
  have distinct := List.nodup_cons.mp (listed.nodup_iff.mp sync.outstanding.nodup)
  rw [here]
  exact { sync with
    outstanding := by
      constructor
      · exact distinct.2
      intro id
      rw [← sync.outstanding.live, listed.mem_iff, List.mem_cons]
      constructor
      · intro member
        refine ⟨Or.inr member, ?_⟩
        rintro rfl
        exact distinct.1 member
      · rintro ⟨rfl | member, differs⟩
        · exact absurd rfl differs
        · exact member
    bounded := fun id live => sync.bounded id live.1
    consumed := more
    unread := fun i entry least => sync.unread i entry (by omega) }

/-- A driver that reads the next slot finds the phase of its lap exactly when
there is a completion to consume. -/
theorem ready :
    entryPhase (dev.cq (done % d.val)) = lapPhase d done ↔ done < dev.posted.length := by
  constructor
  · intro phase
    by_contra drained
    have here : done = dev.posted.length := Nat.le_antisymm sync.consumed (Nat.not_lt.mp drained)
    have positive := d.pos
    exact sync.stale done (Nat.le_of_eq here.symm) (by omega) phase
  · intro more
    exact (sync.next more).2.1

end Sync

end Sync

/-! ## Polls -/

section Poll

variable {δ κ σ ο : Type} (d : Depth) (idOf : δ → Nat) (entryId : κ → Nat)
  (entryPhase : κ → Bool) (sq : Nat → δ) {views : List (Device δ κ)} {dev last : Device δ κ}

/-- The later state is the earlier one after some actions. -/
def Reached (dev later : Device δ κ) : Prop :=
  ∃ actions, later = dev.acts d idOf entryId entryPhase sq actions

/-- Every state comes from the one before it, and the last from all of them. -/
def Follows : Device δ κ → List (Device δ κ) → Device δ κ → Prop
  | dev, [], last => Reached d idOf entryId entryPhase sq dev last
  | dev, view :: views, last =>
    Reached d idOf entryId entryPhase sq dev view ∧ Follows view views last

theorem follows_replicate (dev : Device δ κ) (count : Nat) :
    Follows d idOf entryId entryPhase sq dev (List.replicate count dev) dev := by
  induction count with
  | zero => exact ⟨[], rfl⟩
  | succ count ih => exact ⟨⟨[], rfl⟩, ih⟩

/-- The states during a poll follow each other. -/
theorem follows_views (dev : Device δ κ) (script : List (List (DeviceAct κ))) (count : Nat) :
    Follows d idOf entryId entryPhase sq dev
      (dev.views d idOf entryId entryPhase sq script ++
        List.replicate count (dev.after d idOf entryId entryPhase sq script))
      (dev.after d idOf entryId entryPhase sq script) := by
  induction script generalizing dev with
  | nil => exact follows_replicate d idOf entryId entryPhase sq dev count
  | cons actions script ih => exact ⟨⟨actions, rfl⟩, ih _⟩

theorem act_posted (dev : Device δ κ) (action : DeviceAct κ) :
    dev.posted <+: (dev.act d idOf entryId entryPhase sq action).posted := by
  cases action with
  | fetch =>
    change dev.posted <+: (dev.fetch d sq).posted
    unfold Device.fetch
    split
    · exact List.prefix_rfl
    · exact List.prefix_rfl
  | complete which entry =>
    change dev.posted <+: (dev.complete d idOf entryId entryPhase which entry).posted
    unfold Device.complete
    split
    · exact List.prefix_rfl
    · split
      · exact List.prefix_append _ _
      · exact List.prefix_rfl

theorem Reached.posted {dev later : Device δ κ}
    (reached : Reached d idOf entryId entryPhase sq dev later) : dev.posted <+: later.posted := by
  obtain ⟨actions, rfl⟩ := reached
  induction actions generalizing dev with
  | nil => exact List.prefix_rfl
  | cons action actions ih =>
    exact (act_posted d idOf entryId entryPhase sq dev action).trans ih

theorem Follows.posted (follows : Follows d idOf entryId entryPhase sq dev views last) :
    dev.posted <+: last.posted := by
  induction views generalizing dev with
  | nil => exact Reached.posted d idOf entryId entryPhase sq follows
  | cons view views ih =>
    exact (Reached.posted d idOf entryId entryPhase sq follows.1).trans (ih follows.2)

theorem Follows.sync {submitted : List δ} {rung done : Nat} {Live : Nat → Prop}
    (follows : Follows d idOf entryId entryPhase sq dev views last)
    (sync : Sync d idOf entryId entryPhase sq dev submitted rung done Live) :
    Sync d idOf entryId entryPhase sq last submitted rung done Live := by
  induction views generalizing dev with
  | nil =>
    obtain ⟨actions, rfl⟩ := follows
    exact sync.acts actions
  | cons view views ih =>
    obtain ⟨⟨actions, rfl⟩, rest⟩ := follows
    exact ih rest (sync.acts actions)

variable {entry : σ → (Nat → κ) → Option (Nat × σ × List ο)} {budget : Nat}
  (entriesOf : List ο → List κ) (Holds : σ → Nat → (Nat → Prop) → Prop)
  (entriesOf_nil : entriesOf [] = [])
  (entriesOf_append : ∀ first second, entriesOf (first ++ second) =
    entriesOf first ++ entriesOf second)
  (reads : ∀ {state next : σ} {mem : Nat → κ} {added done : Nat} {outputs : List ο}
    {Live : Nat → Prop}, Holds state done Live → entry state mem = some (added, next, outputs) →
    entryPhase (mem (done % d.val)) = lapPhase d done ∧ entriesOf outputs = [mem (done % d.val)] ∧
      added ≤ 1 ∧ (Live (entryId (mem (done % d.val))) →
        Holds next (done + 1) (fun id => Live id ∧ id ≠ entryId (mem (done % d.val)))))
  (leaves : ∀ {state : σ} {mem : Nat → κ} {done : Nat} {Live : Nat → Prop},
    Holds state done Live → entry state mem = none →
    entryPhase (mem (done % d.val)) ≠ lapPhase d done ∨ ¬Live (entryId (mem (done % d.val))))

include entriesOf_nil entriesOf_append reads leaves

/-- A poll consumes completions in the order in which they were posted, and stops
only for its budget or when it has consumed all that were posted before it. -/
theorem iterates_sync {submitted : List δ} {rung done count total : Nat} {Live : Nat → Prop}
    {state final : σ} {outputs : List ο} (holds : Holds state done Live)
    (sync : Sync d idOf entryId entryPhase sq dev submitted rung done Live)
    (follows : Follows d idOf entryId entryPhase sq dev views last)
    (iterates : Iterates entry budget count state (views.map Device.cq) total outputs final) :
    ∃ Remains, Holds final (done + (entriesOf outputs).length) Remains ∧
      Sync d idOf entryId entryPhase sq last submitted rung
        (done + (entriesOf outputs).length) Remains ∧
      entriesOf outputs <+: last.posted.drop done ∧
      (dev.posted.length ≤ done + (entriesOf outputs).length ∨
        budget ≤ count + (entriesOf outputs).length) := by
  induction views generalizing dev done count state outputs Live with
  | nil =>
    cases iterates with
    | stop reason =>
      rw [entriesOf_nil]
      refine ⟨Live, holds, follows.sync d idOf entryId entryPhase sq sync, List.nil_prefix, ?_⟩
      rcases reason with spent | ⟨view, rest, split, _⟩
      · exact Or.inr spent
      · cases split
  | cons view views ih =>
    have later := follows.2.posted d idOf entryId entryPhase sq
    obtain ⟨⟨actions, same⟩, rest⟩ := follows
    have grown := Reached.posted d idOf entryId entryPhase sq ⟨actions, same⟩
    have seen := same ▸ sync.acts actions
    cases iterates with
    | stop reason =>
      rw [entriesOf_nil]
      refine ⟨Live, holds, rest.sync d idOf entryId entryPhase sq seen, List.nil_prefix, ?_⟩
      rcases reason with spent | ⟨mem, tail, split, left⟩
      · exact Or.inr spent
      left
      cases split
      have drained : ¬done < view.posted.length := by
        intro more
        obtain ⟨_, phase, live⟩ := seen.next more
        rcases leaves holds left with differs | dead
        · exact differs phase
        · exact dead live
      have bound := grown.length_le
      simp only [List.length_nil]
      omega
    | @step _ _ added _ next _ _ _ here others more read after =>
      obtain ⟨phase, one, single, moves⟩ := reads holds read
      have ready := seen.ready.mp phase
      obtain ⟨entryHere, _, live⟩ := seen.next ready
      obtain ⟨Remains, held, synced, ordered, reason⟩ :=
        ih (moves live) (seen.consume ready) rest after
      have size : done + 1 + (entriesOf others).length =
          done + (entriesOf (here ++ others)).length := by
        rw [entriesOf_append, one, List.length_append, List.length_singleton]
        omega
      rw [size] at held synced reason
      refine ⟨Remains, held, synced, ?_, ?_⟩
      · have inside : done < last.posted.length := Nat.lt_of_lt_of_le ready later.length_le
        rw [entriesOf_append, one, entryHere, later.getElem ready,
          List.drop_eq_getElem_cons inside, List.singleton_append]
        exact (List.prefix_cons_inj _).mpr ordered
      rcases reason with all | spent
      · left
        have bound := grown.length_le
        omega
      · right
        omega

end Poll

end EnaDriver.Support.QueuePair
