import Mathlib.Data.List.Infix

/-!
# Cutting a stream into segments

A stream whose elements mark the end of their segment is cut after every mark.
Cutting a stream that was joined from segments gives them back, a longer stream
has more segments, and where a cut leaves nothing open the next element starts a
segment.
-/

namespace EnaDriver.Support.Segments

variable {α β : Type}

/-- The closed segments of a stream and its open rest. -/
structure Cut (α : Type) where
  whole : List (List α)
  part : List α

section

variable (ends : α → Bool)

/-- Add one element to the open part, and close it at a mark. -/
def push (state : Cut α) (x : α) : Cut α :=
  if ends x then ⟨state.whole ++ [state.part ++ [x]], []⟩
  else ⟨state.whole, state.part ++ [x]⟩

/-- Cut a stream after every mark. -/
def cut (xs : List α) : Cut α := xs.foldl (push ends) ⟨[], []⟩

theorem cut_concat (xs : List α) (x : α) : cut ends (xs ++ [x]) = push ends (cut ends xs) x := by
  rw [cut, List.foldl_append]
  rfl

/-- Nothing is lost by cutting. -/
theorem cut_flatten (xs : List α) : (cut ends xs).whole.flatten ++ (cut ends xs).part = xs := by
  induction xs using List.reverseRecOn with
  | nil => rfl
  | append_singleton xs x ih =>
    rw [cut_concat, push]
    split
    · rw [List.flatten_append, List.append_nil]
      simp only [List.flatten_cons, List.flatten_nil, List.append_nil]
      rw [← List.append_assoc, ih]
    · rw [← List.append_assoc, ih]

theorem foldl_push_whole (ys : List α) (state : Cut α) :
    state.whole <+: (ys.foldl (push ends) state).whole := by
  induction ys generalizing state with
  | nil => exact List.prefix_rfl
  | cons y ys ih =>
    apply List.IsPrefix.trans _ (ih (push ends state y))
    unfold push
    split
    · exact List.prefix_append _ _
    · exact List.prefix_rfl

/-- A longer stream has the segments of a shorter one, and more. -/
theorem cut_whole_mono {xs ys : List α} (shorter : xs <+: ys) :
    (cut ends xs).whole <+: (cut ends ys).whole := by
  obtain ⟨rest, rfl⟩ := shorter
  rw [cut, cut, List.foldl_append]
  exact foldl_push_whole ends rest _

/-- Elements without a mark stay open. -/
theorem foldl_push_open {ys : List α} (unmarked : ∀ y ∈ ys, ends y = false) (state : Cut α) :
    ys.foldl (push ends) state = ⟨state.whole, state.part ++ ys⟩ := by
  induction ys generalizing state with
  | nil => simp
  | cons y ys ih =>
    rw [List.foldl_cons, ih fun z member => unmarked z (List.mem_cons_of_mem _ member)]
    simp [push, unmarked y List.mem_cons_self]

/-- A segment ends with its only mark. -/
def IsSegment (xs : List α) : Prop :=
  ∃ init last, xs = init ++ [last] ∧ (∀ x ∈ init, ends x = false) ∧ ends last = true

/-- Cutting joined segments gives them back. -/
theorem cut_segments {segments : List (List α)} (each : ∀ xs ∈ segments, IsSegment ends xs) :
    cut ends segments.flatten = ⟨segments, []⟩ := by
  induction segments using List.reverseRecOn with
  | nil => rfl
  | append_singleton segments xs ih =>
    obtain ⟨init, last, rfl, unmarked, marked⟩ := each xs (by simp)
    have before := ih fun ys member => each ys (List.mem_append_left _ member)
    rw [List.flatten_append, cut, List.foldl_append]
    change ([init ++ [last]] : List (List α)).flatten.foldl (push ends)
      (cut ends segments.flatten) = _
    rw [before]
    simp only [List.flatten_cons, List.flatten_nil, List.append_nil, List.foldl_append,
      List.foldl_cons, List.foldl_nil, foldl_push_open ends unmarked]
    simp [push, marked]

end

theorem cut_map {ends : α → Bool} {marks : β → Bool} {f : α → β}
    (agree : ∀ x, marks (f x) = ends x) (xs : List α) :
    cut marks (xs.map f) =
      ⟨(cut ends xs).whole.map (List.map f), (cut ends xs).part.map f⟩ := by
  induction xs using List.reverseRecOn with
  | nil => rfl
  | append_singleton xs x ih =>
    rw [List.map_append, List.map_singleton, cut_concat, cut_concat, ih, push, push, agree]
    split <;> simp

theorem next_of_cut_closed {ends starts : α → Bool} {segments : List (List α)}
    (each : ∀ xs ∈ segments, IsSegment ends xs)
    (heads : ∀ xs ∈ segments, ∀ x, xs.head? = some x → starts x = true)
    {xs : List α} (shorter : xs <+: segments.flatten) (closed : (cut ends xs).part = [])
    {x : α} (next : segments.flatten[xs.length]? = some x) : starts x = true := by
  have mono := cut_whole_mono ends shorter
  rw [cut_segments ends each] at mono
  obtain ⟨rest, split⟩ := mono
  change (cut ends xs).whole ++ rest = segments at split
  have joined := cut_flatten ends xs
  rw [closed, List.append_nil] at joined
  rw [← split, List.flatten_append, joined, List.getElem?_append_right (Nat.le_refl _),
    Nat.sub_self] at next
  cases rest with
  | nil => simp at next
  | cons segment rest =>
    have member : segment ∈ segments := by
      rw [← split]
      simp
    obtain ⟨init, last, shape, _⟩ := each segment member
    apply heads segment member
    cases segment with
    | nil => simp at shape
    | cons first others => simpa using next

theorem follows_append {stream xs ys : List α} (shorter : xs <+: stream)
    (next : ∀ k y, ys[k]? = some y → stream[xs.length + k]? = some y) : xs ++ ys <+: stream := by
  obtain ⟨rest, rfl⟩ := shorter
  refine (List.prefix_append_right_inj xs).mpr (List.prefix_iff_getElem?.mpr ?_)
  intro k inside
  have found := next k _ (List.getElem?_eq_getElem inside)
  rwa [List.getElem?_append_right (Nat.le_add_right _ _), Nat.add_sub_cancel_left] at found

end EnaDriver.Support.Segments
