import Mathlib.Data.Nat.Bitwise

/-!
# Words made of bit fields

A word is put together from fields at fixed offsets.  When no two fields overlap,
each of them can be read back, whatever the others hold.
-/

namespace EnaDriver.Support.Fields

structure Field where
  offset : Nat
  width : Nat
  value : Nat

def flag (offset : Nat) (set : Bool) : Field := ⟨offset, 1, set.toNat⟩

def word : List Field → Nat
  | [] => 0
  | field :: rest => (field.value % 2 ^ field.width) <<< field.offset ||| word rest

def field (word offset width : Nat) : Nat := word >>> offset % 2 ^ width

def Field.Apart (one other : Field) : Prop :=
  one.offset + one.width ≤ other.offset ∨ other.offset + other.width ≤ one.offset

instance (one other : Field) : Decidable (one.Apart other) := inferInstanceAs (Decidable (_ ∨ _))

theorem Field.Apart.symm {one other : Field} (apart : one.Apart other) : other.Apart one :=
  Or.symm apart

theorem Field.Apart.testBit {one other : Field} (apart : one.Apart other) {i : Nat}
    (inside : i < one.width) :
    ((other.value % 2 ^ other.width) <<< other.offset).testBit (one.offset + i) = false := by
  rw [Nat.testBit_shiftLeft, Nat.testBit_mod_two_pow]
  rcases apart with before | after
  · have low : ¬ one.offset + i ≥ other.offset := by omega
    rw [decide_eq_false low, Bool.false_and]
  · have beyond : ¬ one.offset + i - other.offset < other.width := by omega
    rw [decide_eq_false beyond, Bool.false_and, Bool.and_false]

variable {fields : List Field} {here : Field}

theorem testBit_word_apart (apart : ∀ other ∈ fields, here.Apart other) {i : Nat}
    (inside : i < here.width) : (word fields).testBit (here.offset + i) = false := by
  induction fields with
  | nil => exact Nat.zero_testBit _
  | cons other rest ih =>
    rw [word, Nat.testBit_or, (apart other List.mem_cons_self).testBit inside,
      ih fun later member => apart later (List.mem_cons_of_mem _ member)]
    rfl

theorem testBit_word (apart : fields.Pairwise Field.Apart) (member : here ∈ fields) {i : Nat}
    (inside : i < here.width) : (word fields).testBit (here.offset + i) = here.value.testBit i := by
  induction fields with
  | nil => cases member
  | cons other rest ih =>
    obtain ⟨first, later⟩ := List.pairwise_cons.mp apart
    rw [word, Nat.testBit_or]
    rcases List.mem_cons.mp member with rfl | elsewhere
    · rw [testBit_word_apart first inside, Nat.testBit_shiftLeft, Nat.testBit_mod_two_pow]
      simp [inside]
    · rw [(first here elsewhere).symm.testBit inside, ih later elsewhere, Bool.false_or]

theorem field_word (apart : fields.Pairwise Field.Apart) (here : Field) (member : here ∈ fields) :
    field (word fields) here.offset here.width = here.value % 2 ^ here.width := by
  apply Nat.eq_of_testBit_eq
  intro i
  rw [field, Nat.testBit_mod_two_pow, Nat.testBit_mod_two_pow, Nat.testBit_shiftRight]
  by_cases inside : i < here.width
  · rw [testBit_word apart member inside]
  · rw [decide_eq_false inside, Bool.false_and, Bool.false_and]

theorem flag_word {offset : Nat} {set : Bool} (apart : fields.Pairwise Field.Apart)
    (member : flag offset set ∈ fields) : (word fields).testBit offset = set := by
  refine (testBit_word apart member Nat.one_pos).trans ?_
  cases set <;> simp [flag]

end EnaDriver.Support.Fields
