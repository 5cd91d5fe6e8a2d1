import Mathlib.Data.Nat.ModEq
import Mathlib.Logic.Function.Basic
import Mathlib.Tactic

/-!
# Rings of slots

A queue of items in consecutive slots of a ring, with indices taken modulo the capacity.  Slots
outside the queue may hold anything.
-/

namespace SeqDetect.Queue

variable {α : Type*} {capacity first : ℕ} {data : ℕ → Option α} {items : List α} {x : α}

/-- The slots from `first` on hold the items, oldest first. -/
def Holds (capacity : ℕ) (data : ℕ → Option α) (first : ℕ) (items : List α) : Prop :=
  ∀ i (bound : i < items.length), data ((first + i) % capacity) = some items[i]

theorem holds_nil : Holds capacity data first [] := by
  intro i bound
  exact absurd bound (Nat.not_lt_zero i)

/-- Slots less than a capacity apart are different. -/
theorem slot_ne {i j : ℕ} (before : i < j) (room : j < capacity) :
    (first + i) % capacity ≠ (first + j) % capacity := by
  intro same
  have congruent : i ≡ j [MOD capacity] := Nat.ModEq.add_left_cancel' first same
  rw [Nat.ModEq, Nat.mod_eq_of_lt (before.trans room), Nat.mod_eq_of_lt room] at congruent
  omega

theorem holds_mod : Holds capacity data (first % capacity) items ↔
    Holds capacity data first items := by
  simp [Holds, Nat.add_mod]

/-- As long as there is room, a write behind the queue appends to it. -/
theorem Holds.push (holds : Holds capacity data first items) (room : items.length < capacity) :
    Holds capacity (Function.update data ((first + items.length) % capacity) (some x)) first
      (items ++ [x]) := by
  intro i bound
  rw [List.length_append, List.length_singleton] at bound
  rcases Nat.lt_or_ge i items.length with inside | last
  · rw [Function.update_of_ne (slot_ne inside room), List.getElem_append_left inside]
    exact holds i inside
  · obtain rfl : i = items.length := by omega
    simp

/-- The oldest item is in the first slot. -/
theorem Holds.head (holds : Holds capacity data first (x :: items)) :
    data (first % capacity) = some x := holds 0 (Nat.zero_lt_succ _)

/-- Dropping the oldest item moves the first slot. -/
theorem Holds.tail (holds : Holds capacity data first (x :: items)) :
    Holds capacity data ((first + 1) % capacity) items := by
  rw [holds_mod]
  intro i bound
  have next := holds (i + 1) (Nat.succ_lt_succ bound)
  have slot : first + 1 + i = first + (i + 1) := by omega
  rw [slot]
  simpa using next

end SeqDetect.Queue
