import Mathlib.Data.List.Basic

/-!
# Bounded first-in first-out queues

A queue that never holds more than `capacity` elements: the bound is part of the
type, so an overfull queue cannot be built. `offer` refuses an element instead of
exceeding it, `poll` takes the oldest element, `clear` discards all of them.
-/

namespace Delivery

/-- A queue of at most `capacity` elements, oldest first. -/
@[ext] structure BoundedQueue (α : Type*) (capacity : ℕ) where
  /-- The content, oldest element first. -/
  toList : List α
  /-- The queue is never overfull. -/
  length_le : toList.length ≤ capacity

namespace BoundedQueue

variable {α : Type*} {capacity : ℕ} {q q' : BoundedQueue α capacity} {a : α}

/-- The empty queue. -/
def empty : BoundedQueue α capacity := ⟨[], Nat.zero_le _⟩

/-- Adds an element at the end, refusing when the queue is full. -/
def offer (q : BoundedQueue α capacity) (a : α) : Option (BoundedQueue α capacity) :=
  if h : q.toList.length < capacity then
    some ⟨q.toList ++ [a], by rw [List.length_append, List.length_singleton]; exact h⟩
  else none

/-- Takes the oldest element. -/
def poll (q : BoundedQueue α capacity) : Option (α × BoundedQueue α capacity) :=
  match q with
  | ⟨[], _⟩ => none
  | ⟨a :: rest, h⟩ => some (a, ⟨rest, Nat.le_of_succ_le h⟩)

/-- Discards every element. -/
def clear (_ : BoundedQueue α capacity) : BoundedQueue α capacity := empty

@[simp] theorem toList_empty : (empty : BoundedQueue α capacity).toList = [] := rfl

@[simp] theorem toList_clear : q.clear.toList = [] := rfl

theorem toList_offer (h : q.offer a = some q') : q'.toList = q.toList ++ [a] := by
  unfold offer at h
  split_ifs at h
  rw [← Option.some_inj.mp h]

theorem length_of_offer_eq_none (h : q.offer a = none) : capacity ≤ q.toList.length := by
  unfold offer at h
  split_ifs at h with hlt
  exact Nat.le_of_not_lt hlt

/-- A queue with room accepts every element. -/
theorem exists_offer_eq_some (h : q.toList.length < capacity) (a : α) :
    ∃ q', q.offer a = some q' :=
  ⟨_, dif_pos h⟩

theorem toList_poll (h : q.poll = some (a, q')) : q.toList = a :: q'.toList := by
  obtain ⟨entries, bound⟩ := q
  cases entries with
  | nil => exact absurd h (by simp [poll])
  | cons b rest =>
    obtain ⟨rfl, rfl⟩ := Prod.mk.inj (Option.some_inj.mp h)
    rfl

end BoundedQueue

end Delivery
