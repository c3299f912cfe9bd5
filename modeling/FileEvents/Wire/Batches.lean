import Mathlib.Data.List.Basic

/-!
# Batches that fit

A reader with a buffer of limited size takes whole items from the front of a queue, as many as
fit. What is queued behind is taken along only if everything in front fits together with it.

## Main definitions

* `totalSize` — the size of some items
* `fitting` — the items at the front of a queue that fit

## Main results

* `fitting_prefix` — a batch is a beginning of the queue
* `fitting_append_of_blocked` — behind items that do not fit with it, an item makes no difference
* `prefix_fitting_append` — items that fit together are taken together
-/

namespace Wire

variable {α : Type*} {size : α → ℕ} {capacity : ℕ} {item : α} {items more : List α}

/-- The size of some items. -/
def totalSize (size : α → ℕ) : List α → ℕ
  | [] => 0
  | item :: items => size item + totalSize size items

@[simp] theorem totalSize_nil : totalSize size [] = 0 := rfl

@[simp] theorem totalSize_cons :
    totalSize size (item :: items) = size item + totalSize size items := rfl

@[simp] theorem totalSize_append :
    totalSize size (items ++ more) = totalSize size items + totalSize size more := by
  induction items with
  | nil => rw [List.nil_append, totalSize_nil, Nat.zero_add]
  | cons item items ih => rw [List.cons_append, totalSize_cons, totalSize_cons, ih, Nat.add_assoc]

/-- The items at the front of a queue that fit. -/
def fitting (size : α → ℕ) : ℕ → List α → List α
  | _, [] => []
  | capacity, item :: items =>
    if size item ≤ capacity then item :: fitting size (capacity - size item) items else []

theorem fitting_prefix : fitting size capacity items <+: items := by
  induction items generalizing capacity with
  | nil => exact List.prefix_rfl
  | cons item items ih =>
    rw [fitting]
    split_ifs
    · exact (List.prefix_cons_inj item).mpr ih
    · exact List.nil_prefix

/-- The size of the queue is that of the batch and of what is left. -/
theorem totalSize_fitting_add : totalSize size (fitting size capacity items) +
    totalSize size (items.drop (fitting size capacity items).length) = totalSize size items := by
  rw [← totalSize_append, List.prefix_iff_eq_append.mp fitting_prefix]

/-- An item that does not fit together with those in front of it changes nothing. -/
theorem fitting_append_of_blocked (blocked : capacity < totalSize size items + size item) :
    fitting size capacity (items ++ item :: more) = fitting size capacity items := by
  induction items generalizing capacity with
  | nil =>
    rw [totalSize_nil, Nat.zero_add] at blocked
    simp only [List.nil_append, fitting, if_neg (Nat.not_le.mpr blocked)]
  | cons other items ih =>
    rw [totalSize_cons] at blocked
    rw [List.cons_append, fitting, fitting]
    split_ifs with fits
    · rw [ih (by omega)]
    · rfl

/-- Items that fit together are taken together. -/
theorem prefix_fitting_append (fits : totalSize size items ≤ capacity) :
    items <+: fitting size capacity (items ++ more) := by
  induction items generalizing capacity with
  | nil => exact List.nil_prefix
  | cons item items ih =>
    rw [totalSize_cons] at fits
    rw [List.cons_append, fitting, if_pos (by omega)]
    exact (List.prefix_cons_inj item).mpr (ih (by omega))

/-- A queue that fits is taken as a whole. -/
theorem fitting_eq_self (fits : totalSize size items ≤ capacity) :
    fitting size capacity items = items := by
  have whole := @prefix_fitting_append _ size capacity items [] fits
  rw [List.append_nil] at whole
  exact fitting_prefix.eq_of_length_le whole.length_le

end Wire
