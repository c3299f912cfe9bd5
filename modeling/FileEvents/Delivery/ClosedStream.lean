import Mathlib.Data.List.Basic

/-!
# Streams with a closing element

A stream of elements, some of which close it: nothing may follow a closing element. An
open stream has none, a stream that closes only at its end has at most one, and either
property survives losing elements anywhere.
-/

namespace Delivery

variable {α : Type*} {closes : α → Prop} {l l' : List α} {e : α}

/-- No element closes the stream. -/
def Open (closes : α → Prop) (l : List α) : Prop := ∀ e ∈ l, ¬ closes e

/-- Only the last element may close the stream. -/
def ClosesAtEnd (closes : α → Prop) (l : List α) : Prop := Open closes l.dropLast

namespace Open

@[simp] theorem nil : Open closes [] := by simp [Open]

theorem closesAtEnd (h : Open closes l) : ClosesAtEnd closes l := fun e mem =>
  h e (List.dropLast_subset l mem)

theorem sublist (h : Open closes l) (sub : List.Sublist l' l) : Open closes l' := fun e mem =>
  h e (sub.subset mem)

theorem concat (h : Open closes l) (stays : ¬ closes e) : Open closes (l ++ [e]) := by
  intro x mem
  rcases List.mem_append.mp mem with mem | mem
  · exact h x mem
  · exact List.mem_singleton.mp mem ▸ stays

/-- An open stream may go on until it is closed. -/
theorem append (h : Open closes l) (h' : ClosesAtEnd closes l') : ClosesAtEnd closes (l ++ l') := by
  rcases l'.eq_nil_or_concat with rfl | ⟨l', e, rfl⟩
  · rw [List.append_nil]
    exact h.closesAtEnd
  · rw [List.concat_eq_append, ← List.append_assoc] at *
    unfold ClosesAtEnd at h' ⊢
    rw [List.dropLast_concat] at h' ⊢
    intro x mem
    exact (List.mem_append.mp mem).elim (h x) (h' x)

/-- An open stream may be closed. -/
theorem close (h : Open closes l) : ClosesAtEnd closes (l ++ [e]) := by
  simpa [ClosesAtEnd] using h

end Open

namespace ClosesAtEnd

@[simp] theorem nil : ClosesAtEnd closes [] := by simp [ClosesAtEnd]

theorem sublist (h : ClosesAtEnd closes l) (sub : List.Sublist l' l) : ClosesAtEnd closes l' := by
  rcases l'.eq_nil_or_concat with rfl | ⟨l', e, rfl⟩
  · exact nil
  · -- `e` is matched in `l`, and all of `l'` before it, so not by the last element.
    rw [List.concat_eq_append] at sub ⊢
    obtain ⟨first, second, rfl, before, matched⟩ := List.append_sublist_iff.mp sub
    have nonempty : second ≠ [] := by
      rintro rfl
      simp at matched
    apply Open.sublist h
    rw [List.dropLast_concat, List.dropLast_append_of_ne_nil nonempty]
    exact before.trans (List.sublist_append_left _ _)

theorem tail (h : ClosesAtEnd closes (e :: l)) : ClosesAtEnd closes l :=
  h.sublist (List.sublist_cons_self e l)

/-- Nothing follows a closing element. -/
theorem eq_nil_of_closes (h : ClosesAtEnd closes (e :: l)) (closed : closes e) : l = [] := by
  cases l with
  | nil => rfl
  | cons x l => exact absurd closed (h e (by simp))

/-- Nothing follows a part that has a closing element. -/
theorem eq_nil_of_append (h : ClosesAtEnd closes (l ++ l')) (mem : e ∈ l) (closed : closes e) :
    l' = [] := by
  induction l with
  | nil => cases mem
  | cons x l ih =>
    rcases List.mem_cons.mp mem with rfl | mem
    · exact (List.append_eq_nil_iff.mp (h.eq_nil_of_closes closed)).2
    · exact ih h.tail mem

/-- At most one element closes the stream. -/
theorem countP_le_one [DecidablePred closes] (h : ClosesAtEnd closes l) :
    l.countP (fun e => closes e) ≤ 1 := by
  induction l with
  | nil => simp
  | cons e l ih =>
    rw [List.countP_cons]
    by_cases closed : closes e
    · simp [h.eq_nil_of_closes closed, closed]
    · simpa [closed] using ih h.tail

end ClosesAtEnd

end Delivery
