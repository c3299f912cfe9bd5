import Mathlib.Data.List.Infix
import Mathlib.Data.List.Pairwise

/-!
# Deliveries with marked gaps

A producer reports values one after another; what the consumer gets is a list of
values, each stamped with the number of the report it comes from. Values may be
lost, but only by cutting the delivered list off at some point and putting a
marker there. This file says what such a delivery still tells the consumer: its
unmarked values are a subsequence of the reports, and every lost report lies in a
gap that a marker stands in.

## Main definitions

* `Marked` — a marker stands where a given report is missing
* `Faithful` — a delivery accounts for a log of reports
* `Accounted` — a lost report of a protected kind has a later marker

## Main results

* `Faithful.deliver`, `Faithful.truncate`, `Faithful.truncate_deliver` — the three
  ways to extend a log keep the delivery faithful
-/

namespace Delivery

variable {α : Type*} {marker : α → Prop} {log : List α}
variable {delivered kept : List (α × ℕ)} {x : α × ℕ} {e m : α} {i : ℕ}

/-- A marker stands in `delivered` at the place of report number `i`: nothing
before it was reported after `i`, and everything behind it was. -/
def Marked (marker : α → Prop) (delivered : List (α × ℕ)) (i : ℕ) : Prop :=
  ∃ before m after, delivered = before ++ m :: after ∧ marker m.1 ∧ i ≤ m.2 ∧
    (∀ x ∈ before, x.2 ≤ i) ∧ ∀ x ∈ after, i < x.2

/-- A marker keeps its place when later values are delivered behind it. -/
theorem Marked.append (h : Marked marker delivered i) {later : List (α × ℕ)}
    (hlater : ∀ x ∈ later, i < x.2) : Marked marker (delivered ++ later) i := by
  obtain ⟨before, m, after, rfl, hm, him, hbefore, hafter⟩ := h
  refine ⟨before, m, after ++ later, by simp, hm, him, hbefore, fun x hx => ?_⟩
  rcases List.mem_append.mp hx with hx | hx
  · exact hafter x hx
  · exact hlater x hx

/-- `delivered` accounts for the reports of `log`: stamps run in report order, the
values that are no markers are a subsequence of the reports, and where a report is
missing a marker stands. -/
structure Faithful (marker : α → Prop) [DecidablePred marker] (log : List α)
    (delivered : List (α × ℕ)) : Prop where
  /-- Deliveries follow the order of the reports. -/
  sorted : delivered.Pairwise fun x y => x.2 ≤ y.2
  /-- Only reports of the log are delivered. -/
  stamp_lt : ∀ x ∈ delivered, x.2 < log.length
  /-- Unmarked values are reports, in order and each once. -/
  sublist : (delivered.filter fun x => ¬ marker x.1).Sublist log.zipIdx
  /-- Every missing report lies in a marked gap. -/
  marked : ∀ x ∈ log.zipIdx, x ∉ delivered → Marked marker delivered x.2

theorem mem_zipIdx_concat (log : List α) (e : α) (x : α × ℕ) :
    x ∈ (log ++ [e]).zipIdx ↔ x ∈ log.zipIdx ∨ x = (e, log.length) := by
  simp [List.zipIdx_append]

theorem snd_lt_of_mem_zipIdx (h : x ∈ log.zipIdx) : x.2 < log.length := by
  obtain ⟨a, i⟩ := x
  simpa using List.snd_lt_of_mem_zipIdx h

theorem zipIdx_sublist_concat (log : List α) (e : α) :
    log.zipIdx.Sublist (log ++ [e]).zipIdx := by
  rw [List.zipIdx_append]
  exact List.sublist_append_left _ _

namespace Faithful

variable [DecidablePred marker]

theorem nil : Faithful marker ([] : List α) [] where
  sorted := .nil
  stamp_lt := by simp
  sublist := by simp
  marked := by simp

/-- A report that is missing from the part of a faithful delivery that is kept
either has its marker there or was reported after everything kept. -/
theorem missing_of_kept (h : Faithful marker log delivered) (hkept : kept <+: delivered)
    (hx : x ∈ log.zipIdx) (hmissing : x ∉ kept) :
    Marked marker kept x.2 ∨ ∀ y ∈ kept, y.2 ≤ x.2 := by
  obtain ⟨dropped, rfl⟩ := hkept
  by_cases hxd : x ∈ dropped
  · exact Or.inr fun y hy => (List.pairwise_append.mp h.sorted).2.2 y hy x hxd
  · have hxall : x ∉ kept ++ dropped := by simp [hmissing, hxd]
    obtain ⟨before, m, after, heq, hm, him, hbefore, hafter⟩ := h.marked x hx hxall
    rcases List.append_eq_append_iff.mp heq with ⟨mid, rfl, -⟩ | ⟨mid, rfl, hmid⟩
    · -- the cut is at or before the marker
      exact Or.inr fun y hy => hbefore y (List.mem_append_left _ hy)
    · cases mid with
      | nil => exact Or.inr fun y hy => hbefore y (by simpa using hy)
      | cons m' mid =>
        obtain ⟨rfl, rfl⟩ := List.cons.inj hmid
        exact Or.inl ⟨before, m, mid, rfl, hm, him, hbefore,
          fun y hy => hafter y (List.mem_append_left _ hy)⟩

/-- Reporting a value and delivering it. -/
theorem deliver (h : Faithful marker log delivered) (e : α) :
    Faithful marker (log ++ [e]) (delivered ++ [(e, log.length)]) where
  sorted := by
    refine List.pairwise_append.mpr ⟨h.sorted, List.pairwise_singleton _ _, ?_⟩
    intro y hy z hz
    rw [List.mem_singleton.mp hz]
    exact (h.stamp_lt y hy).le
  stamp_lt := by
    intro y hy
    rw [List.length_append, List.length_singleton]
    rcases List.mem_append.mp hy with hy | hy
    · exact (h.stamp_lt y hy).trans (Nat.lt_succ_self _)
    · rw [List.mem_singleton.mp hy]
      exact Nat.lt_succ_self _
  sublist := by
    rw [List.filter_append, List.zipIdx_append]
    apply h.sublist.append
    by_cases hm : marker e <;> simp [hm]
  marked := by
    intro x hx hmissing
    rw [List.mem_append, not_or] at hmissing
    rcases (mem_zipIdx_concat log e x).mp hx with hx | rfl
    · apply (h.marked x hx hmissing.1).append
      intro y hy
      rw [List.mem_singleton.mp hy]
      exact snd_lt_of_mem_zipIdx hx
    · exact absurd (List.mem_singleton_self _) hmissing.2

/-- Cutting a delivery off, with a marker at the cut that carries the number of the
report that caused it and, behind it, nothing else but that report. -/
private theorem cut (h : Faithful marker log delivered) (hkept : kept <+: delivered)
    (e : α) (hm : marker m) {tail : List (α × ℕ)}
    (htail : tail = [] ∨ tail = [(e, log.length)]) :
    Faithful marker (log ++ [e]) (kept ++ (m, log.length) :: tail) := by
  -- The marker and what is behind it have the number of the new report, the others lower ones.
  have stamp_tail : ∀ y ∈ (m, log.length) :: tail, y.2 = log.length := by
    rcases htail with rfl | rfl <;> simp
  have stamp_kept : ∀ y ∈ kept, y.2 < log.length := fun y hy =>
    h.stamp_lt y (hkept.subset hy)
  constructor
  · refine List.pairwise_append.mpr ⟨h.sorted.sublist hkept.sublist, ?_, ?_⟩
    · rcases htail with rfl | rfl <;> simp
    · intro y hy z hz
      rw [stamp_tail z hz]
      exact (stamp_kept y hy).le
  · intro y hy
    rw [List.length_append, List.length_singleton]
    rcases List.mem_append.mp hy with hy | hy
    · exact (stamp_kept y hy).trans (Nat.lt_succ_self _)
    · rw [stamp_tail y hy]
      exact Nat.lt_succ_self _
  · rw [List.filter_append, List.zipIdx_append]
    apply ((hkept.sublist.filter _).trans h.sublist).append
    rcases htail with rfl | rfl
    · simp [hm]
    · by_cases he : marker e <;> simp [hm, he]
  · intro x hx hmissing
    rw [List.mem_append, not_or] at hmissing
    rcases (mem_zipIdx_concat log e x).mp hx with hx | rfl
    · have hlt := snd_lt_of_mem_zipIdx hx
      -- An older report is missing because of a gap that was marked before, or of this one.
      rcases h.missing_of_kept hkept hx hmissing.1 with hmarked | hbefore
      · exact hmarked.append fun y hy => stamp_tail y hy ▸ hlt
      · exact ⟨kept, (m, log.length), tail, rfl, hm, hlt.le, hbefore,
          fun y hy => stamp_tail y (List.mem_cons_of_mem _ hy) ▸ hlt⟩
    · rcases htail with rfl | rfl
      · exact ⟨kept, (m, log.length), [], rfl, hm, le_rfl,
          fun y hy => (stamp_kept y hy).le, by simp⟩
      · exact absurd (by simp) hmissing.2

/-- Reporting a value that is lost together with the end of the delivery. -/
theorem truncate (h : Faithful marker log delivered) (hkept : kept <+: delivered)
    (e : α) (hm : marker m) :
    Faithful marker (log ++ [e]) (kept ++ [(m, log.length)]) :=
  h.cut hkept e hm (Or.inl rfl)

/-- Reporting a value that is delivered behind the marker of the loss it caused. -/
theorem truncate_deliver (h : Faithful marker log delivered) (hkept : kept <+: delivered)
    (e : α) (hm : marker m) :
    Faithful marker (log ++ [e]) (kept ++ [(m, log.length), (e, log.length)]) :=
  h.cut hkept e hm (Or.inr rfl)

end Faithful

/-! ## Protected reports -/

/-- A report of a protected kind that is missing was lost to a report made later:
a marker with a larger number is delivered. -/
def Accounted (marker isProtected : α → Prop) (log : List α) (delivered : List (α × ℕ)) :
    Prop :=
  ∀ x ∈ log.zipIdx, isProtected x.1 → x ∉ delivered →
    ∃ m ∈ delivered, marker m.1 ∧ x.2 < m.2

namespace Accounted

variable {isProtected : α → Prop}

theorem nil : Accounted marker isProtected ([] : List α) [] := by
  intro x hx
  simp at hx

theorem deliver (h : Accounted marker isProtected log delivered) (e : α) :
    Accounted marker isProtected (log ++ [e]) (delivered ++ [(e, log.length)]) := by
  intro x hx hp hmissing
  rw [List.mem_append, not_or] at hmissing
  rcases (mem_zipIdx_concat log e x).mp hx with hx | rfl
  · obtain ⟨m, hm, rest⟩ := h x hx hp hmissing.1
    exact ⟨m, List.mem_append_left _ hm, rest⟩
  · exact absurd (List.mem_singleton_self _) hmissing.2

/-- A cut accounts for everything before it; only the report that caused it must be
unprotected or delivered behind the marker. -/
theorem cut (hm : marker m) {tail : List (α × ℕ)}
    (htail : isProtected e → (e, log.length) ∈ tail) :
    Accounted marker isProtected (log ++ [e]) (kept ++ (m, log.length) :: tail) := by
  intro x hx hp hmissing
  rcases (mem_zipIdx_concat log e x).mp hx with hx | rfl
  · exact ⟨(m, log.length), by simp, hm, snd_lt_of_mem_zipIdx hx⟩
  · exact absurd (by simp [htail hp]) hmissing

end Accounted

end Delivery
