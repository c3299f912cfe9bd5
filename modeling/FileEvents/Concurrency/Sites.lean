import Mathlib.Data.List.Sort
import Mathlib.Logic.Function.Basic
import Mathlib.Order.Basic

/-!
# Acts on sites

An act concerns one site and depends only on what it finds there, so acts on different sites
commute and a history may be reordered as long as the order at every site stays. Every act has
an owner. Where the owners come to each site in one and the same order, the history can be
regrouped: all acts of the first owner, then all acts of the second one, and so on.

## Main definitions

* `Sites` — acts, each on one site
* `Sites.replay` — what the acts of a history leave at the sites
* `grouped` — a history owner by owner

## Main results

* `Sites.replay_eq_some_iff` — a history is replayed site by site
* `Sites.replay_grouped` — regrouping leaves the same at all sites
-/

namespace Concurrency

/-- Acts on one site each. An act may be impossible with what it finds. -/
structure Sites (α ι β : Type*) where
  site : α → ι
  act : β → α → Option β

section Replay

variable {α ι β : Type*} [DecidableEq ι] {S : Sites α ι β} {t u : ι → β} {as bs : List α}

/-- What a history leaves at the sites, `none` if one of its acts is impossible. -/
def Sites.replay (S : Sites α ι β) (t : ι → β) : List α → Option (ι → β)
  | [] => some t
  | a :: as =>
    (S.act (t (S.site a)) a).bind fun b => S.replay (Function.update t (S.site a) b) as

theorem Sites.replay_append :
    S.replay t (as ++ bs) = (S.replay t as).bind fun u => S.replay u bs := by
  induction as generalizing t with
  | nil => rfl
  | cons a as ih =>
    simp only [List.cons_append, Sites.replay, ih, Option.bind_assoc]

/-- A history is replayed at every site by itself. -/
theorem Sites.replay_eq_some_iff : S.replay t as = some u ↔
    ∀ i, (as.filter fun a => S.site a = i).foldlM S.act (t i) = some (u i) := by
  induction as generalizing t with
  | nil =>
    simp only [Sites.replay, List.filter_nil, List.foldlM_nil, Option.pure_def,
      Option.some.injEq, funext_iff]
  | cons a as ih =>
    -- The first act comes first at its own site and nowhere else.
    have own : ((a :: as).filter fun b => S.site b = S.site a) =
        a :: as.filter fun b => S.site b = S.site a :=
      List.filter_cons_of_pos (by simp)
    have others {i : ι} (other : i ≠ S.site a) : ((a :: as).filter fun b => S.site b = i) =
        as.filter fun b => S.site b = i :=
      List.filter_cons_of_neg (by simpa using other.symm)
    simp only [Sites.replay, Option.bind_eq_some_iff, ih]
    constructor
    · rintro ⟨b, acts, rest⟩ i
      rcases eq_or_ne i (S.site a) with rfl | other
      · rw [own, List.foldlM_cons]
        have := rest (S.site a)
        rw [Function.update_self] at this
        exact Option.bind_eq_some_iff.mpr ⟨b, acts, this⟩
      · rw [others other]
        simpa only [Function.update_of_ne other] using rest i
    · intro all
      have first := all (S.site a)
      rw [own, List.foldlM_cons] at first
      obtain ⟨b, acts, rest⟩ := Option.bind_eq_some_iff.mp first
      refine ⟨b, acts, fun i => ?_⟩
      rcases eq_or_ne i (S.site a) with rfl | other
      · rwa [Function.update_self]
      · rw [Function.update_of_ne other, ← others other]
        exact all i

end Replay

/-! ## Histories owner by owner -/

section Grouped

variable {α κ : Type*} [DecidableEq κ] {owner : α → κ} {order : List κ} {as : List α}

/-- The acts of a history, owner by owner. -/
def grouped (owner : α → κ) (order : List κ) (as : List α) : List α :=
  order.flatMap fun k => as.filter fun a => owner a = k

theorem filter_grouped {p : α → Bool} :
    (grouped owner order as).filter p = grouped owner order (as.filter p) := by
  simp only [grouped, List.filter_flatMap, List.filter_filter, Bool.and_comm]

/-- The acts of the first owner, and then those of the others. -/
theorem grouped_cons {k : κ} (once : k ∉ order) : grouped owner (k :: order) as =
    (as.filter fun a => owner a = k) ++
      grouped owner order (as.filter fun a => ¬ owner a = k) := by
  rw [grouped, List.flatMap_cons]
  congr 1
  refine List.flatMap_congr fun k' mem => ?_
  have other : k' ≠ k := fun same => once (same ▸ mem)
  rw [List.filter_filter]
  refine List.filter_congr fun a _ => ?_
  by_cases own : owner a = k'
  · simp [own, other]
  · simp [own]

/-- Nothing is lost when a history is regrouped. -/
theorem perm_grouped (once : order.Nodup) (all : ∀ a ∈ as, owner a ∈ order) :
    (grouped owner order as).Perm as := by
  induction order generalizing as with
  | nil =>
    obtain rfl : as = [] := List.eq_nil_iff_forall_not_mem.mpr fun a mem => by
      simpa using all a mem
    exact .nil
  | cons k order ih =>
    obtain ⟨new, once⟩ := List.nodup_cons.mp once
    rw [grouped_cons new]
    have others : ∀ a ∈ as.filter (fun a => ¬ owner a = k), owner a ∈ order := by
      intro a mem
      obtain ⟨mem, other⟩ := List.mem_filter.mp mem
      exact (List.mem_cons.mp (all a mem)).resolve_left (by simpa using other)
    have rest := ih once others
    refine (rest.append_left _).trans ?_
    simpa using List.filter_append_perm (fun a => decide (owner a = k)) as

section Sorted

variable {ρ : Type*} [Preorder ρ] {rank : κ → ρ}

/-- In a sorted history the acts of the first owner come first. -/
theorem filter_append_filter_of_sorted {k : κ}
    (least : ∀ a ∈ as, owner a = k ∨ rank k < rank (owner a))
    (sorted : as.Pairwise fun a b => rank (owner a) ≤ rank (owner b)) :
    (as.filter fun a => owner a = k) ++ (as.filter fun a => ¬ owner a = k) = as := by
  induction as with
  | nil => rfl
  | cons a as ih =>
    obtain ⟨above, sorted⟩ := List.pairwise_cons.mp sorted
    rcases least a List.mem_cons_self with own | higher
    · have rest := ih (fun b mem => least b (List.mem_cons_of_mem a mem)) sorted
      simpa [own] using rest
    · -- Whoever comes after another owner than the first is not the first.
      have none : ∀ b ∈ a :: as, owner b ≠ k := by
        rintro b mem rfl
        rcases List.mem_cons.mp mem with rfl | mem
        · exact lt_irrefl _ higher
        · exact lt_irrefl _ (higher.trans_le (above b mem))
      rw [List.filter_eq_nil_iff.mpr (by simpa using none),
        List.filter_eq_self.mpr (by simpa using none), List.nil_append]

/-- A history that is sorted by owners is grouped already. -/
theorem grouped_of_sorted (ranked : order.Pairwise fun k k' => rank k < rank k')
    (all : ∀ a ∈ as, owner a ∈ order)
    (sorted : as.Pairwise fun a b => rank (owner a) ≤ rank (owner b)) :
    grouped owner order as = as := by
  induction order generalizing as with
  | nil => exact List.perm_nil.mp (perm_grouped List.nodup_nil all).symm ▸ rfl
  | cons k order ih =>
    obtain ⟨first, ranked⟩ := List.pairwise_cons.mp ranked
    have new : k ∉ order := fun mem => lt_irrefl _ (first k mem)
    have others : ∀ a ∈ as.filter (fun a => ¬ owner a = k), owner a ∈ order := by
      intro a mem
      obtain ⟨mem, other⟩ := List.mem_filter.mp mem
      exact (List.mem_cons.mp (all a mem)).resolve_left (by simpa using other)
    have least : ∀ a ∈ as, owner a = k ∨ rank k < rank (owner a) := fun a mem =>
      (List.mem_cons.mp (all a mem)).imp id (first _)
    rw [grouped_cons new, ih ranked others (sorted.filter _)]
    exact filter_append_filter_of_sorted least sorted

/-- Where the owners come to every site in the same order, a history may be regrouped in that
order. -/
theorem Sites.replay_grouped {ι β : Type*} [DecidableEq ι] {S : Sites α ι β} {t u : ι → β}
    (ranked : order.Pairwise fun k k' => rank k < rank k')
    (all : ∀ a ∈ as, owner a ∈ order)
    (sorted : ∀ i, (as.filter fun a => S.site a = i).Pairwise fun a b =>
      rank (owner a) ≤ rank (owner b))
    (replayed : S.replay t as = some u) : S.replay t (grouped owner order as) = some u := by
  rw [replay_eq_some_iff] at replayed ⊢
  intro i
  rw [filter_grouped, grouped_of_sorted ranked ?_ (sorted i)]
  · exact replayed i
  · exact fun a mem => all a (List.mem_filter.mp mem).1

/-- Finitely many owners can be put in order. -/
theorem exists_ranked {κ ρ : Type*} [LinearOrder ρ] {rank : κ → ρ}
    (injective : Function.Injective rank) {owners : List κ} (once : owners.Nodup) :
    ∃ order : List κ, (order.Pairwise fun k k' => rank k < rank k') ∧
      ∀ k, k ∈ order ↔ k ∈ owners := by
  let _ : LinearOrder κ := LinearOrder.lift' rank injective
  have perm := owners.perm_insertionSort (· ≤ ·)
  have sorted := (owners.pairwise_insertionSort (· ≤ ·)).and (perm.nodup_iff.mpr once)
  refine ⟨owners.insertionSort (· ≤ ·), sorted.imp fun both => ?_, fun k => perm.mem_iff⟩
  exact lt_of_le_of_ne both.1 (injective.ne both.2)

end Sorted

end Grouped

end Concurrency
