import Mathlib.Data.Finset.Basic
import Mathlib.Data.Finset.SDiff

/-!
# Sets filled and emptied by lists

A finite set that lists of elements are inserted into and erased from, one element after the
other. Inserting stops at the first element that is in the set already. Erasing goes through
the whole list and tells whether every element was in the set at its turn.

An element may also be refused when it is inserted, and a complaint about an element that is
not there may stop the erasing.

## Main definitions

* `insertAll`, `eraseAll` — the two operations
* `insertGranted`, `eraseComplaining` — the same with refusals and complaints

## Main results

* `insertAll_eq_none_iff`, `insertAll_eq_some` — where inserting stops
* `eraseAll_snd`, `eraseAll_fst_iff` — what is left, and when all elements were there
-/

namespace Delivery

variable {α : Type*} [DecidableEq α] {S : Finset α} {a : α} {l : List α}

/-- Inserts the elements in order up to the first one that is in the set, which is returned. -/
def insertAll (S : Finset α) : List α → Option α × Finset α
  | [] => (none, S)
  | a :: l => if a ∈ S then (some a, S) else insertAll (insert a S) l

/-- Erases the elements in order, and tells whether each was in the set at its turn. -/
def eraseAll (S : Finset α) : List α → Bool × Finset α
  | [] => (true, S)
  | a :: l => (decide (a ∈ S) && (eraseAll (S.erase a) l).1, (eraseAll (S.erase a) l).2)

@[simp] theorem insertAll_nil : insertAll S [] = (none, S) := rfl

theorem insertAll_cons_of_mem (mem : a ∈ S) : insertAll S (a :: l) = (some a, S) := if_pos mem

theorem insertAll_cons_of_notMem (absent : a ∉ S) :
    insertAll S (a :: l) = insertAll (insert a S) l := if_neg absent

@[simp] theorem eraseAll_nil : eraseAll S [] = (true, S) := rfl

theorem eraseAll_cons_of_mem (mem : a ∈ S) : eraseAll S (a :: l) = eraseAll (S.erase a) l := by
  simp [eraseAll, mem]

theorem eraseAll_cons_of_notMem (absent : a ∉ S) :
    eraseAll S (a :: l) = (false, (eraseAll S l).2) := by
  simp [eraseAll, absent]

/-- Everything is inserted if the elements are new and differ from one another. -/
theorem insertAll_eq_none_iff : (insertAll S l).1 = none ↔ l.Nodup ∧ ∀ a ∈ l, a ∉ S := by
  induction l generalizing S with
  | nil => simp
  | cons a l ih =>
    by_cases mem : a ∈ S
    · simp [insertAll_cons_of_mem mem, mem]
    · rw [insertAll_cons_of_notMem mem, ih, List.nodup_cons, List.forall_mem_cons]
      constructor
      · rintro ⟨nodup, new⟩
        refine ⟨⟨fun again => ?_, nodup⟩, mem, fun b listed => ?_⟩
        · exact new a again (Finset.mem_insert_self a S)
        · exact fun old => new b listed (Finset.mem_insert_of_mem old)
      · rintro ⟨⟨once, nodup⟩, -, new⟩
        refine ⟨nodup, fun b listed inserted => ?_⟩
        rcases Finset.mem_insert.mp inserted with rfl | old
        · exact once listed
        · exact new b listed old

/-- Otherwise the elements before the first one that is in the set are inserted. -/
theorem insertAll_eq_some (stopped : (insertAll S l).1 = some a) :
    ∃ before after, l = before ++ a :: after ∧
      insertAll S before = (none, (insertAll S l).2) ∧ a ∈ (insertAll S l).2 := by
  induction l generalizing S with
  | nil => cases stopped
  | cons b l ih =>
    by_cases mem : b ∈ S
    · rw [insertAll_cons_of_mem mem] at stopped ⊢
      obtain rfl := Option.some_inj.mp stopped
      exact ⟨[], l, rfl, rfl, mem⟩
    · rw [insertAll_cons_of_notMem mem] at stopped ⊢
      obtain ⟨before, after, rfl, inserted, again⟩ := ih stopped
      refine ⟨b :: before, after, rfl, ?_, again⟩
      rw [insertAll_cons_of_notMem mem, inserted]

theorem eraseAll_snd : (eraseAll S l).2 = S \ l.toFinset := by
  induction l generalizing S with
  | nil => simp
  | cons a l ih =>
    rw [eraseAll, ih, List.toFinset_cons]
    ext b
    simp only [Finset.mem_sdiff, Finset.mem_erase, Finset.mem_insert]
    tauto

/-- Each element is there at its turn if it is there at the start and listed once. -/
theorem eraseAll_fst_iff : (eraseAll S l).1 = true ↔ l.Nodup ∧ ∀ a ∈ l, a ∈ S := by
  induction l generalizing S with
  | nil => simp
  | cons a l ih =>
    rw [eraseAll, Bool.and_eq_true, decide_eq_true_eq, ih, List.nodup_cons, List.forall_mem_cons]
    constructor
    · rintro ⟨mem, nodup, there⟩
      refine ⟨⟨fun again => ?_, nodup⟩, mem, fun b listed => ?_⟩
      · exact Finset.notMem_erase a S (there a again)
      · exact Finset.mem_of_mem_erase (there b listed)
    · rintro ⟨⟨once, nodup⟩, mem, there⟩
      refine ⟨mem, nodup, fun b listed => Finset.mem_erase.mpr ⟨?_, there b listed⟩⟩
      rintro rfl
      exact once listed

/-! ## Refusals and complaints -/

section Refusals

variable {ε : Type*}

/-- Inserts the elements in order up to the first one that is in the set or is refused. That
one is returned, with the reason for the refusal. -/
def insertGranted (S : Finset α) : List (α × Option ε) → Option (α × Option ε) × Finset α
  | [] => (none, S)
  | (a, refusal) :: l =>
    if a ∈ S then (some (a, none), S)
    else match refusal with
      | some reason => (some (a, some reason), S)
      | none => insertGranted (insert a S) l

/-- Erases the elements in order, and tells whether each was in the set at its turn. One that
was not may raise a complaint, which ends it. -/
def eraseComplaining (S : Finset α) : List (α × Option ε) → Except ε Bool × Finset α
  | [] => (.ok true, S)
  | (a, complaint) :: l =>
    if a ∈ S then eraseComplaining (S.erase a) l
    else match complaint with
      | some e => (.error e, S)
      | none =>
        ((eraseComplaining S l).1.map fun _ => false, (eraseComplaining S l).2)

end Refusals

end Delivery
