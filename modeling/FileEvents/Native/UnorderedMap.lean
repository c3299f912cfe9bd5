import Mathlib.Data.List.AList

/-!
# Unordered maps

The lookups after the operations of `unordered_map` that the servers use, over Mathlib's
association lists with unique keys.
-/

namespace FileEvents

variable {α β : Type} [DecidableEq α] {m : AList fun _ : α => β} {a b : α} {v : β}

/-- `unordered_map::emplace`, which leaves an existing entry as it is. -/
def emplace (m : AList fun _ : α => β) (a : α) (b : β) : AList fun _ : α => β :=
  if a ∈ m then m else m.insert a b

theorem mem_iff_lookup : a ∈ m ↔ ∃ v, m.lookup a = some v := by
  rw [← AList.lookup_isSome, Option.isSome_iff_exists]

theorem lookup_insert_eq : (m.insert a v).lookup b = if b = a then some v else m.lookup b := by
  split_ifs with same
  · rw [same, AList.lookup_insert]
  · exact AList.lookup_insert_ne same

theorem lookup_erase_eq : (m.erase a).lookup b = if b = a then none else m.lookup b := by
  split_ifs with same
  · rw [same, AList.lookup_erase]
  · exact AList.lookup_erase_ne same

theorem emplace_of_not_mem (h : a ∉ m) : emplace m a v = m.insert a v := if_neg h

theorem mem_emplace : b ∈ emplace m a v ↔ b = a ∨ b ∈ m := by
  unfold emplace
  split_ifs with known
  · exact ⟨.inr, fun mem => mem.elim (fun same => same ▸ known) id⟩
  · exact AList.mem_insert m

/-! ## Conditions on all entries -/

/-- Every value of the map meets a condition. -/
def Every (m : AList fun _ : α => β) (P : β → Prop) : Prop := ∀ a v, m.lookup a = some v → P v

theorem every_insert_iff {P : β → Prop} :
    Every (m.insert a v) P ↔ P v ∧ ∀ b w, b ≠ a → m.lookup b = some w → P w := by
  refine ⟨fun all => ⟨all a v (AList.lookup_insert m), fun b w other mem => ?_⟩, ?_⟩
  · exact all b w ((AList.lookup_insert_ne other).trans mem)
  · rintro ⟨new, old⟩ b w mem
    rw [lookup_insert_eq] at mem
    split_ifs at mem with same
    · exact Option.some_inj.mp mem ▸ new
    · exact old b w same mem

theorem Every.insert {P : β → Prop} (all : Every m P) (new : P v) : Every (m.insert a v) P :=
  every_insert_iff.mpr ⟨new, fun b w _ => all b w⟩

/-- A map with another value for one key meets a condition exactly if that value does. -/
theorem Every.insert_iff {P : β → Prop} (all : Every m P) : Every (m.insert a v) P ↔ P v :=
  ⟨fun all' => (every_insert_iff.mp all').1, all.insert⟩

theorem Every.erase {P : β → Prop} (all : Every m P) : Every (m.erase a) P := fun b w mem => by
  rw [lookup_erase_eq] at mem
  split_ifs at mem
  exact all b w mem

theorem Every.emplace {P : β → Prop} (all : Every m P) (new : P v) :
    Every (emplace m a v) P := by
  unfold FileEvents.emplace
  split_ifs
  · exact all
  · exact all.insert new

/-! ## Several new entries -/

/-- The map has grown by an entry for each of these elements, under new and distinct keys. -/
structure Grows {γ : Type} (key : γ → α) (value : γ → β) (before : AList fun _ : α => β)
    (elements : List γ) (after : AList fun _ : α => β) : Prop where
  lookup : ∀ a, after.lookup a =
    ((elements.find? fun element => key element = a).map value).or (before.lookup a)
  new : ∀ element ∈ elements, key element ∉ before
  distinct : (elements.map key).Nodup

/-- One entry is new, and then more of them. -/
theorem Grows.cons {γ : Type} {key : γ → α} {value : γ → β} {before middle after : AList _}
    {element : γ} {elements : List γ} (first : Grows key value before [element] middle)
    (rest : Grows key value middle elements after) :
    Grows key value before (element :: elements) after := by
  have entry : middle.lookup (key element) = some (value element) := by simp [first.lookup]
  -- The others come to a map that has the key already.
  have others : ∀ other ∈ elements, key other ≠ key element := fun other mem same =>
    rest.new other mem (same ▸ mem_iff_lookup.mpr ⟨_, entry⟩)
  constructor
  case lookup =>
    intro a
    rw [rest.lookup, first.lookup, List.find?_cons]
    by_cases same : key element = a
    · have none : elements.find? (fun other => key other = a) = none :=
        List.find?_eq_none.mpr fun other mem => by simp [← same, others other mem]
      simp [same, none]
    · simp [same]
  case new =>
    intro other mem
    rcases List.mem_cons.mp mem with rfl | mem
    · exact first.new other (List.mem_singleton_self other)
    · intro old
      obtain ⟨found, old⟩ := mem_iff_lookup.mp old
      refine rest.new other mem (mem_iff_lookup.mpr ⟨found, ?_⟩)
      simp [first.lookup, (others other mem).symm, old]
  case distinct =>
    refine List.nodup_cons.mpr ⟨fun mem => ?_, rest.distinct⟩
    obtain ⟨other, mem, same⟩ := List.mem_map.mp mem
    exact others other mem same

end FileEvents
