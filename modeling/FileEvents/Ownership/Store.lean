import Mathlib.Data.List.Basic
import Mathlib.Logic.Function.Basic

/-!
# Objects and their owners

A store keeps every object that was ever created, numbered in the order of creation, each in
the state the operations on it have brought it to. Some of the objects are alive, and each of
these has one owner, who is to end its life.

## Main definitions

* `Owns` — the objects that are alive are those that have an owner

## Main results

* `Owns.create`, `Owns.createDead`, `Owns.kill` — how operations change it
-/

namespace Ownership

variable {σ κ : Type*} {Alive : σ → Prop} {store : List σ} {holds : κ → Option ℕ}
variable {k : κ} {i : ℕ} {o : σ}

/-- The objects that are alive are those that have an owner, and each has only one. -/
structure Owns (Alive : σ → Prop) (store : List σ) (holds : κ → Option ℕ) : Prop where
  once : ∀ k l i, holds k = some i → holds l = some i → k = l
  alive : ∀ i, (∃ k, holds k = some i) ↔ ∃ o, store[i]? = some o ∧ Alive o

namespace Owns

theorem empty : Owns Alive ([] : List σ) fun _ : κ => none where
  once := nofun
  alive := by simp

/-- A new object has no owner yet. -/
theorem fresh (owns : Owns Alive store holds) (k : κ) : holds k ≠ some store.length := by
  intro held
  obtain ⟨o, found, -⟩ := (owns.alive store.length).mp ⟨k, held⟩
  simp at found

theorem found (owns : Owns Alive store holds) (held : holds k = some i) :
    ∃ o, store[i]? = some o ∧ Alive o := (owns.alive i).mp ⟨k, held⟩

/-- What a store finds after an object was created. -/
theorem getElem?_snoc_iff {j : ℕ} {p : σ} : (store ++ [o])[j]? = some p ↔
    store[j]? = some p ∨ (j = store.length ∧ p = o) := by
  rw [List.getElem?_append]
  rcases Nat.lt_trichotomy j store.length with below | rfl | above
  · simp [below, Nat.ne_of_lt below]
  · simp [eq_comm]
  · have beyond : j - store.length ≠ 0 := Nat.sub_ne_zero_of_lt above
    simp [Nat.not_lt_of_gt above, Nat.ne_of_gt above, beyond]

/-- An object is created for somebody who owns none. -/
theorem create [DecidableEq κ] (owns : Owns Alive store holds) (free : holds k = none)
    (alive : Alive o) :
    Owns Alive (store ++ [o]) (Function.update holds k (some store.length)) where
  once := fun a b i ha hb => by
    rw [Function.update_apply] at ha hb
    split_ifs at ha hb with isA isB isB
    · exact isA.trans isB.symm
    · exact absurd (ha ▸ hb) (owns.fresh b)
    · exact absurd (hb ▸ ha) (owns.fresh a)
    · exact owns.once a b i ha hb
  alive := fun i => by
    have older : (∃ a, Function.update holds k (some store.length) a = some i) ↔
        (∃ a, holds a = some i) ∨ i = store.length := by
      constructor
      · rintro ⟨a, held⟩
        rw [Function.update_apply] at held
        split_ifs at held
        · exact .inr (Option.some_inj.mp held).symm
        · exact .inl ⟨a, held⟩
      · rintro (⟨a, held⟩ | rfl)
        · have other : a ≠ k := fun same => by simp [same, free] at held
          exact ⟨a, by rw [Function.update_of_ne other, held]⟩
        · exact ⟨k, Function.update_self ..⟩
    rw [older, owns.alive i]
    simp only [getElem?_snoc_iff]
    constructor
    · rintro (⟨p, found, alive⟩ | rfl)
      · exact ⟨p, .inl found, alive⟩
      · exact ⟨o, .inr ⟨rfl, rfl⟩, alive⟩
    · rintro ⟨p, found | ⟨rfl, -⟩, alive⟩
      · exact .inl ⟨p, found, alive⟩
      · exact .inr rfl

/-- An object is created and its life is ended before anybody owns it. -/
theorem createDead (owns : Owns Alive store holds) (dead : ¬ Alive o) :
    Owns Alive (store ++ [o]) holds where
  once := owns.once
  alive := fun i => by
    rw [owns.alive i]
    simp only [getElem?_snoc_iff]
    constructor
    · rintro ⟨p, found, alive⟩
      exact ⟨p, .inl found, alive⟩
    · rintro ⟨p, found | ⟨-, rfl⟩, alive⟩
      · exact ⟨p, found, alive⟩
      · exact absurd alive dead

/-- The owner of an object ends its life. -/
theorem kill [DecidableEq κ] (owns : Owns Alive store holds) (held : holds k = some i)
    (dead : ¬ Alive o) : Owns Alive (store.set i o) (Function.update holds k none) where
  once := fun a b j ha hb => by
    rw [Function.update_apply] at ha hb
    split_ifs at ha hb
    exact owns.once a b j ha hb
  alive := fun j => by
    obtain ⟨p, found, -⟩ := owns.found held
    have inside := (List.getElem?_eq_some_iff.mp found).1
    by_cases same : j = i
    · subst same
      have none : ¬ ∃ a, Function.update holds k none a = some j := by
        rintro ⟨a, other⟩
        rw [Function.update_apply] at other
        split_ifs at other with own
        exact own (owns.once a k j other held)
      simp [none, List.getElem?_set_self inside, dead]
    · rw [List.getElem?_set_ne (Ne.symm same), ← owns.alive j]
      refine exists_congr fun a => ?_
      rw [Function.update_apply]
      split_ifs with own
      · simp [own, held, Ne.symm same]
      · rfl

/-- Where nobody owns anything every object has ended its life. -/
theorem dead_of_none (owns : Owns Alive store holds) (none : ∀ k, holds k = none)
    (mem : o ∈ store) : ¬ Alive o := by
  intro alive
  obtain ⟨i, found⟩ := List.getElem?_of_mem mem
  obtain ⟨k, held⟩ := (owns.alive i).mpr ⟨o, found, alive⟩
  rw [none k] at held
  cases held

end Owns

end Ownership
