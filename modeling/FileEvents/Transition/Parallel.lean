import FileEvents.Transition.Machine

/-!
# Machines side by side

A machine whose states have states of other machines as their parts. With each of its steps a
part takes one step of its own or stays where it is, and so the part goes through a run of its
own machine.

## Main definitions

* `Machine.advance` — one step or none

## Main results

* `ReachableWhere.part` — a part is where a run of its own machine leads
-/

namespace Transition

namespace Machine

variable {σ ℓ τ κ : Type*} {M : Machine σ ℓ} {N : Machine τ κ} {t u : τ} {b : κ}

/-- Takes the step with the label, if there is one. -/
def advance (N : Machine τ κ) (t : τ) : Option κ → Option τ
  | none => some t
  | some b => N.next t b

@[simp] theorem advance_none : N.advance t none = some u ↔ t = u := Option.some_inj

@[simp] theorem advance_some : N.advance t (some b) = N.next t b := rfl

/-- The steps of the part are told by the labels of the whole. -/
theorem ReachableWhere.part {allowed : σ → ℓ → Prop} {admitted : τ → κ → Prop} {s : σ}
    (reach : M.ReachableWhere allowed s) (f : σ → τ) (label : ℓ → Option κ)
    (init : f M.start = N.start)
    (admits : ∀ s a b, allowed s a → label a = some b → admitted (f s) b)
    (advances : ∀ s a t, M.next s a = some t → N.advance (f s) (label a) = some (f t)) :
    N.ReachableWhere admitted (f s) := by
  refine reach.map f init fun s a t meets step => ?_
  have own := advances s a t step
  cases named : label a with
  | none =>
    rw [named, advance_none] at own
    exact .inl own.symm
  | some b =>
    rw [named, advance_some] at own
    exact .inr ⟨b, admits s a b meets named, own⟩

end Machine

end Transition
