import Mathlib.Algebra.BigOperators.Group.Finset.Piecewise
import Mathlib.Data.Fintype.Basic

/-!
# What several threads still have to do

Every thread is somewhere in its program, and every place in the program has a weight. The
workload of the threads is the sum of the weights, and a step of one thread changes it by
what that thread gains or loses.
-/

namespace Concurrency

variable {T P : Type*} [Fintype T]

/-- The weights of the places the threads are at, taken together. -/
def workload (weight : P → ℕ) (pc : T → P) : ℕ := ∑ t, weight (pc t)

variable {weight : P → ℕ} {pc : T → P} {t : T}

/-- One thread moves. -/
theorem workload_update [DecidableEq T] (weight : P → ℕ) (pc : T → P) (t : T) (p : P) :
    workload weight (Function.update pc t p) + weight (pc t) = workload weight pc + weight p := by
  have moved : (fun u => weight (Function.update pc t p u)) =
      Function.update (fun u => weight (pc u)) t (weight p) :=
    Function.comp_update weight pc t p
  unfold workload
  rw [moved, Finset.sum_update_of_mem (Finset.mem_univ t),
    Finset.sum_eq_add_sum_sdiff_singleton_of_mem (Finset.mem_univ t) fun u => weight (pc u)]
  omega

theorem workload_le_update [DecidableEq T] {p : P} (more : weight (pc t) ≤ weight p) :
    workload weight pc ≤ workload weight (Function.update pc t p) := by
  have moved := workload_update weight pc t p
  omega

theorem workload_update_lt [DecidableEq T] {p : P} (fewer : weight p < weight (pc t)) :
    workload weight (Function.update pc t p) < workload weight pc := by
  have moved := workload_update weight pc t p
  omega

theorem workload_eq_zero (free : ∀ t, weight (pc t) = 0) : workload weight pc = 0 :=
  Finset.sum_eq_zero fun t _ => free t

end Concurrency
