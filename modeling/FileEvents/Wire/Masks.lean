import Mathlib.Tactic.ByContra

/-!
# Tests of flags

A set of flags is a bit vector, and so is a mask. A test asks whether some flag of the mask is
set. Tests distribute over unions of flags and of masks, and flags do not pass the tests of a
mask that they have nothing in common with.

## Main definitions

* `meets` — some flag of the mask is set
* `Within` — no flag outside the mask is set
-/

namespace Wire

variable {width : Nat} {flags more mask other : BitVec width}

/-- Some flag of the mask is set. -/
def meets (flags mask : BitVec width) : Bool := flags &&& mask != BitVec.ofNat width 0

/-- No flag outside the mask is set. -/
def Within (flags mask : BitVec width) : Prop := flags &&& mask = flags

/-- No flag is outside the mask if none is left when those in it are cleared. -/
theorem within_iff : Within flags mask ↔ flags &&& ~~~ mask = BitVec.ofNat width 0 := by
  constructor
  · intro within
    rw [← within, BitVec.and_assoc, BitVec.and_not_self]
    exact BitVec.and_zero
  · intro cleared
    calc flags &&& mask = (flags &&& mask) ||| (flags &&& ~~~ mask) := by
          rw [cleared, BitVec.or_zero]
      _ = flags := by
          rw [← BitVec.and_or_distrib_left, BitVec.or_not_self, BitVec.and_allOnes]

theorem meets_eq_false_iff : meets flags mask = false ↔ flags &&& mask = BitVec.ofNat width 0 := by
  rw [meets, bne_eq_false_iff_eq]

/-- Flags are tested one by one. -/
theorem meets_or_left : meets (flags ||| more) mask = (meets flags mask || meets more mask) := by
  rw [Bool.eq_iff_iff, Bool.or_eq_true]
  simp only [meets, bne_iff_ne, ne_eq, BitVec.and_or_distrib_right, BitVec.or_eq_zero_iff,
    not_and_or]

/-- Masks are tested one by one. -/
theorem meets_or_right : meets flags (mask ||| other) =
    (meets flags mask || meets flags other) := by
  rw [Bool.eq_iff_iff, Bool.or_eq_true]
  simp only [meets, bne_iff_ne, ne_eq, BitVec.and_or_distrib_left, BitVec.or_eq_zero_iff,
    not_and_or]

/-- Clearing flags that a test does not look at leaves it alone. -/
theorem meets_and (looks : Within mask other) :
    meets (flags &&& other) mask = meets flags mask := by
  rw [meets, meets, BitVec.and_assoc, BitVec.and_comm other, looks]

/-- Flags within a mask fail a test that looks at other flags. -/
theorem meets_eq_false_of_within (within : Within flags mask)
    (apart : mask &&& other = BitVec.ofNat width 0) :
    meets flags other = false := by
  rw [meets_eq_false_iff, ← within, BitVec.and_assoc, apart, BitVec.and_zero]

/-- Flags within a mask pass the test of the mask, unless there are none. -/
theorem meets_eq_true_of_within (within : Within flags mask) (some : flags ≠ BitVec.ofNat width 0) :
    meets flags mask = true := by
  rw [meets, within, bne_iff_ne]
  exact some

/-- A test passes if one that looks at fewer flags does. -/
theorem meets_of_meets (fewer : Within mask other) (passes : meets flags mask = true) :
    meets flags other = true := by
  by_contra fails
  rw [Bool.not_eq_true, meets_eq_false_iff] at fails
  have none : flags &&& mask = BitVec.ofNat width 0 := by
    rw [← fewer, BitVec.and_comm mask, ← BitVec.and_assoc, fails, BitVec.zero_and]
  rw [meets_eq_false_iff.mpr none] at passes
  cases passes

end Wire
