import Mathlib.Algebra.Ring.Nat
import Mathlib.Data.List.Basic

/-!
# Numbers and strings in byte buffers

Unsigned numbers of a fixed width, least significant byte first, and strings that end with a
NUL. What was laid out is read back, whatever follows it in the buffer.

## Main definitions

* `toBytes`, `ofBytes` — the bytes of a number, and the number that bytes stand for
* `word` — the 32-bit number at the beginning of a buffer
* `cString` — the string at the beginning of a buffer
* `wideBytes`, `wideCString` — the same for strings of 16-bit units
-/

namespace Wire

/-- The lowest bytes of a number, least significant first. -/
def toBytes : ℕ → ℕ → List UInt8
  | 0, _ => []
  | width + 1, n => UInt8.ofNat n :: toBytes width (n / 256)

/-- The number that bytes stand for. -/
def ofBytes : List UInt8 → ℕ
  | [] => 0
  | b :: bytes => b.toNat + 256 * ofBytes bytes

section Numbers

variable {width n : ℕ} {bytes rest : List UInt8}

@[simp] theorem length_toBytes : (toBytes width n).length = width := by
  induction width generalizing n with
  | zero => rfl
  | succ width ih => simp [toBytes, ih]

/-- A number that fits is read back. -/
theorem ofBytes_toBytes (fits : n < 256 ^ width) : ofBytes (toBytes width n) = n := by
  induction width generalizing n with
  | zero =>
    have zero : n = 0 := by simpa using fits
    simp [toBytes, ofBytes, zero]
  | succ width ih =>
    have higher : n / 256 < 256 ^ width := by
      rw [Nat.div_lt_iff_lt_mul (by decide)]
      exact Nat.pow_succ 256 width ▸ fits
    rw [toBytes, ofBytes, ih higher, UInt8.toNat_ofNat']
    exact Nat.mod_add_div n 256

/-- The 32-bit number at the beginning of a buffer. -/
def word (bytes : List UInt8) : UInt32 := UInt32.ofNat (ofBytes (bytes.take 4))

theorem word_toBytes (n : UInt32) : word (toBytes 4 n.toNat ++ rest) = n := by
  have fits : n.toNat < 256 ^ 4 := n.toNat_lt
  rw [word, List.take_left' length_toBytes, ofBytes_toBytes fits, UInt32.ofNat_toNat]

/-- A number that fits is read back. -/
theorem word_toBytes_of_lt (fits : n < UInt32.size) :
    word (toBytes 4 n ++ rest) = UInt32.ofNat n := by
  have read : word (toBytes 4 (UInt32.ofNat n).toNat ++ rest) = _ := word_toBytes _
  rwa [UInt32.toNat_ofNat_of_lt' fits] at read

theorem drop_toBytes : (toBytes width n ++ rest).drop width = rest :=
  List.drop_left' length_toBytes

end Numbers

/-- The string at the beginning of a buffer, `none` where it does not end. -/
def cString (bytes : List UInt8) : Option (List UInt8) :=
  if 0 ∈ bytes then some (bytes.takeWhile fun b => b ≠ 0) else none

/-- A string without a NUL is read up to the first of the NULs behind it. -/
theorem cString_append {string rest : List UInt8} (clean : 0 ∉ string) :
    cString (string ++ 0 :: rest) = some string := by
  have stops : (string ++ 0 :: rest).takeWhile (fun b => b ≠ 0) = string := by
    rw [List.takeWhile_append_of_pos]
    · simp
    · intro b mem
      have other : b ≠ 0 := fun zero => clean (zero ▸ mem)
      simpa using other
  rw [cString, if_pos (by simp), stops]

/-! ## Wide strings -/

/-- The bytes of 16-bit units, low byte first. -/
def wideBytes (units : List UInt16) : List UInt8 :=
  units.flatMap fun unit => toBytes 2 unit.toNat

/-- The string of 16-bit units at the beginning of a buffer, `none` where it does not end. -/
def wideCString : List UInt8 → Option (List UInt16)
  | low :: high :: bytes =>
    let unit := UInt16.ofNat (ofBytes [low, high])
    if unit = 0 then some [] else (wideCString bytes).map (unit :: ·)
  | _ => none

/-- Two NULs follow, after an even number of bytes. -/
def NulFollows (bytes : List UInt8) : Prop :=
  ∃ units rest, units.length % 2 = 0 ∧ bytes = units ++ 0 :: 0 :: rest

section Wide

variable {unit : UInt16} {units : List UInt16} {bytes rest : List UInt8}

@[simp] theorem length_wideBytes : (wideBytes units).length = 2 * units.length := by
  induction units with
  | nil => rfl
  | cons unit units ih =>
    have parts : wideBytes (unit :: units) = toBytes 2 unit.toNat ++ wideBytes units :=
      List.flatMap_cons
    rw [parts, List.length_append, length_toBytes, ih, List.length_cons]
    omega

/-- A unit without a NUL is read, and then what follows it. -/
theorem wideCString_cons (nonzero : unit ≠ 0) :
    wideCString (toBytes 2 unit.toNat ++ rest) = (wideCString rest).map (unit :: ·) := by
  have read : UInt16.ofNat (ofBytes (toBytes 2 unit.toNat)) = unit := by
    have fits : unit.toNat < 256 ^ 2 := unit.toNat_lt
    rw [ofBytes_toBytes fits, UInt16.ofNat_toNat]
  change (if UInt16.ofNat (ofBytes (toBytes 2 unit.toNat)) = 0 then some []
    else (wideCString rest).map (UInt16.ofNat (ofBytes (toBytes 2 unit.toNat)) :: ·)) = _
  rw [read, if_neg nonzero]

/-- A string without a NUL is read up to the first of the NULs behind it. -/
theorem wideCString_append (clean : 0 ∉ units) :
    wideCString (wideBytes units ++ rest) = (wideCString rest).map (units ++ ·) := by
  induction units with
  | nil => simp [wideBytes]
  | cons unit units ih =>
    rw [List.mem_cons, not_or] at clean
    have parts : wideBytes (unit :: units) = toBytes 2 unit.toNat ++ wideBytes units :=
      List.flatMap_cons
    rw [parts, List.append_assoc, wideCString_cons (Ne.symm clean.1), ih clean.2,
      Option.map_map]
    rfl

/-- A unit is a NUL exactly if both of its bytes are. -/
theorem ofNat_ofBytes_eq_zero_iff {low high : UInt8} :
    UInt16.ofNat (ofBytes [low, high]) = 0 ↔ low = 0 ∧ high = 0 := by
  have lowSmall := low.toNat_lt
  have highSmall := high.toNat_lt
  have value : ofBytes [low, high] = low.toNat + 256 * high.toNat := by simp [ofBytes]
  have unit : (UInt16.ofNat (ofBytes [low, high])).toNat = low.toNat + 256 * high.toNat := by
    rw [value, UInt16.toNat_ofNat_of_lt' (by rw [UInt16.size]; omega)]
  rw [← UInt16.toNat_inj, ← UInt8.toNat_inj, ← UInt8.toNat_inj, unit, UInt16.toNat_zero,
    UInt8.toNat_zero]
  omega

/-- A unit in front changes nothing, unless it is itself a NUL. -/
theorem nulFollows_cons_iff {low high : UInt8} :
    NulFollows (low :: high :: bytes) ↔ (low = 0 ∧ high = 0) ∨ NulFollows bytes := by
  constructor
  · rintro ⟨units, rest, even, same⟩
    match units with
    | [] =>
      have first := List.cons.inj same
      have second := List.cons.inj first.2
      exact .inl ⟨first.1, second.1⟩
    | [_] => cases even
    | _ :: _ :: units =>
      have tail := (List.cons.inj (List.cons.inj same).2).2
      refine .inr ⟨units, rest, ?_, tail⟩
      simp only [List.length_cons] at even
      omega
  · rintro (⟨rfl, rfl⟩ | ⟨units, rest, even, rfl⟩)
    · exact ⟨[], bytes, rfl, rfl⟩
    · refine ⟨low :: high :: units, rest, ?_, rfl⟩
      simp only [List.length_cons]
      omega

/-- A string ends exactly if two NULs follow. -/
theorem isSome_wideCString_iff : (wideCString bytes).isSome ↔ NulFollows bytes := by
  induction bytes using wideCString.induct with
  | case1 low high bytes unit zero =>
    have nul := ofNat_ofBytes_eq_zero_iff.mp zero
    rw [wideCString, if_pos zero]
    exact iff_of_true rfl (nulFollows_cons_iff.mpr (.inl nul))
  | case2 low high bytes unit nonzero ih =>
    rw [wideCString, if_neg nonzero, Option.isSome_map, ih, nulFollows_cons_iff,
      or_iff_right (mt ofNat_ofBytes_eq_zero_iff.mpr nonzero)]
  | case3 bytes short =>
    have unread : wideCString bytes = none := by
      match bytes, short with
      | [], _ => rfl
      | [_], _ => rfl
      | low :: high :: bytes, short => exact (short low high bytes rfl).elim
    rw [unread]
    refine iff_of_false (by simp) ?_
    rintro ⟨units, rest, -, same⟩
    match units with
    | [] => exact short _ _ _ same
    | [unit] => exact short _ _ _ same
    | first :: second :: units => exact short _ _ _ same

instance (bytes : List UInt8) : Decidable (NulFollows bytes) :=
  decidable_of_iff _ isSome_wideCString_iff

/-- What follows behind an even number of bytes, follows. -/
theorem NulFollows.append (even : rest.length % 2 = 0) (follows : NulFollows bytes) :
    NulFollows (rest ++ bytes) := by
  obtain ⟨units, more, alsoEven, rfl⟩ := follows
  refine ⟨rest ++ units, more, ?_, (List.append_assoc ..).symm⟩
  rw [List.length_append]
  omega

end Wide

end Wire
