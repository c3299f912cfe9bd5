import FileEvents.Native.JvmText

/-!
# UTF-8 and UTF-16

Both formats write a sequence of code points without surrogates in exactly one way, so what
one of them accepts is what the other one writes, and converting back and forth changes
nothing.

## Main results

* `decodeUtf8_eq_some_iff`, `decodeUtf16_eq_some_iff` — what is well formed, and what it says
* `utf8ToUtf16String_eq_some_iff` — the conversions are inverse to each other
* `utf16ToUtf8String_append` — they go piece by piece
-/

namespace FileEvents

namespace Text

variable {c : ℕ} {points : List ℕ} {bytes rest : ByteString} {units others : U16String}

theorem IsScalar.lt (scalar : IsScalar c) : c < 0x110000 := by
  unfold IsScalar at scalar
  omega

/-! ## UTF-8 -/

section Utf8

variable {a b d e : UInt8}

theorem isTrail_iff {low high : ℕ} :
    isTrail low high a = true ↔ low ≤ a.toNat ∧ a.toNat ≤ high := by
  rw [isTrail, Bool.and_eq_true, decide_eq_true_eq, decide_eq_true_eq]

theorem decodeUtf8_one (single : a.toNat < 0x80) :
    decodeUtf8 (a :: rest) = (decodeUtf8 rest).map (a.toNat :: ·) := by
  rw [decodeUtf8.eq_def]
  exact if_pos single

theorem decodeUtf8_two (low : 0xC2 ≤ a.toNat) (high : a.toNat < 0xE0)
    (trail : isTrail 0x80 0xBF b = true) :
    decodeUtf8 (a :: b :: rest) =
      (decodeUtf8 rest).map ((a.toNat % 32 * 64 + trailBits b) :: ·) := by
  rw [decodeUtf8.eq_def]
  simp [trail, low, high, show ¬ a.toNat < 0x80 by omega]

theorem decodeUtf8_three (low : 0xE0 ≤ a.toNat) (high : a.toNat < 0xF0)
    (second : isTrail (secondLow3 a.toNat) (secondHigh3 a.toNat) b = true)
    (third : isTrail 0x80 0xBF d = true) :
    decodeUtf8 (a :: b :: d :: rest) =
      (decodeUtf8 rest).map
        ((a.toNat % 16 * 4096 + trailBits b * 64 + trailBits d) :: ·) := by
  rw [decodeUtf8.eq_def]
  simp [second, third, low, high, show ¬ a.toNat < 0x80 by omega,
    show ¬ a.toNat < 0xE0 by omega]

theorem decodeUtf8_four (low : 0xF0 ≤ a.toNat) (high : a.toNat < 0xF5)
    (second : isTrail (secondLow4 a.toNat) (secondHigh4 a.toNat) b = true)
    (third : isTrail 0x80 0xBF d = true) (fourth : isTrail 0x80 0xBF e = true) :
    decodeUtf8 (a :: b :: d :: e :: rest) =
      (decodeUtf8 rest).map
        ((a.toNat % 8 * 262144 + trailBits b * 4096 + trailBits d * 64 + trailBits e) :: ·) := by
  rw [decodeUtf8.eq_def]
  simp [second, third, fourth, low, high, show ¬ a.toNat < 0x80 by omega,
    show ¬ a.toNat < 0xE0 by omega, show ¬ a.toNat < 0xF0 by omega]

/-- A code point is read back, whatever comes after it. -/
theorem decodeUtf8_append (scalar : IsScalar c) :
    decodeUtf8 (encodeUtf8 c ++ rest) = (decodeUtf8 rest).map (c :: ·) := by
  have bound := scalar.lt
  -- The cases are those of the length of a character.
  by_cases one : c < 0x80
  · have byte : (UInt8.ofNat c).toNat = c := toNat_byte (by omega)
    rw [encodeUtf8, if_pos one, List.singleton_append, decodeUtf8_one (by omega), byte]
  by_cases two : c < 0x800
  · have lead : (UInt8.ofNat (0xC0 + c / 64)).toNat = 0xC0 + c / 64 := toNat_byte (by omega)
    have trail : (UInt8.ofNat (0x80 + c % 64)).toNat = 0x80 + c % 64 := toNat_byte (by omega)
    rw [encodeUtf8, if_neg one, if_pos two, List.cons_append, List.singleton_append,
      decodeUtf8_two (by omega) (by omega) (isTrail_iff.mpr (by omega)), trailBits, lead, trail,
      show (0xC0 + c / 64) % 32 * 64 + (0x80 + c % 64) % 64 = c by omega]
  have last : (UInt8.ofNat (0x80 + c % 64)).toNat = 0x80 + c % 64 := toNat_byte (by omega)
  have middle : (UInt8.ofNat (0x80 + c / 64 % 64)).toNat = 0x80 + c / 64 % 64 :=
    toNat_byte (by omega)
  by_cases three : c < 0x10000
  · have lead : (UInt8.ofNat (0xE0 + c / 4096)).toNat = 0xE0 + c / 4096 := toNat_byte (by omega)
    have second : isTrail (secondLow3 (0xE0 + c / 4096)) (secondHigh3 (0xE0 + c / 4096))
        (UInt8.ofNat (0x80 + c / 64 % 64)) = true := by
      rw [isTrail_iff, middle, secondLow3, secondHigh3]
      unfold IsScalar at scalar
      split_ifs <;> omega
    rw [encodeUtf8, if_neg one, if_neg two, if_pos three, List.cons_append, List.cons_append,
      List.singleton_append, decodeUtf8_three (by omega) (by omega) (by rwa [lead])
        (isTrail_iff.mpr (by omega)), trailBits, trailBits, lead, middle, last,
      show (0xE0 + c / 4096) % 16 * 4096 + (0x80 + c / 64 % 64) % 64 * 64 + (0x80 + c % 64) % 64 =
        c by omega]
  · have lead : (UInt8.ofNat (0xF0 + c / 262144)).toNat = 0xF0 + c / 262144 :=
      toNat_byte (by omega)
    have upper : (UInt8.ofNat (0x80 + c / 4096 % 64)).toNat = 0x80 + c / 4096 % 64 :=
      toNat_byte (by omega)
    have second : isTrail (secondLow4 (0xF0 + c / 262144)) (secondHigh4 (0xF0 + c / 262144))
        (UInt8.ofNat (0x80 + c / 4096 % 64)) = true := by
      rw [isTrail_iff, upper, secondLow4, secondHigh4]
      split_ifs <;> omega
    rw [encodeUtf8, if_neg one, if_neg two, if_neg three, List.cons_append, List.cons_append,
      List.cons_append, List.singleton_append, decodeUtf8_four (by omega) (by omega)
        (by rwa [lead]) (isTrail_iff.mpr (by omega)) (isTrail_iff.mpr (by omega)), trailBits,
      trailBits, trailBits, lead, upper, middle, last,
      show (0xF0 + c / 262144) % 8 * 262144 + (0x80 + c / 4096 % 64) % 64 * 4096 +
        (0x80 + c / 64 % 64) % 64 * 64 + (0x80 + c % 64) % 64 = c by omega]

/-- What is accepted begins with the bytes of a code point. -/
theorem decodeUtf8_cons_spec (decoded : decodeUtf8 (a :: rest) = some points) :
    ∃ c after others, IsScalar c ∧ a :: rest = encodeUtf8 c ++ after ∧
      decodeUtf8 after = some others ∧ points = c :: others := by
  have small := a.toNat_lt
  rw [decodeUtf8.eq_def] at decoded
  dsimp only at decoded
  by_cases one : a.toNat < 0x80
  · rw [if_pos one] at decoded
    obtain ⟨others, continued, rfl⟩ := Option.map_eq_some_iff.mp decoded
    refine ⟨a.toNat, rest, others, .inl (by omega), ?_, continued, rfl⟩
    rw [encodeUtf8, if_pos one, UInt8.ofNat_toNat, List.singleton_append]
  rw [if_neg one] at decoded
  cases rest with
  | nil => cases decoded
  | cons b rest =>
  dsimp only at decoded
  by_cases two : 0xC2 ≤ a.toNat ∧ a.toNat < 0xE0
  · rw [if_pos two] at decoded
    split_ifs at decoded with second
    obtain ⟨others, continued, rfl⟩ := Option.map_eq_some_iff.mp decoded
    rw [isTrail_iff] at second
    refine ⟨_, rest, others, .inl ?_, ?_, continued, rfl⟩
    · rw [trailBits]
      omega
    · rw [trailBits, encodeUtf8, if_neg (by omega), if_pos (by omega),
        show 0xC0 + (a.toNat % 32 * 64 + b.toNat % 64) / 64 = a.toNat by omega,
        show 0x80 + (a.toNat % 32 * 64 + b.toNat % 64) % 64 = b.toNat by omega,
        UInt8.ofNat_toNat, UInt8.ofNat_toNat]
      rfl
  rw [if_neg two] at decoded
  cases rest with
  | nil => cases decoded
  | cons d rest =>
  dsimp only at decoded
  by_cases three : 0xE0 ≤ a.toNat ∧ a.toNat < 0xF0
  · rw [if_pos three] at decoded
    split_ifs at decoded with trails
    obtain ⟨others, continued, rfl⟩ := Option.map_eq_some_iff.mp decoded
    rw [Bool.and_eq_true, isTrail_iff, isTrail_iff, secondLow3, secondHigh3] at trails
    -- The second byte is neither that of a shorter character nor that of a surrogate.
    have bounds : 0x800 ≤ a.toNat % 16 * 4096 + b.toNat % 64 * 64 + d.toNat % 64 ∧
        IsScalar (a.toNat % 16 * 4096 + b.toNat % 64 * 64 + d.toNat % 64) ∧
        0x80 ≤ b.toNat ∧ b.toNat ≤ 0xBF := by
      unfold IsScalar
      split_ifs at trails <;> omega
    refine ⟨_, rest, others, ?_, ?_, continued, rfl⟩
    · exact bounds.2.1
    · rw [trailBits, trailBits, encodeUtf8, if_neg (by omega), if_neg (by omega),
        if_pos (by omega),
        show 0xE0 + (a.toNat % 16 * 4096 + b.toNat % 64 * 64 + d.toNat % 64) / 4096 =
          a.toNat by omega,
        show 0x80 + (a.toNat % 16 * 4096 + b.toNat % 64 * 64 + d.toNat % 64) / 64 % 64 =
          b.toNat by omega,
        show 0x80 + (a.toNat % 16 * 4096 + b.toNat % 64 * 64 + d.toNat % 64) % 64 =
          d.toNat by omega,
        UInt8.ofNat_toNat, UInt8.ofNat_toNat, UInt8.ofNat_toNat]
      rfl
  rw [if_neg three] at decoded
  cases rest with
  | nil => cases decoded
  | cons e rest =>
  dsimp only at decoded
  split_ifs at decoded with four trails
  obtain ⟨others, continued, rfl⟩ := Option.map_eq_some_iff.mp decoded
  rw [Bool.and_eq_true, Bool.and_eq_true, isTrail_iff, isTrail_iff, isTrail_iff, secondLow4,
    secondHigh4] at trails
  have bounds : 0x10000 ≤ a.toNat % 8 * 262144 + b.toNat % 64 * 4096 + d.toNat % 64 * 64 +
        e.toNat % 64 ∧
      a.toNat % 8 * 262144 + b.toNat % 64 * 4096 + d.toNat % 64 * 64 + e.toNat % 64 < 0x110000 ∧
      0x80 ≤ b.toNat ∧ b.toNat ≤ 0xBF := by
    split_ifs at trails <;> omega
  refine ⟨_, rest, others, .inr ?_, ?_, continued, rfl⟩
  · rw [trailBits, trailBits, trailBits]
    omega
  · rw [trailBits, trailBits, trailBits, encodeUtf8, if_neg (by omega), if_neg (by omega),
      if_neg (by omega),
      show 0xF0 + (a.toNat % 8 * 262144 + b.toNat % 64 * 4096 + d.toNat % 64 * 64 +
        e.toNat % 64) / 262144 = a.toNat by omega,
      show 0x80 + (a.toNat % 8 * 262144 + b.toNat % 64 * 4096 + d.toNat % 64 * 64 +
        e.toNat % 64) / 4096 % 64 = b.toNat by omega,
      show 0x80 + (a.toNat % 8 * 262144 + b.toNat % 64 * 4096 + d.toNat % 64 * 64 +
        e.toNat % 64) / 64 % 64 = d.toNat by omega,
      show 0x80 + (a.toNat % 8 * 262144 + b.toNat % 64 * 4096 + d.toNat % 64 * 64 +
        e.toNat % 64) % 64 = e.toNat by omega,
      UInt8.ofNat_toNat, UInt8.ofNat_toNat, UInt8.ofNat_toNat, UInt8.ofNat_toNat]
    rfl

theorem length_encodeUtf8_pos (c : ℕ) : 0 < (encodeUtf8 c).length := by
  unfold encodeUtf8
  split_ifs <;> simp

theorem decodeUtf8_encode (scalars : ∀ c ∈ points, IsScalar c) :
    decodeUtf8 (encode points) = some points := by
  induction points with
  | nil => rfl
  | cons c points ih =>
    obtain ⟨scalar, scalars⟩ := List.forall_mem_cons.mp scalars
    rw [encode_cons, decodeUtf8_append scalar, ih scalars]
    rfl

/-- UTF-8 is the bytes of code points that are no surrogates. -/
theorem decodeUtf8_eq_some_iff :
    decodeUtf8 bytes = some points ↔ encode points = bytes ∧ ∀ c ∈ points, IsScalar c := by
  constructor
  · intro decoded
    induction length : bytes.length using Nat.strong_induction_on generalizing bytes points with
    | _ n ih =>
    cases bytes with
    | nil =>
      obtain rfl := Option.some_inj.mp decoded
      exact ⟨rfl, by simp⟩
    | cons a rest =>
      obtain ⟨c, after, others, scalar, split, continued, rfl⟩ := decodeUtf8_cons_spec decoded
      have shorter : after.length < n := by
        have lengths := congrArg List.length split
        have positive := length_encodeUtf8_pos c
        rw [List.length_append] at lengths
        omega
      obtain ⟨same, scalars⟩ := ih after.length shorter continued rfl
      rw [split, encode_cons, same]
      exact ⟨rfl, List.forall_mem_cons.mpr ⟨scalar, scalars⟩⟩
  · rintro ⟨rfl, scalars⟩
    exact decodeUtf8_encode scalars

end Utf8

/-! ## UTF-16 -/

theorem decodeUtf16_append (scalar : IsScalar c) :
    decodeUtf16 (encodeUtf16 c ++ units) = (decodeUtf16 units).map (c :: ·) := by
  have bound := scalar.lt
  unfold IsScalar at scalar
  by_cases plane : c < 0x10000
  · have unit : (UInt16.ofNat c).toNat = c := UInt16.toNat_ofNat_of_lt' plane
    rw [JvmText.encodeUtf16_of_plane plane, List.singleton_append, decodeUtf16.eq_def]
    dsimp only
    rw [unit, if_pos (by omega)]
  · have high : (UInt16.ofNat (0xD800 + (c - 0x10000) / 1024)).toNat =
        0xD800 + (c - 0x10000) / 1024 :=
      UInt16.toNat_ofNat_of_lt' (by rw [UInt16.size]; omega)
    have low : (UInt16.ofNat (0xDC00 + (c - 0x10000) % 1024)).toNat =
        0xDC00 + (c - 0x10000) % 1024 :=
      UInt16.toNat_ofNat_of_lt' (by rw [UInt16.size]; omega)
    rw [encodeUtf16, if_neg plane, List.cons_append, List.singleton_append, decodeUtf16.eq_def]
    dsimp only
    rw [high, low, if_neg (by omega), if_pos (by omega), if_pos (by omega),
      show 0x10000 + (0xD800 + (c - 0x10000) / 1024 - 0xD800) * 1024 +
        (0xDC00 + (c - 0x10000) % 1024 - 0xDC00) = c by omega]

/-- UTF-16 is the units of code points that are no surrogates. -/
theorem decodeUtf16_eq_some_iff :
    decodeUtf16 units = some points ↔
      points.flatMap encodeUtf16 = units ∧ ∀ c ∈ points, IsScalar c := by
  refine ⟨JvmText.decodeUtf16_spec, ?_⟩
  rintro ⟨rfl, scalars⟩
  induction points with
  | nil => rfl
  | cons c points ih =>
    obtain ⟨scalar, scalars⟩ := List.forall_mem_cons.mp scalars
    rw [List.flatMap_cons, decodeUtf16_append scalar, ih scalars]
    rfl

/-! ## The conversions -/

/-- What one conversion makes of a string is what the other one makes into it. -/
theorem utf8ToUtf16String_eq_some_iff :
    utf8ToUtf16String bytes = some units ↔ utf16ToUtf8String units = some bytes := by
  unfold utf8ToUtf16String utf16ToUtf8String
  rw [Option.map_eq_some_iff, Option.map_eq_some_iff]
  refine exists_congr fun points => ?_
  rw [decodeUtf8_eq_some_iff, decodeUtf16_eq_some_iff, encode]
  tauto

/-- The bytes of a string one after the other. -/
theorem utf16ToUtf8String_append {more : ByteString}
    (first : utf16ToUtf8String units = some bytes) (second : utf16ToUtf8String others = some more) :
    utf16ToUtf8String (units ++ others) = some (bytes ++ more) := by
  obtain ⟨points, decoded, rfl⟩ := Option.map_eq_some_iff.mp first
  obtain ⟨points', decoded', rfl⟩ := Option.map_eq_some_iff.mp second
  obtain ⟨rfl, scalars⟩ := decodeUtf16_eq_some_iff.mp decoded
  obtain ⟨rfl, scalars'⟩ := decodeUtf16_eq_some_iff.mp decoded'
  have together :
      decodeUtf16 ((points ++ points').flatMap encodeUtf16) = some (points ++ points') :=
    decodeUtf16_eq_some_iff.mpr ⟨rfl, fun c mem => (List.mem_append.mp mem).elim
      (scalars c) (scalars' c)⟩
  rw [← List.flatMap_append, utf16ToUtf8String, together, Option.map_some, List.flatMap_append]

end Text

end FileEvents
