import FileEvents.Text
import FileEvents.Wire.Batches

/-!
# Modified UTF-8

The JNI functions take strings in the encoding of class files: NUL has two bytes, and a
supplementary character is written as its two surrogates, of three bytes each. Where a character
is neither, the encoding agrees with UTF-8.

## Main definitions

* `decodeModifiedUtf8` — the code units of a string in modified UTF-8
* `encode` — the UTF-8 bytes of code points
* `Agrees` — the character has the same bytes in both

## Main results

* `decodeModifiedUtf8_take_iff` — what modified UTF-8 makes of UTF-8 that is cut after some byte
-/

namespace FileEvents

namespace Text

open Wire

/-- A code point that is no surrogate. -/
def IsScalar (c : ℕ) : Prop := c < 0xD800 ∨ 0xE000 ≤ c ∧ c < 0x110000

/-- A code point that has the same bytes in UTF-8 and in modified UTF-8. -/
def Agrees (c : ℕ) : Prop := c ≠ 0 ∧ c < 0x10000

instance : DecidablePred Agrees := fun c => inferInstanceAs (Decidable (c ≠ 0 ∧ c < 0x10000))

/-- A byte that is a character. -/
def IsSingle (a : UInt8) : Prop := a.toNat ≠ 0 ∧ a.toNat < 0x80

/-- Two bytes that are a character: a NUL, or one that does not fit into one byte. -/
def IsPair (a b : UInt8) : Prop :=
  (a.toNat = 0xC0 ∧ b.toNat = 0x80) ∨ (0xC2 ≤ a.toNat ∧ a.toNat < 0xE0) ∧ isTrail 0x80 0xBF b

/-- Three bytes that are a character, or one half of a supplementary character. -/
def IsTriple (a b c : UInt8) : Prop :=
  (0xE0 ≤ a.toNat ∧ a.toNat < 0xF0) ∧ isTrail (secondLow3 a.toNat) 0xBF b ∧ isTrail 0x80 0xBF c

instance (a : UInt8) : Decidable (IsSingle a) := by
  unfold IsSingle
  infer_instance

instance (a b : UInt8) : Decidable (IsPair a b) := by
  unfold IsPair
  infer_instance

instance (a b c : UInt8) : Decidable (IsTriple a b c) := by
  unfold IsTriple
  infer_instance

/-- The UTF-16 code units of a string in modified UTF-8, `none` if it is not well formed. -/
def decodeModifiedUtf8 : ByteString → Option U16String
  | [] => some []
  | a :: as =>
    if IsSingle a then (decodeModifiedUtf8 as).map (UInt16.ofNat a.toNat :: ·)
    else match as with
      | [] => none
      | b :: bs =>
        if IsPair a b then
          (decodeModifiedUtf8 bs).map (UInt16.ofNat (a.toNat % 32 * 64 + trailBits b) :: ·)
        else match bs with
          | [] => none
          | c :: cs =>
            if IsTriple a b c then
              (decodeModifiedUtf8 cs).map
                (UInt16.ofNat (a.toNat % 16 * 4096 + trailBits b * 64 + trailBits c) :: ·)
            else none

/-- The UTF-8 bytes of some code points. -/
def encode (points : List ℕ) : ByteString := points.flatMap encodeUtf8

/-- The number of bytes of a code point. -/
def utf8Length (c : ℕ) : ℕ := (encodeUtf8 c).length

variable {c n : ℕ} {points : List ℕ} {rest : ByteString} {units : U16String}

theorem encode_cons : encode (c :: points) = encodeUtf8 c ++ encode points := List.flatMap_cons

/-! ## One character -/

section Character

variable {a b d : UInt8}

theorem decodeModifiedUtf8_single (single : IsSingle a) :
    decodeModifiedUtf8 (a :: rest) =
      (decodeModifiedUtf8 rest).map (UInt16.ofNat a.toNat :: ·) := by
  rw [decodeModifiedUtf8.eq_def]
  exact if_pos single

theorem decodeModifiedUtf8_pair (notSingle : ¬ IsSingle a) (pair : IsPair a b) :
    decodeModifiedUtf8 (a :: b :: rest) =
      (decodeModifiedUtf8 rest).map
        (UInt16.ofNat (a.toNat % 32 * 64 + trailBits b) :: ·) := by
  rw [decodeModifiedUtf8.eq_def]
  exact (if_neg notSingle).trans (if_pos pair)

theorem decodeModifiedUtf8_triple (notSingle : ¬ IsSingle a) (notPair : ¬ IsPair a b)
    (triple : IsTriple a b d) :
    decodeModifiedUtf8 (a :: b :: d :: rest) =
      (decodeModifiedUtf8 rest).map
        (UInt16.ofNat (a.toNat % 16 * 4096 + trailBits b * 64 + trailBits d) :: ·) := by
  rw [decodeModifiedUtf8.eq_def]
  exact (if_neg notSingle).trans ((if_neg notPair).trans (if_pos triple))

/-- Bytes that begin no character are refused. -/
theorem decodeModifiedUtf8_refused (notSingle : ¬ IsSingle a)
    (notPair : ∀ b ∈ rest.head?, ¬ IsPair a b)
    (notTriple : ∀ b ∈ rest.head?, ∀ d ∈ rest.tail.head?, ¬ IsTriple a b d) :
    decodeModifiedUtf8 (a :: rest) = none := by
  rw [decodeModifiedUtf8.eq_def]
  refine (if_neg notSingle).trans ?_
  match rest with
  | [] => rfl
  | b :: rest =>
    refine (if_neg (notPair b rfl)).trans ?_
    match rest with
    | [] => rfl
    | d :: rest => exact if_neg (notTriple b rfl d rfl)

/-- A byte is the number it was made of. -/
theorem toNat_byte (small : n < 256) : (UInt8.ofNat n).toNat = n :=
  UInt8.toNat_ofNat_of_lt' small

/-- A character of two bytes. -/
theorem encodeUtf8_eq_pair (low : 0x80 ≤ c) (high : c < 0x800) :
    ∃ a b, encodeUtf8 c = [a, b] ∧ ¬ IsSingle a ∧ IsPair a b ∧
      a.toNat % 32 * 64 + trailBits b = c := by
  have lead : (UInt8.ofNat (0xC0 + c / 64)).toNat = 0xC0 + c / 64 := toNat_byte (by omega)
  have trail : (UInt8.ofNat (0x80 + c % 64)).toNat = 0x80 + c % 64 := toNat_byte (by omega)
  refine ⟨UInt8.ofNat (0xC0 + c / 64), UInt8.ofNat (0x80 + c % 64), ?_, ?_, ?_, ?_⟩
  · rw [encodeUtf8, if_neg (by omega), if_pos high]
  · rw [IsSingle]
    omega
  · simp only [IsPair, isTrail, lead, trail, Bool.and_eq_true, decide_eq_true_eq]
    omega
  · rw [trailBits, lead, trail]
    omega

/-- A character of three bytes. -/
theorem encodeUtf8_eq_triple (low : 0x800 ≤ c) (high : c < 0x10000) :
    ∃ a b d, encodeUtf8 c = [a, b, d] ∧ ¬ IsSingle a ∧ ¬ IsPair a b ∧ IsTriple a b d ∧
      a.toNat % 16 * 4096 + trailBits b * 64 + trailBits d = c := by
  have lead : (UInt8.ofNat (0xE0 + c / 4096)).toNat = 0xE0 + c / 4096 := toNat_byte (by omega)
  have second : (UInt8.ofNat (0x80 + c / 64 % 64)).toNat = 0x80 + c / 64 % 64 :=
    toNat_byte (by omega)
  have third : (UInt8.ofNat (0x80 + c % 64)).toNat = 0x80 + c % 64 := toNat_byte (by omega)
  refine ⟨UInt8.ofNat (0xE0 + c / 4096), UInt8.ofNat (0x80 + c / 64 % 64),
    UInt8.ofNat (0x80 + c % 64), ?_, ?_, ?_, ?_, ?_⟩
  · rw [encodeUtf8, if_neg (by omega), if_neg (by omega), if_pos high]
  · rw [IsSingle]
    omega
  · rw [IsPair]
    omega
  · simp only [IsTriple, isTrail, lead, second, third, secondLow3, Bool.and_eq_true,
      decide_eq_true_eq]
    split_ifs
    · omega
    · omega
  · rw [trailBits, trailBits, lead, second, third]
    omega

/-- Where the encodings agree, a character is read back. -/
theorem decodeModifiedUtf8_append (agrees : Agrees c) :
    decodeModifiedUtf8 (encodeUtf8 c ++ rest) =
      (decodeModifiedUtf8 rest).map (UInt16.ofNat c :: ·) := by
  obtain ⟨positive, plane⟩ := agrees
  -- The cases are those of the length of a character.
  by_cases one : c < 0x80
  · have byte : (UInt8.ofNat c).toNat = c := toNat_byte (by omega)
    rw [encodeUtf8, if_pos one, List.singleton_append,
      decodeModifiedUtf8_single (by rw [IsSingle]; omega), byte]
  · by_cases two : c < 0x800
    · obtain ⟨a, b, bytes, notSingle, pair, value⟩ := encodeUtf8_eq_pair (Nat.not_lt.mp one) two
      rw [bytes, List.cons_append, List.singleton_append,
        decodeModifiedUtf8_pair notSingle pair, value]
    · obtain ⟨a, b, d, bytes, notSingle, notPair, triple, value⟩ :=
        encodeUtf8_eq_triple (Nat.not_lt.mp two) plane
      rw [bytes, List.cons_append, List.cons_append, List.singleton_append,
        decodeModifiedUtf8_triple notSingle notPair triple, value]

/-- The lead byte of a supplementary character begins nothing. -/
theorem decodeModifiedUtf8_of_supplementary (large : 0xF0 ≤ a.toNat) :
    decodeModifiedUtf8 (a :: rest) = none := by
  refine decodeModifiedUtf8_refused ?_ ?_ ?_
  · rw [IsSingle]
    omega
  · intro b _
    rw [IsPair]
    omega
  · intro b _ d _
    rw [IsTriple]
    omega

/-- The bytes of a supplementary character. -/
theorem encodeUtf8_of_supplementary (scalar : IsScalar c) (supplementary : 0x10000 ≤ c) :
    ∃ lead trail, encodeUtf8 c = lead :: trail ∧ 0xF0 ≤ lead.toNat := by
  have bound : c < 0x110000 := by
    unfold IsScalar at scalar
    omega
  have lead : (UInt8.ofNat (0xF0 + c / 262144)).toNat = 0xF0 + c / 262144 :=
    toNat_byte (by omega)
  rw [encodeUtf8, if_neg (by omega), if_neg (by omega), if_neg (by omega)]
  exact ⟨_, _, rfl, by omega⟩

/-- Where the encodings differ, a character is refused. -/
theorem decodeModifiedUtf8_append_of_not_agrees (scalar : IsScalar c) (differs : ¬ Agrees c) :
    decodeModifiedUtf8 (encodeUtf8 c ++ rest) = none := by
  by_cases supplementary : 0x10000 ≤ c
  · obtain ⟨lead, trail, bytes, large⟩ := encodeUtf8_of_supplementary scalar supplementary
    rw [bytes, List.cons_append]
    exact decodeModifiedUtf8_of_supplementary large
  · obtain rfl : c = 0 := by
      by_contra positive
      exact differs ⟨positive, by omega⟩
    -- A NUL byte stands for nothing.
    have zero : (UInt8.ofNat 0).toNat = 0 := rfl
    refine decodeModifiedUtf8_refused ?_ ?_ ?_
    · exact fun single => single.1 zero
    · intro b _ pair
      rw [IsPair, zero] at pair
      omega
    · intro b _ d _ triple
      rw [IsTriple, zero] at triple
      omega

/-- A character that is cut is refused. -/
theorem decodeModifiedUtf8_take_encodeUtf8 (scalar : IsScalar c) (some : n ≠ 0)
    (cut : n < utf8Length c) : decodeModifiedUtf8 ((encodeUtf8 c).take n) = none := by
  by_cases supplementary : 0x10000 ≤ c
  · obtain ⟨lead, trail, bytes, large⟩ := encodeUtf8_of_supplementary scalar supplementary
    obtain ⟨n, rfl⟩ := Nat.exists_eq_succ_of_ne_zero some
    rw [bytes, List.take_succ_cons]
    exact decodeModifiedUtf8_of_supplementary large
  · unfold utf8Length at cut
    by_cases one : c < 0x80
    · rw [encodeUtf8, if_pos one] at cut
      exact absurd cut (by simpa using some)
    · by_cases two : c < 0x800
      · obtain ⟨a, b, bytes, notSingle, -, -⟩ := encodeUtf8_eq_pair (Nat.not_lt.mp one) two
        rw [bytes] at cut ⊢
        -- The first of two bytes.
        obtain rfl : n = 1 := by
          simp only [List.length_cons, List.length_nil] at cut
          omega
        exact decodeModifiedUtf8_refused notSingle (by simp) (by simp)
      · obtain ⟨a, b, d, bytes, notSingle, notPair, -, -⟩ :=
          encodeUtf8_eq_triple (Nat.not_lt.mp two) (Nat.not_le.mp supplementary)
        rw [bytes] at cut ⊢
        -- One or two of three bytes.
        obtain rfl | rfl : n = 1 ∨ n = 2 := by
          simp only [List.length_cons, List.length_nil] at cut
          omega
        · exact decodeModifiedUtf8_refused notSingle (by simp) (by simp)
        · exact decodeModifiedUtf8_refused notSingle (by simpa using notPair) (by simp)

end Character

/-! ## A string that is cut -/

/-- UTF-8 that is cut after some byte is modified UTF-8 exactly if it is cut behind a character
and the encodings agree on what is left, and it then stands for these characters. -/
theorem decodeModifiedUtf8_take_iff (scalars : ∀ c ∈ points, IsScalar c) :
    decodeModifiedUtf8 ((encode points).take n) = some units ↔
      encode (fitting utf8Length n points) = (encode points).take n ∧
        (∀ c ∈ fitting utf8Length n points, Agrees c) ∧
        units = (fitting utf8Length n points).map UInt16.ofNat := by
  induction points generalizing n units with
  | nil =>
    have empty : decodeModifiedUtf8 [] = some [] := rfl
    rw [fitting, encode, List.flatMap_nil, List.take_nil, empty]
    simp [eq_comm]
  | cons c points ih =>
    rw [List.forall_mem_cons] at scalars
    obtain ⟨scalar, scalars⟩ := scalars
    rw [encode_cons, fitting]
    split_ifs with fits
    · have cut : (encodeUtf8 c ++ encode points).take n =
          encodeUtf8 c ++ (encode points).take (n - utf8Length c) := by
        rw [List.take_append, List.take_of_length_le fits]
        rfl
      rw [cut, encode_cons, List.append_cancel_left_eq, List.forall_mem_cons, List.map_cons]
      by_cases agrees : Agrees c
      · rw [decodeModifiedUtf8_append agrees, Option.map_eq_some_iff]
        simp only [ih scalars, agrees, true_and]
        constructor
        · rintro ⟨tail, ⟨whole, plane, rfl⟩, rfl⟩
          exact ⟨whole, plane, rfl⟩
        · rintro ⟨whole, plane, rfl⟩
          exact ⟨_, ⟨whole, plane, rfl⟩, rfl⟩
      · rw [decodeModifiedUtf8_append_of_not_agrees scalar agrees]
        exact iff_of_false (by simp) fun decoded => agrees decoded.2.1.1
    · -- The cut is within the character, or in front of it.
      have cut : (encodeUtf8 c ++ encode points).take n = (encodeUtf8 c).take n :=
        List.take_append_of_le_length (Nat.le_of_lt (Nat.not_le.mp fits))
      rw [cut]
      by_cases some : n = 0
      · subst some
        simp [decodeModifiedUtf8, encode, eq_comm]
      · rw [decodeModifiedUtf8_take_encodeUtf8 scalar some (Nat.not_le.mp fits)]
        refine iff_of_false (by simp) fun decoded => ?_
        have empty : ([] : ByteString) = (encodeUtf8 c).take n := decoded.1
        have length := congrArg List.length empty
        rw [List.length_take, List.length_nil] at length
        unfold utf8Length at fits
        omega

/-- The bytes of a string are those of its characters. -/
theorem length_encode (points : List ℕ) :
    (encode points).length = totalSize utf8Length points := by
  induction points with
  | nil => rfl
  | cons c points ih =>
    rw [encode_cons, List.length_append, ih, totalSize_cons]
    rfl

/-- UTF-8 is modified UTF-8 exactly if the encodings agree on every character. -/
theorem decodeModifiedUtf8_encode_iff (scalars : ∀ c ∈ points, IsScalar c) :
    decodeModifiedUtf8 (encode points) = some units ↔
      (∀ c ∈ points, Agrees c) ∧ units = points.map UInt16.ofNat := by
  have all : (encode points).take (totalSize utf8Length points) = encode points :=
    List.take_of_length_le (Nat.le_of_eq (length_encode points))
  rw [← all, decodeModifiedUtf8_take_iff scalars, all, fitting_eq_self (Nat.le_refl _)]
  exact and_iff_right rfl

end Text

end FileEvents
