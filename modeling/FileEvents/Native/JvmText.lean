import Mathlib.Data.List.TakeWhile
import FileEvents.Native.CppException
import FileEvents.Native.ModifiedUtf8

/-!
# Text for the JVM

Log messages go to `NewStringUTF` and the messages of exceptions to `ThrowNew`, which both take
modified UTF-8 up to a NUL. The paths in them were converted to UTF-8, and `Logging::send` cuts
a message to the size of its buffer.

A format is a list of conversions whose arguments are already there. What `%ls` makes of the
narrow string it is given, in `WatchPoint::close`, is undefined.

## Main definitions

* `WellFormed` — a path, or another string of well-formed UTF-16
* `Logging.send`, `rethrowAsJavaException` — the bytes that are handed over
* `Logging.SendsPrefix`, `ThrowsWhole` — they are modified UTF-8, for a beginning of the message
  and for all of it

## Main results

* `spell_messageParts` — the parts of a message make the text of `createMessage`
* `handsOverText_iff` — when the bytes are modified UTF-8
-/

namespace FileEvents

open Text Wire

namespace JvmText

/-! ## Messages -/

/-- A string of well-formed UTF-16. -/
structure WellFormed where
  units : U16String
  /-- Its code points. -/
  points : List ℕ
  decoded : decodeUtf16 units = some points

/-- ASCII text without a NUL: what a format has between its conversions, or a number. -/
structure Ascii where
  points : List ℕ
  clean : ∀ c ∈ points, c ≠ 0 ∧ c < 0x80

/-- A part of a message. -/
inductive Piece
  | ascii (text : Ascii)
  | string (text : WellFormed)

/-- The code units of a part. -/
def Piece.units : Piece → U16String
  | .ascii text => text.points.map UInt16.ofNat
  | .string text => text.units

/-- The code points of a part. -/
def Piece.points : Piece → List ℕ
  | .ascii text => text.points
  | .string text => text.points

/-- `utf16ToUtf8String`, for what is well formed. -/
def WellFormed.toUtf8 (text : WellFormed) : ByteString :=
  (utf16ToUtf8String text.units).get (by rw [utf16ToUtf8String, text.decoded]; rfl)

/-- The bytes of a part. -/
def Piece.bytes : Piece → ByteString
  | .ascii text => text.points.map UInt8.ofNat
  | .string text => text.toUtf8

/-- A part of a log message, by how it is written. -/
inductive Conversion
  /-- Text of the format, a number, or a string by `%s`. -/
  | piece (part : Piece)
  /-- A narrow string by `%ls`. -/
  | wide (text : WellFormed)

/-- The part that is meant. -/
def Conversion.meant : Conversion → Piece
  | piece part => part
  | wide text => .string text

/-- A C string: what is in front of the first NUL. -/
def cStr (bytes : ByteString) : ByteString := bytes.takeWhile fun b => b ≠ 0

/-- What is written, `none` where it is undefined. -/
def Conversion.write : Conversion → Option ByteString
  | piece (.ascii text) => some (Piece.ascii text).bytes
  | piece (.string text) => some (cStr text.toUtf8)
  | wide _ => none

/-- All that a format and its arguments stand for. -/
def format : List Conversion → Option ByteString
  | [] => some []
  | conversion :: conversions =>
    conversion.write.bind fun bytes => (format conversions).map (bytes ++ ·)

/-- `vsnprintf`: what does not fit, together with a NUL, is cut off. -/
def vsnprintf (size : ℕ) (conversions : List Conversion) : Option ByteString :=
  (format conversions).map fun bytes => bytes.take (size - 1)

/-- `sizeof(buffer)`. -/
def sizeofBuffer : ℕ := 1024

/-- The code units of a message. -/
def messageUnits (message : List Piece) : U16String := message.flatMap Piece.units

/-- The code points of a message. -/
def messagePoints (message : List Piece) : List ℕ := message.flatMap Piece.points

/-- The log message that is meant. -/
def meant (conversions : List Conversion) : List Piece := conversions.map Conversion.meant

namespace Logging

/-- `Logging::send`: the bytes of `logString`. -/
def send (conversions : List Conversion) : Option ByteString := vsnprintf sizeofBuffer conversions

/-- The JVM gets a beginning of the message. -/
def SendsPrefix (conversions : List Conversion) : Prop :=
  ∃ bytes units, send conversions = some bytes ∧ decodeModifiedUtf8 bytes = some units ∧
    units <+: messageUnits (meant conversions)

end Logging

/-- The decimal digits of a number. -/
def decimal (n : ℕ) : Ascii where
  points := (Nat.toDigits 10 n).map Char.toNat
  clean := by
    intro c mem
    obtain ⟨digit, found, rfl⟩ := List.mem_map.mp mem
    have base : 0 < 10 ∧ 10 ≤ 10 := by decide
    have isDigit := Nat.isDigit_of_mem_toDigits base.1 base.2 found
    simp only [Char.isDigit, Bool.and_eq_true, decide_eq_true_eq, ge_iff_le,
      UInt32.le_iff_toNat_le] at isDigit
    have low : 48 ≤ digit.toNat := isDigit.1
    have high : digit.toNat ≤ 57 := isDigit.2
    omega

/-- `": "`. -/
def colon : Ascii := ⟨[0x3A, 0x20], by decide⟩

/-- `", error = "`. -/
def errorEquals : Ascii := ⟨[0x2C, 0x20, 0x65, 0x72, 0x72, 0x6F, 0x72, 0x20, 0x3D, 0x20], by decide⟩

/-- The parts of a text that `createMessage` builds. -/
def messageParts (message : Ascii) (path : Option WellFormed) (errorCode : Option ErrorCode) :
    List Piece :=
  [.ascii message] ++
    (errorCode.elim [] fun code => [.ascii errorEquals, .ascii (decimal code)]) ++
    path.elim [] fun path => [.ascii colon, .string path]

/-- `e.what()`, all of it. -/
def what (message : List Piece) : ByteString := message.flatMap Piece.bytes

/-- `rethrowAsJavaException`: the bytes that `ThrowNew` takes. -/
def rethrowAsJavaException (message : List Piece) : ByteString := cStr (what message)

/-- The JVM gets the whole message of an exception. -/
def ThrowsWhole (message : List Piece) : Prop :=
  decodeModifiedUtf8 (rethrowAsJavaException message) = some (messageUnits message)

/-! ## Code points -/

section Points

variable {c : ℕ} {points : List ℕ} {units : U16String}

/-- A unit that is no surrogate is a code point by itself. -/
theorem encodeUtf16_of_plane (plane : c < 0x10000) : encodeUtf16 c = [UInt16.ofNat c] :=
  if_pos plane

/-- Well-formed UTF-16 is made of code points that are no surrogates. -/
theorem decodeUtf16_spec (decoded : decodeUtf16 units = some points) :
    points.flatMap encodeUtf16 = units ∧ ∀ c ∈ points, IsScalar c := by
  induction units using decodeUtf16.induct generalizing points with
  | case1 =>
    obtain rfl := Option.some_inj.mp decoded
    exact ⟨rfl, by simp⟩
  | case2 u us plain ih =>
    rw [decodeUtf16.eq_def] at decoded
    dsimp only at decoded
    rw [if_pos plain, Option.map_eq_some_iff] at decoded
    obtain ⟨rest, decoded, rfl⟩ := decoded
    obtain ⟨same, scalars⟩ := ih decoded
    have small := u.toNat_lt
    rw [List.flatMap_cons, same, encodeUtf16_of_plane small, UInt16.ofNat_toNat,
      List.forall_mem_cons]
    refine ⟨rfl, ?_, scalars⟩
    unfold IsScalar
    omega
  | case3 u plain high =>
    rw [decodeUtf16.eq_def] at decoded
    dsimp only at decoded
    rw [if_neg plain, if_pos high] at decoded
    cases decoded
  | case4 u plain high v vs low ih =>
    rw [decodeUtf16.eq_def] at decoded
    dsimp only at decoded
    rw [if_neg plain, if_pos high, if_pos low, Option.map_eq_some_iff] at decoded
    obtain ⟨rest, decoded, rfl⟩ := decoded
    obtain ⟨same, scalars⟩ := ih decoded
    -- The two halves are those of the code point.
    have first : 0xD800 + (0x10000 + (u.toNat - 0xD800) * 1024 + (v.toNat - 0xDC00) -
        0x10000) / 1024 = u.toNat := by omega
    have second : 0xDC00 + (0x10000 + (u.toNat - 0xD800) * 1024 + (v.toNat - 0xDC00) -
        0x10000) % 1024 = v.toNat := by omega
    rw [List.flatMap_cons, same, encodeUtf16, if_neg (by omega), first, second,
      UInt16.ofNat_toNat, UInt16.ofNat_toNat, List.forall_mem_cons]
    refine ⟨rfl, ?_, scalars⟩
    unfold IsScalar
    omega
  | case5 u plain high v vs low =>
    rw [decodeUtf16.eq_def] at decoded
    dsimp only at decoded
    rw [if_neg plain, if_pos high, if_neg low] at decoded
    cases decoded
  | case6 u us plain high =>
    rw [decodeUtf16.eq_def] at decoded
    dsimp only at decoded
    rw [if_neg plain, if_neg high] at decoded
    cases decoded

/-- No unit of a supplementary character is a character by itself. -/
theorem ofNat_ne_of_supplementary {other : ℕ} (scalar : IsScalar c) (plane : c < 0x10000)
    (supplementary : ¬ other < 0x10000) (bound : IsScalar other) :
    UInt16.ofNat c ≠ UInt16.ofNat (0xD800 + (other - 0x10000) / 1024) := by
  intro same
  unfold IsScalar at scalar bound
  have units := congrArg UInt16.toNat same
  rw [UInt16.toNat_ofNat_of_lt' plane, UInt16.toNat_ofNat_of_lt' (by
    rw [UInt16.size]
    omega)] at units
  omega

/-- Characters of the basic plane are a beginning of a string exactly if their code units are a
beginning of its code units. -/
theorem map_ofNat_prefix_iff {shown : List ℕ} (agree : ∀ c ∈ shown, IsScalar c ∧ c < 0x10000)
    (scalars : ∀ c ∈ points, IsScalar c) :
    shown.map UInt16.ofNat <+: points.flatMap encodeUtf16 ↔ shown <+: points := by
  induction shown generalizing points with
  | nil => exact iff_of_true List.nil_prefix List.nil_prefix
  | cons c shown ih =>
    rw [List.forall_mem_cons] at agree
    obtain ⟨⟨scalar, plane⟩, agree⟩ := agree
    cases points with
    | nil => simp
    | cons other points =>
      rw [List.forall_mem_cons] at scalars
      obtain ⟨bound, scalars⟩ := scalars
      rw [List.map_cons, List.flatMap_cons, List.cons_prefix_cons]
      -- A supplementary character begins with a surrogate, which is none of those shown.
      by_cases small : other < 0x10000
      · rw [encodeUtf16_of_plane small, List.singleton_append, List.cons_prefix_cons,
          ih agree scalars]
        refine and_congr_left fun _ => ⟨fun same => ?_, fun same => by rw [same]⟩
        have units := congrArg UInt16.toNat same
        rwa [UInt16.toNat_ofNat_of_lt' plane, UInt16.toNat_ofNat_of_lt' small] at units
      · rw [encodeUtf16, if_neg small, List.cons_append, List.cons_prefix_cons]
        refine iff_of_false (fun same => ?_) fun same => small (same.1 ▸ plane)
        exact ofNat_ne_of_supplementary scalar plane small bound same.1

/-- No byte of a character but NUL is NUL. -/
theorem ne_zero_of_mem_encodeUtf8 (scalar : IsScalar c) (positive : c ≠ 0) {b : UInt8}
    (mem : b ∈ encodeUtf8 c) : b ≠ 0 := by
  have bound : c < 0x110000 := by
    unfold IsScalar at scalar
    omega
  have nonzero {n : ℕ} (low : 0 < n) (high : n < 256) : UInt8.ofNat n ≠ 0 := by
    intro zero
    have same := congrArg UInt8.toNat zero
    rw [toNat_byte high] at same
    exact Nat.ne_of_gt low same
  unfold encodeUtf8 at mem
  split_ifs at mem
  all_goals
    simp only [List.mem_cons, List.not_mem_nil, or_false] at mem
    rcases mem with rfl | rfl | rfl | rfl <;> exact nonzero (by omega) (by omega)

/-- A C string ends with the character in front of the first NUL. -/
theorem cStr_encode (scalars : ∀ c ∈ points, IsScalar c) :
    cStr (encode points) = encode (points.takeWhile fun c => c ≠ 0) := by
  induction points with
  | nil => rfl
  | cons c points ih =>
    rw [List.forall_mem_cons] at scalars
    by_cases zero : c = 0
    · subst zero
      rfl
    · have clean : ∀ b ∈ encodeUtf8 c, decide (b ≠ 0) = true := fun b mem =>
        decide_eq_true (ne_zero_of_mem_encodeUtf8 scalars.1 zero mem)
      rw [encode_cons, cStr, List.takeWhile_append_of_pos clean,
        List.takeWhile_cons_of_pos (by simpa using zero), encode_cons]
      exact congrArg _ (ih scalars.2)

end Points

/-! ## Parts -/

theorem WellFormed.toUtf8_eq (text : WellFormed) : text.toUtf8 = encode text.points := by
  have bytes : utf16ToUtf8String text.units = some (encode text.points) := by
    rw [utf16ToUtf8String, text.decoded]
    rfl
  simp only [WellFormed.toUtf8, bytes, Option.get_some]

theorem Piece.isScalar_points (part : Piece) : ∀ c ∈ part.points, IsScalar c := by
  cases part with
  | ascii text =>
    intro c mem
    have small := (text.clean c mem).2
    unfold IsScalar
    omega
  | string text => exact (decodeUtf16_spec text.decoded).2

/-- The code units of a part are those of its code points. -/
theorem Piece.units_eq (part : Piece) : part.units = part.points.flatMap encodeUtf16 := by
  cases part with
  | ascii text =>
    rw [Piece.units, Piece.points, List.map_eq_flatMap]
    refine List.flatMap_congr fun c mem => ?_
    have small := (text.clean c mem).2
    exact (encodeUtf16_of_plane (by omega)).symm
  | string text => exact (decodeUtf16_spec text.decoded).1.symm

/-- The bytes of a part are those of its code points. -/
theorem Piece.bytes_eq (part : Piece) : part.bytes = encode part.points := by
  cases part with
  | ascii text =>
    rw [Piece.bytes, Piece.points, List.map_eq_flatMap]
    exact List.flatMap_congr fun c mem => (if_pos (text.clean c mem).2).symm
  | string text => exact WellFormed.toUtf8_eq text

/-- The code units of a message are those of its code points. -/
theorem messageUnits_eq (message : List Piece) :
    messageUnits message = (messagePoints message).flatMap encodeUtf16 := by
  rw [messageUnits, messagePoints, List.flatMap_assoc]
  exact List.flatMap_congr fun part _ => part.units_eq

/-- The text of a message. -/
def spell (message : List Piece) : String :=
  String.ofList ((messagePoints message).map Char.ofNat)

theorem spell_append (message more : List Piece) :
    spell (message ++ more) = spell message ++ spell more := by
  rw [spell, messagePoints, List.flatMap_append, List.map_append, String.ofList_append]
  rfl

/-- The digits of a number are its text. -/
theorem spell_decimal (n : ℕ) : spell [.ascii (decimal n)] = toString n := by
  have points : messagePoints [.ascii (decimal n)] = (Nat.toDigits 10 n).map Char.toNat :=
    List.append_nil _
  have back : Char.ofNat ∘ Char.toNat = id := funext Char.ofNat_toNat
  rw [spell, points, List.map_map, back, List.map_id, Nat.toString_eq_ofList_toDigits]

/-- A path in a message is its text. -/
theorem spell_string (string : WellFormed) : spell [.string string] = text string.units := by
  have points : messagePoints [.string string] = string.points := List.append_nil _
  rw [spell, points, text, string.decoded, Option.getD_some]

/-- The parts make the text that `createMessage` builds. -/
theorem spell_messageParts (message : Ascii) (path : Option WellFormed)
    (errorCode : Option ErrorCode) : spell (messageParts message path errorCode) =
      createMessage (spell [.ascii message]) (path.map WellFormed.units) errorCode := by
  rw [messageParts, spell_append, spell_append, createMessage]
  congr 1
  · congr 1
    cases errorCode with
    | none => rfl
    | some code => exact (spell_append [_] [_]).trans (congrArg _ (spell_decimal code))
  · cases path with
    | none => rfl
    | some path => exact (spell_append [_] [_]).trans (congrArg _ (spell_string path))

/-- The bytes of a message are those of its code points. -/
theorem what_eq (message : List Piece) : what message = encode (messagePoints message) := by
  rw [what, messagePoints, encode, List.flatMap_assoc]
  exact List.flatMap_congr fun part _ => part.bytes_eq

theorem isScalar_messagePoints {message : List Piece} :
    ∀ c ∈ messagePoints message, IsScalar c := by
  intro c mem
  obtain ⟨part, -, mem⟩ := List.mem_flatMap.mp mem
  exact part.isScalar_points c mem

/-- What is in front of the first NUL. -/
def beforeNul (points : List ℕ) : List ℕ := points.takeWhile fun c => c ≠ 0

/-- The code points that are written for a part: a string ends in front of a NUL. -/
def Conversion.writtenPoints : Conversion → List ℕ
  | piece part => beforeNul part.points
  | wide _ => []

/-- The code points that are written. -/
def writtenPoints (conversions : List Conversion) : List ℕ :=
  conversions.flatMap Conversion.writtenPoints

/-- No narrow string is written by `%ls`. -/
def Narrow (conversions : List Conversion) : Prop := ∀ text, Conversion.wide text ∉ conversions

theorem beforeNul_ascii (text : Ascii) : beforeNul text.points = text.points := by
  refine List.takeWhile_eq_self_iff.mpr fun c mem => ?_
  exact decide_eq_true (text.clean c mem).1

/-- A part is written up to a NUL. -/
theorem Conversion.write_piece (part : Piece) :
    (Conversion.piece part).write = some (encode (beforeNul part.points)) := by
  cases part with
  | ascii text => rw [Conversion.write, Piece.bytes_eq, Piece.points, beforeNul_ascii]
  | string text =>
    rw [Conversion.write, WellFormed.toUtf8_eq, cStr_encode]
    · rfl
    · exact Piece.isScalar_points (.string text)

/-- Without a `%ls`, the bytes of what is written of each part are written. -/
theorem format_eq {conversions : List Conversion} (narrow : Narrow conversions) :
    format conversions = some (encode (writtenPoints conversions)) := by
  induction conversions with
  | nil => rfl
  | cons conversion conversions ih =>
    have rest := ih fun text mem => narrow text (List.mem_cons_of_mem _ mem)
    cases conversion with
    | piece part =>
      have parts : writtenPoints (.piece part :: conversions) =
          beforeNul part.points ++ writtenPoints conversions := List.flatMap_cons
      rw [format, Conversion.write_piece, rest, parts, encode, encode, encode,
        List.flatMap_append]
      rfl
    | wide text => exact absurd List.mem_cons_self (narrow text)

/-- With a `%ls` it is undefined what is written. -/
theorem format_eq_none {conversions : List Conversion} (wide : ¬ Narrow conversions) :
    format conversions = none := by
  obtain ⟨text, found⟩ := not_forall.mp wide
  have mem := not_not.mp found
  clear wide found
  induction conversions with
  | nil => cases mem
  | cons conversion conversions ih =>
    rcases List.mem_cons.mp mem with rfl | mem
    · rfl
    · rw [format, ih mem]
      cases conversion.write with
      | none => rfl
      | some bytes => rfl

/-- Up to its first NUL, the message that is meant is written. -/
theorem beforeNul_prefix_writtenPoints {conversions : List Conversion}
    (narrow : Narrow conversions) :
    beforeNul (messagePoints (meant conversions)) <+: writtenPoints conversions := by
  induction conversions with
  | nil => exact List.nil_prefix
  | cons conversion conversions ih =>
    have rest := ih fun text mem => narrow text (List.mem_cons_of_mem _ mem)
    cases conversion with
    | piece part =>
      have parts : messagePoints (meant (.piece part :: conversions)) =
          part.points ++ messagePoints (meant conversions) := List.flatMap_cons
      rw [parts, writtenPoints, List.flatMap_cons, Conversion.writtenPoints, beforeNul,
        List.takeWhile_append]
      split_ifs with clean
      · have whole : beforeNul part.points = part.points :=
          (List.takeWhile_prefix _).eq_of_length clean
        rw [whole, List.prefix_append_right_inj]
        exact rest
      · exact List.prefix_append _ _
    | wide text => exact absurd List.mem_cons_self (narrow text)

theorem ne_zero_of_mem_writtenPoints {conversions : List Conversion} :
    ∀ c ∈ writtenPoints conversions, IsScalar c ∧ c ≠ 0 := by
  intro c mem
  obtain ⟨conversion, -, mem⟩ := List.mem_flatMap.mp mem
  cases conversion with
  | piece part =>
    have taken := List.mem_takeWhile_imp mem
    exact ⟨part.isScalar_points c (List.takeWhile_subset _ mem), of_decide_eq_true taken⟩
  | wide text => cases mem

/-! ## What is handed over -/

section HandedOver

variable {conversions : List Conversion} {message : List Piece}

/-- The characters of a log message that fit into the buffer. -/
def shown (conversions : List Conversion) : List ℕ :=
  fitting utf8Length (sizeofBuffer - 1) (writtenPoints conversions)

/-- What is written of a log message is a beginning of it in modified UTF-8. -/
structure Legible (conversions : List Conversion) : Prop where
  narrow : Narrow conversions
  /-- No character is cut. -/
  boundary : encode (shown conversions) =
    (encode (writtenPoints conversions)).take (sizeofBuffer - 1)
  /-- No supplementary character is shown. -/
  plane : ∀ c ∈ shown conversions, c < 0x10000
  /-- Nothing is shown that is behind a NUL in the message. -/
  clean : (shown conversions).length ≤ (beforeNul (messagePoints (meant conversions))).length

theorem shown_beginning : shown conversions <+: writtenPoints conversions := fitting_prefix

/-- What is shown is a beginning of the message exactly if it ends in front of the first NUL of the
message. -/
theorem shown_prefix_iff (narrow : Narrow conversions) :
    shown conversions <+: messagePoints (meant conversions) ↔
      (shown conversions).length ≤ (beforeNul (messagePoints (meant conversions))).length := by
  constructor
  · rintro ⟨rest, whole⟩
    have clean : ∀ c ∈ shown conversions, decide (c ≠ 0) = true := fun c mem =>
      decide_eq_true (ne_zero_of_mem_writtenPoints c (shown_beginning.mem mem)).2
    rw [← whole, beforeNul, List.takeWhile_append_of_pos clean, List.length_append]
    exact Nat.le_add_right _ _
  · intro short
    have beginning := List.prefix_of_prefix_length_le shown_beginning
      (beforeNul_prefix_writtenPoints narrow) short
    exact beginning.trans (List.takeWhile_prefix _)

/-- The JVM gets a beginning of a log message exactly if that is legible. -/
theorem sendsPrefix_iff : Logging.SendsPrefix conversions ↔ Legible conversions := by
  by_cases narrow : Narrow conversions
  · have written : Logging.send conversions =
        some ((encode (writtenPoints conversions)).take (sizeofBuffer - 1)) := by
      rw [Logging.send, vsnprintf, format_eq narrow]
      rfl
    have scalars : ∀ c ∈ writtenPoints conversions, IsScalar c := fun c mem =>
      (ne_zero_of_mem_writtenPoints c mem).1
    have nonzero : ∀ c ∈ shown conversions, IsScalar c ∧ c ≠ 0 := fun c mem =>
      ne_zero_of_mem_writtenPoints c (shown_beginning.mem mem)
    constructor
    · rintro ⟨bytes, units, sent, decoded, beginning⟩
      obtain rfl := Option.some_inj.mp (written.symm.trans sent)
      -- What the JVM makes of the bytes are the characters that fit.
      obtain ⟨boundary, agree, rfl⟩ := (decodeModifiedUtf8_take_iff scalars).mp decoded
      have plane : ∀ c ∈ shown conversions, c < 0x10000 := fun c mem => (agree c mem).2
      rw [messageUnits_eq] at beginning
      have characters := (map_ofNat_prefix_iff
        (fun c mem => ⟨(nonzero c mem).1, plane c mem⟩) isScalar_messagePoints).mp beginning
      exact ⟨narrow, boundary, plane, (shown_prefix_iff narrow).mp characters⟩
    · rintro ⟨-, boundary, plane, clean⟩
      refine ⟨_, _, written, (decodeModifiedUtf8_take_iff scalars).mpr ⟨boundary, ?_, rfl⟩, ?_⟩
      · exact fun c mem => ⟨(nonzero c mem).2, plane c mem⟩
      · rw [messageUnits_eq]
        exact (map_ofNat_prefix_iff (fun c mem => ⟨(nonzero c mem).1, plane c mem⟩)
          isScalar_messagePoints).mpr ((shown_prefix_iff narrow).mpr clean)
  · have undefined : Logging.send conversions = none := by
      rw [Logging.send, vsnprintf, format_eq_none narrow]
      rfl
    refine iff_of_false ?_ fun legible => narrow legible.narrow
    rintro ⟨bytes, units, sent, -⟩
    rw [undefined] at sent
    cases sent

/-- A code point has one or two code units. -/
theorem length_le_length_flatMap (points : List ℕ) :
    points.length ≤ (points.flatMap encodeUtf16).length := by
  induction points with
  | nil => exact Nat.le_refl _
  | cons c points ih =>
    have some : 0 < (encodeUtf16 c).length := by
      unfold encodeUtf16
      split_ifs <;> exact Nat.succ_pos _
    rw [List.flatMap_cons, List.length_append, List.length_cons]
    omega

/-- The JVM gets the whole message of an exception exactly if UTF-8 and modified UTF-8 agree on
it. -/
theorem throwsWhole_iff : ThrowsWhole message ↔ ∀ c ∈ messagePoints message, Agrees c := by
  have scalars : ∀ c ∈ beforeNul (messagePoints message), IsScalar c := fun c mem =>
    isScalar_messagePoints c (List.takeWhile_subset _ mem)
  have thrown : rethrowAsJavaException message = encode (beforeNul (messagePoints message)) := by
    rw [rethrowAsJavaException, what_eq, cStr_encode isScalar_messagePoints]
    rfl
  rw [ThrowsWhole, thrown, messageUnits_eq, decodeModifiedUtf8_encode_iff scalars]
  constructor
  · rintro ⟨agree, same⟩
    -- Behind a NUL nothing may be missing.
    have length := length_le_length_flatMap (messagePoints message)
    rw [same, List.length_map] at length
    have whole := (List.takeWhile_prefix _).eq_of_length_le length
    rw [beforeNul, whole] at agree
    exact agree
  · intro agree
    have whole : beforeNul (messagePoints message) = messagePoints message :=
      List.takeWhile_eq_self_iff.mpr fun c mem => decide_eq_true (agree c mem).1
    rw [whole]
    refine ⟨agree, ?_⟩
    rw [List.map_eq_flatMap]
    exact List.flatMap_congr fun c mem => encodeUtf16_of_plane (agree c mem).2

/-- The JVM gets a beginning of each log message exactly if no narrow string is written by `%ls`,
the characters that fit into the buffer fill it or are all there are, none of them is
supplementary, and none is behind a NUL of the message; and the whole message of an exception
exactly if that has no NUL and no supplementary character. -/
theorem handsOverText_iff (conversions : List Conversion) (message : List Piece) :
    (Logging.SendsPrefix conversions ↔ Legible conversions) ∧
      (ThrowsWhole message ↔ ∀ c ∈ messagePoints message, c ≠ 0 ∧ c < 0x10000) :=
  ⟨sendsPrefix_iff, throwsWhole_iff⟩

end HandedOver

/-! ## A path that does not arrive -/

/-- The path `/😀`. -/
def smiley : WellFormed where
  units := [0x2F, 0xD83D, 0xDE00]
  points := [0x2F, 0x1F600]
  decoded := by decide

/-- `"Already watching path"`. -/
def alreadyWatching : Ascii where
  points := [0x41, 0x6C, 0x72, 0x65, 0x61, 0x64, 0x79, 0x20, 0x77, 0x61, 0x74, 0x63, 0x68, 0x69,
    0x6E, 0x67, 0x20, 0x70, 0x61, 0x74, 0x68]
  clean := by decide

/-- A supplementary character in the message of an exception does not arrive. -/
theorem not_forall_handsOverText :
    ¬ ((∀ conversions : List Conversion, Logging.SendsPrefix conversions) ∧
      ∀ message : List Piece, ThrowsWhole message) := by
  rintro ⟨-, throws⟩
  have whole := throwsWhole_iff.mp (throws (messageParts alreadyWatching (some smiley) none))
  exact absurd (whole 0x1F600 (by decide)) (by decide)

/-- A path `/é` of which the first byte of the `é` is the last one in a buffer of three. -/
example : vsnprintf 3 [.piece (.string ⟨[0x2F, 0xE9], [0x2F, 0xE9], by decide⟩)] =
    some [0x2F, 0xC3] ∧ decodeModifiedUtf8 [0x2F, 0xC3] = none :=
  ⟨by decide, by decide⟩

end JvmText

end FileEvents
