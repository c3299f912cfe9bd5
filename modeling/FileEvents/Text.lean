import Mathlib.Data.List.Basic

/-!
# Strings of the native layer

Java hands paths over as UTF-16 (`u16string`), the operating system and the
exception messages use UTF-8 (`string`). The conversions `utf8ToUtf16String` and
`utf16ToUtf8String` of `jni_support.cpp` are `wstring_convert` over the standard
UTF-8/UTF-16 facet: they go through code points and throw `range_error` on input
that is not well formed, which is `none` here.
-/

namespace FileEvents

/-- A `u16string`: a sequence of UTF-16 code units. -/
abbrev U16String := List UInt16

/-- A narrow `string`: a sequence of bytes. -/
abbrev ByteString := List UInt8

namespace Text

/-- A continuation byte of UTF-8 within the given bounds. -/
def isTrail (low high : ℕ) (b : UInt8) : Bool := low ≤ b.toNat && b.toNat ≤ high

/-- The low six bits of a continuation byte. -/
def trailBits (b : UInt8) : ℕ := b.toNat % 64

/-- The lower bound of the second byte of a three-byte sequence. -/
def secondLow3 (lead : ℕ) : ℕ := if lead = 0xE0 then 0xA0 else 0x80

/-- The upper bound of the second byte of a three-byte sequence. -/
def secondHigh3 (lead : ℕ) : ℕ := if lead = 0xED then 0x9F else 0xBF

/-- The lower bound of the second byte of a four-byte sequence. -/
def secondLow4 (lead : ℕ) : ℕ := if lead = 0xF0 then 0x90 else 0x80

/-- The upper bound of the second byte of a four-byte sequence. -/
def secondHigh4 (lead : ℕ) : ℕ := if lead = 0xF4 then 0x8F else 0xBF

/-- The code points of a UTF-8 byte string, `none` if it is not well formed. -/
def decodeUtf8 : ByteString → Option (List ℕ)
  | [] => some []
  | a :: as =>
    if a.toNat < 0x80 then (decodeUtf8 as).map (a.toNat :: ·)
    else match as with
      | [] => none
      | b :: bs =>
        if 0xC2 ≤ a.toNat ∧ a.toNat < 0xE0 then
          if isTrail 0x80 0xBF b then
            (decodeUtf8 bs).map ((a.toNat % 32 * 64 + trailBits b) :: ·)
          else none
        else match bs with
          | [] => none
          | c :: cs =>
            if 0xE0 ≤ a.toNat ∧ a.toNat < 0xF0 then
              if isTrail (secondLow3 a.toNat) (secondHigh3 a.toNat) b &&
                  isTrail 0x80 0xBF c then
                (decodeUtf8 cs).map
                  ((a.toNat % 16 * 4096 + trailBits b * 64 + trailBits c) :: ·)
              else none
            else match cs with
              | [] => none
              | d :: ds =>
                if 0xF0 ≤ a.toNat ∧ a.toNat < 0xF5 then
                  if isTrail (secondLow4 a.toNat) (secondHigh4 a.toNat) b &&
                      isTrail 0x80 0xBF c && isTrail 0x80 0xBF d then
                    (decodeUtf8 ds).map
                      ((a.toNat % 8 * 262144 + trailBits b * 4096 + trailBits c * 64 +
                        trailBits d) :: ·)
                  else none
                else none

/-- The UTF-16 code units of a code point. -/
def encodeUtf16 (c : ℕ) : U16String :=
  if c < 0x10000 then [UInt16.ofNat c]
  else [UInt16.ofNat (0xD800 + (c - 0x10000) / 1024),
    UInt16.ofNat (0xDC00 + (c - 0x10000) % 1024)]

/-- The code points of a UTF-16 string, `none` on an unpaired surrogate. -/
def decodeUtf16 : U16String → Option (List ℕ)
  | [] => some []
  | u :: us =>
    if u.toNat < 0xD800 ∨ 0xE000 ≤ u.toNat then (decodeUtf16 us).map (u.toNat :: ·)
    else if u.toNat < 0xDC00 then
      match us with
      | [] => none
      | v :: vs =>
        if 0xDC00 ≤ v.toNat ∧ v.toNat < 0xE000 then
          (decodeUtf16 vs).map
            ((0x10000 + (u.toNat - 0xD800) * 1024 + (v.toNat - 0xDC00)) :: ·)
        else none
    else none

/-- The UTF-8 bytes of a code point. -/
def encodeUtf8 (c : ℕ) : ByteString :=
  if c < 0x80 then [UInt8.ofNat c]
  else if c < 0x800 then [UInt8.ofNat (0xC0 + c / 64), UInt8.ofNat (0x80 + c % 64)]
  else if c < 0x10000 then
    [UInt8.ofNat (0xE0 + c / 4096), UInt8.ofNat (0x80 + c / 64 % 64),
      UInt8.ofNat (0x80 + c % 64)]
  else
    [UInt8.ofNat (0xF0 + c / 262144), UInt8.ofNat (0x80 + c / 4096 % 64),
      UInt8.ofNat (0x80 + c / 64 % 64), UInt8.ofNat (0x80 + c % 64)]

end Text

open Text

/-- `utf8ToUtf16String`: `none` where `from_bytes` throws `range_error`. -/
def utf8ToUtf16String (string : ByteString) : Option U16String :=
  (decodeUtf8 string).map fun points => points.flatMap encodeUtf16

/-- `utf16ToUtf8String`: `none` where `to_bytes` throws `range_error`. -/
def utf16ToUtf8String (string : U16String) : Option ByteString :=
  (decodeUtf16 string).map fun points => points.flatMap encodeUtf8

/-- A UTF-16 string as it appears in a message. -/
def text (string : U16String) : String :=
  String.ofList (((decodeUtf16 string).getD []).map Char.ofNat)

/-- The code units of a text literal, `u"..."` in the source. -/
def u16 (s : String) : U16String := s.toList.flatMap fun c => encodeUtf16 c.toNat

end FileEvents
