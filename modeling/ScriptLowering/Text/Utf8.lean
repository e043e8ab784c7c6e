/-! # Reading UTF-8

A byte string is UTF-8 when it splits into the encodings of characters: one byte below `0x80`,
or a lead byte followed by one to three continuation bytes in `0x80..0xBF`, with the ranges
of the second byte narrowed so that no character is encoded in more bytes than it needs, no
surrogate is encoded and nothing above `U+10FFFF` is. Anything else is not text.
-/

namespace ScriptLowering.Text

/-- Whether a byte continues a multi-byte character. -/
def isContinuation (byte : UInt8) : Bool := 0x80 ≤ byte && byte ≤ 0xBF

/-- The low six bits of a continuation byte. -/
def payload (byte : UInt8) : Nat := byte.toNat % 64

/-- The characters a byte string encodes, or none when it is not UTF-8. -/
def decodeUtf8 : List UInt8 → Option (List Char)
  | [] => some []
  | b0 :: rest =>
    if b0 < 0x80 then (Char.ofNat b0.toNat :: ·) <$> decodeUtf8 rest
    else if 0xC2 ≤ b0 && b0 ≤ 0xDF then
      match rest with
      | b1 :: rest =>
        if isContinuation b1 then
          (Char.ofNat ((b0.toNat % 32) * 64 + payload b1) :: ·) <$> decodeUtf8 rest
        else none
      | [] => none
    else if 0xE0 ≤ b0 && b0 ≤ 0xEF then
      let low : UInt8 := if b0 == 0xE0 then 0xA0 else 0x80
      let high : UInt8 := if b0 == 0xED then 0x9F else 0xBF
      match rest with
      | b1 :: b2 :: rest =>
        if low ≤ b1 && b1 ≤ high && isContinuation b2 then
          (Char.ofNat ((b0.toNat % 16) * 4096 + payload b1 * 64 + payload b2) :: ·) <$> decodeUtf8 rest
        else none
      | _ => none
    else if 0xF0 ≤ b0 && b0 ≤ 0xF4 then
      let low : UInt8 := if b0 == 0xF0 then 0x90 else 0x80
      let high : UInt8 := if b0 == 0xF4 then 0x8F else 0xBF
      match rest with
      | b1 :: b2 :: b3 :: rest =>
        if low ≤ b1 && b1 ≤ high && isContinuation b2 && isContinuation b3 then
          (Char.ofNat ((b0.toNat % 8) * 262144 + payload b1 * 4096 + payload b2 * 64 + payload b3) :: ·) <$>
            decodeUtf8 rest
        else none
      | _ => none
    else none

example : decodeUtf8 [0x68, 0xC3, 0xA9] = some ['h', 'é'] := by decide
example : decodeUtf8 [0xFF, 0xFE, 0x00] = none := by decide
example : decodeUtf8 [0xED, 0xA0, 0x80] = none := by decide

end ScriptLowering.Text
