import ScriptLowering.Text.Printable
import ScriptLowering.Text.Extending

/-! # Quoted text

Text is shown between double quotes. Inside, the NUL, tab, carriage return and line feed are
written `\0`, `\t`, `\r` and `\n`, a backslash and a double quote get a backslash before them,
and every extending or unprintable character is written as `\u{h}` with its code point in
lowercase hexadecimal without leading zeros. All other characters stand for themselves.
-/

namespace ScriptLowering.Text

/-- The lowercase hexadecimal digits of a code point, without leading zeros. -/
def hexDigits (code : Nat) : List Char := Nat.toDigits 16 code

/-- How one character is written between quotes. -/
def escapeChar (c : Char) : List Char :=
  match c with
  | '\x00' => ['\\', '0']
  | '\t' => ['\\', 't']
  | '\r' => ['\\', 'r']
  | '\n' => ['\\', 'n']
  | '\\' => ['\\', '\\']
  | '"' => ['\\', '"']
  | c =>
    if isExtending c || !isPrintable c then
      ['\\', 'u', '\x7b'] ++ hexDigits c.toNat ++ ['\x7d']
    else [c]

/-- A text between double quotes, with the characters inside escaped. -/
def quoteChars (text : List Char) : List Char :=
  '"' :: (text.flatMap escapeChar ++ ['"'])

/-- A string between double quotes, with the characters inside escaped. -/
def quote (text : String) : String := String.ofList (quoteChars text.toList)

example : quote "a\"b" = "\"a\\\"b\"" := by decide +kernel
example : quote "\u0301" = "\"\\u{301}\"" := by decide +kernel

end ScriptLowering.Text
