import ScriptLowering.Number.Binary64

/-! # Reading decimal numbers

A number text is an optional sign followed either by a decimal, or by `inf`, `infinity` or
`nan` in any mix of cases. A decimal is a run of digits with an optional point and more digits,
at least one digit in all, then an optional exponent: `e` or `E`, an optional sign and at least
one digit. So `1e5`, `+3`, `.5` and `7.` are numbers and `.`, `1e` and ` 1` are not.

The value of a decimal is rounded to the nearest binary64 value, a tie going to the even one.
A decimal of at least `10^310` is infinite and one below `10^-325` is zero, whatever its digits,
which spares computing with huge powers of ten.
-/

namespace ScriptLowering.Number

/-- The value of a run of decimal digits. -/
def digitsValue (digits : List Char) : Nat :=
  digits.foldl (fun value d => 10 * value + (d.toNat - '0'.toNat)) 0

/-- Splits off a sign: whether it is a minus, and the rest. -/
def splitSign : List Char → Bool × List Char
  | '-' :: rest => (true, rest)
  | '+' :: rest => (false, rest)
  | text => (false, text)

/-- The exponent part after `e` or `E`: an optional sign and at least one digit, and nothing after. -/
def readExponent (text : List Char) : Option Int :=
  let (negative, digits) := splitSign text
  if digits.isEmpty || !digits.all Char.isDigit then none
  else
    let value : Int := digitsValue digits
    some (if negative then -value else value)

/-- A decimal without its sign: its digits as a natural and the power of ten that scales them. -/
def readDecimal (text : List Char) : Option (Nat × Int) :=
  let whole := text.takeWhile Char.isDigit
  let afterWhole := text.dropWhile Char.isDigit
  let (fractional, afterFraction) : List Char × List Char :=
    match afterWhole with
    | '.' :: rest => (rest.takeWhile Char.isDigit, rest.dropWhile Char.isDigit)
    | rest => ([], rest)
  if whole.isEmpty && fractional.isEmpty then none
  else
    let exponent : Option Int :=
      match afterFraction with
      | [] => some 0
      | c :: rest => if c == 'e' || c == 'E' then readExponent rest else none
    exponent.map fun exponent =>
      (digitsValue (whole ++ fractional), exponent - fractional.length)

/-- The number of decimal digits of a positive natural. -/
def decimalLength (value : Nat) : Nat := (Nat.toDigits 10 value).length

/-- The binary64 value nearest to `digits · 10^power`, with a sign. -/
def ofDecimal (negative : Bool) (digits : Nat) (power : Int) : Binary64 :=
  if digits = 0 then Binary64.zero negative
  else
    let magnitude := (decimalLength digits : Int) + power
    if 310 < magnitude then .infinite negative
    else if magnitude < -325 then Binary64.zero negative
    else if 0 ≤ power then Binary64.ofRatio negative (digits * Nat.pow 10 power.toNat) 1
    else Binary64.ofRatio negative digits (Nat.pow 10 (-power).toNat)

/-- The text in lower case, for the names of the special values. -/
def lowerAscii (text : List Char) : List Char := text.map Char.toLower

/-- Reads a number text; none when it is not one. -/
def readNumber? (text : String) : Option Binary64 :=
  match text.toList with
  | [] => none
  | chars =>
    let (negative, rest) := splitSign chars
    if rest.isEmpty then none
    else
      match readDecimal rest with
      | some (digits, power) => some (ofDecimal negative digits power)
      | none =>
        let word := String.ofList (lowerAscii rest)
        if word == "inf" || word == "infinity" then some (.infinite negative)
        else if word == "nan" then some .nan
        else none

example : readNumber? "1" = some (.finite false 1023 0) := by decide +kernel
example : readNumber? "." = none := by decide +kernel
example : readNumber? "-Infinity" = some (.infinite true) := by decide +kernel

end ScriptLowering.Number
