import ScriptLowering.Number.Binary64

/-! # Shortest decimal text of a number

A finite number is written with the fewest significant digits that read back as the same
number, and among those the nearest to it, without an exponent: `0.001`, `123.25`,
`123456789012345680000000000000`. Zero is `0`, a negative value has a leading `-` (so the
negative zero is `-0`), and the special values are `inf`, `-inf` and `NaN`.

Reading back means landing in the rounding interval of the value: the reals halfway to its two
neighbours, ends included when the significand is even. Following the usual decoding, the
interval of a normal power of two is only a quarter unit wide below it, and that of a
subnormal value always includes its ends. For each count of digits from one up, the two nearest
decimals of that many digits around the value are tested in exact natural arithmetic; the first
count with a hit wins, the nearer of two hits is taken, and a tie goes up.
-/

namespace ScriptLowering.Binary64

/-- A finite positive value as `significand · 2^power` with the reach of its rounding interval:
`lower` and `upper` in the same units, and whether the interval includes its ends. -/
structure Interval where
  significand : Nat
  lower : Nat
  upper : Nat
  power : Int
  inclusive : Bool
  deriving Repr

/-- The rounding interval of a finite non-zero value. -/
def interval (exponent : Fin 2047) (fraction : Fin (Nat.pow 2 52)) : Interval :=
  if exponent.val = 0 then
    ⟨2 * fraction.val, 1, 1, -1075, true⟩
  else
    let significand := Nat.pow 2 52 + fraction.val
    let power : Int := (exponent.val : Int) - 1075
    let even := significand % 2 == 0
    if fraction.val = 0 then ⟨4 * significand, 1, 2, power - 2, even⟩
    else ⟨2 * significand, 1, 1, power - 1, even⟩

/-- A rational `numerator / denominator` with a positive denominator. -/
structure Ratio where
  numerator : Nat
  denominator : Nat
  deriving Repr

/-- The interval's value and ends as ratios over one denominator. -/
def Interval.ratios (i : Interval) : Ratio × Ratio × Ratio :=
  if 0 ≤ i.power then
    let unit := Nat.pow 2 i.power.toNat
    (⟨i.significand * unit, 1⟩, ⟨(i.significand - i.lower) * unit, 1⟩,
      ⟨(i.significand + i.upper) * unit, 1⟩)
  else
    let denominator := Nat.pow 2 (-i.power).toNat
    (⟨i.significand, denominator⟩, ⟨i.significand - i.lower, denominator⟩,
      ⟨i.significand + i.upper, denominator⟩)

/-- Compares `count · 10^place` with a ratio: negative, zero or positive as it is below, equal
to or above it. -/
def compareDecimal (count : Nat) (place : Int) (r : Ratio) : Ordering :=
  if 0 ≤ place then compare (count * Nat.pow 10 place.toNat * r.denominator) r.numerator
  else compare (count * r.denominator) (r.numerator * Nat.pow 10 (-place).toNat)

/-- Whether `10^place` is above a ratio. -/
def belowPower (r : Ratio) (place : Int) : Bool := compareDecimal 1 place r == .gt

/-- Moves a decimal place until `10^(place - 1) ≤ r < 10^place`, in at most `steps` steps. -/
def settlePlace (r : Ratio) : (steps : Nat) → (place : Int) → Int
  | 0, place => place
  | steps + 1, place =>
    if !belowPower r place then settlePlace r steps (place + 1)
    else if belowPower r (place - 1) then settlePlace r steps (place - 1)
    else place

/-- The count of `10^place` units below a ratio, rounded down. -/
def unitsBelow (r : Ratio) (place : Int) : Nat :=
  if 0 ≤ place then r.numerator / (r.denominator * Nat.pow 10 place.toNat)
  else r.numerator * Nat.pow 10 (-place).toNat / r.denominator

/-- Whether `count · 10^place` is inside the rounding interval with ends `low` and `high`. -/
def inside (inclusive : Bool) (low high : Ratio) (count : Nat) (place : Int) : Bool :=
  let aboveLow := compareDecimal count place low
  let belowHigh := compareDecimal count place high
  if inclusive then aboveLow != .lt && belowHigh != .gt
  else aboveLow == .gt && belowHigh == .lt

/-- The shortest decimal in the interval, as a count of units and the place of the unit, trying
`digits` significant digits first and at most `steps` more. -/
def shortestFrom (i : Interval) (value low high : Ratio) (top : Int) :
    (steps digits : Nat) → Nat × Int
  | 0, digits => (unitsBelow value (top - digits), top - digits)
  | steps + 1, digits =>
    let place := top - digits
    let down := unitsBelow value place
    let up := down + 1
    let downIn := inside i.inclusive low high down place
    let upIn := inside i.inclusive low high up place
    if downIn && upIn then
      -- the nearer of the two, a tie going up
      if compareDecimal (down + up) place ⟨2 * value.numerator, value.denominator⟩ == .gt then
        (down, place)
      else (up, place)
    else if downIn then (down, place)
    else if upIn then (up, place)
    else shortestFrom i value low high top steps (digits + 1)

/-- A count of units without its trailing zeros, the place moved up to match. -/
def trimZeros : (steps : Nat) → Nat → Int → Nat × Int
  | 0, count, place => (count, place)
  | steps + 1, count, place =>
    if count ≠ 0 ∧ count % 10 = 0 then trimZeros steps (count / 10) (place + 1) else (count, place)

/-- The decimal digits of the shortest decimal of a finite non-zero value and the place of its
point: the value is `0.d₁d₂… · 10^point`. -/
def shortestDigits (exponent : Fin 2047) (fraction : Fin (Nat.pow 2 52)) : List Char × Int :=
  let i := interval exponent fraction
  let (value, low, high) := i.ratios
  let estimate : Int :=
    ((Nat.log2 value.numerator : Int) - (Nat.log2 value.denominator : Int)) * 30103 / 100000 + 1
  let top := settlePlace value 8 estimate
  let (count, place) := shortestFrom i value low high top 17 1
  let (count, place) := trimZeros 17 count place
  let digits := Nat.toDigits 10 count
  (digits, place + digits.length)

/-- Digits with the point at `point`, written without an exponent. -/
def positional (digits : List Char) (point : Int) : String :=
  if point ≤ 0 then
    "0." ++ String.ofList (List.replicate (-point).toNat '0') ++ String.ofList digits
  else if point.toNat < digits.length then
    String.ofList (digits.take point.toNat) ++ "." ++ String.ofList (digits.drop point.toNat)
  else String.ofList digits ++ String.ofList (List.replicate (point.toNat - digits.length) '0')

/-- The text of a number. -/
def render : Binary64 → String
  | .nan => "NaN"
  | .infinite negative => if negative then "-inf" else "inf"
  | .finite negative exponent fraction =>
    let sign := if negative then "-" else ""
    if exponent.val = 0 ∧ fraction.val = 0 then sign ++ "0"
    else
      let (digits, point) := shortestDigits exponent fraction
      sign ++ positional digits point

example : render (.finite false 1023 0) = "1" := by decide +kernel
example : render (.finite false 1019 0x999999999999A) = "0.1" := by decide +kernel

end ScriptLowering.Binary64
