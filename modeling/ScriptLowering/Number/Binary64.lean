/-! # Binary64 numbers

A number of the language is an IEEE 754 binary64 value: not a number, an infinity with a sign,
or a finite value given by a sign, an 11-bit biased exponent below 2047 and a 52-bit fraction.
A biased exponent of zero holds the zeros and the subnormal values `fraction · 2^-1074`; any
other holds `(2^52 + fraction) · 2^(exponent - 1075)`.

A positive rational rounds to the nearest such value, a tie going to the even fraction, and to
infinity from `2^1024 - 2^970` on, which is the halfway point above the largest finite value.

Powers are written with `Nat.pow` itself, so each definition names the same function whatever
power instances are in scope where it is read.
-/

namespace ScriptLowering

/-- An IEEE 754 binary64 value. -/
inductive Binary64 where
  | nan
  | infinite (negative : Bool)
  | finite (negative : Bool) (exponent : Fin 2047) (fraction : Fin (Nat.pow 2 52))
  deriving DecidableEq, Repr, Inhabited

namespace Binary64

/-- The zero with a sign. -/
def zero (negative : Bool) : Binary64 := .finite negative 0 0

/-- The significand and the power of two of a finite value: `significand · 2^power`. -/
def scale (exponent : Fin 2047) (fraction : Fin (Nat.pow 2 52)) : Nat × Int :=
  if exponent.val = 0 then (fraction.val, -1074)
  else (Nat.pow 2 52 + fraction.val, (exponent.val : Int) - 1075)

/-- The quotient of two naturals rounded to the nearest natural, a tie going to the even one. -/
def roundHalfEven (numerator denominator : Nat) : Nat :=
  let quotient := numerator / denominator
  let twice := 2 * (numerator % denominator)
  if twice < denominator then quotient
  else if denominator < twice then quotient + 1
  else if quotient % 2 = 0 then quotient else quotient + 1

/-- `numerator / denominator` scaled by `2^-power`, rounded to the nearest natural. -/
def roundScaled (numerator denominator : Nat) (power : Int) : Nat :=
  if 0 ≤ power then roundHalfEven numerator (denominator * Nat.pow 2 power.toNat)
  else roundHalfEven (numerator * Nat.pow 2 (-power).toNat) denominator

/-- `numerator / denominator` scaled by `2^-power`, rounded down. -/
def floorScaled (numerator denominator : Nat) (power : Int) : Nat :=
  if 0 ≤ power then numerator / (denominator * Nat.pow 2 power.toNat)
  else numerator * Nat.pow 2 (-power).toNat / denominator

/-- Moves a power of two until the rounded-down significand has 53 bits, in at most `steps`
steps. -/
def settle (numerator denominator : Nat) : (steps : Nat) → (power : Int) → Int
  | 0, power => power
  | steps + 1, power =>
    let significand := floorScaled numerator denominator power
    if significand < Nat.pow 2 52 then settle numerator denominator steps (power - 1)
    else if Nat.pow 2 53 ≤ significand then settle numerator denominator steps (power + 1)
    else power

/-- The binary64 value nearest to `numerator / denominator`, with a sign; the denominator is
positive. -/
def ofRatio (negative : Bool) (numerator denominator : Nat) : Binary64 :=
  if numerator = 0 then zero negative
  else
    let estimate : Int := (Nat.log2 numerator : Int) - (Nat.log2 denominator : Int) - 52
    let power := max (settle numerator denominator 4 estimate) (-1074)
    let significand := roundScaled numerator denominator power
    let (significand, power) :=
      if significand = Nat.pow 2 53 then (Nat.pow 2 52, power + 1) else (significand, power)
    if 971 < power then .infinite negative
    else if Nat.pow 2 52 ≤ significand then
      let exponent := (power + 1075).toNat
      if bound : exponent < 2047 ∧ significand - Nat.pow 2 52 < Nat.pow 2 52 then
        .finite negative ⟨exponent, bound.1⟩ ⟨significand - Nat.pow 2 52, bound.2⟩
      else .infinite negative
    else if small : significand < Nat.pow 2 52 then .finite negative 0 ⟨significand, small⟩
    else .infinite negative

example : ofRatio false 1 1 = .finite false 1023 0 := by decide +kernel
example : ofRatio false 1 2 = .finite false 1022 0 := by decide +kernel

end Binary64

end ScriptLowering
