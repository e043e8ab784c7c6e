/-! # Similar names

Two names are similar when their Jaro similarity is above `0.7`. The Jaro similarity of
strings of lengths `a` and `b` with `m` matching characters and `t` transpositions is
`(m / a + m / b + (m - t) / m) / 3`, and zero without matches. A character of the first string
matches the first unmatched equal character of the second within `max a b / 2 - 1` positions
of it; half the matched characters that differ, read in order in both strings, are the
transpositions. The threshold is compared exactly, in rationals.
-/

namespace ScriptLowering.Cli

/-- The matched positions of two strings, as flags over each. -/
def matchFlags (first second : Array Char) : Array Bool × Array Bool :=
  let reach := (max first.size second.size / 2) - 1
  (List.range first.size).foldl (fun (flagsFirst, flagsSecond) i =>
    let low := i - reach
    let high := min second.size (i + reach + 1)
    match (List.range' low (high - low)).find? fun j =>
        first[i]? == second[j]? && !(flagsSecond[j]?.getD true) with
    | some j => (flagsFirst.set! i true, flagsSecond.set! j true)
    | none => (flagsFirst, flagsSecond))
    (Array.replicate first.size false, Array.replicate second.size false)

/-- The characters of a string at its flagged positions, in order. -/
def flagged (text : Array Char) (flags : Array Bool) : List Char :=
  (text.toList.zip flags.toList).filterMap fun (c, flag) => if flag then some c else none

/-- The Jaro similarity of two names as a fraction `numerator / denominator`. -/
def similarity (written known : String) : Nat × Nat :=
  let first := written.toList.toArray
  let second := known.toList.toArray
  let (flagsFirst, flagsSecond) := matchFlags first second
  let matchedFirst := flagged first flagsFirst
  let matchedSecond := flagged second flagsSecond
  let m := matchedFirst.length
  let t := ((matchedFirst.zip matchedSecond).filter fun (x, y) => x != y).length / 2
  let a := first.size
  let b := second.size
  if a == 0 || b == 0 || m == 0 then (0, 1)
  else (m * m * b + m * m * a + (m - t) * a * b, 3 * a * b * m)

/-- Whether two names are similar enough to suggest one for the other. -/
def isSimilar (written known : String) : Bool :=
  let (numerator, denominator) := similarity written known
  10 * numerator > 7 * denominator

/-- The most similar of some names, the last one among equals; none when no name is similar. -/
def mostSimilar (written : String) (names : List String) : Option String :=
  let candidates := names.filter (isSimilar written)
  candidates.foldl (fun best name =>
    match best with
    | none => some name
    | some current =>
      let (p, q) := similarity written name
      let (r, s) := similarity written current
      if p * s ≥ r * q then some name else some current) none

end ScriptLowering.Cli
