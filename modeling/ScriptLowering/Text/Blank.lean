/-! # Blank characters

The characters with the Unicode property White_Space: the ASCII tab, line feed, vertical tab,
form feed, carriage return and space, and nineteen more above ASCII. The scanner skips them
between tokens. The set has been stable since Unicode 6.3, so a list is its whole table.
-/

namespace ScriptLowering

/-- The code points of Unicode White_Space, in increasing order. -/
def blankCodePoints : List Nat :=
  [0x09, 0x0A, 0x0B, 0x0C, 0x0D, 0x20, 0x85, 0xA0, 0x1680,
   0x2000, 0x2001, 0x2002, 0x2003, 0x2004, 0x2005, 0x2006, 0x2007, 0x2008, 0x2009, 0x200A,
   0x2028, 0x2029, 0x202F, 0x205F, 0x3000]

/-- A character is blank when it has the Unicode White_Space property. -/
def isBlank (c : Char) : Bool := blankCodePoints.contains c.toNat

example : blankCodePoints.length = 25 := rfl

/-- Every character that core counts as whitespace is blank. -/
theorem isBlank_of_isWhitespace {c : Char} (white : c.isWhitespace = true) : isBlank c = true := by
  simp only [Char.isWhitespace, Bool.or_eq_true, decide_eq_true_eq] at white
  simp only [isBlank, blankCodePoints, List.contains_cons, List.contains_nil, Bool.or_false]
  rcases white with ((space | tab) | cr) | lf
  all_goals subst_vars; decide

end ScriptLowering
