import ScriptLowering.Text.Bytes

/-! # Rows, columns and lines

Rows and columns count from one. The row of a byte offset is one more than the number of line
feeds before it, and its column is one more than the number of characters between the last of
those line feeds and the offset. An offset past the end of the text counts as its end.

The lines of a text are its pieces between line feeds. A line that ends with a line feed loses
it and then one carriage return before it; the last line, when the text does not end with a line
feed, is kept whole; and a text that ends with a line feed has no empty line after it.
-/

namespace ScriptLowering.Text

/-- The characters of a text before a byte offset, which counts as the end when past it. -/
def before (text : List Char) (offset : Nat) : List Char := takeBytes offset text

/-- The row of a byte offset: one more than the line feeds before it. -/
def rowAt (text : List Char) (offset : Nat) : Nat := (before text offset).count '\n' + 1

/-- The column of a byte offset: one more than the characters since the last line feed. -/
def columnAt (text : List Char) (offset : Nat) : Nat :=
  ((before text offset).reverse.takeWhile (· != '\n')).length + 1

/-- A line without its carriage return, when it ends with one. -/
def dropCarriageReturn (line : List Char) : List Char :=
  if line.getLast? == some '\r' then line.dropLast else line

/-- The lines of a text, each without its line feed and the carriage return before it. -/
def lines (text : List Char) : List (List Char) :=
  match text with
  | [] => []
  | c :: rest =>
    match _split : (c :: rest).dropWhile (· != '\n') with
    | [] => [c :: rest]
    | _ :: after => dropCarriageReturn ((c :: rest).takeWhile (· != '\n')) :: lines after
termination_by text.length
decreasing_by
  have suffix := (List.dropWhile_suffix (l := c :: rest) (fun x => x != '\n')).length_le
  rw [_split] at suffix
  simp only [List.length_cons] at suffix ⊢
  omega

/-- The line with a given row; row zero and rows past the last line have none. -/
def line? (text : List Char) (row : Nat) : Option (List Char) :=
  match row with
  | 0 => none
  | row + 1 => (lines text)[row]?

/-- The row and column of a byte offset, counted as the end when past it; none when the
offset falls inside a character. -/
def position? (text : List Char) (offset : Nat) : Option (Nat × Nat) :=
  let offset := min offset (byteSize text)
  if isBoundary text offset then some (rowAt text offset, columnAt text offset) else none

example : lines "a\r\nb\n".toList = ["a".toList, "b".toList] := by decide +kernel
example : lines "a\r".toList = ["a\r".toList] := by decide +kernel
example : rowAt "ab\ncd".toList 4 = 2 ∧ columnAt "ab\ncd".toList 4 = 2 := by decide +kernel

end ScriptLowering.Text
