import ScriptLowering.Token.Basic
import ScriptLowering.Text.Blank

/-! # Scanning text into tokens

The scanner reads a text from left to right. Blank characters and `//` comments, which run to
just before the next line feed, separate tokens and are dropped. Every other character starts
a token: a string literal, a number, a word, a punctuation mark, or a bad character.

A string literal runs to its closing quote; a backslash before a quote keeps the quote inside
the literal, and a line feed or the end of the text leaves the literal unterminated. A number is
a run of ASCII digits, with a fractional part only when a digit follows the point, so `1.x`
is a number followed by a member access. A word starts with an ASCII letter, `_` or `$` and
goes on with ASCII letters, digits, `_` and `$`; the words `function` and `var` are keywords,
`true` and `false` booleans, and all others identifiers.
-/

namespace ScriptLowering.Token

/-- Characters that may start a word. -/
def isWordStart (c : Char) : Bool := c.isAlpha || c == '_' || c == '$'

/-- Characters that may continue a word. -/
def isWordPart (c : Char) : Bool := c.isAlphanum || c == '_' || c == '$'

/-- The kind of a word: a keyword, a boolean, or an identifier. -/
def wordKind (word : List Char) : TokenKind :=
  match String.ofList word with
  | "function" => .keyword .function
  | "var" => .keyword .var
  | "true" => .booleanLiteral
  | "false" => .booleanLiteral
  | _ => .identifier

/-- The kind of a one-character token. -/
def punctuation (c : Char) : TokenKind :=
  match c with
  | '(' => .openParen
  | ')' => .closeParen
  | '{' => .openBrace
  | '}' => .closeBrace
  | ';' => .semicolon
  | ',' => .comma
  | ':' => .colon
  | '=' => .equals
  | '.' => .dot
  | _ => .badCharacter

/-- Splits the body of a string literal, after its opening quote, into the characters that
belong to the literal, whether a closing quote ended it, and the rest of the text. -/
def stringBody : List Char → List Char × Bool × List Char
  | [] => ([], false, [])
  | '\n' :: rest => ([], false, '\n' :: rest)
  | '\\' :: '"' :: rest =>
    let (body, closed, after) := stringBody rest
    ('\\' :: '"' :: body, closed, after)
  | '"' :: rest => (['"'], true, rest)
  | c :: rest =>
    let (body, closed, after) := stringBody rest
    (c :: body, closed, after)

/-- The fractional part of a number: a point and its digits, when a digit follows the point. -/
def fraction : List Char → List Char
  | '.' :: d :: rest => if d.isDigit then '.' :: d :: rest.takeWhile Char.isDigit else []
  | _ => []

/-- The characters of the token that starts with `c`, followed by `rest`, and its kind. -/
def lexemeAt (c : Char) (rest : List Char) : TokenKind × List Char :=
  if c == '"' then
    let (body, closed, _) := stringBody rest
    (if closed then .stringLiteral else .unterminatedString, c :: body)
  else if c.isDigit then
    let digits := rest.takeWhile Char.isDigit
    (.numberLiteral, c :: digits ++ fraction (rest.dropWhile Char.isDigit))
  else if isWordStart c then
    let word := c :: rest.takeWhile isWordPart
    (wordKind word, word)
  else
    (punctuation c, [c])

theorem stringBody_split (text : List Char) :
    (stringBody text).1 ++ (stringBody text).2.2 = text := by
  fun_induction stringBody text <;> simp_all

theorem fraction_prefix (text : List Char) : ∃ after, text = fraction text ++ after := by
  unfold fraction
  split
  · rename_i d rest
    split
    · exact ⟨rest.dropWhile Char.isDigit, by simp⟩
    · exact ⟨_, rfl⟩
  · exact ⟨text, rfl⟩

/-- A token's characters are a start of the text it was read from. -/
theorem lexemeAt_prefix (c : Char) (rest : List Char) :
    ∃ after, c :: rest = (lexemeAt c rest).2 ++ after := by
  unfold lexemeAt
  split
  · exact ⟨(stringBody rest).2.2, by simp [stringBody_split]⟩
  · split
    · obtain ⟨after, split⟩ := fraction_prefix (rest.dropWhile Char.isDigit)
      refine ⟨after, ?_⟩
      conv => lhs; rw [← List.takeWhile_append_dropWhile (p := Char.isDigit) (l := rest), split]
      simp
    · split
      · exact ⟨rest.dropWhile isWordPart, by simp⟩
      · exact ⟨rest, rfl⟩

/-- Reads one token at the head of a text, returning it and the shorter rest of the text. -/
def readAt (offset : Nat) (c : Char) (rest : List Char) :
    { read : Token × List Char // read.2.length ≤ rest.length } :=
  ⟨(⟨(lexemeAt c rest).1, offset, (lexemeAt c rest).2⟩, (c :: rest).drop (lexemeAt c rest).2.length), by
    obtain ⟨after, split⟩ := lexemeAt_prefix c rest
    have nonempty : 0 < (lexemeAt c rest).2.length := by
      unfold lexemeAt
      split
      · simp
      · split
        · simp
        · split <;> simp
    have := congrArg List.length split
    simp only [List.length_cons, List.length_append] at this
    simp only [List.length_drop, List.length_cons]
    omega⟩

/-- The tokens of a text whose first character is at byte `offset`. -/
def scanFrom (offset : Nat) (text : List Char) : List Token :=
  match text with
  | [] => []
  | c :: rest =>
    if isBlank c then
      scanFrom (offset + c.utf8Size) rest
    else if c == '/' && rest.head? == some '/' then
      let comment := (c :: rest).takeWhile (· != '\n')
      scanFrom (offset + Text.byteSize comment) ((c :: rest).dropWhile (· != '\n'))
    else
      let ⟨(token, after), _⟩ := readAt offset c rest
      token :: scanFrom token.stop after
termination_by text.length
decreasing_by
  · simp
  · have slash : (c != '\n') = true := by
      simp only [Bool.and_eq_true, beq_iff_eq] at *
      obtain ⟨rfl, _⟩ := ‹c = '/' ∧ _›
      decide
    have skip : (c :: rest).dropWhile (· != '\n') = rest.dropWhile (· != '\n') := by
      simp [slash]
    rw [skip]
    have := (List.dropWhile_suffix (l := rest) (fun x => x != '\n')).length_le
    simp only [List.length_cons]
    omega
  · dsimp only at *
    simp only [List.length_cons]
    omega

/-- The tokens of a whole text. -/
def scan (text : String) : List Token := scanFrom 0 text.toList

end ScriptLowering.Token
