import ScriptLowering.Token.Scan

/-! # Reading tokens one at a time

The parser reads tokens one at a time: `next` takes the next token and `peek` shows it without
taking it. The lexer keeps the text not yet read, the byte offset where that text starts, and
the tokens that were peeked but not yet taken. Peeking reads a token only when none is waiting,
and taking gives a waiting token before reading a new one. At the end of the text both give
nothing, as often as they are asked.
-/

namespace ScriptLowering.Token

/-- Skips blank characters and comments at the head of a text whose first character is at byte
`offset`, then reads one token; gives the token, if the text held one, and the offset and text
after it. -/
def lexToken (offset : Nat) (text : List Char) : Option Token × Nat × List Char :=
  match text with
  | [] => (none, offset, [])
  | c :: rest =>
    if isBlank c then
      lexToken (offset + c.utf8Size) rest
    else if c == '/' && rest.head? == some '/' then
      let comment := (c :: rest).takeWhile (· != '\n')
      lexToken (offset + Text.byteSize comment) ((c :: rest).dropWhile (· != '\n'))
    else
      let ⟨(token, after), _⟩ := readAt offset c rest
      (some token, token.stop, after)
termination_by text.length
decreasing_by
  · simp
  · have slash : (c != '\n') = true := by
      simp only [Bool.and_eq_true, beq_iff_eq] at *
      obtain ⟨rfl, _⟩ := ‹c = '/' ∧ _›
      decide
    have skip : (c :: rest).dropWhile (· != '\n') = rest.dropWhile (· != '\n') := by
      simp [slash]
    rw [skip]
    have := (List.dropWhile_suffix (l := rest) (fun x => x != '\n')).length_le
    simp only [List.length_cons]
    omega

/-- A lexer over a text: the byte offset of the first character not yet read, the characters
not yet read, and the tokens peeked but not yet taken, in order. -/
structure Lexer where
  offset : Nat
  text : List Char
  peeked : List Token := []
  deriving Repr, Inhabited

namespace Lexer

/-- A lexer at the start of a text. -/
def start (source : String) : Lexer := { offset := 0, text := source.toList }

/-- Reads one token from the text, past the peeked tokens. -/
def lex (lexer : Lexer) : Option Token × Lexer :=
  let (token, offset, text) := lexToken lexer.offset lexer.text
  (token, { lexer with offset, text })

/-- The next token, left waiting to be taken. -/
def peek (lexer : Lexer) : Option Token × Lexer :=
  match lexer.peeked with
  | token :: _ => (some token, lexer)
  | [] =>
    match lexer.lex with
    | (none, lexer) => (none, lexer)
    | (some token, lexer) => (some token, { lexer with peeked := lexer.peeked ++ [token] })

/-- Takes the next token: the first one waiting, else one read from the text. -/
def next (lexer : Lexer) : Option Token × Lexer :=
  match lexer.peeked with
  | token :: rest => (some token, { lexer with peeked := rest })
  | [] => lexer.lex

/-- A request to a lexer. -/
inductive Call where
  | peek
  | next
  deriving DecidableEq, Repr, Inhabited

/-- Answers one request. -/
def answer (lexer : Lexer) : Call → Option Token × Lexer
  | .peek => lexer.peek
  | .next => lexer.next

/-- The answers to a series of requests, each made to the lexer the one before left. -/
def run (lexer : Lexer) : List Call → List (Option Token)
  | [] => []
  | call :: calls =>
    let (token, lexer) := lexer.answer call
    token :: lexer.run calls

end Lexer

end ScriptLowering.Token
