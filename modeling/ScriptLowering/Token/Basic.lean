import ScriptLowering.Text.Span
import ScriptLowering.Text.Bytes

/-! # Tokens

A token is a kind together with the characters it was read from and the byte offset where
they start. Its span is computed from the two, so a token's span always covers exactly its
characters.
-/

namespace ScriptLowering

/-- The reserved words of the language. -/
inductive Keyword where
  | function
  | var
  deriving DecidableEq, Repr, Inhabited

/-- What a token is. -/
inductive TokenKind where
  | keyword (word : Keyword)
  | identifier
  | booleanLiteral
  | numberLiteral
  | stringLiteral
  /-- A string literal that reached a line end or the end of the text before its closing quote. -/
  | unterminatedString
  | openParen
  | closeParen
  | openBrace
  | closeBrace
  | semicolon
  | comma
  | colon
  | equals
  | dot
  /-- One character the scanner does not understand, kept so that later stages report it. -/
  | badCharacter
  deriving DecidableEq, Repr, Inhabited

namespace TokenKind

/-- The name of a token kind in messages, such as `Identifier` or `Keyword(Var)`. -/
def name : TokenKind → String
  | .keyword .function => "Keyword(Function)"
  | .keyword .var => "Keyword(Var)"
  | .identifier => "Identifier"
  | .booleanLiteral => "BooleanLiteral"
  | .numberLiteral => "NumberLiteral"
  | .stringLiteral => "StringLiteral"
  | .unterminatedString => "UnterminatedString"
  | .openParen => "OpenParen"
  | .closeParen => "CloseParen"
  | .openBrace => "OpenBrace"
  | .closeBrace => "CloseBrace"
  | .semicolon => "Semicolon"
  | .comma => "Comma"
  | .colon => "Colon"
  | .equals => "Equals"
  | .dot => "Dot"
  | .badCharacter => "BadCharacter"

end TokenKind

/-- A token: its kind, the byte offset where it starts, and the characters it was read from. -/
structure Token where
  kind : TokenKind
  start : Nat
  lexeme : List Char
  deriving DecidableEq, Repr, Inhabited

namespace Token

/-- The byte offset just after the token. -/
def stop (token : Token) : Nat := token.start + Text.byteSize token.lexeme

/-- The bytes the token covers. -/
def span (token : Token) : Span := .range token.start token.stop

/-- The token's characters as a string. -/
def text (token : Token) : String := String.ofList token.lexeme

/-- How messages name a token: its kind and, in parentheses, its text. -/
def describe (token : Token) : String := s!"{token.kind.name} ({token.text})"

end Token

end ScriptLowering
