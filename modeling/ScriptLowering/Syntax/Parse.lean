import ScriptLowering.Token.Scan
import ScriptLowering.Syntax.Tree
import ScriptLowering.Diagnostic.Basic

/-! # Parsing tokens into a syntax tree

The parser reads the tokens of a file into a syntax arena. Statements are read by recursive
descent and expressions by binding powers: `.` binds tighter than a call, which binds tighter
than `=`, and `=` groups to the right. The parser recovers from every problem: it records a
diagnostic and goes on, so a node may miss children the grammar asks for.

Every reading function returns the tokens it left unread together with a proof that they are
no more than it was given, or fewer where it always reads a token. The measure sixteen times the
number of unread tokens plus the function's rank decreases along every call, which is how the
parser terminates on every input.
-/

namespace ScriptLowering.Syntax

/-- What the parser has written so far: the nodes in the order they were made, and the
diagnostics. -/
structure Output where
  nodes : Array SyntaxNode := #[]
  reports : Diagnostics := #[]
  deriving Inhabited

namespace Output

/-- Adds a node and returns its index. -/
def push (out : Output) (kind : SyntaxKind) (span : Span) (children : List Nat) : Output × Nat :=
  ({ out with nodes := out.nodes.push ⟨kind, span, children⟩ }, out.nodes.size)

/-- Adds a childless node covering a token. -/
def leaf (out : Output) (kind : SyntaxKind) (token : Token) : Output × Nat :=
  out.push kind token.span []

/-- Records a diagnostic. -/
def report (out : Output) (span : Span) (message : String) : Output :=
  { out with reports := out.reports.report span message }

/-- The span of a node made before. -/
def spanOf (out : Output) (index : Nat) : Span :=
  match out.nodes[index]? with
  | some node => node.span
  | none => .synthetic

end Output

/-- The outcome of trying to read an expression: the node, if one was read, and the unread
tokens, fewer than before whenever a node was read. -/
structure Attempt (tokens : List Token) where
  node : Option Nat
  out : Output
  rest : List Token
  rest_le : rest.length ≤ tokens.length
  rest_lt : node.isSome → rest.length < tokens.length

/-- The outcome of reading a construct that always takes at least one token. -/
structure Step (tokens : List Token) where
  node : Nat
  out : Output
  rest : List Token
  rest_lt : rest.length < tokens.length

/-- The outcome of extending a node with what follows it. -/
structure Grown (tokens : List Token) where
  node : Nat
  out : Output
  rest : List Token
  rest_le : rest.length ≤ tokens.length

namespace Grown

/-- No growth: the node stays and no token is read. -/
def stay (node : Nat) (out : Output) (tokens : List Token) : Grown tokens :=
  ⟨node, out, tokens, Nat.le_refl _⟩

/-- A growth of what a step left unread is a growth of the tokens the step started from. -/
def afterStep {tokens rest : List Token} (grown : Grown rest)
    (step : rest.length < tokens.length) : Grown tokens :=
  ⟨grown.node, grown.out, grown.rest, Nat.le_trans grown.rest_le (Nat.le_of_lt step)⟩

/-- A growth of what is left after a token and an attempt behind it is a growth of the tokens
from that token on. -/
def afterToken {token : Token} {tail rest : List Token} (grown : Grown rest)
    (read : rest.length ≤ tail.length) : Grown (token :: tail) :=
  ⟨grown.node, grown.out, grown.rest, by have := grown.rest_le; simp only [List.length_cons]; omega⟩

end Grown

/-- Unread tokens that are no more than some given ones. -/
abbrev Rest (tokens : List Token) := { rest : List Token // rest.length ≤ tokens.length }

/-- Left and right binding powers of the infix operators `=` and `.`. -/
def infixPower : TokenKind → Option (Nat × Nat)
  | .equals => some (2, 1)
  | .dot => some (5, 6)
  | _ => none

/-- Binding power of a call, which follows its receiver. -/
def callPower : Nat := 3

/-- Reads the next token when it has the given kind. -/
def eat (kind : TokenKind) : (tokens : List Token) → Option Token × Rest tokens
  | token :: tail =>
    if token.kind = kind then (some token, ⟨tail, by simp⟩) else (none, ⟨token :: tail, Nat.le_refl _⟩)
  | [] => (none, ⟨[], Nat.le_refl _⟩)

/-- Reads parameters up to and including `)`, stopping early at `{` or the end of the file. -/
def parameterLoop (eof : Nat) (out : Output) (span : Span) (children : Array Nat)
    (afterParameter : Bool) : (tokens : List Token) → Output × Span × Array Nat × Rest tokens
  | [] => (out.report (.point eof) "Expected ) but reached end of file", span, children, ⟨[], Nat.le_refl _⟩)
  | token :: tail =>
    match token.kind with
    | .closeParen => (out, span.cover token.span, children, ⟨tail, by simp⟩)
    | .identifier =>
      let out := if afterParameter then out.report token.span "Expected , between parameters" else out
      let (out, name) := out.leaf .identifier token
      let (out, parameter) := out.push .parameter token.span [name]
      let (out, span, children, ⟨rest, restLe⟩) :=
        parameterLoop eof out (span.cover token.span) (children.push parameter) true tail
      (out, span, children, ⟨rest, by simp only [List.length_cons]; omega⟩)
    | .comma =>
      let (out, comma) := out.leaf .comma token
      let (out, span, children, ⟨rest, restLe⟩) :=
        parameterLoop eof out (span.cover token.span) (children.push comma) false tail
      (out, span, children, ⟨rest, by simp only [List.length_cons]; omega⟩)
    | .openBrace => (out.report token.span "Expected ) before \x7b", span, children, ⟨token :: tail, Nat.le_refl _⟩)
    | _ =>
      let out := out.report token.span s!"Expected parameter name but found {token.describe}"
      let (out, span, children, ⟨rest, restLe⟩) :=
        parameterLoop eof out (span.cover token.span) children afterParameter tail
      (out, span, children, ⟨rest, by simp only [List.length_cons]; omega⟩)

/-- Reads a parameter list that starts with the `(` token `opening`. -/
def parameterList (eof : Nat) (out : Output) (opening : Token) (tail : List Token) :
    Step (opening :: tail) :=
  let (out, span, children, ⟨rest, restLe⟩) := parameterLoop eof out opening.span #[] false tail
  let (out, node) := out.push .parameterList span children.toList
  ⟨node, out, rest, by simp only [List.length_cons]; omega⟩

/-- Reads the name after a declaration's keyword, when the next token is an identifier: the
output with the name's leaf, the declaration's span so far and its children so far. -/
def declarationName (out : Output) (keyword : Token) (tail : List Token) :
    Output × Span × Array Nat × Rest tail :=
  match eat .identifier tail with
  | (some name, rest) =>
    let (out, identifier) := out.leaf .identifier name
    (out, keyword.span.cover name.span, #[identifier], rest)
  | (none, rest) => (out, keyword.span, #[], rest)

/-- Reads a function's parameter list, when the next token opens one, after the children read
so far. -/
def functionParameters (eof : Nat) (out : Output) (span : Span) (children : Array Nat) :
    (tokens : List Token) → Output × Span × Array Nat × Rest tokens
  | opening :: more =>
    if opening.kind = .openParen then
      let ⟨list, out, rest, restLt⟩ := parameterList eof out opening more
      (out, span.cover (out.spanOf list), children.push list, ⟨rest, Nat.le_of_lt restLt⟩)
    else (out, span, children, ⟨opening :: more, Nat.le_refl _⟩)
  | [] => (out, span, children, ⟨[], Nat.le_refl _⟩)

mutual

/-- Reads a statement that starts with `head`; it always reads at least that token. -/
def statement (eof : Nat) (out : Output) (head : Token) (tail : List Token) : Step (head :: tail) :=
  match head.kind with
  | .keyword .function => functionDecl eof out head tail
  | .keyword .var => variableDecl eof out head tail
  | .semicolon =>
    let (out, node) := out.leaf .semicolon head
    ⟨node, out, tail, by simp⟩
  | _ =>
    let ⟨found, out, rest, restLe, restLt⟩ := expression eof out 0 (head :: tail)
    match found with
    | some node => ⟨node, out, rest, restLt (by simp)⟩
    | none =>
      let out := out.report head.span s!"Expected statement but found {head.describe}"
      let (out, node) := out.leaf .badCharacter head
      ⟨node, out, rest.tail, by
        simp only [List.length_tail, List.length_cons] at *
        omega⟩
termination_by (head :: tail).length * 16 + 14
decreasing_by all_goals (try simp only [List.length_cons] at *); omega

/-- Reads a function declaration after its keyword: a name, a parameter list and a block, each
left out when the next token cannot start it. -/
def functionDecl (eof : Nat) (out : Output) (keyword : Token) (tail : List Token) :
    Step (keyword :: tail) :=
  let (out, span, children, ⟨afterName, nameLe⟩) := declarationName out keyword tail
  let (out, span, children, ⟨afterList, listLe⟩) := functionParameters eof out span children afterName
  match afterList, listLe with
  | opening :: more, listLe =>
    if opening.kind = .openBrace then
      let ⟨body, out, rest, restLt⟩ := block eof out opening more
      let (out, node) := out.push .function (span.cover (out.spanOf body)) (children.push body).toList
      ⟨node, out, rest, by simp only [List.length_cons] at *; omega⟩
    else
      let (out, node) := out.push .function span children.toList
      ⟨node, out, opening :: more, by simp only [List.length_cons] at *; omega⟩
  | [], _ =>
    let (out, node) := out.push .function span children.toList
    ⟨node, out, [], by simp⟩
termination_by (keyword :: tail).length * 16 + 12
decreasing_by all_goals (try simp only [List.length_cons] at *); omega

/-- Reads a variable declaration after its keyword: a name and, after `=`, an initializer. -/
def variableDecl (eof : Nat) (out : Output) (keyword : Token) (tail : List Token) :
    Step (keyword :: tail) :=
  let (out, span, children, ⟨afterName, nameLe⟩) := declarationName out keyword tail
  match eat .equals afterName with
  | (some equals, ⟨afterEquals, equalsLe⟩) =>
    let span := span.cover equals.span
    let ⟨found, out, rest, restLe, _⟩ := expression eof out 0 afterEquals
    match found with
    | some initializer =>
      let (out, node) := out.push .variable (span.cover (out.spanOf initializer))
        (children.push initializer).toList
      ⟨node, out, rest, by simp only [List.length_cons]; omega⟩
    | none =>
      let out := out.report equals.span "Expected expression after ="
      let (out, node) := out.push .variable span children.toList
      ⟨node, out, rest, by simp only [List.length_cons]; omega⟩
  | (none, ⟨afterEquals, equalsLe⟩) =>
    let (out, node) := out.push .variable span children.toList
    ⟨node, out, afterEquals, by simp only [List.length_cons]; omega⟩

/-- Reads a block that starts with the `{` token `opening`. -/
def block (eof : Nat) (out : Output) (opening : Token) (tail : List Token) : Step (opening :: tail) :=
  let (out, span, statements, ⟨rest, restLe⟩) := blockLoop eof out opening.span #[] tail
  let (out, node) := out.push .block span statements.toList
  ⟨node, out, rest, by simp only [List.length_cons]; omega⟩
termination_by (opening :: tail).length * 16 + 12
decreasing_by all_goals (try simp only [List.length_cons] at *); omega

/-- Reads statements up to and including `}`, or to the end of the file. -/
def blockLoop (eof : Nat) (out : Output) (span : Span) (statements : Array Nat) :
    (tokens : List Token) → Output × Span × Array Nat × Rest tokens
  | [] => (out.report (.point eof) "Expected \x7d but reached end of file", span, statements, ⟨[], Nat.le_refl _⟩)
  | token :: tail =>
    if token.kind = .closeBrace then (out, span.cover token.span, statements, ⟨tail, by simp⟩)
    else
      let ⟨node, out, rest, stepLt⟩ := statement eof out token tail
      let (out, span, statements, ⟨after, afterLe⟩) :=
        blockLoop eof out (span.cover (out.spanOf node)) (statements.push node) rest
      (out, span, statements, ⟨after, by omega⟩)
termination_by tokens => tokens.length * 16 + 15
decreasing_by all_goals (try simp only [List.length_cons] at *); omega

/-- Tries to read an expression whose operators bind at least as tightly as `minPower`. -/
def expression (eof : Nat) (out : Output) (minPower : Nat) (tokens : List Token) : Attempt tokens :=
  let ⟨found, out, rest, restLe, restLt⟩ := primary eof out tokens
  match found with
  | none => ⟨none, out, rest, restLe, by simp⟩
  | some lhs =>
    have firstLt := restLt (by simp)
    let ⟨node, out, after, afterLe⟩ := operators eof out minPower lhs rest
    ⟨some node, out, after, by omega, fun _ => by omega⟩
termination_by tokens.length * 16 + 8
decreasing_by all_goals omega

/-- Extends the expression `lhs` with the calls and infix operators that follow it and bind
at least as tightly as `minPower`. -/
def operators (eof : Nat) (out : Output) (minPower : Nat) (lhs : Nat) :
    (tokens : List Token) → Grown tokens
  | [] => .stay lhs out []
  | token :: tail =>
    if token.kind = .openParen then
      if callPower < minPower then .stay lhs out (token :: tail)
      else
        let ⟨arguments, out, rest, restLt⟩ := argumentList eof out token tail
        let span := (out.spanOf lhs).cover (out.spanOf arguments)
        let (out, call) := out.push .call span [lhs, arguments]
        (operators eof out minPower call rest).afterStep restLt
    else
      match infixPower token.kind with
      | none => .stay lhs out (token :: tail)
      | some (left, right) =>
        if left < minPower then .stay lhs out (token :: tail)
        else
          let span := (out.spanOf lhs).cover token.span
          let (out, operator) := out.leaf .operator token
          let ⟨found, out, rest, restLe, _⟩ := expression eof out right tail
          let (out, span, children) : Output × Span × List Nat :=
            match found with
            | some value => (out, span.cover (out.spanOf value), [lhs, operator, value])
            | none =>
              (out.report token.span s!"Expected expression after {token.text}", span,
                [lhs, operator])
          let (out, binary) := out.push .binary span children
          (operators eof out minPower binary rest).afterToken restLe
termination_by tokens => tokens.length * 16 + 6
decreasing_by all_goals (try simp only [List.length_cons] at *); omega

/-- Tries to read a primary expression: a name, a constant, a bad character, an expression in
parentheses or an object. -/
def primary (eof : Nat) (out : Output) : (tokens : List Token) → Attempt tokens
  | [] => ⟨none, out, [], Nat.le_refl _, by simp⟩
  | token :: tail =>
    match token.kind with
    | .identifier =>
      let (out, name) := out.leaf .identifier token
      let (out, node) := out.push .reference token.span [name]
      ⟨some node, out, tail, by simp, fun _ => by simp⟩
    | .stringLiteral =>
      let (out, node) := out.leaf .stringConstant token
      ⟨some node, out, tail, by simp, fun _ => by simp⟩
    | .unterminatedString =>
      let out := out.report token.span "Unterminated string literal"
      let (out, node) := out.leaf .stringConstant token
      ⟨some node, out, tail, by simp, fun _ => by simp⟩
    | .numberLiteral =>
      let (out, node) := out.leaf .numberConstant token
      ⟨some node, out, tail, by simp, fun _ => by simp⟩
    | .booleanLiteral =>
      let (out, node) := out.leaf .booleanConstant token
      ⟨some node, out, tail, by simp, fun _ => by simp⟩
    | .badCharacter =>
      let (out, node) := out.leaf .badCharacter token
      ⟨some node, out, tail, by simp, fun _ => by simp⟩
    | .openParen =>
      let ⟨found, out, rest, restLe, _⟩ := expression eof out 0 tail
      match found with
      | none =>
        let out := out.report token.span "Expected expression after ("
        let (_, ⟨after, afterLe⟩) := eat .closeParen rest
        ⟨none, out, after, by simp only [List.length_cons]; omega, by simp⟩
      | some node =>
        match eat .closeParen rest with
        | (some _, ⟨after, afterLe⟩) =>
          ⟨some node, out, after, by simp only [List.length_cons]; omega,
            fun _ => by simp only [List.length_cons]; omega⟩
        | (none, ⟨after, afterLe⟩) =>
          ⟨some node, out.report (out.spanOf node) "Expected ) after expression", after,
            by simp only [List.length_cons]; omega, fun _ => by simp only [List.length_cons]; omega⟩
    | .openBrace =>
      let ⟨node, out, rest, restLt⟩ := object eof out token tail
      ⟨some node, out, rest, Nat.le_of_lt restLt, fun _ => restLt⟩
    | _ => ⟨none, out, token :: tail, Nat.le_refl _, by simp⟩
termination_by tokens => tokens.length * 16 + 7
decreasing_by all_goals (try simp only [List.length_cons] at *); omega

/-- Reads an argument list that starts with the `(` token `opening`. -/
def argumentList (eof : Nat) (out : Output) (opening : Token) (tail : List Token) :
    Step (opening :: tail) :=
  let (out, span, children, ⟨rest, restLe⟩) := argumentLoop eof out opening.span #[] true false tail
  let (out, node) := out.push .argumentList span children.toList
  ⟨node, out, rest, by simp only [List.length_cons]; omega⟩
termination_by (opening :: tail).length * 16 + 4
decreasing_by all_goals (try simp only [List.length_cons] at *); omega

/-- Reads arguments up to and including `)`. An empty slot before a comma keeps an empty
argument, so the arguments after it keep their positions. -/
def argumentLoop (eof : Nat) (out : Output) (span : Span) (children : Array Nat)
    (expecting seenComma : Bool) : (tokens : List Token) → Output × Span × Array Nat × Rest tokens
  | [] => (out.report (.point eof) "Expected ) but reached end of file", span, children, ⟨[], Nat.le_refl _⟩)
  | token :: tail =>
    match token.kind with
    | .closeParen => (out, span.cover token.span, children, ⟨tail, by simp⟩)
    | .comma =>
      let (out, children) : Output × Array Nat :=
        if expecting && (seenComma || children.isEmpty) then
          let (out, empty) := out.push .argument token.span []
          (out, children.push empty)
        else (out, children)
      let (out, comma) := out.leaf .comma token
      let (out, span, children, ⟨after, afterLe⟩) :=
        argumentLoop eof out (span.cover token.span) (children.push comma) true true tail
      (out, span, children, ⟨after, by simp only [List.length_cons]; omega⟩)
    | .semicolon | .closeBrace =>
      (out.report token.span "Expected ) to close argument list", span, children,
        ⟨token :: tail, Nat.le_refl _⟩)
    | _ =>
      let ⟨found, out, rest, restLe, restLt⟩ := expression eof out 0 (token :: tail)
      match found with
      | some value =>
        have valueLt := restLt (by simp)
        let valueSpan := out.spanOf value
        let out := if expecting then out else out.report valueSpan "Expected , between arguments"
        let (out, argument) := out.push .argument valueSpan [value]
        let (out, span, children, ⟨after, afterLe⟩) :=
          argumentLoop eof out (span.cover valueSpan) (children.push argument) false seenComma rest
        (out, span, children, ⟨after, by omega⟩)
      | none =>
        have tailLt : rest.tail.length < (token :: tail).length := by
          simp only [List.length_tail, List.length_cons] at *
          omega
        let out := out.report token.span s!"Malformed argument {token.describe}"
        let (out, children, expecting) : Output × Array Nat × Bool :=
          if expecting then
            let (out, empty) := out.push .argument token.span []
            (out, children.push empty, false)
          else (out, children, expecting)
        let (out, span, children, ⟨after, afterLe⟩) :=
          argumentLoop eof out (span.cover token.span) children expecting seenComma rest.tail
        (out, span, children, ⟨after, by omega⟩)
termination_by tokens => tokens.length * 16 + 10
decreasing_by all_goals (try simp only [List.length_cons] at *); omega

/-- Reads an object literal that starts with the `{` token `opening`. -/
def object (eof : Nat) (out : Output) (opening : Token) (tail : List Token) : Step (opening :: tail) :=
  let (out, span, children, ⟨rest, restLe⟩) := objectLoop eof out opening.span #[] false tail
  let (out, node) := out.push .object span children.toList
  ⟨node, out, rest, by simp only [List.length_cons]; omega⟩
termination_by (opening :: tail).length * 16 + 4
decreasing_by all_goals (try simp only [List.length_cons] at *); omega

/-- Reads the clauses of an object literal up to and including `}`. -/
def objectLoop (eof : Nat) (out : Output) (span : Span) (children : Array Nat)
    (afterClause : Bool) : (tokens : List Token) → Output × Span × Array Nat × Rest tokens
  | [] => (out.report (.point eof) "Expected \x7d but reached end of file", span, children, ⟨[], Nat.le_refl _⟩)
  | token :: tail =>
    match token.kind with
    | .closeBrace => (out, span.cover token.span, children, ⟨tail, by simp⟩)
    | .comma =>
      let (out, comma) := out.leaf .comma token
      let (out, span, children, ⟨after, afterLe⟩) :=
        objectLoop eof out (span.cover token.span) (children.push comma) false tail
      (out, span, children, ⟨after, by simp only [List.length_cons]; omega⟩)
    | .identifier =>
      let out := if afterClause then out.report token.span "Expected , between properties" else out
      let ⟨clause, out, rest, restLt⟩ := objectClause eof out token tail
      let (out, span, children, ⟨after, afterLe⟩) :=
        objectLoop eof out (span.cover (out.spanOf clause)) (children.push clause) true rest
      (out, span, children, ⟨after, by omega⟩)
    | .semicolon =>
      (out.report token.span "Expected \x7d to close object", span, children, ⟨token :: tail, Nat.le_refl _⟩)
    | _ =>
      let out := out.report token.span s!"Expected property name but found {token.describe}"
      let (out, span, children, ⟨after, afterLe⟩) :=
        objectLoop eof out (span.cover token.span) children afterClause tail
      (out, span, children, ⟨after, by simp only [List.length_cons]; omega⟩)
termination_by tokens => tokens.length * 16 + 10
decreasing_by all_goals (try simp only [List.length_cons] at *); omega

/-- Reads an object clause that starts with the property name `name`: the name, `:` and a value. -/
def objectClause (eof : Nat) (out : Output) (name : Token) (tail : List Token) :
    Step (name :: tail) :=
  let (out, identifier) := out.leaf .identifier name
  let (out, key) := out.push .objectKey name.span [identifier]
  match eat .colon tail with
  | (none, ⟨rest, restLe⟩) =>
    let out := out.report name.span "Expected : after property name"
    let (out, node) := out.push .objectClause name.span [key]
    ⟨node, out, rest, by simp only [List.length_cons]; omega⟩
  | (some colon, ⟨afterColon, colonLe⟩) =>
    let span := name.span.cover colon.span
    let ⟨found, out, rest, restLe, _⟩ := expression eof out 0 afterColon
    match found with
    | some value =>
      let valueSpan := out.spanOf value
      let (out, valueNode) := out.push .objectValue valueSpan [value]
      let (out, node) := out.push .objectClause (span.cover valueSpan) [key, valueNode]
      ⟨node, out, rest, by simp only [List.length_cons]; omega⟩
    | none =>
      let out := out.report colon.span "Expected property value"
      let (out, node) := out.push .objectClause span [key]
      ⟨node, out, rest, by simp only [List.length_cons]; omega⟩
termination_by (name :: tail).length * 16 + 4
decreasing_by all_goals (try simp only [List.length_cons] at *); omega

end

/-- Reads the statements of a file; a stray `}` is reported and skipped. -/
def fileLoop (eof : Nat) (out : Output) (statements : Array Nat) : (tokens : List Token) → Output × Array Nat
  | [] => (out, statements)
  | token :: tail =>
    if token.kind = .closeBrace then
      fileLoop eof (out.report token.span "Unexpected \x7d") statements tail
    else
      let ⟨node, out, rest, _⟩ := statement eof out token tail
      fileLoop eof out (statements.push node) rest
termination_by tokens => tokens.length
decreasing_by all_goals (try simp only [List.length_cons] at *); omega

end ScriptLowering.Syntax

namespace ScriptLowering

/-- Parses a source text into its syntax arena, whose root is the last node, and the
diagnostics met on the way. -/
def SyntaxArena.parse (source : String) : SyntaxArena × Diagnostics :=
  let eof := source.utf8ByteSize
  let (out, statements) := Syntax.fileLoop eof {} #[] (Token.scan source)
  let (out, root) := out.push .file (.range 0 eof) statements.toList
  (⟨out.nodes, root⟩, out.reports)

end ScriptLowering
