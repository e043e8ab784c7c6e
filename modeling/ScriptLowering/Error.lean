import ScriptLowering.Syntax.Kind
import ScriptLowering.Text.Span

/-! # Internal errors

An internal error is a broken promise between two stages of the compiler, never a problem of
the user's source: a syntax tree of a shape the tree builder does not know, a reference that
reaches the middle representation unresolved, or a lookup in the node arena that finds the
wrong thing. Each kind has a name and a message.
-/

namespace ScriptLowering

/-- What the tree builder was building when it met a syntax node it does not know. -/
inductive BuildContext where
  | file
  | expression
  | reference
  | callReceiver
  | binaryExpression
  | binaryOperator
  deriving DecidableEq, Repr, Inhabited

/-- The words that name a build context in messages. -/
def BuildContext.describe : BuildContext → String
  | .file => "file"
  | .expression => "expression"
  | .reference => "reference"
  | .callReceiver => "call receiver"
  | .binaryExpression => "binary expression"
  | .binaryOperator => "binary operator"

/-- A broken promise between two stages. -/
inductive InternalError where
  | unexpectedSyntax (kind : SyntaxKind) (span : Span) (context : BuildContext)
  | unresolvedReference (name : String) (span : Span)
  | symbolNotDefined (name : String)
  | unboundSymbol (symbol : Nat)
  | symbolAlreadyBound (symbol : Nat)
  | unexpectedNode (expected found : String)
  | missingClassContainer (name : String)
  deriving DecidableEq, Repr, Inhabited

namespace InternalError

/-- The name of the kind of an internal error. -/
def kindName : InternalError → String
  | .unexpectedSyntax .. => "UnexpectedSyntax"
  | .unresolvedReference .. => "UnresolvedReference"
  | .symbolNotDefined .. => "SymbolNotDefined"
  | .unboundSymbol .. => "UnboundSymbol"
  | .symbolAlreadyBound .. => "SymbolAlreadyBound"
  | .unexpectedNode .. => "UnexpectedNode"
  | .missingClassContainer .. => "MissingClassContainer"

/-- The message of an internal error. -/
def message : InternalError → String
  | .unexpectedSyntax kind span context =>
    s!"unexpected syntax node {kind.name} at {span.render} while building {context.describe}"
  | .unresolvedReference name span =>
    "reference to `" ++ name ++ "` at " ++ span.render ++ " reached MIR conversion unresolved"
  | .symbolNotDefined name => "symbol not defined for declaration `" ++ name ++ "`"
  | .unboundSymbol symbol => s!"dereferenced unbound symbol #{symbol}"
  | .symbolAlreadyBound symbol => s!"symbol #{symbol} is already bound"
  | .unexpectedNode expected found => s!"expected {expected} node but found {found}"
  | .missingClassContainer name => "no enclosing class or file for function `" ++ name ++ "`"

end InternalError

end ScriptLowering
