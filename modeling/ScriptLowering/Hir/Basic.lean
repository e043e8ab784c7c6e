import ScriptLowering.Constant
import ScriptLowering.Text.Span

/-! # The high-level tree

The high-level tree of a file keeps the shape of the syntax but drops separators and
recovery debris. Declarations (the file, functions, their bodies, parameters and variables)
carry an identity, a number unique within the file. A reference carries the name it was
written with and, once names are resolved, the declaration it binds to.
-/

namespace ScriptLowering

/-- The functions every file can call without declaring them. -/
inductive Builtin where
  | print
  deriving DecidableEq, Repr, Inhabited

namespace Builtin

/-- Every built-in function. -/
def all : List Builtin := [.print]

/-- The name a built-in function is called by. -/
def name : Builtin → String
  | .print => "print"

/-- The parameter names of a built-in function. -/
def parameters : Builtin → List String
  | .print => ["value"]

end Builtin

namespace Hir

/-- The declaration a reference binds to: a function, parameter or variable by its identity,
or a built-in function. -/
inductive Resolution where
  | function (id : Nat)
  | parameter (id : Nat)
  | variable (id : Nat)
  | builtin (function : Builtin)
  deriving DecidableEq, Repr, Inhabited

/-- The word for the kind of declaration a reference binds to. -/
def Resolution.describe : Resolution → String
  | .function _ => "function"
  | .parameter _ => "parameter"
  | .variable _ => "variable"
  | .builtin _ => "builtin"

/-- A use of a name; `candidate` is the declaration it binds to, once names are resolved. -/
structure Reference where
  name : String
  span : Span
  candidate : Option Resolution := none
  deriving DecidableEq, Repr, Inhabited

/-- An expression. A call's argument slot is empty where the argument was malformed, so the
arguments after it keep their positions. -/
inductive Expression where
  | const (span : Span) (value : Constant)
  | get (span : Span) (reference : Reference)
  | call (span : Span) (receiver : Expression) (arguments : List (Option Expression))
  | object (span : Span) (entries : List (String × Expression))
  | set (span : Span) (target : Reference) (value : Expression)
  | getProperty (span : Span) (receiver : Expression) (property : String)
  | setProperty (span : Span) (receiver : Expression) (property : String) (value : Expression)
  deriving Repr, Inhabited

/-- The span of an expression. -/
def Expression.span : Expression → Span
  | .const span _ | .get span _ | .call span _ _ | .object span _ | .set span _ _
  | .getProperty span _ _ | .setProperty span _ _ _ => span

/-- A parameter of a function. -/
structure Parameter where
  id : Nat
  name : String
  span : Span
  deriving DecidableEq, Repr, Inhabited

/-- A statement: a function declaration with its parameters and body, a variable declaration
with its initializer, or an expression. -/
inductive Statement where
  | function (id : Nat) (name : String) (span : Span) (parameters : List Parameter)
      (bodyId : Nat) (bodySpan : Span) (body : List Statement)
  | variable (id : Nat) (name : String) (span : Span) (initializer : Option Expression)
  | expression (expression : Expression)
  deriving Repr, Inhabited

/-- The span of a statement. -/
def Statement.span : Statement → Span
  | .function _ _ span .. => span
  | .variable _ _ span _ => span
  | .expression value => value.span

/-- The high-level tree of one file. -/
structure File where
  id : Nat
  name : String
  span : Span
  statements : List Statement
  deriving Repr, Inhabited

/-- The identities and names of the functions declared directly in the file, in order. -/
def File.functionDeclarations (file : File) : List (Nat × String) :=
  file.statements.filterMap fun
    | .function id name .. => some (id, name)
    | _ => none

/-- The names of the functions declared directly in the file, in order. -/
def File.functions (file : File) : List String :=
  file.functionDeclarations.map (·.2)

end Hir

end ScriptLowering
