import ScriptLowering.Hir.Basic
import ScriptLowering.Diagnostic.Basic

/-! # Name resolution

Resolution binds every reference of a file to the declaration it names. Functions declared
directly in the file are visible everywhere in it. Everything else (parameters, variables,
nested functions) becomes visible only once its declaration has been passed, so a variable
cannot be used in its own initializer. Lookup goes from the innermost scope outwards and ends
at the built-in functions, so a declaration in the file hides a built-in of the same name.

A reference that already carries a declaration is left alone, which makes resolving twice
the same as resolving once. An unknown name is reported as `Unknown call to NAME` when it is
the receiver of a call and as `Unknown reference to NAME` otherwise; its reference stays
unresolved.
-/

namespace ScriptLowering.Hir

/-- The bindings made in one scope, the latest first, so the first match is the one in force. -/
abbrev Scope := List (String × Resolution)

/-- The declaration a name is bound to in a scope. -/
def Scope.lookup? (scope : Scope) (name : String) : Option Resolution :=
  (scope.find? (·.1 == name)).map (·.2)

/-- The scope below every file: the built-in functions. -/
def builtinScope : Scope :=
  Builtin.all.reverse.map fun builtin => (builtin.name, .builtin builtin)

/-- The resolver's state: the open scopes, innermost first, and the diagnostics so far. -/
structure ResolveState where
  scopes : List Scope := []
  reports : Diagnostics := #[]
  deriving Inhabited

/-- A resolution step. -/
abbrev ResolveM := StateM ResolveState

/-- Opens a scope for a file or function. -/
def openScope : ResolveM Unit :=
  modify fun state => { state with scopes := [] :: state.scopes }

/-- Closes the innermost scope. -/
def closeScope : ResolveM Unit :=
  modify fun state => { state with scopes := state.scopes.tail }

/-- Binds a name in the innermost scope, replacing an earlier binding of it there. -/
def bindName (name : String) (resolution : Resolution) : ResolveM Unit :=
  modify fun state =>
    match state.scopes with
    | [] => state
    | scope :: outer => { state with scopes := ((name, resolution) :: scope) :: outer }

/-- The declaration a name is bound to, from the innermost scope outwards. -/
def lookupName? (scopes : List Scope) (name : String) : Option Resolution :=
  match scopes.findSome? (·.lookup? name) with
  | some resolution => some resolution
  | none => builtinScope.lookup? name

/-- Resolves one reference; `use` says how it is used, for the message about an unknown name. -/
def resolveReference (use : String) (reference : Reference) : ResolveM Reference := do
  if reference.candidate.isSome then return reference
  let state ← get
  match lookupName? state.scopes reference.name with
  | some resolution => return { reference with candidate := some resolution }
  | none =>
    let message := s!"Unknown {use} to {reference.name}"
    set { state with reports := state.reports.report reference.span message }
    return reference

mutual

/-- Resolves the references of an expression. A call's receiver that is a plain name is
resolved as a call; the value of an assignment is resolved before its target. -/
def resolveExpression : Expression → ResolveM Expression
  | .const span value => pure (.const span value)
  | .get span reference => return .get span (← resolveReference "reference" reference)
  | .call span (.get receiverSpan reference) arguments => do
    let reference ← resolveReference "call" reference
    return .call span (.get receiverSpan reference) (← resolveArguments arguments)
  | .call span receiver arguments => do
    let receiver ← resolveExpression receiver
    return .call span receiver (← resolveArguments arguments)
  | .object span entries => return .object span (← resolveEntries entries)
  | .set span target value => do
    let value ← resolveExpression value
    return .set span (← resolveReference "reference" target) value
  | .getProperty span receiver property =>
    return .getProperty span (← resolveExpression receiver) property
  | .setProperty span receiver property value => do
    let receiver ← resolveExpression receiver
    return .setProperty span receiver property (← resolveExpression value)

/-- Resolves the arguments of a call, in order. -/
def resolveArguments : List (Option Expression) → ResolveM (List (Option Expression))
  | [] => pure []
  | none :: rest => return none :: (← resolveArguments rest)
  | some argument :: rest => do
    let argument ← resolveExpression argument
    return some argument :: (← resolveArguments rest)

/-- Resolves the values of an object, in entry order. -/
def resolveEntries : List (String × Expression) → ResolveM (List (String × Expression))
  | [] => pure []
  | (key, value) :: rest => do
    let value ← resolveExpression value
    return (key, value) :: (← resolveEntries rest)

end

/-- Resolves an optional expression. -/
def resolveOptional : Option Expression → ResolveM (Option Expression)
  | none => pure none
  | some value => some <$> resolveExpression value

mutual

/-- Resolves a statement. A function binds its own name where it is declared, then its
parameters and body in a scope of their own; a variable binds its name after its initializer. -/
def resolveStatement : Statement → ResolveM Statement
  | .function id name span parameters bodyId bodySpan body => do
    bindName name (.function id)
    openScope
    for parameter in parameters do
      bindName parameter.name (.parameter parameter.id)
    let body ← resolveStatements body
    closeScope
    return .function id name span parameters bodyId bodySpan body
  | .variable id name span initializer => do
    let initializer ← resolveOptional initializer
    bindName name (.variable id)
    return .variable id name span initializer
  | .expression value => .expression <$> resolveExpression value

/-- Resolves statements in order. -/
def resolveStatements : List Statement → ResolveM (List Statement)
  | [] => pure []
  | statement :: rest => do
    let statement ← resolveStatement statement
    return statement :: (← resolveStatements rest)

end

/-- Resolves the names of a file, adding a diagnostic for each unknown one to `reports`. The
functions declared directly in the file are bound before any statement is read, the later of
two with one name winning. -/
def File.resolve (file : File) (reports : Diagnostics) : File × Diagnostics :=
  let run : ResolveM File := do
    openScope
    for (id, name) in file.functionDeclarations do
      bindName name (.function id)
    let statements ← resolveStatements file.statements
    closeScope
    return { file with statements }
  let (file, state) := run.run { reports }
  (file, state.reports)

end ScriptLowering.Hir
