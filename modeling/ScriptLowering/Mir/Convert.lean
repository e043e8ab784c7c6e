import ScriptLowering.Mir.Parents

/-! # From the high-level tree to the middle representation

Conversion rebuilds a resolved high-level file in a fresh arena. The arena starts with the
built-in functions, each a native static function with its parameters and an empty body,
held by a file of their own named `<builtins>`. Then every declaration of the file gets a
symbol the first time conversion meets it; the functions declared directly in the file get
theirs before anything else, since they can be used before their declaration. A node is
pushed after its children, so indices grow from the leaves up.

A reference that was never resolved is an internal error, and so is one whose declaration has
no symbol yet.
-/

namespace ScriptLowering.Mir

/-- The name of the file holding the built-in functions. -/
def builtinsFileName : String := "<builtins>"

/-- The conversion state: the arena so far, the symbol of each declaration met, by its
identity in the high-level tree, and the symbol of each built-in function. -/
structure ConvertState where
  arena : Arena
  symbols : List (Nat × Nat) := []
  builtins : List (Builtin × Nat) := []

/-- A conversion step, which may stop with an internal error. -/
abbrev ConvertM := StateT ConvertState (Except InternalError)

/-- Runs an arena change in a conversion step. -/
def withArena {α : Type} (change : Arena → α × Arena) : ConvertM α :=
  modifyGet fun state =>
    let (result, arena) := change state.arena
    (result, { state with arena })

/-- Adds a node, returning its index. -/
def pushNode (kind : NodeKind) (span : Span) : ConvertM Nat :=
  withArena fun arena => let (arena, id) := arena.push kind span; (id, arena)

/-- Makes a symbol, returning its index. -/
def makeSymbol (kind : SymbolKind) : ConvertM Nat :=
  withArena fun arena => let (arena, symbol) := arena.newSymbol kind; (symbol, arena)

/-- Binds a symbol to its declaring node. -/
def bindSymbol (symbol owner : Nat) : ConvertM Unit := do
  let state ← get
  set { state with arena := ← state.arena.bind symbol owner }

/-- The symbol of a declaration, made on first sight. -/
def declareSymbol (id : Nat) (kind : SymbolKind) : ConvertM Nat := do
  match (← get).symbols.lookup id with
  | some symbol => return symbol
  | none =>
    let symbol ← makeSymbol kind
    modify fun state => { state with symbols := (id, symbol) :: state.symbols }
    return symbol

/-- The symbol of the declaration a reference is bound to. -/
def referenceSymbol (reference : Hir.Reference) : ConvertM Nat := do
  let state ← get
  let found := match reference.candidate with
    | none => none
    | some (.builtin builtin) => some (state.builtins.lookup builtin)
    | some (.function id) | some (.parameter id) | some (.variable id) => some (state.symbols.lookup id)
  match found with
  | none => throw (.unresolvedReference reference.name reference.span)
  | some none => throw (.symbolNotDefined reference.name)
  | some (some symbol) => return symbol

mutual

/-- Converts an expression; an assignment's value is converted before its target. -/
def convertExpression : Hir.Expression → ConvertM Expression
  | .const span value => pure (.const span value)
  | .get span reference => return .get span (← referenceSymbol reference)
  | .call span receiver arguments => do
    let receiver ← convertExpression receiver
    return .call span receiver (← convertArguments arguments)
  | .object span entries => return .object span (← convertEntries entries)
  | .set span target value => do
    let value ← convertExpression value
    return .set span (← referenceSymbol target) value
  | .getProperty span receiver property =>
    return .getProperty span (← convertExpression receiver) property
  | .setProperty span receiver property value => do
    let receiver ← convertExpression receiver
    return .setProperty span receiver property (← convertExpression value)

/-- Converts the arguments of a call, keeping empty slots. -/
def convertArguments : List (Option Hir.Expression) → ConvertM (List (Option Expression))
  | [] => pure []
  | none :: rest => return none :: (← convertArguments rest)
  | some argument :: rest => do
    let argument ← convertExpression argument
    return some argument :: (← convertArguments rest)

/-- Converts the entries of an object. -/
def convertEntries : List (String × Hir.Expression) → ConvertM (List (String × Expression))
  | [] => pure []
  | (key, value) :: rest => do
    let value ← convertExpression value
    return (key, value) :: (← convertEntries rest)

end

/-- Converts a parameter into a bound parameter node. -/
def convertParameter (parameter : Hir.Parameter) : ConvertM Nat := do
  let symbol ← declareSymbol parameter.id .parameter
  let id ← pushNode (.parameter symbol parameter.name) parameter.span
  bindSymbol symbol id
  return id

mutual

/-- Converts a statement into a node: a function after its parameters and body, a variable
after its value. -/
def convertStatement : Hir.Statement → ConvertM Nat
  | .function id name span parameters _ bodySpan body => do
    let symbol ← declareSymbol id .function
    let parameters ← parameters.mapM convertParameter
    let statements ← convertStatements body
    let body ← pushNode (.body statements) bodySpan
    let function ← pushNode (.function
      { symbol, name, parameters, body, native := false, static := false, origin := .source }) span
    bindSymbol symbol function
    return function
  | .variable id name span initializer => do
    let symbol ← declareSymbol id .variable
    let value ← match initializer with
      | some initializer => some <$> convertExpression initializer
      | none => pure none
    let declared ← pushNode (.variable symbol name value) span
    bindSymbol symbol declared
    return declared
  | .expression value => do
    let value ← convertExpression value
    pushNode (.expression value) value.span

/-- Converts statements in order. -/
def convertStatements : List Hir.Statement → ConvertM (List Nat)
  | [] => pure []
  | statement :: rest => do
    let statement ← convertStatement statement
    return statement :: (← convertStatements rest)

end

/-- Declares one built-in function: its parameters, an empty body and the native static
function itself, each bound. Returns the function's symbol and node. -/
def declareBuiltin (builtin : Builtin) : ConvertM (Nat × Nat) := do
  let parameters ← builtin.parameters.mapM fun name => do
    let symbol ← makeSymbol .parameter
    let id ← pushNode (.parameter symbol name) .synthetic
    bindSymbol symbol id
    return id
  let body ← pushNode (.body []) .synthetic
  let symbol ← makeSymbol .function
  let function ← pushNode (.function
    { symbol, name := builtin.name, parameters, body, native := true, static := true,
      origin := .builtIn }) .synthetic
  bindSymbol symbol function
  return (symbol, function)

/-- Converts a resolved high-level file into a program. -/
def Program.convert (file : Hir.File) : Except InternalError Program := do
  let run : ConvertM (Nat × Nat) := do
    let mut functions := []
    for builtin in Builtin.all do
      let (symbol, function) ← declareBuiltin builtin
      modify fun state => { state with builtins := state.builtins ++ [(builtin, symbol)] }
      functions := functions ++ [function]
    let builtinsFile ← pushNode (.file builtinsFileName functions) .synthetic
    modify fun state => { state with arena := state.arena.patchParents builtinsFile none }
    for (id, _) in file.functionDeclarations do
      let _ ← declareSymbol id .function
    let statements ← convertStatements file.statements
    let root ← pushNode (.file file.name statements) file.span
    modify fun state => { state with arena := state.arena.patchParents root none }
    return (root, builtinsFile)
  let ((root, builtinsFile), state) ← run.run { arena := {} }
  return { arena := state.arena, file := root, builtinsFile,
           builtins := state.builtins.map fun (builtin, symbol) => (symbol, builtin) }

end ScriptLowering.Mir
