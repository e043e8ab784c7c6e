import ScriptLowering.Constant
import ScriptLowering.Error
import ScriptLowering.Hir.Basic

/-! # The middle representation

The middle representation keeps every node of a program in one arena and names nodes by
their index there. Declarations are named by a symbol instead of by their text: a symbol is
made unbound and is bound exactly once, to the node that declares it. The lowering passes
rewrite the tree in place; a node they take out of the tree stays in the arena, unreachable.

Expressions are not arena nodes: each belongs to the statement or declaration holding it.

Files, classes, functions, parameters and variables keep a link to the closest enclosing node
that keeps one too; bodies and expression statements keep none, and the nodes below them link
past them. A class container is a file or a class, the nodes that can hold class declarations.

Lookups follow links through the arena, which by construction hold no cycle; every walk is
bounded by the number of nodes, which no path without a repeated node can exceed.
-/

namespace ScriptLowering.Mir

/-- What a symbol names. -/
inductive SymbolKind where
  | function
  | parameter
  | variable
  | classDef
  deriving DecidableEq, Repr, Inhabited

/-- The word for a symbol kind in dumps. -/
def SymbolKind.name : SymbolKind → String
  | .function => "function"
  | .parameter => "parameter"
  | .variable => "variable"
  | .classDef => "class"

/-- A symbol: its kind and the node it is bound to, once bound. -/
structure Symbol where
  kind : SymbolKind
  owner : Option Nat := none
  deriving DecidableEq, Repr, Inhabited

/-- Where a class or function came from. -/
inductive Origin where
  | source
  | builtIn
  | functionClass
  | invoke
  | classInitializer
  | fileClass
  deriving DecidableEq, Repr, Inhabited

/-- The name of an origin in dumps. -/
def Origin.name : Origin → String
  | .source => "Source"
  | .builtIn => "BuiltIn"
  | .functionClass => "FunctionClass"
  | .invoke => "Invoke"
  | .classInitializer => "ClassInitializer"
  | .fileClass => "FileClass"

/-- An expression; reads and writes of declarations name their symbols. -/
inductive Expression where
  | const (span : Span) (value : Constant)
  | get (span : Span) (symbol : Nat)
  | set (span : Span) (symbol : Nat) (value : Expression)
  | getProperty (span : Span) (receiver : Expression) (name : String)
  | setProperty (span : Span) (receiver : Expression) (name : String) (value : Expression)
  | object (span : Span) (entries : List (String × Expression))
  | call (span : Span) (receiver : Expression) (arguments : List (Option Expression))
  | newInstance (span : Span) (classSymbol : Nat) (arguments : List (Option Expression))
  deriving Repr, Inhabited

/-- The span of an expression. -/
def Expression.span : Expression → Span
  | .const span _ | .get span _ | .set span _ _ | .getProperty span _ _
  | .setProperty span _ _ _ | .object span _ | .call span _ _ | .newInstance span _ _ => span

/-- The name of an expression's kind. -/
def Expression.kindName : Expression → String
  | .const .. => "Const"
  | .get .. => "GetValue"
  | .set .. => "SetValue"
  | .getProperty .. => "GetProperty"
  | .setProperty .. => "SetProperty"
  | .object .. => "Object"
  | .call .. => "Call"
  | .newInstance .. => "NewInstance"

/-- The symbol an expression reads, writes or instantiates directly, if any. -/
def Expression.symbol? : Expression → Option Nat
  | .get _ symbol | .set _ symbol _ | .newInstance _ symbol _ => some symbol
  | _ => none

mutual

/-- An expression with every read and write of a symbol renamed by `rename`; the classes of
new instances keep their symbols. -/
def Expression.renameSymbols (rename : Nat → Nat) : Expression → Expression
  | .const span value => .const span value
  | .get span symbol => .get span (rename symbol)
  | .set span symbol value => .set span (rename symbol) (value.renameSymbols rename)
  | .getProperty span receiver name => .getProperty span (receiver.renameSymbols rename) name
  | .setProperty span receiver name value =>
    .setProperty span (receiver.renameSymbols rename) name (value.renameSymbols rename)
  | .object span entries => .object span (Expression.renameEntries rename entries)
  | .call span receiver arguments =>
    .call span (receiver.renameSymbols rename) (Expression.renameArguments rename arguments)
  | .newInstance span classSymbol arguments =>
    .newInstance span classSymbol (Expression.renameArguments rename arguments)

/-- Arguments with their symbols renamed. -/
def Expression.renameArguments (rename : Nat → Nat) :
    List (Option Expression) → List (Option Expression)
  | [] => []
  | none :: rest => none :: Expression.renameArguments rename rest
  | some argument :: rest =>
    some (argument.renameSymbols rename) :: Expression.renameArguments rename rest

/-- Object entries with their symbols renamed. -/
def Expression.renameEntries (rename : Nat → Nat) :
    List (String × Expression) → List (String × Expression)
  | [] => []
  | (key, value) :: rest => (key, value.renameSymbols rename) :: Expression.renameEntries rename rest

end

/-- A function declaration. -/
structure Function where
  symbol : Nat
  name : String
  parameters : List Nat
  body : Nat
  native : Bool
  static : Bool
  origin : Origin
  deriving DecidableEq, Repr, Inhabited

/-- What a node is. -/
inductive NodeKind where
  | file (name : String) (statements : List Nat)
  | classDef (symbol : Nat) (name : String) (statements : List Nat) (origin : Origin)
  | function (function : Function)
  | parameter (symbol : Nat) (name : String)
  | body (statements : List Nat)
  | variable (symbol : Nat) (name : String) (value : Option Expression)
  | expression (value : Expression)
  deriving Repr, Inhabited

namespace NodeKind

/-- The name of a node kind. -/
def name : NodeKind → String
  | .file .. => "File"
  | .classDef .. => "Class"
  | .function .. => "Function"
  | .parameter .. => "Parameter"
  | .body .. => "Body"
  | .variable .. => "Variable"
  | .expression .. => "Expression"

/-- Whether nodes of this kind keep a link to their enclosing node. -/
def tracksParent : NodeKind → Bool
  | .body .. | .expression .. => false
  | _ => true

/-- Whether nodes of this kind can hold class declarations. -/
def isClassContainer : NodeKind → Bool
  | .file .. | .classDef .. => true
  | _ => false

/-- Whether a node of this kind is a declaration a class may hold. -/
def isDeclaration : NodeKind → Bool
  | .function .. | .classDef .. => true
  | _ => false

/-- The symbol a declaration introduces. -/
def symbol? : NodeKind → Option Nat
  | .classDef symbol .. | .parameter symbol _ | .variable symbol .. => some symbol
  | .function declared => some declared.symbol
  | _ => none

/-- The name a declaration introduces. -/
def declaredName? : NodeKind → Option String
  | .classDef _ name .. | .parameter _ name | .variable _ name _ => some name
  | .function declared => some declared.name
  | _ => none

/-- The child nodes in tree order: the statements of a container, the parameters and body
of a function. -/
def children : NodeKind → List Nat
  | .file _ statements | .classDef _ _ statements _ | .body statements => statements
  | .function declared => declared.parameters ++ [declared.body]
  | _ => []

end NodeKind

/-- A node of the arena: what it is, the source it covers and its enclosing node. -/
structure Node where
  kind : NodeKind
  span : Span
  parent : Option Nat := none
  deriving Repr, Inhabited

/-- Every node and symbol of a program, each named by its index. -/
structure Arena where
  nodes : Array Node := #[]
  symbols : Array Symbol := #[]
  deriving Repr, Inhabited

/-- The text naming a node or symbol index. -/
def indexName (index : Nat) : String := s!"#{index}"

namespace Arena

/-- The number of nodes. -/
def nodeCount (arena : Arena) : Nat := arena.nodes.size

/-- The number of symbols. -/
def symbolCount (arena : Arena) : Nat := arena.symbols.size

/-- Adds a node without a parent link, returning the arena and the node's index. -/
def push (arena : Arena) (kind : NodeKind) (span : Span) : Arena × Nat :=
  ({ arena with nodes := arena.nodes.push { kind, span } }, arena.nodes.size)

/-- The node at an index. Indices come from the arena itself, so they are always in range. -/
def node (arena : Arena) (id : Nat) : Node := arena.nodes[id]?.getD default

/-- Changes the node at an index. -/
def modifyNode (arena : Arena) (id : Nat) (change : Node → Node) : Arena :=
  { arena with nodes := arena.nodes.modify id change }

/-- Replaces what the node at an index is. -/
def setKind (arena : Arena) (id : Nat) (kind : NodeKind) : Arena :=
  arena.modifyNode id ({ · with kind })

/-- Sets the parent link of the node at an index. -/
def setParent (arena : Arena) (id : Nat) (parent : Option Nat) : Arena :=
  arena.modifyNode id ({ · with parent })

/-- Makes an unbound symbol, returning the arena and the symbol's index. -/
def newSymbol (arena : Arena) (kind : SymbolKind) : Arena × Nat :=
  ({ arena with symbols := arena.symbols.push { kind } }, arena.symbols.size)

/-- The symbol at an index. -/
def symbol (arena : Arena) (symbol : Nat) : Symbol := arena.symbols[symbol]?.getD default

/-- Binds a symbol to its declaring node; a symbol binds only once. -/
def bind (arena : Arena) (symbol owner : Nat) : Except InternalError Arena :=
  match (arena.symbol symbol).owner with
  | some _ => .error (.symbolAlreadyBound symbol)
  | none => .ok { arena with symbols := arena.symbols.modify symbol ({ · with owner := some owner }) }

/-- The node a symbol is bound to. -/
def owner (arena : Arena) (symbol : Nat) : Except InternalError Nat :=
  match (arena.symbol symbol).owner with
  | some owner => .ok owner
  | none => .error (.unboundSymbol symbol)

/-- The name the node at an index declares. -/
def declaredName? (arena : Arena) (id : Nat) : Option String := (arena.node id).kind.declaredName?

/-- The children of the node at an index, in tree order. -/
def children (arena : Arena) (id : Nat) : List Nat := (arena.node id).kind.children

/-- The first class container on the parent links above a node, following at most `fuel`
links. -/
def containerAbove (arena : Arena) : (fuel : Nat) → Option Nat → Option Nat
  | 0, _ => none
  | _, none => none
  | fuel + 1, some id =>
    if (arena.node id).kind.isClassContainer then some id
    else arena.containerAbove fuel (arena.node id).parent

/-- The closest file or class enclosing a node, found through the parent links. -/
def closestClassContainer (arena : Arena) (id : Nat) : Option Nat :=
  arena.containerAbove arena.nodeCount (arena.node id).parent

/-- The file at an index, as its name and statements. -/
def file (arena : Arena) (id : Nat) : Except InternalError (String × List Nat) :=
  match (arena.node id).kind with
  | .file name statements => .ok (name, statements)
  | other => .error (.unexpectedNode "File" other.name)

/-- The class at an index, as its symbol, name, statements and origin. -/
def classDef (arena : Arena) (id : Nat) : Except InternalError (Nat × String × List Nat × Origin) :=
  match (arena.node id).kind with
  | .classDef symbol name statements origin => .ok (symbol, name, statements, origin)
  | other => .error (.unexpectedNode "Class" other.name)

/-- The function at an index. -/
def function (arena : Arena) (id : Nat) : Except InternalError Function :=
  match (arena.node id).kind with
  | .function function => .ok function
  | other => .error (.unexpectedNode "Function" other.name)

/-- The parameter at an index, as its symbol and name. -/
def parameter (arena : Arena) (id : Nat) : Except InternalError (Nat × String) :=
  match (arena.node id).kind with
  | .parameter symbol name => .ok (symbol, name)
  | other => .error (.unexpectedNode "Parameter" other.name)

/-- The statements of a file, class or body. -/
def statements (arena : Arena) (id : Nat) : Except InternalError (List Nat) :=
  match (arena.node id).kind with
  | .file _ statements | .classDef _ _ statements _ | .body statements => .ok statements
  | other => .error (.unexpectedNode "statement container" other.name)

/-- Replaces the statements of a file, class or body. -/
def setStatements (arena : Arena) (id : Nat) (statements : List Nat) : Except InternalError Arena :=
  match (arena.node id).kind with
  | .file name _ => .ok (arena.setKind id (.file name statements))
  | .classDef symbol name _ origin => .ok (arena.setKind id (.classDef symbol name statements origin))
  | .body _ => .ok (arena.setKind id (.body statements))
  | other => .error (.unexpectedNode "statement container" other.name)

end Arena

/-- A converted file with the arena holding it and the declarations of the built-in
functions, which live in a file of their own. -/
structure Program where
  arena : Arena
  file : Nat
  builtinsFile : Nat
  /-- The symbol of each built-in function. -/
  builtins : List (Nat × Builtin)
  deriving Repr, Inhabited

/-- The built-in function a symbol names, if any. -/
def Program.builtinFor? (program : Program) (symbol : Nat) : Option Builtin :=
  (program.builtins.find? (·.1 == symbol)).map (·.2)

/-- The symbol of a built-in function. -/
def Program.builtinSymbol? (program : Program) (builtin : Builtin) : Option Nat :=
  (program.builtins.find? (·.2 == builtin)).map (·.1)

end ScriptLowering.Mir
