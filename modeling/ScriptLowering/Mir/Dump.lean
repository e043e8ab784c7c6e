import ScriptLowering.Mir.Basic
import ScriptLowering.Hir.Dump

/-! # Dumping the middle representation

The dump of a node is one line per node and expression, two spaces of indentation per level.
A symbol shows its kind and the name its declaration gives it, or its index when the
declaration has no name, or that it is unbound. An empty argument slot is `<missing>`.
-/

namespace ScriptLowering.Mir

open Hir (dumpLine)

/-- How a symbol is shown in dumps. -/
def Arena.describe (arena : Arena) (symbol : Nat) : String :=
  let entry := arena.symbol symbol
  match entry.owner with
  | some owner =>
    match arena.declaredName? owner with
    | some name => s!"{entry.kind.name} {name}"
    | none => s!"{entry.kind.name} {indexName symbol}"
  | none => s!"unbound symbol {indexName symbol}"

mutual

/-- The dump lines of an expression at a depth. -/
def Expression.dumpLines (arena : Arena) (depth : Nat) : Expression → List String
  | .const _ value => [dumpLine depth s!"CONST: {value.render}"]
  | .get _ symbol => [dumpLine depth s!"GET: {arena.describe symbol}"]
  | .set _ symbol value =>
    dumpLine depth s!"SET: {arena.describe symbol}" :: value.dumpLines arena (depth + 1)
  | .getProperty _ receiver name =>
    dumpLine depth s!"GET_PROP: {name}" :: receiver.dumpLines arena (depth + 1)
  | .setProperty _ receiver name value =>
    dumpLine depth s!"SET_PROP: {name}" ::
      (receiver.dumpLines arena (depth + 1) ++ value.dumpLines arena (depth + 1))
  | .object _ entries => dumpLine depth "OBJECT:" :: Expression.dumpEntries arena (depth + 1) entries
  | .call _ receiver arguments =>
    dumpLine depth "CALL:" ::
      (receiver.dumpLines arena (depth + 1) ++
        dumpLine (depth + 1) "ARGS:" :: Expression.dumpArguments arena (depth + 2) arguments)
  | .newInstance _ classSymbol arguments =>
    dumpLine depth s!"NEW symbol: {arena.describe classSymbol}" ::
      Expression.dumpArguments arena (depth + 1) arguments

/-- The dump lines of arguments at a depth. -/
def Expression.dumpArguments (arena : Arena) (depth : Nat) :
    List (Option Expression) → List String
  | [] => []
  | none :: rest => dumpLine depth "<missing>" :: Expression.dumpArguments arena depth rest
  | some argument :: rest =>
    argument.dumpLines arena depth ++ Expression.dumpArguments arena depth rest

/-- The dump lines of an object's entries at a depth. -/
def Expression.dumpEntries (arena : Arena) (depth : Nat) : List (String × Expression) → List String
  | [] => []
  | (key, value) :: rest =>
    dumpLine depth s!"KEY: {key}" :: dumpLine depth "VALUE:" ::
      (value.dumpLines arena (depth + 1) ++ Expression.dumpEntries arena depth rest)

end

/-- The dump lines of the subtree at a node, at a depth, for at most `fuel` levels. -/
def Arena.dumpNode (arena : Arena) : (fuel : Nat) → (depth : Nat) → (id : Nat) → List String
  | 0, _, _ => []
  | fuel + 1, depth, id =>
    let below (ids : List Nat) := ids.flatMap (arena.dumpNode fuel (depth + 1))
    match (arena.node id).kind with
    | .file name statements => dumpLine depth s!"FILE name: {name}" :: below statements
    | .classDef _ name statements origin =>
      dumpLine depth s!"CLASS name: {name} origin: {origin.name}" :: below statements
    | .function declared =>
      dumpLine depth (s!"FUNCTION name: {declared.name} isNative: {declared.native} " ++
        s!"isStatic: {declared.static} origin: {declared.origin.name}") ::
        below (declared.parameters ++ [declared.body])
    | .parameter _ name => [dumpLine depth s!"PARAMETER name: {name}"]
    | .body statements => dumpLine depth "BODY" :: below statements
    | .variable _ name value =>
      dumpLine depth s!"VAR name: {name}" ::
        match value with
        | some value => value.dumpLines arena (depth + 1)
        | none => []
    | .expression value => value.dumpLines arena depth

/-- The dump of the subtree at a node, each line ended by a newline. -/
def Arena.dumpAt (arena : Arena) (id : Nat) : String :=
  String.join ((arena.dumpNode arena.nodeCount 0 id).map (· ++ "\n"))

/-- The dump of a program's file. -/
def Program.dump (program : Program) : String := program.arena.dumpAt program.file

end ScriptLowering.Mir
