import ScriptLowering.Hir.Basic

/-! # Dumping the high-level tree

The dump of a high-level tree is one line per piece, two spaces of indentation per level.
Declarations show their names; a reference shows the kind of declaration it binds to and its
name, or `<unresolved NAME>` before it is resolved. An empty argument slot is `<missing>`.
-/

namespace ScriptLowering.Hir

/-- A dump line at a depth. -/
def dumpLine (depth : Nat) (text : String) : String :=
  String.ofList (List.replicate (2 * depth) ' ') ++ text

/-- How a reference is shown: the kind of its declaration and its name, or that it is
unresolved. -/
def Reference.describe (reference : Reference) : String :=
  match reference.candidate with
  | some resolution => s!"{resolution.describe} {reference.name}"
  | none => s!"<unresolved {reference.name}>"

mutual

/-- The dump lines of an expression at a depth. -/
def Expression.dumpLines (depth : Nat) : Expression → List String
  | .const _ value => [dumpLine depth s!"CONST: {value.render}"]
  | .get _ reference => [dumpLine depth s!"GET: {reference.describe}"]
  | .call _ receiver arguments =>
    dumpLine depth "CALL:" :: dumpLine (depth + 1) "RECEIVER:" ::
      (receiver.dumpLines (depth + 2) ++
        dumpLine (depth + 1) "ARGUMENTS:" :: Expression.dumpArguments (depth + 2) arguments)
  | .object _ entries => dumpLine depth "OBJECT:" :: Expression.dumpEntries (depth + 1) entries
  | .set _ target value => dumpLine depth s!"SET: {target.describe}" :: value.dumpLines (depth + 1)
  | .getProperty _ receiver property =>
    dumpLine depth s!"GET_PROP: {property}" :: dumpLine (depth + 1) "RECEIVER:" ::
      receiver.dumpLines (depth + 2)
  | .setProperty _ receiver property value =>
    dumpLine depth s!"SET_PROP: {property}" :: dumpLine (depth + 1) "RECEIVER:" ::
      (receiver.dumpLines (depth + 2) ++ dumpLine (depth + 1) "VALUE:" :: value.dumpLines (depth + 2))

/-- The dump lines of a call's arguments at a depth. -/
def Expression.dumpArguments (depth : Nat) : List (Option Expression) → List String
  | [] => []
  | none :: rest => dumpLine depth "<missing>" :: Expression.dumpArguments depth rest
  | some argument :: rest => argument.dumpLines depth ++ Expression.dumpArguments depth rest

/-- The dump lines of an object's entries at a depth. -/
def Expression.dumpEntries (depth : Nat) : List (String × Expression) → List String
  | [] => []
  | (key, value) :: rest =>
    dumpLine depth s!"KEY: {key}" :: dumpLine depth "VALUE:" ::
      (value.dumpLines (depth + 1) ++ Expression.dumpEntries depth rest)

end

mutual

/-- The dump lines of a statement at a depth. -/
def Statement.dumpLines (depth : Nat) : Statement → List String
  | .function _ name _ parameters _ _ body =>
    dumpLine depth s!"FUNCTION name: {name}" ::
      (parameters.map fun parameter => dumpLine (depth + 1) s!"PARAMETER name: {parameter.name}") ++
      dumpLine (depth + 1) "BODY" :: Statement.dumpList (depth + 2) body
  | .variable _ name _ initializer =>
    dumpLine depth s!"VAR name: {name}" ::
      match initializer with
      | some value => value.dumpLines (depth + 1)
      | none => []
  | .expression value => value.dumpLines depth

/-- The dump lines of statements at a depth. -/
def Statement.dumpList (depth : Nat) : List Statement → List String
  | [] => []
  | statement :: rest => statement.dumpLines depth ++ Statement.dumpList depth rest

end

/-- The dump of a file, each line ended by a newline. -/
def File.dump (file : File) : String :=
  let lines := dumpLine 0 s!"FILE name: {file.name}" :: Statement.dumpList 1 file.statements
  String.join (lines.map (· ++ "\n"))

end ScriptLowering.Hir
