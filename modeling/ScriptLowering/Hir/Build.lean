import ScriptLowering.Hir.Basic
import ScriptLowering.Syntax.Tree
import ScriptLowering.Diagnostic.Basic
import ScriptLowering.Number.Read
import ScriptLowering.Error

/-! # Building the high-level tree

The builder reads any syntax tree, whatever made it, into the high-level tree of a file.
Missing or malformed pieces of source are reported as diagnostics and left out, so the rest of
the file is still built: a function without a name is `<anonymous>`, one without a block gets
an empty body of made-up code. A node of a shape the builder does not know is an internal
error, which stops it.

Identities are handed out in the order the builder meets declarations: the file first, then
each function before its parameters and body, each named parameter, each body, and each
variable before its initializer.

Recursion only ever goes from a node to one of its descendants, so it ends on every tree.
-/

namespace ScriptLowering.Hir

/-- The builder's state: the next identity to hand out and the diagnostics so far. -/
structure BuildState where
  nextId : Nat := 0
  reports : Diagnostics := #[]
  deriving Inhabited

/-- A building step, which may stop with an internal error. -/
abbrev BuildM := StateT BuildState (Except InternalError)

/-- Hands out the next identity. -/
def freshId : BuildM Nat :=
  modifyGet fun state => (state.nextId, { state with nextId := state.nextId + 1 })

/-- Records a diagnostic. -/
def reportAt (span : Span) (message : String) : BuildM Unit :=
  modify fun state => { state with reports := state.reports.report span message }

/-- The name given to declarations whose name is missing. -/
def anonymous : String := "<anonymous>"

/-- A string literal's characters without its surrounding quotes, each `\"` read as `"`. -/
def unescapeQuotes : List Char → List Char
  | [] => []
  | '\\' :: '"' :: rest => '"' :: unescapeQuotes rest
  | c :: rest => c :: unescapeQuotes rest

/-- The value of a string literal's text: one leading and one trailing quote dropped, then each
`\"` read as `"`. -/
def unquote (text : List Char) : String :=
  let text := match text with
    | '"' :: rest => rest
    | _ => text
  let text := if text.getLast? == some '"' then text.dropLast else text
  String.ofList (unescapeQuotes text)

section

variable (source : List Char)

/-- The text of a node as a string. -/
def textOf (tree : SyntaxTree) : String := String.ofList (tree.text source)

/-- The name a node declares or uses: the text of its first identifier child. -/
def identifierName? (tree : SyntaxTree) : Option String :=
  (tree.childOfKind? .identifier).map (textOf source ·.val)

/-- The parameters of a parameter list; a parameter without a name is left out silently. -/
def convertParameters (list : SyntaxTree) : BuildM (List Parameter) :=
  (list.childrenOfKind .parameter).filterMapM fun parameter => do
    match identifierName? source parameter.val with
    | some name => return some { id := (← freshId), name, span := parameter.val.span }
    | none => return none

/-- A reference node: its identifier's name, or an internal error when it has none. -/
def convertReference (tree : SyntaxTree) : BuildM Reference :=
  match identifierName? source tree with
  | some name => pure { name, span := tree.span }
  | none => throw (.unexpectedSyntax tree.kind tree.span .reference)

/-- The property name on the right of `.`: a reference's name, or a diagnostic. -/
def propertyName? (tree : SyntaxTree) : BuildM (Option String) := do
  if tree.kind == .reference then
    if let some name := identifierName? source tree then return some name
  reportAt tree.span "Expected property name"
  return none

/-- Whether a binary node is a member access, its first operator being `.`. -/
def isMemberAccess (tree : SyntaxTree) : Bool :=
  match tree.childOfKind? .operator with
  | some operator => textOf source operator.val == "."
  | none => false

mutual

/-- The statements among a node's children; separators and pieces already reported are left
out. -/
def convertStatements (tree : SyntaxTree) : BuildM (List Statement) :=
  tree.childList.filterMapM fun child =>
    have := SyntaxTree.sizeOf_lt_of_mem child.property
    convertStatement child.val
termination_by sizeOf tree * 8 + 7

/-- The statement a node stands for, if any. -/
def convertStatement (tree : SyntaxTree) : BuildM (Option Statement) :=
  match tree.kind with
  | .function => some <$> convertFunction tree
  | .variable => some <$> convertVariable tree
  | .semicolon | .comma => pure none
  | _ => (·.map .expression) <$> convertExpression tree
termination_by sizeOf tree * 8 + 6

/-- A function declaration: its name, parameter list and block. -/
def convertFunction (tree : SyntaxTree) : BuildM Statement := do
  let span := tree.span
  let id ← freshId
  let name ← match identifierName? source tree with
    | some name => pure name
    | none => do reportAt span "Expected function name"; pure anonymous
  let parameters ← match tree.childOfKind? .parameterList with
    | some list => convertParameters source list.val
    | none => do reportAt span "Expected parameter list"; pure []
  match tree.childOfKind? .block with
  | some block =>
    have := SyntaxTree.sizeOf_lt_of_mem block.property
    let bodyId ← freshId
    let body ← convertStatements block.val
    return .function id name span parameters bodyId block.val.span body
  | none =>
    reportAt span "Expected function body"
    let bodyId ← freshId
    return .function id name span parameters bodyId .synthetic []
termination_by sizeOf tree * 8 + 5

/-- A variable declaration: its name and its initializer, the first child that is not an
identifier. -/
def convertVariable (tree : SyntaxTree) : BuildM Statement := do
  let span := tree.span
  let id ← freshId
  let name ← match identifierName? source tree with
    | some name => pure name
    | none => do reportAt span "Expected variable name"; pure anonymous
  match tree.childList.find? (·.val.kind != .identifier) with
  | some initializer =>
    have := SyntaxTree.sizeOf_lt_of_mem initializer.property
    return .variable id name span (← convertExpression initializer.val)
  | none => return .variable id name span none

/-- The expression a node stands for; none when a diagnostic was reported for it. -/
def convertExpression (tree : SyntaxTree) : BuildM (Option Expression) := do
  let span := tree.span
  match tree.kind with
  | .stringConstant => return some (.const span (.string (unquote (tree.text source))))
  | .numberConstant =>
    match Number.readNumber? (textOf source tree) with
    | some value => return some (.const span (.number value))
    | none => reportAt span "Malformed number literal"; return none
  | .booleanConstant =>
    match textOf source tree with
    | "true" => return some (.const span (.boolean true))
    | "false" => return some (.const span (.boolean false))
    | _ => reportAt span "Malformed boolean literal"; return none
  | .reference => return some (.get span (← convertReference source tree))
  | .call => convertCall tree
  | .object => some <$> convertObject tree
  | .binary => convertBinary tree
  | .badCharacter => reportAt span "Found bad character"; return none
  | kind => throw (.unexpectedSyntax kind span .expression)
termination_by sizeOf tree * 8 + 4

/-- A call: its receiver, the first child, and one argument slot per argument node of its
first argument list, empty when the argument node has no child or its child was reported. -/
def convertCall (tree : SyntaxTree) : BuildM (Option Expression) := do
  match tree.firstChild? with
  | none => throw (.unexpectedSyntax .call tree.span .callReceiver)
  | some receiver =>
    have := SyntaxTree.sizeOf_lt_of_mem receiver.property
    let receiver ← convertExpression receiver.val
    let arguments ← match tree.childOfKind? .argumentList with
      | some list =>
        have := SyntaxTree.sizeOf_lt_of_mem list.property
        (list.val.childrenOfKind .argument).mapM fun argument =>
          have := SyntaxTree.sizeOf_lt_of_mem argument.property
          match argument.val.firstChild? with
          | some value =>
            have := SyntaxTree.sizeOf_lt_of_mem value.property
            convertExpression value.val
          | none => pure none
      | none => pure []
    return receiver.map (.call tree.span · arguments)
termination_by sizeOf tree * 8 + 3

/-- An object: one entry per clause with a key and a value that converts. A later clause with
the same key replaces the value and keeps the place of the first. -/
def convertObject (tree : SyntaxTree) : BuildM Expression := do
  let entries ← (tree.childrenOfKind .objectClause).foldlM
    (fun (entries : List (String × Expression)) clause => do
      have := SyntaxTree.sizeOf_lt_of_mem clause.property
      match (clause.val.childOfKind? .objectKey).bind (fun key => identifierName? source key.val) with
      | none =>
        reportAt clause.val.span "Expected property name"
        return entries
      | some key =>
        match clause.val.childOfKind? .objectValue with
        | none => return entries
        | some holder =>
          have := SyntaxTree.sizeOf_lt_of_mem holder.property
          match holder.val.firstChild? with
          | none => return entries
          | some value =>
            have := SyntaxTree.sizeOf_lt_of_mem value.property
            match ← convertExpression value.val with
            | none => return entries
            | some value =>
              if entries.any (·.1 == key) then
                return entries.map fun entry => if entry.1 == key then (key, value) else entry
              else return entries ++ [(key, value)]) []
  return .object tree.span entries
termination_by sizeOf tree * 8 + 3

/-- A binary node: an assignment for `=`, a property read for `.`. A missing right operand
was reported by the parser and leaves the node out. -/
def convertBinary (tree : SyntaxTree) : BuildM (Option Expression) := do
  match tree.firstChild?, tree.childOfKind? .operator with
  | some lhs, some operator =>
    match tree.childAt? 2 with
    | none => return none
    | some rhs =>
      have := SyntaxTree.sizeOf_lt_of_mem lhs.property
      have := SyntaxTree.sizeOf_lt_of_mem rhs.property
      match textOf source operator.val with
      | "=" => convertAssignment tree lhs rhs
      | "." =>
        match ← propertyName? source rhs.val with
        | none => return none
        | some property =>
          match ← convertExpression lhs.val with
          | none => return none
          | some receiver => return some (.getProperty tree.span receiver property)
      | _ => throw (.unexpectedSyntax .operator operator.val.span .binaryOperator)
  | _, _ => throw (.unexpectedSyntax .binary tree.span .binaryExpression)
termination_by sizeOf tree * 8 + 2

/-- An assignment of the child `value` to the child `target` of the binary node `tree`: a
variable write for a reference, a property write for a member access. -/
def convertAssignment (tree : SyntaxTree) (target value : SyntaxTree.Child tree) :
    BuildM (Option Expression) := do
  have := SyntaxTree.sizeOf_lt_of_mem target.property
  have := SyntaxTree.sizeOf_lt_of_mem value.property
  match target.val.kind with
  | .reference =>
    let reference ← convertReference source target.val
    let value ← convertExpression value.val
    return value.map (.set tree.span reference ·)
  | .binary =>
    if isMemberAccess source target.val then
      match target.val.firstChild?, target.val.childAt? 2 with
      | some receiver, some property =>
        have := SyntaxTree.sizeOf_lt_of_mem receiver.property
        match ← propertyName? source property.val with
        | none => return none
        | some name =>
          let receiver ← convertExpression receiver.val
          let value ← convertExpression value.val
          return match receiver, value with
            | some receiver, some value => some (.setProperty tree.span receiver name value)
            | _, _ => none
      | _, _ => return none
    else
      reportAt target.val.span "Invalid assignment target"
      return none
  | _ =>
    reportAt target.val.span "Invalid assignment target"
    return none
termination_by sizeOf tree * 8 + 1

end

end

/-- Builds the high-level tree of a file named `name` from a syntax tree over `source`, adding
the diagnostics met on the way to `reports`, or stops with an internal error. -/
def File.build (source : List Char) (name : String) (tree : SyntaxTree) (reports : Diagnostics) :
    Except InternalError (File × Diagnostics) := do
  if tree.kind != .file then throw (.unexpectedSyntax tree.kind tree.span .file)
  let run : BuildM File := do
    let id ← freshId
    let statements ← convertStatements source tree
    return { id, name, span := tree.span, statements }
  let (file, state) ← run.run { reports }
  return (file, state.reports)

end ScriptLowering.Hir
