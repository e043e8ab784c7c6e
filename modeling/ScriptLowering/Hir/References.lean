import ScriptLowering.Hir.Basic

/-! # The references of a file

The references of a high-level tree are listed in walk order: statements in order, a
function's body after its parameters, a variable's initializer, and inside an expression a
call's receiver before its arguments, an assignment's value before its target, a property
write's receiver before its value and an object's values in entry order. Empty argument
slots have none.

Forgetting resolutions clears the declaration of every reference, making the file as it was
before names were resolved.
-/

namespace ScriptLowering.Hir

mutual

/-- The references of an expression, in walk order. -/
def Expression.references : Expression → List Reference
  | .const .. => []
  | .get _ reference => [reference]
  | .call _ receiver arguments => receiver.references ++ Expression.argumentReferences arguments
  | .object _ entries => Expression.entryReferences entries
  | .set _ target value => value.references ++ [target]
  | .getProperty _ receiver _ => receiver.references
  | .setProperty _ receiver _ value => receiver.references ++ value.references

/-- The references of the arguments present, in order. -/
def Expression.argumentReferences : List (Option Expression) → List Reference
  | [] => []
  | none :: rest => Expression.argumentReferences rest
  | some argument :: rest => argument.references ++ Expression.argumentReferences rest

/-- The references of an object's values, in entry order. -/
def Expression.entryReferences : List (String × Expression) → List Reference
  | [] => []
  | (_, value) :: rest => value.references ++ Expression.entryReferences rest

end

mutual

/-- The references of a statement, in walk order. -/
def Statement.references : Statement → List Reference
  | .function _ _ _ _ _ _ body => Statement.listReferences body
  | .variable _ _ _ (some initializer) => initializer.references
  | .variable _ _ _ none => []
  | .expression value => value.references

/-- The references of statements, in order. -/
def Statement.listReferences : List Statement → List Reference
  | [] => []
  | statement :: rest => statement.references ++ Statement.listReferences rest

end

/-- The references of a file, in walk order. -/
def File.references (file : File) : List Reference := Statement.listReferences file.statements

/-- A reference without its declaration. -/
def Reference.forget (reference : Reference) : Reference := { reference with candidate := none }

mutual

/-- An expression with every reference's declaration cleared. -/
def Expression.forget : Expression → Expression
  | .const span value => .const span value
  | .get span reference => .get span reference.forget
  | .call span receiver arguments => .call span receiver.forget (Expression.forgetArguments arguments)
  | .object span entries => .object span (Expression.forgetEntries entries)
  | .set span target value => .set span target.forget value.forget
  | .getProperty span receiver property => .getProperty span receiver.forget property
  | .setProperty span receiver property value =>
    .setProperty span receiver.forget property value.forget

/-- Arguments with every reference's declaration cleared. -/
def Expression.forgetArguments : List (Option Expression) → List (Option Expression)
  | [] => []
  | none :: rest => none :: Expression.forgetArguments rest
  | some argument :: rest => some argument.forget :: Expression.forgetArguments rest

/-- Object entries with every reference's declaration cleared. -/
def Expression.forgetEntries : List (String × Expression) → List (String × Expression)
  | [] => []
  | (key, value) :: rest => (key, value.forget) :: Expression.forgetEntries rest

end

mutual

/-- A statement with every reference's declaration cleared. -/
def Statement.forget : Statement → Statement
  | .function id name span parameters bodyId bodySpan body =>
    .function id name span parameters bodyId bodySpan (Statement.forgetList body)
  | .variable id name span initializer => .variable id name span (initializer.map Expression.forget)
  | .expression value => .expression value.forget

/-- Statements with every reference's declaration cleared. -/
def Statement.forgetList : List Statement → List Statement
  | [] => []
  | statement :: rest => statement.forget :: Statement.forgetList rest

end

/-- A file with every reference's declaration cleared. -/
def File.forget (file : File) : File := { file with statements := Statement.forgetList file.statements }

/-- The number of references of a file that are bound to a declaration. -/
def File.resolvedCount (file : File) : Nat := (file.references.filter (·.candidate.isSome)).length

end ScriptLowering.Hir
