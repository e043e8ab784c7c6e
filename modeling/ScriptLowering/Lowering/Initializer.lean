import ScriptLowering.Lowering.Rewrite

/-! # Class initializers

Wrapping initializers leaves only declarations, functions and classes, directly in a file or
class. The other statements of a container, its loose statements, move in order into the body
of a new native static function `<clinit>`, which is appended after the declarations. A
container with no loose statement is left as it is, so wrapping twice changes nothing.
-/

namespace ScriptLowering.Lowering

open Mir

/-- The name of the function running a container's loose statements. -/
def initializerName : String := "<clinit>"

/-- Moves the loose statements of the file or class at `container` into a new initializer. -/
def hoistLoose (container : Nat) : PassM Unit Unit := do
  let arena ← currentArena
  let statements ← arena.statements container
  putStatements container []
  let isDeclaration (statement : Nat) : Bool := (arena.node statement).kind.isDeclaration
  let declarations := statements.filter isDeclaration
  let loose := statements.filter (!isDeclaration ·)
  if loose.isEmpty then
    putStatements container declarations
  else
    let body ← addNode (.body loose) .synthetic
    let symbol ← addSymbol .function
    let initializer ← addNode (.function
      { symbol, name := initializerName, parameters := [], body, native := true, static := true,
        origin := .classInitializer }) .synthetic
    bindTo symbol initializer
    changeArena (·.patchParents initializer (some container))
    putStatements container (declarations ++ [initializer])

/-- The walk that hoists the loose statements of every file and class. -/
def initializerWrapper : Rewrite Unit where
  beforeContainer := hoistLoose
  afterFunction := pure
  expression := id

/-- Wraps the loose statements of every file and class of a program into initializers. -/
def wrapInitializers (program : Program) : Except InternalError Program :=
  (·.1) <$> initializerWrapper.run program ()

end ScriptLowering.Lowering
