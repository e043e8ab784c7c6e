import ScriptLowering.Lowering.Rewrite

/-! # Functions as classes

Reifying turns every function written in the source into a class with a single method,
`invoke`, so that functions can be stored and passed around as ordinary values. The method
takes over the function's parameters, body and span; where the function was declared there is
now a variable of the same name holding a new instance of the class. The class is appended to
the closest file or class enclosing the function, after the whole file has been walked, so the
walk never sees a container half rewritten. Nested functions are reified first, while their
parent links still lead through the function around them. Last, every read and write of a
reified function's symbol is pointed at the variable that replaced it.

Names are not made unique: two functions called `a` in one container become two sibling
classes called `a`, told apart only by their symbols.
-/

namespace ScriptLowering.Lowering

open Mir

/-- The name of the method holding a reified function's body. -/
def invokeName : String := "invoke"

/-- What reifying collects while it walks: the classes to append, each with its container,
in the order they were made, and the variable symbol replacing each function symbol, the
latest first. -/
structure ReifyState where
  pending : List (Nat × Nat) := []
  replaced : List (Nat × Nat) := []

/-- Replaces the function at `id` by a variable holding an instance of a new class whose
`invoke` method takes over the function's parameters and body. -/
def reifyFunction (id : Nat) : PassM ReifyState Nat := do
  let arena ← currentArena
  let declared ← arena.function id
  let node := arena.node id
  let some container := arena.closestClassContainer id
    | throw (.missingClassContainer declared.name)
  let invokeSymbol ← addSymbol .function
  let invoke ← addNode (.function
    { symbol := invokeSymbol, name := invokeName, parameters := declared.parameters,
      body := declared.body, native := true, static := false, origin := .invoke }) node.span
  bindTo invokeSymbol invoke
  let classSymbol ← addSymbol .classDef
  let created ← addNode (.classDef classSymbol declared.name [invoke] .functionClass) .synthetic
  bindTo classSymbol created
  let variableSymbol ← addSymbol .variable
  let replacement ← addNode
    (.variable variableSymbol declared.name (some (.newInstance .synthetic classSymbol []))) .synthetic
  bindTo variableSymbol replacement
  changeArena (·.setParent replacement node.parent)
  modify fun (arena, state) =>
    (arena, { pending := state.pending ++ [(container, created)],
              replaced := (declared.symbol, variableSymbol) :: state.replaced })
  return replacement

/-- The reifying walk: a function from the source is reified once its children are; built-in
functions, methods and initializers stay. -/
def reifier : Rewrite ReifyState where
  beforeContainer _ := pure ()
  afterFunction id := do
    let declared ← (← currentArena).function id
    match declared.origin with
    | .source | .functionClass | .fileClass => reifyFunction id
    | .builtIn | .invoke | .classInitializer => pure id
  expression := id

/-- The walk that renames symbols in every expression. -/
def renamer (rename : Nat → Nat) : Rewrite Unit where
  beforeContainer _ := pure ()
  afterFunction := pure
  expression := Expression.renameSymbols rename

/-- Reifies every function of a program written in its source. -/
def reifyFunctions (program : Program) : Except InternalError Program := do
  let (program, state) ← reifier.run program {}
  let mut arena := program.arena
  for (container, created) in state.pending do
    let statements ← arena.statements container
    arena ← arena.setStatements container (statements ++ [created])
    arena := arena.patchParents created (some container)
  let program := { program with arena }
  if state.replaced.isEmpty then return program
  let rename (symbol : Nat) : Nat := (state.replaced.lookup symbol).getD symbol
  let (program, ()) ← (renamer rename).run program ()
  return program

end ScriptLowering.Lowering
