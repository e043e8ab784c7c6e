import ScriptLowering.Mir.Parents

/-! # Rewriting walks

A rewriting walk passes every node of a subtree through a pass and stores what the pass
returns in place of each child. A file, class or body gives its statements up while they are
walked and takes the rewritten list back afterwards; a function takes back its rewritten
parameters and body. The pass chooses three things: what to do to a file or class before its
statements are walked, which node takes the place of a function once its parameters and body
are walked, and how to rewrite the expressions held by variables and expression statements.

Every walk is bounded by the number of nodes when it starts, which no path through a tree can
exceed.
-/

namespace ScriptLowering.Lowering

open Mir

/-- A pass step: it changes the arena and a state of the pass's own, and may stop with an
internal error. -/
abbrev PassM (σ : Type) := StateT (Arena × σ) (Except InternalError)

section

variable {σ : Type}

/-- The arena as it stands. -/
def currentArena : PassM σ Arena := return (← get).1

/-- Changes the arena. -/
def changeArena (change : Arena → Arena) : PassM σ Unit :=
  modify fun (arena, state) => (change arena, state)

/-- Changes the arena by a step that may fail. -/
def changeArenaOrFail (change : Arena → Except InternalError Arena) : PassM σ Unit := do
  let (arena, state) ← get
  set (← change arena, state)

/-- Adds a node, returning its index. -/
def addNode (kind : NodeKind) (span : Span) : PassM σ Nat :=
  modifyGet fun (arena, state) => let (arena, id) := arena.push kind span; (id, (arena, state))

/-- Makes a symbol, returning its index. -/
def addSymbol (kind : SymbolKind) : PassM σ Nat :=
  modifyGet fun (arena, state) => let (arena, symbol) := arena.newSymbol kind; (symbol, (arena, state))

/-- Binds a symbol to its declaring node. -/
def bindTo (symbol owner : Nat) : PassM σ Unit := changeArenaOrFail (·.bind symbol owner)

/-- Replaces the statements of a file, class or body. -/
def putStatements (id : Nat) (statements : List Nat) : PassM σ Unit :=
  changeArenaOrFail (·.setStatements id statements)

end

/-- What a pass does during a rewriting walk. -/
structure Rewrite (σ : Type) where
  /-- Runs on a file or class before its statements are walked. -/
  beforeContainer : Nat → PassM σ Unit
  /-- Gives the node that takes the place of a function whose children were walked. -/
  afterFunction : Nat → PassM σ Nat
  /-- Rewrites the expression of a variable or expression statement. -/
  expression : Expression → Expression

namespace Rewrite

variable {σ : Type}

/-- Walks the subtree at `id` for at most `fuel` levels and gives the node that takes its
place. -/
def walk (rewrite : Rewrite σ) : (fuel : Nat) → (id : Nat) → PassM σ Nat
  | 0, id => pure id
  | fuel + 1, id => do
    let container (id : Nat) : PassM σ Nat := do
      let statements ← (← currentArena).statements id
      putStatements id []
      let statements ← statements.mapM (rewrite.walk fuel)
      putStatements id statements
      return id
    match ((← currentArena).node id).kind with
    | .file .. | .classDef .. =>
      rewrite.beforeContainer id
      container id
    | .body .. => container id
    | .function declared =>
      let parameters ← declared.parameters.mapM (rewrite.walk fuel)
      let body ← rewrite.walk fuel declared.body
      let current ← (← currentArena).function id
      changeArena (·.setKind id (.function { current with parameters, body }))
      rewrite.afterFunction id
    | .parameter .. => pure id
    | .variable symbol name value =>
      changeArena (·.setKind id (.variable symbol name (value.map rewrite.expression)))
      return id
    | .expression value =>
      changeArena (·.setKind id (.expression (rewrite.expression value)))
      return id

/-- Walks a program's file with a pass and its starting state, giving the program and the
pass's final state. -/
def run (rewrite : Rewrite σ) (program : Program) (start : σ) :
    Except InternalError (Program × σ) := do
  let (_, arena, state) ← (rewrite.walk program.arena.nodeCount program.file).run (program.arena, start)
  return ({ program with arena }, state)

end Rewrite

end ScriptLowering.Lowering
