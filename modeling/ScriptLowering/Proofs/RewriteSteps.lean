import ScriptLowering.Proofs.ConvertShape
import ScriptLowering.Lowering.Steps

/-! # Steps of a rewriting walk

The lowering passes change the arena through a handful of steps: pushing a node, making and
binding a symbol, replacing what a node is or where it links, and replacing the statements of a
file, class or body. This module says what each step does when it runs, which nodes it touches
(`Arena.Edits`), and what a rewriting walk runs at each kind of node, so that the proofs about the
passes follow their code without unfolding it.
-/

namespace ScriptLowering.Mir

namespace NodeKind

/-- Whether a node holds statements: a file, a class or a body. -/
def holdsStatements : NodeKind → Bool
  | .file .. | .classDef .. | .body .. => true
  | _ => false

/-- The same file, class or body holding other statements; any other kind stays. -/
def withStatements : NodeKind → List Nat → NodeKind
  | .file name _, statements => .file name statements
  | .classDef symbol name _ origin, statements => .classDef symbol name statements origin
  | .body _, statements => .body statements
  | kind, _ => kind

variable (kind : NodeKind) (statements : List Nat)

@[simp] theorem symbol?_withStatements : (kind.withStatements statements).symbol? = kind.symbol? := by
  cases kind <;> rfl

@[simp] theorem uses_withStatements : (kind.withStatements statements).uses = kind.uses := by
  cases kind <;> rfl

@[simp] theorem instances_withStatements : (kind.withStatements statements).instances = kind.instances := by
  cases kind <;> rfl

@[simp] theorem tracksParent_withStatements :
    (kind.withStatements statements).tracksParent = kind.tracksParent := by
  cases kind <;> rfl

@[simp] theorem isClassContainer_withStatements :
    (kind.withStatements statements).isClassContainer = kind.isClassContainer := by
  cases kind <;> rfl

@[simp] theorem isDeclaration_withStatements :
    (kind.withStatements statements).isDeclaration = kind.isDeclaration := by
  cases kind <;> rfl

@[simp] theorem isClass_withStatements : (kind.withStatements statements).isClass = kind.isClass := by
  cases kind <;> rfl

@[simp] theorem holdsStatements_withStatements :
    (kind.withStatements statements).holdsStatements = kind.holdsStatements := by
  cases kind <;> rfl

@[simp] theorem withStatements_children : kind.withStatements kind.children = kind := by
  cases kind <;> rfl

@[simp] theorem withStatements_withStatements (more : List Nat) :
    (kind.withStatements statements).withStatements more = kind.withStatements more := by
  cases kind <;> rfl

theorem children_withStatements (holds : kind.holdsStatements = true) :
    (kind.withStatements statements).children = statements := by
  cases kind <;> simp_all [holdsStatements, withStatements, children]

theorem isClassContainer_holds (container : kind.isClassContainer = true) : kind.holdsStatements = true := by
  cases kind <;> simp_all [isClassContainer, holdsStatements]

/-- Only a function gives a function back, as it was. -/
theorem eq_function_of_withStatements {declared : Function} (same : kind.withStatements statements = .function declared) :
    kind = .function declared := by
  cases kind <;> simp_all [withStatements]

end NodeKind

namespace Arena

variable (arena : Arena)

@[simp] theorem nodeCount_setKind (id : Nat) (kind : NodeKind) :
    (arena.setKind id kind).nodeCount = arena.nodeCount := by
  simp [setKind]

@[simp] theorem symbol_setKind (id : Nat) (kind : NodeKind) (symbol : Nat) :
    (arena.setKind id kind).symbol symbol = arena.symbol symbol := rfl

@[simp] theorem symbolCount_setKind (id : Nat) (kind : NodeKind) :
    (arena.setKind id kind).symbolCount = arena.symbolCount := rfl

theorem node_setKind_self {id : Nat} (kind : NodeKind) (present : id < arena.nodeCount) :
    (arena.setKind id kind).node id = { arena.node id with kind } :=
  arena.node_modifyNode_self _ present

theorem node_setKind_ne {id other : Nat} (kind : NodeKind) (different : other ≠ id) :
    (arena.setKind id kind).node other = arena.node other :=
  arena.node_modifyNode_ne _ different

@[simp] theorem nodeCount_setParent (id : Nat) (parent : Option Nat) :
    (arena.setParent id parent).nodeCount = arena.nodeCount := by
  simp [setParent]

@[simp] theorem symbol_setParent (id : Nat) (parent : Option Nat) (symbol : Nat) :
    (arena.setParent id parent).symbol symbol = arena.symbol symbol := rfl

@[simp] theorem symbolCount_setParent (id : Nat) (parent : Option Nat) :
    (arena.setParent id parent).symbolCount = arena.symbolCount := rfl

theorem statements_eq_ok {id : Nat} (holds : (arena.node id).kind.holdsStatements = true) :
    arena.statements id = .ok (arena.children id) := by
  unfold statements children
  cases kind : (arena.node id).kind <;> simp_all [NodeKind.holdsStatements, NodeKind.children]

theorem setStatements_eq_ok {id : Nat} (holds : (arena.node id).kind.holdsStatements = true)
    (statements : List Nat) :
    arena.setStatements id statements =
      .ok (arena.setKind id ((arena.node id).kind.withStatements statements)) := by
  unfold setStatements
  cases kind : (arena.node id).kind <;> simp_all [NodeKind.holdsStatements, NodeKind.withStatements]

theorem function_eq_ok {id : Nat} {declared : Function} (isFunction : (arena.node id).kind = .function declared) :
    arena.function id = .ok declared := by
  simp [Arena.function, isFunction]

theorem file_eq_ok {id : Nat} {name : String} {statements : List Nat}
    (isFile : (arena.node id).kind = .file name statements) : arena.file id = .ok (name, statements) := by
  simp [Arena.file, isFile]

/-! ## What each step touches -/

theorem edits_setKind (id : Nat) (kind : NodeKind) : arena.Edits (arena.setKind id kind) [id] :=
  arena.edits_modifyNode id _

theorem edits_setParent (id : Nat) (parent : Option Nat) : arena.Edits (arena.setParent id parent) [id] :=
  arena.edits_modifyNode id _

theorem edits_push (kind : NodeKind) (span : Span) : arena.Edits (arena.push kind span).1 [] where
  nodeCount_le := by simp
  symbolCount_le := by simp
  node id present _ := by simp [node_push, Nat.ne_of_lt present]
  symbol _ _ := rfl

theorem edits_newSymbol (kind : SymbolKind) : arena.Edits (arena.newSymbol kind).1 [] where
  nodeCount_le := by simp
  symbolCount_le := by simp
  node _ _ _ := rfl
  symbol symbol present := by simp [symbol_newSymbol, Nat.ne_of_lt present]

/-- Binding a symbol made after the first arena keeps every symbol of the first. -/
theorem Edits.bind_fresh {first second third : Arena} {touched : List Nat} {symbol owner : Nat}
    (edits : first.Edits second touched) (fresh : first.symbolCount ≤ symbol)
    (binds : second.bind symbol owner = .ok third) : first.Edits third touched := by
  unfold bind at binds
  split at binds
  · cases binds
  · cases binds
    refine ⟨edits.nodeCount_le, ?_, edits.node, fun other present => ?_⟩
    · simp only [symbolCount, Array.size_modify]
      exact edits.symbolCount_le
    · have different : other ≠ symbol := by omega
      rw [← edits.symbol other present]
      simp only [Arena.symbol, Array.getElem?_modify, Ne.symm different, if_false]

/-- Linking the parents of a tree touches the tree's nodes only. -/
theorem edits_linkBelow {fuel id : Nat} {nodes : List Nat} (above : Option Nat)
    (tree : arena.Tree id nodes) (fits : nodes.length ≤ fuel) :
    arena.Edits (linkBelow fuel arena id above) nodes where
  nodeCount_le := Nat.le_of_eq (relinks_linkBelow fuel arena id above).nodeCount.symm
  symbolCount_le := by simp [symbolCount, (relinks_linkBelow fuel arena id above).symbols]
  node other _ outside := (linkBelow_linked fuel arena id nodes above tree fits).2 other outside
  symbol other _ := by simp [Arena.symbol, (relinks_linkBelow fuel arena id above).symbols]

end Arena

end ScriptLowering.Mir

namespace ScriptLowering.Lowering

open Mir

variable {σ : Type}

/-! ## Steps of a pass -/

theorem run_bind_of_ok {α β : Type} {step : PassM σ α} {next : α → PassM σ β} {start middle : Arena × σ}
    {value : α} (ran : step.run start = .ok (value, middle)) :
    (step >>= next).run start = (next value).run middle := by
  rw [StateT.run_bind, ran]
  rfl

section Steps

variable (arena : Arena) (state : σ)

theorem currentArena_run : (currentArena : PassM σ Arena).run (arena, state) = .ok (arena, (arena, state)) :=
  rfl

theorem changeArena_run (change : Arena → Arena) :
    (changeArena change : PassM σ Unit).run (arena, state) = .ok ((), (change arena, state)) := rfl

theorem addNode_run (kind : NodeKind) (span : Span) :
    (addNode kind span : PassM σ Nat).run (arena, state) =
      .ok (arena.nodeCount, ((arena.push kind span).1, state)) := rfl

theorem addSymbol_run (kind : SymbolKind) :
    (addSymbol kind : PassM σ Nat).run (arena, state) =
      .ok (arena.symbolCount, ((arena.newSymbol kind).1, state)) := rfl

theorem changeArenaOrFail_run {change : Arena → Except InternalError Arena} {changed : Arena}
    (succeeds : change arena = .ok changed) :
    (changeArenaOrFail change : PassM σ Unit).run (arena, state) = .ok ((), (changed, state)) := by
  simp only [changeArenaOrFail, StateT.run_bind, StateT.run_get, pure_bind, succeeds]
  rfl

theorem bindTo_run {symbol : Nat} (owner : Nat) (unbound : (arena.symbol symbol).owner = none) :
    (bindTo symbol owner : PassM σ Unit).run (arena, state) =
      .ok ((), ({ arena with symbols := arena.symbols.modify symbol ({ · with owner := some owner }) }, state)) :=
  changeArenaOrFail_run arena state (arena.bind_of_unbound owner unbound)

theorem putStatements_run {id : Nat} (holds : (arena.node id).kind.holdsStatements = true)
    (statements : List Nat) :
    (putStatements id statements : PassM σ Unit).run (arena, state) =
      .ok ((), (arena.setKind id ((arena.node id).kind.withStatements statements), state)) :=
  changeArenaOrFail_run arena state (arena.setStatements_eq_ok holds statements)

end Steps

/-! ## What a walk runs at each kind of node -/

namespace Rewrite

/-- What a walk runs at a file, class or body once the pass has looked at it: it walks the
statements one after another while the node holds none, then gives the node the results. -/
def walkStatements (rewrite : Rewrite σ) (fuel id : Nat) : PassM σ Nat := do
  let statements ← (← currentArena).statements id
  putStatements id []
  let statements ← statements.mapM (rewrite.walk fuel)
  putStatements id statements
  return id

/-- What a walk runs at a function once its parameters and body are walked: it gives the function
the results and lets the pass choose what takes its place. -/
def finishFunction (rewrite : Rewrite σ) (id : Nat) (parameters : List Nat) (body : Nat) : PassM σ Nat := do
  let current ← (← currentArena).function id
  changeArena (·.setKind id (.function { current with parameters, body }))
  rewrite.afterFunction id

/-- What a walk runs at a function: it walks the parameters, then the body, and finishes the
function with the results. -/
def walkFunction (rewrite : Rewrite σ) (fuel id : Nat) (declared : Function) : PassM σ Nat := do
  let parameters ← declared.parameters.mapM (rewrite.walk fuel)
  let body ← rewrite.walk fuel declared.body
  rewrite.finishFunction id parameters body

variable (rewrite : Rewrite σ) (fuel id : Nat) (arena : Arena) (state : σ)

theorem walk_zero_run (start : Arena × σ) : (rewrite.walk 0 id).run start = .ok (id, start) := rfl

theorem walk_run_of_classContainer (container : (arena.node id).kind.isClassContainer = true) :
    (rewrite.walk (fuel + 1) id).run (arena, state) =
      (rewrite.beforeContainer id >>= fun _ => rewrite.walkStatements fuel id).run (arena, state) := by
  rw [walk, run_bind_of_ok (currentArena_run arena state)]
  cases kind : (arena.node id).kind with
  | file => rfl
  | classDef => rfl
  | _ => simp only [kind, NodeKind.isClassContainer] at container; cases container

theorem walk_run_of_body {statements : List Nat} (isBody : (arena.node id).kind = .body statements) :
    (rewrite.walk (fuel + 1) id).run (arena, state) = (rewrite.walkStatements fuel id).run (arena, state) := by
  rw [walk, run_bind_of_ok (currentArena_run arena state)]
  simp only [isBody]
  rfl

theorem walk_run_of_function {declared : Function} (isFunction : (arena.node id).kind = .function declared) :
    (rewrite.walk (fuel + 1) id).run (arena, state) =
      (rewrite.walkFunction fuel id declared).run (arena, state) := by
  rw [walk, run_bind_of_ok (currentArena_run arena state)]
  simp only [isFunction]
  rfl

theorem walk_run_of_parameter {symbol : Nat} {name : String}
    (isParameter : (arena.node id).kind = .parameter symbol name) :
    (rewrite.walk (fuel + 1) id).run (arena, state) = .ok (id, (arena, state)) := by
  rw [walk, run_bind_of_ok (currentArena_run arena state)]
  simp only [isParameter]
  rfl

theorem walk_run_of_variable {symbol : Nat} {name : String} {value : Option Expression}
    (isVariable : (arena.node id).kind = .variable symbol name value) :
    (rewrite.walk (fuel + 1) id).run (arena, state) =
      .ok (id, (arena.setKind id (.variable symbol name (value.map rewrite.expression)), state)) := by
  rw [walk, run_bind_of_ok (currentArena_run arena state)]
  simp only [isVariable]
  rfl

theorem walk_run_of_expression {value : Expression}
    (isExpression : (arena.node id).kind = .expression value) :
    (rewrite.walk (fuel + 1) id).run (arena, state) =
      .ok (id, (arena.setKind id (.expression (rewrite.expression value)), state)) := by
  rw [walk, run_bind_of_ok (currentArena_run arena state)]
  simp only [isExpression]
  rfl

theorem finishFunction_run {declared : Function} (isFunction : (arena.node id).kind = .function declared)
    (parameters : List Nat) (body : Nat) :
    (rewrite.finishFunction id parameters body).run (arena, state) =
      (rewrite.afterFunction id).run (arena.setKind id (.function { declared with parameters, body }), state) := by
  rw [finishFunction, run_bind_of_ok (currentArena_run arena state)]
  simp [arena.function_eq_ok isFunction, liftM, monadLift, MonadLift.monadLift]
  rfl

theorem run_eq_ok {program : Program} {start : σ} {result : Nat} {after : Arena} {state : σ}
    (walked : (rewrite.walk program.arena.nodeCount program.file).run (program.arena, start) =
      .ok (result, (after, state))) :
    rewrite.run program start = .ok ({ program with arena := after }, state) := by
  rw [Rewrite.run, walked]
  rfl

theorem walkStatements_run (holds : (arena.node id).kind.holdsStatements = true) :
    (rewrite.walkStatements fuel id).run (arena, state) = (do
      putStatements id []
      let results ← (arena.children id).mapM (rewrite.walk fuel)
      putStatements id results
      return id : PassM σ Nat).run (arena, state) := by
  rw [walkStatements, run_bind_of_ok (currentArena_run arena state)]
  simp [arena.statements_eq_ok holds, liftM, monadLift, MonadLift.monadLift]
  rfl

end Rewrite

end ScriptLowering.Lowering
