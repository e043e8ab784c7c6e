import Mathlib.Data.List.Forall2
import ScriptLowering.Mir.Convert

/-! # The image of a high-level file in the arena

Conversion rebuilds a resolved high-level file node by node. This module says what the result
has to look like, independently of how conversion builds it: an expression's image is the same
expression with each reference replaced by the symbol of the declaration it is bound to, and a
statement's image is a node of the matching kind, with the same name and span, whose children are
the images of the statement's children and whose symbol is owned by the node itself.

Images are stated against an arena and a map from declarations to symbols. An arena that only
grows, keeping its nodes and the owners of its bound symbols, keeps every image, and so does a map
that only learns new declarations (`StatementImage.mono`); this is what lets conversion build a
file statement by statement.
-/

namespace ScriptLowering.Mir

/-- The symbol conversion gives each declaration or built-in function, where it gives one. -/
abbrev SymbolMap := Hir.Resolution → Option Nat

namespace Arena

variable (arena : Arena)

@[simp] theorem nodeCount_push (kind : NodeKind) (span : Span) :
    (arena.push kind span).1.nodeCount = arena.nodeCount + 1 := by
  simp [push, nodeCount]

@[simp] theorem index_push (kind : NodeKind) (span : Span) : (arena.push kind span).2 = arena.nodeCount :=
  rfl

@[simp] theorem symbolCount_push (kind : NodeKind) (span : Span) :
    (arena.push kind span).1.symbolCount = arena.symbolCount := rfl

@[simp] theorem symbol_push (kind : NodeKind) (span : Span) (symbol : Nat) :
    (arena.push kind span).1.symbol symbol = arena.symbol symbol := rfl

theorem node_push (kind : NodeKind) (span : Span) (id : Nat) :
    (arena.push kind span).1.node id = if id = arena.nodeCount then { kind, span } else arena.node id := by
  by_cases fresh : id = arena.nodes.size <;> simp [push, node, nodeCount, Array.getElem?_push, fresh]

@[simp] theorem nodeCount_newSymbol (kind : SymbolKind) :
    (arena.newSymbol kind).1.nodeCount = arena.nodeCount := rfl

@[simp] theorem index_newSymbol (kind : SymbolKind) : (arena.newSymbol kind).2 = arena.symbolCount :=
  rfl

@[simp] theorem node_newSymbol (kind : SymbolKind) (id : Nat) :
    (arena.newSymbol kind).1.node id = arena.node id := rfl

@[simp] theorem symbolCount_newSymbol (kind : SymbolKind) :
    (arena.newSymbol kind).1.symbolCount = arena.symbolCount + 1 := by
  simp [newSymbol, symbolCount]

theorem symbol_newSymbol (kind : SymbolKind) (symbol : Nat) :
    (arena.newSymbol kind).1.symbol symbol =
      if symbol = arena.symbolCount then { kind } else arena.symbol symbol := by
  by_cases fresh : symbol = arena.symbols.size <;>
    simp [newSymbol, Arena.symbol, symbolCount, Array.getElem?_push, fresh]

/-- The arena after binding `symbol` to `owner`, when the binding succeeds. -/
theorem bind_of_unbound {symbol : Nat} (owner : Nat) (unbound : (arena.symbol symbol).owner = none) :
    arena.bind symbol owner =
      .ok { arena with symbols := arena.symbols.modify symbol ({ · with owner := some owner }) } := by
  simp [bind, unbound]

theorem symbol_modify_owner (symbol owner other : Nat) (present : symbol < arena.symbolCount) :
    ({ arena with symbols := arena.symbols.modify symbol ({ · with owner := some owner }) } : Arena).symbol
        other =
      if other = symbol then { arena.symbol symbol with owner := some owner } else arena.symbol other := by
  simp only [Arena.symbol, Array.getElem?_modify]
  by_cases same : symbol = other
  · subst same
    simp only [symbolCount] at present
    simp [Array.getElem?_eq_getElem present]
  · simp [same, Ne.symm same]

/-- A node whose kind is not that of the empty file is held by the arena. -/
theorem lt_nodeCount_of_kind {id : Nat} {kind : NodeKind} (holds : (arena.node id).kind = kind)
    (notFile : ∀ name statements, kind ≠ .file name statements) : id < arena.nodeCount := by
  rcases Nat.lt_or_ge id arena.nodeCount with inside | outside
  · exact inside
  · have empty : arena.node id = default := by
      simp [node, Array.getElem?_eq_none (show arena.nodes.size ≤ id from outside)]
    rw [empty] at holds
    exact absurd holds.symm (notFile "" [])

/-- The second arena holds every node of the first with its kind and span, and every symbol the
first has bound keeps its owner. -/
structure Keeps (before after : Arena) : Prop where
  kind : ∀ id < before.nodeCount, (after.node id).kind = (before.node id).kind
  span : ∀ id < before.nodeCount, (after.node id).span = (before.node id).span
  owner : ∀ symbol owner, (before.symbol symbol).owner = some owner →
    (after.symbol symbol).owner = some owner
  nodeCount_le : before.nodeCount ≤ after.nodeCount

theorem Keeps.refl : arena.Keeps arena :=
  ⟨fun _ _ => rfl, fun _ _ => rfl, fun _ _ bound => bound, Nat.le_refl _⟩

theorem Keeps.trans {first second third : Arena} (left : first.Keeps second)
    (right : second.Keeps third) : first.Keeps third where
  kind id present := (right.kind id (Nat.lt_of_lt_of_le present left.nodeCount_le)).trans
    (left.kind id present)
  span id present := (right.span id (Nat.lt_of_lt_of_le present left.nodeCount_le)).trans
    (left.span id present)
  owner symbol owner bound := right.owner symbol owner (left.owner symbol owner bound)
  nodeCount_le := Nat.le_trans left.nodeCount_le right.nodeCount_le

theorem keeps_push (kind : NodeKind) (span : Span) : arena.Keeps (arena.push kind span).1 where
  kind id present := by simp [node_push, Nat.ne_of_lt present]
  span id present := by simp [node_push, Nat.ne_of_lt present]
  owner _ _ bound := bound
  nodeCount_le := by simp

theorem keeps_newSymbol (kind : SymbolKind) : arena.Keeps (arena.newSymbol kind).1 where
  kind _ _ := rfl
  span _ _ := rfl
  owner symbol owner bound := by
    rw [symbol_newSymbol]
    split
    · next fresh =>
      subst fresh
      have outside : arena.symbol arena.symbolCount = default := by
        simp [Arena.symbol, symbolCount]
      rw [outside] at bound
      cases bound
    · exact bound
  nodeCount_le := Nat.le_refl _

theorem keeps_bind {symbol owner : Nat} {bound : Arena} (binds : arena.bind symbol owner = .ok bound) :
    arena.Keeps bound := by
  unfold bind at binds
  split at binds
  · cases binds
  · next unbound =>
    cases binds
    refine ⟨fun _ _ => rfl, fun _ _ => rfl, fun other previous known => ?_, Nat.le_refl _⟩
    simp only [Arena.symbol, Array.getElem?_modify] at known unbound ⊢
    split
    · next same =>
      subst same
      cases found : arena.symbols[symbol]? with
      | none => simp only [found, Option.getD_none] at known; cases known
      | some entry => simp [found] at known unbound; rw [unbound] at known; cases known
    · exact known

/-- The node just pushed, in any later arena that keeps the arena it was pushed to. -/
theorem Keeps.pushed {kind : NodeKind} {span : Span} {after : Arena}
    (keeps : (arena.push kind span).1.Keeps after) :
    (after.node arena.nodeCount).kind = kind ∧ (after.node arena.nodeCount).span = span := by
  have present : arena.nodeCount < (arena.push kind span).1.nodeCount := by simp
  rw [keeps.kind _ present, keeps.span _ present, node_push, if_pos rfl]
  exact ⟨rfl, rfl⟩

/-- The second arena differs from the first in parent links at most. -/
structure Relinks (before after : Arena) : Prop where
  nodeCount : after.nodeCount = before.nodeCount
  kind : ∀ id, (after.node id).kind = (before.node id).kind
  span : ∀ id, (after.node id).span = (before.node id).span
  symbols : after.symbols = before.symbols

theorem Relinks.refl : arena.Relinks arena := ⟨rfl, fun _ => rfl, fun _ => rfl, rfl⟩

theorem Relinks.trans {first second third : Arena} (left : first.Relinks second)
    (right : second.Relinks third) : first.Relinks third :=
  ⟨right.nodeCount.trans left.nodeCount, fun id => (right.kind id).trans (left.kind id),
    fun id => (right.span id).trans (left.span id), right.symbols.trans left.symbols⟩

theorem Relinks.keeps {before after : Arena} (relinks : before.Relinks after) : before.Keeps after where
  kind id _ := relinks.kind id
  span id _ := relinks.span id
  owner symbol owner bound := by simpa [Arena.symbol, relinks.symbols] using bound
  nodeCount_le := Nat.le_of_eq relinks.nodeCount.symm

theorem relinks_setParent (id : Nat) (parent : Option Nat) : arena.Relinks (arena.setParent id parent) where
  nodeCount := by simp [setParent, modifyNode, nodeCount]
  kind other := by
    simp only [setParent, modifyNode, node, Array.getElem?_modify]
    split <;> cases arena.nodes[other]? <;> rfl
  span other := by
    simp only [setParent, modifyNode, node, Array.getElem?_modify]
    split <;> cases arena.nodes[other]? <;> rfl
  symbols := rfl

theorem relinks_linkBelow (fuel : Nat) (arena : Arena) (id : Nat) (parent : Option Nat) :
    arena.Relinks (linkBelow fuel arena id parent) := by
  induction fuel generalizing arena id parent with
  | zero => exact .refl arena
  | succ fuel ih =>
    simp only [linkBelow]
    -- Linking the node itself changes at most its parent; each child's subtree is linked after it.
    have children : ∀ (start : Arena) (ids : List Nat) (inherited : Option Nat),
        start.Relinks (ids.foldl (fun arena child => linkBelow fuel arena child inherited) start) := by
      intro start ids inherited
      induction ids generalizing start with
      | nil => exact .refl start
      | cons child rest restIh => exact (ih start child inherited).trans (restIh _)
    split
    · exact (arena.relinks_setParent id parent).trans (children _ _ _)
    · exact children _ _ _

theorem relinks_patchParents (id : Nat) (parent : Option Nat) :
    arena.Relinks (arena.patchParents id parent) :=
  relinks_linkBelow _ arena id parent

end Arena

/-! ## Images of expressions and statements -/

mutual

/-- `ExpressionImage symbolOf source image`: `image` is `source` with every reference replaced by
the symbol of the declaration it is bound to. -/
inductive ExpressionImage (symbolOf : SymbolMap) : Hir.Expression → Expression → Prop
  | const (span : Span) (value : Constant) :
      ExpressionImage symbolOf (.const span value) (.const span value)
  | get {span : Span} {reference : Hir.Reference} {declaration : Hir.Resolution} {symbol : Nat}
      (bound : reference.candidate = some declaration) (known : symbolOf declaration = some symbol) :
      ExpressionImage symbolOf (.get span reference) (.get span symbol)
  | call {span : Span} {receiver : Hir.Expression} {arguments : List (Option Hir.Expression)}
      {receiverImage : Expression} {argumentImages : List (Option Expression)}
      (receiverIs : ExpressionImage symbolOf receiver receiverImage)
      (argumentsAre : ArgumentsImage symbolOf arguments argumentImages) :
      ExpressionImage symbolOf (.call span receiver arguments) (.call span receiverImage argumentImages)
  | object {span : Span} {entries : List (String × Hir.Expression)}
      {entryImages : List (String × Expression)} (entriesAre : EntriesImage symbolOf entries entryImages) :
      ExpressionImage symbolOf (.object span entries) (.object span entryImages)
  | set {span : Span} {target : Hir.Reference} {value : Hir.Expression} {declaration : Hir.Resolution}
      {symbol : Nat} {valueImage : Expression}
      (bound : target.candidate = some declaration) (known : symbolOf declaration = some symbol)
      (valueIs : ExpressionImage symbolOf value valueImage) :
      ExpressionImage symbolOf (.set span target value) (.set span symbol valueImage)
  | getProperty {span : Span} {receiver : Hir.Expression} {property : String} {receiverImage : Expression}
      (receiverIs : ExpressionImage symbolOf receiver receiverImage) :
      ExpressionImage symbolOf (.getProperty span receiver property)
        (.getProperty span receiverImage property)
  | setProperty {span : Span} {receiver : Hir.Expression} {property : String} {value : Hir.Expression}
      {receiverImage valueImage : Expression}
      (receiverIs : ExpressionImage symbolOf receiver receiverImage)
      (valueIs : ExpressionImage symbolOf value valueImage) :
      ExpressionImage symbolOf (.setProperty span receiver property value)
        (.setProperty span receiverImage property valueImage)

/-- Argument slots in order, an empty slot staying empty. -/
inductive ArgumentsImage (symbolOf : SymbolMap) :
    List (Option Hir.Expression) → List (Option Expression) → Prop
  | nil : ArgumentsImage symbolOf [] []
  | none {rest : List (Option Hir.Expression)} {restImage : List (Option Expression)} :
      ArgumentsImage symbolOf rest restImage → ArgumentsImage symbolOf (none :: rest) (none :: restImage)
  | some {argument : Hir.Expression} {argumentImage : Expression} {rest : List (Option Hir.Expression)}
      {restImage : List (Option Expression)} :
      ExpressionImage symbolOf argument argumentImage → ArgumentsImage symbolOf rest restImage →
      ArgumentsImage symbolOf (some argument :: rest) (some argumentImage :: restImage)

/-- Object entries in order, each keeping its key. -/
inductive EntriesImage (symbolOf : SymbolMap) :
    List (String × Hir.Expression) → List (String × Expression) → Prop
  | nil : EntriesImage symbolOf [] []
  | cons {key : String} {value : Hir.Expression} {valueImage : Expression}
      {rest : List (String × Hir.Expression)} {restImage : List (String × Expression)} :
      ExpressionImage symbolOf value valueImage → EntriesImage symbolOf rest restImage →
      EntriesImage symbolOf ((key, value) :: rest) ((key, valueImage) :: restImage)

end

theorem ExpressionImage.span_eq {symbolOf : SymbolMap} {source : Hir.Expression} {image : Expression}
    (imageIs : ExpressionImage symbolOf source image) : image.span = source.span := by
  cases imageIs <;> rfl

/-- A parameter node: the parameter's name and span, and its symbol, owned by the node. -/
def ParameterImage (arena : Arena) (symbolOf : SymbolMap) (parameter : Hir.Parameter) (node : Nat) :
    Prop :=
  ∃ symbol, symbolOf (.parameter parameter.id) = some symbol ∧
    (arena.node node).kind = .parameter symbol parameter.name ∧
    (arena.node node).span = parameter.span ∧ (arena.symbol symbol).owner = some node

mutual

/-- `StatementImage arena symbolOf statement node`: the node is the image of the statement. A
function becomes a source function node owning its symbol, with the images of its parameters and a
body node holding the images of its statements; a variable becomes a variable node owning its
symbol, with the image of its initializer; an expression becomes an expression node. -/
inductive StatementImage (arena : Arena) (symbolOf : SymbolMap) : Hir.Statement → Nat → Prop
  | function {id : Nat} {name : String} {span : Span} {parameters : List Hir.Parameter} {bodyId : Nat}
      {bodySpan : Span} {body : List Hir.Statement} {node symbol : Nat} {parameterNodes : List Nat}
      {bodyNode : Nat} {statementNodes : List Nat}
      (known : symbolOf (.function id) = some symbol)
      (declares : (arena.node node).kind = .function
        { symbol := symbol, name := name, parameters := parameterNodes, body := bodyNode,
          native := false, static := false, origin := .source })
      (spans : (arena.node node).span = span)
      (owns : (arena.symbol symbol).owner = some node)
      (parametersAre : List.Forall₂ (ParameterImage arena symbolOf) parameters parameterNodes)
      (holds : (arena.node bodyNode).kind = .body statementNodes)
      (bodySpans : (arena.node bodyNode).span = bodySpan)
      (bodyIs : StatementsImage arena symbolOf body statementNodes) :
      StatementImage arena symbolOf (.function id name span parameters bodyId bodySpan body) node
  | variable {id : Nat} {name : String} {span : Span} {initializer : Option Hir.Expression}
      {node symbol : Nat} {value : Option Expression}
      (known : symbolOf (.variable id) = some symbol)
      (declares : (arena.node node).kind = .variable symbol name value)
      (spans : (arena.node node).span = span)
      (owns : (arena.symbol symbol).owner = some node)
      (valueIs : Option.Rel (ExpressionImage symbolOf) initializer value) :
      StatementImage arena symbolOf (.variable id name span initializer) node
  | expression {value : Hir.Expression} {node : Nat} {image : Expression}
      (holds : (arena.node node).kind = .expression image)
      (spans : (arena.node node).span = value.span)
      (valueIs : ExpressionImage symbolOf value image) :
      StatementImage arena symbolOf (.expression value) node

/-- Statements in order, each with the node that is its image. -/
inductive StatementsImage (arena : Arena) (symbolOf : SymbolMap) : List Hir.Statement → List Nat → Prop
  | nil : StatementsImage arena symbolOf [] []
  | cons {statement : Hir.Statement} {node : Nat} {rest : List Hir.Statement} {nodes : List Nat} :
      StatementImage arena symbolOf statement node → StatementsImage arena symbolOf rest nodes →
      StatementsImage arena symbolOf (statement :: rest) (node :: nodes)

end

/-- The node at `root` is the image of a high-level file: a file node with the file's name and
span, holding the images of the file's statements. -/
def FileImage (arena : Arena) (symbolOf : SymbolMap) (file : Hir.File) (root : Nat) : Prop :=
  ∃ statementNodes, (arena.node root).kind = .file file.name statementNodes ∧
    (arena.node root).span = file.span ∧ StatementsImage arena symbolOf file.statements statementNodes

/-! ## Images survive growth -/

section Mono

variable {symbolOf learned : SymbolMap}

mutual

theorem ExpressionImage.mono (learns : ∀ declaration symbol, symbolOf declaration = some symbol →
    learned declaration = some symbol) :
    {source : Hir.Expression} → {image : Expression} → ExpressionImage symbolOf source image →
      ExpressionImage learned source image
  | _, _, .const span value => .const span value
  | _, _, .get bound known => .get bound (learns _ _ known)
  | _, _, .call receiverIs argumentsAre =>
    .call (receiverIs.mono learns) (argumentsAre.mono learns)
  | _, _, .object entriesAre => .object (entriesAre.mono learns)
  | _, _, .set bound known valueIs => .set bound (learns _ _ known) (valueIs.mono learns)
  | _, _, .getProperty receiverIs => .getProperty (receiverIs.mono learns)
  | _, _, .setProperty receiverIs valueIs => .setProperty (receiverIs.mono learns) (valueIs.mono learns)

theorem ArgumentsImage.mono (learns : ∀ declaration symbol, symbolOf declaration = some symbol →
    learned declaration = some symbol) :
    {sources : List (Option Hir.Expression)} → {images : List (Option Expression)} →
      ArgumentsImage symbolOf sources images → ArgumentsImage learned sources images
  | _, _, .nil => .nil
  | _, _, .none rest => .none (rest.mono learns)
  | _, _, .some argument rest => .some (argument.mono learns) (rest.mono learns)

theorem EntriesImage.mono (learns : ∀ declaration symbol, symbolOf declaration = some symbol →
    learned declaration = some symbol) :
    {sources : List (String × Hir.Expression)} → {images : List (String × Expression)} →
      EntriesImage symbolOf sources images → EntriesImage learned sources images
  | _, _, .nil => .nil
  | _, _, .cons value rest => .cons (value.mono learns) (rest.mono learns)

end

end Mono

section Grow

variable {before after : Arena} {symbolOf learned : SymbolMap}

theorem ParameterImage.mono (keeps : before.Keeps after)
    (learns : ∀ declaration symbol, symbolOf declaration = some symbol → learned declaration = some symbol)
    {parameter : Hir.Parameter} {node : Nat} (image : ParameterImage before symbolOf parameter node) :
    ParameterImage after learned parameter node := by
  obtain ⟨symbol, known, declares, spans, owns⟩ := image
  have present := before.lt_nodeCount_of_kind declares (fun _ _ => nofun)
  exact ⟨symbol, learns _ _ known, (keeps.kind node present).trans declares,
    (keeps.span node present).trans spans, keeps.owner _ _ owns⟩

mutual

theorem StatementImage.mono (keeps : before.Keeps after)
    (learns : ∀ declaration symbol, symbolOf declaration = some symbol → learned declaration = some symbol) :
    {statement : Hir.Statement} → {node : Nat} → StatementImage before symbolOf statement node →
      StatementImage after learned statement node
  | _, node, .function known declares spans owns parametersAre holds bodySpans bodyIs => by
    have present := before.lt_nodeCount_of_kind declares (fun _ _ => nofun)
    have bodyPresent := before.lt_nodeCount_of_kind holds (fun _ _ => nofun)
    exact .function (learns _ _ known) ((keeps.kind node present).trans declares)
      ((keeps.span node present).trans spans) (keeps.owner _ _ owns)
      (parametersAre.imp fun _ _ image => image.mono keeps learns)
      ((keeps.kind _ bodyPresent).trans holds) ((keeps.span _ bodyPresent).trans bodySpans)
      (bodyIs.mono keeps learns)
  | _, node, .variable known declares spans owns valueIs => by
    have present := before.lt_nodeCount_of_kind declares (fun _ _ => nofun)
    refine .variable (learns _ _ known) ((keeps.kind node present).trans declares)
      ((keeps.span node present).trans spans) (keeps.owner _ _ owns) ?_
    cases valueIs with
    | none => exact .none
    | some image => exact .some (image.mono learns)
  | _, node, .expression holds spans valueIs => by
    have present := before.lt_nodeCount_of_kind holds (fun _ _ => nofun)
    exact .expression ((keeps.kind node present).trans holds) ((keeps.span node present).trans spans)
      (valueIs.mono learns)

theorem StatementsImage.mono (keeps : before.Keeps after)
    (learns : ∀ declaration symbol, symbolOf declaration = some symbol → learned declaration = some symbol) :
    {statements : List Hir.Statement} → {nodes : List Nat} → StatementsImage before symbolOf statements nodes →
      StatementsImage after learned statements nodes
  | _, _, .nil => .nil
  | _, _, .cons first rest => .cons (first.mono keeps learns) (rest.mono keeps learns)

end

end Grow

end ScriptLowering.Mir
