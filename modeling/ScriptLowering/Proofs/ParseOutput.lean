import Mathlib.Data.List.Forall2
import ScriptLowering.Syntax.Parse

/-! # What the parser writes

The parser only ever adds to its output: nodes are pushed at the end and diagnostics appended,
so an index it handed out keeps naming the same node. `Output.Grows` says this of two outputs,
and every function that reads an expression leaves an output that grows from the one it was
given (`expression_grows` and its companions, proved together along the parser's own
recursion), and so do the functions that read statements, declarations and blocks. Since
diagnostics are only appended, a run that reports a diagnostic anywhere ends with more than it
started with (`Grows.loud`).

`Output.Holds out index tree` reads a node of the output as the tree below it, by the unfolding
that turns a parsed arena into a tree. A tree that holds keeps holding as the output grows, a
node pushed over children that hold is the tree over those children, and an index holds at most
one tree.
-/

namespace ScriptLowering

/-- A list maps into `Option` without failing exactly when every element maps to its partner. -/
theorem mapM_eq_some_iff_forall₂ {α β : Type} {f : α → Option β} :
    ∀ {items : List α} {results : List β},
      items.mapM f = some results ↔ List.Forall₂ (fun item result => f item = some result) items results
  | [], results => by cases results <;> simp
  | item :: items, results => by
    cases results with
    | nil => simp [List.mapM_cons, Option.bind_eq_some_iff]
    | cons result results =>
      simp [List.mapM_cons, Option.bind_eq_some_iff, mapM_eq_some_iff_forall₂]

namespace SyntaxArena

/-- One level of unfolding: the node at the index, over its unfolded children. -/
theorem unfoldAt_succ_eq_some {arena : SyntaxArena} {fuel index : Nat} {tree : SyntaxTree} :
    arena.unfoldAt (fuel + 1) index = some tree ↔
      ∃ node, arena.nodes[index]? = some node ∧ ∃ children,
        node.children.mapM (arena.unfoldAt fuel) = some children ∧
          .node node.kind node.span children = tree := by
  simp only [unfoldAt]
  cases arena.nodes[index]? with
  | none => simp
  | some node => simp [Option.bind_eq_some_iff]

/-- An arena that keeps every node of another unfolds, with at least as much fuel, every index
the other unfolds, to the same tree. -/
theorem unfoldAt_of_keeps {arena other : SyntaxArena}
    (keeps : ∀ (index : Nat) node, arena.nodes[index]? = some node → other.nodes[index]? = some node) :
    ∀ {fuel more index : Nat} {tree : SyntaxTree}, fuel ≤ more →
      arena.unfoldAt fuel index = some tree → other.unfoldAt more index = some tree
  | 0, _, _, _, _, unfolds => by simp [unfoldAt] at unfolds
  | _ + 1, 0, _, _, le, _ => by omega
  | fuel + 1, more + 1, index, tree, le, unfolds => by
    rw [unfoldAt_succ_eq_some] at unfolds ⊢
    obtain ⟨node, found, children, childrenUnfold, rfl⟩ := unfolds
    refine ⟨node, keeps index node found, children, ?_, rfl⟩
    rw [mapM_eq_some_iff_forall₂] at childrenUnfold ⊢
    exact childrenUnfold.imp fun _ _ => unfoldAt_of_keeps keeps (by omega)


/-- Unfolding reads only the nodes of the arena, never its root. -/
theorem unfoldAt_root {nodes : Array SyntaxNode} {root other fuel index : Nat} :
    (SyntaxArena.mk nodes root).unfoldAt fuel index = (SyntaxArena.mk nodes other).unfoldAt fuel index := by
  induction fuel generalizing index with
  | zero => rfl
  | succ fuel ih =>
    have children : (SyntaxArena.mk nodes root).unfoldAt fuel = (SyntaxArena.mk nodes other).unfoldAt fuel :=
      funext fun _ => ih
    simp only [unfoldAt, children]

end SyntaxArena

namespace Syntax

namespace Grown

variable {tokens : List Token}

@[simp] theorem stay_node (node : Nat) (out : Output) : (stay node out tokens).node = node := rfl
@[simp] theorem stay_out (node : Nat) (out : Output) : (stay node out tokens).out = out := rfl
@[simp] theorem stay_rest (node : Nat) (out : Output) : (stay node out tokens).rest = tokens := rfl

variable {rest : List Token} (grown : Grown rest)

@[simp] theorem afterStep_node (step : rest.length < tokens.length) :
    (grown.afterStep step).node = grown.node := rfl
@[simp] theorem afterStep_out (step : rest.length < tokens.length) :
    (grown.afterStep step).out = grown.out := rfl
@[simp] theorem afterStep_rest (step : rest.length < tokens.length) :
    (grown.afterStep step).rest = grown.rest := rfl

variable {token : Token} {tail : List Token}

@[simp] theorem afterToken_node (read : rest.length ≤ tail.length) :
    (grown.afterToken read : Grown (token :: tail)).node = grown.node := rfl
@[simp] theorem afterToken_out (read : rest.length ≤ tail.length) :
    (grown.afterToken read : Grown (token :: tail)).out = grown.out := rfl
@[simp] theorem afterToken_rest (read : rest.length ≤ tail.length) :
    (grown.afterToken read : Grown (token :: tail)).rest = grown.rest := rfl

end Grown

/-- An attempt that read a node read at least one token. -/
theorem Attempt.rest_lt_of_node {tokens : List Token} (attempt : Attempt tokens) {node : Nat}
    (found : attempt.node = some node) : attempt.rest.length < tokens.length :=
  attempt.rest_lt (by simp [found])

namespace Output

@[simp] theorem push_reports (out : Output) (kind : SyntaxKind) (span : Span) (children : List Nat) :
    (out.push kind span children).1.reports = out.reports := rfl

@[simp] theorem leaf_reports (out : Output) (kind : SyntaxKind) (token : Token) :
    (out.leaf kind token).1.reports = out.reports := rfl

@[simp] theorem report_size (out : Output) (span : Span) (message : String) :
    (out.report span message).reports.size = out.reports.size + 1 := by
  simp [report]

/-- The output `after` is `before` with nodes and diagnostics added at the end. -/
structure Grows (before after : Output) : Prop where
  nodes : before.nodes.toList <+: after.nodes.toList
  reports : before.reports.toList <+: after.reports.toList

theorem Grows.refl (out : Output) : Grows out out := ⟨List.prefix_refl _, List.prefix_refl _⟩

theorem Grows.trans {first second third : Output} (early : Grows first second)
    (late : Grows second third) : Grows first third :=
  ⟨early.nodes.trans late.nodes, early.reports.trans late.reports⟩

theorem grows_push (out : Output) (kind : SyntaxKind) (span : Span) (children : List Nat) :
    Grows out (out.push kind span children).1 :=
  ⟨by simp [push], by simp [push]⟩

theorem grows_leaf (out : Output) (kind : SyntaxKind) (token : Token) :
    Grows out (out.leaf kind token).1 :=
  grows_push out kind token.span []

theorem grows_report (out : Output) (span : Span) (message : String) :
    Grows out (out.report span message) :=
  ⟨by simp [report], by simp [report, Diagnostics.report]⟩

theorem grows_reportIf (flag : Bool) (out : Output) (span : Span) (message : String) :
    Grows out (if flag then out.report span message else out) := by
  cases flag
  · exact .refl out
  · exact grows_report ..

section Quiet

variable {first second third : Output}

/-- Diagnostics are only ever added. -/
theorem Grows.size_le (grows : Grows first second) : first.reports.size ≤ second.reports.size := by
  simpa using grows.reports.length_le

/-- A run that reports a diagnostic somewhere ends with more diagnostics than it started with. -/
theorem Grows.loud {span : Span} {message : String} (early : Grows first second)
    (late : Grows (second.report span message) third) : third.reports.size ≠ first.reports.size := by
  have longer := early.size_le
  have longest := late.size_le
  simp only [report_size] at longest
  omega

end Quiet

/-- A node of an output that grows stays where it was. -/
theorem Grows.keeps {before after : Output} (grows : Grows before after) (index : Nat)
    (node : SyntaxNode) (found : before.nodes[index]? = some node) : after.nodes[index]? = some node := by
  obtain ⟨more, grown⟩ := grows.nodes
  rw [← Array.getElem?_toList] at found ⊢
  rw [← grown, List.getElem?_append_left (List.getElem?_eq_some_iff.mp found).1, found]

/-- The node at `index` of the output unfolds to `tree`. -/
def Holds (out : Output) (index : Nat) (tree : SyntaxTree) : Prop :=
  ∃ fuel, (SyntaxArena.mk out.nodes index).unfoldAt fuel index = some tree

theorem Holds.grow {before after : Output} {index : Nat} {tree : SyntaxTree}
    (holds : before.Holds index tree) (grows : Grows before after) : after.Holds index tree := by
  obtain ⟨fuel, unfolds⟩ := holds
  exact ⟨fuel, SyntaxArena.unfoldAt_of_keeps grows.keeps (Nat.le_refl fuel) unfolds⟩

/-- Children that hold can be unfolded with one amount of fuel. -/
theorem Holds.common_fuel {out : Output} {root : Nat} :
    ∀ {indices : List Nat} {trees : List SyntaxTree}, List.Forall₂ out.Holds indices trees →
      ∃ fuel, List.Forall₂ (fun index tree => (SyntaxArena.mk out.nodes root).unfoldAt fuel index = some tree)
        indices trees
  | [], [], .nil => ⟨0, .nil⟩
  | _ :: _, _ :: _, .cons ⟨first, head⟩ rest => by
    obtain ⟨fuel, restUnfold⟩ := Holds.common_fuel rest
    refine ⟨max first fuel, .cons ?_ (restUnfold.imp fun _ _ => ?_)⟩
    · rw [SyntaxArena.unfoldAt_root] at head
      exact SyntaxArena.unfoldAt_of_keeps (fun _ _ => id) (Nat.le_max_left first fuel) head
    · exact SyntaxArena.unfoldAt_of_keeps (fun _ _ => id) (Nat.le_max_right first fuel)

/-- A node pushed over children that hold is the tree over those children. -/
theorem holds_push {out : Output} {indices : List Nat} {trees : List SyntaxTree}
    (children : List.Forall₂ out.Holds indices trees) (kind : SyntaxKind) (span : Span) :
    (out.push kind span indices).1.Holds (out.push kind span indices).2 (.node kind span trees) := by
  obtain ⟨fuel, unfold⟩ := @Holds.common_fuel out out.nodes.size _ _ children
  refine ⟨fuel + 1, SyntaxArena.unfoldAt_succ_eq_some.mpr ⟨⟨kind, span, indices⟩, by simp [push], trees, ?_, rfl⟩⟩
  rw [mapM_eq_some_iff_forall₂]
  exact unfold.imp fun _ _ => SyntaxArena.unfoldAt_of_keeps (grows_push out kind span indices).keeps (Nat.le_refl fuel)

theorem holds_leaf (out : Output) (kind : SyntaxKind) (token : Token) :
    (out.leaf kind token).1.Holds (out.leaf kind token).2 (.node kind token.span []) :=
  holds_push .nil kind token.span

/-- The span the parser reads off a node is the span of the tree it holds. -/
theorem Holds.spanOf_eq {out : Output} {index : Nat} {tree : SyntaxTree} (holds : out.Holds index tree) :
    out.spanOf index = tree.span := by
  obtain ⟨fuel, unfolds⟩ := holds
  cases fuel with
  | zero => simp [SyntaxArena.unfoldAt] at unfolds
  | succ fuel =>
    obtain ⟨node, found, children, -, rfl⟩ := SyntaxArena.unfoldAt_succ_eq_some.mp unfolds
    have found : out.nodes[index]? = some node := found
    simp [Output.spanOf, found, SyntaxTree.span]

/-- An index holds at most one tree. -/
theorem Holds.unique {out : Output} {index : Nat} {tree other : SyntaxTree}
    (holds : out.Holds index tree) (also : out.Holds index other) : tree = other := by
  obtain ⟨fuel, unfolds⟩ := holds
  obtain ⟨more, unfoldsOther⟩ := also
  have atMost := SyntaxArena.unfoldAt_of_keeps (fun _ _ => id) (Nat.le_max_left fuel more) unfolds
  have atMostOther := SyntaxArena.unfoldAt_of_keeps (fun _ _ => id) (Nat.le_max_right fuel more) unfoldsOther
  rw [atMost] at atMostOther
  exact Option.some.inj atMostOther

end Output

open Output

mutual

theorem expression_grows (eof : Nat) (out : Output) (minPower : Nat) (tokens : List Token) :
    Grows out (expression eof out minPower tokens).out := by
  rw [expression]
  dsimp only
  have first := primary_grows eof out tokens
  have firstLe := (primary eof out tokens).rest_le
  split
  · exact first
  · exact first.trans (operators_grows ..)
termination_by tokens.length * 16 + 8
decreasing_by all_goals omega

theorem operators_grows (eof : Nat) (out : Output) (minPower lhs : Nat) :
    ∀ tokens, Grows out (operators eof out minPower lhs tokens).out
  | [] => by rw [operators]; exact .refl out
  | token :: tail => by
    rw [operators]
    dsimp only
    split
    · split
      · exact .refl out
      · have shorter := (argumentList eof out token tail).rest_lt
        dsimp only [Grown.afterStep_out]
        exact (argumentList_grows ..).trans ((grows_push ..).trans (operators_grows ..))
    · split
      · exact .refl out
      next _ left right _ =>
        split
        · exact .refl out
        · have read := (expression eof (out.leaf .operator token).1 right tail).rest_le
          split
          all_goals dsimp only [Grown.afterToken_out]
          · exact (grows_leaf ..).trans ((expression_grows ..).trans ((grows_push ..).trans (operators_grows ..)))
          · exact (grows_leaf ..).trans ((expression_grows ..).trans
              ((grows_report ..).trans ((grows_push ..).trans (operators_grows ..))))
termination_by tokens => tokens.length * 16 + 6
decreasing_by all_goals first | omega | (simp only [List.length_cons] at *; omega)

theorem primary_grows (eof : Nat) (out : Output) :
    ∀ tokens, Grows out (primary eof out tokens).out
  | [] => by rw [primary]; exact .refl out
  | token :: tail => by
    rw [primary]
    split
    · exact (grows_leaf ..).trans (grows_push ..)
    · exact grows_leaf ..
    · exact (grows_report ..).trans (grows_leaf ..)
    · exact grows_leaf ..
    · exact grows_leaf ..
    · exact grows_leaf ..
    · dsimp only
      have inner := expression_grows eof out 0 tail
      split
      · exact inner.trans (grows_report ..)
      · split
        · exact inner
        · exact inner.trans (grows_report ..)
    · exact object_grows eof out token tail
    · exact .refl out
termination_by tokens => tokens.length * 16 + 7
decreasing_by all_goals ((try simp only [List.length_cons]); omega)

theorem argumentList_grows (eof : Nat) (out : Output) (opening : Token) (tail : List Token) :
    Grows out (argumentList eof out opening tail).out := by
  rw [argumentList]
  dsimp only
  exact (argumentLoop_grows ..).trans (grows_push ..)
termination_by (opening :: tail).length * 16 + 4
decreasing_by all_goals ((try simp only [List.length_cons]); omega)

theorem argumentLoop_grows (eof : Nat) (out : Output) (span : Span) (children : Array Nat)
    (expecting seenComma : Bool) :
    ∀ tokens, Grows out (argumentLoop eof out span children expecting seenComma tokens).1
  | [] => by rw [argumentLoop]; exact grows_report ..
  | token :: tail => by
    rw [argumentLoop]
    dsimp only
    split
    · exact .refl out
    · split
      · exact (grows_push ..).trans ((grows_leaf ..).trans (argumentLoop_grows ..))
      · exact (grows_leaf ..).trans (argumentLoop_grows ..)
    · exact grows_report ..
    · exact grows_report ..
    · have value := expression_grows eof out 0 (token :: tail)
      have valueLe := (expression eof out 0 (token :: tail)).rest_le
      split
      · rename_i found _
        have shorter := (expression eof out 0 (token :: tail)).rest_lt (by simp [found])
        dsimp only
        cases expecting
        · exact value.trans ((grows_report ..).trans ((grows_push ..).trans (argumentLoop_grows ..)))
        · exact value.trans ((grows_push ..).trans (argumentLoop_grows ..))
      · dsimp only
        cases expecting
        · exact value.trans ((grows_report ..).trans (argumentLoop_grows ..))
        · exact value.trans ((grows_report ..).trans ((grows_push ..).trans (argumentLoop_grows ..)))
termination_by tokens => tokens.length * 16 + 10
decreasing_by all_goals first | omega | (simp only [List.length_cons, List.length_tail] at *; omega)

theorem object_grows (eof : Nat) (out : Output) (opening : Token) (tail : List Token) :
    Grows out (object eof out opening tail).out := by
  rw [object]
  dsimp only
  exact (objectLoop_grows ..).trans (grows_push ..)
termination_by (opening :: tail).length * 16 + 4
decreasing_by all_goals ((try simp only [List.length_cons]); omega)

theorem objectLoop_grows (eof : Nat) (out : Output) (span : Span) (children : Array Nat)
    (afterClause : Bool) :
    ∀ tokens, Grows out (objectLoop eof out span children afterClause tokens).1
  | [] => by rw [objectLoop]; exact grows_report ..
  | token :: tail => by
    rw [objectLoop]
    dsimp only
    split
    · exact .refl out
    · exact (grows_leaf ..).trans (objectLoop_grows ..)
    · have started := grows_reportIf afterClause out token.span "Expected , between properties"
      generalize (if afterClause then out.report token.span "Expected , between properties" else out) = start
        at started ⊢
      have shorter := (objectClause eof start token tail).rest_lt
      exact started.trans ((objectClause_grows ..).trans (objectLoop_grows ..))
    · exact grows_report ..
    · exact (grows_report ..).trans (objectLoop_grows ..)
termination_by tokens => tokens.length * 16 + 10
decreasing_by all_goals first | omega | (simp only [List.length_cons] at *; omega)

theorem objectClause_grows (eof : Nat) (out : Output) (name : Token) (tail : List Token) :
    Grows out (objectClause eof out name tail).out := by
  rw [objectClause]
  dsimp only
  split
  · exact (grows_leaf ..).trans ((grows_push ..).trans ((grows_report ..).trans (grows_push ..)))
  · split
    · exact (grows_leaf ..).trans ((grows_push ..).trans ((expression_grows ..).trans
        ((grows_push ..).trans (grows_push ..))))
    · exact (grows_leaf ..).trans ((grows_push ..).trans ((expression_grows ..).trans
        ((grows_report ..).trans (grows_push ..))))
termination_by (name :: tail).length * 16 + 4
decreasing_by all_goals ((try simp only [List.length_cons]); omega)

end

theorem declarationName_grows (out : Output) (keyword : Token) (tail : List Token) :
    Grows out (declarationName out keyword tail).1 := by
  unfold declarationName
  split
  · exact grows_leaf ..
  · exact .refl out

theorem parameterLoop_grows (eof : Nat) (out : Output) (span : Span) (children : Array Nat)
    (afterParameter : Bool) : ∀ tokens, Grows out (parameterLoop eof out span children afterParameter tokens).1 := by
  intro tokens
  induction tokens generalizing out span children afterParameter with
  | nil => rw [parameterLoop]; exact grows_report ..
  | cons token tail later =>
    rw [parameterLoop]
    split
    · exact .refl out
    · exact (grows_reportIf ..).trans ((grows_leaf ..).trans ((grows_push ..).trans (later ..)))
    · exact (grows_leaf ..).trans (later ..)
    · exact grows_report ..
    · exact (grows_report ..).trans (later ..)

theorem parameterList_grows (eof : Nat) (out : Output) (opening : Token) (tail : List Token) :
    Grows out (parameterList eof out opening tail).out := by
  rw [parameterList]
  dsimp only
  exact (parameterLoop_grows ..).trans (grows_push ..)

theorem functionParameters_grows (eof : Nat) (out : Output) (span : Span) (children : Array Nat) :
    ∀ tokens, Grows out (functionParameters eof out span children tokens).1 := by
  intro tokens
  cases tokens with
  | nil => exact .refl out
  | cons opening more =>
    rw [functionParameters]
    split
    · exact parameterList_grows ..
    · exact .refl out

theorem variableDecl_grows (eof : Nat) (out : Output) (keyword : Token) (tail : List Token) :
    Grows out (variableDecl eof out keyword tail).out := by
  rw [variableDecl]
  dsimp only
  have named := declarationName_grows out keyword tail
  split
  · split
    · exact named.trans ((expression_grows ..).trans (grows_push ..))
    · exact named.trans ((expression_grows ..).trans ((grows_report ..).trans (grows_push ..)))
  · exact named.trans (grows_push ..)

mutual

/-- Statements, declarations and blocks only add to the output, as expressions do. -/
theorem statement_grows (eof : Nat) (out : Output) (head : Token) (tail : List Token) :
    Grows out (statement eof out head tail).out := by
  rw [statement]
  split
  · exact functionDecl_grows ..
  · exact variableDecl_grows ..
  · exact grows_leaf ..
  · dsimp only
    split
    · exact expression_grows ..
    · exact (expression_grows ..).trans ((grows_report ..).trans (grows_leaf ..))
termination_by (head :: tail).length * 16 + 14
decreasing_by all_goals omega

theorem functionDecl_grows (eof : Nat) (out : Output) (keyword : Token) (tail : List Token) :
    Grows out (functionDecl eof out keyword tail).out := by
  rw [functionDecl]
  -- the name and the parameter list are read first; only what they return matters below
  have named := declarationName_grows out keyword tail
  generalize declarationName out keyword tail = declared at named ⊢
  obtain ⟨namedOut, span, children, afterName, nameLe⟩ := declared
  dsimp only
  have listed := functionParameters_grows eof namedOut span children afterName
  generalize functionParameters eof namedOut span children afterName = parameters at listed ⊢
  obtain ⟨listedOut, span, children, afterList, listLe⟩ := parameters
  dsimp only
  cases afterList with
  | nil => exact named.trans (listed.trans (grows_push ..))
  | cons opening more =>
    have shorter : more.length < tail.length := by simp only [List.length_cons] at listLe; omega
    dsimp only
    split
    · exact named.trans (listed.trans ((block_grows ..).trans (grows_push ..)))
    · exact named.trans (listed.trans (grows_push ..))
termination_by (keyword :: tail).length * 16 + 12
decreasing_by simp only [List.length_cons]; omega

theorem block_grows (eof : Nat) (out : Output) (opening : Token) (tail : List Token) :
    Grows out (block eof out opening tail).out := by
  rw [block]
  dsimp only
  exact (blockLoop_grows ..).trans (grows_push ..)
termination_by (opening :: tail).length * 16 + 12
decreasing_by all_goals ((try simp only [List.length_cons]); omega)

theorem blockLoop_grows (eof : Nat) (out : Output) (span : Span) (statements : Array Nat) :
    ∀ tokens, Grows out (blockLoop eof out span statements tokens).1
  | [] => by rw [blockLoop]; exact grows_report ..
  | token :: tail => by
    rw [blockLoop]
    split
    · exact .refl out
    · dsimp only
      have stepLt := (statement eof out token tail).rest_lt
      exact (statement_grows ..).trans (blockLoop_grows ..)
termination_by tokens => tokens.length * 16 + 15
decreasing_by all_goals omega

end

end Syntax

end ScriptLowering
