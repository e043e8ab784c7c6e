import ScriptLowering.Syntax.Kind
import ScriptLowering.Text.Span
import ScriptLowering.Text.Bytes
import ScriptLowering.Text.Quoted

/-! # Syntax trees

A syntax tree is held in two forms. The arena form is an array of nodes that name their
children by index, in the order the nodes were made; it is what the parser writes and what a
tree given node by node arrives as. The tree form is an inductive tree, which is what the later
stages read. Unfolding an arena into a tree follows child indices from the root; it fails on an
index outside the arena and on a cycle, since a path through more nodes than the arena holds
must visit a node twice.

A node covers a span of the source text, and its text is the source between the span's ends;
made-up nodes have no text.
-/

namespace ScriptLowering

/-- A node of a syntax arena: its kind, its span and the indices of its children. -/
structure SyntaxNode where
  kind : SyntaxKind
  span : Span
  children : List Nat
  deriving DecidableEq, Repr, Inhabited

/-- A syntax tree as an array of nodes and the index of its root. -/
structure SyntaxArena where
  nodes : Array SyntaxNode
  root : Nat
  deriving Repr, Inhabited

/-- A syntax tree as an inductive tree of kinds and spans. -/
inductive SyntaxTree where
  | node (kind : SyntaxKind) (span : Span) (children : List SyntaxTree)
  deriving Repr, Inhabited

namespace SyntaxTree

/-- The kind of the tree's root. -/
def kind : SyntaxTree → SyntaxKind
  | .node kind _ _ => kind

/-- The span of the tree's root. -/
def span : SyntaxTree → Span
  | .node _ span _ => span

/-- The subtrees below the root, in order. -/
def children : SyntaxTree → List SyntaxTree
  | .node _ _ children => children

/-- The source text a tree covers; made-up nodes cover none. -/
def text (source : List Char) (tree : SyntaxTree) : List Char :=
  match tree.span with
  | .range start stop => Text.slice source start stop
  | .synthetic => []

/-- A child of a tree, with the proof that it is one. -/
abbrev Child (tree : SyntaxTree) := { child : SyntaxTree // child ∈ tree.children }

/-- The children of a tree, each with the proof that it is one. -/
def childList (tree : SyntaxTree) : List (Child tree) := tree.children.attach

/-- The first child. -/
def firstChild? (tree : SyntaxTree) : Option (Child tree) := tree.childList.head?

/-- The child at a position. -/
def childAt? (tree : SyntaxTree) (position : Nat) : Option (Child tree) := tree.childList[position]?

/-- The first child of a kind. -/
def childOfKind? (tree : SyntaxTree) (kind : SyntaxKind) : Option (Child tree) :=
  tree.childList.find? (·.val.kind == kind)

/-- The children of a kind, in order. -/
def childrenOfKind (tree : SyntaxTree) (kind : SyntaxKind) : List (Child tree) :=
  tree.childList.filter (·.val.kind == kind)

/-- A child is smaller than its parent, which is what recursion over children decreases. -/
theorem sizeOf_lt_of_mem {child tree : SyntaxTree} (member : child ∈ tree.children) :
    sizeOf child < sizeOf tree := by
  cases tree with
  | node kind span children =>
    simp only [SyntaxTree.children] at member
    have := List.sizeOf_lt_of_mem member
    simp only [node.sizeOf_spec]
    omega

mutual

/-- The dump lines of a tree at a depth: a node with children shows its kind and span, a leaf
also its quoted text. -/
def dumpLines (source : List Char) (depth : Nat) : SyntaxTree → List String
  | .node kind span [] =>
    let text := (SyntaxTree.node kind span []).text source
    [String.ofList (List.replicate (2 * depth) ' ') ++
      s!"{kind.name} {span.render} {String.ofList (Text.quoteChars text)}"]
  | .node kind span (first :: rest) =>
    (String.ofList (List.replicate (2 * depth) ' ') ++ s!"{kind.name} {span.render}") ::
      dumpForest source (depth + 1) (first :: rest)

/-- The dump lines of a list of trees at a depth. -/
def dumpForest (source : List Char) (depth : Nat) : List SyntaxTree → List String
  | [] => []
  | tree :: rest => dumpLines source depth tree ++ dumpForest source depth rest

end

/-- The indented rendering of a tree, one line per node and two spaces per level. -/
def dump (source : List Char) (tree : SyntaxTree) : String :=
  String.join ((dumpLines source 0 tree).map (· ++ "\n"))

end SyntaxTree

namespace SyntaxArena

/-- The tree below an index, following child indices for at most `fuel` levels. -/
def unfoldAt (arena : SyntaxArena) : (fuel : Nat) → (index : Nat) → Option SyntaxTree
  | 0, _ => none
  | fuel + 1, index => do
    let node ← arena.nodes[index]?
    let children ← node.children.mapM (arena.unfoldAt fuel)
    pure (.node node.kind node.span children)

/-- The tree below the root; none when an index is outside the arena or the root reaches a cycle. -/
def toTree? (arena : SyntaxArena) : Option SyntaxTree := arena.unfoldAt arena.nodes.size arena.root

end SyntaxArena

end ScriptLowering
