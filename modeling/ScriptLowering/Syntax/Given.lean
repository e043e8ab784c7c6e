import ScriptLowering.Syntax.Tree

/-! # Syntax trees given node by node

A syntax tree can also arrive as a list of nodes, each naming its kind, its span and its
children by their positions in the list. A node may be the child of several parents. Such a
tree is checked before anything reads it: every kind must be known, every span must run
forwards, end inside the source and start and end on character boundaries, every child must
be in the list, the root must be in the list, and no cycle may be reachable from the root.
A node without both ends has a made-up span. The nodes are checked in order, each for its
kind, then its span, then its children; the root and cycles are checked last.
-/

namespace ScriptLowering

/-- A node as given: the name of its kind, its ends if it has them, and its children. -/
structure GivenNode where
  kind : String
  start? : Option Nat := none
  stop? : Option Nat := none
  children : List Nat := []
  deriving Repr, Inhabited

/-- Why a given tree is refused. -/
inductive TreeError where
  | unknownKind (name : String)
  | badSpan
  | badChildIndex
  | badRoot
  | cyclic
  deriving DecidableEq, Repr, Inhabited

/-- The text of a refusal. -/
def TreeError.message : TreeError → String
  | .unknownKind name => s!"unknown kind \"{name}\""
  | .badSpan => "bad span"
  | .badChildIndex => "bad child index"
  | .badRoot => "bad root"
  | .cyclic => "cyclic tree"

/-- The span of a given node, checked against the source. -/
def GivenNode.span? (source : List Char) (node : GivenNode) : Except TreeError Span :=
  match node.start?, node.stop? with
  | some start, some stop =>
    if start ≤ stop && stop ≤ Text.byteSize source && Text.isBoundary source start &&
        Text.isBoundary source stop then .ok (.range start stop)
    else .error .badSpan
  | _, _ => .ok .synthetic

/-- A given node checked against the source and the number of nodes. -/
def GivenNode.check (source : List Char) (count : Nat) (node : GivenNode) :
    Except TreeError SyntaxNode := do
  let some kind := SyntaxKind.ofName? node.kind | throw (.unknownKind node.kind)
  let span ← node.span? source
  if node.children.any (· ≥ count) then throw .badChildIndex
  return { kind, span, children := node.children }

/-- The tree given by a list of nodes and the position of its root, once checked. -/
def SyntaxTree.ofGiven (source : List Char) (nodes : List GivenNode) (root : Nat) :
    Except TreeError SyntaxTree := do
  let checked ← nodes.mapM (·.check source nodes.length)
  if root ≥ nodes.length then throw .badRoot
  match (SyntaxArena.mk checked.toArray root).toTree? with
  | some tree => return tree
  | none => throw .cyclic

end ScriptLowering
