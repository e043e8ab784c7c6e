import ScriptLowering.Proofs.FunctionClasses

/-! # Linking parents names the closest linking ancestor

`patchParents` walks a subtree and gives every node of it that keeps a parent link the closest
proper ancestor that keeps one, or the link it was handed when there is none: bodies and
expression statements keep no link and are passed over. Said along paths, a node reached from the
root through the ancestors `path` (`Descends`) is linked to the last of them that keeps a link
(`closestLink`).

Main statement: `patchParents_closest`. On every arena where the nodes below the root form a tree,
the walk covers the whole tree within its bound, links each node of it that keeps a link to its
closest linking ancestor, or to the given parent, and leaves every other node, and every kind,
span and symbol, as it was.
-/

namespace ScriptLowering.Mir.Arena

variable {arena other : Arena}

/-- `node` is reached from `id` along child links, through the proper ancestors `path`, listed
from `id` down. -/
inductive Descends (arena : Arena) : Nat → List Nat → Nat → Prop
  | here (id : Nat) : Descends arena id [] id
  | child {id child node : Nat} {path : List Nat} (isChild : child ∈ arena.children id)
      (below : Descends arena child path node) : Descends arena id (id :: path) node

/-- The last of the ancestors `path` that keeps a parent link, or `parent` when none does. -/
def closestLink (arena : Arena) (path : List Nat) (parent : Option Nat) : Option Nat :=
  ((path.filter fun ancestor => (arena.node ancestor).kind.tracksParent).getLast?).or parent

@[simp] theorem closestLink_nil (parent : Option Nat) : arena.closestLink [] parent = parent := rfl

/-- The closest link below a node is the closest link below its child, from the link the node
passes down. -/
theorem closestLink_cons (id : Nat) (path : List Nat) (parent : Option Nat) :
    arena.closestLink (id :: path) parent = arena.closestLink path (arena.passedLink id parent) := by
  unfold closestLink passedLink
  by_cases tracks : (arena.node id).kind.tracksParent = true
  · simp only [List.filter_cons, tracks, if_true, List.getLast?_cons]
    cases (path.filter fun ancestor => (arena.node ancestor).kind.tracksParent).getLast? <;> rfl
  · simp [tracks]

/-- The closest link reads only which ancestors keep a link. -/
theorem closestLink_congr (same : ∀ id, (other.node id).kind = (arena.node id).kind)
    (path : List Nat) (parent : Option Nat) : other.closestLink path parent = arena.closestLink path parent := by
  simp only [closestLink, same]

/-- A path follows child links only, which an arena with the same kinds has too. -/
theorem Descends.congr {id node : Nat} {path : List Nat} (descends : arena.Descends id path node)
    (same : ∀ id, (other.node id).kind = (arena.node id).kind) : other.Descends id path node := by
  induction descends with
  | here id => exact .here id
  | child isChild _ ih => exact .child (by rwa [children_congr (same _)]) ih

/-- In a rightly linked subtree every node that keeps a link names its closest ancestor that keeps
one, or the root's link. By induction along the path: each step down hands the child the link
its parent passes. -/
theorem Linked.parent_eq_closestLink {id node : Nat} {above : Option Nat} {path : List Nat}
    (linked : arena.Linked id above) (descends : arena.Descends id path node)
    (tracks : (arena.node node).kind.tracksParent = true) :
    (arena.node node).parent = arena.closestLink path above := by
  induction descends generalizing above with
  | here =>
    cases linked with
    | node parent _ => exact parent tracks
  | child isChild _ ih =>
    cases linked with
    | node _ children =>
      rw [closestLink_cons]
      exact ih (children _ isChild) tracks

/-- `after` is `arena` with the subtree at `root`, whose nodes are `nodes`, linked below `parent`:
only parent links differ, each node of the subtree that keeps a link names its closest proper
ancestor that keeps one, or `parent` when none does, and every other node is as it was. -/
structure LinksBelow (arena after : Arena) (root : Nat) (nodes : List Nat) (parent : Option Nat) : Prop where
  relinks : arena.Relinks after
  closest : ∀ path node, arena.Descends root path node → (arena.node node).kind.tracksParent = true →
    (after.node node).parent = arena.closestLink path parent
  unchanged : ∀ node, (node ∈ nodes → (arena.node node).kind.tracksParent = false) →
    after.node node = arena.node node

/-- Linking the parents of a tree links every node of it that keeps a link to its closest linking
ancestor, the root to the given parent, and changes nothing else. The walk is bounded by the size
of the arena, which a tree never exceeds, so it reaches every node. -/
theorem patchParents_closest {root : Nat} {nodes : List Nat} (tree : arena.Tree root nodes) (parent : Option Nat) :
    arena.LinksBelow (arena.patchParents root parent) root nodes parent := by
  unfold patchParents
  have relinks := relinks_linkBelow arena.nodeCount arena root parent
  obtain ⟨linked, outside⟩ := linkBelow_linked arena.nodeCount arena root nodes parent tree tree.length_le
  refine ⟨relinks, fun path node descends tracks => ?_, fun node untouched => ?_⟩
  · -- The linked arena has the same kinds, so the path is one there too.
    have descendsAfter := descends.congr relinks.kind
    rw [linked.parent_eq_closestLink descendsAfter (by rwa [relinks.kind]), closestLink_congr relinks.kind]
  · by_cases member : node ∈ nodes
    · exact node_linkBelow_of_not_tracks _ _ _ _ (untouched member)
    · exact outside node member

end ScriptLowering.Mir.Arena

namespace ScriptLowering.Lowering

open Mir

theorem patchParents_closest_nestedCallSample : ∃ program nodes,
    Program.convert nestedCallSample = .ok program ∧ program.arena.Tree program.file nodes ∧
      program.arena.LinksBelow (program.arena.patchParents program.file none) program.file nodes none := by
  obtain ⟨program, converted⟩ := convert_nestedCallSample
  obtain ⟨nodes, sound⟩ := Program.convert_sound converted
  exact ⟨program, nodes, converted, sound.tree, Arena.patchParents_closest sound.tree none⟩

end ScriptLowering.Lowering
