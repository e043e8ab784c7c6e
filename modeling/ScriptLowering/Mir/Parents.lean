import ScriptLowering.Mir.Basic

/-! # Parent links

Linking a subtree gives every node in it that keeps a parent link the closest enclosing node
that keeps one too, and the root the given parent. Bodies and expression statements keep no
link, so the nodes below them link to the node above them. Nodes are linked in pre-order, each
before its children and the children in tree order, so a node reached twice keeps the link of
the later visit.
-/

namespace ScriptLowering.Mir.Arena

/-- Links the subtree at `id` below `parent`, for at most `fuel` levels. -/
def linkBelow : (fuel : Nat) → Arena → (id : Nat) → (parent : Option Nat) → Arena
  | 0, arena, _, _ => arena
  | fuel + 1, arena, id, parent =>
    let (arena, inherited) :=
      if (arena.node id).kind.tracksParent then (arena.setParent id parent, some id)
      else (arena, parent)
    (arena.children id).foldl (fun arena child => linkBelow fuel arena child inherited) arena

/-- Links the subtree at `id` below `parent`. A path in a tree visits no node twice, so the
number of nodes bounds its depth. -/
def patchParents (arena : Arena) (id : Nat) (parent : Option Nat) : Arena :=
  linkBelow arena.nodeCount arena id parent

end ScriptLowering.Mir.Arena
