import ScriptLowering.Proofs.Image

/-! # Trees of arena nodes

The nodes of a program live in one arena and name their children by index, so nothing in their
types keeps them a tree. This module says when they are one (`Tree`): the nodes reached from a
root, listed in pre-order, are distinct nodes of the arena, so no node is reached along two paths
and no path comes back. Beside it stand the parent links (`Linked`): every node that keeps a link
names the closest enclosing node that keeps one.

Both read only the nodes of the subtree. An edit of the arena that leaves those nodes alone keeps
them (`Edits.tree`, `Edits.linked`), and so does an arena that only grows (`Keeps.tree`); linking the parents of a subtree makes it `Linked`
while it moves no other link (`linkBelow_linked`). Two linkings of one tree differ only where its
root's link shows through (`Linked.parent_agree`), so linking a linked tree again below another link
turns exactly the links that named the old one (`node_linkBelow`).
-/

namespace ScriptLowering.Mir.Arena

mutual

/-- The subtree at `id` is a tree whose nodes, in pre-order, are `nodes`: each is a node of the
arena and none is reached twice. -/
inductive Tree (arena : Arena) : Nat → List Nat → Prop
  | node {id : Nat} {below : List Nat} (present : id < arena.nodeCount)
      (children : Forest arena (arena.children id) below) (fresh : id ∉ below) :
      Tree arena id (id :: below)

/-- Trees at each of `ids`, apart from one another, their nodes listed one after another. -/
inductive Forest (arena : Arena) : List Nat → List Nat → Prop
  | nil : Forest arena [] []
  | cons {id : Nat} {rest first others : List Nat} (tree : Tree arena id first)
      (forest : Forest arena rest others) (apart : ∀ node ∈ first, node ∉ others) :
      Forest arena (id :: rest) (first ++ others)

end

/-- The link a node passes to its children: itself if it keeps a link, else the one it was
given. -/
def passedLink (arena : Arena) (id : Nat) (above : Option Nat) : Option Nat :=
  if (arena.node id).kind.tracksParent then some id else above

/-- The nodes of the subtree at `id` that keep a parent link name the closest enclosing node that
keeps one, `id` itself naming `above`. -/
inductive Linked (arena : Arena) : Nat → Option Nat → Prop
  | node {id : Nat} {above : Option Nat}
      (parent : (arena.node id).kind.tracksParent = true → (arena.node id).parent = above)
      (children : ∀ child ∈ arena.children id, Linked arena child (arena.passedLink id above)) :
      Linked arena id above

theorem passedLink_congr {arena other : Arena} {id : Nat} {above : Option Nat}
    (same : (other.node id).kind = (arena.node id).kind) : other.passedLink id above = arena.passedLink id above := by
  simp only [passedLink, same]

theorem children_congr {arena other : Arena} {id : Nat} (same : (other.node id).kind = (arena.node id).kind) :
    other.children id = arena.children id := by
  simp only [Arena.children, same]

/-- The node at `id` owns the symbol it declares, if it declares one. -/
def Owns (arena : Arena) (id : Nat) : Prop :=
  ∀ symbol, (arena.node id).kind.symbol? = some symbol → (arena.symbol symbol).owner = some id

/-- The second arena is the first after edits that touch the nodes `touched` at most: every other
node of the first and every symbol of the first is as it was, and both only grow. -/
structure Edits (before after : Arena) (touched : List Nat) : Prop where
  nodeCount_le : before.nodeCount ≤ after.nodeCount
  symbolCount_le : before.symbolCount ≤ after.symbolCount
  node : ∀ id < before.nodeCount, id ∉ touched → after.node id = before.node id
  symbol : ∀ symbol < before.symbolCount, after.symbol symbol = before.symbol symbol

section Trees

variable {arena other : Arena}

mutual

theorem Tree.nodup : {id : Nat} → {nodes : List Nat} → arena.Tree id nodes → nodes.Nodup
  | _, _, .node _ children fresh => List.nodup_cons.mpr ⟨fresh, children.nodup⟩

theorem Forest.nodup : {ids nodes : List Nat} → arena.Forest ids nodes → nodes.Nodup
  | _, _, .nil => List.nodup_nil
  | _, _, .cons tree forest apart =>
    List.nodup_append.mpr ⟨tree.nodup, forest.nodup, fun _ inFirst _ inOthers same =>
      apart _ inFirst (same ▸ inOthers)⟩

end

mutual

theorem Tree.lt_nodeCount : {id : Nat} → {nodes : List Nat} → arena.Tree id nodes →
    ∀ node ∈ nodes, node < arena.nodeCount
  | _, _, .node present children _, node, member => by
    rcases List.mem_cons.mp member with rfl | below
    · exact present
    · exact children.lt_nodeCount node below

theorem Forest.lt_nodeCount : {ids nodes : List Nat} → arena.Forest ids nodes →
    ∀ node ∈ nodes, node < arena.nodeCount
  | _, _, .nil, _, member => absurd member List.not_mem_nil
  | _, _, .cons tree forest _, node, member => by
    rcases List.mem_append.mp member with inFirst | inOthers
    · exact tree.lt_nodeCount node inFirst
    · exact forest.lt_nodeCount node inOthers

end

theorem Tree.mem_self {id : Nat} {nodes : List Nat} (tree : arena.Tree id nodes) : id ∈ nodes := by
  cases tree
  exact List.mem_cons_self

theorem Tree.present {id : Nat} {nodes : List Nat} (tree : arena.Tree id nodes) : id < arena.nodeCount :=
  tree.lt_nodeCount id tree.mem_self

/-- Each tree of a forest, with its nodes among the forest's. -/
theorem Forest.exists_tree {ids nodes : List Nat} (forest : arena.Forest ids nodes) {child : Nat}
    (member : child ∈ ids) : ∃ sub, arena.Tree child sub ∧ ∀ node ∈ sub, node ∈ nodes := by
  induction ids generalizing nodes with
  | nil => exact absurd member List.not_mem_nil
  | cons id rest ih =>
    cases forest with
    | cons tree forest _ =>
      rcases List.mem_cons.mp member with rfl | later
      · exact ⟨_, tree, fun _ inFirst => List.mem_append_left _ inFirst⟩
      · obtain ⟨sub, subTree, within⟩ := ih forest later
        exact ⟨sub, subTree, fun node inSub => List.mem_append_right _ (within node inSub)⟩

theorem Forest.root_mem {ids nodes : List Nat} (forest : arena.Forest ids nodes) {id : Nat} (member : id ∈ ids) :
    id ∈ nodes := by
  obtain ⟨_, tree, within⟩ := forest.exists_tree member
  exact within id tree.mem_self

/-- Each node of a forest lies in the tree of one of its roots, whose nodes are among the forest's. -/
theorem Forest.mem_tree {ids nodes : List Nat} (forest : arena.Forest ids nodes) {node : Nat}
    (member : node ∈ nodes) : ∃ id ∈ ids, ∃ sub, arena.Tree id sub ∧ node ∈ sub ∧ sub.Sublist nodes := by
  induction ids generalizing nodes with
  | nil =>
    cases forest
    exact absurd member List.not_mem_nil
  | cons id rest ih =>
    cases forest with
    | cons tree forest _ =>
      rcases List.mem_append.mp member with inFirst | inOthers
      · exact ⟨id, List.mem_cons_self, _, tree, inFirst, List.sublist_append_left _ _⟩
      · obtain ⟨other, inRest, sub, subTree, inSub, within⟩ := ih forest inOthers
        exact ⟨other, List.mem_cons_of_mem _ inRest, sub, subTree, inSub, within.trans (List.sublist_append_right _ _)⟩

mutual

/-- A child of a node of a subtree is a node of the subtree below its root. -/
theorem Tree.child_mem : {id : Nat} → {nodes : List Nat} → arena.Tree id nodes → ∀ {node child : Nat},
    node ∈ nodes → child ∈ arena.children node → child ∈ nodes.tail
  | _, _, .node _ children _, _, _, member, isChild => by
    rcases List.mem_cons.mp member with rfl | below
    · exact children.root_mem isChild
    · exact children.child_mem below isChild

theorem Forest.child_mem : {ids nodes : List Nat} → arena.Forest ids nodes → ∀ {node child : Nat},
    node ∈ nodes → child ∈ arena.children node → child ∈ nodes
  | _, _, .nil, _, _, member, _ => absurd member List.not_mem_nil
  | _, _, .cons tree forest _, _, _, member, isChild => by
    rcases List.mem_append.mp member with inFirst | inOthers
    · exact List.mem_append_left _ (List.mem_of_mem_tail (tree.child_mem inFirst isChild))
    · exact List.mem_append_right _ (forest.child_mem inOthers isChild)

end

mutual

/-- A subtree has one list of nodes. -/
theorem Tree.unique : {id : Nat} → {first second : List Nat} → arena.Tree id first →
    arena.Tree id second → first = second
  | _, _, _, .node _ leftChildren _, .node _ rightChildren _ => by
    rw [leftChildren.unique rightChildren]

theorem Forest.unique : {ids first second : List Nat} → arena.Forest ids first →
    arena.Forest ids second → first = second
  | _, _, _, .nil, .nil => rfl
  | _, _, _, .cons leftTree leftForest _, .cons rightTree rightForest _ => by
    rw [leftTree.unique rightTree, leftForest.unique rightForest]

end

/-- Each node of a tree roots a subtree within it. By induction on the size of the tree: the node is
the root, or lies in the subtree of one child. -/
theorem Tree.exists_subtree {root : Nat} {nodes : List Nat} (tree : arena.Tree root nodes) {node : Nat}
    (member : node ∈ nodes) : ∃ sub, arena.Tree node sub ∧ sub.Sublist nodes := by
  obtain ⟨fuel, fits⟩ : ∃ fuel, nodes.length ≤ fuel := ⟨_, Nat.le_refl _⟩
  induction fuel generalizing root nodes with
  | zero =>
    cases tree
    simp at fits
  | succ fuel ih =>
    by_cases same : node = root
    · subst same
      exact ⟨nodes, tree, List.Sublist.refl _⟩
    · cases tree with
      | node present children fresh =>
        obtain ⟨child, -, childSub, childTree, inChild, within⟩ :=
          children.mem_tree ((List.mem_cons.mp member).resolve_left same)
        simp only [List.length_cons, Nat.add_le_add_iff_right] at fits
        obtain ⟨sub, subTree, subWithin⟩ := ih childTree inChild (Nat.le_trans within.length_le fits)
        exact ⟨sub, subTree, (subWithin.trans within).trans (List.sublist_cons_self _ _)⟩

/-- The subtree of a node of a tree lies within the tree. -/
theorem Tree.sublist_of_mem {root : Nat} {nodes : List Nat} (tree : arena.Tree root nodes) {node : Nat}
    (member : node ∈ nodes) {sub : List Nat} (subTree : arena.Tree node sub) : sub.Sublist nodes := by
  obtain ⟨found, foundTree, within⟩ := tree.exists_subtree member
  rw [subTree.unique foundTree]
  exact within

/-- Each node of a forest roots a subtree within it. -/
theorem Forest.exists_subtree {ids nodes : List Nat} (forest : arena.Forest ids nodes) {node : Nat}
    (member : node ∈ nodes) : ∃ sub, arena.Tree node sub ∧ sub.Sublist nodes := by
  obtain ⟨_, -, rootSub, rootTree, inRoot, within⟩ := forest.mem_tree member
  obtain ⟨sub, subTree, subWithin⟩ := rootTree.exists_subtree inRoot
  exact ⟨sub, subTree, subWithin.trans within⟩

mutual

/-- A tree stays a tree in an arena where its nodes keep their children. -/
theorem Tree.congr : {id : Nat} → {nodes : List Nat} → arena.Tree id nodes →
    (∀ node ∈ nodes, other.children node = arena.children node) →
    arena.nodeCount ≤ other.nodeCount → other.Tree id nodes
  | id, _, .node present children fresh, same, grows => by
    refine .node (Nat.lt_of_lt_of_le present grows) ?_ fresh
    rw [same id List.mem_cons_self]
    exact children.congr (fun node below => same node (List.mem_cons_of_mem _ below)) grows

theorem Forest.congr : {ids nodes : List Nat} → arena.Forest ids nodes →
    (∀ node ∈ nodes, other.children node = arena.children node) →
    arena.nodeCount ≤ other.nodeCount → other.Forest ids nodes
  | _, _, .nil, _, _ => .nil
  | _, _, .cons tree forest apart, same, grows =>
    .cons (tree.congr (fun node inFirst => same node (List.mem_append_left _ inFirst)) grows)
      (forest.congr (fun node inOthers => same node (List.mem_append_right _ inOthers)) grows) apart

end

/-- A tree stays a tree in an arena where its nodes keep their kinds. -/
theorem Tree.frame {id : Nat} {nodes : List Nat} (tree : arena.Tree id nodes)
    (kinds : ∀ node ∈ nodes, (other.node node).kind = (arena.node node).kind)
    (grows : arena.nodeCount ≤ other.nodeCount) : other.Tree id nodes :=
  tree.congr (fun node member => children_congr (kinds node member)) grows

theorem Forest.frame {ids nodes : List Nat} (forest : arena.Forest ids nodes)
    (kinds : ∀ node ∈ nodes, (other.node node).kind = (arena.node node).kind)
    (grows : arena.nodeCount ≤ other.nodeCount) : other.Forest ids nodes :=
  forest.congr (fun node member => children_congr (kinds node member)) grows

/-- Parent links stay right in an arena where the tree's nodes keep their children, whether they
keep a link, and their links. -/
theorem Linked.congr {id : Nat} {above : Option Nat} {nodes : List Nat} (linked : arena.Linked id above)
    (tree : arena.Tree id nodes)
    (children : ∀ node ∈ nodes, other.children node = arena.children node)
    (tracks : ∀ node ∈ nodes, (other.node node).kind.tracksParent = (arena.node node).kind.tracksParent)
    (parents : ∀ node ∈ nodes, (other.node node).parent = (arena.node node).parent) :
    other.Linked id above := by
  induction linked generalizing nodes with
  | @node id above parent _ ih =>
    cases tree with
    | node _ childForest _ =>
      have tracksHere := tracks id List.mem_cons_self
      refine .node (fun tracking => ?_) (fun child member => ?_)
      · rw [parents id List.mem_cons_self]
        exact parent (tracksHere ▸ tracking)
      · have passed : other.passedLink id above = arena.passedLink id above := by
          simp only [passedLink, tracksHere]
        rw [children id List.mem_cons_self] at member
        rw [passed]
        obtain ⟨sub, subTree, within⟩ := childForest.exists_tree member
        exact ih child member subTree
          (fun node inSub => children node (List.mem_cons_of_mem _ (within node inSub)))
          (fun node inSub => tracks node (List.mem_cons_of_mem _ (within node inSub)))
          (fun node inSub => parents node (List.mem_cons_of_mem _ (within node inSub)))

/-- Parent links stay right in an arena where the tree's nodes keep their kinds and links. -/
theorem Linked.frame {id : Nat} {above : Option Nat} {nodes : List Nat} (linked : arena.Linked id above)
    (tree : arena.Tree id nodes)
    (kinds : ∀ node ∈ nodes, (other.node node).kind = (arena.node node).kind)
    (parents : ∀ node ∈ nodes, (other.node node).parent = (arena.node node).parent) :
    other.Linked id above :=
  linked.congr tree (fun node member => children_congr (kinds node member))
    (fun node member => by rw [kinds node member]) parents

/-- Two linkings of one tree agree: a node of it that keeps a link names the same node of the tree
in both, or in each the link its root was given. -/
theorem Linked.parent_agree {id : Nat} {old target : Option Nat} (first : arena.Linked id old) :
    ∀ {nodes : List Nat}, arena.Tree id nodes → other.Linked id target →
      (∀ node ∈ nodes, (other.node node).kind = (arena.node node).kind) →
      ∀ node ∈ nodes, (arena.node node).kind.tracksParent = true →
        (∃ link ∈ nodes, (arena.node node).parent = some link ∧ (other.node node).parent = some link) ∨
          ((arena.node node).parent = old ∧ (other.node node).parent = target) := by
  induction first generalizing target with
  | @node id old parent children ih =>
    intro nodes tree second kinds node member tracks
    cases tree with
    | @node _ below present childForest fresh =>
      cases second with
      | node otherParent otherChildren =>
        have kindHere := kinds id List.mem_cons_self
        rcases List.mem_cons.mp member with rfl | inBelow
        · exact .inr ⟨parent tracks, otherParent (by rwa [kindHere])⟩
        obtain ⟨child, isChild, sub, subTree, inSub, within⟩ := childForest.mem_tree inBelow
        have otherChild := otherChildren child (by rwa [children_congr kindHere])
        rw [passedLink_congr kindHere] at otherChild
        rcases ih child isChild subTree otherChild
            (fun other inSub => kinds other (List.mem_cons_of_mem _ (within.subset inSub))) node inSub tracks with
          ⟨link, inLink, named, otherNamed⟩ | ⟨named, otherNamed⟩
        · exact .inl ⟨link, List.mem_cons_of_mem _ (within.subset inLink), named, otherNamed⟩
        · -- The child's subtree was given, in both arenas, the link the root passes down.
          cases idTracks : (arena.node id).kind.tracksParent
          · simp only [passedLink, idTracks] at named otherNamed
            exact .inr ⟨named, otherNamed⟩
          · simp only [passedLink, idTracks, if_true] at named otherNamed
            exact .inl ⟨id, List.mem_cons_self, named, otherNamed⟩

/-- A symbol with an owner is a symbol of the arena. -/
theorem lt_symbolCount_of_owner {symbol owner : Nat} (owned : (arena.symbol symbol).owner = some owner) :
    symbol < arena.symbolCount := by
  rcases Nat.lt_or_ge symbol arena.symbolCount with inside | outside
  · exact inside
  · have empty : arena.symbol symbol = default := by
      simp [Arena.symbol, Array.getElem?_eq_none (show arena.symbols.size ≤ symbol from outside)]
    rw [empty] at owned
    cases owned

end Trees

/-! ## Edits -/

namespace Edits

variable {first second third : Arena} {touched more : List Nat}

theorem refl (arena : Arena) : arena.Edits arena [] :=
  ⟨Nat.le_refl _, Nat.le_refl _, fun _ _ _ => rfl, fun _ _ => rfl⟩

theorem trans (left : first.Edits second touched) (right : second.Edits third more) :
    first.Edits third (touched ++ more) where
  nodeCount_le := Nat.le_trans left.nodeCount_le right.nodeCount_le
  symbolCount_le := Nat.le_trans left.symbolCount_le right.symbolCount_le
  node id present untouched := by
    rw [right.node id (Nat.lt_of_lt_of_le present left.nodeCount_le)
      (fun inMore => untouched (List.mem_append_right _ inMore))]
    exact left.node id present (fun inTouched => untouched (List.mem_append_left _ inTouched))
  symbol symbol present := by
    rw [right.symbol symbol (Nat.lt_of_lt_of_le present left.symbolCount_le)]
    exact left.symbol symbol present

/-- Only the touched nodes of the first arena count: nodes made later may be dropped. -/
theorem widen (edits : first.Edits second touched)
    (within : ∀ id ∈ touched, id < first.nodeCount → id ∈ more) : first.Edits second more :=
  { edits with node := fun id present untouched => edits.node id present (fun inTouched =>
      untouched (within id inTouched present)) }

/-- A tree none of whose nodes an edit touches is still a tree. -/
theorem tree {id : Nat} {nodes : List Nat} (edits : first.Edits second touched) (tree : first.Tree id nodes)
    (untouched : ∀ node ∈ nodes, node ∉ touched) : second.Tree id nodes :=
  tree.frame (fun node member => by
    rw [edits.node node (tree.lt_nodeCount node member) (untouched node member)]) edits.nodeCount_le

theorem forest {ids nodes : List Nat} (edits : first.Edits second touched) (forest : first.Forest ids nodes)
    (untouched : ∀ node ∈ nodes, node ∉ touched) : second.Forest ids nodes :=
  forest.frame (fun node member => by
    rw [edits.node node (forest.lt_nodeCount node member) (untouched node member)]) edits.nodeCount_le

theorem linked {id : Nat} {above : Option Nat} {nodes : List Nat} (edits : first.Edits second touched)
    (linked : first.Linked id above) (tree : first.Tree id nodes)
    (untouched : ∀ node ∈ nodes, node ∉ touched) : second.Linked id above :=
  linked.frame tree
    (fun node member => by rw [edits.node node (tree.lt_nodeCount node member) (untouched node member)])
    (fun node member => by rw [edits.node node (tree.lt_nodeCount node member) (untouched node member)])

theorem owns {id : Nat} (edits : first.Edits second touched) (owns : first.Owns id)
    (present : id < first.nodeCount) (untouched : id ∉ touched) : second.Owns id := by
  intro symbol declared
  rw [edits.node id present untouched] at declared
  have bound := owns symbol declared
  rw [edits.symbol symbol (lt_symbolCount_of_owner bound)]
  exact bound

end Edits

/-! ## Linking parents -/

@[simp] theorem nodeCount_modifyNode (arena : Arena) (id : Nat) (change : Node → Node) :
    (arena.modifyNode id change).nodeCount = arena.nodeCount := by
  simp [modifyNode, nodeCount]

@[simp] theorem symbol_modifyNode (arena : Arena) (id : Nat) (change : Node → Node) (symbol : Nat) :
    (arena.modifyNode id change).symbol symbol = arena.symbol symbol := rfl

@[simp] theorem symbolCount_modifyNode (arena : Arena) (id : Nat) (change : Node → Node) :
    (arena.modifyNode id change).symbolCount = arena.symbolCount := rfl

theorem node_modifyNode_self (arena : Arena) {id : Nat} (change : Node → Node) (present : id < arena.nodeCount) :
    (arena.modifyNode id change).node id = change (arena.node id) := by
  simp only [nodeCount] at present
  simp [modifyNode, node, Array.getElem?_modify, Array.getElem?_eq_getElem present]

theorem node_modifyNode_ne (arena : Arena) {id other : Nat} (change : Node → Node) (different : other ≠ id) :
    (arena.modifyNode id change).node other = arena.node other := by
  simp [modifyNode, node, Array.getElem?_modify, Ne.symm different]

/-- Changing one node touches that node only. -/
theorem edits_modifyNode (arena : Arena) (id : Nat) (change : Node → Node) :
    arena.Edits (arena.modifyNode id change) [id] where
  nodeCount_le := by simp
  symbolCount_le := by simp
  node other _ untouched := arena.node_modifyNode_ne change (fun same => untouched (same ▸ List.mem_singleton_self _))
  symbol _ _ := rfl

/-- Linking the parents of a tree's nodes, one subtree after another: each subtree is linked, and
no node outside the forest moves. -/
theorem foldl_linkBelow {fuel : Nat}
    (linksTree : ∀ (arena : Arena) (id : Nat) (nodes : List Nat) (above : Option Nat),
      arena.Tree id nodes → nodes.length ≤ fuel →
        (linkBelow fuel arena id above).Linked id above ∧
          ∀ node ∉ nodes, (linkBelow fuel arena id above).node node = arena.node node)
    (above : Option Nat) :
    ∀ (ids : List Nat) (start : Arena) (nodes : List Nat), start.Forest ids nodes → nodes.length ≤ fuel →
      (∀ child ∈ ids, (ids.foldl (fun arena child => linkBelow fuel arena child above) start).Linked child above) ∧
        ∀ node ∉ nodes, (ids.foldl (fun arena child => linkBelow fuel arena child above) start).node node =
          start.node node
  | [], start, _, _, _ => ⟨fun _ member => (absurd member List.not_mem_nil), fun _ _ => rfl⟩
  | id :: rest, start, _, @Arena.Forest.cons _ _ _ first others tree forest apart, fits => by
    simp only [List.length_append] at fits
    have firstFits : first.length ≤ fuel := by omega
    obtain ⟨linked, outside⟩ := linksTree start id first above tree firstFits
    let linkedStart := linkBelow fuel start id above
    have relinks : start.Relinks linkedStart := relinks_linkBelow fuel start id above
    have moved : linkedStart.Forest rest others :=
      forest.frame (fun node _ => relinks.kind node) (Nat.le_of_eq relinks.nodeCount.symm)
    obtain ⟨restLinked, restOutside⟩ := foldl_linkBelow linksTree above rest linkedStart others moved (by omega)
    simp only [List.foldl_cons]
    refine ⟨fun child member => ?_, fun node outsideNodes => ?_⟩
    · rcases List.mem_cons.mp member with rfl | later
      · -- The later subtrees leave the first one's nodes as they were.
        have firstTree : linkedStart.Tree child first :=
          tree.frame (fun node _ => relinks.kind node) (Nat.le_of_eq relinks.nodeCount.symm)
        have unmoved : ∀ node ∈ first, (rest.foldl (fun arena child => linkBelow fuel arena child above)
            linkedStart).node node = linkedStart.node node :=
          fun node inFirst => restOutside node (apart node inFirst)
        exact linked.frame firstTree (fun node inFirst => by rw [unmoved node inFirst])
          (fun node inFirst => by rw [unmoved node inFirst])
      · exact restLinked child later
    · have notFirst : node ∉ first := fun inFirst => outsideNodes (List.mem_append_left _ inFirst)
      have notOthers : node ∉ others := fun inOthers => outsideNodes (List.mem_append_right _ inOthers)
      rw [restOutside node notOthers]
      exact outside node notFirst

/-- Linking the parents of a tree with enough fuel links it below `above`, and moves no node
outside it. -/
theorem linkBelow_linked : ∀ (fuel : Nat) (arena : Arena) (id : Nat) (nodes : List Nat) (above : Option Nat),
    arena.Tree id nodes → nodes.length ≤ fuel →
      (linkBelow fuel arena id above).Linked id above ∧
        ∀ node ∉ nodes, (linkBelow fuel arena id above).node node = arena.node node
  | 0, _, _, _, _, tree, fits => by
    cases tree
    simp at fits
  | fuel + 1, arena, id, _, above, @Arena.Tree.node _ _ below present children fresh, fits => by
    simp only [List.length_cons] at fits
    -- The node itself first takes `above`, then passes its own link down when it keeps one.
    let start := if (arena.node id).kind.tracksParent then arena.setParent id above else arena
    have startRelinks : arena.Relinks start := by
      by_cases tracks : (arena.node id).kind.tracksParent <;> simp only [start, tracks]
      · exact relinks_setParent arena id above
      · exact .refl arena
    have startNode : ∀ node ≠ id, start.node node = arena.node node := by
      intro node different
      by_cases tracks : (arena.node id).kind.tracksParent <;> simp only [start, tracks]
      · exact arena.node_modifyNode_ne _ different
      · rfl
    have startForest : start.Forest (arena.children id) below :=
      children.frame (fun node _ => startRelinks.kind node) (Nat.le_of_eq startRelinks.nodeCount.symm)
    have unfolded : linkBelow (fuel + 1) arena id above =
        (start.children id).foldl (fun current child => linkBelow fuel current child (arena.passedLink id above))
          start := by
      by_cases tracks : (arena.node id).kind.tracksParent <;> simp [linkBelow, start, passedLink, tracks]
    have sameChildren : start.children id = arena.children id := by
      simp only [Arena.children, startRelinks.kind id]
    rw [unfolded, sameChildren]
    obtain ⟨childrenLinked, outside⟩ := foldl_linkBelow
      (fun arena id nodes above tree fits => linkBelow_linked fuel arena id nodes above tree fits)
      (arena.passedLink id above) (arena.children id) start below startForest (by omega)
    have kindSame : ((arena.children id).foldl (fun current child =>
        linkBelow fuel current child (arena.passedLink id above)) start).node id = start.node id :=
      outside id fresh
    refine ⟨.node (fun tracks => ?_) (fun child member => ?_), fun node outsideNodes => ?_⟩
    · rw [kindSame] at tracks ⊢
      have tracksHere : (arena.node id).kind.tracksParent = true := by rwa [startRelinks.kind] at tracks
      simp only [start, tracksHere, if_true, setParent, arena.node_modifyNode_self _ present]
    · have sameKind : (((arena.children id).foldl (fun current child =>
          linkBelow fuel current child (arena.passedLink id above)) start).node id).kind =
            (arena.node id).kind := by
        rw [kindSame, startRelinks.kind]
      rw [children_congr sameKind] at member
      rw [passedLink_congr sameKind]
      exact childrenLinked child member
    · have notId : node ≠ id := fun same => outsideNodes (same ▸ List.mem_cons_self)
      have notBelow : node ∉ below := fun inBelow => outsideNodes (List.mem_cons_of_mem _ inBelow)
      rw [outside node notBelow, startNode node notId]

/-! ## Linking a linked tree again -/

/-- A relinked node is the old one with its link replaced. -/
theorem Relinks.node_eq {before after : Arena} (relinks : before.Relinks after) (id : Nat) :
    after.node id = { before.node id with parent := (after.node id).parent } := by
  have kind := relinks.kind id
  have span := relinks.span id
  generalize after.node id = changed at kind span ⊢
  cases changed
  simp only at kind span
  rw [kind, span]

/-- Linking leaves alone every node that keeps no link. -/
theorem node_linkBelow_of_not_tracks (fuel : Nat) (arena : Arena) (id : Nat) (parent : Option Nat) {node : Nat}
    (keepsNone : (arena.node node).kind.tracksParent = false) :
    (linkBelow fuel arena id parent).node node = arena.node node := by
  induction fuel generalizing arena id parent with
  | zero => rfl
  | succ fuel ih =>
    have children : ∀ (start : Arena) (ids : List Nat) (inherited : Option Nat),
        (start.node node).kind.tracksParent = false →
        (ids.foldl (fun arena child => linkBelow fuel arena child inherited) start).node node = start.node node := by
      intro start ids inherited startKeepsNone
      induction ids generalizing start with
      | nil => rfl
      | cons child rest restIh =>
        rw [List.foldl_cons, restIh _ (by rwa [(relinks_linkBelow fuel start child inherited).kind]),
          ih start child inherited startKeepsNone]
    simp only [linkBelow]
    split
    · next tracks =>
      have different : node ≠ id := fun same => by rw [same, tracks] at keepsNone; cases keepsNone
      rw [children _ _ _ (by rwa [(arena.relinks_setParent id parent).kind]), setParent,
        arena.node_modifyNode_ne _ different]
    · exact children _ _ _ keepsNone

/-- Linking a rightly linked tree below `target` moves exactly the links that named `old`, the link
its root was given: they name `target`, and every other node is as it was. -/
theorem node_linkBelow {arena : Arena} {fuel id : Nat} {nodes : List Nat} {old : Option Nat} (target : Option Nat)
    (tree : arena.Tree id nodes) (fits : nodes.length ≤ fuel) (linked : arena.Linked id old)
    (outside : ∀ link, old = some link → link ∉ nodes) (node : Nat) :
    (linkBelow fuel arena id target).node node =
      if node ∈ nodes ∧ (arena.node node).kind.tracksParent = true ∧ (arena.node node).parent = old then
        { arena.node node with parent := target } else arena.node node := by
  have relinks := relinks_linkBelow fuel arena id target
  obtain ⟨relinked, unmoved⟩ := linkBelow_linked fuel arena id nodes target tree fits
  by_cases member : node ∈ nodes
  swap
  · rw [if_neg fun holds => member holds.1, unmoved node member]
  cases tracks : (arena.node node).kind.tracksParent
  · rw [if_neg (by simp), node_linkBelow_of_not_tracks fuel arena id target tracks]
  rw [relinks.node_eq node]
  rcases linked.parent_agree tree relinked (fun other _ => relinks.kind other) node member tracks with
    ⟨link, inNodes, named, moved⟩ | ⟨named, moved⟩
  · have notOld : (arena.node node).parent ≠ old := fun same => outside link (same ▸ named) inNodes
    rw [if_neg fun holds => notOld holds.2.2, moved, ← named]
  · rw [if_pos ⟨member, rfl, named⟩, moved]

/-! ## Growing a tree -/

section Growing

variable {arena other : Arena}

/-- Two forests apart from each other, one after the other. -/
theorem Forest.append {more others : List Nat} (next : arena.Forest more others) {ids nodes : List Nat}
    (forest : arena.Forest ids nodes) (outside : ∀ node ∈ nodes, node ∉ others) :
    arena.Forest (ids ++ more) (nodes ++ others) := by
  induction ids generalizing nodes with
  | nil =>
    cases forest
    exact next
  | cons id rest ih =>
    cases forest with
    | cons tree forest apart =>
      rw [List.append_assoc]
      refine .cons tree (ih forest fun node inRest => outside node (List.mem_append_right _ inRest)) ?_
      intro node inFirst inBoth
      rcases List.mem_append.mp inBoth with inRest | inOthers
      · exact apart node inFirst inRest
      · exact outside node (List.mem_append_left _ inFirst) inOthers

theorem Forest.single {id : Nat} {nodes : List Nat} (tree : arena.Tree id nodes) : arena.Forest [id] nodes := by
  simpa using Forest.cons tree .nil (fun _ _ => List.not_mem_nil)

theorem Forest.tree_of_single {id : Nat} {nodes : List Nat} (forest : arena.Forest [id] nodes) :
    arena.Tree id nodes := by
  cases forest with
  | cons tree rest _ =>
    cases rest
    simpa using tree

/-- A forest over two lists of roots is a forest over each, one after the other. -/
theorem Forest.split {more : List Nat} {ids nodes : List Nat} (forest : arena.Forest (ids ++ more) nodes) :
    ∃ first others, nodes = first ++ others ∧ arena.Forest ids first ∧ arena.Forest more others ∧
      ∀ node ∈ first, node ∉ others := by
  induction ids generalizing nodes with
  | nil => exact ⟨[], nodes, rfl, .nil, forest, fun _ member => absurd member List.not_mem_nil⟩
  | cons id rest ih =>
    cases forest with
    | @cons _ _ treeNodes restNodes tree restForest apart =>
      obtain ⟨first, others, rfl, firstForest, othersForest, disjoint⟩ := ih restForest
      refine ⟨treeNodes ++ first, others, (List.append_assoc _ _ _).symm,
        .cons tree firstForest fun node inTree inFirst => apart node inTree (List.mem_append_left _ inFirst),
        othersForest, fun node member inOthers => ?_⟩
      rcases List.mem_append.mp member with inTree | inFirst
      · exact apart node inTree (List.mem_append_right _ inOthers)
      · exact disjoint node inFirst inOthers

theorem Keeps.tree {id : Nat} {nodes : List Nat} (keeps : arena.Keeps other) (tree : arena.Tree id nodes) :
    other.Tree id nodes :=
  tree.frame (fun node member => keeps.kind node (tree.lt_nodeCount node member)) keeps.nodeCount_le

theorem Keeps.forest {ids nodes : List Nat} (keeps : arena.Keeps other) (forest : arena.Forest ids nodes) :
    other.Forest ids nodes :=
  forest.frame (fun node member => keeps.kind node (forest.lt_nodeCount node member)) keeps.nodeCount_le

theorem Keeps.owns {id : Nat} (keeps : arena.Keeps other) (owns : arena.Owns id) (present : id < arena.nodeCount) :
    other.Owns id := by
  intro symbol declared
  rw [keeps.kind id present] at declared
  exact keeps.owner symbol id (owns symbol declared)

/-- A node over a forest of older nodes roots a tree, in any arena that keeps them. -/
theorem Keeps.tree_over {id : Nat} {nodes : List Nat} (keeps : arena.Keeps other)
    (forest : arena.Forest (other.children id) nodes) (present : id < other.nodeCount)
    (newer : arena.nodeCount ≤ id) : other.Tree id (id :: nodes) :=
  .node present (keeps.forest forest) fun member =>
    Nat.lt_irrefl id (Nat.lt_of_lt_of_le (forest.lt_nodeCount id member) newer)

/-- A node pushed over a forest of its children roots a tree. -/
theorem tree_push (kind : NodeKind) (span : Span) {nodes : List Nat} (forest : arena.Forest kind.children nodes) :
    (arena.push kind span).1.Tree arena.nodeCount (arena.nodeCount :: nodes) := by
  have pushedKind : ((arena.push kind span).1.node arena.nodeCount).kind = kind := by simp [node_push]
  refine .node (by simp) ?_ (fun inNodes => Nat.lt_irrefl _ (forest.lt_nodeCount _ inNodes))
  rw [Arena.children, pushedKind]
  exact (arena.keeps_push kind span).forest forest

end Growing

end ScriptLowering.Mir.Arena
