import ScriptLowering.Proofs.Renaming
import ScriptLowering.Proofs.InitializerLayout

/-! # Wrapping class initializers keeps a program sound

Wrapping initializers visits the files and classes of a program from the top. At each it moves
the loose statements into the body of a new initializer, appended after the declarations, and
links the moved subtrees below the initializer. Since the files and classes form the top of the
tree (`Arena.Nested`), the walk does nothing below any other node: there it gives every node back
what it held (`initializerWrapper_walk_of_notContainer`), whatever its fuel, which matters since
the moved statements sit two levels lower than before.

What the walk does to a subtree is recorded by `Arena.Hoisted`: the old nodes of the subtree at
most replace their statements, every other node is untouched, and the new nodes use no symbol,
own what they declare and are no file or class. A program changed that way, with its tree right
again, is still sound (`Program.Sound.grow`); the same lemma serves the file class.

The walk also records where each statement went (`Arena.Initialized`): hoisting a container
regroups it alone, relinking turning exactly the links that named it (`node_linkBelow`), and the
regroupings of the subtrees below add up, each read from an arena that agrees with the first on its
subtree. So wrapping regroups exactly the files and classes with a loose statement, and leaves every
other node as it was (`wrapInitializers_regroups`). An expression statement keeps no parent link, so
it moves without naming the initializer (`wrapInitializers_looseSample_parents`).
-/

namespace ScriptLowering.Mir

namespace Arena

variable (arena : Arena)

@[simp] theorem setKind_node_kind (id : Nat) : arena.setKind id (arena.node id).kind = arena := by
  rcases arena with ⟨nodes, symbols⟩
  simp only [setKind, modifyNode, mk.injEq, and_true]
  apply Array.ext_getElem?
  intro index
  rw [Array.getElem?_modify]
  split
  · next same =>
    subst same
    cases found : nodes[id]? <;> simp [found, node]
  · rfl

@[simp] theorem setKind_setKind (id : Nat) (first second : NodeKind) :
    (arena.setKind id first).setKind id second = arena.setKind id second := by
  rcases arena with ⟨nodes, symbols⟩
  simp only [setKind, modifyNode, mk.injEq, and_true]
  apply Array.ext_getElem?
  intro index
  simp only [Array.getElem?_modify]
  split
  · next same =>
    subst same
    cases nodes[id]? <;> rfl
  · rfl

/-- A node a pass made: it uses no symbol, owns what it declares, is no file or class, and is an
initializer if it is a function. -/
def Fresh (node : Nat) : Prop :=
  node < arena.nodeCount ∧ (arena.node node).kind.uses = [] ∧ arena.Owns node ∧
    (arena.node node).kind.isClassContainer = false ∧
    ∀ declared, (arena.node node).kind = .function declared → declared.origin = .classInitializer

/-- Every file and class among `nodes` holds declarations only. -/
def Declarative (nodes : List Nat) : Prop :=
  ∀ node ∈ nodes, (arena.node node).kind.isClassContainer = true →
    ∀ child ∈ arena.children node, (arena.node child).kind.isDeclaration = true

/-- Among `nodes`, a declaration stands only directly in a file or class. -/
def Flat (nodes : List Nat) : Prop :=
  ∀ node ∈ nodes, ∀ child ∈ arena.children node, (arena.node child).kind.isDeclaration = true →
    (arena.node node).kind.isClassContainer = true

/-- Each file or class among `nodes` holds in `after` its declarations of `before`, in their order,
then at most one node new to `before`, and that only if one of its statements was no declaration. -/
def Regrouped (before after : Arena) (nodes : List Nat) : Prop :=
  ∀ node ∈ nodes, (before.node node).kind.isClassContainer = true → ∃ extra,
    after.children node = (before.children node).filter (fun child => (before.node child).kind.isDeclaration) ++
      extra ∧
    (extra = [] ∨ ∃ added, extra = [added] ∧ before.nodeCount ≤ added) ∧
    ((∀ child ∈ before.children node, (before.node child).kind.isDeclaration = true) → extra = [])

/-- The arena `after` is `before` where the nodes `sub` at most replaced their statements and the
subtree they formed grew to the nodes `grown` by fresh nodes. -/
structure Hoisted (before after : Arena) (sub grown : List Nat) : Prop where
  present : ∀ node ∈ sub, node < before.nodeCount
  edits : before.Edits after sub
  kinds : ∀ node ∈ sub, ∃ statements,
    (after.node node).kind = (before.node node).kind.withStatements statements
  kept : ∀ node ∈ sub, node ∈ grown
  added : ∀ node ∈ grown, node ∈ sub ∨ before.nodeCount ≤ node ∧ after.Fresh node

variable {arena} {first second third : Arena}

/-- What a change of statements at most keeps of a node, it keeps of every node of the first
arena. -/
theorem Hoisted.kind {sub grown : List Nat} (hoisted : first.Hoisted second sub grown) {node : Nat}
    (present : node < first.nodeCount) : ∃ statements,
      (second.node node).kind = (first.node node).kind.withStatements statements := by
  by_cases member : node ∈ sub
  · exact hoisted.kinds node member
  · exact ⟨(first.node node).kind.children, by rw [hoisted.edits.node node present member,
      NodeKind.withStatements_children]⟩

namespace Hoisted

variable {sub grown more larger : List Nat}

theorem refl (arena : Arena) {sub : List Nat} (present : ∀ node ∈ sub, node < arena.nodeCount) :
    arena.Hoisted arena sub sub where
  present := present
  edits := (Edits.refl arena).widen fun _ member => absurd member List.not_mem_nil
  kinds node _ := ⟨(arena.node node).kind.children, (NodeKind.withStatements_children _).symm⟩
  kept _ member := member
  added _ member := .inl member

/-- A fresh node stays fresh through a change that at most replaces its statements. -/
theorem fresh (right : second.Hoisted third more larger) {node : Nat} (fresh : second.Fresh node) :
    third.Fresh node := by
  obtain ⟨present, uses, owns, notContainer, initializer⟩ := fresh
  obtain ⟨statements, changed⟩ := right.kind present
  refine ⟨Nat.lt_of_lt_of_le present right.edits.nodeCount_le,
    by rw [changed, NodeKind.uses_withStatements, uses], ?_,
    by rw [changed, NodeKind.isClassContainer_withStatements, notContainer],
    fun declared isFunction => initializer declared (NodeKind.eq_function_of_withStatements _ _ (changed ▸ isFunction))⟩
  intro symbol declared
  rw [changed, NodeKind.symbol?_withStatements] at declared
  have bound := owns symbol declared
  rw [right.edits.symbol symbol (lt_symbolCount_of_owner bound)]
  exact bound

/-- One change after another, the second over the subtree the first left. -/
theorem trans (left : first.Hoisted second sub grown) (right : second.Hoisted third grown larger) :
    first.Hoisted third sub larger where
  present := left.present
  edits := (left.edits.trans right.edits).widen fun node member present => by
    rcases List.mem_append.mp member with inSub | inGrown
    · exact inSub
    · rcases left.added node inGrown with inSub | ⟨newer, _⟩
      · exact inSub
      · omega
  kinds node member := by
    obtain ⟨statements, changed⟩ := left.kinds node member
    obtain ⟨more, changedAgain⟩ := right.kinds node (left.kept node member)
    exact ⟨more, by rw [changedAgain, changed, NodeKind.withStatements_withStatements]⟩
  kept node member := right.kept node (left.kept node member)
  added node member := by
    rcases right.added node member with inGrown | ⟨newer, fresh⟩
    · rcases left.added node inGrown with inSub | ⟨newer, fresh⟩
      · exact .inl inSub
      · exact .inr ⟨newer, right.fresh fresh⟩
    · exact .inr ⟨Nat.le_trans left.edits.nodeCount_le newer, fresh⟩

/-- Two changes of subtrees side by side, the second over old nodes the first did not reach. -/
theorem append (left : first.Hoisted second sub grown) (right : second.Hoisted third more larger)
    (old : ∀ node ∈ more, node < first.nodeCount) : first.Hoisted third (sub ++ more) (grown ++ larger) where
  present node member := by
    rcases List.mem_append.mp member with inSub | inMore
    · exact left.present node inSub
    · exact old node inMore
  edits := left.edits.trans right.edits
  kinds node member := by
    have present : node < first.nodeCount := by
      rcases List.mem_append.mp member with inSub | inMore
      · exact left.present node inSub
      · exact old node inMore
    obtain ⟨statements, changed⟩ := left.kind present
    obtain ⟨more, changedAgain⟩ := right.kind (Nat.lt_of_lt_of_le present left.edits.nodeCount_le)
    exact ⟨more, by rw [changedAgain, changed, NodeKind.withStatements_withStatements]⟩
  kept node member := by
    rcases List.mem_append.mp member with inSub | inMore
    · exact List.mem_append_left _ (left.kept node inSub)
    · exact List.mem_append_right _ (right.kept node inMore)
  added node member := by
    rcases List.mem_append.mp member with inGrown | inLarger
    · rcases left.added node inGrown with inSub | ⟨newer, fresh⟩
      · exact .inl (List.mem_append_left _ inSub)
      · exact .inr ⟨newer, right.fresh fresh⟩
    · rcases right.added node inLarger with inMore | ⟨newer, fresh⟩
      · exact .inl (List.mem_append_right _ inMore)
      · exact .inr ⟨Nat.le_trans left.edits.nodeCount_le newer, fresh⟩

end Hoisted

/-- The trees of a forest whose roots pass a test, and those of the others, hold the forest's
nodes between them. -/
theorem Forest.filter (test : Nat → Bool) : {ids nodes : List Nat} → arena.Forest ids nodes →
    ∃ kept dropped, arena.Forest (ids.filter test) kept ∧ arena.Forest (ids.filter (!test ·)) dropped ∧
      (kept ++ dropped).Perm nodes
  | _, _, .nil => ⟨[], [], .nil, .nil, .refl []⟩
  | id :: rest, _, @Arena.Forest.cons _ _ _ first others tree forest apart => by
    obtain ⟨kept, dropped, keptForest, droppedForest, perm⟩ := Forest.filter test forest
    have keptOthers : ∀ node ∈ kept, node ∈ others := fun node member =>
      perm.subset (List.mem_append_left _ member)
    have droppedOthers : ∀ node ∈ dropped, node ∈ others := fun node member =>
      perm.subset (List.mem_append_right _ member)
    cases passes : test id
    · refine ⟨kept, first ++ dropped, by simpa [passes] using keptForest, ?_, ?_⟩
      · simpa [passes] using Forest.cons tree droppedForest fun node inFirst inDropped =>
          apart node inFirst (droppedOthers node inDropped)
      · exact (List.perm_append_comm_assoc kept first dropped).trans (perm.append_left first)
    · refine ⟨first ++ kept, dropped, ?_, by simpa [passes] using droppedForest, ?_⟩
      · simpa [passes] using Forest.cons tree keptForest fun node inFirst inKept =>
          apart node inFirst (keptOthers node inKept)
      · rw [List.append_assoc]
        exact perm.append_left first

/-- Files and classes stay on top among nodes, closed under children, none of which an edit
touches. -/
theorem Edits.nested {touched nodes : List Nat} (edits : first.Edits second touched)
    (present : ∀ node ∈ nodes, node < first.nodeCount)
    (closed : ∀ node ∈ nodes, ∀ child ∈ first.children node, child ∈ nodes)
    (untouched : ∀ node ∈ nodes, node ∉ touched) (nested : first.Nested nodes) : second.Nested nodes := by
  have same : ∀ node ∈ nodes, second.node node = first.node node := fun node member =>
    edits.node node (present node member) (untouched node member)
  intro node member child isChild isContainer
  rw [Arena.children, same node member] at isChild
  have childMember := closed node member child isChild
  rw [same child childMember] at isContainer ⊢
  rw [same node member]
  exact nested node member child isChild isContainer

theorem Fresh.edits {touched : List Nat} {node : Nat} (fresh : first.Fresh node) (edits : first.Edits second touched)
    (untouched : node ∉ touched) : second.Fresh node := by
  obtain ⟨present, uses, owns, notContainer, initializer⟩ := fresh
  have same := edits.node node present untouched
  exact ⟨Nat.lt_of_lt_of_le present edits.nodeCount_le, by rw [same]; exact uses,
    edits.owns owns present untouched, by rw [same]; exact notContainer, same ▸ initializer⟩

/-- A change that leaves some old nodes alone, closed under children, keeps what they hold, so
files and classes among them that held declarations only still do. -/
theorem Edits.declarative {touched nodes : List Nat} (edits : first.Edits second touched)
    (present : ∀ node ∈ nodes, node < first.nodeCount)
    (closed : ∀ node ∈ nodes, ∀ child ∈ first.children node, child ∈ nodes)
    (untouched : ∀ node ∈ nodes, node ∉ touched) (declarative : first.Declarative nodes) :
    second.Declarative nodes := by
  have same : ∀ node ∈ nodes, second.node node = first.node node := fun node member =>
    edits.node node (present node member) (untouched node member)
  intro node member isContainer child isChild
  rw [Arena.children, same node member] at isChild
  rw [same node member] at isContainer
  rw [same child (closed node member child isChild)]
  exact declarative node member isContainer child isChild

/-- A change that leaves some old nodes alone, closed under children, keeps declarations among them
directly in files and classes. -/
theorem Edits.flat {touched nodes : List Nat} (edits : first.Edits second touched)
    (present : ∀ node ∈ nodes, node < first.nodeCount)
    (closed : ∀ node ∈ nodes, ∀ child ∈ first.children node, child ∈ nodes)
    (untouched : ∀ node ∈ nodes, node ∉ touched) (flat : first.Flat nodes) : second.Flat nodes := by
  have same : ∀ node ∈ nodes, second.node node = first.node node := fun node member =>
    edits.node node (present node member) (untouched node member)
  intro node member child isChild isDeclaration
  rw [Arena.children, same node member] at isChild
  rw [same child (closed node member child isChild)] at isDeclaration
  rw [same node member]
  exact flat node member child isChild isDeclaration

/-- A regrouping reads a node's kind and its children's only, and bounds what it adds by the first
arena's size: it carries over to arenas that agree there. -/
theorem Regrouped.congr {third fourth : Arena} {nodes others : List Nat} (regrouped : first.Regrouped second nodes)
    (within : ∀ node ∈ others, node ∈ nodes) (sameKind : ∀ node ∈ others, (third.node node).kind = (first.node node).kind)
    (sameChild : ∀ node ∈ others, ∀ child ∈ first.children node, (third.node child).kind = (first.node child).kind)
    (count : third.nodeCount ≤ first.nodeCount) (sameChildren : ∀ node ∈ others, fourth.children node = second.children node) :
    third.Regrouped fourth others := by
  intro node member isContainer
  rw [sameKind node member] at isContainer
  obtain ⟨extra, children, added, onlyLoose⟩ := regrouped node (within node member) isContainer
  have thirdChildren : third.children node = first.children node := children_congr (sameKind node member)
  refine ⟨extra, ?_, ?_, fun allDeclarations => onlyLoose fun child isChild => ?_⟩
  · rw [sameChildren node member, children, thirdChildren]
    congr 1
    exact List.filter_congr fun child isChild => by rw [sameChild node member child isChild]
  · rcases added with rfl | ⟨added, rfl, newer⟩
    · exact .inl rfl
    · exact .inr ⟨added, rfl, Nat.le_trans count newer⟩
  · rw [← sameChild node member child isChild]
    exact allDeclarations child (thirdChildren ▸ isChild)

namespace Hoisted

variable {sub grown : List Nat}

theorem lt_nodeCount (hoisted : first.Hoisted second sub grown) {node : Nat} (member : node ∈ grown) :
    node < second.nodeCount := by
  rcases hoisted.added node member with inSub | ⟨_, fresh⟩
  · exact Nat.lt_of_lt_of_le (hoisted.present node inSub) hoisted.edits.nodeCount_le
  · exact fresh.1

/-- Old nodes apart from the subtree are apart from what it grew to. -/
theorem apart (hoisted : first.Hoisted second sub grown) {others : List Nat}
    (apart : ∀ node ∈ sub, node ∉ others) (old : ∀ node ∈ others, node < first.nodeCount) :
    ∀ node ∈ grown, node ∉ others := by
  intro node member inOthers
  rcases hoisted.added node member with inSub | ⟨newer, _⟩
  · exact apart node inSub inOthers
  · have := old node inOthers
    omega

end Hoisted

/-- The roots of a forest that an edit leaves alone keep their subtrees, so a bound on the subtrees
of its files and classes holds after the edit. -/
theorem Forest.fits {ids nodes touched : List Nat} {fuel : Nat} (forest : first.Forest ids nodes)
    (edits : first.Edits second touched) (untouched : ∀ node ∈ nodes, node ∉ touched)
    (fits : ∀ id ∈ ids, (first.node id).kind.isClassContainer = true → ∀ sub, first.Tree id sub → sub.length ≤ fuel) :
    ∀ id ∈ ids, (second.node id).kind.isClassContainer = true → ∀ sub, second.Tree id sub → sub.length ≤ fuel := by
  intro id member isContainer sub tree
  obtain ⟨found, foundTree, within⟩ := forest.exists_tree member
  have same : second.node id = first.node id :=
    edits.node id (foundTree.present) (untouched id (within id foundTree.mem_self))
  rw [tree.unique (edits.tree foundTree fun node inFound => untouched node (within node inFound))]
  exact fits id member (same ▸ isContainer) found foundTree

/-! ## Hoisting one container

Hoisting the loose statements of one file or class is described by `Wraps`, with every other old
node as it was (`Initialized` of that container alone). That is all it takes to see that the
container's subtree is a tree again, rightly linked, with files and classes on top: the declarations
keep their subtrees, the loose statements keep theirs below the new body, and the links that named
the container now name the initializer. -/

/-- Turning, in a subtree, the links that named `container` into links to `initializer` keeps the
subtree linked, below `initializer` where it was below `container`. -/
theorem Linked.relink {id container initializer : Nat} {above : Option Nat} {nodes : List Nat}
    (linked : first.Linked id above) (tree : first.Tree id nodes) (outside : container ∉ nodes)
    (kinds : ∀ node ∈ nodes, (second.node node).kind = (first.node node).kind)
    (parents : ∀ node ∈ nodes, (second.node node).parent =
      if (first.node node).kind.tracksParent = true ∧ (first.node node).parent = some container then
        some initializer else (first.node node).parent) :
    second.Linked id (if above = some container then some initializer else above) := by
  induction linked generalizing nodes with
  | @node id above parent _ ih =>
    cases tree with
    | node _ childForest _ =>
      have kindHere := kinds id List.mem_cons_self
      refine .node (fun tracks => ?_) (fun child member => ?_)
      · rw [kindHere] at tracks
        rw [parents id List.mem_cons_self, parent tracks]
        simp only [tracks, true_and]
      · -- The root passes itself down if it keeps a link, and it is not `container`.
        have passed : second.passedLink id (if above = some container then some initializer else above) =
            if first.passedLink id above = some container then some initializer else first.passedLink id above := by
          have different : id ≠ container := fun same => outside (same ▸ List.mem_cons_self)
          cases tracks : (first.node id).kind.tracksParent
          · simp [passedLink, kindHere, tracks]
          · simp [passedLink, kindHere, tracks, different]
        rw [children_congr kindHere] at member
        rw [passed]
        obtain ⟨sub, subTree, within⟩ := childForest.exists_tree member
        exact ih child member subTree (fun inSub => outside (List.mem_cons_of_mem _ (within container inSub)))
          (fun node inSub => kinds node (List.mem_cons_of_mem _ (within node inSub)))
          (fun node inSub => parents node (List.mem_cons_of_mem _ (within node inSub)))

section OneContainer

variable {hoisted : Arena} {container initializer body : Nat} {below declarationNodes looseNodes : List Nat}

/-- The initializer is a function of no parameters holding a new body, which holds the loose
statements. -/
theorem Wraps.initializer_body (wraps : arena.Wraps hoisted container initializer) :
    ∃ body, arena.nodeCount ≤ body ∧ body < hoisted.nodeCount ∧ body ≠ initializer ∧
      hoisted.children initializer = [body] ∧
      hoisted.node body = { kind := .body (arena.looseOf container), span := .synthetic } := by
  obtain ⟨symbol, body, -, -, bodyNew, bodyLt, initNode, bodyNode, -⟩ := wraps.function
  refine ⟨body, bodyNew, bodyLt, fun same => ?_, by simp [Arena.children, initNode, NodeKind.children], bodyNode⟩
  rw [same, initNode] at bodyNode
  cases bodyNode

theorem Wraps.container_kind (wraps : arena.Wraps hoisted container initializer) :
    (hoisted.node container).kind =
      (arena.node container).kind.withStatements (arena.declarationsOf container ++ [initializer]) := by
  rw [wraps.holds]

theorem Wraps.children_container (wraps : arena.Wraps hoisted container initializer)
    (isContainer : (arena.node container).kind.isClassContainer = true) :
    hoisted.children container = arena.declarationsOf container ++ [initializer] := by
  rw [Arena.children, wraps.container_kind]
  exact NodeKind.children_withStatements _ _ (NodeKind.isClassContainer_holds _ isContainer)

theorem Wraps.initializer_kind (wraps : arena.Wraps hoisted container initializer) :
    ∃ declared, (hoisted.node initializer).kind = .function declared := by
  obtain ⟨symbol, body, -, -, -, -, initNode, -, -⟩ := wraps.function
  exact ⟨_, by rw [initNode]⟩

/-- Below the container, the nodes outside the loose statements' subtrees are as they were. -/
theorem Initialized.node_below (initialized : arena.Initialized hoisted [container])
    (tree : arena.Tree container (container :: below)) (looseForest : arena.Forest (arena.looseOf container) looseNodes)
    {node : Nat} (inBelow : node ∈ below) (notLoose : node ∉ looseNodes) : hoisted.node node = arena.node node :=
  initialized.node node (tree.lt_nodeCount node (List.mem_cons_of_mem _ inBelow)) fun wrapped member => by
    rw [List.mem_singleton.mp member]
    exact ⟨fun same => (List.nodup_cons.mp tree.nodup).1 (same ▸ inBelow),
      fun loose => notLoose ((looseForest.loose_iff node).mp loose)⟩

theorem Wraps.initializer_parent (wraps : arena.Wraps hoisted container initializer) :
    (hoisted.node initializer).parent = some container := by
  obtain ⟨symbol, body, -, -, -, -, initNode, -, -⟩ := wraps.function
  rw [initNode]

/-- The initializer is a node the pass made: a function using no symbol and owning its new one. -/
theorem Wraps.initializer_fresh (wraps : arena.Wraps hoisted container initializer) : hoisted.Fresh initializer := by
  obtain ⟨symbol, body, -, -, -, -, initNode, -, symbolIs⟩ := wraps.function
  refine ⟨wraps.new.2, by rw [initNode]; rfl, fun declared isDeclared => ?_, by rw [initNode]; rfl,
    fun declared isFunction => ?_⟩
  · rw [initNode] at isDeclared
    cases isDeclared
    rw [symbolIs]
  · rw [initNode] at isFunction
    cases isFunction
    rfl

/-- A new body is a node the pass made. -/
theorem Fresh.of_body {statements : List Nat} (bodyLt : body < hoisted.nodeCount)
    (bodyNode : hoisted.node body = { kind := .body statements, span := .synthetic }) : hoisted.Fresh body := by
  refine ⟨bodyLt, by rw [bodyNode]; rfl, fun symbol declared => ?_, by rw [bodyNode]; rfl,
    fun declared isFunction => ?_⟩
  · rw [bodyNode] at declared
    cases declared
  · rw [bodyNode] at isFunction
    cases isFunction

section Hoisting

variable (wraps : arena.Wraps hoisted container initializer) (initialized : arena.Initialized hoisted [container])
  (isContainer : (arena.node container).kind.isClassContainer = true)
  (oldTree : arena.Tree container (container :: below))
  (declarations : arena.Forest (arena.declarationsOf container) declarationNodes)
  (looseForest : arena.Forest (arena.looseOf container) looseNodes)
  (perm : (declarationNodes ++ looseNodes).Perm below)
  (bodyNew : arena.nodeCount ≤ body) (bodyLt : body < hoisted.nodeCount) (bodyApart : body ≠ initializer)
  (initChildren : hoisted.children initializer = [body])
  (bodyNode : hoisted.node body = { kind := .body (arena.looseOf container), span := .synthetic })

include oldTree perm in
/-- The subtrees of the declarations and those of the loose statements share no node. -/
theorem Tree.declarations_apart : ∀ node ∈ declarationNodes, node ∉ looseNodes := fun node inDeclarations inLoose =>
  (List.nodup_append.mp (perm.nodup_iff.mpr (List.nodup_cons.mp oldTree.nodup).2)).2.2 node inDeclarations
    node inLoose rfl

include initialized oldTree looseForest perm in
theorem Initialized.declarations_same : ∀ node ∈ declarationNodes, hoisted.node node = arena.node node :=
  fun node member => initialized.node_below oldTree looseForest (perm.subset (List.mem_append_left _ member))
    (Tree.declarations_apart oldTree perm node member)

include initialized oldTree declarations looseForest perm in
/-- The declarations keep their subtrees. -/
theorem Initialized.declarations_forest : hoisted.Forest (arena.declarationsOf container) declarationNodes :=
  declarations.frame (fun node member => by rw [initialized.declarations_same oldTree looseForest perm node member])
    (by rw [initialized.nodeCount]; omega)

include initialized oldTree in
theorem Initialized.kind_below : ∀ node ∈ below, (hoisted.node node).kind = (arena.node node).kind :=
  fun node member => initialized.kind_eq (oldTree.lt_nodeCount node (List.mem_cons_of_mem _ member))
    fun inWrapped => (List.nodup_cons.mp oldTree.nodup).1 (List.mem_singleton.mp inWrapped ▸ member)

include wraps oldTree bodyNew in
/-- No old node below the container is the initializer or its body. -/
theorem Wraps.new_apart : ∀ node ∈ below, node ≠ initializer ∧ node ≠ body := by
  intro node member
  have old := oldTree.lt_nodeCount node (List.mem_cons_of_mem _ member)
  have := wraps.new.1
  exact ⟨by omega, by omega⟩

include wraps initialized isContainer oldTree declarations looseForest perm bodyNew bodyLt bodyApart initChildren
  bodyNode in
/-- After hoisting, the container's subtree is a tree again: the declarations' subtrees, then the
initializer over its body over the loose statements' subtrees. -/
theorem Wraps.tree : hoisted.Tree container (container :: (declarationNodes ++ initializer :: body :: looseNodes)) := by
  have grows : arena.nodeCount ≤ hoisted.nodeCount := by
    rw [initialized.nodeCount]
    omega
  have inBelow : ∀ node ∈ declarationNodes ++ looseNodes, node ∈ below := fun node member => perm.subset member
  have newApart := Wraps.new_apart wraps oldTree bodyNew
  have declarationForest := initialized.declarations_forest oldTree declarations looseForest perm
  have looseHoisted : hoisted.Forest (arena.looseOf container) looseNodes :=
    looseForest.frame (fun node member => initialized.kind_below oldTree node
      (inBelow node (List.mem_append_right _ member))) grows
  have bodyTree : hoisted.Tree body (body :: looseNodes) := by
    refine .node bodyLt (by rw [Arena.children, bodyNode]; exact looseHoisted) fun member => ?_
    exact (newApart body (inBelow body (List.mem_append_right _ member))).2 rfl
  have initTree : hoisted.Tree initializer (initializer :: body :: looseNodes) := by
    refine .node wraps.new.2 (initChildren ▸ Forest.single bodyTree) fun member => ?_
    rcases List.mem_cons.mp member with same | inLoose
    · exact bodyApart same.symm
    · exact (newApart initializer (inBelow initializer (List.mem_append_right _ inLoose))).1 rfl
  refine .node (Nat.lt_of_lt_of_le wraps.present grows) ?_ fun member => ?_
  · rw [wraps.children_container isContainer]
    refine Forest.append (Forest.single initTree) declarationForest fun node inDeclarations inNew => ?_
    have apart := newApart node (inBelow node (List.mem_append_left _ inDeclarations))
    rcases List.mem_cons.mp inNew with same | inNew
    · exact apart.1 same
    rcases List.mem_cons.mp inNew with same | inLoose
    · exact apart.2 same
    · exact Tree.declarations_apart oldTree perm node inDeclarations inLoose
  · have fresh := (List.nodup_cons.mp oldTree.nodup).1
    have old := wraps.present
    rcases List.mem_append.mp member with inDeclarations | inNew
    · exact fresh (inBelow container (List.mem_append_left _ inDeclarations))
    rcases List.mem_cons.mp inNew with same | inNew
    · have := wraps.new.1
      omega
    rcases List.mem_cons.mp inNew with same | inLoose
    · omega
    · exact fresh (inBelow container (List.mem_append_right _ inLoose))

include wraps initialized isContainer oldTree declarations looseForest perm initChildren bodyNode in
/-- After hoisting, the container's subtree is rightly linked: the initializer names the container,
and in the loose statements' subtrees the links that named the container name the initializer. -/
theorem Wraps.linked {above : Option Nat} (linked : arena.Linked container above) : hoisted.Linked container above := by
  have containerTracks : (arena.node container).kind.tracksParent = true := by
    revert isContainer
    cases (arena.node container).kind <;> simp [NodeKind.isClassContainer, NodeKind.tracksParent]
  obtain ⟨declared, initKind⟩ := wraps.initializer_kind
  have kinds := initialized.kind_below oldTree
  have fresh := (List.nodup_cons.mp oldTree.nodup).1
  cases linked with
  | node parent childrenLinked =>
    have statementLinked : ∀ statement ∈ arena.children container, arena.Linked statement (some container) := by
      intro statement member
      have linkedHere := childrenLinked statement member
      rwa [passedLink, if_pos containerTracks] at linkedHere
    have passed : hoisted.passedLink container above = some container := by
      simp only [passedLink, wraps.container_kind, NodeKind.tracksParent_withStatements, containerTracks, if_true]
    refine .node (fun _ => ?_) (fun child member => ?_)
    · rw [wraps.holds]
      exact parent containerTracks
    rw [passed]
    rw [wraps.children_container isContainer] at member
    rcases List.mem_append.mp member with inDeclarations | isInitializer
    · -- A declaration keeps its subtree as it was.
      obtain ⟨sub, subTree, within⟩ := declarations.exists_tree inDeclarations
      have same := initialized.declarations_same oldTree looseForest perm
      exact (statementLinked child (List.mem_filter.mp inDeclarations).1).frame subTree
        (fun node inSub => by rw [same node (within node inSub)])
        (fun node inSub => by rw [same node (within node inSub)])
    · -- The initializer names the container and passes itself down through its body.
      rw [List.mem_singleton.mp isInitializer]
      refine .node (fun _ => wraps.initializer_parent) (fun child isChild => ?_)
      rw [initChildren, List.mem_singleton] at isChild
      rw [isChild, show hoisted.passedLink initializer (some container) = some initializer by
        simp [passedLink, initKind, NodeKind.tracksParent]]
      refine .node (fun tracks => by simp [bodyNode, NodeKind.tracksParent] at tracks) (fun statement isStatement => ?_)
      rw [show hoisted.passedLink body (some initializer) = some initializer by
        simp [passedLink, bodyNode, NodeKind.tracksParent]]
      simp only [Arena.children, bodyNode] at isStatement
      obtain ⟨sub, subTree, within⟩ := looseForest.exists_tree isStatement
      have inBelow : ∀ node ∈ sub, node ∈ below := fun node inSub =>
        perm.subset (List.mem_append_right _ (within node inSub))
      have relinked := (statementLinked statement (List.mem_filter.mp isStatement).1).relink subTree
        (fun inSub => fresh (inBelow container inSub)) (fun node inSub => kinds node (inBelow node inSub))
        (fun node inSub => by
          rw [wraps.moved node ((looseForest.loose_iff node).mpr (within node inSub))]
          split_ifs <;> rfl)
      simpa using relinked

include wraps initialized isContainer oldTree looseForest perm initChildren bodyNode in
/-- After hoisting, files and classes are still on top: the loose statements, now two levels further
down, held none. -/
theorem Wraps.nested (nested : arena.Nested (container :: below)) :
    hoisted.Nested (container :: (declarationNodes ++ initializer :: body :: looseNodes)) := by
  have kinds := initialized.kind_below oldTree
  obtain ⟨declared, initKind⟩ := wraps.initializer_kind
  -- An old node below the container holds what it held.
  have oldNested : ∀ node ∈ below, ∀ child ∈ hoisted.children node,
      (hoisted.node child).kind.isClassContainer = true →
        (hoisted.node child).kind.isClass = true ∧ (hoisted.node node).kind.isClassContainer = true := by
    intro node member child isChild isChildContainer
    rw [children_congr (kinds node member)] at isChild
    have childBelow : child ∈ below := oldTree.child_mem (List.mem_cons_of_mem _ member) isChild
    rw [kinds child childBelow] at isChildContainer ⊢
    rw [kinds node member]
    exact nested node (List.mem_cons_of_mem _ member) child isChild isChildContainer
  intro node member child isChild isChildContainer
  simp only [List.mem_cons, List.mem_append] at member
  rcases member with rfl | inDeclarations | rfl | rfl | inLoose
  · -- The container holds its declarations and the initializer, which is no file or class.
    rw [wraps.children_container isContainer] at isChild
    rcases List.mem_append.mp isChild with inDeclarations | isInitializer
    · have statement := (List.mem_filter.mp inDeclarations).1
      rw [kinds child (oldTree.child_mem oldTree.mem_self statement)] at isChildContainer ⊢
      rw [wraps.container_kind, NodeKind.isClassContainer_withStatements]
      exact nested _ List.mem_cons_self child statement isChildContainer
    · rw [List.mem_singleton.mp isInitializer, initKind] at isChildContainer
      cases isChildContainer
  · exact oldNested node (perm.subset (List.mem_append_left _ inDeclarations)) child isChild isChildContainer
  · -- The initializer holds its body only.
    rw [initChildren, List.mem_singleton] at isChild
    rw [isChild, bodyNode] at isChildContainer
    cases isChildContainer
  · -- The body holds the loose statements, none of which is a file or class.
    simp only [Arena.children, bodyNode] at isChild
    have loose := (looseForest.loose_iff child).mpr (looseForest.root_mem isChild)
    rw [kinds child (oldTree.child_mem oldTree.mem_self (List.mem_filter.mp isChild).1),
      Loose.not_container oldTree nested loose] at isChildContainer
    cases isChildContainer
  · exact oldNested node (perm.subset (List.mem_append_right _ inLoose)) child isChild isChildContainer

include wraps initialized isContainer oldTree perm initChildren bodyNode in
/-- After hoisting, declarations still stand directly in files and classes only: the initializer
stands in the container, and its body holds no declaration. -/
theorem Wraps.flat (flat : arena.Flat (container :: below)) :
    hoisted.Flat (container :: (declarationNodes ++ initializer :: body :: looseNodes)) := by
  have kinds := initialized.kind_below oldTree
  have oldFlat : ∀ node ∈ below, ∀ child ∈ hoisted.children node,
      (hoisted.node child).kind.isDeclaration = true → (hoisted.node node).kind.isClassContainer = true := by
    intro node member child isChild isDeclaration
    rw [children_congr (kinds node member)] at isChild
    have childBelow : child ∈ below := oldTree.child_mem (List.mem_cons_of_mem _ member) isChild
    rw [kinds child childBelow] at isDeclaration
    rw [kinds node member]
    exact flat node (List.mem_cons_of_mem _ member) child isChild isDeclaration
  intro node member child isChild isDeclaration
  simp only [List.mem_cons, List.mem_append] at member
  rcases member with rfl | inDeclarations | rfl | rfl | inLoose
  · rw [wraps.container_kind, NodeKind.isClassContainer_withStatements]
    exact isContainer
  · exact oldFlat node (perm.subset (List.mem_append_left _ inDeclarations)) child isChild isDeclaration
  · rw [initChildren, List.mem_singleton] at isChild
    rw [isChild, bodyNode] at isDeclaration
    cases isDeclaration
  · simp only [Arena.children, bodyNode] at isChild
    rw [kinds child (oldTree.child_mem oldTree.mem_self (List.mem_filter.mp isChild).1)] at isDeclaration
    have looseChild := (List.mem_filter.mp isChild).2
    simp [isDeclaration] at looseChild
  · exact oldFlat node (perm.subset (List.mem_append_right _ inLoose)) child isChild isDeclaration

include wraps initialized oldTree perm bodyNew bodyLt bodyNode in
/-- Hoisting changed the statements of the container only, and grew its subtree by the initializer and
its body, both new. -/
theorem Wraps.hoists : arena.Hoisted hoisted (container :: below)
    (container :: (declarationNodes ++ initializer :: body :: looseNodes)) := by
  have kinds := initialized.kind_below oldTree
  refine ⟨fun node member => oldTree.lt_nodeCount node member,
    ⟨by rw [initialized.nodeCount]; omega, by rw [initialized.symbolCount]; omega,
      fun node present untouched => ?_, initialized.symbol⟩,
    fun node member => ?_, fun node member => ?_, fun node member => ?_⟩
  · refine initialized.node node present fun wrapped isWrapped => ?_
    rw [List.mem_singleton.mp isWrapped]
    exact ⟨fun same => untouched (same ▸ List.mem_cons_self),
      fun loose => untouched (List.mem_cons_of_mem _ (loose.mem_tail oldTree))⟩
  · rcases List.mem_cons.mp member with same | inBelow
    · exact ⟨_, same ▸ wraps.container_kind⟩
    · exact ⟨(arena.node node).kind.children, by rw [kinds node inBelow, NodeKind.withStatements_children]⟩
  · rcases List.mem_cons.mp member with same | inBelow
    · exact same ▸ List.mem_cons_self
    · rcases List.mem_append.mp (perm.mem_iff.mpr inBelow) with inDeclarations | inLoose
      · exact List.mem_cons_of_mem _ (List.mem_append_left _ inDeclarations)
      · exact List.mem_cons_of_mem _ (List.mem_append_right _
          (List.mem_cons_of_mem _ (List.mem_cons_of_mem _ inLoose)))
  · simp only [List.mem_cons, List.mem_append] at member
    rcases member with same | inDeclarations | same | same | inLoose
    · exact .inl (same ▸ List.mem_cons_self)
    · exact .inl (List.mem_cons_of_mem _ (perm.subset (List.mem_append_left _ inDeclarations)))
    · exact .inr ⟨same ▸ wraps.new.1, same ▸ wraps.initializer_fresh⟩
    · exact .inr ⟨same ▸ bodyNew, same ▸ Fresh.of_body bodyLt bodyNode⟩
    · exact .inl (List.mem_cons_of_mem _ (perm.subset (List.mem_append_right _ inLoose)))

include wraps initialized isContainer oldTree in
/-- After hoisting, the container holds declarations only. -/
theorem Wraps.children_declare :
    ∀ child ∈ hoisted.children container, (hoisted.node child).kind.isDeclaration = true := by
  obtain ⟨declared, initKind⟩ := wraps.initializer_kind
  intro child isChild
  rw [wraps.children_container isContainer] at isChild
  rcases List.mem_append.mp isChild with inDeclarations | isInitializer
  · rw [initialized.kind_below oldTree child (oldTree.child_mem oldTree.mem_self (List.mem_filter.mp inDeclarations).1)]
    exact (List.mem_filter.mp inDeclarations).2
  · rw [List.mem_singleton.mp isInitializer, initKind]
    rfl

include wraps isContainer in
/-- Hoisting regroups the container: its declarations, then the new initializer, which is there
because a statement was loose. -/
theorem Wraps.regrouped (holdsLoose : arena.hasLoose container = true) : arena.Regrouped hoisted [container] := by
  intro node member _
  rw [List.mem_singleton.mp member]
  refine ⟨[initializer], wraps.children_container isContainer, .inr ⟨initializer, rfl, wraps.new.1⟩,
    fun allDeclarations => absurd holdsLoose ?_⟩
  have noLoose : arena.looseOf container = [] :=
    List.filter_eq_nil_iff.mpr fun statement member => by simp [allDeclarations statement member]
  simp [hasLoose, noLoose]

include wraps initialized oldTree looseForest perm bodyNode in
/-- The initializer, its body and the nodes below the loose statements are no files or classes. -/
theorem Wraps.not_container (nested : arena.Nested (container :: below)) :
    ∀ node ∈ initializer :: body :: looseNodes, (hoisted.node node).kind.isClassContainer = false := by
  obtain ⟨declared, initKind⟩ := wraps.initializer_kind
  intro node member
  rcases List.mem_cons.mp member with rfl | member
  · rw [initKind]
    rfl
  rcases List.mem_cons.mp member with rfl | inLoose
  · rw [bodyNode]
    rfl
  · rw [initialized.kind_below oldTree node (perm.subset (List.mem_append_right _ inLoose))]
    exact Loose.not_container oldTree nested ((looseForest.loose_iff node).mpr inLoose)

include wraps initialized oldTree declarations looseForest perm bodyNode in
/-- After hoisting, the nodes of the container's subtree that hold a loose statement lie among the
declarations, whose subtrees hoisting left as they were. -/
theorem Wraps.loose_below (nested : arena.Nested (container :: below)) :
    ∀ node ∈ declarationNodes ++ initializer :: body :: looseNodes, hoisted.hasLoose node = true →
      ∃ sub, arena.Tree node sub ∧
        ∀ other ∈ sub, other ∈ below ∧ ¬ arena.Loose container other ∧ hoisted.node other = arena.node other := by
  intro node member holdsLoose
  rcases List.mem_append.mp member with inDeclarations | inNew
  · obtain ⟨sub, subTree, within⟩ := declarations.exists_subtree inDeclarations
    have same := initialized.declarations_same oldTree looseForest perm
    refine ⟨sub, subTree, fun other inSub =>
      ⟨perm.subset (List.mem_append_left _ (within.subset inSub)), fun loose => ?_, same other (within.subset inSub)⟩⟩
    exact Tree.declarations_apart oldTree perm other (within.subset inSub) ((looseForest.loose_iff other).mp loose)
  · rw [hasLoose_of_not_container (wraps.not_container initialized oldTree looseForest perm bodyNode nested node inNew)]
      at holdsLoose
    cases holdsLoose

include wraps initialized oldTree declarations looseForest perm bodyNode in
/-- Hoisting leaves, below the container, the same files and classes with a loose statement. -/
theorem Wraps.loose_perm (nested : arena.Nested (container :: below)) :
    ((declarationNodes ++ initializer :: body :: looseNodes).filter hoisted.hasLoose).Perm
      (below.filter arena.hasLoose) := by
  have same := initialized.declarations_same oldTree looseForest perm
  have sameLoose : declarationNodes.filter hoisted.hasLoose = declarationNodes.filter arena.hasLoose :=
    List.filter_congr fun node member =>
      hasLoose_congr (same node member) fun child isChild => same child (declarations.child_mem member isChild)
  have newNone : (initializer :: body :: looseNodes).filter hoisted.hasLoose = [] :=
    List.filter_eq_nil_iff.mpr fun node member holdsLoose => by
      rw [hasLoose_of_not_container (wraps.not_container initialized oldTree looseForest perm bodyNode nested node member)]
        at holdsLoose
      cases holdsLoose
  have looseNone : looseNodes.filter arena.hasLoose = [] :=
    List.filter_eq_nil_iff.mpr fun node member holdsLoose => by
      rw [hasLoose_of_not_container (Loose.not_container oldTree nested ((looseForest.loose_iff node).mpr member))]
        at holdsLoose
      cases holdsLoose
  have belowPerm := perm.filter arena.hasLoose
  rw [List.filter_append, looseNone, List.append_nil] at belowPerm
  rw [List.filter_append, sameLoose, newNone, List.append_nil]
  exact belowPerm

include wraps initialized isContainer oldTree declarations looseForest perm in
/-- After hoisting, the files and classes the container holds have subtrees no larger than what was
below the container. -/
theorem Wraps.children_fit : ∀ child ∈ hoisted.children container, (hoisted.node child).kind.isClassContainer = true →
    ∀ sub, hoisted.Tree child sub → sub.length ≤ below.length := by
  obtain ⟨declared, initKind⟩ := wraps.initializer_kind
  intro child isChild isChildContainer sub childTree
  rw [wraps.children_container isContainer] at isChild
  rcases List.mem_append.mp isChild with inDeclarations | isInitializer
  · obtain ⟨found, foundTree, within⟩ :=
      (initialized.declarations_forest oldTree declarations looseForest perm).exists_tree inDeclarations
    rw [childTree.unique foundTree]
    exact (foundTree.nodup.subperm fun node inFound =>
      perm.subset (List.mem_append_left _ (within node inFound))).length_le
  · rw [List.mem_singleton.mp isInitializer, initKind] at isChildContainer
    cases isChildContainer

end Hoisting

end OneContainer

end Arena

/-! ## Growing a sound program -/

/-- A program stays sound through a change that at most replaces statements of old nodes, keeps
the symbols and the file of built-ins, and adds nodes that use no symbol and own what they declare,
once its tree is a tree again, rightly linked, with files and classes on top, reaching every node it
reached. -/
theorem Program.Sound.grow {program : Program} {nodes : List Nat} (sound : program.Sound nodes)
    {after : Arena} {more : List Nat} (tree : after.Tree program.file more)
    (linked : after.Linked program.file none) (nested : after.Nested more) (kept : ∀ node ∈ nodes, node ∈ more)
    (added : ∀ node ∈ more, node ∈ nodes ∨
      program.arena.nodeCount ≤ node ∧ (after.node node).kind.uses = [] ∧ after.Owns node)
    (kinds : ∀ node < program.arena.nodeCount, ∃ statements,
      (after.node node).kind = (program.arena.node node).kind.withStatements statements)
    (symbols : ∀ symbol < program.arena.symbolCount, after.symbol symbol = program.arena.symbol symbol)
    (grows : program.arena.nodeCount ≤ after.nodeCount)
    (builtins : after.children program.builtinsFile = program.arena.children program.builtinsFile) :
    { program with arena := after }.Sound more := by
  -- What a change of statements keeps of a node reads the same in both arenas.
  have keeps : ∀ {α : Type} (read : NodeKind → α),
      (∀ kind statements, read (NodeKind.withStatements kind statements) = read kind) →
      ∀ node < program.arena.nodeCount, read (after.node node).kind = read (program.arena.node node).kind := by
    intro α read kept node present
    obtain ⟨statements, changed⟩ := kinds node present
    rw [changed, kept]
  have owner : ∀ symbol owner, (program.arena.symbol symbol).owner = some owner →
      (after.symbol symbol).owner = some owner := fun symbol owner bound => by
    rw [symbols symbol (Arena.lt_symbolCount_of_owner bound)]
    exact bound
  have inTree : ∀ node ∈ nodes, node < program.arena.nodeCount := sound.tree.lt_nodeCount
  have usesKept : ∀ node ∈ nodes, (after.node node).kind.uses = (program.arena.node node).kind.uses :=
    fun node member => keeps NodeKind.uses NodeKind.uses_withStatements node (inTree node member)
  -- Every node of the grown tree is old, or new and using nothing.
  have oldUses : ∀ node ∈ more, ∀ symbol ∈ (after.node node).kind.uses,
      node ∈ nodes ∧ symbol ∈ (program.arena.node node).kind.uses := by
    intro node member symbol used
    rcases added node member with inNodes | ⟨_, noUses, _⟩
    · exact ⟨inNodes, by rwa [usesKept node inNodes] at used⟩
    · rw [noUses] at used
      exact absurd used List.not_mem_nil
  have oldOwner : ∀ node ∈ more, node < program.arena.nodeCount → node ∈ nodes := by
    intro node member present
    rcases added node member with inNodes | ⟨newer, _⟩
    · exact inNodes
    · omega
  have builtinOwner : ∀ owner, program.IsBuiltin owner → Program.IsBuiltin { program with arena := after } owner := by
    rintro owner ⟨child, declared, isFunction, builtIn⟩
    have present := (sound.builtins_apart owner child).1
    obtain ⟨statements, changed⟩ := kinds owner present
    refine ⟨by simpa [builtins] using child, declared, ?_, builtIn⟩
    show (after.node owner).kind = _
    rw [changed, isFunction]
    rfl
  refine
    { root := ?_
      tree := tree
      linked := linked
      owned := ?_
      resolved := ?_
      builtinsFile_lt := Nat.lt_of_lt_of_le sound.builtinsFile_lt grows
      builtinsFile_not_mem := fun member =>
        sound.builtinsFile_not_mem (oldOwner _ member sound.builtinsFile_lt)
      builtins_apart := ?_
      declares := ?_
      instances := ?_
      nested := nested }
  · obtain ⟨name, statements, isFile⟩ := sound.root
    obtain ⟨changedTo, changed⟩ := kinds program.file sound.tree.present
    refine ⟨name, changedTo, ?_⟩
    show (after.node program.file).kind = _
    rw [changed, isFile]
    rfl
  · intro node member
    rcases added node member with inNodes | ⟨_, _, owns⟩
    · intro symbol declared
      rw [keeps NodeKind.symbol? NodeKind.symbol?_withStatements node (inTree node inNodes)] at declared
      exact owner _ _ (sound.owned node inNodes symbol declared)
    · exact owns
  · intro node member symbol used
    obtain ⟨inNodes, original⟩ := oldUses node member symbol used
    obtain ⟨found, bound, within⟩ := sound.resolved node inNodes symbol original
    refine ⟨found, owner _ _ bound, ?_⟩
    rcases within with foundMember | isBuiltin
    · exact .inl (kept found foundMember)
    · exact .inr (builtinOwner found isBuiltin)
  · intro node child
    rw [show after.children program.builtinsFile = _ from builtins] at child
    obtain ⟨present, outside⟩ := sound.builtins_apart node child
    exact ⟨Nat.lt_of_lt_of_le present grows, fun member => outside (oldOwner node member present)⟩
  · intro node member symbol used found foundMember bound
    obtain ⟨inNodes, original⟩ := oldUses node member symbol used
    obtain ⟨previous, previousBound, within⟩ := sound.resolved node inNodes symbol original
    have same : found = previous := Option.some.inj (bound.symm.trans (owner _ _ previousBound))
    subst same
    -- The owner was old, so it is a node of the old tree.
    have present : found < program.arena.nodeCount := by
      rcases within with foundMember | isBuiltin
      · exact inTree found foundMember
      · exact (sound.builtins_apart found isBuiltin.1).1
    have foundOld := oldOwner found foundMember present
    show (after.node found).kind.symbol? = _
    rw [keeps NodeKind.symbol? NodeKind.symbol?_withStatements found present]
    exact sound.declares node inNodes symbol original found foundOld previousBound
  · intro node member symbol instantiated found bound
    obtain ⟨inNodes, original⟩ := oldUses node member symbol
      (NodeKind.instances_subset_uses _ instantiated)
    have instances : symbol ∈ (program.arena.node node).kind.instances := by
      rwa [keeps NodeKind.instances NodeKind.instances_withStatements node (inTree node inNodes)] at instantiated
    obtain ⟨previous, previousBound, _⟩ := sound.resolved node inNodes symbol original
    have same : found = previous := Option.some.inj (bound.symm.trans (owner _ _ previousBound))
    subst same
    have isClass := sound.instances node inNodes symbol instances found previousBound
    have present : found < program.arena.nodeCount :=
      program.arena.lt_nodeCount_of_kind rfl fun name statements isFile => by simp [isFile, NodeKind.isClass] at isClass
    show (after.node found).kind.isClass
    rwa [keeps NodeKind.isClass NodeKind.isClass_withStatements found present]

end ScriptLowering.Mir

namespace ScriptLowering.Lowering

open Mir Arena

theorem Rewrite.mapM_walk_of_forall {σ : Type} {rewrite : Rewrite σ} {fuel : Nat} {start : Arena × σ} :
    ∀ ids : List Nat, (∀ id ∈ ids, (rewrite.walk fuel id).run start = .ok (id, start)) →
      (ids.mapM (rewrite.walk fuel)).run start = .ok (ids, start)
  | [], _ => rfl
  | id :: rest, walks => by
    rw [List.mapM_cons, run_bind_of_ok (walks id List.mem_cons_self),
      run_bind_of_ok (mapM_walk_of_forall rest fun other later => walks other (List.mem_cons_of_mem _ later))]
    rfl

/-- Below the files and classes, wrapping initializers gives every node back what it held, whatever
the fuel. -/
theorem initializerWrapper_walk_of_notContainer : ∀ (fuel : Nat) (arena : Arena) (id : Nat) (sub : List Nat),
    arena.Tree id sub → (∀ node ∈ sub, (arena.node node).kind.isClassContainer = false) →
    (initializerWrapper.walk fuel id).run (arena, ()) = .ok (id, (arena, ()))
  | 0, _, _, _, _, _ => rfl
  | fuel + 1, arena, id, _, @Arena.Tree.node _ _ below present children fresh, notContainer => by
    have walksIn : ∀ current : Arena, current.Forest (arena.children id) below →
        (∀ node ∈ below, (current.node node).kind.isClassContainer = false) →
        ∀ child ∈ arena.children id,
          (initializerWrapper.walk fuel child).run (current, ()) = .ok (child, (current, ())) := by
      intro current forest belowNot child member
      obtain ⟨sub, tree, within⟩ := forest.exists_tree member
      exact initializerWrapper_walk_of_notContainer fuel current child sub tree fun node inSub =>
        belowNot node (within node inSub)
    have belowNot : ∀ node ∈ below, (arena.node node).kind.isClassContainer = false :=
      fun node member => notContainer node (List.mem_cons_of_mem _ member)
    have idNot := notContainer id List.mem_cons_self
    cases kind : (arena.node id).kind with
    | file name statements =>
      rw [kind] at idNot
      cases idNot
    | classDef symbol name statements origin =>
      rw [kind] at idNot
      cases idNot
    | body statements =>
      -- The body gives its statements up, gets them back unchanged, and is as it was.
      have holds : (arena.node id).kind.holdsStatements = true := by rw [kind]; rfl
      let cleared := arena.setKind id ((arena.node id).kind.withStatements [])
      have clearedForest : cleared.Forest (arena.children id) below :=
        (arena.edits_setKind id _).forest children fun node member touched =>
          fresh (List.mem_singleton.mp touched ▸ member)
      have clearedNot : ∀ node ∈ below, (cleared.node node).kind.isClassContainer = false :=
        fun node member => by
          rw [arena.node_setKind_ne _ fun same : node = id => fresh (same ▸ member)]
          exact belowNot node member
      have clearedHolds : (cleared.node id).kind.holdsStatements = true := by
        simp [cleared, arena.node_setKind_self _ present, holds]
      have back : cleared.setKind id ((cleared.node id).kind.withStatements (arena.children id)) = arena := by
        simp [cleared, arena.node_setKind_self _ present, Arena.children]
      rw [Rewrite.walk_run_of_body _ _ _ _ _ kind, Rewrite.walkStatements_run _ _ _ _ _ holds,
        run_bind_of_ok (putStatements_run arena () holds []),
        run_bind_of_ok (Rewrite.mapM_walk_of_forall _ (walksIn cleared clearedForest clearedNot)),
        run_bind_of_ok (putStatements_run cleared () clearedHolds _), back]
      rfl
    | function declared =>
      have childrenIds : arena.children id = declared.parameters ++ [declared.body] := by
        rw [Arena.children, kind]
        rfl
      have walks := walksIn arena children belowNot
      rw [childrenIds] at walks
      have back : arena.setKind id (.function { declared with
          parameters := declared.parameters, body := declared.body }) = arena := by
        rw [← kind]
        exact arena.setKind_node_kind id
      rw [Rewrite.walk_run_of_function _ _ _ _ _ kind, Rewrite.walkFunction,
        run_bind_of_ok (Rewrite.mapM_walk_of_forall _ fun parameter member =>
          walks parameter (List.mem_append_left _ member)),
        run_bind_of_ok (walks declared.body (List.mem_append_right _ (List.mem_singleton_self _))),
        Rewrite.finishFunction_run _ _ _ _ kind, back]
      rfl
    | parameter symbol name => exact Rewrite.walk_run_of_parameter _ _ _ _ _ kind
    | «variable» symbol name value =>
      have same : NodeKind.variable symbol name (value.map initializerWrapper.expression) = (arena.node id).kind := by
        rw [kind]
        simp [initializerWrapper]
      rw [Rewrite.walk_run_of_variable _ _ _ _ _ kind, same, arena.setKind_node_kind]
    | expression value =>
      have same : NodeKind.expression (initializerWrapper.expression value) = (arena.node id).kind := by
        rw [kind]
        rfl
      rw [Rewrite.walk_run_of_expression _ _ _ _ _ kind, same, arena.setKind_node_kind]

theorem lift_ok_run {σ α : Type} (value : α) (start : Arena × σ) :
    (StateT.lift (Except.ok value) : PassM σ α).run start = .ok (value, start) := rfl

/-- Hoisting clears the container's statements and then puts back its declarations, after them a new
initializer over its loose statements if it has any. -/
theorem hoistLoose_run_eq {arena : Arena} {container : Nat}
    (holds : (arena.node container).kind.holdsStatements = true) :
    (hoistLoose container).run (arena, ()) =
      (putStatements container [] >>= fun _ =>
        if (arena.looseOf container).isEmpty = true then
          putStatements container (arena.declarationsOf container)
        else do
          let body ← addNode (.body (arena.looseOf container)) .synthetic
          let symbol ← addSymbol .function
          let initializer ← addNode (.function
            { symbol, name := initializerName, parameters := [], body, native := true, static := true,
              origin := .classInitializer }) .synthetic
          bindTo symbol initializer
          changeArena (·.patchParents initializer (some container))
          putStatements container (arena.declarationsOf container ++ [initializer]) :
        PassM Unit Unit).run (arena, ()) := by
  rw [hoistLoose, run_bind_of_ok (currentArena_run arena ())]
  simp only [arena.statements_eq_ok holds, liftM, monadLift, MonadLift.monadLift]
  rw [run_bind_of_ok (lift_ok_run _ _)]
  rfl

/-- A file or class holding declarations only is left as it was. -/
theorem hoistLoose_run_of_declarations {arena : Arena} {container : Nat} (present : container < arena.nodeCount)
    (holds : (arena.node container).kind.holdsStatements = true)
    (declarations : ∀ child ∈ arena.children container, (arena.node child).kind.isDeclaration = true) :
    (hoistLoose container).run (arena, ()) = .ok ((), (arena, ())) := by
  have allDeclarations : arena.declarationsOf container = arena.children container :=
    List.filter_eq_self.mpr declarations
  have noLoose : arena.looseOf container = [] :=
    List.filter_eq_nil_iff.mpr fun statement member => by simp [declarations statement member]
  let cleared := arena.setKind container ((arena.node container).kind.withStatements [])
  have clearedHolds : (cleared.node container).kind.holdsStatements = true := by
    simp [cleared, arena.node_setKind_self _ present, holds]
  have back : cleared.setKind container ((cleared.node container).kind.withStatements (arena.children container)) =
      arena := by
    simp [cleared, arena.node_setKind_self _ present, Arena.children]
  rw [hoistLoose_run_eq holds, run_bind_of_ok (putStatements_run arena () holds [])]
  simp only [noLoose, allDeclarations, List.isEmpty_nil, if_true]
  rw [putStatements_run cleared () clearedHolds, back]

/-- Hoisting at a file or class with a loose statement regroups it alone (`Arena.Wraps`): its
declarations, then a new initializer over a new body over the loose statements, whose links that
named the container are turned to the initializer. -/
theorem hoistLoose_run_of_loose {arena : Arena} {container : Nat} {below : List Nat} {above : Option Nat}
    (isContainer : (arena.node container).kind.isClassContainer = true)
    (tree : arena.Tree container (container :: below)) (linked : arena.Linked container above)
    (holdsLoose : arena.hasLoose container = true) :
    ∃ hoisted, (hoistLoose container).run (arena, ()) = .ok ((), (hoisted, ())) ∧
      arena.Initialized hoisted [container] := by
  have holds := NodeKind.isClassContainer_holds _ isContainer
  obtain ⟨present, children, fresh⟩ : container < arena.nodeCount ∧
      arena.Forest (arena.children container) below ∧ container ∉ below := by
    cases tree with
    | node present children fresh => exact ⟨present, children, fresh⟩
  have noLoose : ¬ (arena.looseOf container).isEmpty = true := by
    simpa [hasLoose, isContainer] using holdsLoose
  -- The subtrees of the loose statements.
  obtain ⟨dsub, lsub, -, looseForest, perm⟩ := children.filter fun statement => (arena.node statement).kind.isDeclaration
  have lsubBelow : ∀ node ∈ lsub, node ∈ below := fun node member => perm.subset (List.mem_append_right _ member)
  have belowPresent : ∀ node ∈ below, node < arena.nodeCount := fun node member =>
    tree.lt_nodeCount node (List.mem_cons_of_mem _ member)
  -- The arenas the steps go through.
  let loose := arena.looseOf container
  let cleared := arena.setKind container ((arena.node container).kind.withStatements [])
  have clearedNode : cleared.node container =
      { arena.node container with kind := (arena.node container).kind.withStatements [] } :=
    arena.node_setKind_self _ present
  let withBody := (cleared.push (.body loose) .synthetic).1
  let withSymbol := (withBody.newSymbol .function).1
  let declaredInit : Function :=
    { symbol := withBody.symbolCount, name := initializerName, parameters := [],
      body := cleared.nodeCount, native := true, static := true, origin := .classInitializer }
  let withInit := (withSymbol.push (.function declaredInit) .synthetic).1
  have unbound : (withInit.symbol withBody.symbolCount).owner = none := by
    simp [withInit, withSymbol, symbol_newSymbol]
  let bound : Arena :=
    { withInit with
      symbols := withInit.symbols.modify withBody.symbolCount ({ · with owner := some withSymbol.nodeCount }) }
  have binds : withInit.bind withBody.symbolCount withSymbol.nodeCount = .ok bound :=
    withInit.bind_of_unbound _ unbound
  let relinked := bound.patchParents withSymbol.nodeCount (some container)
  have relinks : bound.Relinks relinked := bound.relinks_patchParents _ _
  have bodyIs : cleared.nodeCount = arena.nodeCount := by simp [cleared]
  have initializerIs : withSymbol.nodeCount = arena.nodeCount + 1 := by simp [withSymbol, withBody, cleared]
  -- The nodes of the new subtree: the initializer over the body over the loose statements.
  have clearedLoose : cleared.Forest loose lsub :=
    (arena.edits_setKind container _).forest looseForest fun node member touched =>
      fresh (List.mem_singleton.mp touched ▸ lsubBelow node member)
  have bodyTree : withBody.Tree cleared.nodeCount (cleared.nodeCount :: lsub) :=
    cleared.tree_push (.body loose) .synthetic clearedLoose
  have initTree : withInit.Tree withSymbol.nodeCount (withSymbol.nodeCount :: cleared.nodeCount :: lsub) :=
    withSymbol.tree_push (.function declaredInit) .synthetic
      (Forest.single ((withBody.keeps_newSymbol .function).tree bodyTree))
  have boundTree := (withInit.keeps_bind binds).tree initTree
  obtain ⟨initLinked, outsideInit⟩ :=
    linkBelow_linked bound.nodeCount bound _ _ (some container) boundTree boundTree.length_le
  -- What each step touches.
  have toBound : cleared.Edits bound [] :=
    (((cleared.edits_push _ _).trans (withBody.edits_newSymbol _)).trans (withSymbol.edits_push _ _)).bind_fresh
      (by simp [withBody]) binds
  have toRelinked : bound.Edits relinked (withSymbol.nodeCount :: cleared.nodeCount :: lsub) :=
    bound.edits_linkBelow (some container) boundTree boundTree.length_le
  have outsideNew : container ∉ withSymbol.nodeCount :: cleared.nodeCount :: lsub := by
    rw [initializerIs, bodyIs]
    intro member
    rcases List.mem_cons.mp member with same | member
    · omega
    rcases List.mem_cons.mp member with same | inLoose
    · omega
    · exact fresh (lsubBelow _ inLoose)
  have relinkedContainer : relinked.node container =
      { arena.node container with kind := (arena.node container).kind.withStatements [] } :=
    (outsideInit container outsideNew).trans
      ((toBound.node container (by simpa [cleared] using present) List.not_mem_nil).trans clearedNode)
  have relinkedHolds : (relinked.node container).kind.holdsStatements = true := by
    simp [relinkedContainer, holds]
  let hoisted := relinked.setKind container
    ((relinked.node container).kind.withStatements (arena.declarationsOf container ++ [withSymbol.nodeCount]))
  have run : (hoistLoose container).run (arena, ()) = .ok ((), (hoisted, ())) := by
    rw [hoistLoose_run_eq holds, run_bind_of_ok (putStatements_run arena () holds []), if_neg noLoose,
      run_bind_of_ok (addNode_run cleared () _ _), run_bind_of_ok (addSymbol_run withBody () _),
      run_bind_of_ok (addNode_run withSymbol () _ _), run_bind_of_ok (bindTo_run withInit () _ unbound),
      run_bind_of_ok (changeArena_run bound () _), putStatements_run relinked () relinkedHolds]
  have toHoisted : relinked.Edits hoisted [container] := relinked.edits_setKind container _
  have presentRelinked : container < relinked.nodeCount :=
    Nat.lt_of_lt_of_le present (Nat.le_trans (by simp [cleared]) (toBound.trans toRelinked).nodeCount_le)
  have countHoisted : hoisted.nodeCount = arena.nodeCount + 2 := by
    rw [show hoisted.nodeCount = relinked.nodeCount by simp [hoisted], relinks.nodeCount,
      show bound.nodeCount = withInit.nodeCount from rfl, nodeCount_push, initializerIs]
  have countSymbols : hoisted.symbolCount = arena.symbolCount + 1 := by
    show relinked.symbols.size = arena.symbols.size + 1
    rw [relinks.symbols]
    simp [bound, withInit, withSymbol, withBody, cleared, Arena.push, Arena.newSymbol, Arena.setKind,
      Arena.modifyNode]
  have containerTracks : (arena.node container).kind.tracksParent = true := by
    revert isContainer
    cases (arena.node container).kind <;> simp [NodeKind.isClassContainer, NodeKind.tracksParent]
  -- The old nodes outside the container and the loose subtrees are untouched.
  have fine : arena.Edits hoisted (container :: lsub) :=
    ((((arena.edits_setKind container _).trans toBound).trans toRelinked).trans toHoisted).widen
      fun node member old => by
        rw [initializerIs, bodyIs] at member
        simp only [List.append_nil, List.singleton_append, List.mem_append, List.mem_cons,
          List.not_mem_nil, or_false] at member
        rcases member with (same | same | same | inLoose) | same
        · exact same ▸ List.mem_cons_self
        · omega
        · omega
        · exact List.mem_cons_of_mem _ inLoose
        · exact same ▸ List.mem_cons_self
  -- Where each node went. Before, the loose statements were linked below the container; now, below
  -- the initializer.
  have looseIff : ∀ node, arena.Loose container node ↔ node ∈ lsub :=
    (looseForest : arena.Forest (arena.looseOf container) lsub).loose_iff
  have boundOld : ∀ node ∈ lsub, bound.node node = arena.node node := by
    intro node member
    have different : node ≠ container := fun same => fresh (same ▸ lsubBelow node member)
    rw [toBound.node node (by simpa [cleared] using belowPresent node (lsubBelow node member)) List.not_mem_nil,
      arena.node_setKind_ne _ different]
  have boundBody : bound.node cleared.nodeCount = { kind := .body loose, span := .synthetic } := by
    show (withSymbol.push _ _).1.node cleared.nodeCount = _
    rw [node_push, if_neg (by omega)]
    show (cleared.push _ _).1.node cleared.nodeCount = _
    rw [node_push, if_pos rfl]
  have containerLinks : ∀ statement ∈ arena.children container, arena.Linked statement (some container) := by
    cases linked with
    | node _ childrenLinked =>
      intro statement member
      have statementLinked := childrenLinked statement member
      rwa [passedLink, if_pos containerTracks] at statementLinked
  have initRelinkedLinked : relinked.Linked withSymbol.nodeCount (some container) := initLinked
  have initRelinked : (relinked.node withSymbol.nodeCount).kind = .function declaredInit := by
    rw [relinks.kind]
    exact (withInit.keeps_bind binds).pushed.1
  have looseLinked : ∀ statement ∈ loose, relinked.Linked statement (some withSymbol.nodeCount) := by
    have bodyRelinked : (relinked.node cleared.nodeCount).kind = .body loose := by
      rw [relinks.kind, boundBody]
    cases initRelinkedLinked with
    | node _ initChildren =>
      have bodyLinked := initChildren cleared.nodeCount (by
        simp [Arena.children, initRelinked, NodeKind.children, declaredInit])
      rw [passedLink, initRelinked,
        if_pos (show (NodeKind.function declaredInit).tracksParent = true from rfl)] at bodyLinked
      cases bodyLinked with
      | node _ bodyChildren =>
        intro statement member
        have statementLinked := bodyChildren statement (by rw [Arena.children, bodyRelinked]; exact member)
        simpa [passedLink, bodyRelinked, NodeKind.tracksParent] using statementLinked
  -- Relinking turned exactly the links that named the container.
  have moved : ∀ node, arena.Loose container node → hoisted.node node =
      if (arena.node node).kind.tracksParent = true ∧ (arena.node node).parent = some container then
        { arena.node node with parent := some withSymbol.nodeCount } else arena.node node := by
    intro node loose
    obtain ⟨statement, isLoose, sub, subTree, inSub⟩ := loose
    obtain ⟨found, foundTree, within⟩ := looseForest.exists_tree isLoose
    rw [subTree.unique foundTree] at inSub
    have inLsub := within node inSub
    have different : node ≠ container := fun same => fresh (same ▸ lsubBelow node inLsub)
    rw [relinked.node_setKind_ne _ different]
    cases tracks : (arena.node node).kind.tracksParent
    · have unlinked : relinked.node node = bound.node node :=
        node_linkBelow_of_not_tracks _ _ _ _ (by rw [boundOld node inLsub]; exact tracks)
      rw [if_neg (by simp), unlinked, boundOld node inLsub]
    · have kinds : ∀ other ∈ found, (relinked.node other).kind = (arena.node other).kind := fun other inFound => by
        rw [relinks.kind, boundOld other (within other inFound)]
      rw [relinks.node_eq, boundOld node inLsub]
      rcases (containerLinks statement (List.mem_filter.mp isLoose).1).parent_agree foundTree
          (looseLinked statement isLoose) kinds node inSub tracks with
        ⟨link, inFoundLink, named, relinkedNamed⟩ | ⟨named, relinkedNamed⟩
      · -- The link names a node below the container, so not the container.
        have notContainer : (arena.node node).parent ≠ some container := fun same =>
          fresh (Option.some.inj (named.symm.trans same) ▸ lsubBelow link (within link inFoundLink))
        rw [if_neg fun holds => notContainer holds.2, relinkedNamed, ← named]
      · rw [if_pos ⟨rfl, named⟩, relinkedNamed]
  -- The new nodes and symbol.
  have initNode : hoisted.node withSymbol.nodeCount =
      { kind := .function declaredInit, span := .synthetic, parent := some container } := by
    rw [relinked.node_setKind_ne _ (by omega), relinks.node_eq]
    have tracks : (relinked.node withSymbol.nodeCount).kind.tracksParent = true := by rw [initRelinked]; rfl
    cases initRelinkedLinked with
    | node parent _ =>
      rw [parent tracks]
      show { (withSymbol.push _ _).1.node withSymbol.nodeCount with parent := some container } = _
      rw [node_push, if_pos rfl]
  have bodyNode : hoisted.node cleared.nodeCount = { kind := .body loose, span := .synthetic } := by
    have unlinked : relinked.node cleared.nodeCount = bound.node cleared.nodeCount :=
      node_linkBelow_of_not_tracks _ _ _ _ (by rw [boundBody]; rfl)
    rw [relinked.node_setKind_ne _ (by omega), unlinked, boundBody]
  have initSymbol : hoisted.symbol withBody.symbolCount =
      { kind := .function, owner := some withSymbol.nodeCount } := by
    show relinked.symbol withBody.symbolCount = _
    rw [show relinked.symbol withBody.symbolCount = bound.symbol withBody.symbolCount by
        simp [Arena.symbol, relinks.symbols],
      symbol_modify_owner _ _ _ _ (by simp [withInit, withSymbol]), if_pos rfl]
    show { (withBody.newSymbol _).1.symbol withBody.symbolCount with owner := some withSymbol.nodeCount } = _
    rw [symbol_newSymbol, if_pos rfl]
  have holdsNew : hoisted.node container = { arena.node container with
      kind := (arena.node container).kind.withStatements (arena.declarationsOf container ++ [withSymbol.nodeCount]) } := by
    rw [relinked.node_setKind_self _ presentRelinked, relinkedContainer, NodeKind.withStatements_withStatements]
  refine ⟨hoisted, run, by simp [countHoisted], by simp [countSymbols], fine.symbol, fun wrapped member => ?_,
    fun node present apart => fine.node node present fun touched => ?_⟩
  · rw [List.mem_singleton.mp member]
    exact ⟨withSymbol.nodeCount, present, holdsNew, ⟨by omega, by omega⟩,
      ⟨withBody.symbolCount, cleared.nodeCount, by simp [withBody, cleared], by simp [countSymbols, withBody, cleared],
        by omega, by omega, initNode, bodyNode, initSymbol⟩, moved⟩
  · obtain ⟨different, notLoose⟩ := apart container (List.mem_singleton_self _)
    rcases List.mem_cons.mp touched with same | inLoose
    · exact different same
    · exact notLoose ((looseIff node).mpr inLoose)

/-- Hoisting the loose statements of a file or class keeps its subtree a tree, rightly linked, with
files and classes on top: the declarations stay, and all that is new is an initializer holding the
loose statements in its body, if there are any (`Arena.Wraps`). The files and classes below it are
among its old declarations, whose subtrees hoisting left as they were. -/
theorem hoistLoose_run {arena : Arena} {container : Nat} {below : List Nat} {above : Option Nat}
    (isContainer : (arena.node container).kind.isClassContainer = true)
    (tree : arena.Tree container (container :: below)) (linked : arena.Linked container above)
    (nested : arena.Nested (container :: below)) :
    ∃ hoisted grown, (hoistLoose container).run (arena, ()) = .ok ((), (hoisted, ())) ∧
      hoisted.Tree container (container :: grown) ∧ hoisted.Linked container above ∧
      hoisted.Nested (container :: grown) ∧ arena.Hoisted hoisted (container :: below) (container :: grown) ∧
      (∀ child ∈ hoisted.children container, (hoisted.node child).kind.isDeclaration = true) ∧
      arena.Regrouped hoisted [container] ∧
      (∀ node < arena.nodeCount, node ≠ container → (hoisted.node node).kind = (arena.node node).kind) ∧
      (arena.Flat (container :: below) → hoisted.Flat (container :: grown)) ∧
      arena.Initialized hoisted ([container].filter arena.hasLoose) ∧
      (∀ node ∈ grown, hoisted.hasLoose node = true → ∃ sub, arena.Tree node sub ∧
        ∀ other ∈ sub, other ∈ below ∧ ¬ arena.Loose container other ∧ hoisted.node other = arena.node other) ∧
      (grown.filter hoisted.hasLoose).Perm (below.filter arena.hasLoose) ∧
      ∀ child ∈ hoisted.children container, (hoisted.node child).kind.isClassContainer = true →
        ∀ sub, hoisted.Tree child sub → sub.length ≤ below.length := by
  obtain ⟨present, children⟩ : container < arena.nodeCount ∧ arena.Forest (arena.children container) below := by
    cases tree with
    | node present children _ => exact ⟨present, children⟩
  by_cases holdsLoose : arena.hasLoose container = true
  · -- The loose statements move into the body of a new initializer, appended after the declarations.
    obtain ⟨dsub, lsub, declarations, looseForest, perm⟩ :=
      children.filter fun statement => (arena.node statement).kind.isDeclaration
    obtain ⟨hoisted, run, initialized⟩ := hoistLoose_run_of_loose isContainer tree linked holdsLoose
    obtain ⟨initializer, wraps⟩ := initialized.wraps container (List.mem_singleton_self _)
    obtain ⟨body, bodyNew, bodyLt, bodyApart, initChildren, bodyNode⟩ := wraps.initializer_body
    refine ⟨hoisted, dsub ++ initializer :: body :: lsub, run,
      wraps.tree initialized isContainer tree declarations looseForest perm bodyNew bodyLt bodyApart initChildren
        bodyNode,
      wraps.linked initialized isContainer tree declarations looseForest perm initChildren bodyNode linked,
      wraps.nested initialized isContainer tree looseForest perm initChildren bodyNode nested,
      wraps.hoists initialized tree perm bodyNew bodyLt bodyNode, wraps.children_declare initialized isContainer tree,
      wraps.regrouped isContainer holdsLoose,
      fun node present different => initialized.kind_eq present fun member => different (List.mem_singleton.mp member),
      wraps.flat initialized isContainer tree perm initChildren bodyNode, ?_,
      wraps.loose_below initialized tree declarations looseForest perm bodyNode nested,
      wraps.loose_perm initialized tree declarations looseForest perm bodyNode nested,
      wraps.children_fit initialized isContainer tree declarations looseForest perm⟩
    rw [List.filter_singleton, holdsLoose]
    exact initialized
  · -- With no loose statement the container keeps its statements, as they were.
    have noLoose : arena.looseOf container = [] := by
      simpa [hasLoose, isContainer] using holdsLoose
    have allDeclarations : ∀ child ∈ arena.children container, (arena.node child).kind.isDeclaration = true := by
      intro child member
      simpa using List.filter_eq_nil_iff.mp noLoose child member
    have holds := NodeKind.isClassContainer_holds _ isContainer
    refine ⟨arena, below, hoistLoose_run_of_declarations present holds allDeclarations, tree, linked, nested,
      .refl arena fun node member => tree.lt_nodeCount node member, allDeclarations,
      fun node member _ => ⟨[], ?_, .inl rfl, fun _ => rfl⟩, fun _ _ _ => rfl, id, ?_,
      fun node member _ => ?_, .refl _, fun child isChild _ sub childTree => ?_⟩
    · rw [List.mem_singleton.mp member, List.append_nil]
      exact (List.filter_eq_self.mpr allDeclarations).symm
    · rw [List.filter_singleton, Bool.eq_false_iff.mpr holdsLoose]
      exact .refl arena
    · -- No node lies below a loose statement.
      obtain ⟨sub, subTree, within⟩ := children.exists_subtree member
      refine ⟨sub, subTree, fun other inSub => ⟨within.subset inSub, ?_, rfl⟩⟩
      rintro ⟨statement, isLoose, -⟩
      rw [noLoose] at isLoose
      exact List.not_mem_nil isLoose
    · obtain ⟨found, foundTree, within⟩ := children.exists_tree isChild
      rw [childTree.unique foundTree]
      exact (foundTree.nodup.subperm fun node inFound => within node inFound).length_le

/-- Wrapping initializers in the trees of a forest one after another, given the walk of each. -/
theorem mapM_initializerWrapper_walk {fuel : Nat}
    (walks : ∀ (arena : Arena) (id : Nat) (sub : List Nat) (above : Option Nat), arena.Tree id sub →
      ((arena.node id).kind.isClassContainer = true → sub.length ≤ fuel) → arena.Linked id above →
      arena.Nested sub → ∃ after grown, (initializerWrapper.walk fuel id).run (arena, ()) = .ok (id, (after, ())) ∧
        after.Tree id grown ∧ after.Linked id above ∧ after.Nested grown ∧ arena.Hoisted after sub grown ∧
        after.Declarative grown ∧ (arena.Flat sub → after.Flat grown) ∧ arena.Regrouped after sub ∧
        arena.Initialized after (sub.filter arena.hasLoose))
    (above : Option Nat) :
    ∀ (ids : List Nat) (arena : Arena) (nodes : List Nat), arena.Forest ids nodes →
      (∀ id ∈ ids, (arena.node id).kind.isClassContainer = true → ∀ sub, arena.Tree id sub → sub.length ≤ fuel) →
      (∀ id ∈ ids, arena.Linked id above) → arena.Nested nodes →
      ∃ after grown, (ids.mapM (initializerWrapper.walk fuel)).run (arena, ()) = .ok (ids, (after, ())) ∧
        after.Forest ids grown ∧ (∀ id ∈ ids, after.Linked id above) ∧ after.Nested grown ∧
        arena.Hoisted after nodes grown ∧ after.Declarative grown ∧ (arena.Flat nodes → after.Flat grown) ∧
        arena.Regrouped after nodes ∧ arena.Initialized after (nodes.filter arena.hasLoose)
  | [], arena, _, .nil, _, _, _ =>
    ⟨arena, [], rfl, .nil, fun _ member => (absurd member List.not_mem_nil), fun _ member => (absurd member List.not_mem_nil),
      .refl arena fun _ member => (absurd member List.not_mem_nil), fun _ member => (absurd member List.not_mem_nil),
      id, fun _ member => (absurd member List.not_mem_nil), .refl arena⟩
  | id :: rest, arena, _, @Arena.Forest.cons _ _ _ first others tree forest apart, fits, linked, nested => by
    obtain ⟨middle, grownFirst, ran, firstTree, firstLinked, firstNested, firstHoisted, firstDeclarative, firstFlat,
      firstRegrouped, firstInitialized⟩ :=
      walks arena id first above tree (fun isContainer => fits id List.mem_cons_self isContainer first tree)
        (linked id List.mem_cons_self) (nested.mono fun node inFirst => List.mem_append_left _ inFirst)
    have othersOld : ∀ node ∈ others, node < arena.nodeCount := forest.lt_nodeCount
    have othersApart : ∀ node ∈ others, node ∉ first := fun node inOthers inFirst => apart node inFirst inOthers
    -- The later trees are untouched by the first walk.
    have restForest : middle.Forest rest others := firstHoisted.edits.forest forest othersApart
    obtain ⟨after, grownRest, restRan, restForestAfter, restLinked, restNested, restHoisted, restDeclarative, restFlat,
      restRegrouped, restInitialized⟩ :=
      mapM_initializerWrapper_walk walks above rest middle others restForest
        (forest.fits firstHoisted.edits othersApart fun other later => fits other (List.mem_cons_of_mem _ later))
        (fun other later => firstHoisted.edits.linked (linked other (List.mem_cons_of_mem _ later))
          (forest.exists_tree later).choose_spec.1 fun node inSub =>
            othersApart node ((forest.exists_tree later).choose_spec.2 node inSub))
        (firstHoisted.edits.nested othersOld (fun node member child isChild => forest.child_mem member isChild)
          othersApart (nested.mono fun node inOthers => List.mem_append_right _ inOthers))
    -- What the first walk grew is apart from the later trees and from what they grew.
    have grownApart : ∀ node ∈ grownFirst, node ∉ others := firstHoisted.apart apart othersOld
    have grownLt : ∀ node ∈ grownFirst, node < middle.nodeCount := fun node member =>
      firstHoisted.lt_nodeCount member
    have grownRestApart : ∀ node ∈ grownFirst, node ∉ grownRest := by
      intro node member inRest
      rcases restHoisted.added node inRest with inOthers | ⟨newer, _⟩
      · exact grownApart node member inOthers
      · have := grownLt node member
        omega
    refine ⟨after, grownFirst ++ grownRest, ?_, .cons (restHoisted.edits.tree firstTree grownApart) restForestAfter
      grownRestApart, ?_, ?_, firstHoisted.append restHoisted othersOld, ?_, fun flat => ?_, ?_, ?_⟩
    · rw [List.mapM_cons, run_bind_of_ok ran, run_bind_of_ok restRan]
      rfl
    · intro other member
      rcases List.mem_cons.mp member with rfl | later
      · exact restHoisted.edits.linked firstLinked firstTree grownApart
      · exact restLinked other later
    · intro node member
      rcases List.mem_append.mp member with inFirst | inRest
      · exact restHoisted.edits.nested grownLt (fun node member child isChild => List.mem_of_mem_tail
          (firstTree.child_mem member isChild)) grownApart firstNested node inFirst
      · exact restNested node inRest
    · intro node member
      rcases List.mem_append.mp member with inFirst | inRest
      · exact restHoisted.edits.declarative grownLt (fun node member child isChild => List.mem_of_mem_tail
          (firstTree.child_mem member isChild)) grownApart firstDeclarative node inFirst
      · exact restDeclarative node inRest
    · -- The first tree's nodes, untouched by the later walks, and the later trees' nodes.
      have firstGrownFlat := firstFlat fun node member => flat node (List.mem_append_left _ member)
      have restGrownFlat := restFlat ((firstHoisted.edits.flat othersOld (fun node member child isChild =>
        forest.child_mem member isChild) othersApart) fun node member => flat node (List.mem_append_right _ member))
      intro node member
      rcases List.mem_append.mp member with inFirst | inRest
      · exact restHoisted.edits.flat grownLt (fun node member child isChild => List.mem_of_mem_tail
          (firstTree.child_mem member isChild)) grownApart firstGrownFlat node inFirst
      · exact restGrownFlat node inRest
    · -- The first tree's files and classes are untouched by the later walks, and the later trees'
      -- were untouched by the first.
      have firstOld : ∀ node ∈ first, node < arena.nodeCount := fun node member => tree.lt_nodeCount node member
      have othersSame : ∀ node ∈ others, (middle.node node).kind = (arena.node node).kind := fun node member => by
        rw [firstHoisted.edits.node node (othersOld node member) fun inFirst => apart node inFirst member]
      intro node member
      rcases List.mem_append.mp member with inFirst | inOthers
      · refine firstRegrouped.congr (fun node member => member) (fun _ _ => rfl) (fun _ _ _ _ => rfl) (Nat.le_refl _)
          (fun node member => children_congr ?_) node inFirst
        rw [restHoisted.edits.node node (Nat.lt_of_lt_of_le (firstOld node member) firstHoisted.edits.nodeCount_le)
          (othersApart node · member)]
      · refine (restRegrouped.congr (fun node member => member) (fun node member => (othersSame node member).symm)
          (fun node member child isChild => (othersSame child (forest.child_mem member
            (children_congr (othersSame node member) ▸ isChild))).symm) firstHoisted.edits.nodeCount_le
          (fun _ _ => rfl)) node inOthers
    · -- The later trees were regrouped from where the first walk left them, which is where they were.
      have othersSame : ∀ node ∈ others, middle.node node = arena.node node := fun node member =>
        firstHoisted.edits.node node (othersOld node member) (othersApart node member)
      have sameLoose : others.filter middle.hasLoose = others.filter arena.hasLoose := List.filter_congr fun node member =>
        hasLoose_congr (othersSame node member) fun child isChild => othersSame child (forest.child_mem member isChild)
      rw [sameLoose] at restInitialized
      rw [List.filter_append]
      refine firstInitialized.trans restInitialized (fun node member => ?_)
        (fun container member other otherMember sub subTree => ?_)
      · obtain ⟨sub, subTree, within⟩ := forest.exists_subtree (List.mem_filter.mp member).1
        exact ⟨sub, subTree, fun other inSub => othersSame other (within.subset inSub)⟩
      · obtain ⟨found, foundTree, within⟩ := forest.exists_subtree (List.mem_filter.mp otherMember).1
        obtain ⟨containerSub, containerTree, containerWithin⟩ := tree.exists_subtree (List.mem_filter.mp member).1
        rw [subTree.unique foundTree]
        refine ⟨fun inFound => othersApart container (within.subset inFound) (List.mem_filter.mp member).1,
          fun node loose inFound => apart node ?_ (within.subset inFound)⟩
        exact containerWithin.subset (List.mem_of_mem_tail (loose.mem_tail containerTree))

/-- With fuel for the subtree of each file or class, wrapping initializers hoists the loose
statements of every file and class of a tree and leaves a tree, rightly linked, with files and
classes on top, grown by fresh nodes only. -/
theorem initializerWrapper_walk : ∀ (fuel : Nat) (arena : Arena) (id : Nat) (sub : List Nat) (above : Option Nat),
    arena.Tree id sub → ((arena.node id).kind.isClassContainer = true → sub.length ≤ fuel) →
    arena.Linked id above → arena.Nested sub →
    ∃ after grown, (initializerWrapper.walk fuel id).run (arena, ()) = .ok (id, (after, ())) ∧
      after.Tree id grown ∧ after.Linked id above ∧ after.Nested grown ∧ arena.Hoisted after sub grown ∧
      after.Declarative grown ∧ (arena.Flat sub → after.Flat grown) ∧ arena.Regrouped after sub ∧
      arena.Initialized after (sub.filter arena.hasLoose) := by
  intro fuel arena id sub above tree fits linked nested
  by_cases isContainer : (arena.node id).kind.isClassContainer = true
  swap
  · -- Below the files and classes the walk changes nothing.
    have notContainer := tree.notContainer nested (by simpa using isContainer)
    refine ⟨arena, sub, initializerWrapper_walk_of_notContainer fuel arena id sub tree notContainer, tree, linked,
      nested, .refl arena tree.lt_nodeCount, fun node member isContainer => ?_, fun flat => flat,
      fun node member isContainer => ?_, ?_⟩
    · rw [notContainer node member] at isContainer
      cases isContainer
    · rw [notContainer node member] at isContainer
      cases isContainer
    · rw [List.filter_eq_nil_iff.mpr fun node member wraps => by
        rw [hasLoose_of_not_container (notContainer node member)] at wraps
        cases wraps]
      exact .refl arena
  obtain ⟨below, rfl⟩ : ∃ below, sub = id :: below := by
    cases tree with
    | node => exact ⟨_, rfl⟩
  obtain ⟨fuel, rfl⟩ : ∃ less, fuel = less + 1 := ⟨fuel - 1, by have := fits isContainer; simp at this; omega⟩
  have shorter : below.length ≤ fuel := by simpa using fits isContainer
  -- First the loose statements are hoisted, then the statements walked.
  obtain ⟨hoisted, grown, hoisting, hoistedTree, hoistedLinked, hoistedNested, hoistedRelation, childrenDeclare,
    containerRegrouped, othersKind, hoistedFlat, hoistedInitialized, hoistedContainers, hoistedPerm, childrenFit⟩ :=
    hoistLoose_run isContainer tree linked nested
  have holds : (hoisted.node id).kind.holdsStatements = true := by
    obtain ⟨statements, changed⟩ := hoistedRelation.kinds id List.mem_cons_self
    rw [changed, NodeKind.holdsStatements_withStatements]
    exact NodeKind.isClassContainer_holds _ isContainer
  obtain ⟨present, children, fresh⟩ : id < hoisted.nodeCount ∧ hoisted.Forest (hoisted.children id) grown ∧
      id ∉ grown := by
    cases hoistedTree with
    | node present children fresh => exact ⟨present, children, fresh⟩
  have grownPresent : ∀ node ∈ grown, node < hoisted.nodeCount := children.lt_nodeCount
  let cleared := hoisted.setKind id ((hoisted.node id).kind.withStatements [])
  have clearing : hoisted.Edits cleared [id] := hoisted.edits_setKind id _
  have apartFromId : ∀ node ∈ grown, node ∉ [id] := fun node member same =>
    fresh (List.mem_singleton.mp same ▸ member)
  have childrenLinked : ∀ child ∈ hoisted.children id, cleared.Linked child (hoisted.passedLink id above) := by
    intro child member
    cases hoistedLinked with
    | node _ linkedChildren =>
      obtain ⟨sub, subTree, within⟩ := children.exists_tree member
      exact clearing.linked (linkedChildren child member) subTree fun node inSub => apartFromId node (within node inSub)
  obtain ⟨walked, walkedGrown, walking, walkedForest, walkedLinked, walkedNested, walkedRelation, walkedDeclarative,
    walkedFlat, walkedRegrouped, walkedInitialized⟩ :=
    mapM_initializerWrapper_walk (initializerWrapper_walk fuel) (hoisted.passedLink id above) (hoisted.children id)
      cleared grown (clearing.forest children apartFromId)
      (children.fits clearing apartFromId fun child member isChildContainer sub subTree =>
        Nat.le_trans (childrenFit child member isChildContainer sub subTree) shorter)
      childrenLinked
      (clearing.nested grownPresent (fun node member child isChild => children.child_mem member isChild)
        apartFromId (hoistedNested.mono fun node member => List.mem_cons_of_mem _ member))
  -- The container takes its walked statements back.
  have walkedNode : walked.node id = cleared.node id :=
    walkedRelation.edits.node id (by simpa [cleared] using present) fresh
  have clearedNode : cleared.node id = { hoisted.node id with kind := (hoisted.node id).kind.withStatements [] } :=
    hoisted.node_setKind_self _ present
  have walkedHolds : (walked.node id).kind.holdsStatements = true := by
    simp [walkedNode, clearedNode, holds]
  let final := walked.setKind id ((walked.node id).kind.withStatements (hoisted.children id))
  have finalNode : final.node id = hoisted.node id := by
    rw [walked.node_setKind_self _ (Nat.lt_of_lt_of_le (by simpa [cleared] using present)
      walkedRelation.edits.nodeCount_le), walkedNode, clearedNode]
    simp [Arena.children]
  have restoring : walked.Edits final [id] := walked.edits_setKind id _
  have grownWalkedApart : ∀ node ∈ walkedGrown, node ∉ [id] := by
    intro node member same
    rcases walkedRelation.added node member with inGrown | ⟨newer, _⟩
    · exact apartFromId node inGrown same
    · rw [List.mem_singleton.mp same] at newer
      simp [cleared] at newer
      omega
  have walkedPresent : ∀ node ∈ walkedGrown, node < walked.nodeCount := fun node member =>
    walkedRelation.lt_nodeCount member
  have finalPresent : id < final.nodeCount := by
    simpa [final] using Nat.lt_of_lt_of_le (by simpa [cleared] using present) walkedRelation.edits.nodeCount_le
  have finalChildren : final.children id = hoisted.children id := children_congr (by rw [finalNode])
  have idFresh : id ∉ walkedGrown := fun member => grownWalkedApart id member (List.mem_singleton_self id)
  have finalForest : final.Forest (hoisted.children id) walkedGrown := restoring.forest walkedForest grownWalkedApart
  -- The nodes below the container at most changed their statements.
  have grownKind : ∀ node ∈ grown, ∃ statements,
      (final.node node).kind = (hoisted.node node).kind.withStatements statements := by
    intro node member
    have other : node ≠ id := fun same => fresh (same ▸ member)
    obtain ⟨statements, changed⟩ := walkedRelation.kind (by simpa [cleared] using grownPresent node member)
    refine ⟨statements, ?_⟩
    rw [restoring.node node (walkedRelation.lt_nodeCount (walkedRelation.kept node member))
      (by simpa using other), changed, hoisted.node_setKind_ne _ other]
  refine ⟨final, id :: walkedGrown, ?_, .node finalPresent (finalChildren ▸ finalForest) idFresh, ?_, ?_, ?_, ?_,
    fun flat => ?_, ?_, ?_⟩
  · rw [Rewrite.walk_run_of_classContainer _ _ _ _ _ isContainer,
      run_bind_of_ok (show (initializerWrapper.beforeContainer id).run (arena, ()) = _ from hoisting),
      Rewrite.walkStatements_run _ _ _ _ _ holds, run_bind_of_ok (putStatements_run hoisted () holds []),
      run_bind_of_ok walking, run_bind_of_ok (putStatements_run walked () walkedHolds _)]
    rfl
  · cases hoistedLinked with
    | node parent _ =>
      refine .node (fun tracking => ?_) (fun child member => ?_)
      · rw [finalNode] at tracking ⊢
        exact parent tracking
      · rw [finalChildren] at member
        have samePassed : final.passedLink id above = hoisted.passedLink id above :=
          passedLink_congr (by rw [finalNode])
        rw [samePassed]
        obtain ⟨sub, subTree, within⟩ := walkedForest.exists_tree member
        exact restoring.linked (walkedLinked child member) subTree fun node inSub =>
          grownWalkedApart node (within node inSub)
  · intro node member child isChild isContainer
    rcases List.mem_cons.mp member with rfl | inWalked
    · -- A file or class the container holds was one before the walk.
      rw [finalChildren] at isChild
      obtain ⟨statements, changed⟩ := grownKind child (children.root_mem isChild)
      rw [changed, NodeKind.isClassContainer_withStatements] at isContainer
      rw [changed, NodeKind.isClass_withStatements, finalNode]
      exact hoistedNested node List.mem_cons_self child isChild isContainer
    · exact restoring.nested walkedPresent (fun _ inWalked _ isChild => walkedForest.child_mem inWalked isChild)
        grownWalkedApart walkedNested node inWalked child isChild isContainer
  · have inner : hoisted.Hoisted final (id :: grown) (id :: walkedGrown) :=
      { present := fun node member => by
          rcases List.mem_cons.mp member with rfl | inGrown
          · exact present
          · exact grownPresent node inGrown
        edits := ((clearing.trans walkedRelation.edits).trans restoring).widen fun node member _ => by
          simp only [List.mem_append, List.mem_singleton] at member
          rcases member with (rfl | inGrown) | rfl
          · exact List.mem_cons_self
          · exact List.mem_cons_of_mem _ inGrown
          · exact List.mem_cons_self
        kinds := fun node member => by
          rcases List.mem_cons.mp member with rfl | inGrown
          · exact ⟨hoisted.children node, by rw [finalNode]; exact (NodeKind.withStatements_children _).symm⟩
          · exact grownKind node inGrown
        kept := fun node member => by
          rcases List.mem_cons.mp member with rfl | inGrown
          · exact List.mem_cons_self
          · exact List.mem_cons_of_mem _ (walkedRelation.kept node inGrown)
        added := fun node member => by
          rcases List.mem_cons.mp member with rfl | inWalked
          · exact .inl List.mem_cons_self
          · rcases walkedRelation.added node inWalked with inGrown | ⟨newer, fresh⟩
            · exact .inl (List.mem_cons_of_mem _ inGrown)
            · exact .inr ⟨by simpa [cleared] using newer, fresh.edits restoring (grownWalkedApart node inWalked)⟩ }
    exact hoistedRelation.trans inner
  · intro node member isContainer child isChild
    rcases List.mem_cons.mp member with rfl | inWalked
    · -- The container holds the declarations hoisting left it, their kinds kept.
      rw [finalChildren] at isChild
      obtain ⟨statements, changed⟩ := grownKind child (children.root_mem isChild)
      rw [changed, NodeKind.isDeclaration_withStatements]
      exact childrenDeclare child isChild
    · exact restoring.declarative walkedPresent (fun _ inWalked _ isChild => walkedForest.child_mem inWalked isChild)
        grownWalkedApart walkedDeclarative node inWalked isContainer child isChild
  · -- The container is a file or class, and below it the walk kept declarations in place.
    have clearedFlat : cleared.Flat grown :=
      clearing.flat grownPresent (fun node member child isChild => children.child_mem member isChild) apartFromId
        fun node member => hoistedFlat flat node (List.mem_cons_of_mem _ member)
    intro node member child isChild isDeclaration
    rcases List.mem_cons.mp member with rfl | inWalked
    · rw [finalNode, hoistedRelation.kinds node List.mem_cons_self |>.choose_spec,
        NodeKind.isClassContainer_withStatements]
      exact isContainer
    · exact restoring.flat walkedPresent (fun _ inWalked _ isChild => walkedForest.child_mem inWalked isChild)
        grownWalkedApart (walkedFlat clearedFlat) node inWalked child isChild isDeclaration
  · -- The container was regrouped by hoisting; the files and classes below it by the walk, from where
    -- hoisting left them, which is where they were.
    have belowOld : ∀ node ∈ below, node < arena.nodeCount := fun node member =>
      tree.lt_nodeCount node (List.mem_cons_of_mem _ member)
    have belowOther : ∀ node ∈ below, node ≠ id := fun node member same => by
      cases tree with
      | node _ _ notBelow => exact notBelow (same ▸ member)
    have clearedKind : ∀ node ∈ below, (cleared.node node).kind = (arena.node node).kind := fun node member => by
      rw [hoisted.node_setKind_ne _ (belowOther node member), othersKind node (belowOld node member)
        (belowOther node member)]
    have childBelow : ∀ node ∈ below, ∀ child ∈ arena.children node, child ∈ below := fun node member child isChild =>
      tree.child_mem (List.mem_cons_of_mem _ member) isChild
    intro node member
    rcases List.mem_cons.mp member with rfl | inBelow
    · exact containerRegrouped.congr (fun _ member => member) (fun _ _ => rfl) (fun _ _ _ _ => rfl) (Nat.le_refl _)
        (fun node member => by rw [List.mem_singleton.mp member]; exact finalChildren) node (List.mem_singleton_self _)
    · refine walkedRegrouped.congr (fun node member => ?_) (fun node member => (clearedKind node member).symm)
        (fun node member child isChild => (clearedKind child (childBelow node member child
          (by rwa [children_congr (clearedKind node member)] at isChild))).symm)
        (by simpa [cleared] using hoistedRelation.edits.nodeCount_le)
        (fun node member => children_congr ?_) node inBelow
      · obtain inId | inGrown := List.mem_cons.mp (hoistedRelation.kept node (List.mem_cons_of_mem _ member))
        · exact absurd inId (belowOther node member)
        · exact inGrown
      · rw [restoring.node node (Nat.lt_of_lt_of_le ?_ walkedRelation.edits.nodeCount_le)
          (by simpa using belowOther node member)]
        simpa [cleared] using Nat.lt_of_lt_of_le (belowOld node member) hoistedRelation.edits.nodeCount_le
  · -- Hoisting regrouped the container; the walk below it, the files and classes among its
    -- declarations, from an arena that differs from the hoisted one at the container only.
    have idBelow : id ∉ below := by
      cases tree with
      | node _ _ notBelow => exact notBelow
    have clearedLoose : grown.filter cleared.hasLoose = grown.filter hoisted.hasLoose :=
      List.filter_congr fun node member => hasLoose_congr (hoisted.node_setKind_ne _ fun same => fresh (same ▸ member))
        fun child isChild => hoisted.node_setKind_ne _ fun same => fresh (same ▸ children.child_mem member isChild)
    rw [clearedLoose] at walkedInitialized
    have containersIn : ∀ node ∈ grown.filter hoisted.hasLoose, ∃ sub, arena.Tree node sub ∧
        ∀ other ∈ sub, other ∈ below ∧ ¬ arena.Loose id other ∧ hoisted.node other = arena.node other :=
      fun node member => hoistedContainers node (List.mem_filter.mp member).1 (List.mem_filter.mp member).2
    have restored : hoisted.Initialized final (grown.filter hoisted.hasLoose) := by
      refine walkedInitialized.congr_outside (fun node different => hoisted.node_setKind_ne _ different)
        (by simp [cleared]) rfl (fun node different => walked.node_setKind_ne _ different) (by simp [final]) rfl
        finalNode present fun node member => ?_
      obtain ⟨sub, subTree, within⟩ := containersIn node member
      exact ⟨sub, subTree.frame (fun other inSub => by rw [(within other inSub).2.2])
        hoistedRelation.edits.nodeCount_le, fun inSub => idBelow (within id inSub).1⟩
    have whole := hoistedInitialized.trans restored
      (fun node member => by
        obtain ⟨sub, subTree, within⟩ := containersIn node member
        exact ⟨sub, subTree, fun other inSub => (within other inSub).2.2⟩)
      (fun container member other otherMember sub subTree => by
        rw [(List.mem_filter.mp member).1 |> List.mem_singleton.mp]
        obtain ⟨found, foundTree, within⟩ := containersIn other otherMember
        rw [subTree.unique foundTree]
        exact ⟨fun inFound => idBelow (within id inFound).1, fun node loose inFound => (within node inFound).2.1 loose⟩)
    refine whole.perm ?_
    rw [show id :: below = [id] ++ below from rfl, List.filter_append]
    exact hoistedPerm.append_left _

/-- Wrapping initializers never fails on a sound program. It leaves the program sound, with every
file and class of its tree holding declarations only; the old nodes of the tree at most hold other
statements, and the new ones are fresh. -/
theorem wrapInitializers_hoisted {program : Program} {nodes : List Nat} (sound : program.Sound nodes) :
    ∃ after more, wrapInitializers program = .ok { program with arena := after } ∧
      Program.Sound { program with arena := after } more ∧ program.arena.Hoisted after nodes more ∧
      after.Declarative more ∧ (program.arena.Flat nodes → after.Flat more) ∧ program.arena.Regrouped after nodes := by
  obtain ⟨after, grown, walked, tree, linked, nested, hoisted, declarative, flat, regrouped, -⟩ :=
    initializerWrapper_walk program.arena.nodeCount program.arena program.file nodes none sound.tree
      (fun _ => sound.tree.length_le) sound.linked sound.nested
  refine ⟨after, grown, ?_, ?_, hoisted, declarative, flat, regrouped⟩
  · rw [wrapInitializers, Rewrite.run_eq_ok _ walked]
    rfl
  · refine sound.grow tree linked nested hoisted.kept (fun node member => ?_) (fun node present => hoisted.kind present)
      hoisted.edits.symbol hoisted.edits.nodeCount_le ?_
    · rcases hoisted.added node member with inNodes | ⟨newer, fresh⟩
      · exact .inl inNodes
      · exact .inr ⟨newer, fresh.2.1, fresh.2.2.1⟩
    · exact children_congr (by rw [hoisted.edits.node _ sound.builtinsFile_lt sound.builtinsFile_not_mem])

/-- Wrapping initializers never fails on a sound program and leaves it sound. -/
theorem wrapInitializers_sound {program : Program} {nodes : List Nat} (sound : program.Sound nodes) :
    ∃ after more, wrapInitializers program = .ok { program with arena := after } ∧
      Program.Sound { program with arena := after } more := by
  obtain ⟨after, more, wrapped, wrappedSound, -⟩ := wrapInitializers_hoisted sound
  exact ⟨after, more, wrapped, wrappedSound⟩


/-- Wrapping initializers never fails on a program whose nodes below the file form a tree, rightly
linked, with files and classes on top, and regroups exactly the files and classes of that tree that
hold a loose statement: each keeps its declarations, in their order, and then holds a new
initializer whose new body holds the loose statements, in their order, with two new nodes and one
new symbol apiece. Of the nodes below the loose statements, those that keep a parent link and named
the container name the initializer; every other node and every symbol is as it was, the files and
classes without loose statements among them. -/
theorem wrapInitializers_regroups {program : Program} {nodes : List Nat} (tree : program.arena.Tree program.file nodes)
    (linked : program.arena.Linked program.file none) (nested : program.arena.Nested nodes) :
    ∃ after, wrapInitializers program = .ok { program with arena := after } ∧
      program.arena.Initialized after (nodes.filter program.arena.hasLoose) ∧
      ∀ container ∈ nodes, (program.arena.node container).kind.isClassContainer = true →
        program.arena.hasLoose container = false → after.node container = program.arena.node container := by
  obtain ⟨after, grown, walked, -, -, -, -, -, -, -, initialized⟩ :=
    initializerWrapper_walk program.arena.nodeCount program.arena program.file nodes none tree
      (fun _ => tree.length_le) linked nested
  refine ⟨after, ?_, initialized, fun container member isContainer keeps => ?_⟩
  · rw [wrapInitializers, Rewrite.run_eq_ok _ walked]
    rfl
  · -- A file or class without loose statements is not regrouped, and lies below no loose statement.
    refine initialized.node container (tree.lt_nodeCount container member) fun wrapped isWrapped =>
      ⟨?_, fun loose => ?_⟩
    · rintro rfl
      rw [(List.mem_filter.mp isWrapped).2] at keeps
      cases keeps
    · obtain ⟨sub, subTree, within⟩ := tree.exists_subtree (List.mem_filter.mp isWrapped).1
      have notContainer := loose.not_container subTree (nested.mono fun node inSub => within.subset inSub)
      rw [isContainer] at notContainer
      cases notContainer

/-- A file declaring `x` and then reading it: two loose statements, a variable declaration and an
expression. -/
def looseSample : Hir.File where
  id := 0
  name := "loose.js"
  span := .range 0 16
  statements :=
    [.variable 1 "x" (.range 0 12) (some (.const (.range 8 12) (.boolean true))),
     .expression (.get (.range 13 14) { name := "x", span := .range 13 14, candidate := some (.variable 1) })]

theorem wrapInitializers_regroups_looseSample : ∃ program nodes, Program.convert looseSample = .ok program ∧
    program.arena.Tree program.file nodes ∧ program.arena.Linked program.file none ∧ program.arena.Nested nodes ∧
      ∃ after, wrapInitializers program = .ok { program with arena := after } ∧
        program.arena.Initialized after (nodes.filter program.arena.hasLoose) ∧
        ∀ container ∈ nodes, (program.arena.node container).kind.isClassContainer = true →
          program.arena.hasLoose container = false → after.node container = program.arena.node container := by
  have succeeds : (Program.convert looseSample).isOk = true := by decide +kernel
  cases converted : Program.convert looseSample with
  | error failure => rw [converted] at succeeds; cases succeeds
  | ok program =>
    obtain ⟨nodes, sound⟩ := Program.convert_sound converted
    exact ⟨program, nodes, rfl, sound.tree, sound.linked, sound.nested,
      wrapInitializers_regroups sound.tree sound.linked sound.nested⟩

/-- In `looseSample` the file ends up holding the initializer, node 8, alone. Of its two former loose
statements, the variable declaration names the initializer as its parent; the expression statement
keeps no parent link, so it names none. -/
theorem wrapInitializers_looseSample_parents :
    ((Program.convert looseSample).toOption.bind fun program => (wrapInitializers program).toOption.map fun after =>
      (after.arena.children program.file,
        (program.arena.looseOf program.file).map fun statement => (after.arena.node statement).parent)) =
      some ([8], [some 8, none]) := by
  decide +kernel

end ScriptLowering.Lowering
