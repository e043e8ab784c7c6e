import ScriptLowering.Proofs.ReifiedTree

/-! # Reifying a program

Once the walk is over, reifying appends each class it made to the statements of the container its
function waited for, in the order it made them, and links the class below the container
(`Arena.graft`). Each class is appended to a node of the tree, or to a node of a class appended
later, never to one of its own nodes, so every append grows one tree of a forest by another
(`Arena.Tree.graft`), and in the end the file's tree holds every node the walk left. Last, reading
and writing a reified function's symbol is pointed at the variable that replaced it.

Put together: reifying a sound program succeeds, and gives a sound program (`reifyFunctions_sound`).
-/

namespace ScriptLowering.Mir.Arena

/-- The arena with the node `created` appended to the statements of `container`, and the subtree at
`created` linked below it. -/
def graft (arena : Arena) (container created : Nat) : Arena :=
  (arena.setKind container ((arena.node container).kind.withStatements (arena.children container ++ [created]))).patchParents
    created (some container)

/-- `second` is `first` with `created` appended to the children of `container`, where every other
node keeps its kind, and its link too unless it is one of `moved`. -/
structure Grafts (first second : Arena) (container created : Nat) (moved : List Nat) : Prop where
  nodeCount : second.nodeCount = first.nodeCount
  holds : (first.node container).kind.holdsStatements = true
  atContainer : second.node container =
    { first.node container with kind := (first.node container).kind.withStatements (first.children container ++ [created]) }
  kinds : ∀ node ≠ container, (second.node node).kind = (first.node node).kind
  kept : ∀ node ≠ container, node ∉ moved → second.node node = first.node node

/-- A class is a node of the arena. -/
theorem lt_nodeCount_of_isClass {arena : Arena} {id : Nat} (isClass : (arena.node id).kind.isClass = true) :
    id < arena.nodeCount := by
  obtain ⟨symbol, name, statements, origin, isClassDef⟩ :
      ∃ symbol name statements origin, (arena.node id).kind = .classDef symbol name statements origin := by
    revert isClass
    cases (arena.node id).kind <;> simp [NodeKind.isClass]
  exact arena.lt_nodeCount_of_kind isClassDef (by simp)

section Grafting

variable {first second : Arena} {container created : Nat} {moved : List Nat}

theorem Grafts.children (grafts : first.Grafts second container created moved) {node : Nat}
    (other : node ≠ container) : second.children node = first.children node := by
  rw [Arena.children, grafts.kinds node other]
  rfl

theorem Grafts.children_container (grafts : first.Grafts second container created moved) :
    second.children container = first.children container ++ [created] := by
  rw [Arena.children, grafts.atContainer, NodeKind.children_withStatements _ _ grafts.holds]

theorem Grafts.tracksParent (grafts : first.Grafts second container created moved) (node : Nat) :
    (second.node node).kind.tracksParent = (first.node node).kind.tracksParent := by
  by_cases same : node = container
  · rw [same, grafts.atContainer, NodeKind.tracksParent_withStatements]
  · rw [grafts.kinds node same]

theorem Grafts.isClassContainer (grafts : first.Grafts second container created moved) (node : Nat) :
    (second.node node).kind.isClassContainer = (first.node node).kind.isClassContainer := by
  by_cases same : node = container
  · rw [same, grafts.atContainer, NodeKind.isClassContainer_withStatements]
  · rw [grafts.kinds node same]

/-- Grafting a subtree apart from the container onto it: the container gets one more child, the
subtree is linked below it, and nothing else moves. -/
theorem grafts_graft (present : container < first.nodeCount)
    (holds : (first.node container).kind.holdsStatements = true) (tree : first.Tree created moved)
    (outside : container ∉ moved) :
    first.Grafts (first.graft container created) container created moved ∧
      (first.graft container created).Linked created (some container) := by
  let appended := first.setKind container
    ((first.node container).kind.withStatements (first.children container ++ [created]))
  have same : ∀ node ≠ container, appended.node node = first.node node := fun node other =>
    first.node_setKind_ne _ other
  have appendedTree : appended.Tree created moved :=
    tree.frame (fun node member => by rw [same node fun equal => outside (equal ▸ member)])
      (by simp [appended])
  obtain ⟨linked, unmoved⟩ := linkBelow_linked appended.nodeCount appended created moved (some container)
    appendedTree appendedTree.length_le
  have relinks : appended.Relinks (appended.patchParents created (some container)) :=
    relinks_patchParents appended created (some container)
  refine ⟨
    { nodeCount := ?_
      holds := holds
      atContainer := ?_
      kinds := fun node other => ?_
      kept := fun node other notMoved => ?_ }, linked⟩
  · rw [graft, relinks.nodeCount]
    simp [appended]
  · rw [graft, patchParents, unmoved container outside]
    exact first.node_setKind_self _ present
  · rw [graft, relinks.kind, same node other]
  · rw [graft, patchParents, unmoved node notMoved, same node other]

mutual

/-- A tree apart from the grafted subtree grows by it when it holds the container, and stays as it
was otherwise. -/
theorem Tree.graft (grafts : first.Grafts second container created moved) (branch : second.Tree created moved) :
    {id : Nat} → {nodes : List Nat} → first.Tree id nodes → (∀ node ∈ moved, node ∉ nodes) →
      ∃ grown, second.Tree id grown ∧ ∀ node, node ∈ grown ↔ node ∈ nodes ∨ (container ∈ nodes ∧ node ∈ moved)
  | id, _, @Tree.node _ _ below present children fresh, apart => by
    have notMoved : id ∉ moved := fun member => apart id member List.mem_cons_self
    by_cases atContainer : id = container
    · subst atContainer
      have kept : second.Forest (first.children id) below :=
        children.frame (fun node member => grafts.kinds node fun same => fresh (same ▸ member))
          (Nat.le_of_eq grafts.nodeCount.symm)
      refine ⟨id :: (below ++ moved), .node (by rw [grafts.nodeCount]; exact present) ?_ ?_, ?_⟩
      · rw [grafts.children_container]
        exact Forest.append (.single branch) kept fun node inBelow inMoved =>
          apart node inMoved (List.mem_cons_of_mem _ inBelow)
      · simp only [List.mem_append, not_or]
        exact ⟨fresh, notMoved⟩
      · intro node
        simp only [List.mem_cons, List.mem_append, true_or, true_and]
        grind
    · obtain ⟨grown, forest, member⟩ := Forest.graft grafts branch children fun node inMoved inBelow =>
        apart node inMoved (List.mem_cons_of_mem _ inBelow)
      refine ⟨id :: grown, .node (by rw [grafts.nodeCount]; exact present) ?_ ?_, ?_⟩
      · rw [grafts.children atContainer]
        exact forest
      · intro inGrown
        rcases (member id).mp inGrown with inBelow | ⟨_, inMoved⟩
        · exact fresh inBelow
        · exact notMoved inMoved
      · intro node
        simp only [List.mem_cons, member, Ne.symm atContainer, false_or]
        grind

theorem Forest.graft (grafts : first.Grafts second container created moved) (branch : second.Tree created moved) :
    {ids nodes : List Nat} → first.Forest ids nodes → (∀ node ∈ moved, node ∉ nodes) →
      ∃ grown, second.Forest ids grown ∧ ∀ node, node ∈ grown ↔ node ∈ nodes ∨ (container ∈ nodes ∧ node ∈ moved)
  | _, _, .nil, _ => ⟨[], .nil, by simp⟩
  | _, _, @Forest.cons _ _ _ first others tree forest apart, outside => by
    obtain ⟨grownFirst, treeGrown, memFirst⟩ := Tree.graft grafts branch tree fun node inMoved inFirst =>
      outside node inMoved (List.mem_append_left _ inFirst)
    obtain ⟨grownOthers, forestGrown, memOthers⟩ := Forest.graft grafts branch forest fun node inMoved inOthers =>
      outside node inMoved (List.mem_append_right _ inOthers)
    refine ⟨grownFirst ++ grownOthers, .cons treeGrown forestGrown fun node inFirst inOthers => ?_, ?_⟩
    · rcases (memFirst node).mp inFirst with inFirst | ⟨hereFirst, inMoved⟩ <;>
        rcases (memOthers node).mp inOthers with inOthers | ⟨hereOthers, inMoved'⟩
      · exact apart node inFirst inOthers
      · exact outside node inMoved' (List.mem_append_left _ inFirst)
      · exact outside node inMoved (List.mem_append_right _ inOthers)
      · exact apart container hereFirst hereOthers
    · intro node
      simp only [List.mem_append, memFirst, memOthers]
      grind

end

/-- The links of a tree apart from the grafted subtree stay right, the subtree linked below the
container. By induction on the links: only the container's children change, by one linked below
it. -/
theorem Linked.graft (grafts : first.Grafts second container created moved)
    (branch : second.Linked created (some container))
    (isContainer : (first.node container).kind.isClassContainer = true) {id : Nat} {above : Option Nat}
    (linked : first.Linked id above) : ∀ {nodes : List Nat}, first.Tree id nodes → (∀ node ∈ moved, node ∉ nodes) →
      second.Linked id above := by
  induction linked with
  | @node id above parent children ih =>
    intro nodes tree apart
    have notMoved : id ∉ moved := fun member => apart id member tree.mem_self
    have passed : second.passedLink id above = first.passedLink id above := by
      simp only [passedLink, grafts.tracksParent]
    -- A child of the tree roots a subtree of it, apart from the grafted one.
    have childLinked : ∀ child ∈ first.children id, second.Linked child (second.passedLink id above) := by
      intro child isChild
      cases tree with
      | node _ below _ =>
        obtain ⟨sub, childTree, within⟩ := below.exists_tree isChild
        rw [passed]
        exact ih child isChild childTree fun node inMoved inSub =>
          apart node inMoved (List.mem_cons_of_mem _ (within node inSub))
    refine .node (fun tracks => ?_) fun child isChild => ?_
    · by_cases same : id = container
      · subst same
        rw [grafts.atContainer]
        exact parent (by rwa [grafts.tracksParent] at tracks)
      · rw [grafts.kept id same notMoved]
        rw [grafts.kept id same notMoved] at tracks
        exact parent tracks
    · by_cases same : id = container
      · subst same
        rw [grafts.children_container] at isChild
        rcases List.mem_append.mp isChild with old | appended
        · exact childLinked child old
        · rw [List.mem_singleton.mp appended]
          have tracks : (second.node id).kind.tracksParent = true := by
            rw [grafts.tracksParent]
            revert isContainer
            cases (first.node id).kind <;> simp [NodeKind.isClassContainer, NodeKind.tracksParent]
          rw [passedLink, if_pos tracks]
          exact branch
      · rw [grafts.children same] at isChild
        exact childLinked child isChild

/-! ## Grafting the classes one after another -/

/-- The arena with each entry's node grafted onto its container, one after another. -/
def graftAll (arena : Arena) (entries : List (Nat × Nat)) : Arena :=
  entries.foldl (fun arena entry => arena.graft entry.1 entry.2) arena

@[simp] theorem nodeCount_graft (arena : Arena) (container created : Nat) :
    (arena.graft container created).nodeCount = arena.nodeCount := by
  rw [graft, (relinks_patchParents _ created (some container)).nodeCount, nodeCount_setKind]

@[simp] theorem symbol_graft (arena : Arena) (container created symbol : Nat) :
    (arena.graft container created).symbol symbol = arena.symbol symbol := by
  simp only [graft, Arena.symbol, (relinks_patchParents _ created (some container)).symbols]
  rfl

theorem kind_graft (arena : Arena) {container : Nat} (created : Nat) (present : container < arena.nodeCount)
    (node : Nat) : ((arena.graft container created).node node).kind =
      if node = container then (arena.node container).kind.withStatements (arena.children container ++ [created])
      else (arena.node node).kind := by
  rw [graft, (relinks_patchParents _ created (some container)).kind]
  by_cases same : node = container
  · rw [if_pos same, same, arena.node_setKind_self _ present]
  · rw [if_neg same, arena.node_setKind_ne _ same]

@[simp] theorem nodeCount_graftAll (arena : Arena) (entries : List (Nat × Nat)) :
    (arena.graftAll entries).nodeCount = arena.nodeCount := by
  induction entries generalizing arena with
  | nil => rfl
  | cons entry rest ih =>
    show ((arena.graft entry.1 entry.2).graftAll rest).nodeCount = _
    rw [ih, nodeCount_graft]

@[simp] theorem symbol_graftAll (arena : Arena) (entries : List (Nat × Nat)) (symbol : Nat) :
    (arena.graftAll entries).symbol symbol = arena.symbol symbol := by
  induction entries generalizing arena with
  | nil => rfl
  | cons entry rest ih =>
    show ((arena.graft entry.1 entry.2).graftAll rest).symbol symbol = _
    rw [ih, symbol_graft]

@[simp] theorem symbolCount_graft (arena : Arena) (container created : Nat) :
    (arena.graft container created).symbolCount = arena.symbolCount := by
  simp only [graft, Arena.symbolCount, (relinks_patchParents _ created (some container)).symbols]
  rfl

@[simp] theorem symbolCount_graftAll (arena : Arena) (entries : List (Nat × Nat)) :
    (arena.graftAll entries).symbolCount = arena.symbolCount := by
  induction entries generalizing arena with
  | nil => rfl
  | cons entry rest ih =>
    show ((arena.graft entry.1 entry.2).graftAll rest).symbolCount = _
    rw [ih, symbolCount_graft]

theorem span_graft (arena : Arena) {container : Nat} (created : Nat) (present : container < arena.nodeCount)
    (node : Nat) : ((arena.graft container created).node node).span = (arena.node node).span := by
  rw [graft, (relinks_patchParents _ created (some container)).span]
  by_cases same : node = container
  · rw [same, arena.node_setKind_self _ present]
  · rw [arena.node_setKind_ne _ same]

theorem span_graftAll (arena : Arena) (entries : List (Nat × Nat))
    (present : ∀ entry ∈ entries, entry.1 < arena.nodeCount) (node : Nat) :
    ((arena.graftAll entries).node node).span = (arena.node node).span := by
  induction entries generalizing arena with
  | nil => rfl
  | cons entry rest ih =>
    show (((arena.graft entry.1 entry.2).graftAll rest).node node).span = _
    have restPresent : ∀ other ∈ rest, other.1 < (arena.graft entry.1 entry.2).nodeCount := fun other member => by
      rw [nodeCount_graft]
      exact present other (List.mem_cons_of_mem _ member)
    rw [ih _ restPresent, arena.span_graft entry.2 (present entry List.mem_cons_self)]

/-- Each container ends holding its statements and then the nodes grafted onto it, in order; every
other node keeps its kind. -/
theorem kind_graftAll (arena : Arena) (entries : List (Nat × Nat))
    (present : ∀ entry ∈ entries, entry.1 < arena.nodeCount)
    (holds : ∀ entry ∈ entries, (arena.node entry.1).kind.holdsStatements = true) (node : Nat) :
    ((arena.graftAll entries).node node).kind = (arena.node node).kind.withStatements
      (arena.children node ++ (entries.filter (·.1 == node)).map Prod.snd) := by
  induction entries generalizing arena with
  | nil => simp [graftAll, Arena.children]
  | cons entry rest ih =>
    obtain ⟨container, created⟩ := entry
    have here := present _ List.mem_cons_self
    have grafted := arena.kind_graft created here
    have restPresent : ∀ entry ∈ rest, entry.1 < (arena.graft container created).nodeCount := fun entry member => by
      rw [nodeCount_graft]
      exact present entry (List.mem_cons_of_mem _ member)
    have restHolds : ∀ entry ∈ rest, ((arena.graft container created).node entry.1).kind.holdsStatements = true := by
      intro entry member
      rw [grafted]
      split
      · rw [NodeKind.holdsStatements_withStatements]
        exact holds _ List.mem_cons_self
      · exact holds entry (List.mem_cons_of_mem _ member)
    show ((arena.graft container created).graftAll rest |>.node node).kind = _
    rw [ih _ restPresent restHolds, Arena.children, grafted]
    by_cases same : node = container
    · subst same
      simp only [if_true, NodeKind.withStatements_withStatements,
        NodeKind.children_withStatements _ _ (holds _ List.mem_cons_self), List.filter_cons, beq_self_eq_true,
        List.map_cons, List.append_assoc, List.singleton_append]
    · have other : (container == node) = false := by simpa using Ne.symm same
      simp only [same, if_false, List.filter_cons, other, Bool.false_eq_true]
      rfl

/-- Grafting each entry's subtree onto its container, one after another, where each container is a
node of the tree at `root` or of the subtree of a later entry: the tree at `root` grows by every
subtree and stays linked. By induction on the entries: the first subtree is grafted onto a tree apart
from it, which keeps the rest in place. -/
theorem graftAll_tree {root : Nat} : ∀ (entries : List (Nat × Nat)) (arena : Arena) (nodes : List Nat),
    arena.Forest (root :: entries.map Prod.snd) nodes → arena.Linked root none →
    (∀ entry ∈ entries, (arena.node entry.1).kind.isClassContainer = true) → entries.Nodup →
    (∀ entry ∈ entries, (∃ tree, arena.Tree root tree ∧ entry.1 ∈ tree) ∨
      ∃ later, [entry, later].Sublist entries ∧ ∃ tree, arena.Tree later.2 tree ∧ entry.1 ∈ tree) →
    ∃ grown, (arena.graftAll entries).Tree root grown ∧ (arena.graftAll entries).Linked root none ∧
      ∀ node, node ∈ grown ↔ node ∈ nodes
  | [], arena, nodes, forest, linked, _, _, _ => ⟨nodes, forest.tree_of_single, linked, fun _ => Iff.rfl⟩
  | (container, created) :: rest, arena, _, forest, linked, containers, nodup, waits => by
    rw [List.map_cons] at forest
    cases forest with
    | @cons _ _ tree _ rootTree more apartRoot =>
    cases more with
    | @cons _ _ moved others branch forest apartBranch =>
    have restNodup := (List.nodup_cons.mp nodup).2
    have headFresh := (List.nodup_cons.mp nodup).1
    have isContainer := containers _ List.mem_cons_self
    -- The later entries' subtrees lie among the others.
    have laterTree : ∀ later ∈ rest, ∀ sub, arena.Tree later.2 sub → ∀ node ∈ sub, node ∈ others := by
      intro later member sub laterTree node inSub
      obtain ⟨sub', tree', within⟩ := forest.exists_tree (List.mem_map_of_mem member)
      rw [laterTree.unique tree'] at inSub
      exact within node inSub
    -- The container is in the tree at `root` or in a later subtree, so not in the grafted one.
    have located : container ∈ tree ∨ container ∈ others := by
      rcases waits _ List.mem_cons_self with ⟨sub, subTree, inSub⟩ | ⟨later, order, sub, subTree, inSub⟩
      · exact .inl (by rwa [subTree.unique rootTree] at inSub)
      · have member : later ∈ rest := by
          rcases List.cons_sublist_cons'.mp order with deeper | ⟨_, single⟩
          · exact deeper.subset (List.mem_cons_of_mem _ List.mem_cons_self)
          · exact List.singleton_sublist.mp single
        exact .inr (laterTree later member sub subTree container inSub)
    have outside : container ∉ moved := by
      rcases located with inTree | inOthers
      · exact fun inMoved => apartRoot container inTree (List.mem_append_left _ inMoved)
      · exact fun inMoved => apartBranch container inMoved inOthers
    have present : container < arena.nodeCount := by
      rcases located with inTree | inOthers
      · exact rootTree.lt_nodeCount container inTree
      · exact forest.lt_nodeCount container inOthers
    obtain ⟨grafts, branchLinked⟩ :=
      grafts_graft present (NodeKind.isClassContainer_holds _ isContainer) branch outside
    have branchGrafted : (arena.graft container created).Tree created moved :=
      branch.frame (fun node inMoved => grafts.kinds node fun same => outside (same ▸ inMoved))
        (Nat.le_of_eq grafts.nodeCount.symm)
    have apartMoved : ∀ node ∈ moved, node ∉ tree ++ others := fun node inMoved inBoth => by
      rcases List.mem_append.mp inBoth with inTree | inOthers
      · exact apartRoot node inTree (List.mem_append_left _ inMoved)
      · exact apartBranch node inMoved inOthers
    obtain ⟨grown, grownForest, memGrown⟩ := Forest.graft grafts branchGrafted
      (Forest.cons rootTree forest fun node inTree inOthers => apartRoot node inTree (List.mem_append_right _ inOthers))
      apartMoved
    -- A tree apart from the grafted subtree only grows.
    have grows : ∀ id sub, arena.Tree id sub → (∀ node ∈ moved, node ∉ sub) →
        ∃ larger, (arena.graft container created).Tree id larger ∧ ∀ node ∈ sub, node ∈ larger :=
      fun id sub subTree apart => by
        obtain ⟨larger, largerTree, memLarger⟩ := Tree.graft grafts branchGrafted subTree apart
        exact ⟨larger, largerTree, fun node inSub => (memLarger node).mpr (.inl inSub)⟩
    obtain ⟨final, finalTree, finalLinked, memFinal⟩ := graftAll_tree rest (arena.graft container created) grown
      grownForest
      (Linked.graft grafts branchLinked isContainer linked rootTree fun node inMoved inTree =>
        apartRoot node inTree (List.mem_append_left _ inMoved))
      (fun entry member => by rw [grafts.isClassContainer]; exact containers entry (List.mem_cons_of_mem _ member))
      restNodup
      (fun entry member => by
        rcases waits entry (List.mem_cons_of_mem _ member) with ⟨sub, subTree, inSub⟩ | ⟨later, order, sub, subTree, inSub⟩
        · obtain ⟨larger, largerTree, within⟩ := grows root sub subTree fun node inMoved inSub' =>
            apartMoved node inMoved (List.mem_append_left _ (by rwa [subTree.unique rootTree] at inSub'))
          exact .inl ⟨larger, largerTree, within _ inSub⟩
        · have deeper : [entry, later].Sublist rest := by
            rcases List.cons_sublist_cons'.mp order with deeper | ⟨same, _⟩
            · exact deeper
            · exact absurd (same ▸ member) headFresh
          have laterMember : later ∈ rest := deeper.subset (List.mem_cons_of_mem _ List.mem_cons_self)
          obtain ⟨larger, largerTree, within⟩ := grows later.2 sub subTree fun node inMoved inSub' =>
            apartBranch node inMoved (laterTree later laterMember sub subTree node inSub')
          exact .inr ⟨later, deeper, larger, largerTree, within _ inSub⟩)
    refine ⟨final, finalTree, finalLinked, fun node => ?_⟩
    rw [memFinal, memGrown]
    simp only [List.mem_append]
    grind

end Grafting

end ScriptLowering.Mir.Arena

namespace ScriptLowering.Mir

/-! ## What the walk records -/

/-- The classes reifying appends, in the order it made them: each function's class with the
container it waits for. -/
def pendingClasses (base : Nat) (made : List Nat) (containerOf : Nat → Nat) : List (Nat × Nat) :=
  made.map fun function => (containerOf function, madeNode base made function 1)

/-- The renaming reifying ends with: the symbol of each function it made into a class is renamed to
the symbol of the variable that took its place, the `j`-th of them made at `symbols + 3 * j + 2`. -/
def reifiedRename (symbols : Nat) (made : List Nat) (symbolOf : Nat → Nat) (symbol : Nat) : Nat :=
  (((made.mapIdx fun j function => (symbolOf function, symbols + 3 * j + 2)).reverse).lookup symbol).getD symbol

/-- The functions reifying turns into classes, in the order it does: the nodes of the file's tree
whose origin is reifiable, each after those inside it. -/
def Program.reified (program : Program) : List Nat :=
  program.arena.reifiables program.arena.nodeCount program.file

/-- The file or class a reified function's class is appended to: the closest above it. -/
def Program.classContainer (program : Program) (node : Nat) : Nat :=
  (program.arena.closestClassContainer node).getD 0

/-- The symbol a node declares. -/
def Program.declaredSymbol (program : Program) (node : Nat) : Nat :=
  ((program.arena.node node).kind.symbol?).getD 0

section Recorded

variable {made : List Nat}

/-- Over distinct elements, the position is the index. -/
theorem mapIdx_eq_map {α : Type} (nodup : made.Nodup) (f : Nat → Nat → α) :
    made.mapIdx f = made.map fun node => f (made.idxOf node) node := by
  apply List.ext_getElem (by simp)
  intro j inMapped inMade
  simp [List.getElem_mapIdx, nodup.idxOf_getElem]

theorem lookup_map_of_mem {key value : Nat → Nat} {nodes : List Nat}
    (injective : ∀ first ∈ nodes, ∀ second ∈ nodes, key first = key second → first = second) {node : Nat}
    (member : node ∈ nodes) : (nodes.map fun node => (key node, value node)).lookup (key node) = some (value node) := by
  induction nodes with
  | nil => exact absurd member List.not_mem_nil
  | cons head rest ih =>
    by_cases same : node = head
    · subst same
      simp
    · have different : (key node == key head) = false := by
        simpa using fun equal => same (injective node member head List.mem_cons_self equal)
      have later : node ∈ rest := (List.mem_cons.mp member).resolve_left same
      simp only [List.map_cons, List.lookup_cons, different]
      exact ih (fun first inFirst second inSecond => injective first (List.mem_cons_of_mem _ inFirst) second
        (List.mem_cons_of_mem _ inSecond)) later

theorem lookup_map_of_forall_ne {key value : Nat → Nat} {nodes : List Nat} {wanted : Nat}
    (outside : ∀ node ∈ nodes, key node ≠ wanted) : (nodes.map fun node => (key node, value node)).lookup wanted = none := by
  induction nodes with
  | nil => rfl
  | cons head rest ih =>
    have different : (wanted == key head) = false := by
      simpa using Ne.symm (outside head List.mem_cons_self)
    simp only [List.map_cons, List.lookup_cons, different]
    exact ih fun node member => outside node (List.mem_cons_of_mem _ member)

/-- A reified function's symbol is renamed to its variable's. -/
theorem reifiedRename_of_mem {symbols : Nat} {symbolOf : Nat → Nat} (nodup : made.Nodup)
    (injective : ∀ first ∈ made, ∀ second ∈ made, symbolOf first = symbolOf second → first = second)
    {function : Nat} (member : function ∈ made) :
    reifiedRename symbols made symbolOf (symbolOf function) = symbols + 3 * made.idxOf function + 2 := by
  rw [reifiedRename, mapIdx_eq_map nodup, ← List.map_reverse,
    lookup_map_of_mem (fun first inFirst second inSecond => injective first (List.mem_reverse.mp inFirst) second
      (List.mem_reverse.mp inSecond)) (List.mem_reverse.mpr member)]
  rfl

/-- Every other symbol stays. -/
theorem reifiedRename_of_forall_ne {symbols symbol : Nat} {symbolOf : Nat → Nat} (nodup : made.Nodup)
    (outside : ∀ function ∈ made, symbolOf function ≠ symbol) : reifiedRename symbols made symbolOf symbol = symbol := by
  rw [reifiedRename, mapIdx_eq_map nodup, ← List.map_reverse,
    lookup_map_of_forall_ne fun function member => outside function (List.mem_reverse.mp member)]
  rfl

end Recorded

/-- In a well-formed program, a function reifying turns into a class is placed: its symbol is the
one it declares, and the climb from it passes old nodes and ends at the closest file or class. -/
theorem Program.Shaped.placed {program : Program} {nodes : List Nat} (shaped : program.Shaped nodes) {node : Nat}
    (member : node ∈ nodes) (reifiable : (program.arena.node node).kind.reifiable = true) :
    program.arena.Placed program.classContainer program.declaredSymbol node := by
  obtain ⟨declared, isFunction⟩ : ∃ declared, (program.arena.node node).kind = .function declared := by
    revert reifiable
    cases (program.arena.node node).kind <;> simp [NodeKind.reifiable]
  obtain ⟨name, statements, isFile⟩ := shaped.root
  have notRoot : node ≠ program.file := fun same => by
    rw [same, isFile] at isFunction
    cases isFunction
  obtain ⟨climb, container, climbs, onPath, short⟩ :=
    shaped.climbs member notRoot (by rw [isFunction]; rfl)
  refine ⟨by simp [Program.declaredSymbol, isFunction, NodeKind.symbol?], climb, ?_, short,
    fun step inClimb => shaped.tree.lt_nodeCount step (onPath step inClimb)⟩
  show program.arena.Climbs climb _ ((program.arena.closestClassContainer node).getD 0)
  rw [show (program.arena.closestClassContainer node).getD 0 = container by
    rw [Arena.closestClassContainer, climbs.containerAbove short]
    rfl]
  exact climbs

end ScriptLowering.Mir

namespace ScriptLowering.Lowering

open Mir Arena

/-- The classes the walk records are the pending classes, and the renaming it records is the
reifying one. -/
theorem ReifyState.record_empty {made : List Nat} (nodup : made.Nodup) (containerOf symbolOf : Nat → Nat)
    (nodes symbols : Nat) :
    (({} : ReifyState).record containerOf symbolOf nodes symbols made).pending = pendingClasses nodes made containerOf ∧
      (fun symbol => ((({} : ReifyState).record containerOf symbolOf nodes symbols made).replaced.lookup symbol).getD symbol) =
        reifiedRename symbols made symbolOf := by
  refine ⟨?_, ?_⟩
  · simp only [ReifyState.record, List.nil_append, pendingClasses, mapIdx_eq_map nodup]
    rfl
  · funext symbol
    simp only [ReifyState.record, List.append_nil, reifiedRename]

/-- The loop appending the pending classes grafts them one after another, when each container holds
statements. -/
theorem forIn_graft {f : Nat × Nat → Arena → Except InternalError (ForInStep Arena)}
    (step : ∀ (entry : Nat × Nat) (arena : Arena), (arena.node entry.1).kind.holdsStatements = true →
      f entry arena = .ok (.yield (arena.graft entry.1 entry.2))) :
    ∀ (entries : List (Nat × Nat)) (start : Arena), (∀ entry ∈ entries, entry.1 < start.nodeCount) →
      (∀ entry ∈ entries, (start.node entry.1).kind.holdsStatements = true) →
      forIn entries start f = .ok (start.graftAll entries)
  | [], _, _, _ => rfl
  | entry :: rest, start, present, holds => by
    rw [List.forIn_cons, step entry start (holds entry List.mem_cons_self)]
    show forIn rest (start.graft entry.1 entry.2) f = .ok ((start.graft entry.1 entry.2).graftAll rest)
    have here := present entry List.mem_cons_self
    refine forIn_graft step rest _ (fun other member => ?_) fun other member => ?_
    · rw [nodeCount_graft]
      exact present other (List.mem_cons_of_mem _ member)
    · rw [start.kind_graft entry.2 here]
      split
      · rw [NodeKind.holdsStatements_withStatements]
        exact holds entry List.mem_cons_self
      · exact holds other (List.mem_cons_of_mem _ member)

/-! ## The program after grafting -/

/-- The classes grafted onto a node. -/
theorem mem_pendingClasses_filter {base : Nat} {made : List Nat} {containerOf : Nat → Nat} {node child : Nat}
    (member : child ∈ ((pendingClasses base made containerOf).filter (·.1 == node)).map Prod.snd) :
    ∃ function ∈ made, containerOf function = node ∧ child = madeNode base made function 1 := by
  simp only [pendingClasses, List.filter_map, List.map_map, List.mem_map, List.mem_filter, Function.comp_apply,
    beq_iff_eq] at member
  obtain ⟨function, ⟨inMade, atNode⟩, rfl⟩ := member
  exact ⟨function, inMade, atNode, rfl⟩


/-- The classes grafted onto a node, in the order they were made. -/
theorem pendingClasses_filter (base : Nat) (made : List Nat) (containerOf : Nat → Nat) (node : Nat) :
    ((pendingClasses base made containerOf).filter (·.1 == node)).map Prod.snd =
      (made.filter fun function => containerOf function == node).map (madeNode base made · 1) := by
  simp only [pendingClasses, List.filter_map, List.map_map]
  rfl

/-- What reifying makes of a sound program before renaming: the walk reified the functions `made`,
exactly the reifiable nodes of the tree, each waiting for a file or class of the tree; grafting the
classes onto their containers left the file's tree `final`, rightly linked, holding what the walk
left. -/
structure Regrafted (program : Program) (nodes made : List Nat) (containerOf : Nat → Nat) (walked : Arena)
    (final : List Nat) : Prop where
  sound : program.Sound nodes
  reifying : program.arena.Reifying walked nodes made
  exact : ∀ node ∈ nodes, node ∈ made ↔ (program.arena.node node).kind.reifiable = true
  containers : ∀ function ∈ made, containerOf function ∈ nodes ∧
    (program.arena.node (containerOf function)).kind.isClassContainer = true
  tree : (walked.graftAll (pendingClasses program.arena.nodeCount made containerOf)).Tree program.file final
  linked : (walked.graftAll (pendingClasses program.arena.nodeCount made containerOf)).Linked program.file none
  members : ∀ node, node ∈ final ↔ Regrown program.arena.nodeCount made nodes node

namespace Regrafted

variable {program : Program} {nodes made : List Nat} {containerOf : Nat → Nat} {walked : Arena}
  {final : List Nat} (regrafted : Regrafted program nodes made containerOf walked final)
include regrafted

/-- A reified function declares a symbol of the program, which it owns. -/
theorem declares_made {function : Nat} (member : function ∈ made) :
    (program.arena.node function).kind.symbol? = some (program.declaredSymbol function) ∧
      (program.arena.symbol (program.declaredSymbol function)).owner = some function := by
  obtain ⟨declared, isFunction, _⟩ := regrafted.reifying.reified_of_mem member
  have declares : (program.arena.node function).kind.symbol? = some declared.symbol := by
    rw [isFunction]
    rfl
  have same : program.declaredSymbol function = declared.symbol := by
    rw [Program.declaredSymbol, declares]
    rfl
  rw [same]
  exact ⟨declares, regrafted.sound.owned function (regrafted.reifying.mem function member) _ declares⟩

/-- Reified functions declare distinct symbols. -/
theorem symbolOf_injective : ∀ first ∈ made, ∀ second ∈ made,
    program.declaredSymbol first = program.declaredSymbol second →
      first = second := by
  intro first inFirst second inSecond same
  have owners := (regrafted.declares_made inSecond).2
  rw [← same, (regrafted.declares_made inFirst).2] at owners
  exact Option.some.inj owners

/-- A symbol owned by a node that is not reified is no reified function's symbol, and stays. -/
theorem rename_of_owner {symbol owner : Nat} (owned : (program.arena.symbol symbol).owner = some owner)
    (kept : owner ∉ made) :
    reifiedRename program.arena.symbolCount made program.declaredSymbol
      symbol = symbol := by
  refine reifiedRename_of_forall_ne regrafted.reifying.nodup fun function member same => kept ?_
  rw [← same, (regrafted.declares_made member).2] at owned
  exact Option.some.inj owned ▸ member

/-- A symbol made by reifying stays. -/
theorem rename_of_le {symbol : Nat} (newer : program.arena.symbolCount ≤ symbol) :
    reifiedRename program.arena.symbolCount made program.declaredSymbol
      symbol = symbol := by
  refine reifiedRename_of_forall_ne regrafted.reifying.nodup fun function member same => ?_
  have older := Arena.lt_symbolCount_of_owner (regrafted.declares_made member).2
  omega

/-- Every class waits for a node of the arena the walk left. -/
theorem present : ∀ entry ∈ pendingClasses program.arena.nodeCount made containerOf, entry.1 < walked.nodeCount := by
  intro entry member
  obtain ⟨function, inMade, rfl⟩ := List.mem_map.mp member
  have old := regrafted.sound.tree.lt_nodeCount _ (regrafted.containers function inMade).1
  rw [regrafted.reifying.nodeCount]
  exact Nat.lt_of_lt_of_le old (Nat.le_add_right _ _)

theorem span_grafted (node : Nat) :
    ((walked.graftAll (pendingClasses program.arena.nodeCount made containerOf)).node node).span =
      (walked.node node).span :=
  walked.span_graftAll _ regrafted.present node

/-- Each node of the grafted arena holds what it held after the walk, and then the classes grafted
onto it. -/
theorem kind_grafted (node : Nat) :
    ((walked.graftAll (pendingClasses program.arena.nodeCount made containerOf)).node node).kind =
      (walked.node node).kind.withStatements (walked.children node ++
        ((pendingClasses program.arena.nodeCount made containerOf).filter (·.1 == node)).map Prod.snd) := by
  refine walked.kind_graftAll _ regrafted.present (fun entry member => ?_) node
  obtain ⟨function, inMade, rfl⟩ := List.mem_map.mp member
  obtain ⟨inNodes, isContainer⟩ := regrafted.containers function inMade
  obtain ⟨replace, kind⟩ := regrafted.reifying.kind_eq (regrafted.sound.tree.lt_nodeCount _ inNodes)
  rw [kind]
  exact NodeKind.isClassContainer_holds _ (by rw [NodeKind.isClassContainer_mapChildren]; exact isContainer)

/-- A node something is grafted onto holds statements after the walk. -/
theorem holds_of_grafted {node child : Nat}
    (member : child ∈ ((pendingClasses program.arena.nodeCount made containerOf).filter (·.1 == node)).map Prod.snd) :
    (walked.node node).kind.holdsStatements = true := by
  obtain ⟨function, inMade, rfl, -⟩ := mem_pendingClasses_filter member
  obtain ⟨inNodes, isContainer⟩ := regrafted.containers function inMade
  obtain ⟨replace, kind⟩ := regrafted.reifying.kind_eq (regrafted.sound.tree.lt_nodeCount _ inNodes)
  rw [kind]
  exact NodeKind.isClassContainer_holds _ (by rw [NodeKind.isClassContainer_mapChildren]; exact isContainer)

theorem children_grafted (node : Nat) :
    (walked.graftAll (pendingClasses program.arena.nodeCount made containerOf)).children node =
      walked.children node ++
        ((pendingClasses program.arena.nodeCount made containerOf).filter (·.1 == node)).map Prod.snd := by
  rw [Arena.children, regrafted.kind_grafted]
  by_cases holds : (walked.node node).kind.holdsStatements = true
  · rw [NodeKind.children_withStatements _ _ holds]
  · -- Only files and classes are grafted onto.
    have nothing : ((pendingClasses program.arena.nodeCount made containerOf).filter (·.1 == node)).map Prod.snd = [] :=
      List.eq_nil_iff_forall_not_mem.mpr fun child member => holds (regrafted.holds_of_grafted member)
    rw [nothing, List.append_nil]
    exact congrArg NodeKind.children (NodeKind.withStatements_children _)

/-- A node of the final tree is an old node that was not reified, or a node made for a reified
function. -/
theorem cases_of_mem {node : Nat} (member : node ∈ final) :
    (node ∈ nodes ∧ node ∉ made) ∨ ∃ function ∈ made, ∃ part < 3, node = madeNode program.arena.nodeCount made function part := by
  rcases (regrafted.members node).mp member with kept | ⟨function, _, inMade, made⟩
  · exact .inl kept
  · exact .inr ⟨function, inMade, made⟩

theorem mem_of_old {node : Nat} (inNodes : node ∈ nodes) (kept : node ∉ made) : node ∈ final :=
  (regrafted.members node).mpr (.inl ⟨inNodes, kept⟩)

theorem mem_of_made {function : Nat} (member : function ∈ made) {part : Nat} (small : part < 3) :
    madeNode program.arena.nodeCount made function part ∈ final :=
  (regrafted.members _).mpr (.inr ⟨function, regrafted.reifying.mem function member, member, part, small, rfl⟩)

/-- What a node reads, unchanged by its statements, it read after the walk. -/
theorem read_grafted {α : Type} (read : NodeKind → α)
    (keptStatements : ∀ kind statements, read (NodeKind.withStatements kind statements) = read kind) (node : Nat) :
    read ((walked.graftAll (pendingClasses program.arena.nodeCount made containerOf)).node node).kind =
      read (walked.node node).kind := by
  rw [regrafted.kind_grafted, keptStatements]

/-- What an old node reads, unchanged by its statements and children, it read before reifying. -/
theorem read_old {α : Type} (read : NodeKind → α)
    (keptStatements : ∀ kind statements, read (NodeKind.withStatements kind statements) = read kind)
    (keptChildren : ∀ kind replace, read (NodeKind.mapChildren replace kind) = read kind) {node : Nat}
    (old : node < program.arena.nodeCount) :
    read ((walked.graftAll (pendingClasses program.arena.nodeCount made containerOf)).node node).kind =
      read (program.arena.node node).kind := by
  obtain ⟨replace, kind⟩ := regrafted.reifying.kind_eq old
  rw [regrafted.read_grafted read keptStatements, kind, keptChildren]

/-- Nothing is grafted onto a new node. -/
theorem kind_new {node : Nat} (newer : program.arena.nodeCount ≤ node) :
    ((walked.graftAll (pendingClasses program.arena.nodeCount made containerOf)).node node).kind =
      (walked.node node).kind := by
  have nothing : ((pendingClasses program.arena.nodeCount made containerOf).filter (·.1 == node)).map Prod.snd = [] := by
    refine List.eq_nil_iff_forall_not_mem.mpr fun child member => ?_
    obtain ⟨function, inMade, atNode, -⟩ := mem_pendingClasses_filter member
    have old := regrafted.sound.tree.lt_nodeCount _ (regrafted.containers function inMade).1
    rw [atNode] at old
    omega
  rw [regrafted.kind_grafted, nothing, List.append_nil]
  exact NodeKind.withStatements_children _

/-- The nodes and symbols made for a reified function, in the grafted arena. -/
theorem made_nodes {function : Nat} (member : function ∈ made) : ∃ declared,
    (program.arena.node function).kind = .function declared ∧
    ((walked.graftAll (pendingClasses program.arena.nodeCount made containerOf)).node
        (madeNode program.arena.nodeCount made function 0)).kind =
      .function ((declared.mapChildren (replacement program.arena.nodeCount made)).invoke
        (program.arena.symbolCount + 3 * made.idxOf function)) ∧
    ((walked.graftAll (pendingClasses program.arena.nodeCount made containerOf)).node
        (madeNode program.arena.nodeCount made function 1)).kind =
      .classDef (program.arena.symbolCount + 3 * made.idxOf function + 1) declared.name
        [madeNode program.arena.nodeCount made function 0] .functionClass ∧
    ((walked.graftAll (pendingClasses program.arena.nodeCount made containerOf)).node
        (madeNode program.arena.nodeCount made function 2)).kind =
      .variable (program.arena.symbolCount + 3 * made.idxOf function + 2) declared.name
        (some (.newInstance .synthetic (program.arena.symbolCount + 3 * made.idxOf function + 1) [])) ∧
    ∀ part < 3, ((walked.graftAll (pendingClasses program.arena.nodeCount made containerOf)).symbol
        (program.arena.symbolCount + 3 * made.idxOf function + part)).owner =
      some (madeNode program.arena.nodeCount made function part) := by
  obtain ⟨declared, isFunction, built⟩ := regrafted.reifying.reified_of_mem member
  refine ⟨declared, isFunction, ?_, ?_, ?_, fun part small => ?_⟩
  · rw [regrafted.kind_new (le_madeNode _ _ _ _), built.invokeNode]
  · rw [regrafted.kind_new (le_madeNode _ _ _ _), show madeNode program.arena.nodeCount made function 1 =
      madeNode program.arena.nodeCount made function 0 + 1 from rfl, built.classNode]
    rfl
  · rw [regrafted.kind_new (le_madeNode _ _ _ _), show madeNode program.arena.nodeCount made function 2 =
      madeNode program.arena.nodeCount made function 0 + 2 from rfl, built.variableNode]
    rfl
  · rw [symbol_graftAll]
    obtain rfl | rfl | rfl : part = 0 ∨ part = 1 ∨ part = 2 := by omega
    · rw [Nat.add_zero, built.invokeSymbol]
    · rw [built.classSymbol]
      rfl
    · rw [built.variableSymbol]
      rfl

/-- A new symbol with an owner is one of those made for a reified function, owned by the node made
beside it. -/
theorem owner_new {symbol owner : Nat} (newer : program.arena.symbolCount ≤ symbol)
    (owned : ((walked.graftAll (pendingClasses program.arena.nodeCount made containerOf)).symbol symbol).owner =
      some owner) :
    ∃ function ∈ made, ∃ part < 3, symbol = program.arena.symbolCount + 3 * made.idxOf function + part ∧
      owner = madeNode program.arena.nodeCount made function part := by
  rw [symbol_graftAll] at owned
  have below := Arena.lt_symbolCount_of_owner owned
  rw [regrafted.reifying.symbolCount] at below
  obtain ⟨j, part, small, rfl⟩ : ∃ j part, part < 3 ∧ symbol = program.arena.symbolCount + 3 * j + part :=
    ⟨(symbol - program.arena.symbolCount) / 3, (symbol - program.arena.symbolCount) % 3, Nat.mod_lt _ (by omega),
      by omega⟩
  have inRange : j < made.length := by omega
  have index : made.idxOf made[j] = j := regrafted.reifying.nodup.idxOf_getElem j inRange
  obtain ⟨declared, -, -, -, -, owners⟩ := regrafted.made_nodes (List.getElem_mem inRange)
  rw [index] at owners
  simp only [symbol_graftAll] at owners
  refine ⟨made[j], List.getElem_mem inRange, part, small, by rw [index], ?_⟩
  have same := owners part small
  rw [owned] at same
  exact Option.some.inj same

/-- The file of built-in functions is outside the tree, so its statements stay. -/
theorem children_builtinsFile :
    (walked.graftAll (pendingClasses program.arena.nodeCount made containerOf)).children program.builtinsFile =
      program.arena.children program.builtinsFile := by
  have nothing : ((pendingClasses program.arena.nodeCount made containerOf).filter
      (·.1 == program.builtinsFile)).map Prod.snd = [] := by
    refine List.eq_nil_iff_forall_not_mem.mpr fun child member => ?_
    obtain ⟨function, inMade, atFile, -⟩ := mem_pendingClasses_filter member
    exact regrafted.sound.builtinsFile_not_mem (atFile ▸ (regrafted.containers function inMade).1)
  rw [regrafted.children_grafted, nothing, List.append_nil, Arena.children,
    regrafted.reifying.outside _ regrafted.sound.builtinsFile_lt regrafted.sound.builtinsFile_not_mem]
  rfl

theorem builtin_grafted {owner : Nat} (builtin : program.IsBuiltin owner) :
    Program.IsBuiltin { program with arena := walked.graftAll (pendingClasses program.arena.nodeCount made containerOf) }
      owner := by
  obtain ⟨child, declared, isFunction, builtIn⟩ := builtin
  obtain ⟨old, outside⟩ := regrafted.sound.builtins_apart owner child
  refine ⟨by simpa [regrafted.children_builtinsFile] using child, declared, ?_, builtIn⟩
  show ((walked.graftAll (pendingClasses program.arena.nodeCount made containerOf)).node owner).kind = _
  rw [regrafted.kind_grafted, regrafted.reifying.outside owner old outside, isFunction]
  rfl

/-! ### Each part of soundness, once renamed -/

theorem owns_grafted {node : Nat} (member : node ∈ final) :
    (walked.graftAll (pendingClasses program.arena.nodeCount made containerOf)).Owns node := by
  intro symbol declares
  rcases regrafted.cases_of_mem member with ⟨inNodes, -⟩ | ⟨function, inMade, part, small, rfl⟩
  · have old := regrafted.sound.tree.lt_nodeCount node inNodes
    rw [regrafted.read_old NodeKind.symbol? NodeKind.symbol?_withStatements NodeKind.symbol?_mapChildren old]
      at declares
    have owned := regrafted.sound.owned node inNodes symbol declares
    rw [symbol_graftAll, regrafted.reifying.symbol symbol (Arena.lt_symbolCount_of_owner owned)]
    exact owned
  · -- Each node made declares the symbol made beside it.
    obtain ⟨declared, -, invoke, classKind, variableKind, owners⟩ := regrafted.made_nodes inMade
    obtain rfl | rfl | rfl : part = 0 ∨ part = 1 ∨ part = 2 := by omega
    · simp only [invoke, NodeKind.symbol?, Function.invoke, Option.some.injEq] at declares
      subst declares
      exact owners 0 (by omega)
    · simp only [classKind, NodeKind.symbol?, Option.some.injEq] at declares
      subst declares
      exact owners 1 (by omega)
    · simp only [variableKind, NodeKind.symbol?, Option.some.injEq] at declares
      subst declares
      exact owners 2 (by omega)

/-- The symbols a node made for a reified function uses: its variable's new instance names its
class. -/
theorem uses_made {function : Nat} (inMade : function ∈ made) {part : Nat} (small : part < 3) {symbol : Nat}
    (used : symbol ∈ ((walked.graftAll (pendingClasses program.arena.nodeCount made containerOf)).node
      (madeNode program.arena.nodeCount made function part)).kind.uses) :
    symbol = program.arena.symbolCount + 3 * made.idxOf function + 1 := by
  obtain ⟨declared, -, invoke, classKind, variableKind, -⟩ := regrafted.made_nodes inMade
  obtain rfl | rfl | rfl : part = 0 ∨ part = 1 ∨ part = 2 := by omega
  · simp [invoke, NodeKind.uses] at used
  · simp [classKind, NodeKind.uses] at used
  · simpa [variableKind, NodeKind.uses, Expression.symbols, Expression.argumentSymbols] using used

/-- A new symbol's owner declares it. -/
theorem declares_new {symbol owner : Nat} (newer : program.arena.symbolCount ≤ symbol)
    (owned : ((walked.graftAll (pendingClasses program.arena.nodeCount made containerOf)).symbol symbol).owner =
      some owner) :
    ((walked.graftAll (pendingClasses program.arena.nodeCount made containerOf)).node owner).kind.symbol? =
      some symbol := by
  obtain ⟨function, inMade, part, small, rfl, rfl⟩ := regrafted.owner_new newer owned
  obtain ⟨declared, -, invoke, classKind, variableKind, -⟩ := regrafted.made_nodes inMade
  obtain rfl | rfl | rfl : part = 0 ∨ part = 1 ∨ part = 2 := by omega
  · simp [invoke, NodeKind.symbol?, Function.invoke]
  · simp [classKind, NodeKind.symbol?]
  · simp [variableKind, NodeKind.symbol?]

theorem resolved_grafted {node : Nat} (member : node ∈ final) {symbol : Nat}
    (used : symbol ∈ ((walked.graftAll (pendingClasses program.arena.nodeCount made containerOf)).node node).kind.uses) :
    ∃ owner, ((walked.graftAll (pendingClasses program.arena.nodeCount made containerOf)).symbol
        (reifiedRename program.arena.symbolCount made program.declaredSymbol
          symbol)).owner = some owner ∧
      (owner ∈ final ∨
        Program.IsBuiltin { program with arena := walked.graftAll (pendingClasses program.arena.nodeCount made containerOf) }
          owner) := by
  rcases regrafted.cases_of_mem member with ⟨inNodes, -⟩ | ⟨function, inMade, part, small, rfl⟩
  · have old := regrafted.sound.tree.lt_nodeCount node inNodes
    rw [regrafted.read_old NodeKind.uses NodeKind.uses_withStatements NodeKind.uses_mapChildren old] at used
    obtain ⟨owner, owned, found⟩ := regrafted.sound.resolved node inNodes symbol used
    by_cases reified : owner ∈ made
    · -- The symbol is the reified function's own, renamed to its variable's.
      have own : program.declaredSymbol owner = symbol := by
        rw [Program.declaredSymbol, regrafted.sound.declares node inNodes symbol used owner (regrafted.reifying.mem owner reified) owned]
        rfl
      obtain ⟨declared, -, -, -, -, owners⟩ := regrafted.made_nodes reified
      rw [← own, reifiedRename_of_mem regrafted.reifying.nodup regrafted.symbolOf_injective reified]
      exact ⟨_, owners 2 (by omega), .inl (regrafted.mem_of_made reified (by omega))⟩
    · rw [regrafted.rename_of_owner owned reified, symbol_graftAll,
        regrafted.reifying.symbol symbol (Arena.lt_symbolCount_of_owner owned)]
      refine ⟨owner, owned, ?_⟩
      rcases found with inNodes' | builtin
      · exact .inl (regrafted.mem_of_old inNodes' reified)
      · exact .inr (regrafted.builtin_grafted builtin)
  · rw [regrafted.uses_made inMade small used, regrafted.rename_of_le (by omega)]
    obtain ⟨declared, -, -, -, -, owners⟩ := regrafted.made_nodes inMade
    exact ⟨_, owners 1 (by omega), .inl (regrafted.mem_of_made inMade (by omega))⟩

theorem declares_grafted {node : Nat} (member : node ∈ final) {symbol : Nat}
    (used : symbol ∈ ((walked.graftAll (pendingClasses program.arena.nodeCount made containerOf)).node node).kind.uses)
    {owner : Nat} (ownerMember : owner ∈ final)
    (owned : ((walked.graftAll (pendingClasses program.arena.nodeCount made containerOf)).symbol
      (reifiedRename program.arena.symbolCount made program.declaredSymbol
        symbol)).owner = some owner) :
    ((walked.graftAll (pendingClasses program.arena.nodeCount made containerOf)).node owner).kind.symbol? =
      some (reifiedRename program.arena.symbolCount made
        program.declaredSymbol symbol) := by
  rcases regrafted.cases_of_mem member with ⟨inNodes, -⟩ | ⟨function, inMade, part, small, rfl⟩
  · have old := regrafted.sound.tree.lt_nodeCount node inNodes
    rw [regrafted.read_old NodeKind.uses NodeKind.uses_withStatements NodeKind.uses_mapChildren old] at used
    by_cases newer : program.arena.symbolCount ≤ reifiedRename program.arena.symbolCount made
        program.declaredSymbol symbol
    · exact regrafted.declares_new newer owned
    · -- An old symbol is renamed only to a new one, so this one stays.
      have same : reifiedRename program.arena.symbolCount made
          program.declaredSymbol symbol = symbol := by
        by_cases reified : ∃ function ∈ made, program.declaredSymbol function = symbol
        · obtain ⟨function, inMade, rfl⟩ := reified
          rw [reifiedRename_of_mem regrafted.reifying.nodup regrafted.symbolOf_injective inMade] at newer
          omega
        · exact reifiedRename_of_forall_ne regrafted.reifying.nodup fun function inMade own => reified ⟨function, inMade, own⟩
      rw [same] at owned newer ⊢
      rw [symbol_graftAll, regrafted.reifying.symbol symbol (by omega)] at owned
      rcases regrafted.cases_of_mem ownerMember with ⟨ownerNodes, -⟩ | ⟨other, otherMade, otherPart, _, rfl⟩
      · rw [regrafted.read_old NodeKind.symbol? NodeKind.symbol?_withStatements NodeKind.symbol?_mapChildren
          (regrafted.sound.tree.lt_nodeCount owner ownerNodes)]
        exact regrafted.sound.declares node inNodes symbol used owner ownerNodes owned
      · -- The symbol's owner is a node of the tree or a built-in function, both old.
        obtain ⟨found, foundOwned, located⟩ := regrafted.sound.resolved node inNodes symbol used
        rw [owned] at foundOwned
        cases foundOwned
        have old : madeNode program.arena.nodeCount made other otherPart < program.arena.nodeCount := by
          rcases located with inNodes' | ⟨child, _⟩
          · exact regrafted.sound.tree.lt_nodeCount _ inNodes'
          · exact (regrafted.sound.builtins_apart _ child).1
        exact absurd old (Nat.not_lt.mpr (le_madeNode _ _ _ _))
  · rw [regrafted.uses_made inMade small used, regrafted.rename_of_le (by omega)] at owned ⊢
    exact regrafted.declares_new (by omega) owned

/-- The owner of a symbol an old node instantiates is an old class. -/
theorem instances_old {node : Nat} (inNodes : node ∈ nodes) {symbol : Nat}
    (instantiated : symbol ∈ (program.arena.node node).kind.instances) :
    ∃ owner, (program.arena.symbol symbol).owner = some owner ∧ (program.arena.node owner).kind.isClass = true := by
  obtain ⟨owner, owned, -⟩ :=
    regrafted.sound.resolved node inNodes symbol (NodeKind.instances_subset_uses _ instantiated)
  exact ⟨owner, owned, regrafted.sound.instances node inNodes symbol instantiated owner owned⟩

theorem instances_grafted {node : Nat} (member : node ∈ final) {symbol : Nat}
    (instantiated : symbol ∈
      ((walked.graftAll (pendingClasses program.arena.nodeCount made containerOf)).node node).kind.instances)
    {owner : Nat}
    (owned : ((walked.graftAll (pendingClasses program.arena.nodeCount made containerOf)).symbol symbol).owner =
      some owner) :
    ((walked.graftAll (pendingClasses program.arena.nodeCount made containerOf)).node owner).kind.isClass = true := by
  rcases regrafted.cases_of_mem member with ⟨inNodes, -⟩ | ⟨function, inMade, part, small, rfl⟩
  · have old := regrafted.sound.tree.lt_nodeCount node inNodes
    rw [regrafted.read_old NodeKind.instances NodeKind.instances_withStatements NodeKind.instances_mapChildren old]
      at instantiated
    obtain ⟨found, foundOwned, isClass⟩ := regrafted.instances_old inNodes instantiated
    rw [symbol_graftAll, regrafted.reifying.symbol symbol (Arena.lt_symbolCount_of_owner foundOwned), foundOwned]
      at owned
    cases owned
    rw [regrafted.read_old NodeKind.isClass NodeKind.isClass_withStatements NodeKind.isClass_mapChildren
      (Arena.lt_nodeCount_of_isClass isClass)]
    exact isClass
  · have same := regrafted.uses_made inMade small (NodeKind.instances_subset_uses _ instantiated)
    obtain ⟨declared, -, -, classKind, -, owners⟩ := regrafted.made_nodes inMade
    rw [same, owners 1 (by omega)] at owned
    cases owned
    rw [classKind]
    rfl

theorem kept_grafted {node : Nat} (member : node ∈ final) {symbol : Nat}
    (instantiated : symbol ∈
      ((walked.graftAll (pendingClasses program.arena.nodeCount made containerOf)).node node).kind.instances) :
    reifiedRename program.arena.symbolCount made program.declaredSymbol
      symbol = symbol := by
  rcases regrafted.cases_of_mem member with ⟨inNodes, -⟩ | ⟨function, inMade, part, small, rfl⟩
  · have old := regrafted.sound.tree.lt_nodeCount node inNodes
    rw [regrafted.read_old NodeKind.instances NodeKind.instances_withStatements NodeKind.instances_mapChildren old]
      at instantiated
    obtain ⟨owner, owned, isClass⟩ := regrafted.instances_old inNodes instantiated
    -- A class is no reified function.
    refine regrafted.rename_of_owner owned fun reified => ?_
    obtain ⟨declared, isFunction, -⟩ := regrafted.reifying.reified_of_mem reified
    rw [isFunction] at isClass
    cases isClass
  · rw [regrafted.uses_made inMade small (NodeKind.instances_subset_uses _ instantiated)]
    exact regrafted.rename_of_le (by omega)

/-- A variable made for a reified function is no file or class. -/
theorem variable_not_container {function : Nat} (inMade : function ∈ made) :
    ((walked.graftAll (pendingClasses program.arena.nodeCount made containerOf)).node
      (madeNode program.arena.nodeCount made function 2)).kind.isClassContainer = false := by
  obtain ⟨declared, -, -, -, variableKind, -⟩ := regrafted.made_nodes inMade
  rw [variableKind]
  rfl

/-- Below an old node whose child is a file or class, that child was kept, and was a class below a
file or class already. -/
theorem nested_replaced {node original : Nat} (inNodes : node ∈ nodes) (isChild : original ∈ program.arena.children node)
    (container : ((walked.graftAll (pendingClasses program.arena.nodeCount made containerOf)).node
      (replacement program.arena.nodeCount made original)).kind.isClassContainer = true) :
    original ∉ made ∧ (program.arena.node original).kind.isClass = true ∧
      (program.arena.node node).kind.isClassContainer = true := by
  by_cases reified : original ∈ made
  · rw [replacement_of_mem reified, regrafted.variable_not_container reified] at container
    cases container
  · have originalOld := regrafted.sound.tree.lt_nodeCount original
      (List.mem_of_mem_tail (regrafted.sound.tree.child_mem inNodes isChild))
    rw [replacement_of_not_mem reified, regrafted.read_old NodeKind.isClassContainer
      NodeKind.isClassContainer_withStatements NodeKind.isClassContainer_mapChildren originalOld] at container
    exact ⟨reified, regrafted.sound.nested node inNodes original isChild container⟩

theorem nested_grafted : (walked.graftAll (pendingClasses program.arena.nodeCount made containerOf)).Nested final := by
  intro node member child isChild container
  rw [regrafted.children_grafted] at isChild
  rcases List.mem_append.mp isChild with walkedChild | grafted
  · rcases regrafted.cases_of_mem member with ⟨inNodes, -⟩ | ⟨function, inMade, part, small, rfl⟩
    · -- A kept node's children were replaced one by one.
      rw [Arena.children, regrafted.reifying.inside node inNodes, NodeKind.children_mapChildren] at walkedChild
      obtain ⟨original, isOriginal, rfl⟩ := List.mem_map.mp walkedChild
      obtain ⟨reified, isClass, above⟩ := regrafted.nested_replaced inNodes isOriginal container
      have originalOld := regrafted.sound.tree.lt_nodeCount original
        (List.mem_of_mem_tail (regrafted.sound.tree.child_mem inNodes isOriginal))
      rw [replacement_of_not_mem reified, regrafted.read_old NodeKind.isClass NodeKind.isClass_withStatements
        NodeKind.isClass_mapChildren originalOld, regrafted.read_old NodeKind.isClassContainer
        NodeKind.isClassContainer_withStatements NodeKind.isClassContainer_mapChildren
        (regrafted.sound.tree.lt_nodeCount node inNodes)]
      exact ⟨isClass, above⟩
    · obtain ⟨declared, isFunction, invoke, classKind, variableKind, -⟩ := regrafted.made_nodes inMade
      rw [Arena.children, ← regrafted.kind_new (le_madeNode _ _ _ _)] at walkedChild
      obtain rfl | rfl | rfl : part = 0 ∨ part = 1 ∨ part = 2 := by omega
      · -- The method's children replaced the function's, and no child of a function is a file or class.
        have replaced : child ∈ (program.arena.children function).map (replacement program.arena.nodeCount made) := by
          rw [invoke] at walkedChild
          simpa [Arena.children, isFunction, NodeKind.children, Function.invoke, Function.mapChildren] using walkedChild
        obtain ⟨original, isOriginal, rfl⟩ := List.mem_map.mp replaced
        have above := (regrafted.nested_replaced (regrafted.reifying.mem function inMade) isOriginal container).2.2
        rw [isFunction] at above
        cases above
      · -- A class made holds its method alone.
        rw [classKind] at walkedChild
        rw [List.mem_singleton.mp walkedChild, invoke] at container
        cases container
      · rw [variableKind] at walkedChild
        exact absurd walkedChild List.not_mem_nil
  · -- A class grafted onto a file or class.
    obtain ⟨function, inMade, rfl, rfl⟩ := mem_pendingClasses_filter grafted
    obtain ⟨declared, -, -, classKind, -, -⟩ := regrafted.made_nodes inMade
    obtain ⟨inNodes, isContainer⟩ := regrafted.containers function inMade
    refine ⟨by rw [classKind]; rfl, ?_⟩
    rw [regrafted.read_old NodeKind.isClassContainer NodeKind.isClassContainer_withStatements
      NodeKind.isClassContainer_mapChildren (regrafted.sound.tree.lt_nodeCount _ inNodes)]
    exact isContainer

/-- Reifying makes a sound program sound once renamed. -/
theorem soundAfter :
    Program.SoundAfter { program with arena := walked.graftAll (pendingClasses program.arena.nodeCount made containerOf) }
      final (reifiedRename program.arena.symbolCount made program.declaredSymbol) where
  root := by
    obtain ⟨name, statements, isFile⟩ := regrafted.sound.root
    refine ⟨name, walked.children program.file ++
      ((pendingClasses program.arena.nodeCount made containerOf).filter (·.1 == program.file)).map Prod.snd, ?_⟩
    show ((walked.graftAll (pendingClasses program.arena.nodeCount made containerOf)).node program.file).kind = _
    rw [regrafted.kind_grafted, regrafted.reifying.inside _ regrafted.sound.tree.mem_self, isFile]
    rfl
  tree := regrafted.tree
  linked := regrafted.linked
  owned _ member := regrafted.owns_grafted member
  resolved _ member _ used := regrafted.resolved_grafted member used
  builtinsFile_lt := by
    show program.builtinsFile < (walked.graftAll (pendingClasses program.arena.nodeCount made containerOf)).nodeCount
    rw [nodeCount_graftAll, regrafted.reifying.nodeCount]
    exact Nat.lt_of_lt_of_le regrafted.sound.builtinsFile_lt (Nat.le_add_right _ _)
  builtinsFile_not_mem member := not_regrown_of_old regrafted.sound.builtinsFile_lt
    regrafted.sound.builtinsFile_not_mem ((regrafted.members _).mp member)
  builtins_apart node child := by
    have original : node ∈ program.arena.children program.builtinsFile := by
      rw [← regrafted.children_builtinsFile]
      exact child
    obtain ⟨old, outside⟩ := regrafted.sound.builtins_apart node original
    refine ⟨?_, fun member => not_regrown_of_old old outside ((regrafted.members _).mp member)⟩
    show node < (walked.graftAll (pendingClasses program.arena.nodeCount made containerOf)).nodeCount
    rw [nodeCount_graftAll, regrafted.reifying.nodeCount]
    exact Nat.lt_of_lt_of_le old (Nat.le_add_right _ _)
  declares _ member _ used _ ownerMember owned := regrafted.declares_grafted member used ownerMember owned
  instances _ member _ instantiated _ owned := regrafted.instances_grafted member instantiated owned
  kept _ member _ instantiated := regrafted.kept_grafted member instantiated
  nested := regrafted.nested_grafted

end Regrafted

end ScriptLowering.Lowering

namespace ScriptLowering.Lowering

open Mir Arena

/-- Reifying a sound program: the walk and the grafts leave it `Regrafted`, and the renaming
follows unless nothing was reified. -/
theorem reifyFunctions_eq {program : Program} {nodes : List Nat} (sound : program.Sound nodes) :
    ∃ walked final, Regrafted program nodes program.reified program.classContainer walked final ∧
      reifyFunctions program =
        if program.reified = [] then
          .ok { program with
            arena := walked.graftAll (pendingClasses program.arena.nodeCount program.reified program.classContainer) }
        else Prod.fst <$> (renamer (reifiedRename program.arena.symbolCount program.reified program.declaredSymbol)).run
          { program with
            arena := walked.graftAll (pendingClasses program.arena.nodeCount program.reified program.classContainer) }
          () := by
  obtain ⟨name, statements, isFile⟩ := sound.root
  have fileKept : program.file ∉ program.reified := fun member => by
    have reifiable := reifiable_of_mem_reifiables member
    rw [isFile] at reifiable
    cases reifiable
  -- Each reified function climbs, through the tree, to its container.
  have climbsTo : ∀ function ∈ program.reified, ∃ climb,
      program.arena.Climbs climb (program.arena.node function).parent (program.classContainer function) ∧
        ∀ step ∈ climb, step ∈ nodes := by
    intro function member
    obtain ⟨inNodes, reifiable⟩ :=
      (sound.tree.mem_reifiables sound.tree.length_le function).mp member
    obtain ⟨-, path, placedClimbs, -, -⟩ := sound.toShaped.placed inNodes reifiable
    obtain ⟨declared, isFunction⟩ : ∃ declared, (program.arena.node function).kind = .function declared := by
      revert reifiable
      cases (program.arena.node function).kind <;> simp [NodeKind.reifiable]
    obtain ⟨climb, container, climbs, onPath, -⟩ := sound.toShaped.climbs inNodes
      (fun same => fileKept (same ▸ member)) (by rw [isFunction]; rfl)
    rw [← climbs.container_eq placedClimbs] at climbs
    exact ⟨climb, climbs, onPath⟩
  have exact : ∀ node ∈ nodes, node ∈ program.reified ↔ (program.arena.node node).kind.reifiable = true :=
    fun node member => by
      rw [Program.reified, sound.tree.mem_reifiables sound.tree.length_le node]
      simp [member]
  have containers : ∀ function ∈ program.reified, program.classContainer function ∈ nodes ∧
      (program.arena.node (program.classContainer function)).kind.isClassContainer = true := by
    intro function member
    obtain ⟨climb, climbs, onPath⟩ := climbsTo function member
    exact ⟨onPath _ climbs.mem, climbs.isClassContainer⟩
  -- The walk.
  obtain ⟨walked, ran, reifying⟩ := reifier_walk program.arena.nodeCount program.arena {} program.file nodes
    sound.tree sound.tree.length_le fun node member reifiable => sound.toShaped.placed member reifiable
  change (reifier.walk program.arena.nodeCount program.file).run (program.arena, {}) =
    .ok (replacement program.arena.nodeCount program.reified program.file, (walked, ({} : ReifyState).record
      program.classContainer program.declaredSymbol program.arena.nodeCount program.arena.symbolCount
      program.reified)) at ran
  change program.arena.Reifying walked nodes program.reified at reifying
  rw [replacement_of_not_mem fileKept] at ran
  -- What the walk left.
  obtain ⟨grown, classes, grownTree, grownLinked, classForest, apart, members, waits⟩ :=
    Reifying.regrow reifying (fun node member => sound.tree.lt_nodeCount node member) exact
      (fun function member path container climbs => by
        obtain ⟨climb, toContainer, -⟩ := climbsTo function member
        exact (toContainer.container_eq climbs).symm)
      program.arena.nodeCount program.file nodes none program.file sound.tree (fun _ member => member) sound.linked
      (.inr (by rw [isFile]; rfl)) sound.tree.length_le
  rw [replacement_of_not_mem fileKept] at grownTree grownLinked
  change walked.Forest (program.reified.map (madeNode program.arena.nodeCount program.reified · 1)) classes
    at classForest
  -- The grafts.
  have roots : (pendingClasses program.arena.nodeCount program.reified program.classContainer).map Prod.snd =
      program.reified.map (madeNode program.arena.nodeCount program.reified · 1) := by
    simp [pendingClasses]
  have containersWalked : ∀ entry ∈ pendingClasses program.arena.nodeCount program.reified program.classContainer,
      (walked.node entry.1).kind.isClassContainer = true := by
    intro entry member
    obtain ⟨function, inReified, rfl⟩ := List.mem_map.mp member
    obtain ⟨inNodes, isContainer⟩ := containers function inReified
    obtain ⟨replace, kind⟩ := reifying.kind_eq (sound.tree.lt_nodeCount _ inNodes)
    rw [kind, NodeKind.isClassContainer_mapChildren]
    exact isContainer
  have nodup : (pendingClasses program.arena.nodeCount program.reified program.classContainer).Nodup := by
    rw [pendingClasses, List.Nodup, List.pairwise_map]
    exact reifying.nodup.imp_of_mem fun inFirst inSecond different same =>
      different (madeNode_inj inFirst inSecond (by omega) (by omega) (congrArg Prod.snd same)).1
  obtain ⟨final, finalTree, finalLinked, memFinal⟩ := graftAll_tree
    (pendingClasses program.arena.nodeCount program.reified program.classContainer) walked (grown ++ classes)
    (.cons grownTree (by rw [roots]; exact classForest) apart) grownLinked containersWalked nodup
    (fun entry member => by
      obtain ⟨function, inReified, rfl⟩ := List.mem_map.mp member
      rcases waits function inReified with same | inGrown | ⟨later, order, tree, laterTree, inTree⟩
      · exact .inl ⟨grown, grownTree, same ▸ grownTree.mem_self⟩
      · exact .inl ⟨grown, grownTree, inGrown⟩
      · exact .inr ⟨(program.classContainer later, madeNode program.arena.nodeCount program.reified later 1),
          order.map fun function => (program.classContainer function,
            madeNode program.arena.nodeCount program.reified function 1), tree, laterTree, inTree⟩)
  refine ⟨walked, final,
    { sound, reifying, exact, containers
      tree := finalTree
      linked := finalLinked
      members := fun node => by rw [memFinal, members] }, ?_⟩
  -- The loop grafts the pending classes, and the renaming follows.
  obtain ⟨pending, renamed⟩ := ReifyState.record_empty reifying.nodup program.classContainer program.declaredSymbol
    program.arena.nodeCount program.arena.symbolCount
  have present : ∀ entry ∈ pendingClasses program.arena.nodeCount program.reified program.classContainer,
      entry.1 < walked.nodeCount := by
    intro entry member
    obtain ⟨function, inReified, rfl⟩ := List.mem_map.mp member
    rw [reifying.nodeCount]
    exact Nat.lt_of_lt_of_le (sound.tree.lt_nodeCount _ (containers function inReified).1) (Nat.le_add_right _ _)
  rw [reifyFunctions, reifier.run_eq_ok ran]
  simp only [Bind.bind, Except.bind]
  rw [pending, forIn_graft ?step _ walked present fun entry member =>
    NodeKind.isClassContainer_holds _ (containersWalked entry member)]
  · dsimp only
    rw [renamed]
    by_cases empty : program.reified = []
    · have nothing : (({} : ReifyState).record program.classContainer program.declaredSymbol program.arena.nodeCount
          program.arena.symbolCount program.reified).replaced.isEmpty = true := by
        simp [ReifyState.record, empty]
      rw [if_pos nothing, if_pos empty]
      rfl
    · have something : (({} : ReifyState).record program.classContainer program.declaredSymbol program.arena.nodeCount
          program.arena.symbolCount program.reified).replaced.isEmpty = false := by
        simpa [ReifyState.record] using empty
      rw [if_neg (by rw [something]; decide), if_neg empty]
      split
      · next failed => rw [failed]; rfl
      · next ran => rw [ran]; rfl
  · intro entry arena holds
    obtain ⟨container, created⟩ := entry
    simp only [arena.statements_eq_ok holds, arena.setStatements_eq_ok holds]
    rfl

/-- Reifying a sound program succeeds, and leaves it sound. -/
theorem reifyFunctions_sound {program : Program} {nodes : List Nat} (sound : program.Sound nodes) :
    ∃ after more, reifyFunctions program = .ok after ∧ after.Sound more := by
  obtain ⟨walked, final, regrafted, reified⟩ := reifyFunctions_eq sound
  rw [reified]
  by_cases empty : program.reified = []
  · -- Nothing was reified, so nothing is renamed.
    rw [if_pos empty]
    exact ⟨_, final, rfl, regrafted.soundAfter.sound fun symbol => by simp [reifiedRename, empty]⟩
  · rw [if_neg empty]
    obtain ⟨renamedProgram, ran, renamedSound⟩ := renamer_run_sound regrafted.soundAfter
    exact ⟨renamedProgram, final, by rw [ran]; rfl, renamedSound⟩

end ScriptLowering.Lowering
