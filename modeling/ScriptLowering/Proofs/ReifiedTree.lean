import ScriptLowering.Proofs.ReifyingWalk

/-! # The tree the reifying walk leaves

The walk puts a variable in the place of each function it reifies, and leaves the function's class
outside the tree, holding the method that took over the function's parameters and body. This module
reads the shape of the arena off `Arena.Reifying`, by induction on the tree before the walk
(`Arena.Reifying.regrow`): from each node hangs a tree at what took its place, linked as the node
was, and beside it a forest of the classes made below it, in the order they were made. Together
they hold the nodes of the subtree that were not reified and the three new nodes of each function
that was (`Regrown`).

Each class waits for the closest file or class above its function. That container is the one the
climb from above the subtree ends at, or a node of the tree, or a node of a class made later, whose
function holds the container: this is what lets the classes be appended one after the other.
-/

namespace ScriptLowering.Mir

/-- The node made for the function `node` once the functions `made` are reified in order from an
arena of `base` nodes: its method for `0`, its class for `1` and its variable for `2`. -/
def madeNode (base : Nat) (made : List Nat) (node part : Nat) : Nat := base + 3 * made.idxOf node + part

/-- Whether a node is left by reifying the functions `made` of the subtree whose nodes are `sub`: a
node of the subtree that is not reified, or one of the three nodes made for one that is. -/
def Regrown (base : Nat) (made sub : List Nat) (node : Nat) : Prop :=
  (node ∈ sub ∧ node ∉ made) ∨ ∃ function ∈ sub, function ∈ made ∧ ∃ part < 3, node = madeNode base made function part

section Regrowing

variable {base node : Nat} {made sub more : List Nat}

theorem replacement_of_mem (member : node ∈ made) : replacement base made node = madeNode base made node 2 := by
  simp [replacement, madeNode, member]

theorem le_madeNode (base : Nat) (made : List Nat) (function part : Nat) : base ≤ madeNode base made function part := by
  unfold madeNode
  omega

theorem madeNode_lt {function part : Nat} (member : function ∈ made) (small : part < 3) :
    madeNode base made function part < base + 3 * made.length := by
  have := List.idxOf_lt_length_of_mem member
  unfold madeNode
  omega

/-- Distinct reified functions get distinct nodes. -/
theorem madeNode_inj {first second part other : Nat} (inFirst : first ∈ made) (inSecond : second ∈ made)
    (small : part < 3) (smallOther : other < 3)
    (same : madeNode base made first part = madeNode base made second other) : first = second ∧ part = other := by
  unfold madeNode at same
  have index : made.idxOf first = made.idxOf second := by omega
  refine ⟨?_, by omega⟩
  rw [← List.getElem_idxOf (List.idxOf_lt_length_of_mem inFirst),
    ← List.getElem_idxOf (List.idxOf_lt_length_of_mem inSecond)]
  simp only [index]

theorem regrown_append : Regrown base made (sub ++ more) node ↔ Regrown base made sub node ∨ Regrown base made more node := by
  simp only [Regrown, List.mem_append]
  constructor
  · rintro (⟨inSub | inMore, notMade⟩ | ⟨function, inSub | inMore, made, rest⟩)
    · exact .inl (.inl ⟨inSub, notMade⟩)
    · exact .inr (.inl ⟨inMore, notMade⟩)
    · exact .inl (.inr ⟨function, inSub, made, rest⟩)
    · exact .inr (.inr ⟨function, inMore, made, rest⟩)
  · rintro ((⟨inSub, notMade⟩ | ⟨function, inSub, made, rest⟩) | (⟨inMore, notMade⟩ | ⟨function, inMore, made, rest⟩))
    · exact .inl ⟨.inl inSub, notMade⟩
    · exact .inr ⟨function, .inl inSub, made, rest⟩
    · exact .inl ⟨.inr inMore, notMade⟩
    · exact .inr ⟨function, .inr inMore, made, rest⟩

/-- A node of the subtree above the rest is left when it is not reified, and leaves its three nodes
when it is. -/
theorem regrown_cons {root : Nat} : Regrown base made (root :: sub) node ↔
    (node = root ∧ root ∉ made) ∨ (root ∈ made ∧ ∃ part < 3, node = madeNode base made root part) ∨
      Regrown base made sub node := by
  rw [show root :: sub = [root] ++ sub from rfl, regrown_append]
  simp only [Regrown, List.mem_singleton, exists_eq_left]
  constructor
  · rintro ((⟨rfl, notMade⟩ | made) | rest)
    · exact .inl ⟨rfl, notMade⟩
    · exact .inr (.inl made)
    · exact .inr (.inr rest)
  · rintro (⟨rfl, notMade⟩ | made | rest)
    · exact .inl (.inl ⟨rfl, notMade⟩)
    · exact .inl (.inr made)
    · exact .inr rest

/-- An old node outside the subtree is not left by it. -/
theorem not_regrown_of_old (old : node < base) (outside : node ∉ sub) : ¬ Regrown base made sub node := by
  rintro (⟨inSub, _⟩ | ⟨function, _, _, part, _, rfl⟩)
  · exact outside inSub
  · exact absurd (le_madeNode base made function part) (by omega)

/-- A node made for a function outside the subtree is not left by it. -/
theorem not_regrown_madeNode {function part : Nat} (member : function ∈ made) (outside : function ∉ sub)
    (small : part < 3) (old : ∀ node ∈ sub, node < base) :
    ¬ Regrown base made sub (madeNode base made function part) := by
  rintro (⟨inSub, _⟩ | ⟨other, inSub, otherMade, otherPart, smallOther, same⟩)
  · exact absurd (le_madeNode base made function part) (by have := old _ inSub; omega)
  · obtain ⟨rfl, -⟩ := madeNode_inj member otherMade small smallOther same
    exact outside inSub

/-- Apart subtrees of old nodes leave apart nodes. -/
theorem Regrown.apart (old : ∀ node ∈ sub ++ more, node < base) (apart : ∀ node ∈ sub, node ∉ more)
    (left : Regrown base made sub node) (right : Regrown base made more node) : False := by
  rcases left with ⟨inSub, _⟩ | ⟨function, inSub, member, part, small, rfl⟩
  · exact not_regrown_of_old (old node (List.mem_append_left _ inSub)) (apart node inSub) right
  · exact not_regrown_madeNode member (apart function inSub) small
      (fun node inMore => old node (List.mem_append_right _ inMore)) right

end Regrowing

namespace Arena

variable {arena : Arena}

/-- The climb from a link is determined by the link. -/
theorem Climbs.container_eq {path other : List Nat} {above : Option Nat} {container found : Nat}
    (climbs : arena.Climbs path above container) (again : arena.Climbs other above found) : found = container := by
  induction climbs generalizing other with
  | found isContainer =>
    cases again with
    | found => rfl
    | up passing => simp [isContainer] at passing
  | up passing _ ih =>
    cases again with
    | found isContainer => simp [isContainer] at passing
    | up _ rest => exact ih rest

/-- The climb from the link a node passes to its children ends at the node when it is a file or
class, and where the climb from its own link ends otherwise. -/
theorem climbs_passedLink_to {id context : Nat} {above : Option Nat}
    (parent : (arena.node id).kind.tracksParent = true → (arena.node id).parent = above)
    (start : (∃ path, arena.Climbs path above context) ∨ (arena.node id).kind.isClassContainer = true) :
    ∃ path, arena.Climbs path (arena.passedLink id above)
      (if (arena.node id).kind.isClassContainer then id else context) := by
  by_cases isContainer : (arena.node id).kind.isClassContainer = true
  · have tracks : (arena.node id).kind.tracksParent = true := by
      revert isContainer
      cases (arena.node id).kind <;> simp [NodeKind.isClassContainer, NodeKind.tracksParent]
    refine ⟨[id], ?_⟩
    rw [passedLink, if_pos tracks, if_pos isContainer]
    exact .found isContainer
  · obtain ⟨path, climbs⟩ := start.resolve_right isContainer
    rw [if_neg isContainer]
    by_cases tracks : (arena.node id).kind.tracksParent = true
    · refine ⟨id :: path, ?_⟩
      rw [passedLink, if_pos tracks]
      exact .up (by simpa using isContainer) (parent tracks ▸ climbs)
    · refine ⟨path, ?_⟩
      rw [passedLink, if_neg tracks]
      exact climbs

/-- Over a forest, given it for each of its trees: the functions reified below its roots are its
reifiable nodes. -/
theorem Forest.mem_reifiables {fuel : Nat}
    (trees : ∀ {root : Nat} {sub : List Nat}, arena.Tree root sub → sub.length ≤ fuel →
      ∀ node, node ∈ arena.reifiables fuel root ↔ node ∈ sub ∧ (arena.node node).kind.reifiable = true) :
    ∀ {ids nodes : List Nat}, arena.Forest ids nodes → nodes.length ≤ fuel →
      ∀ node, node ∈ ids.flatMap (arena.reifiables fuel) ↔ node ∈ nodes ∧ (arena.node node).kind.reifiable = true := by
  intro ids
  -- By induction on the roots; the forest is mutual with the trees, so it is taken apart by cases.
  induction ids with
  | nil =>
    intro nodes forest
    cases forest
    simp
  | cons id rest restReifiables =>
    intro nodes forest fits target
    cases forest with | cons tree forest _ =>
    simp only [List.length_append] at fits
    simp only [List.flatMap_cons, List.mem_append, trees tree (by omega) target, restReifiables forest (by omega) target]
    grind

/-- The functions reified below a node, with fuel for its subtree, are its reifiable nodes. -/
theorem Tree.mem_reifiables : ∀ {fuel root : Nat} {sub : List Nat}, arena.Tree root sub → sub.length ≤ fuel →
    ∀ node, node ∈ arena.reifiables fuel root ↔ node ∈ sub ∧ (arena.node node).kind.reifiable = true
  | 0, _, _, tree, fits, _ => by
    cases tree
    simp at fits
  | fuel + 1, root, _, .node present children fresh, fits, target => by
    simp only [List.length_cons, Nat.add_le_add_iff_right] at fits
    have below := Forest.mem_reifiables (fun tree fits => Tree.mem_reifiables tree fits) children fits target
    simp only [reifiables, List.mem_append, below, List.mem_cons]
    by_cases reifiable : (arena.node root).kind.reifiable = true
    · simp only [reifiable, if_true, List.mem_singleton]
      constructor
      · rintro (⟨inBelow, isReifiable⟩ | rfl)
        · exact ⟨.inr inBelow, isReifiable⟩
        · exact ⟨.inl rfl, reifiable⟩
      · rintro ⟨rfl | inBelow, isReifiable⟩
        · exact .inr rfl
        · exact .inl ⟨inBelow, isReifiable⟩
    · simp only [reifiable, Bool.false_eq_true, if_false, List.not_mem_nil, or_false]
      constructor
      · rintro ⟨inBelow, isReifiable⟩
        exact ⟨.inr inBelow, isReifiable⟩
      · rintro ⟨rfl | inBelow, isReifiable⟩
        · exact absurd isReifiable reifiable
        · exact ⟨inBelow, isReifiable⟩

/-- The children of the method made for a reified function are what took the places of the
function's children. -/
theorem Reified.children_invoke {a s : Nat} {span : Span} {parent : Option Nat} {declared : Function}
    {replace : Nat → Nat} (built : arena.Reified a s span parent (declared.mapChildren replace)) :
    arena.children a = (NodeKind.function declared).children.map replace := by
  rw [Arena.children, built.invokeNode]
  simp [NodeKind.children, Function.invoke, Function.mapChildren]

namespace Reifying

variable {before after : Arena} {nodes made : List Nat}

/-- What reifying made for one of the functions it reified, read off the function. -/
theorem reified_of_mem (reifying : before.Reifying after nodes made) {function : Nat} (member : function ∈ made) :
    ∃ declared, (before.node function).kind = .function declared ∧
      after.Reified (madeNode before.nodeCount made function 0) (before.symbolCount + 3 * made.idxOf function)
        (before.node function).span (before.node function).parent
        (declared.mapChildren (replacement before.nodeCount made)) := by
  have index := List.idxOf_lt_length_of_mem member
  have built := reifying.made _ index
  rw [List.getElem_idxOf index] at built
  exact built

section Regrow

variable (before after nodes made) (containerOf : Nat → Nat)

/-- What the walk left of every subtree of `nodes` that fits `fuel`, the climb from above its root
ending at `context`: a tree at what took the root's place, linked as the root was, and beside it
the forest of the classes made below the root, in the order they were made, together holding what
the subtree left. Each of those classes waits for `context`, for a node of the tree, or for a node
of a class made after it. -/
def Regrows (fuel : Nat) : Prop :=
  ∀ root sub above context, before.Tree root sub → (∀ node ∈ sub, node ∈ nodes) → before.Linked root above →
    ((∃ path, before.Climbs path above context) ∨ (before.node root).kind.isClassContainer = true) →
    sub.length ≤ fuel →
    ∃ grown classes, after.Tree (replacement before.nodeCount made root) grown ∧
      after.Linked (replacement before.nodeCount made root) above ∧
      after.Forest ((before.reifiables fuel root).map (madeNode before.nodeCount made · 1)) classes ∧
      (∀ node ∈ grown, node ∉ classes) ∧
      (∀ node, node ∈ grown ++ classes ↔ Regrown before.nodeCount made sub node) ∧
      ∀ function ∈ before.reifiables fuel root, containerOf function = context ∨ containerOf function ∈ grown ∨
        ∃ later, [function, later].Sublist (before.reifiables fuel root) ∧
          ∃ tree, after.Tree (madeNode before.nodeCount made later 1) tree ∧ containerOf function ∈ tree

variable {before after nodes made containerOf}

/-- What the walk left of the subtrees of a forest, one after another. -/
theorem regrow_forest {fuel : Nat} (regrows : Regrows before after nodes made containerOf fuel)
    (old : ∀ node ∈ nodes, node < before.nodeCount) {above : Option Nat} {context : Nat}
    (climbs : ∃ path, before.Climbs path above context) :
    ∀ ids sub, before.Forest ids sub → (∀ node ∈ sub, node ∈ nodes) → (∀ id ∈ ids, before.Linked id above) →
      sub.length ≤ fuel →
      ∃ grown classes, after.Forest (ids.map (replacement before.nodeCount made)) grown ∧
        (∀ id ∈ ids, after.Linked (replacement before.nodeCount made id) above) ∧
        after.Forest ((ids.flatMap (before.reifiables fuel)).map (madeNode before.nodeCount made · 1)) classes ∧
        (∀ node ∈ grown, node ∉ classes) ∧
        (∀ node, node ∈ grown ++ classes ↔ Regrown before.nodeCount made sub node) ∧
        ∀ function ∈ ids.flatMap (before.reifiables fuel), containerOf function = context ∨
          containerOf function ∈ grown ∨ ∃ later, [function, later].Sublist (ids.flatMap (before.reifiables fuel)) ∧
            ∃ tree, after.Tree (madeNode before.nodeCount made later 1) tree ∧ containerOf function ∈ tree := by
  intro ids
  -- By induction on the roots, the first tree's regrowth beside the rest's.
  induction ids with
  | nil =>
    intro sub forest _ _ _
    cases forest
    exact ⟨[], [], .nil, fun _ member => absurd member List.not_mem_nil, .nil,
      fun _ member => absurd member List.not_mem_nil, fun _ => by simp [Regrown], fun _ member => absurd member (by simp)⟩
  | cons id rest restRegrows =>
    intro sub forest within linked fits
    cases forest with | @cons _ _ first others tree forest apart =>
    simp only [List.length_append] at fits
    obtain ⟨grown, classes, grownTree, grownLinked, classForest, apartHere, memHere, waitsHere⟩ :=
      regrows id first above context tree (fun node member => within node (List.mem_append_left _ member))
        (linked id List.mem_cons_self) (.inl climbs) (by omega)
    obtain ⟨grownRest, classesRest, restForest, restLinked, restClasses, apartRest, memRest, waitsRest⟩ :=
      restRegrows others forest (fun node member => within node (List.mem_append_right _ member))
        (fun other member => linked other (List.mem_cons_of_mem _ member)) (by omega)
    -- What the first tree left and what the others left are apart, as the trees were.
    have separate : ∀ node, node ∈ grown ++ classes → node ∉ grownRest ++ classesRest := fun node left right =>
      Regrown.apart (fun node member => old node (within node member)) apart ((memHere node).mp left)
        ((memRest node).mp right)
    refine ⟨grown ++ grownRest, classes ++ classesRest, ?_, ?_, ?_, ?_, ?_, ?_⟩
    · exact .cons grownTree restForest fun node inGrown inRest =>
        separate node (List.mem_append_left _ inGrown) (List.mem_append_left _ inRest)
    · intro other member
      rcases List.mem_cons.mp member with rfl | later
      · exact grownLinked
      · exact restLinked other later
    · rw [List.flatMap_cons, List.map_append]
      exact restClasses.append classForest fun node inClasses inRest =>
        separate node (List.mem_append_right _ inClasses) (List.mem_append_right _ inRest)
    · intro node inGrown inClasses
      rcases List.mem_append.mp inGrown with here | there <;> rcases List.mem_append.mp inClasses with here' | there'
      · exact apartHere node here here'
      · exact separate node (List.mem_append_left _ here) (List.mem_append_right _ there')
      · exact separate node (List.mem_append_right _ here') (List.mem_append_left _ there)
      · exact apartRest node there there'
    · intro node
      rw [regrown_append, ← memHere, ← memRest]
      simp only [List.mem_append]
      grind
    · intro function member
      rw [List.flatMap_cons] at member ⊢
      rcases List.mem_append.mp member with here | there
      · rcases waitsHere function here with same | inGrown | ⟨later, order, waiting⟩
        · exact .inl same
        · exact .inr (.inl (List.mem_append_left _ inGrown))
        · exact .inr (.inr ⟨later, order.trans (List.sublist_append_left _ _), waiting⟩)
      · rcases waitsRest function there with same | inGrown | ⟨later, order, waiting⟩
        · exact .inl same
        · exact .inr (.inl (List.mem_append_right _ inGrown))
        · exact .inr (.inr ⟨later, order.trans (List.sublist_append_right _ _), waiting⟩)

/-- The walk leaves, below every node of the tree, the tree at what took its place and the forest of
the classes made below it. By induction on the fuel, as the walk goes: a kept node keeps its
children's places, and a reified function leaves a variable, its class holding the method over
what its children left. -/
theorem regrow (reifying : before.Reifying after nodes made) (old : ∀ node ∈ nodes, node < before.nodeCount)
    (exact : ∀ node ∈ nodes, node ∈ made ↔ (before.node node).kind.reifiable = true)
    (placedAt : ∀ node ∈ made, ∀ path container, before.Climbs path (before.node node).parent container →
      containerOf node = container) :
    ∀ fuel, Regrows before after nodes made containerOf fuel
  | 0 => fun _ _ _ _ tree _ _ _ fits => by
    cases tree
    simp at fits
  | fuel + 1 => fun root sub above context tree within linked climbs fits => by
    cases tree with
    | @node _ below present children fresh =>
    cases linked with
    | node parent childrenLinked =>
    simp only [List.length_cons, Nat.add_le_add_iff_right] at fits
    have inNodes : root ∈ nodes := within root List.mem_cons_self
    have withinBelow : ∀ node ∈ below, node ∈ nodes := fun node member => within node (List.mem_cons_of_mem _ member)
    have oldBelow : ∀ node ∈ below, node < before.nodeCount := fun node member => old node (withinBelow node member)
    obtain ⟨path, childClimbs⟩ := climbs_passedLink_to parent climbs
    obtain ⟨grownBelow, classesBelow, forest, linkedBelow, classForest, apartBelow, memBelow, waitsBelow⟩ :=
      regrow_forest (regrow reifying old exact placedAt fuel) old ⟨path, childClimbs⟩ (before.children root) below
        children withinBelow childrenLinked fits
    by_cases reified : root ∈ made
    · -- A reified function leaves its variable in its place, and its class beside it.
      obtain ⟨declared, isFunction, built⟩ := reifying.reified_of_mem reified
      have unfolded : before.reifiables (fuel + 1) root =
          (before.children root).flatMap (before.reifiables fuel) ++ [root] := by
        simp [reifiables, (exact root inNodes).mp reified]
      have notContainer : (before.node root).kind.isClassContainer = false := by rw [isFunction]; rfl
      have atAbove : (before.node root).parent = above := parent (by rw [isFunction]; rfl)
      have present : ∀ part < 3, madeNode before.nodeCount made root part < after.nodeCount := fun part small => by
        rw [reifying.nodeCount]
        exact madeNode_lt reified small
      have notBelow : ∀ part < 3, madeNode before.nodeCount made root part ∉ grownBelow ++ classesBelow :=
        fun part small member => not_regrown_madeNode reified fresh small oldBelow ((memBelow _).mp member)
      have classNode : after.node (madeNode before.nodeCount made root 1) =
          { kind := .classDef (before.symbolCount + 3 * made.idxOf root + 1) declared.name
              [madeNode before.nodeCount made root 0] .functionClass, span := .synthetic } := built.classNode
      have variableNode : after.node (madeNode before.nodeCount made root 2) =
          { kind := .variable (before.symbolCount + 3 * made.idxOf root + 2) declared.name
              (some (.newInstance .synthetic (before.symbolCount + 3 * made.idxOf root + 1) [])),
            span := .synthetic, parent := (before.node root).parent } := built.variableNode
      have invokeTree : after.Tree (madeNode before.nodeCount made root 0)
          (madeNode before.nodeCount made root 0 :: grownBelow) := by
        refine .node (present 0 (by omega)) ?_ fun member => notBelow 0 (by omega) (List.mem_append_left _ member)
        rw [built.children_invoke, ← isFunction]
        exact forest
      have classTree : after.Tree (madeNode before.nodeCount made root 1)
          (madeNode before.nodeCount made root 1 :: madeNode before.nodeCount made root 0 :: grownBelow) := by
        refine .node (present 1 (by omega)) ?_ fun member => ?_
        · rw [Arena.children, classNode]
          exact .single invokeTree
        · rcases List.mem_cons.mp member with same | inGrown
          · simp [madeNode] at same
          · exact notBelow 1 (by omega) (List.mem_append_left _ inGrown)
      have variableTree : after.Tree (madeNode before.nodeCount made root 2) [madeNode before.nodeCount made root 2] := by
        refine .node (present 2 (by omega)) ?_ List.not_mem_nil
        rw [Arena.children, variableNode]
        exact .nil
      have variableLinked : after.Linked (madeNode before.nodeCount made root 2) above := by
        refine .node (fun _ => by rw [variableNode]; exact atAbove) fun child member => ?_
        rw [Arena.children, variableNode] at member
        exact absurd member List.not_mem_nil
      -- The three new nodes are apart, and apart from what the children left.
      have distinct : ∀ part < 3, ∀ other < 3,
          madeNode before.nodeCount made root part = madeNode before.nodeCount made root other → part = other :=
        fun part _ other _ same => by simp [madeNode] at same; exact same
      rw [replacement_of_mem reified, unfolded, List.map_append]
      refine ⟨[madeNode before.nodeCount made root 2],
        classesBelow ++ (madeNode before.nodeCount made root 1 :: madeNode before.nodeCount made root 0 :: grownBelow),
        variableTree, variableLinked, ?_, ?_, ?_, ?_⟩
      · refine Forest.append (.single classTree) classForest fun node inClasses inClass => ?_
        simp only [List.mem_cons] at inClass
        rcases inClass with rfl | rfl | inGrown
        · exact notBelow 1 (by omega) (List.mem_append_right _ inClasses)
        · exact notBelow 0 (by omega) (List.mem_append_right _ inClasses)
        · exact apartBelow node inGrown inClasses
      · intro node inVariable inClasses
        rw [List.mem_singleton.mp inVariable] at inClasses
        simp only [List.mem_append, List.mem_cons] at inClasses
        rcases inClasses with inClasses | same | same | inGrown
        · exact notBelow 2 (by omega) (List.mem_append_right _ inClasses)
        · exact absurd (distinct 2 (by omega) 1 (by omega) same) (by omega)
        · exact absurd (distinct 2 (by omega) 0 (by omega) same) (by omega)
        · exact notBelow 2 (by omega) (List.mem_append_left _ inGrown)
      · intro node
        rw [regrown_cons, ← memBelow]
        simp only [List.mem_append, List.mem_cons, reified, not_true_eq_false, and_false, true_and, false_or,
          List.not_mem_nil, or_false]
        constructor
        · rintro (rfl | inClasses | rfl | rfl | inGrown)
          · exact .inl ⟨2, by omega, rfl⟩
          · exact .inr (.inr inClasses)
          · exact .inl ⟨1, by omega, rfl⟩
          · exact .inl ⟨0, by omega, rfl⟩
          · exact .inr (.inl inGrown)
        · rintro (⟨part, small, rfl⟩ | inGrown | inClasses)
          · obtain rfl | rfl | rfl : part = 0 ∨ part = 1 ∨ part = 2 := by omega
            · exact .inr (.inr (.inr (.inl rfl)))
            · exact .inr (.inr (.inl rfl))
            · exact .inl rfl
          · exact .inr (.inr (.inr (.inr inGrown)))
          · exact .inr (.inl inClasses)
      · intro function member
        rcases List.mem_append.mp member with inChildren | isRoot
        · -- A function below waits for what the root's climb ends at, or inside the root's class.
          rcases waitsBelow function inChildren with same | inGrown | ⟨later, order, waiting⟩
          · rw [notContainer] at same
            exact .inl same
          · refine .inr (.inr ⟨root, ?_, _, classTree, ?_⟩)
            · exact (List.singleton_sublist.mpr inChildren).append (List.Sublist.refl [root])
            · exact List.mem_cons_of_mem _ (List.mem_cons_of_mem _ inGrown)
          · exact .inr (.inr ⟨later, order.trans (List.sublist_append_left _ _), waiting⟩)
        · rw [List.mem_singleton.mp isRoot]
          obtain ⟨start, rootClimbs⟩ := climbs.resolve_right (by rw [notContainer]; simp)
          exact .inl (placedAt root reified start context (atAbove ▸ rootClimbs))
    · -- A kept node keeps its place, its children replaced.
      have notReifiable : (before.node root).kind.reifiable = false := by
        cases isReifiable : (before.node root).kind.reifiable
        · rfl
        · exact absurd ((exact root inNodes).mpr isReifiable) reified
      have rootKind : (after.node root).kind =
          (before.node root).kind.mapChildren (replacement before.nodeCount made) := by
        rw [reifying.inside root inNodes]
      have afterChildren : after.children root = (before.children root).map (replacement before.nodeCount made) := by
        rw [Arena.children, rootKind, NodeKind.children_mapChildren]
        rfl
      have passed : after.passedLink root above = before.passedLink root above := by
        simp only [passedLink, rootKind, NodeKind.tracksParent_mapChildren]
      have rootFresh : root ∉ grownBelow ++ classesBelow := fun member =>
        not_regrown_of_old (old root inNodes) fresh ((memBelow root).mp member)
      have unfolded : before.reifiables (fuel + 1) root = (before.children root).flatMap (before.reifiables fuel) := by
        simp [reifiables, notReifiable]
      rw [replacement_of_not_mem reified, unfolded]
      refine ⟨root :: grownBelow, classesBelow, ?_, ?_, classForest, ?_, ?_, ?_⟩
      · refine .node (by rw [reifying.nodeCount]; have := old root inNodes; omega) ?_
          fun member => rootFresh (List.mem_append_left _ member)
        rw [afterChildren]
        exact forest
      · refine .node (fun tracks => ?_) fun child member => ?_
        · rw [reifying.inside root inNodes] at tracks ⊢
          exact parent (by simpa using tracks)
        · rw [afterChildren] at member
          obtain ⟨original, isChild, rfl⟩ := List.mem_map.mp member
          rw [passed]
          exact linkedBelow original isChild
      · intro node member inClasses
        rcases List.mem_cons.mp member with rfl | inGrown
        · exact rootFresh (List.mem_append_right _ inClasses)
        · exact apartBelow node inGrown inClasses
      · intro node
        rw [regrown_cons, ← memBelow]
        simp only [List.mem_append, List.mem_cons, reified, not_false_eq_true, and_true, false_and, false_or]
        grind
      · intro function member
        rcases waitsBelow function member with same | inGrown | later
        · by_cases isContainer : (before.node root).kind.isClassContainer = true
          · rw [if_pos isContainer] at same
            exact .inr (.inl (same ▸ List.mem_cons_self))
          · rw [if_neg isContainer] at same
            exact .inl same
        · exact .inr (.inl (List.mem_cons_of_mem _ inGrown))
        · exact .inr (.inr later)

end Regrow

end Reifying

end Arena

end ScriptLowering.Mir
