import ScriptLowering.Proofs.Initializers

/-! # The reifying walk

Reifying walks the tree of a program once, children before parents. At a function written in the
source it makes three nodes and three symbols: a method `invoke` taking over the function's
parameters and body, a class holding the method alone, and a variable holding a new instance of the
class, which takes the function's place among its parent's children. The class waits to be appended
to the closest file or class above the function, and the function's symbol waits to be renamed to
the variable's.

This module says exactly what the walk does to an arena (`Arena.Reifying`, `reifier_walk`): the
functions it reifies are those of the subtree in post-order (`Arena.reifiables`), the `j`-th of them
gets the `j`-th three new nodes and symbols (`Arena.Reified`), every node of the subtree has each
child replaced by what took its place (`NodeKind.mapChildren`, `replacement`), and every other node
and symbol stays as it was.
-/

namespace ScriptLowering.Mir

/-- Whether reifying turns a function of this origin into a class: one written in the source does,
as would one claiming a class's origin; built-in functions, methods and initializers stay. -/
def Origin.reifiable : Origin → Bool
  | .source | .functionClass | .fileClass => true
  | .builtIn | .invoke | .classInitializer => false

/-- Whether reifying turns a node into a class. -/
def NodeKind.reifiable : NodeKind → Bool
  | .function declared => declared.origin.reifiable
  | _ => false

/-- A function whose parameters and body are replaced one by one. -/
def Function.mapChildren (replace : Nat → Nat) (declared : Function) : Function :=
  { declared with parameters := declared.parameters.map replace, body := replace declared.body }

/-- A node whose children are replaced one by one. -/
def NodeKind.mapChildren (replace : Nat → Nat) : NodeKind → NodeKind
  | .function declared => .function (declared.mapChildren replace)
  | kind => kind.withStatements (kind.children.map replace)

/-- The method taking over a reified function's parameters and body. -/
def Function.invoke (declared : Function) (symbol : Nat) : Function :=
  { symbol, name := Lowering.invokeName, parameters := declared.parameters, body := declared.body,
    native := true, static := false, origin := .invoke }

/-- The functions reifying turns into classes in the subtree at `id`, in the order it reaches them:
each after every one below it, siblings in order; at most `fuel` levels deep. -/
def Arena.reifiables (arena : Arena) : (fuel : Nat) → Nat → List Nat
  | 0, _ => []
  | fuel + 1, id =>
    (arena.children id).flatMap (arena.reifiables fuel) ++ if (arena.node id).kind.reifiable then [id] else []

/-- What takes the place of a node once the functions `made` are reified in order, from an arena of
`base` nodes: the third node made for it if it is one of them, else the node itself. -/
def replacement (base : Nat) (made : List Nat) (node : Nat) : Nat :=
  if node ∈ made then base + 3 * made.idxOf node + 2 else node

/-- What reifying the function `declared` made at node index `a` and symbol index `s`: the method
at `a`, with the function's span, its class at `a + 1`, and at `a + 2` the variable taking the
function's place, linked where the function was; each symbol is bound to its node. -/
structure Arena.Reified (arena : Arena) (a s : Nat) (span : Span) (parent : Option Nat) (declared : Function) :
    Prop where
  invokeNode : arena.node a = { kind := .function (declared.invoke s), span }
  classNode : arena.node (a + 1) =
    { kind := .classDef (s + 1) declared.name [a] .functionClass, span := .synthetic }
  variableNode : arena.node (a + 2) =
    { kind := .variable (s + 2) declared.name (some (.newInstance .synthetic (s + 1) [])),
      span := .synthetic, parent }
  invokeSymbol : arena.symbol s = { kind := .function, owner := some a }
  classSymbol : arena.symbol (s + 1) = { kind := .classDef, owner := some (a + 1) }
  variableSymbol : arena.symbol (s + 2) = { kind := .variable, owner := some (a + 2) }

/-- The arena `after` is `before` once the functions `made` of the subtree whose nodes are `sub` are
reified in order: the `j`-th function made the `j`-th three new nodes and symbols, each node of the
subtree has its children replaced by what took their places, and nothing else changed. -/
structure Arena.Reifying (before after : Arena) (sub made : List Nat) : Prop where
  mem : ∀ node ∈ made, node ∈ sub
  nodup : made.Nodup
  nodeCount : after.nodeCount = before.nodeCount + 3 * made.length
  symbolCount : after.symbolCount = before.symbolCount + 3 * made.length
  outside : ∀ node < before.nodeCount, node ∉ sub → after.node node = before.node node
  inside : ∀ node ∈ sub, after.node node =
    { before.node node with kind := (before.node node).kind.mapChildren (replacement before.nodeCount made) }
  symbol : ∀ symbol < before.symbolCount, after.symbol symbol = before.symbol symbol
  made : ∀ j (h : j < made.length), ∃ declared, (before.node made[j]).kind = .function declared ∧
    after.Reified (before.nodeCount + 3 * j) (before.symbolCount + 3 * j) (before.node made[j]).span
      (before.node made[j]).parent (declared.mapChildren (replacement before.nodeCount made))

/-- Reifying the function at `node` records `symbolOf node` as its symbol and `containerOf node` as
the file or class its class goes to: the climb from its parent link ends there, through old nodes. -/
def Arena.Placed (arena : Arena) (containerOf symbolOf : Nat → Nat) (node : Nat) : Prop :=
  (arena.node node).kind.symbol? = some (symbolOf node) ∧
    ∃ path, arena.Climbs path (arena.node node).parent (containerOf node) ∧ path.length ≤ arena.nodeCount ∧
      ∀ step ∈ path, step < arena.nodeCount

/-! ## Replacing children -/

namespace NodeKind

variable (kind : NodeKind) (replace : Nat → Nat)

@[simp] theorem children_mapChildren : (kind.mapChildren replace).children = kind.children.map replace := by
  cases kind <;> simp [mapChildren, Function.mapChildren, withStatements, children]

@[simp] theorem symbol?_mapChildren : (kind.mapChildren replace).symbol? = kind.symbol? := by
  cases kind <;> rfl

@[simp] theorem uses_mapChildren : (kind.mapChildren replace).uses = kind.uses := by
  cases kind <;> rfl

@[simp] theorem instances_mapChildren : (kind.mapChildren replace).instances = kind.instances := by
  cases kind <;> rfl

@[simp] theorem tracksParent_mapChildren : (kind.mapChildren replace).tracksParent = kind.tracksParent := by
  cases kind <;> rfl

@[simp] theorem isClassContainer_mapChildren :
    (kind.mapChildren replace).isClassContainer = kind.isClassContainer := by
  cases kind <;> rfl

@[simp] theorem isClass_mapChildren : (kind.mapChildren replace).isClass = kind.isClass := by
  cases kind <;> rfl

@[simp] theorem isDeclaration_mapChildren : (kind.mapChildren replace).isDeclaration = kind.isDeclaration := by
  cases kind <;> rfl

@[simp] theorem reifiable_mapChildren : (kind.mapChildren replace).reifiable = kind.reifiable := by
  cases kind <;> rfl

@[simp] theorem reifiable_withStatements (statements : List Nat) :
    (kind.withStatements statements).reifiable = kind.reifiable := by
  cases kind <;> rfl

@[simp] theorem reifiable_renameSymbols : (kind.renameSymbols replace).reifiable = kind.reifiable := by
  cases kind <;> rfl

theorem mapChildren_of_holdsStatements (holds : kind.holdsStatements = true) :
    kind.mapChildren replace = kind.withStatements (kind.children.map replace) := by
  cases kind <;> simp_all [holdsStatements, mapChildren]

/-- Replacing children reads only the children. -/
theorem mapChildren_congr {other : Nat → Nat} (same : ∀ child ∈ kind.children, replace child = other child) :
    kind.mapChildren replace = kind.mapChildren other := by
  cases kind with
  | function declared =>
    simp only [children, List.mem_append, List.mem_singleton] at same
    simp only [mapChildren, Function.mapChildren, NodeKind.function.injEq]
    rw [List.map_congr_left fun child member => same child (.inl member), same declared.body (.inr rfl)]
  | _ =>
    simp only [mapChildren]
    rw [List.map_congr_left same]

/-- A node none of whose children is replaced stays as it is. -/
theorem mapChildren_of_forall (same : ∀ child ∈ kind.children, replace child = child) :
    kind.mapChildren replace = kind := by
  rw [@mapChildren_congr kind replace (fun child => child) same]
  cases kind <;> simp [mapChildren, Function.mapChildren, withStatements, children]

end NodeKind

theorem Function.mapChildren_congr {declared : Function} {replace other : Nat → Nat}
    (same : ∀ child ∈ declared.parameters ++ [declared.body], replace child = other child) :
    declared.mapChildren replace = declared.mapChildren other := by
  have := @NodeKind.mapChildren_congr (.function declared) replace other same
  simpa [NodeKind.mapChildren] using this

/-! ## Where the replacing nodes are -/

section Replacement

variable {base node : Nat} {made others : List Nat}

theorem replacement_of_not_mem (outside : node ∉ made) : replacement base made node = node := by
  simp [replacement, outside]

theorem replacement_append_left (outside : node ∉ others) :
    replacement base (made ++ others) node = replacement base made node := by
  by_cases inMade : node ∈ made
  · simp [replacement, inMade, List.idxOf_append_of_mem inMade]
  · simp [replacement, inMade, outside]

theorem replacement_append_right (outside : node ∉ made) :
    replacement base (made ++ others) node = replacement (base + 3 * made.length) others node := by
  by_cases inOthers : node ∈ others
  · simp only [replacement, List.mem_append, outside, inOthers, or_true, if_true,
      List.idxOf_append_of_notMem outside]
    omega
  · simp [replacement, inOthers, outside]

end Replacement

/-! ## Reifying, step by step -/

namespace Arena

variable {first second third : Arena}

/-- What reifying made stays in an arena that keeps its three nodes and symbols. -/
theorem Reified.congr {a s : Nat} {span : Span} {parent : Option Nat} {declared : Function}
    (reified : first.Reified a s span parent declared)
    (nodes : ∀ node, a ≤ node → node < a + 3 → second.node node = first.node node)
    (symbols : ∀ symbol, s ≤ symbol → symbol < s + 3 → second.symbol symbol = first.symbol symbol) :
    second.Reified a s span parent declared where
  invokeNode := by rw [nodes a (by omega) (by omega)]; exact reified.invokeNode
  classNode := by rw [nodes (a + 1) (by omega) (by omega)]; exact reified.classNode
  variableNode := by rw [nodes (a + 2) (by omega) (by omega)]; exact reified.variableNode
  invokeSymbol := by rw [symbols s (by omega) (by omega)]; exact reified.invokeSymbol
  classSymbol := by rw [symbols (s + 1) (by omega) (by omega)]; exact reified.classSymbol
  variableSymbol := by rw [symbols (s + 2) (by omega) (by omega)]; exact reified.variableSymbol

namespace Reifying

variable {sub more made others : List Nat}

theorem refl (arena : Arena) (sub : List Nat) : arena.Reifying arena sub [] where
  mem _ member := absurd member List.not_mem_nil
  nodup := List.nodup_nil
  nodeCount := by simp
  symbolCount := by simp
  outside _ _ _ := rfl
  inside node _ := by
    rw [NodeKind.mapChildren_of_forall _ _ fun _ _ => replacement_of_not_mem List.not_mem_nil]
  symbol _ _ := rfl
  made j h := absurd h (by simp)

/-- Old nodes keep their links, and their kinds up to their children. -/
theorem parent_eq (reifying : first.Reifying second sub made) {node : Nat} (old : node < first.nodeCount) :
    (second.node node).parent = (first.node node).parent := by
  by_cases member : node ∈ sub
  · rw [reifying.inside node member]
  · rw [reifying.outside node old member]

theorem kind_eq (reifying : first.Reifying second sub made) {node : Nat} (old : node < first.nodeCount) :
    ∃ replace, (second.node node).kind = (first.node node).kind.mapChildren replace := by
  by_cases member : node ∈ sub
  · exact ⟨_, by rw [reifying.inside node member]⟩
  · refine ⟨fun child => child, ?_⟩
    rw [reifying.outside node old member, NodeKind.mapChildren_of_forall _ _ fun _ _ => rfl]

/-- A forest apart from the reified subtree stays as it was. -/
theorem forest {ids nodes : List Nat} (reifying : first.Reifying second sub made)
    (forest : first.Forest ids nodes) (apart : ∀ node ∈ nodes, node ∉ sub) : second.Forest ids nodes :=
  forest.frame (fun node member => by
    rw [reifying.outside node (forest.lt_nodeCount node member) (apart node member)])
    (by rw [reifying.nodeCount]; omega)

/-- A function waiting to be reified stays placed: the climb from it passes old nodes, whose links
and kinds of node stay. -/
theorem placed {containerOf symbolOf : Nat → Nat} (reifying : first.Reifying second sub made) {node : Nat}
    (old : node < first.nodeCount) (placed : first.Placed containerOf symbolOf node) :
    second.Placed containerOf symbolOf node := by
  obtain ⟨declares, path, climbs, short, onPath⟩ := placed
  obtain ⟨replace, kind⟩ := reifying.kind_eq old
  refine ⟨by rw [kind, NodeKind.symbol?_mapChildren]; exact declares, path, ?_,
    by rw [reifying.nodeCount]; omega, fun step member => by rw [reifying.nodeCount]; have := onPath step member; omega⟩
  rw [reifying.parent_eq old]
  refine climbs.congr fun step member => ⟨?_, reifying.parent_eq (onPath step member)⟩
  obtain ⟨replace, kind⟩ := reifying.kind_eq (onPath step member)
  rw [kind, NodeKind.isClassContainer_mapChildren]

/-- Two subtrees reified one after the other, apart and each closed under children. -/
theorem append (left : first.Reifying second sub made) (right : second.Reifying third more others)
    (apart : ∀ node ∈ sub, node ∉ more) (subOld : ∀ node ∈ sub, node < first.nodeCount)
    (moreOld : ∀ node ∈ more, node < first.nodeCount)
    (subClosed : ∀ node ∈ sub, ∀ child ∈ first.children node, child ∈ sub)
    (moreClosed : ∀ node ∈ more, ∀ child ∈ first.children node, child ∈ more) :
    first.Reifying third (sub ++ more) (made ++ others) := by
  have secondOld : ∀ node ∈ more, second.node node = first.node node := fun node member =>
    left.outside node (moreOld node member) fun inSub => apart node inSub member
  have notOthers : ∀ node ∈ sub, node ∉ others := fun node member inOthers =>
    apart node member (right.mem node inOthers)
  have notMade : ∀ node ∈ more, node ∉ made := fun node member inMade =>
    apart node (left.mem node inMade) member
  -- Within each subtree, the replacements of the whole are those of its own walk.
  have leftReplace : ∀ node ∈ sub, ∀ child ∈ first.children node,
      replacement first.nodeCount (made ++ others) child = replacement first.nodeCount made child :=
    fun node member child isChild => replacement_append_left (notOthers child (subClosed node member child isChild))
  have rightReplace : ∀ node ∈ more, ∀ child ∈ first.children node,
      replacement first.nodeCount (made ++ others) child = replacement second.nodeCount others child :=
    fun node member child isChild => by
      rw [replacement_append_right (notMade child (moreClosed node member child isChild)), left.nodeCount]
  refine
    { mem := fun node member => ?_
      nodup := ?_
      nodeCount := by rw [right.nodeCount, left.nodeCount, List.length_append]; omega
      symbolCount := by rw [right.symbolCount, left.symbolCount, List.length_append]; omega
      outside := fun node old outside => ?_
      inside := fun node member => ?_
      symbol := fun symbol old => by
        rw [right.symbol symbol (by rw [left.symbolCount]; omega), left.symbol symbol old]
      made := fun j bound => ?_ }
  · rcases List.mem_append.mp member with inMade | inOthers
    · exact List.mem_append_left _ (left.mem node inMade)
    · exact List.mem_append_right _ (right.mem node inOthers)
  · exact List.nodup_append.mpr ⟨left.nodup, right.nodup, fun node inMade other inOthers same =>
      notOthers node (left.mem node inMade) (same ▸ inOthers)⟩
  · rw [right.outside node (by rw [left.nodeCount]; omega) fun inMore => outside (List.mem_append_right _ inMore),
      left.outside node old fun inSub => outside (List.mem_append_left _ inSub)]
  · rcases List.mem_append.mp member with inSub | inMore
    · rw [right.outside node (by rw [left.nodeCount]; have := subOld node inSub; omega)
        (apart node inSub), left.inside node inSub,
        NodeKind.mapChildren_congr _ _ (leftReplace node inSub)]
    · rw [right.inside node inMore, secondOld node inMore,
        NodeKind.mapChildren_congr _ _ (rightReplace node inMore)]
  · by_cases early : j < made.length
    · obtain ⟨declared, isFunction, reified⟩ := left.made j early
      refine ⟨declared, by rw [List.getElem_append_left early]; exact isFunction, ?_⟩
      have within := left.mem _ (List.getElem_mem early)
      rw [List.getElem_append_left early,
        Function.mapChildren_congr fun child isChild => leftReplace _ within child (by
          rw [Arena.children, isFunction]; exact isChild)]
      refine reified.congr (fun node low high => right.outside node (by rw [left.nodeCount]; omega)
        fun inMore => ?_) (fun symbol low high => right.symbol symbol (by rw [left.symbolCount]; omega))
      have := moreOld node inMore
      omega
    · have late : j - made.length < others.length := by simp at bound; omega
      obtain ⟨declared, isFunction, reified⟩ := right.made (j - made.length) late
      have index : (made ++ others)[j] = others[j - made.length] :=
        List.getElem_append_right (Nat.le_of_not_lt early)
      have within := right.mem _ (List.getElem_mem late)
      rw [secondOld _ within] at isFunction reified
      refine ⟨declared, by rw [index]; exact isFunction, ?_⟩
      rw [index, Function.mapChildren_congr fun child isChild => rightReplace _ within child (by
          rw [Arena.children, isFunction]; exact isChild)]
      have nodesAt : second.nodeCount + 3 * (j - made.length) = first.nodeCount + 3 * j := by
        rw [left.nodeCount]; omega
      have symbolsAt : second.symbolCount + 3 * (j - made.length) = first.symbolCount + 3 * j := by
        rw [left.symbolCount]; omega
      rwa [nodesAt, symbolsAt] at reified

/-- A node taking back its children replaced, once the subtrees below it were reified from an
arena where only the node itself differed. -/
theorem rooted {root : Nat} {kind : NodeKind} (walked : (first.setKind root kind).Reifying second sub made)
    (present : root < first.nodeCount) (fresh : root ∉ sub) :
    first.Reifying (second.setKind root ((first.node root).kind.mapChildren (replacement first.nodeCount made)))
      (root :: sub) made := by
  have setOther : ∀ node ≠ root, (first.setKind root kind).node node = first.node node :=
    fun node other => first.node_setKind_ne _ other
  have secondRoot : second.node root = { first.node root with kind } := by
    rw [walked.outside root (by simpa using present) fresh, first.node_setKind_self _ present]
  have notRoot : ∀ node ∈ made, node ≠ root := fun node member same => fresh (same ▸ walked.mem node member)
  have rootPresent : root < second.nodeCount := by rw [walked.nodeCount]; simp; omega
  refine
    { mem := fun node member => List.mem_cons_of_mem _ (walked.mem node member)
      nodup := walked.nodup
      nodeCount := by rw [nodeCount_setKind, walked.nodeCount, nodeCount_setKind]
      symbolCount := by rw [symbolCount_setKind, walked.symbolCount, symbolCount_setKind]
      outside := fun node old outside => ?_
      inside := fun node member => ?_
      symbol := fun symbol old => by
        rw [symbol_setKind, walked.symbol symbol (by simpa using old), symbol_setKind]
      made := fun j bound => ?_ }
  · have other : node ≠ root := fun same => outside (same ▸ List.mem_cons_self)
    rw [second.node_setKind_ne _ other, walked.outside node (by simpa using old)
      fun inSub => outside (List.mem_cons_of_mem _ inSub), setOther node other]
  · rcases List.mem_cons.mp member with rfl | inSub
    · rw [second.node_setKind_self _ rootPresent, secondRoot]
    · have other : node ≠ root := fun same => fresh (same ▸ inSub)
      rw [second.node_setKind_ne _ other, walked.inside node inSub, setOther node other, nodeCount_setKind]
  · obtain ⟨declared, isFunction, reified⟩ := walked.made j bound
    have other := notRoot _ (List.getElem_mem bound)
    rw [setOther _ other, nodeCount_setKind, symbolCount_setKind] at *
    refine ⟨declared, isFunction, reified.congr (fun node low _ => second.node_setKind_ne _ ?_) fun _ _ _ => rfl⟩
    omega

/-- A function reified once the subtrees below it were: its three nodes and symbols come after
those of the functions below it. -/
theorem reify {root : Nat} {declared : Function} (walked : first.Reifying second (root :: sub) made)
    (isFunction : (first.node root).kind = .function declared) (notMade : root ∉ made)
    (closed : ∀ node ∈ root :: sub, ∀ child ∈ first.children node, child ≠ root)
    (old : ∀ node ∈ root :: sub, node < first.nodeCount) {after : Arena} (nodeCount : after.nodeCount = second.nodeCount + 3)
    (symbolCount : after.symbolCount = second.symbolCount + 3)
    (nodes : ∀ node < second.nodeCount, after.node node = second.node node)
    (symbols : ∀ symbol < second.symbolCount, after.symbol symbol = second.symbol symbol)
    (reified : after.Reified second.nodeCount second.symbolCount (first.node root).span (first.node root).parent
      (declared.mapChildren (replacement first.nodeCount made))) :
    first.Reifying after (root :: sub) (made ++ [root]) := by
  have keep : ∀ node ∈ root :: sub, ∀ child ∈ first.children node,
      replacement first.nodeCount (made ++ [root]) child = replacement first.nodeCount made child :=
    fun node member child isChild =>
      replacement_append_left fun same => closed node member child isChild (List.mem_singleton.mp same)
  refine
    { mem := fun node member => ?_
      nodup := List.nodup_append.mpr ⟨walked.nodup, by simp, fun node inMade other last equal => by
        rw [List.mem_singleton.mp last] at equal; exact notMade (equal ▸ inMade)⟩
      nodeCount := by rw [nodeCount, walked.nodeCount, List.length_append]; simp; omega
      symbolCount := by rw [symbolCount, walked.symbolCount, List.length_append]; simp; omega
      outside := fun node old outside => by
        rw [nodes node (by rw [walked.nodeCount]; omega), walked.outside node old outside]
      inside := fun node member => ?_
      symbol := fun symbol old => by
        rw [symbols symbol (by rw [walked.symbolCount]; omega), walked.symbol symbol old]
      made := fun j bound => ?_ }
  · rcases List.mem_append.mp member with inMade | last
    · exact walked.mem node inMade
    · rw [List.mem_singleton.mp last]; exact List.mem_cons_self
  · rw [nodes node (by rw [walked.nodeCount]; have := old node member; omega), walked.inside node member,
      NodeKind.mapChildren_congr _ _ (keep node member)]
  · by_cases early : j < made.length
    · obtain ⟨function, isFunction, reified⟩ := walked.made j early
      have within := walked.mem _ (List.getElem_mem early)
      refine ⟨function, by rw [List.getElem_append_left early]; exact isFunction, ?_⟩
      rw [List.getElem_append_left early, Function.mapChildren_congr fun child isChild =>
        keep _ within child (by rw [Arena.children, isFunction]; exact isChild)]
      exact reified.congr (fun node _ high => nodes node (by rw [walked.nodeCount]; omega))
        fun symbol _ high => symbols symbol (by rw [walked.symbolCount]; omega)
    · have last : j = made.length := by simp at bound; omega
      subst last
      refine ⟨declared, by simpa using isFunction, ?_⟩
      simp only [List.getElem_append_right (Nat.le_refl _), Nat.sub_self, List.getElem_cons_zero]
      rw [Function.mapChildren_congr fun child isChild =>
        keep root List.mem_cons_self child (by rw [Arena.children, isFunction]; exact isChild)]
      rwa [walked.nodeCount, walked.symbolCount] at reified

end Reifying

/-- Only functions reifying turns into classes are listed. -/
theorem reifiable_of_mem_reifiables {arena : Arena} {fuel root node : Nat} (member : node ∈ arena.reifiables fuel root) :
    (arena.node node).kind.reifiable = true := by
  induction fuel generalizing root with
  | zero => simp [reifiables] at member
  | succ fuel ih =>
    simp only [reifiables, List.mem_append, List.mem_flatMap] at member
    rcases member with ⟨child, _, inChild⟩ | last
    · exact ih inChild
    · by_cases reifiable : (arena.node root).kind.reifiable = true
      · simp only [reifiable, if_true, List.mem_singleton] at last
        rw [last]
        exact reifiable
      · simp [reifiable] at last

/-- The functions reified below a node are read off its subtree alone. -/
theorem Tree.reifiables_congr {root : Nat} {sub : List Nat} (tree : first.Tree root sub)
    (same : ∀ node ∈ sub, (second.node node).kind = (first.node node).kind) (fuel : Nat) :
    second.reifiables fuel root = first.reifiables fuel root := by
  induction fuel generalizing root sub with
  | zero => rfl
  | succ fuel ih =>
    cases tree with
    | node present children fresh =>
      simp only [reifiables, children_congr (same root List.mem_cons_self), same root List.mem_cons_self]
      congr 1
      apply List.flatMap_congr
      intro child member
      obtain ⟨below, childTree, within⟩ := children.exists_tree member
      exact ih childTree fun node inBelow => same node (List.mem_cons_of_mem _ (within node inBelow))

theorem Forest.reifiables_congr {ids nodes : List Nat} (forest : first.Forest ids nodes)
    (same : ∀ node ∈ nodes, (second.node node).kind = (first.node node).kind) (fuel : Nat) :
    ids.flatMap (second.reifiables fuel) = ids.flatMap (first.reifiables fuel) := by
  apply List.flatMap_congr
  intro child member
  obtain ⟨below, childTree, within⟩ := forest.exists_tree member
  exact childTree.reifiables_congr (fun node inBelow => same node (within node inBelow)) fuel

end Arena

end ScriptLowering.Mir

namespace ScriptLowering.Lowering

open Mir Arena

/-- The state after reifying the functions `made` in order, the first from an arena of `nodes` nodes
and `symbols` symbols: each new class waits for its function's container, and each function's
symbol is to be renamed to its variable's, the latest first. -/
def ReifyState.record (state : ReifyState) (containerOf symbolOf : Nat → Nat) (nodes symbols : Nat)
    (made : List Nat) : ReifyState where
  pending := state.pending ++ made.mapIdx fun j function => (containerOf function, nodes + 3 * j + 1)
  replaced := (made.mapIdx fun j function => (symbolOf function, symbols + 3 * j + 2)).reverse ++
    state.replaced

end ScriptLowering.Lowering

/-! ## One function -/

namespace ScriptLowering.Mir.Arena

/-- The arena with one more node, of kind `kind`, declaring one more symbol, bound to it. -/
def declare (arena : Arena) (symbolKind : SymbolKind) (kind : NodeKind) (span : Span) : Arena where
  nodes := arena.nodes.push { kind, span }
  symbols := arena.symbols.push { kind := symbolKind, owner := some arena.nodeCount }

variable (arena : Arena) (symbolKind : SymbolKind) (kind : NodeKind) (span : Span)

@[simp] theorem nodeCount_declare : (arena.declare symbolKind kind span).nodeCount = arena.nodeCount + 1 := by
  simp [declare, nodeCount]

@[simp] theorem symbolCount_declare :
    (arena.declare symbolKind kind span).symbolCount = arena.symbolCount + 1 := by
  simp [declare, symbolCount]

theorem node_declare (id : Nat) :
    (arena.declare symbolKind kind span).node id = if id = arena.nodeCount then { kind, span } else arena.node id := by
  by_cases last : id = arena.nodes.size <;> simp [declare, node, nodeCount, Array.getElem?_push, last]

theorem symbol_declare (symbol : Nat) :
    (arena.declare symbolKind kind span).symbol symbol =
      if symbol = arena.symbolCount then { kind := symbolKind, owner := some arena.nodeCount }
      else arena.symbol symbol := by
  by_cases last : symbol = arena.symbols.size <;>
    simp [declare, Arena.symbol, symbolCount, Array.getElem?_push, last]

variable {first second : Arena}

/-- A function stays placed while old nodes keep their links and whether they are files or classes,
and it keeps its symbol. -/
theorem Placed.frame {containerOf symbolOf : Nat → Nat} {node : Nat}
    (placed : first.Placed containerOf symbolOf node) (grows : first.nodeCount ≤ second.nodeCount)
    (links : ∀ other < first.nodeCount, (second.node other).parent = (first.node other).parent ∧
      (second.node other).kind.isClassContainer = (first.node other).kind.isClassContainer)
    (declares : (second.node node).kind.symbol? = (first.node node).kind.symbol?) (old : node < first.nodeCount) :
    second.Placed containerOf symbolOf node := by
  obtain ⟨declared, path, climbs, short, onPath⟩ := placed
  refine ⟨declares.trans declared, path, ?_, by omega, fun step member => by have := onPath step member; omega⟩
  rw [(links node old).1]
  exact climbs.congr fun step member => ⟨(links step (onPath step member)).2, (links step (onPath step member)).1⟩

/-- A placed function finds the file or class its class goes to. -/
theorem Placed.closestClassContainer {containerOf symbolOf : Nat → Nat} {node : Nat}
    (placed : first.Placed containerOf symbolOf node) :
    first.closestClassContainer node = some (containerOf node) := by
  obtain ⟨_, path, climbs, short, _⟩ := placed
  exact climbs.containerAbove short

end ScriptLowering.Mir.Arena

namespace ScriptLowering.Lowering

open Mir Arena

theorem ReifyState.record_nil (state : ReifyState) (containerOf symbolOf : Nat → Nat) (nodes symbols : Nat) :
    state.record containerOf symbolOf nodes symbols [] = state := by
  simp [ReifyState.record]

theorem ReifyState.record_append (state : ReifyState) (containerOf symbolOf : Nat → Nat) (nodes symbols : Nat)
    (made others : List Nat) :
    (state.record containerOf symbolOf nodes symbols made).record containerOf symbolOf
        (nodes + 3 * made.length) (symbols + 3 * made.length) others =
      state.record containerOf symbolOf nodes symbols (made ++ others) := by
  simp only [ReifyState.record, List.mapIdx_append, List.reverse_append, List.append_assoc, ReifyState.mk.injEq]
  constructor
  · congr 2
    apply congrArg (List.mapIdx · others)
    funext j function
    simp only [Prod.mk.injEq, true_and]
    omega
  · congr 2
    apply congrArg (List.mapIdx · others)
    funext j function
    simp only [Prod.mk.injEq, true_and]
    omega

section Declare

variable {σ α : Type}

/-- Making a symbol, a node declaring it, and binding the one to the other. -/
theorem declare_run (arena : Arena) (state : σ) (symbolKind : SymbolKind) (kind : Nat → NodeKind) (span : Span)
    (rest : Nat → Nat → PassM σ α) :
    (do
      let symbol ← addSymbol symbolKind
      let node ← addNode (kind symbol) span
      bindTo symbol node
      rest symbol node : PassM σ α).run (arena, state) =
      (rest arena.symbolCount arena.nodeCount).run (arena.declare symbolKind (kind arena.symbolCount) span, state) := by
  have unbound : (((arena.newSymbol symbolKind).1.push (kind arena.symbolCount) span).1.symbol
      arena.symbolCount).owner = none := by
    simp [symbol_newSymbol]
  rw [run_bind_of_ok (addSymbol_run _ _ _), run_bind_of_ok (addNode_run _ _ _ _),
    run_bind_of_ok (bindTo_run _ _ _ unbound)]
  congr 2
  simp only [declare, newSymbol, push, nodeCount, symbolCount, Arena.mk.injEq, true_and]
  -- Binding the last symbol made sets the owner of the last entry.
  apply Array.ext_getElem?
  intro index
  simp only [Array.getElem?_modify, Array.getElem?_push]
  by_cases last : index = arena.symbols.size
  · simp [last]
  · simp [last, Ne.symm last]

end Declare

/-- Reifying one function: the method, the class and the variable come in that order, and the class
waits for the file or class found above the function. -/
theorem reifyFunction_run {arena : Arena} (state : ReifyState) {id container : Nat} {declared : Function}
    (isFunction : (arena.node id).kind = .function declared) (found : arena.closestClassContainer id = some container) :
    ∃ after, (reifyFunction id).run (arena, state) =
        .ok (arena.nodeCount + 2, (after,
          { pending := state.pending ++ [(container, arena.nodeCount + 1)],
            replaced := (declared.symbol, arena.symbolCount + 2) :: state.replaced })) ∧
      after.nodeCount = arena.nodeCount + 3 ∧ after.symbolCount = arena.symbolCount + 3 ∧
      (∀ node < arena.nodeCount, after.node node = arena.node node) ∧
      (∀ symbol < arena.symbolCount, after.symbol symbol = arena.symbol symbol) ∧
      after.Reified arena.nodeCount arena.symbolCount (arena.node id).span (arena.node id).parent declared := by
  rw [reifyFunction, run_bind_of_ok (currentArena_run arena state)]
  simp only [arena.function_eq_ok isFunction, liftM, monadLift, MonadLift.monadLift]
  rw [run_bind_of_ok (lift_ok_run _ _)]
  simp only [found]
  rw [declare_run, declare_run, declare_run, run_bind_of_ok (changeArena_run _ _ _)]
  simp only [nodeCount_declare, symbolCount_declare]
  refine ⟨_, rfl, by simp, by simp, fun node old => ?_, fun symbol old => ?_, ?_⟩
  · rw [setParent, node_modifyNode_ne _ _ (by omega)]
    simp [node_declare, Nat.ne_of_lt old, Nat.ne_of_lt (Nat.lt_succ_of_lt old),
      Nat.ne_of_lt (Nat.lt_succ_of_lt (Nat.lt_succ_of_lt old))]
  · simp [symbol_declare, Nat.ne_of_lt old, Nat.ne_of_lt (Nat.lt_succ_of_lt old),
      Nat.ne_of_lt (Nat.lt_succ_of_lt (Nat.lt_succ_of_lt old))]
  · refine ⟨?_, ?_, ?_, ?_, ?_, ?_⟩
    · rw [setParent, node_modifyNode_ne _ _ (by omega)]
      simp [node_declare, Function.invoke, show arena.nodeCount ≠ arena.nodeCount + 1 + 1 by omega]
    · rw [setParent, node_modifyNode_ne _ _ (by omega)]
      simp [node_declare]
    · rw [setParent, node_modifyNode_self _ _ (by simp)]
      simp [node_declare]
    · simp [symbol_declare, show arena.symbolCount ≠ arena.symbolCount + 1 + 1 by omega]
    · simp [symbol_declare]
    · simp [symbol_declare]

/-- After its children, a function that stays is given back as it is. -/
theorem reifier_afterFunction_of_kept {arena : Arena} (state : ReifyState) {id : Nat} {declared : Function}
    (isFunction : (arena.node id).kind = .function declared) (kept : declared.origin.reifiable = false) :
    (reifier.afterFunction id).run (arena, state) = .ok (id, (arena, state)) := by
  simp only [reifier, run_bind_of_ok (currentArena_run arena state)]
  simp only [arena.function_eq_ok isFunction, liftM, monadLift, MonadLift.monadLift]
  rw [run_bind_of_ok (lift_ok_run _ _)]
  cases origin : declared.origin <;> simp_all [Origin.reifiable] <;> rfl

/-- After its children, a function written in the source is reified. -/
theorem reifier_afterFunction_of_reifiable {arena : Arena} (state : ReifyState) {id : Nat} {declared : Function}
    (isFunction : (arena.node id).kind = .function declared) (reifiable : declared.origin.reifiable = true) :
    (reifier.afterFunction id).run (arena, state) = (reifyFunction id).run (arena, state) := by
  simp only [reifier, run_bind_of_ok (currentArena_run arena state)]
  simp only [arena.function_eq_ok isFunction, liftM, monadLift, MonadLift.monadLift]
  rw [run_bind_of_ok (lift_ok_run _ _)]
  cases origin : declared.origin <;> simp_all [Origin.reifiable]

end ScriptLowering.Lowering

/-! ## The walk -/

namespace ScriptLowering.Lowering

open Mir Arena

section Walk

variable (containerOf symbolOf : Nat → Nat)

/-- What the reifying walk with `fuel` does to every tree that fits it, stated for one arena, state
and tree. -/
def ReifiesWithin (fuel : Nat) : Prop :=
  ∀ (arena : Arena) (state : ReifyState) (root : Nat) (sub : List Nat), arena.Tree root sub → sub.length ≤ fuel →
    (∀ node ∈ sub, (arena.node node).kind.reifiable = true → arena.Placed containerOf symbolOf node) →
    ∃ after, (reifier.walk fuel root).run (arena, state) =
        .ok (replacement arena.nodeCount (arena.reifiables fuel root) root,
          (after, state.record containerOf symbolOf arena.nodeCount arena.symbolCount (arena.reifiables fuel root))) ∧
      arena.Reifying after sub (arena.reifiables fuel root)

variable {containerOf symbolOf}

/-- The reifying walk over the trees of a forest, one after another. -/
theorem mapM_reifier_walk {fuel : Nat} (walks : ReifiesWithin containerOf symbolOf fuel) :
    ∀ (ids : List Nat) (arena : Arena) (state : ReifyState) (nodes : List Nat), arena.Forest ids nodes →
      nodes.length ≤ fuel →
      (∀ node ∈ nodes, (arena.node node).kind.reifiable = true → arena.Placed containerOf symbolOf node) →
      ∃ after, (ids.mapM (reifier.walk fuel)).run (arena, state) =
          .ok (ids.map (replacement arena.nodeCount (ids.flatMap (arena.reifiables fuel))),
            (after, state.record containerOf symbolOf arena.nodeCount arena.symbolCount
              (ids.flatMap (arena.reifiables fuel)))) ∧
        arena.Reifying after nodes (ids.flatMap (arena.reifiables fuel))
  | [], arena, state, _, .nil, _, _ =>
    ⟨arena, by rw [List.flatMap_nil, ReifyState.record_nil]; rfl, .refl arena []⟩
  | root :: rest, arena, state, _, @Arena.Forest.cons _ _ _ first others tree forest apart, fits, placed => by
    simp only [List.length_append] at fits
    obtain ⟨middle, ran, reifying⟩ := walks arena state root first tree (by omega)
      fun node member => placed node (List.mem_append_left _ member)
    have othersApart : ∀ node ∈ others, node ∉ first := fun node inOthers inFirst => apart node inFirst inOthers
    have othersOld : ∀ node ∈ others, node < arena.nodeCount := forest.lt_nodeCount
    have sameKinds : ∀ node ∈ others, (middle.node node).kind = (arena.node node).kind := fun node member => by
      rw [reifying.outside node (othersOld node member) (othersApart node member)]
    -- The later trees are walked in the arena the first walk left, which kept them.
    obtain ⟨after, restRan, restReifying⟩ := mapM_reifier_walk walks rest middle _ others
      (reifying.forest forest othersApart) (by omega) fun node member reifiable =>
        reifying.placed (othersOld node member) (placed node (List.mem_append_right _ member)
          (by rwa [sameKinds node member] at reifiable))
    have restMade : rest.flatMap (middle.reifiables fuel) = rest.flatMap (arena.reifiables fuel) :=
      forest.reifiables_congr sameKinds fuel
    rw [restMade, reifying.nodeCount, reifying.symbolCount] at restRan
    rw [restMade] at restReifying
    have notRest : root ∉ rest.flatMap (arena.reifiables fuel) := fun member =>
      apart root tree.mem_self (restReifying.mem root member)
    have values : (root :: rest).map (replacement arena.nodeCount ((root :: rest).flatMap (arena.reifiables fuel))) =
        replacement arena.nodeCount (arena.reifiables fuel root) root ::
          rest.map (replacement (arena.nodeCount + 3 * (arena.reifiables fuel root).length)
            (rest.flatMap (arena.reifiables fuel))) := by
      rw [List.flatMap_cons, List.map_cons, replacement_append_left notRest]
      congr 1
      refine List.map_congr_left fun later member => replacement_append_right fun inFirst =>
        apart later (reifying.mem later inFirst) (forest.root_mem member)
    refine ⟨after, ?_, reifying.append restReifying (fun node inFirst inOthers => apart node inFirst inOthers)
      tree.lt_nodeCount othersOld (fun node member child isChild => List.mem_of_mem_tail (tree.child_mem member isChild))
      fun node member child isChild => forest.child_mem member isChild⟩
    rw [List.mapM_cons, run_bind_of_ok ran, run_bind_of_ok restRan, ReifyState.record_append, values, List.flatMap_cons]
    rfl

/-- The reifying walk at a file, class or body: the statements are walked while the node holds none,
and the node takes back what took their places. -/
theorem reifier_walkStatements {fuel : Nat} (walks : ReifiesWithin containerOf symbolOf fuel) {arena : Arena}
    (state : ReifyState) {root : Nat} {below : List Nat} (tree : arena.Tree root (root :: below))
    (fits : below.length ≤ fuel) (holds : (arena.node root).kind.holdsStatements = true)
    (placed : ∀ node ∈ below, (arena.node node).kind.reifiable = true → arena.Placed containerOf symbolOf node) :
    ∃ after, (reifier.walkStatements fuel root).run (arena, state) =
        .ok (root, (after, state.record containerOf symbolOf arena.nodeCount arena.symbolCount
          ((arena.children root).flatMap (arena.reifiables fuel)))) ∧
      arena.Reifying after (root :: below) ((arena.children root).flatMap (arena.reifiables fuel)) := by
  obtain ⟨present, children, fresh⟩ : root < arena.nodeCount ∧ arena.Forest (arena.children root) below ∧
      root ∉ below := by
    cases tree with
    | node present children fresh => exact ⟨present, children, fresh⟩
  -- The node gives its statements up while they are walked.
  let cleared := arena.setKind root ((arena.node root).kind.withStatements [])
  have apartFromRoot : ∀ node ∈ below, node ∉ [root] := fun node member same =>
    fresh (List.mem_singleton.mp same ▸ member)
  have clearedKinds : ∀ node ∈ below, (cleared.node node).kind = (arena.node node).kind := fun node member => by
    have other : node ≠ root := fun same => fresh (same ▸ member)
    rw [arena.node_setKind_ne _ other]
  have clearedLinks : ∀ other < arena.nodeCount, (cleared.node other).parent = (arena.node other).parent ∧
      (cleared.node other).kind.isClassContainer = (arena.node other).kind.isClassContainer := by
    intro other _
    by_cases same : other = root
    · subst same
      simp [cleared, arena.node_setKind_self _ present]
    · simp [cleared, arena.node_setKind_ne _ same]
  obtain ⟨walked, ran, reifying⟩ := mapM_reifier_walk walks (arena.children root) cleared state below
    ((arena.edits_setKind root _).forest children apartFromRoot) fits fun node member reifiable =>
      (placed node member (by rwa [clearedKinds node member] at reifiable)).frame (by simp [cleared]) clearedLinks
        (by rw [clearedKinds node member]) (children.lt_nodeCount node member)
  have made : (arena.children root).flatMap (cleared.reifiables fuel) =
      (arena.children root).flatMap (arena.reifiables fuel) :=
    children.reifiables_congr clearedKinds fuel
  rw [made] at ran reifying
  simp only [cleared, nodeCount_setKind, symbolCount_setKind] at ran
  -- It takes back its statements, replaced.
  have walkedRoot : walked.node root = { arena.node root with kind := (arena.node root).kind.withStatements [] } := by
    rw [reifying.outside root (by simpa [cleared] using present) fresh, arena.node_setKind_self _ present]
  have walkedHolds : (walked.node root).kind.holdsStatements = true := by simp [walkedRoot, holds]
  have final : walked.setKind root ((walked.node root).kind.withStatements ((arena.children root).map
        (replacement arena.nodeCount ((arena.children root).flatMap (arena.reifiables fuel))))) =
      walked.setKind root ((arena.node root).kind.mapChildren
        (replacement arena.nodeCount ((arena.children root).flatMap (arena.reifiables fuel)))) := by
    rw [walkedRoot, NodeKind.withStatements_withStatements, NodeKind.mapChildren_of_holdsStatements _ _ holds,
      Arena.children]
  refine ⟨_, ?_, reifying.rooted present fresh⟩
  rw [Rewrite.walkStatements_run _ _ _ _ _ holds, run_bind_of_ok (putStatements_run arena state holds []),
    run_bind_of_ok ran, run_bind_of_ok (putStatements_run walked _ walkedHolds _), final]
  rfl

/-- The reifying walk at a function: its parameters, then its body, then the function itself, which
is reified if it was written in the source. -/
theorem reifier_walkFunction {fuel : Nat} (walks : ReifiesWithin containerOf symbolOf fuel) {arena : Arena}
    (state : ReifyState) {root : Nat} {below : List Nat} {declared : Function}
    (tree : arena.Tree root (root :: below)) (fits : below.length ≤ fuel)
    (isFunction : (arena.node root).kind = .function declared)
    (placed : ∀ node ∈ root :: below, (arena.node node).kind.reifiable = true → arena.Placed containerOf symbolOf node) :
    ∃ after, (reifier.walkFunction fuel root declared).run (arena, state) =
        .ok (replacement arena.nodeCount (arena.reifiables (fuel + 1) root) root,
          (after, state.record containerOf symbolOf arena.nodeCount arena.symbolCount
            (arena.reifiables (fuel + 1) root))) ∧
      arena.Reifying after (root :: below) (arena.reifiables (fuel + 1) root) := by
  obtain ⟨present, children, fresh⟩ : root < arena.nodeCount ∧ arena.Forest (arena.children root) below ∧
      root ∉ below := by
    cases tree with
    | node present children fresh => exact ⟨present, children, fresh⟩
  have childrenAre : arena.children root = declared.parameters ++ [declared.body] := by
    rw [Arena.children, isFunction]; rfl
  rw [childrenAre] at children
  obtain ⟨paramNodes, bodyNodes, rfl, paramForest, bodyForest, apart⟩ := children.split
  have bodyTree := bodyForest.tree_of_single
  simp only [List.length_append] at fits
  have placedBelow : ∀ node ∈ paramNodes ++ bodyNodes, (arena.node node).kind.reifiable = true →
      arena.Placed containerOf symbolOf node := fun node member => placed node (List.mem_cons_of_mem _ member)
  -- The parameters first, then the body in the arena they left.
  obtain ⟨afterParams, paramsRan, paramsReifying⟩ := mapM_reifier_walk walks declared.parameters arena state
    paramNodes paramForest (by omega) fun node member => placedBelow node (List.mem_append_left _ member)
  have bodyApart : ∀ node ∈ bodyNodes, node ∉ paramNodes := fun node inBody inParams => apart node inParams inBody
  have bodyOld := bodyTree.lt_nodeCount
  have bodyKinds : ∀ node ∈ bodyNodes, (afterParams.node node).kind = (arena.node node).kind := fun node member => by
    rw [paramsReifying.outside node (bodyOld node member) (bodyApart node member)]
  obtain ⟨afterBody, bodyRan, bodyReifying⟩ := walks afterParams _ declared.body bodyNodes
    (bodyTree.frame bodyKinds (by rw [paramsReifying.nodeCount]; omega)) (by omega) fun node member reifiable =>
      paramsReifying.placed (bodyOld node member) (placedBelow node (List.mem_append_right _ member)
        (by rwa [bodyKinds node member] at reifiable))
  have bodyMade : afterParams.reifiables fuel declared.body = arena.reifiables fuel declared.body :=
    bodyTree.reifiables_congr bodyKinds fuel
  rw [bodyMade, paramsReifying.nodeCount, paramsReifying.symbolCount, ReifyState.record_append] at bodyRan
  rw [bodyMade] at bodyReifying
  have both := paramsReifying.append bodyReifying (fun node inParams inBody => apart node inParams inBody)
    paramForest.lt_nodeCount bodyOld (fun node member child isChild => paramForest.child_mem member isChild)
    fun node member child isChild => List.mem_of_mem_tail (bodyTree.child_mem member isChild)
  -- The function takes back its parameters and body, replaced.
  let made := declared.parameters.flatMap (arena.reifiables fuel) ++ arena.reifiables fuel declared.body
  have bothAt : (arena.setKind root (arena.node root).kind).Reifying afterBody (paramNodes ++ bodyNodes) made := by
    rw [setKind_node_kind]; exact both
  have rooted := bothAt.rooted present fresh
  have afterBodyRoot : (afterBody.node root).kind = .function declared := by
    rw [both.outside root present fresh, isFunction]
  have values : NodeKind.function { declared with
        parameters := declared.parameters.map (replacement arena.nodeCount
          (declared.parameters.flatMap (arena.reifiables fuel))),
        body := replacement (arena.nodeCount + 3 * (declared.parameters.flatMap (arena.reifiables fuel)).length)
          (arena.reifiables fuel declared.body) declared.body } =
      (arena.node root).kind.mapChildren (replacement arena.nodeCount made) := by
    rw [isFunction]
    simp only [NodeKind.mapChildren, Function.mapChildren, made]
    congr 2
    · refine List.map_congr_left fun parameter member => (replacement_append_left fun inBody => ?_).symm
      exact apart parameter (paramForest.root_mem member) (bodyReifying.mem parameter inBody)
    · refine (replacement_append_right fun inParams => ?_).symm
      exact apart _ (paramsReifying.mem _ inParams) bodyTree.mem_self
  have notMade : root ∉ made := fun member => fresh (both.mem root member)
  have children : (arena.children root).flatMap (arena.reifiables fuel) = made := by
    rw [childrenAre, List.flatMap_append, List.flatMap_singleton]
  rw [Rewrite.walkFunction, run_bind_of_ok paramsRan, run_bind_of_ok bodyRan,
    Rewrite.finishFunction_run _ _ _ _ afterBodyRoot, values]
  have finalPresent : root < afterBody.nodeCount := by rw [both.nodeCount]; omega
  have finalRoot : ((afterBody.setKind root ((arena.node root).kind.mapChildren (replacement arena.nodeCount made))).node
      root).kind = .function (declared.mapChildren (replacement arena.nodeCount made)) := by
    rw [afterBody.node_setKind_self _ finalPresent, isFunction]; rfl
  cases reifiable : declared.origin.reifiable
  · -- A function that stays is given back in its place.
    have unmade : arena.reifiables (fuel + 1) root = made := by
      simp [reifiables, children, isFunction, NodeKind.reifiable, reifiable]
    rw [reifier_afterFunction_of_kept _ finalRoot reifiable, unmade, replacement_of_not_mem notMade]
    exact ⟨_, rfl, rooted⟩
  · -- A function written in the source is reified last, into the container its climb finds.
    have remade : arena.reifiables (fuel + 1) root = made ++ [root] := by
      simp [reifiables, children, isFunction, NodeKind.reifiable, reifiable]
    have rootPlaced := placed root List.mem_cons_self (by rw [isFunction]; exact reifiable)
    have symbolIs : declared.symbol = symbolOf root := by
      have declares := rootPlaced.1
      rw [isFunction] at declares
      simpa [NodeKind.symbol?] using declares
    obtain ⟨after, ran, count, symbols, nodes, oldSymbols, reified⟩ :=
      reifyFunction_run (state.record containerOf symbolOf arena.nodeCount arena.symbolCount made) finalRoot
        (rooted.placed present rootPlaced).closestClassContainer
    rw [reifier_afterFunction_of_reifiable _ finalRoot reifiable, ran, remade]
    refine ⟨after, ?_, rooted.reify isFunction notMade (fun node member child isChild same => ?_)
      (fun node member => tree.lt_nodeCount node member) count symbols nodes oldSymbols ?_⟩
    · simp [ReifyState.record, replacement, List.idxOf_append_of_notMem notMade, both.nodeCount, both.symbolCount,
        symbolIs, Function.mapChildren]
      simp [made]
    · exact fresh (same ▸ tree.child_mem member isChild)
    · rwa [afterBody.node_setKind_self _ finalPresent, both.outside root present fresh] at reified

/-- The reifying walk, with fuel for the whole subtree: it reifies the subtree's functions written
in the source, children first, and gives what takes the root's place. -/
theorem reifier_walk : ∀ fuel, ReifiesWithin containerOf symbolOf fuel
  | 0 => fun _ _ _ _ tree fits _ => by
    cases tree
    simp at fits
  | fuel + 1 => fun arena state root sub tree fits placed => by
    obtain ⟨below, rfl⟩ : ∃ below, sub = root :: below := by
      cases tree with
      | node => exact ⟨_, rfl⟩
    simp only [List.length_cons, Nat.add_le_add_iff_right] at fits
    have walks := reifier_walk fuel
    have placedBelow : ∀ node ∈ below, (arena.node node).kind.reifiable = true →
        arena.Placed containerOf symbolOf node := fun node member => placed node (List.mem_cons_of_mem _ member)
    -- A file, class or body is no function, so nothing takes its place.
    have holdsCase : (arena.node root).kind.holdsStatements = true →
        ∃ after, (reifier.walkStatements fuel root).run (arena, state) =
            .ok (replacement arena.nodeCount (arena.reifiables (fuel + 1) root) root,
              (after, state.record containerOf symbolOf arena.nodeCount arena.symbolCount
                (arena.reifiables (fuel + 1) root))) ∧
          arena.Reifying after (root :: below) (arena.reifiables (fuel + 1) root) := by
      intro holds
      have notReifiable : (arena.node root).kind.reifiable = false := by
        revert holds
        cases (arena.node root).kind <;> simp [NodeKind.holdsStatements, NodeKind.reifiable]
      have made : arena.reifiables (fuel + 1) root = (arena.children root).flatMap (arena.reifiables fuel) := by
        simp [reifiables, notReifiable]
      obtain ⟨after, ran, reifying⟩ := reifier_walkStatements walks state tree fits holds placedBelow
      rw [made, replacement_of_not_mem fun member => by
        obtain ⟨child, _, inChild⟩ := List.mem_flatMap.mp member
        rw [Arena.reifiable_of_mem_reifiables inChild] at notReifiable
        cases notReifiable]
      exact ⟨after, ran, reifying⟩
    cases kind : (arena.node root).kind with
    | file name statements =>
      have container : (arena.node root).kind.isClassContainer = true := by rw [kind]; rfl
      rw [Rewrite.walk_run_of_classContainer _ _ _ _ _ container]
      exact holdsCase (by rw [kind]; rfl)
    | classDef symbol name statements origin =>
      have container : (arena.node root).kind.isClassContainer = true := by rw [kind]; rfl
      rw [Rewrite.walk_run_of_classContainer _ _ _ _ _ container]
      exact holdsCase (by rw [kind]; rfl)
    | body statements =>
      rw [Rewrite.walk_run_of_body _ _ _ _ _ kind]
      exact holdsCase (by rw [kind]; rfl)
    | function declared =>
      rw [Rewrite.walk_run_of_function _ _ _ _ _ kind]
      exact reifier_walkFunction walks state tree fits kind placed
    | parameter symbol name =>
      have made : arena.reifiables (fuel + 1) root = [] := by
        simp [reifiables, Arena.children, kind, NodeKind.children, NodeKind.reifiable]
      rw [Rewrite.walk_run_of_parameter _ _ _ _ _ kind, made, ReifyState.record_nil]
      exact ⟨arena, rfl, .refl arena _⟩
    | «variable» symbol name value =>
      have made : arena.reifiables (fuel + 1) root = [] := by
        simp [reifiables, Arena.children, kind, NodeKind.children, NodeKind.reifiable]
      have same : NodeKind.variable symbol name (value.map reifier.expression) = (arena.node root).kind := by
        rw [kind]
        simp [reifier]
      rw [Rewrite.walk_run_of_variable _ _ _ _ _ kind, made, ReifyState.record_nil, same, arena.setKind_node_kind]
      exact ⟨arena, rfl, .refl arena _⟩
    | expression value =>
      have made : arena.reifiables (fuel + 1) root = [] := by
        simp [reifiables, Arena.children, kind, NodeKind.children, NodeKind.reifiable]
      have same : NodeKind.expression (reifier.expression value) = (arena.node root).kind := by
        rw [kind]
        rfl
      rw [Rewrite.walk_run_of_expression _ _ _ _ _ kind, made, ReifyState.record_nil, same, arena.setKind_node_kind]
      exact ⟨arena, rfl, .refl arena _⟩

end Walk

end ScriptLowering.Lowering
