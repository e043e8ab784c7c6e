import ScriptLowering.Proofs.RewriteSteps

/-! # Where wrapping initializers puts each statement

Wrapping initializers regroups each file and class that holds a loose statement, one that is no
declaration. The container keeps its declarations, in their order, and then holds a new initializer:
a native static function of no parameters, linked below the container and owning a new symbol, whose
new body holds the loose statements in their order (`Arena.Wraps`). Below the loose statements, the
nodes whose link named the container name the initializer; nothing else changes, and each container
costs two nodes and one symbol (`Arena.Initialized`).

What `Wraps` says reads only the container, its statements and the subtrees of its loose statements
in the first arena, and only the container, the new nodes and symbol and those subtrees in the
second. So it carries over to arenas that agree there (`Wraps.congr_before`, `Wraps.congr_after`),
and the regroupings of subtrees apart from each other add up (`Initialized.trans`).
-/

namespace ScriptLowering.Mir.Arena

variable (arena : Arena)

/-- The statements of a file or class that are declarations, in their order. -/
def declarationsOf (container : Nat) : List Nat :=
  (arena.children container).filter fun statement => (arena.node statement).kind.isDeclaration

/-- The loose statements of a file or class, those that are no declaration, in their order. -/
def looseOf (container : Nat) : List Nat :=
  (arena.children container).filter fun statement => !(arena.node statement).kind.isDeclaration

/-- A file or class holding a loose statement: what the pass regroups. -/
def hasLoose (container : Nat) : Bool :=
  (arena.node container).kind.isClassContainer && !(arena.looseOf container).isEmpty

/-- The node lies in the subtree of a loose statement of `container`. -/
def Loose (container node : Nat) : Prop :=
  ∃ statement ∈ arena.looseOf container, ∃ sub, arena.Tree statement sub ∧ node ∈ sub

/-- In `after`, the file or class `container` of `before` holds its declarations, in their order, and
then `initializer`: a new native static function of no parameters, linked below the container and
owning a new symbol, whose new body holds the loose statements in their order. Of the nodes below
the loose statements, those that keep a link naming the container name the initializer; the others
are as they were. -/
structure Wraps (before after : Arena) (container initializer : Nat) : Prop where
  present : container < before.nodeCount
  holds : after.node container = { before.node container with
    kind := (before.node container).kind.withStatements (before.declarationsOf container ++ [initializer]) }
  new : before.nodeCount ≤ initializer ∧ initializer < after.nodeCount
  function : ∃ symbol body, before.symbolCount ≤ symbol ∧ symbol < after.symbolCount ∧
    before.nodeCount ≤ body ∧ body < after.nodeCount ∧
    after.node initializer =
      { kind := .function
          { symbol, name := Lowering.initializerName, parameters := [], body, native := true, static := true,
            origin := .classInitializer },
        span := .synthetic, parent := some container } ∧
    after.node body = { kind := .body (before.looseOf container), span := .synthetic } ∧
    after.symbol symbol = { kind := .function, owner := some initializer }
  moved : ∀ node, before.Loose container node → after.node node =
    if (before.node node).kind.tracksParent = true ∧ (before.node node).parent = some container then
      { before.node node with parent := some initializer } else before.node node

/-- `after` is `before` with the files and classes `wrapped` regrouped, two new nodes and one new
symbol for each, and every other old node and every old symbol as it was. -/
structure Initialized (before after : Arena) (wrapped : List Nat) : Prop where
  nodeCount : after.nodeCount = before.nodeCount + 2 * wrapped.length
  symbolCount : after.symbolCount = before.symbolCount + wrapped.length
  symbol : ∀ symbol < before.symbolCount, after.symbol symbol = before.symbol symbol
  wraps : ∀ container ∈ wrapped, ∃ initializer, before.Wraps after container initializer
  node : ∀ node < before.nodeCount, (∀ container ∈ wrapped, node ≠ container ∧ ¬ before.Loose container node) →
    after.node node = before.node node

variable {arena} {first second third : Arena} {container : Nat}

/-! ## Reading a container -/

/-- A node below a loose statement lies below the container. -/
theorem Loose.mem_tail {node : Nat} {nodes : List Nat} (tree : arena.Tree container nodes)
    (loose : arena.Loose container node) : node ∈ nodes.tail := by
  obtain ⟨statement, isLoose, sub, subTree, inSub⟩ := loose
  cases tree with
  | node _ children _ =>
    obtain ⟨found, foundTree, within⟩ := children.exists_tree (List.mem_filter.mp isLoose).1
    rw [subTree.unique foundTree] at inSub
    exact within node inSub

theorem Loose.lt_nodeCount {node : Nat} (loose : arena.Loose container node) : node < arena.nodeCount := by
  obtain ⟨_, _, sub, subTree, inSub⟩ := loose
  exact subTree.lt_nodeCount node inSub

theorem hasLoose_of_not_container {node : Nat} (notContainer : (arena.node node).kind.isClassContainer = false) :
    arena.hasLoose node = false := by
  simp [hasLoose, notContainer]

/-- The nodes below the loose statements are those of the forest they root. -/
theorem Forest.loose_iff {nodes : List Nat} (forest : arena.Forest (arena.looseOf container) nodes) (node : Nat) :
    arena.Loose container node ↔ node ∈ nodes := by
  constructor
  · rintro ⟨statement, isLoose, sub, subTree, inSub⟩
    obtain ⟨found, foundTree, within⟩ := forest.exists_tree isLoose
    rw [subTree.unique foundTree] at inSub
    exact within node inSub
  · intro member
    obtain ⟨statement, isLoose, sub, subTree, inSub, -⟩ := forest.mem_tree member
    exact ⟨statement, isLoose, sub, subTree, inSub⟩

/-- With files and classes on top, nothing below a loose statement is a file or class: a file or
class directly in a container is a class, so a declaration. -/
theorem Loose.not_container {node : Nat} {nodes : List Nat} (tree : arena.Tree container nodes)
    (nested : arena.Nested nodes) (loose : arena.Loose container node) :
    (arena.node node).kind.isClassContainer = false := by
  obtain ⟨statement, isLoose, sub, subTree, inSub⟩ := loose
  obtain ⟨isChild, undeclared⟩ := List.mem_filter.mp isLoose
  have statementNot : (arena.node statement).kind.isClassContainer = false := by
    cases isStatementContainer : (arena.node statement).kind.isClassContainer with
    | false => rfl
    | true =>
      have isClass := (nested container tree.mem_self statement isChild isStatementContainer).1
      have declared : (arena.node statement).kind.isDeclaration = true := by
        revert isClass
        cases (arena.node statement).kind <;> simp [NodeKind.isClass, NodeKind.isDeclaration]
      simp [declared] at undeclared
  have within := tree.sublist_of_mem (List.mem_of_mem_tail (tree.child_mem tree.mem_self isChild)) subTree
  exact subTree.notContainer (nested.mono fun other inSub => within.subset inSub) statementNot node inSub

section Agree

variable (same : second.node container = first.node container)
  (sameChildren : ∀ statement ∈ first.children container, second.node statement = first.node statement)
include same sameChildren

theorem declarationsOf_congr : second.declarationsOf container = first.declarationsOf container := by
  have sameStatements : second.children container = first.children container := children_congr (by rw [same])
  rw [declarationsOf, declarationsOf, sameStatements]
  exact List.filter_congr fun statement member => by rw [sameChildren statement member]

theorem looseOf_congr : second.looseOf container = first.looseOf container := by
  have sameStatements : second.children container = first.children container := children_congr (by rw [same])
  rw [looseOf, looseOf, sameStatements]
  exact List.filter_congr fun statement member => by rw [sameChildren statement member]

theorem hasLoose_congr : second.hasLoose container = first.hasLoose container := by
  rw [hasLoose, hasLoose, same, looseOf_congr same sameChildren]

end Agree

/-- The statements of a container are nodes of its subtree. -/
theorem Tree.children_mem {nodes : List Nat} (tree : arena.Tree container nodes) {statement : Nat}
    (member : statement ∈ arena.children container) : statement ∈ nodes :=
  List.mem_of_mem_tail (tree.child_mem tree.mem_self member)

/-- Which nodes lie below the loose statements reads only the container's subtree. -/
theorem Loose.congr {nodes : List Nat} (tree : first.Tree container nodes)
    (same : ∀ node ∈ nodes, second.node node = first.node node) (grows : first.nodeCount ≤ second.nodeCount)
    (node : Nat) : second.Loose container node ↔ first.Loose container node := by
  have sameLoose := looseOf_congr (same container tree.mem_self) fun statement member =>
    same statement (tree.children_mem member)
  -- Each loose statement roots the same subtree in both arenas.
  have subtrees : ∀ statement ∈ first.looseOf container,
      ∃ sub, first.Tree statement sub ∧ second.Tree statement sub := by
    intro statement isLoose
    obtain ⟨sub, subTree, within⟩ := tree.exists_subtree (tree.children_mem (List.mem_filter.mp isLoose).1)
    exact ⟨sub, subTree, subTree.frame (fun node inSub => by rw [same node (within.subset inSub)]) grows⟩
  constructor
  · rintro ⟨statement, isLoose, sub, subTree, inSub⟩
    rw [sameLoose] at isLoose
    obtain ⟨found, firstTree, secondTree⟩ := subtrees statement isLoose
    exact ⟨statement, isLoose, found, firstTree, subTree.unique secondTree ▸ inSub⟩
  · rintro ⟨statement, isLoose, sub, subTree, inSub⟩
    obtain ⟨found, firstTree, secondTree⟩ := subtrees statement isLoose
    exact ⟨statement, sameLoose ▸ isLoose, found, secondTree, subTree.unique firstTree ▸ inSub⟩

/-! ## Carrying a regrouping over -/

namespace Wraps

variable {initializer : Nat}

/-- A regrouping reads the container's subtree only: it holds as well from an arena that agrees
there. -/
theorem congr_before {after : Arena} {nodes : List Nat} (wraps : second.Wraps after container initializer)
    (tree : first.Tree container nodes) (same : ∀ node ∈ nodes, second.node node = first.node node)
    (nodeCount : first.nodeCount ≤ second.nodeCount) (symbolCount : first.symbolCount ≤ second.symbolCount) :
    first.Wraps after container initializer := by
  have sameHere := same container tree.mem_self
  have sameChildren : ∀ statement ∈ first.children container, second.node statement = first.node statement :=
    fun statement member => same statement (tree.children_mem member)
  obtain ⟨-, holds, new, function, moved⟩ := wraps
  obtain ⟨symbol, body, symbolNew, symbolLt, bodyNew, bodyLt, initNode, bodyNode, symbolIs⟩ := function
  refine ⟨tree.present, ?_, ⟨Nat.le_trans nodeCount new.1, new.2⟩,
    ⟨symbol, body, Nat.le_trans symbolCount symbolNew, symbolLt, Nat.le_trans nodeCount bodyNew, bodyLt, initNode,
      ?_, symbolIs⟩, fun node loose => ?_⟩
  · rw [holds, sameHere, declarationsOf_congr sameHere sameChildren]
  · rw [bodyNode, looseOf_congr sameHere sameChildren]
  · rw [moved node ((Loose.congr tree same nodeCount node).mpr loose),
      same node (List.mem_of_mem_tail (loose.mem_tail tree))]

/-- A regrouping holds on in a later arena that keeps the container, the new nodes and symbols, and
the subtrees of the loose statements. -/
theorem congr_after {before : Arena} (wraps : before.Wraps first container initializer)
    (same : ∀ node, node = container ∨ before.nodeCount ≤ node ∧ node < first.nodeCount ∨
      before.Loose container node → second.node node = first.node node)
    (symbols : ∀ symbol, before.symbolCount ≤ symbol → symbol < first.symbolCount →
      second.symbol symbol = first.symbol symbol)
    (nodeCount : first.nodeCount ≤ second.nodeCount) (symbolCount : first.symbolCount ≤ second.symbolCount) :
    before.Wraps second container initializer := by
  obtain ⟨present, holds, new, function, moved⟩ := wraps
  obtain ⟨symbol, body, symbolNew, symbolLt, bodyNew, bodyLt, initNode, bodyNode, symbolIs⟩ := function
  refine ⟨present, by rw [same container (.inl rfl), holds], ⟨new.1, Nat.lt_of_lt_of_le new.2 nodeCount⟩,
    ⟨symbol, body, symbolNew, Nat.lt_of_lt_of_le symbolLt symbolCount, bodyNew, Nat.lt_of_lt_of_le bodyLt nodeCount,
      by rw [same initializer (.inr (.inl new)), initNode], by rw [same body (.inr (.inl ⟨bodyNew, bodyLt⟩)), bodyNode],
      by rw [symbols symbol symbolNew symbolLt, symbolIs]⟩,
    fun node loose => by rw [same node (.inr (.inr loose)), moved node loose]⟩

end Wraps

/-! ## Regroupings add up -/

namespace Initialized

variable {wrapped : List Nat}

theorem refl (arena : Arena) : arena.Initialized arena [] where
  nodeCount := by simp
  symbolCount := by simp
  symbol _ _ := rfl
  wraps _ member := absurd member List.not_mem_nil
  node _ _ _ := rfl

/-- A regrouping changes the kind of no old node but the containers it regroups: below their loose
statements it changes links only. -/
theorem kind_eq (initialized : first.Initialized second wrapped) {node : Nat} (present : node < first.nodeCount)
    (notWrapped : node ∉ wrapped) : (second.node node).kind = (first.node node).kind := by
  by_cases moved : ∃ container ∈ wrapped, first.Loose container node
  · obtain ⟨container, member, loose⟩ := moved
    obtain ⟨initializer, wraps⟩ := initialized.wraps container member
    rw [wraps.moved node loose]
    split <;> rfl
  · rw [initialized.node node present fun container member =>
      ⟨fun same => notWrapped (same ▸ member), fun loose => moved ⟨container, member, loose⟩⟩]

/-- Only which containers are regrouped counts, not their order. -/
theorem perm {others : List Nat} (initialized : first.Initialized second wrapped) (perm : wrapped.Perm others) :
    first.Initialized second others where
  nodeCount := by rw [initialized.nodeCount, perm.length_eq]
  symbolCount := by rw [initialized.symbolCount, perm.length_eq]
  symbol := initialized.symbol
  wraps container member := initialized.wraps container (perm.mem_iff.mpr member)
  node node present apart := initialized.node node present fun container member =>
    apart container (perm.mem_iff.mp member)

/-- Regroupings one after the other add up, when the later one regroups subtrees on which its arena
agrees with the first, holding neither a container the earlier one regrouped nor a node it moved. -/
theorem trans {early late : List Nat} (left : first.Initialized second early) (right : second.Initialized third late)
    (agree : ∀ container ∈ late, ∃ sub, first.Tree container sub ∧ ∀ node ∈ sub, second.node node = first.node node)
    (apart : ∀ container ∈ early, ∀ other ∈ late, ∀ sub, first.Tree other sub →
      container ∉ sub ∧ ∀ node, first.Loose container node → node ∉ sub) :
    first.Initialized third (early ++ late) := by
  have grows : first.nodeCount ≤ second.nodeCount := by rw [left.nodeCount]; omega
  have symbolsGrow : first.symbolCount ≤ second.symbolCount := by rw [left.symbolCount]; omega
  -- The later regrouping leaves alone the nodes outside the subtrees it regroups.
  have untouched : ∀ node < second.nodeCount, (∀ other ∈ late, ∀ sub, first.Tree other sub → node ∉ sub) →
      third.node node = second.node node := by
    intro node present outside
    refine right.node node present fun other inLate => ?_
    obtain ⟨sub, tree, same⟩ := agree other inLate
    refine ⟨fun isOther => outside other inLate sub tree (isOther ▸ tree.mem_self), fun loose => ?_⟩
    exact outside other inLate sub tree
      (List.mem_of_mem_tail (((Loose.congr tree same grows node).mp loose).mem_tail tree))
  refine ⟨?_, ?_, fun symbol present => ?_, fun container member => ?_, fun node present outside => ?_⟩
  · rw [right.nodeCount, left.nodeCount, List.length_append]
    omega
  · rw [right.symbolCount, left.symbolCount, List.length_append]
    omega
  · rw [right.symbol symbol (Nat.lt_of_lt_of_le present symbolsGrow), left.symbol symbol present]
  · rcases List.mem_append.mp member with inEarly | inLate
    · obtain ⟨initializer, wraps⟩ := left.wraps container inEarly
      refine ⟨initializer, wraps.congr_after (fun node touched => ?_) (fun symbol _ present => right.symbol symbol present)
        (by rw [right.nodeCount]; omega) (by rw [right.symbolCount]; omega)⟩
      rcases touched with rfl | ⟨newer, present⟩ | loose
      · exact untouched node (Nat.lt_of_lt_of_le wraps.present grows) fun other inLate sub tree =>
          (apart node inEarly other inLate sub tree).1
      · exact untouched node present fun other _ sub tree inSub =>
          Nat.lt_irrefl node (Nat.lt_of_lt_of_le (tree.lt_nodeCount node inSub) newer)
      · exact untouched node (Nat.lt_of_lt_of_le loose.lt_nodeCount grows) fun other inLate sub tree =>
          (apart container inEarly other inLate sub tree).2 node loose
    · obtain ⟨sub, tree, same⟩ := agree container inLate
      obtain ⟨initializer, wraps⟩ := right.wraps container inLate
      exact ⟨initializer, wraps.congr_before tree same grows symbolsGrow⟩
  · refine (right.node node (Nat.lt_of_lt_of_le present grows) fun other inLate => ?_).trans
      (left.node node present fun container inEarly => outside container (List.mem_append_left _ inEarly))
    obtain ⟨sub, tree, same⟩ := agree other inLate
    obtain ⟨notOther, notLoose⟩ := outside other (List.mem_append_right _ inLate)
    exact ⟨notOther, fun loose => notLoose ((Loose.congr tree same grows node).mp loose)⟩

/-- A regrouping carries over to arenas that differ from its ends at one node outside the regrouped
subtrees, where the new end holds what the new start held. -/
theorem congr_outside {fourth : Arena} {id : Nat} (initialized : second.Initialized third wrapped)
    (start : ∀ node ≠ id, second.node node = first.node node) (startCount : second.nodeCount = first.nodeCount)
    (startSymbols : second.symbols = first.symbols)
    (finish : ∀ node ≠ id, fourth.node node = third.node node) (finishCount : fourth.nodeCount = third.nodeCount)
    (finishSymbols : fourth.symbols = third.symbols) (back : fourth.node id = first.node id)
    (present : id < first.nodeCount) (away : ∀ container ∈ wrapped, ∃ sub, first.Tree container sub ∧ id ∉ sub) :
    first.Initialized fourth wrapped := by
  have sameSymbol : ∀ symbol, fourth.symbol symbol = third.symbol symbol := fun symbol => by
    simp only [Arena.symbol, finishSymbols]
  have startSymbol : ∀ symbol, second.symbol symbol = first.symbol symbol := fun symbol => by
    simp only [Arena.symbol, startSymbols]
  have startSymbolCount : second.symbolCount = first.symbolCount := by simp only [Arena.symbolCount, startSymbols]
  have agree : ∀ container ∈ wrapped, ∃ sub, first.Tree container sub ∧ ∀ node ∈ sub,
      second.node node = first.node node := fun container member => by
    obtain ⟨sub, tree, outside⟩ := away container member
    exact ⟨sub, tree, fun node inSub => start node fun same => outside (same ▸ inSub)⟩
  refine ⟨?_, ?_, fun symbol present => ?_, fun container member => ?_, fun node present apart => ?_⟩
  · rw [finishCount, initialized.nodeCount, startCount]
  · rw [show fourth.symbolCount = third.symbolCount by simp only [Arena.symbolCount, finishSymbols],
      initialized.symbolCount, startSymbolCount]
  · rw [sameSymbol, initialized.symbol symbol (startSymbolCount ▸ present), startSymbol]
  · obtain ⟨sub, tree, outside⟩ := away container member
    obtain ⟨sub', tree', same⟩ := agree container member
    obtain ⟨initializer, wraps⟩ := initialized.wraps container member
    have moved := wraps.congr_before tree' same (Nat.le_of_eq startCount.symm) (Nat.le_of_eq startSymbolCount.symm)
    refine ⟨initializer, moved.congr_after (fun node touched => finish node ?_) (fun symbol _ _ => sameSymbol symbol)
      (Nat.le_of_eq finishCount.symm) (by simp only [Arena.symbolCount, finishSymbols, Nat.le_refl])⟩
    rintro rfl
    rcases touched with isContainer | ⟨newer, _⟩ | loose
    · exact outside (isContainer ▸ tree.mem_self)
    · omega
    · exact outside (List.mem_of_mem_tail (loose.mem_tail tree))
  · by_cases isId : node = id
    · rw [isId, back]
    rw [finish node isId, initialized.node node (startCount ▸ present) fun container member => ?_, start node isId]
    obtain ⟨sub, tree, same⟩ := agree container member
    obtain ⟨notContainer, notLoose⟩ := apart container member
    exact ⟨notContainer, fun loose => notLoose ((Loose.congr tree same (Nat.le_of_eq startCount.symm) node).mp loose)⟩

end Initialized

end ScriptLowering.Mir.Arena
