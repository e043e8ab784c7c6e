import ScriptLowering.Proofs.Reification

/-! # Functions made into classes

What reifying does to a sound program, read off the program alone (`Program.Reification`). Every
function of the file's tree written in the source is reified, each after the functions inside it.
In its place, in the same statement list, stands a new variable of its name holding a new instance
of a new class of its name. The class holds one new method, `invoke`, native and not static, which
takes over the function's parameters, body and span; once the whole tree is walked, the classes are
appended to the closest file or class above their functions, in the order they were made. Every
read and write of a reified function's symbol is pointed at its variable's symbol, no other symbol
changes, and each function costs exactly three nodes and three symbols
(`reifyFunctions_reification`).
-/

namespace ScriptLowering.Mir

namespace Arena

variable {arena : Arena}

/-! ## Links and order in a tree -/

/-- Each node of a linked tree is linked, at the link passed down to it. -/
theorem Linked.of_mem {root : Nat} {above : Option Nat} (linked : arena.Linked root above) :
    ∀ {sub : List Nat}, arena.Tree root sub → ∀ node ∈ sub, ∃ link, arena.Linked node link := by
  induction linked with
  | @node id above parent children ih =>
    intro sub tree node member
    cases tree with
    | node _ forest _ =>
      rcases List.mem_cons.mp member with rfl | below
      · exact ⟨above, .node parent children⟩
      · obtain ⟨child, isChild, childSub, childTree, inChild, -⟩ := forest.mem_tree below
        exact ih child isChild childTree node inChild

/-- Below a linked node that keeps a link, each child keeping one names the node as its parent. -/
theorem Linked.parent_child {id child : Nat} {above : Option Nat} (linked : arena.Linked id above)
    (tracks : (arena.node id).kind.tracksParent = true) (isChild : child ∈ arena.children id)
    (childTracks : (arena.node child).kind.tracksParent = true) : (arena.node child).parent = some id := by
  cases linked with
  | node _ children =>
    cases children child isChild with
    | node parent _ => rw [parent childTracks, passedLink, if_pos tracks]

/-- Reifying goes innermost first: of two functions of a subtree, one inside the other, the inner is
listed before the outer. By induction on the fuel, following the subtree: the outer function is its
root, listed after everything below it, or lies in the subtree of one child. -/
theorem Tree.sublist_reifiables {fuel : Nat} : ∀ {root : Nat} {sub : List Nat}, arena.Tree root sub →
    sub.length ≤ fuel → ∀ outer ∈ sub, ∀ {within : List Nat}, arena.Tree outer within → ∀ inner ∈ within,
      inner ≠ outer → (arena.node inner).kind.reifiable = true → (arena.node outer).kind.reifiable = true →
        [inner, outer].Sublist (arena.reifiables fuel root) := by
  induction fuel with
  | zero =>
    intro root sub tree fits
    cases tree
    simp at fits
  | succ fuel ih =>
    intro root sub tree fits outer member within outerTree inner inWithin different innerReifiable outerReifiable
    cases tree with
    | node present children fresh =>
    simp only [List.length_cons, Nat.add_le_add_iff_right] at fits
    rw [reifiables]
    rcases List.mem_cons.mp member with rfl | below
    · have same := outerTree.unique (.node present children fresh)
      subst same
      have inBelow : inner ∈ _ := (List.mem_cons.mp inWithin).resolve_left different
      have listed : inner ∈ (arena.children outer).flatMap (arena.reifiables fuel) :=
        (Forest.mem_reifiables (fun tree fits => Tree.mem_reifiables tree fits) children fits inner).mpr
          ⟨inBelow, innerReifiable⟩
      rw [if_pos outerReifiable]
      exact (List.singleton_sublist.mpr listed).append (List.Sublist.refl [outer])
    · obtain ⟨child, isChild, childSub, childTree, inChild, childWithin⟩ := children.mem_tree below
      have deeper := ih childTree (Nat.le_trans childWithin.length_le fits) outer inChild outerTree inner inWithin
        different innerReifiable outerReifiable
      exact (deeper.trans (List.sublist_flatten_of_mem (List.mem_map_of_mem isChild))).trans
        (List.sublist_append_left _ _)

end Arena

/-! ## What reifying makes -/

/-- What reifying made in `arena` for the function `declared` with span `span`, from node `a` and
symbol `s` on: at `a` the method `invoke`, native and not static, taking over the function's
parameters, body and span, inside the class at `a + 1`; the class holds only the method and is
appended to `container`; at `a + 2` the variable holding a new instance of the class. Each symbol is
bound to its node. -/
structure Arena.FunctionClass (arena : Arena) (a s : Nat) (span : Span) (container : Nat) (declared : Function) :
    Prop where
  invokeKind : (arena.node a).kind = .function (declared.invoke s)
  invokeSpan : (arena.node a).span = span
  invokeParent : (arena.node a).parent = some (a + 1)
  classKind : (arena.node (a + 1)).kind = .classDef (s + 1) declared.name [a] .functionClass
  classSpan : (arena.node (a + 1)).span = .synthetic
  classParent : (arena.node (a + 1)).parent = some container
  variableKind : (arena.node (a + 2)).kind =
    .variable (s + 2) declared.name (some (.newInstance .synthetic (s + 1) []))
  variableSpan : (arena.node (a + 2)).span = .synthetic
  invokeSymbol : arena.symbol s = { kind := .function, owner := some a }
  classSymbol : arena.symbol (s + 1) = { kind := .classDef, owner := some (a + 1) }
  variableSymbol : arena.symbol (s + 2) = { kind := .variable, owner := some (a + 2) }

/-- `result` is `program` with the functions of its tree `nodes` reified, `rename` pointing their
symbols at their variables'. The `j`-th function reified, in `program.reified`, made the nodes and
the symbols `3 * j`, `3 * j + 1` and `3 * j + 2` past the program's; a node of the tree that stays
holds what it held, with each child replaced by what took its place and then the classes appended
to it, and with its expression renamed. -/
structure Program.Reification (program : Program) (nodes : List Nat) (rename : Nat → Nat) (result : Program) :
    Prop where
  arena : result = { program with arena := result.arena }
  mem_reified : ∀ node, node ∈ program.reified ↔ node ∈ nodes ∧ (program.arena.node node).kind.reifiable = true
  nodup : program.reified.Nodup
  innermost : ∀ outer ∈ program.reified, ∀ within, program.arena.Tree outer within →
    ∀ inner ∈ program.reified, inner ∈ within → inner ≠ outer → [inner, outer].Sublist program.reified
  nodeCount : result.arena.nodeCount = program.arena.nodeCount + 3 * program.reified.length
  symbolCount : result.arena.symbolCount = program.arena.symbolCount + 3 * program.reified.length
  symbol : ∀ symbol < program.arena.symbolCount, result.arena.symbol symbol = program.arena.symbol symbol
  made : ∀ function ∈ program.reified, ∃ declared, (program.arena.node function).kind = .function declared ∧
    program.arena.closestClassContainer function = some (program.classContainer function) ∧
    program.classContainer function ∈ nodes ∧
    rename declared.symbol = program.arena.symbolCount + 3 * program.reified.idxOf function + 2 ∧
    result.arena.FunctionClass (madeNode program.arena.nodeCount program.reified function 0)
      (program.arena.symbolCount + 3 * program.reified.idxOf function) (program.arena.node function).span
      (program.classContainer function) (declared.mapChildren (replacement program.arena.nodeCount program.reified))
  children : ∀ node ∈ nodes, node ∉ program.reified → result.arena.children node =
    (program.arena.children node).map (replacement program.arena.nodeCount program.reified) ++
      (program.reified.filter fun function => program.classContainer function == node).map
        (madeNode program.arena.nodeCount program.reified · 1)
  kind : ∀ node ∈ nodes, node ∉ program.reified → (result.arena.node node).kind =
    (((program.arena.node node).kind.mapChildren (replacement program.arena.nodeCount program.reified)).withStatements
      (result.arena.children node)).renameSymbols rename
  span : ∀ node ∈ nodes, node ∉ program.reified → (result.arena.node node).span = (program.arena.node node).span
  rename_other : ∀ symbol, (∀ function ∈ program.reified, (program.arena.node function).kind.symbol? ≠ some symbol) →
    rename symbol = symbol
  tree : ∃ final, result.arena.Tree result.file final ∧
    ∀ node, node ∈ final ↔ Regrown program.arena.nodeCount program.reified nodes node
  linked : result.arena.Linked result.file none
  unused : ∀ node, Regrown program.arena.nodeCount program.reified nodes node → ∀ function ∈ program.reified,
    ∀ symbol, (program.arena.node function).kind.symbol? = some symbol → symbol ∉ (result.arena.node node).kind.uses

end ScriptLowering.Mir

namespace ScriptLowering.Lowering

open Mir Arena

namespace Regrafted

variable {program : Program} {nodes made : List Nat} {containerOf : Nat → Nat} {walked : Arena}
  {final : List Nat} (regrafted : Regrafted program nodes made containerOf walked final)
  {rename : Nat → Nat} {after : Arena}
  (renamed : (walked.graftAll (pendingClasses program.arena.nodeCount made containerOf)).Renamed rename after final)
include regrafted renamed

/-- The children of a node of the tree that stays: what took the places of its children, and then
the classes appended to it. -/
theorem children_renamed {node : Nat} (inNodes : node ∈ nodes) :
    after.children node = (program.arena.children node).map (replacement program.arena.nodeCount made) ++
      (made.filter fun function => containerOf function == node).map (madeNode program.arena.nodeCount made · 1) := by
  rw [renamed.children, regrafted.children_grafted, pendingClasses_filter, Arena.children,
    regrafted.reifying.inside node inNodes, NodeKind.children_mapChildren]
  rfl

/-- A node of the tree that stays holds what it held, its children replaced and its expression
renamed. -/
theorem kind_renamed {node : Nat} (inNodes : node ∈ nodes) (kept : node ∉ made) :
    (after.node node).kind = (((program.arena.node node).kind.mapChildren
      (replacement program.arena.nodeCount made)).withStatements (after.children node)).renameSymbols rename := by
  rw [renamed.inside node (regrafted.mem_of_old inNodes kept), regrafted.kind_grafted, renamed.children,
    regrafted.children_grafted, regrafted.reifying.inside node inNodes]

theorem span_renamed {node : Nat} (inNodes : node ∈ nodes) :
    (after.node node).span = (program.arena.node node).span := by
  rw [renamed.span, regrafted.span_grafted, regrafted.reifying.inside node inNodes]

/-- What reifying made for each function it reified. -/
theorem functionClass {function : Nat} (member : function ∈ made) : ∃ declared,
    (program.arena.node function).kind = .function declared ∧
      after.FunctionClass (madeNode program.arena.nodeCount made function 0)
        (program.arena.symbolCount + 3 * made.idxOf function) (program.arena.node function).span (containerOf function)
        (declared.mapChildren (replacement program.arena.nodeCount made)) := by
  obtain ⟨declared, isFunction, built⟩ := regrafted.reifying.reified_of_mem member
  -- The made nodes are in the tree renaming reached, where it kept what the walk left.
  have inFinal : ∀ part < 3, madeNode program.arena.nodeCount made function 0 + part ∈ final :=
    fun part small => regrafted.mem_of_made member small
  have newer : ∀ part, program.arena.nodeCount ≤ madeNode program.arena.nodeCount made function 0 + part :=
    fun part => Nat.le_trans (le_madeNode _ _ _ 0) (Nat.le_add_right _ _)
  have madeKind : ∀ node ∈ final, program.arena.nodeCount ≤ node →
      (after.node node).kind = (walked.node node).kind.renameSymbols rename :=
    fun node member newer => by rw [renamed.inside node member, regrafted.kind_new newer]
  have madeSpan : ∀ node, (after.node node).span = (walked.node node).span := fun node => by
    rw [renamed.span, regrafted.span_grafted]
  have madeSymbol : ∀ symbol, after.symbol symbol = walked.symbol symbol := fun symbol => by
    rw [renamed.symbol, symbol_graftAll]
  have invokeKind : (after.node (madeNode program.arena.nodeCount made function 0)).kind =
      .function ((declared.mapChildren (replacement program.arena.nodeCount made)).invoke
        (program.arena.symbolCount + 3 * made.idxOf function)) := by
    rw [madeKind _ (regrafted.mem_of_made member (show 0 < 3 by decide)) (le_madeNode _ _ _ _), built.invokeNode]
    rfl
  have classKind : (after.node (madeNode program.arena.nodeCount made function 0 + 1)).kind =
      .classDef (program.arena.symbolCount + 3 * made.idxOf function + 1) declared.name
        [madeNode program.arena.nodeCount made function 0] .functionClass := by
    rw [madeKind _ (inFinal 1 (by decide)) (newer 1), built.classNode]
    rfl
  have variableKind : (after.node (madeNode program.arena.nodeCount made function 0 + 2)).kind =
      .variable (program.arena.symbolCount + 3 * made.idxOf function + 2) declared.name
        (some (.newInstance .synthetic (program.arena.symbolCount + 3 * made.idxOf function + 1) [])) := by
    rw [madeKind _ (inFinal 2 (by decide)) (newer 2), built.variableNode]
    rfl
  -- Parents follow the links of the tree renaming left.
  have linked := renamed.linked regrafted.tree regrafted.linked
  have tree := renamed.tree regrafted.tree
  obtain ⟨classLink, classLinked⟩ := linked.of_mem tree _ (inFinal 1 (by decide))
  obtain ⟨inNodes, isContainer⟩ := regrafted.containers function member
  have containerKept : containerOf function ∉ made := fun inMade => by
    have reifiable := (regrafted.exact _ inNodes).mp inMade
    revert isContainer reifiable
    cases (program.arena.node (containerOf function)).kind <;> simp [NodeKind.isClassContainer, NodeKind.reifiable]
  obtain ⟨containerLink, containerLinked⟩ := linked.of_mem tree _ (regrafted.mem_of_old inNodes containerKept)
  have containerTracks : (after.node (containerOf function)).kind.tracksParent = true := by
    rw [renamed.map_kind NodeKind.tracksParent (NodeKind.tracksParent_renameSymbols rename),
      regrafted.read_old NodeKind.tracksParent NodeKind.tracksParent_withStatements
        NodeKind.tracksParent_mapChildren (regrafted.sound.tree.lt_nodeCount _ inNodes)]
    revert isContainer
    cases (program.arena.node (containerOf function)).kind <;> simp [NodeKind.isClassContainer, NodeKind.tracksParent]
  -- The class is appended to its container.
  have appended : madeNode program.arena.nodeCount made function 0 + 1 ∈ after.children (containerOf function) := by
    rw [regrafted.children_renamed renamed inNodes]
    exact List.mem_append_right _ (List.mem_map.mpr ⟨function, List.mem_filter.mpr ⟨member, by simp⟩, rfl⟩)
  refine ⟨declared, isFunction,
    { invokeKind := invokeKind
      invokeSpan := by rw [madeSpan, built.invokeNode]
      invokeParent := classLinked.parent_child (by rw [classKind]; rfl)
        (by rw [Arena.children, classKind]; exact List.mem_singleton_self _) (by rw [invokeKind]; rfl)
      classKind := classKind
      classSpan := by rw [madeSpan, built.classNode]
      classParent := containerLinked.parent_child containerTracks appended (by rw [classKind]; rfl)
      variableKind := variableKind
      variableSpan := by rw [madeSpan, built.variableNode]
      invokeSymbol := by rw [madeSymbol, built.invokeSymbol]
      classSymbol := by rw [madeSymbol, built.classSymbol]
      variableSymbol := by rw [madeSymbol, built.variableSymbol] }⟩

/-- No node of the tree renaming reached uses the symbol of a reified function: each read or write
of one was renamed to a new symbol, an old node instantiates only classes, and what reifying made
uses only new symbols. -/
theorem unused_renamed
    (renamesMade : ∀ function ∈ made,
      rename (program.declaredSymbol function) = program.arena.symbolCount + 3 * made.idxOf function + 2)
    (keepsOther : ∀ symbol, (∀ function ∈ made, program.declaredSymbol function ≠ symbol) → rename symbol = symbol)
    {node : Nat} (regrown : Regrown program.arena.nodeCount made nodes node) {function : Nat}
    (member : function ∈ made) : program.declaredSymbol function ∉ (after.node node).kind.uses := by
  have older : program.declaredSymbol function < program.arena.symbolCount :=
    Arena.lt_symbolCount_of_owner (regrafted.declares_made member).2
  intro used
  rcases regrown with ⟨inNodes, kept⟩ | ⟨other, -, inMade, part, small, rfl⟩
  · rw [regrafted.kind_renamed renamed inNodes kept] at used
    rcases NodeKind.mem_uses_renameSymbols rename _ used with ⟨original, -, renamedTo⟩ | instantiated
    · -- A read or write renamed: from a reified function's symbol to a new one, else to itself.
      by_cases reified : ∃ reifiedFunction ∈ made, program.declaredSymbol reifiedFunction = original
      · obtain ⟨reifiedFunction, inMade, rfl⟩ := reified
        rw [renamesMade reifiedFunction inMade] at renamedTo
        omega
      · rw [keepsOther original fun other inMade same => reified ⟨other, inMade, same⟩] at renamedTo
        exact reified ⟨function, member, renamedTo⟩
    · -- A class instantiated: but the symbol belongs to a function.
      rw [NodeKind.instances_withStatements, NodeKind.instances_mapChildren] at instantiated
      obtain ⟨owner, owned, isClass⟩ := regrafted.instances_old inNodes instantiated
      rw [(regrafted.declares_made member).2] at owned
      cases owned
      obtain ⟨declared, isFunction, -⟩ := regrafted.reifying.reified_of_mem member
      simp [isFunction, NodeKind.isClass] at isClass
  · obtain ⟨declared, -, built⟩ := regrafted.functionClass renamed inMade
    obtain rfl | rfl | rfl : part = 0 ∨ part = 1 ∨ part = 2 := by omega
    · rw [built.invokeKind] at used
      simp [NodeKind.uses] at used
    · rw [show madeNode program.arena.nodeCount made other 1 = madeNode program.arena.nodeCount made other 0 + 1 from rfl,
        built.classKind] at used
      simp [NodeKind.uses] at used
    · rw [show madeNode program.arena.nodeCount made other 2 = madeNode program.arena.nodeCount made other 0 + 2 from rfl,
        built.variableKind] at used
      simp [NodeKind.uses, Expression.symbols, Expression.argumentSymbols] at used
      omega

end Regrafted

/-- What reifying a sound program returns: the program whose arena is the grafted one with the
expressions of the file's tree renamed. -/
theorem reifyFunctions_renamed {program : Program} {nodes : List Nat} (sound : program.Sound nodes) :
    ∃ walked final after, Regrafted program nodes program.reified program.classContainer walked final ∧
      (walked.graftAll (pendingClasses program.arena.nodeCount program.reified program.classContainer)).Renamed
        (reifiedRename program.arena.symbolCount program.reified program.declaredSymbol) after final ∧
      reifyFunctions program = .ok { program with arena := after } := by
  obtain ⟨walked, final, regrafted, ran⟩ := reifyFunctions_eq sound
  refine ⟨walked, final, ?_⟩
  rw [ran]
  split
  · next empty =>
    -- Nothing was reified, so the renaming keeps every symbol.
    have same : ∀ symbol, reifiedRename program.arena.symbolCount program.reified program.declaredSymbol symbol = symbol :=
      fun symbol => reifiedRename_of_forall_ne regrafted.reifying.nodup fun function member =>
        absurd (empty ▸ member) List.not_mem_nil
    exact ⟨_, regrafted, Renamed.of_forall same final, rfl⟩
  · obtain ⟨after, walkedRename, renamed⟩ :=
      renamer_walk (reifiedRename program.arena.symbolCount program.reified program.declaredSymbol) _ _
        program.file final regrafted.tree regrafted.tree.length_le
    have run : (renamer (reifiedRename program.arena.symbolCount program.reified program.declaredSymbol)).run
        { program with arena := walked.graftAll (pendingClasses program.arena.nodeCount program.reified
          program.classContainer) } () = .ok ({ program with arena := after }, ()) :=
      Rewrite.run_eq_ok _ walkedRename
    refine ⟨after, regrafted, renamed, ?_⟩
    rw [run]
    rfl

/-- Reifying a sound program succeeds and does what `Program.Reification` says: each function of
the tree written in the source, innermost first, leaves a variable in its place and a class holding
its method appended to the closest file or class, its reads and writes renamed to the variable's
symbol, at three nodes and three symbols each. -/
theorem reifyFunctions_reification {program : Program} {nodes : List Nat} (sound : program.Sound nodes) :
    ∃ result rename, reifyFunctions program = .ok result ∧ program.Reification nodes rename result := by
  obtain ⟨walked, final, after, regrafted, renamed, ran⟩ := reifyFunctions_renamed sound
  have renamesMade : ∀ function ∈ program.reified,
      reifiedRename program.arena.symbolCount program.reified program.declaredSymbol (program.declaredSymbol function) =
        program.arena.symbolCount + 3 * program.reified.idxOf function + 2 :=
    fun function member => reifiedRename_of_mem regrafted.reifying.nodup regrafted.symbolOf_injective member
  have keepsOther : ∀ symbol, (∀ function ∈ program.reified, program.declaredSymbol function ≠ symbol) →
      reifiedRename program.arena.symbolCount program.reified program.declaredSymbol symbol = symbol :=
    fun symbol outside => reifiedRename_of_forall_ne regrafted.reifying.nodup outside
  refine ⟨_, _, ran,
    { arena := rfl
      mem_reified := fun node => ⟨fun member => ⟨regrafted.reifying.mem node member,
        reifiable_of_mem_reifiables member⟩, fun ⟨inNodes, reifiable⟩ => (regrafted.exact node inNodes).mpr reifiable⟩
      nodup := regrafted.reifying.nodup
      innermost := fun outer inOuter within outerTree inner inInner inWithin different =>
        sound.tree.sublist_reifiables sound.tree.length_le outer (regrafted.reifying.mem outer inOuter) outerTree
          inner inWithin different (reifiable_of_mem_reifiables inInner) (reifiable_of_mem_reifiables inOuter)
      nodeCount := by rw [renamed.nodeCount, nodeCount_graftAll, regrafted.reifying.nodeCount]
      symbolCount := by
        rw [Arena.symbolCount, renamed.symbols, ← Arena.symbolCount, symbolCount_graftAll,
          regrafted.reifying.symbolCount]
      symbol := fun symbol older => by rw [renamed.symbol, symbol_graftAll, regrafted.reifying.symbol symbol older]
      made := fun function member => by
        obtain ⟨declared, isFunction, made⟩ := regrafted.functionClass renamed member
        have inNodes := regrafted.reifying.mem function member
        have declares : program.declaredSymbol function = declared.symbol := by
          rw [Program.declaredSymbol, isFunction]
          rfl
        refine ⟨declared, isFunction,
          (sound.toShaped.placed inNodes (reifiable_of_mem_reifiables member)).closestClassContainer,
          (regrafted.containers function member).1, ?_, made⟩
        rw [← declares]
        exact renamesMade function member
      children := fun node inNodes _ => regrafted.children_renamed renamed inNodes
      kind := fun node inNodes kept => regrafted.kind_renamed renamed inNodes kept
      span := fun node inNodes _ => regrafted.span_renamed renamed inNodes
      rename_other := fun symbol outside => keepsOther symbol fun function member same =>
        outside function member (same ▸ (regrafted.declares_made member).1)
      tree := ⟨final, renamed.tree regrafted.tree, regrafted.members⟩
      linked := renamed.linked regrafted.tree regrafted.linked
      unused := fun node regrown function member symbol declares => by
        rw [(regrafted.declares_made member).1, Option.some.injEq] at declares
        rw [← declares]
        exact regrafted.unused_renamed renamed renamesMade keepsOther regrown member }⟩

/-- A file declaring `f`, which declares `g` and calls it, and then calling `f`. -/
def nestedCallSample : Hir.File where
  id := 0
  name := "nested.js"
  span := .range 0 36
  statements :=
    [.function 1 "f" (.range 0 30) [] 2 (.range 13 30)
      [.function 3 "g" (.range 15 24) [] 4 (.range 22 24) [],
       .expression (.call (.range 25 28)
        (.get (.range 25 26) { name := "g", span := .range 25 26, candidate := some (.function 3) }) [])],
     .expression (.call (.range 31 34)
      (.get (.range 31 32) { name := "f", span := .range 31 32, candidate := some (.function 1) }) [])]

/-- `nestedCallSample` converts. -/
theorem convert_nestedCallSample : ∃ program, Program.convert nestedCallSample = .ok program := by
  have succeeds : (Program.convert nestedCallSample).isOk = true := by decide +kernel
  cases converted : Program.convert nestedCallSample with
  | error failure => rw [converted] at succeeds; cases succeeds
  | ok program => exact ⟨program, rfl⟩

theorem reifyFunctions_reification_nestedCallSample : ∃ program nodes,
    Program.convert nestedCallSample = .ok program ∧ program.Sound nodes ∧
      ∃ result rename, reifyFunctions program = .ok result ∧ program.Reification nodes rename result := by
  obtain ⟨program, converted⟩ := convert_nestedCallSample
  obtain ⟨nodes, sound⟩ := Program.convert_sound converted
  exact ⟨program, nodes, converted, sound, reifyFunctions_reification sound⟩

end ScriptLowering.Lowering
