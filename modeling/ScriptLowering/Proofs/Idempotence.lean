import ScriptLowering.Proofs.FunctionClasses
import ScriptLowering.Proofs.PassInvariant

/-! # Lowering twice changes nothing

Each lowering pass leaves no work for itself. Reifying leaves no function in the tree that it would
reify, and on such a tree it changes nothing (`reifyFunctions_of_noneReifiable`). Wrapping
initializers leaves every file and class of the tree holding declarations only, and on such a tree
it changes nothing (`wrapInitializers_of_declarative`). Wrapping the file leaves it at most one
statement. Each pass keeps what the passes before it left, so lowering leaves all three, and
lowering again changes nothing (`lower_lower`). Every pass applied to a program reached from a
converted file by any passes gives a program the same pass leaves as it is
(`applyPasses_idempotent`): the same nodes and symbols, none allocated.
-/

namespace ScriptLowering.Mir

namespace Arena

/-- No node among `nodes` is a function that reifying would turn into a class. -/
def NoneReifiable (arena : Arena) (nodes : List Nat) : Prop :=
  ∀ node ∈ nodes, (arena.node node).kind.reifiable = false

/-- Two arenas with the same nodes and the same symbols are one. -/
theorem eq_of_node {first second : Arena} (nodeCount : second.nodeCount = first.nodeCount)
    (symbolCount : second.symbolCount = first.symbolCount)
    (node : ∀ id < first.nodeCount, second.node id = first.node id)
    (symbol : ∀ symbol < first.symbolCount, second.symbol symbol = first.symbol symbol) : second = first := by
  rcases first with ⟨firstNodes, firstSymbols⟩
  rcases second with ⟨secondNodes, secondSymbols⟩
  simp only [mk.injEq]
  constructor
  · refine Array.ext nodeCount fun index inSecond inFirst => ?_
    simpa [Arena.node, inFirst, inSecond] using node index inFirst
  · refine Array.ext symbolCount fun index inSecond inFirst => ?_
    simpa [Arena.symbol, inFirst, inSecond] using symbol index inFirst

/-- Renaming by a renaming that keeps every symbol gives back what it started from. -/
theorem Renamed.eq_of_forall {rename : Nat → Nat} {first second : Arena} {nodes : List Nat}
    (renamed : first.Renamed rename second nodes) (same : ∀ symbol, rename symbol = symbol) : second = first := by
  refine eq_of_node renamed.nodeCount (by rw [Arena.symbolCount, renamed.symbols, ← Arena.symbolCount])
    (fun id _ => ?_) (fun symbol _ => by rw [Arena.symbol, renamed.symbols, ← Arena.symbol])
  by_cases member : id ∈ nodes
  · rw [renamed.inside id member, NodeKind.renameSymbols_of_forall rename _ fun symbol _ => same symbol]
  · exact renamed.outside id member

/-- Reifying no function changes nothing. -/
theorem Reifying.eq_of_nil {first second : Arena} {sub : List Nat} (reifying : first.Reifying second sub []) :
    second = first := by
  refine eq_of_node (by simpa using reifying.nodeCount) (by simpa using reifying.symbolCount)
    (fun id present => ?_) reifying.symbol
  by_cases member : id ∈ sub
  · rw [reifying.inside id member,
      NodeKind.mapChildren_of_forall _ _ fun child _ => replacement_of_not_mem List.not_mem_nil]
  · exact reifying.outside id present member

/-- A fresh node is no function to reify: a function made fresh is an initializer. -/
theorem Fresh.reifiable {arena : Arena} {node : Nat} (fresh : arena.Fresh node) :
    (arena.node node).kind.reifiable = false := by
  obtain ⟨-, -, -, -, initializer⟩ := fresh
  cases kind : (arena.node node).kind with
  | function declared =>
    rw [NodeKind.reifiable, initializer declared kind]
    rfl
  | _ => rfl

/-- Hoisting keeps a tree free of functions to reify: the old nodes keep their kinds but for their
statements, and the new ones are fresh. -/
theorem NoneReifiable.hoisted {first second : Arena} {sub grown : List Nat} (none : first.NoneReifiable sub)
    (hoisted : first.Hoisted second sub grown) : second.NoneReifiable grown := by
  intro node member
  rcases hoisted.added node member with inSub | ⟨-, fresh⟩
  · obtain ⟨statements, changed⟩ := hoisted.kinds node inSub
    rw [changed, NodeKind.reifiable_withStatements]
    exact none node inSub
  · exact fresh.reifiable

end Arena

/-- A child of a node of a sound program's tree is in the tree, and is not its file. -/
theorem Program.Sound.child_mem {program : Program} {nodes : List Nat} (sound : program.Sound nodes) {node child : Nat}
    (member : node ∈ nodes) (isChild : child ∈ program.arena.children node) : child ∈ nodes ∧ child ≠ program.file := by
  have inTail := sound.tree.child_mem member isChild
  refine ⟨List.mem_of_mem_tail inTail, fun same => ?_⟩
  cases sound.tree with
  | node _ _ fresh => exact fresh (same ▸ inTail)

end ScriptLowering.Mir

namespace ScriptLowering.Lowering

open Mir Arena

/-! ## Reifying -/

/-- Reifying a sound program whose tree holds no function to reify changes nothing: the walk reifies
nothing, no class is appended and no symbol renamed. -/
theorem reifyFunctions_of_noneReifiable {program : Program} {nodes : List Nat} (sound : program.Sound nodes)
    (none : program.arena.NoneReifiable nodes) : reifyFunctions program = .ok program := by
  obtain ⟨walked, final, after, regrafted, renamed, ran⟩ := reifyFunctions_renamed sound
  have empty : program.reified = [] := List.eq_nil_iff_forall_not_mem.mpr fun node member => by
    have inNodes := regrafted.reifying.mem node member
    have reifiable := (regrafted.exact node inNodes).mp member
    rw [none node inNodes] at reifiable
    cases reifiable
  rw [empty] at regrafted renamed
  have same : after = program.arena := by
    rw [renamed.eq_of_forall fun symbol => rfl, regrafted.reifying.eq_of_nil]
    rfl
  rw [ran, same]

/-- Reifying leaves no function in the new tree to reify: the nodes it kept were not to be reified,
and it made only methods, classes and variables. -/
theorem Regrafted.noneReifiable {program : Program} {nodes made : List Nat} {containerOf : Nat → Nat}
    {walked : Arena} {final : List Nat} (regrafted : Regrafted program nodes made containerOf walked final)
    {rename : Nat → Nat} {after : Arena}
    (renamed : (walked.graftAll (pendingClasses program.arena.nodeCount made containerOf)).Renamed rename after final) :
    after.NoneReifiable final := by
  intro node member
  rcases (regrafted.members node).mp member with ⟨inNodes, kept⟩ | ⟨function, -, inMade, part, small, rfl⟩
  · rw [regrafted.kind_renamed renamed inNodes kept, NodeKind.reifiable_renameSymbols,
      NodeKind.reifiable_withStatements, NodeKind.reifiable_mapChildren]
    cases reifiable : (program.arena.node node).kind.reifiable
    · rfl
    · exact absurd ((regrafted.exact node inNodes).mpr reifiable) kept
  · obtain ⟨declared, -, built⟩ := regrafted.functionClass renamed inMade
    obtain rfl | rfl | rfl : part = 0 ∨ part = 1 ∨ part = 2 := by omega
    · rw [built.invokeKind]
      rfl
    · rw [show madeNode program.arena.nodeCount made function 1 =
        madeNode program.arena.nodeCount made function 0 + 1 from rfl, built.classKind]
      rfl
    · rw [show madeNode program.arena.nodeCount made function 2 =
        madeNode program.arena.nodeCount made function 0 + 2 from rfl, built.variableKind]
      rfl

/-- Reifying a sound program leaves no function in the new tree to reify. -/
theorem reifyFunctions_noneReifiable {program : Program} {nodes : List Nat} (sound : program.Sound nodes) :
    ∃ after more, reifyFunctions program = .ok after ∧ after.Sound more ∧ after.arena.NoneReifiable more := by
  obtain ⟨walked, final, after, regrafted, renamed, ran⟩ := reifyFunctions_renamed sound
  exact ⟨_, final, ran, regrafted.soundAfter.renamed renamed, regrafted.noneReifiable renamed⟩

/-- Reifying twice changes nothing. -/
theorem reifyFunctions_reifyFunctions {program : Program} {nodes : List Nat} (sound : program.Sound nodes) :
    ∃ after, reifyFunctions program = .ok after ∧ reifyFunctions after = .ok after := by
  obtain ⟨after, more, reified, afterSound, none⟩ := reifyFunctions_noneReifiable sound
  exact ⟨after, reified, reifyFunctions_of_noneReifiable afterSound none⟩

/-! ## Wrapping initializers -/

/-- On a tree whose files and classes are on top and hold declarations only, wrapping initializers
gives every node back what it held, whatever the fuel. By induction on the fuel: hoisting at a file
or class finds nothing loose, and with its statements given up, each statement's subtree is such a
tree again; below the files and classes the walk changes nothing anyway. -/
theorem initializerWrapper_walk_of_declarative (fuel : Nat) : ∀ (arena : Arena) (id : Nat) (sub : List Nat),
    arena.Tree id sub → arena.Nested sub → arena.Declarative sub →
      (initializerWrapper.walk fuel id).run (arena, ()) = .ok (id, (arena, ())) := by
  induction fuel with
  | zero => intro arena id sub _ _ _; rfl
  | succ fuel ih =>
    intro arena id sub tree nested declarative
    by_cases isContainer : (arena.node id).kind.isClassContainer = true
    swap
    · exact initializerWrapper_walk_of_notContainer _ arena id sub tree
        (tree.notContainer nested (by simpa using isContainer))
    obtain ⟨below, present, children, fresh, rfl⟩ : ∃ below, id < arena.nodeCount ∧
        arena.Forest (arena.children id) below ∧ id ∉ below ∧ sub = id :: below := by
      cases tree with
      | node present children fresh => exact ⟨_, present, children, fresh, rfl⟩
    have holds := NodeKind.isClassContainer_holds _ isContainer
    have hoisting := hoistLoose_run_of_declarations present holds (declarative id List.mem_cons_self isContainer)
    -- With the container's statements given up, the subtrees below are as they were.
    let cleared := arena.setKind id ((arena.node id).kind.withStatements [])
    have clearing : arena.Edits cleared [id] := arena.edits_setKind id _
    have apartFromId : ∀ node ∈ below, node ∉ [id] := fun node member same =>
      fresh (List.mem_singleton.mp same ▸ member)
    have closed : ∀ node ∈ below, ∀ child ∈ arena.children node, child ∈ below :=
      fun node member child isChild => children.child_mem member isChild
    have clearedForest : cleared.Forest (arena.children id) below := clearing.forest children apartFromId
    have clearedNested : cleared.Nested below := clearing.nested children.lt_nodeCount closed apartFromId
      (nested.mono fun node member => List.mem_cons_of_mem _ member)
    have clearedDeclarative : cleared.Declarative below := clearing.declarative children.lt_nodeCount closed
      apartFromId fun node member => declarative node (List.mem_cons_of_mem _ member)
    have walks : ∀ child ∈ arena.children id,
        (initializerWrapper.walk fuel child).run (cleared, ()) = .ok (child, (cleared, ())) := by
      intro child member
      obtain ⟨childSub, childTree, within⟩ := clearedForest.exists_tree member
      exact ih cleared child childSub childTree (clearedNested.mono within)
        fun node inSub => clearedDeclarative node (within node inSub)
    have clearedHolds : (cleared.node id).kind.holdsStatements = true := by
      simp [cleared, arena.node_setKind_self _ present, holds]
    have back : cleared.setKind id ((cleared.node id).kind.withStatements (arena.children id)) = arena := by
      simp [cleared, arena.node_setKind_self _ present, Arena.children]
    rw [Rewrite.walk_run_of_classContainer _ _ _ _ _ isContainer,
      run_bind_of_ok (show (initializerWrapper.beforeContainer id).run (arena, ()) = _ from hoisting),
      Rewrite.walkStatements_run _ _ _ _ _ holds, run_bind_of_ok (putStatements_run arena () holds []),
      run_bind_of_ok (Rewrite.mapM_walk_of_forall _ walks), run_bind_of_ok (putStatements_run cleared () clearedHolds _),
      back]
    rfl

/-- Wrapping initializers in a sound program whose files and classes hold declarations only changes
nothing. -/
theorem wrapInitializers_of_declarative {program : Program} {nodes : List Nat} (sound : program.Sound nodes)
    (declarative : program.arena.Declarative nodes) : wrapInitializers program = .ok program := by
  rw [wrapInitializers, Rewrite.run_eq_ok _
    (initializerWrapper_walk_of_declarative _ _ _ _ sound.tree sound.nested declarative)]
  rfl

/-- Wrapping initializers twice changes nothing. -/
theorem wrapInitializers_wrapInitializers {program : Program} {nodes : List Nat} (sound : program.Sound nodes) :
    ∃ after, wrapInitializers program = .ok after ∧ wrapInitializers after = .ok after := by
  obtain ⟨after, more, wrapped, afterSound, -, declarative, -⟩ := wrapInitializers_hoisted sound
  exact ⟨_, wrapped, wrapInitializers_of_declarative afterSound declarative⟩

/-! ## Wrapping the file -/

/-- Wrapping the file keeps a sound tree free of functions to reify, and its files and classes
holding declarations only: the new class holds the file's statements, and the file the class. -/
theorem wrapFile_keeps {program : Program} {nodes : List Nat} (sound : program.Sound nodes)
    (none : program.arena.NoneReifiable nodes) (declarative : program.arena.Declarative nodes) :
    ∃ after more, wrapFile program = .ok after ∧ after.Sound more ∧ after.arena.NoneReifiable more ∧
      after.arena.Declarative more := by
  obtain ⟨name, statements, isFile⟩ := sound.root
  by_cases short : statements.length ≤ 1
  · exact ⟨program, nodes, wrapFile_of_le isFile short, sound, none, declarative⟩
  obtain ⟨after, more, wrapped, fileKind, classKind, oldKind, members, afterSound⟩ :=
    wrapFile_wraps sound isFile (by omega)
  -- Below the file, every old node holds what it held.
  have below : ∀ {node child}, node ∈ nodes → child ∈ program.arena.children node →
      child ∈ nodes ∧ (after.node child).kind = (program.arena.node child).kind := by
    intro node child member isChild
    obtain ⟨childIn, other⟩ := sound.child_mem member isChild
    exact ⟨childIn, oldKind child (sound.tree.lt_nodeCount _ childIn) other⟩
  have fileDeclares : ∀ child ∈ statements, (after.node child).kind.isDeclaration = true := by
    intro child member
    have isChild : child ∈ program.arena.children program.file := by rw [Arena.children, isFile]; exact member
    rw [(below sound.tree.mem_self isChild).2]
    exact declarative _ sound.tree.mem_self (by rw [isFile]; rfl) child isChild
  refine ⟨_, more, wrapped, afterSound, fun node member => ?_, fun node member isContainer child isChild => ?_⟩
  · show (after.node node).kind.reifiable = false
    rcases members node member with inNodes | rfl
    · by_cases isFileNode : node = program.file
      · rw [isFileNode, fileKind]
        rfl
      · rw [oldKind node (sound.tree.lt_nodeCount node inNodes) isFileNode]
        exact none node inNodes
    · rw [classKind]
      rfl
  · show (after.node child).kind.isDeclaration = true
    change child ∈ (after.node node).kind.children at isChild
    change (after.node node).kind.isClassContainer = true at isContainer
    rcases members node member with inNodes | rfl
    · by_cases isFileNode : node = program.file
      · -- The file holds the class.
        rw [isFileNode, fileKind] at isChild
        rw [List.mem_singleton.mp isChild, classKind]
        rfl
      · rw [oldKind node (sound.tree.lt_nodeCount node inNodes) isFileNode] at isChild isContainer
        obtain ⟨-, same⟩ := below inNodes isChild
        rw [same]
        exact declarative node inNodes isContainer child isChild
    · -- The class holds the file's statements.
      rw [classKind] at isChild
      exact fileDeclares child isChild

/-! ## Lowering -/

/-- Lowering a sound program leaves a sound program with no function to reify, with its files and
classes holding declarations only, and with a file that wrapping leaves as it is. -/
theorem lower_lowered {program : Program} {nodes : List Nat} (sound : program.Sound nodes) :
    ∃ after more, lower program = .ok after ∧ after.Sound more ∧ after.arena.NoneReifiable more ∧
      after.arena.Declarative more ∧ wrapFile after = .ok after := by
  obtain ⟨reified, reifiedNodes, reifiedEq, reifiedSound, reifiedNone⟩ := reifyFunctions_noneReifiable sound
  obtain ⟨arena, wrappedNodes, wrappedEq, wrappedSound, hoisted, declarative, -⟩ :=
    wrapInitializers_hoisted reifiedSound
  obtain ⟨after, more, fileEq, afterSound, afterNone, afterDeclarative⟩ :=
    wrapFile_keeps wrappedSound (reifiedNone.hoisted hoisted) declarative
  refine ⟨after, more, ?_, afterSound, afterNone, afterDeclarative, wrapFile_wrapFile wrappedSound fileEq⟩
  simp only [lower, reifiedEq, wrappedEq, fileEq, Bind.bind, Except.bind]

/-- Lowering twice changes nothing: each pass finds nothing left to do. -/
theorem lower_lower {program : Program} {nodes : List Nat} (sound : program.Sound nodes) :
    ∃ after, lower program = .ok after ∧ lower after = .ok after := by
  obtain ⟨after, more, lowered, afterSound, none, declarative, wrapped⟩ := lower_lowered sound
  refine ⟨after, lowered, ?_⟩
  simp only [lower, reifyFunctions_of_noneReifiable afterSound none,
    wrapInitializers_of_declarative afterSound declarative, wrapped, Bind.bind, Except.bind]

/-- Every pass applied twice to a sound program changes nothing the second time. -/
theorem Pass.apply_apply (pass : Pass) {program : Program} {nodes : List Nat} (sound : program.Sound nodes) :
    ∃ after, pass.apply program = .ok after ∧ pass.apply after = .ok after := by
  cases pass with
  | reify => exact reifyFunctions_reifyFunctions sound
  | initializers => exact wrapInitializers_wrapInitializers sound
  | fileClass =>
    obtain ⟨after, more, wrapped, -⟩ := wrapFile_sound sound
    exact ⟨after, wrapped, wrapFile_wrapFile sound wrapped⟩
  | all => exact lower_lower sound

/-- Passes applied one after another to a sound program give a sound program, if they give one. By
induction on the requests, as `runPasses_sound`. -/
theorem applyPasses_sound {α : Type} (select : α → Option Pass) :
    ∀ (requests : List α) {program reached : Program} {nodes : List Nat}, program.Sound nodes →
      applyPasses select program requests = .ok reached → ∃ more, reached.Sound more
  | [], _, _, nodes, sound, applied => by
    rw [applyPasses, Except.ok.injEq] at applied
    exact ⟨nodes, applied ▸ sound⟩
  | request :: rest, program, _, _, sound, applied => by
    unfold applyPasses at applied
    cases selected : select request with
    | none => simp [selected] at applied
    | some pass =>
      obtain ⟨after, more, ran, afterSound⟩ := pass.apply_sound sound
      simp only [selected, ran] at applied
      exact applyPasses_sound select rest afterSound applied

/-- Every lowering pass is idempotent on the programs reached from a converted file by passes applied
in any order and any number of times: a pass applied once more right after it changes nothing, and
in particular allocates no node and no symbol. -/
theorem applyPasses_idempotent {file : Hir.File} {program : Program} (converted : Program.convert file = .ok program)
    {α : Type} (select : α → Option Pass) (requests : List α) {reached : Program}
    (applied : applyPasses select program requests = .ok reached) (pass : Pass) :
    ∃ after, pass.apply reached = .ok after ∧ pass.apply after = .ok after := by
  obtain ⟨nodes, sound⟩ := Program.convert_sound converted
  obtain ⟨more, reachedSound⟩ := applyPasses_sound select requests sound applied
  exact pass.apply_apply reachedSound

theorem applyPasses_idempotent_nestedCallSample : ∃ program reached,
    Program.convert nestedCallSample = .ok program ∧ applyPasses Pass.ofName? program ["lower"] = .ok reached ∧
      ∃ after, Pass.apply .all reached = .ok after ∧ Pass.apply .all after = .ok after := by
  obtain ⟨program, converted⟩ := convert_nestedCallSample
  obtain ⟨nodes, sound⟩ := Program.convert_sound converted
  obtain ⟨lowered, more, lowers, -⟩ := lower_sound sound
  have applied : applyPasses Pass.ofName? program ["lower"] = .ok lowered := by
    simp [applyPasses, Pass.ofName?, Pass.apply, lowers]
  exact ⟨program, lowered, converted, applied, applyPasses_idempotent converted Pass.ofName? ["lower"] applied .all⟩

end ScriptLowering.Lowering
