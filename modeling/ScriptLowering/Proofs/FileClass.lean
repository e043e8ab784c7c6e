import ScriptLowering.Proofs.Initializers

/-! # Wrapping the file keeps a program sound

A file of at most one statement is left as it is (`wrapFile_of_le`). A longer file gets a single
statement, a new class named after the file that takes over the file's statements in their order
(`wrapFile_wraps`): the class is the one new node and its symbol the one new symbol, every other
node is what it was, and the class's subtree is linked below the file. Either way the program stays
sound (`wrapFile_sound`), and its file holds at most one statement afterwards, so wrapping it again
changes nothing (`wrapFile_wrapFile`).
-/

namespace ScriptLowering.Lowering

open Mir Arena

/-- A file of at most one statement is left as it is. -/
theorem wrapFile_of_le {program : Program} {name : String} {statements : List Nat}
    (isFile : (program.arena.node program.file).kind = .file name statements) (short : statements.length ≤ 1) :
    wrapFile program = .ok program := by
  simp [wrapFile, program.arena.file_eq_ok isFile, Bind.bind, Except.bind, pure, Except.pure, short]

/-- A file of two or more statements comes to hold one new class, named after the file and holding
the file's statements in order; every other node keeps its kind, and the program stays sound. -/
theorem wrapFile_wraps {program : Program} {nodes : List Nat} (sound : program.Sound nodes) {name : String}
    {statements : List Nat} (isFile : (program.arena.node program.file).kind = .file name statements)
    (long : 1 < statements.length) :
    ∃ after more, wrapFile program = .ok { program with arena := after } ∧
      (after.node program.file).kind = .file name [program.arena.nodeCount] ∧
      (after.node program.arena.nodeCount).kind =
        .classDef program.arena.symbolCount (fileClassName name) statements .fileClass ∧
      (∀ node < program.arena.nodeCount, node ≠ program.file →
        (after.node node).kind = (program.arena.node node).kind) ∧
      (∀ node ∈ more, node ∈ nodes ∨ node = program.arena.nodeCount) ∧
      Program.Sound { program with arena := after } more := by
  obtain ⟨below, rfl⟩ : ∃ below, nodes = program.file :: below := by
    cases sound.tree with
    | node => exact ⟨_, rfl⟩
  obtain ⟨present, children, fresh⟩ : program.file < program.arena.nodeCount ∧
      program.arena.Forest (program.arena.children program.file) below ∧ program.file ∉ below := by
    cases sound.tree with
    | node present children fresh => exact ⟨present, children, fresh⟩
  have holds : (program.arena.node program.file).kind.holdsStatements = true := by rw [isFile]; rfl
  have childrenAre : program.arena.children program.file = statements := by rw [Arena.children, isFile]; rfl
  have belowOld : ∀ node ∈ below, node < program.arena.nodeCount := children.lt_nodeCount
  -- The steps of the wrap, one arena each.
  let created := program.arena.nodeCount
  let symbol := program.arena.symbolCount
  let cleared := program.arena.setKind program.file (.file name [])
  let withSymbol := (cleared.newSymbol .classDef).1
  let classKind := NodeKind.classDef symbol (fileClassName name) statements .fileClass
  let withClass := (withSymbol.push classKind (program.arena.node program.file).span).1
  let bound : Arena :=
    { withClass with symbols := withClass.symbols.modify symbol ({ · with owner := some created }) }
  let final := bound.setKind program.file (.file name [created])
  let after := final.patchParents created (some program.file)
  have unbound : (withClass.symbol symbol).owner = none := by
    simp [withClass, withSymbol, cleared, symbol, symbol_newSymbol]
  have binds : withClass.bind symbol created = .ok bound := withClass.bind_of_unbound _ unbound
  have boundFile : (bound.node program.file).kind = .file name [] := by
    show ((withSymbol.push classKind _).1.node program.file).kind = _
    simp [node_push, Nat.ne_of_lt present, withSymbol, cleared, program.arena.node_setKind_self _ present]
  have run : wrapFile program = .ok { program with arena := after } := by
    simp only [wrapFile, program.arena.file_eq_ok isFile, program.arena.setStatements_eq_ok holds, isFile,
      Bind.bind, Except.bind]
    have boundHolds : (bound.node program.file).kind.holdsStatements = true := by rw [boundFile]; rfl
    simp [Nat.not_le.mpr long, NodeKind.withStatements, binds, bound.setStatements_eq_ok boundHolds, boundFile,
      pure, Except.pure, after, final, created, symbol, cleared, withSymbol, withClass, classKind]
  -- What each node of the final arena is, before the parents are linked.
  have finalOld : ∀ node < program.arena.nodeCount, node ≠ program.file →
      final.node node = program.arena.node node := by
    intro node old other
    show ((withSymbol.push classKind _).1.setKind program.file _).node node = _
    simp [node_setKind_ne _ _ other, node_push, Nat.ne_of_lt old, withSymbol, cleared]
  have finalFile : final.node program.file =
      { program.arena.node program.file with kind := .file name [created] } := by
    show ((withSymbol.push classKind _).1.setKind program.file _).node program.file = _
    rw [node_setKind_self _ _ (by simp [withSymbol, cleared]; omega)]
    simp [node_push, Nat.ne_of_lt present, withSymbol, cleared, program.arena.node_setKind_self _ present]
  have finalCreated : (final.node created).kind = classKind := by
    show (((withSymbol.push classKind _).1.setKind program.file _).node created).kind = _
    rw [node_setKind_ne _ _ (Nat.ne_of_gt present)]
    simp [node_push, withSymbol, cleared]
  have finalCount : final.nodeCount = created + 1 := by
    show (bound.setKind _ _).nodeCount = _
    rw [nodeCount_setKind]
    show withClass.nodeCount = _
    simp [withClass, withSymbol, cleared, created]
  have finalSymbol : ∀ other, final.symbol other =
      if other = symbol then { kind := .classDef, owner := some created } else program.arena.symbol other := by
    intro other
    show bound.symbol other = _
    have symbolPresent : symbol < withClass.symbolCount := by simp [withClass, withSymbol, cleared, symbol]
    rw [withClass.symbol_modify_owner symbol created other symbolPresent]
    by_cases same : other = symbol
    · simp [same, withClass, withSymbol, cleared, symbol_newSymbol, symbol]
    · simp [same, withClass, withSymbol, cleared, symbol_newSymbol, symbol]
  -- The class over the file's old forest, and the file over the class.
  have finalForest : final.Forest statements below := by
    rw [← childrenAre]
    exact children.frame (fun node member => by
      rw [finalOld node (belowOld node member) fun same => fresh (same ▸ member)])
      (by omega)
  have classTree : final.Tree created (created :: below) :=
    .node (by omega) (by rw [Arena.children, finalCreated]; exact finalForest)
      fun member => Nat.lt_irrefl _ (belowOld created member)
  have fileTree : final.Tree program.file (program.file :: created :: below) := by
    refine .node (by omega) ?_ ?_
    · rw [Arena.children, finalFile]
      exact Forest.single classTree
    · intro member
      rcases List.mem_cons.mp member with same | inBelow
      · exact Nat.ne_of_lt present same
      · exact fresh inBelow
  -- Linking the class's subtree below the file moves no other link.
  have relinks : final.Relinks after := final.relinks_patchParents _ _
  have fits : (created :: below).length ≤ final.nodeCount := by
    have := sound.tree.length_le
    simp only [List.length_cons] at this ⊢
    omega
  obtain ⟨classLinked, outside⟩ :=
    linkBelow_linked final.nodeCount final created (created :: below) (some program.file) classTree fits
  have afterFile : after.node program.file = final.node program.file :=
    outside _ fun member => by
      rcases List.mem_cons.mp member with same | inBelow
      · exact Nat.ne_of_lt present same
      · exact fresh inBelow
  have afterOld : ∀ node < program.arena.nodeCount, node ≠ program.file →
      (after.node node).kind = (program.arena.node node).kind := fun node old other => by
    rw [relinks.kind, finalOld node old other]
  have afterCreated : (after.node created).kind = classKind := by rw [relinks.kind, finalCreated]
  have afterSymbol : ∀ other, after.symbol other = final.symbol other := fun other => by
    simp [Arena.symbol, relinks.symbols]
  have fileLinked : after.Linked program.file none := by
    have parentNone : (program.arena.node program.file).parent = none := by
      cases sound.linked with
      | node parent _ => exact parent (by rw [isFile]; rfl)
    have passed : after.passedLink program.file none = some program.file := by
      simp [passedLink, afterFile, finalFile, NodeKind.tracksParent]
    refine .node (fun _ => by rw [afterFile, finalFile]; exact parentNone) (fun child member => ?_)
    rw [Arena.children, afterFile, finalFile] at member
    rw [List.mem_singleton.mp member, passed]
    exact classLinked
  -- The file holds the class, the class the file's old statements, which stay apart from the top.
  have nested : after.Nested (program.file :: created :: below) := by
    intro node member child isChild isContainer
    rcases List.mem_cons.mp member with rfl | member
    · rw [Arena.children, afterFile, finalFile] at isChild
      rw [List.mem_singleton.mp isChild, afterCreated, afterFile, finalFile]
      exact ⟨rfl, rfl⟩
    rcases List.mem_cons.mp member with rfl | inBelow
    · rw [Arena.children, afterCreated] at isChild
      have old : child ∈ below := children.root_mem (childrenAre ▸ isChild)
      have other : child ≠ program.file := fun same => fresh (same ▸ old)
      rw [afterOld child (belowOld child old) other] at isContainer ⊢
      rw [afterCreated]
      exact ⟨(sound.nested program.file List.mem_cons_self child (childrenAre ▸ isChild) isContainer).1, rfl⟩
    · have other : node ≠ program.file := fun same => fresh (same ▸ inBelow)
      have childOld : child ∈ below := by
        rw [children_congr (afterOld node (belowOld node inBelow) other)] at isChild
        exact children.child_mem inBelow isChild
      have childOther : child ≠ program.file := fun same => fresh (same ▸ childOld)
      rw [children_congr (afterOld node (belowOld node inBelow) other)] at isChild
      rw [afterOld child (belowOld child childOld) childOther] at isContainer ⊢
      rw [afterOld node (belowOld node inBelow) other]
      exact sound.nested node (List.mem_cons_of_mem _ inBelow) child isChild isContainer
  have builtinsOther : program.builtinsFile ≠ program.file := fun same =>
    sound.builtinsFile_not_mem (same ▸ List.mem_cons_self)
  refine ⟨after, program.file :: created :: below, run, by rw [afterFile, finalFile], afterCreated, afterOld,
    fun node member => ?_, ?_⟩
  · -- The new tree is the old one and the class.
    rcases List.mem_cons.mp member with rfl | member
    · exact .inl List.mem_cons_self
    rcases List.mem_cons.mp member with rfl | inBelow
    · exact .inr rfl
    · exact .inl (List.mem_cons_of_mem _ inBelow)
  refine sound.grow (relinks.keeps.tree fileTree) fileLinked nested (fun node member => ?_) (fun node member => ?_)
    (fun node old => ?_) (fun other old => ?_) (by rw [relinks.nodeCount, finalCount]; omega)
    (children_congr (afterOld _ sound.builtinsFile_lt builtinsOther))
  · rcases List.mem_cons.mp member with rfl | inBelow
    · exact List.mem_cons_self
    · exact List.mem_cons_of_mem _ (List.mem_cons_of_mem _ inBelow)
  · rcases List.mem_cons.mp member with rfl | member
    · exact .inl List.mem_cons_self
    rcases List.mem_cons.mp member with rfl | inBelow
    · refine .inr ⟨Nat.le_refl _, by rw [afterCreated]; rfl, fun declared isDeclared => ?_⟩
      rw [afterCreated] at isDeclared
      cases isDeclared
      rw [afterSymbol, finalSymbol]
      simp
    · exact .inl (List.mem_cons_of_mem _ inBelow)
  · by_cases same : node = program.file
    · subst same
      exact ⟨[created], by rw [afterFile, finalFile, isFile]; rfl⟩
    · exact ⟨(program.arena.node node).kind.children, by
        rw [afterOld node old same, NodeKind.withStatements_children]⟩
  · rw [afterSymbol, finalSymbol, if_neg (Nat.ne_of_lt old)]

/-- Wrapping the file never fails on a sound program and leaves it sound. -/
theorem wrapFile_sound {program : Program} {nodes : List Nat} (sound : program.Sound nodes) :
    ∃ after more, wrapFile program = .ok after ∧ after.Sound more := by
  obtain ⟨name, statements, isFile⟩ := sound.root
  by_cases short : statements.length ≤ 1
  · exact ⟨program, nodes, wrapFile_of_le isFile short, sound⟩
  · obtain ⟨after, more, run, -, -, -, -, afterSound⟩ := wrapFile_wraps sound isFile (by omega)
    exact ⟨_, more, run, afterSound⟩

/-- A wrapped file holds at most one statement, so wrapping it again changes nothing. -/
theorem wrapFile_wrapFile {program after : Program} {nodes : List Nat} (sound : program.Sound nodes)
    (wrapped : wrapFile program = .ok after) : wrapFile after = .ok after := by
  obtain ⟨name, statements, isFile⟩ := sound.root
  by_cases short : statements.length ≤ 1
  · rw [wrapFile_of_le isFile short] at wrapped
    cases wrapped
    exact wrapFile_of_le isFile short
  · obtain ⟨arena, more, run, fileIs, -, -, -, -⟩ := wrapFile_wraps sound isFile (by omega)
    rw [run] at wrapped
    cases wrapped
    exact wrapFile_of_le fileIs (by simp)

end ScriptLowering.Lowering
