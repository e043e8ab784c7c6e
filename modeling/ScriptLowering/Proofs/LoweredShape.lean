import ScriptLowering.Proofs.Idempotence

/-! # The shape of a lowered program

What lowering leaves of a converted program (`Program.Lowered`, `lower_lowered_shape`). The file
holds at most one statement: the file class, named after the file and holding the file's statements
in order, when the initializers left two or more of them, and otherwise nothing changed after the
initializers. Every file and class holds functions and classes only, and those stand nowhere else:
every function is a member of a file or class, none is one written in the source, and no body holds
a function or a class. Every function class holds one method, `invoke`, and every file or class at
most one initializer.

Each pass makes part of this and keeps the rest. Conversion makes no class, and only functions
written in the source; reifying turns each into a function class holding its method, and a variable
takes its place, so that declarations stand only in files and classes (`Arena.Flat`). Wrapping
initializers keeps the declarations of each file and class in order and adds at most one initializer
(`Arena.Regrouped`); wrapping the file moves the file's statements into one class.
-/

namespace ScriptLowering.Mir

/-- Whether a node is the initializer of a file or class. -/
def NodeKind.isInitializer : NodeKind → Bool
  | .function declared => declared.origin == .classInitializer
  | _ => false

@[simp] theorem NodeKind.isInitializer_withStatements (kind : NodeKind) (statements : List Nat) :
    (kind.withStatements statements).isInitializer = kind.isInitializer := by
  cases kind <;> rfl

/-- Only a class gives a class back, of the same symbol, name and origin. -/
theorem NodeKind.eq_classDef_of_withStatements {kind : NodeKind} {statements : List Nat} {symbol : Nat}
    {name : String} {members : List Nat} {origin : Origin}
    (same : kind.withStatements statements = .classDef symbol name members origin) :
    ∃ before, kind = .classDef symbol name before origin := by
  cases kind <;> simp_all [NodeKind.withStatements]

namespace Arena

/-- Every function among `nodes` is a method, and every class a function class holding one method. -/
def Methods (arena : Arena) (nodes : List Nat) : Prop :=
  ∀ node ∈ nodes, (∀ declared, (arena.node node).kind = .function declared → declared.origin = .invoke) ∧
    ∀ symbol name members origin, (arena.node node).kind = .classDef symbol name members origin →
      origin = .functionClass ∧ ∃ method declared, members = [method] ∧
        (arena.node method).kind = .function declared ∧ declared.origin = .invoke

/-- Every function class among `nodes` holds one method, `invoke`. -/
def OneMethod (arena : Arena) (nodes : List Nat) : Prop :=
  ∀ node ∈ nodes, ∀ symbol name members, (arena.node node).kind = .classDef symbol name members .functionClass →
    ∃ method declared, members = [method] ∧ (arena.node method).kind = .function declared ∧
      declared.origin = .invoke

/-- Every file and class among `nodes` holds at most one initializer. -/
def OneInitializer (arena : Arena) (nodes : List Nat) : Prop :=
  ∀ node ∈ nodes, (arena.node node).kind.isClassContainer = true →
    (arena.children node).countP (fun child => (arena.node child).kind.isInitializer) ≤ 1

/-- The form lowering gives the files and classes among `nodes`: they hold declarations only, and
declarations stand only in them; every function is a method or an initializer; every function class
holds one method, and every file or class at most one initializer. -/
structure ClassForm (arena : Arena) (nodes : List Nat) : Prop where
  declarative : arena.Declarative nodes
  flat : arena.Flat nodes
  origins : ∀ node ∈ nodes, ∀ declared, (arena.node node).kind = .function declared →
    declared.origin = .invoke ∨ declared.origin = .classInitializer
  oneMethod : arena.OneMethod nodes
  oneInitializer : arena.OneInitializer nodes

variable {arena : Arena}

/-- A node of a tree other than its root is the child of a node of the tree. By induction on the
size of the tree, into the subtree of the root's child that holds the node. -/
theorem Tree.exists_parent {root : Nat} {nodes : List Nat} (tree : arena.Tree root nodes) {node : Nat}
    (member : node ∈ nodes) (notRoot : node ≠ root) : ∃ parent ∈ nodes, node ∈ arena.children parent := by
  obtain ⟨fuel, fits⟩ : ∃ fuel, nodes.length ≤ fuel := ⟨_, Nat.le_refl _⟩
  induction fuel generalizing root nodes with
  | zero =>
    cases tree
    simp at fits
  | succ fuel ih =>
    cases tree with
    | node present children fresh =>
      obtain ⟨child, isChild, sub, subTree, inSub, within⟩ :=
        children.mem_tree ((List.mem_cons.mp member).resolve_left notRoot)
      by_cases same : node = child
      · exact ⟨root, List.mem_cons_self, same ▸ isChild⟩
      · simp only [List.length_cons, Nat.add_le_add_iff_right] at fits
        obtain ⟨parent, inParent, hasNode⟩ := ih subTree inSub same (Nat.le_trans within.length_le fits)
        exact ⟨parent, List.mem_cons_of_mem _ (within.subset inParent), hasNode⟩

/-- In a tree with its files and classes on top and declarations only directly in them, nothing below
a root that is no file or class is a declaration: its parent would be no file or class either. -/
theorem Tree.undeclared {root : Nat} {nodes : List Nat} (tree : arena.Tree root nodes) (nested : arena.Nested nodes)
    (flat : arena.Flat nodes) (notContainer : (arena.node root).kind.isClassContainer = false) :
    ∀ node ∈ nodes, node ≠ root → (arena.node node).kind.isDeclaration = false := by
  intro node member notRoot
  obtain ⟨parent, inParent, isChild⟩ := tree.exists_parent member notRoot
  cases declaration : (arena.node node).kind.isDeclaration with
  | false => rfl
  | true =>
    have parentContainer := flat parent inParent node isChild declaration
    rw [tree.notContainer nested notContainer parent inParent] at parentContainer
    cases parentContainer

/-- In a tree whose root is no declaration, every declaration stands directly in a file or class of
the tree. -/
theorem Flat.placed {root : Nat} {nodes : List Nat} (flat : arena.Flat nodes) (tree : arena.Tree root nodes)
    (rootUndeclared : (arena.node root).kind.isDeclaration = false) {node : Nat} (member : node ∈ nodes)
    (declares : (arena.node node).kind.isDeclaration = true) :
    ∃ parent ∈ nodes, node ∈ arena.children parent ∧ (arena.node parent).kind.isClassContainer = true := by
  have notRoot : node ≠ root := by
    rintro rfl
    rw [rootUndeclared] at declares
    cases declares
  obtain ⟨parent, inParent, isChild⟩ := tree.exists_parent member notRoot
  exact ⟨parent, inParent, isChild, flat parent inParent node isChild declares⟩

/-- Nothing below a function of such a tree is a function or class. -/
theorem Flat.undeclared_below {root : Nat} {nodes : List Nat} (flat : arena.Flat nodes) (tree : arena.Tree root nodes)
    (nested : arena.Nested nodes) {node : Nat} (member : node ∈ nodes) {declared : Function}
    (isFunction : (arena.node node).kind = .function declared) {sub : List Nat} (subTree : arena.Tree node sub) :
    ∀ inner ∈ sub, inner ≠ node → (arena.node inner).kind.isDeclaration = false := by
  have within := tree.sublist_of_mem member subTree
  exact subTree.undeclared (nested.mono fun _ inSub => within.subset inSub)
    (fun other inSub => flat other (within.subset inSub)) (by rw [isFunction]; rfl)

/-! ## Hoisting initializers out of a reified tree -/

section Hoisting

variable {first second : Arena} {sub grown : List Nat}

/-- A file or class of a hoisted tree is an old one: what hoisting adds is none. -/
theorem Hoisted.mem_of_container (hoisted : first.Hoisted second sub grown) {node : Nat} (member : node ∈ grown)
    (isContainer : (second.node node).kind.isClassContainer = true) : node ∈ sub := by
  rcases hoisted.added node member with inSub | ⟨-, fresh⟩
  · exact inSub
  · obtain ⟨-, -, -, notContainer, -⟩ := fresh
    rw [notContainer] at isContainer
    cases isContainer

variable {root : Nat} (methods : first.Methods sub) (tree : first.Tree root sub)
  (hoisted : first.Hoisted second sub grown) (regrouped : first.Regrouped second sub)
include methods hoisted

/-- Hoisting out of a tree of methods and function classes leaves methods and the initializers it
adds. -/
theorem Methods.origins : ∀ node ∈ grown, ∀ declared, (second.node node).kind = .function declared →
    declared.origin = .invoke ∨ declared.origin = .classInitializer := by
  intro node member declared isFunction
  rcases hoisted.added node member with inSub | ⟨-, fresh⟩
  · obtain ⟨statements, changed⟩ := hoisted.kinds node inSub
    rw [changed] at isFunction
    exact .inl ((methods node inSub).1 declared (NodeKind.eq_function_of_withStatements _ _ isFunction))
  · exact .inr (fresh.2.2.2.2 declared isFunction)

include tree regrouped

/-- Hoisting out of a tree of methods and function classes leaves each function class its one method:
a class holding declarations only gets no initializer. -/
theorem Methods.oneMethod : second.OneMethod grown := by
  intro node member symbol name members isClass
  have inSub := hoisted.mem_of_container member (by rw [isClass]; rfl)
  obtain ⟨statements, changed⟩ := hoisted.kinds node inSub
  obtain ⟨before, beforeKind⟩ := NodeKind.eq_classDef_of_withStatements (changed ▸ isClass)
  obtain ⟨-, method, declared, rfl, methodKind, invoke⟩ :=
    (methods node inSub).2 symbol name before .functionClass beforeKind
  have childrenBefore : first.children node = [method] := by rw [Arena.children, beforeKind]; rfl
  have methodDeclares : (first.node method).kind.isDeclaration = true := by rw [methodKind]; rfl
  obtain ⟨extra, afterChildren, -, onlyDeclarations⟩ := regrouped node inSub (by rw [beforeKind]; rfl)
  have membersAre : members = [method] := by
    have held : second.children node = members := by rw [Arena.children, isClass]; rfl
    rw [← held, afterChildren, onlyDeclarations (by simp [childrenBefore, methodDeclares]), childrenBefore]
    simp [methodDeclares]
  have methodIn : method ∈ sub :=
    List.mem_of_mem_tail (tree.child_mem inSub (by rw [childrenBefore]; exact List.mem_singleton_self _))
  obtain ⟨methodStatements, methodChanged⟩ := hoisted.kinds method methodIn
  exact ⟨method, declared, membersAre, by rw [methodChanged, methodKind]; rfl, invoke⟩

/-- Hoisting out of a tree of methods and function classes leaves every file or class at most one
initializer: the declarations it keeps are methods and classes, and it adds at most one node. -/
theorem Methods.oneInitializer : second.OneInitializer grown := by
  intro node member isContainer
  have inSub := hoisted.mem_of_container member isContainer
  obtain ⟨statements, changed⟩ := hoisted.kinds node inSub
  rw [changed, NodeKind.isClassContainer_withStatements] at isContainer
  obtain ⟨extra, afterChildren, added, -⟩ := regrouped node inSub isContainer
  have keptNone : ∀ child ∈ (first.children node).filter (fun child => (first.node child).kind.isDeclaration),
      ¬(second.node child).kind.isInitializer = true := by
    intro child kept
    have childIn := List.mem_of_mem_tail (tree.child_mem inSub (List.mem_filter.mp kept).1)
    obtain ⟨childStatements, childChanged⟩ := hoisted.kinds child childIn
    rw [childChanged, NodeKind.isInitializer_withStatements]
    cases kind : (first.node child).kind with
    | function declared => simp [NodeKind.isInitializer, (methods child childIn).1 declared kind]
    | _ => simp [NodeKind.isInitializer]
  have short : extra.length ≤ 1 := by
    rcases added with rfl | ⟨_, rfl, -⟩ <;> simp
  rw [afterChildren, List.countP_append, List.countP_eq_zero.mpr keptNone, Nat.zero_add]
  exact Nat.le_trans List.countP_le_length short

end Hoisting

end Arena

/-- What wrapping the file does: a file of two or more statements comes to hold one class, named after
the file and holding those statements in order, and a program whose file holds at most one is left as it
is. -/
def Program.WrapsFile (before after : Program) : Prop :=
  ∃ name statements, (before.arena.node before.file).kind = .file name statements ∧
    (statements.length ≤ 1 → after = before) ∧
    (1 < statements.length → after.file = before.file ∧ ∃ wrapper symbol,
      (after.arena.node after.file).kind = .file name [wrapper] ∧
      (after.arena.node wrapper).kind = .classDef symbol (Lowering.fileClassName name) statements .fileClass)

/-- A wrapped file holds at most one statement. -/
theorem Program.WrapsFile.single {before after : Program} (wraps : before.WrapsFile after) :
    (after.arena.children after.file).length ≤ 1 := by
  obtain ⟨name, statements, isFile, short, long⟩ := wraps
  by_cases fits : statements.length ≤ 1
  · rw [short fits, Arena.children, isFile]
    exact fits
  · obtain ⟨-, wrapper, symbol, fileKind, -⟩ := long (by omega)
    rw [Arena.children, fileKind]
    exact Nat.le_refl 1

/-- The shape of a program `lowered` over the tree `nodes`, whose file was wrapped from `initialized`:
it is sound and its files and classes have the class form; its file holds at most one statement, as
wrapping made it; every declaration stands directly in a file or class, and nothing below a function
is a function or class. -/
structure Program.Lowered (initialized lowered : Program) (nodes : List Nat) : Prop
    extends lowered.arena.ClassForm nodes where
  sound : lowered.Sound nodes
  wrapsFile : initialized.WrapsFile lowered
  single : (lowered.arena.children lowered.file).length ≤ 1
  placed : ∀ node ∈ nodes, (lowered.arena.node node).kind.isDeclaration = true →
    ∃ parent ∈ nodes, node ∈ lowered.arena.children parent ∧
      (lowered.arena.node parent).kind.isClassContainer = true
  undeclaredBelow : ∀ node ∈ nodes, ∀ declared, (lowered.arena.node node).kind = .function declared →
    ∀ sub, lowered.arena.Tree node sub → ∀ inner ∈ sub, inner ≠ node →
      (lowered.arena.node inner).kind.isDeclaration = false

end ScriptLowering.Mir

namespace ScriptLowering.Lowering

open Mir Arena

/-! ## Reifying a converted program -/

namespace Regrafted

variable {program : Program} {nodes made : List Nat} {containerOf : Nat → Nat} {walked : Arena}
  {final : List Nat} (regrafted : Regrafted program nodes made containerOf walked final)
  {rename : Nat → Nat} {after : Arena}
  (renamed : (walked.graftAll (pendingClasses program.arena.nodeCount made containerOf)).Renamed rename after final)
  (plain : ∀ node ∈ nodes, node ≠ program.file → (program.arena.node node).kind.isClassContainer = false ∧
    ∀ declared, (program.arena.node node).kind = .function declared → declared.origin = .source)
include regrafted renamed plain

/-- A node of a converted program that reifying keeps is no declaration: the file is none, no other
node was a class, and every function was reified. -/
theorem kept_undeclared {node : Nat} (inNodes : node ∈ nodes) (kept : node ∉ made) :
    (after.node node).kind.isDeclaration = false := by
  rw [regrafted.kind_renamed renamed inNodes kept, NodeKind.isDeclaration_renameSymbols,
    NodeKind.isDeclaration_withStatements, NodeKind.isDeclaration_mapChildren]
  by_cases isFile : node = program.file
  · obtain ⟨name, statements, fileKind⟩ := regrafted.sound.root
    rw [isFile, fileKind]
    rfl
  · obtain ⟨notContainer, source⟩ := plain node inNodes isFile
    cases kind : (program.arena.node node).kind with
    | function declared =>
      have reifiable : (program.arena.node node).kind.reifiable = true := by
        rw [kind, NodeKind.reifiable, source declared kind]
        rfl
      exact absurd ((regrafted.exact node inNodes).mpr reifiable) kept
    | classDef symbol name members origin =>
      rw [kind] at notContainer
      cases notContainer
    | _ => rfl

/-- What takes the place of a child of a node of a converted program is no declaration: a variable
if the child was reified, else the child as it was. -/
theorem replaced_undeclared {node child : Nat} (inNodes : node ∈ nodes)
    (isChild : child ∈ program.arena.children node) :
    (after.node (replacement program.arena.nodeCount made child)).kind.isDeclaration = false := by
  by_cases reified : child ∈ made
  · obtain ⟨declared, -, built⟩ := regrafted.functionClass renamed reified
    rw [replacement_of_mem reified, show madeNode program.arena.nodeCount made child 2 =
      madeNode program.arena.nodeCount made child 0 + 2 from rfl, built.variableKind]
    rfl
  · rw [replacement_of_not_mem reified]
    exact regrafted.kept_undeclared renamed plain (regrafted.sound.child_mem inNodes isChild).1 reified

/-- After reifying a converted program, declarations stand only in files and classes: a node kept
holds what replaced its children, and classes are appended to files and classes only; a method
holds what replaced its function's children, and a variable holds nothing. -/
theorem flat_renamed : after.Flat final := by
  intro node member child isChild isDeclaration
  cases container : (after.node node).kind.isClassContainer with
  | true => rfl
  | false =>
    exfalso
    rcases (regrafted.members node).mp member with ⟨inNodes, kept⟩ | ⟨function, -, inMade, part, small, rfl⟩
    · rw [regrafted.children_renamed renamed inNodes] at isChild
      rcases List.mem_append.mp isChild with replaced | appended
      · obtain ⟨original, isOriginal, rfl⟩ := List.mem_map.mp replaced
        rw [regrafted.replaced_undeclared renamed plain inNodes isOriginal] at isDeclaration
        cases isDeclaration
      · obtain ⟨function, inFiltered, -⟩ := List.mem_map.mp appended
        obtain ⟨inMade, isContainerOf⟩ := List.mem_filter.mp inFiltered
        have oldContainer := (regrafted.containers function inMade).2
        rw [show containerOf function = node by simpa using isContainerOf] at oldContainer
        rw [regrafted.kind_renamed renamed inNodes kept, NodeKind.isClassContainer_renameSymbols,
          NodeKind.isClassContainer_withStatements, NodeKind.isClassContainer_mapChildren, oldContainer] at container
        cases container
    · obtain ⟨declared, isFunction, built⟩ := regrafted.functionClass renamed inMade
      obtain rfl | rfl | rfl : part = 0 ∨ part = 1 ∨ part = 2 := by omega
      · -- The method holds what replaced the function's parameters and body.
        have methodChildren : after.children (madeNode program.arena.nodeCount made function 0) =
            (program.arena.children function).map (replacement program.arena.nodeCount made) := by
          rw [Arena.children, built.invokeKind, Arena.children, isFunction]
          simp [NodeKind.children, Function.invoke, Function.mapChildren]
        rw [methodChildren] at isChild
        obtain ⟨original, isOriginal, rfl⟩ := List.mem_map.mp isChild
        rw [regrafted.replaced_undeclared renamed plain (regrafted.reifying.mem function inMade) isOriginal]
          at isDeclaration
        cases isDeclaration
      · rw [show madeNode program.arena.nodeCount made function 1 =
          madeNode program.arena.nodeCount made function 0 + 1 from rfl, built.classKind] at container
        cases container
      · rw [Arena.children, show madeNode program.arena.nodeCount made function 2 =
          madeNode program.arena.nodeCount made function 0 + 2 from rfl, built.variableKind] at isChild
        cases isChild

/-- After reifying a converted program, every function is a method and every class a function class
holding its method: the nodes kept are no declarations. -/
theorem methods_renamed : after.Methods final := by
  intro node member
  rcases (regrafted.members node).mp member with ⟨inNodes, kept⟩ | ⟨function, -, inMade, part, small, rfl⟩
  · have undeclared := regrafted.kept_undeclared renamed plain inNodes kept
    refine ⟨fun declared isFunction => ?_, fun symbol name members origin isClass => ?_⟩
    · rw [isFunction] at undeclared
      cases undeclared
    · rw [isClass] at undeclared
      cases undeclared
  · obtain ⟨declared, -, built⟩ := regrafted.functionClass renamed inMade
    obtain rfl | rfl | rfl : part = 0 ∨ part = 1 ∨ part = 2 := by omega
    · refine ⟨fun method isMethod => ?_, fun symbol name members origin isClass => ?_⟩
      · rw [built.invokeKind] at isMethod
        cases isMethod
        rfl
      · rw [built.invokeKind] at isClass
        cases isClass
    · rw [show madeNode program.arena.nodeCount made function 1 =
        madeNode program.arena.nodeCount made function 0 + 1 from rfl, built.classKind]
      refine ⟨fun _ isFunction => (by cases isFunction), fun symbol name members origin isClass => ?_⟩
      cases isClass
      exact ⟨rfl, _, _, rfl, built.invokeKind, rfl⟩
    · rw [show madeNode program.arena.nodeCount made function 2 =
        madeNode program.arena.nodeCount made function 0 + 2 from rfl, built.variableKind]
      exact ⟨fun _ isFunction => (by cases isFunction), fun _ _ _ _ isClass => by cases isClass⟩

end Regrafted

/-- Reifying a converted program leaves a sound program with no function to reify, with
declarations only in files and classes, every function a method and every class a function class
holding its method. -/
theorem reifyFunctions_methods {program : Program} {nodes : List Nat} (sound : program.Sound nodes)
    (plain : ∀ node ∈ nodes, node ≠ program.file → (program.arena.node node).kind.isClassContainer = false ∧
      ∀ declared, (program.arena.node node).kind = .function declared → declared.origin = .source) :
    ∃ after more, reifyFunctions program = .ok after ∧ after.Sound more ∧ after.arena.NoneReifiable more ∧
      after.arena.Flat more ∧ after.arena.Methods more := by
  obtain ⟨walked, final, after, regrafted, renamed, ran⟩ := reifyFunctions_renamed sound
  exact ⟨_, final, ran, regrafted.soundAfter.renamed renamed, regrafted.noneReifiable renamed,
    regrafted.flat_renamed renamed plain, regrafted.methods_renamed renamed plain⟩

/-! ## Wrapping initializers and the file -/

/-- Wrapping the initializers of a sound tree of methods and function classes, with declarations only
in files and classes, gives it the class form. -/
theorem wrapInitializers_classForm {program : Program} {nodes : List Nat} (sound : program.Sound nodes)
    (flat : program.arena.Flat nodes) (methods : program.arena.Methods nodes) :
    ∃ after more, wrapInitializers program = .ok { program with arena := after } ∧
      Program.Sound { program with arena := after } more ∧ after.ClassForm more := by
  obtain ⟨after, more, wrapped, afterSound, hoisted, declarative, keepsFlat, regrouped⟩ :=
    wrapInitializers_hoisted sound
  exact ⟨after, more, wrapped, afterSound,
    { declarative, flat := keepsFlat flat, origins := methods.origins hoisted,
      oneMethod := methods.oneMethod sound.tree hoisted regrouped,
      oneInitializer := methods.oneInitializer sound.tree hoisted regrouped }⟩

/-- Wrapping the file of a sound program does what `Program.WrapsFile` says and keeps the class form:
the file holds the new class, the class holds the file's statements, and every other node of the tree
holds what it held. -/
theorem wrapFile_classForm {program : Program} {nodes : List Nat} (sound : program.Sound nodes)
    (form : program.arena.ClassForm nodes) :
    ∃ after more, wrapFile program = .ok after ∧ after.Sound more ∧ after.arena.ClassForm more ∧
      program.WrapsFile after := by
  obtain ⟨name, statements, isFile⟩ := sound.root
  by_cases short : statements.length ≤ 1
  · exact ⟨program, nodes, wrapFile_of_le isFile short, sound, form, name, statements, isFile,
      fun _ => rfl, fun long => absurd long (by omega)⟩
  obtain ⟨after, more, wrapped, fileKind, classKind, oldKind, members, afterSound⟩ :=
    wrapFile_wraps sound isFile (by omega)
  refine ⟨_, more, wrapped, afterSound, ?_, name, statements, isFile, fun fits => absurd fits short,
    fun _ => ⟨rfl, _, _, fileKind, classKind⟩⟩
  have fileHolds : program.arena.children program.file = statements := by rw [Arena.children, isFile]; rfl
  have fileChildren : after.children program.file = [program.arena.nodeCount] := by
    rw [Arena.children, fileKind]; rfl
  have classChildren : after.children program.arena.nodeCount = program.arena.children program.file := by
    rw [Arena.children, classKind, fileHolds]; rfl
  have fileContainer : (program.arena.node program.file).kind.isClassContainer = true := by rw [isFile]; rfl
  -- Every old node but the file keeps its kind, and so do the children of old nodes.
  have keeps : ∀ node ∈ nodes, node ≠ program.file → (after.node node).kind = (program.arena.node node).kind :=
    fun node inNodes other => oldKind node (sound.tree.lt_nodeCount node inNodes) other
  have childKeeps : ∀ node ∈ nodes, ∀ child ∈ program.arena.children node,
      (after.node child).kind = (program.arena.node child).kind := by
    intro node inNodes child isChild
    obtain ⟨childIn, other⟩ := sound.child_mem inNodes isChild
    exact keeps child childIn other
  have nodeCases : ∀ node ∈ more, node = program.file ∨ node = program.arena.nodeCount ∨
      node ∈ nodes ∧ (after.node node).kind = (program.arena.node node).kind := by
    intro node member
    rcases members node member with inNodes | rfl
    · by_cases isFileNode : node = program.file
      · exact .inl isFileNode
      · exact .inr (.inr ⟨inNodes, keeps node inNodes isFileNode⟩)
    · exact .inr (.inl rfl)
  refine { declarative := ?_, flat := ?_, origins := ?_, oneMethod := ?_, oneInitializer := ?_ }
  · intro node member isContainer child isChild
    rcases nodeCases node member with rfl | rfl | ⟨inNodes, same⟩
    · rw [fileChildren, List.mem_singleton] at isChild
      rw [isChild, classKind]
      rfl
    · rw [classChildren] at isChild
      rw [childKeeps _ sound.tree.mem_self child isChild]
      exact form.declarative _ sound.tree.mem_self fileContainer child isChild
    · rw [children_congr same] at isChild
      rw [same] at isContainer
      rw [childKeeps node inNodes child isChild]
      exact form.declarative node inNodes isContainer child isChild
  · intro node member child isChild declares
    rcases nodeCases node member with rfl | rfl | ⟨inNodes, same⟩
    · rw [fileKind]
      rfl
    · rw [classKind]
      rfl
    · rw [children_congr same] at isChild
      rw [childKeeps node inNodes child isChild] at declares
      rw [same]
      exact form.flat node inNodes child isChild declares
  · intro node member declared isFunction
    rcases nodeCases node member with rfl | rfl | ⟨inNodes, same⟩
    · rw [fileKind] at isFunction
      cases isFunction
    · rw [classKind] at isFunction
      cases isFunction
    · exact form.origins node inNodes declared (same ▸ isFunction)
  · intro node member symbol className held isClass
    rcases nodeCases node member with rfl | rfl | ⟨inNodes, same⟩
    · rw [fileKind] at isClass
      cases isClass
    · -- The new class is the file class, no function class.
      rw [classKind] at isClass
      cases isClass
    · rw [same] at isClass
      obtain ⟨method, declared, rfl, methodKind, invoke⟩ := form.oneMethod node inNodes symbol className _ isClass
      have isChild : method ∈ program.arena.children node := by
        rw [Arena.children, isClass]
        exact List.mem_singleton_self _
      exact ⟨method, declared, rfl, by rw [childKeeps node inNodes method isChild, methodKind], invoke⟩
  · intro node member isContainer
    -- Among the children of an old node, initializers are counted by their old kinds.
    have sameCount : ∀ other ∈ nodes,
        (program.arena.children other).countP (fun child => (after.node child).kind.isInitializer) =
          (program.arena.children other).countP (fun child => (program.arena.node child).kind.isInitializer) :=
      fun other inNodes => List.countP_congr fun child isChild => by rw [childKeeps other inNodes child isChild]
    rcases nodeCases node member with rfl | rfl | ⟨inNodes, same⟩
    · rw [fileChildren]
      simp [classKind, NodeKind.isInitializer]
    · rw [classChildren, sameCount _ sound.tree.mem_self]
      exact form.oneInitializer _ sound.tree.mem_self fileContainer
    · rw [same] at isContainer
      rw [children_congr same, sameCount node inNodes]
      exact form.oneInitializer node inNodes isContainer

/-! ## Lowering a converted program -/

/-- Lowering a converted program never fails, and gives it the lowered shape: its file holds at most
one statement, the file class when the initializers left two or more; files and classes hold functions
and classes only, and every function stands directly in one of them, is a method or an initializer, and
holds no function or class below it; every function class holds one method, and every file or class at
most one initializer. -/
theorem lower_shape {file : Hir.File} {program : Program} (converted : Program.convert file = .ok program) :
    ∃ reified initialized lowered nodes, reifyFunctions program = .ok reified ∧
      wrapInitializers reified = .ok initialized ∧ wrapFile initialized = .ok lowered ∧
      lower program = .ok lowered ∧ initialized.Lowered lowered nodes := by
  obtain ⟨nodes, sound, plain⟩ := Program.convert_sources converted
  obtain ⟨reified, reifiedNodes, reifiedEq, reifiedSound, -, flat, methods⟩ := reifyFunctions_methods sound plain
  obtain ⟨arena, initializedNodes, initializedEq, initializedSound, initializedForm⟩ :=
    wrapInitializers_classForm reifiedSound flat methods
  obtain ⟨lowered, more, loweredEq, loweredSound, form, wraps⟩ :=
    wrapFile_classForm initializedSound initializedForm
  have fileUndeclared : (lowered.arena.node lowered.file).kind.isDeclaration = false := by
    obtain ⟨name, statements, isFile⟩ := loweredSound.root
    rw [isFile]
    rfl
  refine ⟨reified, _, lowered, more, reifiedEq, initializedEq, loweredEq, ?_,
    { form with
      sound := loweredSound
      wrapsFile := wraps
      single := wraps.single
      placed := fun node member declares => form.flat.placed loweredSound.tree fileUndeclared member declares
      undeclaredBelow := fun node member declared isFunction sub subTree =>
        form.flat.undeclared_below loweredSound.tree loweredSound.nested member isFunction subTree }⟩
  simp only [lower, reifiedEq, initializedEq, loweredEq, Bind.bind, Except.bind]

theorem lower_shape_nestedCallSample : ∃ program, Program.convert nestedCallSample = .ok program ∧
    ∃ reified initialized lowered nodes, reifyFunctions program = .ok reified ∧
      wrapInitializers reified = .ok initialized ∧ wrapFile initialized = .ok lowered ∧
      lower program = .ok lowered ∧ initialized.Lowered lowered nodes := by
  obtain ⟨program, converted⟩ := convert_nestedCallSample
  exact ⟨program, converted, lower_shape converted⟩

end ScriptLowering.Lowering
