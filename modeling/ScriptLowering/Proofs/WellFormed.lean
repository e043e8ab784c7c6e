import Mathlib.Data.List.Perm.Subperm
import ScriptLowering.Proofs.ArenaTree

/-! # Well-formed programs

A program is well formed when the nodes reached from its file form a tree (`Arena.Tree`), every
node of it that keeps a parent link names the closest enclosing node that keeps one while the file
names none (`Arena.Linked`), every declaration in the tree owns its symbol, and every symbol that an
expression of the tree reads, writes or instantiates is bound, to a node of the tree or to a
built-in function.

This is what the lowering passes rely on: in a well-formed program the parent links above any
node of the tree but the file climb to a file or class of the tree, within as many steps as the
tree has nodes (`Program.Shaped.closestClassContainer`).
-/

namespace ScriptLowering.Mir

mutual

/-- The symbols an expression reads, writes or instantiates, in walk order. -/
def Expression.symbols : Expression → List Nat
  | .const .. => []
  | .get _ symbol => [symbol]
  | .set _ symbol value => symbol :: value.symbols
  | .getProperty _ receiver _ => receiver.symbols
  | .setProperty _ receiver _ value => receiver.symbols ++ value.symbols
  | .object _ entries => Expression.entrySymbols entries
  | .call _ receiver arguments => receiver.symbols ++ Expression.argumentSymbols arguments
  | .newInstance _ classSymbol arguments => classSymbol :: Expression.argumentSymbols arguments

/-- The symbols of the arguments present. -/
def Expression.argumentSymbols : List (Option Expression) → List Nat
  | [] => []
  | none :: rest => Expression.argumentSymbols rest
  | some argument :: rest => argument.symbols ++ Expression.argumentSymbols rest

/-- The symbols of an object's values. -/
def Expression.entrySymbols : List (String × Expression) → List Nat
  | [] => []
  | (_, value) :: rest => value.symbols ++ Expression.entrySymbols rest

end

mutual

/-- The classes an expression instantiates, in walk order. -/
def Expression.instances : Expression → List Nat
  | .const .. | .get .. => []
  | .set _ _ value => value.instances
  | .getProperty _ receiver _ => receiver.instances
  | .setProperty _ receiver _ value => receiver.instances ++ value.instances
  | .object _ entries => Expression.entryInstances entries
  | .call _ receiver arguments => receiver.instances ++ Expression.argumentInstances arguments
  | .newInstance _ classSymbol arguments => classSymbol :: Expression.argumentInstances arguments

/-- The classes the arguments present instantiate. -/
def Expression.argumentInstances : List (Option Expression) → List Nat
  | [] => []
  | none :: rest => Expression.argumentInstances rest
  | some argument :: rest => argument.instances ++ Expression.argumentInstances rest

/-- The classes an object's values instantiate. -/
def Expression.entryInstances : List (String × Expression) → List Nat
  | [] => []
  | (_, value) :: rest => value.instances ++ Expression.entryInstances rest

end

/-- The symbols used by the expression a node holds. -/
def NodeKind.uses : NodeKind → List Nat
  | .variable _ _ (some value) => value.symbols
  | .expression value => value.symbols
  | _ => []

/-- The classes instantiated by the expression a node holds. -/
def NodeKind.instances : NodeKind → List Nat
  | .variable _ _ (some value) => value.instances
  | .expression value => value.instances
  | _ => []

/-- Whether a node is a class. -/
def NodeKind.isClass : NodeKind → Bool
  | .classDef .. => true
  | _ => false

/-- A built-in function of a program: a function from the built-ins, held by the program's file of
built-ins. -/
def Program.IsBuiltin (program : Program) (node : Nat) : Prop :=
  node ∈ program.arena.children program.builtinsFile ∧
    ∃ declared, (program.arena.node node).kind = .function declared ∧ declared.origin = .builtIn

/-- The files and classes among `nodes` form the top of their tree: a file or class held by one of
them is a class, held by a file or class. -/
def Arena.Nested (arena : Arena) (nodes : List Nat) : Prop :=
  ∀ node ∈ nodes, ∀ child ∈ arena.children node, (arena.node child).kind.isClassContainer →
    (arena.node child).kind.isClass ∧ (arena.node node).kind.isClassContainer

/-- A well-formed program whose file reaches the nodes `nodes`: they form a tree whose root is a
file, with right parent links; each declaration among them owns its symbol; each symbol their
expressions use is bound to one of them or to a built-in function. -/
structure Program.Shaped (program : Program) (nodes : List Nat) : Prop where
  root : ∃ name statements, (program.arena.node program.file).kind = .file name statements
  tree : program.arena.Tree program.file nodes
  linked : program.arena.Linked program.file none
  owned : ∀ node ∈ nodes, program.arena.Owns node
  resolved : ∀ node ∈ nodes, ∀ symbol ∈ (program.arena.node node).kind.uses,
    ∃ owner, (program.arena.symbol symbol).owner = some owner ∧ (owner ∈ nodes ∨ program.IsBuiltin owner)

/-- A well-formed program. -/
def Program.WellFormed (program : Program) : Prop := ∃ nodes, program.Shaped nodes

/-- What the lowering passes keep, a little more than being well formed: the file of built-in
functions and its statements lie outside the tree, a used symbol bound to a node of the tree is
the symbol that node declares, what is instantiated is a class, and the files and classes form
the top of the tree. -/
structure Program.Sound (program : Program) (nodes : List Nat) : Prop extends program.Shaped nodes where
  builtinsFile_lt : program.builtinsFile < program.arena.nodeCount
  builtinsFile_not_mem : program.builtinsFile ∉ nodes
  builtins_apart : ∀ node ∈ program.arena.children program.builtinsFile,
    node < program.arena.nodeCount ∧ node ∉ nodes
  declares : ∀ node ∈ nodes, ∀ symbol ∈ (program.arena.node node).kind.uses, ∀ owner ∈ nodes,
    (program.arena.symbol symbol).owner = some owner → (program.arena.node owner).kind.symbol? = some symbol
  instances : ∀ node ∈ nodes, ∀ symbol ∈ (program.arena.node node).kind.instances, ∀ owner,
    (program.arena.symbol symbol).owner = some owner → (program.arena.node owner).kind.isClass
  nested : program.arena.Nested nodes

theorem Program.Sound.wellFormed {program : Program} {nodes : List Nat} (sound : program.Sound nodes) :
    program.WellFormed :=
  ⟨nodes, sound.toShaped⟩

namespace Arena

variable {arena : Arena}

theorem Nested.mono {nodes sub : List Nat} (nested : arena.Nested nodes) (within : ∀ node ∈ sub, node ∈ nodes) :
    arena.Nested sub :=
  fun node member => nested node (within node member)

mutual

/-- Below a node that is no file or class, a tree whose files and classes form its top has none. -/
theorem Tree.notContainer : {id : Nat} → {sub : List Nat} → arena.Tree id sub → arena.Nested sub →
    (arena.node id).kind.isClassContainer = false → ∀ node ∈ sub, (arena.node node).kind.isClassContainer = false
  | id, _, .node _ children _, nested, notContainer, node, member => by
    rcases List.mem_cons.mp member with rfl | below
    · exact notContainer
    · -- No child of a node that is no file or class is one.
      have childrenNot : ∀ child ∈ arena.children id, (arena.node child).kind.isClassContainer = false := by
        intro child isChild
        cases isContainer : (arena.node child).kind.isClassContainer with
        | false => rfl
        | true =>
          have := (nested id List.mem_cons_self child isChild isContainer).2
          rw [notContainer] at this
          cases this
      exact children.notContainer (nested.mono fun other inBelow => List.mem_cons_of_mem _ inBelow)
        childrenNot node below

theorem Forest.notContainer : {ids sub : List Nat} → arena.Forest ids sub → arena.Nested sub →
    (∀ id ∈ ids, (arena.node id).kind.isClassContainer = false) →
    ∀ node ∈ sub, (arena.node node).kind.isClassContainer = false
  | _, _, .nil, _, _, _, member => absurd member List.not_mem_nil
  | id :: _, _, .cons tree forest _, nested, notContainer, node, member => by
    rcases List.mem_append.mp member with inFirst | inOthers
    · exact tree.notContainer (nested.mono fun other inTree => List.mem_append_left _ inTree)
        (notContainer id List.mem_cons_self) node inFirst
    · exact forest.notContainer (nested.mono fun other inForest => List.mem_append_right _ inForest)
        (fun other later => notContainer other (List.mem_cons_of_mem _ later)) node inOthers

end

end Arena

/-! ## Climbing to a class container -/

namespace Arena

variable {arena other : Arena}

/-- Climbing the parent links from `above` passes the nodes `path`, in order, and stops at the
last of them, `container`, the first file or class on the way. -/
inductive Climbs (arena : Arena) : List Nat → Option Nat → Nat → Prop
  | found {id : Nat} (container : (arena.node id).kind.isClassContainer = true) :
      Climbs arena [id] (some id) id
  | up {id container : Nat} {path : List Nat} (passing : (arena.node id).kind.isClassContainer = false)
      (climbs : Climbs arena path (arena.node id).parent container) :
      Climbs arena (id :: path) (some id) container

namespace Climbs

variable {path : List Nat} {above : Option Nat} {container : Nat}

theorem isClassContainer (climbs : arena.Climbs path above container) :
    (arena.node container).kind.isClassContainer = true := by
  induction climbs with
  | found found => exact found
  | up _ _ ih => exact ih

theorem mem (climbs : arena.Climbs path above container) : container ∈ path := by
  induction climbs with
  | found => exact List.mem_singleton_self _
  | up _ _ ih => exact List.mem_cons_of_mem _ ih

/-- With a link of fuel for each node on the path, the search for a class container finds the
end of the climb. -/
theorem containerAbove (climbs : arena.Climbs path above container) {fuel : Nat}
    (enough : path.length ≤ fuel) : arena.containerAbove fuel above = some container := by
  induction climbs generalizing fuel with
  | found found =>
    obtain ⟨fuel, rfl⟩ : ∃ less, fuel = less + 1 := ⟨fuel - 1, by simp at enough; omega⟩
    simp [Arena.containerAbove, found]
  | up passing _ ih =>
    obtain ⟨fuel, rfl⟩ : ∃ less, fuel = less + 1 := ⟨fuel - 1, by simp at enough; omega⟩
    simp only [List.length_cons, Nat.add_le_add_iff_right] at enough
    simp only [Arena.containerAbove, passing, Bool.false_eq_true, if_false]
    exact ih enough

/-- A climb reads only whether the nodes on its path are files or classes and where they link. -/
theorem congr (climbs : arena.Climbs path above container)
    (same : ∀ id ∈ path, (other.node id).kind.isClassContainer = (arena.node id).kind.isClassContainer ∧
      (other.node id).parent = (arena.node id).parent) : other.Climbs path above container := by
  induction climbs with
  | found found =>
    exact .found (((same _ (List.mem_singleton_self _)).1).trans found)
  | @up id _ _ passing _ ih =>
    have here := same id List.mem_cons_self
    refine .up (here.1.trans passing) ?_
    rw [here.2]
    exact ih fun node later => same node (List.mem_cons_of_mem _ later)

end Climbs

/-- The climb from the link a node passes to its children: through the node when it keeps a link,
starting afresh at it when it is a file or class. -/
theorem climbs_passedLink {id : Nat} {path : List Nat} {above : Option Nat}
    (parent : (arena.node id).kind.tracksParent = true → (arena.node id).parent = above)
    (start : (∃ container, arena.Climbs path above container) ∨ (arena.node id).kind.isClassContainer = true) :
    ∃ next container, arena.Climbs next (arena.passedLink id above) container ∧
      next.length ≤ path.length + 1 ∧ ∀ node ∈ next, node = id ∨ node ∈ path := by
  by_cases isContainer : (arena.node id).kind.isClassContainer = true
  · have tracks : (arena.node id).kind.tracksParent = true := by
      revert isContainer
      cases (arena.node id).kind <;> simp [NodeKind.isClassContainer, NodeKind.tracksParent]
    refine ⟨[id], id, ?_, by simp, fun node member => .inl (List.mem_singleton.mp member)⟩
    rw [passedLink, if_pos tracks]
    exact .found isContainer
  · obtain ⟨container, climbs⟩ := start.resolve_right isContainer
    by_cases tracks : (arena.node id).kind.tracksParent = true
    · refine ⟨id :: path, container, ?_, by simp, fun node member => ?_⟩
      · rw [passedLink, if_pos tracks]
        exact .up (by simpa using isContainer) (parent tracks ▸ climbs)
      · rcases List.mem_cons.mp member with rfl | later
        · exact .inl rfl
        · exact .inr later
    · refine ⟨path, container, ?_, by simp, fun node member => .inr member⟩
      rw [passedLink, if_neg tracks]
      exact climbs

/-- A tree has no more nodes than its arena. -/
theorem Tree.length_le {id : Nat} {nodes : List Nat} (tree : arena.Tree id nodes) :
    nodes.length ≤ arena.nodeCount := by
  have counted := (tree.nodup.subperm fun other inNodes =>
    List.mem_range.mpr (tree.lt_nodeCount other inNodes)).length_le
  rwa [List.length_range] at counted

mutual

/-- Below a node the climb from its link reaches, every node of its subtree that keeps a link climbs
from it to a file or class on a path of ancestors, shorter than the bound. -/
theorem Tree.climbs {nodes : List Nat} (bound : Nat) : {id : Nat} → {sub path : List Nat} →
    {above : Option Nat} → {container : Nat} → arena.Tree id sub → arena.Linked id above →
    arena.Climbs path above container → (∀ node ∈ path, node ∈ nodes) → (∀ node ∈ sub, node ∈ nodes) →
    path.length + sub.length ≤ bound →
    ∀ node ∈ sub, (arena.node node).kind.tracksParent = true → ∃ climb found,
      arena.Climbs climb (arena.node node).parent found ∧ (∀ step ∈ climb, step ∈ nodes) ∧ climb.length < bound
  | id, _, path, _, _, .node _ children _, .node parent childrenLinked, climbs, onPath, within, fits,
      node, member, tracks => by
    simp only [List.length_cons] at fits
    rcases List.mem_cons.mp member with rfl | below
    · exact ⟨path, _, parent tracks ▸ climbs, onPath, by omega⟩
    · obtain ⟨next, found, nextClimbs, longer, nextPath⟩ := climbs_passedLink parent (.inl ⟨_, climbs⟩)
      refine children.climbs bound childrenLinked nextClimbs (fun step inNext => ?_)
        (fun other inBelow => within other (List.mem_cons_of_mem _ inBelow)) (by omega) node below tracks
      rcases nextPath step inNext with rfl | inPath
      · exact within step List.mem_cons_self
      · exact onPath step inPath

theorem Forest.climbs {nodes : List Nat} (bound : Nat) : {ids sub path : List Nat} → {above : Option Nat} →
    {container : Nat} → arena.Forest ids sub → (∀ id ∈ ids, arena.Linked id above) →
    arena.Climbs path above container → (∀ node ∈ path, node ∈ nodes) → (∀ node ∈ sub, node ∈ nodes) →
    path.length + sub.length ≤ bound →
    ∀ node ∈ sub, (arena.node node).kind.tracksParent = true → ∃ climb found,
      arena.Climbs climb (arena.node node).parent found ∧ (∀ step ∈ climb, step ∈ nodes) ∧ climb.length < bound
  | _, _, _, _, _, .nil, _, _, _, _, _, _, member, _ => absurd member List.not_mem_nil
  | id :: _, _, _, _, _, .cons tree forest _, linked, climbs, onPath, within, fits, node, member, tracks => by
    simp only [List.length_append] at fits
    rcases List.mem_append.mp member with inFirst | inOthers
    · exact tree.climbs bound (linked id List.mem_cons_self) climbs onPath
        (fun other inTree => within other (List.mem_append_left _ inTree)) (by omega) node inFirst tracks
    · exact forest.climbs bound (fun other later => linked other (List.mem_cons_of_mem _ later)) climbs onPath
        (fun other inForest => within other (List.mem_append_right _ inForest)) (by omega) node inOthers tracks

end

end Arena

/-- In a well-formed program, the climb from any node of the tree but the file that keeps a link
passes nodes of the tree, no more than the arena has, and ends at a file or class. -/
theorem Program.Shaped.climbs {program : Program} {nodes : List Nat}
    (shaped : program.Shaped nodes) {node : Nat} (member : node ∈ nodes) (notRoot : node ≠ program.file)
    (tracks : (program.arena.node node).kind.tracksParent = true) :
    ∃ climb container, program.arena.Climbs climb (program.arena.node node).parent container ∧
      (∀ step ∈ climb, step ∈ nodes) ∧ climb.length ≤ program.arena.nodeCount := by
  obtain ⟨name, statements, isFile⟩ := shaped.root
  have isContainer : (program.arena.node program.file).kind.isClassContainer = true := by rw [isFile]; rfl
  have fits := shaped.tree.length_le
  have tree := shaped.tree
  cases tree with
  | @node _ below _ children _ =>
    cases shaped.linked with
    | node parent childrenLinked =>
      -- The file is a class container, so the climbs from its children start at it.
      obtain ⟨start, atRoot, rootClimbs, startLength, startPath⟩ :=
        @Arena.climbs_passedLink _ _ [] _ parent (.inr isContainer)
      have inBelow : node ∈ below := by
        rcases List.mem_cons.mp member with same | later
        · exact absurd same notRoot
        · exact later
      simp only [List.length_nil] at startLength
      obtain ⟨climb, container, climbs, onPath, short⟩ := @Arena.Forest.climbs _ (program.file :: below)
        (below.length + 1) _ _ _ _ _ children childrenLinked rootClimbs
        (fun step inStart => by
          rcases startPath step inStart with rfl | nothing
          · exact List.mem_cons_self
          · exact absurd nothing List.not_mem_nil)
        (fun other later => List.mem_cons_of_mem _ later) (by omega) node inBelow tracks
      simp only [List.length_cons] at fits
      exact ⟨climb, container, climbs, onPath, by omega⟩

/-- In a well-formed program, the closest file or class above any node of the tree but the file
is found, and it is a node of the tree. -/
theorem Program.Shaped.closestClassContainer {program : Program} {nodes : List Nat}
    (shaped : program.Shaped nodes) {node : Nat} (member : node ∈ nodes) (notRoot : node ≠ program.file)
    (tracks : (program.arena.node node).kind.tracksParent = true) :
    ∃ container ∈ nodes, program.arena.closestClassContainer node = some container ∧
      (program.arena.node container).kind.isClassContainer := by
  obtain ⟨climb, container, climbs, onPath, short⟩ := shaped.climbs member notRoot tracks
  exact ⟨container, onPath container climbs.mem, climbs.containerAbove short, climbs.isClassContainer⟩

end ScriptLowering.Mir
