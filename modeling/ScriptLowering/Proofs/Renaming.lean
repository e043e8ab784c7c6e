import ScriptLowering.Proofs.RewriteSteps

/-! # Renaming symbols in a tree

The last step of reifying renames the symbols read and written by the expressions of a program;
the classes of new instances keep their symbols. The renaming walk changes nothing else: with
fuel for the tree's depth it reaches every node of a tree, renames what each holds, keeps every
child list, parent link and symbol, and never fails (`renamer_walk`).
-/

namespace ScriptLowering.Mir

/-! ## Renamed expressions -/

section Expressions

variable (rename : Nat → Nat)

mutual

theorem Expression.instances_renameSymbols :
    (expression : Expression) → (expression.renameSymbols rename).instances = expression.instances
  | .const .. | .get .. => rfl
  | .set _ _ value => by
    simp only [Expression.renameSymbols, Expression.instances, value.instances_renameSymbols]
  | .getProperty _ receiver _ => by
    simp only [Expression.renameSymbols, Expression.instances, receiver.instances_renameSymbols]
  | .setProperty _ receiver _ value => by
    simp only [Expression.renameSymbols, Expression.instances, receiver.instances_renameSymbols,
      value.instances_renameSymbols]
  | .object _ entries => by
    simp only [Expression.renameSymbols, Expression.instances, Expression.entryInstances_renameEntries]
  | .call _ receiver arguments => by
    simp only [Expression.renameSymbols, Expression.instances, receiver.instances_renameSymbols,
      Expression.argumentInstances_renameArguments]
  | .newInstance _ _ arguments => by
    simp only [Expression.renameSymbols, Expression.instances, Expression.argumentInstances_renameArguments]

theorem Expression.argumentInstances_renameArguments : (arguments : List (Option Expression)) →
    Expression.argumentInstances (Expression.renameArguments rename arguments) =
      Expression.argumentInstances arguments
  | [] => rfl
  | none :: rest => by
    simp only [Expression.renameArguments, Expression.argumentInstances,
      Expression.argumentInstances_renameArguments rest]
  | some argument :: rest => by
    simp only [Expression.renameArguments, Expression.argumentInstances, argument.instances_renameSymbols,
      Expression.argumentInstances_renameArguments rest]

theorem Expression.entryInstances_renameEntries : (entries : List (String × Expression)) →
    Expression.entryInstances (Expression.renameEntries rename entries) = Expression.entryInstances entries
  | [] => rfl
  | (_, value) :: rest => by
    simp only [Expression.renameEntries, Expression.entryInstances, value.instances_renameSymbols,
      Expression.entryInstances_renameEntries rest]

end

mutual

/-- A symbol of a renamed expression is a read or write renamed, or a class instantiated. -/
theorem Expression.mem_symbols_renameSymbols : (expression : Expression) →
    ∀ symbol ∈ (expression.renameSymbols rename).symbols,
      (∃ original ∈ expression.symbols, symbol = rename original) ∨ symbol ∈ expression.instances
  | .const .. => fun _ used => by simp [Expression.renameSymbols, Expression.symbols] at used
  | .get _ original => fun symbol used => by
    simp only [Expression.renameSymbols, Expression.symbols, List.mem_singleton] at used
    exact .inl ⟨original, List.mem_singleton_self _, used⟩
  | .set _ original value => fun symbol used => by
    simp only [Expression.renameSymbols, Expression.symbols, List.mem_cons] at used
    rcases used with renamed | inValue
    · exact .inl ⟨original, List.mem_cons_self, renamed⟩
    · rcases value.mem_symbols_renameSymbols symbol inValue with ⟨found, inSymbols, renamed⟩ | instantiated
      · exact .inl ⟨found, List.mem_cons_of_mem _ inSymbols, renamed⟩
      · exact .inr instantiated
  | .getProperty _ receiver _ => receiver.mem_symbols_renameSymbols
  | .setProperty _ receiver _ value => fun symbol used => by
    simp only [Expression.renameSymbols, Expression.symbols, List.mem_append] at used
    simp only [Expression.symbols, Expression.instances, List.mem_append]
    rcases used with inReceiver | inValue
    · rcases receiver.mem_symbols_renameSymbols symbol inReceiver with ⟨found, inSymbols, renamed⟩ | instantiated
      · exact .inl ⟨found, .inl inSymbols, renamed⟩
      · exact .inr (.inl instantiated)
    · rcases value.mem_symbols_renameSymbols symbol inValue with ⟨found, inSymbols, renamed⟩ | instantiated
      · exact .inl ⟨found, .inr inSymbols, renamed⟩
      · exact .inr (.inr instantiated)
  | .object _ entries => Expression.mem_entrySymbols_renameEntries entries
  | .call _ receiver arguments => fun symbol used => by
    simp only [Expression.renameSymbols, Expression.symbols, List.mem_append] at used
    simp only [Expression.symbols, Expression.instances, List.mem_append]
    rcases used with inReceiver | inArguments
    · rcases receiver.mem_symbols_renameSymbols symbol inReceiver with ⟨found, inSymbols, renamed⟩ | instantiated
      · exact .inl ⟨found, .inl inSymbols, renamed⟩
      · exact .inr (.inl instantiated)
    · rcases Expression.mem_argumentSymbols_renameArguments arguments symbol inArguments with
        ⟨found, inSymbols, renamed⟩ | instantiated
      · exact .inl ⟨found, .inr inSymbols, renamed⟩
      · exact .inr (.inr instantiated)
  | .newInstance _ classSymbol arguments => fun symbol used => by
    simp only [Expression.renameSymbols, Expression.symbols, List.mem_cons] at used
    simp only [Expression.symbols, Expression.instances, List.mem_cons]
    rcases used with instantiated | inArguments
    · exact .inr (.inl instantiated)
    · rcases Expression.mem_argumentSymbols_renameArguments arguments symbol inArguments with
        ⟨found, inSymbols, renamed⟩ | instantiated
      · exact .inl ⟨found, .inr inSymbols, renamed⟩
      · exact .inr (.inr instantiated)

theorem Expression.mem_argumentSymbols_renameArguments : (arguments : List (Option Expression)) →
    ∀ symbol ∈ Expression.argumentSymbols (Expression.renameArguments rename arguments),
      (∃ original ∈ Expression.argumentSymbols arguments, symbol = rename original) ∨
        symbol ∈ Expression.argumentInstances arguments
  | [] => fun _ used => absurd used List.not_mem_nil
  | none :: rest => Expression.mem_argumentSymbols_renameArguments rest
  | some argument :: rest => fun symbol used => by
    simp only [Expression.renameArguments, Expression.argumentSymbols, List.mem_append] at used
    simp only [Expression.argumentSymbols, Expression.argumentInstances, List.mem_append]
    rcases used with inArgument | inRest
    · rcases argument.mem_symbols_renameSymbols symbol inArgument with ⟨found, inSymbols, renamed⟩ | instantiated
      · exact .inl ⟨found, .inl inSymbols, renamed⟩
      · exact .inr (.inl instantiated)
    · rcases Expression.mem_argumentSymbols_renameArguments rest symbol inRest with
        ⟨found, inSymbols, renamed⟩ | instantiated
      · exact .inl ⟨found, .inr inSymbols, renamed⟩
      · exact .inr (.inr instantiated)

theorem Expression.mem_entrySymbols_renameEntries : (entries : List (String × Expression)) →
    ∀ symbol ∈ Expression.entrySymbols (Expression.renameEntries rename entries),
      (∃ original ∈ Expression.entrySymbols entries, symbol = rename original) ∨
        symbol ∈ Expression.entryInstances entries
  | [] => fun _ used => absurd used List.not_mem_nil
  | (_, value) :: rest => fun symbol used => by
    simp only [Expression.renameEntries, Expression.entrySymbols, List.mem_append] at used
    simp only [Expression.entrySymbols, Expression.entryInstances, List.mem_append]
    rcases used with inValue | inRest
    · rcases value.mem_symbols_renameSymbols symbol inValue with ⟨found, inSymbols, renamed⟩ | instantiated
      · exact .inl ⟨found, .inl inSymbols, renamed⟩
      · exact .inr (.inl instantiated)
    · rcases Expression.mem_entrySymbols_renameEntries rest symbol inRest with
        ⟨found, inSymbols, renamed⟩ | instantiated
      · exact .inl ⟨found, .inr inSymbols, renamed⟩
      · exact .inr (.inr instantiated)

end

mutual

/-- A renaming that keeps every symbol an expression uses leaves the expression as it is. -/
theorem Expression.renameSymbols_of_forall : (expression : Expression) →
    (∀ symbol ∈ expression.symbols, rename symbol = symbol) → expression.renameSymbols rename = expression
  | .const .., _ => rfl
  | .get _ symbol, same => by
    rw [Expression.renameSymbols, same symbol (List.mem_singleton_self _)]
  | .set _ symbol value, same => by
    rw [Expression.renameSymbols, same symbol List.mem_cons_self,
      value.renameSymbols_of_forall fun other used => same other (List.mem_cons_of_mem _ used)]
  | .getProperty _ receiver _, same => by
    rw [Expression.renameSymbols, receiver.renameSymbols_of_forall same]
  | .setProperty _ receiver _ value, same => by
    rw [Expression.renameSymbols,
      receiver.renameSymbols_of_forall fun other used => same other (List.mem_append_left _ used),
      value.renameSymbols_of_forall fun other used => same other (List.mem_append_right _ used)]
  | .object _ entries, same => by
    rw [Expression.renameSymbols, Expression.renameEntries_of_forall entries same]
  | .call _ receiver arguments, same => by
    rw [Expression.renameSymbols,
      receiver.renameSymbols_of_forall fun other used => same other (List.mem_append_left _ used),
      Expression.renameArguments_of_forall arguments fun other used => same other (List.mem_append_right _ used)]
  | .newInstance _ _ arguments, same => by
    rw [Expression.renameSymbols,
      Expression.renameArguments_of_forall arguments fun other used => same other (List.mem_cons_of_mem _ used)]

theorem Expression.renameArguments_of_forall : (arguments : List (Option Expression)) →
    (∀ symbol ∈ Expression.argumentSymbols arguments, rename symbol = symbol) →
      Expression.renameArguments rename arguments = arguments
  | [], _ => rfl
  | none :: rest, same => by
    rw [Expression.renameArguments, Expression.renameArguments_of_forall rest same]
  | some argument :: rest, same => by
    rw [Expression.renameArguments,
      argument.renameSymbols_of_forall fun other used => same other (List.mem_append_left _ used),
      Expression.renameArguments_of_forall rest fun other used => same other (List.mem_append_right _ used)]

theorem Expression.renameEntries_of_forall : (entries : List (String × Expression)) →
    (∀ symbol ∈ Expression.entrySymbols entries, rename symbol = symbol) →
      Expression.renameEntries rename entries = entries
  | [], _ => rfl
  | (_, value) :: rest, same => by
    rw [Expression.renameEntries,
      value.renameSymbols_of_forall fun other used => same other (List.mem_append_left _ used),
      Expression.renameEntries_of_forall rest fun other used => same other (List.mem_append_right _ used)]

end

end Expressions

mutual

/-- A class an expression instantiates is among the symbols it uses. -/
theorem Expression.instances_subset_symbols : (expression : Expression) →
    ∀ symbol ∈ expression.instances, symbol ∈ expression.symbols
  | .const .. | .get .. => fun _ instantiated => absurd instantiated List.not_mem_nil
  | .set _ _ value => fun symbol instantiated =>
    List.mem_cons_of_mem _ (value.instances_subset_symbols symbol instantiated)
  | .getProperty _ receiver _ => receiver.instances_subset_symbols
  | .setProperty _ receiver _ value => fun symbol instantiated => by
    rcases List.mem_append.mp instantiated with inReceiver | inValue
    · exact List.mem_append_left _ (receiver.instances_subset_symbols symbol inReceiver)
    · exact List.mem_append_right _ (value.instances_subset_symbols symbol inValue)
  | .object _ entries => Expression.entryInstances_subset_entrySymbols entries
  | .call _ receiver arguments => fun symbol instantiated => by
    rcases List.mem_append.mp instantiated with inReceiver | inArguments
    · exact List.mem_append_left _ (receiver.instances_subset_symbols symbol inReceiver)
    · exact List.mem_append_right _ (Expression.argumentInstances_subset_argumentSymbols arguments symbol inArguments)
  | .newInstance _ _ arguments => fun symbol instantiated => by
    rcases List.mem_cons.mp instantiated with rfl | inArguments
    · exact List.mem_cons_self
    · exact List.mem_cons_of_mem _
        (Expression.argumentInstances_subset_argumentSymbols arguments symbol inArguments)

theorem Expression.argumentInstances_subset_argumentSymbols : (arguments : List (Option Expression)) →
    ∀ symbol ∈ Expression.argumentInstances arguments, symbol ∈ Expression.argumentSymbols arguments
  | [] => fun _ instantiated => absurd instantiated List.not_mem_nil
  | none :: rest => Expression.argumentInstances_subset_argumentSymbols rest
  | some argument :: rest => fun symbol instantiated => by
    rcases List.mem_append.mp instantiated with inArgument | inRest
    · exact List.mem_append_left _ (argument.instances_subset_symbols symbol inArgument)
    · exact List.mem_append_right _ (Expression.argumentInstances_subset_argumentSymbols rest symbol inRest)

theorem Expression.entryInstances_subset_entrySymbols : (entries : List (String × Expression)) →
    ∀ symbol ∈ Expression.entryInstances entries, symbol ∈ Expression.entrySymbols entries
  | [] => fun _ instantiated => absurd instantiated List.not_mem_nil
  | (_, value) :: rest => fun symbol instantiated => by
    rcases List.mem_append.mp instantiated with inValue | inRest
    · exact List.mem_append_left _ (value.instances_subset_symbols symbol inValue)
    · exact List.mem_append_right _ (Expression.entryInstances_subset_entrySymbols rest symbol inRest)

end

/-! ## Renamed nodes -/

/-- What a node holds, with the symbols its expression reads and writes renamed. -/
def NodeKind.renameSymbols (rename : Nat → Nat) : NodeKind → NodeKind
  | .variable symbol name value => .variable symbol name (value.map (Expression.renameSymbols rename))
  | .expression value => .expression (value.renameSymbols rename)
  | kind => kind

namespace NodeKind

variable (rename : Nat → Nat) (kind : NodeKind)

@[simp] theorem children_renameSymbols : (kind.renameSymbols rename).children = kind.children := by
  cases kind <;> rfl

@[simp] theorem symbol?_renameSymbols : (kind.renameSymbols rename).symbol? = kind.symbol? := by
  cases kind <;> rfl

@[simp] theorem tracksParent_renameSymbols : (kind.renameSymbols rename).tracksParent = kind.tracksParent := by
  cases kind <;> rfl

@[simp] theorem isClass_renameSymbols : (kind.renameSymbols rename).isClass = kind.isClass := by
  cases kind <;> rfl

@[simp] theorem isDeclaration_renameSymbols : (kind.renameSymbols rename).isDeclaration = kind.isDeclaration := by
  cases kind <;> rfl

@[simp] theorem isClassContainer_renameSymbols :
    (kind.renameSymbols rename).isClassContainer = kind.isClassContainer := by
  cases kind <;> rfl

@[simp] theorem instances_renameSymbols : (kind.renameSymbols rename).instances = kind.instances := by
  rcases kind with _ | _ | _ | _ | _ | ⟨_, _, _ | value⟩ | value
  all_goals simp [renameSymbols, instances, Expression.instances_renameSymbols]

theorem mem_uses_renameSymbols {symbol : Nat} (used : symbol ∈ (kind.renameSymbols rename).uses) :
    (∃ original ∈ kind.uses, symbol = rename original) ∨ symbol ∈ kind.instances := by
  rcases kind with _ | _ | _ | _ | _ | ⟨_, _, _ | value⟩ | value
  all_goals simp only [renameSymbols, Option.map_some, Option.map_none, uses, instances,
    List.not_mem_nil] at used ⊢
  all_goals exact Expression.mem_symbols_renameSymbols rename value symbol used

theorem renameSymbols_of_holdsStatements (holds : kind.holdsStatements = true) :
    kind.renameSymbols rename = kind := by
  cases kind <;> simp_all [holdsStatements, renameSymbols]

/-- A renaming that keeps every symbol a node uses leaves what the node holds as it is. -/
theorem renameSymbols_of_forall (same : ∀ symbol ∈ kind.uses, rename symbol = symbol) :
    kind.renameSymbols rename = kind := by
  rcases kind with _ | _ | _ | _ | _ | ⟨symbol, name, _ | value⟩ | value
  all_goals simp only [renameSymbols, Option.map_none, Option.map_some]
  -- Left: the expression of a variable, or of an expression node.
  all_goals rw [value.renameSymbols_of_forall rename same]

theorem instances_subset_uses {symbol : Nat} (instantiated : symbol ∈ kind.instances) : symbol ∈ kind.uses := by
  rcases kind with _ | _ | _ | _ | _ | ⟨_, _, _ | value⟩ | value
  · exact absurd instantiated List.not_mem_nil
  · exact absurd instantiated List.not_mem_nil
  · exact absurd instantiated List.not_mem_nil
  · exact absurd instantiated List.not_mem_nil
  · exact absurd instantiated List.not_mem_nil
  · exact absurd instantiated List.not_mem_nil
  · exact value.instances_subset_symbols symbol instantiated
  · exact value.instances_subset_symbols symbol instantiated

end NodeKind

namespace Arena

/-- `after` is `before` with what the nodes `nodes` hold renamed; nothing else differs. -/
structure Renamed (rename : Nat → Nat) (before after : Arena) (nodes : List Nat) : Prop where
  nodeCount : after.nodeCount = before.nodeCount
  symbols : after.symbols = before.symbols
  inside : ∀ node ∈ nodes,
    after.node node = { before.node node with kind := (before.node node).kind.renameSymbols rename }
  outside : ∀ node ∉ nodes, after.node node = before.node node

namespace Renamed

variable {rename : Nat → Nat} {first second third : Arena} {nodes others : List Nat}

theorem refl (arena : Arena) : arena.Renamed rename arena [] where
  nodeCount := rfl
  symbols := rfl
  inside _ member := absurd member List.not_mem_nil
  outside _ _ := rfl

theorem trans (left : first.Renamed rename second nodes) (right : second.Renamed rename third others)
    (apart : ∀ node ∈ nodes, node ∉ others) : first.Renamed rename third (nodes ++ others) where
  nodeCount := right.nodeCount.trans left.nodeCount
  symbols := right.symbols.trans left.symbols
  inside node member := by
    rcases List.mem_append.mp member with inNodes | inOthers
    · rw [right.outside node (apart node inNodes), left.inside node inNodes]
    · have outsideFirst : node ∉ nodes := fun inNodes => apart node inNodes inOthers
      rw [right.inside node inOthers, left.outside node outsideFirst]
  outside node outsideBoth := by
    rw [right.outside node (fun inOthers => outsideBoth (List.mem_append_right _ inOthers)),
      left.outside node (fun inNodes => outsideBoth (List.mem_append_left _ inNodes))]

/-- A single node renamed in place. -/
theorem single {id : Nat} (present : id < first.nodeCount) :
    first.Renamed rename (first.setKind id ((first.node id).kind.renameSymbols rename)) [id] where
  nodeCount := by simp
  symbols := rfl
  inside node member := by
    rw [List.mem_singleton.mp member]
    exact first.node_setKind_self _ present
  outside node outside := first.node_setKind_ne _ fun same => outside (same ▸ List.mem_singleton_self _)

/-- A node that renaming leaves as it is. -/
theorem self {id : Nat} (kept : (first.node id).kind.renameSymbols rename = (first.node id).kind) :
    first.Renamed rename first [id] where
  nodeCount := rfl
  symbols := rfl
  inside node member := by
    rw [List.mem_singleton.mp member, kept]
  outside _ _ := rfl

/-- A renaming that keeps every symbol changes nothing. -/
theorem of_forall (same : ∀ symbol, rename symbol = symbol) (nodes : List Nat) : first.Renamed rename first nodes where
  nodeCount := rfl
  symbols := rfl
  inside node _ := by rw [NodeKind.renameSymbols_of_forall rename _ fun symbol _ => same symbol]
  outside _ _ := rfl

/-- A node that ends as it started, above nodes renamed meanwhile, where renaming leaves the node
as it is: `middle` is `first` but at `id`, and `final` is `second` but at `id`, where it is back to
what it was in `first`. -/
theorem cons {id : Nat} {middle final : Arena} (renamed : middle.Renamed rename second nodes)
    (fresh : id ∉ nodes) (kept : (first.node id).kind.renameSymbols rename = (first.node id).kind)
    (count : final.nodeCount = first.nodeCount) (symbols : final.symbols = first.symbols)
    (middleNode : ∀ node ≠ id, middle.node node = first.node node)
    (finalNode : ∀ node ≠ id, final.node node = second.node node) (back : final.node id = first.node id) :
    first.Renamed rename final (id :: nodes) where
  nodeCount := count
  symbols := symbols
  inside node member := by
    rcases List.mem_cons.mp member with rfl | inNodes
    · rw [back, kept]
    · have different : node ≠ id := fun same => fresh (same ▸ inNodes)
      rw [finalNode node different, renamed.inside node inNodes, middleNode node different]
  outside node outside := by
    have different : node ≠ id := fun same => outside (same ▸ List.mem_cons_self)
    rw [finalNode node different, renamed.outside node fun inNodes => outside (List.mem_cons_of_mem _ inNodes),
      middleNode node different]

/-- What renaming leaves alone in a node reads the same in both arenas. -/
theorem map_kind {α : Type} (renamed : first.Renamed rename second nodes) (read : NodeKind → α)
    (kept : ∀ kind : NodeKind, read (kind.renameSymbols rename) = read kind) (node : Nat) :
    read (second.node node).kind = read (first.node node).kind := by
  by_cases member : node ∈ nodes
  · rw [renamed.inside node member]
    exact kept _
  · rw [renamed.outside node member]

theorem parent (renamed : first.Renamed rename second nodes) (node : Nat) :
    (second.node node).parent = (first.node node).parent := by
  by_cases member : node ∈ nodes
  · rw [renamed.inside node member]
  · rw [renamed.outside node member]

theorem span (renamed : first.Renamed rename second nodes) (node : Nat) :
    (second.node node).span = (first.node node).span := by
  by_cases member : node ∈ nodes
  · rw [renamed.inside node member]
  · rw [renamed.outside node member]

theorem children (renamed : first.Renamed rename second nodes) (node : Nat) :
    second.children node = first.children node :=
  renamed.map_kind NodeKind.children (NodeKind.children_renameSymbols rename) node

theorem tree {id : Nat} {sub : List Nat} (renamed : first.Renamed rename second nodes)
    (tree : first.Tree id sub) : second.Tree id sub :=
  tree.congr (fun node _ => renamed.children node) (Nat.le_of_eq renamed.nodeCount.symm)

theorem forest {ids sub : List Nat} (renamed : first.Renamed rename second nodes)
    (forest : first.Forest ids sub) : second.Forest ids sub :=
  forest.congr (fun node _ => renamed.children node) (Nat.le_of_eq renamed.nodeCount.symm)

theorem symbol (renamed : first.Renamed rename second nodes) (symbol : Nat) :
    second.symbol symbol = first.symbol symbol := by
  simp only [Arena.symbol, renamed.symbols]

theorem linked {id : Nat} {above : Option Nat} {sub : List Nat} (renamed : first.Renamed rename second nodes)
    (tree : first.Tree id sub) (linked : first.Linked id above) : second.Linked id above :=
  linked.congr tree (fun node _ => renamed.children node)
    (fun node _ => renamed.map_kind NodeKind.tracksParent (NodeKind.tracksParent_renameSymbols rename) node)
    (fun node _ => renamed.parent node)

theorem owns {id : Nat} (renamed : first.Renamed rename second nodes) (owns : first.Owns id) : second.Owns id := by
  intro symbol declared
  rw [renamed.map_kind NodeKind.symbol? (NodeKind.symbol?_renameSymbols rename)] at declared
  rw [renamed.symbol]
  exact owns symbol declared

end Renamed

end Arena

/-! ## Sound once renamed -/

/-- A program that is sound once the symbols its expressions read and write are renamed by
`rename`, the classes it instantiates keeping theirs. -/
structure Program.SoundAfter (program : Program) (nodes : List Nat) (rename : Nat → Nat) : Prop where
  root : ∃ name statements, (program.arena.node program.file).kind = .file name statements
  tree : program.arena.Tree program.file nodes
  linked : program.arena.Linked program.file none
  owned : ∀ node ∈ nodes, program.arena.Owns node
  resolved : ∀ node ∈ nodes, ∀ symbol ∈ (program.arena.node node).kind.uses, ∃ owner,
    (program.arena.symbol (rename symbol)).owner = some owner ∧ (owner ∈ nodes ∨ program.IsBuiltin owner)
  builtinsFile_lt : program.builtinsFile < program.arena.nodeCount
  builtinsFile_not_mem : program.builtinsFile ∉ nodes
  builtins_apart : ∀ node ∈ program.arena.children program.builtinsFile,
    node < program.arena.nodeCount ∧ node ∉ nodes
  declares : ∀ node ∈ nodes, ∀ symbol ∈ (program.arena.node node).kind.uses, ∀ owner ∈ nodes,
    (program.arena.symbol (rename symbol)).owner = some owner →
      (program.arena.node owner).kind.symbol? = some (rename symbol)
  instances : ∀ node ∈ nodes, ∀ symbol ∈ (program.arena.node node).kind.instances, ∀ owner,
    (program.arena.symbol symbol).owner = some owner → (program.arena.node owner).kind.isClass
  kept : ∀ node ∈ nodes, ∀ symbol ∈ (program.arena.node node).kind.instances, rename symbol = symbol
  nested : program.arena.Nested nodes

namespace Program.SoundAfter

variable {program : Program} {nodes : List Nat} {rename : Nat → Nat}

/-- A renaming that changes nothing leaves the program sound. -/
theorem sound (sound : program.SoundAfter nodes rename) (same : ∀ symbol, rename symbol = symbol) :
    program.Sound nodes where
  root := sound.root
  tree := sound.tree
  linked := sound.linked
  owned := sound.owned
  resolved node member symbol used := by simpa [same] using sound.resolved node member symbol used
  builtinsFile_lt := sound.builtinsFile_lt
  builtinsFile_not_mem := sound.builtinsFile_not_mem
  builtins_apart := sound.builtins_apart
  declares node member symbol used owner ownerMember := by
    simpa [same] using sound.declares node member symbol used owner ownerMember
  instances := sound.instances
  nested := sound.nested

/-- Renaming what the nodes of the tree hold makes the program sound. -/
theorem renamed (sound : program.SoundAfter nodes rename) {after : Arena}
    (renamed : program.arena.Renamed rename after nodes) : { program with arena := after }.Sound nodes := by
  have builtin : ∀ owner, program.IsBuiltin owner → Program.IsBuiltin { program with arena := after } owner := by
    rintro owner ⟨child, declared, isFunction, builtIn⟩
    have outside : owner ∉ nodes := (sound.builtins_apart owner child).2
    refine ⟨by simpa [renamed.children] using child, declared, ?_, builtIn⟩
    simpa [renamed.outside owner outside] using isFunction
  -- A symbol an expression uses after renaming was renamed, or names an instantiated class.
  have usedSymbol : ∀ node ∈ nodes, ∀ symbol ∈ (after.node node).kind.uses,
      ∃ original ∈ (program.arena.node node).kind.uses, symbol = rename original := by
    intro node member symbol used
    rw [renamed.inside node member] at used
    rcases NodeKind.mem_uses_renameSymbols rename _ used with ⟨original, inUses, rfl⟩ | instantiated
    · exact ⟨original, inUses, rfl⟩
    · exact ⟨symbol, NodeKind.instances_subset_uses _ instantiated, (sound.kept node member symbol instantiated).symm⟩
  refine
    { root := ?_
      tree := renamed.tree sound.tree
      linked := renamed.linked sound.tree sound.linked
      owned := fun node member => renamed.owns (sound.owned node member)
      resolved := ?_
      builtinsFile_lt := by simpa [renamed.nodeCount] using sound.builtinsFile_lt
      builtinsFile_not_mem := sound.builtinsFile_not_mem
      builtins_apart := ?_
      declares := ?_
      instances := ?_
      nested := ?_ }
  · obtain ⟨name, statements, isFile⟩ := sound.root
    refine ⟨name, statements, ?_⟩
    show (after.node program.file).kind = _
    rw [renamed.inside program.file sound.tree.mem_self, isFile]
    rfl
  · intro node member symbol used
    obtain ⟨original, inUses, rfl⟩ := usedSymbol node member symbol used
    obtain ⟨owner, owned, within⟩ := sound.resolved node member original inUses
    refine ⟨owner, by simpa [renamed.symbol] using owned, ?_⟩
    rcases within with inNodes | isBuiltin
    · exact .inl inNodes
    · exact .inr (builtin owner isBuiltin)
  · intro node child
    rw [show after.children program.builtinsFile = program.arena.children program.builtinsFile from
      renamed.children _] at child
    simpa [renamed.nodeCount] using sound.builtins_apart node child
  · intro node member symbol used owner ownerMember owned
    obtain ⟨original, inUses, rfl⟩ := usedSymbol node member symbol used
    have declares := sound.declares node member original inUses owner ownerMember
      (by simpa [renamed.symbol] using owned)
    show (after.node owner).kind.symbol? = _
    rwa [renamed.map_kind NodeKind.symbol? (NodeKind.symbol?_renameSymbols rename)]
  · intro node member symbol instantiated owner owned
    have original : symbol ∈ (program.arena.node node).kind.instances := by
      simpa [renamed.inside node member] using instantiated
    show (after.node owner).kind.isClass
    rw [renamed.map_kind NodeKind.isClass (NodeKind.isClass_renameSymbols rename)]
    exact sound.instances node member symbol original owner (by simpa [renamed.symbol] using owned)
  · intro node member child isChild isContainer
    have sameContainer := renamed.map_kind NodeKind.isClassContainer (NodeKind.isClassContainer_renameSymbols rename)
    rw [show after.children node = program.arena.children node from renamed.children node] at isChild
    show (after.node child).kind.isClass ∧ (after.node node).kind.isClassContainer
    rw [renamed.map_kind NodeKind.isClass (NodeKind.isClass_renameSymbols rename), sameContainer]
    exact sound.nested node member child isChild (by simpa [sameContainer] using isContainer)

end Program.SoundAfter

end ScriptLowering.Mir

namespace ScriptLowering.Lowering

open Mir Arena

variable {rename : Nat → Nat} {fuel : Nat}

/-- Renaming the trees of a forest one after another, given fuel for each. -/
theorem mapM_renamer_walk
    (walks : ∀ (arena : Arena) (id : Nat) (nodes : List Nat), arena.Tree id nodes → nodes.length ≤ fuel →
      ∃ after, ((renamer rename).walk fuel id).run (arena, ()) = .ok (id, (after, ())) ∧
        arena.Renamed rename after nodes) :
    ∀ (ids : List Nat) (arena : Arena) (nodes : List Nat), arena.Forest ids nodes → nodes.length ≤ fuel →
      ∃ after, (ids.mapM ((renamer rename).walk fuel)).run (arena, ()) = .ok (ids, (after, ())) ∧
        arena.Renamed rename after nodes
  | [], arena, _, .nil, _ => ⟨arena, rfl, .refl arena⟩
  | id :: rest, arena, _, @Arena.Forest.cons _ _ _ first others tree forest apart, fits => by
    simp only [List.length_append] at fits
    obtain ⟨middle, walked, renamed⟩ := walks arena id first tree (by omega)
    obtain ⟨after, restWalked, restRenamed⟩ :=
      mapM_renamer_walk walks rest middle others (renamed.forest forest) (by omega)
    refine ⟨after, ?_, renamed.trans restRenamed apart⟩
    rw [List.mapM_cons, run_bind_of_ok walked, run_bind_of_ok restWalked]
    rfl

/-- With fuel for its depth, the renaming walk renames what every node of a tree holds, changes
nothing else and does not fail. -/
theorem renamer_walk (rename : Nat → Nat) : ∀ (fuel : Nat) (arena : Arena) (id : Nat) (nodes : List Nat),
    arena.Tree id nodes → nodes.length ≤ fuel →
    ∃ after, ((renamer rename).walk fuel id).run (arena, ()) = .ok (id, (after, ())) ∧
      arena.Renamed rename after nodes
  | 0, _, _, _, .node .., fits => by simp at fits
  | fuel + 1, arena, id, _, @Arena.Tree.node _ _ below present children fresh, fits => by
    simp only [List.length_cons] at fits
    have walks := renamer_walk rename fuel
    -- A file, class or body takes back the statements it gave up, now walked.
    have statementsWalked : (arena.node id).kind.holdsStatements = true →
        ∃ after, ((renamer rename).walkStatements fuel id).run (arena, ()) = .ok (id, (after, ())) ∧
          arena.Renamed rename after (id :: below) := by
      intro holds
      let cleared := arena.setKind id ((arena.node id).kind.withStatements [])
      have clearedNode : cleared.node id = { arena.node id with kind := (arena.node id).kind.withStatements [] } :=
        arena.node_setKind_self _ present
      have clearedForest : cleared.Forest (arena.children id) below :=
        (arena.edits_setKind id _).forest children fun node member touched =>
          fresh (List.mem_singleton.mp touched ▸ member)
      obtain ⟨walked, childrenWalked, renamed⟩ :=
        mapM_renamer_walk walks (arena.children id) cleared below clearedForest (by omega)
      have walkedNode : walked.node id = { arena.node id with kind := (arena.node id).kind.withStatements [] } := by
        rw [renamed.outside id fresh, clearedNode]
      refine ⟨walked.setKind id ((walked.node id).kind.withStatements (arena.children id)), ?_, ?_⟩
      · rw [Rewrite.walkStatements_run _ _ _ _ _ holds,
          run_bind_of_ok (putStatements_run arena () holds []), run_bind_of_ok childrenWalked,
          run_bind_of_ok (putStatements_run walked () (by simp [walkedNode, holds]) _)]
        rfl
      · have walkedPresent : id < walked.nodeCount := by simpa [renamed.nodeCount, cleared] using present
        refine renamed.cons fresh (NodeKind.renameSymbols_of_holdsStatements _ _ holds)
          (by simp [renamed.nodeCount, cleared]) (by simp [renamed.symbols, cleared, Arena.setKind, Arena.modifyNode])
          (fun node different => arena.node_setKind_ne _ different)
          (fun node different => walked.node_setKind_ne _ different) ?_
        rw [walked.node_setKind_self _ walkedPresent, walkedNode]
        simp [Arena.children]
    have leaf : (arena.node id).kind.children = [] → below = [] := by
      intro none
      rw [Arena.children, none] at children
      cases children
      rfl
    cases kind : (arena.node id).kind with
    | file name statements =>
      obtain ⟨after, walked, renamed⟩ := statementsWalked (by rw [kind]; rfl)
      refine ⟨after, ?_, renamed⟩
      rw [Rewrite.walk_run_of_classContainer _ _ _ _ _ (by rw [kind]; rfl), run_bind_of_ok rfl]
      exact walked
    | classDef symbol name statements origin =>
      obtain ⟨after, walked, renamed⟩ := statementsWalked (by rw [kind]; rfl)
      refine ⟨after, ?_, renamed⟩
      rw [Rewrite.walk_run_of_classContainer _ _ _ _ _ (by rw [kind]; rfl), run_bind_of_ok rfl]
      exact walked
    | body statements =>
      rw [Rewrite.walk_run_of_body _ _ _ _ _ kind]
      exact statementsWalked (by rw [kind]; rfl)
    | function declared =>
      -- The parameters are walked one after another, then the body.
      have split : arena.Forest (declared.parameters ++ [declared.body]) below := by
        simpa [Arena.children, kind, NodeKind.children] using children
      obtain ⟨first, others, rfl, parametersForest, bodyForest, apart⟩ := split.split
      simp only [List.length_append] at fits
      obtain ⟨walked, parametersWalked, parametersRenamed⟩ :=
        mapM_renamer_walk walks declared.parameters arena first parametersForest (by omega)
      obtain ⟨bodyWalked, bodyRan, bodyRenamed⟩ :=
        walks walked declared.body others (parametersRenamed.forest bodyForest).tree_of_single (by omega)
      have renamedBelow := parametersRenamed.trans bodyRenamed apart
      have functionNode : bodyWalked.node id = arena.node id := renamedBelow.outside id fresh
      have bodyPresent : id < bodyWalked.nodeCount := by simpa [renamedBelow.nodeCount] using present
      refine ⟨bodyWalked.setKind id (.function declared), ?_, ?_⟩
      · rw [Rewrite.walk_run_of_function _ _ _ _ _ kind, Rewrite.walkFunction, run_bind_of_ok parametersWalked,
          run_bind_of_ok bodyRan, Rewrite.finishFunction_run _ _ _ _ (by rw [functionNode, kind])]
        rfl
      · refine renamedBelow.cons fresh (by rw [kind]; rfl) (by simp [renamedBelow.nodeCount])
          (by simp [renamedBelow.symbols, Arena.setKind, Arena.modifyNode]) (fun _ _ => rfl)
          (fun node different => bodyWalked.node_setKind_ne _ different) ?_
        rw [bodyWalked.node_setKind_self _ bodyPresent, functionNode, ← kind]
    | parameter symbol name =>
      obtain rfl := leaf (by rw [kind]; rfl)
      exact ⟨arena, Rewrite.walk_run_of_parameter _ _ _ _ _ kind, .self (by rw [kind]; rfl)⟩
    | «variable» symbol name value =>
      obtain rfl := leaf (by rw [kind]; rfl)
      refine ⟨_, Rewrite.walk_run_of_variable _ _ _ _ _ kind, ?_⟩
      have single : arena.Renamed rename (arena.setKind id ((arena.node id).kind.renameSymbols rename)) [id] :=
        .single present
      rwa [kind] at single
    | expression value =>
      obtain rfl := leaf (by rw [kind]; rfl)
      refine ⟨_, Rewrite.walk_run_of_expression _ _ _ _ _ kind, ?_⟩
      have single : arena.Renamed rename (arena.setKind id ((arena.node id).kind.renameSymbols rename)) [id] :=
        .single present
      rwa [kind] at single

/-- The renaming walk turns a program that is sound once renamed into a sound program, and does not
fail. -/
theorem renamer_run_sound {program : Program} {nodes : List Nat} (sound : program.SoundAfter nodes rename) :
    ∃ renamed, (renamer rename).run program () = .ok (renamed, ()) ∧ renamed.Sound nodes := by
  obtain ⟨after, walked, renamedArena⟩ :=
    renamer_walk rename _ program.arena program.file nodes sound.tree sound.tree.length_le
  exact ⟨_, Rewrite.run_eq_ok _ walked, sound.renamed renamedArena⟩

end ScriptLowering.Lowering
