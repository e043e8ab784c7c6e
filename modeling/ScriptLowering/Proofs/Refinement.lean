import ScriptLowering.Proofs.StatementConversion
import ScriptLowering.Proofs.BuiltFile

/-! # Conversion refines the resolved file

Conversion first declares the built-in `print` in a file of its own, which always gives the same
arena (`builtinState`), then gives a symbol to every function declared directly in the file and
converts the statements. On a file bound lexically, it stops exactly at the first reference bound to
no declaration, with the error naming it; otherwise it returns a program that refines the file
(`Refines`): one fresh symbol per declaration, bound to the node converted from it, every reference
carrying the symbol of its declaration, and the file's tree rebuilt node for node.
-/

namespace ScriptLowering.Mir

open Hir (Scope identities declarationScope)

/-! ## Conversion in two phases -/

/-- The built-in `print` function: native, static, with one parameter and an empty body. -/
def printFunction : Function :=
  { symbol := 1, name := "print", parameters := [0], body := 1, native := true, static := true,
    origin := .builtIn }

/-- The state once the built-in functions are declared: `print`'s parameter, body, function and
file, and its two symbols, each bound. -/
def builtinState : ConvertState where
  arena :=
    { nodes := #[{ kind := .parameter 0 "value", span := .synthetic, parent := some 2 },
        { kind := .body [], span := .synthetic },
        { kind := .function printFunction, span := .synthetic, parent := some 3 },
        { kind := .file builtinsFileName [2], span := .synthetic }]
      symbols := #[{ kind := .parameter, owner := some 0 }, { kind := .function, owner := some 2 }] }
  builtins := [(.print, 1)]

/-- The first phase of conversion: the built-in functions and their file. -/
def declareBuiltins : ConvertM Nat := do
  let mut functions := []
  for builtin in Builtin.all do
    let (symbol, function) ← declareBuiltin builtin
    modify fun state => { state with builtins := state.builtins ++ [(builtin, symbol)] }
    functions := functions ++ [function]
  let builtinsFile ← pushNode (.file builtinsFileName functions) .synthetic
  modify fun state => { state with arena := state.arena.patchParents builtinsFile none }
  return builtinsFile

/-- The second phase of conversion: the file itself. -/
def convertRoot (file : Hir.File) : ConvertM Nat := do
  for declaration in file.functionDeclarations do
    let _ ← declareSymbol declaration.1 .function
  let statements ← convertStatements file.statements
  let root ← pushNode (.file file.name statements) file.span
  modify fun state => { state with arena := state.arena.patchParents root none }
  return root

theorem declareBuiltins_run : declareBuiltins.run { arena := {} } = pure (3, builtinState) := rfl

theorem Program.convert_eq_phases (file : Hir.File) :
    Program.convert file = (do
      let ((root, builtinsFile), state) ← (do
        let builtinsFile ← declareBuiltins
        let root ← convertRoot file
        return (root, builtinsFile)).run { arena := {} }
      return { arena := state.arena, file := root, builtinsFile,
               builtins := state.builtins.map fun (builtin, symbol) => (symbol, builtin) }) := by
  simp only [Program.convert, declareBuiltins, convertRoot, bind_assoc, pure_bind]

theorem Program.convert_eq_convertRoot (file : Hir.File) :
    Program.convert file = (do
      let (root, state) ← (convertRoot file).run builtinState
      return { arena := state.arena, file := root, builtinsFile := 3,
               builtins := state.builtins.map fun (builtin, symbol) => (symbol, builtin) }) := by
  rw [Program.convert_eq_phases, StateT.run_bind, declareBuiltins_run, pure_bind]
  simp only [StateT.run_bind, StateT.run_pure, bind_assoc, pure_bind]

theorem ledger_builtinState : builtinState.Ledger where
  builtins := rfl
  count := rfl
  keys := List.nodup_nil
  range _ _ found := by simp [builtinState] at found
  injective _ _ _ found := by simp [builtinState] at found

/-! ## The functions declared directly in the file come first -/

theorem declareFunctions_run (declarations : List (Nat × String)) (state : ConvertState)
    (ledger : state.Ledger) (unclaimed : ∀ declaration ∈ declarations, state.Unclaimed declaration.1)
    (distinct : (declarations.map (·.1)).Nodup) :
    ∃ after, (forIn declarations PUnit.unit fun declaration _ => do
        let _ ← declareSymbol declaration.1 .function
        pure (ForInStep.yield PUnit.unit) : ConvertM PUnit).run state = .ok (PUnit.unit, after) ∧
      Converted (declarations.map (·.1)) state after ∧
      ∀ declaration ∈ declarations, ∃ symbol, after.symbols.lookup declaration.1 = some symbol ∧
        (after.arena.symbol symbol).owner = none := by
  induction declarations generalizing state with
  | nil => exact ⟨state, rfl, Converted.refl ledger, by simp⟩
  | cons declaration rest ih =>
    obtain ⟨fresh, restDistinct⟩ := List.nodup_cons.mp distinct
    obtain ⟨symbol, declared, declaring, declaredConverted, found, unbound⟩ :=
      declareSymbol_unclaimed .function ledger (unclaimed declaration List.mem_cons_self)
    have others : ∀ other ∈ rest, other.1 ∉ [declaration.1] := by
      intro other member same
      rw [List.mem_singleton] at same
      exact fresh (List.mem_map.mpr ⟨other, member, same⟩)
    obtain ⟨after, restRan, restConverted, restDeclared⟩ :=
      ih declared declaredConverted.ledger
        (fun other member => declaredConverted.unclaimed (others other member)
          (unclaimed other (List.mem_cons_of_mem _ member)))
        restDistinct
    refine ⟨after, ?_, declaredConverted.trans restConverted, ?_⟩
    · rw [List.forIn_cons, run_bind_of_ok (run_bind_of_ok declaring)]
      exact restRan
    · intro other member
      rcases List.mem_cons.mp member with rfl | later
      · refine ⟨symbol, restConverted.lookup found, ?_⟩
        rw [restConverted.owner_of_lookup fresh found]
        exact unbound
      · exact restDeclared other later

/-- Before the statements of a file bound lexically are converted, every binding of the file
scope has a symbol, and no declaration of the file has an owner yet. -/
theorem ready_of_declareFunctions (file : Hir.File) (distinct : (identities file.declarations).Nodup)
    {declared : ConvertState}
    (converted : Converted (file.functionDeclarations.map (·.1)) builtinState declared)
    (predeclared : ∀ declaration ∈ file.functionDeclarations, ∃ symbol,
      declared.symbols.lookup declaration.1 = some symbol ∧ (declared.arena.symbol symbol).owner = none) :
    Ready declared [declarationScope [] ++ file.functionScope] (identities file.declarations) := by
  refine ⟨converted.ledger, ?_, ?_, distinct⟩
  · intro binding member
    simp only [declarationScope, List.filterMap_nil, List.reverse_nil, List.nil_append,
      List.flatten_cons, List.flatten_nil, List.append_nil, List.mem_append] at member
    rcases member with topLevel | builtin
    · simp only [Hir.File.functionScope, List.mem_reverse, List.mem_map] at topLevel
      obtain ⟨declaration, member, rfl⟩ := topLevel
      obtain ⟨symbol, found, _⟩ := predeclared declaration member
      exact ⟨symbol, found⟩
    · simp only [Hir.builtinScope, Builtin.all, List.reverse_cons, List.reverse_nil, List.nil_append,
        List.map_cons, List.map_nil, List.mem_singleton] at builtin
      subst builtin
      exact ⟨1, by simp [ConvertState.symbolOf, converted.ledger.builtins]⟩
  · -- A function declared directly in the file has an unbound symbol; anything else has none.
    intro id _ symbol found
    rcases converted.declaresOnly id (by simp [found]) with present | topLevel
    · simp [builtinState] at present
    · obtain ⟨declaration, member, rfl⟩ := List.mem_map.mp topLevel
      obtain ⟨predeclaredSymbol, predeclaredFound, unbound⟩ := predeclared declaration member
      rw [found, Option.some.injEq] at predeclaredFound
      rw [predeclaredFound]
      exact unbound

/-- Converting a file bound lexically stops at its first unbound reference, and otherwise gives its
image, having declared exactly the file's declarations. -/
theorem convertRoot_converts (file : Hir.File) (distinct : (identities file.declarations).Nodup) :
    Converts file.bindLexically.references (convertRoot file.bindLexically) builtinState
      fun root after => Converted (identities file.declarations) builtinState after ∧
        FileImage after.arena after.symbolOf file.bindLexically root := by
  have topLevel := file.functionIdentities_sublist
  obtain ⟨declared, declaring, declaredConverted, predeclared⟩ :=
    declareFunctions_run file.functionDeclarations builtinState ledger_builtinState
      (fun _ _ _ found => by simp [builtinState] at found) (topLevel.nodup distinct)
  rw [convertRoot, Hir.File.functionDeclarations_bindLexically]
  refine Converts.bind_of_ok declaring ?_
  refine (convertStatements_converts [] file.functionScope [] file.statements declared
    (ready_of_declareFunctions file distinct declaredConverted predeclared)).bind_nil ?_
  rintro nodes converted ⟨statementsConverted, statementsAre⟩
  have pushed := Converted.push statementsConverted.ledger (.file file.name nodes) file.span
  have linked := Converted.patchParents pushed.ledger converted.arena.nodeCount none
  refine Converts.bind_of_ok (pushNode_run _ _ _) (Converts.bind_of_ok rfl (Converts.of_ok rfl ⟨?_, ?_⟩))
  · exact (declaredConverted.trans (statementsConverted.trans (pushed.trans linked))).widen
      fun id member => by
        simp only [List.append_nil, List.mem_append] at member
        exact member.elim (fun predeclared => topLevel.subset predeclared) fun declared => declared
  · obtain ⟨kind, span⟩ := linked.keeps.pushed
    exact ⟨nodes, kind, span, statementsAre.mono (pushed.trans linked).keeps (pushed.trans linked).learns⟩

/-! ## Every declaration owns its symbol -/

section Owned

variable {arena : Arena} {symbolOf : SymbolMap}

theorem ParameterImage.owned {parameter : Hir.Parameter} {node : Nat}
    (image : ParameterImage arena symbolOf parameter node) :
    ∃ symbol, symbolOf (.parameter parameter.id) = some symbol ∧
      (arena.symbol symbol).owner = some node ∧ arena.declaredName? node = some parameter.name := by
  obtain ⟨symbol, known, declares, _, owns⟩ := image
  exact ⟨symbol, known, owns, by simp [Arena.declaredName?, declares, NodeKind.declaredName?]⟩

mutual

/-- In the image of a statement, the symbol of each of its declarations is bound to a node
declaring the declaration's name. -/
theorem StatementImage.owned :
    {statement : Hir.Statement} → {node : Nat} → StatementImage arena symbolOf statement node →
      ∀ declaration ∈ statement.declarations, ∃ symbol owner, symbolOf declaration.2 = some symbol ∧
        (arena.symbol symbol).owner = some owner ∧ arena.declaredName? owner = some declaration.1
  | _, node, .function known declares _ owns parametersAre _ _ bodyIs, declaration, member => by
    simp only [Hir.Statement.declarations, List.mem_cons, List.mem_append, List.mem_map] at member
    rcases member with rfl | ⟨parameter, inParameters, rfl⟩ | inBody
    · exact ⟨_, node, known, owns, by simp [Arena.declaredName?, declares, NodeKind.declaredName?]⟩
    · obtain ⟨parameterNode, image⟩ := ParameterImage.exists_of_forall₂ parametersAre parameter inParameters
      obtain ⟨symbol, known, owns, named⟩ := image.owned
      exact ⟨symbol, parameterNode, known, owns, named⟩
    · exact bodyIs.owned declaration inBody
  | _, node, .variable known declares _ owns _, declaration, member => by
    simp only [Hir.Statement.declarations, List.mem_singleton] at member
    subst member
    exact ⟨_, node, known, owns, by simp [Arena.declaredName?, declares, NodeKind.declaredName?]⟩
  | _, _, .expression .., _, member => by simp [Hir.Statement.declarations] at member

theorem StatementsImage.owned :
    {statements : List Hir.Statement} → {nodes : List Nat} → StatementsImage arena symbolOf statements nodes →
      ∀ declaration ∈ Hir.Statement.listDeclarations statements, ∃ symbol owner,
        symbolOf declaration.2 = some symbol ∧ (arena.symbol symbol).owner = some owner ∧
          arena.declaredName? owner = some declaration.1
  | _, _, .nil, _, member => by simp [Hir.Statement.listDeclarations] at member
  | _, _, .cons first rest, declaration, member => by
    rcases List.mem_append.mp member with inFirst | inRest
    · exact first.owned declaration inFirst
    · exact rest.owned declaration inRest

end

end Owned

/-! ## The program refines the file -/

/-- How a converted program stands to the resolved file it comes from, through the map `symbolOf`
from declarations to symbols. -/
structure Program.Refines (program : Program) (file : Hir.File) (symbolOf : SymbolMap) : Prop where
  /-- Two symbols for the built-in `print` and its parameter, and one per declaration. -/
  symbolCount : program.arena.symbolCount = 2 + file.declarations.length
  /-- Every declaration has a symbol, none of the two built-in ones. -/
  fresh : ∀ declaration ∈ file.declarations, ∃ symbol, symbolOf declaration.2 = some symbol ∧
    2 ≤ symbol ∧ symbol < program.arena.symbolCount
  /-- No two declarations share a symbol. -/
  distinct : ∀ first ∈ file.declarations, ∀ second ∈ file.declarations,
    symbolOf first.2 = symbolOf second.2 → first = second
  /-- The built-in `print` has the symbol the program records for it. -/
  print : symbolOf (.builtin .print) = some 1 ∧ program.builtinSymbol? .print = some 1
  /-- The symbol of every declaration, and of `print`, is bound to a node declaring its name. -/
  owned : ∀ declaration ∈ file.declarations ++ Hir.builtinScope, ∃ symbol owner,
    symbolOf declaration.2 = some symbol ∧ (program.arena.symbol symbol).owner = some owner ∧
      program.arena.declaredName? owner = some declaration.1
  /-- Every reference is bound, and the symbol of its declaration is bound to a node declaring the
  reference's name. -/
  references : ∀ reference ∈ file.references, ∃ declaration symbol owner,
    reference.candidate = some declaration ∧ symbolOf declaration = some symbol ∧
      (program.arena.symbol symbol).owner = some owner ∧
        program.arena.declaredName? owner = some reference.name
  /-- Two references carry the same symbol exactly when they are bound to the same declaration. -/
  sameSymbol : ∀ first ∈ file.references, ∀ second ∈ file.references, ∀ firstDeclaration secondDeclaration,
    first.candidate = some firstDeclaration → second.candidate = some secondDeclaration →
      (symbolOf firstDeclaration = symbolOf secondDeclaration ↔ firstDeclaration = secondDeclaration)
  /-- The program's file is the image of the file. -/
  image : FileImage program.arena symbolOf file program.file

/-- After the built-in functions, `print` keeps its symbol, bound to its function node. -/
theorem print_owned {ids : List Nat} {after : ConvertState} (converted : Converted ids builtinState after) :
    after.symbolOf (.builtin .print) = some 1 ∧ (after.arena.symbol 1).owner = some 2 ∧
      after.arena.declaredName? 2 = some "print" := by
  refine ⟨by simp [ConvertState.symbolOf, converted.ledger.builtins], ?_, ?_⟩
  · -- No declaration of the file has symbol 1: their symbols start at 2.
    rw [converted.frame 1 fun id _ found => absurd (converted.ledger.range id 1 found).1 (by omega)]
    rfl
  · have kind := converted.keeps.kind 2 (by decide)
    simp only [Arena.declaredName?, kind]
    rfl

/-- The declarations of the file, and `print`, own their symbols in the converted arena. -/
theorem owned_of_converted {file : Hir.File} {after : ConvertState} {root : Nat}
    (converted : Converted (identities file.declarations) builtinState after)
    (image : FileImage after.arena after.symbolOf file.bindLexically root) :
    ∀ declaration ∈ file.declarations ++ Hir.builtinScope, ∃ symbol owner,
      after.symbolOf declaration.2 = some symbol ∧ (after.arena.symbol symbol).owner = some owner ∧
        after.arena.declaredName? owner = some declaration.1 := by
  intro declaration member
  rcases List.mem_append.mp member with declared | builtin
  · obtain ⟨_, _, _, statementsAre⟩ := image
    rw [← Hir.File.declarations_bindLexically] at declared
    exact statementsAre.owned declaration declared
  · simp only [Hir.builtinScope, Builtin.all, List.reverse_cons, List.reverse_nil, List.nil_append,
      List.map_cons, List.map_nil, List.mem_singleton] at builtin
    subst builtin
    obtain ⟨known, owns, named⟩ := print_owned converted
    exact ⟨1, 2, known, owns, named⟩

theorem Program.Refines.of_converted {file : Hir.File} (distinct : (identities file.declarations).Nodup)
    {after : ConvertState} {root : Nat}
    (converted : Converted (identities file.declarations) builtinState after)
    (image : FileImage after.arena after.symbolOf file.bindLexically root)
    (resolved : file.bindLexically.references.find? (·.candidate.isNone) = none) :
    Program.Refines { arena := after.arena, file := root, builtinsFile := 3,
                      builtins := after.builtins.map fun (builtin, symbol) => (symbol, builtin) }
      file.bindLexically after.symbolOf := by
  have ledger := converted.ledger
  have owned := owned_of_converted converted image
  -- A declaration of the file has a symbol, found under its identity.
  have identified : ∀ declaration ∈ file.declarations, ∃ id symbol, declaration.2.id? = some id ∧
      after.symbols.lookup id = some symbol := by
    intro declaration member
    obtain ⟨id, isId⟩ := Option.isSome_iff_exists.mp
      (Hir.Statement.id?_isSome_of_mem_listDeclarations _ declaration member)
    obtain ⟨symbol, _, known, _⟩ := owned declaration (List.mem_append_left _ member)
    exact ⟨id, symbol, isId, by rwa [← after.symbolOf_of_id? isId]⟩
  -- The table holds exactly the identities of the file.
  have keys : ∀ id, id ∈ after.symbols.map (·.1) ↔ id ∈ identities file.declarations := by
    intro id
    constructor
    · intro present
      obtain ⟨entry, inSymbols, rfl⟩ := List.mem_map.mp present
      rcases converted.declaresOnly entry.1 (List.lookup_isSome_iff.mpr ⟨entry, inSymbols, by simp⟩) with
        builtin | declared
      · simp [builtinState] at builtin
      · exact declared
    · intro declared
      obtain ⟨declaration, member, isId⟩ := List.mem_filterMap.mp declared
      obtain ⟨_, symbol, isId', found⟩ := identified declaration member
      rw [isId, Option.some.injEq] at isId'
      subst isId'
      obtain ⟨entry, inSymbols, same⟩ := List.lookup_isSome_iff.mp (by simp [found] : (after.symbols.lookup id).isSome)
      rw [beq_iff_eq] at same
      exact List.mem_map.mpr ⟨entry, inSymbols, same.symm⟩
  have count : after.symbols.length = file.declarations.length := by
    rw [← List.length_map (f := (·.1)), ← file.length_identities]
    exact ((List.perm_ext_iff_of_nodup ledger.keys distinct).mpr keys).length_eq
  -- Declarations with one symbol have one identity, so they are one declaration.
  have injective : ∀ first ∈ file.declarations, ∀ second ∈ file.declarations,
      after.symbolOf first.2 = after.symbolOf second.2 → first = second := by
    intro first firstIn second secondIn same
    obtain ⟨firstId, symbol, firstIsId, firstFound⟩ := identified first firstIn
    obtain ⟨secondId, _, secondIsId, secondFound⟩ := identified second secondIn
    rw [after.symbolOf_of_id? firstIsId, after.symbolOf_of_id? secondIsId, firstFound] at same
    have sameId := ledger.injective firstId secondId symbol firstFound same.symm
    subst sameId
    exact Hir.eq_of_id?_eq distinct firstIn secondIn firstIsId secondIsId
  refine ⟨?_, ?_, ?_, ?_, ?_, ?_, ?_, image⟩
  · rw [Hir.File.declarations_bindLexically]
    simp [ledger.count, count]
  · rw [Hir.File.declarations_bindLexically]
    intro declaration member
    obtain ⟨id, symbol, isId, found⟩ := identified declaration member
    exact ⟨symbol, by rw [after.symbolOf_of_id? isId, found], ledger.range id symbol found⟩
  · rw [Hir.File.declarations_bindLexically]
    exact injective
  · refine ⟨(print_owned converted).1, ?_⟩
    simp [Program.builtinSymbol?, ledger.builtins]
  · rw [Hir.File.declarations_bindLexically]
    exact owned
  · intro reference member
    have bound : reference.candidate ≠ none := by
      simpa using List.find?_eq_none.mp resolved reference member
    obtain ⟨declaration, isBound⟩ := Option.ne_none_iff_exists'.mp bound
    obtain ⟨symbol, owner, known, owns, named⟩ :=
      owned _ (List.mem_append.mpr (file.candidate_mem reference member declaration isBound))
    exact ⟨declaration, symbol, owner, isBound, known, owns, named⟩
  · -- Both are declarations of the file or `print`, whose symbols are all different.
    intro first firstIn second secondIn firstDeclaration secondDeclaration firstBound secondBound
    refine ⟨fun same => ?_, fun same => same ▸ rfl⟩
    have firstMem := file.candidate_mem first firstIn firstDeclaration firstBound
    have secondMem := file.candidate_mem second secondIn secondDeclaration secondBound
    have print : ∀ name declaration, (name, declaration) ∈ Hir.builtinScope →
        declaration = .builtin .print := by
      intro name declaration builtin
      simp only [Hir.builtinScope, Builtin.all, List.reverse_cons, List.reverse_nil, List.nil_append,
        List.map_cons, List.map_nil, List.mem_singleton, Prod.mk.injEq] at builtin
      exact builtin.2
    have notPrint : ∀ name declaration, (name, declaration) ∈ file.declarations →
        after.symbolOf declaration ≠ after.symbolOf (.builtin .print) := by
      intro name declaration declared printSame
      obtain ⟨id, symbol, isId, found⟩ := identified _ declared
      rw [after.symbolOf_of_id? isId, found, (print_owned converted).1, Option.some.injEq] at printSame
      exact absurd (ledger.range id symbol found).1 (by omega)
    rcases firstMem with firstDeclared | firstBuiltin <;> rcases secondMem with secondDeclared | secondBuiltin
    · exact congrArg Prod.snd (injective _ firstDeclared _ secondDeclared same)
    · rw [print _ _ secondBuiltin] at same
      exact absurd same (notPrint _ _ firstDeclared)
    · rw [print _ _ firstBuiltin] at same
      exact absurd same.symm (notPrint _ _ secondDeclared)
    · rw [print _ _ firstBuiltin, print _ _ secondBuiltin]

/-- What conversion does with a resolved file: it stops at the first reference bound to no
declaration, with the error naming it, or it gives a program that refines the file. -/
def ConvertsFaithfully (file : Hir.File) : Prop :=
  match file.references.find? (·.candidate.isNone) with
  | some reference => Program.convert file = .error (.unresolvedReference reference.name reference.span)
  | none => ∃ program symbolOf, Program.convert file = .ok program ∧ program.Refines file symbolOf

/-- A file bound lexically, whose declarations have distinct identities, converts faithfully. -/
theorem Program.convert_bindLexically (file : Hir.File) (distinct : (identities file.declarations).Nodup) :
    ConvertsFaithfully file.bindLexically := by
  have converts := convertRoot_converts file distinct
  unfold Converts at converts
  unfold ConvertsFaithfully
  rw [Program.convert_eq_convertRoot]
  cases found : file.bindLexically.references.find? (·.candidate.isNone) with
  | some reference =>
    rw [found] at converts
    simp only [converts]
    rfl
  | none =>
    rw [found] at converts
    obtain ⟨root, after, ran, converted, image⟩ := converts
    refine ⟨_, after.symbolOf, ?_, Program.Refines.of_converted distinct converted image found⟩
    rw [ran]
    rfl

/-- Conversion refines every file the builder makes from a syntax tree, once resolved: whatever
the tree, even one that reaches a node twice, the built file has no bound reference and distinct
identities, so resolution binds it lexically and conversion stops exactly at its first unbound
reference or gives a program that refines it. -/
theorem Program.convert_refines_resolved {source : List Char} {name : String} {tree : SyntaxTree}
    {reports built : Diagnostics} {file : Hir.File}
    (builds : Hir.File.build source name tree reports = .ok (file, built)) (resolveReports : Diagnostics) :
    ConvertsFaithfully (file.resolve resolveReports).1 := by
  rw [file.resolve_of_settled resolveReports (Hir.File.settled_of_fresh (Hir.File.build_fresh builds))]
  exact Program.convert_bindLexically file (Hir.File.build_identities_nodup builds)

/-- The source `print;`: a reference to the built-in `print`. -/
def printReferenceSource : List Char := "print;".toList

/-- The syntax tree of `print;`. -/
def printReferenceTree : SyntaxTree :=
  .node .file (.range 0 6) [.node .reference (.range 0 5) [.node .identifier (.range 0 5) []]]

/-- The file built from `print;`. -/
def printReferenceFile : Hir.File where
  id := 0
  name := "print.js"
  span := .range 0 6
  statements := [.expression (.get (.range 0 5) { name := "print", span := .range 0 5 })]

theorem convert_refines_resolved_printReference :
    Hir.File.build printReferenceSource "print.js" printReferenceTree #[] = .ok (printReferenceFile, #[]) ∧
      ConvertsFaithfully (printReferenceFile.resolve #[]).1 := by
  have builds : Hir.File.build printReferenceSource "print.js" printReferenceTree #[] =
      .ok (printReferenceFile, #[]) := by
    simp [Hir.File.build, Hir.convertStatements, Hir.convertStatement, Hir.convertExpression,
      Hir.convertReference, Hir.identifierName?, SyntaxTree.childList, SyntaxTree.childOfKind?,
      SyntaxTree.kind, SyntaxTree.span, SyntaxTree.children, Hir.textOf, SyntaxTree.text, Hir.freshId,
      printReferenceTree, printReferenceSource]
    rfl
  exact ⟨builds, Program.convert_refines_resolved builds #[]⟩

end ScriptLowering.Mir
