import ScriptLowering.Proofs.Conversion

/-! # Converting bound statements

Statements are converted in the scopes lexical binding gave them (`Statement.bindIn`). Before a
statement is converted, every binding in scope at it has a symbol: the functions declared directly
in the file got theirs first, the declarations before the statement got theirs when they were
converted, and a function's own name and parameters get theirs before its body. So conversion never
meets a declaration without a symbol, and the only way it stops is at a reference bound to nothing.

The main statements are `convertStatement_converts` and `convertStatements_converts`: a statement,
or a list of them, converts into its image, declaring exactly its own declarations.
-/

namespace ScriptLowering.Mir

open Hir (Scope identities declarationScope parameterScope)

/-- What conversion needs before statements bound in `scopes` whose declarations have the
identities `ids`: the ledger, a symbol for every binding in scope, and for each of `ids` no symbol
or an unbound one, no identity twice. -/
structure Ready (state : ConvertState) (scopes : List Scope) (ids : List Nat) : Prop where
  ledger : state.Ledger
  known : ∀ binding ∈ scopes.flatten ++ Hir.builtinScope, ∃ symbol, state.symbolOf binding.2 = some symbol
  unclaimed : ∀ id ∈ ids, state.Unclaimed id
  distinct : ids.Nodup

variable {state : ConvertState}

/-- An expression bound in scopes whose bindings all have symbols refers only to known
declarations. -/
theorem Ready.knows {scopes : List Scope} {ids : List Nat} (ready : Ready state scopes ids)
    (expression : Hir.Expression) : state.Knows (expression.bindIn scopes).references :=
  fun _ member _ bound => ready.known _ (Hir.Expression.candidate_mem_of_bindIn member bound)

theorem Converted.known {ids : List Nat} {before after : ConvertState} (converted : Converted ids before after)
    {bindings : List (String × Hir.Resolution)}
    (known : ∀ binding ∈ bindings, ∃ symbol, before.symbolOf binding.2 = some symbol) :
    ∀ binding ∈ bindings, ∃ symbol, after.symbolOf binding.2 = some symbol :=
  fun binding member => (known binding member).imp fun _ found => converted.learns _ _ found

theorem StatementImage.binding_known {arena : Arena} {symbolOf : SymbolMap} {statement : Hir.Statement}
    {node : Nat} (image : StatementImage arena symbolOf statement node)
    {binding : String × Hir.Resolution} (binds : statement.binding? = some binding) :
    ∃ symbol, symbolOf binding.2 = some symbol :=
  match image, binds with
  | .function known .., rfl => ⟨_, known⟩
  | .variable known .., rfl => ⟨_, known⟩

theorem ParameterImage.exists_of_forall₂ {arena : Arena} {symbolOf : SymbolMap}
    {parameters : List Hir.Parameter} {nodes : List Nat}
    (images : List.Forall₂ (ParameterImage arena symbolOf) parameters nodes) :
    ∀ parameter ∈ parameters, ∃ node, ParameterImage arena symbolOf parameter node := by
  induction images with
  | nil => intro _ member; simp at member
  | cons image _ ih =>
    intro parameter member
    rcases List.mem_cons.mp member with rfl | later
    · exact ⟨_, image⟩
    · exact ih parameter later

/-! ## Parameters -/

theorem convertParameter_run (parameter : Hir.Parameter) (ledger : state.Ledger)
    (unclaimed : state.Unclaimed parameter.id) :
    ∃ node after, (convertParameter parameter).run state = .ok (node, after) ∧
      Converted [parameter.id] state after ∧ ParameterImage after.arena after.symbolOf parameter node := by
  obtain ⟨symbol, declared, declaring, declaredConverted, found, unbound⟩ :=
    declareSymbol_unclaimed .parameter ledger unclaimed
  have pushed := Converted.push declaredConverted.ledger (.parameter symbol parameter.name) parameter.span
  obtain ⟨bound, binding, boundConverted, owns⟩ :=
    bindSymbol_converted declared.arena.nodeCount pushed.ledger found unbound
  refine ⟨declared.arena.nodeCount, bound, ?_,
    (declaredConverted.trans (pushed.trans boundConverted)).widen (by simp), ?_⟩
  · rw [convertParameter, run_bind_of_ok declaring, run_bind_of_ok (pushNode_run _ _ _),
      run_bind_of_ok binding]
    rfl
  · obtain ⟨kind, span⟩ := boundConverted.keeps.pushed
    exact ⟨symbol, (pushed.trans boundConverted).learns (.parameter parameter.id) _ found, kind, span,
      owns⟩

theorem mapM_convertParameter_run (parameters : List Hir.Parameter) (state : ConvertState)
    (ledger : state.Ledger) (unclaimed : ∀ parameter ∈ parameters, state.Unclaimed parameter.id)
    (distinct : (parameters.map (·.id)).Nodup) :
    ∃ nodes after, (parameters.mapM convertParameter).run state = .ok (nodes, after) ∧
      Converted (parameters.map (·.id)) state after ∧
      List.Forall₂ (ParameterImage after.arena after.symbolOf) parameters nodes := by
  induction parameters generalizing state with
  | nil => exact ⟨[], state, rfl, Converted.refl ledger, .nil⟩
  | cons parameter rest ih =>
    obtain ⟨fresh, restDistinct⟩ := List.nodup_cons.mp distinct
    obtain ⟨node, first, converting, firstConverted, image⟩ :=
      convertParameter_run parameter ledger (unclaimed parameter List.mem_cons_self)
    -- The later parameters are other declarations, still unclaimed.
    have others : ∀ other ∈ rest, other.id ∉ [parameter.id] := by
      intro other member same
      rw [List.mem_singleton] at same
      exact fresh (List.mem_map.mpr ⟨other, member, same⟩)
    obtain ⟨nodes, after, restConverting, restConverted, images⟩ :=
      ih first firstConverted.ledger
        (fun other member => firstConverted.unclaimed (others other member)
          (unclaimed other (List.mem_cons_of_mem _ member)))
        restDistinct
    refine ⟨node :: nodes, after, ?_, firstConverted.trans restConverted,
      .cons (image.mono restConverted.keeps restConverted.learns) images⟩
    rw [List.mapM_cons, run_bind_of_ok converting, run_bind_of_ok restConverting]
    rfl

/-! ## Statements -/

/-- Once a function and its parameters are declared, its body is ready: the function's name and
its parameters are bound above the scopes around the function, and the body's own declarations
are none of those. -/
theorem Ready.body {outer : List Scope} {here : Scope} {id : Nat} {name : String}
    {parameters : List Hir.Parameter} {body : List Hir.Statement} {declared : ConvertState}
    {parameterNodes : List Nat}
    (ready : Ready state (here :: outer)
      (id :: (parameters.map (·.id) ++ identities (Hir.Statement.listDeclarations body))))
    (converted : Converted ([id] ++ parameters.map (·.id)) state declared)
    (own : ∃ symbol, declared.symbols.lookup id = some symbol)
    (parametersAre : List.Forall₂ (ParameterImage declared.arena declared.symbolOf) parameters
      parameterNodes) :
    Ready declared ((declarationScope [] ++ parameterScope parameters) ::
      ((name, .function id) :: here) :: outer) (identities (Hir.Statement.listDeclarations body)) := by
  obtain ⟨ledger, known, unclaimed, distinct⟩ := ready
  obtain ⟨notOwn, headDistinct⟩ := List.nodup_cons.mp distinct
  obtain ⟨_, bodyDistinct, apart⟩ := List.nodup_append.mp headDistinct
  refine ⟨converted.ledger, ?_, fun other member => converted.unclaimed ?_ (unclaimed other ?_),
    bodyDistinct⟩
  · intro binding member
    simp only [declarationScope, List.filterMap_nil, List.reverse_nil, List.nil_append,
      List.flatten_cons, List.mem_append, List.mem_cons, or_assoc] at member
    rcases member with parameter | rfl | inHere | around | builtin
    · simp only [parameterScope, List.mem_reverse, List.mem_map] at parameter
      obtain ⟨parameter, inParameters, rfl⟩ := parameter
      obtain ⟨_, symbol, known, _⟩ := ParameterImage.exists_of_forall₂ parametersAre parameter inParameters
      exact ⟨symbol, known⟩
    · exact own
    · exact converted.known known binding (by simp [inHere])
    · exact converted.known known binding (by simp [around])
    · exact converted.known known binding (by simp [builtin])
  · -- A declaration of the body is neither the function nor one of its parameters.
    intro declaredFirst
    rcases List.mem_append.mp declaredFirst with same | parameter
    · rw [List.mem_singleton] at same
      exact notOwn (List.mem_append_right _ (same ▸ member))
    · exact apart other parameter other member rfl
  · exact List.mem_cons_of_mem _ (List.mem_append_right _ member)

mutual

theorem convertStatement_converts (outer : List Scope) (here : Scope) :
    (statement : Hir.Statement) → (state : ConvertState) →
      Ready state (here :: outer) (identities statement.declarations) →
      Converts (statement.bindIn outer here).references (convertStatement (statement.bindIn outer here))
        state fun node after => Converted (identities statement.declarations) state after ∧
          StatementImage after.arena after.symbolOf (statement.bindIn outer here) node
  | .function id name span parameters bodyId bodySpan body, state, ready => by
    simp only [Hir.Statement.identities_function] at ready ⊢
    obtain ⟨notParameter, notBody⟩ :
        id ∉ parameters.map (·.id) ∧ id ∉ identities (Hir.Statement.listDeclarations body) := by
      simpa using (List.nodup_cons.mp ready.distinct).1
    obtain ⟨parametersDistinct, _, _⟩ := List.nodup_append.mp (List.nodup_cons.mp ready.distinct).2
    -- The function's own symbol comes first, then its parameters' symbols.
    obtain ⟨symbol, declared, declaring, declaredConverted, found, unbound⟩ :=
      declareSymbol_unclaimed .function ready.ledger (ready.unclaimed id List.mem_cons_self)
    obtain ⟨parameterNodes, withParameters, parametersRan, parametersConverted, parametersAre⟩ :=
      mapM_convertParameter_run parameters declared declaredConverted.ledger
        (fun parameter member => declaredConverted.unclaimed
          (fun same => notParameter (List.mem_singleton.mp same ▸ List.mem_map_of_mem member))
          (ready.unclaimed _ (List.mem_cons_of_mem _ (List.mem_append_left _ (List.mem_map_of_mem member)))))
        parametersDistinct
    have headConverted := declaredConverted.trans parametersConverted
    simp only [Hir.Statement.bindIn, Hir.Statement.references]
    rw [convertStatement]
    refine Converts.bind_of_ok declaring (Converts.bind_of_ok parametersRan ?_)
    refine (convertStatements_converts _ _ [] body withParameters
      (ready.body headConverted ⟨symbol, parametersConverted.lookup found⟩ parametersAre)).bind_nil ?_
    rintro statementNodes withBody ⟨bodyConverted, bodyIs⟩
    -- The function's symbol is still unbound: parameters and body bound only their own.
    have stillUnbound : (withBody.arena.symbol symbol).owner = none := by
      rw [bodyConverted.owner_of_lookup notBody (parametersConverted.lookup found),
        parametersConverted.owner_of_lookup notParameter found]
      exact unbound
    have bodyPushed := Converted.push bodyConverted.ledger (.body statementNodes) bodySpan
    have functionPushed := Converted.push bodyPushed.ledger
      (.function
        { symbol := symbol, name := name, parameters := parameterNodes, body := withBody.arena.nodeCount,
          native := false, static := false, origin := .source })
      span
    have beforeBind := bodyConverted.trans (bodyPushed.trans functionPushed)
    obtain ⟨bound, binding, boundConverted, owns⟩ :=
      bindSymbol_converted (withBody.arena.push (.body statementNodes) bodySpan).1.nodeCount
        functionPushed.ledger (beforeBind.lookup (parametersConverted.lookup found)) stillUnbound
    refine Converts.bind_of_ok (pushNode_run _ _ _) (Converts.bind_of_ok (pushNode_run _ _ _)
      (Converts.bind_of_ok binding (Converts.of_ok rfl ⟨?_, ?_⟩)))
    · -- The function's own identity is declared first and bound last.
      exact (headConverted.trans (beforeBind.trans boundConverted)).widen (by grind)
    · have afterBody := bodyPushed.trans (functionPushed.trans boundConverted)
      have afterParameters := bodyConverted.trans afterBody
      obtain ⟨functionKind, functionSpan⟩ := boundConverted.keeps.pushed
      obtain ⟨bodyKind, bodySpan⟩ := (functionPushed.trans boundConverted).keeps.pushed
      exact .function (afterParameters.learns (.function id) _ (parametersConverted.lookup found))
        functionKind functionSpan owns
        (parametersAre.imp fun _ _ image => image.mono afterParameters.keeps afterParameters.learns)
        bodyKind bodySpan (bodyIs.mono afterBody.keeps afterBody.learns)
  | .variable id name span (some initializer), state, ready => by
    simp only [Hir.Statement.identities_variable] at ready ⊢
    obtain ⟨symbol, declared, declaring, declaredConverted, found, unbound⟩ :=
      declareSymbol_unclaimed .variable ready.ledger (ready.unclaimed id (List.mem_singleton_self id))
    -- The initializer does not see the variable: its references are bound in the scopes before it.
    have knows : declared.Knows (initializer.bindIn (here :: outer)).references :=
      fun reference member declaration bound =>
        (ready.knows initializer reference member declaration bound).imp fun _ known =>
          declaredConverted.learns _ _ known
    simp only [Hir.Statement.bindIn, Hir.Statement.references]
    rw [convertStatement]
    refine Converts.bind_of_ok declaring ?_
    simp only [map_eq_pure_bind, bind_assoc, pure_bind]
    refine (convertExpression_converts declared _ knows).bind_nil ?_
    rintro image _ ⟨rfl, imageIs⟩
    have pushed := Converted.push declaredConverted.ledger (.variable symbol name (some image)) span
    obtain ⟨bound, binding, boundConverted, owns⟩ :=
      bindSymbol_converted declared.arena.nodeCount pushed.ledger found unbound
    refine Converts.bind_of_ok (pushNode_run _ _ _)
      (Converts.bind_of_ok binding (Converts.of_ok rfl ⟨?_, ?_⟩))
    · exact (declaredConverted.trans (pushed.trans boundConverted)).widen (by simp)
    · have afterValue := pushed.trans boundConverted
      obtain ⟨kind, span⟩ := boundConverted.keeps.pushed
      exact .variable (afterValue.learns (.variable id) _ found) kind span owns
        (.some (imageIs.mono afterValue.learns))
  | .variable id name span none, state, ready => by
    simp only [Hir.Statement.identities_variable] at ready ⊢
    obtain ⟨symbol, declared, declaring, declaredConverted, found, unbound⟩ :=
      declareSymbol_unclaimed .variable ready.ledger (ready.unclaimed id (List.mem_singleton_self id))
    simp only [Hir.Statement.bindIn, Hir.Statement.references]
    rw [convertStatement]
    refine Converts.bind_of_ok declaring ?_
    simp only [pure_bind]
    have pushed := Converted.push declaredConverted.ledger (.variable symbol name none) span
    obtain ⟨bound, binding, boundConverted, owns⟩ :=
      bindSymbol_converted declared.arena.nodeCount pushed.ledger found unbound
    refine Converts.bind_of_ok (pushNode_run _ _ _)
      (Converts.bind_of_ok binding (Converts.of_ok rfl ⟨?_, ?_⟩))
    · exact (declaredConverted.trans (pushed.trans boundConverted)).widen (by simp)
    · obtain ⟨kind, span⟩ := boundConverted.keeps.pushed
      exact .variable ((pushed.trans boundConverted).learns (.variable id) _ found) kind span owns .none
  | .expression value, state, ready => by
    simp only [Hir.Statement.identities_expression] at ready ⊢
    simp only [Hir.Statement.bindIn, Hir.Statement.references]
    rw [convertStatement]
    refine (convertExpression_converts state _ (ready.knows value)).bind_nil ?_
    rintro image _ ⟨rfl, imageIs⟩
    have pushed := Converted.push ready.ledger (.expression image) image.span
    refine Converts.of_ok (pushNode_run _ _ _) ⟨pushed, ?_⟩
    obtain ⟨kind, span⟩ := (Arena.Keeps.refl _).pushed
    exact .expression kind (span.trans imageIs.span_eq) (imageIs.mono pushed.learns)

theorem convertStatements_converts (outer : List Scope) (base : Scope) :
    (before statements : List Hir.Statement) → (state : ConvertState) →
      Ready state ((declarationScope before ++ base) :: outer)
        (identities (Hir.Statement.listDeclarations statements)) →
      Converts (Hir.Statement.listReferences (Hir.Statement.bindListIn outer base before statements))
        (convertStatements (Hir.Statement.bindListIn outer base before statements)) state
        fun nodes after => Converted (identities (Hir.Statement.listDeclarations statements)) state after ∧
          StatementsImage after.arena after.symbolOf (Hir.Statement.bindListIn outer base before statements)
            nodes
  | _, [], state, ready => by
    simp only [Hir.Statement.bindListIn, Hir.Statement.listReferences,
      Hir.Statement.identities_listDeclarations_nil]
    rw [convertStatements]
    exact Converts.of_ok rfl ⟨Converted.refl ready.ledger, .nil⟩
  | before, statement :: rest, state, ready => by
    simp only [Hir.Statement.identities_listDeclarations_cons] at ready ⊢
    obtain ⟨ledger, known, unclaimed, distinct⟩ := ready
    obtain ⟨firstDistinct, restDistinct, apart⟩ := List.nodup_append.mp distinct
    simp only [Hir.Statement.bindListIn, Hir.Statement.listReferences]
    rw [convertStatements]
    refine (convertStatement_converts outer _ statement state
      ⟨ledger, known, fun id member => unclaimed id (List.mem_append_left _ member), firstDistinct⟩).bind ?_
    rintro node middle ⟨firstConverted, firstIs⟩
    -- The statements after this one also see the binding it adds, which now has a symbol.
    have restReady : Ready middle ((declarationScope (before ++ [statement]) ++ base) :: outer)
        (identities (Hir.Statement.listDeclarations rest)) := by
      refine ⟨firstConverted.ledger, ?_, fun id member => firstConverted.unclaimed
        (fun inFirst => apart id inFirst id member rfl) (unclaimed id (List.mem_append_right _ member)),
        restDistinct⟩
      intro binding member
      rw [Hir.declarationScope_append_singleton, List.flatten_cons, List.append_assoc, List.append_assoc,
        List.mem_append] at member
      rcases member with added | earlier
      · rw [← Hir.Statement.binding?_bindIn outer (declarationScope before ++ base)] at added
        exact firstIs.binding_known (Option.mem_toList.mp added)
      · exact firstConverted.known known binding (by simpa [List.flatten_cons] using earlier)
    refine Converts.bind_pure ((convertStatements_converts outer base (before ++ [statement]) rest middle
      restReady).mono ?_)
    rintro nodes after ⟨restConverted, restAre⟩
    exact ⟨firstConverted.trans restConverted,
      .cons (firstIs.mono restConverted.keeps restConverted.learns) restAre⟩

end

end ScriptLowering.Mir
