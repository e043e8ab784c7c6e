import ScriptLowering.Hir.Resolve
import ScriptLowering.Hir.References

/-! # Name resolution is lexical scoping

The resolver keeps a stack of scopes that it opens, fills and closes as it walks a file. This
module states the scoping rule without that stack: the scopes in force at a reference are read
off the statements around it. Innermost first, they are the scope of each enclosing function,
holding its parameters and then the declarations of the statements of its body that come before
the reference, and the file scope, holding the declarations of the top-level statements before the
reference and then every function declared directly in the file. A declaration binds its name in
the scope that holds it: a function from its own statement on, so that its body sees it, and a
variable from the statement after it, so that its initializer does not. The built-in functions
come last.

The main statement is `File.resolve_eq_lexical`: on a file none of whose references is bound
yet, resolving binds each reference to the binding visible at it and reports, in walk order, each
reference at which no binding is visible. The walk lemmas behind it allow a reference to be bound
already, to the binding visible at it (`File.resolve_of_settled`), which is what resolving a
resolved file meets.
-/

namespace ScriptLowering.Hir

/-- The binding of a name visible in some scopes, read innermost first and then the built-ins. -/
def visibleBinding (scopes : List Scope) (name : String) : Option Resolution :=
  Scope.lookup? (scopes.flatten ++ builtinScope) name

/-- A reference bound to the binding of its name visible in some scopes. -/
def Reference.bindIn (scopes : List Scope) (reference : Reference) : Reference :=
  { reference with candidate := visibleBinding scopes reference.name }

/-- The report for a reference at which no binding of its name is visible, `use` saying whether
it is called or read. -/
def Reference.unknownIn (scopes : List Scope) (use : String) (reference : Reference) :
    List Diagnostic :=
  match visibleBinding scopes reference.name with
  | some _ => []
  | none => [{ message := s!"Unknown {use} to {reference.name}", span := reference.span }]

mutual

/-- An expression with every reference bound in the same scopes; expressions declare nothing. -/
def Expression.bindIn (scopes : List Scope) : Expression → Expression
  | .const span value => .const span value
  | .get span reference => .get span (reference.bindIn scopes)
  | .call span receiver arguments =>
    .call span (receiver.bindIn scopes) (Expression.bindArgumentsIn scopes arguments)
  | .object span entries => .object span (Expression.bindEntriesIn scopes entries)
  | .set span target value => .set span (target.bindIn scopes) (value.bindIn scopes)
  | .getProperty span receiver property => .getProperty span (receiver.bindIn scopes) property
  | .setProperty span receiver property value =>
    .setProperty span (receiver.bindIn scopes) property (value.bindIn scopes)

/-- Call arguments with every reference bound in some scopes. -/
def Expression.bindArgumentsIn (scopes : List Scope) :
    List (Option Expression) → List (Option Expression)
  | [] => []
  | none :: rest => none :: Expression.bindArgumentsIn scopes rest
  | some argument :: rest => some (argument.bindIn scopes) :: Expression.bindArgumentsIn scopes rest

/-- Object entries with every reference bound in some scopes. -/
def Expression.bindEntriesIn (scopes : List Scope) :
    List (String × Expression) → List (String × Expression)
  | [] => []
  | (key, value) :: rest => (key, value.bindIn scopes) :: Expression.bindEntriesIn scopes rest

end

mutual

/-- The reports for the references of an expression at which no binding is visible, in walk
order. `use` is the word for the expression itself when it is a plain name: a call's receiver is
called, every other name is read. -/
def Expression.unknownsIn (scopes : List Scope) (use : String) : Expression → List Diagnostic
  | .const .. => []
  | .get _ reference => reference.unknownIn scopes use
  | .call _ receiver arguments =>
    receiver.unknownsIn scopes "call" ++ Expression.argumentUnknownsIn scopes arguments
  | .object _ entries => Expression.entryUnknownsIn scopes entries
  | .set _ target value => value.unknownsIn scopes "reference" ++ target.unknownIn scopes "reference"
  | .getProperty _ receiver _ => receiver.unknownsIn scopes "reference"
  | .setProperty _ receiver _ value =>
    receiver.unknownsIn scopes "reference" ++ value.unknownsIn scopes "reference"

/-- The reports for the unknown names of the arguments present, in order. -/
def Expression.argumentUnknownsIn (scopes : List Scope) : List (Option Expression) → List Diagnostic
  | [] => []
  | none :: rest => Expression.argumentUnknownsIn scopes rest
  | some argument :: rest =>
    argument.unknownsIn scopes "reference" ++ Expression.argumentUnknownsIn scopes rest

/-- The reports for the unknown names of an object's values, in entry order. -/
def Expression.entryUnknownsIn (scopes : List Scope) : List (String × Expression) → List Diagnostic
  | [] => []
  | (_, value) :: rest => value.unknownsIn scopes "reference" ++ Expression.entryUnknownsIn scopes rest

end

/-- The binding a statement adds to the scope holding it: a function or variable binds its name. -/
def Statement.binding? : Statement → Option (String × Resolution)
  | .function id name .. => some (name, .function id)
  | .variable id name .. => some (name, .variable id)
  | .expression _ => none

/-- The bindings of the declarations among some statements, the latest first. -/
def declarationScope (statements : List Statement) : Scope :=
  (statements.filterMap Statement.binding?).reverse

/-- The bindings of a function's parameters, the latest first. -/
def parameterScope (parameters : List Parameter) : Scope :=
  (parameters.map fun parameter => (parameter.name, Resolution.parameter parameter.id)).reverse

/-- The bindings of the functions declared directly in a file, the latest first. -/
def File.functionScope (file : File) : Scope :=
  (file.functionDeclarations.map fun declaration =>
    (declaration.2, Resolution.function declaration.1)).reverse

mutual

/-- A statement with every reference bound lexically. `here` is the scope holding the statement as
it stands before it, `outer` the scopes around that one. A function's body is bound in a scope of
its own below the scope holding the function, which already binds the function's name. -/
def Statement.bindIn (outer : List Scope) (here : Scope) : Statement → Statement
  | .function id name span parameters bodyId bodySpan body =>
    .function id name span parameters bodyId bodySpan
      (Statement.bindListIn (((name, .function id) :: here) :: outer) (parameterScope parameters) []
        body)
  | .variable id name span (some initializer) =>
    .variable id name span (some (initializer.bindIn (here :: outer)))
  | .variable id name span none => .variable id name span none
  | .expression value => .expression (value.bindIn (here :: outer))

/-- The statements of a file or body bound lexically, those in `before` preceding them: each
statement sees the declarations before it, above `base`. -/
def Statement.bindListIn (outer : List Scope) (base : Scope) (before : List Statement) :
    List Statement → List Statement
  | [] => []
  | statement :: rest =>
    statement.bindIn outer (declarationScope before ++ base) ::
      Statement.bindListIn outer base (before ++ [statement]) rest

end

mutual

/-- The reports for the unknown names of a statement, in walk order, in the scopes of
`Statement.bindIn`. -/
def Statement.unknownsIn (outer : List Scope) (here : Scope) : Statement → List Diagnostic
  | .function id name _ parameters _ _ body =>
    Statement.listUnknownsIn (((name, .function id) :: here) :: outer) (parameterScope parameters) []
      body
  | .variable _ _ _ (some initializer) => initializer.unknownsIn (here :: outer) "reference"
  | .variable _ _ _ none => []
  | .expression value => value.unknownsIn (here :: outer) "reference"

/-- The reports for the unknown names of statements, in the scopes of `Statement.bindListIn`. -/
def Statement.listUnknownsIn (outer : List Scope) (base : Scope) (before : List Statement) :
    List Statement → List Diagnostic
  | [] => []
  | statement :: rest =>
    statement.unknownsIn outer (declarationScope before ++ base) ++
      Statement.listUnknownsIn outer base (before ++ [statement]) rest

end

/-- A file with every reference bound to the binding visible at it. -/
def File.bindLexically (file : File) : File :=
  { file with statements := Statement.bindListIn [] file.functionScope [] file.statements }

/-- The reports for the references of a file at which no binding is visible, in walk order. -/
def File.unknownNames (file : File) : List Diagnostic :=
  Statement.listUnknownsIn [] file.functionScope [] file.statements

/-! ## References resolution has nothing to fix in

The resolver skips a reference that is bound already. It comes to the same as binding it afresh
when the reference is bound to the binding visible at it, which is what a first resolution leaves;
such a reference is settled. -/

/-- A reference that resolving has nothing to fix in: unbound, or bound already to the binding of
its name visible in `scopes`. -/
def Reference.SettledIn (scopes : List Scope) (reference : Reference) : Prop :=
  reference.candidate = none ∨ reference.candidate = visibleBinding scopes reference.name

mutual

/-- Every reference of a statement is settled in the scopes `Statement.bindIn` reads it in. -/
def Statement.SettledIn (outer : List Scope) (here : Scope) : Statement → Prop
  | .function id name _ parameters _ _ body =>
    Statement.ListSettledIn (((name, .function id) :: here) :: outer) (parameterScope parameters) body
  | .variable _ _ _ (some initializer) =>
    ∀ reference ∈ initializer.references, reference.SettledIn (here :: outer)
  | .variable _ _ _ none => True
  | .expression value => ∀ reference ∈ value.references, reference.SettledIn (here :: outer)

/-- Every reference of some statements is settled, the first statement standing in `scope` and
each later one in that scope grown by the declarations before it. -/
def Statement.ListSettledIn (outer : List Scope) (scope : Scope) : List Statement → Prop
  | [] => True
  | statement :: rest =>
    statement.SettledIn outer scope ∧
      Statement.ListSettledIn outer (statement.binding?.toList ++ scope) rest

end

/-- Every reference of a file is settled where it stands. -/
def File.Settled (file : File) : Prop :=
  Statement.ListSettledIn [] file.functionScope file.statements

mutual

theorem Statement.settledIn_of_fresh : (statement : Statement) → (outer : List Scope) → (here : Scope) →
    (∀ reference ∈ statement.references, reference.candidate = none) → statement.SettledIn outer here
  | .function _ _ _ _ _ _ body, _, _, fresh => by
    simp only [Statement.references] at fresh
    exact Statement.listSettledIn_of_fresh body _ _ fresh
  | .variable _ _ _ (some _), _, _, fresh => by
    simp only [Statement.references] at fresh
    exact fun reference member => .inl (fresh reference member)
  | .variable _ _ _ none, _, _, _ => by simp only [Statement.SettledIn]
  | .expression _, _, _, fresh => by
    simp only [Statement.references] at fresh
    exact fun reference member => .inl (fresh reference member)

theorem Statement.listSettledIn_of_fresh : (statements : List Statement) → (outer : List Scope) →
    (scope : Scope) →
    (∀ reference ∈ Statement.listReferences statements, reference.candidate = none) →
    Statement.ListSettledIn outer scope statements
  | [], _, _, _ => by simp only [Statement.ListSettledIn]
  | statement :: rest, outer, scope, fresh => by
    simp only [Statement.listReferences, List.forall_mem_append] at fresh
    exact ⟨Statement.settledIn_of_fresh statement outer scope fresh.1,
      Statement.listSettledIn_of_fresh rest outer _ fresh.2⟩

end

/-- A file with no bound reference has every reference settled. -/
theorem File.settled_of_fresh {file : File} (fresh : ∀ reference ∈ file.references, reference.candidate = none) :
    file.Settled :=
  Statement.listSettledIn_of_fresh file.statements [] _ fresh

theorem lookupName?_eq_visibleBinding (scopes : List Scope) (name : String) :
    lookupName? scopes name = visibleBinding scopes name := by
  induction scopes with
  | nil => simp [lookupName?, visibleBinding]
  | cons scope outer ih =>
    simp only [lookupName?, visibleBinding, Scope.lookup?, List.flatten_cons, List.append_assoc,
      List.find?_append, List.findSome?_cons] at ih ⊢
    cases List.find? (fun binding => binding.1 == name) scope <;> simp_all

theorem declarationScope_append_singleton (before : List Statement) (statement : Statement)
    (base : Scope) :
    declarationScope (before ++ [statement]) ++ base =
      statement.binding?.toList ++ (declarationScope before ++ base) := by
  cases binds : statement.binding? <;> simp [declarationScope, List.filterMap_append, binds]

private theorem appendList_append {α : Type} (xs : Array α) (first second : List α) :
    xs ++ first ++ second = xs ++ (first ++ second) := Array.ext' (by simp)

/-- Only a plain name reads the word for how it is used. -/
theorem unknownsIn_use_of_not_get {expression : Expression}
    (bare : ∀ span reference, expression ≠ .get span reference) (scopes : List Scope)
    (use other : String) :
    expression.unknownsIn scopes use = expression.unknownsIn scopes other := by
  cases expression with
  | get span reference => exact absurd rfl (bare span reference)
  | _ => rfl

/-! ## One step of the resolver at a time -/

theorem bindName_run (name : String) (resolution : Resolution) (scope : Scope) (outer : List Scope)
    (reports : Diagnostics) :
    (bindName name resolution).run { scopes := scope :: outer, reports } =
      pure ((), { scopes := ((name, resolution) :: scope) :: outer, reports }) := rfl

theorem openScope_run (state : ResolveState) :
    openScope.run state = pure ((), { state with scopes := [] :: state.scopes }) := rfl

theorem closeScope_run (state : ResolveState) :
    closeScope.run state = pure ((), { state with scopes := state.scopes.tail }) := rfl

theorem resolveReference_run (use : String) (reference : Reference) (scopes : List Scope)
    (reports : Diagnostics) (settled : reference.SettledIn scopes) :
    (resolveReference use reference).run { scopes, reports } =
      pure (reference.bindIn scopes, { scopes, reports := reports ++ reference.unknownIn scopes use }) := by
  obtain ⟨name, span, candidate⟩ := reference
  cases candidate with
  | none =>
    simp only [resolveReference, Option.isSome_none, Bool.false_eq_true, ↓reduceIte,
      lookupName?_eq_visibleBinding, StateT.run_bind, StateT.run_get, pure_bind]
    cases found : visibleBinding scopes name <;>
      simp [found, Reference.bindIn, Reference.unknownIn, Diagnostics.report]
  | some bound =>
    -- A bound reference is skipped; being settled, it is bound to the visible binding already.
    have visible : visibleBinding scopes name = some bound := by
      rcases settled with unbound | same
      · cases unbound
      · exact same.symm
    simp [resolveReference, Reference.bindIn, Reference.unknownIn, visible]

/-- A call whose receiver is not a plain name resolves its receiver as any other expression. -/
theorem resolveExpression_call {receiver : Expression}
    (bare : ∀ span reference, receiver ≠ .get span reference) (span : Span)
    (arguments : List (Option Expression)) :
    resolveExpression (.call span receiver arguments) = (do
      let receiver ← resolveExpression receiver
      return .call span receiver (← resolveArguments arguments)) := by
  cases receiver with
  | get receiverSpan reference => exact absurd rfl (bare receiverSpan reference)
  | _ => rfl

/-! ## Expressions

An expression neither opens nor fills a scope, so resolving it leaves the scopes as they are and
binds every reference in them. -/

mutual

theorem resolveExpression_run : (expression : Expression) → (scopes : List Scope) →
    (reports : Diagnostics) → (∀ reference ∈ expression.references, reference.SettledIn scopes) →
    (resolveExpression expression).run { scopes, reports } =
      pure (expression.bindIn scopes,
        { scopes, reports := reports ++ expression.unknownsIn scopes "reference" })
  | .const span value, scopes, reports, _ => by
    simp [resolveExpression, Expression.bindIn, Expression.unknownsIn]
  | .get span reference, scopes, reports, settled => by
    simp only [Expression.references, List.mem_singleton, forall_eq] at settled
    simp only [resolveExpression, StateT.run_bind, resolveReference_run _ _ _ _ settled, pure_bind,
      StateT.run_pure, Expression.bindIn, Expression.unknownsIn]
  | .call span receiver arguments, scopes, reports, settled => by
    simp only [Expression.references, List.forall_mem_append] at settled
    -- A plain name as receiver is resolved as a call, anything else as an expression.
    by_cases bare : ∃ receiverSpan reference, receiver = .get receiverSpan reference
    · obtain ⟨receiverSpan, reference, rfl⟩ := bare
      simp only [Expression.references, List.mem_singleton, forall_eq] at settled
      simp only [resolveExpression, StateT.run_bind, resolveReference_run _ _ _ _ settled.1, pure_bind,
        resolveArguments_run arguments _ _ settled.2, StateT.run_pure, Expression.bindIn,
        Expression.unknownsIn, appendList_append]
    · simp only [not_exists] at bare
      rw [resolveExpression_call bare]
      simp only [StateT.run_bind, resolveExpression_run receiver scopes reports settled.1, pure_bind,
        resolveArguments_run arguments _ _ settled.2, StateT.run_pure, Expression.bindIn,
        Expression.unknownsIn, appendList_append, unknownsIn_use_of_not_get bare _ "call" "reference"]
  | .object span entries, scopes, reports, settled => by
    simp only [resolveExpression, StateT.run_bind, resolveEntries_run entries scopes reports settled,
      pure_bind, StateT.run_pure, Expression.bindIn, Expression.unknownsIn]
  | .set span target value, scopes, reports, settled => by
    simp only [Expression.references, List.forall_mem_append, List.mem_singleton, forall_eq] at settled
    simp only [resolveExpression, StateT.run_bind, resolveExpression_run value scopes reports settled.1,
      pure_bind, resolveReference_run _ _ _ _ settled.2, StateT.run_pure, Expression.bindIn,
      Expression.unknownsIn, appendList_append]
  | .getProperty span receiver property, scopes, reports, settled => by
    simp only [resolveExpression, StateT.run_bind, resolveExpression_run receiver scopes reports settled,
      pure_bind, StateT.run_pure, Expression.bindIn, Expression.unknownsIn]
  | .setProperty span receiver property value, scopes, reports, settled => by
    simp only [Expression.references, List.forall_mem_append] at settled
    simp only [resolveExpression, StateT.run_bind, resolveExpression_run receiver scopes reports settled.1,
      pure_bind, resolveExpression_run value _ _ settled.2, StateT.run_pure, Expression.bindIn,
      Expression.unknownsIn, appendList_append]

theorem resolveArguments_run : (arguments : List (Option Expression)) → (scopes : List Scope) →
    (reports : Diagnostics) →
    (∀ reference ∈ Expression.argumentReferences arguments, reference.SettledIn scopes) →
    (resolveArguments arguments).run { scopes, reports } =
      pure (Expression.bindArgumentsIn scopes arguments,
        { scopes, reports := reports ++ Expression.argumentUnknownsIn scopes arguments })
  | [], scopes, reports, _ => by
    simp [resolveArguments, Expression.bindArgumentsIn, Expression.argumentUnknownsIn]
  | none :: rest, scopes, reports, settled => by
    simp only [resolveArguments, StateT.run_bind, resolveArguments_run rest scopes reports settled,
      pure_bind, StateT.run_pure, Expression.bindArgumentsIn, Expression.argumentUnknownsIn]
  | some argument :: rest, scopes, reports, settled => by
    simp only [Expression.argumentReferences, List.forall_mem_append] at settled
    simp only [resolveArguments, StateT.run_bind, resolveExpression_run argument scopes reports settled.1,
      pure_bind, resolveArguments_run rest _ _ settled.2, StateT.run_pure, Expression.bindArgumentsIn,
      Expression.argumentUnknownsIn, appendList_append]

theorem resolveEntries_run : (entries : List (String × Expression)) → (scopes : List Scope) →
    (reports : Diagnostics) →
    (∀ reference ∈ Expression.entryReferences entries, reference.SettledIn scopes) →
    (resolveEntries entries).run { scopes, reports } =
      pure (Expression.bindEntriesIn scopes entries,
        { scopes, reports := reports ++ Expression.entryUnknownsIn scopes entries })
  | [], scopes, reports, _ => by
    simp [resolveEntries, Expression.bindEntriesIn, Expression.entryUnknownsIn]
  | (key, value) :: rest, scopes, reports, settled => by
    simp only [Expression.entryReferences, List.forall_mem_append] at settled
    simp only [resolveEntries, StateT.run_bind, resolveExpression_run value scopes reports settled.1,
      pure_bind, resolveEntries_run rest _ _ settled.2, StateT.run_pure, Expression.bindEntriesIn,
      Expression.entryUnknownsIn, appendList_append]

end

/-! ## Statements

Throughout a file or body the resolver's innermost scope is the positional scope of the next
statement, `declarationScope before ++ base`; a function's body runs one scope deeper and the
scope is closed after it, which is what the statement lemmas carry from one statement to the
next. -/

theorem bindParameters_run (parameters : List Parameter) (scope : Scope) (outer : List Scope)
    (reports : Diagnostics) :
    (forIn parameters PUnit.unit fun parameter _ => do
        bindName parameter.name (.parameter parameter.id)
        pure (ForInStep.yield PUnit.unit) : ResolveM PUnit).run { scopes := scope :: outer, reports } =
      pure (PUnit.unit, { scopes := (parameterScope parameters ++ scope) :: outer, reports }) := by
  induction parameters generalizing scope with
  | nil => simp [parameterScope]
  | cons parameter rest ih =>
    simp only [List.forIn_cons, StateT.run_bind, bindName_run, pure_bind, StateT.run_pure, ih]
    simp [parameterScope]

theorem bindFunctions_run (declarations : List (Nat × String)) (scope : Scope) (outer : List Scope)
    (reports : Diagnostics) :
    (forIn declarations PUnit.unit fun declaration _ => do
        bindName declaration.2 (.function declaration.1)
        pure (ForInStep.yield PUnit.unit) : ResolveM PUnit).run { scopes := scope :: outer, reports } =
      pure (PUnit.unit, { scopes := ((declarations.map fun declaration =>
        (declaration.2, Resolution.function declaration.1)).reverse ++ scope) :: outer, reports }) := by
  induction declarations generalizing scope with
  | nil => simp
  | cons declaration rest ih =>
    simp only [List.forIn_cons, StateT.run_bind, bindName_run, pure_bind, StateT.run_pure, ih]
    simp

mutual

theorem resolveStatement_run : (statement : Statement) → (outer : List Scope) → (here : Scope) →
    (reports : Diagnostics) → statement.SettledIn outer here →
    (resolveStatement statement).run { scopes := here :: outer, reports } =
      pure (statement.bindIn outer here,
        { scopes := (statement.binding?.toList ++ here) :: outer,
          reports := reports ++ statement.unknownsIn outer here })
  | .function id name span parameters bodyId bodySpan body, outer, here, reports, settled => by
    simp only [Statement.SettledIn] at settled
    simp only [resolveStatement, StateT.run_bind, bindName_run, pure_bind, openScope_run,
      bindParameters_run, List.append_nil]
    rw [resolveStatements_run body reports (((name, .function id) :: here) :: outer)
      (parameterScope parameters) [] (parameterScope parameters) (by simp [declarationScope]) settled]
    simp [closeScope_run, Statement.bindIn, Statement.unknownsIn, Statement.binding?]
  | .variable id name span (some initializer), outer, here, reports, settled => by
    simp only [Statement.SettledIn] at settled
    simp [resolveStatement, resolveOptional, resolveExpression_run initializer _ _ settled, bindName_run,
      Statement.bindIn, Statement.unknownsIn, Statement.binding?]
  | .variable id name span none, outer, here, reports, _ => by
    simp [resolveStatement, resolveOptional, bindName_run, Statement.bindIn, Statement.unknownsIn,
      Statement.binding?]
  | .expression value, outer, here, reports, settled => by
    simp only [Statement.SettledIn] at settled
    simp [resolveStatement, resolveExpression_run value _ _ settled, Statement.bindIn,
      Statement.unknownsIn, Statement.binding?]

theorem resolveStatements_run : (statements : List Statement) → (reports : Diagnostics) →
    (outer : List Scope) → (base : Scope) → (before : List Statement) → (scope : Scope) →
    scope = declarationScope before ++ base → Statement.ListSettledIn outer scope statements →
    (resolveStatements statements).run { scopes := scope :: outer, reports } =
      pure (Statement.bindListIn outer base before statements,
        { scopes := (declarationScope (before ++ statements) ++ base) :: outer,
          reports := reports ++ Statement.listUnknownsIn outer base before statements })
  | [], reports, outer, base, before, scope, inScope, _ => by
    simp [resolveStatements, Statement.bindListIn, Statement.listUnknownsIn, inScope]
  | statement :: rest, reports, outer, base, before, scope, inScope, settled => by
    simp only [Statement.ListSettledIn] at settled
    simp only [resolveStatements, StateT.run_bind,
      resolveStatement_run statement outer scope reports settled.1, pure_bind]
    rw [resolveStatements_run rest _ outer base (before ++ [statement]) _
      (by rw [declarationScope_append_singleton, inScope]) settled.2]
    simp [Statement.bindListIn, Statement.listUnknownsIn, inScope, appendList_append]

end

/-- Resolution of a file whose references are all settled, read off the walk of its statements in
the file scope. -/
theorem File.resolve_of_settled (file : File) (reports : Diagnostics) (settled : file.Settled) :
    file.resolve reports = (file.bindLexically, reports ++ file.unknownNames) := by
  simp only [File.resolve, StateT.run_bind, openScope_run, pure_bind, bindFunctions_run,
    List.append_nil]
  -- The file scope starts with every function declared directly in the file.
  rw [show (file.functionDeclarations.map fun declaration =>
      (declaration.2, Resolution.function declaration.1)).reverse = file.functionScope from rfl,
    resolveStatements_run file.statements reports [] file.functionScope [] _
      (by simp [declarationScope]) settled]
  simp only [closeScope_run, pure_bind, StateT.run_pure, List.tail_cons]
  rfl

/-- Resolving a file none of whose references is bound yet binds every reference to the binding
of its name visible at it, and reports each reference at which none is visible, in walk order:
`Unknown call to NAME` for the receiver of a call, `Unknown reference to NAME` otherwise. -/
theorem File.resolve_eq_lexical (file : File) (reports : Diagnostics)
    (fresh : ∀ reference ∈ file.references, reference.candidate = none) :
    file.resolve reports = (file.bindLexically, reports ++ file.unknownNames) :=
  file.resolve_of_settled reports (File.settled_of_fresh fresh)

/-- The file `function f(a) { b; var b = a; } f(c);` before resolution: `b` is used before its
declaration and `c` is declared nowhere. -/
def forwardUseSample : File where
  id := 0
  name := "f.js"
  span := .range 0 36
  statements :=
    [.function 1 "f" (.range 0 29) [{ id := 2, name := "a", span := .range 11 12 }] 3 (.range 14 29)
      [.expression (.get (.range 16 17) { name := "b", span := .range 16 17 }),
       .variable 4 "b" (.range 19 28) (some (.get (.range 27 28) { name := "a", span := .range 27 28 }))],
     .expression (.call (.range 30 34) (.get (.range 30 31) { name := "f", span := .range 30 31 })
      [some (.get (.range 32 33) { name := "c", span := .range 32 33 })])]

theorem resolve_eq_lexical_forwardUse :
    (∀ reference ∈ forwardUseSample.references, reference.candidate = none) ∧
      forwardUseSample.resolve #[] =
        (forwardUseSample.bindLexically, (#[] : Diagnostics) ++ forwardUseSample.unknownNames) :=
  ⟨by decide, File.resolve_eq_lexical _ _ (by decide)⟩

example : forwardUseSample.unknownNames.map (·.message) =
    ["Unknown reference to b", "Unknown reference to c"] := by decide

end ScriptLowering.Hir
