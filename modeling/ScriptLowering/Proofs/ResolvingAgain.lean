import ScriptLowering.Proofs.BuiltFile
import ScriptLowering.Hir.Steps

/-! # Resolving again

Resolution decides what a name is bound to from the declarations of a file alone, never from the
bindings its references carry, and it skips a reference that is bound already. So a file that has
been resolved once leaves nothing to change: each of its references is settled, bound to the
binding visible at it (`File.settled_bindLexically`), binding it lexically again gives it back
(`File.bindLexically_bindLexically`), and its unknown names are the same
(`File.unknownNames_bindLexically`). Forgetting its bindings gives back the unresolved file
(`File.forget_bindLexically`).

Main statement: resolving a built file a second time, or forgetting its bindings and resolving it,
gives the file of the first resolution and reports the same problems once more, in the same order;
in any sequence of resolve and reset steps each resolve gives that file and those reports, and each
reset the file as it was built (`File.resolve_again`). The run over the steps rests on one step
lemma, `Step.apply_of_fresh`.
-/

namespace ScriptLowering.Hir

/-! ## Binding a reference twice -/

@[simp] theorem Reference.bindIn_bindIn (scopes : List Scope) (reference : Reference) :
    (reference.bindIn scopes).bindIn scopes = reference.bindIn scopes := rfl

@[simp] theorem Reference.unknownIn_bindIn (scopes : List Scope) (use : String) (reference : Reference) :
    (reference.bindIn scopes).unknownIn scopes use = reference.unknownIn scopes use := rfl

@[simp] theorem Reference.forget_bindIn (scopes : List Scope) (reference : Reference) :
    (reference.bindIn scopes).forget = reference.forget := rfl

theorem Reference.forget_of_fresh {reference : Reference} (fresh : reference.candidate = none) :
    reference.forget = reference := by
  obtain ⟨name, span, candidate⟩ := reference
  subst fresh
  rfl

/-! ## Expressions

An expression is bound in one list of scopes throughout, so each statement about it is one
induction over its constructors. -/

mutual

theorem Expression.bindIn_bindIn (scopes : List Scope) :
    (expression : Expression) → (expression.bindIn scopes).bindIn scopes = expression.bindIn scopes
  | .const .. | .get .. => rfl
  | .call _ receiver arguments => by
    simp [Expression.bindIn, Expression.bindIn_bindIn scopes receiver,
      Expression.bindArgumentsIn_bindArgumentsIn scopes arguments]
  | .object _ entries => by
    simp [Expression.bindIn, Expression.bindEntriesIn_bindEntriesIn scopes entries]
  | .set _ _ value => by simp [Expression.bindIn, Expression.bindIn_bindIn scopes value]
  | .getProperty _ receiver _ => by simp [Expression.bindIn, Expression.bindIn_bindIn scopes receiver]
  | .setProperty _ receiver _ value => by
    simp [Expression.bindIn, Expression.bindIn_bindIn scopes receiver,
      Expression.bindIn_bindIn scopes value]

theorem Expression.bindArgumentsIn_bindArgumentsIn (scopes : List Scope) :
    (arguments : List (Option Expression)) →
      Expression.bindArgumentsIn scopes (Expression.bindArgumentsIn scopes arguments) =
        Expression.bindArgumentsIn scopes arguments
  | [] => rfl
  | none :: rest => by
    simp [Expression.bindArgumentsIn, Expression.bindArgumentsIn_bindArgumentsIn scopes rest]
  | some argument :: rest => by
    simp [Expression.bindArgumentsIn, Expression.bindIn_bindIn scopes argument,
      Expression.bindArgumentsIn_bindArgumentsIn scopes rest]

theorem Expression.bindEntriesIn_bindEntriesIn (scopes : List Scope) :
    (entries : List (String × Expression)) →
      Expression.bindEntriesIn scopes (Expression.bindEntriesIn scopes entries) =
        Expression.bindEntriesIn scopes entries
  | [] => rfl
  | (_, value) :: rest => by
    simp [Expression.bindEntriesIn, Expression.bindIn_bindIn scopes value,
      Expression.bindEntriesIn_bindEntriesIn scopes rest]

end

mutual

theorem Expression.unknownsIn_bindIn (scopes : List Scope) :
    (use : String) → (expression : Expression) →
      (expression.bindIn scopes).unknownsIn scopes use = expression.unknownsIn scopes use
  | _, .const .. | _, .get .. => rfl
  | _, .call _ receiver arguments => by
    simp [Expression.bindIn, Expression.unknownsIn, Expression.unknownsIn_bindIn scopes "call" receiver,
      Expression.argumentUnknownsIn_bindArgumentsIn scopes arguments]
  | _, .object _ entries => by
    simp [Expression.bindIn, Expression.unknownsIn, Expression.entryUnknownsIn_bindEntriesIn scopes entries]
  | _, .set _ _ value => by
    simp [Expression.bindIn, Expression.unknownsIn, Expression.unknownsIn_bindIn scopes "reference" value]
  | _, .getProperty _ receiver _ => by
    simp [Expression.bindIn, Expression.unknownsIn,
      Expression.unknownsIn_bindIn scopes "reference" receiver]
  | _, .setProperty _ receiver _ value => by
    simp [Expression.bindIn, Expression.unknownsIn,
      Expression.unknownsIn_bindIn scopes "reference" receiver,
      Expression.unknownsIn_bindIn scopes "reference" value]

theorem Expression.argumentUnknownsIn_bindArgumentsIn (scopes : List Scope) :
    (arguments : List (Option Expression)) →
      Expression.argumentUnknownsIn scopes (Expression.bindArgumentsIn scopes arguments) =
        Expression.argumentUnknownsIn scopes arguments
  | [] => rfl
  | none :: rest => by
    simp [Expression.bindArgumentsIn, Expression.argumentUnknownsIn,
      Expression.argumentUnknownsIn_bindArgumentsIn scopes rest]
  | some argument :: rest => by
    simp [Expression.bindArgumentsIn, Expression.argumentUnknownsIn,
      Expression.unknownsIn_bindIn scopes "reference" argument,
      Expression.argumentUnknownsIn_bindArgumentsIn scopes rest]

theorem Expression.entryUnknownsIn_bindEntriesIn (scopes : List Scope) :
    (entries : List (String × Expression)) →
      Expression.entryUnknownsIn scopes (Expression.bindEntriesIn scopes entries) =
        Expression.entryUnknownsIn scopes entries
  | [] => rfl
  | (_, value) :: rest => by
    simp [Expression.bindEntriesIn, Expression.entryUnknownsIn,
      Expression.unknownsIn_bindIn scopes "reference" value,
      Expression.entryUnknownsIn_bindEntriesIn scopes rest]

end

mutual

theorem Expression.forget_bindIn (scopes : List Scope) :
    (expression : Expression) → (expression.bindIn scopes).forget = expression.forget
  | .const .. | .get .. => rfl
  | .call _ receiver arguments => by
    simp [Expression.bindIn, Expression.forget, Expression.forget_bindIn scopes receiver,
      Expression.forgetArguments_bindArgumentsIn scopes arguments]
  | .object _ entries => by
    simp [Expression.bindIn, Expression.forget, Expression.forgetEntries_bindEntriesIn scopes entries]
  | .set _ _ value => by simp [Expression.bindIn, Expression.forget, Expression.forget_bindIn scopes value]
  | .getProperty _ receiver _ => by
    simp [Expression.bindIn, Expression.forget, Expression.forget_bindIn scopes receiver]
  | .setProperty _ receiver _ value => by
    simp [Expression.bindIn, Expression.forget, Expression.forget_bindIn scopes receiver,
      Expression.forget_bindIn scopes value]

theorem Expression.forgetArguments_bindArgumentsIn (scopes : List Scope) :
    (arguments : List (Option Expression)) →
      Expression.forgetArguments (Expression.bindArgumentsIn scopes arguments) =
        Expression.forgetArguments arguments
  | [] => rfl
  | none :: rest => by
    simp [Expression.bindArgumentsIn, Expression.forgetArguments,
      Expression.forgetArguments_bindArgumentsIn scopes rest]
  | some argument :: rest => by
    simp [Expression.bindArgumentsIn, Expression.forgetArguments, Expression.forget_bindIn scopes argument,
      Expression.forgetArguments_bindArgumentsIn scopes rest]

theorem Expression.forgetEntries_bindEntriesIn (scopes : List Scope) :
    (entries : List (String × Expression)) →
      Expression.forgetEntries (Expression.bindEntriesIn scopes entries) = Expression.forgetEntries entries
  | [] => rfl
  | (_, value) :: rest => by
    simp [Expression.bindEntriesIn, Expression.forgetEntries, Expression.forget_bindIn scopes value,
      Expression.forgetEntries_bindEntriesIn scopes rest]

end

mutual

theorem Expression.forget_of_fresh : (expression : Expression) → Fresh expression.references →
    expression.forget = expression
  | .const .., _ => rfl
  | .get _ reference, fresh => by
    simp only [Expression.references, fresh_singleton] at fresh
    simp [Expression.forget, Reference.forget_of_fresh fresh]
  | .call _ receiver arguments, fresh => by
    simp only [Expression.references, fresh_append] at fresh
    simp [Expression.forget, Expression.forget_of_fresh receiver fresh.1,
      Expression.forgetArguments_of_fresh arguments fresh.2]
  | .object _ entries, fresh => by
    simp [Expression.forget, Expression.forgetEntries_of_fresh entries fresh]
  | .set _ target value, fresh => by
    simp only [Expression.references, fresh_append, fresh_singleton] at fresh
    simp [Expression.forget, Reference.forget_of_fresh fresh.2, Expression.forget_of_fresh value fresh.1]
  | .getProperty _ receiver _, fresh => by
    simp [Expression.forget, Expression.forget_of_fresh receiver fresh]
  | .setProperty _ receiver _ value, fresh => by
    simp only [Expression.references, fresh_append] at fresh
    simp [Expression.forget, Expression.forget_of_fresh receiver fresh.1,
      Expression.forget_of_fresh value fresh.2]

theorem Expression.forgetArguments_of_fresh : (arguments : List (Option Expression)) →
    Fresh (Expression.argumentReferences arguments) → Expression.forgetArguments arguments = arguments
  | [], _ => rfl
  | none :: rest, fresh => by
    simp [Expression.forgetArguments, Expression.forgetArguments_of_fresh rest fresh]
  | some argument :: rest, fresh => by
    simp only [Expression.argumentReferences, fresh_append] at fresh
    simp [Expression.forgetArguments, Expression.forget_of_fresh argument fresh.1,
      Expression.forgetArguments_of_fresh rest fresh.2]

theorem Expression.forgetEntries_of_fresh : (entries : List (String × Expression)) →
    Fresh (Expression.entryReferences entries) → Expression.forgetEntries entries = entries
  | [], _ => rfl
  | (_, value) :: rest, fresh => by
    simp only [Expression.entryReferences, fresh_append] at fresh
    simp [Expression.forgetEntries, Expression.forget_of_fresh value fresh.1,
      Expression.forgetEntries_of_fresh rest fresh.2]

end

/-- Every reference of an expression bound in some scopes is settled in them. -/
theorem Expression.settledIn_bindIn (scopes : List Scope) (expression : Expression) :
    ∀ reference ∈ (expression.bindIn scopes).references, reference.SettledIn scopes := by
  intro reference member
  rw [Expression.references_bindIn] at member
  obtain ⟨original, _, rfl⟩ := List.mem_map.mp member
  exact .inr rfl

/-! ## Statements

Statements are bound in scopes that grow by the declarations before them, which binding keeps, so
the statements before a statement matter only through their declarations (`bindListIn_congr`). -/

theorem declarationScope_append_bindIn (before : List Statement) (statement : Statement)
    (outer : List Scope) (here : Scope) :
    declarationScope (before ++ [statement.bindIn outer here]) =
      declarationScope (before ++ [statement]) := by
  simp only [declarationScope, List.filterMap_append, List.filterMap_cons, List.filterMap_nil,
    Statement.binding?_bindIn]

theorem Statement.bindListIn_congr {outer : List Scope} {base : Scope} :
    (statements : List Statement) → {first second : List Statement} →
      declarationScope first = declarationScope second →
      Statement.bindListIn outer base first statements = Statement.bindListIn outer base second statements
  | [], _, _, _ => rfl
  | statement :: rest, first, second, same => by
    have later : declarationScope (first ++ [statement]) = declarationScope (second ++ [statement]) := by
      simp only [declarationScope, List.filterMap_append, List.reverse_append] at same ⊢
      rw [List.reverse_inj.mp same]
    simp only [Statement.bindListIn, same, Statement.bindListIn_congr rest later]

theorem Statement.listUnknownsIn_congr {outer : List Scope} {base : Scope} :
    (statements : List Statement) → {first second : List Statement} →
      declarationScope first = declarationScope second →
      Statement.listUnknownsIn outer base first statements =
        Statement.listUnknownsIn outer base second statements
  | [], _, _, _ => rfl
  | statement :: rest, first, second, same => by
    have later : declarationScope (first ++ [statement]) = declarationScope (second ++ [statement]) := by
      simp only [declarationScope, List.filterMap_append, List.reverse_append] at same ⊢
      rw [List.reverse_inj.mp same]
    simp only [Statement.listUnknownsIn, same, Statement.listUnknownsIn_congr rest later]

mutual

theorem Statement.bindIn_bindIn (outer : List Scope) (here : Scope) :
    (statement : Statement) → (statement.bindIn outer here).bindIn outer here = statement.bindIn outer here
  | .function id name span parameters bodyId bodySpan body => by
    simp only [Statement.bindIn, Statement.bindListIn_bindListIn]
  | .variable _ _ _ (some initializer) => by
    simp [Statement.bindIn, Expression.bindIn_bindIn]
  | .variable _ _ _ none => rfl
  | .expression value => by simp [Statement.bindIn, Expression.bindIn_bindIn]

theorem Statement.bindListIn_bindListIn (outer : List Scope) (base : Scope) :
    (before statements : List Statement) →
      Statement.bindListIn outer base before (Statement.bindListIn outer base before statements) =
        Statement.bindListIn outer base before statements
  | _, [] => rfl
  | before, statement :: rest => by
    simp only [Statement.bindListIn, Statement.bindIn_bindIn,
      Statement.bindListIn_congr _ (declarationScope_append_bindIn before statement outer _),
      Statement.bindListIn_bindListIn outer base (before ++ [statement]) rest]

end

mutual

theorem Statement.unknownsIn_bindIn (outer : List Scope) (here : Scope) :
    (statement : Statement) →
      (statement.bindIn outer here).unknownsIn outer here = statement.unknownsIn outer here
  | .function id name span parameters bodyId bodySpan body => by
    simp only [Statement.bindIn, Statement.unknownsIn, Statement.listUnknownsIn_bindListIn]
  | .variable _ _ _ (some initializer) => by
    simp [Statement.bindIn, Statement.unknownsIn, Expression.unknownsIn_bindIn]
  | .variable _ _ _ none => rfl
  | .expression value => by simp [Statement.bindIn, Statement.unknownsIn, Expression.unknownsIn_bindIn]

theorem Statement.listUnknownsIn_bindListIn (outer : List Scope) (base : Scope) :
    (before statements : List Statement) →
      Statement.listUnknownsIn outer base before (Statement.bindListIn outer base before statements) =
        Statement.listUnknownsIn outer base before statements
  | _, [] => rfl
  | before, statement :: rest => by
    simp only [Statement.bindListIn, Statement.listUnknownsIn, Statement.unknownsIn_bindIn,
      Statement.listUnknownsIn_congr _ (declarationScope_append_bindIn before statement outer _),
      Statement.listUnknownsIn_bindListIn outer base (before ++ [statement]) rest]

end

mutual

theorem Statement.forget_bindIn (outer : List Scope) (here : Scope) :
    (statement : Statement) → (statement.bindIn outer here).forget = statement.forget
  | .function id name span parameters bodyId bodySpan body => by
    simp only [Statement.bindIn, Statement.forget, Statement.forgetList_bindListIn]
  | .variable _ _ _ (some initializer) => by
    simp [Statement.bindIn, Statement.forget, Expression.forget_bindIn]
  | .variable _ _ _ none => rfl
  | .expression value => by simp [Statement.bindIn, Statement.forget, Expression.forget_bindIn]

theorem Statement.forgetList_bindListIn (outer : List Scope) (base : Scope) :
    (before statements : List Statement) →
      Statement.forgetList (Statement.bindListIn outer base before statements) =
        Statement.forgetList statements
  | _, [] => rfl
  | before, statement :: rest => by
    simp only [Statement.bindListIn, Statement.forgetList, Statement.forget_bindIn,
      Statement.forgetList_bindListIn outer base (before ++ [statement]) rest]

end

mutual

theorem Statement.forget_of_fresh : (statement : Statement) → Fresh statement.references →
    statement.forget = statement
  | .function id name span parameters bodyId bodySpan body, fresh => by
    simp only [Statement.references] at fresh
    simp only [Statement.forget, Statement.forgetList_of_fresh body fresh]
  | .variable _ _ _ (some initializer), fresh => by
    simp only [Statement.references] at fresh
    simp [Statement.forget, Expression.forget_of_fresh initializer fresh]
  | .variable _ _ _ none, _ => rfl
  | .expression value, fresh => by
    simp only [Statement.references] at fresh
    simp [Statement.forget, Expression.forget_of_fresh value fresh]

theorem Statement.forgetList_of_fresh : (statements : List Statement) →
    Fresh (Statement.listReferences statements) → Statement.forgetList statements = statements
  | [], _ => rfl
  | statement :: rest, fresh => by
    simp only [Statement.listReferences, fresh_append] at fresh
    simp only [Statement.forgetList, Statement.forget_of_fresh statement fresh.1,
      Statement.forgetList_of_fresh rest fresh.2]

end

mutual

theorem Statement.settledIn_bindIn (outer : List Scope) (here : Scope) :
    (statement : Statement) → (statement.bindIn outer here).SettledIn outer here
  | .function id name span parameters bodyId bodySpan body => by
    simpa only [Statement.bindIn, Statement.SettledIn, declarationScope, List.filterMap_nil,
      List.reverse_nil, List.nil_append] using Statement.listSettledIn_bindListIn _ _ [] body
  | .variable _ _ _ (some initializer) => Expression.settledIn_bindIn _ initializer
  | .variable _ _ _ none => by simp only [Statement.bindIn, Statement.SettledIn]
  | .expression value => Expression.settledIn_bindIn _ value

theorem Statement.listSettledIn_bindListIn (outer : List Scope) (base : Scope) :
    (before statements : List Statement) →
      Statement.ListSettledIn outer (declarationScope before ++ base)
        (Statement.bindListIn outer base before statements)
  | _, [] => by simp only [Statement.bindListIn, Statement.ListSettledIn]
  | before, statement :: rest => by
    simp only [Statement.bindListIn, Statement.ListSettledIn, Statement.binding?_bindIn]
    refine ⟨Statement.settledIn_bindIn _ _ statement, ?_⟩
    rw [← declarationScope_append_singleton]
    exact Statement.listSettledIn_bindListIn outer base (before ++ [statement]) rest

end

/-! ## Files -/

theorem File.functionScope_bindLexically (file : File) :
    file.bindLexically.functionScope = file.functionScope := by
  simp only [File.functionScope, File.functionDeclarations_bindLexically]

theorem File.settled_bindLexically (file : File) : file.bindLexically.Settled := by
  have settled := Statement.listSettledIn_bindListIn [] file.functionScope [] file.statements
  simp only [declarationScope, List.filterMap_nil, List.reverse_nil, List.nil_append] at settled
  show Statement.ListSettledIn [] file.bindLexically.functionScope
    (Statement.bindListIn [] file.functionScope [] file.statements)
  rwa [File.functionScope_bindLexically]

theorem File.bindLexically_bindLexically (file : File) :
    file.bindLexically.bindLexically = file.bindLexically := by
  have scope := File.functionScope_bindLexically file
  simp only [File.bindLexically] at scope ⊢
  rw [scope, Statement.bindListIn_bindListIn]

theorem File.unknownNames_bindLexically (file : File) :
    file.bindLexically.unknownNames = file.unknownNames := by
  have scope := File.functionScope_bindLexically file
  simp only [File.unknownNames, File.bindLexically] at scope ⊢
  rw [scope, Statement.listUnknownsIn_bindListIn]

theorem File.forget_bindLexically (file : File) : file.bindLexically.forget = file.forget := by
  simp only [File.forget, File.bindLexically, Statement.forgetList_bindListIn]

theorem File.forget_of_fresh {file : File} (fresh : Fresh file.references) : file.forget = file := by
  simp only [File.forget, Statement.forgetList_of_fresh _ fresh]

/-- A resolved file resolves to itself, with the same reports. -/
theorem File.resolve_bindLexically (file : File) (reports : Diagnostics) :
    file.bindLexically.resolve reports = (file.bindLexically, reports ++ file.unknownNames) := by
  rw [File.resolve_of_settled _ reports (File.settled_bindLexically file),
    File.bindLexically_bindLexically, File.unknownNames_bindLexically]

/-! ## Steps -/

/-- One step on a file as built or as resolved once: resolving gives the resolved file with its
reports added, forgetting gives the file as built. -/
theorem Step.apply_of_fresh {file current : File} (fresh : Fresh file.references)
    (reached : current = file ∨ current = file.bindLexically) (step : Step) (reports : Diagnostics) :
    step.apply current reports =
      match step with
      | .resolve => (file.bindLexically, reports ++ file.unknownNames, none)
      | .reset => (file, reports, some current.resolvedCount) := by
  cases step with
  | resolve =>
    rcases reached with rfl | rfl
    · simp [Step.apply, current.resolve_of_settled reports (File.settled_of_fresh fresh)]
    · simp [Step.apply, File.resolve_bindLexically]
  | reset =>
    -- The file as built has nothing to forget, and the resolved file forgets back to it.
    have forgotten : current.forget = file := by
      rcases reached with rfl | rfl
      · exact File.forget_of_fresh fresh
      · rw [File.forget_bindLexically, File.forget_of_fresh fresh]
    simp [Step.apply, forgotten]

/-- A run of steps from the file as built meets only that file and the file resolved once, so each
resolve gives the resolved file and adds the reports of its unknown names, and each reset gives the
file as built and adds nothing. By induction on the requests, through `Step.apply_of_fresh`. -/
theorem runSteps_of_fresh {α : Type} {file : File} (fresh : Fresh file.references)
    (select : α → Option Step) :
    ∀ (requests : List α) (current : File) (reports : Diagnostics),
      (current = file ∨ current = file.bindLexically) →
      ∀ outcome ∈ runSteps select current reports requests,
        ∀ request step cleared messages result, outcome = .done request step cleared messages result →
          (step = .resolve →
            result = file.bindLexically ∧ messages = file.unknownNames.map (·.message)) ∧
          (step = .reset → result = file ∧ messages = [])
  | [], _, _, _, _, member => absurd member List.not_mem_nil
  | request :: rest, current, reports, reached, outcome, member => by
    unfold runSteps at member
    cases selected : select request with
    | none =>
      simp only [selected, List.mem_singleton] at member
      subst member
      intro _ _ _ _ _ same
      cases same
    | some step =>
      simp only [selected, Step.apply_of_fresh fresh reached step reports] at member
      cases step with
      | resolve =>
        rcases List.mem_cons.mp member with rfl | later
        · intro _ _ _ _ _ same
          obtain ⟨-, rfl, -, rfl, rfl⟩ := StepOutcome.done.inj same
          simp
        · exact runSteps_of_fresh fresh select rest _ _ (.inr rfl) outcome later
      | reset =>
        rcases List.mem_cons.mp member with rfl | later
        · intro _ _ _ _ _ same
          obtain ⟨-, rfl, -, rfl, rfl⟩ := StepOutcome.done.inj same
          simp
        · exact runSteps_of_fresh fresh select rest _ _ (.inl rfl) outcome later

/-! ## Resolving a built file again -/

/-- Resolution of `file` can be run again: a first resolution gives a file `resolved` and adds the
reports `added`, whatever reports come before; resolving `resolved` again, or forgetting its bindings
and resolving it, gives `resolved` back and adds `added` once more; and in any run of resolve and
reset steps from `file`, each resolve gives `resolved` and adds the messages of `added`, and each
reset gives `file` and adds none. -/
def File.ResolvesAgain (file : File) : Prop :=
  ∃ (resolved : File) (added : List Diagnostic),
    (∀ reports, file.resolve reports = (resolved, reports ++ added)) ∧
    (∀ reports, resolved.resolve reports = (resolved, reports ++ added)) ∧
    (∀ reports, resolved.forget.resolve reports = (resolved, reports ++ added)) ∧
    ∀ {α : Type} (select : α → Option Step) (requests : List α) (reports : Diagnostics),
      ∀ outcome ∈ runSteps select file reports requests,
        ∀ request step cleared messages result, outcome = .done request step cleared messages result →
          (step = .resolve → result = resolved ∧ messages = added.map (·.message)) ∧
          (step = .reset → result = file ∧ messages = [])

/-- Every file the builder makes, from any syntax tree, can be resolved again: the resolved file is
its lexical binding and the added reports are its unknown names. -/
theorem File.resolve_again {source : List Char} {name : String} {tree : SyntaxTree}
    {reports built : Diagnostics} {file : File}
    (builds : File.build source name tree reports = .ok (file, built)) : file.ResolvesAgain := by
  have fresh := File.build_fresh builds
  refine ⟨file.bindLexically, file.unknownNames, fun first => file.resolve_of_settled first (File.settled_of_fresh fresh),
    File.resolve_bindLexically file, fun again => ?_,
    fun select requests start => runSteps_of_fresh fresh select requests file start (.inl rfl)⟩
  rw [File.forget_bindLexically, File.forget_of_fresh fresh]
  exact file.resolve_of_settled again (File.settled_of_fresh fresh)

/-- The source `x;`, which uses a name declared nowhere. -/
def unknownNameSource : List Char := "x;".toList

/-- The syntax tree of `x;`. -/
def unknownNameTree : SyntaxTree :=
  .node .file (.range 0 2) [.node .reference (.range 0 1) [.node .identifier (.range 0 1) []],
    .node .semicolon (.range 1 2) []]

/-- The file built from `x;`. -/
def unknownNameFile : File where
  id := 0
  name := "x.js"
  span := .range 0 2
  statements := [.expression (.get (.range 0 1) { name := "x", span := .range 0 1 })]

theorem resolve_again_unknownName :
    File.build unknownNameSource "x.js" unknownNameTree #[] = .ok (unknownNameFile, #[]) ∧
      unknownNameFile.ResolvesAgain := by
  have builds : File.build unknownNameSource "x.js" unknownNameTree #[] = .ok (unknownNameFile, #[]) := by
    simp [File.build, convertStatements, convertStatement, convertExpression, convertReference,
      identifierName?, SyntaxTree.childList, SyntaxTree.childOfKind?, SyntaxTree.kind, SyntaxTree.span,
      SyntaxTree.children, textOf, SyntaxTree.text, freshId, unknownNameTree, unknownNameSource]
    rfl
  exact ⟨builds, File.resolve_again builds⟩

example : unknownNameFile.unknownNames.map (·.message) = ["Unknown reference to x"] := by decide

end ScriptLowering.Hir
