import ScriptLowering.Proofs.LexicalScope

/-! # The declarations of a file

Every function, parameter and variable of a file is a declaration, named and carrying an
identity. This module lists them in walk order, a function before its parameters and the
declarations of its body, and shows what binding names lexically does to them: it keeps them,
and it binds every reference to one of them or to a built-in function, under the reference's own
name (`File.candidate_mem`).
-/

namespace ScriptLowering.Hir

/-- The identity of a declared function, parameter or variable; a built-in function has none. -/
def Resolution.id? : Resolution → Option Nat
  | .function id | .parameter id | .variable id => some id
  | .builtin _ => none

mutual

/-- The declarations of a statement with their names, in walk order. -/
def Statement.declarations : Statement → List (String × Resolution)
  | .function id name _ parameters _ _ body =>
    (name, .function id) ::
      ((parameters.map fun parameter => (parameter.name, Resolution.parameter parameter.id)) ++
        Statement.listDeclarations body)
  | .variable id name _ _ => [(name, .variable id)]
  | .expression _ => []

/-- The declarations of statements, in order. -/
def Statement.listDeclarations : List Statement → List (String × Resolution)
  | [] => []
  | statement :: rest => statement.declarations ++ Statement.listDeclarations rest

end

/-- The declarations of a file, in walk order. -/
def File.declarations (file : File) : List (String × Resolution) :=
  Statement.listDeclarations file.statements

/-- The identities of some declarations, in order. -/
def identities (declarations : List (String × Resolution)) : List Nat :=
  declarations.filterMap (·.2.id?)

@[simp] theorem identities_nil : identities [] = [] := rfl

@[simp] theorem identities_append (first second : List (String × Resolution)) :
    identities (first ++ second) = identities first ++ identities second := by
  simp [identities, List.filterMap_append]

@[simp] theorem identities_cons_function (name : String) (id : Nat)
    (rest : List (String × Resolution)) :
    identities ((name, .function id) :: rest) = id :: identities rest := by
  simp [identities, Resolution.id?]

@[simp] theorem identities_cons_variable (name : String) (id : Nat)
    (rest : List (String × Resolution)) :
    identities ((name, .variable id) :: rest) = id :: identities rest := by
  simp [identities, Resolution.id?]

@[simp] theorem identities_parameters (parameters : List Parameter) :
    identities (parameters.map fun parameter => (parameter.name, Resolution.parameter parameter.id)) =
      parameters.map (·.id) := by
  induction parameters with
  | nil => rfl
  | cons parameter rest ih =>
    rw [List.map_cons, List.map_cons, ← ih]
    rfl

@[simp] theorem Statement.identities_function (id : Nat) (name : String) (span : Span)
    (parameters : List Parameter) (bodyId : Nat) (bodySpan : Span) (body : List Statement) :
    identities (Statement.function id name span parameters bodyId bodySpan body).declarations =
      id :: (parameters.map (·.id) ++ identities (Statement.listDeclarations body)) := by
  simp [Statement.declarations]

@[simp] theorem Statement.identities_variable (id : Nat) (name : String) (span : Span)
    (initializer : Option Expression) :
    identities (Statement.variable id name span initializer).declarations = [id] := by
  simp [Statement.declarations]

@[simp] theorem Statement.identities_expression (value : Expression) :
    identities (Statement.expression value).declarations = [] := rfl

@[simp] theorem Statement.identities_listDeclarations_nil :
    identities (Statement.listDeclarations []) = [] := rfl

@[simp] theorem Statement.identities_listDeclarations_cons (statement : Statement)
    (rest : List Statement) :
    identities (Statement.listDeclarations (statement :: rest)) =
      identities statement.declarations ++ identities (Statement.listDeclarations rest) := by
  simp [Statement.listDeclarations]

mutual

theorem Statement.id?_isSome_of_mem_declarations :
    (statement : Statement) → ∀ declaration ∈ statement.declarations, declaration.2.id?.isSome
  | .function id name _ parameters _ _ body, declaration, member => by
    simp only [Statement.declarations, List.mem_cons, List.mem_append, List.mem_map] at member
    rcases member with rfl | ⟨parameter, _, rfl⟩ | inBody
    · rfl
    · rfl
    · exact Statement.id?_isSome_of_mem_listDeclarations body declaration inBody
  | .variable id name _ _, declaration, member => by
    simp only [Statement.declarations, List.mem_singleton] at member
    subst member
    rfl
  | .expression _, _, member => by simp [Statement.declarations] at member

theorem Statement.id?_isSome_of_mem_listDeclarations :
    (statements : List Statement) → ∀ declaration ∈ Statement.listDeclarations statements,
      declaration.2.id?.isSome
  | [], _, member => by simp [Statement.listDeclarations] at member
  | statement :: rest, declaration, member => by
    rcases List.mem_append.mp member with inFirst | inRest
    · exact statement.id?_isSome_of_mem_declarations declaration inFirst
    · exact Statement.id?_isSome_of_mem_listDeclarations rest declaration inRest

end

/-- Every declaration of a file has an identity, so the file has as many identities as
declarations. -/
theorem File.length_identities (file : File) :
    (identities file.declarations).length = file.declarations.length :=
  List.filterMap_length_eq_length.mpr
    (Statement.id?_isSome_of_mem_listDeclarations file.statements)

/-- Among declarations with distinct identities, the identity determines the declaration. -/
theorem eq_of_id?_eq {declarations : List (String × Resolution)}
    (distinct : (identities declarations).Nodup) {first second : String × Resolution}
    (firstIn : first ∈ declarations) (secondIn : second ∈ declarations) {id : Nat}
    (firstId : first.2.id? = some id) (secondId : second.2.id? = some id) : first = second := by
  induction declarations with
  | nil => simp at firstIn
  | cons head rest ih =>
    -- The identity of the head, if it has one, occurs nowhere in the rest.
    have headFresh : ∀ declaration ∈ rest, ∀ headId, head.2.id? = some headId →
        declaration.2.id? ≠ some headId := by
      intro declaration member headId headIs same
      simp only [identities, List.filterMap_cons, headIs, List.nodup_cons] at distinct
      exact distinct.1 (List.mem_filterMap.mpr ⟨declaration, member, same⟩)
    have restDistinct : (identities rest).Nodup := by
      simp only [identities, List.filterMap_cons] at distinct
      split at distinct
      · exact distinct
      · exact (List.nodup_cons.mp distinct).2
    rcases List.mem_cons.mp firstIn with rfl | firstRest <;>
      rcases List.mem_cons.mp secondIn with rfl | secondRest
    · rfl
    · exact absurd secondId (headFresh second secondRest id firstId)
    · exact absurd firstId (headFresh first firstRest id secondId)
    · exact ih restDistinct firstRest secondRest

/-! ## Binding keeps the declarations -/

theorem Statement.binding?_bindIn (outer : List Scope) (here : Scope) (statement : Statement) :
    (statement.bindIn outer here).binding? = statement.binding? := by
  match statement with
  | .function .. | .variable _ _ _ (some _) | .variable _ _ _ none | .expression _ => rfl

theorem Statement.binding?_mem_declarations {statement : Statement} {binding : String × Resolution}
    (binds : statement.binding? = some binding) : binding ∈ statement.declarations := by
  cases statement <;> simp_all [Statement.binding?, Statement.declarations]

mutual

theorem Statement.declarations_bindIn (outer : List Scope) (here : Scope) :
    (statement : Statement) → (statement.bindIn outer here).declarations = statement.declarations
  | .function id name span parameters bodyId bodySpan body => by
    simp only [Statement.bindIn, Statement.declarations, Statement.listDeclarations_bindListIn]
  | .variable id name span (some initializer) => rfl
  | .variable id name span none => rfl
  | .expression value => rfl

theorem Statement.listDeclarations_bindListIn (outer : List Scope) (base : Scope) :
    (before statements : List Statement) →
      Statement.listDeclarations (Statement.bindListIn outer base before statements) =
        Statement.listDeclarations statements
  | _, [] => rfl
  | before, statement :: rest => by
    simp only [Statement.bindListIn, Statement.listDeclarations, Statement.declarations_bindIn,
      Statement.listDeclarations_bindListIn outer base (before ++ [statement]) rest]

end

theorem File.declarations_bindLexically (file : File) :
    file.bindLexically.declarations = file.declarations :=
  Statement.listDeclarations_bindListIn [] file.functionScope [] file.statements

theorem File.functionDeclarations_bindLexically (file : File) :
    file.bindLexically.functionDeclarations = file.functionDeclarations := by
  simp only [File.functionDeclarations, File.bindLexically]
  generalize file.functionScope = scope
  generalize file.statements = statements
  generalize ([] : List Statement) = before
  -- Binding changes no statement's kind, identity or name.
  induction statements generalizing before with
  | nil => rfl
  | cons statement rest ih =>
    simp only [Statement.bindListIn, List.filterMap_cons, ih]
    rcases statement with _ | ⟨_, _, _, _ | _⟩ | _ <;> rfl

theorem Statement.mem_listDeclarations_of_mem {statements : List Statement} {statement : Statement}
    (member : statement ∈ statements) {declaration : String × Resolution}
    (declared : declaration ∈ statement.declarations) :
    declaration ∈ Statement.listDeclarations statements := by
  induction statements with
  | nil => simp at member
  | cons first rest ih =>
    rcases List.mem_cons.mp member with rfl | later
    · exact List.mem_append_left _ declared
    · exact List.mem_append_right _ (ih later)

/-- The functions declared directly among some statements are among their declarations, in
order. -/
theorem functionIdentities_sublist (statements : List Statement) :
    ((statements.filterMap fun
        | .function id name .. => some (id, name)
        | _ => none).map (·.1)).Sublist (identities (Statement.listDeclarations statements)) := by
  induction statements with
  | nil => exact .slnil
  | cons statement rest ih =>
    simp only [List.filterMap_cons, Statement.identities_listDeclarations_cons]
    match statement with
    | .function id name span parameters bodyId bodySpan body =>
      simp only [List.map_cons, Statement.identities_function, List.cons_append]
      exact ih.trans (List.sublist_append_right _ _) |>.cons_cons id
    | .variable .. | .expression _ => exact ih.trans (List.sublist_append_right _ _)

theorem File.functionIdentities_sublist (file : File) :
    (file.functionDeclarations.map (·.1)).Sublist (identities file.declarations) :=
  Hir.functionIdentities_sublist file.statements

/-! ## Binding binds to declarations -/

mutual

theorem Expression.references_bindIn (scopes : List Scope) :
    (expression : Expression) →
      (expression.bindIn scopes).references = expression.references.map (Reference.bindIn scopes)
  | .const .. => rfl
  | .get .. => rfl
  | .call _ receiver arguments => by
    simp [Expression.bindIn, Expression.references, Expression.references_bindIn scopes receiver,
      Expression.argumentReferences_bindIn scopes arguments]
  | .object _ entries => by
    simp [Expression.bindIn, Expression.references, Expression.entryReferences_bindIn scopes entries]
  | .set _ target value => by
    simp [Expression.bindIn, Expression.references, Expression.references_bindIn scopes value]
  | .getProperty _ receiver _ => by
    simp [Expression.bindIn, Expression.references, Expression.references_bindIn scopes receiver]
  | .setProperty _ receiver _ value => by
    simp [Expression.bindIn, Expression.references, Expression.references_bindIn scopes receiver,
      Expression.references_bindIn scopes value]

theorem Expression.argumentReferences_bindIn (scopes : List Scope) :
    (arguments : List (Option Expression)) →
      Expression.argumentReferences (Expression.bindArgumentsIn scopes arguments) =
        (Expression.argumentReferences arguments).map (Reference.bindIn scopes)
  | [] => rfl
  | none :: rest => by
    simp [Expression.bindArgumentsIn, Expression.argumentReferences,
      Expression.argumentReferences_bindIn scopes rest]
  | some argument :: rest => by
    simp [Expression.bindArgumentsIn, Expression.argumentReferences,
      Expression.references_bindIn scopes argument, Expression.argumentReferences_bindIn scopes rest]

theorem Expression.entryReferences_bindIn (scopes : List Scope) :
    (entries : List (String × Expression)) →
      Expression.entryReferences (Expression.bindEntriesIn scopes entries) =
        (Expression.entryReferences entries).map (Reference.bindIn scopes)
  | [] => rfl
  | (_, value) :: rest => by
    simp [Expression.bindEntriesIn, Expression.entryReferences,
      Expression.references_bindIn scopes value, Expression.entryReferences_bindIn scopes rest]

end

/-- The binding visible under a name is one of the bindings in scope, made under that name. -/
theorem mem_of_visibleBinding {scopes : List Scope} {name : String} {declaration : Resolution}
    (visible : visibleBinding scopes name = some declaration) :
    (name, declaration) ∈ scopes.flatten ++ builtinScope := by
  obtain ⟨binding, found, rfl⟩ := Option.map_eq_some_iff.mp visible
  have named : binding.1 = name := by simpa using List.find?_some found
  rw [← named]
  exact List.mem_of_find?_eq_some found

/-- Every reference of an expression bound in some scopes is bound, if at all, to a binding of
its name in those scopes or among the built-in functions. -/
theorem Expression.candidate_mem_of_bindIn {scopes : List Scope} {expression : Expression}
    {reference : Reference} (member : reference ∈ (expression.bindIn scopes).references)
    {declaration : Resolution} (bound : reference.candidate = some declaration) :
    (reference.name, declaration) ∈ scopes.flatten ++ builtinScope := by
  rw [Expression.references_bindIn] at member
  obtain ⟨original, _, rfl⟩ := List.mem_map.mp member
  exact mem_of_visibleBinding bound

section Candidates

/- `allowed` holds of the bindings a reference may be bound to: those in scope around a statement
and the statement's own declarations. -/
variable (allowed : String × Resolution → Prop)

mutual

theorem Statement.candidate_mem_of_bindIn (outer : List Scope) (here : Scope) :
    (statement : Statement) → (∀ binding ∈ (here :: outer).flatten, allowed binding) →
      (∀ declaration ∈ statement.declarations, allowed declaration) →
      ∀ reference ∈ (statement.bindIn outer here).references, ∀ declaration,
        reference.candidate = some declaration →
          allowed (reference.name, declaration) ∨ (reference.name, declaration) ∈ builtinScope
  | .function id name span parameters bodyId bodySpan body, visible, declared, reference, member,
      declaration, bound => by
    simp only [Statement.declarations, List.mem_cons, List.mem_append, forall_eq_or_imp] at declared
    -- The body sees the function's parameters and its own name above the enclosing scopes.
    have bodyScoped : ∀ binding ∈ ((declarationScope [] ++ parameterScope parameters) ::
        ((name, .function id) :: here) :: outer).flatten, allowed binding := by
      intro binding inBody
      simp only [declarationScope, List.filterMap_nil, List.reverse_nil, List.nil_append,
        parameterScope, List.flatten_cons, List.mem_append, List.mem_reverse, List.mem_cons] at inBody
      rcases inBody with parameter | (own | around) | around
      · exact declared.2 binding (.inl parameter)
      · exact own ▸ declared.1
      · exact visible binding (by simp [around])
      · exact visible binding (by simp [around])
    exact Statement.candidate_mem_of_bindListIn _ _ [] body bodyScoped
      (fun binding inBody => declared.2 binding (.inr inBody)) reference member declaration bound
  | .variable id name span (some initializer), _, _, reference, member, declaration, bound => by
    rcases List.mem_append.mp (Expression.candidate_mem_of_bindIn member bound) with inScope | builtin
    · exact .inl (‹∀ binding ∈ _, allowed binding› _ inScope)
    · exact .inr builtin
  | .variable id name span none, _, _, _, member, _, _ => by
    simp [Statement.bindIn, Statement.references] at member
  | .expression value, visible, _, reference, member, declaration, bound => by
    rcases List.mem_append.mp (Expression.candidate_mem_of_bindIn member bound) with inScope | builtin
    · exact .inl (visible _ inScope)
    · exact .inr builtin

theorem Statement.candidate_mem_of_bindListIn (outer : List Scope) (base : Scope) :
    (before statements : List Statement) →
      (∀ binding ∈ ((declarationScope before ++ base) :: outer).flatten, allowed binding) →
      (∀ declaration ∈ Statement.listDeclarations statements, allowed declaration) →
      ∀ reference ∈ Statement.listReferences (Statement.bindListIn outer base before statements),
        ∀ declaration, reference.candidate = some declaration →
          allowed (reference.name, declaration) ∨ (reference.name, declaration) ∈ builtinScope
  | _, [], _, _, _, member, _, _ => by simp [Statement.bindListIn, Statement.listReferences] at member
  | before, statement :: rest, visible, declared, reference, member, declaration, bound => by
    simp only [Statement.listDeclarations, List.mem_append] at declared
    simp only [Statement.bindListIn, Statement.listReferences, List.mem_append] at member
    -- The statements after `statement` also see the binding it adds.
    have restScoped : ∀ binding ∈ ((declarationScope (before ++ [statement]) ++ base) :: outer).flatten,
        allowed binding := by
      intro binding inRest
      rw [declarationScope_append_singleton, List.flatten_cons, List.append_assoc,
        List.mem_append] at inRest
      rcases inRest with added | earlier
      · exact declared binding (.inl (Statement.binding?_mem_declarations (Option.mem_toList.mp added)))
      · exact visible binding (by simpa using earlier)
    rcases member with inFirst | inRest
    · exact statement.candidate_mem_of_bindIn outer _ visible
        (fun declaration inFirst => declared declaration (.inl inFirst)) reference inFirst declaration
        bound
    · exact Statement.candidate_mem_of_bindListIn outer base (before ++ [statement]) rest restScoped
        (fun declaration inRest => declared declaration (.inr inRest)) reference inRest declaration bound

end

end Candidates

/-- After lexical binding, every reference of a file that is bound at all is bound to a
declaration of the file or to a built-in function, in either case one made under the
reference's own name. -/
theorem File.candidate_mem (file : File) :
    ∀ reference ∈ file.bindLexically.references, ∀ declaration,
      reference.candidate = some declaration →
        (reference.name, declaration) ∈ file.declarations ∨
          (reference.name, declaration) ∈ builtinScope := by
  -- The file scope holds the functions declared directly in the file.
  have topLevel : ∀ binding ∈ ((declarationScope [] ++ file.functionScope) :: []).flatten,
      binding ∈ file.declarations := by
    intro binding member
    simp only [declarationScope, List.filterMap_nil, List.reverse_nil, List.nil_append,
      List.flatten_cons, List.flatten_nil, List.append_nil, File.functionScope, List.mem_reverse,
      List.mem_map, File.functionDeclarations, List.mem_filterMap] at member
    obtain ⟨⟨id, name⟩, ⟨statement, isIn, selects⟩, rfl⟩ := member
    cases statement
    case function =>
      cases selects
      exact Statement.mem_listDeclarations_of_mem isIn (by simp [Statement.declarations])
    all_goals cases selects
  exact Statement.candidate_mem_of_bindListIn (· ∈ file.declarations) [] file.functionScope []
    file.statements topLevel (fun _ declared => declared)

end ScriptLowering.Hir
