import ScriptLowering.Proofs.BuiltFile
import ScriptLowering.Proofs.LexicalScope

/-! # Where the builder and the resolver report

Every diagnostic the builder records sits at the span of a node of the tree it reads: a
malformed literal or a bad character at its own node, a missing name, parameter list or body at
the node of the declaration, a bad key at its clause and a bad assignment target at the target.
Every reference it makes sits at the span of its reference node. So when every node of the tree
has a span of some kind, a good one (`SyntaxTree.SpansWithin`), the built file's diagnostics and
references are good too (`File.build_within`).

The resolver reports an unknown name at its reference, one report per reference at most and in
walk order (`File.unknownNames_spans`).
-/

namespace ScriptLowering

/-- Every node of a tree has a span that `good` holds of. -/
inductive SyntaxTree.SpansWithin (good : Span → Prop) : SyntaxTree → Prop
  | node {kind : SyntaxKind} {span : Span} {children : List SyntaxTree} (here : good span)
      (below : ∀ child ∈ children, SpansWithin good child) : SpansWithin good (.node kind span children)

namespace SyntaxTree

variable {good better : Span → Prop} {tree : SyntaxTree}

theorem SpansWithin.span (within : tree.SpansWithin good) : good tree.span := by
  cases within with
  | node here _ => exact here

theorem SpansWithin.child (within : tree.SpansWithin good) (child : tree.Child) : child.val.SpansWithin good := by
  obtain ⟨child, member⟩ := child
  cases within with
  | node _ below => exact below child member

theorem SpansWithin.mono (within : tree.SpansWithin good) (implies : ∀ span, good span → better span) :
    tree.SpansWithin better := by
  induction within with
  | node here _ ih => exact .node (implies _ here) ih

end SyntaxTree

namespace Hir

variable (good : Span → Prop)

/-- A builder state whose diagnostics all sit at spans `good` holds of. -/
def BuildState.ReportsWithin (state : BuildState) : Prop :=
  ∀ diagnostic ∈ state.reports.toList, good diagnostic.span

/-- References that all sit at spans `good` holds of. -/
def RefsWithin (references : List Reference) : Prop :=
  ∀ reference ∈ references, good reference.span

/-- An expression result whose references all sit at spans `good` holds of. -/
def ResultWithin (result : Option Expression) : Prop :=
  ∀ expression ∈ result, RefsWithin good expression.references

/-- A building step that, started with its diagnostics at spans `good` holds of, adds only such
diagnostics and returns a result that `fine` holds of. -/
def StaysWithin {α : Type} (fine : α → Prop) (step : BuildM α) : Prop :=
  ∀ before result after, step.run before = .ok (result, after) → before.ReportsWithin good →
    after.ReportsWithin good ∧ fine result

variable {good}

@[simp] theorem refsWithin_nil : RefsWithin good [] := fun _ member => absurd member List.not_mem_nil

@[simp] theorem refsWithin_append {first second : List Reference} :
    RefsWithin good (first ++ second) ↔ RefsWithin good first ∧ RefsWithin good second :=
  List.forall_mem_append

@[simp] theorem refsWithin_singleton {reference : Reference} :
    RefsWithin good [reference] ↔ good reference.span := by
  simp [RefsWithin]

@[simp] theorem resultWithin_none : ResultWithin good none := fun _ member => absurd member (Option.not_mem_none _)

@[simp] theorem resultWithin_some {expression : Expression} :
    ResultWithin good (some expression) ↔ RefsWithin good expression.references := by
  simp [ResultWithin]

theorem refsWithin_argumentReferences {arguments : List (Option Expression)}
    (each : ∀ argument ∈ arguments, ResultWithin good argument) :
    RefsWithin good (Expression.argumentReferences arguments) := by
  induction arguments with
  | nil => exact refsWithin_nil
  | cons argument rest ih =>
    have restWithin := ih fun other member => each other (List.mem_cons_of_mem _ member)
    cases argument with
    | none => exact restWithin
    | some argument => exact refsWithin_append.mpr ⟨each _ List.mem_cons_self argument rfl, restWithin⟩

theorem refsWithin_entryReferences {entries : List (String × Expression)}
    (each : ∀ entry ∈ entries, RefsWithin good entry.2.references) :
    RefsWithin good (Expression.entryReferences entries) := by
  induction entries with
  | nil => exact refsWithin_nil
  | cons entry rest ih =>
    exact refsWithin_append.mpr ⟨each entry List.mem_cons_self,
      ih fun other member => each other (List.mem_cons_of_mem _ member)⟩

theorem refsWithin_listReferences {statements : List Statement} :
    RefsWithin good (Statement.listReferences statements) ↔
      ∀ statement ∈ statements, RefsWithin good statement.references := by
  induction statements with
  | nil => simp [Statement.listReferences]
  | cons statement rest ih => simp [Statement.listReferences, ih]

/-- Recording a diagnostic at a good span keeps every diagnostic at a good span. -/
theorem BuildState.ReportsWithin.report {state : BuildState} (within : state.ReportsWithin good)
    {span : Span} (here : good span) (message : String) :
    ({ state with reports := state.reports.report span message } : BuildState).ReportsWithin good := by
  intro diagnostic member
  simp only [Diagnostics.report, Array.toList_push, List.mem_append, List.mem_singleton] at member
  rcases member with earlier | rfl
  · exact within diagnostic earlier
  · exact here

section Steps

variable {α : Type} {fine : α → Prop}

theorem pure_within {value : α} (holds : fine value) : StaysWithin good fine (pure value) := by
  intro before result after ran within
  obtain ⟨rfl, rfl⟩ := run_pure_eq_ok ran
  exact ⟨within, holds⟩

/-- A step that reports at a good span and then returns nothing stays within. -/
theorem report_then_none_within {span : Span} (here : good span) (message : String) :
    StaysWithin good (ResultWithin good) (reportAt span message >>= fun _ => pure none) := by
  intro before result after ran within
  rw [reportAt_bind] at ran
  obtain ⟨rfl, rfl⟩ := run_pure_eq_ok ran
  exact ⟨within.report here message, resultWithin_none⟩

theorem mapM_within {γ : Type} {convert : γ → BuildM α} {items : List γ}
    (each : ∀ item ∈ items, StaysWithin good fine (convert item)) :
    StaysWithin good (fun results => ∀ result ∈ results, fine result) (items.mapM convert) := by
  induction items with
  | nil => exact pure_within fun _ member => absurd member List.not_mem_nil
  | cons item rest ih =>
    intro before results after ran within
    rw [List.mapM_cons] at ran
    obtain ⟨first, middle, firstRan, ran⟩ := run_bind_eq_ok ran
    obtain ⟨others, last, restRan, ran⟩ := run_bind_eq_ok ran
    obtain ⟨rfl, rfl⟩ := run_pure_eq_ok ran
    obtain ⟨middleWithin, firstFine⟩ := each item List.mem_cons_self before first middle firstRan within
    obtain ⟨afterWithin, restFine⟩ :=
      ih (fun other member => each other (List.mem_cons_of_mem _ member)) middle others after restRan middleWithin
    refine ⟨afterWithin, fun result member => ?_⟩
    rcases List.mem_cons.mp member with rfl | later
    · exact firstFine
    · exact restFine result later

theorem foldlM_within {γ : Type} {step : α → γ → BuildM α} {items : List γ} (holds : α → Prop)
    (each : ∀ item ∈ items, ∀ accumulated, holds accumulated → StaysWithin good holds (step accumulated item)) :
    ∀ initial, holds initial → StaysWithin good holds (items.foldlM step initial) := by
  induction items with
  | nil => exact fun _ holdsInitial => pure_within holdsInitial
  | cons item rest ih =>
    intro initial holdsInitial before result after ran within
    rw [List.foldlM_cons] at ran
    obtain ⟨next, middle, firstRan, ran⟩ := run_bind_eq_ok ran
    obtain ⟨middleWithin, nextFine⟩ := each item List.mem_cons_self initial holdsInitial before next middle firstRan within
    exact ih (fun other member => each other (List.mem_cons_of_mem _ member)) next nextFine middle result after ran
      middleWithin

theorem filterMapM_within {γ : Type} {convert : γ → BuildM (Option α)} {items : List γ} (fine : α → Prop)
    (each : ∀ item ∈ items, StaysWithin good (fun result => ∀ kept ∈ result, fine kept) (convert item)) :
    StaysWithin good (fun results => ∀ kept ∈ results, fine kept) (items.filterMapM convert) := by
  induction items with
  | nil => exact pure_within fun _ member => absurd member List.not_mem_nil
  | cons item rest ih =>
    intro before results after ran within
    rw [List.filterMapM_cons] at ran
    obtain ⟨first, middle, firstRan, ran⟩ := run_bind_eq_ok ran
    obtain ⟨middleWithin, firstFine⟩ := each item List.mem_cons_self before first middle firstRan within
    have restWithin := ih fun other member => each other (List.mem_cons_of_mem _ member)
    -- A left-out item adds nothing to the results; a kept one goes in front of the rest.
    cases first with
    | none => exact restWithin middle results after ran middleWithin
    | some kept =>
      obtain ⟨others, last, restRan, finished⟩ := run_bind_eq_ok ran
      obtain ⟨rfl, rfl⟩ := run_pure_eq_ok finished
      obtain ⟨afterWithin, restFine⟩ := restWithin middle others after restRan middleWithin
      refine ⟨afterWithin, fun result member => ?_⟩
      rcases List.mem_cons.mp member with rfl | later
      · exact firstFine result rfl
      · exact restFine result later

end Steps

/-! ## The builder's reports and references -/

section Expressions

variable (source : List Char)

theorem convertReference_span {tree : SyntaxTree} {before after : BuildState} {reference : Reference}
    (ran : (convertReference source tree).run before = .ok (reference, after)) : reference.span = tree.span := by
  unfold convertReference at ran
  split at ran
  · obtain ⟨rfl, rfl⟩ := run_pure_eq_ok ran
    rfl
  · cases ran

/-- A property name is reported at its own node. -/
theorem propertyName?_within {tree : SyntaxTree} (within : tree.SpansWithin good) :
    StaysWithin good (fun _ => True) (propertyName? source tree) := by
  intro before name after ran beforeWithin
  unfold propertyName? at ran
  split at ran
  · split at ran
    · obtain ⟨_, rfl⟩ := run_pure_eq_ok ran
      exact ⟨beforeWithin, trivial⟩
    · rw [reportAt_bind] at ran
      obtain ⟨_, rfl⟩ := run_pure_eq_ok ran
      exact ⟨beforeWithin.report within.span _, trivial⟩
  · rw [reportAt_bind] at ran
    obtain ⟨_, rfl⟩ := run_pure_eq_ok ran
    exact ⟨beforeWithin.report within.span _, trivial⟩

mutual

theorem convertExpression_within (tree : SyntaxTree) (within : tree.SpansWithin good) :
    StaysWithin good (ResultWithin good) (convertExpression source tree) := by
  intro before result after ran beforeWithin
  rw [convertExpression] at ran
  split at ran
  · exact pure_within (by simp [Expression.references]) before result after ran beforeWithin
  · split at ran
    · exact pure_within (by simp [Expression.references]) before result after ran beforeWithin
    · exact report_then_none_within within.span _ before result after ran beforeWithin
  · split at ran
    · exact pure_within (by simp [Expression.references]) before result after ran beforeWithin
    · exact pure_within (by simp [Expression.references]) before result after ran beforeWithin
    · exact report_then_none_within within.span _ before result after ran beforeWithin
  · obtain ⟨reference, middle, referenced, finished⟩ := run_bind_eq_ok ran
    have placed := convertReference_span source referenced
    obtain ⟨-, rfl⟩ := convertReference_run source referenced
    refine pure_within ?_ _ result after finished beforeWithin
    simpa [Expression.references, placed] using within.span
  · exact convertCall_within tree within before result after ran beforeWithin
  · obtain ⟨object, objectRan, rfl⟩ := run_map_eq_ok ran
    obtain ⟨afterWithin, objectWithin⟩ := convertObject_within tree within before object after objectRan beforeWithin
    exact ⟨afterWithin, resultWithin_some.mpr objectWithin⟩
  · exact convertBinary_within tree within before result after ran beforeWithin
  · exact report_then_none_within within.span _ before result after ran beforeWithin
  · cases ran
termination_by sizeOf tree * 8 + 4

theorem convertCall_within (tree : SyntaxTree) (within : tree.SpansWithin good) :
    StaysWithin good (ResultWithin good) (convertCall source tree) := by
  intro before result after ran beforeWithin
  rw [convertCall] at ran
  split at ran
  · cases ran
  · next receiver _ =>
    have := SyntaxTree.sizeOf_lt_of_mem receiver.property
    obtain ⟨receiverResult, middle, receiverRan, ran⟩ := run_bind_eq_ok ran
    obtain ⟨middleWithin, receiverWithin⟩ :=
      convertExpression_within receiver.val (within.child receiver) before receiverResult middle receiverRan
        beforeWithin
    have call (arguments : List (Option Expression)) (argumentsWithin : ∀ argument ∈ arguments, ResultWithin good argument) :
        ResultWithin good (receiverResult.map (.call tree.span · arguments)) := by
      intro call member
      obtain ⟨receiverExpression, isReceiver, rfl⟩ := Option.map_eq_some_iff.mp member
      simp only [Expression.references, refsWithin_append]
      exact ⟨receiverWithin receiverExpression isReceiver, refsWithin_argumentReferences argumentsWithin⟩
    dsimp only at ran
    split at ran
    · next list _ =>
      have := SyntaxTree.sizeOf_lt_of_mem list.property
      obtain ⟨arguments, last, argumentsRan, finished⟩ := run_bind_eq_ok ran
      obtain ⟨rfl, rfl⟩ := run_pure_eq_ok finished
      -- Each argument slot is converted from a child of an argument node of the list.
      obtain ⟨afterWithin, argumentsWithin⟩ := mapM_within (fun argument _ => by
          have := SyntaxTree.sizeOf_lt_of_mem argument.property
          intro argumentBefore argumentResult argumentAfter argumentRan argumentBeforeWithin
          split at argumentRan
          · next value _ =>
            have := SyntaxTree.sizeOf_lt_of_mem value.property
            exact convertExpression_within value.val (((within.child list).child argument).child value)
              argumentBefore argumentResult argumentAfter argumentRan argumentBeforeWithin
          · exact pure_within resultWithin_none argumentBefore argumentResult argumentAfter argumentRan
              argumentBeforeWithin) middle arguments after argumentsRan middleWithin
      exact ⟨afterWithin, call arguments argumentsWithin⟩
    · obtain ⟨arguments, last, argumentsRan, finished⟩ := run_bind_eq_ok ran
      obtain ⟨rfl, rfl⟩ := run_pure_eq_ok argumentsRan
      obtain ⟨rfl, rfl⟩ := run_pure_eq_ok finished
      exact ⟨middleWithin, call [] fun _ member => absurd member List.not_mem_nil⟩
termination_by sizeOf tree * 8 + 3

theorem convertObject_within (tree : SyntaxTree) (within : tree.SpansWithin good) :
    StaysWithin good (fun object => RefsWithin good object.references) (convertObject source tree) := by
  intro before result after ran beforeWithin
  rw [convertObject] at ran
  obtain ⟨entries, middle, entriesRan, finished⟩ := run_bind_eq_ok ran
  obtain ⟨rfl, rfl⟩ := run_pure_eq_ok finished
  -- Every entry gathered so far has its references within; a bad key is reported at its clause.
  refine (foldlM_within (fun entries : List (String × Expression) => ∀ entry ∈ entries, RefsWithin good entry.2.references)
    (fun clause _ gathered gatheredWithin => ?_) [] (fun _ member => absurd member List.not_mem_nil) before entries
    after entriesRan beforeWithin).imp id fun entriesWithin => refsWithin_entryReferences entriesWithin
  have := SyntaxTree.sizeOf_lt_of_mem clause.property
  intro clauseBefore next clauseAfter clauseRan clauseBeforeWithin
  split at clauseRan
  · rw [reportAt_bind] at clauseRan
    obtain ⟨rfl, rfl⟩ := run_pure_eq_ok clauseRan
    exact ⟨clauseBeforeWithin.report (within.child clause).span _, gatheredWithin⟩
  · split at clauseRan
    · obtain ⟨rfl, rfl⟩ := run_pure_eq_ok clauseRan
      exact ⟨clauseBeforeWithin, gatheredWithin⟩
    · next holder _ =>
      have := SyntaxTree.sizeOf_lt_of_mem holder.property
      split at clauseRan
      · obtain ⟨rfl, rfl⟩ := run_pure_eq_ok clauseRan
        exact ⟨clauseBeforeWithin, gatheredWithin⟩
      · next value _ =>
        have := SyntaxTree.sizeOf_lt_of_mem value.property
        obtain ⟨converted, valueAfter, valueRan, added⟩ := run_bind_eq_ok clauseRan
        obtain ⟨valueAfterWithin, valueWithin⟩ :=
          convertExpression_within value.val (((within.child clause).child holder).child value) clauseBefore
            converted valueAfter valueRan clauseBeforeWithin
        cases converted with
        | none =>
          obtain ⟨rfl, rfl⟩ := run_pure_eq_ok added
          exact ⟨valueAfterWithin, gatheredWithin⟩
        | some expression =>
          have expressionWithin := valueWithin expression rfl
          dsimp only at added
          split at added
          · obtain ⟨rfl, rfl⟩ := run_pure_eq_ok added
            exact ⟨valueAfterWithin, forall_replaceEntry (fun value => RefsWithin good value.references) gatheredWithin
              expressionWithin⟩
          · obtain ⟨rfl, rfl⟩ := run_pure_eq_ok added
            exact ⟨valueAfterWithin,
              List.forall_mem_append.mpr ⟨gatheredWithin, List.forall_mem_singleton.mpr expressionWithin⟩⟩
termination_by sizeOf tree * 8 + 3

theorem convertBinary_within (tree : SyntaxTree) (within : tree.SpansWithin good) :
    StaysWithin good (ResultWithin good) (convertBinary source tree) := by
  intro before result after ran beforeWithin
  rw [convertBinary] at ran
  split at ran
  · next lhs operator _ _ =>
    split at ran
    · exact pure_within resultWithin_none before result after ran beforeWithin
    · next rhs _ =>
      have := SyntaxTree.sizeOf_lt_of_mem lhs.property
      have := SyntaxTree.sizeOf_lt_of_mem rhs.property
      split at ran
      · exact convertAssignment_within tree lhs rhs within before result after ran beforeWithin
      · obtain ⟨property, middle, propertyRan, ran⟩ := run_bind_eq_ok ran
        obtain ⟨middleWithin, -⟩ :=
          propertyName?_within source (within.child rhs) before property middle propertyRan beforeWithin
        split at ran
        · obtain ⟨rfl, rfl⟩ := run_pure_eq_ok ran
          exact ⟨middleWithin, resultWithin_none⟩
        · obtain ⟨receiver, last, receiverRan, finished⟩ := run_bind_eq_ok ran
          obtain ⟨lastWithin, receiverWithin⟩ :=
            convertExpression_within lhs.val (within.child lhs) middle receiver last receiverRan middleWithin
          cases receiver with
          | none =>
            obtain ⟨rfl, rfl⟩ := run_pure_eq_ok finished
            exact ⟨lastWithin, resultWithin_none⟩
          | some expression =>
            obtain ⟨rfl, rfl⟩ := run_pure_eq_ok finished
            exact ⟨lastWithin, by simpa [Expression.references] using receiverWithin expression rfl⟩
      · cases ran
  · cases ran
termination_by sizeOf tree * 8 + 2

theorem convertAssignment_within (tree : SyntaxTree) (target value : SyntaxTree.Child tree)
    (within : tree.SpansWithin good) :
    StaysWithin good (ResultWithin good) (convertAssignment source tree target value) := by
  intro before result after ran beforeWithin
  rw [convertAssignment] at ran
  have := SyntaxTree.sizeOf_lt_of_mem target.property
  have := SyntaxTree.sizeOf_lt_of_mem value.property
  have targetWithin := within.child target
  split at ran
  · obtain ⟨reference, middle, referenced, rest⟩ := run_bind_eq_ok ran
    have placed := convertReference_span source referenced
    obtain ⟨-, rfl⟩ := convertReference_run source referenced
    obtain ⟨written, last, valueRan, finished⟩ := run_bind_eq_ok rest
    obtain ⟨lastWithin, valueWithin⟩ :=
      convertExpression_within value.val (within.child value) _ written last valueRan beforeWithin
    obtain ⟨rfl, rfl⟩ := run_pure_eq_ok finished
    refine ⟨lastWithin, ?_⟩
    intro assignment member
    obtain ⟨expression, isSome, rfl⟩ := Option.map_eq_some_iff.mp member
    simp only [Expression.references, refsWithin_append, refsWithin_singleton, placed]
    exact ⟨valueWithin expression isSome, targetWithin.span⟩
  · -- A bad target is reported at the target itself.
    split at ran
    · split at ran
      · next receiver property _ _ =>
        have := SyntaxTree.sizeOf_lt_of_mem receiver.property
        obtain ⟨name, middle, nameRan, ran⟩ := run_bind_eq_ok ran
        obtain ⟨middleWithin, -⟩ :=
          propertyName?_within source (targetWithin.child property) before name middle nameRan beforeWithin
        split at ran
        · obtain ⟨rfl, rfl⟩ := run_pure_eq_ok ran
          exact ⟨middleWithin, resultWithin_none⟩
        · obtain ⟨receiverResult, receiverAfter, receiverRan, ran⟩ := run_bind_eq_ok ran
          obtain ⟨receiverAfterWithin, receiverWithin⟩ :=
            convertExpression_within receiver.val (targetWithin.child receiver) middle receiverResult receiverAfter
              receiverRan middleWithin
          obtain ⟨written, last, valueRan, finished⟩ := run_bind_eq_ok ran
          obtain ⟨lastWithin, valueWithin⟩ :=
            convertExpression_within value.val (within.child value) receiverAfter written last valueRan
              receiverAfterWithin
          obtain ⟨rfl, rfl⟩ := run_pure_eq_ok finished
          refine ⟨lastWithin, ?_⟩
          cases receiverResult with
          | none => exact resultWithin_none
          | some receiverExpression =>
            cases written with
            | none => exact resultWithin_none
            | some valueExpression =>
              simp only [resultWithin_some, Expression.references, refsWithin_append]
              exact ⟨receiverWithin _ rfl, valueWithin _ rfl⟩
      · exact pure_within resultWithin_none before result after ran beforeWithin
    · exact report_then_none_within targetWithin.span _ before result after ran beforeWithin
  · exact report_then_none_within targetWithin.span _ before result after ran beforeWithin
termination_by sizeOf tree * 8 + 1

end

/-! ## Statements -/

/-- Parameters are never reported. -/
theorem convertParameters_within (list : SyntaxTree) :
    StaysWithin good (fun _ => True) (convertParameters source list) := by
  intro before parameters after ran beforeWithin
  unfold convertParameters at ran
  refine ⟨(filterMapM_within (fun _ : Parameter => True) (fun parameter _ => ?_) before parameters after ran
    beforeWithin).1, trivial⟩
  intro parameterBefore result parameterAfter parameterRan parameterBeforeWithin
  split at parameterRan
  · rw [freshId_bind] at parameterRan
    obtain ⟨rfl, rfl⟩ := run_pure_eq_ok parameterRan
    exact ⟨parameterBeforeWithin, fun _ _ => trivial⟩
  · obtain ⟨rfl, rfl⟩ := run_pure_eq_ok parameterRan
    exact ⟨parameterBeforeWithin, fun _ _ => trivial⟩

/-- A variable's missing name is reported at the variable. -/
theorem convertVariable_within (tree : SyntaxTree) (within : tree.SpansWithin good) :
    StaysWithin good (fun statement => RefsWithin good statement.references) (convertVariable source tree) := by
  intro before statement after ran beforeWithin
  unfold convertVariable at ran
  rw [freshId_bind] at ran
  dsimp only at ran
  have counted : ({ before with nextId := before.nextId + 1 } : BuildState).ReportsWithin good := beforeWithin
  split at ran
  all_goals try rw [reportAt_bind] at ran
  all_goals
    obtain ⟨name, named, nameRan, initialized⟩ := run_bind_eq_ok ran
    obtain ⟨-, namedIs⟩ := run_pure_eq_ok nameRan
    have namedWithin : named.ReportsWithin good := by
      rw [namedIs]
      first
        | exact counted
        | exact counted.report within.span _
    split at initialized
    · next initializer _ =>
      obtain ⟨value, last, valueRan, finished⟩ := run_bind_eq_ok initialized
      obtain ⟨lastWithin, valueWithin⟩ :=
        convertExpression_within source initializer.val (within.child initializer) _ value last valueRan namedWithin
      obtain ⟨rfl, rfl⟩ := run_pure_eq_ok finished
      refine ⟨lastWithin, ?_⟩
      cases value with
      | none => exact refsWithin_nil
      | some value => exact valueWithin value rfl
    · obtain ⟨rfl, rfl⟩ := run_pure_eq_ok initialized
      exact ⟨namedWithin, refsWithin_nil⟩

mutual

theorem convertStatements_within (tree : SyntaxTree) (within : tree.SpansWithin good) :
    StaysWithin good (fun statements => RefsWithin good (Statement.listReferences statements))
      (convertStatements source tree) := by
  intro before statements after ran beforeWithin
  unfold convertStatements at ran
  obtain ⟨afterWithin, statementsWithin⟩ := filterMapM_within (fun statement : Statement => RefsWithin good statement.references)
    (fun child _ => by
      have := SyntaxTree.sizeOf_lt_of_mem child.property
      exact convertStatement_within child.val (within.child child)) before statements after ran beforeWithin
  exact ⟨afterWithin, refsWithin_listReferences.mpr statementsWithin⟩
termination_by sizeOf tree * 8 + 7

theorem convertStatement_within (tree : SyntaxTree) (within : tree.SpansWithin good) :
    StaysWithin good (fun result => ∀ statement ∈ result, RefsWithin good statement.references)
      (convertStatement source tree) := by
  intro before result after ran beforeWithin
  unfold convertStatement at ran
  split at ran
  · obtain ⟨statement, functionRan, rfl⟩ := run_map_eq_ok ran
    obtain ⟨afterWithin, statementWithin⟩ := convertFunction_within tree within before statement after functionRan beforeWithin
    exact ⟨afterWithin, fun _ member => Option.some_inj.mp member ▸ statementWithin⟩
  · obtain ⟨statement, variableRan, rfl⟩ := run_map_eq_ok ran
    obtain ⟨afterWithin, statementWithin⟩ :=
      convertVariable_within source tree within before statement after variableRan beforeWithin
    exact ⟨afterWithin, fun _ member => Option.some_inj.mp member ▸ statementWithin⟩
  · obtain ⟨rfl, rfl⟩ := run_pure_eq_ok ran
    exact ⟨beforeWithin, fun _ member => absurd member (Option.not_mem_none _)⟩
  · obtain ⟨rfl, rfl⟩ := run_pure_eq_ok ran
    exact ⟨beforeWithin, fun _ member => absurd member (Option.not_mem_none _)⟩
  · obtain ⟨value, valueRan, rfl⟩ := run_map_eq_ok ran
    obtain ⟨afterWithin, valueWithin⟩ := convertExpression_within source tree within before value after valueRan beforeWithin
    cases value with
    | none => exact ⟨afterWithin, fun _ member => absurd member (Option.not_mem_none _)⟩
    | some value => exact ⟨afterWithin, fun _ member => Option.some_inj.mp member ▸ valueWithin value rfl⟩
termination_by sizeOf tree * 8 + 6

/-- A function's missing name, parameter list or body is reported at the function. -/
theorem convertFunction_within (tree : SyntaxTree) (within : tree.SpansWithin good) :
    StaysWithin good (fun statement => RefsWithin good statement.references) (convertFunction source tree) := by
  intro before statement after ran beforeWithin
  unfold convertFunction at ran
  rw [freshId_bind] at ran
  dsimp only at ran
  have counted : ({ before with nextId := before.nextId + 1 } : BuildState).ReportsWithin good := beforeWithin
  split at ran
  all_goals try rw [reportAt_bind] at ran
  all_goals
    obtain ⟨name, named, nameRan, listing⟩ := run_bind_eq_ok ran
    obtain ⟨-, namedIs⟩ := run_pure_eq_ok nameRan
    have namedWithin : named.ReportsWithin good := by
      rw [namedIs]
      first
        | exact counted
        | exact counted.report within.span _
    split at listing
    all_goals try rw [reportAt_bind] at listing
    all_goals
      obtain ⟨parameters, listed, parametersRan, bodied⟩ := run_bind_eq_ok listing
      have listedWithin : listed.ReportsWithin good := by
        first
          | exact (convertParameters_within source _ _ parameters listed parametersRan namedWithin).1
          | obtain ⟨rfl, rfl⟩ := run_pure_eq_ok parametersRan
            exact namedWithin.report within.span _
      split at bodied
      · next block _ =>
        have := SyntaxTree.sizeOf_lt_of_mem block.property
        rw [freshId_bind] at bodied
        obtain ⟨body, last, bodyRan, finished⟩ := run_bind_eq_ok bodied
        obtain ⟨lastWithin, bodyWithin⟩ :=
          convertStatements_within block.val (within.child block) _ body last bodyRan listedWithin
        obtain ⟨rfl, rfl⟩ := run_pure_eq_ok finished
        exact ⟨lastWithin, bodyWithin⟩
      · rw [reportAt_bind, freshId_bind] at bodied
        obtain ⟨rfl, rfl⟩ := run_pure_eq_ok bodied
        exact ⟨listedWithin.report within.span _, refsWithin_nil⟩
termination_by sizeOf tree * 8 + 5

end

end Expressions

/-- Building a file from a tree whose nodes all have good spans, starting from diagnostics at
good spans, records diagnostics at good spans only and makes references at good spans only. -/
theorem File.build_within {source : List Char} {name : String} {tree : SyntaxTree} {reports built : Diagnostics}
    {file : File} (builds : File.build source name tree reports = .ok (file, built))
    (reported : ∀ diagnostic ∈ reports.toList, good diagnostic.span) (within : tree.SpansWithin good) :
    (∀ diagnostic ∈ built.toList, good diagnostic.span) ∧ RefsWithin good file.references := by
  unfold File.build at builds
  split at builds
  · cases builds
  · dsimp only at builds
    obtain ⟨⟨built, state⟩, ran, finished⟩ := bind_eq_ok builds
    cases finished
    rw [freshId_bind] at ran
    obtain ⟨statements, after, statementsRan, finished⟩ := run_bind_eq_ok ran
    obtain ⟨rfl, rfl⟩ := run_pure_eq_ok finished
    exact convertStatements_within source tree within _ statements _ statementsRan reported

/-! ## The resolver's reports -/

theorem Reference.unknownIn_spans (scopes : List Scope) (use : String) (reference : Reference) :
    ((reference.unknownIn scopes use).map (·.span)).Sublist [reference.span] := by
  unfold Reference.unknownIn
  split
  · exact List.nil_sublist _
  · exact List.Sublist.refl _

mutual

/-- An expression's unknown names are reported at its references, in walk order. -/
theorem Expression.unknownsIn_spans (scopes : List Scope) (use : String) :
    (expression : Expression) →
      ((expression.unknownsIn scopes use).map (·.span)).Sublist (expression.references.map (·.span))
  | .const .. => List.nil_sublist _
  | .get _ reference => Reference.unknownIn_spans scopes use reference
  | .call _ receiver arguments => by
    simp only [Expression.unknownsIn, Expression.references, List.map_append]
    exact (Expression.unknownsIn_spans scopes "call" receiver).append (Expression.argumentUnknownsIn_spans scopes arguments)
  | .object _ entries => Expression.entryUnknownsIn_spans scopes entries
  | .set _ target value => by
    simp only [Expression.unknownsIn, Expression.references, List.map_append]
    exact (Expression.unknownsIn_spans scopes "reference" value).append (Reference.unknownIn_spans scopes "reference" target)
  | .getProperty _ receiver _ => Expression.unknownsIn_spans scopes "reference" receiver
  | .setProperty _ receiver _ value => by
    simp only [Expression.unknownsIn, Expression.references, List.map_append]
    exact (Expression.unknownsIn_spans scopes "reference" receiver).append
      (Expression.unknownsIn_spans scopes "reference" value)

theorem Expression.argumentUnknownsIn_spans (scopes : List Scope) :
    (arguments : List (Option Expression)) →
      ((Expression.argumentUnknownsIn scopes arguments).map (·.span)).Sublist
        ((Expression.argumentReferences arguments).map (·.span))
  | [] => List.nil_sublist _
  | none :: rest => Expression.argumentUnknownsIn_spans scopes rest
  | some argument :: rest => by
    simp only [Expression.argumentUnknownsIn, Expression.argumentReferences, List.map_append]
    exact (Expression.unknownsIn_spans scopes "reference" argument).append
      (Expression.argumentUnknownsIn_spans scopes rest)

theorem Expression.entryUnknownsIn_spans (scopes : List Scope) :
    (entries : List (String × Expression)) →
      ((Expression.entryUnknownsIn scopes entries).map (·.span)).Sublist
        ((Expression.entryReferences entries).map (·.span))
  | [] => List.nil_sublist _
  | (_, value) :: rest => by
    simp only [Expression.entryUnknownsIn, Expression.entryReferences, List.map_append]
    exact (Expression.unknownsIn_spans scopes "reference" value).append (Expression.entryUnknownsIn_spans scopes rest)

end

mutual

theorem Statement.unknownsIn_spans (outer : List Scope) (here : Scope) :
    (statement : Statement) →
      ((statement.unknownsIn outer here).map (·.span)).Sublist (statement.references.map (·.span))
  | .function id name _ parameters _ _ body =>
    Statement.listUnknownsIn_spans (((name, .function id) :: here) :: outer) (parameterScope parameters) [] body
  | .variable _ _ _ (some initializer) => Expression.unknownsIn_spans (here :: outer) "reference" initializer
  | .variable _ _ _ none => List.nil_sublist _
  | .expression value => Expression.unknownsIn_spans (here :: outer) "reference" value

theorem Statement.listUnknownsIn_spans (outer : List Scope) (base : Scope) :
    (before statements : List Statement) →
      ((Statement.listUnknownsIn outer base before statements).map (·.span)).Sublist
        ((Statement.listReferences statements).map (·.span))
  | _, [] => List.nil_sublist _
  | before, statement :: rest => by
    simp only [Statement.listUnknownsIn, Statement.listReferences, List.map_append]
    exact (Statement.unknownsIn_spans outer _ statement).append
      (Statement.listUnknownsIn_spans outer base (before ++ [statement]) rest)

end

/-- The resolver reports each unknown name at its reference: the spans of its reports are
spans of the file's references, in walk order. -/
theorem File.unknownNames_spans (file : File) :
    (file.unknownNames.map (·.span)).Sublist (file.references.map (·.span)) :=
  Statement.listUnknownsIn_spans [] file.functionScope [] file.statements

end Hir

end ScriptLowering
