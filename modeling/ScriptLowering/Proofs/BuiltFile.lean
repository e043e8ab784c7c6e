import ScriptLowering.Proofs.Declarations
import ScriptLowering.Hir.Build

/-! # What the builder hands out

The builder takes identities from a counter that only goes up, and every reference it makes is
unbound. So a file built from any syntax tree, whatever its shape and even where one subtree is
reached twice, has declarations with pairwise distinct identities and no bound reference
(`File.build_fresh`, `File.build_identities_nodup`): what resolution and conversion take for
granted of their input.

Expressions declare nothing; a statement's identities come from the counter's range while it is
built, so the identities of consecutive statements never meet.
-/

namespace ScriptLowering.Hir

/-- References none of which is bound yet. -/
def Fresh (references : List Reference) : Prop :=
  ∀ reference ∈ references, reference.candidate = none

@[simp] theorem fresh_nil : Fresh [] := fun _ member => absurd member List.not_mem_nil

@[simp] theorem fresh_append {first second : List Reference} :
    Fresh (first ++ second) ↔ Fresh first ∧ Fresh second :=
  List.forall_mem_append

@[simp] theorem fresh_singleton {reference : Reference} : Fresh [reference] ↔ reference.candidate = none := by
  simp [Fresh]

/-- A stretch of building from `before` to `after` that hands out the identities `ids`: each once,
each from the counter's range during the stretch. -/
structure Allocated (ids : List Nat) (before after : BuildState) : Prop where
  le : before.nextId ≤ after.nextId
  distinct : ids.Nodup
  within : ∀ id ∈ ids, before.nextId ≤ id ∧ id < after.nextId

namespace Allocated

variable {ids more : List Nat} {first second third : BuildState}

theorem of_le (le : first.nextId ≤ second.nextId) : Allocated [] first second :=
  ⟨le, List.nodup_nil, fun _ member => absurd member List.not_mem_nil⟩

/-- Consecutive stretches hand out disjoint ranges of identities. -/
theorem trans (left : Allocated ids first second) (right : Allocated more second third) :
    Allocated (ids ++ more) first third where
  le := Nat.le_trans left.le right.le
  distinct := List.nodup_append.mpr ⟨left.distinct, right.distinct, fun earlier inLeft later inRight same => by
    have := (left.within earlier inLeft).2
    have := (right.within later inRight).1
    omega⟩
  within id member := by
    rcases List.mem_append.mp member with inLeft | inRight
    · have := left.within id inLeft
      have := right.le
      omega
    · have := right.within id inRight
      have := left.le
      omega

theorem weaken (allocated : Allocated ids first second) (same : more = ids) : Allocated more first second :=
  same ▸ allocated

/-- Leaving out some of the identities of a stretch. -/
theorem sublist (allocated : Allocated ids first second) (sub : more.Sublist ids) : Allocated more first second where
  le := allocated.le
  distinct := sub.nodup allocated.distinct
  within id member := allocated.within id (sub.subset member)

/-- A stretch that takes one identity from the counter hands out the counter's value. -/
theorem single (next : second.nextId = first.nextId + 1) : Allocated [first.nextId] first second where
  le := by omega
  distinct := by simp
  within id member := by
    rw [List.mem_singleton.mp member]
    omega

end Allocated

/-! ## Steps of the builder -/

section Steps

variable {α β : Type}

theorem run_bind_eq_ok {σ ε : Type} {step : StateT σ (Except ε) α} {next : α → StateT σ (Except ε) β}
    {before after : σ} {result : β} (ran : (step >>= next).run before = .ok (result, after)) :
    ∃ value middle, step.run before = .ok (value, middle) ∧ (next value).run middle = .ok (result, after) := by
  rw [StateT.run_bind] at ran
  cases stepped : step.run before with
  | error error => rw [stepped] at ran; cases ran
  | ok pair =>
    obtain ⟨value, middle⟩ := pair
    rw [stepped] at ran
    exact ⟨value, middle, rfl, ran⟩

theorem bind_eq_ok {ε : Type} {step : Except ε α} {next : α → Except ε β} {result : β}
    (ran : step >>= next = .ok result) : ∃ value, step = .ok value ∧ next value = .ok result := by
  cases step with
  | error error => cases ran
  | ok value => exact ⟨value, rfl, ran⟩

theorem run_pure_eq_ok {σ ε : Type} {value result : α} {before after : σ}
    (ran : (pure value : StateT σ (Except ε) α).run before = .ok (result, after)) :
    result = value ∧ after = before := by
  cases ran
  exact ⟨rfl, rfl⟩

theorem run_map_eq_ok {σ ε : Type} {step : StateT σ (Except ε) α} {change : α → β} {before after : σ}
    {result : β} (ran : (change <$> step).run before = .ok (result, after)) :
    ∃ value, step.run before = .ok (value, after) ∧ result = change value := by
  rw [map_eq_pure_bind] at ran
  obtain ⟨value, middle, stepped, finished⟩ := run_bind_eq_ok ran
  obtain ⟨rfl, rfl⟩ := run_pure_eq_ok finished
  exact ⟨value, stepped, rfl⟩

theorem reportAt_bind (span : Span) (message : String) (next : Unit → BuildM α) (state : BuildState) :
    (reportAt span message >>= next).run state =
      (next ()).run { state with reports := state.reports.report span message } := rfl

theorem freshId_bind (next : Nat → BuildM α) (state : BuildState) :
    (freshId >>= next).run state = (next state.nextId).run { state with nextId := state.nextId + 1 } := rfl

end Steps

/-- A building step hands out the identities `ids result` and returns a result that `fresh`
holds of. -/
def Builds {α : Type} (ids : α → List Nat) (fresh : α → Prop) (step : BuildM α) : Prop :=
  ∀ before result after, step.run before = .ok (result, after) →
    Allocated (ids result) before after ∧ fresh result

/-- An expression result with no bound reference. -/
def FreshResult (result : Option Expression) : Prop :=
  ∀ expression ∈ result, Fresh expression.references

theorem fresh_argumentReferences {arguments : List (Option Expression)}
    (each : ∀ argument ∈ arguments, FreshResult argument) :
    Fresh (Expression.argumentReferences arguments) := by
  induction arguments with
  | nil => exact fresh_nil
  | cons argument rest ih =>
    have restFresh := ih fun other member => each other (List.mem_cons_of_mem _ member)
    cases argument with
    | none => exact restFresh
    | some argument =>
      exact fresh_append.mpr ⟨each _ List.mem_cons_self argument rfl, restFresh⟩

theorem fresh_entryReferences {entries : List (String × Expression)}
    (each : ∀ entry ∈ entries, Fresh entry.2.references) : Fresh (Expression.entryReferences entries) := by
  induction entries with
  | nil => exact fresh_nil
  | cons entry rest ih =>
    exact fresh_append.mpr ⟨each entry List.mem_cons_self,
      ih fun other member => each other (List.mem_cons_of_mem _ member)⟩

section Expressions

variable (source : List Char)

theorem convertReference_run {tree : SyntaxTree} {before after : BuildState} {reference : Reference}
    (ran : (convertReference source tree).run before = .ok (reference, after)) :
    reference.candidate = none ∧ after = before := by
  unfold convertReference at ran
  split at ran
  · obtain ⟨rfl, rfl⟩ := run_pure_eq_ok ran
    exact ⟨rfl, rfl⟩
  · cases ran

theorem propertyName?_run {tree : SyntaxTree} {before after : BuildState} {name : Option String}
    (ran : (propertyName? source tree).run before = .ok (name, after)) : after.nextId = before.nextId := by
  unfold propertyName? at ran
  -- Either the name is returned at once, or a diagnostic is reported first.
  split at ran
  · split at ran
    · obtain ⟨_, rfl⟩ := run_pure_eq_ok ran
      rfl
    · rw [reportAt_bind] at ran
      obtain ⟨_, rfl⟩ := run_pure_eq_ok ran
      rfl
  · rw [reportAt_bind] at ran
    obtain ⟨_, rfl⟩ := run_pure_eq_ok ran
    rfl

theorem mapM_builds {γ : Type} {convert : γ → BuildM (Option Expression)} {items : List γ}
    (each : ∀ item ∈ items, Builds (fun _ => []) FreshResult (convert item)) :
    Builds (fun _ => []) (fun results => ∀ result ∈ results, FreshResult result) (items.mapM convert) := by
  induction items with
  | nil =>
    intro before results after ran
    obtain ⟨rfl, rfl⟩ := run_pure_eq_ok ran
    exact ⟨.of_le (Nat.le_refl _), fun _ member => absurd member List.not_mem_nil⟩
  | cons item rest ih =>
    intro before results after ran
    rw [List.mapM_cons] at ran
    obtain ⟨first, middle, firstRan, ran⟩ := run_bind_eq_ok ran
    obtain ⟨others, last, restRan, ran⟩ := run_bind_eq_ok ran
    obtain ⟨rfl, rfl⟩ := run_pure_eq_ok ran
    obtain ⟨firstAllocated, firstFresh⟩ := each item List.mem_cons_self before first middle firstRan
    obtain ⟨restAllocated, restFresh⟩ :=
      ih (fun other member => each other (List.mem_cons_of_mem _ member)) middle others after restRan
    refine ⟨.of_le (Nat.le_trans firstAllocated.le restAllocated.le), ?_⟩
    intro result member
    rcases List.mem_cons.mp member with rfl | later
    · exact firstFresh
    · exact restFresh result later

theorem foldlM_builds {γ δ : Type} {step : δ → γ → BuildM δ} {items : List γ} (holds : δ → Prop)
    (each : ∀ item ∈ items, ∀ accumulated, holds accumulated → Builds (fun _ => []) holds (step accumulated item)) :
    ∀ initial, holds initial → Builds (fun _ => []) holds (items.foldlM step initial) := by
  induction items with
  | nil =>
    intro initial holdsInitial before result after ran
    obtain ⟨rfl, rfl⟩ := run_pure_eq_ok ran
    exact ⟨.of_le (Nat.le_refl _), holdsInitial⟩
  | cons item rest ih =>
    intro initial holdsInitial before result after ran
    rw [List.foldlM_cons] at ran
    obtain ⟨next, middle, firstRan, ran⟩ := run_bind_eq_ok ran
    obtain ⟨firstAllocated, holdsNext⟩ := each item List.mem_cons_self initial holdsInitial before next middle firstRan
    obtain ⟨restAllocated, holdsResult⟩ :=
      ih (fun other member => each other (List.mem_cons_of_mem _ member)) next holdsNext middle result after ran
    exact ⟨.of_le (Nat.le_trans firstAllocated.le restAllocated.le), holdsResult⟩

/-- A step that reports a diagnostic and then returns nothing hands out nothing. -/
theorem report_then_none {span : Span} {message : String} {before after : BuildState}
    {result : Option Expression}
    (ran : (reportAt span message >>= fun _ => pure none : BuildM (Option Expression)).run before =
      .ok (result, after)) :
    Allocated [] before after ∧ FreshResult result := by
  rw [reportAt_bind] at ran
  obtain ⟨rfl, rfl⟩ := run_pure_eq_ok ran
  exact ⟨.of_le (Nat.le_refl _), fun _ member => absurd member (Option.not_mem_none _)⟩

theorem pure_builds {value : Option Expression} (fresh : FreshResult value) {before after : BuildState}
    {result : Option Expression}
    (ran : (pure value : BuildM (Option Expression)).run before = .ok (result, after)) :
    Allocated [] before after ∧ FreshResult result := by
  obtain ⟨rfl, rfl⟩ := run_pure_eq_ok ran
  exact ⟨.of_le (Nat.le_refl _), fresh⟩

@[simp] theorem freshResult_none : FreshResult none := fun _ member => absurd member (Option.not_mem_none _)

@[simp] theorem freshResult_some {expression : Expression} :
    FreshResult (some expression) ↔ Fresh expression.references := by
  simp [FreshResult]

/-- Replacing the value of a key keeps a property that every value has. -/
theorem forall_replaceEntry (holds : Expression → Prop) {entries : List (String × Expression)} {key : String}
    {value : Expression} (entriesHold : ∀ entry ∈ entries, holds entry.2) (valueHolds : holds value) :
    ∀ entry ∈ entries.map (fun entry => if entry.1 == key then (key, value) else entry), holds entry.2 := by
  intro entry member
  obtain ⟨original, inEntries, rfl⟩ := List.mem_map.mp member
  split
  · exact valueHolds
  · exact entriesHold original inEntries

mutual

theorem convertExpression_builds (tree : SyntaxTree) :
    Builds (fun _ => []) FreshResult (convertExpression source tree) := by
  intro before result after ran
  rw [convertExpression] at ran
  split at ran
  · exact pure_builds (by simp [Expression.references]) ran
  · split at ran
    · exact pure_builds (by simp [Expression.references]) ran
    · exact report_then_none ran
  · split at ran
    · exact pure_builds (by simp [Expression.references]) ran
    · exact pure_builds (by simp [Expression.references]) ran
    · exact report_then_none ran
  · obtain ⟨reference, middle, referenced, finished⟩ := run_bind_eq_ok ran
    obtain ⟨unbound, rfl⟩ := convertReference_run source referenced
    exact pure_builds (by simp [Expression.references, unbound]) finished
  · exact convertCall_builds tree before result after ran
  · obtain ⟨object, objectRan, rfl⟩ := run_map_eq_ok ran
    obtain ⟨allocated, fresh⟩ := convertObject_builds tree before object after objectRan
    exact ⟨allocated, freshResult_some.mpr fresh⟩
  · exact convertBinary_builds tree before result after ran
  · exact report_then_none ran
  · cases ran
termination_by sizeOf tree * 8 + 4

theorem convertCall_builds (tree : SyntaxTree) :
    Builds (fun _ => []) FreshResult (convertCall source tree) := by
  intro before result after ran
  rw [convertCall] at ran
  split at ran
  · cases ran
  · next receiver _ =>
    have := SyntaxTree.sizeOf_lt_of_mem receiver.property
    obtain ⟨receiverResult, middle, receiverRan, ran⟩ := run_bind_eq_ok ran
    obtain ⟨receiverAllocated, receiverFresh⟩ :=
      convertExpression_builds receiver.val before receiverResult middle receiverRan
    have call (arguments : List (Option Expression)) (argumentsFresh : ∀ argument ∈ arguments, FreshResult argument) :
        FreshResult (receiverResult.map (.call tree.span · arguments)) := by
      intro call member
      obtain ⟨receiverExpression, isReceiver, rfl⟩ := Option.map_eq_some_iff.mp member
      simp only [Expression.references, fresh_append]
      exact ⟨receiverFresh receiverExpression isReceiver, fresh_argumentReferences argumentsFresh⟩
    dsimp only at ran
    -- With no argument list the call has no argument slots.
    split at ran
    · next list _ =>
      have := SyntaxTree.sizeOf_lt_of_mem list.property
      obtain ⟨arguments, last, argumentsRan, finished⟩ := run_bind_eq_ok ran
      obtain ⟨rfl, rfl⟩ := run_pure_eq_ok finished
      -- An argument slot holds the expression of the argument node's first child, if any.
      obtain ⟨argumentsAllocated, argumentsFresh⟩ := mapM_builds (fun argument _ => by
          have := SyntaxTree.sizeOf_lt_of_mem argument.property
          intro argumentBefore argumentResult argumentAfter argumentRan
          split at argumentRan
          · next value _ =>
            have := SyntaxTree.sizeOf_lt_of_mem value.property
            exact convertExpression_builds value.val argumentBefore argumentResult argumentAfter argumentRan
          · exact pure_builds freshResult_none argumentRan) middle arguments after argumentsRan
      exact ⟨.of_le (Nat.le_trans receiverAllocated.le argumentsAllocated.le), call arguments argumentsFresh⟩
    · obtain ⟨arguments, last, argumentsRan, finished⟩ := run_bind_eq_ok ran
      obtain ⟨rfl, rfl⟩ := run_pure_eq_ok argumentsRan
      obtain ⟨rfl, rfl⟩ := run_pure_eq_ok finished
      exact ⟨receiverAllocated, call [] fun _ member => absurd member List.not_mem_nil⟩
termination_by sizeOf tree * 8 + 3

theorem convertObject_builds (tree : SyntaxTree) :
    Builds (fun _ => []) (fun object => Fresh object.references) (convertObject source tree) := by
  intro before result after ran
  rw [convertObject] at ran
  obtain ⟨entries, middle, entriesRan, finished⟩ := run_bind_eq_ok ran
  obtain ⟨rfl, rfl⟩ := run_pure_eq_ok finished
  -- Every entry gathered so far has a fresh value; a clause adds or replaces one such entry.
  refine (foldlM_builds (fun entries => ∀ entry ∈ entries, Fresh entry.2.references)
    (fun clause _ gathered gatheredFresh => ?_) [] (fun _ member => absurd member List.not_mem_nil) before entries after
    entriesRan).imp id fun entriesFresh => fresh_entryReferences entriesFresh
  have := SyntaxTree.sizeOf_lt_of_mem clause.property
  intro clauseBefore next clauseAfter clauseRan
  split at clauseRan
  · rw [reportAt_bind] at clauseRan
    obtain ⟨rfl, rfl⟩ := run_pure_eq_ok clauseRan
    exact ⟨.of_le (Nat.le_refl _), gatheredFresh⟩
  · split at clauseRan
    · obtain ⟨rfl, rfl⟩ := run_pure_eq_ok clauseRan
      exact ⟨.of_le (Nat.le_refl _), gatheredFresh⟩
    · next holder _ =>
      have := SyntaxTree.sizeOf_lt_of_mem holder.property
      split at clauseRan
      · obtain ⟨rfl, rfl⟩ := run_pure_eq_ok clauseRan
        exact ⟨.of_le (Nat.le_refl _), gatheredFresh⟩
      · next value _ =>
        have := SyntaxTree.sizeOf_lt_of_mem value.property
        obtain ⟨converted, valueAfter, valueRan, added⟩ := run_bind_eq_ok clauseRan
        obtain ⟨valueAllocated, valueFresh⟩ :=
          convertExpression_builds value.val clauseBefore converted valueAfter valueRan
        -- A value that converts is added under its key, or replaces the value the key has.
        cases converted with
        | none =>
          obtain ⟨rfl, rfl⟩ := run_pure_eq_ok added
          exact ⟨valueAllocated, gatheredFresh⟩
        | some expression =>
          have expressionFresh := valueFresh expression rfl
          dsimp only at added
          split at added
          · obtain ⟨rfl, rfl⟩ := run_pure_eq_ok added
            exact ⟨valueAllocated, forall_replaceEntry (fun value => Fresh value.references) gatheredFresh expressionFresh⟩
          · obtain ⟨rfl, rfl⟩ := run_pure_eq_ok added
            exact ⟨valueAllocated,
              List.forall_mem_append.mpr ⟨gatheredFresh, List.forall_mem_singleton.mpr expressionFresh⟩⟩
termination_by sizeOf tree * 8 + 3

theorem convertBinary_builds (tree : SyntaxTree) :
    Builds (fun _ => []) FreshResult (convertBinary source tree) := by
  intro before result after ran
  rw [convertBinary] at ran
  split at ran
  · next lhs operator _ _ =>
    split at ran
    · exact pure_builds freshResult_none ran
    · next rhs _ =>
      have := SyntaxTree.sizeOf_lt_of_mem lhs.property
      have := SyntaxTree.sizeOf_lt_of_mem rhs.property
      split at ran
      · exact convertAssignment_builds tree lhs rhs before result after ran
      · obtain ⟨property, middle, propertyRan, ran⟩ := run_bind_eq_ok ran
        have sameId := propertyName?_run source propertyRan
        split at ran
        · obtain ⟨rfl, rfl⟩ := run_pure_eq_ok ran
          exact ⟨.of_le (Nat.le_of_eq sameId.symm), freshResult_none⟩
        · obtain ⟨receiver, last, receiverRan, finished⟩ := run_bind_eq_ok ran
          obtain ⟨receiverAllocated, receiverFresh⟩ :=
            convertExpression_builds lhs.val middle receiver last receiverRan
          have allocated : Allocated [] before last :=
            .of_le (Nat.le_trans (Nat.le_of_eq sameId.symm) receiverAllocated.le)
          cases receiver with
          | none =>
            obtain ⟨rfl, rfl⟩ := run_pure_eq_ok finished
            exact ⟨allocated, freshResult_none⟩
          | some expression =>
            obtain ⟨rfl, rfl⟩ := run_pure_eq_ok finished
            exact ⟨allocated, by simpa [Expression.references] using receiverFresh expression rfl⟩
      · cases ran
  · cases ran
termination_by sizeOf tree * 8 + 2

theorem convertAssignment_builds (tree : SyntaxTree) (target value : SyntaxTree.Child tree) :
    Builds (fun _ => []) FreshResult (convertAssignment source tree target value) := by
  intro before result after ran
  rw [convertAssignment] at ran
  have := SyntaxTree.sizeOf_lt_of_mem target.property
  have := SyntaxTree.sizeOf_lt_of_mem value.property
  split at ran
  · obtain ⟨reference, middle, referenced, rest⟩ := run_bind_eq_ok ran
    obtain ⟨unbound, rfl⟩ := convertReference_run source referenced
    obtain ⟨written, last, valueRan, finished⟩ := run_bind_eq_ok rest
    obtain ⟨valueAllocated, valueFresh⟩ := convertExpression_builds value.val middle written last valueRan
    obtain ⟨rfl, rfl⟩ := run_pure_eq_ok finished
    refine ⟨valueAllocated, ?_⟩
    intro assignment member
    obtain ⟨expression, isSome, rfl⟩ := Option.map_eq_some_iff.mp member
    simp only [Expression.references, fresh_append, fresh_singleton]
    exact ⟨valueFresh expression isSome, unbound⟩
  · -- Only a member access is a property write; any other binary target is reported.
    split at ran
    · split at ran
      · next receiver property _ _ =>
        have := SyntaxTree.sizeOf_lt_of_mem receiver.property
        obtain ⟨name, middle, nameRan, ran⟩ := run_bind_eq_ok ran
        have sameId := propertyName?_run source nameRan
        split at ran
        · obtain ⟨rfl, rfl⟩ := run_pure_eq_ok ran
          exact ⟨.of_le (Nat.le_of_eq sameId.symm), freshResult_none⟩
        · obtain ⟨receiverResult, receiverAfter, receiverRan, ran⟩ := run_bind_eq_ok ran
          obtain ⟨receiverAllocated, receiverFresh⟩ :=
            convertExpression_builds receiver.val middle receiverResult receiverAfter receiverRan
          obtain ⟨written, last, valueRan, finished⟩ := run_bind_eq_ok ran
          obtain ⟨valueAllocated, valueFresh⟩ :=
            convertExpression_builds value.val receiverAfter written last valueRan
          obtain ⟨rfl, rfl⟩ := run_pure_eq_ok finished
          refine ⟨.of_le (Nat.le_trans (Nat.le_of_eq sameId.symm) (Nat.le_trans receiverAllocated.le valueAllocated.le)), ?_⟩
          cases receiverResult with
          | none => exact freshResult_none
          | some receiverExpression =>
            cases written with
            | none => exact freshResult_none
            | some valueExpression =>
              simp only [freshResult_some, Expression.references, fresh_append]
              exact ⟨receiverFresh _ rfl, valueFresh _ rfl⟩
      · exact pure_builds freshResult_none ran
    · exact report_then_none ran
  · exact report_then_none ran
termination_by sizeOf tree * 8 + 1

end

/-! ## Statements -/

theorem filterMapM_builds {γ β : Type} {convert : γ → BuildM (Option β)} {items : List γ}
    (ids : β → List Nat) (fresh : β → Prop)
    (each : ∀ item ∈ items, Builds (·.elim [] ids) (fun result => ∀ kept ∈ result, fresh kept) (convert item)) :
    Builds (·.flatMap ids) (fun results => ∀ kept ∈ results, fresh kept) (items.filterMapM convert) := by
  induction items with
  | nil =>
    intro before results after ran
    obtain ⟨rfl, rfl⟩ := run_pure_eq_ok ran
    exact ⟨.of_le (Nat.le_refl _), fun _ member => absurd member List.not_mem_nil⟩
  | cons item rest ih =>
    intro before results after ran
    rw [List.filterMapM_cons] at ran
    obtain ⟨first, middle, firstRan, ran⟩ := run_bind_eq_ok ran
    obtain ⟨firstAllocated, firstFresh⟩ := each item List.mem_cons_self before first middle firstRan
    have restBuilds := ih fun other member => each other (List.mem_cons_of_mem _ member)
    -- A left-out item hands out nothing; a kept one goes in front of the rest.
    cases first with
    | none => exact (restBuilds middle results after ran).imp (firstAllocated.trans · |>.weaken rfl) id
    | some kept =>
      obtain ⟨others, last, restRan, finished⟩ := run_bind_eq_ok ran
      obtain ⟨rfl, rfl⟩ := run_pure_eq_ok finished
      obtain ⟨restAllocated, restFresh⟩ := restBuilds middle others after restRan
      refine ⟨(firstAllocated.trans restAllocated).weaken List.flatMap_cons, ?_⟩
      intro result member
      rcases List.mem_cons.mp member with rfl | later
      · exact firstFresh result rfl
      · exact restFresh result later

theorem Statement.identities_listDeclarations (statements : List Statement) :
    identities (Statement.listDeclarations statements) =
      statements.flatMap fun statement => identities statement.declarations := by
  induction statements with
  | nil => rfl
  | cons statement rest ih => simp [ih]

theorem fresh_listReferences {statements : List Statement} :
    Fresh (Statement.listReferences statements) ↔ ∀ statement ∈ statements, Fresh statement.references := by
  induction statements with
  | nil => simp [Statement.listReferences]
  | cons statement rest ih => simp [Statement.listReferences, ih]

/-- The parameters of a list take one identity each, in order. -/
theorem convertParameters_builds (list : SyntaxTree) :
    Builds (·.map (·.id)) (fun _ => True) (convertParameters source list) := by
  intro before parameters after ran
  unfold convertParameters at ran
  obtain ⟨allocated, -⟩ := filterMapM_builds (fun parameter : Parameter => [parameter.id])
    (fun _ => True) (fun parameter _ => by
      intro parameterBefore result parameterAfter parameterRan
      split at parameterRan
      · rw [freshId_bind] at parameterRan
        obtain ⟨rfl, rfl⟩ := run_pure_eq_ok parameterRan
        exact ⟨.single rfl, fun _ _ => trivial⟩
      · obtain ⟨rfl, rfl⟩ := run_pure_eq_ok parameterRan
        exact ⟨.of_le (Nat.le_refl _), fun _ _ => trivial⟩) before parameters after ran
  exact ⟨allocated.weaken List.map_eq_flatMap, trivial⟩

/-- A variable takes one identity, before its initializer is built. -/
theorem convertVariable_builds (tree : SyntaxTree) :
    Builds (fun statement => identities statement.declarations) (fun statement => Fresh statement.references)
      (convertVariable source tree) := by
  intro before statement after ran
  unfold convertVariable at ran
  rw [freshId_bind] at ran
  dsimp only at ran
  -- A missing name is reported first; either way the variable goes on under some name.
  split at ran
  all_goals try rw [reportAt_bind] at ran
  all_goals
    obtain ⟨name, named, nameRan, initialized⟩ := run_bind_eq_ok ran
    obtain ⟨rfl, namedIs⟩ := run_pure_eq_ok nameRan
    have idAllocated : Allocated [before.nextId] before named := .single (by rw [namedIs])
    split at initialized
    · next initializer _ =>
      obtain ⟨value, last, valueRan, finished⟩ := run_bind_eq_ok initialized
      obtain ⟨valueAllocated, valueFresh⟩ :=
        convertExpression_builds source initializer.val named value last valueRan
      obtain ⟨rfl, rfl⟩ := run_pure_eq_ok finished
      refine ⟨(idAllocated.trans valueAllocated).weaken (by simp), ?_⟩
      cases value with
      | none => exact fresh_nil
      | some value => exact valueFresh value rfl
    · obtain ⟨rfl, rfl⟩ := run_pure_eq_ok initialized
      exact ⟨idAllocated.weaken (by simp), fresh_nil⟩

mutual

theorem convertStatements_builds (tree : SyntaxTree) :
    Builds (fun statements => identities (Statement.listDeclarations statements))
      (fun statements => Fresh (Statement.listReferences statements)) (convertStatements source tree) := by
  intro before statements after ran
  unfold convertStatements at ran
  obtain ⟨allocated, fresh⟩ := filterMapM_builds (fun statement => identities statement.declarations)
    (fun statement => Fresh statement.references) (fun child _ => by
      have := SyntaxTree.sizeOf_lt_of_mem child.property
      exact convertStatement_builds child.val) before statements after ran
  exact ⟨allocated.weaken (Statement.identities_listDeclarations statements), fresh_listReferences.mpr fresh⟩
termination_by sizeOf tree * 8 + 7

theorem convertStatement_builds (tree : SyntaxTree) :
    Builds (·.elim [] fun statement => identities statement.declarations)
      (fun result => ∀ statement ∈ result, Fresh statement.references) (convertStatement source tree) := by
  intro before result after ran
  unfold convertStatement at ran
  split at ran
  · obtain ⟨statement, functionRan, rfl⟩ := run_map_eq_ok ran
    obtain ⟨allocated, fresh⟩ := convertFunction_builds tree before statement after functionRan
    exact ⟨allocated, fun _ member => Option.some_inj.mp member ▸ fresh⟩
  · obtain ⟨statement, variableRan, rfl⟩ := run_map_eq_ok ran
    obtain ⟨allocated, fresh⟩ := convertVariable_builds source tree before statement after variableRan
    exact ⟨allocated, fun _ member => Option.some_inj.mp member ▸ fresh⟩
  · obtain ⟨rfl, rfl⟩ := run_pure_eq_ok ran
    exact ⟨.of_le (Nat.le_refl _), fun _ member => absurd member (Option.not_mem_none _)⟩
  · obtain ⟨rfl, rfl⟩ := run_pure_eq_ok ran
    exact ⟨.of_le (Nat.le_refl _), fun _ member => absurd member (Option.not_mem_none _)⟩
  · obtain ⟨value, valueRan, rfl⟩ := run_map_eq_ok ran
    obtain ⟨allocated, fresh⟩ := convertExpression_builds source tree before value after valueRan
    cases value with
    | none => exact ⟨allocated, fun _ member => absurd member (Option.not_mem_none _)⟩
    | some value => exact ⟨allocated, fun _ member => Option.some_inj.mp member ▸ fresh value rfl⟩
termination_by sizeOf tree * 8 + 6

/-- A function takes its own identity, then its parameters', then one for its body, then its
body's. -/
theorem convertFunction_builds (tree : SyntaxTree) :
    Builds (fun statement => identities statement.declarations) (fun statement => Fresh statement.references)
      (convertFunction source tree) := by
  intro before statement after ran
  unfold convertFunction at ran
  rw [freshId_bind] at ran
  dsimp only at ran
  -- A missing name is reported first; either way the function goes on under some name.
  split at ran
  all_goals try rw [reportAt_bind] at ran
  all_goals
    obtain ⟨name, named, nameRan, listing⟩ := run_bind_eq_ok ran
    obtain ⟨rfl, namedIs⟩ := run_pure_eq_ok nameRan
    -- A missing parameter list is reported and read as no parameters.
    split at listing
    all_goals try rw [reportAt_bind] at listing
    all_goals
      obtain ⟨parameters, listed, parametersRan, bodied⟩ := run_bind_eq_ok listing
      have parametersAllocated : Allocated (parameters.map (·.id)) named listed := by
        first
          | exact (convertParameters_builds source _ named parameters listed parametersRan).1
          | obtain ⟨rfl, rfl⟩ := run_pure_eq_ok parametersRan
            exact .of_le (Nat.le_refl _)
      have idAllocated : Allocated [before.nextId] before named := .single (by rw [namedIs])
      have headAllocated := idAllocated.trans parametersAllocated
      -- The body identity is handed out but declares nothing, so it drops out of the identities.
      split at bodied
      · next block _ =>
        have := SyntaxTree.sizeOf_lt_of_mem block.property
        rw [freshId_bind] at bodied
        obtain ⟨body, last, bodyRan, finished⟩ := run_bind_eq_ok bodied
        obtain ⟨bodyAllocated, bodyFresh⟩ := convertStatements_builds block.val _ body last bodyRan
        obtain ⟨rfl, rfl⟩ := run_pure_eq_ok finished
        refine ⟨((headAllocated.trans (Allocated.single rfl)).trans bodyAllocated).sublist ?_, bodyFresh⟩
        simp
      · rw [reportAt_bind, freshId_bind] at bodied
        obtain ⟨rfl, rfl⟩ := run_pure_eq_ok bodied
        refine ⟨(headAllocated.trans (Allocated.single rfl)).sublist ?_, fresh_nil⟩
        simp
termination_by sizeOf tree * 8 + 5

end

end Expressions

/-! ## Built files -/

variable {source : List Char} {name : String} {tree : SyntaxTree} {reports built : Diagnostics} {file : File}

theorem File.build_statements (builds : File.build source name tree reports = .ok (file, built)) :
    ∃ before after, (convertStatements source tree).run before = .ok (file.statements, after) := by
  unfold File.build at builds
  split at builds
  · cases builds
  · dsimp only at builds
    obtain ⟨⟨built, state⟩, ran, finished⟩ := bind_eq_ok builds
    cases finished
    rw [freshId_bind] at ran
    obtain ⟨statements, after, statementsRan, finished⟩ := run_bind_eq_ok ran
    obtain ⟨rfl, rfl⟩ := run_pure_eq_ok finished
    exact ⟨_, _, statementsRan⟩

/-- No reference of a built file is bound yet. -/
theorem File.build_fresh (builds : File.build source name tree reports = .ok (file, built)) :
    Fresh file.references := by
  obtain ⟨before, after, ran⟩ := File.build_statements builds
  exact (convertStatements_builds source tree before file.statements after ran).2

/-- The declarations of a built file have pairwise distinct identities. -/
theorem File.build_identities_nodup (builds : File.build source name tree reports = .ok (file, built)) :
    (identities file.declarations).Nodup := by
  obtain ⟨before, after, ran⟩ := File.build_statements builds
  exact (convertStatements_builds source tree before file.statements after ran).1.distinct

end ScriptLowering.Hir
