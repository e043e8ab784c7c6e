import ScriptLowering.Proofs.BuiltFile

/-! # Trees the builder accepts

The builder stops with an internal error only on a node of a shape it does not know: a node in
an expression position that is no expression, a reference without a name, a call without a
receiver, a binary node without a left operand or an operator, or an operator spelled other than
`=` or `.`. `SyntaxKind.Admits` says what the builder asks of one node, seen through the kinds
and spans of its children, and `SyntaxTree.Buildable` asks it of every node of a tree. On such a
tree of a file the builder never stops (`File.build_total`): whatever else is wrong with the tree
is reported as a diagnostic.
-/

namespace ScriptLowering

namespace SyntaxKind

/-- Kinds the builder reads as expressions. -/
def isExpression : SyntaxKind → Bool
  | .stringConstant | .numberConstant | .booleanConstant | .reference | .call | .object | .binary
  | .badCharacter => true
  | _ => false

/-- Kinds the builder reads as statements: declarations, separators and expressions. -/
def isStatement : SyntaxKind → Bool
  | .function | .variable | .semicolon | .comma => true
  | kind => kind.isExpression

end SyntaxKind

/-- The span covers an infix operator's spelling in the source, `=` or `.`. -/
def Span.SpellsOperator (source : List Char) : Span → Prop
  | .range start stop => Text.slice source start stop = ['='] ∨ Text.slice source start stop = ['.']
  | .synthetic => False

/-- What the builder asks of a node of kind `kind` whose children have the kinds and spans
`children`: statements in files and blocks, an expression wherever it reads one, a name in a
reference, a receiver first in a call, and in a binary node a left operand, then an operator
spelled `=` or `.`, then at most an expression. -/
def SyntaxKind.Admits (source : List Char) : SyntaxKind → List (SyntaxKind × Span) → Prop
  | .file, children | .block, children => ∀ child ∈ children, child.1.isStatement
  | .variable, children => ∀ child ∈ children, child.1 ≠ .identifier → child.1.isExpression
  | .reference, children => ∃ child ∈ children, child.1 = .identifier
  | .call, children => ∃ receiver rest, children = receiver :: rest ∧ receiver.1.isExpression
  | .argument, children | .objectValue, children => ∀ child ∈ children, child.1.isExpression
  | .binary, children => ∃ lhs operator rest, children = lhs :: operator :: rest ∧
      lhs.1.isExpression ∧ operator.1 = .operator ∧ operator.2.SpellsOperator source ∧
      ∀ rhs ∈ rest.head?, rhs.1.isExpression
  | _, _ => True

namespace SyntaxTree

/-- The kind and span of a tree's root, all that a check of its parent reads of it. -/
def shallow (tree : SyntaxTree) : SyntaxKind × Span := (tree.kind, tree.span)

/-- Every node of the tree is one the builder admits. -/
inductive Buildable (source : List Char) : SyntaxTree → Prop
  | node {kind : SyntaxKind} {span : Span} {children : List SyntaxTree} :
      kind.Admits source (children.map shallow) → (∀ child ∈ children, Buildable source child) →
      Buildable source (.node kind span children)

@[simp] theorem firstChild?_map_val (tree : SyntaxTree) :
    tree.firstChild?.map Subtype.val = tree.children.head? := by
  simp [firstChild?, childList]

@[simp] theorem childAt?_map_val (tree : SyntaxTree) (position : Nat) :
    (tree.childAt? position).map Subtype.val = tree.children[position]? := by
  rw [childAt?, childList, List.getElem?_attach]
  simp [Option.map_pmap]

@[simp] theorem childOfKind?_map_val (tree : SyntaxTree) (kind : SyntaxKind) :
    (tree.childOfKind? kind).map Subtype.val = tree.children.find? (·.kind == kind) := by
  rw [childOfKind?, childList, @List.find?_subtype SyntaxTree _ _ _ (·.kind == kind) fun _ _ => rfl,
    List.unattach_attach]

theorem childOfKind?_isSome {tree : SyntaxTree} {kind : SyntaxKind}
    (present : ∃ child ∈ tree.children, child.kind = kind) : (tree.childOfKind? kind).isSome := by
  have found := childOfKind?_map_val tree kind
  cases childOfKind : tree.childOfKind? kind with
  | some _ => rfl
  | none =>
    rw [childOfKind, Option.map_none, eq_comm, List.find?_eq_none] at found
    obtain ⟨child, member, isKind⟩ := present
    exact absurd (by simpa using isKind) (found child member)

theorem childOfKind?_kind {tree : SyntaxTree} {kind : SyntaxKind} {child : Child tree}
    (found : tree.childOfKind? kind = some child) : child.val.kind = kind := by
  have := List.find?_some (congrArg (Option.map Subtype.val) found ▸ childOfKind?_map_val tree kind).symm
  simpa using this

theorem mem_childrenOfKind {tree : SyntaxTree} {kind : SyntaxKind} {child : Child tree}
    (member : child ∈ tree.childrenOfKind kind) : child.val.kind = kind := by
  simpa [childrenOfKind] using (List.mem_filter.mp member).2

variable {source : List Char}

namespace Buildable

theorem admits {tree : SyntaxTree} (buildable : tree.Buildable source) :
    tree.kind.Admits source (tree.children.map shallow) := by
  cases buildable with
  | node admits _ => exact admits

theorem child {tree : SyntaxTree} (buildable : tree.Buildable source) (child : Child tree) :
    child.val.Buildable source := by
  cases buildable with
  | node _ children => exact children child.val child.property

theorem statements {tree : SyntaxTree} (buildable : tree.Buildable source)
    (holder : tree.kind = .file ∨ tree.kind = .block) : ∀ child ∈ tree.children, child.kind.isStatement := by
  have admits := buildable.admits
  intro child member
  rcases holder with isFile | isBlock
  · rw [isFile] at admits
    exact admits child.shallow (List.mem_map_of_mem member)
  · rw [isBlock] at admits
    exact admits child.shallow (List.mem_map_of_mem member)

theorem expressions {tree : SyntaxTree} (buildable : tree.Buildable source)
    (holder : tree.kind = .argument ∨ tree.kind = .objectValue) :
    ∀ child ∈ tree.children, child.kind.isExpression := by
  have admits := buildable.admits
  intro child member
  rcases holder with isArgument | isValue
  · rw [isArgument] at admits
    exact admits child.shallow (List.mem_map_of_mem member)
  · rw [isValue] at admits
    exact admits child.shallow (List.mem_map_of_mem member)

theorem initializer {tree : SyntaxTree} (buildable : tree.Buildable source) (isVariable : tree.kind = .variable)
    {child : SyntaxTree} (member : child ∈ tree.children) (unnamed : child.kind ≠ .identifier) :
    child.kind.isExpression := by
  have admits := buildable.admits
  rw [isVariable] at admits
  exact admits child.shallow (List.mem_map_of_mem member) unnamed

theorem named {tree : SyntaxTree} (buildable : tree.Buildable source) (isReference : tree.kind = .reference) :
    ∃ child ∈ tree.children, child.kind = .identifier := by
  have admits := buildable.admits
  rw [isReference] at admits
  obtain ⟨shallowChild, member, isName⟩ := admits
  obtain ⟨child, childMember, rfl⟩ := List.mem_map.mp member
  exact ⟨child, childMember, isName⟩

theorem receiver {tree : SyntaxTree} (buildable : tree.Buildable source) (isCall : tree.kind = .call) :
    ∃ receiver rest, tree.children = receiver :: rest ∧ receiver.kind.isExpression := by
  have admits := buildable.admits
  rw [isCall] at admits
  obtain ⟨shallowReceiver, shallowRest, split, isExpression⟩ := admits
  obtain ⟨receiver, rest, childrenIs, rfl, -⟩ := List.map_eq_cons_iff.mp split
  exact ⟨receiver, rest, childrenIs, isExpression⟩

theorem operands {tree : SyntaxTree} (buildable : tree.Buildable source) (isBinary : tree.kind = .binary) :
    ∃ lhs operator rest, tree.children = lhs :: operator :: rest ∧ lhs.kind.isExpression ∧
      operator.kind = .operator ∧ operator.span.SpellsOperator source ∧
      ∀ rhs ∈ rest.head?, rhs.kind.isExpression := by
  have admits := buildable.admits
  rw [isBinary] at admits
  obtain ⟨shallowLhs, shallowOperator, shallowRest, split, lhsExpression, isOperator, spelled,
    rhsExpression⟩ := admits
  obtain ⟨lhs, others, childrenIs, rfl, othersIs⟩ := List.map_eq_cons_iff.mp split
  obtain ⟨operator, rest, rfl, rfl, rfl⟩ := List.map_eq_cons_iff.mp othersIs
  refine ⟨lhs, operator, rest, childrenIs, lhsExpression, isOperator, spelled, ?_⟩
  intro rhs member
  cases rest with
  | nil => cases member
  | cons first more =>
    simp only [List.head?_cons, Option.mem_def, Option.some.injEq] at member
    subst member
    exact rhsExpression first.shallow rfl

end Buildable

end SyntaxTree

namespace Hir

/-! ## Building steps that never stop -/

/-- A building step that never stops with an internal error, whatever state it starts in. -/
def Total {α : Type} (step : BuildM α) : Prop :=
  ∀ before, ∃ result after, step.run before = .ok (result, after)

section Total

variable {α β γ : Type}

theorem total_pure (value : α) : Total (pure value : BuildM α) := fun before => ⟨value, before, rfl⟩

theorem Total.bind {step : BuildM α} {next : α → BuildM β} (first : Total step)
    (rest : ∀ value, Total (next value)) : Total (step >>= next) := by
  intro before
  obtain ⟨value, middle, ran⟩ := first before
  obtain ⟨result, after, finished⟩ := rest value middle
  exact ⟨result, after, by rw [StateT.run_bind, ran]; exact finished⟩

theorem Total.map {step : BuildM α} (change : α → β) (total : Total step) : Total (change <$> step) := by
  rw [map_eq_pure_bind]
  exact total.bind fun value => total_pure (change value)

theorem total_reportAt (span : Span) (message : String) : Total (reportAt span message) :=
  fun _ => ⟨(), _, rfl⟩

theorem total_freshId : Total freshId := fun before => ⟨before.nextId, _, rfl⟩

theorem total_mapM {convert : γ → BuildM β} {items : List γ} (each : ∀ item ∈ items, Total (convert item)) :
    Total (items.mapM convert) := by
  induction items with
  | nil => exact total_pure []
  | cons item rest ih =>
    rw [List.mapM_cons]
    exact (each item List.mem_cons_self).bind fun first =>
      (ih fun other member => each other (List.mem_cons_of_mem _ member)).bind fun others =>
        total_pure (first :: others)

theorem total_filterMapM {convert : γ → BuildM (Option β)} {items : List γ}
    (each : ∀ item ∈ items, Total (convert item)) : Total (items.filterMapM convert) := by
  induction items with
  | nil => exact total_pure []
  | cons item rest ih =>
    have restTotal := ih fun other member => each other (List.mem_cons_of_mem _ member)
    rw [List.filterMapM_cons]
    refine (each item List.mem_cons_self).bind fun first => ?_
    cases first with
    | none => exact restTotal
    | some kept => exact restTotal.bind fun others => total_pure (kept :: others)

theorem total_foldlM {step : β → γ → BuildM β} {items : List γ}
    (each : ∀ item ∈ items, ∀ gathered, Total (step gathered item)) :
    ∀ initial, Total (items.foldlM step initial) := by
  induction items with
  | nil => exact total_pure
  | cons item rest ih =>
    intro initial
    rw [List.foldlM_cons]
    exact (each item List.mem_cons_self initial).bind
      (ih fun other member => each other (List.mem_cons_of_mem _ member))

end Total

/-! ## The builder on buildable trees -/

section Builder

variable (source : List Char)

theorem convertReference_total {tree : SyntaxTree}
    (named : ∃ child ∈ tree.children, child.kind = .identifier) : Total (convertReference source tree) := by
  unfold convertReference
  cases identified : identifierName? source tree with
  | none =>
    have present := SyntaxTree.childOfKind?_isSome named
    simp [identifierName?, Option.map_eq_none_iff] at identified
    simp [identified] at present
  | some name => exact total_pure _

theorem propertyName?_total (tree : SyntaxTree) : Total (propertyName? source tree) := by
  unfold propertyName?
  split
  · split
    · exact total_pure _
    · exact (total_reportAt _ _).bind fun _ => total_pure _
  · exact (total_reportAt _ _).bind fun _ => total_pure _

mutual

theorem convertExpression_total (tree : SyntaxTree) (buildable : tree.Buildable source)
    (isExpression : tree.kind.isExpression) : Total (convertExpression source tree) := by
  rw [convertExpression]
  split
  · exact total_pure _
  · split
    · exact total_pure _
    · exact (total_reportAt _ _).bind fun _ => total_pure _
  · split
    · exact total_pure _
    · exact total_pure _
    · exact (total_reportAt _ _).bind fun _ => total_pure _
  · next isReference =>
    exact (convertReference_total source (buildable.named isReference)).bind fun _ => total_pure _
  · next isCall => exact convertCall_total tree buildable isCall
  · exact (convertObject_total tree buildable).map _
  · next isBinary => exact convertBinary_total tree buildable isBinary
  · exact (total_reportAt _ _).bind fun _ => total_pure _
  · -- no other kind is an expression
    cases kind : tree.kind <;> simp_all [SyntaxKind.isExpression]
termination_by sizeOf tree * 8 + 4

theorem convertCall_total (tree : SyntaxTree) (buildable : tree.Buildable source) (isCall : tree.kind = .call) :
    Total (convertCall source tree) := by
  obtain ⟨receiver, rest, childrenIs, receiverExpression⟩ := buildable.receiver isCall
  rw [convertCall]
  split
  · next noReceiver =>
    have first := tree.firstChild?_map_val
    rw [noReceiver] at first
    cases first.trans (by rw [childrenIs]; rfl : tree.children.head? = some receiver)
  · next receiverChild isFirst =>
    have := SyntaxTree.sizeOf_lt_of_mem receiverChild.property
    have receiverIs : receiverChild.val = receiver := by
      have first := tree.firstChild?_map_val
      rw [isFirst] at first
      exact Option.some.inj (first.trans (by rw [childrenIs]; rfl))
    refine (convertExpression_total receiverChild.val (buildable.child receiverChild)
      (receiverIs ▸ receiverExpression)).bind fun _ => ?_
    -- Each argument slot converts the first child of its argument node, an expression.
    split
    · next list isList =>
      have := SyntaxTree.sizeOf_lt_of_mem list.property
      refine (total_mapM fun argument member => ?_).bind fun _ => total_pure _
      have := SyntaxTree.sizeOf_lt_of_mem argument.property
      have argumentBuildable := (buildable.child list).child argument
      split
      · next value isValue =>
        have := SyntaxTree.sizeOf_lt_of_mem value.property
        exact convertExpression_total value.val (argumentBuildable.child value)
          (argumentBuildable.expressions (.inl (SyntaxTree.mem_childrenOfKind member)) value.val
            value.property)
      · exact total_pure _
    · exact (total_pure _).bind fun _ => total_pure _
termination_by sizeOf tree * 8 + 3

theorem convertObject_total (tree : SyntaxTree) (buildable : tree.Buildable source) :
    Total (convertObject source tree) := by
  rw [convertObject]
  -- Each clause converts the first child of its value holder, an expression.
  refine (total_foldlM (fun clause _ gathered => ?_) []).bind fun _ => total_pure _
  have := SyntaxTree.sizeOf_lt_of_mem clause.property
  have clauseBuildable := buildable.child clause
  split
  · exact (total_reportAt _ _).bind fun _ => total_pure _
  · split
    · exact total_pure _
    · next holder isHolder =>
      have := SyntaxTree.sizeOf_lt_of_mem holder.property
      have holderBuildable := clauseBuildable.child holder
      split
      · exact total_pure _
      · next value isValue =>
        have := SyntaxTree.sizeOf_lt_of_mem value.property
        refine (convertExpression_total value.val (holderBuildable.child value)
          (holderBuildable.expressions (.inr (SyntaxTree.childOfKind?_kind isHolder)) value.val
            value.property)).bind fun converted => ?_
        split
        · exact total_pure _
        · split
          · exact total_pure _
          · exact total_pure _
termination_by sizeOf tree * 8 + 3

theorem convertBinary_total (tree : SyntaxTree) (buildable : tree.Buildable source)
    (isBinary : tree.kind = .binary) : Total (convertBinary source tree) := by
  obtain ⟨lhs, operator, rest, childrenIs, lhsExpression, isOperator, spelled, rhsExpression⟩ :=
    buildable.operands isBinary
  have lhsFirst : (tree.firstChild?).map Subtype.val = some lhs := by simp [childrenIs]
  have operatorFound : (tree.childOfKind? .operator).map Subtype.val = some operator := by
    have lhsNotOperator : lhs.kind ≠ .operator := by
      intro isKind
      rw [isKind] at lhsExpression
      cases lhsExpression
    simp [childrenIs, lhsNotOperator, isOperator]
  rw [convertBinary]
  split
  · next lhsChild operatorChild isFirst isOperatorChild =>
    rw [isFirst] at lhsFirst
    rw [isOperatorChild] at operatorFound
    simp only [Option.map_some, Option.some.injEq] at lhsFirst operatorFound
    split
    · exact total_pure _
    · next rhsChild isThird =>
      have := SyntaxTree.sizeOf_lt_of_mem lhsChild.property
      have := SyntaxTree.sizeOf_lt_of_mem rhsChild.property
      have rhsIsExpression : rhsChild.val.kind.isExpression := by
        have third := tree.childAt?_map_val 2
        rw [isThird] at third
        exact rhsExpression rhsChild.val (third.trans (by rw [childrenIs]; cases rest <;> rfl)).symm
      have lhsIsExpression : lhsChild.val.kind.isExpression := lhsFirst ▸ lhsExpression
      split
      · exact convertAssignment_total tree lhsChild rhsChild (buildable.child lhsChild)
          (buildable.child rhsChild) rhsIsExpression
      · refine (propertyName?_total source rhsChild.val).bind fun property => ?_
        split
        · exact total_pure _
        · refine (convertExpression_total lhsChild.val (buildable.child lhsChild)
            lhsIsExpression).bind fun receiver => ?_
          split
          · exact total_pure _
          · exact total_pure _
      · -- the operator is spelled `=` or `.`, so no other text is met
        next notAssignment notMember =>
        rw [← operatorFound] at spelled
        revert notAssignment notMember
        unfold textOf SyntaxTree.text
        cases span : operatorChild.val.span with
        | synthetic => rw [span] at spelled; cases spelled
        | range start stop =>
          rw [span] at spelled
          rcases spelled with isEquals | isDot
          · simp [isEquals]
          · simp [isDot]
  · next noOperands =>
    obtain ⟨lhsChild, isFirst⟩ := Option.map_eq_some_iff.mp lhsFirst |>.imp fun _ => And.left
    obtain ⟨operatorChild, isOperatorChild⟩ := Option.map_eq_some_iff.mp operatorFound |>.imp fun _ => And.left
    exact absurd isOperatorChild (noOperands lhsChild operatorChild isFirst)
termination_by sizeOf tree * 8 + 2

theorem convertAssignment_total (tree : SyntaxTree) (target value : SyntaxTree.Child tree)
    (targetBuildable : target.val.Buildable source) (valueBuildable : value.val.Buildable source) (valueExpression : value.val.kind.isExpression) :
    Total (convertAssignment source tree target value) := by
  rw [convertAssignment]
  have := SyntaxTree.sizeOf_lt_of_mem target.property
  have := SyntaxTree.sizeOf_lt_of_mem value.property
  split
  · next isReference =>
    exact (convertReference_total source (targetBuildable.named isReference)).bind fun _ =>
      (convertExpression_total value.val valueBuildable valueExpression).bind fun _ => total_pure _
  · next isBinary =>
    split
    · split
      · next receiver property isReceiver isProperty =>
        have := SyntaxTree.sizeOf_lt_of_mem receiver.property
        obtain ⟨lhs, operator, rest, childrenIs, lhsExpression, -⟩ := targetBuildable.operands isBinary
        have receiverIs : receiver.val = lhs := by
          have first := target.val.firstChild?_map_val
          rw [isReceiver] at first
          exact Option.some.inj (first.trans (by rw [childrenIs]; rfl))
        refine (propertyName?_total source property.val).bind fun name => ?_
        split
        · exact total_pure _
        · exact (convertExpression_total receiver.val (targetBuildable.child receiver)
            (receiverIs ▸ lhsExpression)).bind fun _ =>
              (convertExpression_total value.val valueBuildable valueExpression).bind fun _ => total_pure _
      · exact total_pure _
    · exact (total_reportAt _ _).bind fun _ => total_pure _
  · exact (total_reportAt _ _).bind fun _ => total_pure _
termination_by sizeOf tree * 8 + 1

end

theorem convertParameters_total (list : SyntaxTree) : Total (convertParameters source list) := by
  unfold convertParameters
  refine total_filterMapM fun parameter _ => ?_
  split
  · exact total_freshId.bind fun _ => total_pure _
  · exact total_pure _

theorem convertVariable_total (tree : SyntaxTree) (buildable : tree.Buildable source)
    (isVariable : tree.kind = .variable) : Total (convertVariable source tree) := by
  unfold convertVariable
  refine total_freshId.bind fun _ => ?_
  dsimp only
  -- A missing name is reported; the initializer is the first child that is not the name.
  split
  case' h_1 => refine (total_pure _).bind fun _ => ?_
  case' h_2 => refine (total_reportAt _ _).bind fun _ => (total_pure _).bind fun _ => ?_
  all_goals
    split
    · next initializer isInitializer =>
      have := SyntaxTree.sizeOf_lt_of_mem initializer.property
      have unnamed : initializer.val.kind ≠ .identifier := by
        simpa using List.find?_some isInitializer
      exact (convertExpression_total source initializer.val (buildable.child initializer)
        (buildable.initializer isVariable initializer.property unnamed)).bind fun _ => total_pure _
    · exact total_pure _

mutual

theorem convertStatements_total (tree : SyntaxTree) (buildable : tree.Buildable source)
    (holder : tree.kind = .file ∨ tree.kind = .block) : Total (convertStatements source tree) := by
  unfold convertStatements
  refine total_filterMapM fun child _ => ?_
  have := SyntaxTree.sizeOf_lt_of_mem child.property
  exact convertStatement_total child.val (buildable.child child)
    (buildable.statements holder child.val child.property)
termination_by sizeOf tree * 8 + 7

theorem convertStatement_total (tree : SyntaxTree) (buildable : tree.Buildable source)
    (isStatement : tree.kind.isStatement) : Total (convertStatement source tree) := by
  unfold convertStatement
  split
  · exact (convertFunction_total tree buildable).map _
  · next isVariable => exact (convertVariable_total source tree buildable isVariable).map _
  · exact total_pure _
  · exact total_pure _
  · -- a statement of no other kind is an expression
    have isExpression : tree.kind.isExpression := by
      cases kind : tree.kind <;> simp_all [SyntaxKind.isStatement]
    exact (convertExpression_total source tree buildable isExpression).map _
termination_by sizeOf tree * 8 + 6

theorem convertFunction_total (tree : SyntaxTree) (buildable : tree.Buildable source) :
    Total (convertFunction source tree) := by
  unfold convertFunction
  refine total_freshId.bind fun _ => ?_
  dsimp only
  -- A missing name, parameter list or block is reported, and the function is built all the same.
  split
  case' h_1 => refine (total_pure _).bind fun _ => ?_
  case' h_2 => refine (total_reportAt _ _).bind fun _ => (total_pure _).bind fun _ => ?_
  all_goals
    split
    case' h_1 => refine (convertParameters_total source _).bind fun _ => ?_
    case' h_2 => refine (total_reportAt _ _).bind fun _ => (total_pure _).bind fun _ => ?_
  all_goals
    split
    · next block isBlock =>
      have := SyntaxTree.sizeOf_lt_of_mem block.property
      exact total_freshId.bind fun _ => (convertStatements_total block.val (buildable.child block)
        (.inr (SyntaxTree.childOfKind?_kind isBlock))).bind fun _ => total_pure _
    · exact (total_reportAt _ _).bind fun _ => total_freshId.bind fun _ => total_pure _
termination_by sizeOf tree * 8 + 5

end

/-- Building a file from a tree whose every node the builder admits never stops with an internal
error: the builder takes the tree with whatever diagnostics it finds on the way. -/
theorem File.build_total {tree : SyntaxTree} (buildable : tree.Buildable source)
    (isFile : tree.kind = .file) (name : String) (reports : Diagnostics) :
    ∃ file built, File.build source name tree reports = .ok (file, built) := by
  have runTotal : Total (do
      let id ← freshId
      let statements ← convertStatements source tree
      return ({ id, name, span := tree.span, statements } : File)) :=
    total_freshId.bind fun _ =>
      (convertStatements_total source tree buildable (.inl isFile)).bind fun _ => total_pure _
  obtain ⟨file, state, ran⟩ := runTotal { reports }
  refine ⟨file, state.reports, ?_⟩
  unfold File.build
  simp only [isFile, bne_self_eq_false, Bool.false_eq_true, ↓reduceIte]
  rw [ran]
  rfl

end Builder

end Hir

end ScriptLowering
