import ScriptLowering.Proofs.ExpressionReading
import ScriptLowering.Proofs.BuildableTrees
import ScriptLowering.Proofs.Segmentation
import ScriptLowering.Hir.Analyze

/-! # The parser writes only trees the builder accepts

Whatever the tokens, and whatever it reports, the parser writes only nodes that the builder
admits (`SyntaxKind.Admits`): an expression wherever the builder reads one, a name below every
reference, a receiver first in every call, and in every binary node a left operand and then an
operator leaf of an `=` or `.` token. The invariant is kept node by node: every node the output
holds is admitted, read through the kinds and spans of its children in the output
(`Output.Admitted`), and each reading function returns a node of a kind its caller relies on.
The spelling of operators comes from the tokens, so the invariant also carries that the tokens
still to be read spell their operators as in the source (`Spelled`), as every token the scanner
reads does (`Token.scan_spelled`).

Unfolded, such an output is a tree every node of which the builder admits
(`unfoldAt_buildable`), and so is the tree of every parsed source (`parseTree_buildable`).
-/

namespace ScriptLowering

/-- A token that is an infix operator covers its spelling in the source. -/
def Token.SpelledIn (source : List Char) (token : Token) : Prop :=
  token.kind = .equals ∨ token.kind = .dot → token.span.SpellsOperator source

namespace Token

theorem punctuation_operator {c : Char} (isOperator : punctuation c = .equals ∨ punctuation c = .dot) :
    c = '=' ∨ c = '.' := by
  unfold punctuation at isOperator
  split at isOperator <;> simp_all

theorem wordKind_not_operator (word : List Char) : wordKind word ≠ .equals ∧ wordKind word ≠ .dot := by
  unfold wordKind
  split <;> simp

/-- The only tokens of an infix operator's kind are the one characters `=` and `.`. -/
theorem lexemeAt_operator {c : Char} {rest : List Char}
    (isOperator : (lexemeAt c rest).1 = .equals ∨ (lexemeAt c rest).1 = .dot) :
    (lexemeAt c rest).2 = ['='] ∨ (lexemeAt c rest).2 = ['.'] := by
  revert isOperator
  unfold lexemeAt
  split
  · split
    split <;> simp
  · split
    · simp
    · split
      · simp [wordKind_not_operator]
      · intro isOperator
        rcases punctuation_operator isOperator with rfl | rfl <;> simp

/-- Every operator token the scanner reads covers its spelling in the text. -/
theorem scan_spelled (source : String) : ∀ token ∈ scan source, token.SpelledIn source.toList := by
  intro token member isOperator
  obtain ⟨c, rest, -, -, read⟩ := mem_scanFrom member
  obtain ⟨-, before, after, split, start⟩ := (scanFrom_segments 0 source.toList).placed token member
  have lexeme : token.lexeme = ['='] ∨ token.lexeme = ['.'] := by
    rw [read] at isOperator ⊢
    exact lexemeAt_operator isOperator
  have sliced : Text.slice source.toList token.start token.stop = token.lexeme := by
    rw [split, Token.stop, start, Nat.zero_add]
    exact Text.slice_append before token.lexeme after
  show Text.slice source.toList token.start token.stop = ['='] ∨ _
  rw [sliced]
  exact lexeme

end Token

namespace Syntax

/-- Every token of the list that is an infix operator covers its spelling in the source. -/
def Spelled (source : List Char) (tokens : List Token) : Prop :=
  ∀ token ∈ tokens, token.SpelledIn source

section Spelled

variable {source : List Char}

@[simp] theorem spelled_nil : Spelled source [] := fun _ member => absurd member List.not_mem_nil

@[simp] theorem spelled_cons {token : Token} {tokens : List Token} :
    Spelled source (token :: tokens) ↔ token.SpelledIn source ∧ Spelled source tokens :=
  List.forall_mem_cons

theorem Spelled.tail {tokens : List Token} (spelled : Spelled source tokens) : Spelled source tokens.tail :=
  fun token member => spelled token (List.mem_of_mem_tail member)

theorem Spelled.eaten {tokens : List Token} (spelled : Spelled source tokens) (kind : TokenKind) :
    Spelled source (eat kind tokens).2.1 := by
  unfold eat
  split
  · split
    · exact (spelled_cons.mp spelled).2
    · exact spelled
  · exact spelled

end Spelled

namespace Output

/-- The kind and span of the node at an index, if there is one. -/
def shallowAt? (out : Output) (index : Nat) : Option (SyntaxKind × Span) :=
  out.nodes[index]?.map fun node => (node.kind, node.span)

/-- The node at `index` exists and its kind passes `kinds`. -/
def HasKind (out : Output) (kinds : SyntaxKind → Bool) (index : Nat) : Prop :=
  ∃ shallow, out.shallowAt? index = some shallow ∧ kinds shallow.1

/-- Every node of the output is one the builder admits, its children read in the output. -/
def Admitted (source : List Char) (out : Output) : Prop :=
  ∀ node ∈ out.nodes.toList, ∃ children, node.children.mapM out.shallowAt? = some children ∧
    node.kind.Admits source children

variable {source : List Char} {out before after : Output} {kinds : SyntaxKind → Bool}

theorem shallowAt?_grow (grows : Grows before after) {index : Nat} {shallow : SyntaxKind × Span}
    (found : before.shallowAt? index = some shallow) : after.shallowAt? index = some shallow := by
  unfold shallowAt? at found ⊢
  obtain ⟨node, present, rfl⟩ := Option.map_eq_some_iff.mp found
  rw [grows.keeps index node present]
  rfl

theorem HasKind.grow {index : Nat} (hasKind : before.HasKind kinds index) (grows : Grows before after) :
    after.HasKind kinds index := by
  obtain ⟨shallow, found, passes⟩ := hasKind
  exact ⟨shallow, shallowAt?_grow grows found, passes⟩

theorem HasKind.weaken {index : Nat} {wider : SyntaxKind → Bool} (hasKind : out.HasKind kinds index)
    (widen : ∀ kind, kinds kind → wider kind) : out.HasKind wider index := by
  obtain ⟨shallow, found, passes⟩ := hasKind
  exact ⟨shallow, found, widen _ passes⟩

theorem admitted_report (span : Span) (message : String) :
    (out.report span message).Admitted source ↔ out.Admitted source := Iff.rfl

theorem admitted_reportIf (admitted : out.Admitted source) (flag : Bool) (span : Span) (message : String) :
    (if flag then out.report span message else out).Admitted source := by
  cases flag
  · exact admitted
  · exact admitted

theorem shallowAt?_push_self (kind : SyntaxKind) (span : Span) (children : List Nat) :
    (out.push kind span children).1.shallowAt? (out.push kind span children).2 = some (kind, span) := by
  simp [shallowAt?, push]

theorem hasKind_push_self {kind : SyntaxKind} (passes : kinds kind) (span : Span) (children : List Nat) :
    (out.push kind span children).1.HasKind kinds (out.push kind span children).2 :=
  ⟨(kind, span), shallowAt?_push_self kind span children, passes⟩

theorem hasKind_leaf_self {kind : SyntaxKind} (passes : kinds kind) (token : Token) :
    (out.leaf kind token).1.HasKind kinds (out.leaf kind token).2 :=
  hasKind_push_self passes token.span []

/-- A node whose children have the kinds and spans the builder admits keeps the output admitted. -/
theorem admitted_push (admitted : out.Admitted source) (kind : SyntaxKind) (span : Span)
    {children : List Nat} {shallows : List (SyntaxKind × Span)}
    (found : List.Forall₂ (fun index shallow => out.shallowAt? index = some shallow) children shallows)
    (admits : kind.Admits source shallows) : (out.push kind span children).1.Admitted source := by
  have grows := grows_push out kind span children
  have keeps {node : SyntaxNode} (old : ∃ shallows, node.children.mapM out.shallowAt? = some shallows ∧
      node.kind.Admits source shallows) :
      ∃ shallows, node.children.mapM (out.push kind span children).1.shallowAt? = some shallows ∧
        node.kind.Admits source shallows := by
    obtain ⟨shallows, mapped, admits⟩ := old
    rw [mapM_eq_some_iff_forall₂] at mapped
    exact ⟨shallows, mapM_eq_some_iff_forall₂.mpr (mapped.imp fun _ _ => shallowAt?_grow grows), admits⟩
  intro node member
  simp only [push, Array.toList_push, List.mem_append, List.mem_singleton] at member
  rcases member with old | rfl
  · exact keeps (admitted node old)
  · exact keeps ⟨shallows, mapM_eq_some_iff_forall₂.mpr found, admits⟩

/-- A leaf of a kind the builder admits without children keeps the output admitted. -/
theorem admitted_leaf (admitted : out.Admitted source) (kind : SyntaxKind)
    (admits : kind.Admits source []) (token : Token) : (out.leaf kind token).1.Admitted source :=
  admitted_push admitted kind token.span .nil admits

/-- Children that exist with kinds that pass `kinds` have kinds and spans that pass it. -/
theorem HasKind.forall₂ {children : List Nat} (present : ∀ index ∈ children, out.HasKind kinds index) :
    ∃ shallows, List.Forall₂ (fun index shallow => out.shallowAt? index = some shallow) children shallows ∧
      ∀ shallow ∈ shallows, kinds shallow.1 := by
  induction children with
  | nil => exact ⟨[], .nil, fun _ member => absurd member List.not_mem_nil⟩
  | cons index rest ih =>
    obtain ⟨shallow, found, passes⟩ := present index List.mem_cons_self
    obtain ⟨shallows, restFound, restPass⟩ := ih fun other member => present other (List.mem_cons_of_mem _ member)
    refine ⟨shallow :: shallows, .cons found restFound, ?_⟩
    intro each member
    rcases List.mem_cons.mp member with rfl | later
    · exact passes
    · exact restPass each later

/-- A node whose children exist with kinds that pass `kinds` keeps the output admitted when its
kind admits any such children. -/
theorem admitted_push_present (admitted : out.Admitted source) (kind : SyntaxKind) {span : Span}
    {children : List Nat} (present : ∀ index ∈ children, out.HasKind kinds index)
    (admits : ∀ shallows, (∀ shallow ∈ shallows, kinds shallow.1) → kind.Admits source shallows) :
    (out.push kind span children).1.Admitted source := by
  obtain ⟨shallows, found, passes⟩ := HasKind.forall₂ present
  exact admitted_push admitted kind span found (admits shallows passes)

theorem HasKind.grow_all {children : List Nat} (present : ∀ index ∈ children, before.HasKind kinds index)
    (grows : Grows before after) : ∀ index ∈ children, after.HasKind kinds index :=
  fun index member => (present index member).grow grows

/-- Children that exist stay so when one more is pushed after them. -/
theorem HasKind.push_all {children : Array Nat} {index : Nat}
    (present : ∀ child ∈ children.toList, before.HasKind kinds child) (grows : Grows before after)
    (added : after.HasKind kinds index) : ∀ child ∈ (children.push index).toList, after.HasKind kinds child := by
  intro child member
  simp only [Array.toList_push, List.mem_append, List.mem_singleton] at member
  rcases member with old | rfl
  · exact (present child old).grow grows
  · exact added

end Output

open Output

section WellFormed

variable {tokens : List Token}

/-- An attempt that kept every node admitted, read a node whose kind passes `kinds` if it read
one, and left tokens that spell their operators as in the source. -/
def Attempt.WellFormed (source : List Char) (kinds : SyntaxKind → Bool) (attempt : Attempt tokens) :
    Prop :=
  attempt.out.Admitted source ∧ (∀ node, attempt.node = some node → attempt.out.HasKind kinds node) ∧
    Spelled source attempt.rest

/-- A step that kept every node admitted, read a node whose kind passes `kinds`, and left tokens
that spell their operators as in the source. -/
def Step.WellFormed (source : List Char) (kinds : SyntaxKind → Bool) (step : Step tokens) : Prop :=
  step.out.Admitted source ∧ step.out.HasKind kinds step.node ∧ Spelled source step.rest

/-- A growth that kept every node admitted, ended at a node whose kind passes `kinds`, and left
tokens that spell their operators as in the source. -/
def Grown.WellFormed (source : List Char) (kinds : SyntaxKind → Bool) (grown : Grown tokens) : Prop :=
  grown.out.Admitted source ∧ grown.out.HasKind kinds grown.node ∧ Spelled source grown.rest

/-- A list loop that kept every node admitted, holds children whose kinds pass `kinds`, and left
tokens that spell their operators as in the source. -/
def LoopWellFormed (source : List Char) (kinds : SyntaxKind → Bool)
    (result : Output × Span × Array Nat × Rest tokens) : Prop :=
  result.1.Admitted source ∧ (∀ index ∈ result.2.2.1.toList, result.1.HasKind kinds index) ∧
    Spelled source result.2.2.2.1

end WellFormed

/-- Any kind at all. -/
def anyKind (_ : SyntaxKind) : Bool := true

/-- Kinds a variable declaration holds: its name, or its initializer. -/
def declarationPart (kind : SyntaxKind) : Bool := kind == .identifier || kind.isExpression

theorem isStatement_of_isExpression {kind : SyntaxKind} (isExpression : kind.isExpression) :
    kind.isStatement := by
  cases kind <;> simp_all [SyntaxKind.isStatement, SyntaxKind.isExpression]

theorem declarationPart_of_isExpression {kind : SyntaxKind} (isExpression : kind.isExpression) :
    declarationPart kind := by
  simp [declarationPart, isExpression]

/-- A variable whose children are its name and its initializer is one the builder admits. -/
theorem admits_variable {source : List Char} {shallows : List (SyntaxKind × Span)}
    (passes : ∀ shallow ∈ shallows, declarationPart shallow.1) : SyntaxKind.Admits source .variable shallows := by
  intro child member notName
  have part := passes child member
  simp only [declarationPart, Bool.or_eq_true, beq_iff_eq] at part
  exact part.resolve_left notName

section Attempts

variable {source : List Char} {kinds : SyntaxKind → Bool} {tokens : List Token} {out : Output}
  {rest : List Token}

theorem wellFormed_some {node : Nat} {restLe : rest.length ≤ tokens.length}
    {restLt : (some node).isSome → rest.length < tokens.length} (admitted : out.Admitted source)
    (hasKind : out.HasKind kinds node) (spelled : Spelled source rest) :
    (⟨some node, out, rest, restLe, restLt⟩ : Attempt tokens).WellFormed source kinds :=
  ⟨admitted, (fun _ read => by cases read; exact hasKind), spelled⟩

theorem wellFormed_none {restLe : rest.length ≤ tokens.length}
    {restLt : (none : Option Nat).isSome → rest.length < tokens.length} (admitted : out.Admitted source)
    (spelled : Spelled source rest) :
    (⟨none, out, rest, restLe, restLt⟩ : Attempt tokens).WellFormed source kinds :=
  ⟨admitted, (fun _ nothing => by cases nothing), spelled⟩

end Attempts

section Expressions

variable {source : List Char}

mutual

/-- Reading an expression keeps the output admitted and the tokens spelled, and the node it reads
is an expression. Proved together with the functions it calls, along the parser's recursion. -/
theorem expression_wellFormed (eof : Nat) (out : Output) (minPower : Nat) (tokens : List Token)
    (admitted : out.Admitted source) (spelled : Spelled source tokens) :
    (expression eof out minPower tokens).WellFormed source SyntaxKind.isExpression := by
  obtain ⟨firstAdmitted, firstNode, firstRest⟩ := primary_wellFormed eof out admitted tokens spelled
  have firstLe := (primary eof out tokens).rest_le
  rw [expression]
  dsimp only
  split
  · exact ⟨firstAdmitted, (fun _ nothing => by cases nothing), firstRest⟩
  · rename_i lhs _ found _
    obtain ⟨laterAdmitted, laterNode, laterRest⟩ :=
      operators_wellFormed eof _ minPower lhs firstAdmitted (firstNode lhs found) _ firstRest
    exact ⟨laterAdmitted, (fun _ read => by cases read; exact laterNode), laterRest⟩
termination_by tokens.length * 16 + 8
decreasing_by all_goals omega

theorem operators_wellFormed (eof : Nat) (out : Output) (minPower lhs : Nat) (admitted : out.Admitted source)
    (lhsKind : out.HasKind SyntaxKind.isExpression lhs) :
    ∀ tokens, Spelled source tokens →
      (operators eof out minPower lhs tokens).WellFormed source SyntaxKind.isExpression
  | [], _ => by
    rw [operators]
    exact ⟨admitted, lhsKind, spelled_nil⟩
  | token :: tail, spelled => by
    obtain ⟨tokenSpelled, tailSpelled⟩ := spelled_cons.mp spelled
    rw [operators]
    dsimp only
    split
    · split
      · exact ⟨admitted, lhsKind, spelled⟩
      · -- a call of the expression so far, with the argument list after it
        have shorter := (argumentList eof out token tail).rest_lt
        obtain ⟨listAdmitted, listNode, listRest⟩ := argumentList_wellFormed eof out token tail admitted tailSpelled
        obtain ⟨callee, calleeFound, calleeKind⟩ := lhsKind.grow (argumentList_grows eof out token tail)
        obtain ⟨arguments, argumentsFound, -⟩ := listNode
        exact operators_wellFormed eof _ minPower _
          (admitted_push listAdmitted .call _ (.cons calleeFound (.cons argumentsFound .nil))
            ⟨_, _, rfl, calleeKind⟩)
          (hasKind_push_self rfl _ _) _ listRest
    · split
      · exact ⟨admitted, lhsKind, spelled⟩
      · rename_i notCall _ left right found
        split
        · exact ⟨admitted, lhsKind, spelled⟩
        · -- `=` or `.`: an operator leaf, then the right operand if there is one
          have operatorSpelled : token.span.SpellsOperator source := tokenSpelled (by
            rcases infixPower_eq_some found with ⟨isEquals, -⟩ | ⟨isDot, -⟩
            · exact .inl isEquals
            · exact .inr isDot)
          have valueLe := (expression eof (out.leaf .operator token).1 right tail).rest_le
          obtain ⟨valueAdmitted, valueNode, valueRest⟩ := expression_wellFormed eof _ right tail
            (admitted_leaf admitted .operator trivial token) tailSpelled
          have valueGrows := expression_grows eof (out.leaf .operator token).1 right tail
          obtain ⟨_, lhsFound, lhsIsExpression⟩ := (lhsKind.grow (grows_leaf out .operator token)).grow valueGrows
          have operatorFound := shallowAt?_grow valueGrows (@shallowAt?_push_self out .operator token.span [])
          split
          · rename_i rhs _ rhsFound _
            obtain ⟨_, rhsFound, rhsIsExpression⟩ := valueNode rhs rhsFound
            exact operators_wellFormed eof _ minPower _
              (admitted_push valueAdmitted .binary _ (.cons lhsFound (.cons operatorFound (.cons rhsFound .nil)))
                ⟨_, _, [_], rfl, lhsIsExpression, rfl, operatorSpelled, by simpa using rhsIsExpression⟩)
              (hasKind_push_self rfl _ _) _ valueRest
          · exact operators_wellFormed eof _ minPower _
              (admitted_push ((admitted_report _ _).mpr valueAdmitted) .binary _
                (.cons lhsFound (.cons operatorFound .nil))
                ⟨_, _, [], rfl, lhsIsExpression, rfl, operatorSpelled, by simp⟩)
              (hasKind_push_self rfl _ _) _ valueRest
termination_by tokens => tokens.length * 16 + 6
decreasing_by all_goals first | omega | (simp only [List.length_cons] at *; omega)

theorem primary_wellFormed (eof : Nat) (out : Output) (admitted : out.Admitted source) :
    ∀ tokens, Spelled source tokens → (primary eof out tokens).WellFormed source SyntaxKind.isExpression
  | [], _ => by
    rw [primary]
    exact wellFormed_none admitted spelled_nil
  | token :: tail, spelled => by
    have tailSpelled := (spelled_cons.mp spelled).2
    rw [primary]
    split
    · -- a reference: the name's leaf below a reference node
      exact wellFormed_some (admitted_push (admitted_leaf admitted .identifier trivial token) .reference _
        (.cons (shallowAt?_push_self _ _ _) .nil) ⟨_, List.mem_cons_self, rfl⟩) (hasKind_push_self rfl _ _)
        tailSpelled
    · exact wellFormed_some (admitted_leaf admitted .stringConstant trivial token) (hasKind_leaf_self rfl token)
        tailSpelled
    · exact wellFormed_some (admitted_leaf ((admitted_report _ _).mpr admitted) .stringConstant trivial token)
        (hasKind_leaf_self rfl token) tailSpelled
    · exact wellFormed_some (admitted_leaf admitted .numberConstant trivial token) (hasKind_leaf_self rfl token)
        tailSpelled
    · exact wellFormed_some (admitted_leaf admitted .booleanConstant trivial token) (hasKind_leaf_self rfl token)
        tailSpelled
    · exact wellFormed_some (admitted_leaf admitted .badCharacter trivial token) (hasKind_leaf_self rfl token)
        tailSpelled
    · -- an expression in parentheses is the node of what is inside them
      dsimp only
      obtain ⟨innerAdmitted, innerNode, innerRest⟩ := expression_wellFormed eof out 0 tail admitted tailSpelled
      have closed := innerRest.eaten .closeParen
      split
      · exact wellFormed_none ((admitted_report _ _).mpr innerAdmitted) closed
      · rename_i node _ found _
        split
        · rename_i eaten
          rw [eaten] at closed
          exact wellFormed_some innerAdmitted (innerNode node found) closed
        · rename_i eaten
          rw [eaten] at closed
          exact wellFormed_some ((admitted_report _ _).mpr innerAdmitted) (innerNode node found) closed
    · obtain ⟨objectAdmitted, objectNode, objectRest⟩ := object_wellFormed eof out token tail admitted tailSpelled
      exact wellFormed_some objectAdmitted objectNode objectRest
    · exact wellFormed_none admitted spelled
termination_by tokens => tokens.length * 16 + 7
decreasing_by all_goals ((try simp only [List.length_cons]); omega)

theorem argumentList_wellFormed (eof : Nat) (out : Output) (opening : Token) (tail : List Token)
    (admitted : out.Admitted source) (spelled : Spelled source tail) :
    (argumentList eof out opening tail).WellFormed source anyKind := by
  rw [argumentList]
  dsimp only
  obtain ⟨loopAdmitted, loopPresent, loopRest⟩ :=
    argumentLoop_wellFormed eof out opening.span #[] true false admitted (by simp) tail spelled
  exact ⟨admitted_push_present loopAdmitted .argumentList loopPresent fun _ _ => trivial,
    hasKind_push_self rfl _ _, loopRest⟩
termination_by (opening :: tail).length * 16 + 4
decreasing_by all_goals ((try simp only [List.length_cons]); omega)

theorem argumentLoop_wellFormed (eof : Nat) (out : Output) (span : Span) (children : Array Nat)
    (expecting seenComma : Bool) (admitted : out.Admitted source)
    (present : ∀ index ∈ children.toList, out.HasKind anyKind index) :
    ∀ tokens, Spelled source tokens →
      LoopWellFormed source anyKind (argumentLoop eof out span children expecting seenComma tokens)
  | [], _ => by
    rw [argumentLoop]
    exact ⟨(admitted_report _ _).mpr admitted, present, spelled_nil⟩
  | token :: tail, spelled => by
    have tailSpelled := (spelled_cons.mp spelled).2
    rw [argumentLoop]
    dsimp only
    split
    · exact ⟨admitted, present, tailSpelled⟩
    · split
      · -- an empty argument before the comma
        have emptied := admitted_push admitted .argument token.span .nil
          fun _ nothing => absurd nothing List.not_mem_nil
        exact argumentLoop_wellFormed eof _ _ _ true true (admitted_leaf emptied .comma trivial token)
          (HasKind.push_all (HasKind.push_all present (grows_push ..) (hasKind_push_self rfl _ _))
            (grows_leaf ..) (hasKind_leaf_self rfl token)) tail tailSpelled
      · exact argumentLoop_wellFormed eof _ _ _ true true (admitted_leaf admitted .comma trivial token)
          (HasKind.push_all present (grows_leaf ..) (hasKind_leaf_self rfl token)) tail tailSpelled
    · exact ⟨(admitted_report _ _).mpr admitted, present, spelled⟩
    · exact ⟨(admitted_report _ _).mpr admitted, present, spelled⟩
    · obtain ⟨valueAdmitted, valueNode, valueRest⟩ :=
        expression_wellFormed eof out 0 (token :: tail) admitted spelled
      have valueGrows := expression_grows eof out 0 (token :: tail)
      have valueLe := (expression eof out 0 (token :: tail)).rest_le
      split
      · rename_i value _ found _
        have shorter := (expression eof out 0 (token :: tail)).rest_lt (by simp [found])
        obtain ⟨_, valueFound, valueIsExpression⟩ := valueNode value found
        cases expecting
        · exact argumentLoop_wellFormed eof _ _ _ false seenComma
            (admitted_push ((admitted_report _ _).mpr valueAdmitted) .argument _ (.cons valueFound .nil)
              (by simpa [SyntaxKind.Admits] using valueIsExpression))
            (HasKind.push_all (HasKind.grow_all present (valueGrows.trans (grows_report ..)))
              (grows_push ..) (hasKind_push_self rfl _ _)) _ valueRest
        · exact argumentLoop_wellFormed eof _ _ _ false seenComma
            (admitted_push valueAdmitted .argument _ (.cons valueFound .nil) (by simpa [SyntaxKind.Admits] using valueIsExpression))
            (HasKind.push_all (HasKind.grow_all present valueGrows) (grows_push ..) (hasKind_push_self rfl _ _))
            _ valueRest
      · -- a malformed argument: its token is skipped, leaving an empty argument where one was expected
        cases expecting
        · exact argumentLoop_wellFormed eof _ _ _ false seenComma ((admitted_report _ _).mpr valueAdmitted)
            (HasKind.grow_all present (valueGrows.trans (grows_report ..))) _ valueRest.tail
        · exact argumentLoop_wellFormed eof _ _ _ false seenComma
            (admitted_push ((admitted_report _ _).mpr valueAdmitted) .argument token.span .nil
              fun _ nothing => absurd nothing List.not_mem_nil)
            (HasKind.push_all (HasKind.grow_all present (valueGrows.trans (grows_report ..)))
              (grows_push ..) (hasKind_push_self rfl _ _)) _ valueRest.tail
termination_by tokens => tokens.length * 16 + 10
decreasing_by all_goals first | omega | (simp only [List.length_cons, List.length_tail] at *; omega)

theorem object_wellFormed (eof : Nat) (out : Output) (opening : Token) (tail : List Token)
    (admitted : out.Admitted source) (spelled : Spelled source tail) :
    (object eof out opening tail).WellFormed source SyntaxKind.isExpression := by
  rw [object]
  dsimp only
  obtain ⟨loopAdmitted, loopPresent, loopRest⟩ :=
    objectLoop_wellFormed eof out opening.span #[] false admitted (by simp) tail spelled
  exact ⟨admitted_push_present loopAdmitted .object loopPresent fun _ _ => trivial,
    hasKind_push_self rfl _ _, loopRest⟩
termination_by (opening :: tail).length * 16 + 4
decreasing_by all_goals ((try simp only [List.length_cons]); omega)

theorem objectLoop_wellFormed (eof : Nat) (out : Output) (span : Span) (children : Array Nat)
    (afterClause : Bool) (admitted : out.Admitted source)
    (present : ∀ index ∈ children.toList, out.HasKind anyKind index) :
    ∀ tokens, Spelled source tokens →
      LoopWellFormed source anyKind (objectLoop eof out span children afterClause tokens)
  | [], _ => by
    rw [objectLoop]
    exact ⟨(admitted_report _ _).mpr admitted, present, spelled_nil⟩
  | token :: tail, spelled => by
    have tailSpelled := (spelled_cons.mp spelled).2
    rw [objectLoop]
    dsimp only
    split
    · exact ⟨admitted, present, tailSpelled⟩
    · exact objectLoop_wellFormed eof _ _ _ false (admitted_leaf admitted .comma trivial token)
        (HasKind.push_all present (grows_leaf ..) (hasKind_leaf_self rfl token)) tail tailSpelled
    · have started := grows_reportIf afterClause out token.span "Expected , between properties"
      have startAdmitted := admitted_reportIf admitted afterClause token.span "Expected , between properties"
      generalize (if afterClause then out.report token.span "Expected , between properties" else out) = start
        at started startAdmitted ⊢
      have shorter := (objectClause eof start token tail).rest_lt
      obtain ⟨clauseAdmitted, clauseNode, clauseRest⟩ :=
        objectClause_wellFormed eof start token tail startAdmitted tailSpelled
      exact objectLoop_wellFormed eof _ _ _ true clauseAdmitted
        (HasKind.push_all (HasKind.grow_all present (started.trans (objectClause_grows ..)))
          (.refl _) clauseNode) _ clauseRest
    · exact ⟨(admitted_report _ _).mpr admitted, present, spelled⟩
    · exact objectLoop_wellFormed eof _ _ _ afterClause ((admitted_report _ _).mpr admitted) present tail
        tailSpelled
termination_by tokens => tokens.length * 16 + 10
decreasing_by all_goals first | omega | (simp only [List.length_cons] at *; omega)

theorem objectClause_wellFormed (eof : Nat) (out : Output) (name : Token) (tail : List Token)
    (admitted : out.Admitted source) (spelled : Spelled source tail) :
    (objectClause eof out name tail).WellFormed source anyKind := by
  rw [objectClause]
  dsimp only
  -- the key node over the name's leaf comes first in every clause
  have keyed := admitted_push (admitted_leaf admitted .identifier trivial name) .objectKey name.span
    (.cons (shallowAt?_push_self _ _ _) .nil) trivial
  have keyFound := @shallowAt?_push_self (out.leaf .identifier name).1 .objectKey name.span
    [(out.leaf .identifier name).2]
  have afterColon := spelled.eaten .colon
  split
  · rename_i eaten
    rw [eaten] at afterColon
    exact ⟨admitted_push ((admitted_report _ _).mpr keyed) .objectClause _ (.cons keyFound .nil) trivial,
      hasKind_push_self rfl _ _, afterColon⟩
  · rename_i valueTokens _ eaten
    rw [eaten] at afterColon
    obtain ⟨valueAdmitted, valueNode, valueRest⟩ := expression_wellFormed eof _ 0 valueTokens keyed afterColon
    split
    · rename_i value _ found _
      obtain ⟨_, valueFound, valueIsExpression⟩ := valueNode value found
      exact ⟨admitted_push
          (admitted_push valueAdmitted .objectValue _ (.cons valueFound .nil)
            (by simpa [SyntaxKind.Admits] using valueIsExpression)) .objectClause _
          (.cons (shallowAt?_grow ((expression_grows ..).trans (grows_push ..)) keyFound)
            (.cons (shallowAt?_push_self _ _ _) .nil)) trivial,
        hasKind_push_self rfl _ _, valueRest⟩
    · exact ⟨admitted_push ((admitted_report _ _).mpr valueAdmitted) .objectClause _
          (.cons (shallowAt?_grow ((expression_grows ..).trans (grows_report ..)) keyFound) .nil) trivial,
        hasKind_push_self rfl _ _, valueRest⟩
termination_by (name :: tail).length * 16 + 4
decreasing_by all_goals ((try simp only [List.length_cons]); omega)

end

end Expressions

section Statements

variable {source : List Char}

/-- A declaration's name is an identifier leaf, its only child so far. -/
theorem declarationName_wellFormed (out : Output) (keyword : Token) (tail : List Token)
    (admitted : out.Admitted source) (spelled : Spelled source tail) :
    LoopWellFormed source declarationPart (declarationName out keyword tail) := by
  have afterName := spelled.eaten .identifier
  unfold declarationName
  split
  · rename_i eaten
    rw [eaten] at afterName
    refine ⟨admitted_leaf admitted .identifier trivial _, ?_, afterName⟩
    intro index member
    simp only [List.mem_cons, List.not_mem_nil, or_false] at member
    subst member
    exact hasKind_leaf_self rfl _
  · rename_i eaten
    rw [eaten] at afterName
    exact ⟨admitted, (fun _ member => absurd member List.not_mem_nil), afterName⟩

theorem parameterLoop_wellFormed (eof : Nat) (out : Output) (span : Span) (children : Array Nat)
    (afterParameter : Bool) (admitted : out.Admitted source)
    (present : ∀ index ∈ children.toList, out.HasKind anyKind index) :
    ∀ tokens, Spelled source tokens →
      LoopWellFormed source anyKind (parameterLoop eof out span children afterParameter tokens)
  | [], _ => by
    rw [parameterLoop]
    exact ⟨(admitted_report _ _).mpr admitted, present, spelled_nil⟩
  | token :: tail, spelled => by
    have tailSpelled := (spelled_cons.mp spelled).2
    rw [parameterLoop]
    split
    · exact ⟨admitted, present, tailSpelled⟩
    · -- a parameter node over the name's leaf
      have started := admitted_reportIf admitted afterParameter token.span "Expected , between parameters"
      have named := admitted_leaf started .identifier trivial token
      exact parameterLoop_wellFormed eof _ _ _ true
        (admitted_push named .parameter _ (.cons (shallowAt?_push_self _ _ _) .nil) trivial)
        (HasKind.push_all (HasKind.grow_all present ((grows_reportIf ..).trans ((grows_leaf ..).trans
          (grows_push ..)))) (.refl _) (hasKind_push_self rfl _ _)) tail tailSpelled
    · exact parameterLoop_wellFormed eof _ _ _ false (admitted_leaf admitted .comma trivial token)
        (HasKind.push_all present (grows_leaf ..) (hasKind_leaf_self rfl token)) tail tailSpelled
    · exact ⟨(admitted_report _ _).mpr admitted, present, spelled⟩
    · exact parameterLoop_wellFormed eof _ _ _ afterParameter ((admitted_report _ _).mpr admitted) present
        tail tailSpelled

theorem parameterList_wellFormed (eof : Nat) (out : Output) (opening : Token) (tail : List Token)
    (admitted : out.Admitted source) (spelled : Spelled source tail) :
    (parameterList eof out opening tail).WellFormed source anyKind := by
  rw [parameterList]
  dsimp only
  obtain ⟨loopAdmitted, loopPresent, loopRest⟩ :=
    parameterLoop_wellFormed eof out opening.span #[] false admitted (by simp) tail spelled
  exact ⟨admitted_push_present loopAdmitted .parameterList loopPresent fun _ _ => trivial,
    hasKind_push_self rfl _ _, loopRest⟩

theorem functionParameters_wellFormed (eof : Nat) (out : Output) (span : Span) (children : Array Nat)
    (admitted : out.Admitted source) (present : ∀ index ∈ children.toList, out.HasKind anyKind index) :
    ∀ tokens, Spelled source tokens →
      LoopWellFormed source anyKind (functionParameters eof out span children tokens)
  | [], spelled => ⟨admitted, present, spelled⟩
  | opening :: more, spelled => by
    rw [functionParameters]
    split
    · dsimp only
      obtain ⟨listAdmitted, listNode, listRest⟩ :=
        parameterList_wellFormed eof out opening more admitted (spelled_cons.mp spelled).2
      exact ⟨listAdmitted, HasKind.push_all present (parameterList_grows ..) listNode, listRest⟩
    · exact ⟨admitted, present, spelled⟩

theorem variableDecl_wellFormed (eof : Nat) (out : Output) (keyword : Token) (tail : List Token)
    (admitted : out.Admitted source) (spelled : Spelled source tail) :
    (variableDecl eof out keyword tail).WellFormed source SyntaxKind.isStatement := by
  rw [variableDecl]
  obtain ⟨namedAdmitted, namedPresent, namedRest⟩ := declarationName_wellFormed out keyword tail admitted spelled
  generalize declarationName out keyword tail = declared at namedAdmitted namedPresent namedRest ⊢
  obtain ⟨namedOut, span, children, afterName, nameLe⟩ := declared
  dsimp only at namedAdmitted namedPresent namedRest ⊢
  have afterEquals := namedRest.eaten .equals
  split
  · rename_i valueTokens _ eaten
    rw [eaten] at afterEquals
    obtain ⟨valueAdmitted, valueNode, valueRest⟩ :=
      expression_wellFormed eof namedOut 0 valueTokens namedAdmitted afterEquals
    have valueGrows := expression_grows eof namedOut 0 valueTokens
    split
    · rename_i value _ found _
      exact ⟨admitted_push_present valueAdmitted .variable
          (HasKind.push_all (HasKind.grow_all namedPresent valueGrows) (.refl _)
            ((valueNode value found).weaken fun _ => declarationPart_of_isExpression))
          fun _ => admits_variable,
        hasKind_push_self rfl _ _, valueRest⟩
    · exact ⟨admitted_push_present ((admitted_report _ _).mpr valueAdmitted) .variable
          (HasKind.grow_all namedPresent (valueGrows.trans (grows_report ..))) fun _ => admits_variable,
        hasKind_push_self rfl _ _, valueRest⟩
  · rename_i eaten
    rw [eaten] at afterEquals
    exact ⟨admitted_push_present namedAdmitted .variable namedPresent fun _ => admits_variable,
      hasKind_push_self rfl _ _, afterEquals⟩

mutual

/-- Reading a statement keeps the output admitted and the tokens spelled, and the node it reads is
a statement: a declaration, a separator or an expression, or a bad character where nothing could
be read. -/
theorem statement_wellFormed (eof : Nat) (out : Output) (head : Token) (tail : List Token)
    (admitted : out.Admitted source) (spelled : Spelled source (head :: tail)) :
    (statement eof out head tail).WellFormed source SyntaxKind.isStatement := by
  have tailSpelled := (spelled_cons.mp spelled).2
  rw [statement]
  split
  · exact functionDecl_wellFormed eof out head tail admitted tailSpelled
  · exact variableDecl_wellFormed eof out head tail admitted tailSpelled
  · exact ⟨admitted_leaf admitted .semicolon trivial head, hasKind_leaf_self rfl head, tailSpelled⟩
  · dsimp only
    obtain ⟨valueAdmitted, valueNode, valueRest⟩ := expression_wellFormed eof out 0 (head :: tail) admitted spelled
    split
    · rename_i node _ found _
      exact ⟨valueAdmitted, (valueNode node found).weaken fun _ => isStatement_of_isExpression, valueRest⟩
    · -- nothing could be read: the first token is skipped as a bad character
      exact ⟨admitted_leaf ((admitted_report _ _).mpr valueAdmitted) .badCharacter trivial head,
        hasKind_leaf_self rfl head, valueRest.tail⟩
termination_by (head :: tail).length * 16 + 14
decreasing_by all_goals omega

theorem functionDecl_wellFormed (eof : Nat) (out : Output) (keyword : Token) (tail : List Token)
    (admitted : out.Admitted source) (spelled : Spelled source tail) :
    (functionDecl eof out keyword tail).WellFormed source SyntaxKind.isStatement := by
  rw [functionDecl]
  obtain ⟨namedAdmitted, namedPresent, namedRest⟩ := declarationName_wellFormed out keyword tail admitted spelled
  generalize declarationName out keyword tail = declared at namedAdmitted namedPresent namedRest ⊢
  obtain ⟨namedOut, span, children, afterName, nameLe⟩ := declared
  dsimp only at namedAdmitted namedPresent namedRest ⊢
  obtain ⟨listedAdmitted, listedPresent, listedRest⟩ :=
    functionParameters_wellFormed eof namedOut span children namedAdmitted
      (fun index member => (namedPresent index member).weaken fun _ _ => rfl) afterName namedRest
  generalize functionParameters eof namedOut span children afterName = parameters
    at listedAdmitted listedPresent listedRest ⊢
  obtain ⟨listedOut, span, children, afterList, listLe⟩ := parameters
  dsimp only at listedAdmitted listedPresent listedRest ⊢
  cases afterList with
  | nil =>
    exact ⟨admitted_push_present listedAdmitted .function listedPresent fun _ _ => trivial,
      hasKind_push_self rfl _ _, spelled_nil⟩
  | cons opening more =>
    have shorter : more.length < tail.length := by simp only [List.length_cons] at listLe; omega
    dsimp only
    split
    · obtain ⟨bodyAdmitted, bodyNode, bodyRest⟩ :=
        block_wellFormed eof listedOut opening more listedAdmitted (spelled_cons.mp listedRest).2
      exact ⟨admitted_push_present bodyAdmitted .function
          (HasKind.push_all listedPresent (block_grows ..) bodyNode) fun _ _ => trivial,
        hasKind_push_self rfl _ _, bodyRest⟩
    · exact ⟨admitted_push_present listedAdmitted .function listedPresent fun _ _ => trivial,
        hasKind_push_self rfl _ _, listedRest⟩
termination_by (keyword :: tail).length * 16 + 12
decreasing_by simp only [List.length_cons]; omega

theorem block_wellFormed (eof : Nat) (out : Output) (opening : Token) (tail : List Token)
    (admitted : out.Admitted source) (spelled : Spelled source tail) :
    (block eof out opening tail).WellFormed source anyKind := by
  rw [block]
  dsimp only
  obtain ⟨loopAdmitted, loopPresent, loopRest⟩ :=
    blockLoop_wellFormed eof out opening.span #[] admitted (by simp) tail spelled
  exact ⟨admitted_push_present loopAdmitted .block loopPresent fun _ passes => passes,
    hasKind_push_self rfl _ _, loopRest⟩
termination_by (opening :: tail).length * 16 + 12
decreasing_by all_goals ((try simp only [List.length_cons]); omega)

theorem blockLoop_wellFormed (eof : Nat) (out : Output) (span : Span) (statements : Array Nat)
    (admitted : out.Admitted source)
    (present : ∀ index ∈ statements.toList, out.HasKind SyntaxKind.isStatement index) :
    ∀ tokens, Spelled source tokens →
      LoopWellFormed source SyntaxKind.isStatement (blockLoop eof out span statements tokens)
  | [], _ => by
    rw [blockLoop]
    exact ⟨(admitted_report _ _).mpr admitted, present, spelled_nil⟩
  | token :: tail, spelled => by
    rw [blockLoop]
    split
    · exact ⟨admitted, present, (spelled_cons.mp spelled).2⟩
    · dsimp only
      have stepLt := (statement eof out token tail).rest_lt
      obtain ⟨stepAdmitted, stepNode, stepRest⟩ := statement_wellFormed eof out token tail admitted spelled
      exact blockLoop_wellFormed eof _ _ _ stepAdmitted
        (HasKind.push_all present (statement_grows ..) stepNode) _ stepRest
termination_by tokens => tokens.length * 16 + 15
decreasing_by all_goals omega

end

/-- The statements of a file keep the output admitted, and each is a statement node. -/
theorem fileLoop_wellFormed (eof : Nat) (out : Output) (statements : Array Nat) (admitted : out.Admitted source)
    (present : ∀ index ∈ statements.toList, out.HasKind SyntaxKind.isStatement index) :
    ∀ tokens, Spelled source tokens →
      (fileLoop eof out statements tokens).1.Admitted source ∧
        ∀ index ∈ (fileLoop eof out statements tokens).2.toList,
          (fileLoop eof out statements tokens).1.HasKind SyntaxKind.isStatement index
  | [], _ => by
    rw [fileLoop]
    exact ⟨admitted, present⟩
  | token :: tail, spelled => by
    rw [fileLoop]
    split
    · exact fileLoop_wellFormed eof _ statements ((admitted_report _ _).mpr admitted) present tail
        (spelled_cons.mp spelled).2
    · dsimp only
      have stepLt := (statement eof out token tail).rest_lt
      obtain ⟨stepAdmitted, stepNode, stepRest⟩ := statement_wellFormed eof out token tail admitted spelled
      exact fileLoop_wellFormed eof _ _ stepAdmitted (HasKind.push_all present (statement_grows ..) stepNode) _
        stepRest
termination_by tokens => tokens.length
decreasing_by all_goals ((try simp only [List.length_cons]); omega)

end Statements

end Syntax

open Syntax Output

/-- A relation that implies a property of its right side passes it to every element of the right
list it relates. -/
theorem forall_mem_of_forall₂ {α β : Type} {related : α → β → Prop} {property : β → Prop}
    (implies : ∀ a b, related a b → property b) :
    ∀ {as : List α} {bs : List β}, List.Forall₂ related as bs → ∀ b ∈ bs, property b
  | _, _, .nil => fun _ member => absurd member List.not_mem_nil
  | _, _, .cons first rest => by
    intro b member
    rcases List.mem_cons.mp member with rfl | later
    · exact implies _ _ first
    · exact forall_mem_of_forall₂ implies rest b later

variable {source : List Char}

/-- Unfolding an admitted output gives a tree every node of which the builder admits, with the
kind and span of the node it was unfolded from. -/
theorem unfoldAt_buildable {out : Output} (admitted : out.Admitted source) {root : Nat} :
    ∀ {fuel index : Nat} {tree : SyntaxTree}, (SyntaxArena.mk out.nodes root).unfoldAt fuel index = some tree →
      tree.Buildable source ∧ out.shallowAt? index = some tree.shallow
  | 0, _, _, unfolds => by simp [SyntaxArena.unfoldAt] at unfolds
  | fuel + 1, index, _, unfolds => by
    rw [SyntaxArena.unfoldAt_succ_eq_some] at unfolds
    obtain ⟨node, found, children, childrenUnfold, rfl⟩ := unfolds
    rw [mapM_eq_some_iff_forall₂] at childrenUnfold
    have each := childrenUnfold.imp fun _ _ => unfoldAt_buildable admitted
    obtain ⟨shallows, mapped, admits⟩ := admitted node (Array.mem_toList_iff.mpr (Array.mem_of_getElem? found))
    -- the children the node reads in the output are those of the unfolded subtrees
    have viaChildren : node.children.mapM out.shallowAt? = some (children.map SyntaxTree.shallow) :=
      mapM_eq_some_iff_forall₂.mpr (List.forall₂_map_right_iff.mpr (each.imp fun _ _ => And.right))
    rw [viaChildren, Option.some.injEq] at mapped
    subst mapped
    refine ⟨.node admits (@forall_mem_of_forall₂ Nat SyntaxTree _ (SyntaxTree.Buildable source)
      (fun _ _ both => both.1) _ _ each), ?_⟩
    have present : out.nodes[index]? = some node := found
    simp only [shallowAt?, present, Option.map_some]
    rfl

theorem admitted_empty : ({} : Output).Admitted source := fun _ member => absurd member List.not_mem_nil

/-- The tree of every source text is one the builder accepts: a file every node of which it
admits. -/
theorem parseTree_buildable (text : String) :
    (Hir.parseTree text).1.Buildable text.toList ∧ (Hir.parseTree text).1.kind = .file := by
  obtain ⟨fileAdmitted, filePresent⟩ := fileLoop_wellFormed text.utf8ByteSize {} #[] admitted_empty
    (fun _ member => absurd member List.not_mem_nil) (Token.scan text) (Token.scan_spelled text)
  unfold Hir.parseTree SyntaxArena.parse
  dsimp only
  generalize fileLoop text.utf8ByteSize {} #[] (Token.scan text) = loop at fileAdmitted filePresent ⊢
  obtain ⟨out, statements⟩ := loop
  dsimp only at fileAdmitted filePresent ⊢
  -- the file node over the statements comes last, and the arena's root is its index
  have rootAdmitted : (out.push .file (.range 0 text.utf8ByteSize) statements.toList).1.Admitted text.toList :=
    admitted_push_present fileAdmitted .file filePresent fun _ passes => passes
  have rootShallow := @shallowAt?_push_self out .file (.range 0 text.utf8ByteSize) statements.toList
  cases unfolds : (SyntaxArena.mk (out.push .file (.range 0 text.utf8ByteSize) statements.toList).1.nodes
      (out.push .file (.range 0 text.utf8ByteSize) statements.toList).2).toTree? with
  | none =>
    exact ⟨.node (fun _ nothing => absurd nothing List.not_mem_nil) (fun _ nothing => absurd nothing List.not_mem_nil),
      rfl⟩
  | some tree =>
    obtain ⟨buildable, rootFound⟩ := unfoldAt_buildable rootAdmitted unfolds
    exact ⟨buildable, (congrArg Prod.fst (Option.some.inj (rootShallow.symm.trans rootFound))).symm⟩


end ScriptLowering
