import ScriptLowering.Proofs.CommaSegments
import ScriptLowering.Proofs.ExpressionReading

/-! # Argument slots keep their positions

The argument loop reads the tokens between the brackets of a call. It keeps an empty argument
for a comma where an argument was expected and for a token that cannot start one, so each
argument after it keeps its position: `f(a,,b)` has three arguments and `f(1, :, 3)` too.

This module proves that the arguments an argument list holds are the segments of the tokens
between its brackets, cut at the commas outside nested brackets, with an empty last segment
dropped: one argument for each segment, in order. An argument has no child exactly when its
segment is `Blank`, holding no token that can start an expression. The statement holds for
every run that reports nothing but malformed arguments, also inside nested lists
(`argumentList_slots`); when nothing is reported at all, a blank segment is an empty one.

The proof follows the parser's recursion, with one statement for each reading function. Every
expression the parser reads is a `Flat` stretch, so it stays inside one segment; every bracketed
list is a `Balanced` stretch between its brackets; and a token that cannot start an expression
is no bracket. Every branch that reports anything else contradicts the hypothesis, since
diagnostics are never taken back.
-/

namespace ScriptLowering

/-- Whether a diagnostic is the argument loop's report of a token that cannot start an argument. -/
def Diagnostic.isMalformedArgument (diagnostic : Diagnostic) : Bool :=
  diagnostic.message.startsWith "Malformed argument"

namespace TokenKind

/-- A token that cannot start an expression and is none of `)`, `}` and `,` is neither a bracket
nor a comma: what the argument loop reports as a malformed argument. -/
theorem plain_of_not_startsPrimary {kind : TokenKind} (notPrimary : kind.startsPrimary = false)
    (notParen : kind ≠ .closeParen) (notBrace : kind ≠ .closeBrace) (notComma : kind ≠ .comma) :
    kind.opensBracket = false ∧ kind.closesBracket = false := by
  cases kind <;> simp_all [startsPrimary, opensBracket, closesBracket]

/-- A token that starts an expression closes no bracket and is no comma. -/
theorem plain_of_startsPrimary {kind : TokenKind} (starts : kind.startsPrimary = true) :
    kind.closesBracket = false ∧ kind ≠ .comma := by
  cases kind <;> simp_all [startsPrimary, closesBracket]

end TokenKind

namespace Syntax

open Output

/-! ## Blank segments and the arguments that fit them -/

/-- A segment where no expression starts: empty, or made of tokens that cannot start one. -/
def Blank (segment : List Token) : Prop :=
  ∀ token ∈ segment, token.kind.startsPrimary = false

@[simp] theorem blank_nil : Blank [] := by simp [Blank]

@[simp] theorem blank_cons {token : Token} {segment : List Token} :
    Blank (token :: segment) ↔ token.kind.startsPrimary = false ∧ Blank segment := by
  simp [Blank]

theorem not_blank_append {read : List Token} (starts : ∃ token ∈ read, token.kind.startsPrimary = true)
    (more : List Token) : ¬ Blank (read ++ more) := by
  obtain ⟨token, member, isStart⟩ := starts
  intro blank
  simp [blank token (List.mem_append_left more member)] at isStart

/-- The arguments among a list's items match the segments one for one, in order, and an argument
has no child exactly when its segment is blank. -/
def ArgumentsFit (items : List SyntaxTree) (segments : List (List Token)) : Prop :=
  List.Forall₂ (fun item segment => item.children = [] ↔ Blank segment)
    (items.filter (·.kind == .argument)) segments

theorem ArgumentsFit.other {items : List SyntaxTree} {segments : List (List Token)}
    (fit : ArgumentsFit items segments) {tree : SyntaxTree} (notArgument : tree.kind ≠ .argument) :
    ArgumentsFit (tree :: items) segments := by
  simpa [ArgumentsFit, List.filter_cons, notArgument] using fit

theorem ArgumentsFit.argument {items : List SyntaxTree} {segments : List (List Token)}
    (fit : ArgumentsFit items segments) {span : Span} {children : List SyntaxTree}
    {segment : List Token} (fits : children = [] ↔ Blank segment) :
    ArgumentsFit (.node .argument span children :: items) (segment :: segments) := by
  simp only [ArgumentsFit, List.filter_cons, SyntaxTree.kind, beq_self_eq_true, ↓reduceIte]
  exact .cons (by simpa only [SyntaxTree.children] using fits) fit

/-! ## The segments the argument loop still owes an argument -/

/-- The segments the argument loop still owes an argument each: all of them while it expects an
argument; after one, the segments after the argument's own. -/
def owedSegments (expecting : Bool) (segments : List (List Token)) : List (List Token) :=
  dropEmptyLast (if expecting then segments else segments.tail)

theorem segmentsFrom_eq_cons (depth : Nat) (tokens : List Token) :
    ∃ head more, segmentsFrom depth tokens = head :: more := by
  cases segments : segmentsFrom depth tokens with
  | nil => exact absurd segments (segmentsFrom_ne_nil depth tokens)
  | cons head more => exact ⟨head, more, rfl⟩

/-- A flat stretch read where an argument was expected starts the segment of that argument. -/
theorem owedSegments_flat {read : List Token} (flat : Flat read) (nonempty : read ≠ [])
    (inner : List Token) :
    owedSegments true (segmentsFrom 0 (read ++ inner)) =
      (read ++ (segmentsFrom 0 inner).headD []) :: owedSegments false (segmentsFrom 0 inner) := by
  obtain ⟨head, more, segmentsIs⟩ := segmentsFrom_eq_cons 0 inner
  rw [segmentsFrom_flat_append flat, segmentsIs]
  simp [joinFront, owedSegments, dropEmptyLast_cons (List.append_ne_nil_of_left_ne_nil nonempty head)]

/-- After an argument, a flat stretch stays in the argument's segment. -/
theorem owedSegments_false_flat {read : List Token} (flat : Flat read) (inner : List Token) :
    owedSegments false (segmentsFrom 0 (read ++ inner)) = owedSegments false (segmentsFrom 0 inner) := by
  obtain ⟨head, more, segmentsIs⟩ := segmentsFrom_eq_cons 0 inner
  rw [segmentsFrom_flat_append flat, segmentsIs]
  simp [joinFront, owedSegments]

theorem headD_flat {read : List Token} (flat : Flat read) (inner : List Token) :
    (segmentsFrom 0 (read ++ inner)).headD [] = read ++ (segmentsFrom 0 inner).headD [] := by
  obtain ⟨head, more, segmentsIs⟩ := segmentsFrom_eq_cons 0 inner
  rw [segmentsFrom_flat_append flat, segmentsIs]
  simp [joinFront]

/-- A comma where an argument was expected owes an empty segment. -/
theorem owedSegments_true_comma {comma : Token} (isComma : comma.kind = .comma) (inner : List Token) :
    owedSegments true (segmentsFrom 0 (comma :: inner)) = [] :: owedSegments true (segmentsFrom 0 inner) := by
  simp [owedSegments, segmentsFrom_comma isComma,
    dropEmptyLast_cons_of_ne_nil [] (segmentsFrom_ne_nil 0 inner)]

/-- A comma after an argument ends its segment. -/
theorem owedSegments_false_comma {comma : Token} (isComma : comma.kind = .comma) (inner : List Token) :
    owedSegments false (segmentsFrom 0 (comma :: inner)) = owedSegments true (segmentsFrom 0 inner) := by
  simp [owedSegments, segmentsFrom_comma isComma]

/-- Right before the closing bracket nothing is owed. -/
@[simp] theorem owedSegments_nil (expecting : Bool) : owedSegments expecting (segmentsFrom 0 []) = [] := by
  cases expecting <;> simp [owedSegments, segmentsFrom, dropEmptyLast]

/-! ## Runs that report nothing but malformed arguments -/

/-- A diagnostic of an output that grows stays where it was. -/
theorem Output.Grows.keeps_report {before after : Output} (grows : Grows before after) (index : Nat)
    (diagnostic : Diagnostic) (found : before.reports[index]? = some diagnostic) :
    after.reports[index]? = some diagnostic := by
  obtain ⟨more, grown⟩ := grows.reports
  rw [← Array.getElem?_toList] at found ⊢
  rw [← grown, List.getElem?_append_left (List.getElem?_eq_some_iff.mp found).1, found]

/-- Every diagnostic added from `before` to `after` reports a malformed argument. -/
def OnlyMalformed (before after : Output) : Prop :=
  ∀ index diagnostic, before.reports.size ≤ index → after.reports[index]? = some diagnostic →
    diagnostic.isMalformedArgument = true

section OnlyMalformed

variable {first second third : Output}

theorem OnlyMalformed.left (late : Grows second third) (only : OnlyMalformed first third) :
    OnlyMalformed first second :=
  fun index diagnostic past found => only index diagnostic past (late.keeps_report index diagnostic found)

theorem OnlyMalformed.right (early : Grows first second) (only : OnlyMalformed first third) :
    OnlyMalformed second third :=
  fun index diagnostic past found => only index diagnostic (Nat.le_trans early.size_le past) found

/-- A run that reports anything but a malformed argument on the way does not report malformed
arguments only. -/
theorem not_onlyMalformed {span : Span} {message : String}
    (other : message.startsWith "Malformed argument" = false) (early : Grows first second)
    (late : Grows (second.report span message) third) : ¬ OnlyMalformed first third := by
  intro only
  have found : (second.report span message).reports[second.reports.size]? = some { message, span } := by
    simp [Output.report, Diagnostics.report]
  have reported := only _ _ early.size_le (late.keeps_report _ _ found)
  simp [Diagnostic.isMalformedArgument, other] at reported

/-- A run that reports nothing reports nothing in its second part either. -/
theorem Output.Grows.quiet_right (early : Grows first second) (late : Grows second third)
    (quiet : third.reports.size = first.reports.size) : third.reports.size = second.reports.size := by
  have := early.size_le
  have := late.size_le
  omega

/-- A run that reports nothing reports nothing but malformed arguments. -/
theorem onlyMalformed_of_quiet (quiet : second.reports.size = first.reports.size) : OnlyMalformed first second := by
  intro index diagnostic past found
  have := (Array.getElem?_eq_some_iff.mp found).1
  omega

/-- A run whose added diagnostics, in the order they were added, all report malformed arguments. -/
theorem onlyMalformed_of_all
    (all : (second.reports.toList.drop first.reports.size).all (·.isMalformedArgument) = true) :
    OnlyMalformed first second := by
  intro index diagnostic past found
  have added : diagnostic ∈ second.reports.toList.drop first.reports.size := by
    apply List.mem_of_getElem?
    rw [List.getElem?_drop, Nat.add_sub_cancel' past, Array.getElem?_toList]
    exact found
  exact List.all_eq_true.mp all diagnostic added

end OnlyMalformed

/-- The infix operators `=` and `.` are neither brackets nor commas. -/
theorem infixPower_plain {kind : TokenKind} {powers : Nat × Nat} (found : infixPower kind = some powers) :
    kind.opensBracket = false ∧ kind.closesBracket = false ∧ kind ≠ .comma := by
  cases kind <;> simp_all [infixPower, TokenKind.opensBracket, TokenKind.closesBracket]

/-! ## What each reading function reads -/

section Reads

variable {tokens : List Token}

/-- The attempt read a flat stretch holding a token that starts an expression, and its node holds
a tree; or it read nothing, in front of a token that cannot start an expression. -/
def Attempt.ReadsFlat (attempt : Attempt tokens) : Prop :=
  (∀ node, attempt.node = some node → ∃ read tree, tokens = read ++ attempt.rest ∧ Flat read ∧
    (∃ token ∈ read, token.kind.startsPrimary = true) ∧ attempt.out.Holds node tree) ∧
  (attempt.node = none → attempt.rest = tokens ∧ ∀ token ∈ tokens.head?, token.kind.startsPrimary = false)

/-- The growth read a flat stretch, and its node holds a tree. -/
def Grown.ReadsFlat (grown : Grown tokens) : Prop :=
  ∃ read tree, tokens = read ++ grown.rest ∧ Flat read ∧ grown.out.Holds grown.node tree

/-- The step read a flat stretch, and its node holds a tree. -/
def Step.ReadsFlat (step : Step tokens) : Prop :=
  ∃ read tree, tokens = read ++ step.rest ∧ Flat read ∧ step.out.Holds step.node tree

/-- After its opening bracket, the step read the balanced stretch `inner` and a closing bracket
of kind `closes`, and its node holds a tree of `kind` over `items`. -/
def Step.ReadsBracketed (kind : SyntaxKind) (closes : TokenKind) {opening : Token} {tail : List Token}
    (step : Step (opening :: tail)) (inner : List Token) (closing : Token) (items : List SyntaxTree) :
    Prop :=
  tail = inner ++ closing :: step.rest ∧ closing.kind = closes ∧ Balanced inner ∧
    ∃ span, step.out.Holds step.node (.node kind span items)

/-- A list loop that started with `children` read the balanced stretch `inner` and a closing
bracket of kind `closes`, and the nodes it added after `children` hold `items`. -/
def LoopReads (closes : TokenKind) (children : Array Nat) (result : Output × Span × Array Nat × Rest tokens)
    (inner : List Token) (closing : Token) (items : List SyntaxTree) (ids : List Nat) : Prop :=
  tokens = inner ++ closing :: result.2.2.2.1 ∧ closing.kind = closes ∧ Balanced inner ∧
    result.2.2.1.toList = children.toList ++ ids ∧ List.Forall₂ result.1.Holds ids items

/-- How the argument loop read: as a list loop, with the arguments among the items it added
fitting the segments it owed an argument each. After an argument, the rest of that argument's
segment is blank; and a run that reported nothing owes no blank segment but an empty one. -/
structure ArgumentsRead (before : Output) (expecting : Bool) (children : Array Nat)
    (result : Output × Span × Array Nat × Rest tokens) (inner : List Token) (closing : Token)
    (items : List SyntaxTree) (ids : List Nat) : Prop where
  loop : LoopReads .closeParen children result inner closing items ids
  restBlank : expecting = false → Blank ((segmentsFrom 0 inner).headD [])
  fit : ArgumentsFit items (owedSegments expecting (segmentsFrom 0 inner))
  quiet : result.1.reports.size = before.reports.size →
    ∀ segment ∈ owedSegments expecting (segmentsFrom 0 inner), Blank segment → segment = []

end Reads

/-- A primary of one token that starts an expression and opens no bracket. -/
theorem readsFlat_single {token : Token} {tail : List Token} {node : Nat} {out : Output}
    {tree : SyntaxTree} (starts : token.kind.startsPrimary = true)
    (plain : token.kind.opensBracket = false) (holds : out.Holds node tree)
    {restLe : tail.length ≤ (token :: tail).length}
    {restLt : (some node).isSome → tail.length < (token :: tail).length} :
    Attempt.ReadsFlat (⟨some node, out, tail, restLe, restLt⟩ : Attempt (token :: tail)) := by
  refine ⟨fun found same => ?_, fun nothing => by simp at nothing⟩
  simp only [Option.some.injEq] at same
  subst same
  obtain ⟨closes, notComma⟩ := TokenKind.plain_of_startsPrimary starts
  exact ⟨[token], tree, rfl, flat_single plain closes notComma, ⟨token, by simp, starts⟩, holds⟩

mutual

theorem expression_readsFlat (eof : Nat) (out : Output) (minPower : Nat) (tokens : List Token) :
    OnlyMalformed out (expression eof out minPower tokens).out →
      (expression eof out minPower tokens).ReadsFlat := by
  have firstReads := primary_readsFlat eof out tokens
  have firstGrows := primary_grows eof out tokens
  rw [expression]
  generalize primary eof out tokens = first at firstReads firstGrows ⊢
  rcases first with ⟨_ | lhs, firstOut, firstRest, firstLe, firstLt⟩
  · intro only
    exact ⟨fun _ found => by simp at found, fun _ => (firstReads only).2 rfl⟩
  · dsimp only
    have shorter := firstLt (by simp)
    have laterGrows := operators_grows eof firstOut minPower lhs firstRest
    intro only
    obtain ⟨read, start, firstSplit, firstFlat, firstStarts, firstHolds⟩ :=
      (firstReads (only.left laterGrows)).1 lhs rfl
    obtain ⟨rest, tree, restSplit, restFlat, holds⟩ :=
      operators_readsFlat eof minPower firstOut lhs firstHolds firstRest (only.right firstGrows)
    refine ⟨fun node found => ?_, fun nothing => by simp at nothing⟩
    simp only [Option.some.injEq] at found
    subst found
    obtain ⟨token, member, starts⟩ := firstStarts
    exact ⟨read ++ rest, tree, by rw [List.append_assoc, ← restSplit, ← firstSplit],
      firstFlat.append restFlat, ⟨token, List.mem_append_left rest member, starts⟩, holds⟩
termination_by tokens.length * 16 + 8
decreasing_by all_goals omega

theorem operators_readsFlat (eof : Nat) (minPower : Nat) :
    ∀ (out : Output) (lhs : Nat) {start : SyntaxTree}, out.Holds lhs start → ∀ tokens,
      OnlyMalformed out (operators eof out minPower lhs tokens).out →
        (operators eof out minPower lhs tokens).ReadsFlat
  | out, lhs, start, holds, [] => by
    rw [operators]
    intro _
    exact ⟨[], start, rfl, .nil, holds⟩
  | out, lhs, start, holds, token :: tail => by
    rw [operators]
    dsimp only
    split
    · rename_i isCall
      split
      · intro _
        exact ⟨[], start, rfl, .nil, holds⟩
      · have listGrows := argumentList_grows eof out token tail
        have shorter := (argumentList eof out token tail).rest_lt
        have listReads := argumentList_readsSlots eof out token tail
        set list := argumentList eof out token tail
        have callGrows := grows_push list.out .call ((list.out.spanOf lhs).cover (list.out.spanOf list.node))
          [lhs, list.node]
        have laterGrows := operators_grows eof
          (list.out.push .call ((list.out.spanOf lhs).cover (list.out.spanOf list.node)) [lhs, list.node]).1
          minPower
          (list.out.push .call ((list.out.spanOf lhs).cover (list.out.spanOf list.node)) [lhs, list.node]).2
          list.rest
        unfold Grown.ReadsFlat
        simp only [Grown.afterStep_out, Grown.afterStep_node, Grown.afterStep_rest]
        intro only
        obtain ⟨inner, closing, items, ⟨listSplit, closes, balanced, span, listHolds⟩, -, -⟩ :=
          listReads (only.left (callGrows.trans laterGrows))
        have callHolds := holds_push (.cons (holds.grow listGrows) (.cons listHolds .nil)) .call
          ((list.out.spanOf lhs).cover (list.out.spanOf list.node))
        obtain ⟨rest, tree, restSplit, restFlat, treeHolds⟩ :=
          operators_readsFlat eof minPower _ _ callHolds list.rest (only.right (listGrows.trans callGrows))
        refine ⟨token :: inner ++ [closing] ++ rest, tree, by simp [listSplit, restSplit],
          (flat_bracketed (by simp [isCall, TokenKind.opensBracket]) balanced
            (by simp [closes, TokenKind.closesBracket])).append restFlat, treeHolds⟩
    · split
      · intro _
        exact ⟨[], start, rfl, .nil, holds⟩
      · rename_i notCall _ left right found
        split
        · intro _
          exact ⟨[], start, rfl, .nil, holds⟩
        · obtain ⟨opens, closes, notComma⟩ := infixPower_plain found
          have operatorHolds := holds_leaf out .operator token
          have lhsHolds := holds.grow (grows_leaf out .operator token)
          have valueGrows := expression_grows eof (out.leaf .operator token).1 right tail
          have valueLe := (expression eof (out.leaf .operator token).1 right tail).rest_le
          have valueReads := expression_readsFlat eof (out.leaf .operator token).1 right tail
          set value := expression eof (out.leaf .operator token).1 right tail
          split
          · rename_i rhsNode _ valueFound _
            dsimp only
            have binaryGrows := grows_push value.out .binary
              (((out.spanOf lhs).cover token.span).cover (value.out.spanOf rhsNode))
              [lhs, (out.leaf .operator token).2, rhsNode]
            have laterGrows := operators_grows eof
              (value.out.push .binary (((out.spanOf lhs).cover token.span).cover (value.out.spanOf rhsNode))
                [lhs, (out.leaf .operator token).2, rhsNode]).1 minPower
              (value.out.push .binary (((out.spanOf lhs).cover token.span).cover (value.out.spanOf rhsNode))
                [lhs, (out.leaf .operator token).2, rhsNode]).2 value.rest
            unfold Grown.ReadsFlat
            simp only [Grown.afterToken_out, Grown.afterToken_node, Grown.afterToken_rest]
            intro only
            obtain ⟨read, rhs, valueSplit, valueFlat, -, valueHolds⟩ :=
              (valueReads ((only.left (binaryGrows.trans laterGrows)).right (grows_leaf ..))).1 rhsNode valueFound
            have binaryHolds := holds_push
              (.cons (lhsHolds.grow valueGrows) (.cons (operatorHolds.grow valueGrows) (.cons valueHolds .nil)))
              .binary (((out.spanOf lhs).cover token.span).cover (value.out.spanOf rhsNode))
            obtain ⟨rest, tree, restSplit, restFlat, treeHolds⟩ :=
              operators_readsFlat eof minPower _ _ binaryHolds value.rest
                (only.right (((grows_leaf ..).trans valueGrows).trans binaryGrows))
            exact ⟨token :: (read ++ rest), tree,
              by rw [List.cons_append, List.append_assoc, ← restSplit, ← valueSplit],
              .token opens closes notComma (valueFlat.append restFlat), treeHolds⟩
          · dsimp only
            unfold Grown.ReadsFlat
            simp only [Grown.afterToken_out]
            intro only
            exact absurd only (not_onlyMalformed (by simp [toString]) ((grows_leaf ..).trans valueGrows)
              ((grows_push ..).trans (operators_grows ..)))
termination_by _ _ _ _ tokens => tokens.length * 16 + 6
decreasing_by all_goals first | omega | (simp only [List.length_cons] at *; omega)

theorem argumentList_readsSlots (eof : Nat) (out : Output) (opening : Token) (tail : List Token) :
    OnlyMalformed out (argumentList eof out opening tail).out →
      ∃ inner closing items,
        (argumentList eof out opening tail).ReadsBracketed .argumentList .closeParen inner closing items ∧
        ArgumentsFit items (argumentSegments inner) ∧
        ((argumentList eof out opening tail).out.reports.size = out.reports.size →
          ∀ segment ∈ argumentSegments inner, Blank segment → segment = []) := by
  rw [argumentList]
  dsimp only
  have loopReads := argumentLoop_reads eof out opening.span #[] true false (by simp) tail
  intro only
  obtain ⟨inner, closing, items, ids, ⟨⟨loopSplit, closes, balanced, children, holds⟩, -, fit, quiet⟩⟩ :=
    loopReads only
  refine ⟨inner, closing, items, ⟨loopSplit, closes, balanced, ?_⟩, fit, quiet⟩
  simp only [List.nil_append] at children
  rw [children]
  exact ⟨_, holds_push holds .argumentList _⟩
termination_by (opening :: tail).length * 16 + 4
decreasing_by all_goals ((try simp only [List.length_cons]); omega)

theorem argumentLoop_reads (eof : Nat) (out : Output) (span : Span) (children : Array Nat)
    (expecting seenComma : Bool) (fresh : expecting = true → seenComma = true ∨ children = #[]) :
    ∀ tokens, OnlyMalformed out (argumentLoop eof out span children expecting seenComma tokens).1 →
      ∃ inner closing items ids, ArgumentsRead out expecting children
        (argumentLoop eof out span children expecting seenComma tokens) inner closing items ids
  | [] => by
    rw [argumentLoop]
    intro only
    exact absurd only (not_onlyMalformed (by simp) (.refl out) (.refl _))
  | token :: tail => by
    rw [argumentLoop]
    dsimp only
    split
    · rename_i closes
      intro _
      refine ⟨[], token, [], [], ⟨⟨rfl, closes, .nil, by simp, .nil⟩, fun _ => by simp [segmentsFrom],
        ?_, fun _ => by simp⟩⟩
      rw [owedSegments_nil]
      exact List.Forall₂.nil
    · rename_i isComma
      have plainComma : token.kind.opensBracket = false ∧ token.kind.closesBracket = false := by
        simp [isComma, TokenKind.opensBracket, TokenKind.closesBracket]
      split
      · -- a comma where an argument was expected leaves an empty argument
        rename_i takesEmpty
        have isExpecting : expecting = true := by simp_all
        subst isExpecting
        dsimp only
        have emptyGrows := grows_push out .argument token.span []
        have commaGrows := grows_leaf (out.push .argument token.span []).1 .comma token
        have loopGrows := argumentLoop_grows eof
          ((out.push .argument token.span []).1.leaf .comma token).1 (span.cover token.span)
          ((children.push (out.push .argument token.span []).2).push
            ((out.push .argument token.span []).1.leaf .comma token).2) true true tail
        intro only
        obtain ⟨inner, closing, items, ids, ⟨⟨loopSplit, closes, balanced, childrenIs, holds⟩, -, fit, quiet⟩⟩ :=
          argumentLoop_reads eof _ _ _ true true (by simp) tail (only.right (emptyGrows.trans commaGrows))
        refine ⟨token :: inner, closing, _ :: _ :: items, _ :: _ :: ids,
          ⟨⟨by rw [List.cons_append, ← loopSplit], closes, .token plainComma.1 plainComma.2 balanced,
            by simp [childrenIs],
            .cons ((holds_push .nil .argument token.span).grow (commaGrows.trans loopGrows))
              (.cons ((holds_leaf _ .comma token).grow loopGrows) holds)⟩,
          by simp, ?_, ?_⟩⟩
        · rw [owedSegments_true_comma isComma]
          exact (fit.other (by simp [SyntaxTree.kind])).argument (by simp)
        · intro quietAll segment member
          rw [owedSegments_true_comma isComma] at member
          rcases List.mem_cons.mp member with rfl | later
          · exact fun _ => rfl
          · exact quiet quietAll segment later
      · rename_i takesNone
        have notExpecting : expecting = false := by
          cases expecting with
          | false => rfl
          | true =>
            rcases fresh rfl with seen | empty
            · simp_all
            · simp_all
        subst notExpecting
        dsimp only
        have commaGrows := grows_leaf out .comma token
        have loopGrows := argumentLoop_grows eof (out.leaf .comma token).1 (span.cover token.span)
          (children.push (out.leaf .comma token).2) true true tail
        intro only
        obtain ⟨inner, closing, items, ids, ⟨⟨loopSplit, closes, balanced, childrenIs, holds⟩, -, fit, quiet⟩⟩ :=
          argumentLoop_reads eof _ _ _ true true (by simp) tail (only.right commaGrows)
        refine ⟨token :: inner, closing, _ :: items, _ :: ids,
          ⟨⟨by rw [List.cons_append, ← loopSplit], closes, .token plainComma.1 plainComma.2 balanced,
            by simp [childrenIs], .cons ((holds_leaf out .comma token).grow loopGrows) holds⟩,
          fun _ => by simp [segmentsFrom_comma isComma], ?_, ?_⟩⟩
        · rw [owedSegments_false_comma isComma]
          exact fit.other (by simp [SyntaxTree.kind])
        · rw [owedSegments_false_comma isComma]
          exact quiet
    · intro only
      exact absurd only (not_onlyMalformed (by simp) (.refl out) (.refl _))
    · intro only
      exact absurd only (not_onlyMalformed (by simp) (.refl out) (.refl _))
    · rename_i notParen notComma _ notBrace
      have valueGrows := expression_grows eof out 0 (token :: tail)
      have valueReads := expression_readsFlat eof out 0 (token :: tail)
      set value := expression eof out 0 (token :: tail)
      split
      · rename_i valueNode _ valueFound _
        -- stated on the call itself, which is how the recursion below is measured
        have shorter : (expression eof out 0 (token :: tail)).rest.length < (token :: tail).length :=
          value.rest_lt_of_node valueFound
        cases expecting with
        | false =>
          dsimp only
          intro only
          exact absurd only (not_onlyMalformed (by simp) valueGrows
            ((grows_push ..).trans (argumentLoop_grows ..)))
        | true =>
          simp only [↓reduceIte]
          have argumentGrows := grows_push value.out .argument (value.out.spanOf valueNode) [valueNode]
          have loopGrows := argumentLoop_grows eof
            (value.out.push .argument (value.out.spanOf valueNode) [valueNode]).1
            (span.cover (value.out.spanOf valueNode))
            (children.push (value.out.push .argument (value.out.spanOf valueNode) [valueNode]).2)
            false seenComma value.rest
          intro only
          obtain ⟨read, tree, valueSplit, valueFlat, valueStarts, valueHolds⟩ :=
            (valueReads (only.left (argumentGrows.trans loopGrows))).1 valueNode valueFound
          obtain ⟨inner, closing, items, ids, ⟨⟨loopSplit, closes, balanced, childrenIs, holds⟩, -, fit,
            quiet⟩⟩ := argumentLoop_reads eof _ _ _ false seenComma (by simp) value.rest
              (only.right (valueGrows.trans argumentGrows))
          have nonempty : read ≠ [] := by
            obtain ⟨first, member, -⟩ := valueStarts
            exact List.ne_nil_of_mem member
          refine ⟨read ++ inner, closing, _ :: items, _ :: ids,
            ⟨⟨by rw [List.append_assoc, ← loopSplit, ← valueSplit], closes, valueFlat.balanced.append balanced,
              by simp [childrenIs], .cons ((holds_push (.cons valueHolds .nil) .argument _).grow loopGrows) holds⟩,
            by simp, ?_, ?_⟩⟩
          · rw [owedSegments_flat valueFlat nonempty]
            exact fit.argument (iff_of_false (by simp) (not_blank_append valueStarts _))
          · intro quietAll segment member blank
            rw [owedSegments_flat valueFlat nonempty] at member
            rcases List.mem_cons.mp member with rfl | later
            · exact absurd blank (not_blank_append valueStarts _)
            · exact quiet ((valueGrows.trans argumentGrows).quiet_right loopGrows quietAll) segment later blank
      · rename_i nothing _
        have tailShorter : (expression eof out 0 (token :: tail)).rest.tail.length < (token :: tail).length := by
          have restLe := (expression eof out 0 (token :: tail)).rest_le
          rw [List.length_tail]
          simp only [List.length_cons] at restLe ⊢
          omega
        have reportGrows := grows_report value.out token.span s!"Malformed argument {token.describe}"
        cases expecting with
        | true =>
          -- a token that cannot start an argument takes the place of one
          simp only [↓reduceIte]
          have emptyGrows := grows_push (value.out.report token.span s!"Malformed argument {token.describe}")
            .argument token.span []
          have loopGrows := argumentLoop_grows eof
            ((value.out.report token.span s!"Malformed argument {token.describe}").push .argument token.span []).1
            (span.cover token.span)
            (children.push
              ((value.out.report token.span s!"Malformed argument {token.describe}").push .argument token.span []).2)
            false seenComma value.rest.tail
          intro only
          obtain ⟨restIs, notPrimary⟩ :=
            (valueReads (only.left (reportGrows.trans (emptyGrows.trans loopGrows)))).2 nothing
          have notStart := notPrimary token rfl
          obtain ⟨opens, closes'⟩ := TokenKind.plain_of_not_startsPrimary notStart notParen notBrace notComma
          obtain ⟨inner, closing, items, ids, ⟨⟨loopSplit, closes, balanced, childrenIs, holds⟩, restBlank, fit,
            -⟩⟩ := argumentLoop_reads eof _ _ _ false seenComma (by simp) value.rest.tail
              (only.right (valueGrows.trans (reportGrows.trans emptyGrows)))
          refine ⟨token :: inner, closing, _ :: items, _ :: ids,
            ⟨⟨by rw [List.cons_append, ← loopSplit, restIs, List.tail_cons], closes, .token opens closes' balanced, by simp [childrenIs],
              .cons ((holds_push .nil .argument token.span).grow loopGrows) holds⟩,
            by simp, ?_, fun quietAll => absurd quietAll (Grows.loud valueGrows (emptyGrows.trans loopGrows))⟩⟩
          rw [show token :: inner = [token] ++ inner from rfl,
            owedSegments_flat (flat_single opens closes' notComma) (by simp)]
          exact fit.argument (iff_of_true rfl (blank_cons.mpr ⟨notStart, restBlank rfl⟩))
        | false =>
          -- after an argument, a malformed token joins its segment
          simp only [Bool.false_eq_true, ↓reduceIte]
          have loopGrows := argumentLoop_grows eof
            (value.out.report token.span s!"Malformed argument {token.describe}") (span.cover token.span) children
            false seenComma value.rest.tail
          intro only
          obtain ⟨restIs, notPrimary⟩ := (valueReads (only.left (reportGrows.trans loopGrows))).2 nothing
          have notStart := notPrimary token rfl
          obtain ⟨opens, closes'⟩ := TokenKind.plain_of_not_startsPrimary notStart notParen notBrace notComma
          obtain ⟨inner, closing, items, ids, ⟨⟨loopSplit, closes, balanced, childrenIs, holds⟩, restBlank, fit,
            -⟩⟩ := argumentLoop_reads eof _ _ _ false seenComma (by simp) value.rest.tail
              (only.right (valueGrows.trans reportGrows))
          have tokenFlat := flat_single opens closes' notComma
          refine ⟨token :: inner, closing, items, ids,
            ⟨⟨by rw [List.cons_append, ← loopSplit, restIs, List.tail_cons], closes, .token opens closes' balanced, childrenIs, holds⟩,
              fun _ => ?_, ?_, fun quietAll => absurd quietAll (Grows.loud valueGrows loopGrows)⟩⟩
          · rw [show token :: inner = [token] ++ inner from rfl, headD_flat tokenFlat]
            exact blank_cons.mpr ⟨notStart, restBlank rfl⟩
          · rw [show token :: inner = [token] ++ inner from rfl, owedSegments_false_flat tokenFlat]
            exact fit
termination_by tokens => tokens.length * 16 + 10
decreasing_by all_goals first | omega | (simp only [List.length_cons] at *; omega)

theorem primary_readsFlat (eof : Nat) (out : Output) :
    ∀ tokens, OnlyMalformed out (primary eof out tokens).out → (primary eof out tokens).ReadsFlat
  | [] => by
    rw [primary]
    intro _
    exact ⟨fun _ found => by simp at found, fun _ => ⟨rfl, by simp⟩⟩
  | token :: tail => by
    rw [primary]
    split
    · rename_i isName
      dsimp only
      intro _
      exact readsFlat_single (by simp [isName, TokenKind.startsPrimary])
        (by simp [isName, TokenKind.opensBracket])
        (holds_push (.cons (holds_leaf out .identifier token) .nil) .reference token.span)
    · rename_i isString
      dsimp only
      intro _
      exact readsFlat_single (by simp [isString, TokenKind.startsPrimary])
        (by simp [isString, TokenKind.opensBracket]) (holds_leaf ..)
    · intro only
      exact absurd only (not_onlyMalformed (by simp) (.refl out) (grows_leaf ..))
    · rename_i isNumber
      dsimp only
      intro _
      exact readsFlat_single (by simp [isNumber, TokenKind.startsPrimary])
        (by simp [isNumber, TokenKind.opensBracket]) (holds_leaf ..)
    · rename_i isBoolean
      dsimp only
      intro _
      exact readsFlat_single (by simp [isBoolean, TokenKind.startsPrimary])
        (by simp [isBoolean, TokenKind.opensBracket]) (holds_leaf ..)
    · rename_i isBad
      dsimp only
      intro _
      exact readsFlat_single (by simp [isBad, TokenKind.startsPrimary])
        (by simp [isBad, TokenKind.opensBracket]) (holds_leaf ..)
    · rename_i isOpen
      dsimp only
      have innerGrows := expression_grows eof out 0 tail
      have innerReads := expression_readsFlat eof out 0 tail
      set inner := expression eof out 0 tail
      split
      · intro only
        exact absurd only (not_onlyMalformed (by simp) innerGrows (.refl _))
      · rename_i node _ innerFound _
        split
        · rename_i closing after afterLe eaten
          intro only
          obtain ⟨read, tree, innerSplit, innerFlat, -, holds⟩ :=
            (innerReads only).1 node innerFound
          obtain ⟨closes, restIs⟩ := eat_eq_some (congrArg Prod.fst eaten)
          have afterIs : (eat .closeParen inner.rest).2.1 = after := by rw [eaten]
          rw [afterIs] at restIs
          have tailIs : tail = read ++ closing :: after := by rw [← restIs, ← innerSplit]
          refine ⟨fun node' found => ?_, fun nothing => by simp at nothing⟩
          simp only [Option.some.injEq] at found
          subst found
          exact ⟨token :: read ++ [closing], tree, by simp [tailIs],
            flat_bracketed (by simp [isOpen, TokenKind.opensBracket]) innerFlat.balanced
              (by simp [closes, TokenKind.closesBracket]),
            ⟨token, by simp, by simp [isOpen, TokenKind.startsPrimary]⟩, holds⟩
        · intro only
          exact absurd only (not_onlyMalformed (by simp) innerGrows (.refl _))
    · rename_i isOpen
      dsimp only
      intro only
      obtain ⟨inner, closing, items, innerSplit, closes, balanced, span, holds⟩ :=
        object_readsBracketed eof out token tail only
      refine ⟨fun node found => ?_, fun nothing => by simp at nothing⟩
      simp only [Option.some.injEq] at found
      subst found
      exact ⟨token :: inner ++ [closing], _, by simp [innerSplit],
        flat_bracketed (by simp [isOpen, TokenKind.opensBracket]) balanced
          (by simp [closes, TokenKind.closesBracket]),
        ⟨token, by simp, by simp [isOpen, TokenKind.startsPrimary]⟩, holds⟩
    · intro _
      refine ⟨fun node found => by simp at found, fun _ => ⟨rfl, ?_⟩⟩
      simp only [List.head?_cons, Option.mem_def, Option.some.injEq, forall_eq']
      cases kind : token.kind <;> simp_all [TokenKind.startsPrimary]
termination_by tokens => tokens.length * 16 + 7
decreasing_by all_goals ((try simp only [List.length_cons]); omega)

theorem object_readsBracketed (eof : Nat) (out : Output) (opening : Token) (tail : List Token) :
    OnlyMalformed out (object eof out opening tail).out →
      ∃ inner closing items,
        (object eof out opening tail).ReadsBracketed .object .closeBrace inner closing items := by
  rw [object]
  dsimp only
  have loopReads := objectLoop_reads eof out opening.span #[] false tail
  intro only
  obtain ⟨inner, closing, items, ids, loopSplit, closes, balanced, children, holds⟩ := loopReads only
  refine ⟨inner, closing, items, loopSplit, closes, balanced, ?_⟩
  simp only [List.nil_append] at children
  rw [children]
  exact ⟨_, holds_push holds .object _⟩
termination_by (opening :: tail).length * 16 + 4
decreasing_by all_goals ((try simp only [List.length_cons]); omega)

theorem objectLoop_reads (eof : Nat) (out : Output) (span : Span) (children : Array Nat)
    (afterClause : Bool) :
    ∀ tokens, OnlyMalformed out (objectLoop eof out span children afterClause tokens).1 →
      ∃ inner closing items ids,
        LoopReads .closeBrace children (objectLoop eof out span children afterClause tokens) inner closing
          items ids
  | [] => by
    rw [objectLoop]
    intro only
    exact absurd only (not_onlyMalformed (by simp) (.refl out) (.refl _))
  | token :: tail => by
    rw [objectLoop]
    dsimp only
    split
    · rename_i closes
      intro _
      exact ⟨[], token, [], [], rfl, closes, .nil, by simp, .nil⟩
    · rename_i isComma
      have commaGrows := grows_leaf out .comma token
      have loopGrows := objectLoop_grows eof (out.leaf .comma token).1 (span.cover token.span)
        (children.push (out.leaf .comma token).2) false tail
      intro only
      obtain ⟨inner, closing, items, ids, loopSplit, closes, balanced, childrenIs, holds⟩ :=
        objectLoop_reads eof _ _ _ false tail (only.right commaGrows)
      exact ⟨token :: inner, closing, _ :: items, _ :: ids, by rw [List.cons_append, ← loopSplit],
        closes, .token (by simp [isComma, TokenKind.opensBracket]) (by simp [isComma, TokenKind.closesBracket])
          balanced,
        by simp [childrenIs], .cons ((holds_leaf out .comma token).grow loopGrows) holds⟩
    · rename_i isName
      cases afterClause with
      | true =>
        intro only
        exact absurd only (not_onlyMalformed (by simp) (.refl out)
          ((objectClause_grows ..).trans (objectLoop_grows ..)))
      | false =>
        generalize startIs :
          (if false = true then out.report token.span "Expected , between properties" else out) = start
        have startEq : out = start := by rw [← startIs]; rfl
        subst startEq
        have clauseGrows := objectClause_grows eof out token tail
        have shorter : (objectClause eof out token tail).rest.length ≤ tail.length := by
          have := (objectClause eof out token tail).rest_lt
          simp only [List.length_cons] at this
          omega
        have loopGrows := objectLoop_grows eof (objectClause eof out token tail).out
          (span.cover ((objectClause eof out token tail).out.spanOf (objectClause eof out token tail).node))
          (children.push (objectClause eof out token tail).node) true (objectClause eof out token tail).rest
        intro only
        obtain ⟨read, tree, clauseSplit, clauseFlat, clauseHolds⟩ :=
          objectClause_readsFlat eof out token tail isName (only.left loopGrows)
        obtain ⟨inner, closing, items, ids, loopSplit, closes, balanced, childrenIs, holds⟩ :=
          objectLoop_reads eof _ _ _ true (objectClause eof out token tail).rest (only.right clauseGrows)
        exact ⟨read ++ inner, closing, _ :: items, _ :: ids,
          by rw [List.append_assoc, ← loopSplit]; exact clauseSplit, closes,
          clauseFlat.balanced.append balanced, by simp [childrenIs], .cons (clauseHolds.grow loopGrows) holds⟩
    · intro only
      exact absurd only (not_onlyMalformed (by simp) (.refl out) (.refl _))
    · intro only
      exact absurd only (not_onlyMalformed (by simp [toString]) (.refl out) (objectLoop_grows ..))
termination_by tokens => tokens.length * 16 + 10
decreasing_by all_goals (try simp only [List.length_cons]); omega

theorem objectClause_readsFlat (eof : Nat) (out : Output) (name : Token) (tail : List Token)
    (isName : name.kind = .identifier) :
    OnlyMalformed out (objectClause eof out name tail).out → (objectClause eof out name tail).ReadsFlat := by
  rw [objectClause]
  dsimp only
  have keyHolds := holds_push (.cons (holds_leaf out .identifier name) .nil) .objectKey name.span
  have keyGrows := (grows_leaf out .identifier name).trans
    (grows_push (out.leaf .identifier name).1 .objectKey name.span [(out.leaf .identifier name).2])
  split
  · intro only
    exact absurd only (not_onlyMalformed (by simp) keyGrows (grows_push ..))
  · rename_i colon afterColon colonLe eaten
    obtain ⟨isColon, tailIs⟩ := eat_eq_some (congrArg Prod.fst eaten)
    have afterIs : (eat .colon tail).2.1 = afterColon := by rw [eaten]
    rw [afterIs] at tailIs
    have valueGrows := expression_grows eof
      ((out.leaf .identifier name).1.push .objectKey name.span [(out.leaf .identifier name).2]).1 0 afterColon
    split
    · rename_i valueNode _ valueFound _
      dsimp only
      intro only
      obtain ⟨read, tree, valueSplit, valueFlat, -, valueHolds⟩ :=
        (expression_readsFlat eof _ 0 afterColon
          ((only.left ((grows_push ..).trans (grows_push ..))).right keyGrows)).1 valueNode valueFound
      refine ⟨name :: colon :: read, _, by rw [List.cons_append, List.cons_append, ← valueSplit, ← tailIs],
        .token (by simp [isName, TokenKind.opensBracket]) (by simp [isName, TokenKind.closesBracket])
          (by simp [isName])
          (.token (by simp [isColon, TokenKind.opensBracket]) (by simp [isColon, TokenKind.closesBracket])
            (by simp [isColon]) valueFlat),
        holds_push (.cons ((keyHolds.grow valueGrows).grow (grows_push ..))
          (.cons (holds_push (.cons valueHolds .nil) .objectValue _) .nil)) .objectClause _⟩
    · intro only
      exact absurd only (not_onlyMalformed (by simp) (keyGrows.trans valueGrows) (grows_push ..))
termination_by (name :: tail).length * 16 + 4
decreasing_by all_goals ((try simp only [List.length_cons]); omega)

end

/-- With nothing reported, a blank segment is an empty one, and an argument has no child exactly
when its segment is empty. -/
theorem forall₂_empty_of_blank {arguments : List SyntaxTree} {segments : List (List Token)}
    (fit : List.Forall₂ (fun argument segment => argument.children = [] ↔ Blank segment) arguments segments)
    (blankEmpty : ∀ segment ∈ segments, Blank segment → segment = []) :
    List.Forall₂ (fun argument segment => argument.children = [] ↔ segment = []) arguments segments := by
  induction fit with
  | nil => exact .nil
  | @cons argument segment _ _ fits _ ih =>
    have empty := blankEmpty segment List.mem_cons_self
    refine .cons ⟨fun childless => empty (fits.mp childless), ?_⟩
      (ih fun other member => blankEmpty other (List.mem_cons_of_mem _ member))
    rintro rfl
    exact fits.mpr blank_nil

/-- The arguments of a list the parser read while reporting nothing but malformed arguments:
the list read `(`, the tokens `inner` and `)`, and its arguments are the segments of `inner`,
one each and in order, cut at the commas outside brackets with an empty last segment dropped.
An argument has no child exactly when its segment holds no token that starts an expression,
and, when nothing at all was reported, exactly when its segment is empty. -/
theorem argumentList_slots (eof : Nat) (out : Output) (opening : Token) (tail : List Token)
    (onlyMalformed : OnlyMalformed out (argumentList eof out opening tail).out) :
    ∃ inner closing span items,
      tail = inner ++ closing :: (argumentList eof out opening tail).rest ∧ closing.kind = .closeParen ∧
      (argumentList eof out opening tail).out.Holds (argumentList eof out opening tail).node
        (.node .argumentList span items) ∧
      List.Forall₂ (fun argument segment => argument.children = [] ↔ Blank segment)
        (items.filter (·.kind == .argument)) (argumentSegments inner) ∧
      ((argumentList eof out opening tail).out.reports.size = out.reports.size →
        List.Forall₂ (fun argument segment => argument.children = [] ↔ segment = [])
          (items.filter (·.kind == .argument)) (argumentSegments inner)) := by
  obtain ⟨inner, closing, items, ⟨split, closes, -, span, holds⟩, fit, quiet⟩ :=
    argumentList_readsSlots eof out opening tail onlyMalformed
  exact ⟨inner, closing, span, items, split, closes, holds, fit,
    fun nothingReported => forall₂_empty_of_blank fit (quiet nothingReported)⟩

end Syntax

end ScriptLowering
