import ScriptLowering.Proofs.ExpressionGrammar

/-! # What the expression parser reads is an expression

A run of the expression parser that reports nothing reads an expression of the grammar: the
tokens it consumed derive the tree its node holds, and the token it stopped at cannot continue
the expression (`expression_sound`). Each reading function has its own statement of what it
read (`Attempt.ReadsExpr`, `Grown.ReadsSuffixes`, `ReadsList`, ...), and the statements are
proved together along the parser's recursion, with its measure.

Two facts about binding powers carry the operator loop. Above every binding power nothing
extends the left operand, so the right operand of `.` is a primary (`expression_tight`); and
nothing extends an expression followed by a token that cannot continue it (`operators_ends`),
so after the right operand of `=` the loop stops. Every branch that reports a diagnostic
contradicts the run being quiet, since diagnostics are never taken back (`Grows.loud`).
-/

namespace ScriptLowering

/-- Covering a span already covered changes nothing. -/
theorem Span.cover_cover_self (first second : Span) :
    (first.cover second).cover second = first.cover second := by
  cases first <;> cases second <;> simp only [Span.cover] <;> grind

namespace Syntax

open Output

/-- Reading a token of a kind takes it off the front. -/
theorem eat_eq_some {kind : TokenKind} {tokens : List Token} {token : Token}
    (eaten : (eat kind tokens).1 = some token) : token.kind = kind ∧ tokens = token :: (eat kind tokens).2.1 := by
  cases tokens with
  | nil => simp [eat] at eaten
  | cons head tail =>
    simp only [eat] at eaten ⊢
    split at eaten <;> simp_all

/-- Operators that bind less tightly than `minPower` are left for the caller: at a power above
every binding power, nothing extends the left operand. -/
theorem operators_tight {eof : Nat} {out : Output} {minPower lhs : Nat} (tight : 5 < minPower) :
    ∀ tokens, operators eof out minPower lhs tokens = .stay lhs out tokens := by
  intro tokens
  cases tokens with
  | nil => rw [operators]
  | cons token tail =>
    rw [operators]
    split
    · rw [if_pos (by simp only [callPower]; omega)]
    · split
      · rfl
      · rename_i left right found
        have : left ≤ 5 := by
          cases kind : token.kind <;> simp [kind, infixPower] at found <;> omega
        rw [if_pos (by omega)]

/-- Nothing extends an expression followed by a token that cannot continue it. -/
theorem operators_ends {eof : Nat} {out : Output} {minPower lhs : Nat} {tokens : List Token}
    (ends : EndsExpression tokens) : operators eof out minPower lhs tokens = .stay lhs out tokens := by
  cases tokens with
  | nil => rw [operators]
  | cons token tail =>
    rw [endsExpression_cons] at ends
    have notCall : token.kind ≠ .openParen := by
      intro isCall; simp [isCall, TokenKind.continuesExpression] at ends
    have notInfix : infixPower token.kind = none := by
      cases kind : token.kind <;> simp_all [infixPower, TokenKind.continuesExpression]
    rw [operators, if_neg notCall]
    simp only [notInfix]

/-- At a power above every binding power, an expression is a primary. -/
theorem expression_tight {eof : Nat} {out : Output} {minPower : Nat} (tight : 5 < minPower)
    (tokens : List Token) : expression eof out minPower tokens = primary eof out tokens := by
  rw [expression]
  rcases primary eof out tokens with ⟨_ | lhs, out', rest, restLe, restLt⟩
  · rfl
  · simp only [operators_tight tight]
    rfl

section Reads

variable {tokens : List Token}

/-- The attempt read an expression: the tokens it read derive the tree its node holds, and what
it left ends the expression. -/
def Attempt.ReadsExpr (attempt : Attempt tokens) : Prop :=
  ∀ node, attempt.node = some node → ∃ read tree, tokens = read ++ attempt.rest ∧ Expr read tree ∧
    attempt.out.Holds node tree ∧ EndsExpression attempt.rest

/-- The attempt read a primary: the tokens it read derive the tree its node holds. -/
def Attempt.ReadsPrimary (attempt : Attempt tokens) : Prop :=
  ∀ node, attempt.node = some node → ∃ read tree, tokens = read ++ attempt.rest ∧ Primary read tree ∧
    attempt.out.Holds node tree

/-- The growth read suffixes of an expression whose tree is `start`, up to where it ends. -/
def Grown.ReadsSuffixes (start : SyntaxTree) (grown : Grown tokens) : Prop :=
  ∃ read tree, tokens = read ++ grown.rest ∧ Suffixes start read tree ∧
    grown.out.Holds grown.node tree ∧ EndsExpression grown.rest

/-- The step read an argument list. -/
def Step.ReadsArguments (step : Step tokens) : Prop :=
  ∃ read tree, tokens = read ++ step.rest ∧ ArgumentList read tree ∧ step.out.Holds step.node tree

/-- The step read a primary, an object. -/
def Step.ReadsPrimary (step : Step tokens) : Prop :=
  ∃ read tree, tokens = read ++ step.rest ∧ Primary read tree ∧ step.out.Holds step.node tree

/-- The step read an object clause `name: value`. -/
def Step.ReadsClause (step : Step tokens) : Prop :=
  ∃ name colon value tree, tokens = name :: colon :: value ++ step.rest ∧ name.kind = .identifier ∧
    colon.kind = .colon ∧ Expr value tree ∧ step.out.Holds step.node (clauseTree name colon tree)

/-- A list loop that started at `span` with `children` read the items `Items` derives and then a
closing bracket of kind `closes`: its children are the old ones and one index per item, and its
span covers the items and the bracket. -/
def ReadsList (Items : List Token → List SyntaxTree → Prop) (closes : TokenKind) (span : Span)
    (children : Array Nat) (result : Output × Span × Array Nat × Rest tokens) : Prop :=
  ∃ inner closing items ids, tokens = inner ++ closing :: result.2.2.2.1 ∧ closing.kind = closes ∧
    Items inner items ∧ result.2.2.1.toList = children.toList ++ ids ∧
    List.Forall₂ result.1.Holds ids items ∧
    result.2.1 = ((items.map SyntaxTree.span).foldl Span.cover span).cover closing.span

end Reads

/-- The parser pushes a call over a callee and an argument list that hold. -/
theorem holds_push_call {out : Output} {callee list : Nat} {start arguments : SyntaxTree}
    (calleeHolds : out.Holds callee start) (listHolds : out.Holds list arguments) :
    (out.push .call ((out.spanOf callee).cover (out.spanOf list)) [callee, list]).1.Holds
      (out.push .call ((out.spanOf callee).cover (out.spanOf list)) [callee, list]).2
      (callTree start arguments) := by
  rw [calleeHolds.spanOf_eq, listHolds.spanOf_eq]
  exact holds_push (.cons calleeHolds (.cons listHolds .nil)) .call _

/-- The parser pushes a binary node over its operands and the operator's leaf, taking the left
operand's span from an earlier output. -/
theorem holds_push_binary {before out : Output} {lhs operator value : Nat} {start rhs : SyntaxTree}
    {token : Token} (lhsBefore : before.Holds lhs start) (lhsHolds : out.Holds lhs start)
    (operatorHolds : out.Holds operator (leafTree .operator token)) (valueHolds : out.Holds value rhs) :
    (out.push .binary (((before.spanOf lhs).cover token.span).cover (out.spanOf value))
        [lhs, operator, value]).1.Holds
      (out.push .binary (((before.spanOf lhs).cover token.span).cover (out.spanOf value))
        [lhs, operator, value]).2
      (binaryTree start token rhs) := by
  rw [lhsBefore.spanOf_eq, valueHolds.spanOf_eq]
  exact holds_push (.cons lhsHolds (.cons operatorHolds (.cons valueHolds .nil))) .binary _

/-- The two infix operators and their binding powers. -/
theorem infixPower_eq_some {kind : TokenKind} {left right : Nat} (found : infixPower kind = some (left, right)) :
    (kind = .equals ∧ left = 2 ∧ right = 1) ∨ (kind = .dot ∧ left = 5 ∧ right = 6) := by
  cases kind <;> simp_all [infixPower]

mutual

theorem expression_sound (eof : Nat) (out : Output) {minPower : Nat} (low : minPower ≤ 1)
    (tokens : List Token) :
    (expression eof out minPower tokens).out.reports.size = out.reports.size →
      (expression eof out minPower tokens).ReadsExpr := by
  rw [expression]
  dsimp only
  have firstGrows := primary_grows eof out tokens
  have firstLe := (primary eof out tokens).rest_le
  split
  · intro _ node nothing
    simp at nothing
  · rename_i lhs _ found _
    intro quiet node read
    dsimp only at quiet read ⊢
    simp only [Option.some.injEq] at read
    subst read
    have laterGrows :=
      operators_grows eof (primary eof out tokens).out minPower lhs (primary eof out tokens).rest
    have := firstGrows.size_le
    have := laterGrows.size_le
    obtain ⟨first, start, firstSplit, isPrimary, firstHolds⟩ :=
      primary_sound eof out tokens (by omega) lhs found
    obtain ⟨rest, tree, restSplit, suffixes, holds, ends⟩ :=
      operators_sound eof low _ lhs firstHolds (primary eof out tokens).rest (by omega)
    exact ⟨first ++ rest, tree, by rw [List.append_assoc, ← restSplit, ← firstSplit],
      .mk isPrimary suffixes, holds, ends⟩
termination_by tokens.length * 16 + 8
decreasing_by all_goals omega

theorem operators_sound (eof : Nat) {minPower : Nat} (low : minPower ≤ 1) :
    ∀ (out : Output) (lhs : Nat) {start : SyntaxTree}, out.Holds lhs start → ∀ tokens,
      (operators eof out minPower lhs tokens).out.reports.size = out.reports.size →
        (operators eof out minPower lhs tokens).ReadsSuffixes start
  | out, lhs, start, holds, [] => by
    rw [operators]
    intro _
    exact ⟨[], start, rfl, .done start, holds, endsExpression_nil⟩
  | out, lhs, start, holds, token :: tail => by
    rw [operators]
    dsimp only
    split
    · rename_i isCall
      rw [if_neg (by simp only [callPower]; omega)]
      have listGrows := argumentList_grows eof out token tail
      have shorter := (argumentList eof out token tail).rest_lt
      have listSound := argumentList_sound eof out token tail isCall
      set list := argumentList eof out token tail
      have laterGrows := operators_grows eof
        (list.out.push .call ((list.out.spanOf lhs).cover (list.out.spanOf list.node)) [lhs, list.node]).1
        minPower
        (list.out.push .call ((list.out.spanOf lhs).cover (list.out.spanOf list.node)) [lhs, list.node]).2
        list.rest
      unfold Grown.ReadsSuffixes
      simp only [Grown.afterStep_out, Grown.afterStep_node, Grown.afterStep_rest]
      intro quiet
      have := listGrows.size_le
      have := laterGrows.size_le
      simp only [push_reports] at this
      obtain ⟨read, arguments, listSplit, isList, listHolds⟩ := listSound (by omega)
      have calleeHolds := holds.grow listGrows
      have callHolds := holds_push_call calleeHolds listHolds
      obtain ⟨rest, tree, restSplit, suffixes, treeHolds, ends⟩ :=
        operators_sound eof low _ _ callHolds list.rest (by simp only [push_reports]; omega)
      exact ⟨read ++ rest, tree, by rw [List.append_assoc, ← restSplit, ← listSplit],
        .call isList suffixes, treeHolds, ends⟩
    · split
      · rename_i notCall _ noInfix
        intro _
        refine ⟨[], start, rfl, .done start, holds, ?_⟩
        cases kind : token.kind <;> simp_all [infixPower, TokenKind.continuesExpression]
      · rename_i notCall _ left right found
        rw [if_neg (by rcases infixPower_eq_some found with ⟨-, rfl, -⟩ | ⟨-, rfl, -⟩ <;> omega)]
        have operatorHolds := holds_leaf out .operator token
        have lhsHolds := holds.grow (grows_leaf out .operator token)
        rcases infixPower_eq_some found with ⟨isEquals, rfl, rfl⟩ | ⟨isDot, rfl, rfl⟩
        · -- `=`: the right operand is a whole expression, after which nothing can follow
          have valueGrows := expression_grows eof (out.leaf .operator token).1 1 tail
          have valueLe := (expression eof (out.leaf .operator token).1 1 tail).rest_le
          have valueSound := expression_sound eof (out.leaf .operator token).1 (Nat.le_refl 1) tail
          set value := expression eof (out.leaf .operator token).1 1 tail
          split
          · rename_i rhsNode _ valueFound _
            dsimp only
            unfold Grown.ReadsSuffixes
            simp only [Grown.afterToken_out, Grown.afterToken_node, Grown.afterToken_rest]
            intro quiet
            have laterGrows := operators_grows eof
              (value.out.push .binary (((out.spanOf lhs).cover token.span).cover (value.out.spanOf rhsNode))
                [lhs, (out.leaf .operator token).2, rhsNode]).1 minPower
              (value.out.push .binary (((out.spanOf lhs).cover token.span).cover (value.out.spanOf rhsNode))
                [lhs, (out.leaf .operator token).2, rhsNode]).2 value.rest
            have valueSize := valueGrows.size_le
            have laterSize := laterGrows.size_le
            simp only [push_reports, leaf_reports] at valueSize laterSize quiet valueSound
            obtain ⟨read, rhs, valueSplit, isExpr, valueHolds, ends⟩ := valueSound (by omega) rhsNode valueFound
            simp only [operators_ends ends, Grown.stay_out, Grown.stay_node, Grown.stay_rest]
            exact ⟨token :: read, binaryTree start token rhs, by rw [List.cons_append, ← valueSplit],
              .assign isEquals isExpr,
              holds_push_binary holds (lhsHolds.grow valueGrows) (operatorHolds.grow valueGrows) valueHolds,
              ends⟩
          · dsimp only
            unfold Grown.ReadsSuffixes
            simp only [Grown.afterToken_out]
            intro quiet
            exact absurd quiet (Grows.loud ((grows_leaf ..).trans valueGrows)
              ((grows_push ..).trans (operators_grows ..)))
        · -- `.`: the right operand is a single primary
          have valueGrows := expression_grows eof (out.leaf .operator token).1 6 tail
          have valueLe := (expression eof (out.leaf .operator token).1 6 tail).rest_le
          have propertySound : (expression eof (out.leaf .operator token).1 6 tail).out.reports.size =
              (out.leaf .operator token).1.reports.size →
              (expression eof (out.leaf .operator token).1 6 tail).ReadsPrimary := by
            rw [expression_tight (by omega)]
            exact primary_sound eof (out.leaf .operator token).1 tail
          set value := expression eof (out.leaf .operator token).1 6 tail
          split
          · rename_i rhsNode _ valueFound _
            dsimp only
            unfold Grown.ReadsSuffixes
            simp only [Grown.afterToken_out, Grown.afterToken_node, Grown.afterToken_rest]
            intro quiet
            have laterGrows := operators_grows eof
              (value.out.push .binary (((out.spanOf lhs).cover token.span).cover (value.out.spanOf rhsNode))
                [lhs, (out.leaf .operator token).2, rhsNode]).1 minPower
              (value.out.push .binary (((out.spanOf lhs).cover token.span).cover (value.out.spanOf rhsNode))
                [lhs, (out.leaf .operator token).2, rhsNode]).2 value.rest
            have valueSize := valueGrows.size_le
            have laterSize := laterGrows.size_le
            simp only [push_reports, leaf_reports] at valueSize laterSize quiet propertySound
            obtain ⟨read, rhs, valueSplit, isPrimary, valueHolds⟩ := propertySound (by omega) rhsNode valueFound
            have binaryHolds :=
              holds_push_binary holds (lhsHolds.grow valueGrows) (operatorHolds.grow valueGrows) valueHolds
            obtain ⟨rest, tree, restSplit, suffixes, treeHolds, ends⟩ :=
              operators_sound eof low _ _ binaryHolds value.rest (by simp only [push_reports]; omega)
            exact ⟨token :: (read ++ rest), tree,
              by rw [List.cons_append, List.append_assoc, ← restSplit, ← valueSplit],
              .member isDot isPrimary suffixes, treeHolds, ends⟩
          · dsimp only
            unfold Grown.ReadsSuffixes
            simp only [Grown.afterToken_out]
            intro quiet
            exact absurd quiet (Grows.loud ((grows_leaf ..).trans valueGrows)
              ((grows_push ..).trans (operators_grows ..)))
termination_by _ _ _ _ tokens => tokens.length * 16 + 6
decreasing_by all_goals first | omega | (simp only [List.length_cons] at *; omega)

theorem argumentList_sound (eof : Nat) (out : Output) (opening : Token) (tail : List Token)
    (isOpen : opening.kind = .openParen) :
    (argumentList eof out opening tail).out.reports.size = out.reports.size →
      (argumentList eof out opening tail).ReadsArguments := by
  rw [argumentList]
  dsimp only
  have loopSound := argumentLoop_sound eof out opening.span #[] true false (by simp) tail
  set loop := argumentLoop eof out opening.span #[] true false tail
  intro quiet
  obtain ⟨inner, closing, items, ids, loopSplit, closes, slots, children, holds, span⟩ :=
    loopSound (by simpa using quiet)
  refine ⟨opening :: inner ++ [closing], listTree .argumentList opening items closing,
    by simp [loopSplit], .mk isOpen slots closes, ?_⟩
  simp only [List.nil_append] at children
  rw [children, span]
  exact holds_push holds .argumentList _
termination_by (opening :: tail).length * 16 + 4
decreasing_by all_goals ((try simp only [List.length_cons]); omega)

theorem argumentLoop_sound (eof : Nat) (out : Output) (span : Span) (children : Array Nat)
    (expecting seenComma : Bool) (fresh : expecting = true → seenComma = true ∨ children = #[]) :
    ∀ tokens, (argumentLoop eof out span children expecting seenComma tokens).1.reports.size =
        out.reports.size →
      ReadsList (Slots expecting) .closeParen span children
        (argumentLoop eof out span children expecting seenComma tokens)
  | [] => by
    rw [argumentLoop]
    intro quiet
    exact absurd quiet (Grows.loud (.refl out) (.refl _))
  | token :: tail => by
    rw [argumentLoop]
    dsimp only
    split
    · rename_i closes
      intro _
      exact ⟨[], token, [], [], rfl, closes, .done expecting, by simp, .nil, by simp⟩
    · rename_i isComma
      split
      · -- a comma where an argument was expected leaves an empty argument
        rename_i takesEmpty
        have isExpecting : expecting = true := by simp_all
        subst isExpecting
        dsimp only
        have loopSound := argumentLoop_sound eof
          ((out.push .argument token.span []).1.leaf .comma token).1 (span.cover token.span)
          ((children.push (out.push .argument token.span []).2).push
            ((out.push .argument token.span []).1.leaf .comma token).2) true true (by simp) tail
        have loopGrows := argumentLoop_grows eof
          ((out.push .argument token.span []).1.leaf .comma token).1 (span.cover token.span)
          ((children.push (out.push .argument token.span []).2).push
            ((out.push .argument token.span []).1.leaf .comma token).2) true true tail
        intro quiet
        obtain ⟨inner, closing, items, ids, loopSplit, closes, slots, childrenIs, holds, spanIs⟩ :=
          loopSound (by simpa using quiet)
        refine ⟨token :: inner, closing, _ :: _ :: items, _ :: _ :: ids,
          by rw [List.cons_append, ← loopSplit], closes, .empty isComma slots, by simp [childrenIs],
          .cons ((holds_push .nil .argument token.span).grow ((grows_leaf ..).trans loopGrows))
            (.cons ((holds_leaf _ .comma token).grow loopGrows) holds), ?_⟩
        simp [spanIs, leafTree, SyntaxTree.span, Span.cover_cover_self]
      · rename_i takesNone
        have notExpecting : expecting = false := by
          cases expecting with
          | false => rfl
          | true =>
            rcases fresh rfl with seen | empty
            · simp_all
            · simp_all
        subst notExpecting
        dsimp only
        have loopSound := argumentLoop_sound eof (out.leaf .comma token).1 (span.cover token.span)
          (children.push (out.leaf .comma token).2) true true (by simp) tail
        have loopGrows := argumentLoop_grows eof (out.leaf .comma token).1 (span.cover token.span)
          (children.push (out.leaf .comma token).2) true true tail
        intro quiet
        obtain ⟨inner, closing, items, ids, loopSplit, closes, slots, childrenIs, holds, spanIs⟩ :=
          loopSound (by simpa using quiet)
        refine ⟨token :: inner, closing, _ :: items, _ :: ids,
          by rw [List.cons_append, ← loopSplit], closes, .comma isComma slots, by simp [childrenIs],
          .cons ((holds_leaf out .comma token).grow loopGrows) holds, ?_⟩
        simp [spanIs, leafTree, SyntaxTree.span]
    · intro quiet
      exact absurd quiet (Grows.loud (.refl out) (.refl _))
    · intro quiet
      exact absurd quiet (Grows.loud (.refl out) (.refl _))
    · have valueGrows := expression_grows eof out 0 (token :: tail)
      have valueSound := expression_sound eof out (Nat.zero_le 1) (token :: tail)
      set value := expression eof out 0 (token :: tail)
      split
      · rename_i valueNode _ valueFound _
        -- stated on the call itself, which is how the recursion below is measured
        have shorter : (expression eof out 0 (token :: tail)).rest.length < (token :: tail).length :=
          value.rest_lt_of_node valueFound
        cases expecting with
        | false =>
          dsimp only
          intro quiet
          exact absurd quiet (Grows.loud valueGrows ((grows_push ..).trans (argumentLoop_grows ..)))
        | true =>
          simp only [↓reduceIte]
          intro quiet
          have loopGrows := argumentLoop_grows eof
            (value.out.push .argument (value.out.spanOf valueNode) [valueNode]).1
            (span.cover (value.out.spanOf valueNode))
            (children.push (value.out.push .argument (value.out.spanOf valueNode) [valueNode]).2)
            false seenComma value.rest
          have valueSize := valueGrows.size_le
          have loopSize := loopGrows.size_le
          simp only [push_reports] at loopSize
          obtain ⟨read, tree, valueSplit, isExpr, valueHolds, -⟩ :=
            valueSound (by omega) valueNode valueFound
          rw [valueHolds.spanOf_eq] at quiet loopGrows loopSize ⊢
          have loopSound := argumentLoop_sound eof
            (value.out.push .argument tree.span [valueNode]).1 (span.cover tree.span)
            (children.push (value.out.push .argument tree.span [valueNode]).2) false seenComma (by simp)
            value.rest (by simp only [push_reports]; omega)
          obtain ⟨inner, closing, items, ids, loopSplit, closes, slots, childrenIs, holds, spanIs⟩ :=
            loopSound
          refine ⟨read ++ inner, closing, _ :: items, _ :: ids,
            by rw [List.append_assoc, ← loopSplit, ← valueSplit], closes, .argument isExpr slots,
            by simp [childrenIs],
            .cons ((holds_push (.cons valueHolds .nil) .argument tree.span).grow loopGrows) holds, ?_⟩
          rw [spanIs]
          rfl
      · dsimp only
        intro quiet
        split at quiet
        · exact absurd quiet (Grows.loud valueGrows ((grows_push ..).trans (argumentLoop_grows ..)))
        · exact absurd quiet (Grows.loud valueGrows (argumentLoop_grows ..))
termination_by tokens => tokens.length * 16 + 10
decreasing_by all_goals first | omega | (simp only [List.length_cons] at *; omega)

theorem primary_sound (eof : Nat) (out : Output) :
    ∀ tokens, (primary eof out tokens).out.reports.size = out.reports.size →
      (primary eof out tokens).ReadsPrimary
  | [] => by
    rw [primary]
    intro _ node nothing
    simp at nothing
  | token :: tail => by
    rw [primary]
    split
    · rename_i isName
      dsimp only
      intro _ node found
      simp only [Option.some.injEq] at found
      subst found
      exact ⟨[token], _, rfl, .reference isName,
        holds_push (.cons (holds_leaf out .identifier token) .nil) .reference token.span⟩
    · rename_i isString
      dsimp only
      intro _ node found
      simp only [Option.some.injEq] at found
      subst found
      exact ⟨[token], _, rfl, .constant (by simp [isString, TokenKind.constantNode?]), holds_leaf ..⟩
    · intro quiet
      exact absurd quiet (Grows.loud (.refl out) (grows_leaf ..))
    · rename_i isNumber
      dsimp only
      intro _ node found
      simp only [Option.some.injEq] at found
      subst found
      exact ⟨[token], _, rfl, .constant (by simp [isNumber, TokenKind.constantNode?]), holds_leaf ..⟩
    · rename_i isBoolean
      dsimp only
      intro _ node found
      simp only [Option.some.injEq] at found
      subst found
      exact ⟨[token], _, rfl, .constant (by simp [isBoolean, TokenKind.constantNode?]), holds_leaf ..⟩
    · rename_i isBad
      dsimp only
      intro _ node found
      simp only [Option.some.injEq] at found
      subst found
      exact ⟨[token], _, rfl, .constant (by simp [isBad, TokenKind.constantNode?]), holds_leaf ..⟩
    · rename_i isOpen
      dsimp only
      have innerGrows := expression_grows eof out 0 tail
      have innerSound := expression_sound eof out (Nat.zero_le 1) tail
      set inner := expression eof out 0 tail
      split
      · intro quiet
        exact absurd quiet (Grows.loud innerGrows (.refl _))
      · rename_i node _ innerFound _
        split
        · rename_i closing after afterLe eaten
          intro quiet node' found
          simp only [Option.some.injEq] at found
          subst found
          obtain ⟨read, tree, innerSplit, isExpr, holds, -⟩ := innerSound quiet node innerFound
          obtain ⟨closes, restIs⟩ := eat_eq_some (congrArg Prod.fst eaten)
          have afterIs : (eat .closeParen inner.rest).2.1 = after := by rw [eaten]
          rw [afterIs] at restIs
          have tailIs : tail = read ++ closing :: after := by rw [← restIs, ← innerSplit]
          exact ⟨token :: read ++ [closing], tree, by simp [tailIs],
            .parenthesized isOpen isExpr closes, holds⟩
        · intro quiet
          exact absurd quiet (Grows.loud innerGrows (.refl _))
    · rename_i isOpen
      dsimp only
      intro quiet node found
      simp only [Option.some.injEq] at found
      subst found
      exact object_sound eof out token tail isOpen quiet
    · intro _ node nothing
      simp at nothing
termination_by tokens => tokens.length * 16 + 7
decreasing_by all_goals ((try simp only [List.length_cons]); omega)

theorem object_sound (eof : Nat) (out : Output) (opening : Token) (tail : List Token)
    (isOpen : opening.kind = .openBrace) :
    (object eof out opening tail).out.reports.size = out.reports.size →
      (object eof out opening tail).ReadsPrimary := by
  rw [object]
  dsimp only
  have loopSound := objectLoop_sound eof out opening.span #[] false tail
  set loop := objectLoop eof out opening.span #[] false tail
  intro quiet
  obtain ⟨inner, closing, items, ids, loopSplit, closes, properties, children, holds, span⟩ :=
    loopSound (by simpa using quiet)
  refine ⟨opening :: inner ++ [closing], listTree .object opening items closing,
    by simp [loopSplit], .object isOpen properties closes, ?_⟩
  simp only [List.nil_append] at children
  rw [children, span]
  exact holds_push holds .object _
termination_by (opening :: tail).length * 16 + 4
decreasing_by all_goals ((try simp only [List.length_cons]); omega)

theorem objectLoop_sound (eof : Nat) (out : Output) (span : Span) (children : Array Nat)
    (afterClause : Bool) :
    ∀ tokens, (objectLoop eof out span children afterClause tokens).1.reports.size = out.reports.size →
      ReadsList (Properties afterClause) .closeBrace span children
        (objectLoop eof out span children afterClause tokens)
  | [] => by
    rw [objectLoop]
    intro quiet
    exact absurd quiet (Grows.loud (.refl out) (.refl _))
  | token :: tail => by
    rw [objectLoop]
    dsimp only
    split
    · rename_i closes
      intro _
      exact ⟨[], token, [], [], rfl, closes, .done afterClause, by simp, .nil, by simp⟩
    · rename_i isComma
      have loopSound := objectLoop_sound eof (out.leaf .comma token).1 (span.cover token.span)
        (children.push (out.leaf .comma token).2) false tail
      have loopGrows := objectLoop_grows eof (out.leaf .comma token).1 (span.cover token.span)
        (children.push (out.leaf .comma token).2) false tail
      intro quiet
      obtain ⟨inner, closing, items, ids, loopSplit, closes, properties, childrenIs, holds, spanIs⟩ :=
        loopSound (by simpa using quiet)
      refine ⟨token :: inner, closing, _ :: items, _ :: ids, by rw [List.cons_append, ← loopSplit],
        closes, .comma isComma properties, by simp [childrenIs],
        .cons ((holds_leaf out .comma token).grow loopGrows) holds, ?_⟩
      rw [spanIs]
      rfl
    · rename_i isName
      cases afterClause with
      | true =>
        intro quiet
        exact absurd quiet (Grows.loud (.refl out) ((objectClause_grows ..).trans (objectLoop_grows ..)))
      | false =>
        generalize startIs :
          (if false = true then out.report token.span "Expected , between properties" else out) = start
        have startEq : out = start := by rw [← startIs]; rfl
        subst startEq
        have clauseGrows := objectClause_grows eof out token tail
        have clauseSound := objectClause_sound eof out token tail isName
        have shorter : (objectClause eof out token tail).rest.length ≤ tail.length := by
          have := (objectClause eof out token tail).rest_lt
          simp only [List.length_cons] at this
          omega
        intro quiet
        dsimp only at quiet ⊢
        have loopGrows := objectLoop_grows eof (objectClause eof out token tail).out
          (span.cover ((objectClause eof out token tail).out.spanOf (objectClause eof out token tail).node))
          (children.push (objectClause eof out token tail).node) true (objectClause eof out token tail).rest
        have clauseSize := clauseGrows.size_le
        have loopSize := loopGrows.size_le
        obtain ⟨name, colon, value, tree, clauseSplit, -, isColon, isExpr, clauseHolds⟩ :=
          clauseSound (by omega)
        obtain ⟨rfl, -⟩ := List.cons.inj clauseSplit
        rw [clauseHolds.spanOf_eq] at quiet loopGrows loopSize ⊢
        obtain ⟨inner, closing, items, ids, loopSplit, closes, properties, childrenIs, holds, spanIs⟩ :=
          objectLoop_sound eof (objectClause eof out token tail).out
            (span.cover (clauseTree token colon tree).span)
            (children.push (objectClause eof out token tail).node) true
            (objectClause eof out token tail).rest (by omega)
        refine ⟨token :: colon :: value ++ inner, closing, _ :: items,
          (objectClause eof out token tail).node :: ids,
          by rw [List.cons_append, List.cons_append, List.append_assoc, ← loopSplit]; exact clauseSplit,
          closes, .clause isName isColon isExpr properties, by simp [childrenIs],
          .cons (clauseHolds.grow loopGrows) holds, ?_⟩
        rw [spanIs]
        rfl
    · intro quiet
      exact absurd quiet (Grows.loud (.refl out) (.refl _))
    · intro quiet
      exact absurd quiet (Grows.loud (.refl out) (objectLoop_grows ..))
termination_by tokens => tokens.length * 16 + 10
decreasing_by all_goals (try simp only [List.length_cons]); omega

theorem objectClause_sound (eof : Nat) (out : Output) (name : Token) (tail : List Token)
    (isName : name.kind = .identifier) :
    (objectClause eof out name tail).out.reports.size = out.reports.size →
      (objectClause eof out name tail).ReadsClause := by
  rw [objectClause]
  dsimp only
  have keyHolds := holds_push (.cons (holds_leaf out .identifier name) .nil) .objectKey name.span
  have keyGrows := (grows_leaf out .identifier name).trans
    (grows_push (out.leaf .identifier name).1 .objectKey name.span [(out.leaf .identifier name).2])
  split
  · intro quiet
    exact absurd quiet (Grows.loud keyGrows (grows_push ..))
  · rename_i colon afterColon colonLe eaten
    obtain ⟨isColon, tailIs⟩ := eat_eq_some (congrArg Prod.fst eaten)
    have afterIs : (eat .colon tail).2.1 = afterColon := by rw [eaten]
    rw [afterIs] at tailIs
    have valueGrows := expression_grows eof
      ((out.leaf .identifier name).1.push .objectKey name.span [(out.leaf .identifier name).2]).1 0 afterColon
    have valueSound := expression_sound eof
      ((out.leaf .identifier name).1.push .objectKey name.span [(out.leaf .identifier name).2]).1
      (Nat.zero_le 1) afterColon
    split
    · rename_i valueNode _ valueFound _
      dsimp only
      intro quiet
      have valueSize := valueGrows.size_le
      simp only [push_reports, leaf_reports] at quiet valueSize valueSound
      obtain ⟨read, tree, valueSplit, isExpr, valueHolds, -⟩ := valueSound (by omega) valueNode valueFound
      refine ⟨name, colon, read, tree, by dsimp only; rw [List.cons_append, List.cons_append, ← valueSplit, ← tailIs], isName, isColon,
        isExpr, ?_⟩
      dsimp only
      rw [valueHolds.spanOf_eq]
      have holderHolds := holds_push (.cons valueHolds .nil) .objectValue tree.span
      exact holds_push (.cons ((keyHolds.grow valueGrows).grow (grows_push ..)) (.cons holderHolds .nil))
        .objectClause _
    · intro quiet
      exact absurd quiet (Grows.loud (keyGrows.trans valueGrows) (grows_push ..))
termination_by (name :: tail).length * 16 + 4
decreasing_by all_goals ((try simp only [List.length_cons]); omega)

end

end Syntax

end ScriptLowering
