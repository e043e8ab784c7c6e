import ScriptLowering.Proofs.NodeLayout
import ScriptLowering.Proofs.Segmentation

/-! # The parser's arena is a syntax tree over the tokens

Every reading function of the parser keeps its output laid out (`Laid`), and places the node it
reads between where it starts and where it stops reading, with exactly the nodes it added hanging
below it (`Placed`); a loop over the parts of a construct keeps the construct being read in the
same shape (`Partial`). These are proved together along the parser's own recursion, as the other
invariants of its output are.

Main statement: `parse_treeOver`. For every source text, the root is the last node, and the
walk down from it meets every node exactly once, so the dump has a line for every node
(`parse_walk`). Every child comes before its parent and lies inside its span, consecutive children
follow one another, and every span runs forward between character boundaries of the text: the
file's spans the whole text and every other one runs from the start of a token to the end of the
same or a later one (`parse_nodeOver`). A childless node is a container (the file, a variable
declaration cut after its `=`, or a bracketed list, which may be left empty) or stands for a single
token; a function read without name, parameters or body stands for its keyword. A container left
empty does not stand for a single token: the argument list of `print()` spans both of its brackets
(`print_arguments_span_brackets`).
-/

namespace ScriptLowering.Syntax

open Output

section Specs

variable (all : List Token) (eof : Nat) (before : Output) {tokens : List Token}

/-- An attempt that keeps the arena laid out, and either reads a node placed between where it
starts and where it stops reading, below which hang exactly the nodes it added, or adds no node. -/
def Attempt.LaysOut (attempt : Attempt tokens) : Prop :=
  Laid all attempt.out.nodes ∧
    (∀ node, attempt.node = some node →
      Placed all attempt.out.nodes (startOf eof tokens) (startOf eof attempt.rest) node before.nodes.size) ∧
    (attempt.node = none → attempt.out.nodes = before.nodes)

/-- A step that keeps the arena laid out and reads a node placed between where it starts and
where it stops reading, below which hang exactly the nodes it added. -/
def Step.LaysOut (step : Step tokens) : Prop :=
  Laid all step.out.nodes ∧
    Placed all step.out.nodes (startOf eof tokens) (startOf eof step.rest) step.node before.nodes.size

/-- A growth that keeps the arena laid out and ends at a node placed from `lo` to where it stops
reading, below which hang exactly the nodes from `first` on. -/
def Grown.LaysOut (lo first : Nat) (grown : Grown tokens) : Prop :=
  Laid all grown.out.nodes ∧ Placed all grown.out.nodes lo (startOf eof grown.rest) grown.node first

/-- A loop over the parts of a construct that keeps the arena laid out and the construct being
read from `lo`, with the nodes from `first` on below its parts. -/
def LoopLaysOut (lo first : Nat) (result : Output × Span × Array Nat × Rest tokens) : Prop :=
  Laid all result.1.nodes ∧
    Partial all result.1.nodes lo (startOf eof result.2.2.2.1) first result.2.1 result.2.2.1.toList

end Specs

section Attempts

variable {all : List Token} {eof : Nat} {before out : Output} {tokens rest : List Token}

theorem laysOut_some {node : Nat} {restLe : rest.length ≤ tokens.length}
    {restLt : (some node).isSome → rest.length < tokens.length} (laid : Laid all out.nodes)
    (placed : Placed all out.nodes (startOf eof tokens) (startOf eof rest) node before.nodes.size) :
    (⟨some node, out, rest, restLe, restLt⟩ : Attempt tokens).LaysOut all eof before :=
  ⟨laid, (fun _ read => by cases read; exact placed), fun nothing => by cases nothing⟩

theorem laysOut_none {restLe : rest.length ≤ tokens.length}
    {restLt : (none : Option Nat).isSome → rest.length < tokens.length} (laid : Laid all out.nodes)
    (same : out.nodes = before.nodes) :
    (⟨none, out, rest, restLe, restLt⟩ : Attempt tokens).LaysOut all eof before :=
  ⟨laid, (fun _ nothing => by cases nothing), fun _ => same⟩

/-- A token `eat` reads is the first of the tokens, and what it leaves is the rest. -/
theorem eat_eq_cons {kind : TokenKind} {after : List Token} {found : Token} {le : after.length ≤ tokens.length}
    (eaten : eat kind tokens = (some found, ⟨after, le⟩)) : tokens = found :: after := by
  cases tokens with
  | nil => simp [eat] at eaten
  | cons head tail =>
    simp only [eat] at eaten
    split at eaten <;> simp_all

/-- What is left after a token and whatever follows it is read lies within what followed the token. -/
theorem tail_suffix_of_suffix {token : Token} {tail : List Token} (suffix : rest <:+ token :: tail) :
    rest.tail <:+ tail := by
  rcases List.suffix_cons_iff.mp suffix with whole | inTail
  · rw [whole]
    exact List.suffix_refl _
  · exact (List.tail_suffix rest).trans inTail

end Attempts

section Expressions

variable {all : List Token} {eof : Nat}

mutual

/-- Reading an expression keeps the arena laid out and places the node it reads, with the nodes
it added below it. Proved together with the functions it calls, along the parser's recursion. -/
theorem expression_laysOut (inOrder : InOrder eof all) (out : Output) (minPower : Nat) (tokens : List Token)
    (laid : Laid all out.nodes) (reading : tokens <:+ all) :
    (expression eof out minPower tokens).LaysOut all eof out := by
  obtain ⟨firstLaid, firstPlaced, firstNone⟩ := primary_laysOut inOrder out laid tokens reading
  have firstLe := (primary eof out tokens).rest_le
  have firstSuffix := primary_suffix eof out tokens
  rw [expression]
  dsimp only
  split
  · exact ⟨firstLaid, (fun _ nothing => by cases nothing), fun _ => firstNone (by assumption)⟩
  · rename_i lhs _ found _
    obtain ⟨laterLaid, laterPlaced⟩ := operators_laysOut inOrder _ minPower lhs firstLaid _
      (firstSuffix.trans reading) (firstPlaced lhs found)
    exact ⟨laterLaid, (fun _ read => by cases read; exact laterPlaced), fun nothing => by cases nothing⟩
termination_by tokens.length * 16 + 8
decreasing_by all_goals omega

theorem operators_laysOut (inOrder : InOrder eof all) (out : Output) (minPower lhs : Nat)
    (laid : Laid all out.nodes) {lo first : Nat} :
    ∀ tokens, tokens <:+ all → Placed all out.nodes lo (startOf eof tokens) lhs first →
      (operators eof out minPower lhs tokens).LaysOut all eof lo first
  | [], _, placed => by
    rw [operators]
    exact ⟨laid, placed⟩
  | token :: tail, reading, placed => by
    have member : token ∈ all := reading.subset List.mem_cons_self
    have tailReading := (List.suffix_cons token tail).trans reading
    have between := (inOrder.suffix reading).span_between
    have lhsPresent := placed.forest.lt lhs List.mem_cons_self
    rw [operators]
    dsimp only
    split
    · split
      · exact ⟨laid, placed⟩
      · -- a call of the expression so far, with the argument list after it
        have shorter : (argumentList eof out token tail).rest.length < tail.length + 1 :=
          (argumentList eof out token tail).rest_lt
        have grows := argumentList_grows eof out token tail
        obtain ⟨listLaid, listPlaced⟩ := argumentList_laysOut inOrder out token tail laid reading
        have call := (Partial.single placed).add grows listPlaced rfl
        rw [← spanAt_grow grows lhsPresent] at call
        obtain ⟨callLaid, callPlaced⟩ := call.push listLaid .call fun empty => absurd empty (List.cons_ne_nil _ _)
        exact operators_laysOut inOrder _ minPower _ callLaid _ ((argumentList_suffix ..).trans reading) callPlaced
    · split
      · exact ⟨laid, placed⟩
      · rename_i notCall _ left right found
        split
        · exact ⟨laid, placed⟩
        · -- `=` or `.`: an operator leaf, then the right operand if there is one
          obtain ⟨operatorLaid, operatorPlaced⟩ := laid_leaf laid member between .operator
          have operated := (Partial.single placed).add (grows_leaf out .operator token) operatorPlaced
            (spanAt_leaf_self out .operator token)
          have valueLe := (expression eof (out.leaf .operator token).1 right tail).rest_le
          have valueSuffix := expression_suffix eof (out.leaf .operator token).1 right tail
          have valueGrows := expression_grows eof (out.leaf .operator token).1 right tail
          obtain ⟨valueLaid, valuePlaced, valueNone⟩ :=
            expression_laysOut inOrder (out.leaf .operator token).1 right tail operatorLaid tailReading
          split
          · rename_i value _ valueFound _
            obtain ⟨binaryLaid, binaryPlaced⟩ := (operated.add valueGrows (valuePlaced value valueFound) rfl).push
              valueLaid .binary fun empty => absurd empty (List.cons_ne_nil _ _)
            exact operators_laysOut inOrder _ minPower _ binaryLaid _ (valueSuffix.trans tailReading) binaryPlaced
          · -- no right operand: the operator closes the expression
            have same := valueNone (by assumption)
            have later := (inOrder.suffix tailReading).startOf_le valueSuffix
            rw [← same] at operated operatorLaid
            obtain ⟨binaryLaid, binaryPlaced⟩ := (operated.raise later).push operatorLaid .binary
              fun empty => absurd empty (List.cons_ne_nil _ _)
            refine operators_laysOut inOrder _ minPower _ ?_ _ (valueSuffix.trans tailReading) ?_
            · exact binaryLaid
            · exact binaryPlaced
termination_by tokens => tokens.length * 16 + 6
decreasing_by all_goals (try simp only [List.length_cons]); omega

theorem primary_laysOut (inOrder : InOrder eof all) (out : Output) (laid : Laid all out.nodes) :
    ∀ tokens, tokens <:+ all → (primary eof out tokens).LaysOut all eof out
  | [], _ => by
    rw [primary]
    exact laysOut_none laid rfl
  | token :: tail, reading => by
    have member : token ∈ all := reading.subset List.mem_cons_self
    have tailReading := (List.suffix_cons token tail).trans reading
    have between := (inOrder.suffix reading).span_between
    rw [primary]
    split
    · -- a reference: the name's leaf below a reference node
      obtain ⟨nameLaid, namePlaced⟩ := laid_leaf laid member between .identifier
      have named := Partial.single namePlaced
      rw [spanAt_leaf_self] at named
      obtain ⟨referenceLaid, referencePlaced⟩ := named.push nameLaid .reference
        fun empty => absurd empty (List.cons_ne_nil _ _)
      exact laysOut_some referenceLaid referencePlaced
    · obtain ⟨leafLaid, leafPlaced⟩ := laid_leaf laid member between .stringConstant
      exact laysOut_some leafLaid leafPlaced
    · obtain ⟨leafLaid, leafPlaced⟩ := laid_leaf laid member between .stringConstant
      exact laysOut_some leafLaid leafPlaced
    · obtain ⟨leafLaid, leafPlaced⟩ := laid_leaf laid member between .numberConstant
      exact laysOut_some leafLaid leafPlaced
    · obtain ⟨leafLaid, leafPlaced⟩ := laid_leaf laid member between .booleanConstant
      exact laysOut_some leafLaid leafPlaced
    · obtain ⟨leafLaid, leafPlaced⟩ := laid_leaf laid member between .badCharacter
      exact laysOut_some leafLaid leafPlaced
    · -- an expression in parentheses is the node of what is inside them
      dsimp only
      obtain ⟨innerLaid, innerPlaced, innerNone⟩ := expression_laysOut inOrder out 0 tail laid tailReading
      have innerSuffix := expression_suffix eof out 0 tail
      have earlier := (inOrder.suffix reading).startOf_le (List.suffix_cons token tail)
      split
      · exact laysOut_none innerLaid (innerNone (by assumption))
      · rename_i node _ found _
        split
        · rename_i eaten
          have closed := (inOrder.suffix (innerSuffix.trans tailReading)).startOf_le (eat_eq_suffix eaten)
          exact laysOut_some innerLaid ((innerPlaced node found).mono earlier closed)
        · rename_i eaten
          have closed := (inOrder.suffix (innerSuffix.trans tailReading)).startOf_le (eat_eq_suffix eaten)
          exact laysOut_some innerLaid ((innerPlaced node found).mono earlier closed)
    · obtain ⟨objectLaid, objectPlaced⟩ := object_laysOut inOrder out token tail laid reading
      exact laysOut_some objectLaid objectPlaced
    · exact laysOut_none laid rfl
termination_by tokens => tokens.length * 16 + 7
decreasing_by all_goals (try simp only [List.length_cons]); omega

theorem argumentList_laysOut (inOrder : InOrder eof all) (out : Output) (opening : Token) (tail : List Token)
    (laid : Laid all out.nodes) (reading : opening :: tail <:+ all) :
    (argumentList eof out opening tail).LaysOut all eof out := by
  rw [argumentList]
  dsimp only
  obtain ⟨loopLaid, loopPart⟩ := argumentLoop_laysOut inOrder out opening.span #[] true false laid tail
    ((List.suffix_cons opening tail).trans reading)
    (Partial.start (inOrder.suffix reading).span_between (reading.subset List.mem_cons_self))
  exact loopPart.push loopLaid .argumentList fun _ => .inl rfl
termination_by (opening :: tail).length * 16 + 4
decreasing_by all_goals (try simp only [List.length_cons]); omega

theorem argumentLoop_laysOut (inOrder : InOrder eof all) (out : Output) (span : Span) (children : Array Nat)
    (expecting seenComma : Bool) (laid : Laid all out.nodes) {lo first : Nat} :
    ∀ tokens, tokens <:+ all → Partial all out.nodes lo (startOf eof tokens) first span children.toList →
      LoopLaysOut all eof lo first (argumentLoop eof out span children expecting seenComma tokens)
  | [], _, part => by
    rw [argumentLoop]
    exact ⟨laid, part⟩
  | token :: tail, reading, part => by
    have member : token ∈ all := reading.subset List.mem_cons_self
    have tailReading := (List.suffix_cons token tail).trans reading
    have between := (inOrder.suffix reading).span_between
    rw [argumentLoop]
    dsimp only
    split
    · exact ⟨laid, part.cover between (Span.fromTokens_token member)⟩
    · split
      · -- an empty argument before the comma, at the comma
        obtain ⟨emptyLaid, emptyPlaced⟩ := laid_leaf laid member between .argument
        have emptied := part.add (grows_leaf out .argument token) emptyPlaced (spanAt_leaf_self out .argument token)
        obtain ⟨commaLaid, commaPlaced⟩ := laid_leaf emptyLaid member between .comma
        have separated := emptied.addAgain (grows_leaf _ .comma token) commaPlaced.forest
          (by rw [spanAt_leaf_self, spanAt_leaf_self])
        exact argumentLoop_laysOut inOrder _ _ _ true true commaLaid tail tailReading
          (by rw [Array.toList_push, Array.toList_push]; exact separated)
      · obtain ⟨commaLaid, commaPlaced⟩ := laid_leaf laid member between .comma
        have separated := part.add (grows_leaf out .comma token) commaPlaced (spanAt_leaf_self out .comma token)
        exact argumentLoop_laysOut inOrder _ _ _ true true commaLaid tail tailReading
          (by rw [Array.toList_push]; exact separated)
    · exact ⟨laid, part⟩
    · exact ⟨laid, part⟩
    · obtain ⟨valueLaid, valuePlaced, valueNone⟩ := expression_laysOut inOrder out 0 (token :: tail) laid reading
      have valueGrows := expression_grows eof out 0 (token :: tail)
      have valueSuffix := expression_suffix eof out 0 (token :: tail)
      have valueLe : (expression eof out 0 (token :: tail)).rest.length ≤ tail.length + 1 :=
        (expression eof out 0 (token :: tail)).rest_le
      split
      · rename_i value _ found _
        have shorter : (expression eof out 0 (token :: tail)).rest.length < tail.length + 1 :=
          (expression eof out 0 (token :: tail)).rest_lt (by simp [found])
        obtain ⟨argumentLaid, argumentPlaced⟩ := (Partial.single (valuePlaced value found)).push valueLaid
          .argument fun empty => absurd empty (List.cons_ne_nil _ _)
        have argued := part.add (valueGrows.trans (grows_push ..)) argumentPlaced (spanAt_push_self ..)
        rw [← Array.toList_push] at argued
        cases expecting
        · -- a value where a comma was due is reported, and still taken as the next argument
          refine argumentLoop_laysOut inOrder _ _ _ false seenComma ?_ _ (valueSuffix.trans reading) ?_
          · exact argumentLaid
          · exact argued
        · exact argumentLoop_laysOut inOrder _ _ _ false seenComma argumentLaid _ (valueSuffix.trans reading)
            argued
      · -- a malformed argument: its token is skipped, leaving an empty argument where one was expected
        have same := valueNone (by assumption)
        have skippedSuffix := tail_suffix_of_suffix valueSuffix
        have later := (inOrder.suffix tailReading).startOf_le skippedSuffix
        rw [← same] at part laid
        cases expecting
        · refine argumentLoop_laysOut inOrder _ _ _ false seenComma ?_ _ (skippedSuffix.trans tailReading) ?_
          · exact laid
          · exact (part.cover between (Span.fromTokens_token member)).raise later
        · obtain ⟨emptyLaid, emptyPlaced⟩ := laid_leaf laid member between .argument
          have emptied := part.add (grows_leaf _ .argument token) emptyPlaced (spanAt_leaf_self _ .argument token)
          rw [← Array.toList_push] at emptied
          refine argumentLoop_laysOut inOrder _ _ _ false seenComma ?_ _ (skippedSuffix.trans tailReading) ?_
          · exact emptyLaid
          · exact emptied.raise later
termination_by tokens => tokens.length * 16 + 10
decreasing_by all_goals (try simp only [List.length_cons, List.length_tail]); omega

theorem object_laysOut (inOrder : InOrder eof all) (out : Output) (opening : Token) (tail : List Token)
    (laid : Laid all out.nodes) (reading : opening :: tail <:+ all) :
    (object eof out opening tail).LaysOut all eof out := by
  rw [object]
  dsimp only
  obtain ⟨loopLaid, loopPart⟩ := objectLoop_laysOut inOrder out opening.span #[] false laid tail
    ((List.suffix_cons opening tail).trans reading)
    (Partial.start (inOrder.suffix reading).span_between (reading.subset List.mem_cons_self))
  exact loopPart.push loopLaid .object fun _ => .inl rfl
termination_by (opening :: tail).length * 16 + 4
decreasing_by all_goals (try simp only [List.length_cons]); omega

theorem objectLoop_laysOut (inOrder : InOrder eof all) (out : Output) (span : Span) (children : Array Nat)
    (afterClause : Bool) (laid : Laid all out.nodes) {lo first : Nat} :
    ∀ tokens, tokens <:+ all → Partial all out.nodes lo (startOf eof tokens) first span children.toList →
      LoopLaysOut all eof lo first (objectLoop eof out span children afterClause tokens)
  | [], _, part => by
    rw [objectLoop]
    exact ⟨laid, part⟩
  | token :: tail, reading, part => by
    have member : token ∈ all := reading.subset List.mem_cons_self
    have tailReading := (List.suffix_cons token tail).trans reading
    have between := (inOrder.suffix reading).span_between
    rw [objectLoop]
    dsimp only
    split
    · exact ⟨laid, part.cover between (Span.fromTokens_token member)⟩
    · obtain ⟨commaLaid, commaPlaced⟩ := laid_leaf laid member between .comma
      have separated := part.add (grows_leaf out .comma token) commaPlaced (spanAt_leaf_self out .comma token)
      exact objectLoop_laysOut inOrder _ _ _ false commaLaid tail tailReading
        (by rw [Array.toList_push]; exact separated)
    · -- a clause, which starts at its name
      have started := grows_reportIf afterClause out token.span "Expected , between properties"
      have same : (if afterClause then out.report token.span "Expected , between properties" else out).nodes =
          out.nodes := by
        cases afterClause <;> rfl
      generalize (if afterClause then out.report token.span "Expected , between properties" else out) = start
        at started same ⊢
      rw [← same] at part laid
      have shorter : (objectClause eof start token tail).rest.length < tail.length + 1 :=
        (objectClause eof start token tail).rest_lt
      obtain ⟨clauseLaid, clausePlaced⟩ := objectClause_laysOut inOrder start token tail laid reading
      have clausal := part.add (objectClause_grows ..) clausePlaced rfl
      rw [← Array.toList_push] at clausal
      exact objectLoop_laysOut inOrder _ _ _ true clauseLaid _ ((objectClause_suffix ..).trans reading) clausal
    · exact ⟨laid, part⟩
    · refine objectLoop_laysOut inOrder _ _ _ afterClause ?_ tail tailReading ?_
      · exact laid
      · exact part.cover between (Span.fromTokens_token member)
termination_by tokens => tokens.length * 16 + 10
decreasing_by all_goals (try simp only [List.length_cons]); omega

theorem objectClause_laysOut (inOrder : InOrder eof all) (out : Output) (name : Token) (tail : List Token)
    (laid : Laid all out.nodes) (reading : name :: tail <:+ all) :
    (objectClause eof out name tail).LaysOut all eof out := by
  have member : name ∈ all := reading.subset List.mem_cons_self
  have tailReading := (List.suffix_cons name tail).trans reading
  rw [objectClause]
  dsimp only
  -- the key node over the name's leaf comes first in every clause
  obtain ⟨nameLaid, namePlaced⟩ := laid_leaf laid member (inOrder.suffix reading).span_between .identifier
  have named := Partial.single namePlaced
  rw [spanAt_leaf_self] at named
  obtain ⟨keyLaid, keyPlaced⟩ := named.push nameLaid .objectKey fun empty => absurd empty (List.cons_ne_nil _ _)
  have keyed := Partial.single keyPlaced
  rw [spanAt_push_self] at keyed
  split
  · -- no `:`: the clause holds its key only
    rename_i eaten
    have later := (inOrder.suffix tailReading).startOf_le (eat_eq_suffix eaten)
    exact (keyed.raise later).push keyLaid .objectClause fun empty => absurd empty (List.cons_ne_nil _ _)
  · rename_i afterColon _ eaten
    obtain rfl := eat_eq_cons eaten
    have colonReading := tailReading
    have colonMember : _ ∈ all := colonReading.subset List.mem_cons_self
    have colonBetween := (inOrder.suffix colonReading).span_between
    have afterReading := (List.suffix_cons _ afterColon).trans colonReading
    have coloned := keyed.cover colonBetween (Span.fromTokens_token colonMember)
    obtain ⟨valueLaid, valuePlaced, valueNone⟩ := expression_laysOut inOrder _ 0 afterColon keyLaid afterReading
    have valueSuffix := expression_suffix eof ((out.leaf .identifier name).1.push .objectKey name.span
      [(out.leaf .identifier name).2]).1 0 afterColon
    split
    · rename_i value _ found _
      obtain ⟨holderLaid, holderPlaced⟩ := (Partial.single (valuePlaced value found)).push valueLaid .objectValue
        fun empty => absurd empty (List.cons_ne_nil _ _)
      have valued := coloned.add ((expression_grows ..).trans (grows_push ..)) holderPlaced (spanAt_push_self ..)
      exact valued.push holderLaid .objectClause fun empty => absurd empty (List.cons_ne_nil _ _)
    · -- no value after the `:`
      have same := valueNone (by assumption)
      have later := (inOrder.suffix afterReading).startOf_le valueSuffix
      rw [← same] at coloned keyLaid
      exact (coloned.raise later).push keyLaid .objectClause fun empty => absurd empty (List.cons_ne_nil _ _)
termination_by (name :: tail).length * 16 + 4
decreasing_by all_goals (try simp only [List.length_cons]); omega

end

end Expressions

section Statements

variable {all : List Token} {eof : Nat}

/-- A declaration starts at its keyword and takes its name, when one follows, as its first child. -/
theorem declarationName_laysOut (inOrder : InOrder eof all) (out : Output) (keyword : Token) (tail : List Token)
    (laid : Laid all out.nodes) (reading : keyword :: tail <:+ all) :
    LoopLaysOut all eof (startOf eof (keyword :: tail)) out.nodes.size (declarationName out keyword tail) := by
  have tailReading := (List.suffix_cons keyword tail).trans reading
  have started : Partial all out.nodes (startOf eof (keyword :: tail)) (startOf eof tail) out.nodes.size
      keyword.span [] :=
    Partial.start (inOrder.suffix reading).span_between (reading.subset List.mem_cons_self)
  unfold declarationName
  split
  · rename_i name rest eaten
    obtain ⟨after, le⟩ := rest
    obtain rfl := eat_eq_cons eaten
    obtain ⟨nameLaid, namePlaced⟩ := laid_leaf laid (tailReading.subset List.mem_cons_self)
      (inOrder.suffix tailReading).span_between .identifier
    exact ⟨nameLaid, started.add (grows_leaf ..) namePlaced (spanAt_leaf_self ..)⟩
  · rename_i rest eaten
    obtain ⟨after, le⟩ := rest
    exact ⟨laid, started.raise ((inOrder.suffix tailReading).startOf_le (eat_eq_suffix eaten))⟩

/-- A declaration with no child after its name is its keyword alone so far. -/
theorem declarationName_childless (out : Output) (keyword : Token) (tail : List Token) :
    (declarationName out keyword tail).2.2.1 = #[] → (declarationName out keyword tail).2.1 = keyword.span := by
  unfold declarationName
  split
  · intro named
    simp at named
  · intro _
    rfl

theorem parameterLoop_laysOut (inOrder : InOrder eof all) (out : Output) (span : Span) (children : Array Nat)
    (afterParameter : Bool) (laid : Laid all out.nodes) {lo first : Nat} :
    ∀ tokens, tokens <:+ all → Partial all out.nodes lo (startOf eof tokens) first span children.toList →
      LoopLaysOut all eof lo first (parameterLoop eof out span children afterParameter tokens)
  | [], _, part => by
    rw [parameterLoop]
    exact ⟨laid, part⟩
  | token :: tail, reading, part => by
    have member : token ∈ all := reading.subset List.mem_cons_self
    have tailReading := (List.suffix_cons token tail).trans reading
    have between := (inOrder.suffix reading).span_between
    rw [parameterLoop]
    split
    · exact ⟨laid, part.cover between (Span.fromTokens_token member)⟩
    · -- a parameter node over the name's leaf
      have same : (if afterParameter then out.report token.span "Expected , between parameters" else out).nodes =
          out.nodes := by
        cases afterParameter <;> rfl
      generalize (if afterParameter then out.report token.span "Expected , between parameters" else out) = start
        at same ⊢
      rw [← same] at part laid
      obtain ⟨nameLaid, namePlaced⟩ := laid_leaf laid member between .identifier
      have named := Partial.single namePlaced
      rw [spanAt_leaf_self] at named
      obtain ⟨parameterLaid, parameterPlaced⟩ := named.push nameLaid .parameter
        fun empty => absurd empty (List.cons_ne_nil _ _)
      have added := part.add ((grows_leaf ..).trans (grows_push ..)) parameterPlaced (spanAt_push_self ..)
      rw [← Array.toList_push] at added
      exact parameterLoop_laysOut inOrder _ _ _ true parameterLaid tail tailReading added
    · obtain ⟨commaLaid, commaPlaced⟩ := laid_leaf laid member between .comma
      have separated := part.add (grows_leaf out .comma token) commaPlaced (spanAt_leaf_self out .comma token)
      rw [← Array.toList_push] at separated
      exact parameterLoop_laysOut inOrder _ _ _ false commaLaid tail tailReading separated
    · exact ⟨laid, part⟩
    · refine parameterLoop_laysOut inOrder _ _ _ afterParameter ?_ tail tailReading ?_
      · exact laid
      · exact part.cover between (Span.fromTokens_token member)

theorem parameterList_laysOut (inOrder : InOrder eof all) (out : Output) (opening : Token) (tail : List Token)
    (laid : Laid all out.nodes) (reading : opening :: tail <:+ all) :
    (parameterList eof out opening tail).LaysOut all eof out := by
  rw [parameterList]
  dsimp only
  obtain ⟨loopLaid, loopPart⟩ := parameterLoop_laysOut inOrder out opening.span #[] false laid tail
    ((List.suffix_cons opening tail).trans reading)
    (Partial.start (inOrder.suffix reading).span_between (reading.subset List.mem_cons_self))
  exact loopPart.push loopLaid .parameterList fun _ => .inl rfl

theorem functionParameters_laysOut (inOrder : InOrder eof all) (out : Output) (span : Span) (children : Array Nat)
    (laid : Laid all out.nodes) {lo first : Nat} :
    ∀ tokens, tokens <:+ all → Partial all out.nodes lo (startOf eof tokens) first span children.toList →
      LoopLaysOut all eof lo first (functionParameters eof out span children tokens)
  | [], _, part => ⟨laid, part⟩
  | opening :: more, reading, part => by
    rw [functionParameters]
    split
    · dsimp only
      obtain ⟨listLaid, listPlaced⟩ := parameterList_laysOut inOrder out opening more laid reading
      have listed := part.add (parameterList_grows ..) listPlaced rfl
      rw [← Array.toList_push] at listed
      exact ⟨listLaid, listed⟩
    · exact ⟨laid, part⟩

/-- Reading a function's parameter list adds it as a child: with no child after it, the function
had none before and its span is as it was. -/
theorem functionParameters_childless (eof : Nat) (out : Output) (span : Span) (children : Array Nat)
    (tokens : List Token) :
    (functionParameters eof out span children tokens).2.2.1 = #[] →
      children = #[] ∧ (functionParameters eof out span children tokens).2.1 = span := by
  cases tokens with
  | nil => exact fun empty => ⟨empty, rfl⟩
  | cons opening more =>
    rw [functionParameters]
    split
    · intro listed
      simp at listed
    · exact fun empty => ⟨empty, rfl⟩

theorem variableDecl_laysOut (inOrder : InOrder eof all) (out : Output) (keyword : Token) (tail : List Token)
    (laid : Laid all out.nodes) (reading : keyword :: tail <:+ all) :
    (variableDecl eof out keyword tail).LaysOut all eof out := by
  rw [variableDecl]
  obtain ⟨namedLaid, namedPart⟩ := declarationName_laysOut inOrder out keyword tail laid reading
  have namedReading := (declarationName_suffix out keyword tail).trans ((List.suffix_cons keyword tail).trans reading)
  generalize declarationName out keyword tail = declared at namedLaid namedPart namedReading ⊢
  obtain ⟨namedOut, span, children, afterName, nameLe⟩ := declared
  dsimp only at namedLaid namedPart namedReading ⊢
  split
  · rename_i afterEquals _ eaten
    obtain rfl := eat_eq_cons eaten
    have equalsBetween := (inOrder.suffix namedReading).span_between
    have equalsFromTokens := Span.fromTokens_token (namedReading.subset List.mem_cons_self)
    have valueReading := (List.suffix_cons _ afterEquals).trans namedReading
    have assigned := namedPart.cover equalsBetween equalsFromTokens
    obtain ⟨valueLaid, valuePlaced, valueNone⟩ := expression_laysOut inOrder namedOut 0 afterEquals namedLaid
      valueReading
    split
    · rename_i value _ found _
      have initialized := assigned.add (expression_grows ..) (valuePlaced value found) rfl
      rw [← Array.toList_push] at initialized
      exact initialized.push valueLaid .variable fun _ => .inl rfl
    · -- no initializer after the `=`
      have same := valueNone (by assumption)
      have later := (inOrder.suffix valueReading).startOf_le (expression_suffix eof namedOut 0 afterEquals)
      rw [← same] at assigned namedLaid
      exact (assigned.raise later).push namedLaid .variable fun _ => .inl rfl
  · rename_i afterEquals _ eaten
    have later := (inOrder.suffix namedReading).startOf_le (eat_eq_suffix eaten)
    exact (namedPart.raise later).push namedLaid .variable fun _ => .inl rfl

mutual

/-- Reading a statement keeps the arena laid out and places the node it reads, with the nodes it
added below it. -/
theorem statement_laysOut (inOrder : InOrder eof all) (out : Output) (head : Token) (tail : List Token)
    (laid : Laid all out.nodes) (reading : head :: tail <:+ all) :
    (statement eof out head tail).LaysOut all eof out := by
  have member : head ∈ all := reading.subset List.mem_cons_self
  have between := (inOrder.suffix reading).span_between
  rw [statement]
  split
  · exact functionDecl_laysOut inOrder out head tail laid reading
  · exact variableDecl_laysOut inOrder out head tail laid reading
  · exact laid_leaf laid member between .semicolon
  · dsimp only
    obtain ⟨valueLaid, valuePlaced, valueNone⟩ := expression_laysOut inOrder out 0 (head :: tail) laid reading
    have valueSuffix := expression_suffix eof out 0 (head :: tail)
    split
    · rename_i node _ found _
      exact ⟨valueLaid, valuePlaced node found⟩
    · -- nothing could be read: the first token is skipped as a bad character
      have same := valueNone (by assumption)
      have later := (inOrder.suffix ((List.suffix_cons head tail).trans reading)).startOf_le
        (tail_suffix_of_suffix valueSuffix)
      rw [← same] at laid
      obtain ⟨badLaid, badPlaced⟩ := laid_leaf laid member (between.mono (Nat.le_refl _) later) .badCharacter
      rw [same] at badPlaced
      exact ⟨badLaid, badPlaced⟩
termination_by (head :: tail).length * 16 + 14
decreasing_by all_goals (try simp only [List.length_cons]); omega

theorem functionDecl_laysOut (inOrder : InOrder eof all) (out : Output) (keyword : Token) (tail : List Token)
    (laid : Laid all out.nodes) (reading : keyword :: tail <:+ all) :
    (functionDecl eof out keyword tail).LaysOut all eof out := by
  rw [functionDecl]
  obtain ⟨namedLaid, namedPart⟩ := declarationName_laysOut inOrder out keyword tail laid reading
  have namedReading := (declarationName_suffix out keyword tail).trans ((List.suffix_cons keyword tail).trans reading)
  have namedAlone := declarationName_childless out keyword tail
  generalize declarationName out keyword tail = declared at namedLaid namedPart namedReading namedAlone ⊢
  obtain ⟨namedOut, span, children, afterName, nameLe⟩ := declared
  dsimp only at namedLaid namedPart namedReading namedAlone ⊢
  obtain ⟨listedLaid, listedPart⟩ :=
    functionParameters_laysOut inOrder namedOut span children namedLaid afterName namedReading namedPart
  have listedReading := (functionParameters_suffix eof namedOut span children afterName).trans namedReading
  -- a function read without name, parameters or body is its keyword alone
  have alone : (functionParameters eof namedOut span children afterName).2.2.1.toList = [] →
      ∃ token ∈ all, (functionParameters eof namedOut span children afterName).2.1 = token.span := by
    intro empty
    obtain ⟨none, same⟩ := functionParameters_childless eof namedOut span children afterName
      (Array.toList_eq_nil_iff.mp empty)
    exact ⟨keyword, reading.subset List.mem_cons_self, same.trans (namedAlone none)⟩
  generalize functionParameters eof namedOut span children afterName = parameters
    at listedLaid listedPart listedReading alone ⊢
  obtain ⟨listedOut, span, children, afterList, listLe⟩ := parameters
  dsimp only at listedLaid listedPart listedReading alone ⊢
  cases afterList with
  | nil => exact listedPart.push listedLaid .function fun empty => .inr (alone empty)
  | cons opening more =>
    have shorter : more.length < tail.length := by simp only [List.length_cons] at listLe; omega
    dsimp only
    split
    · obtain ⟨bodyLaid, bodyPlaced⟩ := block_laysOut inOrder listedOut opening more listedLaid listedReading
      have bodied := listedPart.add (block_grows ..) bodyPlaced rfl
      rw [← Array.toList_push] at bodied
      exact bodied.push bodyLaid .function fun empty => absurd empty (by simp)
    · exact listedPart.push listedLaid .function fun empty => .inr (alone empty)
termination_by (keyword :: tail).length * 16 + 12
decreasing_by all_goals (try simp only [List.length_cons]); omega

theorem block_laysOut (inOrder : InOrder eof all) (out : Output) (opening : Token) (tail : List Token)
    (laid : Laid all out.nodes) (reading : opening :: tail <:+ all) :
    (block eof out opening tail).LaysOut all eof out := by
  rw [block]
  dsimp only
  obtain ⟨loopLaid, loopPart⟩ := blockLoop_laysOut inOrder out opening.span #[] laid tail
    ((List.suffix_cons opening tail).trans reading)
    (Partial.start (inOrder.suffix reading).span_between (reading.subset List.mem_cons_self))
  exact loopPart.push loopLaid .block fun _ => .inl rfl
termination_by (opening :: tail).length * 16 + 12
decreasing_by all_goals (try simp only [List.length_cons]); omega

theorem blockLoop_laysOut (inOrder : InOrder eof all) (out : Output) (span : Span) (statements : Array Nat)
    (laid : Laid all out.nodes) {lo first : Nat} :
    ∀ tokens, tokens <:+ all → Partial all out.nodes lo (startOf eof tokens) first span statements.toList →
      LoopLaysOut all eof lo first (blockLoop eof out span statements tokens)
  | [], _, part => by
    rw [blockLoop]
    exact ⟨laid, part⟩
  | token :: tail, reading, part => by
    rw [blockLoop]
    split
    · exact ⟨laid, part.cover (inOrder.suffix reading).span_between
        (Span.fromTokens_token (reading.subset List.mem_cons_self))⟩
    · dsimp only
      have stepLt : (statement eof out token tail).rest.length < tail.length + 1 :=
        (statement eof out token tail).rest_lt
      obtain ⟨stepLaid, stepPlaced⟩ := statement_laysOut inOrder out token tail laid reading
      have stated := part.add (statement_grows ..) stepPlaced rfl
      rw [← Array.toList_push] at stated
      exact blockLoop_laysOut inOrder _ _ _ stepLaid _ ((statement_suffix ..).trans reading) stated
termination_by tokens => tokens.length * 16 + 15
decreasing_by all_goals (try simp only [List.length_cons]); omega

end

/-- The statements of a file keep the arena laid out, and are read one after another with every
node below one of them. -/
theorem fileLoop_laysOut (inOrder : InOrder eof all) (out : Output) (statements : Array Nat)
    (laid : Laid all out.nodes) :
    ∀ tokens, tokens <:+ all → Listed out.nodes (startOf eof tokens) statements.toList →
      Laid all (fileLoop eof out statements tokens).1.nodes ∧
        Listed (fileLoop eof out statements tokens).1.nodes eof (fileLoop eof out statements tokens).2.toList
  | [], _, listed => by
    rw [fileLoop]
    exact ⟨laid, listed⟩
  | token :: tail, reading, listed => by
    have tailReading := (List.suffix_cons token tail).trans reading
    rw [fileLoop]
    split
    · -- a stray `}` is skipped
      refine fileLoop_laysOut inOrder _ statements ?_ tail tailReading ?_
      · exact laid
      · exact listed.raise ((inOrder.suffix reading).startOf_le (List.suffix_cons token tail))
    · dsimp only
      have stepLt : (statement eof out token tail).rest.length < tail.length + 1 :=
        (statement eof out token tail).rest_lt
      obtain ⟨stepLaid, stepPlaced⟩ := statement_laysOut inOrder out token tail laid reading
      have stated := listed.add (statement_grows ..) stepPlaced
      rw [← Array.toList_push] at stated
      exact fileLoop_laysOut inOrder _ _ stepLaid _ ((statement_suffix ..).trans reading) stated
termination_by tokens => tokens.length
decreasing_by all_goals (try simp only [List.length_cons]); omega

end Statements

end ScriptLowering.Syntax

namespace ScriptLowering

open Syntax

theorem Text.byteSize_eq_utf8Encode (text : List Char) : Text.byteSize text = text.utf8Encode.size := by
  induction text with
  | nil => simp [List.utf8Encode_nil]
  | cons c rest ih =>
    rw [List.utf8Encode_cons, ByteArray.size_append, List.utf8Encode_singleton, Text.byteSize_cons, ih]
    simp

/-- The byte size of a text counts the bytes of its UTF-8 encoding. -/
theorem Text.byteSize_toList (text : String) : Text.byteSize text.toList = text.utf8ByteSize := by
  rw [Text.byteSize_eq_utf8Encode, String.utf8Encode_toList]
  rfl

namespace Span

/-- A span from the start of a token of a text to the end of one runs forward between character
boundaries of the text. -/
theorem FromTokens.bounded {text : String} {span : Span} (fromTokens : span.FromTokens (Token.scan text)) :
    ∃ start stop, span = .range start stop ∧ start ≤ stop ∧ stop ≤ text.utf8ByteSize ∧
      Text.isBoundary text.toList start ∧ Text.isBoundary text.toList stop := by
  obtain ⟨first, firstIn, last, lastIn, forward, rfl⟩ := fromTokens
  obtain ⟨-, -, firstStart, -, -⟩ := (Token.scan_segments text).2.1 first firstIn
  obtain ⟨-, lastInside, -, lastStop, -⟩ := (Token.scan_segments text).2.1 last lastIn
  rw [Text.byteSize_toList] at lastInside
  exact ⟨first.start, last.stop, rfl, Nat.le_trans forward (Token.start_le_stop last), lastInside, firstStart,
    lastStop⟩

/-- Over the tokens of a text, a span from the start of a token to the end of one that starts no
earlier ends at the same token or at a later one of the scan. -/
theorem FromTokens.exists_fin_le {text : String} {span : Span} (fromTokens : span.FromTokens (Token.scan text)) :
    ∃ first last : Fin (Token.scan text).length, first ≤ last ∧
      span = .range ((Token.scan text).get first).start ((Token.scan text).get last).stop := by
  obtain ⟨start, startIn, stop, stopIn, forward, rfl⟩ := fromTokens
  obtain ⟨first, rfl⟩ := List.get_of_mem startIn
  obtain ⟨last, rfl⟩ := List.get_of_mem stopIn
  refine ⟨first, last, Fin.not_lt.mp fun earlier => ?_, rfl⟩
  -- the tokens are not empty and each ends by the time the next starts, so an earlier token
  -- would end by the start of the first one and start before it
  have before := List.pairwise_iff_get.mp (Token.scan_segments text).2.2.1 last first earlier
  have nonempty := ((Token.scan_segments text).2.1 _ (List.get_mem _ last)).1
  omega

theorem Between.within_range {span : Span} {lo hi : Nat} (between : span.Between lo hi) :
    span.Within (.range lo hi) := by
  cases span with
  | range start stop => exact between
  | synthetic => exact absurd between id

end Span

namespace Syntax

/-- The tokens of a text come in the order of the text and end within it. -/
theorem scan_inOrder (text : String) : InOrder text.utf8ByteSize (Token.scan text) := by
  obtain ⟨-, placed, ordered, -⟩ := Token.scan_segments text
  refine ⟨ordered, fun token member => ?_⟩
  rw [← Text.byteSize_toList]
  exact (placed token member).2.1

end Syntax

namespace SyntaxArena

/-- A node of an arena laid out over a text: its children come before it and lie inside its span,
and consecutive ones start and end no earlier than the ones before; its span runs forward between
character boundaries of the text; the root spans the whole text as the file and every other node
runs from the start of a token of the text to the end of the same or a later one; and a childless
node is a container or stands for a single token. -/
structure NodeOver (text : String) (arena : SyntaxArena) (index : Nat) (node : SyntaxNode) : Prop where
  descend : ∀ child ∈ node.children, child < index
  within : ∀ child ∈ node.children, (spanAt arena.nodes child).Within node.span
  chain : (node.children.map (spanAt arena.nodes)).IsChain Span.Precedes
  bounded : ∃ start stop, node.span = .range start stop ∧ start ≤ stop ∧ stop ≤ text.utf8ByteSize ∧
    Text.isBoundary text.toList start ∧ Text.isBoundary text.toList stop
  placed : index = arena.root ∧ node.kind = .file ∧ node.span = .range 0 text.utf8ByteSize ∨
    ∃ first last : Fin (Token.scan text).length, first ≤ last ∧
      node.span = .range ((Token.scan text).get first).start ((Token.scan text).get last).stop
  leaf : node.children = [] → node.kind.isContainer ∨ ∃ token ∈ Token.scan text, node.span = token.span

section Assembly

variable {text : String} {nodes : Array SyntaxNode} {root : Nat}

/-- A node laid out over the tokens of a text is laid out over the text. -/
theorem nodeOver_of_nodeLaid {index : Nat} {node : SyntaxNode} (laid : NodeLaid (Token.scan text) nodes index node) :
    NodeOver text ⟨nodes, root⟩ index node :=
  ⟨laid.descend, laid.within, laid.chain, laid.fromTokens.bounded, .inr laid.fromTokens.exists_fin_le, laid.leaf⟩

/-- A root below which hang all the nodes, one fewer than there are, is walked down meeting every
node exactly once, and the dump of its tree has a line for every node. -/
theorem walk_of_forest (forest : Forest nodes [root] (indicesFrom nodes 0)) (last : root + 1 = nodes.size) :
    (∃ walk, (SyntaxArena.mk nodes root).walk? = some walk ∧ walk.Perm (List.range nodes.size)) ∧
      ∃ tree, (SyntaxArena.mk nodes root).toTree? = some tree ∧
        (SyntaxTree.dumpLines text.toList 0 tree).length = nodes.size := by
  obtain ⟨walks, related, perm⟩ := forest
  obtain ⟨walk, rfl⟩ : ∃ walk, walks = [walk] := by
    cases related with
    | cons visits rest =>
      obtain rfl := List.forall₂_nil_left_iff.mp rest
      exact ⟨_, rfl⟩
  have visits : (SyntaxArena.mk nodes root).visitAt nodes.size root = some walk := by
    rw [← last]
    exact (List.forall₂_cons.mp related).1
  have everyNode : walk.Perm (List.range nodes.size) := by
    simpa [indicesFrom, List.range_eq_range'] using perm
  obtain ⟨tree, unfolds, lines⟩ := unfoldAt_of_visitAt text.toList visits
  exact ⟨⟨walk, visits, everyNode⟩, tree, unfolds, by rw [lines 0, everyNode.length_eq, List.length_range]⟩

end Assembly

/-- The parser's arena is the file node, over the whole text, pushed last over the nodes read for
the statements: these are laid out over the tokens, and the statements were read one after another
with every node below one of them. -/
theorem parse_eq_push (text : String) : ∃ (out : Output) (statements : Array Nat),
    Laid (Token.scan text) out.nodes ∧ Listed out.nodes text.utf8ByteSize statements.toList ∧
      (SyntaxArena.parse text).1 =
        ⟨(out.push .file (.range 0 text.utf8ByteSize) statements.toList).1.nodes, out.nodes.size⟩ := by
  obtain ⟨fileLaid, listed⟩ := fileLoop_laysOut (scan_inOrder text) {} #[] laid_empty (Token.scan text)
    (List.suffix_refl _) listed_nil
  unfold SyntaxArena.parse
  dsimp only
  generalize fileLoop text.utf8ByteSize {} #[] (Token.scan text) = loop at fileLaid listed ⊢
  obtain ⟨out, statements⟩ := loop
  exact ⟨out, statements, fileLaid, listed, rfl⟩

/-- The walk down from the root of the parser's arena meets every node exactly once, and the dump
of its tree has a line for every node. -/
theorem parse_walk (text : String) :
    (∃ walk, (SyntaxArena.parse text).1.walk? = some walk ∧
      walk.Perm (List.range (SyntaxArena.parse text).1.nodes.size)) ∧
      ∃ tree, (SyntaxArena.parse text).1.toTree? = some tree ∧
        (SyntaxTree.dumpLines text.toList 0 tree).length = (SyntaxArena.parse text).1.nodes.size := by
  obtain ⟨out, statements, -, listed, parsed⟩ := parse_eq_push text
  rw [parsed]
  -- the file node over the statements comes last, and every node hangs below it
  have rooted := forest_push listed.forest .file (.range 0 text.utf8ByteSize)
  rw [← indicesFrom_push (Nat.zero_le _)] at rooted
  exact walk_of_forest rooted (by simp [Output.push])

/-- Every node of the parser's arena is laid out over the text: the file node over the whole text
and the statements, every other node over the tokens. -/
theorem parse_nodeOver (text : String) :
    ∀ index node, (SyntaxArena.parse text).1.nodes[index]? = some node →
      (SyntaxArena.parse text).1.NodeOver text index node := by
  obtain ⟨out, statements, fileLaid, listed, parsed⟩ := parse_eq_push text
  rw [parsed]
  intro index node found
  have grows := Output.grows_push out .file (.range 0 text.utf8ByteSize) statements.toList
  simp only [Output.push, Array.getElem?_push] at found
  split at found
  · -- the root: the file over the whole text
    rename_i isRoot
    subst isRoot
    obtain rfl := Option.some.inj found
    have same : ∀ statement ∈ statements.toList,
        spanAt (out.push .file (.range 0 text.utf8ByteSize) statements.toList).1.nodes statement =
          spanAt out.nodes statement :=
      fun statement member => spanAt_grow grows (listed.forest.lt statement member)
    refine ⟨listed.forest.lt, fun statement member => ?_, ?_, ?_, .inl ⟨rfl, rfl, rfl⟩, fun _ => .inl rfl⟩
    · rw [same statement member]
      exact (listed.between statement member).within_range
    · rw [List.map_congr_left same]
      exact listed.chain
    · refine ⟨0, text.utf8ByteSize, rfl, Nat.zero_le _, Nat.le_refl _, by cases text.toList <;> rfl, ?_⟩
      rw [← Text.byteSize_toList]
      simpa using Token.isBoundary_byteSize text.toList []
  · -- every other node is laid out over the tokens
    have present := Nat.le_of_lt (Array.getElem?_eq_some_iff.mp found).1
    exact nodeOver_of_nodeLaid ((fileLaid index node found).grow present grows)

end SyntaxArena

end ScriptLowering
