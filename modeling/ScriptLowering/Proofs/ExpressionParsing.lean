import ScriptLowering.Proofs.ExpressionReading

/-! # Expressions are read exactly by their grammar

The converse of the reading lemmas: tokens that derive an expression, followed by a token that
ends it, are read by the parser without a report, to a node holding the derived tree. The proof
follows the derivation, one lemma per nonterminal, each saying what the parser function for that
nonterminal does on the tokens the nonterminal derives.

Together with the reading lemmas this pins the parser down: without reports, it reads the longest
prefix that is an expression, and the grammar gives that prefix one tree only.
-/

namespace ScriptLowering.Syntax

open Output

section Parsed

variable {tokens : List Token}

/-- The attempt read a node holding `tree`, left `rest` and reported nothing since `out`. -/
def Attempt.Parsed (attempt : Attempt tokens) (out : Output) (rest : List Token) (tree : SyntaxTree) :
    Prop :=
  ∃ node, attempt.node = some node ∧ attempt.rest = rest ∧
    attempt.out.reports.size = out.reports.size ∧ attempt.out.Holds node tree

/-- The growth made a node holding `tree`, left `rest` and reported nothing since `out`. -/
def Grown.Parsed (grown : Grown tokens) (out : Output) (rest : List Token) (tree : SyntaxTree) : Prop :=
  grown.rest = rest ∧ grown.out.reports.size = out.reports.size ∧ grown.out.Holds grown.node tree

/-- The step made a node holding `tree`, left `rest` and reported nothing since `out`. -/
def Step.Parsed (step : Step tokens) (out : Output) (rest : List Token) (tree : SyntaxTree) : Prop :=
  step.rest = rest ∧ step.out.reports.size = out.reports.size ∧ step.out.Holds step.node tree

/-- A list loop that started at `span` with `children` read up to its closing bracket `closing`
and left `rest`, added one child per item of `items` and covered them, and reported nothing
since `out`. -/
def ListParsed (out : Output) (span : Span) (children : Array Nat) (rest : List Token)
    (items : List SyntaxTree) (closing : Token) (result : Output × Span × Array Nat × Rest tokens) :
    Prop :=
  result.2.2.2.1 = rest ∧ result.1.reports.size = out.reports.size ∧
    ∃ ids, result.2.2.1.toList = children.toList ++ ids ∧ List.Forall₂ result.1.Holds ids items ∧
      result.2.1 = ((items.map SyntaxTree.span).foldl Span.cover span).cover closing.span

/-- A loop that pushed the child `id` of `item` before reading the rest read `item` first. -/
theorem ListParsed.push {tail : List Token} {out mid : Output} {span : Span} {children : Array Nat}
    {rest : List Token} {id : Nat} {item : SyntaxTree} {items : List SyntaxTree} {closing : Token}
    {result : Output × Span × Array Nat × Rest tail} (holds : mid.Holds id item)
    (grows : Grows mid result.1) (quiet : mid.reports.size = out.reports.size)
    (parsed : ListParsed mid (span.cover item.span) (children.push id) rest items closing result) :
    ListParsed out span children rest (item :: items) closing result := by
  obtain ⟨restIs, loopQuiet, ids, childrenIs, holdsAll, spanIs⟩ := parsed
  refine ⟨restIs, by rw [loopQuiet, quiet], id :: ids, by simp [childrenIs],
    .cons (holds.grow grows) holdsAll, by rw [spanIs]; rfl⟩

end Parsed

/-- Reading a token of the kind asked for takes it. -/
theorem eat_self {kind : TokenKind} {token : Token} (isKind : token.kind = kind) (rest : List Token) :
    (eat kind (token :: rest)).1 = some token ∧ (eat kind (token :: rest)).2.1 = rest := by
  simp [eat, isKind]

/-- A name is read as a reference to it. -/
theorem primary_reference {eof : Nat} {out : Output} {token : Token} (isName : token.kind = .identifier)
    (rest : List Token) :
    (primary eof out (token :: rest)).Parsed out rest
      (.node .reference token.span [leafTree .identifier token]) := by
  rw [primary]
  simp only [isName]
  exact ⟨_, rfl, rfl, rfl, holds_push (.cons (holds_leaf out .identifier token) .nil) .reference token.span⟩

/-- A literal or a bad character is read as the node of its kind. -/
theorem primary_constant {eof : Nat} {out : Output} {token : Token} {kind : SyntaxKind}
    (isConstant : token.kind.constantNode? = some kind) (rest : List Token) :
    (primary eof out (token :: rest)).Parsed out rest (leafTree kind token) := by
  rw [primary]
  cases tokenKind : token.kind <;> simp only [tokenKind, TokenKind.constantNode?, reduceCtorEq,
    Option.some.injEq] at isConstant <;> subst isConstant <;>
    exact ⟨_, rfl, rfl, rfl, holds_leaf ..⟩

/-- An argument list whose loop read its slots is the list node over them. -/
theorem argumentList_parses {eof : Nat} {out : Output} {opening closing : Token} {tail rest : List Token}
    {items : List SyntaxTree}
    (loop : ListParsed out opening.span #[] rest items closing
      (argumentLoop eof out opening.span #[] true false tail)) :
    (argumentList eof out opening tail).Parsed out rest (listTree .argumentList opening items closing) := by
  rw [argumentList]
  obtain ⟨restIs, quiet, ids, children, holds, span⟩ := loop
  simp only [List.nil_append] at children
  refine ⟨restIs, quiet, ?_⟩
  dsimp only
  rw [children, span]
  exact holds_push holds .argumentList _

/-- An object whose loop read its clauses is the object node over them. -/
theorem object_parses {eof : Nat} {out : Output} {opening closing : Token} {tail rest : List Token}
    {items : List SyntaxTree}
    (loop : ListParsed out opening.span #[] rest items closing
      (objectLoop eof out opening.span #[] false tail)) :
    (object eof out opening tail).Parsed out rest (listTree .object opening items closing) := by
  rw [object]
  obtain ⟨restIs, quiet, ids, children, holds, span⟩ := loop
  simp only [List.nil_append] at children
  refine ⟨restIs, quiet, ?_⟩
  dsimp only
  rw [children, span]
  exact holds_push holds .object _

/-- A clause `name: value` whose value reads as an expression is the clause node over its key and
value. -/
theorem objectClause_parses {eof : Nat} {out : Output} {name colon : Token} {tail rest : List Token}
    {tree : SyntaxTree} (isColon : colon.kind = .colon)
    (value : (expression eof ((out.leaf .identifier name).1.push .objectKey name.span
      [(out.leaf .identifier name).2]).1 0 tail).Parsed out rest tree) :
    (objectClause eof out name (colon :: tail)).Parsed out rest (clauseTree name colon tree) := by
  rw [objectClause]
  simp only [eat, isColon, ↓reduceIte]
  obtain ⟨valueNode, found, valueRest, valueQuiet, valueHolds⟩ := value
  have keyHolds := holds_push (.cons (holds_leaf out .identifier name) .nil) .objectKey name.span
  have valueGrows := expression_grows eof
    ((out.leaf .identifier name).1.push .objectKey name.span [(out.leaf .identifier name).2]).1 0 tail
  split
  · rename_i node _ found' _
    rw [found] at found'
    cases found'
    refine ⟨valueRest, valueQuiet, ?_⟩
    dsimp only
    rw [valueHolds.spanOf_eq]
    have holderHolds := holds_push (.cons valueHolds .nil) .objectValue tree.span
    exact holds_push (.cons ((keyHolds.grow valueGrows).grow (grows_push ..)) (.cons holderHolds .nil))
      .objectClause _
  · rename_i nothing _
    rw [found] at nothing
    cases nothing

mutual

/-- Tokens that derive an expression, followed by a token that ends it, are read to a node holding
its tree, at each power that takes in `=`. -/
theorem Expr.parses {read : List Token} {tree : SyntaxTree} (derived : Expr read tree) (eof : Nat)
    (out : Output) {minPower : Nat} (low : minPower ≤ 1) {rest : List Token} (ends : EndsExpression rest) :
    ∀ tokens, tokens = read ++ rest → (expression eof out minPower tokens).Parsed out rest tree :=
  match derived with
  | @Expr.mk _ suffixTokens _ _ isPrimary suffixes => fun tokens split => by
    rw [expression]
    dsimp only
    obtain ⟨lhs, found, firstRest, firstQuiet, firstHolds⟩ :=
      Primary.parses isPrimary eof out (suffixTokens ++ rest) tokens (by rw [split, List.append_assoc])
    split
    · rename_i nothing _
      rw [found] at nothing
      cases nothing
    · rename_i lhs' _ found' _
      rw [found] at found'
      cases found'
      obtain ⟨restIs, quiet, holds⟩ :=
        Suffixes.parses suffixes eof (primary eof out tokens).out low lhs firstHolds ends _ firstRest
      exact ⟨_, rfl, restIs, by rw [quiet, firstQuiet], holds⟩

/-- Suffixes after a node holding `start` are read onto it, to a node holding the tree they
make. -/
theorem Suffixes.parses {start tree : SyntaxTree} {read : List Token}
    (derived : Suffixes start read tree) (eof : Nat) (out : Output) {minPower : Nat} (low : minPower ≤ 1)
    (lhs : Nat) (holds : out.Holds lhs start) {rest : List Token} (ends : EndsExpression rest) :
    ∀ tokens, tokens = read ++ rest → (operators eof out minPower lhs tokens).Parsed out rest tree :=
  match derived with
  | .done _ => fun tokens split => by
    simp only [List.nil_append] at split
    subst split
    rw [operators_ends ends]
    exact ⟨rfl, rfl, holds⟩
  | @Suffixes.member _ _ _ dot property later isDot isPrimary suffixes =>
    fun tokens split => by
      subst split
      simp only [List.cons_append]
      rw [operators]
      simp only [isDot, reduceCtorEq, ↓reduceIte, infixPower]
      rw [if_neg (by omega)]
      have tight := @expression_tight eof (out.leaf .operator dot).1 6 (by omega)
        (property ++ later ++ rest)
      obtain ⟨rhsNode, found, rhsRest, rhsQuiet, rhsHolds⟩ :=
        Primary.parses isPrimary eof (out.leaf .operator dot).1 (later ++ rest) (property ++ later ++ rest)
          (by simp)
      rw [← tight] at found rhsRest rhsQuiet rhsHolds
      have rhsGrows := expression_grows eof (out.leaf .operator dot).1 6 (property ++ later ++ rest)
      split
      · rename_i node _ found' _
        rw [found] at found'
        cases found'
        have binaryHolds := holds_push_binary holds
          ((holds.grow (grows_leaf out .operator dot)).grow rhsGrows)
          ((holds_leaf out .operator dot).grow rhsGrows) rhsHolds
        obtain ⟨restIs, quiet, treeHolds⟩ :=
          Suffixes.parses suffixes eof _ low _ binaryHolds ends _ rhsRest
        refine ⟨restIs, ?_, treeHolds⟩
        dsimp only [Grown.afterToken_out]
        simp only [push_reports, leaf_reports] at quiet rhsQuiet
        omega
      · rename_i nothing _
        rw [found] at nothing
        cases nothing
  | @Suffixes.call _ _ _ list later isList suffixes => fun tokens split => by
    obtain ⟨opening, tail, rfl, isOpen, listParses⟩ := ArgumentList.parses isList eof out (later ++ rest)
    subst split
    simp only [List.cons_append]
    rw [operators, if_pos isOpen, if_neg (by simp only [callPower]; omega)]
    obtain ⟨listRest, listQuiet, listHolds⟩ := listParses (tail ++ later ++ rest) (by simp)
    have callHolds := holds_push_call (holds.grow (argumentList_grows ..)) listHolds
    obtain ⟨restIs, quiet, treeHolds⟩ := Suffixes.parses suffixes eof _ low _ callHolds ends _ listRest
    refine ⟨restIs, ?_, treeHolds⟩
    dsimp only [Grown.afterStep_out]
    simp only [push_reports] at quiet
    omega
  | @Suffixes.assign _ _ equals value isEquals isExpr => fun tokens split => by
    subst split
    simp only [List.cons_append]
    rw [operators]
    simp only [isEquals, reduceCtorEq, ↓reduceIte, infixPower]
    rw [if_neg (by omega)]
    obtain ⟨rhsNode, found, rhsRest, rhsQuiet, rhsHolds⟩ :=
      Expr.parses isExpr eof (out.leaf .operator equals).1 (Nat.le_refl 1) ends (value ++ rest) rfl
    have rhsGrows := expression_grows eof (out.leaf .operator equals).1 1 (value ++ rest)
    split
    · rename_i node _ found' _
      rw [found] at found'
      cases found'
      rw [operators_ends (by rw [rhsRest]; exact ends)]
      exact ⟨rhsRest, rhsQuiet, holds_push_binary holds ((holds.grow (grows_leaf out .operator equals)).grow
        rhsGrows) ((holds_leaf out .operator equals).grow rhsGrows) rhsHolds⟩
    · rename_i nothing _
      rw [found] at nothing
      cases nothing

/-- Tokens that derive a primary are read to a node holding its tree, whatever follows. -/
theorem Primary.parses {read : List Token} {tree : SyntaxTree} (derived : Primary read tree) (eof : Nat)
    (out : Output) (rest : List Token) :
    ∀ tokens, tokens = read ++ rest → (primary eof out tokens).Parsed out rest tree :=
  match derived with
  | .reference isName => fun _ split => split ▸ primary_reference isName rest
  | .constant isConstant => fun _ split => split ▸ primary_constant isConstant rest
  | @Primary.parenthesized opening closing inner _ isOpen isExpr closes =>
    fun tokens split => by
      subst split
      simp only [List.cons_append]
      rw [primary]
      simp only [isOpen]
      obtain ⟨node, found, innerRest, innerQuiet, innerHolds⟩ :=
        Expr.parses isExpr eof out (Nat.zero_le 1)
          (by simp [closes, TokenKind.continuesExpression] : EndsExpression (closing :: rest))
          (inner ++ [closing] ++ rest) (by simp)
      have eaten := eat_self closes rest
      rw [← innerRest] at eaten
      split
      · rename_i nothing _
        rw [found] at nothing
        cases nothing
      · rename_i node' _ found' _
        rw [found] at found'
        cases found'
        split
        · rename_i after afterLe eatenIs
          have afterIs : after = rest := by rw [← eaten.2, eatenIs]
          exact ⟨node, rfl, afterIs, innerQuiet, innerHolds⟩
        · rename_i after afterLe eatenIs
          have := eaten.1
          rw [eatenIs] at this
          cases this
  | @Primary.object opening closing inner _ isOpen properties closes =>
    fun tokens split => by
      subst split
      simp only [List.cons_append]
      rw [primary]
      simp only [isOpen]
      obtain ⟨restIs, quiet, holds⟩ := object_parses (Properties.parses properties eof out opening.span #[]
        closes rest (inner ++ [closing] ++ rest) (by simp))
      exact ⟨_, rfl, restIs, quiet, holds⟩

/-- An argument list is read from its opening bracket on, whatever follows. -/
theorem ArgumentList.parses {read : List Token} {tree : SyntaxTree} (derived : ArgumentList read tree)
    (eof : Nat) (out : Output) (rest : List Token) :
    ∃ opening tail, read = opening :: tail ∧ opening.kind = .openParen ∧
      ∀ tokens, tokens = tail ++ rest → (argumentList eof out opening tokens).Parsed out rest tree :=
  match derived with
  | @ArgumentList.mk opening closing inner _ isOpen slots closes =>
    ⟨opening, inner ++ [closing], rfl, isOpen, fun tokens split => argumentList_parses
      (Slots.parses slots eof out opening.span #[] false (by simp) closes rest tokens (by simp [split]))⟩

/-- The slots of an argument list and its closing bracket are read to one child per item. -/
theorem Slots.parses {expecting : Bool} {inner : List Token} {items : List SyntaxTree}
    (derived : Slots expecting inner items) (eof : Nat) (out : Output) (span : Span) (children : Array Nat)
    (seenComma : Bool) (fresh : expecting = true → seenComma = true ∨ children = #[])
    {closing : Token} (closes : closing.kind = .closeParen) (rest : List Token) :
    ∀ tokens, tokens = inner ++ closing :: rest →
      ListParsed out span children rest items closing
        (argumentLoop eof out span children expecting seenComma tokens) :=
  match derived with
  | .done _ => fun tokens split => by
    simp only [List.nil_append] at split
    subst split
    rw [argumentLoop]
    simp only [closes]
    exact ⟨rfl, rfl, [], by simp, .nil, rfl⟩
  | @Slots.argument value later _ _ isExpr slots => fun tokens split => by
    obtain ⟨first, others, valueIs, starts⟩ := isExpr.head
    obtain ⟨valueNode, found, valueRest, valueQuiet, valueHolds⟩ :=
      Expr.parses isExpr eof out (Nat.zero_le 1) (slots.ends closes rest) tokens
        (by rw [split, List.append_assoc])
    subst split
    rw [valueIs] at found valueRest valueQuiet valueHolds ⊢
    simp only [List.cons_append] at found valueRest valueQuiet valueHolds ⊢
    rw [argumentLoop]
    dsimp only
    split
    · rename_i isKind
      simp [isKind, TokenKind.startsPrimary] at starts
    · rename_i isKind
      simp [isKind, TokenKind.startsPrimary] at starts
    · rename_i isKind
      simp [isKind, TokenKind.startsPrimary] at starts
    · rename_i isKind
      simp [isKind, TokenKind.startsPrimary] at starts
    · split
      · rename_i node _ found' _
        rw [found] at found'
        cases found'
        simp only [↓reduceIte]
        rw [valueHolds.spanOf_eq]
        exact ListParsed.push (holds_push (.cons valueHolds .nil) .argument _) (argumentLoop_grows ..)
          valueQuiet (Slots.parses slots eof _ _ _ seenComma (by simp) closes rest _ valueRest)
      · rename_i nothing _
        rw [found] at nothing
        cases nothing
  | @Slots.empty comma later _ isComma slots => fun tokens split => by
    subst split
    simp only [List.cons_append]
    have takesEmpty : (true && (seenComma || children.isEmpty)) = true := by
      rcases fresh rfl with seen | empty
      · simp [seen]
      · simp [empty]
    rw [argumentLoop]
    simp only [isComma, takesEmpty, ↓reduceIte]
    have parsed := Slots.parses slots eof ((out.push .argument comma.span []).1.leaf .comma comma).1
      (span.cover comma.span) ((children.push (out.push .argument comma.span []).2).push
        ((out.push .argument comma.span []).1.leaf .comma comma).2) true (by simp) closes rest _ rfl
    nth_rewrite 1 [← Span.cover_cover_self span comma.span] at parsed
    exact ListParsed.push (holds_push .nil .argument comma.span) ((grows_leaf ..).trans (argumentLoop_grows ..)) rfl
      (ListParsed.push (holds_leaf _ .comma comma) (argumentLoop_grows ..) rfl parsed)
  | @Slots.comma comma later _ isComma slots => fun tokens split => by
    subst split
    simp only [List.cons_append]
    rw [argumentLoop]
    simp only [isComma, Bool.false_and, Bool.false_eq_true, ↓reduceIte]
    exact ListParsed.push (holds_leaf out .comma comma) (argumentLoop_grows ..) rfl
      (Slots.parses slots eof _ _ _ true (by simp) closes rest _ rfl)

/-- The properties of an object and its closing brace are read to one child per item. -/
theorem Properties.parses {afterClause : Bool} {inner : List Token} {items : List SyntaxTree}
    (derived : Properties afterClause inner items) (eof : Nat) (out : Output) (span : Span)
    (children : Array Nat) {closing : Token} (closes : closing.kind = .closeBrace) (rest : List Token) :
    ∀ tokens, tokens = inner ++ closing :: rest →
      ListParsed out span children rest items closing (objectLoop eof out span children afterClause tokens) :=
  match derived with
  | .done _ => fun tokens split => by
    simp only [List.nil_append] at split
    subst split
    rw [objectLoop]
    simp only [closes]
    exact ⟨rfl, rfl, [], by simp, .nil, rfl⟩
  | @Properties.comma comma _ later _ isComma properties => fun tokens split => by
    subst split
    simp only [List.cons_append]
    rw [objectLoop]
    simp only [isComma]
    exact ListParsed.push (holds_leaf out .comma comma) (objectLoop_grows ..) rfl
      (Properties.parses properties eof _ _ _ closes rest _ rfl)
  | @Properties.clause name colon value later _ _ isName isColon isExpr properties => fun tokens split => by
    subst split
    simp only [List.cons_append]
    rw [objectLoop]
    simp only [isName]
    -- a first clause reports nothing, whatever the test on the start state looks like
    generalize startIs :
      (if false = true then out.report name.span "Expected , between properties" else out) = start
    have startEq : out = start := by rw [← startIs]; rfl
    subst startEq
    obtain ⟨clauseRest, clauseQuiet, clauseHolds⟩ := @objectClause_parses eof out name colon _ _ _ isColon
      (Expr.parses isExpr eof _ (Nat.zero_le 1) (properties.ends closes rest) (value ++ later ++ closing :: rest)
        (by simp))
    rw [clauseHolds.spanOf_eq]
    exact ListParsed.push clauseHolds (objectLoop_grows ..) clauseQuiet
      (Properties.parses properties eof _ _ _ closes rest _ clauseRest)

end


/-- An expression that reads no node is the attempt of its primary. -/
theorem expression_eq_primary_of_none {eof : Nat} {out : Output} {minPower : Nat} {tokens : List Token}
    (nothing : (expression eof out minPower tokens).node = none) :
    expression eof out minPower tokens = primary eof out tokens := by
  revert nothing
  rw [expression]
  generalize primary eof out tokens = attempt
  cases attempt with
  | mk node after rest restLe restLt =>
    cases node with
    | none => intro _; rfl
    | some lhs => intro found; cases found

/-- A primary that reads nothing and reports nothing stands before a token that cannot start
one, and leaves the tokens as they were. -/
theorem primary_none {eof : Nat} {out : Output} :
    ∀ tokens, (primary eof out tokens).node = none →
      (primary eof out tokens).out.reports.size = out.reports.size →
      (primary eof out tokens).rest = tokens ∧ ∀ token ∈ tokens.head?, token.kind.startsPrimary = false := by
  intro tokens
  cases tokens with
  | nil =>
    rw [primary]
    intro _ _
    simp
  | cons token tail =>
    rw [primary]
    split
    · intro found; cases found
    · intro found; cases found
    · intro found; cases found
    · intro found; cases found
    · intro found; cases found
    · intro found; cases found
    · dsimp only
      split
      · intro _ quiet
        exact absurd quiet (Grows.loud (expression_grows eof out 0 tail) (.refl _))
      · split <;> (intro found; cases found)
    · intro found; cases found
    · intro _ _
      refine ⟨rfl, ?_⟩
      cases kind : token.kind <;> simp_all [TokenKind.startsPrimary]

/-- The grammar is unambiguous: tokens that are an expression are one in only one way. -/
theorem Expr.unique {read : List Token} {tree other : SyntaxTree} (derived : Expr read tree)
    (another : Expr read other) : other = tree := by
  obtain ⟨node, found, -, -, holds⟩ :=
    derived.parses 0 default (Nat.zero_le 1) endsExpression_nil read (by simp)
  obtain ⟨node', found', -, -, holds'⟩ :=
    another.parses 0 default (Nat.zero_le 1) endsExpression_nil read (by simp)
  rw [found] at found'
  cases found'
  exact holds'.unique holds

/-- An expression does not go on into tokens that begin with one that ends it. -/
theorem Expr.maximal {read more : List Token} {tree other : SyntaxTree} (derived : Expr read tree)
    (longer : Expr (read ++ more) other) (ends : EndsExpression more) : more = [] := by
  obtain ⟨-, -, shortRest, -, -⟩ := derived.parses 0 default (Nat.zero_le 1) ends (read ++ more) rfl
  obtain ⟨-, -, longRest, -, -⟩ :=
    longer.parses 0 default (Nat.zero_le 1) endsExpression_nil (read ++ more) (by simp)
  rw [← shortRest, longRest]

section Longest

variable {tokens : List Token}

/-- The attempt read the longest prefix of the tokens that is an expression, none when there is
none, and its node holds the only tree of that prefix. -/
def Attempt.ReadsLongest (attempt : Attempt tokens) : Prop :=
  ∃ read, tokens = read ++ attempt.rest ∧
    (∀ longer tree, longer <+: tokens → Expr longer tree → longer.length ≤ read.length) ∧
    (attempt.node = none ↔ read = []) ∧
    ∀ node, attempt.node = some node →
      ∃ tree, Expr read tree ∧ attempt.out.Holds node tree ∧ ∀ other, Expr read other → other = tree

end Longest

/-- An expression read without a report is the longest prefix of the tokens that is an
expression, and the node read holds its only tree. -/
theorem expression_reads_longest (eof : Nat) (out : Output) (tokens : List Token)
    (quiet : (expression eof out 0 tokens).out.reports = out.reports) :
    (expression eof out 0 tokens).ReadsLongest := by
  have quietSize : (expression eof out 0 tokens).out.reports.size = out.reports.size := by rw [quiet]
  cases found : (expression eof out 0 tokens).node with
  | none =>
    -- nothing was read because no primary starts here, so no expression does either
    have same := expression_eq_primary_of_none found
    rw [same] at found quietSize ⊢
    obtain ⟨restIs, cannotStart⟩ := primary_none tokens found quietSize
    refine ⟨[], by rw [restIs]; rfl, ?_, by simp [found], by simp [found]⟩
    intro longer tree isPrefix derived
    obtain ⟨first, others, rfl, starts⟩ := derived.head
    obtain ⟨extra, rfl⟩ := isPrefix
    simp [starts] at cannotStart
  | some node =>
    obtain ⟨read, tree, split, derived, holds, ends⟩ :=
      expression_sound eof out (Nat.zero_le 1) tokens quietSize node found
    refine ⟨read, split, ?_, ?_, ?_⟩
    · intro longer other isPrefix longerDerived
      obtain ⟨extra, tokensIs⟩ := isPrefix
      rw [split] at tokensIs
      rcases List.append_eq_append_iff.1 tokensIs with ⟨more, readIs, -⟩ | ⟨more, longerIs, restIs⟩
      · simp [readIs]
      · -- the longer expression goes on past the rest's first token, which ends the expression
        have moreEnds : EndsExpression more := by
          cases more with
          | nil => simp
          | cons token more => simpa [restIs] using ends
        have noMore := derived.maximal (longerIs ▸ longerDerived) moreEnds
        simp [longerIs, noMore]
    · refine ⟨fun nothing => ?_, fun empty => ?_⟩
      · rw [found] at nothing
        cases nothing
      · obtain ⟨first, others, readIs, -⟩ := derived.head
        rw [empty] at readIs
        cases readIs
    · intro node' found'
      rw [found] at found'
      cases found'
      exact ⟨tree, derived, holds, fun other another => derived.unique another⟩


/-- The tokens of a.b(1).c = d = e(f).g: member accesses and calls under two assignments. -/
def assignmentChain : List Token :=
  [⟨.identifier, 0, ['a']⟩, ⟨.dot, 1, ['.']⟩, ⟨.identifier, 2, ['b']⟩, ⟨.openParen, 3, ['(']⟩,
    ⟨.numberLiteral, 4, ['1']⟩, ⟨.closeParen, 5, [')']⟩, ⟨.dot, 6, ['.']⟩, ⟨.identifier, 7, ['c']⟩,
    ⟨.equals, 9, ['=']⟩, ⟨.identifier, 11, ['d']⟩, ⟨.equals, 13, ['=']⟩, ⟨.identifier, 15, ['e']⟩,
    ⟨.openParen, 16, ['(']⟩, ⟨.identifier, 17, ['f']⟩, ⟨.closeParen, 18, [')']⟩, ⟨.dot, 19, ['.']⟩,
    ⟨.identifier, 20, ['g']⟩]

theorem expression_reads_longest_assignmentChain :
    (expression 21 default 0 assignmentChain).out.reports = (default : Output).reports ∧
      (expression 21 default 0 assignmentChain).ReadsLongest :=
  have quiet : (expression 21 default 0 assignmentChain).out.reports = (default : Output).reports := by
    decide +kernel
  ⟨quiet, expression_reads_longest 21 default assignmentChain quiet⟩

end ScriptLowering.Syntax
