import ScriptLowering.Proofs.ParseOutput

/-! # The parser reads its tokens as a stream

Every reading function of the parser reads from the front of the tokens it is handed and gives
back the rest: what it leaves is always a suffix of what it was given (`expression_suffix` and
its companions, proved together along the parser's own recursion). The functions that start at a
token they are handed, a statement, a declaration after its keyword, a bracketed list after its
opening bracket, an object clause after its name, read at least that token, and an attempt at an
expression reads at least one token whenever it reads a node.

With the measure the parser's definitions terminate by, sixteen times the number of unread
tokens plus the function's rank, this is what makes parsing end on every input: every loop round
and every cycle of calls reads a token before it comes back (`parser_reads_forward`).
-/

namespace ScriptLowering.Syntax

theorem eat_suffix (kind : TokenKind) (tokens : List Token) : (eat kind tokens).2.1 <:+ tokens := by
  unfold eat
  split
  · split
    · exact List.suffix_cons _ _
    · exact List.suffix_refl _
  · exact List.suffix_refl _

/-- What a read of one token leaves is a suffix, also when it is taken apart. -/
theorem eat_eq_suffix {kind : TokenKind} {tokens after : List Token} {found : Option Token}
    {le : after.length ≤ tokens.length} (eaten : eat kind tokens = (found, ⟨after, le⟩)) :
    after <:+ tokens := by
  have read := eat_suffix kind tokens
  rw [eaten] at read
  exact read

theorem parameterLoop_suffix (eof : Nat) (out : Output) (span : Span) (children : Array Nat)
    (afterParameter : Bool) :
    ∀ tokens, (parameterLoop eof out span children afterParameter tokens).2.2.2.1 <:+ tokens := by
  intro tokens
  induction tokens generalizing out span children afterParameter with
  | nil => simp only [parameterLoop, List.suffix_refl]
  | cons token tail later =>
    rw [parameterLoop]
    split
    · exact List.suffix_cons _ _
    · exact (later ..).trans (List.suffix_cons _ _)
    · exact (later ..).trans (List.suffix_cons _ _)
    · exact List.suffix_refl _
    · exact (later ..).trans (List.suffix_cons _ _)

theorem parameterList_suffix (eof : Nat) (out : Output) (opening : Token) (tail : List Token) :
    (parameterList eof out opening tail).rest <:+ opening :: tail := by
  rw [parameterList]
  exact (parameterLoop_suffix ..).trans (List.suffix_cons _ _)

theorem declarationName_suffix (out : Output) (keyword : Token) (tail : List Token) :
    (declarationName out keyword tail).2.2.2.1 <:+ tail := by
  unfold declarationName
  split
  all_goals
    rename_i eaten
    exact eat_eq_suffix eaten

theorem functionParameters_suffix (eof : Nat) (out : Output) (span : Span) (children : Array Nat) :
    ∀ tokens, (functionParameters eof out span children tokens).2.2.2.1 <:+ tokens := by
  intro tokens
  cases tokens with
  | nil => exact List.suffix_refl _
  | cons opening more =>
    rw [functionParameters]
    split
    · exact parameterList_suffix ..
    · exact List.suffix_refl _

mutual

theorem expression_suffix (eof : Nat) (out : Output) (minPower : Nat) (tokens : List Token) :
    (expression eof out minPower tokens).rest <:+ tokens := by
  rw [expression]
  dsimp only
  have first := primary_suffix eof out tokens
  have firstLe := (primary eof out tokens).rest_le
  split
  · exact first
  · exact (operators_suffix ..).trans first
termination_by tokens.length * 16 + 8
decreasing_by all_goals omega

theorem operators_suffix (eof : Nat) (out : Output) (minPower lhs : Nat) :
    ∀ tokens, (operators eof out minPower lhs tokens).rest <:+ tokens
  | [] => by rw [operators]; exact List.suffix_refl _
  | token :: tail => by
    rw [operators]
    dsimp only
    split
    · split
      · exact List.suffix_refl _
      · have shorter := (argumentList eof out token tail).rest_lt
        dsimp only [Grown.afterStep_rest]
        exact (operators_suffix ..).trans (argumentList_suffix ..)
    · split
      · exact List.suffix_refl _
      · rename_i left right found
        split
        · exact List.suffix_refl _
        · have read := (expression eof (out.leaf .operator token).1 right tail).rest_le
          split
          all_goals
            dsimp only [Grown.afterToken_rest]
            exact (operators_suffix ..).trans ((expression_suffix ..).trans (List.suffix_cons _ _))
termination_by tokens => tokens.length * 16 + 6
decreasing_by all_goals first | omega | (simp only [List.length_cons] at *; omega)

theorem primary_suffix (eof : Nat) (out : Output) :
    ∀ tokens, (primary eof out tokens).rest <:+ tokens
  | [] => by simp only [primary, List.suffix_refl]
  | token :: tail => by
    rw [primary]
    split
    any_goals exact List.suffix_cons _ _
    · -- after `(`, the inner expression and then a `)` if there is one
      dsimp only
      have inner := expression_suffix eof out 0 tail
      split
      · exact (eat_suffix ..).trans (inner.trans (List.suffix_cons _ _))
      · split
        all_goals
          rename_i eaten
          exact (eat_eq_suffix eaten).trans (inner.trans (List.suffix_cons _ _))
    · exact object_suffix ..
    · exact List.suffix_refl _
termination_by tokens => tokens.length * 16 + 7
decreasing_by all_goals ((try simp only [List.length_cons]); omega)

theorem argumentList_suffix (eof : Nat) (out : Output) (opening : Token) (tail : List Token) :
    (argumentList eof out opening tail).rest <:+ opening :: tail := by
  rw [argumentList]
  exact (argumentLoop_suffix ..).trans (List.suffix_cons _ _)
termination_by (opening :: tail).length * 16 + 4
decreasing_by all_goals ((try simp only [List.length_cons]); omega)

theorem argumentLoop_suffix (eof : Nat) (out : Output) (span : Span) (children : Array Nat)
    (expecting seenComma : Bool) :
    ∀ tokens, (argumentLoop eof out span children expecting seenComma tokens).2.2.2.1 <:+ tokens
  | [] => by simp only [argumentLoop, List.suffix_refl]
  | token :: tail => by
    rw [argumentLoop]
    dsimp only
    split
    · exact List.suffix_cons _ _
    · exact (argumentLoop_suffix ..).trans (List.suffix_cons _ _)
    · exact List.suffix_refl _
    · exact List.suffix_refl _
    · have value := expression_suffix eof out 0 (token :: tail)
      have valueLe := (expression eof out 0 (token :: tail)).rest_le
      split
      · rename_i found _
        have shorter := (expression eof out 0 (token :: tail)).rest_lt (by simp [found])
        exact (argumentLoop_suffix ..).trans value
      · -- a malformed argument: its token is skipped after what the attempt read
        exact (argumentLoop_suffix ..).trans ((List.tail_suffix _).trans value)
termination_by tokens => tokens.length * 16 + 10
decreasing_by all_goals first | omega | (simp only [List.length_cons, List.length_tail] at *; omega)

theorem object_suffix (eof : Nat) (out : Output) (opening : Token) (tail : List Token) :
    (object eof out opening tail).rest <:+ opening :: tail := by
  rw [object]
  exact (objectLoop_suffix ..).trans (List.suffix_cons _ _)
termination_by (opening :: tail).length * 16 + 4
decreasing_by all_goals ((try simp only [List.length_cons]); omega)

theorem objectLoop_suffix (eof : Nat) (out : Output) (span : Span) (children : Array Nat)
    (afterClause : Bool) :
    ∀ tokens, (objectLoop eof out span children afterClause tokens).2.2.2.1 <:+ tokens
  | [] => by simp only [objectLoop, List.suffix_refl]
  | token :: tail => by
    rw [objectLoop]
    dsimp only
    split
    · exact List.suffix_cons _ _
    · exact (objectLoop_suffix ..).trans (List.suffix_cons _ _)
    · generalize (if afterClause then out.report token.span "Expected , between properties" else out) = start
      have shorter := (objectClause eof start token tail).rest_lt
      exact (objectLoop_suffix ..).trans (objectClause_suffix ..)
    · exact List.suffix_refl _
    · exact (objectLoop_suffix ..).trans (List.suffix_cons _ _)
termination_by tokens => tokens.length * 16 + 10
decreasing_by all_goals first | omega | (simp only [List.length_cons] at *; omega)

theorem objectClause_suffix (eof : Nat) (out : Output) (name : Token) (tail : List Token) :
    (objectClause eof out name tail).rest <:+ name :: tail := by
  rw [objectClause]
  dsimp only
  split
  · rename_i eaten
    exact (eat_eq_suffix eaten).trans (List.suffix_cons _ _)
  · rename_i eaten
    have colon := (eat_eq_suffix eaten).trans (List.suffix_cons name tail)
    split
    all_goals exact (expression_suffix ..).trans colon
termination_by (name :: tail).length * 16 + 4
decreasing_by all_goals ((try simp only [List.length_cons]); omega)

end

theorem variableDecl_suffix (eof : Nat) (out : Output) (keyword : Token) (tail : List Token) :
    (variableDecl eof out keyword tail).rest <:+ keyword :: tail := by
  rw [variableDecl]
  dsimp only
  have named := (declarationName_suffix out keyword tail).trans (List.suffix_cons keyword tail)
  generalize declarationName out keyword tail = declared at named ⊢
  obtain ⟨namedOut, span, children, afterName, nameLe⟩ := declared
  dsimp only at named ⊢
  split
  · rename_i eaten
    have equals := (eat_eq_suffix eaten).trans named
    split
    all_goals exact (expression_suffix ..).trans equals
  · rename_i eaten
    exact (eat_eq_suffix eaten).trans named

mutual

theorem statement_suffix (eof : Nat) (out : Output) (head : Token) (tail : List Token) :
    (statement eof out head tail).rest <:+ head :: tail := by
  rw [statement]
  split
  · exact functionDecl_suffix ..
  · exact variableDecl_suffix ..
  · exact List.suffix_cons _ _
  · dsimp only
    have read := expression_suffix eof out 0 (head :: tail)
    split
    · exact read
    · exact (List.tail_suffix _).trans read
termination_by (head :: tail).length * 16 + 14
decreasing_by all_goals omega

theorem functionDecl_suffix (eof : Nat) (out : Output) (keyword : Token) (tail : List Token) :
    (functionDecl eof out keyword tail).rest <:+ keyword :: tail := by
  rw [functionDecl]
  have named := (declarationName_suffix out keyword tail).trans (List.suffix_cons keyword tail)
  generalize declarationName out keyword tail = declared at named ⊢
  obtain ⟨namedOut, span, children, afterName, nameLe⟩ := declared
  dsimp only at named ⊢
  have listed := (functionParameters_suffix eof namedOut span children afterName).trans named
  generalize functionParameters eof namedOut span children afterName = parameters at listed ⊢
  obtain ⟨listedOut, span, children, afterList, listLe⟩ := parameters
  dsimp only at listed ⊢
  cases afterList with
  | nil => exact listed
  | cons opening more =>
    have shorter : more.length < tail.length := by simp only [List.length_cons] at listLe; omega
    dsimp only
    split
    · exact (block_suffix ..).trans listed
    · exact listed
termination_by (keyword :: tail).length * 16 + 12
decreasing_by simp only [List.length_cons]; omega

theorem block_suffix (eof : Nat) (out : Output) (opening : Token) (tail : List Token) :
    (block eof out opening tail).rest <:+ opening :: tail := by
  rw [block]
  exact (blockLoop_suffix ..).trans (List.suffix_cons _ _)
termination_by (opening :: tail).length * 16 + 12
decreasing_by all_goals ((try simp only [List.length_cons]); omega)

theorem blockLoop_suffix (eof : Nat) (out : Output) (span : Span) (statements : Array Nat) :
    ∀ tokens, (blockLoop eof out span statements tokens).2.2.2.1 <:+ tokens
  | [] => by simp only [blockLoop, List.suffix_refl]
  | token :: tail => by
    rw [blockLoop]
    split
    · exact List.suffix_cons _ _
    · dsimp only
      have stepLt := (statement eof out token tail).rest_lt
      exact (blockLoop_suffix ..).trans (statement_suffix ..)
termination_by tokens => tokens.length * 16 + 15
decreasing_by all_goals omega

end


/-- A suffix shorter than the whole list leaves out at least its first element. -/
theorem suffix_tail_of_shorter {token : Token} {tail rest : List Token} (suffix : rest <:+ token :: tail)
    (shorter : rest.length < (token :: tail).length) : rest <:+ tail := by
  rcases List.suffix_cons_iff.mp suffix with whole | inTail
  · rw [whole] at shorter
    exact absurd shorter (Nat.lt_irrefl _)
  · exact inTail

/-- A step reads the token it starts at and then a prefix of what follows. -/
theorem Step.suffix_tail {token : Token} {tail : List Token} (step : Step (token :: tail))
    (suffix : step.rest <:+ token :: tail) : step.rest <:+ tail :=
  suffix_tail_of_shorter suffix step.rest_lt

/-- An attempt that reads a node reads at least the first token. -/
theorem Attempt.suffix_tail {tokens : List Token} (attempt : Attempt tokens)
    (suffix : attempt.rest <:+ tokens) (read : attempt.node.isSome) : attempt.rest <:+ tokens.tail := by
  cases tokens with
  | nil => exact absurd (attempt.rest_lt read) (Nat.not_lt_zero _)
  | cons token tail => exact suffix_tail_of_shorter suffix (attempt.rest_lt read)

/-- Parsing reads forward and never stalls. Every reading function reads from the front of its
tokens and leaves a suffix of them. A statement, a declaration after its keyword, a block, a
parameter or argument list after its `(`, an object after its `{` and an object clause after its
name read the token they start at and then a prefix of what follows, so the parser only calls
them where a token is left; an attempt at an expression or at a primary that reads a node reads
at least one token; and the loops over statements, parameters, arguments and properties read a
prefix of their tokens too. -/
theorem parser_reads_forward (eof : Nat) (out : Output) :
    (∀ head tail, (statement eof out head tail).rest <:+ tail) ∧
    (∀ keyword tail, (functionDecl eof out keyword tail).rest <:+ tail) ∧
    (∀ keyword tail, (variableDecl eof out keyword tail).rest <:+ tail) ∧
    (∀ opening tail, (block eof out opening tail).rest <:+ tail) ∧
    (∀ opening tail, (parameterList eof out opening tail).rest <:+ tail) ∧
    (∀ opening tail, (argumentList eof out opening tail).rest <:+ tail) ∧
    (∀ opening tail, (object eof out opening tail).rest <:+ tail) ∧
    (∀ name tail, (objectClause eof out name tail).rest <:+ tail) ∧
    (∀ minPower tokens, (expression eof out minPower tokens).rest <:+ tokens ∧
      ((expression eof out minPower tokens).node.isSome → (expression eof out minPower tokens).rest <:+ tokens.tail)) ∧
    (∀ tokens, (primary eof out tokens).rest <:+ tokens ∧
      ((primary eof out tokens).node.isSome → (primary eof out tokens).rest <:+ tokens.tail)) ∧
    (∀ minPower lhs tokens, (operators eof out minPower lhs tokens).rest <:+ tokens) ∧
    (∀ span statements tokens, (blockLoop eof out span statements tokens).2.2.2.1 <:+ tokens) ∧
    (∀ span children afterParameter tokens,
      (parameterLoop eof out span children afterParameter tokens).2.2.2.1 <:+ tokens) ∧
    (∀ span children expecting seenComma tokens,
      (argumentLoop eof out span children expecting seenComma tokens).2.2.2.1 <:+ tokens) ∧
    (∀ span children afterClause tokens,
      (objectLoop eof out span children afterClause tokens).2.2.2.1 <:+ tokens) := by
  refine ⟨fun _ _ => Step.suffix_tail _ (statement_suffix ..),
    fun _ _ => Step.suffix_tail _ (functionDecl_suffix ..),
    fun _ _ => Step.suffix_tail _ (variableDecl_suffix ..),
    fun _ _ => Step.suffix_tail _ (block_suffix ..),
    fun _ _ => Step.suffix_tail _ (parameterList_suffix ..),
    fun _ _ => Step.suffix_tail _ (argumentList_suffix ..),
    fun _ _ => Step.suffix_tail _ (object_suffix ..),
    fun _ _ => Step.suffix_tail _ (objectClause_suffix ..),
    fun _ _ => ⟨expression_suffix .., Attempt.suffix_tail _ (expression_suffix ..)⟩,
    fun _ => ⟨primary_suffix .., Attempt.suffix_tail _ (primary_suffix ..)⟩,
    fun _ _ _ => operators_suffix ..,
    fun _ _ _ => blockLoop_suffix ..,
    fun _ _ _ _ => parameterLoop_suffix ..,
    fun _ _ _ _ _ => argumentLoop_suffix ..,
    fun _ _ _ _ => objectLoop_suffix ..⟩

end ScriptLowering.Syntax
