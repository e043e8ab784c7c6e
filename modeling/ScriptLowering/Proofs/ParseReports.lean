import ScriptLowering.Proofs.ParsedLayout

/-! # Where the parser reports

Every diagnostic the parser records points at something of the text it read: a token, a node it
has written, or the empty end of the text, where a list or block that is never closed is
reported (`Output.Reported`). The reading functions keep this of their output, and the node a
reading function returns is one of its output, so that a report at the span of a node just read,
as `Expected ) after expression` and `Expected , between arguments` are, points at that node.
Both are proved together along the parser's recursion, as its other invariants are.

Main statement: `parse_reported`. Every diagnostic of a parsed text points at one of its tokens,
at a node of its syntax arena, or at its end.
-/

namespace ScriptLowering.Syntax

open Output

/-- The span points at what the parser read: a token of `all`, a node of the output, or the end
`eof` of the text. -/
def Output.PointsAt (all : List Token) (eof : Nat) (out : Output) (span : Span) : Prop :=
  (∃ token ∈ all, span = token.span) ∨ (∃ node ∈ out.nodes.toList, span = node.span) ∨ span = .point eof

/-- Every diagnostic of the output points at what the parser read. -/
def Output.Reported (all : List Token) (eof : Nat) (out : Output) : Prop :=
  ∀ diagnostic ∈ out.reports.toList, out.PointsAt all eof diagnostic.span

section Pointing

variable {all : List Token} {eof : Nat} {out before after : Output} {span : Span}

theorem pointsAt_token {token : Token} (member : token ∈ all) : out.PointsAt all eof token.span :=
  .inl ⟨token, member, rfl⟩

theorem pointsAt_end : out.PointsAt all eof (.point eof) := .inr (.inr rfl)

/-- The span of a node of the output points at that node. -/
theorem pointsAt_node {index : Nat} (present : index < out.nodes.size) : out.PointsAt all eof (out.spanOf index) :=
  .inr (.inl ⟨out.nodes[index], Array.getElem_mem_toList present, by
    simp [Output.spanOf, Array.getElem?_eq_getElem present]⟩)

theorem Output.PointsAt.grow (points : before.PointsAt all eof span) (grows : Grows before after) :
    after.PointsAt all eof span := by
  rcases points with atToken | ⟨node, member, atNode⟩ | atEnd
  · exact .inl atToken
  · exact .inr (.inl ⟨node, grows.nodes.subset member, atNode⟩)
  · exact .inr (.inr atEnd)

theorem reported_empty : ({} : Output).Reported all eof := by
  intro _ member
  simp at member

theorem Output.Reported.push (reported : out.Reported all eof) (kind : SyntaxKind) (span : Span) (children : List Nat) :
    (out.push kind span children).1.Reported all eof :=
  fun diagnostic member => (reported diagnostic member).grow (grows_push out kind span children)

theorem Output.Reported.leaf (reported : out.Reported all eof) (kind : SyntaxKind) (token : Token) :
    (out.leaf kind token).1.Reported all eof :=
  reported.push kind token.span []

theorem Output.Reported.report (reported : out.Reported all eof) (points : out.PointsAt all eof span) (message : String) :
    (out.report span message).Reported all eof := by
  intro diagnostic member
  simp only [Output.report, Diagnostics.report, Array.toList_push, List.mem_append, List.mem_singleton] at member
  rcases member with old | rfl
  · exact reported diagnostic old
  · exact points

theorem Output.Reported.reportIf (reported : out.Reported all eof) (flag : Bool) (points : out.PointsAt all eof span)
    (message : String) : (if flag then out.report span message else out).Reported all eof := by
  cases flag
  · exact reported
  · exact reported.report points message

theorem lt_size_push (out : Output) (kind : SyntaxKind) (span : Span) (children : List Nat) :
    (out.push kind span children).2 < (out.push kind span children).1.nodes.size := by
  simp [Output.push]

theorem lt_size_leaf (out : Output) (kind : SyntaxKind) (token : Token) :
    (out.leaf kind token).2 < (out.leaf kind token).1.nodes.size :=
  lt_size_push out kind token.span []

end Pointing

section Results

variable (all : List Token) (eof : Nat) {tokens : List Token}

/-- An attempt whose diagnostics point at what was read, and whose node, if it read one, is a node
of its output. -/
def Attempt.Reports (attempt : Attempt tokens) : Prop :=
  attempt.out.Reported all eof ∧ ∀ node, attempt.node = some node → node < attempt.out.nodes.size

/-- A step whose diagnostics point at what was read, and whose node is a node of its output. -/
def Step.Reports (step : Step tokens) : Prop :=
  step.out.Reported all eof ∧ step.node < step.out.nodes.size

/-- A growth whose diagnostics point at what was read, and whose node is a node of its output. -/
def Grown.Reports (grown : Grown tokens) : Prop :=
  grown.out.Reported all eof ∧ grown.node < grown.out.nodes.size

end Results

section Attempts

variable {all : List Token} {eof : Nat} {tokens rest : List Token} {out : Output}

theorem reports_some {node : Nat} {restLe : rest.length ≤ tokens.length}
    {restLt : (some node).isSome → rest.length < tokens.length} (reported : out.Reported all eof)
    (present : node < out.nodes.size) : (⟨some node, out, rest, restLe, restLt⟩ : Attempt tokens).Reports all eof :=
  ⟨reported, fun _ read => by cases read; exact present⟩

theorem reports_none {restLe : rest.length ≤ tokens.length}
    {restLt : (none : Option Nat).isSome → rest.length < tokens.length} (reported : out.Reported all eof) :
    (⟨none, out, rest, restLe, restLt⟩ : Attempt tokens).Reports all eof :=
  ⟨reported, fun _ nothing => by cases nothing⟩

end Attempts

section Expressions

variable {all : List Token} {eof : Nat}

mutual

/-- Reading an expression keeps every diagnostic pointing at what was read, and returns a node of
its output. Proved together with the functions it calls, along the parser's recursion. -/
theorem expression_reports (out : Output) (minPower : Nat) (tokens : List Token)
    (reported : out.Reported all eof) (reading : tokens <:+ all) :
    (expression eof out minPower tokens).Reports all eof := by
  obtain ⟨firstReported, firstNode⟩ := primary_reports out reported tokens reading
  have firstLe := (primary eof out tokens).rest_le
  have firstReading := (primary_suffix eof out tokens).trans reading
  rw [expression]
  dsimp only
  split
  · exact ⟨firstReported, fun _ nothing => by cases nothing⟩
  · rename_i lhs _ found _
    obtain ⟨laterReported, laterNode⟩ :=
      operators_reports _ minPower lhs firstReported (firstNode lhs found) _ firstReading
    exact ⟨laterReported, fun _ read => by cases read; exact laterNode⟩
termination_by tokens.length * 16 + 8
decreasing_by all_goals omega

theorem operators_reports (out : Output) (minPower lhs : Nat) (reported : out.Reported all eof)
    (present : lhs < out.nodes.size) :
    ∀ tokens, tokens <:+ all → (operators eof out minPower lhs tokens).Reports all eof
  | [], _ => by
    rw [operators]
    exact ⟨reported, present⟩
  | token :: tail, reading => by
    have member : token ∈ all := reading.subset List.mem_cons_self
    have tailReading := (List.suffix_cons token tail).trans reading
    rw [operators]
    dsimp only
    split
    · split
      · exact ⟨reported, present⟩
      · -- a call of the expression so far, with the argument list after it
        have shorter := (argumentList eof out token tail).rest_lt
        obtain ⟨listReported, -⟩ := argumentList_reports out token tail reported reading
        exact operators_reports _ minPower _ (listReported.push _ _ _) (lt_size_push ..) _
          ((argumentList_suffix ..).trans reading)
    · split
      · exact ⟨reported, present⟩
      · split
        · exact ⟨reported, present⟩
        · -- `=` or `.`: an operator leaf, then the right operand, reported at the operator if missing
          rename_i right _ _
          have valueLe := (expression eof (out.leaf .operator token).1 right tail).rest_le
          obtain ⟨valueReported, -⟩ := expression_reports _ right tail (reported.leaf .operator token) tailReading
          have valueReading := (expression_suffix eof (out.leaf .operator token).1 right tail).trans tailReading
          split
          · exact operators_reports _ minPower _ (valueReported.push _ _ _) (lt_size_push ..) _ valueReading
          · exact operators_reports _ minPower _ ((valueReported.report (pointsAt_token member) _).push _ _ _)
              (lt_size_push ..) _ valueReading
termination_by tokens => tokens.length * 16 + 6
decreasing_by all_goals first | omega | (simp only [List.length_cons] at *; omega)

theorem primary_reports (out : Output) (reported : out.Reported all eof) :
    ∀ tokens, tokens <:+ all → (primary eof out tokens).Reports all eof
  | [], _ => by
    rw [primary]
    exact reports_none reported
  | token :: tail, reading => by
    have member : token ∈ all := reading.subset List.mem_cons_self
    have tailReading := (List.suffix_cons token tail).trans reading
    rw [primary]
    split
    · exact reports_some ((reported.leaf _ _).push _ _ _) (lt_size_push ..)
    · exact reports_some (reported.leaf _ _) (lt_size_leaf ..)
    · exact reports_some ((reported.report (pointsAt_token member) _).leaf _ _) (lt_size_leaf ..)
    · exact reports_some (reported.leaf _ _) (lt_size_leaf ..)
    · exact reports_some (reported.leaf _ _) (lt_size_leaf ..)
    · exact reports_some (reported.leaf _ _) (lt_size_leaf ..)
    · -- an expression in parentheses: a missing `)` is reported at the inner node
      dsimp only
      obtain ⟨innerReported, innerNode⟩ := expression_reports out 0 tail reported tailReading
      split
      · exact reports_none (innerReported.report (pointsAt_token member) _)
      · rename_i node _ found _
        split
        · exact reports_some innerReported (innerNode node found)
        · exact reports_some (innerReported.report (pointsAt_node (innerNode node found)) _) (innerNode node found)
    · obtain ⟨objectReported, objectPresent⟩ := object_reports out token tail reported reading
      exact reports_some objectReported objectPresent
    · exact reports_none reported
termination_by tokens => tokens.length * 16 + 7
decreasing_by all_goals ((try simp only [List.length_cons]); omega)

theorem argumentList_reports (out : Output) (opening : Token) (tail : List Token)
    (reported : out.Reported all eof) (reading : opening :: tail <:+ all) :
    (argumentList eof out opening tail).Reports all eof := by
  rw [argumentList]
  dsimp only
  have loopReported := argumentLoop_reports out opening.span #[] true false reported tail
    ((List.suffix_cons opening tail).trans reading)
  exact ⟨loopReported.push _ _ _, lt_size_push ..⟩
termination_by (opening :: tail).length * 16 + 4
decreasing_by all_goals ((try simp only [List.length_cons]); omega)

theorem argumentLoop_reports (out : Output) (span : Span) (children : Array Nat) (expecting seenComma : Bool)
    (reported : out.Reported all eof) :
    ∀ tokens, tokens <:+ all → (argumentLoop eof out span children expecting seenComma tokens).1.Reported all eof
  | [], _ => by
    rw [argumentLoop]
    exact reported.report pointsAt_end _
  | token :: tail, reading => by
    have member : token ∈ all := reading.subset List.mem_cons_self
    have tailReading := (List.suffix_cons token tail).trans reading
    rw [argumentLoop]
    dsimp only
    split
    · exact reported
    · split
      · exact argumentLoop_reports _ _ _ true true ((reported.push _ _ _).leaf _ _) tail tailReading
      · exact argumentLoop_reports _ _ _ true true (reported.leaf _ _) tail tailReading
    · exact reported.report (pointsAt_token member) _
    · exact reported.report (pointsAt_token member) _
    · obtain ⟨valueReported, valueNode⟩ := expression_reports out 0 (token :: tail) reported reading
      have valueReading := (expression_suffix eof out 0 (token :: tail)).trans reading
      have valueLe := (expression eof out 0 (token :: tail)).rest_le
      split
      · -- a second argument without a comma is reported at its own node
        rename_i value _ found _
        have shorter := (expression eof out 0 (token :: tail)).rest_lt (by simp [found])
        cases expecting
        · exact argumentLoop_reports _ _ _ false seenComma
            ((valueReported.report (pointsAt_node (valueNode value found)) _).push _ _ _) _ valueReading
        · exact argumentLoop_reports _ _ _ false seenComma (valueReported.push _ _ _) _ valueReading
      · -- a malformed argument: its token is reported and skipped
        have skipped := (List.tail_suffix _).trans valueReading
        cases expecting
        · exact argumentLoop_reports _ _ _ false seenComma (valueReported.report (pointsAt_token member) _) _
            skipped
        · exact argumentLoop_reports _ _ _ false seenComma
            ((valueReported.report (pointsAt_token member) _).push _ _ _) _ skipped
termination_by tokens => tokens.length * 16 + 10
decreasing_by all_goals first | omega | (simp only [List.length_cons, List.length_tail] at *; omega)

theorem object_reports (out : Output) (opening : Token) (tail : List Token)
    (reported : out.Reported all eof) (reading : opening :: tail <:+ all) :
    (object eof out opening tail).Reports all eof := by
  rw [object]
  dsimp only
  have loopReported := objectLoop_reports out opening.span #[] false reported tail
    ((List.suffix_cons opening tail).trans reading)
  exact ⟨loopReported.push _ _ _, lt_size_push ..⟩
termination_by (opening :: tail).length * 16 + 4
decreasing_by all_goals ((try simp only [List.length_cons]); omega)

theorem objectLoop_reports (out : Output) (span : Span) (children : Array Nat) (afterClause : Bool)
    (reported : out.Reported all eof) :
    ∀ tokens, tokens <:+ all → (objectLoop eof out span children afterClause tokens).1.Reported all eof
  | [], _ => by
    rw [objectLoop]
    exact reported.report pointsAt_end _
  | token :: tail, reading => by
    have member : token ∈ all := reading.subset List.mem_cons_self
    have tailReading := (List.suffix_cons token tail).trans reading
    rw [objectLoop]
    dsimp only
    split
    · exact reported
    · exact objectLoop_reports _ _ _ false (reported.leaf _ _) tail tailReading
    · -- a clause, reported at its name when no comma came before it
      have shorter : (objectClause eof (if afterClause then out.report token.span "Expected , between properties"
          else out) token tail).rest.length < tail.length + 1 := (objectClause ..).rest_lt
      obtain ⟨clauseReported, -⟩ := objectClause_reports _ token tail
        (reported.reportIf afterClause (pointsAt_token member) _) reading
      exact objectLoop_reports _ _ _ true clauseReported _ ((objectClause_suffix ..).trans reading)
    · exact reported.report (pointsAt_token member) _
    · exact objectLoop_reports _ _ _ afterClause (reported.report (pointsAt_token member) _) tail tailReading
termination_by tokens => tokens.length * 16 + 10
decreasing_by all_goals ((try simp only [List.length_cons]); omega)

theorem objectClause_reports (out : Output) (name : Token) (tail : List Token)
    (reported : out.Reported all eof) (reading : name :: tail <:+ all) :
    (objectClause eof out name tail).Reports all eof := by
  have member : name ∈ all := reading.subset List.mem_cons_self
  have tailReading := (List.suffix_cons name tail).trans reading
  rw [objectClause]
  dsimp only
  have keyed := (reported.leaf .identifier name).push .objectKey name.span [(out.leaf .identifier name).2]
  split
  · -- no `:`: reported at the name
    exact ⟨(keyed.report (pointsAt_token member) _).push _ _ _, lt_size_push ..⟩
  · rename_i afterColon _ eaten
    obtain rfl := eat_eq_cons eaten
    have colonMember := tailReading.subset List.mem_cons_self
    obtain ⟨valueReported, -⟩ := expression_reports _ 0 afterColon keyed
      ((List.suffix_cons _ afterColon).trans tailReading)
    split
    · exact ⟨(valueReported.push _ _ _).push _ _ _, lt_size_push ..⟩
    · -- no value after the `:`: reported at the colon
      exact ⟨(valueReported.report (pointsAt_token colonMember) _).push _ _ _, lt_size_push ..⟩
termination_by (name :: tail).length * 16 + 4
decreasing_by all_goals ((try simp only [List.length_cons]); omega)

end

end Expressions

section Statements

variable {all : List Token} {eof : Nat}

theorem declarationName_reports (out : Output) (keyword : Token) (tail : List Token)
    (reported : out.Reported all eof) : (declarationName out keyword tail).1.Reported all eof := by
  unfold declarationName
  split
  · exact reported.leaf _ _
  · exact reported

theorem parameterLoop_reports (out : Output) (span : Span) (children : Array Nat) (afterParameter : Bool)
    (reported : out.Reported all eof) :
    ∀ tokens, tokens <:+ all → (parameterLoop eof out span children afterParameter tokens).1.Reported all eof
  | [], _ => by
    rw [parameterLoop]
    exact reported.report pointsAt_end _
  | token :: tail, reading => by
    have member : token ∈ all := reading.subset List.mem_cons_self
    have tailReading := (List.suffix_cons token tail).trans reading
    rw [parameterLoop]
    split
    · exact reported
    · exact parameterLoop_reports _ _ _ true
        (((reported.reportIf afterParameter (pointsAt_token member) _).leaf _ _).push _ _ _) tail tailReading
    · exact parameterLoop_reports _ _ _ false (reported.leaf _ _) tail tailReading
    · exact reported.report (pointsAt_token member) _
    · exact parameterLoop_reports _ _ _ afterParameter (reported.report (pointsAt_token member) _) tail tailReading

theorem parameterList_reports (out : Output) (opening : Token) (tail : List Token)
    (reported : out.Reported all eof) (reading : opening :: tail <:+ all) :
    (parameterList eof out opening tail).Reports all eof := by
  rw [parameterList]
  dsimp only
  have loopReported := parameterLoop_reports out opening.span #[] false reported tail
    ((List.suffix_cons opening tail).trans reading)
  exact ⟨loopReported.push _ _ _, lt_size_push ..⟩

theorem functionParameters_reports (out : Output) (span : Span) (children : Array Nat)
    (reported : out.Reported all eof) :
    ∀ tokens, tokens <:+ all → (functionParameters eof out span children tokens).1.Reported all eof
  | [], _ => reported
  | opening :: more, reading => by
    rw [functionParameters]
    split
    · exact (parameterList_reports out opening more reported reading).1
    · exact reported

theorem variableDecl_reports (out : Output) (keyword : Token) (tail : List Token)
    (reported : out.Reported all eof) (reading : keyword :: tail <:+ all) :
    (variableDecl eof out keyword tail).Reports all eof := by
  rw [variableDecl]
  have namedReported := declarationName_reports out keyword tail reported
  have namedReading := (declarationName_suffix out keyword tail).trans ((List.suffix_cons keyword tail).trans reading)
  generalize declarationName out keyword tail = declared at namedReported namedReading ⊢
  obtain ⟨namedOut, span, children, afterName, nameLe⟩ := declared
  dsimp only at namedReported namedReading ⊢
  split
  · rename_i afterEquals _ eaten
    obtain rfl := eat_eq_cons eaten
    have equalsMember := namedReading.subset List.mem_cons_self
    obtain ⟨valueReported, -⟩ := expression_reports namedOut 0 afterEquals namedReported
      ((List.suffix_cons _ afterEquals).trans namedReading)
    split
    · exact ⟨valueReported.push _ _ _, lt_size_push ..⟩
    · -- no initializer after the `=`: reported at the `=`
      exact ⟨(valueReported.report (pointsAt_token equalsMember) _).push _ _ _, lt_size_push ..⟩
  · exact ⟨namedReported.push _ _ _, lt_size_push ..⟩

mutual

/-- Reading a statement keeps every diagnostic pointing at what was read, and returns a node of its
output. -/
theorem statement_reports (out : Output) (head : Token) (tail : List Token)
    (reported : out.Reported all eof) (reading : head :: tail <:+ all) :
    (statement eof out head tail).Reports all eof := by
  have member : head ∈ all := reading.subset List.mem_cons_self
  rw [statement]
  split
  · exact functionDecl_reports out head tail reported reading
  · exact variableDecl_reports out head tail reported reading
  · exact ⟨reported.leaf _ _, lt_size_leaf ..⟩
  · dsimp only
    obtain ⟨valueReported, valueNode⟩ := expression_reports out 0 (head :: tail) reported reading
    split
    · rename_i node _ found _
      exact ⟨valueReported, valueNode node found⟩
    · -- nothing could be read: reported at the first token, which is skipped
      exact ⟨(valueReported.report (pointsAt_token member) _).leaf _ _, lt_size_leaf ..⟩
termination_by (head :: tail).length * 16 + 14
decreasing_by all_goals (try simp only [List.length_cons]); omega

theorem functionDecl_reports (out : Output) (keyword : Token) (tail : List Token)
    (reported : out.Reported all eof) (reading : keyword :: tail <:+ all) :
    (functionDecl eof out keyword tail).Reports all eof := by
  rw [functionDecl]
  have namedReported := declarationName_reports out keyword tail reported
  have namedReading := (declarationName_suffix out keyword tail).trans ((List.suffix_cons keyword tail).trans reading)
  generalize declarationName out keyword tail = declared at namedReported namedReading ⊢
  obtain ⟨namedOut, span, children, afterName, nameLe⟩ := declared
  dsimp only at namedReported namedReading ⊢
  have listedReported := functionParameters_reports namedOut span children namedReported afterName namedReading
  have listedReading := (functionParameters_suffix eof namedOut span children afterName).trans namedReading
  generalize functionParameters eof namedOut span children afterName = parameters at listedReported listedReading ⊢
  obtain ⟨listedOut, span, children, afterList, listLe⟩ := parameters
  dsimp only at listedReported listedReading ⊢
  cases afterList with
  | nil => exact ⟨listedReported.push _ _ _, lt_size_push ..⟩
  | cons opening more =>
    have shorter : more.length < tail.length := by simp only [List.length_cons] at listLe; omega
    dsimp only
    split
    · obtain ⟨bodyReported, -⟩ := block_reports listedOut opening more listedReported listedReading
      exact ⟨bodyReported.push _ _ _, lt_size_push ..⟩
    · exact ⟨listedReported.push _ _ _, lt_size_push ..⟩
termination_by (keyword :: tail).length * 16 + 12
decreasing_by all_goals (try simp only [List.length_cons]); omega

theorem block_reports (out : Output) (opening : Token) (tail : List Token)
    (reported : out.Reported all eof) (reading : opening :: tail <:+ all) :
    (block eof out opening tail).Reports all eof := by
  rw [block]
  dsimp only
  have loopReported := blockLoop_reports out opening.span #[] reported tail
    ((List.suffix_cons opening tail).trans reading)
  exact ⟨loopReported.push _ _ _, lt_size_push ..⟩
termination_by (opening :: tail).length * 16 + 12
decreasing_by all_goals (try simp only [List.length_cons]); omega

theorem blockLoop_reports (out : Output) (span : Span) (statements : Array Nat) (reported : out.Reported all eof) :
    ∀ tokens, tokens <:+ all → (blockLoop eof out span statements tokens).1.Reported all eof
  | [], _ => by
    rw [blockLoop]
    exact reported.report pointsAt_end _
  | token :: tail, reading => by
    rw [blockLoop]
    split
    · exact reported
    · dsimp only
      have stepLt : (statement eof out token tail).rest.length < tail.length + 1 :=
        (statement eof out token tail).rest_lt
      obtain ⟨stepReported, -⟩ := statement_reports out token tail reported reading
      exact blockLoop_reports _ _ _ stepReported _ ((statement_suffix ..).trans reading)
termination_by tokens => tokens.length * 16 + 15
decreasing_by all_goals (try simp only [List.length_cons]); omega

end

/-- The statements of a file keep every diagnostic pointing at what was read; a stray `}` is
reported at itself. -/
theorem fileLoop_reports (out : Output) (statements : Array Nat) (reported : out.Reported all eof) :
    ∀ tokens, tokens <:+ all → (fileLoop eof out statements tokens).1.Reported all eof
  | [], _ => by
    rw [fileLoop]
    exact reported
  | token :: tail, reading => by
    have member : token ∈ all := reading.subset List.mem_cons_self
    rw [fileLoop]
    split
    · exact fileLoop_reports _ statements (reported.report (pointsAt_token member) _) tail
        ((List.suffix_cons token tail).trans reading)
    · dsimp only
      have stepLt : (statement eof out token tail).rest.length < tail.length + 1 :=
        (statement eof out token tail).rest_lt
      obtain ⟨stepReported, -⟩ := statement_reports out token tail reported reading
      exact fileLoop_reports _ _ stepReported _ ((statement_suffix ..).trans reading)
termination_by tokens => tokens.length
decreasing_by all_goals (try simp only [List.length_cons]); omega

end Statements

end ScriptLowering.Syntax

namespace ScriptLowering

open Syntax

/-- Every diagnostic of a parsed text points at one of its tokens, at a node of its syntax arena,
or at its end. -/
theorem parse_reported (text : String) :
    ∀ diagnostic ∈ (SyntaxArena.parse text).2.toList,
      (∃ token ∈ Token.scan text, diagnostic.span = token.span) ∨
        (∃ node ∈ (SyntaxArena.parse text).1.nodes.toList, diagnostic.span = node.span) ∨
        diagnostic.span = .point text.utf8ByteSize := by
  have looped := @fileLoop_reports (Token.scan text) text.utf8ByteSize {} #[] reported_empty (Token.scan text)
    (List.suffix_refl _)
  unfold SyntaxArena.parse
  dsimp only
  generalize fileLoop text.utf8ByteSize {} #[] (Token.scan text) = loop at looped ⊢
  obtain ⟨out, statements⟩ := loop
  -- The file node comes last and adds no diagnostic.
  exact looped.push .file (.range 0 text.utf8ByteSize) statements.toList

end ScriptLowering
