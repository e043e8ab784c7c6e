import ScriptLowering.Proofs.ExpressionParsing

/-! # What a failed expression reads

An expression that fails to parse does not always leave the tokens as they were. A parenthesis
that opens an expression is taken before the parser finds that no expression follows it: it is
reported, and a closing parenthesis right after the failed inside is taken too. So a failed
expression reads some opening parentheses, each reported at its own span, then at most as many
closing ones, which are not reported, and adds no node (`expression_none_reads`). It reads
nothing only when the first token opens no parenthesis.

A statement that finds no expression skips one more token after those, reporting it at the span
of the first token it was given (`statement_none_skips`): after `(` the `;` of `(;` is skipped
with no report of its own (`statement_skips_after_paren`).
-/

namespace ScriptLowering.Syntax

/-- Reading a token of a kind reads at most one token, of that kind. -/
theorem eat_reads (kind : TokenKind) (tokens : List Token) :
    ∃ eaten, eaten.length ≤ 1 ∧ (∀ token ∈ eaten, token.kind = kind) ∧ tokens = eaten ++ (eat kind tokens).2.1 := by
  cases tokens with
  | nil => exact ⟨[], Nat.zero_le _, fun _ member => absurd member List.not_mem_nil, rfl⟩
  | cons token tail =>
    by_cases isKind : token.kind = kind
    · refine ⟨[token], Nat.le_refl _, fun _ member => (List.mem_singleton.mp member) ▸ isKind, ?_⟩
      simp [eat, isKind]
    · refine ⟨[], Nat.zero_le _, fun _ member => absurd member List.not_mem_nil, ?_⟩
      simp [eat, isKind]

/-- The report at an opening parenthesis that no expression follows. -/
def missingInside (opening : Token) : Diagnostic :=
  { message := "Expected expression after (", span := opening.span }

/-- The report at the first token of a statement where no expression could be read. -/
def notStatement (head : Token) : Diagnostic :=
  { message := s!"Expected statement but found {head.describe}", span := head.span }

/-- What a failed attempt from `out` over `tokens` read and wrote: the opening parentheses `opens`
and after them the closing ones `closes`, no more than the opening ones, then what it left; no
node; and one report at each opening parenthesis, the innermost first. -/
structure Attempt.ReadsParens {tokens : List Token} (attempt : Attempt tokens) (out : Output)
    (opens closes : List Token) : Prop where
  split : tokens = opens ++ closes ++ attempt.rest
  opening : ∀ token ∈ opens, token.kind = .openParen
  closing : ∀ token ∈ closes, token.kind = .closeParen
  balanced : closes.length ≤ opens.length
  nodes : attempt.out.nodes = out.nodes
  reports : attempt.out.reports.toList = out.reports.toList ++ opens.reverse.map missingInside

/-- A failed primary reads opening parentheses and closing ones, and reports each opening one.
By induction on the tokens: inside a parenthesis the failed expression is a failed primary over
the tokens after it. -/
theorem primary_none_reads (eof : Nat) (tokens : List Token) :
    ∀ out : Output, (primary eof out tokens).node = none →
      ∃ opens closes, (primary eof out tokens).ReadsParens out opens closes := by
  induction tokens with
  | nil =>
    intro out _
    rw [primary]
    exact ⟨[], [], rfl, fun _ member => absurd member List.not_mem_nil,
      fun _ member => absurd member List.not_mem_nil, Nat.le_refl _, rfl, by simp⟩
  | cons token tail ih =>
    intro out
    rw [primary]
    split
    · intro found; cases found
    · intro found; cases found
    · intro found; cases found
    · intro found; cases found
    · intro found; cases found
    · intro found; cases found
    · -- A parenthesis: the expression inside failed, so it is a failed primary over the tail.
      dsimp only
      split
      · rename_i inside _
        intro _
        have same := expression_eq_primary_of_none inside
        have restIs : (expression eof out 0 tail).rest = (primary eof out tail).rest := by rw [same]
        have outIs : (expression eof out 0 tail).out = (primary eof out tail).out := by rw [same]
        rw [same] at inside
        obtain ⟨opens, closes, read⟩ := ih out inside
        obtain ⟨eaten, atMostOne, closeParens, eatenSplit⟩ := eat_reads .closeParen (primary eof out tail).rest
        refine ⟨token :: opens, closes ++ eaten, ⟨?_, ?_, ?_, ?_, ?_, ?_⟩⟩
        · dsimp only
          rw [restIs]
          calc token :: tail = token :: (opens ++ closes ++ (primary eof out tail).rest) := by rw [← read.split]
            _ = token :: opens ++ (closes ++ eaten) ++ (eat .closeParen (primary eof out tail).rest).2.1 := by
              conv_lhs => rw [eatenSplit]
              simp
        · intro other member
          rcases List.mem_cons.mp member with rfl | inner
          · exact ‹other.kind = .openParen›
          · exact read.opening other inner
        · intro other member
          rcases List.mem_append.mp member with inner | eatenOne
          · exact read.closing other inner
          · exact closeParens other eatenOne
        · have := read.balanced
          simp only [List.length_append, List.length_cons]
          omega
        · dsimp only
          rw [outIs]
          exact read.nodes
        · dsimp only
          rw [outIs]
          simp [Output.report, Diagnostics.report, read.reports, missingInside]
      · split <;> (intro found; cases found)
    · intro found; cases found
    · intro _
      exact ⟨[], [], rfl, fun _ member => absurd member List.not_mem_nil,
        fun _ member => absurd member List.not_mem_nil, Nat.le_refl _, rfl, by simp⟩

/-- A failed expression reads opening parentheses, each reported at its own span, and then at
most as many closing parentheses, and adds no node; it reads nothing unless it starts at an
opening parenthesis. -/
theorem expression_none_reads {eof : Nat} {out : Output} {minPower : Nat} {tokens : List Token}
    (failed : (expression eof out minPower tokens).node = none) :
    ∃ opens closes, (expression eof out minPower tokens).ReadsParens out opens closes := by
  have same := expression_eq_primary_of_none failed
  rw [same] at failed ⊢
  exact primary_none_reads eof tokens out failed

theorem expression_none_reads_nestedParens :
    (expression 4 {} 0 (Token.scan "(();")).node = none ∧
      ∃ opens closes, (expression 4 {} 0 (Token.scan "(();")).ReadsParens {} opens closes :=
  have failed : (expression 4 {} 0 (Token.scan "(();")).node = none := by decide +kernel
  ⟨failed, expression_none_reads failed⟩

/-- Skipping a token as a bad character, after a report at it, adds the report and a leaf over the
token. -/
theorem Output.skip_bad (out : Output) (token : Token) (message : String) :
    ((out.report token.span message).leaf .badCharacter token).1.nodes =
        out.nodes.push ⟨.badCharacter, token.span, []⟩ ∧
      ((out.report token.span message).leaf .badCharacter token).1.reports.toList =
        out.reports.toList ++ [{ message, span := token.span }] :=
  ⟨rfl, by simp [Output.report, Diagnostics.report]⟩

/-- A statement that starts no declaration and no empty statement, and at whose first token no
expression can be read, skips what the failed expression read, opening parentheses and at most as
many closing ones, and then one token more unless none is left. It adds a bad character over its
first token, and reports once at each opening parenthesis, the innermost first, and then once at
its first token: the closing parentheses and the token after them get no report of their own. -/
theorem statement_none_skips {eof : Nat} {out : Output} {head : Token} {tail : List Token}
    (notDeclaration : head.kind ≠ .keyword .function ∧ head.kind ≠ .keyword .var ∧ head.kind ≠ .semicolon)
    (failed : (expression eof out 0 (head :: tail)).node = none) :
    ∃ opens closes skipped, (∀ token ∈ opens, token.kind = .openParen) ∧
      (∀ token ∈ closes, token.kind = .closeParen) ∧ closes.length ≤ opens.length ∧ skipped.length ≤ 1 ∧
      head :: tail = opens ++ closes ++ skipped ++ (statement eof out head tail).rest ∧
      (skipped = [] → (statement eof out head tail).rest = []) ∧
      (statement eof out head tail).out.nodes = out.nodes.push ⟨.badCharacter, head.span, []⟩ ∧
      (statement eof out head tail).out.reports.toList =
        out.reports.toList ++ opens.reverse.map missingInside ++ [notStatement head] := by
  obtain ⟨opens, closes, read⟩ := expression_none_reads failed
  rw [statement]
  -- the first token opens no declaration and no empty statement, so an expression is tried
  split
  · exact absurd ‹_› notDeclaration.1
  · exact absurd ‹_› notDeclaration.2.1
  · exact absurd ‹_› notDeclaration.2.2
  · dsimp only
    split
    · rename_i node _ found _
      rw [failed] at found
      cases found
    · refine ⟨opens, closes, (expression eof out 0 (head :: tail)).rest.take 1, read.opening, read.closing,
        read.balanced, List.length_take_le _ _, ?_, fun empty => ?_, ?_, ?_⟩
      · -- the statement skips the first token the failed expression left
        show head :: tail = opens ++ closes ++ (expression eof out 0 (head :: tail)).rest.take 1 ++
          (expression eof out 0 (head :: tail)).rest.tail
        conv_lhs => rw [read.split]
        rw [List.append_assoc (opens ++ closes), ← List.drop_one, List.take_append_drop]
      · -- no token is skipped after the parentheses only at the end of the tokens
        show (expression eof out 0 (head :: tail)).rest.tail = []
        rcases List.take_eq_nil_iff.mp empty with none | ended
        · cases none
        · rw [ended]
          rfl
      · exact (Output.skip_bad _ head _).1.trans (by rw [read.nodes])
      · exact (Output.skip_bad _ head _).2.trans (by rw [read.reports]; rfl)

/-- The documented rule that a failed expression reads nothing fails at `(;`: the statement skips
the `(` that the failed expression read and then the `;`, so both reports stand at the `(` and no
node and no report is left at the `;`. -/
theorem statement_skips_after_paren :
    (SyntaxArena.parse "(;").2.toList.map (·.span) = [.range 0 1, .range 0 1] ∧
      (SyntaxArena.parse "(;").1.nodes.toList.map (·.kind) = [.badCharacter, .file] := by
  decide +kernel

end ScriptLowering.Syntax
