import Mathlib.Data.List.TakeWhile
import ScriptLowering.Token.Lexer

/-! # The scanner segments its text

Scanning cuts a text into tokens and what lies between them (`Segments`): each token is a
non-empty run of the text's characters whose span starts at the byte offset where they start,
and between two tokens, before the first and after the last, there are only blank characters
and comments, each comment running from `//` to just before the next line feed or the end of
the text. A token is self-delimiting: scanning its text alone gives it back at offset zero
(`scan_text`). A lexer answers peeks and takes from that one sequence of tokens
(`Lexer.run_eq_upcoming`): a take gives the next token and a peek shows it without taking it.

Main statement: `scan_segments`.
-/

namespace ScriptLowering.Token

open Text

/-- How a text whose first character is at byte `offset` splits into the tokens `tokens`: blank
characters and comments are skipped, a comment runs from `//` to just before the next line feed
or the end of the text, and every token is a non-empty run of the text starting where it says. -/
inductive Segments : Nat → List Char → List Token → Prop
  | nil (offset : Nat) : Segments offset [] []
  | blank {offset : Nat} {c : Char} {rest : List Char} {tokens : List Token} (blank : isBlank c = true)
      (segments : Segments (offset + c.utf8Size) rest tokens) : Segments offset (c :: rest) tokens
  | comment {offset : Nat} {body rest : List Char} {tokens : List Token} (oneLine : '\n' ∉ body)
      (ends : rest.head? = none ∨ rest.head? = some '\n')
      (segments : Segments (offset + byteSize ('/' :: '/' :: body)) rest tokens) :
      Segments offset ('/' :: '/' :: body ++ rest) tokens
  | token {offset : Nat} {kind : TokenKind} {lexeme rest : List Char} {tokens : List Token}
      (nonempty : lexeme ≠ []) (segments : Segments (offset + byteSize lexeme) rest tokens) :
      Segments offset (lexeme ++ rest) (⟨kind, offset, lexeme⟩ :: tokens)

namespace Segments

variable {offset : Nat} {text : List Char} {tokens : List Token}

/-- Every token of a segmentation is a non-empty run of the text, starting at the byte offset of
its first character. -/
theorem placed (segments : Segments offset text tokens) :
    ∀ token ∈ tokens, token.lexeme ≠ [] ∧ ∃ before after,
      text = before ++ token.lexeme ++ after ∧ token.start = offset + byteSize before := by
  induction segments with
  | nil => exact fun _ member => absurd member List.not_mem_nil
  | @blank offset c rest tokens _ _ ih =>
    intro token member
    obtain ⟨nonempty, before, after, split, start⟩ := ih token member
    refine ⟨nonempty, c :: before, after, by simp [split], ?_⟩
    simp only [start, byteSize_cons]
    omega
  | @comment offset body rest tokens _ _ _ ih =>
    intro token member
    obtain ⟨nonempty, before, after, split, start⟩ := ih token member
    refine ⟨nonempty, '/' :: '/' :: body ++ before, after, by simp [split], ?_⟩
    simp only [start, byteSize_append]
    omega
  | @token offset kind lexeme rest tokens nonempty _ ih =>
    intro token member
    rcases List.mem_cons.mp member with rfl | later
    · exact ⟨nonempty, [], rest, by simp, by simp⟩
    · obtain ⟨nonempty, before, after, split, start⟩ := ih token later
      refine ⟨nonempty, lexeme ++ before, after, by simp [split], ?_⟩
      simp only [start, byteSize_append]
      omega

/-- Tokens of a segmentation end no later than the next one starts. -/
theorem pairwise (segments : Segments offset text tokens) :
    tokens.Pairwise fun earlier later => earlier.stop ≤ later.start := by
  induction segments with
  | nil => exact .nil
  | blank _ _ ih => exact ih
  | comment _ _ _ ih => exact ih
  | @token offset kind lexeme rest tokens _ segments ih =>
    refine List.Pairwise.cons (fun later member => ?_) ih
    obtain ⟨_, before, _, _, start⟩ := segments.placed later member
    simp only [Token.stop, start]
    omega

end Segments

/-! ## Reading one token -/

/-- A token read at a character starts with it. -/
theorem lexemeAt_cons (c : Char) (rest : List Char) : ∃ tail, (lexemeAt c rest).2 = c :: tail := by
  unfold lexemeAt
  split
  · exact ⟨_, rfl⟩
  · split
    · exact ⟨_, rfl⟩
    · split <;> exact ⟨_, rfl⟩

theorem readAt_val (offset : Nat) (c : Char) (rest : List Char) :
    (readAt offset c rest).val =
      (⟨(lexemeAt c rest).1, offset, (lexemeAt c rest).2⟩, (c :: rest).drop (lexemeAt c rest).2.length) :=
  rfl

theorem stringBody_cons {c : Char} {rest : List Char} (notLineFeed : c ≠ '\n') (notQuote : c ≠ '"')
    (notEscape : c = '\\' → rest.head? ≠ some '"') :
    stringBody (c :: rest) = (c :: (stringBody rest).1, (stringBody rest).2.1, (stringBody rest).2.2) := by
  rw [stringBody.eq_5 c rest notLineFeed (fun more escape split => notEscape escape (by simp [split]))
    notQuote]

/-- The body of a string literal, read again, ends the same way and leaves nothing. -/
theorem stringBody_body (text : List Char) :
    stringBody (stringBody text).1 = ((stringBody text).1, (stringBody text).2.1, []) := by
  fun_induction stringBody text with
  | case1 => rfl
  | case2 => rfl
  | case3 rest body closed after split ih =>
    rw [split] at ih
    simp only [stringBody, ih]
  | case4 => rfl
  | case5 c rest notLineFeed notEscape notQuote body closed after split ih =>
    rw [split] at ih
    -- A backslash is an escape only before a quote, and the body starts as the text does.
    have startsAlike : c = '\\' → body.head? ≠ some '"' := by
      intro escape quoted
      obtain ⟨more, rfl⟩ : ∃ more, body = '"' :: more := by
        cases body with
        | nil => cases quoted
        | cons x more => exact ⟨more, by simpa using quoted⟩
      have whole := stringBody_split rest
      rw [split] at whole
      exact notEscape _ escape whole.symm
    simp only
    rw [stringBody_cons notLineFeed notQuote startsAlike, ih]

theorem fraction_fraction (text : List Char) : fraction (fraction text) = fraction text := by
  fun_cases fraction text with
  | case1 d rest digit => simp [fraction, digit, List.takeWhile_idem]
  | case2 => rfl
  | case3 => rfl

/-- A fractional part starts with its point, so no digit run reaches into it. -/
theorem fraction_digits (text : List Char) :
    (fraction text).takeWhile Char.isDigit = [] ∧ (fraction text).dropWhile Char.isDigit = fraction text := by
  fun_cases fraction text with
  | case1 d rest digit => exact ⟨by simp, by simp⟩
  | case2 => exact ⟨rfl, rfl⟩
  | case3 => exact ⟨rfl, rfl⟩

/-- Reading the rest of a token's characters from its first one gives the same token. -/
theorem lexemeAt_tail (c : Char) (rest : List Char) :
    lexemeAt c (lexemeAt c rest).2.tail = lexemeAt c rest := by
  unfold lexemeAt
  split
  · simp only [List.tail_cons, stringBody_body]
  · split
    · have digits : ∀ x ∈ rest.takeWhile Char.isDigit, x.isDigit = true := fun _ member =>
        List.mem_takeWhile_imp member
      obtain ⟨noDigits, allKept⟩ := fraction_digits (rest.dropWhile Char.isDigit)
      simp only [List.cons_append, List.tail_cons, List.takeWhile_append_of_pos digits, List.dropWhile_append_of_pos digits,
        noDigits, allKept, fraction_fraction, List.append_nil]
    · split
      · simp [List.takeWhile_idem]
      · rfl

/-- A character that is blank and does not start a comment starts a token, read as one. -/
theorem scanFrom_token {offset : Nat} {c : Char} {rest : List Char} (notBlank : isBlank c = false)
    (notComment : ¬(c = '/' ∧ rest.head? = some '/')) :
    scanFrom offset (c :: rest) =
      ⟨(lexemeAt c rest).1, offset, (lexemeAt c rest).2⟩ ::
        scanFrom (offset + byteSize (lexemeAt c rest).2) ((c :: rest).drop (lexemeAt c rest).2.length) := by
  rw [scanFrom.eq_2]
  simp only [notBlank, Bool.false_eq_true, if_false]
  rw [if_neg (by simpa using notComment)]
  rfl

/-! ## Segmentation -/

/-- The tokens the scanner reads segment the text. -/
theorem scanFrom_segments (offset : Nat) (text : List Char) : Segments offset text (scanFrom offset text) := by
  fun_induction scanFrom offset text with
  | case1 offset => exact .nil offset
  | case2 offset c rest blank ih => exact .blank blank ih
  | case3 offset c rest _ startsComment comment ih =>
    obtain ⟨rfl, more, rfl⟩ : c = '/' ∧ ∃ more, rest = '/' :: more := by
      simp only [Bool.and_eq_true, beq_iff_eq] at startsComment
      obtain ⟨rfl, second⟩ := startsComment
      cases rest with
      | nil => cases second
      | cons d more => exact ⟨rfl, more, by simpa using second⟩
    -- The comment runs to the first line feed after the slashes.
    have oneLine : '\n' ∉ more.takeWhile (· != '\n') := fun member => by
      simpa using List.mem_takeWhile_imp member
    have ends : (more.dropWhile (· != '\n')).head? = none ∨ (more.dropWhile (· != '\n')).head? = some '\n' := by
      cases after : more.dropWhile (· != '\n') with
      | nil => exact .inl rfl
      | cons x others =>
        have stops := List.head_dropWhile_not (· != '\n') (l := more) (by simp [after])
        simp only [after, List.head_cons, bne_eq_false_iff_eq] at stops
        exact .inr (by simp [stops])
    have commentIs : comment = '/' :: '/' :: more.takeWhile (· != '\n') := by
      simp [comment]
    have dropped : ('/' :: '/' :: more).dropWhile (· != '\n') = more.dropWhile (· != '\n') := by
      simp
    rw [commentIs, dropped] at ih
    rw [dropped, commentIs]
    have segments := Segments.comment oneLine ends ih
    simpa only [List.cons_append, List.takeWhile_append_dropWhile] using segments
  | case4 offset c rest notBlank notComment token after _ read ih =>
    have readVal := congrArg Subtype.val read
    rw [readAt_val] at readVal
    obtain ⟨rfl, rfl⟩ := Prod.mk.inj readVal.symm
    obtain ⟨tail, startsWith⟩ := lexemeAt_cons c rest
    obtain ⟨after, split⟩ := lexemeAt_prefix c rest
    have segments := @Segments.token _ (lexemeAt c rest).1 _ _ _ (by simp [startsWith]) ih
    rw [split, List.drop_left] at segments ⊢
    exact segments

/-- Every token the scanner reads is what reading gives at a character that is not blank. -/
theorem mem_scanFrom {offset : Nat} {text : List Char} {token : Token} (member : token ∈ scanFrom offset text) :
    ∃ c rest, isBlank c = false ∧ ¬(c = '/' ∧ rest.head? = some '/') ∧
      token = ⟨(lexemeAt c rest).1, token.start, (lexemeAt c rest).2⟩ := by
  fun_induction scanFrom offset text with
  | case1 => exact absurd member List.not_mem_nil
  | case2 _ _ _ _ ih => exact ih member
  | case3 _ _ _ _ _ _ ih => exact ih member
  | case4 offset c rest notBlank notComment read after _ isRead ih =>
    rcases List.mem_cons.mp member with rfl | later
    · have readVal := congrArg Subtype.val isRead
      rw [readAt_val] at readVal
      obtain ⟨rfl, -⟩ := Prod.mk.inj readVal.symm
      exact ⟨c, rest, by simpa using notBlank, by simpa using notComment, rfl⟩
    · exact ih later

/-- A token is self-delimiting: its characters alone scan to the token itself, at offset zero. -/
theorem scanFrom_lexemeAt {c : Char} {rest : List Char} (notBlank : isBlank c = false)
    (notComment : ¬(c = '/' ∧ rest.head? = some '/')) :
    scanFrom 0 (lexemeAt c rest).2 = [⟨(lexemeAt c rest).1, 0, (lexemeAt c rest).2⟩] := by
  obtain ⟨tail, startsWith⟩ := lexemeAt_cons c rest
  -- A slash that is no comment is a token of its own.
  have notCommentAlone : ¬(c = '/' ∧ tail.head? = some '/') := by
    rintro ⟨rfl, second⟩
    have alone : (lexemeAt '/' rest).2 = ['/'] := by simp [lexemeAt, isWordStart]
    rw [alone] at startsWith
    cases (List.cons.inj startsWith).2
    cases second
  have same : lexemeAt c tail = lexemeAt c rest := by
    have := lexemeAt_tail c rest
    rwa [startsWith, List.tail_cons] at this
  rw [startsWith, scanFrom_token notBlank notCommentAlone, same, startsWith]
  simp [scanFrom]

/-! ## A lexer answers from the scanned tokens -/

/-- Reading one token after blanks and comments gives the first token the scanner reads, and
leaves what the scanner reads after it. -/
theorem lexToken_scanFrom (offset : Nat) (text : List Char) :
    (lexToken offset text).1 = (scanFrom offset text).head? ∧
      scanFrom (lexToken offset text).2.1 (lexToken offset text).2.2 = (scanFrom offset text).tail := by
  fun_induction lexToken offset text with
  | case1 offset => simp [scanFrom.eq_1]
  | case2 offset c rest blank ih =>
    rw [scanFrom.eq_2, if_pos blank]
    exact ih
  | case3 offset c rest notBlank startsComment comment ih =>
    rw [scanFrom.eq_2, if_neg notBlank, if_pos startsComment]
    exact ih
  | case4 offset c rest notBlank notComment token after _ read =>
    rw [scanFrom.eq_2, if_neg notBlank, if_neg notComment, read]
    exact ⟨rfl, rfl⟩

namespace Lexer

/-- The tokens a lexer has still to give: the peeked ones, then those the scanner reads from the
rest of the text. -/
def upcoming (lexer : Lexer) : List Token := lexer.peeked ++ scanFrom lexer.offset lexer.text

theorem start_upcoming (source : String) : (start source).upcoming = scan source := rfl

/-- A peek shows the next token and keeps it; a take gives it and drops it. -/
theorem answer_upcoming (lexer : Lexer) (call : Call) :
    (lexer.answer call).1 = lexer.upcoming.head? ∧
      (lexer.answer call).2.upcoming = if call = .next then lexer.upcoming.tail else lexer.upcoming := by
  obtain ⟨read, after⟩ := lexToken_scanFrom lexer.offset lexer.text
  cases call with
  | peek =>
    simp only [answer, peek, reduceCtorEq, if_false]
    cases waiting : lexer.peeked with
    | cons token rest => simp [upcoming, waiting]
    | nil =>
      simp only [lex]
      cases found : (lexToken lexer.offset lexer.text).1 with
      | none =>
        -- Nothing is left to read, so nothing is left to give.
        rw [found, eq_comm, List.head?_eq_none_iff] at read
        simp [upcoming, waiting, after, read]
      | some token =>
        rw [found, eq_comm, List.head?_eq_some_iff] at read
        obtain ⟨later, scanned⟩ := read
        simp [upcoming, waiting, after, scanned]
  | next =>
    simp only [answer, next, if_true]
    cases waiting : lexer.peeked with
    | cons token rest => simp [upcoming, waiting]
    | nil => simp [lex, upcoming, waiting, read, after]

/-- Each answer of a series of requests is the token the takes before it have reached: takes get
the tokens in order, peeks do not move them, and a peek shows what the next take gives. -/
theorem run_eq_upcoming (lexer : Lexer) (calls : List Call) :
    lexer.run calls = (List.range calls.length).map fun index =>
      lexer.upcoming[(calls.take index).count .next]? := by
  induction calls generalizing lexer with
  | nil => rfl
  | cons call calls ih =>
    obtain ⟨answered, moved⟩ := lexer.answer_upcoming call
    have step : lexer.run (call :: calls) = (lexer.answer call).1 :: (lexer.answer call).2.run calls := rfl
    rw [step, ih, List.length_cons, List.range_succ_eq_map, List.map_cons, List.map_map]
    refine congrArg₂ List.cons (by rw [answered]; cases lexer.upcoming <;> rfl) (List.map_congr_left fun index _ => ?_)
    simp only [Function.comp_apply, List.take_succ_cons, List.count_cons, moved]
    cases call <;> simp

end Lexer

/-! ## The scanner is a faithful segmentation -/

/-- The byte offset where the second part of a text starts falls between two characters. -/
theorem isBoundary_byteSize (front back : List Char) : isBoundary (front ++ back) (byteSize front) = true := by
  induction front with
  | nil => cases back <;> rfl
  | cons c rest ih =>
    have size := c.utf8Size_pos
    obtain ⟨less, sum⟩ : ∃ less, c.utf8Size + byteSize rest = less + 1 := ⟨_, (Nat.succ_pred_eq_of_pos (by omega)).symm⟩
    rw [List.cons_append, byteSize_cons, sum, isBoundary, show less + 1 - c.utf8Size = byteSize rest by omega, ih]
    simp only [Bool.and_true, decide_eq_true_eq]
    omega

/-- Scanning a token's text alone gives the token back, at offset zero. -/
theorem scan_text {source : String} {token : Token} (member : token ∈ scan source) :
    scan token.text = [⟨token.kind, 0, token.lexeme⟩] := by
  obtain ⟨c, rest, notBlank, notComment, read⟩ := mem_scanFrom member
  rw [scan, Token.text, String.toList_ofList, read]
  exact scanFrom_lexemeAt notBlank notComment

/-- The scanner cuts a text faithfully into tokens. They segment the text: what lies between them
is blank characters and comments, each running from `//` to a line feed or the end. Each covers a
non-empty run of the text from one character boundary to another, exactly its characters, and ends
before the next one starts. Each is self-delimiting. And a lexer answers any series of peeks and
takes from these tokens: a take gets the next one, a peek shows the one the next take gets. -/
theorem scan_segments (source : String) :
    Segments 0 source.toList (scan source) ∧
      (∀ token ∈ scan source, token.start < token.stop ∧ token.stop ≤ byteSize source.toList ∧
        isBoundary source.toList token.start = true ∧ isBoundary source.toList token.stop = true ∧
        slice source.toList token.start token.stop = token.lexeme) ∧
      (scan source).Pairwise (fun earlier later => earlier.stop ≤ later.start) ∧
      (∀ token ∈ scan source, scan token.text = [⟨token.kind, 0, token.lexeme⟩]) ∧
      ∀ calls : List Lexer.Call, (Lexer.start source).run calls =
        (List.range calls.length).map fun index => (scan source)[(calls.take index).count .next]? := by
  have segments := scanFrom_segments 0 source.toList
  refine ⟨segments, fun token member => ?_, segments.pairwise, fun _ member => scan_text member,
    (Lexer.start source).run_eq_upcoming⟩
  obtain ⟨nonempty, before, after, split, start⟩ := segments.placed token member
  rw [Nat.zero_add] at start
  have positive : 0 < byteSize token.lexeme := by
    obtain ⟨c, tail, starts⟩ := List.exists_cons_of_ne_nil nonempty
    have := c.utf8Size_pos
    simp only [starts, byteSize_cons]
    omega
  have stop : token.stop = byteSize (before ++ token.lexeme) := by
    simp only [Token.stop, start, byteSize_append]
  refine ⟨by simp only [Token.stop]; omega, ?_, ?_, ?_, ?_⟩
  · rw [stop, split]
    simp only [byteSize_append]
    omega
  · rw [start, split, List.append_assoc]
    exact isBoundary_byteSize _ _
  · rw [stop, split]
    exact isBoundary_byteSize _ _
  · rw [split, start, Token.stop, start]
    exact slice_append before token.lexeme after

end ScriptLowering.Token
