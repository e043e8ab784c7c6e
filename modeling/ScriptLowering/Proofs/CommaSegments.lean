import ScriptLowering.Token.Basic

/-! # Commas outside brackets

The arguments of a call are written between its brackets and separated by commas, but a comma
inside a nested bracket belongs to something else: `f(g(a, b), c)` has two arguments. This
module cuts a token list at the commas that are not nested (`segmentsFrom`), counting the depth
of `(` and `{` against `)` and `}`; the two kinds of bracket are counted alike.

Two kinds of stretch are closed under the ways the parser reads tokens. A `Balanced` stretch
closes every bracket it opens and never closes one it did not open; a `Flat` stretch is also
free of commas outside its brackets. Cutting tokens that start with a flat stretch adds the
whole stretch to the front of the first segment (`segmentsFrom_flat_append`), and inside a
bracket a balanced stretch is never cut (`segmentsFrom_balanced_append`).

A list that ends with a comma has an empty last segment; an argument list drops it, so `f()`
has no argument and `f(a,)` one (`argumentSegments`).
-/

namespace ScriptLowering

namespace TokenKind

/-- Whether a token opens a bracket, `(` or `{`. -/
def opensBracket : TokenKind → Bool
  | .openParen | .openBrace => true
  | _ => false

/-- Whether a token closes a bracket, `)` or `}`. -/
def closesBracket : TokenKind → Bool
  | .closeParen | .closeBrace => true
  | _ => false

/-- A closing bracket opens none. -/
theorem opensBracket_of_closesBracket {kind : TokenKind} (closes : kind.closesBracket = true) :
    kind.opensBracket = false := by
  cases kind <;> simp_all [closesBracket, opensBracket]

theorem ne_comma_of_opensBracket {kind : TokenKind} (opens : kind.opensBracket = true) :
    kind ≠ .comma := by
  rintro rfl
  cases opens

theorem ne_comma_of_closesBracket {kind : TokenKind} (closes : kind.closesBracket = true) :
    kind ≠ .comma := by
  rintro rfl
  cases closes

end TokenKind

namespace Syntax

/-- Adds tokens at the front of the first segment. -/
def joinFront (read : List Token) : List (List Token) → List (List Token)
  | [] => [read]
  | segment :: more => (read ++ segment) :: more

/-- The bracket depth after a token. -/
def depthAfter (depth : Nat) (token : Token) : Nat :=
  if token.kind.opensBracket then depth + 1
  else if token.kind.closesBracket then depth - 1
  else depth

/-- Cuts tokens read at a bracket depth into the segments between the commas at depth zero. -/
def segmentsFrom : Nat → List Token → List (List Token)
  | _, [] => [[]]
  | depth, token :: rest =>
    if token.kind = .comma ∧ depth = 0 then [] :: segmentsFrom 0 rest
    else joinFront [token] (segmentsFrom (depthAfter depth token) rest)

/-- Drops the last segment when it is empty. -/
def dropEmptyLast : List (List Token) → List (List Token)
  | [] => []
  | [segment] => if segment = [] then [] else [segment]
  | segment :: next :: more => segment :: dropEmptyLast (next :: more)

/-- The segments of the tokens between the brackets of an argument list, one for each argument:
a trailing comma leaves no argument after it, and neither do empty brackets. -/
def argumentSegments (inner : List Token) : List (List Token) :=
  dropEmptyLast (segmentsFrom 0 inner)

/-- A stretch of tokens that closes every bracket it opens, and no other. -/
inductive Balanced : List Token → Prop
  | nil : Balanced []
  | token {token : Token} {rest : List Token} : token.kind.opensBracket = false →
      token.kind.closesBracket = false → Balanced rest → Balanced (token :: rest)
  | bracketed {opening closing : Token} {inner rest : List Token} :
      opening.kind.opensBracket = true → Balanced inner → closing.kind.closesBracket = true →
      Balanced rest → Balanced (opening :: inner ++ closing :: rest)

/-- A balanced stretch with no comma outside its brackets. -/
inductive Flat : List Token → Prop
  | nil : Flat []
  | token {token : Token} {rest : List Token} : token.kind.opensBracket = false →
      token.kind.closesBracket = false → token.kind ≠ .comma → Flat rest → Flat (token :: rest)
  | bracketed {opening closing : Token} {inner rest : List Token} :
      opening.kind.opensBracket = true → Balanced inner → closing.kind.closesBracket = true →
      Flat rest → Flat (opening :: inner ++ closing :: rest)

theorem Balanced.append {first second : List Token} (balanced : Balanced first)
    (next : Balanced second) : Balanced (first ++ second) := by
  induction balanced with
  | nil => exact next
  | token opens closes _ restBalanced => exact .token opens closes restBalanced
  | bracketed opens inner closes _ _ restBalanced =>
    simpa only [List.cons_append, List.append_assoc] using
      Balanced.bracketed opens inner closes restBalanced

theorem Flat.append {first second : List Token} (flat : Flat first) (next : Flat second) :
    Flat (first ++ second) := by
  induction flat with
  | nil => exact next
  | token opens closes notComma _ restFlat => exact .token opens closes notComma restFlat
  | bracketed opens inner closes _ restFlat =>
    simpa only [List.cons_append, List.append_assoc] using Flat.bracketed opens inner closes restFlat

theorem Flat.balanced {tokens : List Token} (flat : Flat tokens) : Balanced tokens := by
  induction flat with
  | nil => exact .nil
  | token opens closes _ _ restBalanced => exact .token opens closes restBalanced
  | bracketed opens inner closes _ restBalanced => exact .bracketed opens inner closes restBalanced

/-- A single token that is neither a bracket nor a comma. -/
theorem flat_single {token : Token} (opens : token.kind.opensBracket = false)
    (closes : token.kind.closesBracket = false) (notComma : token.kind ≠ .comma) : Flat [token] :=
  .token opens closes notComma .nil

/-- A bracket pair around a balanced stretch. -/
theorem flat_bracketed {opening closing : Token} {inner : List Token}
    (opens : opening.kind.opensBracket = true) (balanced : Balanced inner)
    (closes : closing.kind.closesBracket = true) : Flat (opening :: inner ++ [closing]) :=
  .bracketed opens balanced closes .nil

theorem segmentsFrom_ne_nil (depth : Nat) (tokens : List Token) : segmentsFrom depth tokens ≠ [] := by
  cases tokens with
  | nil => simp [segmentsFrom]
  | cons token rest =>
    rw [segmentsFrom]
    split
    · simp
    · cases segmentsFrom (depthAfter depth token) rest <;> simp [joinFront]

theorem joinFront_nil {segments : List (List Token)} (nonempty : segments ≠ []) :
    joinFront [] segments = segments := by
  cases segments with
  | nil => contradiction
  | cons segment more => rfl

theorem joinFront_append (first second : List Token) (segments : List (List Token)) :
    joinFront (first ++ second) segments = joinFront first (joinFront second segments) := by
  cases segments <;> simp [joinFront]

@[simp] theorem segmentsFrom_comma {comma : Token} (isComma : comma.kind = .comma) (rest : List Token) :
    segmentsFrom 0 (comma :: rest) = [] :: segmentsFrom 0 rest := by
  simp [segmentsFrom, isComma]

/-- A token that is not a comma joins the first segment, at the depth it leaves. -/
theorem segmentsFrom_cons_of_ne_comma {token : Token} (notComma : token.kind ≠ .comma) (depth : Nat)
    (rest : List Token) :
    segmentsFrom depth (token :: rest) = joinFront [token] (segmentsFrom (depthAfter depth token) rest) := by
  simp [segmentsFrom, notComma]

/-- Inside a bracket, a balanced stretch is never cut. -/
theorem segmentsFrom_balanced_append {read : List Token} (balanced : Balanced read) :
    ∀ depth, 0 < depth → ∀ rest,
      segmentsFrom depth (read ++ rest) = joinFront read (segmentsFrom depth rest) := by
  induction balanced with
  | nil =>
    intro depth _ rest
    exact (joinFront_nil (segmentsFrom_ne_nil depth rest)).symm
  | @token token more opens closes _ ih =>
    intro depth inside rest
    have stays : depthAfter depth token = depth := by simp [depthAfter, opens, closes]
    -- at a positive depth even a comma joins the segment
    rw [List.cons_append, segmentsFrom, if_neg (by rintro ⟨-, top⟩; omega), stays, ih depth inside,
      ← joinFront_append, List.singleton_append]
  | @bracketed opening closing inner more opens _ closes _ innerIh moreIh =>
    intro depth inside rest
    have deeper : depthAfter depth opening = depth + 1 := by simp [depthAfter, opens]
    have back : depthAfter (depth + 1) closing = depth := by
      simp [depthAfter, closes, TokenKind.opensBracket_of_closesBracket closes]
    simp only [List.cons_append, List.append_assoc]
    rw [segmentsFrom_cons_of_ne_comma (TokenKind.ne_comma_of_opensBracket opens), deeper,
      innerIh (depth + 1) (by omega),
      segmentsFrom_cons_of_ne_comma (TokenKind.ne_comma_of_closesBracket closes), back,
      moreIh depth inside]
    simp only [← joinFront_append, List.cons_append, List.nil_append]

/-- A flat stretch joins the front of the first segment, at any depth. -/
theorem segmentsFrom_flat_append {read : List Token} (flat : Flat read) :
    ∀ depth rest, segmentsFrom depth (read ++ rest) = joinFront read (segmentsFrom depth rest) := by
  induction flat with
  | nil =>
    intro depth rest
    exact (joinFront_nil (segmentsFrom_ne_nil depth rest)).symm
  | @token token more opens closes notComma _ ih =>
    intro depth rest
    have stays : depthAfter depth token = depth := by simp [depthAfter, opens, closes]
    rw [List.cons_append, segmentsFrom_cons_of_ne_comma notComma, stays, ih,
      ← joinFront_append, List.singleton_append]
  | @bracketed opening closing inner more opens balanced closes _ moreIh =>
    intro depth rest
    have deeper : depthAfter depth opening = depth + 1 := by simp [depthAfter, opens]
    have back : depthAfter (depth + 1) closing = depth := by
      simp [depthAfter, closes, TokenKind.opensBracket_of_closesBracket closes]
    simp only [List.cons_append, List.append_assoc]
    rw [segmentsFrom_cons_of_ne_comma (TokenKind.ne_comma_of_opensBracket opens), deeper,
      segmentsFrom_balanced_append balanced (depth + 1) (by omega),
      segmentsFrom_cons_of_ne_comma (TokenKind.ne_comma_of_closesBracket closes), back, moreIh depth]
    simp only [← joinFront_append, List.cons_append, List.nil_append]

/-- A segment that is not empty stays when more segments follow or not. -/
theorem dropEmptyLast_cons {segment : List Token} (nonempty : segment ≠ [])
    (more : List (List Token)) : dropEmptyLast (segment :: more) = segment :: dropEmptyLast more := by
  cases more with
  | nil => simp [dropEmptyLast, nonempty]
  | cons next more => rfl

/-- A segment before others stays, empty or not. -/
theorem dropEmptyLast_cons_of_ne_nil (segment : List Token) {more : List (List Token)}
    (following : more ≠ []) : dropEmptyLast (segment :: more) = segment :: dropEmptyLast more := by
  cases more with
  | nil => contradiction
  | cons next more => rfl

end Syntax

end ScriptLowering
