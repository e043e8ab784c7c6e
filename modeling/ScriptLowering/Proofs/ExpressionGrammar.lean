import ScriptLowering.Proofs.ParseOutput

/-! # The grammar of expressions

Expressions, as a grammar over tokens together with the syntax tree each derivation builds:

    Expr         → Primary Suffix* ('=' Expr)?
    Suffix       → '.' Primary | ArgumentList
    Primary      → identifier | string | number | boolean | bad character
                 | '(' Expr ')' | '{' Properties '}'
    ArgumentList → '(' Slots ')'

A suffix wraps the tree built so far, so member accesses and calls nest to the left and bind
tighter than `=`, whose right operand is again a whole expression, so assignments nest to the
right. The right operand of `.` is a single primary, and an expression in parentheses is the
tree of what is inside them.

Inside an argument list, commas separate arguments, and a comma where an argument was expected
leaves an empty argument in its place; an object holds `name: value` clauses separated by
commas. Both lists span their brackets and everything between them.

`Suffixes start tokens tree` reads what follows an expression's first primary from left to
right, carrying the tree built so far, which is the order the parser reads it in.
-/

namespace ScriptLowering

/-- Whether a token can continue a complete expression: a call's `(`, `.` or `=`. -/
def TokenKind.continuesExpression : TokenKind → Bool
  | .openParen | .dot | .equals => true
  | _ => false

/-- Whether a token can start a primary expression. -/
def TokenKind.startsPrimary : TokenKind → Bool
  | .identifier | .stringLiteral | .numberLiteral | .booleanLiteral | .badCharacter
  | .openParen | .openBrace => true
  | _ => false

/-- The node a token makes when it stands alone as a primary: a literal or a bad character. -/
def TokenKind.constantNode? : TokenKind → Option SyntaxKind
  | .stringLiteral => some .stringConstant
  | .numberLiteral => some .numberConstant
  | .booleanLiteral => some .booleanConstant
  | .badCharacter => some .badCharacter
  | _ => none

namespace Syntax

/-- What follows an expression ends it: nothing, or a token that cannot continue it. -/
def EndsExpression (rest : List Token) : Prop :=
  ∀ token ∈ rest.head?, token.kind.continuesExpression = false

/-- The childless tree of one token. -/
def leafTree (kind : SyntaxKind) (token : Token) : SyntaxTree := .node kind token.span []

/-- The tree of `lhs operator rhs`, spanning all three. -/
def binaryTree (lhs : SyntaxTree) (operator : Token) (rhs : SyntaxTree) : SyntaxTree :=
  .node .binary ((lhs.span.cover operator.span).cover rhs.span) [lhs, leafTree .operator operator, rhs]

/-- The tree of a call of `callee` with an argument list. -/
def callTree (callee arguments : SyntaxTree) : SyntaxTree :=
  .node .call (callee.span.cover arguments.span) [callee, arguments]

/-- The tree of the items between two brackets, spanning the brackets and every item. -/
def listTree (kind : SyntaxKind) (opening : Token) (items : List SyntaxTree) (closing : Token) :
    SyntaxTree :=
  .node kind (((items.map SyntaxTree.span).foldl Span.cover opening.span).cover closing.span) items

/-- The tree of an object clause `name: value`. -/
def clauseTree (name colon : Token) (value : SyntaxTree) : SyntaxTree :=
  .node .objectClause ((name.span.cover colon.span).cover value.span)
    [.node .objectKey name.span [leafTree .identifier name], .node .objectValue value.span [value]]

mutual

/-- The tokens are an expression whose tree is `tree`: a primary and what follows it. -/
inductive Expr : List Token → SyntaxTree → Prop
  | mk {first rest : List Token} {start tree : SyntaxTree} :
      Primary first start → Suffixes start rest tree → Expr (first ++ rest) tree

/-- Read after an expression whose tree is `start`, the tokens are member accesses and calls and
at most one final assignment, which make the tree `tree`. -/
inductive Suffixes : SyntaxTree → List Token → SyntaxTree → Prop
  | done (tree : SyntaxTree) : Suffixes tree [] tree
  | member {start rhs tree : SyntaxTree} {dot : Token} {property rest : List Token} :
      dot.kind = .dot → Primary property rhs → Suffixes (binaryTree start dot rhs) rest tree →
      Suffixes start (dot :: property ++ rest) tree
  | call {start arguments tree : SyntaxTree} {list rest : List Token} :
      ArgumentList list arguments → Suffixes (callTree start arguments) rest tree →
      Suffixes start (list ++ rest) tree
  | assign {start rhs : SyntaxTree} {equals : Token} {value : List Token} :
      equals.kind = .equals → Expr value rhs →
      Suffixes start (equals :: value) (binaryTree start equals rhs)

/-- The tokens are a primary expression whose tree is `tree`. -/
inductive Primary : List Token → SyntaxTree → Prop
  | reference {token : Token} : token.kind = .identifier →
      Primary [token] (.node .reference token.span [leafTree .identifier token])
  | constant {token : Token} {kind : SyntaxKind} : token.kind.constantNode? = some kind →
      Primary [token] (leafTree kind token)
  | parenthesized {opening closing : Token} {inner : List Token} {tree : SyntaxTree} :
      opening.kind = .openParen → Expr inner tree → closing.kind = .closeParen →
      Primary (opening :: inner ++ [closing]) tree
  | object {opening closing : Token} {inner : List Token} {clauses : List SyntaxTree} :
      opening.kind = .openBrace → Properties false inner clauses → closing.kind = .closeBrace →
      Primary (opening :: inner ++ [closing]) (listTree .object opening clauses closing)

/-- The tokens are a bracketed argument list whose tree is `tree`. -/
inductive ArgumentList : List Token → SyntaxTree → Prop
  | mk {opening closing : Token} {inner : List Token} {items : List SyntaxTree} :
      opening.kind = .openParen → Slots true inner items → closing.kind = .closeParen →
      ArgumentList (opening :: inner ++ [closing]) (listTree .argumentList opening items closing)

/-- The tokens between the brackets of an argument list, with the items they make. An argument
is expected at the start and after each comma. -/
inductive Slots : Bool → List Token → List SyntaxTree → Prop
  | done (expecting : Bool) : Slots expecting [] []
  | argument {value rest : List Token} {tree : SyntaxTree} {items : List SyntaxTree} :
      Expr value tree → Slots false rest items →
      Slots true (value ++ rest) (.node .argument tree.span [tree] :: items)
  | empty {comma : Token} {rest : List Token} {items : List SyntaxTree} :
      comma.kind = .comma → Slots true rest items →
      Slots true (comma :: rest) (.node .argument comma.span [] :: leafTree .comma comma :: items)
  | comma {comma : Token} {rest : List Token} {items : List SyntaxTree} :
      comma.kind = .comma → Slots true rest items →
      Slots false (comma :: rest) (leafTree .comma comma :: items)

/-- The tokens between the braces of an object, with the items they make. A clause may not
follow another clause directly. -/
inductive Properties : Bool → List Token → List SyntaxTree → Prop
  | done (afterClause : Bool) : Properties afterClause [] []
  | clause {name colon : Token} {value rest : List Token} {tree : SyntaxTree}
      {items : List SyntaxTree} :
      name.kind = .identifier → colon.kind = .colon → Expr value tree → Properties true rest items →
      Properties false (name :: colon :: value ++ rest) (clauseTree name colon tree :: items)
  | comma {comma : Token} {afterClause : Bool} {rest : List Token} {items : List SyntaxTree} :
      comma.kind = .comma → Properties false rest items →
      Properties afterClause (comma :: rest) (leafTree .comma comma :: items)

end

@[simp] theorem endsExpression_nil : EndsExpression [] := by simp [EndsExpression]

@[simp] theorem endsExpression_cons {token : Token} {rest : List Token} :
    EndsExpression (token :: rest) ↔ token.kind.continuesExpression = false := by
  simp [EndsExpression]

/-- A primary starts with a token that can start one. -/
theorem Primary.head {tokens : List Token} {tree : SyntaxTree} :
    Primary tokens tree → ∃ token rest, tokens = token :: rest ∧ token.kind.startsPrimary = true
  | .reference isName => ⟨_, [], rfl, by simp [isName, TokenKind.startsPrimary]⟩
  | @Primary.constant token _ isConstant => ⟨token, [], rfl, by
      cases kind : token.kind <;> simp_all [TokenKind.constantNode?, TokenKind.startsPrimary]⟩
  | .parenthesized isOpen _ _ => ⟨_, _, rfl, by simp [isOpen, TokenKind.startsPrimary]⟩
  | .object isOpen _ _ => ⟨_, _, rfl, by simp [isOpen, TokenKind.startsPrimary]⟩

/-- An expression starts with a token that can start a primary. -/
theorem Expr.head {tokens : List Token} {tree : SyntaxTree} :
    Expr tokens tree → ∃ token rest, tokens = token :: rest ∧ token.kind.startsPrimary = true
  | @Expr.mk _ suffixes _ _ primary _ => by
    obtain ⟨token, rest, rfl, starts⟩ := primary.head
    exact ⟨token, rest ++ suffixes, rfl, starts⟩

/-- After an argument comes a comma or the closing bracket, neither of which continues it. -/
theorem Slots.ends {rest : List Token} {items : List SyntaxTree} (slots : Slots false rest items)
    {closing : Token} (closes : closing.kind = .closeParen) (more : List Token) :
    EndsExpression (rest ++ closing :: more) := by
  cases slots with
  | done => simp [closes, TokenKind.continuesExpression]
  | comma isComma _ => simp [isComma, TokenKind.continuesExpression]

/-- After a property value comes a comma or the closing brace, neither of which continues it. -/
theorem Properties.ends {rest : List Token} {items : List SyntaxTree}
    (properties : Properties true rest items) {closing : Token} (closes : closing.kind = .closeBrace)
    (more : List Token) : EndsExpression (rest ++ closing :: more) := by
  cases properties with
  | done => simp [closes, TokenKind.continuesExpression]
  | comma isComma _ => simp [isComma, TokenKind.continuesExpression]

end Syntax

end ScriptLowering
