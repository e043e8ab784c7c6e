/-! # Kinds of syntax nodes

Each node of a syntax tree has a kind, the grammar tag that says what it stands for. Kinds are
written in upper case with underscores between words, as in `PARAMETER_LIST`, both in tree
dumps and in trees given node by node.
-/

namespace ScriptLowering

/-- The grammar tag of a syntax node. -/
inductive SyntaxKind where
  | file
  | function
  | variable
  | parameterList
  | parameter
  | block
  | argument
  | argumentList
  | call
  /-- `lhs operator rhs`, where the operator is `=` or `.`. -/
  | binary
  | operator
  | reference
  | object
  | objectClause
  | objectKey
  | objectValue
  | stringConstant
  | numberConstant
  | booleanConstant
  | identifier
  | semicolon
  | comma
  | badCharacter
  deriving DecidableEq, Repr, Inhabited

namespace SyntaxKind

/-- Every kind, in declaration order. -/
def all : List SyntaxKind :=
  [.file, .function, .variable, .parameterList, .parameter, .block, .argument, .argumentList,
   .call, .binary, .operator, .reference, .object, .objectClause, .objectKey, .objectValue,
   .stringConstant, .numberConstant, .booleanConstant, .identifier, .semicolon, .comma,
   .badCharacter]

/-- The written name of a kind. -/
def name : SyntaxKind → String
  | .file => "FILE"
  | .function => "FUNCTION"
  | .variable => "VARIABLE"
  | .parameterList => "PARAMETER_LIST"
  | .parameter => "PARAMETER"
  | .block => "BLOCK"
  | .argument => "ARGUMENT"
  | .argumentList => "ARGUMENT_LIST"
  | .call => "CALL"
  | .binary => "BINARY"
  | .operator => "OPERATOR"
  | .reference => "REFERENCE"
  | .object => "OBJECT"
  | .objectClause => "OBJECT_CLAUSE"
  | .objectKey => "OBJECT_KEY"
  | .objectValue => "OBJECT_VALUE"
  | .stringConstant => "STRING_CONSTANT"
  | .numberConstant => "NUMBER_CONSTANT"
  | .booleanConstant => "BOOLEAN_CONSTANT"
  | .identifier => "IDENTIFIER"
  | .semicolon => "SEMICOLON"
  | .comma => "COMMA"
  | .badCharacter => "BAD_CHARACTER"

/-- The kind with a written name. -/
def ofName? (written : String) : Option SyntaxKind := all.find? (·.name == written)

theorem ofName?_name (kind : SyntaxKind) : ofName? kind.name = some kind := by
  cases kind <;> decide

end SyntaxKind

end ScriptLowering
