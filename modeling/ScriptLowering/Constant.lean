import ScriptLowering.Number.Shortest
import ScriptLowering.Text.Quoted

/-! # Constants

The value of a literal: a number, a string or a boolean. Dumps write a constant as
`Number(x)` with the shortest decimal text of the number, `Str("...")` with the string quoted,
or `Bool(true)` and `Bool(false)`.
-/

namespace ScriptLowering

/-- The value of a literal. -/
inductive Constant where
  | number (value : Binary64)
  | string (value : String)
  | boolean (value : Bool)
  deriving DecidableEq, Repr, Inhabited

/-- The text of a constant in dumps. -/
def Constant.render : Constant → String
  | .number value => s!"Number({value.render})"
  | .string value => s!"Str({Text.quote value})"
  | .boolean value => s!"Bool({value})"

end ScriptLowering
