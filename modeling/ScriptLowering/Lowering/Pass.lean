import ScriptLowering.Lowering.Reify
import ScriptLowering.Lowering.Initializer
import ScriptLowering.Lowering.FileClass

/-! # Lowering passes

Lowering normalizes a converted program into the shape code generation expects: every direct
child of a class is a declaration and the file holds a single root. It runs three passes, in
an order each relies on: functions become classes, loose statements move into initializers,
and the file's statements are wrapped into the file class.
-/

namespace ScriptLowering.Lowering

open Mir

/-- A lowering pass. -/
inductive Pass where
  | reify
  | initializers
  | fileClass
  | all
  deriving DecidableEq, Repr, Inhabited

namespace Pass

/-- The pass a name selects. -/
def ofName? : String → Option Pass
  | "reify" => some .reify
  | "clinit" => some .initializers
  | "wrap_file" => some .fileClass
  | "lower" => some .all
  | _ => none

/-- The name of a pass. -/
def name : Pass → String
  | .reify => "reify"
  | .initializers => "clinit"
  | .fileClass => "wrap_file"
  | .all => "lower"

theorem ofName?_name (pass : Pass) : ofName? pass.name = some pass := by
  cases pass <;> rfl

end Pass

/-- Runs every lowering pass, in order. -/
def lower (program : Program) : Except InternalError Program := do
  let program ← reifyFunctions program
  let program ← wrapInitializers program
  wrapFile program

/-- Runs one pass. -/
def Pass.apply : Pass → Program → Except InternalError Program
  | .reify => reifyFunctions
  | .initializers => wrapInitializers
  | .fileClass => wrapFile
  | .all => lower

end ScriptLowering.Lowering
