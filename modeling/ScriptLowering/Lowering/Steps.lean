import ScriptLowering.Lowering.Pass

/-! # Pass sequences

A pass sequence applies passes one after another to the same program and records what each
gave. It stops at the first pass that fails and at the first name that selects no pass.
Requests are kept as given, so whoever asked can be told which one went wrong.
-/

namespace ScriptLowering.Lowering

open Mir

/-- What one requested pass gave. -/
inductive Outcome (α : Type) where
  | done (request : α) (pass : Pass) (program : Program)
  | failed (request : α) (pass : Pass) (error : InternalError)
  | unknown (request : α)
  deriving Inhabited

/-- Applies the passes that `select` finds for the requests, in order, to a program; stops
after the first failure or unknown request. -/
def runPasses {α : Type} (select : α → Option Pass) (program : Program) :
    List α → List (Outcome α)
  | [] => []
  | request :: rest =>
    match select request with
    | none => [.unknown request]
    | some pass =>
      match pass.apply program with
      | .error error => [.failed request pass error]
      | .ok program => .done request pass program :: runPasses select program rest

/-- The program after every requested pass, or the first failure or unknown request. -/
def applyPasses {α : Type} (select : α → Option Pass) (program : Program) :
    List α → Except (Outcome α) Program
  | [] => .ok program
  | request :: rest =>
    match select request with
    | none => .error (.unknown request)
    | some pass =>
      match pass.apply program with
      | .error error => .error (.failed request pass error)
      | .ok program => applyPasses select program rest

end ScriptLowering.Lowering
