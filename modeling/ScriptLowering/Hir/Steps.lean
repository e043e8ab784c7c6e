import ScriptLowering.Hir.Resolve
import ScriptLowering.Hir.References

/-! # Resolving again

A file can be resolved any number of times, and its resolutions forgotten in between. Steps run
in order on one file and one list of diagnostics. Resolving again leaves bound references
alone and looks up the others once more, reporting each name that is still unknown again.
Forgetting clears every reference and counts the ones that were bound. A step name that is
not known stops the sequence.
-/

namespace ScriptLowering.Hir

/-- A step on a resolved or unresolved file. -/
inductive Step where
  | resolve
  | reset
  deriving DecidableEq, Repr, Inhabited

/-- The step a name selects. -/
def Step.ofName? : String → Option Step
  | "resolve" => some .resolve
  | "reset" => some .reset
  | _ => none

/-- What one requested step gave: the step, the number of references it cleared, the messages
it added, and the file after it; or that the request names no step. -/
inductive StepOutcome (α : Type) where
  | done (request : α) (step : Step) (cleared : Option Nat) (messages : List String) (file : File)
  | unknown (request : α)
  deriving Inhabited

/-- Runs one step on a file and its diagnostics. -/
def Step.apply (step : Step) (file : File) (reports : Diagnostics) :
    File × Diagnostics × Option Nat :=
  match step with
  | .resolve =>
    let (file, reports) := file.resolve reports
    (file, reports, none)
  | .reset => (file.forget, reports, some file.resolvedCount)

/-- Runs the steps that `select` finds for the requests, in order; stops at the first request
that names no step. -/
def runSteps {α : Type} (select : α → Option Step) (file : File) (reports : Diagnostics) :
    List α → List (StepOutcome α)
  | [] => []
  | request :: rest =>
    match select request with
    | none => [.unknown request]
    | some step =>
      let (next, after, cleared) := step.apply file reports
      let added := (after.toList.drop reports.size).map (·.message)
      .done request step cleared added next :: runSteps select next after rest

end ScriptLowering.Hir
