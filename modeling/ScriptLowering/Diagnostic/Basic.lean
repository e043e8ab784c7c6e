import ScriptLowering.Text.Span

/-! # Diagnostics

A diagnostic is a problem found in the user's source: a message and the span it is about. The
stages never stop at such a problem; they record it and go on, and the caller looks at the
record between stages. A diagnostic may carry a backtrace, a line of text that says which part
of the compiler reported it.
-/

namespace ScriptLowering

/-- A problem in the source: what it is and where. -/
structure Diagnostic where
  message : String
  span : Span
  backtrace : Option String := none
  deriving DecidableEq, Repr, Inhabited

/-- The diagnostics of one file, in the order they were reported. -/
abbrev Diagnostics := Array Diagnostic

/-- Records a problem at a span. -/
def Diagnostics.report (diagnostics : Diagnostics) (span : Span) (message : String) : Diagnostics :=
  diagnostics.push { message, span }

/-- The summary line of a file's diagnostics. -/
def Diagnostics.summary (diagnostics : Diagnostics) : String :=
  s!"found {diagnostics.size} error(s) in the source"

@[simp] theorem Diagnostics.size_report (diagnostics : Diagnostics) (span : Span) (message : String) :
    (diagnostics.report span message).size = diagnostics.size + 1 := by
  simp [Diagnostics.report]

end ScriptLowering
