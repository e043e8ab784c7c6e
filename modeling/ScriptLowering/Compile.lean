import ScriptLowering.Hir.Analyze
import ScriptLowering.Hir.Dump
import ScriptLowering.Mir.Convert
import ScriptLowering.Mir.Dump
import ScriptLowering.Lowering.Pass

/-! # Compiling a source text

Compiling runs the whole pipeline on one source text: analysis, then conversion to the
middle representation, then lowering. Conversion only happens when analysis found no
problem in the source; otherwise compiling stops with the diagnostics. An internal error of
any stage stops it too.
-/

namespace ScriptLowering

/-- Why compiling stopped: problems in the source, or an internal error. -/
inductive CompileError where
  | source (diagnostics : Diagnostics)
  | internal (error : InternalError)
  deriving Inhabited

/-- The dumps of every stage of a compiled source text. -/
structure Compilation where
  hir : String
  mir : String
  lowered : String
  deriving DecidableEq, Repr, Inhabited

/-- What the command line can print for each file. -/
inductive Emit where
  | hir
  | mir
  | lowered
  deriving DecidableEq, Repr, Inhabited

/-- The emit choice a command-line value names. -/
def Emit.ofName? : String → Option Emit
  | "hir" => some .hir
  | "mir" => some .mir
  | "lowered" => some .lowered
  | _ => none

/-- The dump of a compilation that an emit choice selects. -/
def Compilation.dump (compilation : Compilation) : Emit → String
  | .hir => compilation.hir
  | .mir => compilation.mir
  | .lowered => compilation.lowered

/-- The program of a source text whose analysis found no problem, with the resolved
high-level file. -/
def Mir.Program.ofSource (source : String) (name : String) :
    Except CompileError (Hir.File × Mir.Program) := do
  let (file, reports) ← (Hir.File.analyze source name).mapError .internal
  if !reports.isEmpty then throw (.source reports)
  let program ← (Mir.Program.convert file).mapError .internal
  return (file, program)

/-- Compiles a source text named `name`. -/
def compile (source : String) (name : String) : Except CompileError Compilation := do
  let (file, program) ← Mir.Program.ofSource source name
  let lowered ← (Lowering.lower program).mapError .internal
  return { hir := file.dump, mir := program.dump, lowered := lowered.dump }

/-- The resolved high-level file of any syntax tree over a source text, with the diagnostics
of building and resolving. -/
def Hir.File.ofTree (source : String) (name : String) (tree : SyntaxTree) :
    Except InternalError (Hir.File × Diagnostics) := do
  let (file, reports) ← Hir.File.build source.toList name tree #[]
  return file.resolve reports

/-- The program of a resolved file, before and after lowering. -/
def Mir.Program.stages (file : Hir.File) : Except InternalError (Mir.Program × Mir.Program) := do
  let program ← Mir.Program.convert file
  return (program, ← Lowering.lower program)

end ScriptLowering
