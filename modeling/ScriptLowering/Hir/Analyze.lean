import ScriptLowering.Syntax.Parse
import ScriptLowering.Hir.Build
import ScriptLowering.Hir.Resolve

/-! # From source text to the resolved high-level tree

Analysis runs the front of the compiler on one source text: it parses, builds the high-level
tree and resolves its names. It never stops on a problem of the source; the diagnostics come
in the order they were found, the parser's first, then the builder's, then the resolver's.
Only an internal error of the builder stops it.
-/

namespace ScriptLowering.Hir

/-- The parsed tree of a source text with the parser's diagnostics. The parser writes every
child before its parent, so its arena always unfolds; the empty file stands in otherwise. -/
def parseTree (source : String) : SyntaxTree × Diagnostics :=
  let (arena, reports) := SyntaxArena.parse source
  (arena.toTree?.getD (.node .file (.range 0 source.utf8ByteSize) []), reports)

/-- The high-level tree of a source text before names are resolved, with the diagnostics of
parsing and building. -/
def File.ofSource (source : String) (name : String) : Except InternalError (File × Diagnostics) :=
  let (tree, reports) := parseTree source
  File.build source.toList name tree reports

/-- The resolved high-level tree of a source text, with every diagnostic of parsing, building
and resolving. -/
def File.analyze (source : String) (name : String) : Except InternalError (File × Diagnostics) := do
  let (file, reports) ← File.ofSource source name
  return file.resolve reports

end ScriptLowering.Hir
