import ScriptLowering.Mir.Parents

/-! # The file class

Wrapping the file puts the statements of a file that holds more than one into a single class
named after the file, so a file holds a single root. Only the file's own statements are
looked at. The class name is the file name after its last `/` or `\`, with every character
that is not an ASCII letter or digit replaced by `_`: `dir/some-file.js` gives `some_file_js`.
-/

namespace ScriptLowering.Lowering

open Mir

/-- The part of a path after its last `/` or `\`. -/
def lastComponent (path : List Char) : List Char :=
  (path.reverse.takeWhile (fun c => c != '/' && c != '\\')).reverse

/-- The name of the class wrapping a file. -/
def fileClassName (fileName : String) : String :=
  String.ofList ((lastComponent fileName.toList).map fun c =>
    if c.isAlphanum then c else '_')

/-- Wraps the statements of a program's file into one class when there is more than one. -/
def wrapFile (program : Program) : Except InternalError Program := do
  let arena := program.arena
  let (name, statements) ← arena.file program.file
  if statements.length ≤ 1 then return program
  let span := (arena.node program.file).span
  let arena ← arena.setStatements program.file []
  let (arena, symbol) := arena.newSymbol .classDef
  let (arena, created) := arena.push (.classDef symbol (fileClassName name) statements .fileClass) span
  let arena ← arena.bind symbol created
  let arena ← arena.setStatements program.file [created]
  return { program with arena := arena.patchParents created (some program.file) }

end ScriptLowering.Lowering
