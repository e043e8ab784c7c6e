/-! # Files named on the command line

A path names nothing, a directory, or a file with its bytes. Paths are read as the system
reads them from the working directory: empty parts and `.` stay where they are, `..` goes up
(above the working directory nothing is known), and a name goes down into a directory. A file
must be the last part, so `a.js/` names nothing. An absolute path starts above the working
directory too.

The name a compiled file gets is its path's last part, leaving out empty parts and `.`.
-/

namespace ScriptLowering.Cli

/-- What a path names. -/
inductive Probe where
  | missing
  | directory
  | file (bytes : List UInt8)
  deriving DecidableEq, Repr, Inhabited

/-- A file tree given by its entries: each a path, as its parts, naming a file with its bytes
or, without bytes, a directory. The directories above every entry exist too. -/
structure FileTree where
  entries : List (List String × Option (List UInt8))
  deriving Repr, Inhabited

/-- The parts of a path that lead somewhere, without empty parts and `.`. -/
def pathParts (path : String) : List String :=
  (path.splitOn "/").filter fun part => part != "" && part != "."

/-- What the entries of a tree give at a path, as its parts. -/
def FileTree.at? (tree : FileTree) (parts : List String) : Option Probe :=
  match tree.entries.reverse.find? (·.1 == parts) with
  | some (_, some bytes) => some (.file bytes)
  | some (_, none) => some .directory
  | none =>
    if parts.isEmpty || tree.entries.any (fun entry => parts.isPrefixOf entry.1 && parts != entry.1)
    then some .directory else none

/-- Where a walk through a path stands: in a known directory, or above the tree. -/
inductive Place where
  | inside (parts : List String)
  | above
  deriving DecidableEq, Repr, Inhabited

/-- Follows the remaining parts of a path from a place. -/
def FileTree.walk (tree : FileTree) : Place → List String → Probe
  | _, [] => .directory
  | place, "" :: rest | place, "." :: rest => tree.walk place rest
  | .inside [], ".." :: rest => tree.walk .above rest
  | .inside parts, ".." :: rest => tree.walk (.inside parts.dropLast) rest
  | .above, ".." :: rest => tree.walk .above rest
  | .above, _ :: _ => .missing
  | .inside parts, name :: rest =>
    match tree.at? (parts ++ [name]) with
    | some .directory => tree.walk (.inside (parts ++ [name])) rest
    | some (.file bytes) => if rest.isEmpty then .file bytes else .missing
    | _ => .missing

/-- What a path names in a tree that is the working directory. -/
def FileTree.probe (tree : FileTree) (path : String) : Probe :=
  if path.isEmpty then .missing
  else if path.startsWith "/" then tree.walk .above (path.splitOn "/")
  else tree.walk (.inside []) (path.splitOn "/")

/-- A tree holding the given files and directories, each path taken apart at slashes. -/
def FileTree.ofPaths (entries : List (String × Option (List UInt8))) : FileTree :=
  { entries := entries.map fun (path, content) => (pathParts path, content) }

/-- The name a compiled file gets: the last part of its path, or the whole path when that
part goes up. -/
def fileNameOf (path : String) : String :=
  match (pathParts path).getLast? with
  | some ".." | none => path
  | some name => name

end ScriptLowering.Cli
