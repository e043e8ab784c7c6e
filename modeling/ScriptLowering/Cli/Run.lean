import ScriptLowering.Cli.Messages
import ScriptLowering.Cli.Files
import ScriptLowering.Text.Utf8
import ScriptLowering.Diagnostic.Render

/-! # Running the command line

A run reads the arguments, then checks that every source file exists and is a file before
compiling any; a problem there stops the run with status 2 and the usage line. Then each file
is read and compiled in turn: its dump goes to standard output, and its diagnostics, or the
message of a file that is not UTF-8 or of an internal error, to standard error. The run's
status is 1 when any file failed and 0 otherwise. Help and the version go to standard output
with status 0.

Diagnostics name the file by its path as given; the file's dumps use its last part.
-/

namespace ScriptLowering.Cli

/-- What a run gives: its exit status and what it wrote to each stream. -/
structure Outcome where
  status : Nat
  stdout : String := ""
  stderr : String := ""
  deriving DecidableEq, Repr, Inhabited

/-- How a run prints: whether its own messages are styled, and whether diagnostics are
coloured. -/
structure Terminal where
  styled : Bool
  colored : Bool
  deriving DecidableEq, Repr, Inhabited

/-- A run that stops while checking the arguments. -/
def refuse (terminal : Terminal) (message : String) : Outcome :=
  { status := 2, stderr := errorText terminal.styled message (some []) false }

/-- The first problem with the named source files, if any. -/
def checkFiles (probe : String → Probe) : List String → Option String
  | [] => none
  | path :: rest =>
    match probe path with
    | .missing => some s!"Source file '{path}' does not exist!"
    | .directory => some s!"Input path '{path}' is not a file!"
    | .file _ => checkFiles probe rest

/-- Compiles one file, adding its output to the outcome so far and saying whether it failed. -/
def compileFile (terminal : Terminal) (options : Options) (path : String) (bytes : List UInt8)
    (outcome : Outcome) : Outcome × Bool :=
  match Text.decodeUtf8 bytes with
  | none =>
    ({ outcome with stderr := outcome.stderr ++
        s!"Failed to read '{path}': stream did not contain valid UTF-8\n" }, true)
  | some chars =>
    let source := String.ofList chars
    match compile source (fileNameOf path) with
    | .ok compilation => ({ outcome with stdout := outcome.stdout ++ compilation.dump options.emit }, false)
    | .error (.source reports) =>
      let rendered := if options.plain then reports.renderPlain chars path terminal.colored
        else reports.render chars path terminal.colored
      ({ outcome with stderr := outcome.stderr ++ rendered }, true)
    | .error (.internal error) =>
      let message := error.message
      ({ outcome with stderr := outcome.stderr ++ s!"internal compiler error in {path}: {message}\n" }, true)

/-- Runs the command line on some arguments, with `probe` telling what each path names. -/
def run (terminal : Terminal) (probe : String → Probe) (arguments : List String) : Outcome :=
  match readArguments arguments with
  | .error .help => { status := 0, stdout := helpText terminal.styled }
  | .error .version => { status := 0, stdout := versionText }
  | .error (.error refusal) => { status := 2, stderr := refusal.text terminal.styled }
  | .ok options =>
    if options.files.isEmpty then refuse terminal "Missing source files!" else
    match checkFiles probe options.files with
    | some message => refuse terminal message
    | none =>
      let (outcome, failed) := options.files.foldl (fun (outcome, failed) path =>
        match probe path with
        | .file bytes =>
          let (outcome, failedHere) := compileFile terminal options path bytes outcome
          (outcome, failed || failedHere)
        | _ => (outcome, failed)) ({ status := 0 }, false)
      { outcome with status := if failed then 1 else 0 }

end ScriptLowering.Cli
