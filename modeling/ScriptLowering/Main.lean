import ScriptLowering.Cli.Run

/-! # The command-line program

The program's outer layer: it reads the arguments and the environment, looks at every path
named in the arguments, and hands all of it to `Cli.run`, then writes what the run gives and
exits with its status. Own messages are styled when `CLICOLOR_FORCE` asks for it and
`NO_COLOR` does not forbid it, or when standard error is a terminal; diagnostics are coloured
when `CLICOLOR_FORCE` asks for it, or, unless `NO_COLOR` is set, when standard output is a
terminal.
-/

namespace ScriptLowering.Cli

/-- What a path names on disk. Reading a directory fails with the system's code for "is a
directory". -/
def probeDisk (path : String) : IO Probe := do
  if path.isEmpty then return .missing
  try
    let bytes ← IO.FS.readBinFile path
    return .file bytes.toList
  catch error =>
    match error with
    | .inappropriateType _ 21 _ => return .directory
    | _ => return .missing

/-- Whether an environment variable is set to something other than `0`. -/
def envForces (value : Option String) : Bool :=
  match value with
  | some text => text != "0"
  | none => false

end ScriptLowering.Cli

open ScriptLowering.Cli in
/-- Runs the command line. -/
def main (arguments : List String) : IO UInt32 := do
  let mut probes : List (String × Probe) := []
  for argument in arguments do
    probes := (argument, ← probeDisk argument) :: probes
  let known := probes
  let probe (path : String) : Probe := (known.lookup path).getD .missing
  let force := envForces (← IO.getEnv "CLICOLOR_FORCE")
  let noColor := ((← IO.getEnv "NO_COLOR").map (!·.isEmpty)).getD false
  let anyNoColor := (← IO.getEnv "NO_COLOR").isSome
  let clicolorOff := (← IO.getEnv "CLICOLOR") == some "0"
  let stdout ← IO.getStdout
  let stderr ← IO.getStderr
  let styled := !noColor && (force || (!clicolorOff && (← stderr.isTty)))
  let colored := force || (!anyNoColor && !clicolorOff && (← stdout.isTty))
  let outcome := run { styled, colored } probe arguments
  stdout.putStr outcome.stdout
  stdout.flush
  stderr.putStr outcome.stderr
  stderr.flush
  return outcome.status.toUInt32
