import ScriptLowering.Cli.Args

/-! # Messages of the command line

The command line's own texts: its help, its version, and the messages for arguments it
refuses. An error message reads `error: MESSAGE`, then for most errors the usage line, then a
pointer to `--help`. The usage line shows the arguments already read when an unknown or
misused option is reported, and the general form otherwise. Where it shows the command's group
of its own arguments, the group is written `<SOURCE_FILES|--emit <EMIT>|--no-color>`, without
styles, and its members are left out.

When styling is on, `error:` is bold red, headings are bold and underlined, option names and
the program name are bold, refused values yellow and suggestions green.
-/

namespace ScriptLowering.Cli

/-- The name of the program. -/
def programName : String := "jsmir"

/-- The version of the program. -/
def programVersion : String := "0.1.0"

/-- What the program does, as its help says. -/
def programAbout : String :=
  "HIR, name resolution and MIR lowering pipeline for a small JavaScript-like language"

/-- The terminal sequence that ends a style. -/
def styleReset : String := "\x1b[0m"

/-- The styles of the command line's texts. -/
inductive Tone where
  | error
  | heading
  | literal
  | invalid
  | valid
  deriving DecidableEq, Repr, Inhabited

/-- The terminal sequence that starts a style. -/
def Tone.sequence : Tone → String
  | .error => "\x1b[1m\x1b[31m"
  | .heading => "\x1b[1m\x1b[4m"
  | .literal => "\x1b[1m"
  | .invalid => "\x1b[33m"
  | .valid => "\x1b[32m"

/-- Text in a style, when styling is on. -/
def tone (styled : Bool) (style : Tone) (text : String) : String :=
  if styled then style.sequence ++ text ++ styleReset else text

/-- How an argument is shown in a usage line. -/
def Argument.inUsage (styled : Bool) : Argument → String
  | .sourceFiles => "<SOURCE_FILES>..."
  | .emit => tone styled .literal "--emit" ++ " <EMIT>"
  | .noColor => tone styled .literal "--no-color"
  | .help => tone styled .literal "--help"
  | .version => tone styled .literal "--version"

/-- The command's group of its own arguments as a usage line shows it. -/
def groupInUsage : String := "<SOURCE_FILES|--emit <EMIT>|--no-color>"

/-- The usage line: the general form, or the options already read, in the order they were
first read, followed by the source files, which stay optional unless some were read. With
`grouped`, the group stands after the options not in it, in place of its members. -/
def usageLine (styled : Bool) (used : List Argument) (grouped : Bool) : String :=
  let name := tone styled .literal programName
  let body := if used.isEmpty then s!"{name} [OPTIONS] [SOURCE_FILES]..."
    else if grouped then
      let options := (used.filter (!·.inGroup)).map (·.inUsage styled)
      String.intercalate " " (name :: options ++ [groupInUsage])
    else
      let options := (used.filter (· != .sourceFiles)).map (·.inUsage styled)
      let files := if used.contains .sourceFiles then Argument.sourceFiles.inUsage styled
        else "[SOURCE_FILES]..."
      String.intercalate " " (name :: options ++ [files])
  tone styled .heading "Usage:" ++ " " ++ body

/-- The end of every error message: the pointer to `--help`. -/
def helpPointer (styled : Bool) : String :=
  let flag := tone styled .literal "--help"
  s!"\n\nFor more information, try '{flag}'.\n"

/-- An error message with the usage line when `used` is given. -/
def errorText (styled : Bool) (message : String) (used : Option (List Argument))
    (grouped : Bool) : String :=
  let usage := match used with
    | some used => "\n\n" ++ usageLine styled used grouped
    | none => ""
  tone styled .error "error:" ++ " " ++ message ++ usage ++ helpPointer styled

/-- The message for arguments that are refused. -/
def ArgError.text (styled : Bool) : ArgError → String
  | .missingValue argument =>
    let shown := tone styled .literal argument.display
    errorText styled s!"a value is required for '{shown}' but none was supplied" none false
  | .invalidEmit value =>
    let shown := tone styled .invalid value
    let option := tone styled .literal Argument.emit.display
    errorText styled s!"invalid value '{shown}' for '{option}': Matching variant not found" none false
  | .repeated argument =>
    let shown := tone styled .invalid argument.display
    errorText styled s!"the argument '{shown}' cannot be used multiple times" (some []) false
  | .unexpectedValue value argument used grouped =>
    let shown := tone styled .invalid value
    let option := tone styled .literal argument.display
    errorText styled s!"unexpected value '{shown}' for '{option}' found; no more were expected"
      (some used) grouped
  | .unknownLong written similar used =>
    let shown := tone styled .invalid written
    let tip := tone styled .valid "tip:"
    let advice := match similar with
      | some known =>
        let suggestion := tone styled .valid ("--" ++ known.longName)
        s!"\n\n  {tip} a similar argument exists: '{suggestion}'"
      | none =>
        let escaped := tone styled .valid ("-- " ++ written)
        s!"\n\n  {tip} to pass '{shown}' as a value, use '{escaped}'"
    errorText styled (s!"unexpected argument '{shown}' found" ++ advice) (some used) false
  | .unknownShort written =>
    let shown := tone styled .invalid written
    let tip := tone styled .valid "tip:"
    let escaped := tone styled .valid ("-- " ++ written)
    errorText styled
      (s!"unexpected argument '{shown}' found" ++ s!"\n\n  {tip} to pass '{shown}' as a value, use '{escaped}'")
      (some []) false

/-- The help text. -/
def helpText (styled : Bool) : String :=
  let literal := tone styled .literal
  let heading := tone styled .heading
  let emitFlag := literal "--emit"
  let plainFlag := literal "--no-color"
  let helpShort := literal "-h"
  let helpLong := literal "--help"
  let versionShort := literal "-V"
  let versionLong := literal "--version"
  String.intercalate "\n"
    [programAbout, "", usageLine styled [] false, "", heading "Arguments:", "  [SOURCE_FILES]...  ", "",
     heading "Options:",
     s!"      {emitFlag} <EMIT>  Representation to print for every file [default: lowered]",
     s!"      {plainFlag}     Disable colored diagnostics",
     s!"  {helpShort}, {helpLong}         Print help",
     s!"  {versionShort}, {versionLong}      Print version"] ++ "\n"

/-- The version text. -/
def versionText : String := s!"{programName} {programVersion}\n"

end ScriptLowering.Cli
