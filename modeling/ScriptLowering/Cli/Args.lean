import ScriptLowering.Compile
import ScriptLowering.Cli.Similar

/-! # Reading the command line

The command line takes any number of source files, `--emit <EMIT>` to choose the dump printed
for each (`hir`, `mir` or `lowered`, by default `lowered`), `--no-color` to print diagnostics
without colours, and `-h`/`--help` and `-V`/`--version`.

Arguments are read in order. After `--` every argument is a source file. A long option may
carry its value after `=`; `--emit` otherwise takes the next argument, whatever it is unless
it looks like an option. Short options may be grouped. Each option may be given once.

Values wait until the next option is read, or the arguments end, before they are checked;
source file names in a row wait together, and a value of `--emit` waits until the next source
file or option. So an empty source file name or a bad `--emit` value is reported only then,
and an unknown option met first is reported instead. Help and version also settle what waits
first.

The source files, `--emit` and `--no-color` form the command's group of its own arguments.
A usage line for a value given to a flag shows that group in place of its members once one of
them was read.
-/

namespace ScriptLowering.Cli

/-- An argument of the command line, as messages name it. -/
inductive Argument where
  | sourceFiles
  | emit
  | noColor
  | help
  | version
  deriving DecidableEq, Repr, Inhabited

/-- How messages show an argument. -/
def Argument.display : Argument → String
  | .sourceFiles => "[SOURCE_FILES]..."
  | .emit => "--emit <EMIT>"
  | .noColor => "--no-color"
  | .help => "--help"
  | .version => "--version"

/-- Whether an argument belongs to the command's group of its own arguments; help and
version do not. -/
def Argument.inGroup : Argument → Bool
  | .sourceFiles | .emit | .noColor => true
  | .help | .version => false

/-- The long name of an argument; the source files have none and go by their value name. -/
def Argument.longName : Argument → String
  | .sourceFiles => "source-files"
  | .emit => "emit"
  | .noColor => "no-color"
  | .help => "help"
  | .version => "version"

/-- The long names of the options, in the order the command declares them. -/
def longOptions : List (String × Argument) :=
  [Argument.emit, .noColor, .help, .version].map fun argument => (argument.longName, argument)

/-- Why the arguments are refused. -/
inductive ArgError where
  /-- An option or file name that needs a value got none. -/
  | missingValue (argument : Argument)
  /-- `--emit` got a value that names no dump. -/
  | invalidEmit (value : String)
  /-- An option was given twice. -/
  | repeated (argument : Argument)
  /-- An option that takes no value got one after `=`, with the arguments read so far and
  whether one of them belongs to the command's group. -/
  | unexpectedValue (value : String) (argument : Argument) (used : List Argument)
      (grouped : Bool)
  /-- An unknown option, with the known option it resembles and the arguments already
  read, which the usage line then shows. -/
  | unknownLong (written : String) (similar : Option Argument) (used : List Argument)
  /-- An unknown short option. -/
  | unknownShort (written : String)
  deriving DecidableEq, Repr, Inhabited

/-- Why reading the arguments stops early: a request for help or the version, or an error. -/
inductive Stop where
  | help
  | version
  | error (error : ArgError)
  deriving DecidableEq, Repr, Inhabited

/-- What the command line asks for. -/
structure Options where
  files : List String
  emit : Emit
  plain : Bool
  deriving DecidableEq, Repr, Inhabited

/-- Where waiting values go. -/
inductive Target where
  | emit
  | files
  deriving DecidableEq, Repr, Inhabited

/-- The state of reading: whether only files follow, whether `--emit` waits for its value,
the values waiting to be checked, what was read so far, and the arguments read, in the order
they were first read. -/
structure ReadState where
  trailing : Bool := false
  awaitingEmit : Bool := false
  waiting : Option (Target × List String) := none
  emit : Option Emit := none
  plain : Bool := false
  files : List String := []
  used : List Argument := []
  deriving Inhabited

/-- Records an argument as read. -/
def ReadState.use (state : ReadState) (argument : Argument) : ReadState :=
  if state.used.contains argument then state else { state with used := state.used ++ [argument] }

/-- Checks and stores values for a target. -/
def accept (state : ReadState) : Target → List String → Except Stop ReadState
  | .emit, [] => throw (.error (.missingValue .emit))
  | .emit, value :: _ =>
    if state.emit.isSome then throw (.error (.repeated .emit))
    else match Emit.ofName? value with
      | some emit => return { state.use .emit with emit := some emit }
      | none => throw (.error (.invalidEmit value))
  | .files, values =>
    if values.any (·.isEmpty) then throw (.error (.missingValue .sourceFiles))
    else return { state.use .sourceFiles with files := state.files ++ values }

/-- Checks and stores the values that wait. -/
def settle (state : ReadState) : Except Stop ReadState :=
  match state.waiting with
  | none => pure state
  | some (target, values) => accept { state with waiting := none } target values

/-- The state after the waiting values were refused, as far as checking them got: a repeated
`--emit` is forgotten, a bad `--emit` value and a bad file name still count as read. -/
def ReadState.abandon (state : ReadState) : ReadState :=
  let cleared := { state with waiting := none }
  match state.waiting with
  | some (.emit, _ :: _) =>
    if state.emit.isSome then { cleared with used := state.used.filter (· != .emit) }
    else cleared.use .emit
  | some (.files, _) => cleared.use .sourceFiles
  | _ => cleared

/-- Reads the flag `--no-color`. -/
def readPlain (state : ReadState) : Except Stop ReadState := do
  let state ← settle state
  if state.plain then throw (.error (.repeated .noColor))
  return { state.use .noColor with plain := true, awaitingEmit := false }

/-- Reads a long option, written without its leading dashes, with its value after `=` if any. -/
def readLong (state : ReadState) (name : String) (value : Option String) : Except Stop ReadState :=
  match (longOptions.lookup name), value with
  | some .emit, some value => do
    let state ← settle state
    let state ← accept state .emit [value]
    return { state with awaitingEmit := false }
  | some .emit, none => do
    let state ← settle state
    return { state with waiting := some (.emit, []), awaitingEmit := true }
  | some .noColor, none => readPlain state
  | some .help, none => do let _ ← settle state; throw .help
  | some .version, none => do let _ ← settle state; throw .version
  | some argument, some value =>
    throw (.error (.unexpectedValue value argument (state.use argument).used
      (state.used.any (·.inGroup))))
  | _, _ =>
    let similar := (mostSimilar name (longOptions.map (·.1))).bind fun known => longOptions.lookup known
    let state := match settle state with
      | .ok settled => settled
      | .error _ => state.abandon
    let used := match similar with
      | some argument => (state.use argument).used
      | none => state.used
    throw (.error (.unknownLong ("--" ++ name) similar used))

/-- Reads grouped short options, the characters after a single dash. -/
def readShort (state : ReadState) : List Char → Except Stop ReadState
  | [] => pure { state with awaitingEmit := false }
  | 'h' :: _ => do let _ ← settle state; throw .help
  | 'V' :: _ => do let _ ← settle state; throw .version
  | c :: _ => throw (.error (.unknownShort (String.ofList ['-', c])))

/-- Reads a source file name: it joins the names that wait, or settles what waits and starts
a new row. -/
def readFile (state : ReadState) (name : String) : Except Stop ReadState :=
  match state.waiting with
  | some (.files, values) =>
    pure { state with waiting := some (.files, values ++ [name]), awaitingEmit := false }
  | _ => do
    let state ← settle state
    return { state with waiting := some (.files, [name]), awaitingEmit := false }

/-- Reads one argument. -/
def readArgument (state : ReadState) (argument : String) : Except Stop ReadState :=
  if state.trailing then readFile state argument
  else if argument == "--" then pure { state with trailing := true }
  else if argument.startsWith "--" then
    let body := (argument.drop 2).toString
    match body.splitOn "=" with
    | name :: rest@(_ :: _) => readLong state name (some ("=".intercalate rest))
    | _ => readLong state body none
  else if argument.startsWith "-" && argument != "-" then readShort state (argument.drop 1).toString.toList
  else if state.awaitingEmit then
    match state.waiting with
    | some (.emit, values) =>
      pure { state with waiting := some (.emit, values ++ [argument]), awaitingEmit := false }
    | _ => readFile state argument
  else readFile state argument

/-- Reads the command line. -/
def readArguments (arguments : List String) : Except Stop Options := do
  let state ← arguments.foldlM readArgument {}
  let state ← settle state
  if state.awaitingEmit && state.emit.isNone then throw (.error (.missingValue .emit))
  return { files := state.files, emit := state.emit.getD .lowered, plain := state.plain }

end ScriptLowering.Cli
