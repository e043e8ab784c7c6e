import ScriptLowering.Diagnostic.Basic
import ScriptLowering.Text.Lines
import ScriptLowering.Text.Terminal

/-! # Rendering diagnostics

A diagnostic is rendered against its source as a header `error: MESSAGE (ORIGIN:ROW:COLUMN)`,
then the line of its row after the row number and a bar, then a line of carets under the span.
The carets run from the start of the span to its end or to the end of its first line, whichever
comes first, and there is always at least one. A span of made-up code renders as the header
without a position, and a row with no line, such as the end of a text that ends in a line feed,
renders as the header alone. A backtrace, when present, comes first on a line of its own.

With colours on, `error` and the carets are bold red, the row number and the bars blue, and
the word `backtrace` blue with its text white.
-/

namespace ScriptLowering

namespace Diagnostic

/-- The row and column where a diagnostic's span starts; none for made-up code. -/
def location (source : List Char) (diagnostic : Diagnostic) : Option (Nat × Nat) :=
  match diagnostic.span with
  | .range start _ => some (Text.rowAt source start, Text.columnAt source start)
  | .synthetic => none

/-- The number of carets under a span starting at `start`: the characters up to the span's end
or the first line feed at or after its start, at least one. -/
def caretCount (source : List Char) (start stop : Nat) : Nat :=
  let size := Text.byteSize source
  let after := Text.dropBytes (min start size) source
  let lineEnd := if after.contains '\n' then start + Text.byteSize (after.takeWhile (· != '\n'))
    else size
  let underlineEnd := max (min stop lineEnd) start
  max 1 (Text.slice source (min start size) (min underlineEnd size)).length

/-- Whether both ends of a diagnostic's span, each counted as the end of the source when
past it, fall between characters, which rendering needs to cut the source there. -/
def onBoundaries (source : List Char) (diagnostic : Diagnostic) : Bool :=
  match diagnostic.span with
  | .range start stop =>
    let size := Text.byteSize source
    Text.isBoundary source (min start size) && Text.isBoundary source (min stop size)
  | .synthetic => true

/-- The rendering of one diagnostic of a source that comes from `origin`. -/
def render (source : List Char) (origin : String) (colored : Bool) (diagnostic : Diagnostic) :
    String :=
  let paint := Text.paintIf colored
  let backtrace := match diagnostic.backtrace with
    | some text =>
      let word := paint .blue "backtrace"
      let painted := paint .white text
      s!"{word}: {painted}\n"
    | none => ""
  let error := paint .boldRed "error"
  match diagnostic.span with
  | .synthetic => backtrace ++ s!"{error}: {diagnostic.message} ({origin})\n"
  | .range start stop =>
    let row := Text.rowAt source start
    let column := Text.columnAt source start
    let header := s!"{error}: {diagnostic.message} ({origin}:{row}:{column})\n"
    match Text.line? source row with
    | none => backtrace ++ header
    | some line =>
      let gutter := toString row
      let padding := String.ofList (List.replicate gutter.length ' ')
      let bar := paint .blue "|"
      let indent := String.ofList (List.replicate (column - 1) ' ')
      let carets := String.ofList (List.replicate (caretCount source start stop) '^')
      backtrace ++ header ++ s!"{paint .blue gutter} {bar} {String.ofList line}\n" ++
        s!"{padding} {bar} {indent}{paint .boldRed carets}\n"

end Diagnostic

/-- The rendering of all diagnostics of a source, in order. -/
def Diagnostics.render (source : List Char) (origin : String) (colored : Bool)
    (diagnostics : Diagnostics) : String :=
  String.join (diagnostics.toList.map (Diagnostic.render source origin colored))

/-- The rendering without colours, escape sequences or control characters other than line
feeds, also those that stand in the source lines. -/
def Diagnostics.renderPlain (source : List Char) (origin : String) (colored : Bool)
    (diagnostics : Diagnostics) : String :=
  Text.stripEscapes (diagnostics.render source origin colored)

/-- How a source given in memory is named in diagnostics. -/
def memoryOrigin (name : String) : String := s!"<memory:{name}>"

end ScriptLowering
