import ScriptLowering.Proofs.ReportSpans
import ScriptLowering.Proofs.ParseReports
import ScriptLowering.Proofs.Compiling
import ScriptLowering.Diagnostic.Render

/-! # Every diagnostic of a source renders

Analysing a source text reports at three kinds of places: the parser at a token, at a node it
made or at the end of the text; the builder at a node of the parsed tree; the resolver at a
reference, which the builder placed at a node. Every token and every node of the parsed tree
covers a stretch of the text whose ends fall between characters, and so does the end of the text
(`Span.PointsInto.cuts`).

Main statement: `analyze_diagnostics_render`. Every diagnostic that analysing any text gives has
such a span, so rendering it never cuts the text inside a character, and its plain rendering is
its header with the row and column where the span starts, followed by the line of that row and a
line of at least one caret exactly when the row has a line.
-/

namespace ScriptLowering

/-- The span of one of the text's tokens, of a node of its syntax arena, or the empty span at its
end. -/
def Span.PointsInto (text : String) (span : Span) : Prop :=
  (∃ token ∈ Token.scan text, span = token.span) ∨
    (∃ node ∈ (SyntaxArena.parse text).1.nodes.toList, span = node.span) ∨ span = .point text.utf8ByteSize

/-- A span that runs forward inside the text, both of its ends falling between characters. -/
def Span.Cuts (text : String) (span : Span) : Prop :=
  ∃ start stop, span = .range start stop ∧ start ≤ stop ∧ stop ≤ text.utf8ByteSize ∧
    Text.isBoundary text.toList start ∧ Text.isBoundary text.toList stop

/-- A tree unfolded from an arena has only spans of the arena's nodes. By induction on the fuel:
each level is a node read from the arena over children unfolded with less fuel. -/
theorem SyntaxArena.unfoldAt_spansWithin (arena : SyntaxArena) (fuel : Nat) :
    ∀ {index : Nat} {tree : SyntaxTree}, arena.unfoldAt fuel index = some tree →
      tree.SpansWithin fun span => ∃ node ∈ arena.nodes.toList, span = node.span := by
  induction fuel with
  | zero =>
    intro index tree unfolds
    cases unfolds
  | succ fuel ih =>
    intro index tree unfolds
    obtain ⟨node, found, children, childrenUnfold, rfl⟩ := unfoldAt_succ_eq_some.mp unfolds
    have member : node ∈ arena.nodes.toList := Array.mem_toList_iff.mpr (Array.mem_of_getElem? found)
    exact .node ⟨node, member, rfl⟩ (forall_mem_of_forall₂ (fun _ _ unfoldsChild => ih unfoldsChild)
      ((@mapM_eq_some_iff_forall₂ _ _ (arena.unfoldAt fuel) _ _).mp childrenUnfold))

/-- The parsed tree of a text is its syntax arena unfolded, and its diagnostics are the parser's. -/
theorem Hir.parseTree_eq (text : String) :
    Hir.parseTree text = ((SyntaxArena.parse text).1.toTree?.getD (.node .file (.range 0 text.utf8ByteSize) []),
      (SyntaxArena.parse text).2) := by
  unfold Hir.parseTree
  generalize SyntaxArena.parse text = parsed
  obtain ⟨arena, reports⟩ := parsed
  rfl

/-- Every node of the parsed tree of a text has the span of a node of its syntax arena. -/
theorem parseTree_spansWithin (text : String) : (Hir.parseTree text).1.SpansWithin (Span.PointsInto text) := by
  obtain ⟨-, tree, unfolds, -⟩ := SyntaxArena.parse_walk text
  have within := (SyntaxArena.parse text).1.unfoldAt_spansWithin _ unfolds
  rw [Hir.parseTree_eq, show (SyntaxArena.parse text).1.toTree? = some tree from unfolds, Option.getD_some]
  exact within.mono fun _ isNode => .inr (.inl isNode)

/-- Tokens, nodes and the end of a text all cut it between characters. -/
theorem Span.PointsInto.cuts {text : String} {span : Span} (points : span.PointsInto text) : span.Cuts text := by
  rcases points with ⟨token, member, rfl⟩ | ⟨node, member, rfl⟩ | rfl
  · exact (Span.fromTokens_token member).bounded
  · obtain ⟨index, found⟩ := List.getElem?_of_mem member
    rw [Array.getElem?_toList] at found
    exact (SyntaxArena.parse_nodeOver text index node found).bounded
  · have atEnd : Text.isBoundary text.toList text.utf8ByteSize = true := by
      rw [← Text.byteSize_toList]
      simpa using Token.isBoundary_byteSize text.toList []
    exact ⟨_, _, rfl, Nat.le_refl _, Nat.le_refl _, atEnd, atEnd⟩

/-- The plain rendering of a diagnostic over `source`, its span starting at `start`: its
backtrace line when it has one, its header with the row and column of `start`, and then, when
that row has a line, the line after the row number and a bar, and under it a bar and at least
one caret from the column of `start` on. -/
def Diagnostic.RendersPlain (source : List Char) (origin : String) (diagnostic : Diagnostic) (start : Nat) :
    Prop :=
  let backtrace := diagnostic.backtrace.elim "" fun text =>
    let word := "backtrace"
    s!"{word}: {text}\n"
  let error := "error"
  let row := Text.rowAt source start
  let column := Text.columnAt source start
  let header := s!"{error}: {diagnostic.message} ({origin}:{row}:{column})\n"
  (Text.line? source row = none → diagnostic.render source origin false = backtrace ++ header) ∧
    ∀ line, Text.line? source row = some line →
      let gutter := toString row
      let padding := String.ofList (List.replicate gutter.length ' ')
      let bar := "|"
      let indent := String.ofList (List.replicate (column - 1) ' ')
      ∃ count, 1 ≤ count ∧
        let carets := String.ofList (List.replicate count '^')
        diagnostic.render source origin false = backtrace ++ header ++
          s!"{gutter} {bar} {String.ofList line}\n" ++ s!"{padding} {bar} {indent}{carets}\n"

/-- A diagnostic over a range renders as its header, then the excerpt and carets when its row
has a line. -/
theorem Diagnostic.rendersPlain {source : List Char} (origin : String) {diagnostic : Diagnostic}
    {start stop : Nat} (span : diagnostic.span = .range start stop) :
    diagnostic.RendersPlain source origin start := by
  constructor
  · intro noLine
    cases backtrace : diagnostic.backtrace <;> simp [Diagnostic.render, span, noLine, backtrace, Text.paintIf]
  · intro line someLine
    refine ⟨caretCount source start stop, Nat.le_max_left _ _, ?_⟩
    cases backtrace : diagnostic.backtrace <;> simp [Diagnostic.render, span, someLine, backtrace, Text.paintIf]

/-- What rendering a diagnostic of `text` needs, and what it then writes: the span is a range
inside the text whose ends fall between characters, so the ends rendering cuts at, each counted
as the end of the text when past it, fall between characters; and the plain rendering from any
origin is as `Diagnostic.RendersPlain` lays out, for the start of the span. -/
structure Diagnostic.RendersOver (text : String) (diagnostic : Diagnostic) : Prop where
  cuts : diagnostic.span.Cuts text
  onBoundaries : diagnostic.onBoundaries text.toList = true
  renders : ∀ origin start stop, diagnostic.span = .range start stop →
    diagnostic.RendersPlain text.toList origin start

theorem Diagnostic.rendersOver_of_cuts {text : String} {diagnostic : Diagnostic} (cuts : diagnostic.span.Cuts text) :
    diagnostic.RendersOver text := by
  refine ⟨cuts, ?_, fun origin _ _ span => Diagnostic.rendersPlain origin span⟩
  obtain ⟨start, stop, span, forward, inside, startBoundary, stopBoundary⟩ := cuts
  rw [← Text.byteSize_toList] at inside
  have startInside : min start (Text.byteSize text.toList) = start := Nat.min_eq_left (Nat.le_trans forward inside)
  have stopInside : min stop (Text.byteSize text.toList) = stop := Nat.min_eq_left inside
  simp only [Diagnostic.onBoundaries, span, startInside, stopInside, startBoundary, stopBoundary, Bool.and_self]

/-- Every diagnostic that analysing a text gives renders: it points at a token, a node or the
end of the text, its span cuts the text between characters, and its plain rendering is its
header followed by the excerpt and carets exactly when the row where it starts has a line. The
parser's reports point so by `parse_reported`; the builder reports at nodes of the parsed tree
and makes references there; the resolver reports at references. -/
theorem analyze_diagnostics_render (text name : String) :
    ∃ file reports, Hir.File.analyze text name = .ok (file, reports) ∧
      ∀ diagnostic ∈ reports.toList, diagnostic.span.PointsInto text ∧ diagnostic.RendersOver text := by
  obtain ⟨file, built, builds, analyzed⟩ := Hir.File.analyze_built text name
  obtain ⟨builtWithin, referencesWithin⟩ :=
    Hir.File.build_within builds (by rw [Hir.parseTree_eq]; exact parse_reported text) (parseTree_spansWithin text)
  refine ⟨_, _, analyzed, fun diagnostic member => ?_⟩
  have points : diagnostic.span.PointsInto text := by
    rw [Array.toList_appendList, List.mem_append] at member
    rcases member with fromBuild | fromResolve
    · exact builtWithin diagnostic fromBuild
    · -- An unknown name is reported at the span of one of the file's references.
      have spanned := (file.unknownNames_spans.subset (List.mem_map_of_mem fromResolve))
      obtain ⟨reference, isReference, same⟩ := List.mem_map.mp spanned
      rw [← same]
      exact referencesWithin reference isReference
  exact ⟨points, Diagnostic.rendersOver_of_cuts points.cuts⟩

end ScriptLowering
