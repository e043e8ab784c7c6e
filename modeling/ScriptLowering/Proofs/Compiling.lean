import ScriptLowering.Proofs.ParsedTrees
import ScriptLowering.Proofs.Refinement
import ScriptLowering.Proofs.PassInvariant
import ScriptLowering.Compile

/-! # Compiling stops only on problems of the source

Compiling a source text never stops with an internal error. Every stage that could stop with one
is met with what it can take: the parser writes only trees the builder accepts
(`parseTree_buildable`), and on those the builder never stops (`File.build_total`), so analysis
always succeeds (`File.analyze_built`); resolving reports one problem per reference it leaves
unbound (`File.unbound_length`), so a source with no problem has every reference bound,
conversion gives a program (`Program.convert_bindLexically`) and the program is sound, which is
what lowering needs (`lower_sound`).

Main statement: `compile_never_internal`. Compiling either gives a compilation, when analysis
found no problem, or stops with exactly the problems analysis found: those of the parser, the
builder and the resolver, in that order.
-/

namespace ScriptLowering

namespace Hir

/-! ## One report per reference left unbound -/

theorem Reference.unknownIn_length (scopes : List Scope) (use : String) (reference : Reference) :
    (reference.unknownIn scopes use).length =
      ([reference].filter fun reference => (visibleBinding scopes reference.name).isNone).length := by
  unfold Reference.unknownIn
  split <;> simp_all

mutual

theorem Expression.unknownsIn_length (scopes : List Scope) (use : String) :
    (expression : Expression) → (expression.unknownsIn scopes use).length =
      (expression.references.filter fun reference => (visibleBinding scopes reference.name).isNone).length
  | .const .. => rfl
  | .get _ reference => Reference.unknownIn_length scopes use reference
  | .call _ receiver arguments => by
    simp only [Expression.unknownsIn, Expression.references, List.filter_append, List.length_append,
      Expression.unknownsIn_length scopes "call" receiver, Expression.argumentUnknownsIn_length scopes arguments]
  | .object _ entries => Expression.entryUnknownsIn_length scopes entries
  | .set _ target value => by
    simp only [Expression.unknownsIn, Expression.references, List.filter_append, List.length_append,
      Expression.unknownsIn_length scopes "reference" value, Reference.unknownIn_length]
  | .getProperty _ receiver _ => Expression.unknownsIn_length scopes "reference" receiver
  | .setProperty _ receiver _ value => by
    simp only [Expression.unknownsIn, Expression.references, List.filter_append, List.length_append,
      Expression.unknownsIn_length scopes "reference" receiver, Expression.unknownsIn_length scopes "reference" value]

theorem Expression.argumentUnknownsIn_length (scopes : List Scope) :
    (arguments : List (Option Expression)) → (Expression.argumentUnknownsIn scopes arguments).length =
      ((Expression.argumentReferences arguments).filter fun reference =>
        (visibleBinding scopes reference.name).isNone).length
  | [] => rfl
  | none :: rest => Expression.argumentUnknownsIn_length scopes rest
  | some argument :: rest => by
    simp only [Expression.argumentUnknownsIn, Expression.argumentReferences, List.filter_append,
      List.length_append, Expression.unknownsIn_length scopes "reference" argument,
      Expression.argumentUnknownsIn_length scopes rest]

theorem Expression.entryUnknownsIn_length (scopes : List Scope) :
    (entries : List (String × Expression)) → (Expression.entryUnknownsIn scopes entries).length =
      ((Expression.entryReferences entries).filter fun reference =>
        (visibleBinding scopes reference.name).isNone).length
  | [] => rfl
  | (_, value) :: rest => by
    simp only [Expression.entryUnknownsIn, Expression.entryReferences, List.filter_append,
      List.length_append, Expression.unknownsIn_length scopes "reference" value,
      Expression.entryUnknownsIn_length scopes rest]

end

/-- An expression bound in some scopes has one reference left unbound per report for it. -/
theorem Expression.unbound_bindIn (scopes : List Scope) (use : String) (expression : Expression) :
    ((expression.bindIn scopes).references.filter (·.candidate.isNone)).length =
      (expression.unknownsIn scopes use).length := by
  rw [Expression.references_bindIn, List.filter_map, List.length_map, Expression.unknownsIn_length]
  rfl

mutual

theorem Statement.unbound_bindIn (outer : List Scope) (here : Scope) :
    (statement : Statement) →
      ((statement.bindIn outer here).references.filter (·.candidate.isNone)).length =
        (statement.unknownsIn outer here).length
  | .function id name _ parameters _ _ body =>
    Statement.unbound_bindListIn (((name, .function id) :: here) :: outer) (parameterScope parameters) []
      body
  | .variable _ _ _ (some initializer) => Expression.unbound_bindIn (here :: outer) "reference" initializer
  | .variable _ _ _ none => rfl
  | .expression value => Expression.unbound_bindIn (here :: outer) "reference" value

theorem Statement.unbound_bindListIn (outer : List Scope) (base : Scope) :
    (before statements : List Statement) →
      ((Statement.listReferences (Statement.bindListIn outer base before statements)).filter
        (·.candidate.isNone)).length = (Statement.listUnknownsIn outer base before statements).length
  | _, [] => rfl
  | before, statement :: rest => by
    simp only [Statement.bindListIn, Statement.listReferences, Statement.listUnknownsIn, List.filter_append,
      List.length_append, Statement.unbound_bindIn outer _ statement,
      Statement.unbound_bindListIn outer base (before ++ [statement]) rest]

end

/-- Resolving reports one problem per reference of the file it leaves unbound. -/
theorem File.unbound_length (file : File) :
    (file.bindLexically.references.filter (·.candidate.isNone)).length = file.unknownNames.length :=
  Statement.unbound_bindListIn [] file.functionScope [] file.statements

/-- A file in which no name is unknown binds every reference. -/
theorem File.find?_unbound (file : File) (known : file.unknownNames = []) :
    file.bindLexically.references.find? (·.candidate.isNone) = none := by
  have none := file.unbound_length
  rw [known, List.length_nil, List.length_eq_zero_iff, List.filter_eq_nil_iff] at none
  exact List.find?_eq_none.mpr none

end Hir

/-- Analysis of every source text succeeds: the builder accepts the parsed tree, and the
resolver binds the built file lexically and adds one report per unknown name. -/
theorem Hir.File.analyze_built (source name : String) :
    ∃ file built, Hir.File.build source.toList name (Hir.parseTree source).1 (Hir.parseTree source).2 =
        .ok (file, built) ∧
      Hir.File.analyze source name = .ok (file.bindLexically, built ++ file.unknownNames) := by
  obtain ⟨buildable, isFile⟩ := parseTree_buildable source
  obtain ⟨file, built, builds⟩ :=
    Hir.File.build_total source.toList buildable isFile name (Hir.parseTree source).2
  refine ⟨file, built, builds, ?_⟩
  rw [← file.resolve_of_settled built (Hir.File.settled_of_fresh (Hir.File.build_fresh builds))]
  unfold Hir.File.analyze Hir.File.ofSource
  simp only [builds]
  rfl

section Driver

variable {source name : String} {file : Hir.File} {reports : Diagnostics}

/-- When analysis finds no problem, compiling gives the dumps of the converted and lowered
programs. -/
theorem compile_of_quiet (analyzed : Hir.File.analyze source name = .ok (file, reports))
    (quiet : reports.isEmpty) {program lowered : Mir.Program} (converted : Mir.Program.convert file = .ok program)
    (lowers : Lowering.lower program = .ok lowered) :
    compile source name = .ok { hir := file.dump, mir := program.dump, lowered := lowered.dump } := by
  simp only [compile, Mir.Program.ofSource, analyzed, Except.mapError, bind, Except.bind, quiet, Bool.not_true,
    Bool.false_eq_true, if_false, converted, lowers, pure, Except.pure]

/-- When analysis finds problems, compiling stops with them. -/
theorem compile_of_loud (analyzed : Hir.File.analyze source name = .ok (file, reports))
    (loud : ¬reports.isEmpty) : compile source name = .error (.source reports) := by
  simp only [compile, Mir.Program.ofSource, analyzed, Except.mapError, bind, Except.bind, loud, Bool.not_false,
    if_true, throw, throwThe, MonadExceptOf.throw]

end Driver

/-- Compiling never stops with an internal error. Analysis always gives a resolved file with the
problems of parsing, building and resolving; when there are none, compiling gives a
compilation, and otherwise it stops with exactly those problems. -/
theorem compile_never_internal (source name : String) :
    ∃ file reports, Hir.File.analyze source name = .ok (file, reports) ∧
      if reports.isEmpty then ∃ compilation, compile source name = .ok compilation
      else compile source name = .error (.source reports) := by
  obtain ⟨file, built, builds, analyzed⟩ := Hir.File.analyze_built source name
  refine ⟨_, _, analyzed, ?_⟩
  split
  · rename_i quiet
    -- no problem at all, so no unknown name: every reference is bound and conversion succeeds
    have known : file.unknownNames = [] := by
      have listed := congrArg Array.toList (Array.isEmpty_iff.mp quiet)
      simp only [Array.toList_appendList, List.append_eq_nil_iff] at listed
      exact listed.2
    have faithful := Mir.Program.convert_bindLexically file (Hir.File.build_identities_nodup builds)
    unfold Mir.ConvertsFaithfully at faithful
    rw [file.find?_unbound known] at faithful
    obtain ⟨program, _, converted, -⟩ := faithful
    obtain ⟨nodes, sound⟩ := Mir.Program.convert_sound converted
    obtain ⟨lowered, _, lowers, -⟩ := Lowering.lower_sound sound
    exact ⟨_, compile_of_quiet analyzed quiet converted lowers⟩
  · rename_i loud
    exact compile_of_loud analyzed loud

end ScriptLowering
