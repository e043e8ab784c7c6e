import ScriptLowering.Proofs.WellFormed
import ScriptLowering.Proofs.Refinement

/-! # Conversion gives a sound program

Whatever file it is given, conversion that succeeds gives a program the lowering passes can work
on (`Program.convert_sound`). Each step of conversion pushes nodes and never changes one, and
binds a declaration's symbol right after pushing the node that declares it; the symbols an
expression uses are those conversion has handed out when it meets the expression. Read backwards
from a successful run, the statements of the file build a forest of exactly the nodes they pushed
(`Built`), and every symbol handed out during that run is bound to the node that declares it
(`Grows`). The functions declared directly in the file get their symbols before the run and are
bound when their own statements are converted.
-/

namespace ScriptLowering.Mir

open Arena

/-- Conversion has handed the symbol out, to a declaration or to a built-in function. -/
def ConvertState.Gave (state : ConvertState) (symbol : Nat) : Prop :=
  ∃ declaration, state.symbolOf declaration = some symbol

/-- A stretch of conversion that keeps the ledger and the arena, keeps every symbol it knew, and
binds each declaration it gives a new symbol to a node it pushed, which declares that symbol. -/
structure Grows (before after : ConvertState) : Prop where
  ledger : after.Ledger
  keeps : before.arena.Keeps after.arena
  learns : ∀ declaration symbol, before.symbolOf declaration = some symbol →
    after.symbolOf declaration = some symbol
  bound : ∀ id symbol, after.symbols.lookup id = some symbol → before.symbols.lookup id = none →
    ∃ owner, (after.arena.symbol symbol).owner = some owner ∧ before.arena.nodeCount ≤ owner ∧
      owner < after.arena.nodeCount ∧ (after.arena.node owner).kind.symbol? = some symbol

namespace Grows

variable {first second third : ConvertState}

theorem gave (grows : Grows first second) {symbol : Nat} (gave : first.Gave symbol) : second.Gave symbol :=
  by
  obtain ⟨declaration, known⟩ := gave
  exact ⟨declaration, grows.learns declaration symbol known⟩

/-- A stretch that makes no new entry. -/
theorem of_converted (converted : Converted [] first second) : Grows first second where
  ledger := converted.ledger
  keeps := converted.keeps
  learns := converted.learns
  bound id _ found absent := by
    rcases converted.declaresOnly id (by simp [found]) with present | declared
    · simp [absent] at present
    · exact absurd declared List.not_mem_nil

theorem refl (ledger : first.Ledger) : Grows first first :=
  of_converted (Converted.refl ledger)

theorem trans (left : Grows first second) (right : Grows second third) : Grows first third where
  ledger := right.ledger
  keeps := left.keeps.trans right.keeps
  learns declaration symbol known := right.learns declaration symbol (left.learns declaration symbol known)
  bound id symbol found absent := by
    cases middle : second.symbols.lookup id with
    | none =>
      obtain ⟨owner, owned, above, below, declares⟩ := right.bound id symbol found middle
      exact ⟨owner, owned, Nat.le_trans left.keeps.nodeCount_le above, below, declares⟩
    | some earlier =>
      -- An entry of the first stretch stays, bound to the same node.
      have kept : third.symbols.lookup id = some earlier := right.learns (.function id) earlier middle
      rw [found, Option.some.injEq] at kept
      subst kept
      obtain ⟨owner, owned, above, below, declares⟩ := left.bound id symbol middle absent
      refine ⟨owner, right.keeps.owner symbol owner owned, above,
        Nat.lt_of_lt_of_le below right.keeps.nodeCount_le, ?_⟩
      rw [right.keeps.kind owner below]
      exact declares

end Grows

/-! ## Declaring and binding -/

section Steps

variable {state after : ConvertState}

/-- Declaring always succeeds: it finds the declaration's symbol or makes one, and pushes no
node. -/
theorem declareSymbol_run_eq_ok {id symbol : Nat} {kind : SymbolKind} (ledger : state.Ledger)
    (ran : (declareSymbol id kind).run state = .ok (symbol, after)) :
    Converted [id] state after ∧ after.symbols.lookup id = some symbol ∧
      after.arena.nodeCount = state.arena.nodeCount := by
  cases found : state.symbols.lookup id with
  | some existing =>
    rw [declareSymbol_run_of_lookup kind found] at ran
    cases ran
    exact ⟨(Converted.refl ledger).widen (by simp), found, rfl⟩
  | none =>
    rw [declareSymbol_run_of_absent kind found] at ran
    cases ran
    exact ⟨Converted.newSymbol kind ledger found, by simp, rfl⟩

/-- Binding succeeds only on an unbound symbol, and binds it. -/
theorem bindSymbol_run_eq_ok {symbol owner : Nat}
    (ran : (bindSymbol symbol owner).run state = .ok ((), after)) :
    (state.arena.symbol symbol).owner = none ∧
      after = { state with arena := { state.arena with
        symbols := state.arena.symbols.modify symbol ({ · with owner := some owner }) } } := by
  cases unbound : (state.arena.symbol symbol).owner with
  | none =>
    rw [bindSymbol_run owner unbound] at ran
    cases ran
    exact ⟨rfl, rfl⟩
  | some bound =>
    have fails : state.arena.bind symbol owner = .error (.symbolAlreadyBound symbol) := by
      simp [Arena.bind, unbound]
    simp [bindSymbol, fails] at ran

theorem referenceSymbol_run_eq_ok {reference : Hir.Reference} {symbol : Nat}
    (ran : (referenceSymbol reference).run state = .ok (symbol, after)) : after = state ∧ state.Gave symbol := by
  rw [referenceSymbol_run] at ran
  cases bound : reference.candidate with
  | none => simp [bound] at ran
  | some declaration =>
    cases found : state.symbolOf declaration with
    | none => simp [bound, found] at ran
    | some given =>
      simp only [bound, found, Except.ok.injEq, Prod.mk.injEq] at ran
      obtain ⟨rfl, rfl⟩ := ran
      exact ⟨rfl, declaration, found⟩

end Steps

/-! ## Expressions use symbols handed out

Conversion makes no new instance: those come from reifying functions only. -/

mutual

theorem convertExpression_run_eq_ok : (expression : Hir.Expression) → {state after : ConvertState} →
    {image : Expression} → (convertExpression expression).run state = .ok (image, after) →
    after = state ∧ (∀ symbol ∈ image.symbols, state.Gave symbol) ∧ image.instances = []
  | .const span value, state, after, image, ran => by
    rw [convertExpression] at ran
    obtain ⟨rfl, rfl⟩ := Hir.run_pure_eq_ok ran
    exact ⟨rfl, by simp [Expression.symbols], rfl⟩
  | .get span reference, state, after, image, ran => by
    rw [convertExpression] at ran
    obtain ⟨symbol, middle, referencing, finished⟩ := Hir.run_bind_eq_ok ran
    obtain ⟨rfl, rfl⟩ := Hir.run_pure_eq_ok finished
    obtain ⟨rfl, given⟩ := referenceSymbol_run_eq_ok referencing
    exact ⟨rfl, by simpa [Expression.symbols] using given, rfl⟩
  | .call span receiver arguments, state, after, image, ran => by
    rw [convertExpression] at ran
    obtain ⟨receiverImage, middle, receiving, rest⟩ := Hir.run_bind_eq_ok ran
    obtain ⟨argumentImages, last, arguing, finished⟩ := Hir.run_bind_eq_ok rest
    obtain ⟨rfl, rfl⟩ := Hir.run_pure_eq_ok finished
    obtain ⟨rfl, receiverGave, receiverPlain⟩ := convertExpression_run_eq_ok receiver receiving
    obtain ⟨rfl, argumentsGave, argumentsPlain⟩ := convertArguments_run_eq_ok arguments arguing
    refine ⟨rfl, fun symbol used => ?_, by simp [Expression.instances, receiverPlain, argumentsPlain]⟩
    rcases List.mem_append.mp used with inReceiver | inArguments
    · exact receiverGave symbol inReceiver
    · exact argumentsGave symbol inArguments
  | .object span entries, state, after, image, ran => by
    rw [convertExpression] at ran
    obtain ⟨entryImages, last, entering, finished⟩ := Hir.run_bind_eq_ok ran
    obtain ⟨rfl, rfl⟩ := Hir.run_pure_eq_ok finished
    exact convertEntries_run_eq_ok entries entering
  | .set span target value, state, after, image, ran => by
    rw [convertExpression] at ran
    obtain ⟨valueImage, middle, valuing, rest⟩ := Hir.run_bind_eq_ok ran
    obtain ⟨symbol, last, referencing, finished⟩ := Hir.run_bind_eq_ok rest
    obtain ⟨rfl, rfl⟩ := Hir.run_pure_eq_ok finished
    obtain ⟨rfl, valueGave, valuePlain⟩ := convertExpression_run_eq_ok value valuing
    obtain ⟨rfl, given⟩ := referenceSymbol_run_eq_ok referencing
    refine ⟨rfl, fun used member => ?_, valuePlain⟩
    rcases List.mem_cons.mp member with rfl | inValue
    · exact given
    · exact valueGave used inValue
  | .getProperty span receiver property, state, after, image, ran => by
    rw [convertExpression] at ran
    obtain ⟨receiverImage, middle, receiving, finished⟩ := Hir.run_bind_eq_ok ran
    obtain ⟨rfl, rfl⟩ := Hir.run_pure_eq_ok finished
    simpa [Expression.symbols, Expression.instances] using convertExpression_run_eq_ok receiver receiving
  | .setProperty span receiver property value, state, after, image, ran => by
    rw [convertExpression] at ran
    obtain ⟨receiverImage, middle, receiving, rest⟩ := Hir.run_bind_eq_ok ran
    obtain ⟨valueImage, last, valuing, finished⟩ := Hir.run_bind_eq_ok rest
    obtain ⟨rfl, rfl⟩ := Hir.run_pure_eq_ok finished
    obtain ⟨rfl, receiverGave, receiverPlain⟩ := convertExpression_run_eq_ok receiver receiving
    obtain ⟨rfl, valueGave, valuePlain⟩ := convertExpression_run_eq_ok value valuing
    refine ⟨rfl, fun symbol used => ?_, by simp [Expression.instances, receiverPlain, valuePlain]⟩
    rcases List.mem_append.mp used with inReceiver | inValue
    · exact receiverGave symbol inReceiver
    · exact valueGave symbol inValue

theorem convertArguments_run_eq_ok : (arguments : List (Option Hir.Expression)) → {state after : ConvertState} →
    {images : List (Option Expression)} → (convertArguments arguments).run state = .ok (images, after) →
    after = state ∧ (∀ symbol ∈ Expression.argumentSymbols images, state.Gave symbol) ∧
      Expression.argumentInstances images = []
  | [], state, after, images, ran => by
    rw [convertArguments] at ran
    obtain ⟨rfl, rfl⟩ := Hir.run_pure_eq_ok ran
    exact ⟨rfl, by simp [Expression.argumentSymbols], rfl⟩
  | none :: rest, state, after, images, ran => by
    rw [convertArguments] at ran
    obtain ⟨restImages, last, restRan, finished⟩ := Hir.run_bind_eq_ok ran
    obtain ⟨rfl, rfl⟩ := Hir.run_pure_eq_ok finished
    simpa [Expression.argumentSymbols, Expression.argumentInstances] using convertArguments_run_eq_ok rest restRan
  | some argument :: rest, state, after, images, ran => by
    rw [convertArguments] at ran
    obtain ⟨image, middle, converting, restStep⟩ := Hir.run_bind_eq_ok ran
    obtain ⟨restImages, last, restRan, finished⟩ := Hir.run_bind_eq_ok restStep
    obtain ⟨rfl, rfl⟩ := Hir.run_pure_eq_ok finished
    obtain ⟨rfl, argumentGave, argumentPlain⟩ := convertExpression_run_eq_ok argument converting
    obtain ⟨rfl, restGave, restPlain⟩ := convertArguments_run_eq_ok rest restRan
    refine ⟨rfl, fun symbol used => ?_, by simp [Expression.argumentInstances, argumentPlain, restPlain]⟩
    rcases List.mem_append.mp used with inArgument | inRest
    · exact argumentGave symbol inArgument
    · exact restGave symbol inRest

theorem convertEntries_run_eq_ok : (entries : List (String × Hir.Expression)) → {state after : ConvertState} →
    {images : List (String × Expression)} → (convertEntries entries).run state = .ok (images, after) →
    after = state ∧ (∀ symbol ∈ Expression.entrySymbols images, state.Gave symbol) ∧
      Expression.entryInstances images = []
  | [], state, after, images, ran => by
    rw [convertEntries] at ran
    obtain ⟨rfl, rfl⟩ := Hir.run_pure_eq_ok ran
    exact ⟨rfl, by simp [Expression.entrySymbols], rfl⟩
  | (key, value) :: rest, state, after, images, ran => by
    rw [convertEntries] at ran
    obtain ⟨image, middle, converting, restStep⟩ := Hir.run_bind_eq_ok ran
    obtain ⟨restImages, last, restRan, finished⟩ := Hir.run_bind_eq_ok restStep
    obtain ⟨rfl, rfl⟩ := Hir.run_pure_eq_ok finished
    obtain ⟨rfl, valueGave, valuePlain⟩ := convertExpression_run_eq_ok value converting
    obtain ⟨rfl, restGave, restPlain⟩ := convertEntries_run_eq_ok rest restRan
    refine ⟨rfl, fun symbol used => ?_, by simp [Expression.entryInstances, valuePlain, restPlain]⟩
    rcases List.mem_append.mp used with inValue | inRest
    · exact valueGave symbol inValue
    · exact restGave symbol inRest

end

/-! ## What a stretch of conversion builds -/

/-- Conversion from `before` to `after` pushed exactly the nodes `nodes`; each declaration among
them owns its symbol, each symbol an expression among them uses has been handed out, none of them
is a file or class, and each function among them is one written in the source. -/
structure Built (before after : ConvertState) (nodes : List Nat) : Prop where
  grows : Grows before after
  pushed : ∀ node, node ∈ nodes ↔ before.arena.nodeCount ≤ node ∧ node < after.arena.nodeCount
  owns : ∀ node ∈ nodes, after.arena.Owns node
  known : ∀ node ∈ nodes, ∀ symbol ∈ (after.arena.node node).kind.uses, after.Gave symbol
  plain : ∀ node ∈ nodes, (after.arena.node node).kind.instances = []
  notContainer : ∀ node ∈ nodes, (after.arena.node node).kind.isClassContainer = false
  source : ∀ node ∈ nodes, ∀ declared, (after.arena.node node).kind = .function declared → declared.origin = .source

namespace Built

variable {first second third after : ConvertState} {nodes others : List Nat}

theorem refl (ledger : first.Ledger) : Built first first [] where
  grows := .refl ledger
  pushed node := by simp
  owns _ member := absurd member List.not_mem_nil
  known _ member := absurd member List.not_mem_nil
  plain _ member := absurd member List.not_mem_nil
  notContainer _ member := absurd member List.not_mem_nil
  source _ member := absurd member List.not_mem_nil

theorem lt_nodeCount (built : Built first second nodes) {node : Nat} (member : node ∈ nodes) :
    node < second.arena.nodeCount :=
  ((built.pushed node).mp member).2

theorem congr (built : Built first second nodes) (same : ∀ node, node ∈ nodes ↔ node ∈ others) :
    Built first second others where
  grows := built.grows
  pushed node := (same node).symm.trans (built.pushed node)
  owns node member := built.owns node ((same node).mpr member)
  known node member := built.known node ((same node).mpr member)
  plain node member := built.plain node ((same node).mpr member)
  notContainer node member := built.notContainer node ((same node).mpr member)
  source node member := built.source node ((same node).mpr member)

theorem trans (left : Built first second nodes) (right : Built second third others) :
    Built first third (nodes ++ others) where
  grows := left.grows.trans right.grows
  pushed node := by
    rw [List.mem_append, left.pushed node, right.pushed node]
    have := left.grows.keeps.nodeCount_le
    have := right.grows.keeps.nodeCount_le
    omega
  owns node member := by
    rcases List.mem_append.mp member with inNodes | inOthers
    · exact right.grows.keeps.owns (left.owns node inNodes) (left.lt_nodeCount inNodes)
    · exact right.owns node inOthers
  known node member symbol used := by
    rcases List.mem_append.mp member with inNodes | inOthers
    · rw [right.grows.keeps.kind node (left.lt_nodeCount inNodes)] at used
      exact right.grows.gave (left.known node inNodes symbol used)
    · exact right.known node inOthers symbol used
  plain node member := by
    rcases List.mem_append.mp member with inNodes | inOthers
    · rw [right.grows.keeps.kind node (left.lt_nodeCount inNodes)]
      exact left.plain node inNodes
    · exact right.plain node inOthers
  notContainer node member := by
    rcases List.mem_append.mp member with inNodes | inOthers
    · rw [right.grows.keeps.kind node (left.lt_nodeCount inNodes)]
      exact left.notContainer node inNodes
    · exact right.notContainer node inOthers
  source node member := by
    rcases List.mem_append.mp member with inNodes | inOthers
    · rw [right.grows.keeps.kind node (left.lt_nodeCount inNodes)]
      exact left.source node inNodes
    · exact right.source node inOthers

/-- A node that declares nothing, pushed over the forest of its children built before it. -/
theorem push (built : Built first second nodes) (kind : NodeKind) (span : Span) (plain : kind.symbol? = none)
    (known : ∀ symbol ∈ kind.uses, second.Gave symbol) (noInstance : kind.instances = [])
    (notContainer : kind.isClassContainer = false) (notFunction : ∀ declared, kind ≠ .function declared)
    (forest : second.arena.Forest kind.children nodes) :
    Built first { second with arena := (second.arena.push kind span).1 } (second.arena.nodeCount :: nodes) ∧
      (second.arena.push kind span).1.Tree second.arena.nodeCount (second.arena.nodeCount :: nodes) := by
  have pushedKind : ((second.arena.push kind span).1.node second.arena.nodeCount).kind = kind := by
    simp [node_push]
  have single : Built second { second with arena := (second.arena.push kind span).1 }
      [second.arena.nodeCount] := by
    refine ⟨.of_converted (Converted.push built.grows.ledger kind span), fun node => ?_, ?_, ?_, ?_, ?_, ?_⟩
    · simp only [List.mem_singleton, nodeCount_push]
      omega
    · intro node member symbol declared
      rw [List.mem_singleton.mp member, pushedKind, plain] at declared
      cases declared
    · intro node member symbol used
      rw [List.mem_singleton.mp member, pushedKind] at used
      exact known symbol used
    · intro node member
      rw [List.mem_singleton.mp member, pushedKind]
      exact noInstance
    · intro node member
      rw [List.mem_singleton.mp member, pushedKind]
      exact notContainer
    · intro node member declared isFunction
      rw [List.mem_singleton.mp member, pushedKind] at isFunction
      exact absurd isFunction (notFunction declared)
  refine ⟨(built.trans single).congr fun node => by simp [or_comm], ?_⟩
  exact (second.arena.keeps_push kind span).tree_over (by rw [Arena.children, pushedKind]; exact forest)
    (by simp) (Nat.le_refl _)

end Built

/-- Conversion of a declaration: its symbol is declared first, then its children are built, then the
node that declares the symbol is pushed and bound to it. Every entry made meanwhile is bound. -/
theorem Grows.declaration {id symbol : Nat} {kind : NodeKind} {span : Span}
    {first second third after : ConvertState}
    (declaring : Converted [id] first second) (sameCount : second.arena.nodeCount = first.arena.nodeCount)
    (found : second.symbols.lookup id = some symbol) (children : Grows second third)
    (declares : kind.symbol? = some symbol)
    (binds : (bindSymbol symbol third.arena.nodeCount).run
      { third with arena := (third.arena.push kind span).1 } = .ok ((), after)) :
    Grows first after ∧ Grows third after ∧ (after.arena.symbol symbol).owner = some third.arena.nodeCount ∧
      after.arena.node third.arena.nodeCount = { kind, span } ∧
      after.arena.nodeCount = third.arena.nodeCount + 1 := by
  obtain ⟨unbound, rfl⟩ := bindSymbol_run_eq_ok binds
  have stillFound : third.symbols.lookup id = some symbol := children.learns (.function id) symbol found
  have present : symbol < (third.arena.push kind span).1.symbolCount := by
    simpa using (children.ledger.range id symbol stillFound).2
  have bindKeeps := (third.arena.push kind span).1.keeps_bind
    (Arena.bind_of_unbound _ third.arena.nodeCount unbound)
  have toBound := (third.arena.keeps_push kind span).trans bindKeeps
  have owned : ({ (third.arena.push kind span).1 with
      symbols := (third.arena.push kind span).1.symbols.modify symbol
        ({ · with owner := some third.arena.nodeCount }) } : Arena).symbol symbol =
      { (third.arena.push kind span).1.symbol symbol with owner := some third.arena.nodeCount } := by
    rw [symbol_modify_owner _ _ _ _ present, if_pos rfl]
  have pushedNode : (third.arena.push kind span).1.node third.arena.nodeCount = { kind, span } := by
    rw [node_push, if_pos rfl]
  have count : (third.arena.push kind span).1.nodeCount = third.arena.nodeCount + 1 := by simp
  have ledger : ConvertState.Ledger { third with arena := { (third.arena.push kind span).1 with
      symbols := (third.arena.push kind span).1.symbols.modify symbol
        ({ · with owner := some third.arena.nodeCount }) } } :=
    children.ledger.transfer rfl rfl (by simp [Arena.symbolCount, Arena.push])
  refine ⟨⟨ledger, declaring.keeps.trans (children.keeps.trans toBound),
    fun declaration known found => children.learns _ _ (declaring.learns declaration known found), ?_⟩,
    ⟨ledger, toBound, fun _ _ known => known, fun _ _ found absent => by rw [absent] at found; cases found⟩,
    by simp only [owned], pushedNode, count⟩
  · intro other otherSymbol otherFound absent
    by_cases same : other = id
    · subst same
      have : otherSymbol = symbol := by
        rw [stillFound] at otherFound
        exact (Option.some.inj otherFound).symm
      subst this
      refine ⟨third.arena.nodeCount, by simp only [owned], ?_, ?_, ?_⟩
      · rw [← sameCount]
        exact children.keeps.nodeCount_le
      · show third.arena.nodeCount < (third.arena.push kind span).1.nodeCount
        omega
      · show ((third.arena.push kind span).1.node third.arena.nodeCount).kind.symbol? = some otherSymbol
        rw [pushedNode]
        exact declares
    · -- Any other new entry was made while the children were converted.
      have secondAbsent : second.symbols.lookup other = none := by
        cases declared : second.symbols.lookup other with
        | none => rfl
        | some _ =>
          rcases declaring.declaresOnly other (by simp [declared]) with earlier | inDeclared
          · simp [absent] at earlier
          · exact absurd (List.mem_singleton.mp inDeclared) same
      obtain ⟨owner, ownerBound, above, below, ownerDeclares⟩ :=
        children.bound other otherSymbol otherFound secondAbsent
      refine ⟨owner, toBound.owner _ _ ownerBound, sameCount ▸ above, ?_, ?_⟩
      · show owner < (third.arena.push kind span).1.nodeCount
        omega
      · rw [toBound.kind owner below]
        exact ownerDeclares

/-- A declaration node pushed over the forest of its children and bound to the symbol declared
before them. -/
theorem Built.declaration {id symbol : Nat} {kind : NodeKind} {span : Span}
    {first second third after : ConvertState} {nodes : List Nat}
    (declaring : Converted [id] first second) (sameCount : second.arena.nodeCount = first.arena.nodeCount)
    (found : second.symbols.lookup id = some symbol) (children : Built second third nodes)
    (binds : (bindSymbol symbol third.arena.nodeCount).run
      { third with arena := (third.arena.push kind span).1 } = .ok ((), after))
    (forest : third.arena.Forest kind.children nodes) (declares : kind.symbol? = some symbol)
    (known : ∀ used ∈ kind.uses, third.Gave used) (noInstance : kind.instances = [])
    (notContainer : kind.isClassContainer = false)
    (source : ∀ declared, kind = .function declared → declared.origin = .source) :
    Built first after (third.arena.nodeCount :: nodes) ∧
      after.arena.Tree third.arena.nodeCount (third.arena.nodeCount :: nodes) ∧
      after.symbols.lookup id = some symbol ∧ (after.arena.node third.arena.nodeCount).kind = kind := by
  obtain ⟨grows, last, owned, pushedNode, count⟩ :=
    Grows.declaration declaring sameCount found children.grows declares binds
  refine ⟨⟨grows, fun node => ?_, ?_, ?_, ?_, ?_, ?_⟩, ?_, last.learns (.function id) symbol
    (children.grows.learns (.function id) symbol found), by rw [pushedNode]⟩
  · rw [List.mem_cons, children.pushed node, count, ← sameCount]
    have := children.grows.keeps.nodeCount_le
    omega
  · intro node member
    rcases List.mem_cons.mp member with rfl | inNodes
    · intro declared isDeclared
      rw [pushedNode, declares, Option.some.injEq] at isDeclared
      rw [← isDeclared]
      exact owned
    · exact last.keeps.owns (children.owns node inNodes) (children.lt_nodeCount inNodes)
  · intro node member used isUsed
    rcases List.mem_cons.mp member with rfl | inNodes
    · rw [pushedNode] at isUsed
      exact last.gave (known used isUsed)
    · rw [last.keeps.kind node (children.lt_nodeCount inNodes)] at isUsed
      exact last.gave (children.known node inNodes used isUsed)
  · intro node member
    rcases List.mem_cons.mp member with rfl | inNodes
    · rw [pushedNode]
      exact noInstance
    · rw [last.keeps.kind node (children.lt_nodeCount inNodes)]
      exact children.plain node inNodes
  · intro node member
    rcases List.mem_cons.mp member with rfl | inNodes
    · rw [pushedNode]
      exact notContainer
    · rw [last.keeps.kind node (children.lt_nodeCount inNodes)]
      exact children.notContainer node inNodes
  · intro node member
    rcases List.mem_cons.mp member with rfl | inNodes
    · rw [pushedNode]
      exact source
    · rw [last.keeps.kind node (children.lt_nodeCount inNodes)]
      exact children.source node inNodes
  · exact last.keeps.tree_over (by rw [Arena.children, pushedNode]; exact forest) (by omega) (Nat.le_refl _)

/-! ## Statements build trees -/

theorem convertParameter_built {parameter : Hir.Parameter} {state after : ConvertState} {node : Nat}
    (ledger : state.Ledger) (ran : (convertParameter parameter).run state = .ok (node, after)) :
    Built state after [node] ∧ after.arena.Tree node [node] := by
  rw [convertParameter] at ran
  obtain ⟨symbol, declared, declaring, afterDeclaring⟩ := Hir.run_bind_eq_ok ran
  obtain ⟨declaredConverted, found, sameCount⟩ := declareSymbol_run_eq_ok ledger declaring
  obtain ⟨pushedNode, pushed, pushing, afterPushing⟩ := Hir.run_bind_eq_ok afterDeclaring
  rw [pushNode_run] at pushing
  cases pushing
  obtain ⟨_, bound, binding, finished⟩ := Hir.run_bind_eq_ok afterPushing
  obtain ⟨rfl, rfl⟩ := Hir.run_pure_eq_ok finished
  obtain ⟨built, tree, _⟩ := Built.declaration declaredConverted sameCount found
    (.refl declaredConverted.ledger) binding .nil rfl (by simp [NodeKind.uses]) rfl rfl
    fun _ isFunction => by cases isFunction
  exact ⟨built, tree⟩

theorem mapM_convertParameter_built : (parameters : List Hir.Parameter) → {state after : ConvertState} →
    {nodes : List Nat} → state.Ledger → (parameters.mapM convertParameter).run state = .ok (nodes, after) →
    Built state after nodes ∧ after.arena.Forest nodes nodes
  | [], state, after, nodes, ledger, ran => by
    rw [List.mapM_nil] at ran
    obtain ⟨rfl, rfl⟩ := Hir.run_pure_eq_ok ran
    exact ⟨.refl ledger, .nil⟩
  | parameter :: rest, state, after, nodes, ledger, ran => by
    rw [List.mapM_cons] at ran
    obtain ⟨node, middle, converting, afterFirst⟩ := Hir.run_bind_eq_ok ran
    obtain ⟨restNodes, last, restRan, finished⟩ := Hir.run_bind_eq_ok afterFirst
    obtain ⟨rfl, rfl⟩ := Hir.run_pure_eq_ok finished
    obtain ⟨firstBuilt, firstTree⟩ := convertParameter_built ledger converting
    obtain ⟨restBuilt, restForest⟩ := mapM_convertParameter_built rest firstBuilt.grows.ledger restRan
    refine ⟨firstBuilt.trans restBuilt, .cons (restBuilt.grows.keeps.tree firstTree) restForest ?_⟩
    intro first inFirst inRest
    have older := firstBuilt.lt_nodeCount inFirst
    have newer := ((restBuilt.pushed first).mp inRest).1
    omega

mutual

theorem convertStatement_built : (statement : Hir.Statement) → {state after : ConvertState} → {node : Nat} →
    state.Ledger → (convertStatement statement).run state = .ok (node, after) →
    ∃ nodes, Built state after nodes ∧ after.arena.Tree node nodes ∧
      ∀ binding ∈ statement.binding?, ∃ symbol, after.symbolOf binding.2 = some symbol ∧
        (after.arena.node node).kind.symbol? = some symbol
  | .function id name span parameters bodyId bodySpan body, state, after, node, ledger, ran => by
    rw [convertStatement] at ran
    obtain ⟨symbol, declared, declaring, afterDeclaring⟩ := Hir.run_bind_eq_ok ran
    obtain ⟨declaredConverted, found, sameCount⟩ := declareSymbol_run_eq_ok ledger declaring
    obtain ⟨parameterNodes, withParameters, parametersRan, afterParameters⟩ := Hir.run_bind_eq_ok afterDeclaring
    obtain ⟨parametersBuilt, parametersForest⟩ :=
      mapM_convertParameter_built parameters declaredConverted.ledger parametersRan
    obtain ⟨statementNodes, withBody, statementsRan, afterStatements⟩ := Hir.run_bind_eq_ok afterParameters
    obtain ⟨bodyNodes, bodyBuilt, bodyForest, _⟩ :=
      convertStatements_built body parametersBuilt.grows.ledger statementsRan
    obtain ⟨bodyNode, bodyPushed, bodyPushing, afterBody⟩ := Hir.run_bind_eq_ok afterStatements
    rw [pushNode_run] at bodyPushing
    cases bodyPushing
    obtain ⟨functionNode, functionPushed, functionPushing, afterFunction⟩ := Hir.run_bind_eq_ok afterBody
    rw [pushNode_run] at functionPushing
    cases functionPushing
    obtain ⟨_, bound, binding, finished⟩ := Hir.run_bind_eq_ok afterFunction
    obtain ⟨rfl, rfl⟩ := Hir.run_pure_eq_ok finished
    obtain ⟨withBodyBuilt, bodyTree⟩ := bodyBuilt.push (.body statementNodes) bodySpan rfl
      (by simp [NodeKind.uses]) rfl rfl (fun _ isFunction => by cases isFunction) bodyForest
    -- The function's children are its parameters, then its body.
    have childrenForest := Forest.append (Forest.single bodyTree)
      ((bodyBuilt.grows.keeps.trans (withBody.arena.keeps_push _ _)).forest parametersForest)
      fun parameter inParameters inBody => by
        have older := parametersBuilt.lt_nodeCount inParameters
        have newer := ((withBodyBuilt.pushed parameter).mp inBody).1
        omega
    obtain ⟨built, tree, stillFound, functionKind⟩ := Built.declaration declaredConverted sameCount found
      (parametersBuilt.trans withBodyBuilt) binding childrenForest rfl (by simp [NodeKind.uses]) rfl rfl
      fun _ isFunction => by cases isFunction; rfl
    refine ⟨_, built, tree, fun binding isBinding => ⟨symbol, ?_, by rw [functionKind]; rfl⟩⟩
    simp only [Hir.Statement.binding?, Option.mem_def, Option.some.injEq] at isBinding
    subst isBinding
    exact stillFound
  | .variable id name span (some initializer), state, after, node, ledger, ran => by
    rw [convertStatement] at ran
    obtain ⟨symbol, declared, declaring, afterDeclaring⟩ := Hir.run_bind_eq_ok ran
    obtain ⟨declaredConverted, found, sameCount⟩ := declareSymbol_run_eq_ok ledger declaring
    obtain ⟨value, valued, valuing, afterValue⟩ := Hir.run_bind_eq_ok afterDeclaring
    obtain ⟨image, converting, rfl⟩ := Hir.run_map_eq_ok valuing
    obtain ⟨rfl, imageGave, imagePlain⟩ := convertExpression_run_eq_ok initializer converting
    obtain ⟨pushedNode, pushed, pushing, afterPushing⟩ := Hir.run_bind_eq_ok afterValue
    rw [pushNode_run] at pushing
    cases pushing
    obtain ⟨_, bound, binding, finished⟩ := Hir.run_bind_eq_ok afterPushing
    obtain ⟨rfl, rfl⟩ := Hir.run_pure_eq_ok finished
    obtain ⟨built, tree, stillFound, variableKind⟩ := Built.declaration declaredConverted sameCount found
      (.refl declaredConverted.ledger) binding .nil rfl imageGave imagePlain rfl fun _ isFunction => by cases isFunction
    refine ⟨_, built, tree, fun binding isBinding => ⟨symbol, ?_, by rw [variableKind]; rfl⟩⟩
    simp only [Hir.Statement.binding?, Option.mem_def, Option.some.injEq] at isBinding
    subst isBinding
    exact stillFound
  | .variable id name span none, state, after, node, ledger, ran => by
    rw [convertStatement] at ran
    obtain ⟨symbol, declared, declaring, afterDeclaring⟩ := Hir.run_bind_eq_ok ran
    obtain ⟨declaredConverted, found, sameCount⟩ := declareSymbol_run_eq_ok ledger declaring
    obtain ⟨value, valued, valuing, afterValue⟩ := Hir.run_bind_eq_ok afterDeclaring
    obtain ⟨rfl, rfl⟩ := Hir.run_pure_eq_ok valuing
    obtain ⟨pushedNode, pushed, pushing, afterPushing⟩ := Hir.run_bind_eq_ok afterValue
    rw [pushNode_run] at pushing
    cases pushing
    obtain ⟨_, bound, binding, finished⟩ := Hir.run_bind_eq_ok afterPushing
    obtain ⟨rfl, rfl⟩ := Hir.run_pure_eq_ok finished
    obtain ⟨built, tree, stillFound, variableKind⟩ := Built.declaration declaredConverted sameCount found
      (.refl declaredConverted.ledger) binding .nil rfl (by simp [NodeKind.uses]) rfl rfl
      fun _ isFunction => by cases isFunction
    refine ⟨_, built, tree, fun binding isBinding => ⟨symbol, ?_, by rw [variableKind]; rfl⟩⟩
    simp only [Hir.Statement.binding?, Option.mem_def, Option.some.injEq] at isBinding
    subst isBinding
    exact stillFound
  | .expression value, state, after, node, ledger, ran => by
    rw [convertStatement] at ran
    obtain ⟨image, valued, converting, pushing⟩ := Hir.run_bind_eq_ok ran
    obtain ⟨rfl, imageGave, imagePlain⟩ := convertExpression_run_eq_ok value converting
    rw [pushNode_run] at pushing
    cases pushing
    obtain ⟨built, tree⟩ := (Built.refl ledger).push (.expression image) image.span rfl imageGave imagePlain rfl
      (fun _ isFunction => by cases isFunction) .nil
    exact ⟨_, built, tree, fun binding isBinding => by simp [Hir.Statement.binding?] at isBinding⟩

theorem convertStatements_built : (statements : List Hir.Statement) → {state after : ConvertState} →
    {roots : List Nat} → state.Ledger → (convertStatements statements).run state = .ok (roots, after) →
    ∃ nodes, Built state after nodes ∧ after.arena.Forest roots nodes ∧
      ∀ statement ∈ statements, ∀ binding ∈ statement.binding?, ∃ node ∈ nodes, ∃ symbol,
        after.symbolOf binding.2 = some symbol ∧ (after.arena.node node).kind.symbol? = some symbol
  | [], state, after, roots, ledger, ran => by
    rw [convertStatements] at ran
    obtain ⟨rfl, rfl⟩ := Hir.run_pure_eq_ok ran
    exact ⟨[], .refl ledger, .nil, fun _ member => absurd member List.not_mem_nil⟩
  | statement :: rest, state, after, roots, ledger, ran => by
    rw [convertStatements] at ran
    obtain ⟨node, middle, converting, afterFirst⟩ := Hir.run_bind_eq_ok ran
    obtain ⟨restRoots, last, restRan, finished⟩ := Hir.run_bind_eq_ok afterFirst
    obtain ⟨rfl, rfl⟩ := Hir.run_pure_eq_ok finished
    obtain ⟨first, firstBuilt, firstTree, firstBinds⟩ := convertStatement_built statement ledger converting
    obtain ⟨others, restBuilt, restForest, restBinds⟩ :=
      convertStatements_built rest firstBuilt.grows.ledger restRan
    refine ⟨first ++ others, firstBuilt.trans restBuilt,
      .cons (restBuilt.grows.keeps.tree firstTree) restForest ?_, ?_⟩
    · intro earlier inFirst inOthers
      have older := firstBuilt.lt_nodeCount inFirst
      have newer := ((restBuilt.pushed earlier).mp inOthers).1
      omega
    · intro declared member binding isBinding
      rcases List.mem_cons.mp member with rfl | later
      · obtain ⟨symbol, known, declares⟩ := firstBinds binding isBinding
        refine ⟨node, List.mem_append_left _ firstTree.mem_self, symbol, restBuilt.grows.learns _ _ known, ?_⟩
        rw [restBuilt.grows.keeps.kind node firstTree.present]
        exact declares
      · obtain ⟨found, inOthers, symbol, known, declares⟩ := restBinds declared later binding isBinding
        exact ⟨found, List.mem_append_right _ inOthers, symbol, known, declares⟩

end

/-! ## The whole file -/

theorem declareFunctions_run_eq_ok : (declarations : List (Nat × String)) → {state after : ConvertState} →
    state.Ledger → (forIn declarations PUnit.unit fun declaration _ => do
        let _ ← declareSymbol declaration.1 .function
        pure (ForInStep.yield PUnit.unit) : ConvertM PUnit).run state = .ok (PUnit.unit, after) →
    Converted (declarations.map (·.1)) state after ∧ after.arena.nodeCount = state.arena.nodeCount
  | [], state, after, ledger, ran => by
    rw [List.forIn_nil] at ran
    obtain ⟨-, rfl⟩ := Hir.run_pure_eq_ok ran
    exact ⟨Converted.refl ledger, rfl⟩
  | declaration :: rest, state, after, ledger, ran => by
    rw [List.forIn_cons] at ran
    obtain ⟨step, middle, stepped, continued⟩ := Hir.run_bind_eq_ok ran
    obtain ⟨symbol, declared, declaring, yielded⟩ := Hir.run_bind_eq_ok stepped
    obtain ⟨rfl, rfl⟩ := Hir.run_pure_eq_ok yielded
    obtain ⟨declaredConverted, _, sameCount⟩ := declareSymbol_run_eq_ok ledger declaring
    obtain ⟨restConverted, restCount⟩ := declareFunctions_run_eq_ok rest declaredConverted.ledger continued
    exact ⟨(declaredConverted.trans restConverted).widen (by simp), restCount.trans sameCount⟩

theorem Hir.File.binding_of_functionDeclarations {file : Hir.File} {id : Nat} {name : String}
    (member : (id, name) ∈ file.functionDeclarations) :
    ∃ statement ∈ file.statements, statement.binding? = some (name, .function id) := by
  simp only [Hir.File.functionDeclarations, List.mem_filterMap] at member
  obtain ⟨statement, inFile, declares⟩ := member
  refine ⟨statement, inFile, ?_⟩
  cases statement with
  | «function» =>
    simp only [Option.some.injEq, Prod.mk.injEq] at declares
    obtain ⟨rfl, rfl⟩ := declares
    rfl
  | «variable» => cases declares
  | expression => cases declares

/-- Converting the file after the built-in functions gives a sound program: the nodes reached from
its file are those the statements pushed and the file itself. Below the file there is no file or
class, and every function is one written in the source. -/
theorem convertRoot_sound {file : Hir.File} {root : Nat} {after : ConvertState}
    (ran : (convertRoot file).run builtinState = .ok (root, after)) :
    ∃ nodes, (∀ builtins, Program.Sound ⟨after.arena, root, 3, builtins⟩ nodes) ∧
      ∀ node ∈ nodes, node ≠ root → (after.arena.node node).kind.isClassContainer = false ∧
        ∀ declared, (after.arena.node node).kind = .function declared → declared.origin = .source := by
  rw [convertRoot] at ran
  obtain ⟨_, declared, declaring, afterDeclaring⟩ := Hir.run_bind_eq_ok ran
  obtain ⟨declaredConverted, declaredCount⟩ := declareFunctions_run_eq_ok _ ledger_builtinState declaring
  obtain ⟨roots, converted, converting, afterStatements⟩ := Hir.run_bind_eq_ok afterDeclaring
  obtain ⟨nodes, built, forest, topLevel⟩ :=
    convertStatements_built file.statements declaredConverted.ledger converting
  obtain ⟨_, pushed, pushing, afterPush⟩ := Hir.run_bind_eq_ok afterStatements
  rw [pushNode_run] at pushing
  cases pushing
  obtain ⟨_, linked, linking, finished⟩ := Hir.run_bind_eq_ok afterPush
  cases linking
  obtain ⟨rfl, rfl⟩ := Hir.run_pure_eq_ok finished
  -- The converted statements, then the file pushed over them, then its parent links.
  have relinks := (converted.arena.push (.file file.name roots) file.span).1.relinks_patchParents
    converted.arena.nodeCount none
  have keepsTop := (converted.arena.keeps_push (.file file.name roots) file.span).trans relinks.keeps
  have keepsAll := declaredConverted.keeps.trans (built.grows.keeps.trans keepsTop)
  have treePushed := tree_push (.file file.name roots) file.span forest
  have rootKind : ((converted.arena.push (.file file.name roots) file.span).1.patchParents
      converted.arena.nodeCount none |>.node converted.arena.nodeCount).kind = .file file.name roots := by
    rw [relinks.kind]
    simp [node_push]
  -- The built-in functions take the first four nodes.
  have four : builtinState.arena.nodeCount = 4 := rfl
  have notBuiltin : ∀ node ∈ converted.arena.nodeCount :: nodes, 4 ≤ node := by
    intro node member
    rcases List.mem_cons.mp member with rfl | inNodes
    · have := built.grows.keeps.nodeCount_le
      omega
    · have := ((built.pushed node).mp inNodes).1
      omega
  have builtinsKind := keepsAll.kind 3 (by decide)
  -- Every entry of the table is bound to the node among the statements' that declares it.
  have tableOwned : ∀ id symbol, converted.symbols.lookup id = some symbol → ∃ owner ∈ nodes,
      (converted.arena.symbol symbol).owner = some owner ∧
        (converted.arena.node owner).kind.symbol? = some symbol := by
    intro id symbol found
    cases earlier : declared.symbols.lookup id with
    | none =>
      obtain ⟨owner, owned, above, below, declares⟩ := built.grows.bound id symbol found earlier
      exact ⟨owner, (built.pushed owner).mpr ⟨above, below⟩, owned, declares⟩
    | some predeclared =>
      -- Only the functions declared directly in the file have symbols before its statements.
      have topLevelId : id ∈ file.functionDeclarations.map (·.1) := by
        rcases declaredConverted.declaresOnly id (by simp [earlier]) with present | member
        · simp [builtinState] at present
        · exact member
      obtain ⟨⟨_, name⟩, member, rfl⟩ := List.mem_map.mp topLevelId
      obtain ⟨statement, inFile, declares⟩ := Hir.File.binding_of_functionDeclarations member
      obtain ⟨node, inNodes, declaredSymbol, known, nodeDeclares⟩ := topLevel statement inFile _ declares
      have same : declaredSymbol = symbol := Option.some.inj (known.symm.trans found)
      subst same
      exact ⟨node, inNodes, built.owns node inNodes _ nodeDeclares, nodeDeclares⟩
  have gaveOwned : ∀ symbol, converted.Gave symbol → ∃ owner,
      (converted.arena.symbol symbol).owner = some owner ∧
        ((owner ∈ nodes ∧ (converted.arena.node owner).kind.symbol? = some symbol) ∨ owner = 2) := by
    rintro symbol ⟨declaration, known⟩
    have fromTable : ∀ id, converted.symbols.lookup id = some symbol → ∃ owner,
        (converted.arena.symbol symbol).owner = some owner ∧
          ((owner ∈ nodes ∧ (converted.arena.node owner).kind.symbol? = some symbol) ∨ owner = 2) :=
      fun id found => by
        obtain ⟨owner, inNodes, owned, declares⟩ := tableOwned id symbol found
        exact ⟨owner, owned, .inl ⟨inNodes, declares⟩⟩
    rcases declaration with id | id | id | builtin
    · exact fromTable id known
    · exact fromTable id known
    · exact fromTable id known
    · -- `print` has symbol 1, bound to its function, node 2.
      cases builtin
      have printSymbol : symbol = 1 := by
        simpa [ConvertState.symbolOf, built.grows.ledger.builtins] using known.symm
      subst printSymbol
      exact ⟨2, (declaredConverted.keeps.trans built.grows.keeps).owner 1 2 rfl, .inr rfl⟩
  set final := (converted.arena.push (.file file.name roots) file.span).1.patchParents
    converted.arena.nodeCount none with finalIs
  have below : ∀ node ∈ converted.arena.nodeCount :: nodes, node ≠ converted.arena.nodeCount →
      (final.node node).kind.isClassContainer = false ∧
        ∀ declared, (final.node node).kind = .function declared → declared.origin = .source := by
    intro node member other
    have inNodes := (List.mem_cons.mp member).resolve_left other
    rw [keepsTop.kind node (built.lt_nodeCount inNodes)]
    exact ⟨built.notContainer node inNodes, built.source node inNodes⟩
  refine ⟨converted.arena.nodeCount :: nodes, fun builtins => ?_, below⟩
  have builtinsChildren : final.children 3 = [2] := by
    rw [Arena.children, builtinsKind]
    rfl
  have isBuiltin : Program.IsBuiltin ⟨final, converted.arena.nodeCount, 3, builtins⟩ 2 :=
    ⟨by simp only [builtinsChildren, List.mem_singleton], printFunction, keepsAll.kind 2 (by decide), rfl⟩
  have rootUses : ∀ symbol, symbol ∉ (final.node converted.arena.nodeCount).kind.uses := by
    rw [rootKind]
    exact fun _ used => absurd used List.not_mem_nil
  refine
    { root := ⟨file.name, roots, rootKind⟩
      tree := relinks.keeps.tree treePushed
      linked := (linkBelow_linked _ _ _ _ none treePushed treePushed.length_le).1
      owned := ?_
      resolved := ?_
      builtinsFile_lt := ?_
      builtinsFile_not_mem := fun member => by have := notBuiltin 3 member; omega
      builtins_apart := ?_
      declares := ?_
      instances := ?_
      nested := ?_ }
  · intro node member
    rcases List.mem_cons.mp member with rfl | inNodes
    · intro symbol declared
      rw [rootKind] at declared
      cases declared
    · exact keepsTop.owns (built.owns node inNodes) (built.lt_nodeCount inNodes)
  · intro node member symbol used
    rcases List.mem_cons.mp member with rfl | inNodes
    · exact absurd used (rootUses symbol)
    · rw [keepsTop.kind node (built.lt_nodeCount inNodes)] at used
      obtain ⟨owner, owned, which⟩ := gaveOwned symbol (built.known node inNodes symbol used)
      refine ⟨owner, keepsTop.owner _ _ owned, ?_⟩
      rcases which with ⟨inNodes, _⟩ | rfl
      · exact .inl (List.mem_cons_of_mem _ inNodes)
      · exact .inr isBuiltin
  · have := keepsAll.nodeCount_le
    show 3 < final.nodeCount
    omega
  · intro node member
    rw [builtinsChildren, List.mem_singleton] at member
    subst member
    have := keepsAll.nodeCount_le
    exact ⟨by show 2 < final.nodeCount; omega, fun inNodes => by have := notBuiltin 2 inNodes; omega⟩
  · intro node member symbol used owner ownerMember owned
    rcases List.mem_cons.mp member with rfl | inNodes
    · exact absurd used (rootUses symbol)
    · rw [keepsTop.kind node (built.lt_nodeCount inNodes)] at used
      obtain ⟨found, foundOwned, which⟩ := gaveOwned symbol (built.known node inNodes symbol used)
      have same : found = owner := Option.some.inj ((keepsTop.owner _ _ foundOwned).symm.trans owned)
      subst same
      rcases which with ⟨inNodes, declares⟩ | rfl
      · show (final.node found).kind.symbol? = some symbol
        rw [keepsTop.kind found (built.lt_nodeCount inNodes)]
        exact declares
      · have := notBuiltin 2 ownerMember
        omega
  · -- Conversion instantiates nothing.
    intro node member symbol instantiated
    rcases List.mem_cons.mp member with rfl | inNodes
    · rw [rootKind] at instantiated
      exact absurd instantiated List.not_mem_nil
    · rw [keepsTop.kind node (built.lt_nodeCount inNodes), built.plain node inNodes] at instantiated
      exact absurd instantiated List.not_mem_nil
  · -- Below the file there is no file or class.
    intro node member child isChild isContainer
    have inNodes : child ∈ nodes := (relinks.keeps.tree treePushed).child_mem member isChild
    rw [keepsTop.kind child (built.lt_nodeCount inNodes), built.notContainer child inNodes] at isContainer
    cases isContainer

/-- Every program conversion gives is sound; below its file there is no file or class, and every
function is one written in the source. -/
theorem Program.convert_sources {file : Hir.File} {program : Program}
    (converted : Program.convert file = .ok program) : ∃ nodes, program.Sound nodes ∧
      ∀ node ∈ nodes, node ≠ program.file → (program.arena.node node).kind.isClassContainer = false ∧
        ∀ declared, (program.arena.node node).kind = .function declared → declared.origin = .source := by
  rw [Program.convert_eq_convertRoot] at converted
  obtain ⟨⟨root, after⟩, ran, finished⟩ := Hir.bind_eq_ok converted
  cases finished
  obtain ⟨nodes, sound, below⟩ := convertRoot_sound ran
  exact ⟨nodes, sound _, below⟩

/-- Every program conversion gives is sound. -/
theorem Program.convert_sound {file : Hir.File} {program : Program}
    (converted : Program.convert file = .ok program) : ∃ nodes, program.Sound nodes := by
  obtain ⟨nodes, sound, -⟩ := Program.convert_sources converted
  exact ⟨nodes, sound⟩

end ScriptLowering.Mir
