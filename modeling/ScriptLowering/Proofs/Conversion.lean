import ScriptLowering.Proofs.Image
import ScriptLowering.Proofs.Declarations

/-! # Conversion, one step at a time

Conversion keeps a table from the identities of declarations to symbols. Once the built-in
functions are declared, the table obeys a ledger: the arena has two symbols of the built-in
`print` and its parameter and one more per entry, every entry's symbol is one of those others, and
no two entries share a symbol. Each step of conversion keeps the ledger, and a stretch of steps
that declares some identities changes nothing else that the image of a file depends on
(`Converted`): nodes stay, known symbols stay known, and only the symbols of those identities get
an owner.

Conversion stops at the first reference with no declaration. `Converts references step state
post` says exactly that of a step whose references, in the order the step meets them, are
`references`: it fails at the first unbound one with the error naming it, and otherwise succeeds in
a state satisfying `post`. Expressions convert in this sense, into their image
(`convertExpression_converts`), as soon as every declaration they are bound to has a symbol.
-/

namespace ScriptLowering.Mir

namespace ConvertState

/-- The symbol conversion has given a declaration or a built-in function so far. -/
def symbolOf (state : ConvertState) : SymbolMap
  | .builtin builtin => state.builtins.lookup builtin
  | .function id | .parameter id | .variable id => state.symbols.lookup id

theorem symbolOf_of_id? (state : ConvertState) {declaration : Hir.Resolution} {id : Nat}
    (identified : declaration.id? = some id) : state.symbolOf declaration = state.symbols.lookup id := by
  cases declaration <;> simp_all [Hir.Resolution.id?, symbolOf]

/-- The table of symbols once the built-in functions are declared. -/
structure Ledger (state : ConvertState) : Prop where
  builtins : state.builtins = [(.print, 1)]
  count : state.arena.symbolCount = 2 + state.symbols.length
  keys : (state.symbols.map (·.1)).Nodup
  range : ∀ id symbol, state.symbols.lookup id = some symbol →
    2 ≤ symbol ∧ symbol < state.arena.symbolCount
  injective : ∀ first second symbol, state.symbols.lookup first = some symbol →
    state.symbols.lookup second = some symbol → first = second

/-- The ledger speaks of the table, the built-in functions and the number of symbols only. -/
theorem Ledger.transfer {state after : ConvertState} (ledger : state.Ledger)
    (symbols : after.symbols = state.symbols) (builtins : after.builtins = state.builtins)
    (count : after.arena.symbolCount = state.arena.symbolCount) : after.Ledger where
  builtins := builtins.trans ledger.builtins
  count := by rw [count, symbols, ledger.count]
  keys := symbols ▸ ledger.keys
  range id symbol found := count ▸ ledger.range id symbol (symbols ▸ found)
  injective first second symbol firstFound secondFound :=
    ledger.injective first second symbol (symbols ▸ firstFound) (symbols ▸ secondFound)

/-- The declaration `id` has no symbol yet, or one that is still unbound. -/
def Unclaimed (state : ConvertState) (id : Nat) : Prop :=
  ∀ symbol, state.symbols.lookup id = some symbol → (state.arena.symbol symbol).owner = none

/-- Every declaration the references are bound to has a symbol. -/
def Knows (state : ConvertState) (references : List Hir.Reference) : Prop :=
  ∀ reference ∈ references, ∀ declaration, reference.candidate = some declaration →
    ∃ symbol, state.symbolOf declaration = some symbol

theorem knows_append {state : ConvertState} {first second : List Hir.Reference} :
    state.Knows (first ++ second) ↔ state.Knows first ∧ state.Knows second := by
  simp only [Knows, List.forall_mem_append]

end ConvertState

/-- A stretch of conversion from `before` to `after` that declares the identities `ids`: the
ledger holds at the end, the arena keeps its nodes and owners, symbols known stay known, only
the identities `ids` get new symbols and only their symbols get owners. -/
structure Converted (ids : List Nat) (before after : ConvertState) : Prop where
  ledger : after.Ledger
  keeps : before.arena.Keeps after.arena
  learns : ∀ declaration symbol, before.symbolOf declaration = some symbol →
    after.symbolOf declaration = some symbol
  declaresOnly : ∀ id, (after.symbols.lookup id).isSome → (before.symbols.lookup id).isSome ∨ id ∈ ids
  frame : ∀ symbol, (∀ id ∈ ids, after.symbols.lookup id ≠ some symbol) →
    (after.arena.symbol symbol).owner = (before.arena.symbol symbol).owner

namespace Converted

variable {ids more : List Nat} {first second third : ConvertState}

theorem refl (ledger : first.Ledger) : Converted [] first first :=
  ⟨ledger, .refl _, fun _ _ known => known, fun _ present => .inl present, fun _ _ => rfl⟩

theorem trans (left : Converted ids first second) (right : Converted more second third) :
    Converted (ids ++ more) first third where
  ledger := right.ledger
  keeps := left.keeps.trans right.keeps
  learns declaration symbol known := right.learns _ _ (left.learns declaration symbol known)
  declaresOnly id present := by
    rcases right.declaresOnly id present with earlier | declared
    · rcases left.declaresOnly id earlier with earliest | declared
      · exact .inl earliest
      · exact .inr (List.mem_append_left _ declared)
    · exact .inr (List.mem_append_right _ declared)
  frame symbol notDeclared := by
    rw [right.frame symbol fun id member => notDeclared id (List.mem_append_right _ member)]
    -- A symbol of `ids` in the middle state would still be theirs at the end.
    refine left.frame symbol fun id member found => ?_
    exact notDeclared id (List.mem_append_left _ member)
      (right.learns (.function id) symbol found)

/-- A stretch declares at most more identities than it does. -/
theorem widen (converted : Converted ids first second) (wider : ∀ id ∈ ids, id ∈ more) :
    Converted more first second where
  ledger := converted.ledger
  keeps := converted.keeps
  learns := converted.learns
  declaresOnly id present := (converted.declaresOnly id present).imp_right (wider id)
  frame symbol notDeclared := converted.frame symbol fun id member => notDeclared id (wider id member)

theorem lookup (converted : Converted ids first second) {id symbol : Nat}
    (found : first.symbols.lookup id = some symbol) : second.symbols.lookup id = some symbol :=
  converted.learns (.function id) symbol found

/-- The symbol of a declaration outside `ids` keeps its owner. -/
theorem owner_of_lookup (converted : Converted ids first second) {id symbol : Nat} (other : id ∉ ids)
    (found : first.symbols.lookup id = some symbol) :
    (second.arena.symbol symbol).owner = (first.arena.symbol symbol).owner := by
  refine converted.frame symbol fun declared member same => other ?_
  -- Two declarations with one symbol are one declaration.
  rw [converted.ledger.injective id declared symbol (converted.lookup found) same]
  exact member

/-- A stretch that declares other identities leaves a declaration unclaimed. -/
theorem unclaimed (converted : Converted ids first second) {id : Nat} (other : id ∉ ids)
    (unclaimed : first.Unclaimed id) : second.Unclaimed id := by
  intro symbol found
  have earlier : first.symbols.lookup id = some symbol := by
    rcases converted.declaresOnly id (by simp [found]) with present | declared
    · obtain ⟨earlier, isSome⟩ := Option.isSome_iff_exists.mp present
      rw [converted.lookup isSome] at found
      rw [isSome, found]
    · exact absurd declared other
  rw [converted.owner_of_lookup other earlier]
  exact unclaimed symbol earlier

end Converted

/-! ## Steps that always succeed -/

variable {state : ConvertState}

theorem pushNode_run (kind : NodeKind) (span : Span) (state : ConvertState) :
    (pushNode kind span).run state =
      .ok (state.arena.nodeCount, { state with arena := (state.arena.push kind span).1 }) := rfl

theorem Converted.push (ledger : ConvertState.Ledger state) (kind : NodeKind) (span : Span) :
    Converted [] state { state with arena := (state.arena.push kind span).1 } where
  ledger := ledger.transfer rfl rfl rfl
  keeps := state.arena.keeps_push kind span
  learns _ _ known := known
  declaresOnly _ present := .inl present
  frame _ _ := rfl

/-- Linking parents changes no node's kind or span and no symbol. -/
theorem Converted.patchParents (ledger : state.Ledger) (root : Nat) (parent : Option Nat) :
    Converted [] state { state with arena := state.arena.patchParents root parent } := by
  have relinks := state.arena.relinks_patchParents root parent
  refine ⟨ledger.transfer rfl rfl ?_, relinks.keeps, fun _ _ known => known, fun _ present => .inl present,
    fun symbol _ => ?_⟩
  · simp only [Arena.symbolCount, relinks.symbols]
  · simp only [Arena.symbol, relinks.symbols]

theorem declareSymbol_run_of_lookup {id symbol : Nat} (kind : SymbolKind) {state : ConvertState}
    (found : state.symbols.lookup id = some symbol) :
    (declareSymbol id kind).run state = .ok (symbol, state) := by
  simp only [declareSymbol, StateT.run_bind, StateT.run_get, pure_bind, found]
  rfl

theorem declareSymbol_run_of_absent {id : Nat} (kind : SymbolKind) {state : ConvertState}
    (absent : state.symbols.lookup id = none) :
    (declareSymbol id kind).run state =
      .ok (state.arena.symbolCount,
        { state with arena := (state.arena.newSymbol kind).1,
                     symbols := (id, state.arena.symbolCount) :: state.symbols }) := by
  simp only [declareSymbol, StateT.run_bind, StateT.run_get, pure_bind, absent]
  rfl

theorem lookup_cons_ne {id other symbol : Nat} {symbols : List (Nat × Nat)} (different : other ≠ id) :
    ((id, symbol) :: symbols).lookup other = symbols.lookup other := by
  have unequal : (other == id) = false := by simpa using different
  simp only [List.lookup_cons, unequal]

theorem lookup_cons_self_or {id other symbol : Nat} {symbols : List (Nat × Nat)} {found : Nat}
    (hit : ((id, symbol) :: symbols).lookup other = some found) :
    (other = id ∧ found = symbol) ∨ (other ≠ id ∧ symbols.lookup other = some found) := by
  by_cases same : other = id
  · subst same
    simp only [List.lookup_cons_self, Option.some.injEq] at hit
    exact .inl ⟨rfl, hit.symm⟩
  · rw [lookup_cons_ne same] at hit
    exact .inr ⟨same, hit⟩

/-- A new symbol for an absent declaration extends the ledger by one entry. -/
theorem Converted.newSymbol {id : Nat} (kind : SymbolKind) (ledger : state.Ledger)
    (absent : state.symbols.lookup id = none) :
    Converted [id] state
      { state with arena := (state.arena.newSymbol kind).1,
                   symbols := (id, state.arena.symbolCount) :: state.symbols } := by
  have below : ∀ other symbol, state.symbols.lookup other = some symbol →
      symbol < state.arena.symbolCount := fun other symbol found => (ledger.range other symbol found).2
  refine ⟨⟨ledger.builtins, ?_, ?_, ?_, ?_⟩, state.arena.keeps_newSymbol kind, ?_, ?_, ?_⟩
  · simp [ledger.count]
    omega
  · refine List.nodup_cons.mpr ⟨fun present => ?_, ledger.keys⟩
    obtain ⟨entry, member, rfl⟩ := List.mem_map.mp present
    exact absurd (List.lookup_eq_none_iff.mp absent entry member) (by simp)
  · intro other symbol found
    rcases lookup_cons_self_or found with ⟨_, rfl⟩ | ⟨_, earlier⟩
    · simp [ledger.count]
    · have := ledger.range other symbol earlier
      simp only [Arena.symbolCount_newSymbol]
      omega
  · intro first second symbol firstFound secondFound
    rcases lookup_cons_self_or firstFound with ⟨rfl, rfl⟩ | ⟨_, firstEarlier⟩ <;>
      rcases lookup_cons_self_or secondFound with ⟨rfl, same⟩ | ⟨_, secondEarlier⟩
    · rfl
    · exact absurd (below _ _ secondEarlier) (by omega)
    · exact absurd (below _ _ firstEarlier) (by omega)
    · exact ledger.injective first second symbol firstEarlier secondEarlier
  · intro declaration symbol known
    match declaration, known with
    | .builtin _, known => exact known
    | .function other, known | .parameter other, known | .variable other, known =>
      have different : other ≠ id := by
        rintro rfl
        simp [ConvertState.symbolOf, absent] at known
      simpa [ConvertState.symbolOf, lookup_cons_ne different] using known
  · intro other present
    by_cases same : other = id
    · exact .inr (by simp [same])
    · rw [lookup_cons_ne same] at present
      exact .inl present
  · intro symbol notNew
    have fresh : symbol ≠ state.arena.symbolCount := by
      rintro rfl
      exact notNew id (List.mem_singleton_self id) (by simp)
    simp [Arena.symbol_newSymbol, fresh]

/-- Declaring an unclaimed declaration gives it a symbol that is still unbound. -/
theorem declareSymbol_unclaimed {id : Nat} (kind : SymbolKind) (ledger : state.Ledger)
    (unclaimed : state.Unclaimed id) :
    ∃ symbol after, (declareSymbol id kind).run state = .ok (symbol, after) ∧
      Converted [id] state after ∧ after.symbols.lookup id = some symbol ∧
      (after.arena.symbol symbol).owner = none := by
  cases found : state.symbols.lookup id with
  | some symbol =>
    exact ⟨symbol, state, declareSymbol_run_of_lookup kind found,
      (Converted.refl ledger).widen (by simp), found, unclaimed symbol found⟩
  | none =>
    refine ⟨_, _, declareSymbol_run_of_absent kind found, Converted.newSymbol kind ledger found,
      by simp, ?_⟩
    rw [Arena.symbol_newSymbol, if_pos rfl]

theorem bindSymbol_run {symbol : Nat} (owner : Nat) (unbound : (state.arena.symbol symbol).owner = none) :
    (bindSymbol symbol owner).run state =
      .ok ((), { state with arena := { state.arena with
        symbols := state.arena.symbols.modify symbol ({ · with owner := some owner }) } }) := by
  simp only [bindSymbol, StateT.run_bind, StateT.run_get, pure_bind, Arena.bind_of_unbound _ owner unbound]
  rfl

/-- Binding an unbound symbol of a declaration keeps the ledger and binds that symbol only. -/
theorem bindSymbol_converted {id symbol : Nat} (owner : Nat) (ledger : state.Ledger)
    (found : state.symbols.lookup id = some symbol) (unbound : (state.arena.symbol symbol).owner = none) :
    ∃ after, (bindSymbol symbol owner).run state = .ok ((), after) ∧ Converted [id] state after ∧
      (after.arena.symbol symbol).owner = some owner := by
  have present : symbol < state.arena.symbolCount := (ledger.range id symbol found).2
  refine ⟨_, bindSymbol_run owner unbound, ⟨?_, ?_, fun _ _ known => known, fun _ known => .inl known, ?_⟩, ?_⟩
  · exact ledger.transfer rfl rfl (by simp [Arena.symbolCount])
  · exact state.arena.keeps_bind (Arena.bind_of_unbound _ owner unbound)
  · intro other notDeclared
    have different : other ≠ symbol := fun same => notDeclared id (List.mem_singleton_self id) (same ▸ found)
    simp [Arena.symbol_modify_owner _ _ _ _ present, different]
  · simp [Arena.symbol_modify_owner _ _ _ _ present]

/-! ## Stopping at the first unbound reference -/

/-- `step`, run from `state`, meets the references `references` in this order: it stops at the
first one bound to no declaration, with the error naming it, and otherwise ends in a state where
`post` holds of its result. -/
def Converts {α : Type} (references : List Hir.Reference) (step : ConvertM α) (state : ConvertState)
    (post : α → ConvertState → Prop) : Prop :=
  match references.find? (·.candidate.isNone) with
  | some reference => step.run state = .error (.unresolvedReference reference.name reference.span)
  | none => ∃ result after, step.run state = .ok (result, after) ∧ post result after

theorem run_bind_of_ok {α β : Type} {step : ConvertM α} {next : α → ConvertM β} {result : α}
    {after : ConvertState} (ran : step.run state = .ok (result, after)) :
    (step >>= next).run state = (next result).run after := by
  rw [StateT.run_bind, ran]
  rfl

theorem run_bind_of_error {α β : Type} {step : ConvertM α} {next : α → ConvertM β}
    {error : InternalError} (ran : step.run state = .error error) :
    (step >>= next).run state = .error error := by
  rw [StateT.run_bind, ran]
  rfl

namespace Converts

variable {α β : Type} {references more : List Hir.Reference} {step : ConvertM α}
  {post : α → ConvertState → Prop}

theorem mono {weaker : α → ConvertState → Prop} (converts : Converts references step state post)
    (implies : ∀ result after, post result after → weaker result after) :
    Converts references step state weaker := by
  unfold Converts at converts ⊢
  split at converts
  · exact converts
  · obtain ⟨result, after, ran, holds⟩ := converts
    exact ⟨result, after, ran, implies result after holds⟩

/-- A step that meets no reference and succeeds. -/
theorem of_ok {result : α} {after : ConvertState} (ran : step.run state = .ok (result, after))
    (holds : post result after) : Converts [] step state post :=
  ⟨result, after, ran, holds⟩

/-- A step that succeeds before the rest of the computation. -/
theorem bind_of_ok {next : α → ConvertM β} {post : β → ConvertState → Prop} {result : α}
    {middle : ConvertState} (ran : step.run state = .ok (result, middle))
    (rest : Converts references (next result) middle post) :
    Converts references (step >>= next) state post := by
  unfold Converts at rest ⊢
  rw [run_bind_of_ok ran]
  exact rest

/-- Sequencing: the references of the first step come before those of the second. -/
theorem bind {middle : α → ConvertState → Prop} {next : α → ConvertM β}
    {post : β → ConvertState → Prop} (first : Converts references step state middle)
    (second : ∀ result after, middle result after → Converts more (next result) after post) :
    Converts (references ++ more) (step >>= next) state post := by
  unfold Converts at first ⊢
  rw [List.find?_append]
  cases stops : references.find? (·.candidate.isNone) with
  | some reference =>
    rw [stops] at first
    exact run_bind_of_error first
  | none =>
    rw [stops] at first
    obtain ⟨result, after, ran, holds⟩ := first
    rw [Option.none_or, run_bind_of_ok ran]
    exact second result after holds

/-- A step followed by steps that meet no reference. -/
theorem bind_nil {middle : α → ConvertState → Prop} {next : α → ConvertM β}
    {post : β → ConvertState → Prop} (first : Converts references step state middle)
    (second : ∀ result after, middle result after → Converts [] (next result) after post) :
    Converts references (step >>= next) state post := by
  have sequenced := first.bind second
  rwa [List.append_nil] at sequenced

/-- A step followed by a pure function of its result. -/
theorem bind_pure {post : β → ConvertState → Prop} {finish : α → β}
    (converts : Converts references step state fun result after => post (finish result) after) :
    Converts references (step >>= fun result => pure (finish result)) state post := by
  exact converts.bind_nil fun result after holds => of_ok rfl holds

end Converts

theorem referenceSymbol_run (reference : Hir.Reference) (state : ConvertState) :
    (referenceSymbol reference).run state =
      match reference.candidate with
      | none => .error (.unresolvedReference reference.name reference.span)
      | some declaration =>
        match state.symbolOf declaration with
        | none => .error (.symbolNotDefined reference.name)
        | some symbol => .ok (symbol, state) := by
  obtain ⟨name, span, candidate⟩ := reference
  rcases candidate with _ | ⟨id⟩ | ⟨id⟩ | ⟨id⟩ | ⟨builtin⟩
  · rfl
  all_goals
    simp only [referenceSymbol, ConvertState.symbolOf, StateT.run_bind, StateT.run_get, pure_bind]
  · cases state.symbols.lookup id <;> rfl
  · cases state.symbols.lookup id <;> rfl
  · cases state.symbols.lookup id <;> rfl
  · cases state.builtins.lookup builtin <;> rfl

/-- A reference converts to the symbol of its declaration, once that declaration has one. -/
theorem referenceSymbol_converts (reference : Hir.Reference) (knows : state.Knows [reference]) :
    Converts [reference] (referenceSymbol reference) state fun symbol after =>
      state = after ∧ ∃ declaration, reference.candidate = some declaration ∧
        state.symbolOf declaration = some symbol := by
  unfold Converts
  cases bound : reference.candidate with
  | none =>
    simp only [List.find?_cons, bound, Option.isNone_none]
    rw [referenceSymbol_run, bound]
  | some declaration =>
    obtain ⟨symbol, found⟩ := knows reference (List.mem_singleton_self _) declaration bound
    simp only [List.find?_cons, bound, Option.isNone_some, List.find?_nil]
    refine ⟨symbol, state, ?_, rfl, declaration, rfl, found⟩
    rw [referenceSymbol_run, bound]
    simp only [found]

/-! ## Expressions

An expression converts without touching the state, into its image under the symbols known when
it is met. -/

mutual

theorem convertExpression_converts (state : ConvertState) :
    (expression : Hir.Expression) → state.Knows expression.references →
      Converts expression.references (convertExpression expression) state fun image after =>
        state = after ∧ ExpressionImage state.symbolOf expression image
  | .const span value, _ => by
    rw [convertExpression]
    exact Converts.of_ok rfl ⟨rfl, .const span value⟩
  | .get span reference, knows => by
    rw [convertExpression]
    refine Converts.bind_pure ((referenceSymbol_converts reference knows).mono ?_)
    rintro symbol _ ⟨rfl, declaration, bound, known⟩
    exact ⟨rfl, .get bound known⟩
  | .call span receiver arguments, knows => by
    obtain ⟨knowsReceiver, knowsArguments⟩ := ConvertState.knows_append.mp knows
    rw [convertExpression]
    refine (convertExpression_converts state receiver knowsReceiver).bind ?_
    rintro receiverImage _ ⟨rfl, receiverIs⟩
    refine Converts.bind_pure ((convertArguments_converts state arguments knowsArguments).mono ?_)
    rintro argumentImages _ ⟨rfl, argumentsAre⟩
    exact ⟨rfl, .call receiverIs argumentsAre⟩
  | .object span entries, knows => by
    rw [convertExpression]
    refine Converts.bind_pure ((convertEntries_converts state entries knows).mono ?_)
    rintro entryImages _ ⟨rfl, entriesAre⟩
    exact ⟨rfl, .object entriesAre⟩
  | .set span target value, knows => by
    obtain ⟨knowsValue, knowsTarget⟩ := ConvertState.knows_append.mp knows
    rw [convertExpression]
    -- The value is converted before the target is looked up.
    refine (convertExpression_converts state value knowsValue).bind ?_
    rintro valueImage _ ⟨rfl, valueIs⟩
    refine Converts.bind_pure ((referenceSymbol_converts target knowsTarget).mono ?_)
    rintro symbol _ ⟨rfl, declaration, bound, known⟩
    exact ⟨rfl, .set bound known valueIs⟩
  | .getProperty span receiver property, knows => by
    rw [convertExpression]
    refine Converts.bind_pure ((convertExpression_converts state receiver knows).mono ?_)
    rintro receiverImage _ ⟨rfl, receiverIs⟩
    exact ⟨rfl, .getProperty receiverIs⟩
  | .setProperty span receiver property value, knows => by
    obtain ⟨knowsReceiver, knowsValue⟩ := ConvertState.knows_append.mp knows
    rw [convertExpression]
    refine (convertExpression_converts state receiver knowsReceiver).bind ?_
    rintro receiverImage _ ⟨rfl, receiverIs⟩
    refine Converts.bind_pure ((convertExpression_converts state value knowsValue).mono ?_)
    rintro valueImage _ ⟨rfl, valueIs⟩
    exact ⟨rfl, .setProperty receiverIs valueIs⟩

theorem convertArguments_converts (state : ConvertState) :
    (arguments : List (Option Hir.Expression)) →
      state.Knows (Hir.Expression.argumentReferences arguments) →
      Converts (Hir.Expression.argumentReferences arguments) (convertArguments arguments) state
        fun images after => state = after ∧ ArgumentsImage state.symbolOf arguments images
  | [], _ => by
    rw [convertArguments]
    exact Converts.of_ok rfl ⟨rfl, .nil⟩
  | none :: rest, knows => by
    rw [convertArguments]
    refine Converts.bind_pure ((convertArguments_converts state rest knows).mono ?_)
    rintro restImages _ ⟨rfl, restAre⟩
    exact ⟨rfl, .none restAre⟩
  | some argument :: rest, knows => by
    obtain ⟨knowsArgument, knowsRest⟩ := ConvertState.knows_append.mp knows
    rw [convertArguments]
    refine (convertExpression_converts state argument knowsArgument).bind ?_
    rintro argumentImage _ ⟨rfl, argumentIs⟩
    refine Converts.bind_pure ((convertArguments_converts state rest knowsRest).mono ?_)
    rintro restImages _ ⟨rfl, restAre⟩
    exact ⟨rfl, .some argumentIs restAre⟩

theorem convertEntries_converts (state : ConvertState) :
    (entries : List (String × Hir.Expression)) → state.Knows (Hir.Expression.entryReferences entries) →
      Converts (Hir.Expression.entryReferences entries) (convertEntries entries) state
        fun images after => state = after ∧ EntriesImage state.symbolOf entries images
  | [], _ => by
    rw [convertEntries]
    exact Converts.of_ok rfl ⟨rfl, .nil⟩
  | (key, value) :: rest, knows => by
    obtain ⟨knowsValue, knowsRest⟩ := ConvertState.knows_append.mp knows
    rw [convertEntries]
    refine (convertExpression_converts state value knowsValue).bind ?_
    rintro valueImage _ ⟨rfl, valueIs⟩
    refine Converts.bind_pure ((convertEntries_converts state rest knowsRest).mono ?_)
    rintro restImages _ ⟨rfl, restAre⟩
    exact ⟨rfl, .cons valueIs restAre⟩

end

end ScriptLowering.Mir
