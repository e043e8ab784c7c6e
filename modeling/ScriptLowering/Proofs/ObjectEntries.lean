import Mathlib.Data.List.Induction
import ScriptLowering.Proofs.BuiltFile

/-! # Object literals have one entry per key

The builder reads an object literal clause by clause. A clause without a property name is
reported and left out, and so is one without a value or whose value does not convert; every other
clause gives its key and converted value (`ClauseGives`). Of what the clauses give, the first
clause with a key fixes the key's place and the last fixes its value (`mergeEntry`).

Main statement: `convertObject_entries`. Whenever building an object succeeds, its keys are
pairwise distinct, in the order in which the clauses first give them, and each key holds the value
of the last clause that gives it.
-/

namespace ScriptLowering.Hir

/-! ## Merging entries -/

/-- Adds an entry under its key, or gives the entry the key already has the new value, in its
place. -/
def mergeEntry (entries : List (String × Expression)) (key : String) (value : Expression) :
    List (String × Expression) :=
  if entries.any (·.1 == key) then entries.map fun entry => if entry.1 == key then (key, value) else entry
  else entries ++ [(key, value)]

/-- The entries of a list of keyed values merged one after another into none. -/
def mergeAll (pairs : List (String × Expression)) : List (String × Expression) :=
  pairs.foldl (fun entries pair => mergeEntry entries pair.1 pair.2) []

section Merging

variable {entries : List (String × Expression)} {key : String} {value : Expression}

theorem any_key_iff : (entries.any (·.1 == key)) = true ↔ key ∈ entries.map Prod.fst := by
  simp only [List.any_eq_true, beq_iff_eq, List.mem_map]

theorem lookup_cons_ne {wanted name : String} {held : Expression} (rest : List (String × Expression))
    (different : wanted ≠ name) : ((name, held) :: rest).lookup wanted = rest.lookup wanted := by
  rw [List.lookup_cons, beq_false_of_ne different]

theorem keys_mergeEntry (key : String) (value : Expression) :
    (mergeEntry entries key value).map Prod.fst =
      if key ∈ entries.map Prod.fst then entries.map Prod.fst else entries.map Prod.fst ++ [key] := by
  unfold mergeEntry
  by_cases present : key ∈ entries.map Prod.fst
  · rw [if_pos (any_key_iff.mpr present), if_pos present, List.map_map]
    -- A replaced entry keeps its key.
    refine List.map_congr_left fun entry _ => ?_
    by_cases same : entry.1 = key <;> simp [same]
  · rw [if_neg (mt any_key_iff.mp present), if_neg present, List.map_append]
    rfl

/-- Giving a key new values leaves what every other key reads. -/
theorem lookup_replace_ne {wanted : String} (different : wanted ≠ key) :
    (entries.map fun entry => if entry.1 == key then (key, value) else entry).lookup wanted =
      entries.lookup wanted := by
  induction entries with
  | nil => rfl
  | cons entry rest ih =>
    obtain ⟨name, held⟩ := entry
    by_cases named : name = key
    · subst named
      simp only [List.map_cons, beq_self_eq_true, if_true]
      rw [lookup_cons_ne _ different, lookup_cons_ne _ different, ih]
    · simp only [List.map_cons, beq_false_of_ne named, Bool.false_eq_true, if_false]
      by_cases found : wanted = name
      · subst found
        rw [List.lookup_cons_self, List.lookup_cons_self]
      · rw [lookup_cons_ne _ found, lookup_cons_ne _ found, ih]

/-- Giving a key that the entries have a new value makes the key read it. -/
theorem lookup_replace_self (present : key ∈ entries.map Prod.fst) :
    (entries.map fun entry => if entry.1 == key then (key, value) else entry).lookup key = some value := by
  induction entries with
  | nil => exact absurd present List.not_mem_nil
  | cons entry rest ih =>
    obtain ⟨name, held⟩ := entry
    by_cases named : name = key
    · subst named
      simp only [List.map_cons, beq_self_eq_true, if_true]
      exact List.lookup_cons_self
    · simp only [List.map_cons, beq_false_of_ne named, Bool.false_eq_true, if_false]
      rw [lookup_cons_ne _ (Ne.symm named)]
      have listed : key ∈ name :: rest.map Prod.fst := present
      exact ih ((List.mem_cons.mp listed).resolve_left (Ne.symm named))

theorem lookup_mergeEntry (key : String) (value : Expression) (wanted : String) :
    (mergeEntry entries key value).lookup wanted =
      if wanted = key then some value else entries.lookup wanted := by
  unfold mergeEntry
  split
  · rename_i present
    by_cases same : wanted = key
    · rw [if_pos same, same]
      exact lookup_replace_self (any_key_iff.mp present)
    · rw [if_neg same]
      exact lookup_replace_ne same
  · rename_i absent
    -- A key the entries lack reads nothing before the new entry at the end.
    have missing : entries.lookup key = none := by
      rw [List.lookup_eq_none_iff]
      intro entry member
      have notHere : entry.1 ≠ key := fun same => absent (any_key_iff.mpr (List.mem_map.mpr ⟨entry, member, same⟩))
      simp only [bne_iff_ne, ne_eq]
      exact fun same => notHere same.symm
    rw [List.lookup_append]
    by_cases same : wanted = key
    · subst same
      simp [missing, List.lookup_cons_self]
    · simp [same, lookup_cons_ne]

theorem keys_mergeEntry_nodup (distinct : (entries.map Prod.fst).Nodup) (key : String) (value : Expression) :
    ((mergeEntry entries key value).map Prod.fst).Nodup := by
  rw [keys_mergeEntry]
  split
  · exact distinct
  · rename_i absent
    exact List.nodup_append.mpr ⟨distinct, List.nodup_cons.mpr ⟨List.not_mem_nil, List.nodup_nil⟩, fun _ member _ single same =>
      absent (by rw [List.mem_singleton.mp single] at same; exact same ▸ member)⟩

/-- Merging a list of keyed values keeps each key once, at its first place. -/
theorem keys_mergeAll (pairs : List (String × Expression)) :
    (mergeAll pairs).map Prod.fst = (pairs.map Prod.fst).eraseDups := by
  induction pairs using List.reverseRecOn with
  | nil => rfl
  | append_singleton pairs pair ih =>
    rw [mergeAll, List.foldl_append, List.foldl_cons, List.foldl_nil, ← mergeAll, keys_mergeEntry, ih,
      List.map_append, List.map_singleton, List.eraseDups_append]
    -- The new key adds itself at the end exactly when it is not among the earlier ones.
    by_cases present : pair.1 ∈ pairs.map Prod.fst
    · rw [if_pos (List.mem_eraseDups.mpr present)]
      simp [present, List.removeAll]
    · rw [if_neg (mt List.mem_eraseDups.mp present)]
      simp [present, List.removeAll, List.eraseDups_cons, List.eraseDups_nil]

theorem keys_mergeAll_nodup (pairs : List (String × Expression)) : ((mergeAll pairs).map Prod.fst).Nodup := by
  induction pairs using List.reverseRecOn with
  | nil => exact List.nodup_nil
  | append_singleton pairs pair ih =>
    rw [mergeAll, List.foldl_append, List.foldl_cons, List.foldl_nil, ← mergeAll]
    exact keys_mergeEntry_nodup ih pair.1 pair.2

/-- Merging a list of keyed values keeps for each key the last value given to it. -/
theorem lookup_mergeAll (pairs : List (String × Expression)) (wanted : String) :
    (mergeAll pairs).lookup wanted = pairs.reverse.lookup wanted := by
  induction pairs using List.reverseRecOn with
  | nil => rfl
  | append_singleton pairs pair ih =>
    rw [mergeAll, List.foldl_append, List.foldl_cons, List.foldl_nil, ← mergeAll, lookup_mergeEntry, ih,
      List.reverse_append, List.reverse_singleton, List.singleton_append, List.lookup_cons]
    by_cases same : wanted = pair.1
    · rw [if_pos same, same, beq_self_eq_true]
    · rw [if_neg same, beq_false_of_ne same]

end Merging

/-! ## What the clauses give -/

section Clauses

variable (source : List Char)

/-- The property name of an object clause: the name below its key, when it has both. -/
def clauseKey? (clause : SyntaxTree) : Option String :=
  (clause.childOfKind? .objectKey).bind fun key => identifierName? source key.val

/-- The value of an object clause: the first child below its value, when it has both. -/
def clauseValue? (clause : SyntaxTree) : Option SyntaxTree :=
  (clause.childOfKind? .objectValue).bind fun holder => holder.val.firstChild?.map (·.val)

/-- What one object clause gives, building from the first state to the last: a clause without a
property name is reported and gives nothing, one without a value gives nothing, and one with a
value gives its key and the value's expression when the value converts, nothing otherwise. -/
inductive ClauseGives (clause : SyntaxTree) : BuildState → Option (String × Expression) → BuildState → Prop
  | keyless {before : BuildState} (noKey : clauseKey? source clause = none) :
      ClauseGives clause before none
        { before with reports := before.reports.report clause.span "Expected property name" }
  | valueless {before : BuildState} {key : String} (hasKey : clauseKey? source clause = some key)
      (noValue : clauseValue? clause = none) : ClauseGives clause before none before
  | converts {before after : BuildState} {key : String} {value : SyntaxTree} {converted : Option Expression}
      (hasKey : clauseKey? source clause = some key) (hasValue : clauseValue? clause = some value)
      (ran : (convertExpression source value).run before = .ok (converted, after)) :
      ClauseGives clause before (converted.map (key, ·)) after

/-- What a list of clauses gives, one clause after another: the keys and values of those that
give one, in order. -/
inductive ClausesGive : List SyntaxTree → BuildState → List (String × Expression) → BuildState → Prop
  | nil {state : BuildState} : ClausesGive [] state [] state
  | cons {clause : SyntaxTree} {rest : List SyntaxTree} {before middle after : BuildState}
      {given : Option (String × Expression)} {pairs : List (String × Expression)}
      (first : ClauseGives source clause before given middle) (others : ClausesGive rest middle pairs after) :
      ClausesGive (clause :: rest) before (given.toList ++ pairs) after

variable {source} in
/-- Reading clauses one after another, each step giving what its clause gives merged into the
entries so far, gives the entries of all they give merged in order. -/
theorem foldlM_clauses {tree : SyntaxTree}
    {step : List (String × Expression) → SyntaxTree.Child tree → BuildM (List (String × Expression))}
    (clauses : List (SyntaxTree.Child tree)) (entries : List (String × Expression)) (before after : BuildState)
    (result : List (String × Expression)) (ran : (clauses.foldlM step entries).run before = .ok (result, after))
    (gives : ∀ clause entries before next after, (step entries clause).run before = .ok (next, after) →
      ∃ given, ClauseGives source clause.val before given after ∧
        next = given.toList.foldl (fun entries pair => mergeEntry entries pair.1 pair.2) entries) :
    ∃ pairs, ClausesGive source (clauses.map (·.val)) before pairs after ∧
      result = pairs.foldl (fun entries pair => mergeEntry entries pair.1 pair.2) entries := by
  induction clauses generalizing entries before with
  | nil =>
    obtain ⟨rfl, rfl⟩ := run_pure_eq_ok ran
    exact ⟨[], .nil, rfl⟩
  | cons clause rest ih =>
    rw [List.foldlM_cons] at ran
    obtain ⟨next, middle, firstRan, restRan⟩ := run_bind_eq_ok ran
    obtain ⟨given, first, rfl⟩ := gives clause entries before next middle firstRan
    obtain ⟨pairs, others, rfl⟩ := ih _ middle restRan
    exact ⟨given.toList ++ pairs, .cons first others, by rw [List.foldl_append]⟩

end Clauses

/-- Building an object literal, when it succeeds, gives one entry per key: the keys are pairwise
distinct and in the order in which the clauses first give them, and each holds the value of the
last clause that gives it. A clause gives its key and value when it has both and the value
converts; a clause without a property name is reported, and one without a value or whose value
fails gives nothing. -/
theorem convertObject_entries (source : List Char) (tree : SyntaxTree) {before after : BuildState}
    {result : Expression} (ran : (convertObject source tree).run before = .ok (result, after)) :
    ∃ pairs entries, ClausesGive source ((tree.childrenOfKind .objectClause).map (·.val)) before pairs after ∧
      result = .object tree.span entries ∧ (entries.map Prod.fst).Nodup ∧
      entries.map Prod.fst = (pairs.map Prod.fst).eraseDups ∧
      ∀ key, entries.lookup key = pairs.reverse.lookup key := by
  rw [convertObject] at ran
  obtain ⟨entries, middle, entriesRan, finished⟩ := run_bind_eq_ok ran
  obtain ⟨rfl, rfl⟩ := run_pure_eq_ok finished
  obtain ⟨pairs, gave, rfl⟩ := foldlM_clauses _ [] before after entries entriesRan
      fun clause entries clauseBefore next clauseAfter clauseRan => by
    -- The four ways a clause can go: no name, no value holder, an empty holder, or a value.
    split at clauseRan
    · rename_i noKey
      rw [reportAt_bind] at clauseRan
      obtain ⟨rfl, rfl⟩ := run_pure_eq_ok clauseRan
      exact ⟨none, .keyless noKey, rfl⟩
    · rename_i key hasKey
      split at clauseRan
      · rename_i noHolder
        obtain ⟨rfl, rfl⟩ := run_pure_eq_ok clauseRan
        exact ⟨none, .valueless hasKey (by simp [clauseValue?, noHolder]), rfl⟩
      · rename_i holder hasHolder
        split at clauseRan
        · rename_i noValue
          obtain ⟨rfl, rfl⟩ := run_pure_eq_ok clauseRan
          exact ⟨none, .valueless hasKey (by simp [clauseValue?, hasHolder, noValue]), rfl⟩
        · rename_i value hasValue
          obtain ⟨converted, valueAfter, valueRan, merged⟩ := run_bind_eq_ok clauseRan
          have valueOf : clauseValue? clause.val = some value.val := by
            simp [clauseValue?, hasHolder, hasValue]
          cases converted with
          | none =>
            obtain ⟨rfl, rfl⟩ := run_pure_eq_ok merged
            exact ⟨none, .converts hasKey valueOf valueRan, rfl⟩
          | some expression =>
            dsimp only at merged
            have step : next = mergeEntry entries key expression ∧ clauseAfter = valueAfter := by
              split at merged <;> obtain ⟨rfl, rfl⟩ := run_pure_eq_ok merged <;> simp_all [mergeEntry]
            obtain ⟨rfl, rfl⟩ := step
            exact ⟨some (key, expression), .converts hasKey valueOf valueRan, rfl⟩
  exact ⟨pairs, mergeAll pairs, gave, rfl, keys_mergeAll_nodup pairs, keys_mergeAll pairs, lookup_mergeAll pairs⟩

/-- The clause `NAME:DIGIT` of an object literal, starting at `start`. -/
def numberClause (start : Nat) : SyntaxTree :=
  .node .objectClause (.range start (start + 3))
    [.node .objectKey (.range start (start + 1)) [.node .identifier (.range start (start + 1)) []],
     .node .objectValue (.range (start + 2) (start + 3)) [.node .numberConstant (.range (start + 2) (start + 3)) []]]

/-- The text of an object literal that gives `a` twice. -/
def duplicateKeysSource : List Char := "{a:1,b:2,a:3}".toList

/-- The tree of `{a:1,b:2,a:3}`: three clauses between commas. -/
def duplicateKeysObject : SyntaxTree :=
  .node .object (.range 0 13)
    [numberClause 1, .node .comma (.range 4 5) [], numberClause 5, .node .comma (.range 8 9) [], numberClause 9]

theorem convertObject_entries_duplicateKeys : ∃ result after,
    (convertObject duplicateKeysSource duplicateKeysObject).run {} = .ok (result, after) ∧
      ∃ pairs entries, ClausesGive duplicateKeysSource
          ((duplicateKeysObject.childrenOfKind .objectClause).map (·.val)) {} pairs after ∧
        result = .object duplicateKeysObject.span entries ∧ (entries.map Prod.fst).Nodup ∧
        entries.map Prod.fst = (pairs.map Prod.fst).eraseDups ∧
        ∀ key, entries.lookup key = pairs.reverse.lookup key := by
  have succeeds : ((convertObject duplicateKeysSource duplicateKeysObject).run {}).isOk = true := by
    decide +kernel
  cases ran : (convertObject duplicateKeysSource duplicateKeysObject).run {} with
  | error failure => rw [ran] at succeeds; cases succeeds
  | ok outcome => exact ⟨outcome.1, outcome.2, rfl, convertObject_entries _ _ ran⟩

end ScriptLowering.Hir
