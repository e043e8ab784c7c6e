import ScriptLowering.Proofs.ArgumentSlots
import ScriptLowering.Proofs.BuildableTrees
import ScriptLowering.Mir.Convert

/-! # Argument slots through building and lowering

The builder turns a call's argument list into a list of slots: one slot for each argument node
of the list, in order, empty for an argument node without a child, and otherwise what
converting its value gives, which is empty when the value was reported and left out
(`Hir.convertCall_slots`). Lowering converts the value in each filled slot and leaves each empty
slot empty (`Mir.convertArguments_keeps_slots`).

With what the parser puts in an argument list (`Syntax.argumentList_slots`), each segment
between the commas of a call's brackets keeps one slot, in its place, from the tokens to the
lowered tree: `Syntax.argumentList_keeps_slot_positions`. Its hypothesis, that every report
of the list is a malformed argument, holds in particular of a list with no report at all
(`Syntax.onlyMalformed_of_quiet`).
-/

namespace ScriptLowering

theorem SyntaxTree.childrenOfKind_map_val (tree : SyntaxTree) (kind : SyntaxKind) :
    (tree.childrenOfKind kind).map Subtype.val = tree.children.filter (·.kind == kind) := by
  simp [SyntaxTree.childrenOfKind, SyntaxTree.childList]

namespace Hir

/-- A successful run of `mapM` relates each item to its result by a run of the step. -/
theorem mapM_run_eq_ok {α β : Type} {convert : α → BuildM β} (items : List α) :
    ∀ {before after : BuildState} {results : List β},
      (items.mapM convert).run before = .ok (results, after) →
        List.Forall₂ (fun item result => ∃ state state', (convert item).run state = .ok (result, state'))
          items results := by
  induction items with
  | nil =>
    intro before after results ran
    rw [List.mapM_nil] at ran
    obtain ⟨rfl, -⟩ := run_pure_eq_ok ran
    exact .nil
  | cons item rest ih =>
    intro before after results ran
    rw [List.mapM_cons] at ran
    obtain ⟨first, middle, firstRan, ran⟩ := run_bind_eq_ok ran
    obtain ⟨others, last, restRan, ran⟩ := run_bind_eq_ok ran
    obtain ⟨rfl, -⟩ := run_pure_eq_ok ran
    exact .cons ⟨before, middle, firstRan⟩ (ih restRan)

/-- The slot a call makes for an argument node: empty when the node has no child, and otherwise
what a run of converting its first child gives. -/
def SlotOf (source : List Char) (argument : SyntaxTree) (slot : Option Expression) : Prop :=
  (argument.children = [] → slot = none) ∧
    ∀ value ∈ argument.children.head?, ∃ state state',
      (convertExpression source value).run state = .ok (slot, state')

/-- A call that builds has one slot for each argument node of its argument list, in order. -/
theorem convertCall_slots (source : List Char) (call : SyntaxTree) {list : SyntaxTree}
    (listIs : (call.childOfKind? .argumentList).map Subtype.val = some list) {before after : BuildState}
    {result : Option Expression} (ran : (convertCall source call).run before = .ok (result, after)) :
    ∃ (receiver : Option Expression) (slots : List (Option Expression)),
      result = receiver.map (.call call.span · slots) ∧
      List.Forall₂ (SlotOf source) (list.children.filter (·.kind == .argument)) slots := by
  rw [convertCall] at ran
  split at ran
  · cases ran
  · obtain ⟨receiver, middle, -, ran⟩ := run_bind_eq_ok ran
    dsimp only at ran
    split at ran
    · rename_i listChild listFound
      rw [listFound] at listIs
      obtain rfl : listChild.val = list := Option.some.inj listIs
      obtain ⟨slots, last, slotsRan, ran⟩ := run_bind_eq_ok ran
      obtain ⟨rfl, -⟩ := run_pure_eq_ok ran
      refine ⟨receiver, slots, rfl, ?_⟩
      rw [← SyntaxTree.childrenOfKind_map_val, List.forall₂_map_left_iff]
      refine (mapM_run_eq_ok _ slotsRan).imp fun argument slot made => ?_
      obtain ⟨state, state', slotRan⟩ := made
      have first := argument.val.firstChild?_map_val
      split at slotRan
      · -- an argument with a value: its slot is what converting the value gives
        rename_i value found
        rw [found, Option.map_some] at first
        refine ⟨fun childless => by simp [childless] at first, fun other member => ?_⟩
        rw [← first, Option.mem_def, Option.some.injEq] at member
        subst member
        exact ⟨state, state', slotRan⟩
      · -- an argument without a child: an empty slot
        rename_i found
        rw [found, Option.map_none] at first
        obtain ⟨rfl, -⟩ := run_pure_eq_ok slotRan
        exact ⟨fun _ => rfl, fun other member => by simp [← first] at member⟩
    · rename_i noList
      rw [noList] at listIs
      cases listIs

end Hir

namespace Mir

/-- A slot of a call and its image after lowering: both empty, or both filled, the image being
what a run of lowering the slot's expression gives. -/
def LowersSlot (slot : Option Hir.Expression) (image : Option Expression) : Prop :=
  slot.isNone = image.isNone ∧
    ∀ expression ∈ slot, ∀ lowered ∈ image, ∃ state state',
      (convertExpression expression).run state = .ok (lowered, state')

/-- Lowering the slots of a call keeps every empty slot empty and lowers every other one. -/
theorem convertArguments_keeps_slots (arguments : List (Option Hir.Expression)) :
    ∀ {state after : ConvertState} {images : List (Option Expression)},
      (convertArguments arguments).run state = .ok (images, after) →
        List.Forall₂ LowersSlot arguments images := by
  induction arguments with
  | nil =>
    intro state after images ran
    rw [convertArguments] at ran
    obtain ⟨rfl, -⟩ := Hir.run_pure_eq_ok ran
    exact .nil
  | cons argument rest ih =>
    intro state after images ran
    cases argument with
    | none =>
      rw [convertArguments] at ran
      obtain ⟨restImages, last, restRan, finished⟩ := Hir.run_bind_eq_ok ran
      obtain ⟨rfl, -⟩ := Hir.run_pure_eq_ok finished
      exact .cons ⟨rfl, fun _ member => absurd member (Option.not_mem_none _)⟩ (ih restRan)
    | some argument =>
      rw [convertArguments] at ran
      obtain ⟨image, middle, imageRan, ran⟩ := Hir.run_bind_eq_ok ran
      obtain ⟨restImages, last, restRan, finished⟩ := Hir.run_bind_eq_ok ran
      obtain ⟨rfl, -⟩ := Hir.run_pure_eq_ok finished
      refine .cons ⟨rfl, fun expression member lowered image => ?_⟩ (ih restRan)
      rw [Option.mem_some_iff] at member image
      subst member image
      exact ⟨state, middle, imageRan⟩

/-- A lowered call has one slot for each slot of the call, each lowered in place. -/
theorem convertExpression_call_keeps_slots {span : Span} {receiver : Hir.Expression}
    {slots : List (Option Hir.Expression)} {state after : ConvertState} {lowered : Expression}
    (ran : (convertExpression (.call span receiver slots)).run state = .ok (lowered, after)) :
    ∃ (image : Expression) (images : List (Option Expression)),
      lowered = .call span image images ∧ List.Forall₂ LowersSlot slots images := by
  rw [convertExpression] at ran
  obtain ⟨image, middle, -, ran⟩ := Hir.run_bind_eq_ok ran
  obtain ⟨images, last, imagesRan, finished⟩ := Hir.run_bind_eq_ok ran
  obtain ⟨rfl, -⟩ := Hir.run_pure_eq_ok finished
  exact ⟨image, images, rfl, convertArguments_keeps_slots slots imagesRan⟩

end Mir

namespace Syntax

/-- What an argument list read from `opening :: tail` keeps of the segments between its
brackets: the tokens `inner` before the closing bracket `closing`, the node the parser made, one
argument node for each segment, empty for a segment with nothing an expression starts with
(and, when nothing was reported, exactly for an empty segment), and one slot for each argument
node in any call built around the list, each kept in place when the call is lowered. -/
structure KeepsSlots (eof : Nat) (out : Output) (opening : Token) (tail inner : List Token)
    (closing : Token) (span : Span) (items : List SyntaxTree) : Prop where
  split : tail = inner ++ closing :: (argumentList eof out opening tail).rest
  closes : closing.kind = .closeParen
  holds : (argumentList eof out opening tail).out.Holds (argumentList eof out opening tail).node
    (.node .argumentList span items)
  oneEach : List.Forall₂ (fun argument segment => argument.children = [] ↔ Blank segment)
    (items.filter (·.kind == .argument)) (argumentSegments inner)
  emptyWhenQuiet : (argumentList eof out opening tail).out.reports.size = out.reports.size →
    List.Forall₂ (fun argument segment => argument.children = [] ↔ segment = [])
      (items.filter (·.kind == .argument)) (argumentSegments inner)
  built : ∀ (source : List Char) (call : SyntaxTree) {before after : Hir.BuildState}
      {result : Option Hir.Expression},
    (call.childOfKind? .argumentList).map Subtype.val = some (.node .argumentList span items) →
    (Hir.convertCall source call).run before = .ok (result, after) →
    ∃ (receiver : Option Hir.Expression) (slots : List (Option Hir.Expression)),
      result = receiver.map (.call call.span · slots) ∧
      List.Forall₂ (Hir.SlotOf source) (items.filter (·.kind == .argument)) slots ∧
      ∀ {state after : Mir.ConvertState} {lowered : Mir.Expression},
        ∀ built ∈ result, (Mir.convertExpression built).run state = .ok (lowered, after) →
          ∃ (image : Mir.Expression) (images : List (Option Mir.Expression)),
            lowered = .call call.span image images ∧ List.Forall₂ Mir.LowersSlot slots images

/-- An argument list in which every report is a malformed argument keeps one argument node, one
built slot and one lowered slot for each segment between its brackets, in order. -/
theorem argumentList_keeps_slot_positions (eof : Nat) (out : Output) (opening : Token)
    (tail : List Token) (onlyMalformed : OnlyMalformed out (argumentList eof out opening tail).out) :
    ∃ inner closing span items, KeepsSlots eof out opening tail inner closing span items := by
  obtain ⟨inner, closing, span, items, split, closes, holds, oneEach, emptyWhenQuiet⟩ :=
    argumentList_slots eof out opening tail onlyMalformed
  refine ⟨inner, closing, span, items, split, closes, holds, oneEach, emptyWhenQuiet, ?_⟩
  intro source call before after result listIs ran
  obtain ⟨receiver, slots, rfl, slotted⟩ := Hir.convertCall_slots source call listIs ran
  refine ⟨receiver, slots, rfl, slotted, fun built member lowering => ?_⟩
  obtain ⟨receiverValue, -, rfl⟩ := Option.map_eq_some_iff.mp member
  exact Mir.convertExpression_call_keeps_slots lowering

/-- The tokens of a call's argument list whose middle argument is malformed. -/
def malformedMiddleArguments : List Token := Token.scan "(1, :, 3)"

/-- The malformed `:` is reported, and its segment keeps an argument node and a slot. -/
theorem malformed_middle_keeps_slot_positions :
    OnlyMalformed {} (argumentList 9 {} (malformedMiddleArguments.headD default)
        malformedMiddleArguments.tail).out ∧
      ∃ inner closing span items, KeepsSlots 9 {} (malformedMiddleArguments.headD default)
        malformedMiddleArguments.tail inner closing span items := by
  have onlyMalformed : OnlyMalformed {} (argumentList 9 {} (malformedMiddleArguments.headD default)
      malformedMiddleArguments.tail).out :=
    onlyMalformed_of_all (by decide +kernel)
  exact ⟨onlyMalformed, argumentList_keeps_slot_positions 9 {} _ _ onlyMalformed⟩

end Syntax

end ScriptLowering
