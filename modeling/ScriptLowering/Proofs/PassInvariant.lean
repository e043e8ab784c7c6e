import ScriptLowering.Proofs.FunctionClasses
import ScriptLowering.Proofs.FileClass

/-! # Lowering keeps programs sound

Each lowering pass takes a sound program to a sound one, and never fails on it
(`Pass.apply_sound`). A run of passes, in any order and any number of times, therefore keeps the
program sound (`runPasses_sound`). Conversion gives a sound program, so the converted program and
every program a run of passes gives from it is well formed, and in each the closest file or class
above every function of the tree is found (`runPasses_lowerable`).
-/

namespace ScriptLowering.Mir

/-- A program lowering can work on: well formed, and the closest file or class above every function
of its tree is found, in the tree. -/
def Program.Lowerable (program : Program) : Prop :=
  ∃ nodes, program.Shaped nodes ∧ ∀ node ∈ nodes, ∀ declared, (program.arena.node node).kind = .function declared →
    ∃ container ∈ nodes, program.arena.closestClassContainer node = some container ∧
      (program.arena.node container).kind.isClassContainer = true

theorem Program.Sound.lowerable {program : Program} {nodes : List Nat} (sound : program.Sound nodes) :
    program.Lowerable := by
  refine ⟨nodes, sound.toShaped, fun node member declared isFunction => ?_⟩
  obtain ⟨name, statements, isFile⟩ := sound.root
  -- The root is a file, so no function is the root.
  have notRoot : node ≠ program.file := fun same => by
    rw [same, isFile] at isFunction
    cases isFunction
  exact sound.toShaped.closestClassContainer member notRoot (by rw [isFunction]; rfl)

end ScriptLowering.Mir

namespace ScriptLowering.Lowering

open Mir

/-- Lowering a sound program runs each pass on a sound program. -/
theorem lower_sound {program : Program} {nodes : List Nat} (sound : program.Sound nodes) :
    ∃ after more, lower program = .ok after ∧ after.Sound more := by
  obtain ⟨reified, reifiedNodes, reifiedEq, reifiedSound⟩ := reifyFunctions_sound sound
  obtain ⟨arena, wrappedNodes, wrappedEq, wrappedSound⟩ := wrapInitializers_sound reifiedSound
  obtain ⟨final, finalNodes, finalEq, finalSound⟩ := wrapFile_sound wrappedSound
  refine ⟨final, finalNodes, ?_, finalSound⟩
  simp only [lower, reifiedEq, wrappedEq, finalEq, Bind.bind, Except.bind]

/-- Every pass takes a sound program to a sound one, without failing. -/
theorem Pass.apply_sound (pass : Pass) {program : Program} {nodes : List Nat} (sound : program.Sound nodes) :
    ∃ after more, pass.apply program = .ok after ∧ after.Sound more := by
  cases pass with
  | reify => exact reifyFunctions_sound sound
  | initializers =>
    obtain ⟨arena, more, wrapped, wrappedSound⟩ := wrapInitializers_sound sound
    exact ⟨_, more, wrapped, wrappedSound⟩
  | fileClass => exact wrapFile_sound sound
  | all => exact lower_sound sound

/-- A run of passes on a sound program: no pass fails, and each gives a sound program. By induction
on the requests, each pass starting from what the one before gave. -/
theorem runPasses_sound {α : Type} (select : α → Option Pass) :
    ∀ (requests : List α) {program : Program} {nodes : List Nat}, program.Sound nodes →
      ∀ outcome ∈ runPasses select program requests,
        (∃ request pass result more, outcome = .done request pass result ∧ result.Sound more) ∨
          ∃ request, outcome = .unknown request
  | [], _, _, _, _, member => absurd member List.not_mem_nil
  | request :: rest, program, _, sound, outcome, member => by
    unfold runPasses at member
    cases selected : select request with
    | none =>
      simp only [selected, List.mem_singleton] at member
      exact .inr ⟨request, member⟩
    | some pass =>
      obtain ⟨after, more, applied, afterSound⟩ := pass.apply_sound sound
      simp only [selected, applied, List.mem_cons] at member
      rcases member with rfl | later
      · exact .inl ⟨request, pass, after, more, rfl, afterSound⟩
      · exact runPasses_sound select rest afterSound outcome later

/-- The converted program, and every program a run of lowering passes gives from it, in any order
and any number of times, is lowerable; no pass fails. -/
theorem runPasses_lowerable {file : Hir.File} {program : Program} (converted : Program.convert file = .ok program)
    {α : Type} (select : α → Option Pass) (requests : List α) :
    program.Lowerable ∧ ∀ outcome ∈ runPasses select program requests,
      (∃ request pass result, outcome = .done request pass result ∧ result.Lowerable) ∨
        ∃ request, outcome = .unknown request := by
  obtain ⟨nodes, sound⟩ := Program.convert_sound converted
  refine ⟨sound.lowerable, fun outcome member => ?_⟩
  rcases runPasses_sound select requests sound outcome member with
    ⟨request, pass, result, more, rfl, resultSound⟩ | unknown
  · exact .inl ⟨request, pass, result, rfl, resultSound.lowerable⟩
  · exact .inr unknown

theorem runPasses_lowerable_nestedCallSample : ∃ program, Program.convert nestedCallSample = .ok program ∧
    program.Lowerable ∧
    ∀ outcome ∈ runPasses Pass.ofName? program ["reify", "clinit", "wrap_file", "lower", "clinit"],
      (∃ request pass result, outcome = .done request pass result ∧ result.Lowerable) ∨
        ∃ request, outcome = .unknown request := by
  obtain ⟨program, converted⟩ := convert_nestedCallSample
  exact ⟨program, converted, runPasses_lowerable converted Pass.ofName? _⟩

end ScriptLowering.Lowering
