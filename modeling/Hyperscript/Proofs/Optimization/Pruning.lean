import Hyperscript.Optimization.Optimizer
import Hyperscript.Proofs.Meaning.Recording

/-! Dead-code elimination preserves what scripts do: a block is cut behind a command
that never ends normally, so what is dropped was never reached, in the first round of
a loop as in any later one. -/
namespace Hyperscript.Pruning

open Meaning Interpretation

theorem terminator_neverNormal {meaning : Interpretation}
    (terminates : ∀ name ∈ Node.terminators, ∀ args target,
      (meaning.command name args target).NeverNormal)
    (node : Node) (terminator : node.isTerminator = true) : (meaning.exec node).NeverNormal := by
  cases node with
  | command name args target =>
    have listed : Node.terminators.contains name = true := terminator
    exact terminates name (List.contains_iff_mem.mp listed) _ _
  | _ => contradiction

/-- Under every interpretation in which terminators always end abruptly, a pruned script
has the outcomes of the script: run as a whole, and as an expression. -/
theorem pruned_outcomes (meaning : Interpretation)
    (terminates : ∀ name ∈ Node.terminators, ∀ args target,
      (meaning.command name args target).NeverNormal)
    (facts : Facts) (tree : Node) :
    (∀ start completion final,
      meaning.run (Pass.deadCodeElimination.transform facts tree).value start completion final ↔
        meaning.run tree start completion final) ∧
    ∀ start completion final,
      meaning.eval (Pass.deadCodeElimination.transform facts tree).value start completion final ↔
        meaning.eval tree start completion final := by
  have same : meaning.Equivalent tree (revision.node tree).value :=
    .of_revision .refl (terminator_neverNormal terminates) tree
  exact ⟨fun _ _ _ => by rw [same.run]; rfl, fun _ _ _ => by rw [same.eval]; rfl⟩

/-- A terminator in the middle of a loop, and commands behind it at two depths. -/
def cutLoop : Node :=
  .event "click" {}
    [.forEach "item" (.identifier "list")
      [.ifElse (.identifier "item")
        [.command "return" [] none, .command "log" [.literal (.string "never")] none]
        (some [.command "log" [.identifier "item"] none])],
      .command "exit" [] none,
      .command "log" [.literal (.string "never")] none]

theorem pruned_cutLoop :
    (∀ name ∈ Node.terminators, ∀ args target,
      (recording.command name args target).NeverNormal) ∧
    (Pass.deadCodeElimination.transform {} cutLoop).changed = true ∧
    (∀ start completion final,
      recording.run (Pass.deadCodeElimination.transform {} cutLoop).value start completion final ↔
        recording.run cutLoop start completion final) ∧
    ∀ start completion final,
      recording.eval (Pass.deadCodeElimination.transform {} cutLoop).value start completion final ↔
        recording.eval cutLoop start completion final :=
  ⟨fun _ => recording_terminators, by decide,
    pruned_outcomes recording (fun _ => recording_terminators) {} cutLoop⟩

end Hyperscript.Pruning
