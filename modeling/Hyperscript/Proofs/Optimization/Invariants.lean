import Hyperscript.Proofs.Optimization.Pipeline
import Hyperscript.Proofs.Optimization.Unrolling
import Hyperscript.Proofs.Script.Everywhere

/-! What no pass changes. A pass folds operators to literals, gives selectors the keys that
the facts assign, drops statements and turns repetitions into sequences; so a property of
nodes that none of this can break holds of an optimized script if it held of the script.
And the root stays: the optimized form of a handler is a handler for the same event. -/
namespace Hyperscript

open Node

namespace Node

theorem SameRoot.commandName? {node node' : Node} (same : SameRoot node node') :
    node'.commandName? = node.commandName? := by
  cases same <;> rfl

theorem SameRoot.isTerminator {node node' : Node} (same : SameRoot node node') :
    node'.isTerminator = node.isTerminator := by
  simp only [Node.isTerminator, same.commandName?]

theorem SameRoot.isLoop {node node' : Node} (same : SameRoot node node') :
    Facts.isLoop node' = Facts.isLoop node := by
  cases same <;> rfl

theorem SameRoot.selector {value : String} {cacheKey : Option String} {node : Node}
    (same : SameRoot node (.selector value cacheKey)) : node = .selector value cacheKey := by
  cases same
  rfl

end Node

/-- What holds of literals, of the nodes that the rule lets be, and beneath, holds all over
the outcome of the rule. -/
theorem Folding.everywhere_fold {p : Node → Prop} (literal : ∀ value, p (.literal value))
    {node : Node} (kept : (fold node).value = node → p node)
    (inside : ∀ child ∈ node.children, child.Everywhere p) :
    (fold node).value.Everywhere p := by
  unfold fold at kept ⊢
  split at kept
  next operator left right =>
    split at kept
    next value _ =>
      exact everywhere_iff.mpr ⟨literal value, by simp [children, Revised.replaced]⟩
    next => exact everywhere_iff.mpr ⟨kept rfl, inside⟩
  next => exact everywhere_iff.mpr ⟨kept rfl, inside⟩

/-- The same of the rule that marks selectors, for what holds of marked ones. -/
theorem Caching.everywhere_annotate {keys : Keys} {p : Node → Prop}
    (marked : ∀ value key, keys.lookup value = some key → p (.selector value (some key)))
    {node : Node} (kept : (annotate keys node).value = node → p node)
    (inside : ∀ child ∈ node.children, child.Everywhere p) :
    (annotate keys node).value.Everywhere p := by
  unfold annotate at kept ⊢
  split at kept
  next value cacheKey =>
    split at kept
    next key found =>
      by_cases present : cacheKey = some key
      · rw [if_pos present] at kept ⊢
        exact everywhere_iff.mpr ⟨kept rfl, inside⟩
      · rw [if_neg present]
        exact everywhere_iff.mpr ⟨marked value key found, by simp [children, Revised.replaced]⟩
    next => exact everywhere_iff.mpr ⟨kept rfl, inside⟩
  next => exact everywhere_iff.mpr ⟨kept rfl, inside⟩

/-- An unrolled repetition is a sequence, and what is in it was in the body. -/
theorem Unrolling.everywhere_unroll {p : Node → Prop}
    (sequence : ∀ commands, p (.sequence commands true)) {node : Node}
    (kept : (unroll node).value = node → p node)
    (inside : ∀ child ∈ node.children, child.Everywhere p) :
    (unroll node).value.Everywhere p := by
  unfold unroll at kept ⊢
  split at kept
  next number body =>
    split at kept
    next => exact everywhere_iff.mpr ⟨kept rfl, inside⟩
    next clear =>
      obtain ⟨⟨count, _, whole⟩, _⟩ := of_obstacle?_eq_none clear
      refine everywhere_iff.mpr ⟨sequence _, ?_⟩
      intro copy member
      have inBody : copy ∈ body := by
        simp only [Revised.replaced, children, iterations_eq whole, List.mem_flatten,
          List.mem_replicate] at member
        obtain ⟨_, ⟨_, rfl⟩, held⟩ := member
        exact held
      exact inside copy (by simp [children, inBody])
  next => exact everywhere_iff.mpr ⟨kept rfl, inside⟩

/-- What the passes may do to a script with these facts leaves the property alone. -/
structure Stable (facts : Facts) (p : Node → Prop) : Prop where
  ofRoot : IsOfRoot p
  literal (value) : p (.literal value)
  sequence (commands unrolled) : p (.sequence commands unrolled)
  selector (value key) : (Caching.keysFor facts).value.lookup value = some key →
    p (.selector value (some key))

namespace Stable

variable {facts : Facts} {p : Node → Prop}

theorem transform (stable : Stable facts p) (pass : Pass) (tree : Node) (all : tree.Everywhere p) :
    (pass.transform facts tree).value.Everywhere p := by
  have root {node : Node} (all : node.Everywhere p) : p node := (everywhere_iff.mp all).1
  have inside {node : Node} (all : node.Everywhere p) :
      ∀ child ∈ node.children, child.Everywhere p := (everywhere_iff.mp all).2
  cases pass with
  | constantFolding =>
    exact Revision.everywhere_node stable.ofRoot (fun _ all =>
      Folding.everywhere_fold stable.literal (fun _ => root all) (inside all)) tree all
  | selectorCaching =>
    exact Revision.everywhere_node stable.ofRoot (fun _ all =>
      Caching.everywhere_annotate stable.selector (fun _ => root all) (inside all)) tree all
  | deadCodeElimination => exact Revision.everywhere_node stable.ofRoot (fun _ all => all) tree all
  | loopUnrolling =>
    exact Revision.everywhere_node stable.ofRoot (fun _ all =>
      Unrolling.everywhere_unroll (stable.sequence · true) (fun _ => root all) (inside all))
      tree all

end Stable

namespace Optimizer

/-- What every pass keeps, an optimizer keeps, whatever passes it runs. -/
theorem optimize_induction {P : Node → Prop} (optimizer : Optimizer) (facts : Facts)
    (effort : Effort) (keeps : ∀ pass tree, P tree → P (Pass.transform facts tree pass).value)
    {script : Node} (holds : P script) :
    P (optimizer.optimize facts effort script).value.script := by
  by_cases idle : effort = .none
  · simpa [optimize, idle] using holds
  rw [script_optimize optimizer facts idle]
  induction optimizer.passes generalizing script with
  | nil => exact holds
  | cons pass rest ih =>
    rw [scriptAfter_cons]
    apply ih
    split
    · exact keeps pass script holds
    · exact holds

theorem everywhere_optimize {facts : Facts} {p : Node → Prop} (stable : Stable facts p)
    (optimizer : Optimizer) (effort : Effort) {script : Node} (all : script.Everywhere p) :
    (optimizer.optimize facts effort script).value.script.Everywhere p :=
  optimizer.optimize_induction facts effort
    (fun pass tree inside => stable.transform pass tree inside) all

end Optimizer

namespace Revision

/-- A revision whose rule lets handlers be has a handler for a handler. -/
theorem handler?_node {revision : Revision}
    (rule : ∀ name modifiers body, revision.finish (.event name modifiers body) =
      pure (.event name modifiers body))
    {tree : Node} {handler : Handler} (event : tree.handler? = some handler) :
    ∃ body, (revision.node tree).value.handler? = some { handler with body } := by
  cases tree with
  | event name modifiers body =>
    cases event
    exact ⟨(revision.block body).value, by simp [Revision.node, rule, handler?]⟩
  | _ => cases event

end Revision

namespace Optimizer

theorem handler?_optimize (optimizer : Optimizer) (facts : Facts) (effort : Effort) {script : Node}
    {handler : Handler} (event : script.handler? = some handler) :
    ∃ body, (optimizer.optimize facts effort script).value.script.handler? =
      some { handler with body } := by
  refine optimizer.optimize_induction facts effort ?_ ⟨handler.body, event⟩
    (P := fun tree => ∃ body, tree.handler? = some { handler with body })
  rintro pass tree ⟨body, found⟩
  have step {revision : Revision}
      (rule : ∀ name modifiers body, revision.finish (.event name modifiers body) =
        pure (.event name modifiers body)) := Revision.handler?_node rule found
  cases pass with
  | constantFolding => exact step fun _ _ _ => rfl
  | selectorCaching => exact step fun _ _ _ => rfl
  | deadCodeElimination => exact step fun _ _ _ => rfl
  | loopUnrolling => exact step fun _ _ _ => rfl

end Optimizer
end Hyperscript
