import Hyperscript.Proofs.Analysis.Survey
import Hyperscript.Proofs.Optimization.Invariants

/-! Passes that are called off. Whether a pass is needed is judged by the facts about the
script as it came, before any pass has run. That loses nothing: a pass that is not needed
would find nothing to do, neither in the script itself nor in what earlier passes have
made of it, since no pass brings in a terminator or a loop. -/
namespace Hyperscript

open Node

/-- What the facts rule out is not there. -/
structure Facts.Vouch (facts : Facts) (script : Node) : Prop where
  calm : facts.canThrow = false → script.Everywhere (·.isTerminator = false)
  straight : facts.hasLoops = false → script.Everywhere (Facts.isLoop · = false)

namespace Facts

theorem isTerminator_of_mayThrow {node : Node} (calm : mayThrow node = false) :
    node.isTerminator = false := by
  cases node with
  | command name args target =>
    simp only [mayThrow, commandName?, Option.any_some, Bool.or_eq_false_iff] at calm
    exact calm.1
  | _ => rfl

theorem vouch_ofScript (script : Node) : (ofScript script).Vouch script where
  calm none inner inside := by
    rw [canThrow_ofScript] at none
    exact isTerminator_of_mayThrow (anyInSubtree_eq_false_iff.mp none inner inside)
  straight none := by
    rw [hasLoops_ofScript] at none
    exact anyInSubtree_eq_false_iff.mp none

theorem stable_isTerminator (facts : Facts) : Stable facts (·.isTerminator = false) where
  ofRoot same calm := same.isTerminator.trans calm
  literal _ := rfl
  sequence _ _ := rfl
  selector _ _ _ := rfl

theorem stable_isLoop (facts : Facts) : Stable facts (isLoop · = false) where
  ofRoot same straight := same.isLoop.trans straight
  literal _ := rfl
  sequence _ _ := rfl
  selector _ _ _ := rfl

/-- No pass brings in what the facts rule out. -/
theorem Vouch.transform {facts : Facts} {script : Node} (vouch : facts.Vouch script) (pass : Pass) :
    facts.Vouch (pass.transform facts script).value where
  calm none := (stable_isTerminator facts).transform pass script (vouch.calm none)
  straight none := (stable_isLoop facts).transform pass script (vouch.straight none)

end Facts

namespace Pass

theorem fold_eq_pure {node : Node} (impure : Facts.isPure node = false) :
    Folding.fold node = pure node := by
  unfold Folding.fold
  split
  next => contradiction
  next => rfl

theorem unroll_eq_pure {node : Node} (straight : Facts.isLoop node = false) :
    Unrolling.unroll node = pure node := by
  unfold Unrolling.unroll
  split
  next => contradiction
  next => rfl

theorem constantFolding_idle {script : Node} (unneeded : (Facts.ofScript script).hasPure = false) :
    constantFolding.transform (Facts.ofScript script) script = pure script := by
  have nowhere : script.Everywhere (Facts.isPure · = false) := by
    intro inner inside
    have none : script.subtree.filter Facts.isPure = [] := by
      simpa [Facts.hasPure, Facts.pure_ofScript] using unneeded
    simpa using List.filter_eq_nil_iff.mp none inner inside
  exact Revision.node_eq_pure script fun inner inside => ⟨fold_eq_pure (nowhere inner inside), rfl⟩

/-- Without candidates there are no keys, whatever the script. -/
theorem selectorCaching_idle {facts : Facts} (unneeded : facts.hasCandidates = false)
    (script : Node) : selectorCaching.transform facts script = pure script := by
  have candidates : facts.candidates = [] := by
    simpa [Facts.candidates, Facts.hasCandidates] using unneeded
  have keys : Caching.keysFor facts = pure [] := by simp [Caching.keysFor, candidates]
  have unmarked (node : Node) : Caching.annotate [] node = pure node := by
    unfold Caching.annotate
    split <;> simp
  simp only [transform, keys, pure_bind]
  exact Revision.node_eq_pure script fun inner _ => ⟨unmarked inner, rfl⟩

theorem deadCodeElimination_idle {facts : Facts} {script : Node} (vouch : facts.Vouch script)
    (unneeded : facts.canThrow = false) :
    deadCodeElimination.transform facts script = pure script :=
  Revision.node_eq_pure script fun inner inside => ⟨rfl, vouch.calm unneeded inner inside⟩

theorem loopUnrolling_idle {facts : Facts} {script : Node} (vouch : facts.Vouch script)
    (unneeded : facts.hasLoops = false) : loopUnrolling.transform facts script = pure script :=
  Revision.node_eq_pure script fun inner inside =>
    ⟨unroll_eq_pure (vouch.straight unneeded inner inside), rfl⟩

/-- After folding, a pass that the facts call off finds nothing to do. -/
theorem transform_eq_pure {facts : Facts} {script : Node} (vouch : facts.Vouch script) {pass : Pass}
    (later : pass ≠ .constantFolding) (unneeded : pass.isNeeded facts = false) :
    pass.transform facts script = pure script := by
  cases pass with
  | constantFolding => contradiction
  | selectorCaching => exact selectorCaching_idle unneeded script
  | deadCodeElimination => exact deadCodeElimination_idle vouch unneeded
  | loopUnrolling => exact loopUnrolling_idle vouch unneeded

/-- The script after all of the passes, needed or not. -/
def compose (facts : Facts) (passes : List Pass) (script : Node) : Node :=
  passes.foldl (fun script pass => (pass.transform facts script).value) script

end Pass

namespace Optimizer

/-- One step of the optimizer with the question left out whether the pass is needed. -/
theorem step_eq (optimizer : Optimizer) {facts : Facts} {effort : Effort} {pass : Pass}
    {script : Node} (asked : effort.includes pass.effort = true)
    (idle : pass.isNeeded facts = false → pass.transform facts script = pure script) :
    (if optimizer.includes facts effort pass then (pass.transform facts script).value else script) =
      if optimizer.disabled.contains pass.name then script
      else (pass.transform facts script).value := by
  unfold Optimizer.includes
  cases optimizer.disabled.contains pass.name with
  | true => simp only [Bool.not_true, Bool.and_false, Bool.false_and, Bool.false_eq_true, if_false,
      if_true]
  | false =>
    cases needed : pass.isNeeded facts with
    | true =>
      simp only [asked, Bool.not_false, Bool.and_self, if_true, Bool.false_eq_true, if_false]
    | false =>
      simp only [Bool.and_false, Bool.false_eq_true, if_false, idle needed, Revised.value_pure]

theorem compose_filter_cons (optimizer : Optimizer) (facts : Facts) (pass : Pass)
    (rest : List Pass) (script : Node) :
    Pass.compose facts ((pass :: rest).filter fun pass => !optimizer.disabled.contains pass.name)
        script =
      Pass.compose facts (rest.filter fun pass => !optimizer.disabled.contains pass.name)
        (if optimizer.disabled.contains pass.name then script
        else (pass.transform facts script).value) := by
  cases disabled : optimizer.disabled.contains pass.name <;>
    simp only [List.filter_cons, disabled, Bool.not_true, Bool.not_false, Bool.false_eq_true,
      if_false, if_true]
  rfl

theorem scriptAfter_eq_compose (optimizer : Optimizer) {facts : Facts} {effort : Effort}
    {passes : List Pass} (asked : ∀ pass ∈ passes, effort.includes pass.effort = true)
    (later : ∀ pass ∈ passes, pass ≠ .constantFolding) {script : Node}
    (vouch : facts.Vouch script) :
    optimizer.scriptAfter facts effort passes script =
      Pass.compose facts (passes.filter fun pass => !optimizer.disabled.contains pass.name)
        script := by
  induction passes generalizing script with
  | nil => rfl
  | cons pass rest ih =>
    have step := optimizer.step_eq (asked pass List.mem_cons_self)
      (Pass.transform_eq_pure vouch (later pass List.mem_cons_self))
    rw [scriptAfter_cons, step, compose_filter_cons]
    apply ih
    · exact fun other member => asked other (List.mem_cons_of_mem _ member)
    · exact fun other member => later other (List.mem_cons_of_mem _ member)
    · split
      · exact vouch
      · exact vouch.transform pass

/-- Folding comes first and sees the script itself; the passes behind it see what the facts
still vouch for. -/
theorem scriptAfter_folding (optimizer : Optimizer) {effort : Effort} {passes : List Pass}
    (asked : ∀ pass ∈ Pass.constantFolding :: passes, effort.includes pass.effort = true)
    (later : ∀ pass ∈ passes, pass ≠ .constantFolding) (script : Node) :
    optimizer.scriptAfter (Facts.ofScript script) effort (.constantFolding :: passes) script =
      Pass.compose (Facts.ofScript script)
        ((.constantFolding :: passes).filter fun pass => !optimizer.disabled.contains pass.name)
        script := by
  have vouch := Facts.vouch_ofScript script
  have step := optimizer.step_eq (asked _ List.mem_cons_self) (@Pass.constantFolding_idle script)
  rw [scriptAfter_cons, step, compose_filter_cons]
  refine optimizer.scriptAfter_eq_compose
    (fun other member => asked other (List.mem_cons_of_mem _ member)) later ?_
  split
  · exact vouch
  · exact vouch.transform _

/-- A pass that the facts of a script call off would return the script unchanged; and an
optimizer gives what its passes, those not disabled, give one after the other without any
of them being called off. -/
theorem optimize_eq_compose (script : Node) :
    (∀ pass : Pass, pass.isNeeded (Facts.ofScript script) = false →
      pass.transform (Facts.ofScript script) script = pure script) ∧
    ∀ disabled : List String,
      ((disabled.foldl disable {}).optimize (Facts.ofScript script) .full script).value.script =
        Pass.compose (Facts.ofScript script)
          ([.constantFolding, .selectorCaching, .deadCodeElimination, .loopUnrolling].filter
            fun pass => !disabled.contains pass.name) script ∧
      ((disabled.foldl disable {}).optimize (Facts.ofScript script) .basic script).value.script =
        Pass.compose (Facts.ofScript script)
          ([.constantFolding, .selectorCaching].filter fun pass => !disabled.contains pass.name)
          script := by
  constructor
  · intro pass unneeded
    cases pass with
    | constantFolding => exact Pass.constantFolding_idle unneeded
    | _ => exact Pass.transform_eq_pure (Facts.vouch_ofScript script) (by decide) unneeded
  · intro disabled
    simp only [foldl_disable, List.nil_append]
    constructor
    · rw [script_optimize _ _ (by decide)]
      exact scriptAfter_folding _ (by decide) (by decide) script
    · rw [script_optimize_basic _ rfl]
      exact scriptAfter_folding _ (by decide) (by decide) script

/-- A loop around a constant, without selectors and terminators. -/
def loggedSum : Node :=
  .event "click" {}
    [.repeatTimes (some (.literal (.number 2.0)))
      [.command "log" [.binary "+" (.literal (.number 1.0)) (.literal (.number 2.0))] none]]

theorem optimize_loggedSum :
    Pass.deadCodeElimination.isNeeded (Facts.ofScript loggedSum) = false ∧
    Pass.deadCodeElimination.transform (Facts.ofScript loggedSum) loggedSum = pure loggedSum ∧
    ((["loop-unrolling"].foldl disable {}).optimize (Facts.ofScript loggedSum) .full
        loggedSum).value.script =
      Pass.compose (Facts.ofScript loggedSum)
        [.constantFolding, .selectorCaching, .deadCodeElimination] loggedSum :=
  ⟨rfl, (optimize_eq_compose loggedSum).1 _ rfl,
    ((optimize_eq_compose loggedSum).2 ["loop-unrolling"]).1⟩

end Optimizer
end Hyperscript
