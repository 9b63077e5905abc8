import Hyperscript.Compile.Compiler

/-! Which passes a run of the optimizer includes, and what it makes of a script. -/
namespace Hyperscript

namespace Optimizer

/-- The pass is asked for, not disabled, and can find something to do. -/
def includes (optimizer : Optimizer) (facts : Facts) (effort : Effort) (pass : Pass) : Bool :=
  effort.includes pass.effort && !optimizer.disabled.contains pass.name && pass.isNeeded facts

theorem script_runPass (optimizer : Optimizer) (facts : Facts) (effort : Effort)
    (current : Optimized) (pass : Pass) :
    (optimizer.runPass facts effort current pass).value.script =
      if optimizer.includes facts effort pass then (pass.transform facts current.script).value
      else current.script := by
  unfold runPass includes
  cases effort.includes pass.effort <;> cases optimizer.disabled.contains pass.name <;>
    cases pass.isNeeded facts <;> rfl

/-- The script after a list of passes. -/
def scriptAfter (optimizer : Optimizer) (facts : Facts) (effort : Effort) (passes : List Pass)
    (script : Node) : Node :=
  passes.foldl (fun script pass =>
    if optimizer.includes facts effort pass then (pass.transform facts script).value else script)
    script

theorem scriptAfter_cons (optimizer : Optimizer) (facts : Facts) (effort : Effort) (pass : Pass)
    (passes : List Pass) (script : Node) :
    optimizer.scriptAfter facts effort (pass :: passes) script =
      optimizer.scriptAfter facts effort passes
        (if optimizer.includes facts effort pass then (pass.transform facts script).value
        else script) := rfl

/-- Passes that the effort does not ask for are as good as absent. -/
theorem scriptAfter_filter (optimizer : Optimizer) (facts : Facts) (effort : Effort)
    (passes : List Pass) (script : Node) :
    optimizer.scriptAfter facts effort (passes.filter (effort.includes ·.effort)) script =
      optimizer.scriptAfter facts effort passes script := by
  induction passes generalizing script with
  | nil => rfl
  | cons pass rest ih =>
    cases asked : effort.includes pass.effort with
    | true => simp only [List.filter_cons, asked, if_true, scriptAfter_cons, ih]
    | false => simp [asked, scriptAfter_cons, ih, includes]

theorem script_foldlM (optimizer : Optimizer) (facts : Facts) (effort : Effort) (passes : List Pass)
    (current : Optimized) :
    (passes.foldlM (optimizer.runPass facts effort) current).value.script =
      optimizer.scriptAfter facts effort passes current.script := by
  induction passes generalizing current with
  | nil => rfl
  | cons pass rest ih =>
    rw [List.foldlM_cons, Revised.value_bind, ih, script_runPass]
    rfl

theorem script_optimize (optimizer : Optimizer) (facts : Facts) {effort : Effort}
    (some : effort ≠ .none) (script : Node) :
    (optimizer.optimize facts effort script).value.script =
      optimizer.scriptAfter facts effort optimizer.passes script := by
  rw [optimize, if_neg some, script_foldlM]

/-- The first level folds constants and caches selectors. -/
theorem script_optimize_basic (optimizer : Optimizer) (all : optimizer.passes = Pass.all)
    (facts : Facts) (script : Node) :
    (optimizer.optimize facts .basic script).value.script =
      optimizer.scriptAfter facts .basic [.constantFolding, .selectorCaching] script := by
  rw [script_optimize _ _ (by decide), all, ← scriptAfter_filter]
  rfl

theorem foldl_disable (optimizer : Optimizer) (names : List String) :
    names.foldl disable optimizer = { optimizer with disabled := optimizer.disabled ++ names } := by
  induction names generalizing optimizer with
  | nil => simp
  | cons name rest ih => simp [ih, disable]

end Optimizer

namespace Compiler

theorem optimizer_eq (compiler : Compiler) :
    compiler.optimizer = { disabled := compiler.options.disabled } := by
  simp [optimizer, Optimizer.foldl_disable]

/-- The same compiler with another effort. -/
def withEffort (compiler : Compiler) (effort : Effort) : Compiler :=
  { compiler with options := { compiler.options with effort } }

end Compiler
end Hyperscript
