import Hyperscript.Compile.Compiler
import Hyperscript.Proofs.Program.Lowering

/-! The tree of the function that the compiler writes for a handler. -/
namespace Hyperscript.Compiler

open Program

def function? (compiler : Compiler) (input : HandlerInput) (context : Context) :
    Option Function := do
  let facts := input.facts.getD (Facts.ofScript input.node)
  let optimized := compiler.optimizer.optimize facts compiler.options.effort input.node
  let _ ← input.node.handler?
  let handler ← optimized.value.script.handler?
  return Function.ofHandler handler facts (context.setHandler compiler.nextId)

/-- The compiler accepts the handler, and the function is the code that it writes. -/
structure Writes (compiler : Compiler) (input : HandlerInput) (context : Context)
    (function : Function) : Prop where
  tree : compiler.function? input context = some function
  code : ∃ step, compiler.compileHandler input context = .ok step ∧
    step.handler.generated.handlerCode = function.render

theorem writes_of_function? {compiler : Compiler} {input : HandlerInput} {context : Context}
    {function : Function} (tree : compiler.function? input context = some function) :
    compiler.Writes input context function := by
  refine ⟨tree, ?_⟩
  obtain ⟨source, event, tree⟩ := Option.bind_eq_some_iff.mp tree
  obtain ⟨handler, optimized, tree⟩ := Option.bind_eq_some_iff.mp tree
  cases tree
  simp only [compileHandler, event, optimized]
  exact ⟨_, rfl, Function.render_ofHandler _ _ _⟩

theorem writes_of_handler? {compiler : Compiler} {input : HandlerInput} (context : Context)
    {source handler : Handler} (event : input.node.handler? = some source)
    (optimized : (compiler.optimizer.optimize (input.facts.getD (Facts.ofScript input.node))
      compiler.options.effort input.node).value.script.handler? = some handler) :
    compiler.Writes input context
      (.ofHandler handler (input.facts.getD (Facts.ofScript input.node))
        (context.setHandler compiler.nextId)) := by
  apply writes_of_function?
  simp only [function?, event, optimized]
  rfl

end Hyperscript.Compiler
