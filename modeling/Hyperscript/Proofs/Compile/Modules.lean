import Hyperscript.Proofs.Optimization.Invariants
import Hyperscript.Proofs.Program.Threading

/-! The handlers of a module one after the other. Of the context that it is handed, a handler
sees the helpers required so far and nothing else, and they show in its imports only; it adds
its own helpers and leaves no selectors behind. So the handlers of an accepted module are those
of single compilations, each with the helpers of the handlers before it. -/
namespace Hyperscript

/-- The same code with other imports. -/
def GeneratedHandler.withImports (generated : GeneratedHandler) (imports : List String) :
    GeneratedHandler :=
  { generated with imports }

/-- The same handler with other imports. -/
def CompiledHandler.withImports (handler : CompiledHandler) (imports : List String) :
    CompiledHandler :=
  { handler with generated := handler.generated.withImports imports }

namespace GeneratedHandler

/-- The helpers required so far make no difference to a handler, its imports apart. -/
theorem generate_helpers (handler : Handler) (facts : Facts) (handlerId : String)
    (helpers helpers' : List String) :
    (generate handler facts { handlerId, helpers }).1 =
      (generate handler facts { handlerId, helpers := helpers' }).1.withImports
        (generate handler facts { handlerId, helpers }).1.imports := by
  have same : (Context.cacheAll { handlerId, helpers } (Statement.body handler.body).reads).cached =
      (Context.cacheAll { handlerId, helpers := helpers' }
        (Statement.body handler.body).reads).cached :=
    Context.cached_cacheAll (by rfl) _
  simp only [generate_eq, Emission.run, same, withImports]

theorem bindingCode_generate (handler : Handler) (facts : Facts) (context : Context) :
    (generate handler facts context).1.bindingCode =
      Listener.binding context.handlerId handler.event handler.modifiers := by
  rw [generate_eq]

theorem cleanup_generate (handler : Handler) (facts : Facts) (context : Context) :
    (generate handler facts context).1.cleanup =
      Listener.cleanup? context.handlerId handler.event handler.modifiers := by
  rw [generate_eq]

theorem imports_generate (handler : Handler) (facts : Facts) (context : Context) :
    (generate handler facts context).1.imports =
      Ordered.insertAll (Ordered.insertAll [Names.createContext]
        (Ordered.insertAll context.helpers handler.modifiers.helpers)) facts.helpers := by
  rw [generate_eq]

theorem context_generate (handler : Handler) (facts : Facts) (context : Context) :
    (generate handler facts context).2.1 =
      { context with
        helpers := Ordered.insertAll context.helpers handler.modifiers.helpers
        cached := [] } := by
  rw [generate_eq]

end GeneratedHandler

namespace Compiler

/-- A result by what can be seen of it. -/
theorem exists_ok {ε α β : Type} {result : Except ε α} {view : α → β} {value : β}
    (viewed : result.toOption.map view = some value) :
    ∃ outcome, result = .ok outcome ∧ view outcome = value := by
  cases result with
  | error => cases viewed
  | ok outcome => exact ⟨outcome, rfl, Option.some.inj viewed⟩

/-- The compiler once it has handed out so many more ids. -/
def after (compiler : Compiler) (count : Nat) : Compiler :=
  { compiler with issued := compiler.issued + count }

/-- What a handler is compiled with. -/
def factsFor (input : HandlerInput) : Facts := input.facts.getD (Facts.ofScript input.node)

def optimized (compiler : Compiler) (input : HandlerInput) : Optimized :=
  (compiler.optimizer.optimize (factsFor input) compiler.options.effort input.node).value

/-- The handler that comes of a handler node of the optimized script, with the helpers
required before. -/
def handlerOf (compiler : Compiler) (input : HandlerInput) (helpers : List String)
    (handler : Handler) : CompiledHandler where
  handlerId := compiler.nextId
  event := handler.event
  applied := (compiler.optimized input).applied
  selector := input.selector
  modifiers := handler.modifiers
  generated :=
    (GeneratedHandler.generate handler (factsFor input) { handlerId := compiler.nextId, helpers }).1

/-- A handler node stays one for the same event when it is optimized. -/
theorem handler?_optimized (compiler : Compiler) {input : HandlerInput} {source : Handler}
    (event : input.node.handler? = some source) :
    ∃ body, (compiler.optimized input).script.handler? = some { source with body } :=
  compiler.optimizer.handler?_optimize (factsFor input) compiler.options.effort event

/-- One step: a handler node is compiled in every context, and of the context only the helpers
matter. -/
theorem compileHandler_of_optimized {compiler : Compiler} {input : HandlerInput}
    {source handler : Handler} (event : input.node.handler? = some source)
    (optimized : (compiler.optimized input).script.handler? = some handler) (context : Context) :
    ∃ step, compiler.compileHandler input context = .ok step ∧
      step.handler = compiler.handlerOf input context.helpers handler ∧
      step.compiler = compiler.after 1 ∧
      step.context =
        { handlerId := compiler.nextId
          helpers := Ordered.insertAll context.helpers handler.modifiers.helpers } := by
  have found : (compiler.optimizer.optimize (input.facts.getD (Facts.ofScript input.node))
      compiler.options.effort input.node).value.script.handler? = some handler := optimized
  simp only [compileHandler, event, found]
  refine ⟨_, rfl, rfl, rfl, ?_⟩
  exact GeneratedHandler.context_generate handler (factsFor input)
    (context.setHandler compiler.nextId)

/-- What there was to compile, and what has come of it. -/
theorem compileHandler_eq_ok {compiler : Compiler} {input : HandlerInput} {context : Context}
    {step : Step} (compiled : compiler.compileHandler input context = .ok step) :
    ∃ source body, input.node.handler? = some source ∧
      (compiler.optimized input).script.handler? = some { source with body } ∧
      step.handler = compiler.handlerOf input context.helpers { source with body } ∧
      step.compiler = compiler.after 1 ∧
      step.context =
        { handlerId := compiler.nextId
          helpers := Ordered.insertAll context.helpers source.modifiers.helpers } := by
  cases event : input.node.handler? with
  | none => simp [compileHandler, event] at compiled
  | some source =>
    obtain ⟨body, optimized⟩ := compiler.handler?_optimized event
    obtain ⟨other, same, parts⟩ := compileHandler_of_optimized event optimized context
    cases Except.ok.inj (same.symm.trans compiled)
    exact ⟨source, body, rfl, optimized, parts⟩

/-- Inputs become handlers one after the other, in one context. -/
inductive Compiles : Compiler → Context → ModuleInput → List CompiledHandler → Prop where
  | done (compiler context) : Compiles compiler context [] []
  | next {compiler context input step inputs handlers} :
      compiler.compileHandler input context = .ok step →
      Compiles step.compiler step.context inputs handlers →
      Compiles compiler context (input :: inputs) (step.handler :: handlers)

theorem compiles_of_compileAll {progress final : Progress} {inputs : ModuleInput}
    (run : compileAll progress inputs = (final, none)) :
    ∃ handlers, final.handlers = progress.handlers ++ handlers ∧
      progress.compiler.Compiles progress.context inputs handlers := by
  induction inputs generalizing progress with
  | nil =>
    cases run
    exact ⟨[], by simp, .done _ _⟩
  | cons input rest ih =>
    unfold compileAll at run
    split at run
    next => cases run
    next step compiled =>
      obtain ⟨handlers, collected, compiles⟩ := ih run
      exact ⟨step.handler :: handlers, by simp [collected], .next compiled compiles⟩

theorem compiles_of_compileModule {compiler : Compiler} {inputs : ModuleInput}
    {compiled : CompiledModule} (accepted : (compiler.compileModule inputs).result = .ok compiled) :
    compiler.Compiles { handlerId := compiler.options.idStem } inputs compiled.handlers := by
  simp only [compileModule] at accepted
  split at accepted
  next => cases accepted
  next progress run =>
    cases accepted
    obtain ⟨handlers, collected, compiles⟩ := compiles_of_compileAll run
    rw [List.nil_append] at collected
    exact collected ▸ compiles

namespace Compiles

variable {compiler : Compiler} {context : Context} {inputs : ModuleInput}
  {handlers : List CompiledHandler}

theorem length_eq (compiles : compiler.Compiles context inputs handlers) :
    handlers.length = inputs.length := by
  induction compiles with
  | done => rfl
  | next _ _ ih => rw [List.length_cons, List.length_cons, ih]

/-- A handler of a module is that of a single compilation. What it finds in the context are
the helpers that the bindings before it have required. -/
theorem getElem? (compiles : compiler.Compiles context inputs handlers) {i : Nat}
    {input : HandlerInput} (at_i : inputs[i]? = some input) {handler : CompiledHandler}
    (compiled : handlers[i]? = some handler) :
    ∃ before step, (compiler.after i).compileHandler input before = .ok step ∧
      step.handler = handler ∧
      before.helpers = Ordered.insertAll context.helpers
        ((handlers.take i).flatMap (·.modifiers.helpers)) := by
  induction compiles generalizing i with
  | done => cases at_i
  | @next compiler context first step inputs handlers run rest ih =>
    cases i with
    | zero =>
      cases at_i
      cases compiled
      exact ⟨context, step, run, rfl, rfl⟩
    | succ i =>
      obtain ⟨before, later, found, same, helpers⟩ := ih at_i compiled
      obtain ⟨source, _, _, _, made, advanced, left⟩ := compileHandler_eq_ok run
      have modifiers : step.handler.modifiers = source.modifiers := by
        rw [made]
        rfl
      have moved : (compiler.after 1).after i = compiler.after (i + 1) := by
        simp only [after, Nat.add_assoc, Nat.add_comm 1 i]
      refine ⟨before, later, ?_, same, ?_⟩
      · rwa [advanced, moved] at found
      · rw [helpers, left, List.take_succ_cons, List.flatMap_cons, modifiers, Ordered.insertAll,
          Ordered.insertAll, Ordered.insertAll, List.foldl_append]

end Compiles
end Compiler
end Hyperscript
