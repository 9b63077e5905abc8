import Hyperscript.Ordered
import Hyperscript.Proofs.Compile.Modules
import Hyperscript.Proofs.Optimization.Caching
import Mathlib.Data.List.Nodup
import Mathlib.Data.List.Perm.Subperm

/-! Handlers of one module do not interfere. They share a context, but each comes out as it
would alone, its imports apart: these name, besides its own helpers, those of the handlers
before it, and name all of them in the order in which the module came to need them. Nor does
any context show in what is written for the parts of a handler. -/
namespace Hyperscript

namespace Compiler

open Program

variable {compiler : Compiler} {input : HandlerInput}

/-- What a handler imports, whatever the order. -/
theorem mem_imports_handlerOf {helpers : List String} {handler : Handler} {name : String} :
    name ∈ (compiler.handlerOf input helpers handler).generated.imports ↔
      name = Names.createContext ∨ name ∈ helpers ∨ name ∈ handler.modifiers.helpers ∨
        name ∈ (factsFor input).helpers := by
  simp only [handlerOf, GeneratedHandler.imports_generate, Ordered.mem_insertAll,
    List.mem_singleton, or_assoc]

theorem nodup_imports_handlerOf (helpers : List String) (handler : Handler) :
    (compiler.handlerOf input helpers handler).generated.imports.Nodup := by
  simp only [handlerOf, GeneratedHandler.imports_generate]
  exact Ordered.nodup_insertAll (Ordered.nodup_insertAll (List.nodup_singleton _) _) _

/-- A handler imports all that it would alone. -/
theorem subperm_imports_handlerOf (helpers : List String) (handler : Handler) :
    (compiler.handlerOf input [] handler).generated.imports.Subperm
      (compiler.handlerOf input helpers handler).generated.imports := by
  refine List.subperm_of_subset (nodup_imports_handlerOf _ _) ?_
  intro name member
  rw [mem_imports_handlerOf] at member ⊢
  simp only [List.not_mem_nil, false_or] at member
  exact member.imp_right .inr

/-- What it would not import alone, others have required. -/
theorem mem_of_mem_imports_handlerOf {helpers : List String} {handler : Handler} {name : String}
    (imported : name ∈ (compiler.handlerOf input helpers handler).generated.imports)
    (notAlone : name ∉ (compiler.handlerOf input [] handler).generated.imports) :
    name ∈ helpers := by
  rw [mem_imports_handlerOf] at imported notAlone
  simp only [List.not_mem_nil, false_or] at notAlone
  obtain ⟨notCreated, notOwn⟩ := not_or.mp notAlone
  exact (imported.resolve_left notCreated).resolve_right notOwn

/-- Helpers that others require make no difference but to the imports. -/
theorem handlerOf_helpers (helpers helpers' : List String) (handler : Handler) :
    compiler.handlerOf input helpers handler =
      (compiler.handlerOf input helpers' handler).withImports
        (compiler.handlerOf input helpers handler).generated.imports := by
  have same := GeneratedHandler.generate_helpers handler (factsFor input) compiler.nextId helpers
    helpers'
  simp only [handlerOf, CompiledHandler.withImports]
  rw [← same]

/-- What a function declares, the script of its handler reads. -/
theorem declaration_mem_subtree {handler : Handler}
    (optimized : (compiler.optimized input).script.handler? = some handler) (facts : Facts)
    {context : Context} (blank : context.cached = []) {declaration : String × String}
    (declared : declaration ∈ (Function.ofHandler handler facts context).declarations) :
    .selector declaration.2 (some declaration.1) ∈ (compiler.optimized input).script.subtree := by
  have reads := Caching.reads_body fun node member =>
    Node.Selectors.child (fun selector key inside => inside)
      (Node.mem_children_of_handler? optimized member)
  have read : declaration ∈ (Statement.body handler.body).reads := by
    simpa [blank] using Caching.mem_cacheAll declared
  exact reads.reads declaration read

/-- What is written for expressions, commands and statements is the same in every context, although
the context is handed on all the way and takes up the selectors that are read.

So each handler of an accepted module is the one that its input gives alone, in a fresh
context for the same id. It is also the one that its input gives in any other context: no
context shows in the code, and none of the selectors in it is declared. Only the imports may
differ: there are all those of the handler alone, each as often, and the others are helpers
that the bindings of earlier handlers require. -/
theorem handlers_independent (compiler : Compiler) :
    (∀ node, (Generation.expression node).IsContextFree ∧
      (Generation.statement node).IsContextFree) ∧
    (∀ name args target, (Generation.command name args target).IsContextFree) ∧
    (∀ nodes, (Generation.body nodes).IsContextFree) ∧
    (∀ node, (Generation.expression node).Performs (Expression.generate node) ∧
      (Generation.statement node).Performs (Statement.generate node)) ∧
    ∀ (inputs : ModuleInput) (compiled : CompiledModule),
      (compiler.compileModule inputs).result = .ok compiled →
      compiled.handlers.length = inputs.length ∧
      ∀ (i : Nat) (input : HandlerInput) (handler : CompiledHandler),
        inputs[i]? = some input → compiled.handlers[i]? = some handler →
        ∃ alone function,
          (compiler.after i).compileHandler input { handlerId := handler.handlerId } = .ok alone ∧
          handler = alone.handler.withImports handler.generated.imports ∧
          alone.handler.generated.imports.Subperm handler.generated.imports ∧
          (∀ name ∈ handler.generated.imports, name ∉ alone.handler.generated.imports →
            ∃ earlier ∈ compiled.handlers.take i, name ∈ earlier.modifiers.helpers) ∧
          (∀ context, ∃ step, (compiler.after i).compileHandler input context = .ok step ∧
            handler = step.handler.withImports handler.generated.imports ∧
            step.context.cached = []) ∧
          (compiler.after i).Writes input { handlerId := handler.handlerId } function ∧
          ∀ declaration ∈ function.declarations,
            .selector declaration.2 (some declaration.1) ∈
              ((compiler.after i).optimized input).script.subtree := by
  refine ⟨?_, ?_, ?_, ?_, ?_⟩
  · intro node
    exact ⟨(Generation.performs_expression node).isContextFree,
      (Generation.performs_statement node).isContextFree⟩
  · intro name args target
    exact (Generation.performs_command name args target).isContextFree
  · intro nodes
    exact (Generation.performs_body nodes).isContextFree
  · intro node
    exact ⟨Generation.performs_expression node, Generation.performs_statement node⟩
  · intro inputs compiled accepted
    have compiles := compiles_of_compileModule accepted
    refine ⟨compiles.length_eq, ?_⟩
    intro i input handler at_i compiledAt
    obtain ⟨before, step, found, rfl, helpers⟩ := compiles.getElem? at_i compiledAt
    obtain ⟨source, body, event, optimized, made, -, -⟩ := compileHandler_eq_ok found
    have anywhere (context : Context) : ∃ step', (compiler.after i).compileHandler input context =
        .ok step' ∧ step.handler = step'.handler.withImports step.handler.generated.imports ∧
        step'.context.cached = [] := by
      obtain ⟨other, same, parts, -, left⟩ := compileHandler_of_optimized event optimized context
      refine ⟨other, same, ?_, by rw [left]⟩
      rw [made, parts]
      exact handlerOf_helpers _ _ _
    obtain ⟨alone, same, parts, -, -⟩ :=
      compileHandler_of_optimized event optimized { handlerId := step.handler.handlerId }
    refine ⟨alone, _, same, ?_, ?_, ?_, anywhere, writes_of_handler? _ event optimized, ?_⟩
    · rw [made, parts]
      exact handlerOf_helpers _ _ _
    · rw [made, parts]
      exact subperm_imports_handlerOf _ _
    · intro name imported notAlone
      rw [made] at imported
      rw [parts] at notAlone
      have required := mem_of_mem_imports_handlerOf imported notAlone
      rw [helpers, Ordered.mem_insertAll, List.mem_flatMap] at required
      exact required.resolve_left List.not_mem_nil
    · intro declaration declared
      exact declaration_mem_subtree optimized _ rfl declared

/-- Two handlers with rate limits. The first reads a selector for a command that then comes to
nothing, and the second asks for the same selector. -/
def limitedScroll : HandlerInput where
  node := .event "scroll" { throttle := some 100.0 }
    [.command "log" [.selector ".a" none, .selector ".a" none, .unknown] none]

def limitedInput : HandlerInput where
  node := .event "input" { debounce := some 50.0, throttle := some 100.0 }
    [.command "add" [.selector ".on" none] (some (.selector ".a" none))]

theorem handlers_independent_limited :
    ∃ compiled handler alone,
      (({} : Compiler).compileModule [limitedScroll, limitedInput]).result = .ok compiled ∧
      compiled.handlers[1]? = some handler ∧
      (({} : Compiler).after 1).compileHandler limitedInput { handlerId := handler.handlerId } =
        .ok alone ∧
      handler = alone.handler.withImports handler.generated.imports ∧
      alone.handler.generated.imports.Subperm handler.generated.imports := by
  obtain ⟨compiled, accepted, count⟩ : ∃ compiled,
      (({} : Compiler).compileModule [limitedScroll, limitedInput]).result = .ok compiled ∧
        compiled.handlers.length = 2 := exists_ok (by decide +kernel)
  obtain ⟨-, -, -, -, modules⟩ := handlers_independent {}
  obtain ⟨-, each⟩ := modules _ compiled accepted
  have second : compiled.handlers[1]? = some (compiled.handlers[1]) := by simp
  obtain ⟨alone, _, same, parts, imports, _⟩ := each 1 limitedInput _ rfl second
  exact ⟨compiled, _, alone, accepted, second, same, parts, imports⟩

/-- The imports in a module are not those of the handler alone with names put in between: the
first handler came to need one of two helpers before the second asks for both. -/
theorem imports_reordered :
    ∃ compiled alone,
      (({} : Compiler).compileModule [limitedScroll, limitedInput]).result = .ok compiled ∧
      (({} : Compiler).after 1).compileHandler limitedInput { handlerId := "h2" } = .ok alone ∧
      compiled.handlers.map (·.handlerId) = ["h1", "h2"] ∧
      compiled.handlers.map (·.generated.imports) =
        [["createContext", "throttle"], ["createContext", "throttle", "debounce"]] ∧
      ¬alone.handler.generated.imports.Sublist ["createContext", "throttle", "debounce"] := by
  obtain ⟨compiled, accepted, seen⟩ : ∃ compiled,
      (({} : Compiler).compileModule [limitedScroll, limitedInput]).result = .ok compiled ∧
        (compiled.handlers.map (·.handlerId), compiled.handlers.map (·.generated.imports)) =
          (["h1", "h2"],
            [["createContext", "throttle"], ["createContext", "throttle", "debounce"]]) :=
    exists_ok (by decide +kernel)
  obtain ⟨alone, same, imports⟩ : ∃ alone,
      (({} : Compiler).after 1).compileHandler limitedInput { handlerId := "h2" } = .ok alone ∧
        alone.handler.generated.imports = ["createContext", "debounce", "throttle"] :=
    exists_ok (by decide +kernel)
  obtain ⟨ids, names⟩ := Prod.mk.inj seen
  refine ⟨compiled, alone, accepted, same, ids, names, ?_⟩
  rw [imports]
  decide

end Compiler
end Hyperscript
