import Hyperscript.Proofs.Compile.BindingLines
import Hyperscript.Proofs.Compile.Modules

/-! Binding many handlers against binding one. Both register a handler by the same call; a batch
has one line for each of them, whatever the events, selectors and modifiers are, since none of
these can break a line. -/
namespace Hyperscript

open Text

namespace Binding

/-- The helpers of a batch are required one binding after the other. -/
theorem helpers_eq_foldl (known : List String) (bindings : List Binding) :
    helpers known bindings =
      bindings.foldl (fun known binding => helpers known [binding]) known := by
  simp [helpers, Ordered.insertAll, List.foldl_flatMap]

end Binding

namespace CompiledHandler

/-- The binding of a handler to the element at hand. -/
def ownBinding (handler : CompiledHandler) : Binding where
  target := .element Names.element
  event := handler.event
  handler := handler.functionName
  modifiers := handler.modifiers

/-- The line of a handler with a selector, where the document is waited for. -/
theorem map_binding? (handler : CompiledHandler) :
    handler.binding?.map ("  " ++ ·.statement) = handler.selector.map fun selector =>
      "  document.querySelectorAll(" ++ quoted selector ++ ").forEach(el => " ++
        handler.ownBinding.registration "el" ++ ");" := by
  have query : "  document.querySelectorAll(" = "  " ++ "document.querySelectorAll(" := rfl
  rw [binding?, Option.map_map, query]
  refine Option.map_congr fun selector _ => ?_
  have target : { handler.ownBinding with target := .selector selector }.target =
      .selector selector := rfl
  refine (congrArg ("  " ++ ·) (Binding.statement_selector target)).trans ?_
  simp only [String.append_assoc]
  rfl

end CompiledHandler

theorem GeneratedHandler.bind_eq (context : Context) (event : String) (modifiers : Modifiers) :
    let binding : Binding :=
      { target := .element Names.element
        event
        handler := Names.functionName context.handlerId
        modifiers }
    GeneratedHandler.bind context event modifiers =
      (binding.statement,
        { context with helpers := Binding.helpers context.helpers [binding] }) := by
  simp only [GeneratedHandler.bind, Context.requireAll_eq, Binding.helpers, List.flatMap_singleton]
  rfl

namespace CompiledModule

variable {compiled : CompiledModule}

theorem initialization?_eq (compiled : CompiledModule) :
    compiled.initialization? =
      if ∀ handler ∈ compiled.handlers, handler.selector = none then none
      else some (Binding.initialization (compiled.handlers.filterMap (·.binding?))) := by
  have blank : compiled.handlers.filterMap (·.binding?) = [] ↔
      ∀ handler ∈ compiled.handlers, handler.selector = none := by
    simp [List.filterMap_eq_nil_iff, CompiledHandler.binding?]
  unfold initialization?
  split
  next none => rw [if_pos (blank.mp none)]
  next some => rw [if_neg (mt blank.mpr some)]

theorem isUnbroken_bindings
    (unbroken : ∀ handler ∈ compiled.handlers, '\n' ∉ handler.handlerId.toList) :
    ∀ binding ∈ compiled.handlers.filterMap (·.binding?), binding.IsUnbroken := by
  intro binding member
  obtain ⟨handler, inModule, bound⟩ := List.mem_filterMap.mp member
  obtain ⟨selector, _, rfl⟩ := Option.map_eq_some_iff.mp bound
  have opening : '\n' ∉ "_handler_".toList := by decide
  exact ⟨unfed_append opening (unbroken handler inModule), nofun⟩

end CompiledModule

/-- What a handler is bound with alone is the statement that a batch would have for it. -/
theorem Compiler.Compiles.bindingCode {compiler : Compiler} {context : Context}
    {inputs : ModuleInput} {handlers : List CompiledHandler}
    (compiles : compiler.Compiles context inputs handlers) :
    ∀ handler ∈ handlers, handler.generated.bindingCode = handler.ownBinding.statement := by
  induction compiles with
  | done => simp
  | next run _ ih =>
    obtain ⟨source, body, -, -, made, -⟩ := compileHandler_eq_ok run
    refine List.forall_mem_cons.mpr ⟨?_, ih⟩
    rw [made]
    exact GeneratedHandler.bindingCode_generate _ _ _

namespace Binding

/-- A batch has one line for each binding, its statement; put off until the document is ready, it
has these lines one level further in between two of its own. A statement registers the handler on
an element or on each element of a selector by the same call, which is the call of a single
binding, and requires the same helpers in the same order. So the initialization of a module has
one line for each handler with a selector, in the order of the module, and there is one if there
is such a handler; and the binding code of a handler is the same registration, for itself. -/
theorem batch_agrees :
    (∀ bindings : List Binding, (∀ binding ∈ bindings, binding.IsUnbroken) →
      lines (statements bindings) = bindings.map statement ∧
      lines (initialization bindings) =
        "_rt.ready(() => \x7b" :: bindings.map ("  " ++ ·.statement) ++ ["\x7d);"] ∧
      initialization bindings = joinLines (lines (initialization bindings))) ∧
    (∀ (context : Context) (event : String) (modifiers : Modifiers),
      let binding : Binding :=
        { target := .element "_el"
          event
          handler := Names.functionName context.handlerId
          modifiers }
      GeneratedHandler.bind context event modifiers =
        (binding.statement, { context with helpers := helpers context.helpers [binding] })) ∧
    (∀ binding : Binding,
      (∀ expression, { binding with target := .element expression }.statement =
        binding.registration expression ++ ";") ∧
      (∀ selector, { binding with target := .selector selector }.statement =
        "document.querySelectorAll(" ++ quoted selector ++ ").forEach(el => " ++
          binding.registration "el" ++ ");") ∧
      ∀ known target, helpers known [{ binding with target }] = helpers known [binding]) ∧
    (∀ known bindings, helpers known bindings =
      bindings.foldl (fun known binding => helpers known [binding]) known) ∧
    (∀ compiled : CompiledModule,
      (∀ handler ∈ compiled.handlers, '\n' ∉ handler.handlerId.toList) →
      (compiled.initialization? = none ↔
        ∀ handler ∈ compiled.handlers, handler.selector = none) ∧
      ∀ code ∈ compiled.initialization?, lines code =
        "_rt.ready(() => \x7b" ::
          (compiled.handlers.filterMap fun handler => handler.selector.map fun selector =>
            "  document.querySelectorAll(" ++ quoted selector ++ ").forEach(el => " ++
              handler.ownBinding.registration "el" ++ ");") ++ ["\x7d);"]) ∧
    ∀ (compiler : Compiler) (inputs : ModuleInput) (compiled : CompiledModule),
      (compiler.compileModule inputs).result = .ok compiled →
      ∀ handler ∈ compiled.handlers,
        handler.generated.bindingCode = handler.ownBinding.registration "_el" ++ ";" := by
  refine ⟨?_, GeneratedHandler.bind_eq, ?_, helpers_eq_foldl, ?_, ?_⟩
  · intro bindings unbroken
    have cut := lines_initialization_of_unbroken unbroken
    refine ⟨lines_statements unbroken, cut.trans (initializationLines_eq bindings), ?_⟩
    rw [cut, initialization_of_unbroken unbroken]
  · intro binding
    exact ⟨fun _ => statement_element rfl, fun _ => statement_selector rfl, fun _ _ => rfl⟩
  · intro compiled unbroken
    rw [compiled.initialization?_eq]
    split
    next none => exact ⟨by simpa using none, by simp⟩
    next some =>
      refine ⟨by simpa using some, ?_⟩
      rintro _ ⟨⟩
      rw [lines_initialization_of_unbroken (CompiledModule.isUnbroken_bindings unbroken),
        initializationLines_eq, List.map_filterMap]
      simp only [CompiledHandler.map_binding?]
  · intro compiler inputs compiled accepted
    exact (Compiler.compiles_of_compileModule accepted).bindingCode

/-- Two handlers on events and selectors that hold line breaks and quotes, one of them bound to
a selector. -/
def hostileModule : CompiledModule where
  handlers :=
    [{ handlerId := "h1"
       event := "a\nb"
       applied := []
       selector := none
       modifiers := { once := true, source := some "li\r\n\"x\"" }
       generated :=
        { handlerCode := "", bindingCode := "", cleanup := none, isAsync := false
          imports := [] } },
      { handlerId := "h2"
        event := "click"
        applied := []
        selector := some "p\nq"
        modifiers := { capture := true }
        generated :=
          { handlerCode := "", bindingCode := "", cleanup := none, isAsync := false
            imports := [] } }]
  imports := []

theorem batch_agrees_hostileModule :
    let bindings := hostileModule.handlers.map (·.ownBinding)
    (∀ binding ∈ bindings, binding.IsUnbroken) ∧
    lines (statements bindings) =
      ["_rt.delegate(_el, \"a\\nb\", \"li\\r\\n\\\"x\\\"\", _handler_h1, \x7b once: true \x7d);",
        "_el.addEventListener(\"click\", _handler_h2, \x7b capture: true \x7d);"] ∧
    ∀ code ∈ hostileModule.initialization?, lines code =
      ["_rt.ready(() => \x7b",
        "  document.querySelectorAll(\"p\\nq\").forEach(el => " ++
          "el.addEventListener(\"click\", _handler_h2, \x7b capture: true \x7d));",
        "\x7d);"] := by
  obtain ⟨batch, -, -, -, initialized, -⟩ := batch_agrees
  have unbroken : ∀ binding ∈ hostileModule.handlers.map (·.ownBinding), binding.IsUnbroken := by
    have names : ∀ binding ∈ hostileModule.handlers.map (·.ownBinding),
        '\n' ∉ binding.handler.toList := by decide
    refine fun binding member => ⟨names binding member, ?_⟩
    obtain ⟨handler, -, rfl⟩ := List.mem_map.mp member
    rintro _ ⟨⟩
    decide
  have ids : ∀ handler ∈ hostileModule.handlers, '\n' ∉ handler.handlerId.toList := by decide
  refine ⟨unbroken, (batch _ unbroken).1.trans ?_, ?_⟩
  · decide +kernel
  · intro code found
    refine ((initialized hostileModule ids).2 code found).trans ?_
    decide +kernel

end Binding
end Hyperscript
