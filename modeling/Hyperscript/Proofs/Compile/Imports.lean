import Hyperscript.Proofs.Compile.Independence
import Hyperscript.Proofs.Compile.Reading
import Hyperscript.Proofs.Program.RuntimeCalls

/-! The imports of a module. Each handler imports context creation, the helpers that bindings
have required up to its own, and what its facts name, each of them once and in this order; a
module imports what its handlers do. All functions of the runtime that the code of a module
calls are among them, only the wrapper of the initialization apart. -/
namespace Hyperscript

open Text

namespace Text

/-- Code that stands in front of a comma, a bracket or a semicolon, and the functions of the
runtime that it calls there. -/
structure Argument (code : String) (names : List String) : Prop where
  spells : Spells code (tokens code)
  calls : ∀ c ∈ [',', ')', ';'], Invokes (tokens code ++ [.mark c]) names

theorem argument_of_not_mem {code : String} {found : List Token} (spells : Spells code found)
    (absent : .word "_rt" ∉ found) : Argument code [] where
  spells := ⟨spells.unbroken, spells.closed, rfl⟩
  calls c _ := by
    rw [tokens, spells.read]
    exact .of_not_mem (by simp [absent])

theorem argument_quoted (text : String) : Argument (quoted text) [] :=
  argument_of_not_mem (spells_quoted text) (by decide)

theorem argument_number (x : Float) : Argument (Number.text x) [] :=
  argument_of_not_mem (Number.isPlain_text x).spells
    (not_mem_tokens (mayName_of_not_mem (Number.underscore_not_mem_text x)))

theorem argument_identifier {name : String} (valid : isIdentifier name = true) :
    Argument name [] := by
  have spells := spells_identifier valid
  refine ⟨⟨spells.unbroken, spells.closed, rfl⟩, fun c known => ?_⟩
  have other : Token.mark c ≠ .mark '.' := by
    rintro ⟨⟩
    exact absurd known (by decide)
  rw [tokens, spells.read]
  exact .word name other (.of_not_mem (by simp))

namespace Argument

/-- Arguments one after the other. -/
theorem join {parts : List String} {names : List (List String)}
    (each : List.Forall₂ Argument parts names) (nonempty : parts ≠ []) :
    Argument (Text.join ", " parts) names.flatten := by
  have comma : Spells ", " [.mark ','] := by decide
  induction each with
  | nil => exact absurd rfl nonempty
  | @cons part called rest others first inRest ih =>
    cases inRest with
    | nil => simpa [Text.join] using first
    | @cons next _ more _ _ _ =>
      have later := ih (List.cons_ne_nil _ _)
      have whole := (first.spells.thenMark comma (by decide)).thenAny later.spells
        (Program.Expr.endsWord_append (by decide))
      refine ⟨⟨whole.unbroken, whole.closed, rfl⟩, fun c known => ?_⟩
      have inPart := first.calls ',' (by decide)
      rw [Text.join, tokens, whole.read, List.append_assoc]
      exact inPart.append (later.calls c known)

/-- Arguments between the opening of a call and its end. -/
theorem enclosed {opening inner : String} {found : List Token} {names others : List String}
    (spells : Spells opening found) (ends : endsWord opening.toList = false)
    (calls : Invokes found names) (inside : Argument inner others) :
    Argument (opening ++ inner ++ ")") (names ++ others) := by
  have bracket : Spells ")" [.mark ')'] := by decide
  have whole := (spells.thenAny inside.spells ends).thenMark bracket (by decide)
  refine ⟨⟨whole.unbroken, whole.closed, rfl⟩, fun c _ => ?_⟩
  have last : Invokes [.mark c] [] := .of_not_mem (by simp)
  rw [tokens, whole.read, List.append_assoc found]
  simpa using (calls.append (inside.calls ')' (by decide))).append last

/-- An expression as a statement. -/
theorem terminated {code : String} {names : List String} (argument : Argument code names) :
    Spells (code ++ ";") (tokens (code ++ ";")) ∧ Invokes (tokens (code ++ ";")) names := by
  have semicolon : Spells ";" [.mark ';'] := by decide
  have whole := argument.spells.thenMark semicolon (by decide)
  refine ⟨⟨whole.unbroken, whole.closed, rfl⟩, ?_⟩
  rw [tokens, whole.read]
  exact argument.calls ';' (by decide)

end Argument
end Text

namespace Listener

theorem argument_limited {helper : String} (known : helper ∈ ["debounce", "throttle"])
    {handler : String} {names : List String} (inside : Argument handler names) (delay : Float) :
    Argument (limited helper handler delay) (helper :: names) := by
  have openings : ∀ helper ∈ ["debounce", "throttle"],
      Spells (Names.member helper ++ "(") [.word "_rt", .mark '.', .word helper, .mark '('] := by
    decide
  have calls : ∀ helper ∈ ["debounce", "throttle"],
      Invokes [.word "_rt", .mark '.', .word helper, .mark '('] [helper] :=
    List.forall_mem_cons.mpr ⟨fun _ => rfl, List.forall_mem_singleton.mpr fun _ => rfl⟩
  have args := Argument.join (.cons inside (.cons (argument_number delay) .nil)) nofun
  have whole := Argument.enclosed (openings helper known)
    (Program.Expr.endsWord_append (by decide)) (calls helper known) args
  simpa [limited, Text.join, String.append_assoc] using whole

/-- A handler behind rate limits, the outer one first. -/
theorem argument_reference {handler : String} (valid : isIdentifier handler = true)
    (modifiers : Modifiers) :
    Argument (reference handler modifiers)
      ((if modifiers.throttleDelay?.isSome then ["throttle"] else []) ++
        if modifiers.debounceDelay?.isSome then ["debounce"] else []) := by
  have handled := argument_identifier valid
  unfold reference
  cases modifiers.debounceDelay? with
  | none =>
    cases modifiers.throttleDelay? with
    | none => exact handled
    | some delay => exact argument_limited (by decide) handled delay
  | some first =>
    have debounced := @argument_limited "debounce" (by decide) _ _ handled first
    cases modifiers.throttleDelay? with
    | none => exact debounced
    | some delay => exact argument_limited (by decide) debounced delay

theorem argument_options (modifiers : Modifiers) :
    List.Forall₂ Argument (options? modifiers).toList
      ((options? modifiers).toList.map fun _ => []) := by
  have all : ∀ once passive capture, ∀ text ∈ (options? { once, passive, capture }).toList,
      ('\n' ∉ text.toList ∧ '\r' ∉ text.toList) ∧ '"' ∉ text.toList ∧ '_' ∉ text.toList := by
    decide +kernel
  rw [List.forall₂_map_right_iff, List.forall₂_same]
  intro text member
  obtain ⟨⟨feed, carriage⟩, unquoted, absent⟩ := all _ _ _ text member
  have unbroken : ∀ c ∈ text.toList, c ≠ '\n' ∧ c ≠ '\r' := fun c inside =>
    ⟨ne_of_mem_of_not_mem inside feed, ne_of_mem_of_not_mem inside carriage⟩
  exact argument_of_not_mem (spells_unquoted unbroken unquoted)
    (not_mem_tokens (mayName_of_not_mem absent))

/-- A listener calls the helpers of its modifiers, the outermost first. -/
theorem argument_call {target handler : String} (known : target ∈ [Names.element, "el"])
    (valid : isIdentifier handler = true) (event : String) (modifiers : Modifiers) :
    Argument (call target event (reference handler modifiers) modifiers)
      modifiers.helpers.reverse := by
  have noNames (options : List String) :
      (options.map fun _ => ([] : List String)).flatten = [] := by
    simp
  have limited := argument_reference valid modifiers
  have options := argument_options modifiers
  have helpers : modifiers.helpers.reverse =
      (if modifiers.delegate?.isSome then ["delegate"] else []) ++
        ((if modifiers.throttleDelay?.isSome then ["throttle"] else []) ++
          if modifiers.debounceDelay?.isSome then ["debounce"] else []) := by
    unfold Modifiers.helpers
    split_ifs <;> rfl
  rw [helpers]
  unfold call
  cases modifiers.delegate? with
  | none =>
    have openings : ∀ target ∈ [Names.element, "el"], Spells (target ++ ".addEventListener(")
        [.word target, .mark '.', .word "addEventListener", .mark '('] := by decide +kernel
    have calls : ∀ target ∈ [Names.element, "el"], Token.word "_rt" ∉
        [.word target, .mark '.', .word "addEventListener", .mark '('] := by decide
    have args := Argument.join (.cons (argument_quoted event) (.cons limited options)) nofun
    have whole := Argument.enclosed (openings target known)
      (Program.Expr.endsWord_append (by decide)) (.of_not_mem (calls target known)) args
    simpa [noNames] using whole
  | some selector =>
    have opening : Spells (Names.member "delegate" ++ "(")
        [.word "_rt", .mark '.', .word "delegate", .mark '('] := by decide
    have targets : ∀ target ∈ [Names.element, "el"], isIdentifier target = true := by decide
    have element := argument_identifier (targets target known)
    have args := Argument.join (.cons element (.cons (argument_quoted event)
      (.cons (argument_quoted selector) (.cons limited options)))) nofun
    have whole := @Argument.enclosed _ _ _ ["delegate"] _ opening (by decide) (fun _ => rfl) args
    simpa [noNames] using whole

theorem runtimeCalls_binding {handlerId : String}
    (valid : isIdentifier (Names.functionName handlerId) = true) (event : String)
    (modifiers : Modifiers) :
    runtimeCalls (binding handlerId event modifiers) = modifiers.helpers.reverse :=
  have called := @argument_call Names.element _ (by decide) valid event modifiers
  called.terminated.2.calledIn_eq

end Listener

namespace Binding

variable {binding : Binding} {bindings : List Binding}

/-- A statement calls the helpers that its listener goes through. -/
theorem invokes_statement (named : binding.IsNamed) :
    Spells binding.statement (tokens binding.statement) ∧
      Invokes (tokens binding.statement) binding.modifiers.helpers.reverse := by
  obtain ⟨⟨selector, target⟩, valid⟩ := named
  have each : Spells ".forEach(el => "
      [.mark '.', .word "forEach", .mark '(', .word "el", .mark '=', .mark '>'] := by decide
  have opening := (Program.Expr.spells_query selector).thenMark each (by decide)
  have called := @Listener.argument_call "el" _ (by decide) valid binding.event binding.modifiers
  have whole := called.enclosed opening (Program.Expr.endsWord_append (by decide))
    (.of_not_mem (by simp [Program.Expr.tokens]))
  have statement : binding.statement =
      Expression.query selector ++ ".forEach(el => " ++ Listener.call "el" binding.event
        (Listener.reference binding.handler binding.modifiers) binding.modifiers ++ ")" ++ ";" := by
    simp [Binding.statement, target, String.append_assoc]
  rw [statement]
  exact whole.terminated

/-- Besides its own wrapper, the initialization calls what its statements call. -/
theorem runtimeCalls_initialization (named : ∀ binding ∈ bindings, binding.IsNamed) :
    runtimeCalls (initialization bindings) =
      "ready" :: bindings.flatMap (·.modifiers.helpers.reverse) := by
  have opening : Spells (Names.member "ready" ++ "(() => \x7b") [.word "_rt", .mark '.',
      .word "ready", .mark '(', .mark '(', .mark ')', .mark '=', .mark '>', .mark '\x7b'] := by
    decide
  have closing : Spells "\x7d);" [.mark '\x7d', .mark ')', .mark ';'] := by decide
  have inner : LinesSpell (indented 1 (bindings.map statement))
      (bindings.map fun binding => tokens binding.statement) := by
    rw [indented, List.map_map, LinesSpell, List.forall₂_map_left_iff, List.forall₂_map_right_iff,
      List.forall₂_same]
    intro binding member
    have spells := (invokes_statement (named binding member)).1
    exact ⟨by simp [binding.statement_nonempty], spells.indented 1⟩
  have lines : LinesSpell (initializationLines bindings) _ :=
    List.rel_append (.cons ⟨by decide, opening⟩ inner) (.cons ⟨by decide, closing⟩ .nil)
  have statements : Invokes (bindings.flatMap fun binding => tokens binding.statement)
      (bindings.flatMap (·.modifiers.helpers.reverse)) :=
    .flatMap fun binding member => (invokes_statement (named binding member)).2
  have wrapper : Invokes [.word "_rt", .mark '.', .word "ready", .mark '(', .mark '(', .mark ')',
      .mark '=', .mark '>', .mark '\x7b'] ["ready"] := fun _ => rfl
  have brace : Invokes [.mark '\x7d', .mark ')', .mark ';'] [] := .of_not_mem (by decide)
  rw [runtimeCalls, initialization_eq named, lines.tokens_joinLines]
  simpa [List.flatMap_def] using (wrapper.append (statements.append brace)).calledIn_eq

end Binding

/-- A binding has the modifiers of its handler. -/
theorem CompiledModule.exists_handler {compiled : CompiledModule} {binding : Binding}
    (bound : binding ∈ compiled.bindings) :
    ∃ handler ∈ compiled.handlers, binding.modifiers = handler.modifiers := by
  obtain ⟨handler, member, same⟩ := List.mem_filterMap.mp bound
  obtain ⟨selector, -, rfl⟩ := Option.map_eq_some_iff.mp same
  exact ⟨handler, member, rfl⟩

namespace Compiler

open Caching Program

variable {compiler : Compiler} {context : Context} {inputs : ModuleInput}
  {handlers : List CompiledHandler}

/-- One step: what the code of a handler calls. -/
theorem runtimeCalls_of_compileHandler {input : HandlerInput} {step : Step}
    (compiled : compiler.compileHandler input context = .ok step) (keyless : IsKeyless input.node)
    (stem : ∀ c ∈ compiler.options.idStem.toList, isIdentifierRest c = true) :
    runtimeCalls step.handler.generated.handlerCode = [Names.createContext] ∧
      runtimeCalls step.handler.generated.bindingCode =
        step.handler.modifiers.helpers.reverse := by
  obtain ⟨source, body, event, optimized, made, -, -⟩ := compileHandler_eq_ok compiled
  obtain ⟨handler, found, spelled⟩ := compiler.exists_spelled input context event
    keyless.namesKeys (compiler.isIdentifier_functionName stem)
  cases Option.some.inj (found.symm.trans optimized)
  obtain ⟨other, same, code⟩ := (compiler.writes_of_handler? context event found).code
  cases Except.ok.inj (same.symm.trans compiled)
  constructor
  · rw [code]
    refine Function.runtimeCalls_render spelled (Stmt.forall_rowsAll ?_)
    exact fun node member _ code =>
      Stmt.invokes_ofNode? node (isAssigned_body keyless found node member).keysApart code
  · rw [made]
    simp only [handlerOf, GeneratedHandler.bindingCode_generate]
    exact Listener.runtimeCalls_binding (compiler.isIdentifier_functionName stem) source.event
      source.modifiers

/-- A run: what the code of all handlers calls. -/
theorem Compiles.runtimeCalls (compiles : compiler.Compiles context inputs handlers)
    (keyless : ∀ input ∈ inputs, IsKeyless input.node)
    (stem : ∀ c ∈ compiler.options.idStem.toList, isIdentifierRest c = true) :
    ∀ handler ∈ handlers,
      Text.runtimeCalls handler.generated.handlerCode = [Names.createContext] ∧
        Text.runtimeCalls handler.generated.bindingCode = handler.modifiers.helpers.reverse := by
  induction compiles with
  | done => simp
  | next run rest ih =>
    obtain ⟨first, others⟩ := List.forall_mem_cons.mp keyless
    obtain ⟨_, _, _, _, _, advanced, _⟩ := compileHandler_eq_ok run
    rw [advanced] at ih
    exact List.forall_mem_cons.mpr ⟨runtimeCalls_of_compileHandler run first stem, ih others stem⟩

/-- What a handler imports: the parts in their order, each name where it comes first. -/
theorem Compiles.imports (compiles : compiler.Compiles context inputs handlers)
    (fresh : context.helpers = []) {i : Nat} {input : HandlerInput} {handler : CompiledHandler}
    (at_i : inputs[i]? = some input) (compiled : handlers[i]? = some handler) :
    (∃ source, input.node.handler? = some source ∧ handler.modifiers = source.modifiers) ∧
      handler.generated.imports =
        (Names.createContext :: (handlers.take (i + 1)).flatMap (·.modifiers.helpers) ++
          (factsFor input).helpers).eraseDups := by
  obtain ⟨before, step, run, rfl, helpers⟩ := compiles.getElem? at_i compiled
  obtain ⟨source, body, event, -, made, -, -⟩ := compileHandler_eq_ok run
  have modifiers : step.handler.modifiers = source.modifiers := by
    rw [made]
    rfl
  have single : [Names.createContext] = [Names.createContext].eraseDups := rfl
  have taken : (handlers.take (i + 1)).flatMap (·.modifiers.helpers) =
      (handlers.take i).flatMap (·.modifiers.helpers) ++ source.modifiers.helpers := by
    rw [List.take_add_one, compiled, List.flatMap_append, ← modifiers]
    simp
  refine ⟨⟨source, event, modifiers⟩, ?_⟩
  rw [made, handlerOf, GeneratedHandler.imports_generate, helpers, fresh,
    Ordered.insertAll_insertAll, Ordered.insertAll_insertAll, single]
  simp only [Ordered.insertAll_eraseDups, taken, List.append_nil, List.append_assoc,
    List.cons_append, List.nil_append]

theorem Compiles.exists_input (compiles : compiler.Compiles context inputs handlers)
    {handler : CompiledHandler} (member : handler ∈ handlers) :
    ∃ (i : Nat) (input : HandlerInput),
      inputs[i]? = some input ∧ handlers[i]? = some handler := by
  obtain ⟨i, at_i⟩ := List.mem_iff_getElem?.mp member
  have bound : i < inputs.length := by
    rw [← compiles.length_eq]
    exact (List.getElem?_eq_some_iff.mp at_i).1
  exact ⟨i, inputs[i], List.getElem?_eq_getElem bound, at_i⟩

/-- A handler imports context creation first, and the helpers of its own binding. -/
theorem Compiles.imports_of_mem (compiles : compiler.Compiles context inputs handlers)
    (fresh : context.helpers = []) {handler : CompiledHandler} (member : handler ∈ handlers) :
    handler.generated.imports.Nodup ∧
      handler.generated.imports.head? = some Names.createContext ∧
      ∀ name ∈ handler.modifiers.helpers, name ∈ handler.generated.imports := by
  obtain ⟨i, input, at_i, compiled⟩ := compiles.exists_input member
  have taken : handler ∈ handlers.take (i + 1) := by
    apply List.mem_of_getElem?
    rw [List.getElem?_take_of_lt (Nat.lt_succ_self i)]
    exact compiled
  rw [(compiles.imports fresh at_i compiled).2]
  refine ⟨Ordered.nodup_eraseDups _, Ordered.head?_eraseDups _, fun name needed => ?_⟩
  simp only [List.mem_eraseDups, List.cons_append, List.mem_cons, List.mem_append,
    List.mem_flatMap]
  exact .inr (.inl ⟨handler, taken, needed⟩)

/-- So does a module with handlers. -/
theorem Compiles.head?_imports (compiles : compiler.Compiles context inputs handlers)
    (fresh : context.helpers = []) (nonempty : handlers ≠ []) :
    (handlers.flatMap (·.generated.imports)).head? = some Names.createContext := by
  obtain ⟨first, rest, rfl⟩ := List.exists_cons_of_ne_nil nonempty
  obtain ⟨-, head, -⟩ := compiles.imports_of_mem fresh List.mem_cons_self
  rw [List.head?_flatMap, List.findSome?_cons, head]

theorem Compiles.mem_imports (compiles : compiler.Compiles context inputs handlers)
    (fresh : context.helpers = []) {handler : CompiledHandler} (member : handler ∈ handlers)
    {name : String} (needed : name ∈ Names.createContext :: handler.modifiers.helpers) :
    name ∈ handlers.flatMap (·.generated.imports) := by
  obtain ⟨-, head, helpers⟩ := compiles.imports_of_mem fresh member
  refine List.mem_flatMap.mpr ⟨handler, member, ?_⟩
  obtain rfl | required := List.mem_cons.mp needed
  · exact List.mem_of_mem_head? head
  · exact helpers name required

theorem imports_of_compileModule {compiled : CompiledModule}
    (accepted : (compiler.compileModule inputs).result = .ok compiled) :
    compiled.imports = (compiled.handlers.flatMap (·.generated.imports)).eraseDups := by
  rw [← Ordered.ofList_eq_eraseDups]
  simp only [compileModule] at accepted
  split at accepted
  next => cases accepted
  next =>
    cases accepted
    rfl

/-- Each handler of an accepted module imports, without repetition and in this order, context
creation, the helpers of the bindings up to its own and those that its facts name; the module
imports what its handlers do, in their order. So no list has a name twice, and context creation
comes first. Where the names in the code are identifiers, a binding calls exactly the helpers of
its modifiers, the outermost first, and nothing is called in the functions, the bindings and the
initialization that the module does not import, except for the wrapper of the latter. -/
theorem imports_exact (compiler : Compiler) (inputs : ModuleInput) (compiled : CompiledModule)
    (accepted : (compiler.compileModule inputs).result = .ok compiled) :
    compiled.handlers.length = inputs.length ∧
    (∀ (i : Nat) (input : HandlerInput) (handler : CompiledHandler),
      inputs[i]? = some input → compiled.handlers[i]? = some handler →
      (∃ source, input.node.handler? = some source ∧ handler.modifiers = source.modifiers) ∧
      handler.generated.imports =
        (Names.createContext :: (compiled.handlers.take (i + 1)).flatMap (·.modifiers.helpers) ++
          (factsFor input).helpers).eraseDups) ∧
    compiled.imports = (compiled.handlers.flatMap (·.generated.imports)).eraseDups ∧
    (∀ imports ∈ compiled.imports :: compiled.handlers.map (·.generated.imports),
      imports.Nodup ∧ (imports ≠ [] → imports.head? = some Names.createContext)) ∧
    ((∀ c ∈ compiler.options.idStem.toList, isIdentifierRest c = true) →
      (∀ input ∈ inputs, IsKeyless input.node) →
      (∀ handler ∈ compiled.handlers,
        runtimeCalls handler.generated.bindingCode = handler.modifiers.helpers.reverse ∧
        ∀ code ∈ [handler.generated.handlerCode, handler.generated.bindingCode],
          ∀ name ∈ runtimeCalls code, name ∈ compiled.imports) ∧
      ∀ code ∈ compiled.initialization?, ∃ names,
        runtimeCalls code = "ready" :: names ∧ ∀ name ∈ names, name ∈ compiled.imports) := by
  have compiles := compiles_of_compileModule accepted
  have collected := imports_of_compileModule accepted
  refine ⟨compiles.length_eq, fun i input handler => compiles.imports rfl, collected, ?_, ?_⟩
  · refine List.forall_mem_cons.mpr ⟨?_, List.forall_mem_map.mpr fun handler member => ?_⟩
    · rw [collected]
      refine ⟨Ordered.nodup_eraseDups _, fun nonempty => ?_⟩
      rw [Ordered.head?_eraseDups]
      refine compiles.head?_imports rfl fun none => nonempty ?_
      rw [none]
      rfl
    · obtain ⟨nodup, head, -⟩ := compiles.imports_of_mem rfl member
      exact ⟨nodup, fun _ => head⟩
  · intro stem keyless
    have called := compiles.runtimeCalls keyless stem
    have named := CompiledModule.isNamed_bindings (compiles.isIdentifier_functionName stem)
    have imported {handler : CompiledHandler} (member : handler ∈ compiled.handlers) :
        ∀ name ∈ Names.createContext :: handler.modifiers.helpers, name ∈ compiled.imports := by
      intro name needed
      rw [collected, List.mem_eraseDups]
      exact compiles.mem_imports rfl member needed
    constructor
    · intro handler member
      obtain ⟨inFunction, inBinding⟩ := called handler member
      refine ⟨inBinding, List.forall_mem_cons.mpr ⟨?_, List.forall_mem_singleton.mpr ?_⟩⟩
      · rw [inFunction]
        exact List.forall_mem_singleton.mpr (imported member _ List.mem_cons_self)
      · rw [inBinding]
        exact fun name needed =>
          imported member name (List.mem_cons_of_mem _ (List.mem_reverse.mp needed))
    · intro code written
      rw [compiled.eq_initialization written]
      refine ⟨_, Binding.runtimeCalls_initialization named, ?_⟩
      intro name needed
      obtain ⟨binding, bound, inside⟩ := List.mem_flatMap.mp needed
      obtain ⟨handler, member, same⟩ := compiled.exists_handler bound
      rw [same, List.mem_reverse] at inside
      exact imported member name (List.mem_cons_of_mem _ inside)

/-- Two handlers with all helpers between them, and a script that names the runtime itself. -/
def wrappedHandlers : ModuleInput :=
  [{ node := .event "click" { debounce := some 200, source := some "li" }
       [.command "log" [.member (.identifier "_rt") "delegate"] none]
     selector := some "ul" },
    { node := .event "scroll" { throttle := some 50 } [.command "halt" [] none]
      facts := some { helpers := ["morph", "debounce"], canThrow := true } }]

theorem isKeyless_wrappedHandlers : ∀ input ∈ wrappedHandlers, IsKeyless input.node := by
  intro input member value cacheKey inside
  simp only [wrappedHandlers, List.mem_cons, List.not_mem_nil, or_false] at member
  obtain rfl | rfl := member
  · simp [Node.subtree, Node.subtrees, Node.subtree?] at inside
  · simp [Node.subtree, Node.subtrees, Node.subtree?] at inside

theorem imports_exact_wrappedHandlers :
    ∃ compiled, (({} : Compiler).compileModule wrappedHandlers).result = .ok compiled ∧
      compiled.handlers.map (·.generated.imports) =
        [["createContext", "debounce", "delegate"],
          ["createContext", "debounce", "delegate", "throttle", "morph"]] ∧
      compiled.imports = ["createContext", "debounce", "delegate", "throttle", "morph"] ∧
      (∃ handler ∈ compiled.handlers,
        runtimeCalls handler.generated.bindingCode = ["delegate", "debounce"] ∧
        ∀ name ∈ runtimeCalls handler.generated.handlerCode, name ∈ compiled.imports) ∧
      ∃ code ∈ compiled.initialization?, ∃ names,
        runtimeCalls code = "ready" :: names ∧ ∀ name ∈ names, name ∈ compiled.imports := by
  obtain ⟨compiled, accepted, seen⟩ : ∃ compiled,
      (({} : Compiler).compileModule wrappedHandlers).result = .ok compiled ∧
        (compiled.handlers.map (·.generated.imports), compiled.handlers.map (·.modifiers.helpers),
          compiled.initialization?.isSome) =
        ([["createContext", "debounce", "delegate"],
          ["createContext", "debounce", "delegate", "throttle", "morph"]],
          [["debounce", "delegate"], ["throttle"]], true) :=
    exists_ok (by decide +kernel)
  simp only [Prod.mk.injEq] at seen
  obtain ⟨lists, helpers, initialized⟩ := seen
  obtain ⟨-, -, collected, -, calls⟩ := imports_exact {} wrappedHandlers compiled accepted
  obtain ⟨inHandlers, inBlock⟩ := calls (List.all_eq_true.mp (by decide)) isKeyless_wrappedHandlers
  refine ⟨compiled, accepted, lists, ?_, ?_, ?_⟩
  · rw [collected, List.flatMap_def, lists]
    decide
  · obtain ⟨first, rest, same, wraps, -⟩ := List.map_eq_cons_iff.mp helpers
    have member : first ∈ compiled.handlers := same ▸ List.mem_cons_self
    obtain ⟨called, imported⟩ := inHandlers first member
    rw [wraps] at called
    exact ⟨first, member, called, imported _ List.mem_cons_self⟩
  · obtain ⟨code, written⟩ := Option.isSome_iff_exists.mp initialized
    exact ⟨code, written, inBlock code written⟩

end Compiler
end Hyperscript
