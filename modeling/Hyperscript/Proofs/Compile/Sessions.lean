import Hyperscript.Proofs.Compile.Modules
import Mathlib.Data.List.Nodup

/-! A compiler from call to call. A call takes an id for each handler that it compiles and for
nothing else; it compiles event nodes and refuses all other nodes before it has touched the
compiler or the context. So what a compiler has handed out after any calls, the refused ones
among them, is told by the number of event nodes it was given, and no id comes twice. -/
namespace Hyperscript

theorem Node.handler?_eq_none_iff {node : Node} : node.handler? = none ↔ node.kind ≠ .event := by
  cases node <;> simp [handler?, kind]

theorem Node.exists_handler?_iff {node : Node} :
    (∃ source, node.handler? = some source) ↔ node.kind = .event := by
  rw [← Option.isSome_iff_exists, Option.isSome_iff_ne_none, ne_eq, handler?_eq_none_iff,
    not_not]

theorem Names.functionName_injective : Function.Injective functionName := by
  intro first second same
  exact String.append_right_inj _ |>.mp same

namespace Compiler

variable {compiler : Compiler}

theorem after_after (compiler : Compiler) (first second : Nat) :
    (compiler.after first).after second = compiler.after (first + second) := by
  simp only [after, Nat.add_assoc]

theorem toString_injective : Function.Injective (toString : Nat → String) := by
  intro m n same
  simp only [Nat.toString_eq_ofList_toDigits] at same
  have digits := congrArg (fun text : String => Nat.ofDigitChars 10 text.toList 0) same
  simpa [Nat.ofDigitChars_toDigits] using digits

/-- Ids differ in their number. -/
theorem nextId_after_inj {i j : Nat} :
    (compiler.after i).nextId = (compiler.after j).nextId ↔ i = j := by
  constructor
  · intro same
    have numbers : toString (compiler.issued + i + 1) = toString (compiler.issued + j + 1) :=
      String.append_right_inj _ |>.mp same
    have equal := toString_injective numbers
    omega
  · rintro rfl
    rfl

/-- The next ids, so many of them. -/
def ids (compiler : Compiler) (count : Nat) : List String :=
  (List.range count).map fun i => (compiler.after i).nextId

theorem length_ids (compiler : Compiler) (count : Nat) : (compiler.ids count).length = count := by
  simp [ids]

theorem ids_add (compiler : Compiler) (first second : Nat) :
    compiler.ids (first + second) = compiler.ids first ++ (compiler.after first).ids second := by
  simp only [ids, List.range_add, List.map_append, List.map_map, Function.comp_def, after_after]

theorem nodup_ids (compiler : Compiler) (count : Nat) : (compiler.ids count).Nodup := by
  refine List.Nodup.map ?_ List.nodup_range
  intro i j same
  exact nextId_after_inj.mp same

/-- What a call on one handler leaves behind, whether it fails or not. -/
structure Attempt where
  compiler : Compiler
  context : Context
  result : Except CompileError CompiledHandler

/-- Compile a handler in place. The id is taken before the optimizer runs, and the context is
entered when the optimized root is known to be an event node still. -/
def attempt (compiler : Compiler) (input : HandlerInput) (context : Context) : Attempt :=
  match input.node.handler? with
  | none => { compiler, context, result := .error (.notEvent input.node.kind) }
  | some _ =>
    let handlerId := compiler.nextId
    let compiler' := compiler.after 1
    let optimized := compiler.optimized input
    match optimized.script.handler? with
    | none => { compiler := compiler', context, result := .error .rootReplaced }
    | some handler =>
      let (generated, context, _) :=
        GeneratedHandler.generate handler (factsFor input) (context.setHandler handlerId)
      { compiler := compiler'
        context
        result := .ok
          { handlerId
            event := handler.event
            applied := optimized.applied
            selector := input.selector
            modifiers := handler.modifiers
            generated } }

/-- What a step leaves behind, and what a failure does: all as it was. -/
def Attempt.ofOutcome (compiler : Compiler) (context : Context) :
    Except CompileError Step → Attempt
  | .error error => { compiler, context, result := .error error }
  | .ok step => { compiler := step.compiler, context := step.context, result := .ok step.handler }

/-- A call that fails need not say what it leaves behind. -/
theorem attempt_eq (compiler : Compiler) (input : HandlerInput) (context : Context) :
    compiler.attempt input context =
      .ofOutcome compiler context (compiler.compileHandler input context) := by
  cases event : input.node.handler? with
  | none => simp only [attempt, compileHandler, event, Attempt.ofOutcome]
  | some source =>
    obtain ⟨body, optimized⟩ := compiler.handler?_optimized event
    have found : (compiler.optimizer.optimize (input.facts.getD (Facts.ofScript input.node))
        compiler.options.effort input.node).value.script.handler? = some { source with body } :=
      optimized
    simp only [attempt, compileHandler, event, optimized, found, Attempt.ofOutcome]
    rfl

theorem attempt_of_not_event {input : HandlerInput} (other : input.node.kind ≠ .event)
    (context : Context) :
    compiler.attempt input context =
      { compiler, context, result := .error (.notEvent input.node.kind) } := by
  rw [attempt, Node.handler?_eq_none_iff.mpr other]

/-- What comes of an event node. -/
structure Attempt.Compiled (attempt : Attempt) (compiler : Compiler) (source : Handler)
    (handler : CompiledHandler) : Prop where
  result : attempt.result = .ok handler
  advanced : attempt.compiler = compiler.after 1
  handlerId : handler.handlerId = compiler.nextId
  event : handler.event = source.event
  modifiers : handler.modifiers = source.modifiers

theorem attempt_of_event {input : HandlerInput} {source : Handler}
    (event : input.node.handler? = some source) (context : Context) :
    ∃ handler, (compiler.attempt input context).Compiled compiler source handler := by
  obtain ⟨body, optimized⟩ := compiler.handler?_optimized event
  obtain ⟨step, compiled, made, advanced, -⟩ := compileHandler_of_optimized event optimized context
  rw [attempt_eq, compiled]
  refine ⟨step.handler, rfl, advanced, ?_, ?_, ?_⟩
  all_goals rw [made]; rfl

/-- A handler is compiled in place exactly if its node is an event node. -/
theorem exists_attempt_iff {input : HandlerInput} {context : Context} :
    (∃ handler, (compiler.attempt input context).result = .ok handler) ↔
      input.node.kind = .event := by
  constructor
  · rintro ⟨handler, compiled⟩
    by_contra other
    rw [attempt_of_not_event other] at compiled
    cases compiled
  · intro isEvent
    obtain ⟨source, event⟩ := Node.exists_handler?_iff.mpr isEvent
    obtain ⟨handler, compiled⟩ := @attempt_of_event compiler _ _ event context
    exact ⟨handler, compiled.result⟩

/-- How many handlers stand in front of the first that is no event node. -/
def acceptable (inputs : ModuleInput) : Nat := inputs.findIdx (·.node.kind ≠ .event)

/-- What has come of a module, or of the handlers in front of the one that failed. -/
theorem compileAll_eq (progress : Progress) (inputs : ModuleInput) :
    ∃ handlers,
      (compileAll progress inputs).1.handlers = progress.handlers ++ handlers ∧
      handlers.map (·.handlerId) = progress.compiler.ids (acceptable inputs) ∧
      (compileAll progress inputs).1.compiler = progress.compiler.after (acceptable inputs) ∧
      (compileAll progress inputs).2 = inputs[acceptable inputs]?.map fun input =>
        .inHandler (progress.handlers.length + acceptable inputs) (.notEvent input.node.kind) := by
  induction inputs generalizing progress with
  | nil => exact ⟨[], by simp [compileAll], rfl, rfl, rfl⟩
  | cons input rest ih =>
    by_cases isEvent : input.node.kind = .event
    · obtain ⟨source, event⟩ := Node.exists_handler?_iff.mpr isEvent
      obtain ⟨body, optimized⟩ := progress.compiler.handler?_optimized event
      obtain ⟨step, compiled, made, advanced, -⟩ :=
        compileHandler_of_optimized event optimized progress.context
      have position : acceptable (input :: rest) = 1 + acceptable rest := by
        simp [acceptable, List.findIdx_cons, isEvent, Nat.add_comm]
      obtain ⟨handlers, collected, issued, final, failed⟩ :=
        ih { compiler := step.compiler
             context := step.context
             handlers := progress.handlers ++ [step.handler]
             remarks := progress.remarks ++ step.remarks }
      simp only [compileAll, compiled, position]
      refine ⟨step.handler :: handlers, by simp [collected], ?_, ?_, ?_⟩
      · have first : step.handler.handlerId = progress.compiler.nextId := by
          rw [made]
          rfl
        rw [List.map_cons, issued, advanced, ids_add, first]
        rfl
      · rw [final, advanced, after_after]
      · rw [failed, Nat.add_comm 1, List.getElem?_cons_succ, List.length_append,
          List.length_singleton, Nat.add_assoc, Nat.add_comm 1]
    · have position : acceptable (input :: rest) = 0 := by
        simp [acceptable, List.findIdx_cons, isEvent]
      have refused : progress.compiler.compileHandler input progress.context =
          .error (.notEvent input.node.kind) := by
        simp only [compileHandler, Node.handler?_eq_none_iff.mpr isEvent]
      rw [position]
      simp only [compileAll, refused]
      exact ⟨[], by simp, rfl, rfl, rfl⟩

/-- One thing to ask of a compiler. -/
inductive Call where
  | handler (input : HandlerInput) (context : Context)
  | module (inputs : ModuleInput)

namespace Call

/-- The compiler behind a call. -/
def leaves (compiler : Compiler) : Call → Compiler
  | .handler input context => (compiler.attempt input context).compiler
  | .module inputs => (compiler.compileModule inputs).compiler

/-- The handlers that a call compiles. Those of a module that fails are compiled, but not
returned. -/
def handlers (compiler : Compiler) : Call → List CompiledHandler
  | .handler input context => (compiler.attempt input context).result.toOption.toList
  | .module inputs =>
    (compileAll { compiler, context := { handlerId := compiler.options.idStem } } inputs).1.handlers

end Call

/-- What a module comes to, told by its inputs. -/
theorem compileModule_eq (compiler : Compiler) (inputs : ModuleInput) :
    (compiler.compileModule inputs).compiler = compiler.after (acceptable inputs) ∧
    ((Call.module inputs).handlers compiler).map (·.handlerId) =
      compiler.ids (acceptable inputs) ∧
    match inputs[acceptable inputs]? with
    | some input =>
      (compiler.compileModule inputs).result =
        .error (.inHandler (acceptable inputs) (.notEvent input.node.kind))
    | none => ∃ compiled, (compiler.compileModule inputs).result = .ok compiled ∧
        compiled.handlers = (Call.module inputs).handlers compiler := by
  obtain ⟨handlers, collected, issued, final, failed⟩ :=
    compileAll_eq { compiler, context := { handlerId := compiler.options.idStem } } inputs
  simp only [List.nil_append, List.length_nil, Nat.zero_add] at collected failed
  simp only [compileModule, Call.handlers, collected]
  split
  next progress error run =>
    rw [run] at final failed
    obtain ⟨input, found, rfl⟩ := Option.map_eq_some_iff.mp failed.symm
    rw [found]
    exact ⟨final, issued, rfl⟩
  next progress run =>
    rw [run] at final failed collected
    rw [Option.map_eq_none_iff.mp failed.symm]
    exact ⟨final, issued, _, rfl, collected⟩

theorem getElem?_acceptable_eq_none_iff {inputs : ModuleInput} :
    inputs[acceptable inputs]? = none ↔ ∀ input ∈ inputs, input.node.kind = .event := by
  rw [List.getElem?_eq_none_iff, acceptable]
  constructor
  · intro atEnd input member
    have none := List.findIdx_eq_length.mp (Nat.le_antisymm List.findIdx_le_length atEnd)
    simpa using none input member
  · intro all
    refine Nat.le_of_eq (List.findIdx_eq_length.mpr ?_).symm
    intro input member
    simpa using all input member

theorem exists_compileModule_iff {inputs : ModuleInput} :
    (∃ compiled, (compiler.compileModule inputs).result = .ok compiled) ↔
      ∀ input ∈ inputs, input.node.kind = .event := by
  rw [← getElem?_acceptable_eq_none_iff]
  obtain ⟨-, -, outcome⟩ := compiler.compileModule_eq inputs
  cases found : inputs[acceptable inputs]? with
  | none =>
    rw [found] at outcome
    obtain ⟨compiled, accepted, -⟩ := outcome
    exact ⟨fun _ => rfl, fun _ => ⟨compiled, accepted⟩⟩
  | some input =>
    rw [found] at outcome
    simp [outcome]

theorem eq_of_compileModule_eq_error {inputs : ModuleInput} {error : CompileError}
    (failed : (compiler.compileModule inputs).result = .error error) :
    ∃ input, inputs[acceptable inputs]? = some input ∧ input.node.kind ≠ .event ∧
      error = .inHandler (acceptable inputs) (.notEvent input.node.kind) := by
  obtain ⟨-, -, outcome⟩ := compiler.compileModule_eq inputs
  cases found : inputs[acceptable inputs]? with
  | none =>
    rw [found] at outcome
    obtain ⟨compiled, accepted, -⟩ := outcome
    cases accepted.symm.trans failed
  | some input =>
    rw [found] at outcome
    obtain ⟨bound, rfl⟩ := List.getElem?_eq_some_iff.mp found
    refine ⟨_, rfl, ?_, Except.error.inj (failed.symm.trans outcome)⟩
    have here := @List.findIdx_getElem _ (fun input : HandlerInput => input.node.kind ≠ .event)
      inputs bound
    exact of_decide_eq_true here

theorem handlers_of_compileModule {inputs : ModuleInput} {compiled : CompiledModule}
    (accepted : (compiler.compileModule inputs).result = .ok compiled) :
    compiled.handlers = (Call.module inputs).handlers compiler := by
  obtain ⟨-, -, outcome⟩ := compiler.compileModule_eq inputs
  cases found : inputs[acceptable inputs]? with
  | none =>
    rw [found] at outcome
    obtain ⟨other, same, handlers⟩ := outcome
    cases accepted.symm.trans same
    exact handlers
  | some input =>
    rw [found] at outcome
    cases accepted.symm.trans outcome

/-- One step: a call takes as many ids as it compiles handlers, and gives them these ids. -/
theorem Call.step (compiler : Compiler) (call : Call) :
    call.leaves compiler = compiler.after (call.handlers compiler).length ∧
      (call.handlers compiler).map (·.handlerId) =
        compiler.ids (call.handlers compiler).length := by
  cases call with
  | handler input context =>
    by_cases isEvent : input.node.kind = .event
    · obtain ⟨source, event⟩ := Node.exists_handler?_iff.mpr isEvent
      obtain ⟨handler, compiled⟩ := @attempt_of_event compiler _ _ event context
      have single : (Call.handler input context).handlers compiler = [handler] := by
        rw [handlers, compiled.result]
        rfl
      rw [single, List.map_singleton, compiled.handlerId]
      exact ⟨compiled.advanced, rfl⟩
    · simp only [leaves, handlers, attempt_of_not_event isEvent]
      exact ⟨rfl, rfl⟩
  | module inputs =>
    obtain ⟨final, issued, -⟩ := compiler.compileModule_eq inputs
    have count : ((Call.module inputs).handlers compiler).length = acceptable inputs := by
      rw [← List.length_map, issued, length_ids]
    rw [count]
    exact ⟨final, issued⟩

/-- Calls one after the other: the compiler behind them, and all handlers they have compiled. -/
def session (compiler : Compiler) : List Call → Compiler × List CompiledHandler
  | [] => (compiler, [])
  | call :: calls =>
    let (final, handlers) := (call.leaves compiler).session calls
    (final, call.handlers compiler ++ handlers)

/-- A run: so do any calls one after the other. -/
theorem session_eq (compiler : Compiler) (calls : List Call) :
    (compiler.session calls).1 = compiler.after (compiler.session calls).2.length ∧
      (compiler.session calls).2.map (·.handlerId) =
        compiler.ids (compiler.session calls).2.length := by
  induction calls generalizing compiler with
  | nil => exact ⟨rfl, rfl⟩
  | cons call rest ih =>
    obtain ⟨moved, issued⟩ := call.step compiler
    obtain ⟨final, later⟩ := ih (call.leaves compiler)
    simp only [session, List.length_append, List.map_append, ids_add, issued, later]
    rw [final, moved, after_after]
    exact ⟨rfl, rfl⟩

end Compiler
end Hyperscript
