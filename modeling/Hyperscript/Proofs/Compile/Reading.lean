import Hyperscript.Proofs.Compile.Listeners
import Hyperscript.Proofs.Compile.Modules
import Hyperscript.Proofs.Program.ControlFlow

/-! Compiled modules as they are read. The code of a module has one line for each row of its
functions and for each binding; its literals are the texts of the script, each of them whole,
and its brackets are closed in order. No text of a script can change any of this. -/
namespace Hyperscript

open Text Program

namespace Program.Function

variable {function : Function}

/-- A guarded body and its `catch` clause close what they open. -/
theorem balanced_guardedRows (spelled : function.IsSpelled) :
    Balanced (function.guardedRows.flatMap Row.tokens) := by
  have body := balanced_bodyRows spelled
  cases guards : function.facts.canThrow with
  | false =>
    rw [guardedRows, guards]
    exact body
  | true =>
    have enter : Leaves [.word "try", .mark '\x7b'] ['\x7b'] := leaves_of_foldlM rfl
    have leave : catchClause.foldlM openAfter ['\x7b'] = some [] := by decide +kernel
    rw [tokens_guardedRows guards]
    exact enter.around body leave

theorem turns_render (spelled : function.IsSpelled) : Turns function.render [] [] := by
  have whole : Balanced (function.rows.flatMap Row.tokens) := by
    rw [tokens_rows, ← List.append_assoc]
    exact ((leaves_entryRows spelled).append (balanced_guardedRows spelled)).closed
  rw [render_eq_rows spelled]
  exact (Row.linesSpell (isSpelled_rows spelled)).turns whole

end Program.Function

/-- Code that can stand anywhere: its literals are the texts, and it closes what it opens. -/
structure Text.Complete (code : String) (texts : List String) : Prop where
  quotes : Quotes code texts
  turns : Turns code [] []

theorem Text.Complete.append {first second : String} {firsts seconds : List String}
    (before : Complete first firsts) (after : Complete second seconds) :
    Complete (first ++ second) (firsts ++ seconds) :=
  ⟨before.quotes.append after.quotes, before.turns.append after.turns⟩

/-- How a handler is read that was written from this function. -/
structure CompiledHandler.ReadsAs (handler : CompiledHandler) (function : Function) : Prop where
  lines : Text.lines handler.generated.handlerCode = function.rows.map Row.text
  code : Complete handler.generated.handlerCode function.texts
  named : isIdentifier handler.functionName = true
  binding : Inline handler.generated.bindingCode (Listener.texts handler.event handler.modifiers)
    [] []
  cleanup : ∀ code ∈ handler.generated.cleanup, Inline code [handler.event] [] []

theorem CompiledHandler.exists_readsAs {handlers : List CompiledHandler}
    {functions : List Function} (each : List.Forall₂ ReadsAs handlers functions) :
    ∀ handler ∈ handlers, ∃ function, handler.ReadsAs function := by
  induction each with
  | nil => simp
  | cons first _ ih => exact List.forall_mem_cons.mpr ⟨⟨_, first⟩, ih⟩

namespace Compiler

open Caching

/-- No context shows in the tree of a function. -/
theorem function?_context (compiler : Compiler) (input : HandlerInput)
    (context context' : Context) :
    compiler.function? input context = compiler.function? input context' := by
  have same (reads : List (String × String)) :
      ((context.setHandler compiler.nextId).cacheAll reads).cached =
        ((context'.setHandler compiler.nextId).cacheAll reads).cached :=
    Context.cached_cacheAll (by rfl) reads
  simp only [function?, Function.ofHandler, Emission.run, same]
  rfl

/-- One step: a handler is read as the function that was written for it. -/
theorem readsAs_of_compileHandler {compiler : Compiler} {input : HandlerInput} {context : Context}
    {step : Step} (compiled : compiler.compileHandler input context = .ok step)
    (keys : Expr.NamesKeys input.node) (named : isIdentifier step.handler.functionName = true) :
    ∃ function, compiler.function? input context = some function ∧
      step.handler.ReadsAs function := by
  obtain ⟨source, body, event, optimized, made, -, -⟩ := compileHandler_eq_ok compiled
  rw [made] at named
  obtain ⟨handler, found, spelled⟩ := compiler.exists_spelled input context event keys named
  cases Option.some.inj (found.symm.trans optimized)
  have writes := compiler.writes_of_handler? context event found
  obtain ⟨other, same, code⟩ := writes.code
  cases Except.ok.inj (same.symm.trans compiled)
  refine ⟨_, writes.tree, ?_⟩
  constructor
  · rw [code, Function.render_eq_rows spelled]
    exact lines_joinLines (Row.linesSpell (Function.isSpelled_rows spelled)).isLine
  · rw [code]
    exact ⟨Function.quotes_render spelled, Function.turns_render spelled⟩
  · rw [made]
    exact named
  · rw [made]
    simp only [handlerOf, GeneratedHandler.bindingCode_generate]
    exact Listener.inline_binding named source.event source.modifiers
  · rw [made]
    simp only [handlerOf, GeneratedHandler.cleanup_generate]
    exact Listener.inline_cleanup named source.event source.modifiers

/-- The trees of the functions that are written for a module. -/
def functions? (compiler : Compiler) : ModuleInput → Option (List Function)
  | [] => some []
  | input :: inputs => do
    let function ← compiler.function? input { handlerId := compiler.nextId }
    let functions ← (compiler.after 1).functions? inputs
    return function :: functions

/-- The names of all functions are identifiers where the prefix of the ids allows it. -/
theorem Compiles.isIdentifier_functionName {compiler : Compiler} {context : Context}
    {inputs : ModuleInput} {handlers : List CompiledHandler}
    (compiles : compiler.Compiles context inputs handlers)
    (stem : ∀ c ∈ compiler.options.idStem.toList, isIdentifierRest c = true) :
    ∀ handler ∈ handlers, isIdentifier handler.functionName = true := by
  induction compiles with
  | done => exact fun _ member => absurd member List.not_mem_nil
  | @next compiler context input step inputs handlers run rest ih =>
    obtain ⟨_, _, _, _, made, advanced, _⟩ := compileHandler_eq_ok run
    refine List.forall_mem_cons.mpr ⟨?_, ih (advanced ▸ stem)⟩
    rw [made]
    exact compiler.isIdentifier_functionName stem

/-- A run: so are all handlers of a module. -/
theorem Compiles.readsAs {compiler : Compiler} {context : Context} {inputs : ModuleInput}
    {handlers : List CompiledHandler} (compiles : compiler.Compiles context inputs handlers)
    (keys : ∀ input ∈ inputs, Expr.NamesKeys input.node)
    (named : ∀ handler ∈ handlers, isIdentifier handler.functionName = true) :
    ∃ functions, compiler.functions? inputs = some functions ∧
      List.Forall₂ CompiledHandler.ReadsAs handlers functions := by
  induction compiles with
  | done => exact ⟨[], rfl, .nil⟩
  | @next compiler context input step inputs handlers run rest ih =>
    obtain ⟨firstKeys, otherKeys⟩ := List.forall_mem_cons.mp keys
    obtain ⟨firstName, otherNames⟩ := List.forall_mem_cons.mp named
    obtain ⟨function, tree, reads⟩ := readsAs_of_compileHandler run firstKeys firstName
    obtain ⟨_, _, _, _, _, advanced, _⟩ := compileHandler_eq_ok run
    obtain ⟨functions, trees, inRest⟩ := ih otherKeys otherNames
    refine ⟨function :: functions, ?_, .cons reads inRest⟩
    rw [advanced] at trees
    rw [function?_context _ _ _ { handlerId := compiler.nextId }] at tree
    simp only [functions?, tree, trees]
    rfl

end Compiler

namespace CompiledModule

variable {compiled : CompiledModule}

def bindings (compiled : CompiledModule) : List Binding :=
  compiled.handlers.filterMap (·.binding?)

theorem isNamed_bindings
    (named : ∀ handler ∈ compiled.handlers, isIdentifier handler.functionName = true) :
    ∀ binding ∈ compiled.bindings, binding.IsNamed := by
  intro binding member
  obtain ⟨handler, inHandlers, bound⟩ := List.mem_filterMap.mp member
  obtain ⟨selector, -, rfl⟩ := Option.map_eq_some_iff.mp bound
  exact ⟨⟨selector, rfl⟩, named handler inHandlers⟩

theorem complete_initialization (named : ∀ binding ∈ compiled.bindings, binding.IsNamed) :
    ∃ texts, List.Forall₂ Complete compiled.initialization?.toList texts ∧
      texts.flatten = compiled.bindings.flatMap Binding.texts := by
  unfold initialization?
  split
  next none =>
    have unbound : compiled.bindings = [] := none
    exact ⟨[], .nil, by rw [unbound]; rfl⟩
  next =>
    have whole : Complete (Binding.initialization compiled.bindings)
        (compiled.bindings.flatMap Binding.texts) :=
      ⟨Binding.quotes_initialization named, Binding.turns_initialization named⟩
    exact ⟨[_], .cons whole .nil, List.append_nil _⟩

theorem eq_initialization {code : String} (written : code ∈ compiled.initialization?) :
    code = Binding.initialization compiled.bindings := by
  unfold initialization? at written
  split at written
  next => cases written
  next =>
    cases written
    rfl

/-- A module is as complete as its parts. -/
theorem complete_javascript {functions : List Function}
    (each : List.Forall₂ CompiledHandler.ReadsAs compiled.handlers functions) :
    Complete compiled.javascript
      (functions.flatMap Function.texts ++ compiled.bindings.flatMap Binding.texts) := by
  have empty : Complete "" [] := ⟨quotes_fixed (by decide), turns_of_foldlM (by decide)⟩
  have lineFeed : Complete "\n" [] := ⟨quotes_fixed (by decide), turns_of_foldlM (by decide)⟩
  have inFunctions : List.Forall₂ Complete (compiled.handlers.map (·.generated.handlerCode))
      (functions.map Function.texts) := by
    rw [List.forall₂_map_left_iff, List.forall₂_map_right_iff]
    exact each.imp fun _ _ reads => reads.code
  have named : ∀ handler ∈ compiled.handlers, isIdentifier handler.functionName = true := by
    intro handler member
    obtain ⟨function, reads⟩ := CompiledHandler.exists_readsAs each handler member
    exact reads.named
  obtain ⟨texts, inBindings, same⟩ := complete_initialization (isNamed_bindings named)
  have whole := (join_of_append empty (lineFeed.append lineFeed) Complete.append
    (List.rel_append inFunctions inBindings)).append lineFeed
  rw [List.flatten_append, same, List.append_nil, ← List.flatMap_def] at whole
  exact whole

end CompiledModule

namespace Compiler

open Caching

/-- A text between quotes of either kind is read whole and to its closing quote, whatever follows,
and nothing in the literal breaks a line; so different texts have different literals. In the
code of a module, the literals are those of the texts that its functions and bindings quote,
in this order, and each row and each binding has a line of its own: no event, selector, class,
member or value ends its literal early, whatever it says. -/
theorem literals_faithful :
    (∀ quote ∈ ['"', '\''], ∀ (text : String) (rest : List Char),
      literalAt? (quote :: (escape quote text).toList ++ quote :: rest) = some (utf16 text, rest) ∧
      ∀ c ∈ quote :: (escape quote text).toList ++ [quote],
        0x20 ≤ c.toNat ∧ c.toNat ≠ 0x7F ∧ c.toNat ≠ 0x2028 ∧ c.toNat ≠ 0x2029) ∧
    Function.Injective utf16 ∧ Function.Injective quoted ∧
    ∀ (compiler : Compiler) (inputs : ModuleInput) (compiled : CompiledModule),
      (∀ c ∈ compiler.options.idStem.toList, isIdentifierRest c = true) →
      (∀ input ∈ inputs, IsKeyless input.node) →
      (compiler.compileModule inputs).result = .ok compiled →
      ∃ functions, compiler.functions? inputs = some functions ∧
        List.Forall₂ CompiledHandler.ReadsAs compiled.handlers functions ∧
        literals none compiled.javascript.toList =
          some ((functions.flatMap Function.texts ++
            compiled.bindings.flatMap Binding.texts).map utf16) ∧
        (∀ c ∈ compiled.javascript.toList, c = '\n' ∨ isPrintable c = true) ∧
        ∀ code ∈ compiled.initialization?,
          Text.lines code = Binding.initializationLines compiled.bindings := by
  refine ⟨?_, utf16_injective, quoted_injective, ?_⟩
  · intro quote known text rest
    have isQuote_quote : isQuote quote = true := by simpa [isQuote] using known
    refine ⟨literalAt?_escape isQuote_quote text rest, ?_⟩
    have printable : ∀ c ∈ quote :: (escape quote text).toList ++ [quote],
        isPrintable c = true := by
      have delimiter := isPrintable_quote isQuote_quote
      refine List.forall_mem_append.mpr ⟨List.forall_mem_cons.mpr ⟨delimiter, ?_⟩, ?_⟩
      · exact isPrintable_escape isQuote_quote text
      · exact List.forall_mem_singleton.mpr delimiter
    intro c member
    simpa [isPrintable, and_assoc] using printable c member
  · intro compiler inputs compiled stem keyless accepted
    have compiles := compiles_of_compileModule accepted
    have named := compiles.isIdentifier_functionName stem
    obtain ⟨functions, trees, each⟩ :=
      compiles.readsAs (fun input member => (keyless input member).namesKeys) named
    have whole := compiled.complete_javascript each
    refine ⟨functions, trees, each, whole.quotes.literals_eq, whole.quotes.printable, ?_⟩
    intro code written
    rw [compiled.eq_initialization written]
    exact Binding.lines_initialization (CompiledModule.isNamed_bindings named)

/-- Texts that would end a literal, a line or a call if they were not quoted. -/
def hostileTexts : HandlerInput where
  node := .event "on\"); (" { source := some "a\nb" }
    [.command "log" [.literal (.string "\\"), .literal (.string "\u2028'")] none,
      .command "add" [.selector ".c\"" none] (some (.selector "[x=\"(\"]" none)),
      .command "log" [.member (.identifier "me") "a-b\r"] none]
  selector := some "\"]"

theorem isKeyless_hostileTexts : ∀ input ∈ [hostileTexts], IsKeyless input.node := by
  rintro input member value cacheKey inside
  obtain rfl := List.mem_singleton.mp member
  simp [hostileTexts, Node.subtree, Node.subtrees, Node.subtree?] at inside
  obtain ⟨-, unkeyed⟩ | ⟨-, unkeyed⟩ := inside
  · exact unkeyed
  · exact unkeyed

theorem literals_faithful_hostileTexts :
    literalAt? "'it\\'s' + x".toList = some (utf16 "it's", " + x".toList) ∧
    ∃ compiled,
      (({} : Compiler).compileModule [hostileTexts]).result = .ok compiled ∧
      literals none compiled.javascript.toList =
        some (["\\", "\u2028'", "[x=\"(\"]", "c\"", "a-b\r", "\"]", "on\"); (", "a\nb"].map
          utf16) := by
  obtain ⟨closed, -, -, modules⟩ := literals_faithful
  have code : "'it\\'s' + x".toList =
      '\'' :: (escape '\'' "it's").toList ++ '\'' :: " + x".toList := by decide
  refine ⟨code ▸ (closed '\'' (by decide) "it's" " + x".toList).1, ?_⟩
  obtain ⟨compiled, accepted, bound⟩ : ∃ compiled,
      (({} : Compiler).compileModule [hostileTexts]).result = .ok compiled ∧
        compiled.bindings.flatMap Binding.texts = ["\"]", "on\"); (", "a\nb"] :=
    exists_ok (by decide +kernel)
  obtain ⟨functions, trees, -, read, -⟩ :=
    modules {} [hostileTexts] compiled (List.all_eq_true.mp (by decide)) isKeyless_hostileTexts
      accepted
  have quoted : functions.flatMap Function.texts =
      ["\\", "\u2028'", "[x=\"(\"]", "c\"", "a-b\r"] := by
    have computed : (({} : Compiler).functions? [hostileTexts]).map (·.flatMap Function.texts) =
        some ["\\", "\u2028'", "[x=\"(\"]", "c\"", "a-b\r"] := by decide +kernel
    rw [trees] at computed
    exact Option.some.inj computed
  rw [quoted, bound] at read
  exact ⟨compiled, accepted, read⟩

/-- The code of a module and of each of its handlers closes its brackets in order and its
literals on their lines, whatever facts and options the module is compiled with. -/
theorem compiled_well_bracketed (compiler : Compiler) (inputs : ModuleInput)
    (compiled : CompiledModule)
    (stem : ∀ c ∈ compiler.options.idStem.toList, isIdentifierRest c = true)
    (keyless : ∀ input ∈ inputs, IsKeyless input.node)
    (accepted : (compiler.compileModule inputs).result = .ok compiled) :
    IsWellBracketed compiled.javascript ∧
    ∀ handler ∈ compiled.handlers,
      IsWellBracketed handler.generated.handlerCode ∧
      IsWellBracketed handler.generated.bindingCode ∧
      ∀ code ∈ handler.generated.cleanup, IsWellBracketed code := by
  have compiles := compiles_of_compileModule accepted
  obtain ⟨functions, -, each⟩ :=
    compiles.readsAs (fun input member => (keyless input member).namesKeys)
      (compiles.isIdentifier_functionName stem)
  refine ⟨(compiled.complete_javascript each).turns.isWellBracketed, ?_⟩
  intro handler member
  obtain ⟨function, reads⟩ := CompiledHandler.exists_readsAs each handler member
  refine ⟨reads.code.turns.isWellBracketed, reads.binding.turns.isWellBracketed, ?_⟩
  intro code written
  exact (reads.cleanup code written).turns.isWellBracketed

theorem well_bracketed_hostileTexts :
    ∃ compiled,
      (({} : Compiler).compileModule [hostileTexts]).result = .ok compiled ∧
      IsWellBracketed compiled.javascript ∧
      ∃ handler ∈ compiled.handlers, IsWellBracketed handler.generated.bindingCode ∧
        handler.generated.cleanup.isSome = true := by
  obtain ⟨compiled, accepted, removed⟩ : ∃ compiled,
      (({} : Compiler).compileModule [hostileTexts]).result = .ok compiled ∧
        compiled.handlers.map (·.generated.cleanup.isSome) = [true] :=
    exists_ok (by decide +kernel)
  obtain ⟨whole, each⟩ := compiled_well_bracketed {} [hostileTexts] compiled
    (List.all_eq_true.mp (by decide)) isKeyless_hostileTexts accepted
  obtain ⟨handler, single, cleanup⟩ := List.map_eq_singleton_iff.mp removed
  have member : handler ∈ compiled.handlers := by simp [single]
  exact ⟨compiled, accepted, whole, handler, member, (each handler member).2.1, cleanup⟩

end Compiler
end Hyperscript
