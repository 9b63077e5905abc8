import Hyperscript.Proofs.Compile.Imports
import Hyperscript.Proofs.Compile.Sessions

/-! The functions that a module declares. The code of a handler opens with the head of its
function, whatever comes after it, so the code of a module has one such head for each handler,
in their order, and no two of them have a name in common. Where the names in the code are
identifiers, these are all declarations that a reader of the code finds, and the initialization
names no handler function that is not among them. -/
namespace Hyperscript

open Text

namespace Text

/-- The function whose declaration begins with these tokens. -/
def declared? : List Token → Option String
  | .word "function" :: .word name :: _ => some name
  | _ => none

/-- The functions that are declared, in the order of the declarations. -/
def declaredIn : List Token → List String
  | [] => []
  | token :: rest => (declared? (token :: rest)).toList ++ declaredIn rest

theorem declared?_of_ne {token : Token} (other : token ≠ .word "function") (rest : List Token) :
    declared? (token :: rest) = none := by
  unfold declared?
  split
  next same => exact absurd (List.cons.inj same).1 other
  next => rfl

/-- Tokens that declare these functions, whatever follows. -/
def Declares (tokens : List Token) (names : List String) : Prop :=
  ∀ rest, declaredIn (tokens ++ rest) = names ++ declaredIn rest

namespace Declares

variable {first second : List Token} {names others : List String}

theorem append (before : Declares first names) (after : Declares second others) :
    Declares (first ++ second) (names ++ others) := by
  intro rest
  rw [List.append_assoc, before, after, List.append_assoc]

theorem of_not_mem (absent : .word "function" ∉ first) : Declares first [] := by
  intro rest
  induction first with
  | nil => rfl
  | cons token more ih =>
    have other : token ≠ .word "function" := (List.ne_of_not_mem_cons absent).symm
    rw [List.cons_append, declaredIn, declared?_of_ne other,
      ih (List.not_mem_of_not_mem_cons absent)]
    rfl

/-- The keyword and a name. -/
theorem head {name : String} (valid : isIdentifier name = true) :
    Declares [.word "function", .word name] [name] := by
  intro rest
  have other : Token.word name ≠ .word "function" := by
    rintro ⟨⟩
    exact absurd valid (by decide)
  simp only [List.cons_append, List.nil_append, declaredIn, declared?_of_ne other]
  rfl

theorem flatMap {α : Type} {parts : List α} {tokens : α → List Token} {name : α → String}
    (each : ∀ part ∈ parts, Declares (tokens part) [name part]) :
    Declares (parts.flatMap tokens) (parts.map name) := by
  induction parts with
  | nil => exact fun _ => rfl
  | cons part rest ih =>
    obtain ⟨here, later⟩ := List.forall_mem_cons.mp each
    exact here.append (ih later)

theorem declaredIn_eq (declares : Declares first names) : declaredIn first = names := by
  simpa [declaredIn] using declares []

end Declares

/-- The name of a handler function, if the token is one. -/
def handlerName? : Token → Option String
  | .word text => if (Names.functionName "").toList.isPrefixOf text.toList then some text else none
  | _ => none

/-- The handler functions that are named, in order. -/
def handlersIn (tokens : List Token) : List String := tokens.filterMap handlerName?

theorem handlerName?_functionName (handlerId : String) :
    handlerName? (.word (Names.functionName handlerId)) = some (Names.functionName handlerId) := by
  have starts : (Names.functionName "").toList.isPrefixOf
      (Names.functionName handlerId).toList = true := by
    rw [List.isPrefixOf_iff_prefix]
    exact ⟨handlerId.toList, by simp [Names.functionName]⟩
  rw [handlerName?, if_pos starts]

/-- The name of a handler has an underscore. -/
theorem handlersIn_of_not_mem {code : String} (absent : '_' ∉ code.toList) :
    handlersIn (tokens code) = [] := by
  refine List.filterMap_eq_nil_iff.mpr fun token member => ?_
  cases token with
  | word text =>
    have shown : text.toList ⊆ code.toList := characters_subset _ member
    refine if_neg fun starts => absent (shown ?_)
    exact (List.isPrefixOf_iff_prefix.mp starts).subset (by decide)
  | literal | mark => rfl

/-- Code with these tokens that other code can follow: no literal is left open in it, and no
word ends it. -/
structure Closes (code : String) (found : List Token) : Prop where
  closed : modeAfter .code code.toList = .code
  ends : endsWord code.toList = false
  read : tokens code = found

theorem Closes.append {first second : String} {firsts seconds : List Token}
    (before : Closes first firsts) (after : Closes second seconds) :
    Closes (first ++ second) (firsts ++ seconds) where
  closed := by rw [String.toList_append, modeAfter_append, before.closed, after.closed]
  ends := by
    by_cases empty : second = ""
    · rw [empty, String.append_empty]
      exact before.ends
    · rw [Program.Expr.endsWord_append empty]
      exact after.ends
  read := by
    have second := after.read
    rw [tokens] at second
    rw [tokens, String.toList_append, scan_append _ _ _ (.inl before.ends), before.closed, second,
      ← before.read, tokens]

/-- Lines of which the last one ends in a mark. -/
theorem LinesSpell.closes {texts : List String} {last : String} {tokens : List (List Token)}
    (spell : LinesSpell (texts ++ [last]) tokens) (ends : endsWord last.toList = false) :
    Closes (joinLines (texts ++ [last])) tokens.flatten where
  closed := by
    have each : List.Forall₂ (fun text (_ : List Token) => modeAfter .code text.toList = .code)
        (texts ++ [last]) tokens := spell.imp fun _ _ line => line.2.closed
    refine join_of_append rfl rfl ?_ each
    intro first second _ _ before after
    rw [String.toList_append, modeAfter_append, before, after]
  ends := by
    have nonempty : last ≠ "" := (spell.isLine last (by simp)).nonempty
    by_cases only : texts = []
    · rw [only]
      exact ends
    · have single : joinLines [last] = last := rfl
      rw [joinLines_append only (List.cons_ne_nil _ _), single,
        Program.Expr.endsWord_append nonempty]
      exact ends
  read := spell.tokens_joinLines

/-- One line that declares no function and names these handlers. -/
structure Mentions (code : String) (names : List String) : Prop where
  spells : Spells code (tokens code)
  plain : .word "function" ∉ tokens code
  named : handlersIn (tokens code) = names

namespace Mentions

variable {first second : String} {names others : List String}

theorem append (before : Mentions first names) (after : Mentions second others)
    (apart : endsWord first.toList = false ∨ startsWord second.toList = false) :
    Mentions (first ++ second) (names ++ others) := by
  have whole := before.spells.append after.spells apart
  refine ⟨⟨whole.unbroken, whole.closed, rfl⟩, ?_, ?_⟩
  · rw [tokens, whole.read, List.mem_append]
    exact not_or.mpr ⟨before.plain, after.plain⟩
  · rw [tokens, whole.read, handlersIn, List.filterMap_append, ← before.named, ← after.named]
    rfl

/-- Code without underscores that has no keyword. -/
theorem of_isPlain {code : String} (plain : IsPlain code) (absent : '_' ∉ code.toList) :
    Mentions code [] where
  spells := plain.spells
  plain member := absurd (plain.tokens _ member).1 (by decide)
  named := handlersIn_of_not_mem absent

theorem quoted (text : String) : Mentions (Text.quoted text) [] := by
  have spells := spells_quoted text
  have read : tokens (Text.quoted text) = [.literal] := spells.read
  refine ⟨⟨spells.unbroken, spells.closed, rfl⟩, ?_, ?_⟩
  · rw [read]
    decide
  · rw [read]
    rfl

theorem handler {handlerId : String}
    (valid : isIdentifier (Names.functionName handlerId) = true) :
    Mentions (Names.functionName handlerId) [Names.functionName handlerId] := by
  have spells := spells_identifier valid
  have read : tokens (Names.functionName handlerId) = [.word (Names.functionName handlerId)] :=
    spells.read
  refine ⟨⟨spells.unbroken, spells.closed, rfl⟩, ?_, ?_⟩
  · rw [read, List.mem_singleton, Token.word.injEq]
    intro same
    rw [← same] at valid
    exact absurd valid (by decide)
  · rw [read, handlersIn, List.filterMap_cons_some (handlerName?_functionName handlerId)]
    rfl

instance (code : String) (names : List String) : Decidable (Mentions code names) :=
  decidable_of_iff (Spells code (tokens code) ∧ .word "function" ∉ tokens code ∧
      handlersIn (tokens code) = names)
    ⟨fun ⟨spells, plain, named⟩ => ⟨spells, plain, named⟩,
      fun mentions => ⟨mentions.spells, mentions.plain, mentions.named⟩⟩

/-- Arguments one after the other. -/
theorem join {parts : List String} {names : List (List String)}
    (each : List.Forall₂ Mentions parts names) :
    Mentions (Text.join ", " parts) names.flatten := by
  have comma : Mentions ", " [] := by decide
  induction each with
  | nil => decide
  | @cons part _ rest others first inRest ih =>
    cases inRest with
    | nil => simpa [Text.join] using first
    | cons _ _ =>
      have start := first.append comma (.inr (by decide))
      have whole := start.append ih (.inl (Program.Expr.endsWord_append (by decide)))
      rw [List.append_nil] at whole
      exact whole

/-- Arguments between the opening of a call and its end. -/
theorem enclosed {opening inner closing : String} (start : Mentions opening [])
    (ends : endsWord opening.toList = false) (inside : Mentions inner names)
    (finish : Mentions closing []) (starts : startsWord closing.toList = false) :
    Mentions (opening ++ inner ++ closing) names := by
  have whole := (start.append inside (.inl ends)).append finish (.inr starts)
  rwa [List.nil_append, List.append_nil] at whole

end Mentions

end Text

namespace GeneratedHandler

/-- The code of a handler opens with the head of its function, whatever its body. -/
theorem handlerCode_generate (handler : Handler) (facts : Facts) (context : Context) :
    ∃ rest, (generate handler facts context).1.handlerCode =
      heading (Names.functionName context.handlerId) facts.hasAsync ++ rest := by
  rw [handlerCode_eq, functionCode_eq_joinLines, headLines]
  simp only [List.cons_append, List.nil_append]
  rw [joinLines_cons _ (List.cons_ne_nil _ _), String.append_assoc]
  exact ⟨_, rfl⟩

end GeneratedHandler

namespace Program

namespace Stmt

/-- The fixed texts that the code of commands is made of. -/
def commandTexts : List String :=
  ["throw ", "_rt.", "return;", "return ", "console.log(", ", ", ".", "classList.", "(", ")",
    ".forEach((el) => el.", Names.indexVar, " = ",
    "await new Promise((resolve) => setTimeout(resolve, ", "));", ");", ";"]

theorem CommandCode.fixedTexts {name : String} {args : List Node} {target : Option Node}
    {statement : Stmt} (code : CommandCode name args target statement) :
    ∀ row ∈ statement.rows, ∀ text ∈ row.fixedTexts, text ∈ commandTexts := by
  cases code with
  | @log _ _ exprs =>
    have inLog : ∀ text ∈ ["console.log(", ", ", ");"], text ∈ commandTexts := by decide
    exact List.forall_mem_singleton.mpr fun text member =>
      inLog text (fixedTexts_log exprs text member)
  | _ => exact List.forall_mem_singleton.mpr (by simp [Row.fixedTexts, commandTexts])

theorem function_not_mem_rows (nodes : List Node) :
    ∀ row ∈ rowsAll (ofNodes nodes), .word "function" ∉ row.fixedTokens :=
  forall_rows_ofNodes (q := (.word "function" ∉ ·)) fun _ _ =>
    ⟨by decide +kernel, fun _ _ code row inRows held => by
      have outside : ∀ text ∈ commandTexts, .word "function" ∉ Text.tokens text := by
        decide +kernel
      obtain ⟨text, inTexts, inText⟩ := List.mem_flatMap.mp held
      exact outside text (code.fixedTexts row inRows text inTexts) inText⟩

end Stmt

namespace Function

variable {function : Function}

/-- Of the rows of a function, only the first has the keyword. -/
theorem function_not_mem_tokens (spelled : function.IsSpelled) {nodes : List Node}
    (body : function.body = Stmt.ofNodes nodes) :
    .word "function" ∉ (setupRow :: function.declarations.map declarationRow).flatMap Row.tokens ++
      (function.guardedRows.flatMap Row.tokens ++ [.mark '\x7d']) := by
  have entry : .word "function" ∉
      (setupRow :: function.declarations.map declarationRow).flatMap Row.tokens := by
    have setup : .word "function" ∉ setupRow.tokens := by decide +kernel
    have declared : .word "function" ∉ ["const ", " = ", ";"].flatMap Text.tokens := by
      decide +kernel
    intro held
    obtain ⟨row, member, inRow⟩ := List.mem_flatMap.mp held
    obtain rfl | declaration := List.mem_cons.mp member
    · exact setup inRow
    · have fixed := (isSpelled_declarationRows spelled row declaration).mem_fixedTokens inRow
        (by decide)
      obtain ⟨_, _, rfl⟩ := List.mem_map.mp declaration
      rw [Row.fixedTokens_eq] at fixed
      exact declared fixed
  have inside : .word "function" ∉ function.bodyRows.flatMap Row.tokens := by
    have calls : ∀ row ∈ callRows function.modifiers, .word "function" ∉ row.tokens :=
      forall_mem_callRows (by decide +kernel) (by decide +kernel) _
    intro held
    obtain ⟨row, member, inRow⟩ := List.mem_flatMap.mp held
    obtain called | written := List.mem_append.mp member
    · exact calls row called inRow
    · rw [body] at written
      exact Stmt.function_not_mem_rows nodes row written
        ((isSpelled_bodyRows spelled row member).mem_fixedTokens inRow (by decide))
  have guarded : .word "function" ∉ function.guardedRows.flatMap Row.tokens := by
    cases guards : function.facts.canThrow with
    | false =>
      rw [guardedRows, guards]
      exact inside
    | true =>
      have clause : .word "function" ∉ catchClause := by decide +kernel
      rw [tokens_guardedRows guards]
      simp [inside, clause]
  simp only [List.mem_append, not_or]
  exact ⟨entry, guarded, by decide⟩

/-- The code of a function declares that function and no other. -/
theorem declares_render (spelled : function.IsSpelled) {nodes : List Node}
    (body : function.body = Stmt.ofNodes nodes) :
    Declares (Text.tokens function.render) [Names.functionName function.handlerId] := by
  have heading : Declares function.openingRow.tokens [Names.functionName function.handlerId] := by
    have opened := (Declares.head spelled.name).append
      (@Declares.of_not_mem (["(", Names.eventParam, ") \x7b"].flatMap Text.tokens)
        (by decide +kernel))
    have keyword : Text.tokens "function " = [.word "function"] := by decide
    have async : Declares (Text.tokens "async ") [] := .of_not_mem (by decide)
    unfold openingRow
    split
    · simpa [Row.tokens, Piece.tokens, keyword] using async.append opened
    · simpa [Row.tokens, Piece.tokens, keyword] using opened
  have others := Declares.of_not_mem (function_not_mem_tokens spelled body)
  rw [tokens_render spelled, tokens_rows, entryRows, List.flatMap_cons, List.append_assoc]
  exact heading.append others

theorem closes_render (spelled : function.IsSpelled) :
    Closes function.render (Text.tokens function.render) := by
  have lines := Row.linesSpell (isSpelled_rows spelled)
  rw [rows, Row.block, List.map_append, List.map_singleton] at lines
  have whole := lines.closes (by decide)
  rw [render_eq_rows spelled, rows, Row.block, List.map_append, List.map_singleton]
  exact ⟨whole.closed, whole.ends, rfl⟩

end Function
end Program

namespace Listener

/-- A handler is named once, whatever limits its rate. -/
theorem mentions_reference {handlerId : String}
    (valid : isIdentifier (Names.functionName handlerId) = true) (modifiers : Modifiers) :
    Mentions (reference (Names.functionName handlerId) modifiers)
      [Names.functionName handlerId] := by
  have limits {helper : String} (known : helper ∈ ["debounce", "throttle"]) {handler : String}
      {names : List String} (inside : Mentions handler names) (delay : Float) :
      Mentions (limited helper handler delay) names := by
    have openings : ∀ helper ∈ ["debounce", "throttle"],
        Mentions (Names.member helper ++ "(") [] := by decide +kernel
    have comma : Mentions ", " [] := by decide
    have number : Mentions (Number.text delay) [] :=
      .of_isPlain (Number.isPlain_text delay) (Number.underscore_not_mem_text delay)
    have args := (inside.append comma (.inr (by decide))).append number
      (.inl (Program.Expr.endsWord_append (by decide)))
    have whole := Mentions.enclosed (openings helper known)
      (Program.Expr.endsWord_append (by decide)) args
      (by decide : Mentions ")" []) (by decide)
    simpa [limited, String.append_assoc] using whole
  have handled := Mentions.handler valid
  unfold reference
  cases modifiers.debounceDelay? with
  | none =>
    cases modifiers.throttleDelay? with
    | none => exact handled
    | some delay => exact limits (by decide) handled delay
  | some first =>
    have debounced := @limits "debounce" (by decide) _ _ handled first
    cases modifiers.throttleDelay? with
    | none => exact debounced
    | some delay => exact limits (by decide) debounced delay

theorem mentions_options (modifiers : Modifiers) :
    List.Forall₂ Mentions (options? modifiers).toList
      ((options? modifiers).toList.map fun _ => []) := by
  have all : ∀ once passive capture, ∀ text ∈ (options? { once, passive, capture }).toList,
      Mentions text [] := by
    decide +kernel
  rw [List.forall₂_map_right_iff, List.forall₂_same]
  exact fun text member => all _ _ _ text member

theorem mentions_call {handlerId : String}
    (valid : isIdentifier (Names.functionName handlerId) = true) (event : String)
    (modifiers : Modifiers) :
    Mentions (call "el" event (reference (Names.functionName handlerId) modifiers) modifiers)
      [Names.functionName handlerId] := by
  have noNames (options : List String) :
      (options.map fun _ => ([] : List String)).flatten = [] := by
    simp
  have handler := mentions_reference valid modifiers
  have options := mentions_options modifiers
  have bracket : Mentions ")" [] := by decide
  unfold call
  cases modifiers.delegate? with
  | none =>
    have opening : Mentions ("el" ++ ".addEventListener(") [] := by decide +kernel
    have args := Mentions.join (.cons (.quoted event) (.cons handler options))
    have whole := opening.enclosed (by decide) args bracket (by decide)
    simpa [noNames] using whole
  | some selector =>
    have opening : Mentions (Names.member "delegate" ++ "(") [] := by decide +kernel
    have element : Mentions "el" [] := by decide
    have args := Mentions.join (.cons element (.cons (.quoted event)
      (.cons (.quoted selector) (.cons handler options))))
    have whole := opening.enclosed (by decide) args bracket (by decide)
    simpa [noNames] using whole

end Listener

namespace Binding

/-- A statement names the handler that it binds. -/
theorem mentions_statement {binding : Binding} (named : binding.IsNamed) {handlerId : String}
    (handler : binding.handler = Names.functionName handlerId) :
    Mentions binding.statement [binding.handler] := by
  obtain ⟨⟨selector, target⟩, valid⟩ := named
  rw [handler] at valid
  have document : Mentions "document.querySelectorAll(" [] := by decide +kernel
  have query := document.enclosed (by decide) (.quoted selector)
    (by decide : Mentions ")" []) (by decide)
  have each : Mentions ".forEach(el => " [] := by decide +kernel
  have opening := query.append each (.inr (by decide))
  have whole := opening.enclosed (Program.Expr.endsWord_append (by decide))
    (Listener.mentions_call valid binding.event binding.modifiers)
    (by decide : Mentions ");" []) (by decide)
  have statement : binding.statement =
      Expression.query selector ++ ".forEach(el => " ++ Listener.call "el" binding.event
        (Listener.reference (Names.functionName handlerId) binding.modifiers) binding.modifiers ++
        ");" := by
    simp [Binding.statement, target, handler, String.append_assoc]
  rw [statement, handler]
  exact whole

/-- The initialization declares no function. It names the handlers that it binds, in order. -/
theorem closes_initialization {bindings : List Binding}
    (named : ∀ binding ∈ bindings, binding.IsNamed)
    (each : ∀ binding ∈ bindings, Mentions binding.statement [binding.handler]) :
    Closes (initialization bindings) (tokens (initialization bindings)) ∧
      .word "function" ∉ tokens (initialization bindings) ∧
      handlersIn (tokens (initialization bindings)) = bindings.map (·.handler) := by
  have opening : Mentions (Names.member "ready" ++ "(() => \x7b") [] := by decide +kernel
  have closing : Mentions "\x7d);" [] := by decide
  have inner : LinesSpell (indented 1 (bindings.map statement))
      (bindings.map fun binding => tokens binding.statement) := by
    rw [indented, List.map_map, LinesSpell, List.forall₂_map_left_iff, List.forall₂_map_right_iff,
      List.forall₂_same]
    intro binding member
    exact ⟨by simp [binding.statement_nonempty], (each binding member).spells.indented 1⟩
  have lines : LinesSpell (initializationLines bindings) _ :=
    List.rel_append (.cons ⟨by decide, opening.spells⟩ inner)
      (.cons ⟨by decide, closing.spells⟩ .nil)
  have whole := lines.closes (by decide)
  have read : tokens (initialization bindings) =
      tokens (Names.member "ready" ++ "(() => \x7b") ++
        ((bindings.flatMap fun binding => tokens binding.statement) ++ tokens "\x7d);") := by
    rw [initialization_eq named, lines.tokens_joinLines]
    simp [List.flatMap_def]
  refine ⟨?_, ?_, ?_⟩
  · rw [initialization_eq named]
    exact ⟨whole.closed, whole.ends, rfl⟩
  · rw [read, List.mem_append, List.mem_append, not_or, not_or]
    refine ⟨opening.plain, ?_, closing.plain⟩
    intro held
    obtain ⟨binding, member, inside⟩ := List.mem_flatMap.mp held
    exact (each binding member).plain inside
  · have statements : handlersIn (bindings.flatMap fun binding => tokens binding.statement) =
        bindings.map (·.handler) := by
      rw [handlersIn, List.filterMap_flatMap, ← List.flatMap_pure_eq_map]
      exact List.flatMap_congr fun binding member => (each binding member).named
    have first := opening.named
    have last := closing.named
    rw [handlersIn] at statements first last
    rw [read, handlersIn, List.filterMap_append, List.filterMap_append, first, last, statements,
      List.nil_append, List.append_nil]

end Binding

namespace Compiler

open Caching Program

variable {compiler : Compiler} {context : Context} {inputs : ModuleInput}

/-- One step: the code of a handler opens with its function. -/
theorem heading_of_compileHandler {input : HandlerInput} {step : Step}
    (compiled : compiler.compileHandler input context = .ok step) :
    ∃ rest, step.handler.generated.handlerCode =
      GeneratedHandler.heading step.handler.functionName step.handler.generated.isAsync ++
        rest := by
  obtain ⟨source, body, -, -, made, -, -⟩ := compileHandler_eq_ok compiled
  rw [made]
  exact GeneratedHandler.handlerCode_generate { source with body } (factsFor input)
    { handlerId := compiler.nextId, helpers := context.helpers }

/-- One step: and that is the only one it declares. -/
theorem declares_of_compileHandler {input : HandlerInput} {step : Step}
    (compiled : compiler.compileHandler input context = .ok step)
    (keys : Expr.NamesKeys input.node) (named : isIdentifier step.handler.functionName = true) :
    Closes step.handler.generated.handlerCode (tokens step.handler.generated.handlerCode) ∧
      Declares (tokens step.handler.generated.handlerCode) [step.handler.functionName] := by
  obtain ⟨source, body, event, optimized, made, -, -⟩ := compileHandler_eq_ok compiled
  have name : step.handler.functionName = Names.functionName compiler.nextId := by
    rw [made]
    rfl
  rw [name] at named ⊢
  obtain ⟨handler, found, spelled⟩ := compiler.exists_spelled input context event keys named
  obtain ⟨other, same, code⟩ := (compiler.writes_of_handler? context event found).code
  cases Except.ok.inj (same.symm.trans compiled)
  rw [code]
  exact ⟨Function.closes_render spelled, Function.declares_render spelled rfl⟩

namespace Compiles

variable {handlers : List CompiledHandler}

/-- Where a handler of a module comes from. -/
theorem exists_step (compiles : compiler.Compiles context inputs handlers)
    {handler : CompiledHandler} (member : handler ∈ handlers) :
    ∃ (i : Nat) (input : HandlerInput) (before : Context) (step : Step), input ∈ inputs ∧
      (compiler.after i).compileHandler input before = .ok step ∧ step.handler = handler := by
  obtain ⟨i, input, at_i, compiled⟩ := compiles.exists_input member
  obtain ⟨before, step, run, same, -⟩ := compiles.getElem? at_i compiled
  exact ⟨i, input, before, step, List.mem_of_getElem? at_i, run, same⟩

/-- A run: all of this holds of each handler of a module. -/
theorem heading (compiles : compiler.Compiles context inputs handlers) :
    ∀ handler ∈ handlers, ∃ rest, handler.generated.handlerCode =
      GeneratedHandler.heading handler.functionName handler.generated.isAsync ++ rest := by
  intro handler member
  obtain ⟨_, _, _, step, -, run, rfl⟩ := compiles.exists_step member
  exact heading_of_compileHandler run

theorem declares (compiles : compiler.Compiles context inputs handlers)
    (keys : ∀ input ∈ inputs, Expr.NamesKeys input.node)
    (named : ∀ handler ∈ handlers, isIdentifier handler.functionName = true) :
    ∀ handler ∈ handlers,
      Closes handler.generated.handlerCode (tokens handler.generated.handlerCode) ∧
        Declares (tokens handler.generated.handlerCode) [handler.functionName] := by
  intro handler member
  obtain ⟨_, input, _, step, inInputs, run, rfl⟩ := compiles.exists_step member
  exact declares_of_compileHandler run (keys input inInputs) (named _ member)

end Compiles

/-- The functions of a module have the names that its ids give them. -/
theorem functionNames_of_compileModule {compiled : CompiledModule}
    (accepted : (compiler.compileModule inputs).result = .ok compiled) :
    compiled.handlers.map (·.functionName) =
      (compiler.ids inputs.length).map Names.functionName := by
  have count := (compiles_of_compileModule accepted).length_eq
  have issued := ((Call.module inputs).step compiler).2
  rw [← handlers_of_compileModule accepted, count] at issued
  rw [← issued, List.map_map]
  rfl

end Compiler

namespace CompiledModule

variable {compiled : CompiledModule}

/-- What is bound is a function of the module. -/
theorem exists_functionName {binding : Binding} (bound : binding ∈ compiled.bindings) :
    ∃ handler ∈ compiled.handlers, binding.handler = handler.functionName := by
  obtain ⟨handler, member, same⟩ := List.mem_filterMap.mp bound
  obtain ⟨selector, -, rfl⟩ := Option.map_eq_some_iff.mp same
  exact ⟨handler, member, rfl⟩

/-- The initialization of a module, where the names of its functions are identifiers. -/
theorem closes_initialization (named : ∀ binding ∈ compiled.bindings, binding.IsNamed) :
    ∀ code ∈ compiled.initialization?,
      Closes code (tokens code) ∧ .word "function" ∉ tokens code ∧
        handlersIn (tokens code) = compiled.bindings.map (·.handler) := by
  intro code written
  rw [compiled.eq_initialization written]
  refine Binding.closes_initialization named fun binding bound => ?_
  obtain ⟨handler, -, same⟩ := compiled.exists_functionName bound
  exact Binding.mentions_statement (named binding bound) same

/-- A module declares what its handlers declare. -/
theorem declaredIn_javascript (named : ∀ binding ∈ compiled.bindings, binding.IsNamed)
    (each : ∀ handler ∈ compiled.handlers,
      Closes handler.generated.handlerCode (tokens handler.generated.handlerCode) ∧
        Declares (tokens handler.generated.handlerCode) [handler.functionName]) :
    declaredIn (tokens compiled.javascript) = compiled.handlers.map (·.functionName) := by
  have initialized := compiled.closes_initialization named
  have between : Closes "\n\n" [] := ⟨rfl, rfl, rfl⟩
  have lineFeed : Closes "\n" [] := ⟨rfl, rfl, rfl⟩
  have parts : List.Forall₂ Closes
      (compiled.handlers.map (·.generated.handlerCode) ++ compiled.initialization?.toList)
      ((compiled.handlers.map fun handler => tokens handler.generated.handlerCode) ++
        compiled.initialization?.toList.map tokens) := by
    refine List.rel_append ?_ ?_
    · rw [List.forall₂_map_left_iff, List.forall₂_map_right_iff, List.forall₂_same]
      exact fun handler member => (each handler member).1
    · rw [List.forall₂_map_right_iff, List.forall₂_same]
      exact fun code member => (initialized code (Option.mem_toList.mp member)).1
  have whole := (join_of_append ⟨rfl, rfl, rfl⟩ between Closes.append parts).append lineFeed
  have functions := Declares.flatMap fun handler member => (each handler member).2
  have block : Declares (compiled.initialization?.toList.map tokens).flatten [] := by
    refine .of_not_mem fun held => ?_
    rw [← List.flatMap_def] at held
    obtain ⟨code, member, inside⟩ := List.mem_flatMap.mp held
    exact (initialized code (Option.mem_toList.mp member)).2.1 inside
  have declares := functions.append block
  rw [List.append_nil] at declares
  rw [javascript, whole.read, List.append_nil, List.flatten_append, ← List.flatMap_def]
  exact declares.declaredIn_eq

end CompiledModule

namespace Compiler

open Caching

/-- A handler is compiled exactly if its node is an event node; then one id is taken, and event
and modifiers are those of the node, since no optimizer replaces the root. Otherwise the compiler
and the context are as they were. A module fails exactly if one of its nodes is no event node; it
names the first such node, and has taken an id for each handler in front of it. After any calls
the ids of all handlers compiled so far are the numbers from the first one on, so that no two are
equal. The code of a module has one section for each handler, in their order, which opens with
the head of its function, and the initialization binds functions of the module only. Where the
names of these functions are identifiers, the initialization names those that it binds; and where
the keys that the inputs carry are identifiers too, a reader of the code finds the declarations of
these functions, in this order, and no other. -/
theorem compiled_exactly :
    (∀ (compiler : Compiler) (input : HandlerInput) (context : Context),
      compiler.attempt input context =
        .ofOutcome compiler context (compiler.compileHandler input context) ∧
      ((∃ handler, (compiler.attempt input context).result = .ok handler) ↔
        input.node.kind = .event) ∧
      (∀ error, (compiler.attempt input context).result = .error error →
        error = .notEvent input.node.kind ∧
        (compiler.attempt input context).compiler = compiler ∧
        (compiler.attempt input context).context = context) ∧
      ∀ handler, (compiler.attempt input context).result = .ok handler →
        ∃ source, input.node.handler? = some source ∧
          (compiler.attempt input context).Compiled compiler source handler) ∧
    (∀ (optimizer : Optimizer) (facts : Facts) (effort : Effort) (script : Node) (source : Handler),
      script.handler? = some source →
      ∃ body, (optimizer.optimize facts effort script).value.script.handler? =
        some { source with body }) ∧
    (∀ (compiler : Compiler) (inputs : ModuleInput),
      ((∃ compiled, (compiler.compileModule inputs).result = .ok compiled) ↔
        ∀ input ∈ inputs, input.node.kind = .event) ∧
      (compiler.compileModule inputs).compiler = compiler.after (acceptable inputs) ∧
      ∀ error, (compiler.compileModule inputs).result = .error error →
        ∃ input, inputs[acceptable inputs]? = some input ∧ input.node.kind ≠ .event ∧
          error = .inHandler (acceptable inputs) (.notEvent input.node.kind)) ∧
    (∀ (compiler : Compiler) (calls : List Call),
      ((compiler.session calls).2.map (·.handlerId)).Nodup ∧
      (compiler.session calls).2.map (·.handlerId) =
        compiler.ids (compiler.session calls).2.length ∧
      (compiler.session calls).1 = compiler.after (compiler.session calls).2.length) ∧
    ∀ (compiler : Compiler) (inputs : ModuleInput) (compiled : CompiledModule),
      (compiler.compileModule inputs).result = .ok compiled →
      compiled.handlers = (Call.module inputs).handlers compiler ∧
      (compiled.handlers.map (·.functionName)).Nodup ∧
      compiled.handlers.map (·.functionName) =
        (compiler.ids inputs.length).map Names.functionName ∧
      compiled.javascript = Text.join "\n\n" (compiled.handlers.map (·.generated.handlerCode) ++
        compiled.initialization?.toList) ++ "\n" ∧
      (∀ handler ∈ compiled.handlers, ∃ rest, handler.generated.handlerCode =
        GeneratedHandler.heading handler.functionName handler.generated.isAsync ++ rest) ∧
      (∀ code ∈ compiled.initialization?, code = Binding.initialization compiled.bindings) ∧
      (∀ binding ∈ compiled.bindings, ∃ handler ∈ compiled.handlers,
        binding.handler = handler.functionName) ∧
      ((∀ handler ∈ compiled.handlers, isIdentifier handler.functionName = true) →
        (∀ code ∈ compiled.initialization?,
          handlersIn (tokens code) = compiled.bindings.map (·.handler)) ∧
        ((∀ input ∈ inputs, Program.Expr.NamesKeys input.node) →
          declaredIn (tokens compiled.javascript) = compiled.handlers.map (·.functionName))) := by
  refine ⟨?_, ?_, ?_, ?_, ?_⟩
  · intro compiler input context
    refine ⟨compiler.attempt_eq input context, exists_attempt_iff, ?_, ?_⟩
    · intro error failed
      have other : input.node.kind ≠ .event := by
        intro isEvent
        obtain ⟨handler, compiled⟩ := exists_attempt_iff.mpr isEvent
        cases compiled.symm.trans failed
      rw [attempt_of_not_event other] at failed ⊢
      exact ⟨(Except.error.inj failed).symm, rfl, rfl⟩
    · intro handler compiled
      obtain ⟨source, event⟩ := Node.exists_handler?_iff.mpr
        (exists_attempt_iff.mp ⟨handler, compiled⟩)
      obtain ⟨other, outcome⟩ := @attempt_of_event compiler _ _ event context
      cases Except.ok.inj (outcome.result.symm.trans compiled)
      exact ⟨source, event, outcome⟩
  · intro optimizer facts effort script source event
    exact optimizer.handler?_optimize facts effort event
  · intro compiler inputs
    exact ⟨exists_compileModule_iff, (compiler.compileModule_eq inputs).1,
      fun error failed => eq_of_compileModule_eq_error failed⟩
  · intro compiler calls
    obtain ⟨final, issued⟩ := compiler.session_eq calls
    refine ⟨?_, issued, final⟩
    rw [issued]
    exact compiler.nodup_ids _
  · intro compiler inputs compiled accepted
    have compiles := compiles_of_compileModule accepted
    have names := functionNames_of_compileModule accepted
    refine ⟨handlers_of_compileModule accepted, ?_, names, rfl, compiles.heading,
      fun code => compiled.eq_initialization, fun binding => compiled.exists_functionName, ?_⟩
    · rw [names]
      exact (compiler.nodup_ids _).map Names.functionName_injective
    · intro identifiers
      have named := CompiledModule.isNamed_bindings identifiers
      constructor
      · intro code written
        exact (compiled.closes_initialization named code written).2.2
      · intro keys
        exact compiled.declaredIn_javascript named (compiles.declares keys identifiers)

/-- A literal between two handlers. -/
def strayLiteral : ModuleInput :=
  [{ node := .event "click" {} [] }, { node := .literal .null }, { node := .event "blur" {} [] }]

/-- Two handlers, the first with a selector that has its variable from elsewhere. -/
def keyedHandlers : ModuleInput :=
  [{ node := .event "click" {} [.command "log" [.selector ".a" (some "_sel__a")] none]
     selector := some "ul" },
    { node := .event "scroll" { throttle := some 50 } [.command "halt" [] none] }]

theorem namesKeys_keyedHandlers :
    ∀ input ∈ keyedHandlers, Program.Expr.NamesKeys input.node := by
  intro input member selector cacheKey inside key keyed
  simp only [keyedHandlers, List.mem_cons, List.not_mem_nil, or_false] at member
  obtain rfl | rfl := member
  · simp [Node.subtree, Node.subtrees, Node.subtree?] at inside
    obtain ⟨-, rfl⟩ := inside
    cases keyed
    decide
  · simp [Node.subtree, Node.subtrees, Node.subtree?] at inside

theorem compiled_exactly_strayLiteral :
    (({} : Compiler).compileModule strayLiteral).compiler.issued = 1 ∧
    (({} : Compiler).compileModule strayLiteral).result =
      .error (.inHandler 1 (.notEvent .literal)) ∧
    (({} : Compiler).session [.module strayLiteral, .handler { node := .unknown } { handlerId := "" },
      .module keyedHandlers, .handler { node := .event "load" {} [] } { handlerId := "" }]).2.map
        (·.handlerId) = ["h1", "h2", "h3", "h4"] ∧
    ∃ compiled, (({} : Compiler).compileModule keyedHandlers).result = .ok compiled ∧
      declaredIn (tokens compiled.javascript) = ["_handler_h1", "_handler_h2"] ∧
      ∃ code ∈ compiled.initialization?, handlersIn (tokens code) = ["_handler_h1"] := by
  obtain ⟨-, -, modules, sessions, declared⟩ := compiled_exactly
  obtain ⟨accepts, advanced, refused⟩ := modules {} strayLiteral
  refine ⟨?_, ?_, ?_, ?_⟩
  · rw [advanced]
    decide
  · cases outcome : (({} : Compiler).compileModule strayLiteral).result with
    | ok compiled => exact absurd (accepts.mp ⟨compiled, outcome⟩) (by decide)
    | error error =>
      obtain ⟨input, found, -, rfl⟩ := refused error outcome
      cases found
      rfl
  · rw [(sessions {} _).2.1]
    decide +kernel
  · obtain ⟨compiled, accepted, seen⟩ : ∃ compiled,
        (({} : Compiler).compileModule keyedHandlers).result = .ok compiled ∧
          (compiled.bindings.map (·.handler), compiled.initialization?.isSome) =
            (["_handler_h1"], true) :=
      exists_ok (by decide +kernel)
    simp only [Prod.mk.injEq] at seen
    obtain ⟨bound, initialized⟩ := seen
    obtain ⟨-, -, names, -, -, -, -, read⟩ := declared {} keyedHandlers compiled accepted
    have identifiers : ∀ name ∈ compiled.handlers.map (·.functionName),
        isIdentifier name = true := by
      rw [names]
      decide
    obtain ⟨inBlock, functions⟩ := read (List.forall_mem_map.mp identifiers)
    obtain ⟨code, written⟩ := Option.isSome_iff_exists.mp initialized
    refine ⟨compiled, accepted, ?_, code, written, ?_⟩
    · rw [functions namesKeys_keyedHandlers, names]
      decide
    · rw [inBlock code written, bound]

/-- A key that ends the function it is declared in and opens another one of that name. It is not
read, since the command comes to nothing. -/
def straddlingKey : HandlerInput where
  node := .event "click" {}
    [.command "log"
      [.selector ".a" (some "a = 1; \x7d function _handler_h1(_event) \x7b const b"), .unknown]
      none]

/-- Ids that end the head of a function and open another one. -/
def straddlingStem : Compiler where
  options := { idStem := "a() \x7b\x7d function b" }

/-- Keys and ids are written as they are. So a key can declare the function of a handler again, and
a prefix of ids can declare other functions in its place. -/
theorem declares_straddled :
    (∃ compiled, (({} : Compiler).compileModule [straddlingKey]).result = .ok compiled ∧
      compiled.handlers.map (·.functionName) = ["_handler_h1"] ∧
      declaredIn (tokens compiled.javascript) = ["_handler_h1", "_handler_h1"]) ∧
    ∃ compiled, (straddlingStem.compileModule [{ node := .event "click" {} [] }]).result =
        .ok compiled ∧
      compiled.handlers.map (·.functionName) = ["_handler_a() \x7b\x7d function b1"] ∧
      declaredIn (tokens compiled.javascript) = ["_handler_a", "b1"] := by
  constructor
  · obtain ⟨compiled, accepted, seen⟩ : ∃ compiled,
        (({} : Compiler).compileModule [straddlingKey]).result = .ok compiled ∧
          (compiled.handlers.map (·.functionName), declaredIn (tokens compiled.javascript)) =
            (["_handler_h1"], ["_handler_h1", "_handler_h1"]) :=
      exists_ok (by decide +kernel)
    obtain ⟨names, declared⟩ := Prod.mk.inj seen
    exact ⟨compiled, accepted, names, declared⟩
  · obtain ⟨compiled, accepted, seen⟩ : ∃ compiled,
        (straddlingStem.compileModule [{ node := .event "click" {} [] }]).result = .ok compiled ∧
          (compiled.handlers.map (·.functionName), declaredIn (tokens compiled.javascript)) =
            (["_handler_a() \x7b\x7d function b1"], ["_handler_a", "b1"]) :=
      exists_ok (by decide +kernel)
    obtain ⟨names, declared⟩ := Prod.mk.inj seen
    exact ⟨compiled, accepted, names, declared⟩

end Compiler
end Hyperscript
