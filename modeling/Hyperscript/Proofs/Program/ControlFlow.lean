import Hyperscript.Proofs.Analysis.Survey
import Hyperscript.Proofs.Optimization.AssignedKeys
import Hyperscript.Proofs.Program.Brackets
import Hyperscript.Proofs.Program.Page

/-! Control flow of generated handlers. The facts of a script are derived before it is
optimized, and they still hold of the code that is emitted: code that awaits is that of an
async function, and a halting signal is thrown inside the `try` block whose `catch` clause
ends the handler at either signal. -/
namespace Hyperscript

open Text Program Meaning

/-- A piece of a list that fits neither in front of the middle part nor behind it. -/
theorem within_of_append_eq {α : Type} {first middle last before piece after : List α} {head : α}
    (start : piece.head? = some head) (outside : head ∉ first)
    (border : ∀ item ∈ last.head?, item ∉ piece) (absent : ¬ piece <:+: last)
    (same : first ++ (middle ++ last) = before ++ (piece ++ after)) :
    ∃ left right, before = first ++ left ∧ after = right ++ last ∧
      middle = left ++ piece ++ right := by
  -- The piece starts behind the first part, which does not hold its head.
  obtain ⟨left, rfl, rest⟩ : ∃ left, before = first ++ left ∧
      middle ++ last = left ++ (piece ++ after) := by
    obtain ⟨left, rfl, rest⟩ | ⟨extra, rfl, rest⟩ := List.append_eq_append_iff.mp same
    · exact ⟨left, rfl, rest⟩
    · cases extra with
      | nil => exact ⟨[], by simp, rest.symm⟩
      | cons item more =>
        obtain ⟨tail, rfl⟩ := List.head?_eq_some_iff.mp start
        cases (List.cons.inj rest).1
        exact absurd (by simp) outside
  -- It starts in the middle, as it is not in the last part, and ends before the border.
  obtain ⟨extra, rfl, behind⟩ | ⟨inner, rfl, behind⟩ := List.append_eq_append_iff.mp rest
  · exact absurd ⟨extra, after, by simp [behind]⟩ absent
  · obtain ⟨right, rfl, rfl⟩ | ⟨extra, rfl, rfl⟩ := List.append_eq_append_iff.mp behind
    · exact ⟨left, right, rfl, rfl, by simp⟩
    · cases extra with
      | nil => exact ⟨left, [], rfl, rfl, by simp⟩
      | cons item more => exact absurd (by simp) (border item rfl)

namespace Program

namespace Engine

variable {engine : Engine}

/-- One of the two halting signals. -/
def IsSignal (value : engine.Value) : Prop :=
  ∃ signal ∈ ["HALT", "EXIT"], engine.isSame value (engine.runtime signal) = true

/-- What a handler runs outside of `try` raises no halting signal of its own. -/
structure KeepsSignals (engine : Engine) : Prop where
  selectorError (selector : String) : ¬ IsSignal (engine.selectorError selector)
  createContext {event document world error world'} :
    engine.createContext event document world (.abrupt error) world' → ¬ IsSignal error
  preventDefault {event document world error world'} :
    engine.call event "preventDefault" document world (.abrupt error) world' → ¬ IsSignal error

theorem not_isSignal_of_request {α : Type}
    {ask : Document engine.Element → Action engine.World engine.Value α}
    (keeps : ∀ {document world error world'}, ask document world (.abrupt error) world' →
      ¬ IsSignal error)
    {start final : engine.State} {error : engine.Value}
    (ran : request ask start (.abrupt (.thrown error)) final) : ¬ IsSignal error := by
  obtain ⟨world, rfl, ⟨_, same, _⟩ | ⟨_, same, raised⟩⟩ := ran
  · cases same
  · cases same
    exact keeps raised

namespace KeepsSignals

theorem declare (keeps : engine.KeepsSignals) {env : Env engine.Value}
    {declarations : List (String × String)} {start final : engine.State} {error : engine.Value}
    (ran : Engine.declare env declarations start (.abrupt (.thrown error)) final) :
    ¬ IsSignal error := by
  induction declarations generalizing env start with
  | nil => cases ran.1
  | cons declaration rest ih =>
    obtain ⟨key, selector⟩ := declaration
    obtain ⟨value, middle, found, later⟩ | ⟨_, same, found⟩ := ran
    · exact ih later
    · cases same
      unfold find at found
      split at found
      · cases found.1
      · cases found.1
        exact keeps.selectorError selector

theorem handle (keeps : engine.KeepsSignals) {event caught error : engine.Value}
    {start final : engine.State}
    (ran : Engine.handle event caught start (.abrupt (.thrown error)) final) :
    ¬ IsSignal error := by
  unfold Engine.handle at ran
  split_ifs at ran with isHalt isExit
  · obtain ⟨_, _, _, same, _⟩ | ⟨_, same, called⟩ := ran
    · cases same
    · cases same
      exact not_isSignal_of_request keeps.preventDefault called
  · cases ran.1
  · cases ran.1
    rintro ⟨signal, known, same⟩
    simp only [List.mem_cons, List.not_mem_nil, or_false] at known
    obtain rfl | rfl := known
    · exact isHalt same
    · exact isExit same

/-- No halting signal leaves a guarded function. -/
theorem run (keeps : engine.KeepsSignals) {function : Function}
    (guards : function.facts.canThrow = true) {event error : engine.Value}
    {start final : engine.State}
    (ran : Engine.run function event start (.abrupt (.thrown error)) final) : ¬ IsSignal error := by
  obtain ⟨context, middle, _, ran⟩ | ⟨_, same, raised⟩ := ran
  · obtain ⟨env, inside, _, ran⟩ | ⟨_, same, raised⟩ := ran
    · rw [guarded, if_pos guards] at ran
      obtain ⟨_, uncaught⟩ | ⟨caught, last, _, handled⟩ := ran
      · exact absurd rfl (uncaught error)
      · exact keeps.handle handled
    · cases same
      exact keeps.declare raised
  · cases same
    exact not_isSignal_of_request keeps.createContext raised

end KeepsSignals
end Engine

namespace Function

variable {function : Function}

theorem tokens_render (spelled : function.IsSpelled) :
    Text.tokens function.render = function.rows.flatMap Row.tokens := by
  rw [render_eq_rows spelled, (Row.linesSpell (isSpelled_rows spelled)).tokens_joinLines,
    List.flatMap_def]

/-- The rows in front of the body. -/
def entryRows (function : Function) : List Row :=
  function.openingRow :: setupRow :: function.declarations.map declarationRow

/-- How a guarded function ends. -/
def catchClause : List Token :=
  [.mark '\x7d', .word "catch", .mark '(', .word "_err", .mark ')', .mark '\x7b',
    .word "if", .mark '(', .word "_err", .mark '=', .mark '=', .mark '=',
    .word "_rt", .mark '.', .word "HALT", .mark ')', .mark '\x7b',
    .word "_event", .mark '.', .word "preventDefault", .mark '(', .mark ')', .mark ';',
    .word "return", .mark ';', .mark '\x7d',
    .word "if", .mark '(', .word "_err", .mark '=', .mark '=', .mark '=',
    .word "_rt", .mark '.', .word "EXIT", .mark ')', .mark '\x7b',
    .word "return", .mark ';', .mark '\x7d',
    .word "throw", .word "_err", .mark ';', .mark '\x7d']

theorem tokens_catchRows : catchRows.flatMap Row.tokens = catchClause := by decide +kernel

theorem tokens_rows (function : Function) :
    function.rows.flatMap Row.tokens =
      function.entryRows.flatMap Row.tokens ++
        (function.guardedRows.flatMap Row.tokens ++ [.mark '\x7d']) := by
  have finish : Row.closing.tokens = [.mark '\x7d'] := by decide
  simp only [rows, Row.block, entryRows, List.flatMap_append, Row.flatMap_tokens_deeper,
    List.flatMap_cons, List.flatMap_nil, finish, List.append_assoc, List.nil_append,
    List.cons_append, List.append_nil]

theorem tokens_guardedRows (guards : function.facts.canThrow = true) :
    function.guardedRows.flatMap Row.tokens =
      [.word "try", .mark '\x7b'] ++
        (function.bodyRows.flatMap Row.tokens ++ catchClause) := by
  have start : tryRow.tokens = [.word "try", .mark '\x7b'] := by decide
  rw [guardedRows, if_pos guards, ← tokens_catchRows, List.cons_append, List.flatMap_cons,
    List.flatMap_append, Row.flatMap_tokens_deeper, start]

/-- The tokens of a guarded function. -/
theorem tokens_guarded (spelled : function.IsSpelled) (guards : function.facts.canThrow = true) :
    Text.tokens function.render =
      (function.entryRows.flatMap Row.tokens ++ [.word "try", .mark '\x7b']) ++
        (function.bodyRows.flatMap Row.tokens ++ (catchClause ++ [.mark '\x7d'])) := by
  rw [tokens_render spelled, tokens_rows, tokens_guardedRows guards]
  simp only [List.append_assoc]

/-- The keywords of control flow. -/
def flowWords : List String := ["await", "throw"]

theorem isKeyword_flowWords : ∀ word ∈ flowWords, Token.isKeyword (.word word) = true := by decide

/-- A row whose fixed texts have none of these keywords. -/
theorem not_mem_of_texts {row : Row} (spelled : row.IsSpelled) (texts : List String)
    (same : row.fixedTexts = texts)
    (absent : ∀ word ∈ flowWords, .word word ∉ texts.flatMap Text.tokens) :
    ∀ word ∈ flowWords, .word word ∉ row.tokens := by
  intro word flow member
  have fixed := spelled.mem_fixedTokens member (isKeyword_flowWords word flow)
  rw [row.fixedTokens_eq, same] at fixed
  exact absent word flow fixed

/-- The fixed texts of the head of a function. -/
def openingTexts (isAsync : Bool) : List String :=
  (if isAsync then ["async "] else []) ++ ["function ", "(", Names.eventParam, ") \x7b"]

theorem fixedTexts_openingRow (function : Function) :
    function.openingRow.fixedTexts = openingTexts function.facts.hasAsync := by
  cases async : function.facts.hasAsync <;>
    simp [openingRow, openingTexts, async, Row.fixedTexts]

theorem not_mem_entryRows (spelled : function.IsSpelled) :
    ∀ row ∈ function.entryRows, ∀ word ∈ flowWords, .word word ∉ row.tokens := by
  have setup : ∀ word ∈ flowWords, .word word ∉ setupRow.tokens := by decide +kernel
  have opening : ∀ isAsync, ∀ word ∈ flowWords,
      .word word ∉ (openingTexts isAsync).flatMap Text.tokens := by decide +kernel
  have declarations := isSpelled_declarationRows spelled
  refine List.forall_mem_cons.mpr ⟨?_, List.forall_mem_cons.mpr ⟨setup, ?_⟩⟩
  · exact not_mem_of_texts (isSpelled_openingRow spelled) _ function.fixedTexts_openingRow
      (opening _)
  intro row member
  refine not_mem_of_texts (declarations row member) ["const ", " = ", ";"] ?_ (by decide +kernel)
  obtain ⟨declaration, _, rfl⟩ := List.mem_map.mp member
  rfl

/-- The calls that modifiers ask for have no keyword. -/
theorem mem_rowsAll_of_mem_bodyRows {row : Row} (member : row ∈ function.bodyRows) {word : String}
    (flow : word ∈ flowWords) (held : .word word ∈ row.tokens) :
    row ∈ Stmt.rowsAll function.body := by
  have calls : ∀ row ∈ callRows function.modifiers, ∀ word ∈ flowWords, .word word ∉ row.tokens :=
    forall_mem_callRows (by decide +kernel) (by decide +kernel) _
  refine (List.mem_append.mp member).resolve_left fun called => ?_
  exact calls row called word flow held

/-- Where a keyword of control flow in the code of a function comes from. -/
theorem mem_rowsAll_of_keyword (spelled : function.IsSpelled) {word : String}
    (flow : word ∈ flowWords) (held : .word word ∈ Text.tokens function.render) :
    (∃ row ∈ Stmt.rowsAll function.body, .word word ∈ row.fixedTokens) ∨
      function.facts.canThrow = true ∧ word = "throw" := by
  have fromBody {row : Row} (member : row ∈ function.bodyRows) (held : .word word ∈ row.tokens) :
      ∃ row ∈ Stmt.rowsAll function.body, .word word ∈ row.fixedTokens :=
    ⟨row, mem_rowsAll_of_mem_bodyRows member flow held,
      (isSpelled_bodyRows spelled row member).mem_fixedTokens held (isKeyword_flowWords word flow)⟩
  rw [tokens_render spelled, tokens_rows, List.mem_append, List.mem_append,
    List.mem_singleton] at held
  obtain inEntry | inside | ⟨⟨⟩⟩ := held
  · obtain ⟨row, member, held⟩ := List.mem_flatMap.mp inEntry
    exact absurd held (not_mem_entryRows spelled row member word flow)
  · cases guards : function.facts.canThrow with
    | false =>
      rw [guardedRows, guards] at inside
      obtain ⟨row, member, held⟩ := List.mem_flatMap.mp inside
      exact .inl (fromBody member held)
    | true =>
      rw [tokens_guardedRows guards, List.mem_append, List.mem_append] at inside
      obtain inTry | inBody | inCatch := inside
      · have outside : ∀ word ∈ flowWords, .word word ∉ [Token.word "try", .mark '\x7b'] := by
          decide
        exact absurd inTry (outside word flow)
      · obtain ⟨row, member, held⟩ := List.mem_flatMap.mp inBody
        exact .inl (fromBody member held)
      · have inClause : ∀ word ∈ flowWords, .word word ∈ catchClause → word = "throw" := by
          decide +kernel
        exact .inr ⟨rfl, inClause word flow inCatch⟩

theorem balanced_bodyRows (spelled : function.IsSpelled) :
    Balanced (function.bodyRows.flatMap Row.tokens) := by
  have calls : ∀ row ∈ callRows function.modifiers, row.tokens.foldlM openAfter [] = some [] :=
    forall_mem_callRows (by decide +kernel) (by decide +kernel) _
  rw [bodyRows, List.flatMap_append]
  refine Balanced.append (Row.balanced_flatMap fun row member => ?_)
    (Stmt.balanced_rowsAll spelled.body)
  exact leaves_of_foldlM (calls row member)

/-- In front of its body, a function has opened its own brace and nothing else. -/
theorem leaves_entryRows (spelled : function.IsSpelled) :
    Leaves (function.entryRows.flatMap Row.tokens) ['\x7b'] := by
  have opening : Leaves function.openingRow.tokens ['\x7b'] := by
    have alone : ∀ isAsync,
        ((openingTexts isAsync).flatMap Text.tokens).foldlM openAfter [] = some ['\x7b'] := by
      decide +kernel
    have row := List.forall_mem_singleton.mpr (isSpelled_openingRow spelled)
    rw [← List.flatMap_singleton Row.tokens function.openingRow]
    refine Row.leaves_tokens _ row ?_ (alone function.facts.hasAsync)
    rw [List.flatMap_singleton, fixedTexts_openingRow]
  have setup : Balanced setupRow.tokens := by
    have alone : setupRow.tokens.foldlM openAfter [] = some [] := by decide +kernel
    exact leaves_of_foldlM alone
  have declarations : Balanced ((function.declarations.map declarationRow).flatMap Row.tokens) := by
    refine Row.balanced_flatMap fun row member => ?_
    have single := List.forall_mem_singleton.mpr (isSpelled_declarationRows spelled row member)
    have here := Row.leaves_tokens ["const ", " = ", ";"] single ?_
      (by decide +kernel : _ = some [])
    · rwa [List.flatMap_singleton] at here
    · obtain ⟨declaration, _, rfl⟩ := List.mem_map.mp member
      rfl
  have whole := (opening.append setup).append declarations
  rwa [List.append_assoc] at whole

/-- A halting signal in the code of a guarded function is thrown between the braces of its
`try` block. -/
theorem throw_within_try (spelled : function.IsSpelled) (guards : function.facts.canThrow = true)
    {statement : String} (known : statement ∈ ["throw _rt.HALT;", "throw _rt.EXIT;"])
    {before after : List Token}
    (found : Text.tokens function.render = before ++ Text.tokens statement ++ after) :
    ∃ outer left right,
      before = outer ++ [.word "try", .mark '\x7b'] ++ left ∧
      after = right ++ catchClause ++ [.mark '\x7d'] ∧
      Leaves outer ['\x7b'] ∧ Balanced (left ++ Text.tokens statement ++ right) := by
  have starts : ∀ statement ∈ ["throw _rt.HALT;", "throw _rt.EXIT;"],
      (Text.tokens statement).head? = some (.word "throw") := by decide +kernel
  have border : ∀ statement ∈ ["throw _rt.HALT;", "throw _rt.EXIT;"],
      ∀ item ∈ (catchClause ++ [Token.mark '\x7d']).head?, item ∉ Text.tokens statement := by
    decide +kernel
  have absent : ∀ statement ∈ ["throw _rt.HALT;", "throw _rt.EXIT;"],
      ¬ Text.tokens statement <:+: catchClause ++ [.mark '\x7d'] := by
    decide +kernel
  have outside : .word "throw" ∉
      function.entryRows.flatMap Row.tokens ++ [.word "try", .mark '\x7b'] := by
    rw [List.mem_append]
    rintro (inEntry | inTry)
    · obtain ⟨row, member, held⟩ := List.mem_flatMap.mp inEntry
      exact not_mem_entryRows spelled row member "throw" (by decide) held
    · exact absurd inTry (by decide)
  rw [tokens_guarded spelled guards, List.append_assoc before] at found
  obtain ⟨left, right, rfl, rfl, body⟩ := within_of_append_eq (starts statement known) outside
    (border statement known) (absent statement known) found
  refine ⟨function.entryRows.flatMap Row.tokens, left, right, rfl, ?_, leaves_entryRows spelled, ?_⟩
  · rw [List.append_assoc]
  rw [← body]
  exact balanced_bodyRows spelled

/-- The code of an async function starts with the words that say so. -/
theorem render_async (spelled : function.IsSpelled) (async : function.facts.hasAsync = true) :
    ∃ rest, function.render = "async function" ++ rest := by
  have words : "async " ++ "function " = "async function" ++ " " := by decide
  have lines : function.rows.map Row.text = function.openingRow.text ::
      ((setupRow :: function.declarations.map declarationRow ++ function.guardedRows).map
        (Row.deeper 1) ++ [Row.closing]).map Row.text := rfl
  rw [render_eq_rows spelled, lines, joinLines_cons _ (by simp), text_openingRow, if_pos async,
    words]
  simp only [String.append_assoc]
  exact ⟨_, rfl⟩

end Function

end Program

/-- The passes add no command, so what no command of a script does none of the optimized
script does. -/
theorem stable_commandName (facts : Facts) (flagged : String → Bool) :
    Stable facts fun node => node.commandName?.any flagged = false where
  ofRoot := by
    intro node node' same none
    simpa only [same.commandName?] using none
  literal _ := rfl
  sequence _ _ := rfl
  selector _ _ _ := rfl

theorem Optimizer.everywhere_body {optimizer : Optimizer} {facts : Facts} {effort : Effort}
    {script : Node} {handler : Handler}
    (found : (optimizer.optimize facts effort script).value.script.handler? = some handler)
    {flagged : String → Bool} (none : script.anyInSubtree (·.commandName?.any flagged) = false) :
    ∀ node ∈ handler.body, node.Everywhere (·.commandName?.any flagged = false) := by
  intro node member
  have all := optimizer.everywhere_optimize (stable_commandName facts flagged) effort
    (Node.anyInSubtree_eq_false_iff.mp none)
  exact all.child (Node.mem_children_of_handler? found member)

namespace Compiler

theorem isAsync_of_compiled {compiler : Compiler} {input : HandlerInput} {context : Context}
    {step : Step} (compiled : compiler.compileHandler input context = .ok step) :
    step.handler.generated.isAsync = (input.facts.getD (Facts.ofScript input.node)).hasAsync := by
  unfold compileHandler at compiled
  split at compiled
  · cases compiled
  · dsimp only at compiled
    split at compiled
    · cases compiled
    · cases compiled
      rfl

/-- What the derived facts say of control flow holds of the code that is emitted. Where the
code awaits, it starts as an async function and the handler is marked so. Where it throws a
halting signal, it does so inside the `try` block of the function, whose `catch` clause ends
the handler at either signal; so none leaves the handler. -/
theorem derived_facts_sound (compiler : Compiler) (input : HandlerInput) (context : Context)
    {source : Handler} (event : input.node.handler? = some source)
    (keyless : Caching.IsKeyless input.node) (derived : input.facts = none)
    (stem : ∀ c ∈ compiler.options.idStem.toList, isIdentifierRest c = true) :
    ∃ step function, compiler.compileHandler input context = .ok step ∧
      compiler.function? input context = some function ∧
      step.handler.generated.handlerCode = function.render ∧
      (.word "await" ∈ Text.tokens step.handler.generated.handlerCode →
        (∃ rest, step.handler.generated.handlerCode = "async function" ++ rest) ∧
          step.handler.generated.isAsync = true) ∧
      ∀ statement ∈ ["throw _rt.HALT;", "throw _rt.EXIT;"], ∀ before after,
        Text.tokens step.handler.generated.handlerCode =
          before ++ Text.tokens statement ++ after →
        (∃ outer left right,
          before = outer ++ [.word "try", .mark '\x7b'] ++ left ∧
          after = right ++ Function.catchClause ++ [.mark '\x7d'] ∧
          Leaves outer ['\x7b'] ∧ Balanced (left ++ Text.tokens statement ++ right)) ∧
        ∀ engine : Engine, engine.KeepsSignals → ∀ (occurrence error : engine.Value) start final,
          Engine.run function occurrence start (.abrupt (.thrown error)) final →
          ¬ Engine.IsSignal error := by
  obtain ⟨handler, found, spelled⟩ := compiler.exists_spelled input context event
    keyless.namesKeys (compiler.isIdentifier_functionName stem)
  have writes := compiler.writes_of_handler? context event found
  obtain ⟨step, compiled, code⟩ := writes.code
  have isAsync := isAsync_of_compiled compiled
  have facts : input.facts.getD (Facts.ofScript input.node) = Facts.ofScript input.node := by
    rw [derived, Option.getD_none]
  rw [facts] at found spelled writes code isAsync
  set function := Function.ofHandler handler (Facts.ofScript input.node)
    (context.setHandler compiler.nextId)
  -- The facts speak of the script as it came, the code is that of the optimized one.
  have awaits : .word "await" ∈ Text.tokens function.render → function.facts.hasAsync = true := by
    intro held
    by_contra still
    obtain ⟨row, member, inRow⟩ | ⟨_, other⟩ :=
      Function.mem_rowsAll_of_keyword spelled (by decide) held
    · have none := Optimizer.everywhere_body found
        ((Facts.hasAsync_ofScript input.node).symm.trans (Bool.eq_false_iff.mpr still))
      exact Stmt.await_not_mem_rows none row member inRow
    · exact absurd other (by decide)
  have throws : .word "throw" ∈ Text.tokens function.render → function.facts.canThrow = true := by
    intro held
    by_contra safe
    obtain ⟨row, member, inRow⟩ | ⟨guards, _⟩ :=
      Function.mem_rowsAll_of_keyword spelled (by decide) held
    · have none := Optimizer.everywhere_body found
        ((Facts.canThrow_ofScript input.node).symm.trans (Bool.eq_false_iff.mpr safe))
      exact Stmt.throw_not_mem_rows none row member inRow
    · exact safe guards
  refine ⟨step, function, compiled, writes.tree, code, ?_, ?_⟩
  · intro held
    rw [code] at held ⊢
    exact ⟨Function.render_async spelled (awaits held), isAsync.trans (awaits held)⟩
  · intro statement known before after occurs
    rw [code] at occurs
    have first : ∀ statement ∈ ["throw _rt.HALT;", "throw _rt.EXIT;"],
        .word "throw" ∈ Text.tokens statement := by decide +kernel
    have guards := throws (occurs ▸ by simp [first statement known])
    refine ⟨Function.throw_within_try spelled guards known occurs, ?_⟩
    intro engine keeps occurrence error start final ran
    exact keeps.run guards ran

/-- A handler that waits, and halts if a condition holds then. -/
def waitThenHalt : HandlerInput where
  node := .event "click" {}
    [.command "wait" [.literal (.number 1)] none,
      .ifElse (.identifier "done") [.command "halt" [] none] none]

theorem keepsSignals_page : page.KeepsSignals where
  selectorError _ := by simp [Engine.IsSignal, page]
  createContext raised := by cases raised.1
  preventDefault raised := by cases raised.1

theorem derived_facts_waitThenHalt :
    ∃ step, ∃ function : Function,
      ({} : Compiler).compileHandler waitThenHalt { handlerId := "h" } = .ok step ∧
      step.handler.generated.handlerCode = function.render ∧
      (∃ rest, step.handler.generated.handlerCode = "async function" ++ rest) ∧
      step.handler.generated.isAsync = true ∧
      ∃ outer left right,
        Text.tokens step.handler.generated.handlerCode =
          outer ++ [.word "try", .mark '\x7b'] ++ left ++ Text.tokens "throw _rt.HALT;" ++
            (right ++ Function.catchClause ++ [.mark '\x7d']) ∧
        Leaves outer ['\x7b'] ∧ Balanced (left ++ Text.tokens "throw _rt.HALT;" ++ right) ∧
        ∀ occurrence error start final,
          Engine.run function occurrence start (.abrupt (.thrown error)) final →
          ¬ @Engine.IsSignal page error := by
  have keyless : Caching.IsKeyless waitThenHalt.node := by
    intro value cacheKey member
    simp [waitThenHalt, Node.subtree, Node.subtrees, Node.subtree?] at member
  have stem : ∀ c ∈ ({} : Compiler).options.idStem.toList, isIdentifierRest c = true :=
    List.all_eq_true.mp (by decide)
  obtain ⟨step, function, compiled, tree, code, awaits, throws⟩ :=
    derived_facts_sound {} waitThenHalt { handlerId := "h" } rfl keyless rfl stem
  have spelled := isSpelled_of_function? tree keyless.namesKeys
    (isIdentifier_functionName {} stem)
  have computed : (({} : Compiler).function? waitThenHalt { handlerId := "h" }).any (fun function =>
      function.facts.canThrow && decide (.word "await" ∈ function.bodyRows.flatMap Row.tokens ∧
        Text.tokens "throw _rt.HALT;" <:+: function.bodyRows.flatMap Row.tokens)) = true := by
    decide +kernel
  rw [tree, Option.any_some, Bool.and_eq_true, decide_eq_true_eq] at computed
  obtain ⟨guards, await, halt⟩ := computed
  have inside : function.bodyRows.flatMap Row.tokens <:+:
      Text.tokens step.handler.generated.handlerCode := by
    rw [code, Function.tokens_guarded spelled guards, ← List.append_assoc]
    exact List.infix_append _ _ _
  obtain ⟨before, after, halt⟩ := halt.trans inside
  obtain ⟨starts, isAsync⟩ := awaits (inside.subset await)
  obtain ⟨⟨outer, left, right, rfl, rfl, opened, balanced⟩, kept⟩ :=
    throws "throw _rt.HALT;" (by decide) before after halt.symm
  exact ⟨step, function, compiled, code, starts, isAsync, outer, left, right, halt.symm, opened,
    balanced, kept page keepsSignals_page⟩

end Compiler
end Hyperscript
