import Hyperscript.Proofs.Optimization.AssignedKeys
import Hyperscript.Proofs.Program.Keywords

/-! The declarations of cached selectors. A function declares each of its variables on one
line in front of its body, and asks there for the selector that the body reads through the
variable. -/
namespace Hyperscript

open Text Program

/-- The line declares the constant. -/
def Text.declares (name : String) (line : String) : Bool :=
  (tokens line).take 3 == [.word "const", .word name, .mark '=']

theorem Text.declares_eq_false {line : String}
    (other : (tokens line).head? ≠ some (.word "const")) (name : String) :
    declares name line = false := by
  rw [declares, beq_eq_false_iff_ne]
  intro same
  have kept : ((tokens line).take 3).head? = (tokens line).head? := by simp [List.head?_take]
  rw [same] at kept
  exact other kept.symm

namespace Context

/-- A variable is declared once. -/
theorem nodup_cacheAll {context : Context} (nodup : (context.cached.map Prod.fst).Nodup)
    (reads : List (String × String)) :
    ((context.cacheAll reads).cached.map Prod.fst).Nodup := by
  induction reads generalizing context with
  | nil => exact nodup
  | cons read rest ih =>
    refine @ih (context.cacheSelector read.1 read.2) ?_
    unfold cacheSelector
    split
    next => exact nodup
    next fresh =>
      have absent : read.1 ∉ context.cached.map Prod.fst := by
        intro member
        obtain ⟨entry, inCached, same⟩ := List.mem_map.mp member
        exact fresh (List.lookup_isSome_iff.mpr ⟨entry, inCached, by simp [same]⟩)
      rw [List.map_append, List.map_singleton]
      refine List.nodup_append.mpr ⟨nodup, by simp, ?_⟩
      intro name member added inAdded same
      rw [same, List.mem_singleton.mp inAdded] at member
      exact absent member

/-- The one entry of a variable that has only one. -/
theorem filter_of_lookup {entries : List (String × String)}
    (nodup : (entries.map Prod.fst).Nodup) {key selector : String}
    (found : entries.lookup key = some selector) :
    entries.filter (·.1 == key) = [(key, selector)] := by
  induction entries with
  | nil => cases found
  | cons entry rest ih =>
    obtain ⟨name, query⟩ := entry
    obtain ⟨fresh, unique⟩ := List.nodup_cons.mp nodup
    rw [List.lookup_cons] at found
    by_cases same : key = name
    · subst same
      rw [beq_self_eq_true] at found
      cases found
      have others : rest.filter (·.1 == key) = [] := by
        refine List.filter_eq_nil_iff.mpr fun entry member isKey => fresh ?_
        exact List.mem_map.mpr ⟨entry, member, eq_of_beq isKey⟩
      simp [others]
    · rw [beq_eq_false_iff_ne.mpr same] at found
      rw [List.filter_cons_of_neg (by simpa using Ne.symm same)]
      exact ih unique found

end Context

namespace Program

namespace Row.IsSpelled

variable {row : Row}

theorem declares_text (spelled : row.IsSpelled) (name : String) :
    declares name row.text =
      (row.tokens.take 3 == [.word "const", .word name, .mark '=']) := by
  rw [declares, Text.tokens, spelled.spells_text.read]

/-- A line starts with the keyword only where its row does. -/
theorem head?_tokens_text (spelled : row.IsSpelled)
    (first : row.fixedTokens.head? ≠ some (.word "const")) :
    (Text.tokens row.text).head? ≠ some (.word "const") := by
  rw [Text.tokens, spelled.spells_text.read]
  exact fun same => first (spelled.head?_fixedTokens same (by decide))

end Row.IsSpelled

namespace Function

variable {function : Function}

/-- The lines of the declarations. -/
def declarationLines (function : Function) : List String :=
  function.declarations.map ("  " ++ GeneratedHandler.declaration ·)

/-- The lines of a function, around those that declare its selectors. -/
theorem text_rows_around (function : Function) :
    function.rows.map Row.text =
      [function.openingRow.text, "  const _ctx = _rt.createContext(_event, this);"] ++
        function.declarationLines ++ (function.guardedRows.map (.deeper 1)).map Row.text ++
        ["\x7d"] := by
  have setup : "  " ++ GeneratedHandler.setupLine =
      "  const _ctx = _rt.createContext(_event, this);" := by decide
  rw [text_rows, GeneratedHandler.headLines, GeneratedHandler.heading, ← text_openingRow, setup,
    Row.map_text_deeper, List.append_assoc _ _ ["\x7d"]]
  rfl

theorem line_declaration (key selector : String) :
    "  " ++ GeneratedHandler.declaration (key, selector) =
      "  const " ++ key ++ " = document.querySelectorAll(" ++ quoted selector ++ ");" := by
  have keyword : "  const " = "  " ++ "const " := rfl
  have query : " = document.querySelectorAll(" = " = " ++ "document.querySelectorAll(" := rfl
  have finish : ");" = ")" ++ ";" := rfl
  change "  " ++ ("const " ++ key ++ " = " ++
    ("document.querySelectorAll(" ++ quoted selector ++ ")") ++ ";") = _
  simp only [keyword, query, finish, String.append_assoc]

/-- Among the declarations of a function, one line declares a variable. -/
theorem filter_declarationLines (spelled : function.IsSpelled)
    (nodup : (function.declarations.map Prod.fst).Nodup) {key selector : String}
    (declared : function.declarations.lookup key = some selector) :
    function.declarationLines.filter (declares key) =
      ["  " ++ GeneratedHandler.declaration (key, selector)] := by
  have declares_iff : ∀ declaration ∈ function.declarations,
      (declares key ∘ ("  " ++ GeneratedHandler.declaration ·)) declaration =
        (declaration.1 == key) := by
    intro declaration member
    have row := isSpelled_declarationRows spelled _ (List.mem_map_of_mem member)
    have line := (row.deeper 1).declares_text key
    rw [Row.text_deeper, text_declarationRow] at line
    refine line.trans ?_
    change ([Token.word "const", .word declaration.1, .mark '='] ==
      [.word "const", .word key, .mark '=']) = _
    simp [Bool.beq_eq_decide_eq]
  rw [declarationLines, List.filter_map, List.filter_congr declares_iff,
    Context.filter_of_lookup nodup declared]
  rfl

/-- No other line of a function declares a variable of its body. -/
theorem guardedRows_head?
    (body : ∀ row ∈ Stmt.rowsAll function.body, row.fixedTokens.head? ≠ some (.word "const")) :
    ∀ row ∈ function.guardedRows, row.fixedTokens.head? ≠ some (.word "const") := by
  have inBody : ∀ row ∈ function.bodyRows, row.fixedTokens.head? ≠ some (.word "const") :=
    List.forall_mem_append.mpr ⟨forall_mem_callRows (by decide +kernel) (by decide +kernel) _, body⟩
  unfold guardedRows
  split
  · refine List.forall_mem_append.mpr ⟨List.forall_mem_cons.mpr ⟨by decide, ?_⟩, by decide +kernel⟩
    exact List.forall_mem_map.mpr inBody
  · exact inBody

/-- What can be read off declarations only is read off those of selectors. -/
theorem filterMap_rows {β : Type} {read : String → Option β} (spelled : function.IsSpelled)
    (body : ∀ row ∈ Stmt.rowsAll function.body, row.fixedTokens.head? ≠ some (.word "const"))
    (silent : ∀ line, (Text.tokens line).head? ≠ some (.word "const") → read line = none)
    (setup : read "  const _ctx = _rt.createContext(_event, this);" = none) :
    (function.rows.map Row.text).filterMap read = function.declarationLines.filterMap read := by
  have opening : read function.openingRow.text = none := by
    refine silent _ ((isSpelled_openingRow spelled).head?_tokens_text ?_)
    have words : ∀ word ∈ ["async", "function"], some (Token.word word) ≠ some (.word "const") := by
      decide
    unfold openingRow
    split
    · exact words "async" (by decide)
    · exact words "function" (by decide)
  have guarded : ((function.guardedRows.map (.deeper 1)).map Row.text).filterMap read = [] := by
    rw [List.filterMap_eq_nil_iff, List.map_map, List.forall_mem_map]
    intro row member
    have line := (isSpelled_guardedRows spelled row member).deeper 1
    exact silent _ (line.head?_tokens_text (guardedRows_head? body row member))
  have closing : read "\x7d" = none := silent _ (by decide)
  simp only [text_rows_around, List.filterMap_append, List.filterMap_cons, List.filterMap_nil,
    opening, setup, guarded, closing, List.nil_append, List.append_nil]

/-- The lines of a function that declare a variable of its body: one of its declarations. -/
theorem filter_rows (spelled : function.IsSpelled)
    (body : ∀ row ∈ Stmt.rowsAll function.body, row.fixedTokens.head? ≠ some (.word "const"))
    (nodup : (function.declarations.map Prod.fst).Nodup) {key selector : String}
    (declared : function.declarations.lookup key = some selector)
    (other : key ≠ Names.contextVar) :
    (function.rows.map Row.text).filter (declares key) =
      ["  " ++ GeneratedHandler.declaration (key, selector)] := by
  have silent (line : String) (first : (Text.tokens line).head? ≠ some (.word "const")) :
      Option.guard (declares key) line = none :=
    if_neg (by simp [declares_eq_false first])
  have setup : Option.guard (declares key) "  const _ctx = _rt.createContext(_event, this);" =
      none := by
    have start : (Text.tokens "  const _ctx = _rt.createContext(_event, this);").take 3 =
        [.word "const", .word Names.contextVar, .mark '='] := by decide +kernel
    exact if_neg (by simp [declares, start, Bool.beq_eq_decide_eq, other.symm])
  rw [← List.filterMap_eq_filter, filterMap_rows spelled body silent setup,
    List.filterMap_eq_filter, filter_declarationLines spelled nodup declared]

end Function
end Program

namespace Caching

/-- Every variable that the body of a function reads is declared with the selector that it
stands for, and with no other. -/
theorem lookup_declarations {facts : Facts} {handler : Handler} {context : Context}
    (assigned : ∀ node ∈ handler.body, IsAssigned facts node) (blank : context.cached = [])
    {selector key : String}
    (used : (selector, some key) ∈ Stmt.usesAll (Stmt.ofNodes handler.body)) :
    (Function.ofHandler handler facts context).declarations.lookup key = some selector ∧
      key = cacheKey selector := by
  have sound := isSound_keysFor facts
  have reads := reads_body assigned
  have held := reads.holds _ used key rfl
  have known : ((Statement.body handler.body).reads.lookup key).isSome :=
    List.lookup_isSome_iff.mpr ⟨_, reads.used _ used key rfl, by simp⟩
  obtain ⟨other, found⟩ := Option.isSome_iff_exists.mp known
  have inKeys := reads.reads _ (mem_of_lookup found) key rfl
  refine ⟨?_, sound.named _ (mem_of_lookup held)⟩
  simp only [Function.ofHandler, Emission.run, lookup_cacheAll, blank, List.lookup_nil,
    Option.none_or, found]
  exact congrArg some (sound.of_lookup inKeys held)

/-- In the code of a handler, each variable that the body reads in place of a selector is
declared by exactly one line. That line asks for the selector, and it stands in front of the
body and of the `try` around it. -/
theorem declared_once (compiler : Compiler) (input : HandlerInput) (context : Context)
    {source : Handler} (event : input.node.handler? = some source)
    (keyless : IsKeyless input.node)
    (stem : ∀ c ∈ compiler.options.idStem.toList, isIdentifierRest c = true) :
    ∃ step function, compiler.compileHandler input context = .ok step ∧
      compiler.function? input context = some function ∧
      step.handler.generated.handlerCode = function.render ∧
      Text.lines step.handler.generated.handlerCode =
        [function.openingRow.text, "  const _ctx = _rt.createContext(_event, this);"] ++
          function.declarationLines ++
          (function.guardedRows.map (.deeper 1)).map Row.text ++ ["\x7d"] ∧
      ∀ selector key, (selector, some key) ∈ Stmt.usesAll function.body →
        let line := "  const " ++ key ++ " = document.querySelectorAll(" ++ quoted selector ++ ");"
        line ∈ function.declarationLines ∧
          (Text.lines step.handler.generated.handlerCode).filter (declares key) = [line] := by
  obtain ⟨handler, found, spelled⟩ := compiler.exists_spelled input context event
    keyless.namesKeys (compiler.isIdentifier_functionName stem)
  have writes := compiler.writes_of_handler? context event found
  set function := Function.ofHandler handler (input.facts.getD (Facts.ofScript input.node))
    (context.setHandler compiler.nextId)
  obtain ⟨step, compiled, code⟩ := writes.code
  have lines : Text.lines step.handler.generated.handlerCode = function.rows.map Row.text := by
    rw [code, Function.render_eq_rows spelled,
      lines_joinLines (Row.linesSpell (Function.isSpelled_rows spelled)).isLine]
  have blank : (context.setHandler compiler.nextId).cached = [] := rfl
  have nodup : (function.declarations.map Prod.fst).Nodup :=
    Context.nodup_cacheAll (by simp [blank]) _
  refine ⟨step, function, compiled, writes.tree, code, ?_, fun selector key used => ?_⟩
  · rw [lines, Function.text_rows_around]
  · obtain ⟨declared, named⟩ := lookup_declarations (isAssigned_body keyless found) blank used
    have other : key ≠ Names.contextVar := named ▸ cacheKey_ne (by decide) selector
    have once := Function.filter_rows spelled (Stmt.head?_rows_ne_const handler.body) nodup declared
      other
    rw [Function.line_declaration] at once
    have inDeclarations := Function.filter_declarationLines spelled nodup declared
    rw [Function.line_declaration] at inDeclarations
    rw [lines]
    exact ⟨List.mem_of_mem_filter (inDeclarations ▸ List.mem_cons_self), once⟩

/-- Two selectors that make the same name, one of them listed twice. -/
def collidingQueries : HandlerInput where
  node := .event "click" {}
    [.command "add" [.selector ".x" none] (some (.selector ".b b" none)),
      .command "remove" [.selector ".x" none] (some (.selector ".b-b" none)),
      .command "halt" [] none]
  facts := some
    { canThrow := true
      selectors := [".b b", ".b-b", ".b b"].map fun selector =>
        { selector
          usages := [.selector selector none, .selector selector none]
          canCache := true } }

theorem declared_once_collidingQueries :
    ∃ step, ∃ function : Function,
      ({} : Compiler).compileHandler collidingQueries { handlerId := "h" } = .ok step ∧
      Stmt.usesAll function.body = [(".b b", some "_sel__b_b"), (".b-b", none)] ∧
      step.handler.generated.handlerCode = function.render ∧
      (Text.lines step.handler.generated.handlerCode).filter (declares "_sel__b_b") =
        ["  const _sel__b_b = document.querySelectorAll(\".b b\");"] := by
  have keyless : IsKeyless collidingQueries.node := by
    intro value cacheKey member
    simp [collidingQueries, Node.subtree, Node.subtrees, Node.subtree?] at member
    rcases member with ⟨_, unkeyed⟩ | ⟨_, unkeyed⟩ | ⟨_, unkeyed⟩ | ⟨_, unkeyed⟩ <;> exact unkeyed
  obtain ⟨step, function, compiled, tree, code, -, once⟩ :=
    declared_once {} collidingQueries { handlerId := "h" } rfl keyless
      (List.all_eq_true.mp (by decide))
  have uses : Stmt.usesAll function.body = [(".b b", some "_sel__b_b"), (".b-b", none)] := by
    have computed : (({} : Compiler).function? collidingQueries { handlerId := "h" }).map
        (fun function => Stmt.usesAll function.body) =
          some [(".b b", some "_sel__b_b"), (".b-b", none)] := rfl
    rw [tree] at computed
    exact Option.some.inj computed
  have line := (once ".b b" "_sel__b_b" (uses ▸ List.mem_cons_self)).2
  refine ⟨step, function, compiled, uses, code, line.trans ?_⟩
  decide +kernel

end Caching
end Hyperscript
