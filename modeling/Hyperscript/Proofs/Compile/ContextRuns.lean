import Hyperscript.Ordered
import Hyperscript.Proofs.Compile.Modules
import Hyperscript.Proofs.Program.FunctionLines
import Hyperscript.Proofs.Program.Declarations

/-! Runs of operations on one context, in any order. The helpers are those requested so far, each
where it was first requested. The cached selectors are those registered since the context last
gave them up, each under the variable that first took it; a handler declares them all. -/
namespace Hyperscript

open Text Program

namespace Context

/-- Variables are cached in the order in which they are first read. -/
theorem keys_cacheAll (context : Context) (reads : List (String × String)) :
    (context.cacheAll reads).cached.map Prod.fst =
      Ordered.insertAll (context.cached.map Prod.fst) (reads.map Prod.fst) := by
  induction reads generalizing context with
  | nil => rfl
  | cons read rest ih =>
    have step : (context.cacheSelector read.1 read.2).cached.map Prod.fst =
        Ordered.insert (context.cached.map Prod.fst) read.1 := by
      have known : (context.cached.lookup read.1).isSome =
          (context.cached.map Prod.fst).contains read.1 := by
        rw [Bool.eq_iff_iff, List.contains_iff_mem, List.lookup_isSome_iff, List.mem_map]
        exact exists_congr fun entry =>
          and_congr_right fun _ => beq_iff_eq.trans eq_comm
      unfold cacheSelector Ordered.insert
      rw [known]
      split <;> simp
    refine (ih (context.cacheSelector read.1 read.2)).trans ?_
    rw [step]
    rfl

/-- Of registered selectors, these are cached: for each variable the first one, in the order in
which the variables came. -/
structure Caches (registered cached : List (String × String)) : Prop where
  keys : cached.map Prod.fst = (registered.map Prod.fst).eraseDups
  lookup : ∀ key, cached.lookup key = registered.lookup key

theorem caches_nil : Caches [] [] := ⟨rfl, fun _ => rfl⟩

theorem Caches.nodup {registered cached : List (String × String)}
    (caches : Caches registered cached) : (cached.map Prod.fst).Nodup :=
  caches.keys ▸ Ordered.nodup_eraseDups _

theorem Caches.cacheAll {registered : List (String × String)} {context : Context}
    (caches : Caches registered context.cached) (reads : List (String × String)) :
    Caches (registered ++ reads) (context.cacheAll reads).cached where
  keys := by rw [keys_cacheAll, caches.keys, Ordered.insertAll_eraseDups, List.map_append]
  lookup key := by rw [Caching.lookup_cacheAll, caches.lookup, List.lookup_append]

/-- An operation on a context, with its arguments. -/
inductive Operation where
  | require (helper : String)
  | setHandler (handlerId : String)
  | cacheSelector (key selector : String)
  | takeCached
  | command (name : String) (args : List Node) (target : Option Node)
  | body (nodes : List Node)
  | generate (handler : Handler) (facts : Facts)
  | bind (event : String) (modifiers : Modifiers)

namespace Operation

/-- What the operation makes of a context. -/
def apply (context : Context) : Operation → Context
  | .require helper => context.require helper
  | .setHandler handlerId => context.setHandler handlerId
  | .cacheSelector key selector => context.cacheSelector key selector
  | .takeCached => context.clearCached
  | .command name args target => (Generation.command name args target { context }).2.context
  | .body nodes => (Generation.body nodes { context }).2.context
  | .generate handler facts => (GeneratedHandler.generate handler facts context).2.1
  | .bind event modifiers => (GeneratedHandler.bind context event modifiers).2

/-- The helpers that the operation requests. -/
def helpers : Operation → List String
  | .require helper => [helper]
  | .generate handler _ => handler.modifiers.helpers
  | .bind _ modifiers => modifiers.helpers
  | .setHandler _ | .cacheSelector .. | .takeCached | .command .. | .body _ => []

/-- The selectors that the operation registers, each under its variable. -/
def reads : Operation → List (String × String)
  | .cacheSelector key selector => [(key, selector)]
  | .command name args target => (Statement.command name args target).reads
  | .body nodes => (Statement.body nodes).reads
  | .generate handler _ => (Statement.body handler.body).reads
  | .require _ | .setHandler _ | .takeCached | .bind .. => []

/-- The handler that the operation goes on to, if any. -/
def switchesTo? : Operation → Option String
  | .setHandler handlerId => some handlerId
  | _ => none

/-- Whether the context gives up what is cached. -/
def drains : Operation → Bool
  | .setHandler _ | .takeCached | .generate .. => true
  | .require _ | .cacheSelector .. | .command .. | .body _ | .bind .. => false

/-- All that one operation does. -/
theorem apply_eq (operation : Operation) (context : Context) :
    operation.apply context =
      { handlerId := operation.switchesTo?.getD context.handlerId
        helpers := Ordered.insertAll context.helpers operation.helpers
        cached := if operation.drains then [] else (context.cacheAll operation.reads).cached } := by
  cases operation with
  | require helper => rfl
  | setHandler handlerId => rfl
  | cacheSelector key selector => exact context.cacheAll_eq [(key, selector)]
  | takeCached => rfl
  | command name args target =>
    rw [apply, Generation.performs_command]
    exact context.cacheAll_eq _
  | body nodes =>
    rw [apply, Generation.performs_body]
    exact context.cacheAll_eq _
  | generate handler facts =>
    rw [apply, GeneratedHandler.context_generate]
    rfl
  | bind event modifiers => exact context.requireAll_eq modifiers.helpers

/-- One operation after the other. -/
def run (operations : List Operation) (context : Context) : Context :=
  operations.foldl (fun context operation => operation.apply context) context

/-- What is registered by operations since one of them last drained it, after what was before. -/
def registered (before : List (String × String)) (operations : List Operation) :
    List (String × String) :=
  operations.foldl (fun before operation =>
    if operation.drains then [] else before ++ operation.reads) before

theorem registered_of_undrained {operations : List Operation}
    (undrained : ∀ operation ∈ operations, operation.drains = false)
    (before : List (String × String)) :
    registered before operations = before ++ operations.flatMap reads := by
  induction operations generalizing before with
  | nil => exact (List.append_nil before).symm
  | cons operation rest ih =>
    obtain ⟨first, others⟩ := List.forall_mem_cons.mp undrained
    have step : registered before (operation :: rest) =
        registered (before ++ operation.reads) rest := by
      simp [registered, first]
    rw [step, ih others, List.flatMap_cons, List.append_assoc]

theorem helpers_run (operations : List Operation) (context : Context) :
    (run operations context).helpers =
      Ordered.insertAll context.helpers (operations.flatMap helpers) := by
  induction operations generalizing context with
  | nil => rfl
  | cons operation rest ih =>
    refine (ih (operation.apply context)).trans ?_
    rw [apply_eq, List.flatMap_cons, Ordered.insertAll_append]

/-- What is cached after a run is what was registered since it was last given up. -/
theorem caches_run {context : Context} {before : List (String × String)}
    (caches : Caches before context.cached) (operations : List Operation) :
    Caches (registered before operations) (run operations context).cached := by
  induction operations generalizing context before with
  | nil => exact caches
  | cons operation rest ih =>
    have step : Caches (if operation.drains then [] else before ++ operation.reads)
        (operation.apply context).cached := by
      rw [apply_eq]
      split
      · exact caches_nil
      · exact caches.cacheAll operation.reads
    exact ih step

end Operation
end Context

namespace Program.Function

/-- The variable that a line declares for the elements of a selector, if it does. -/
def declaredKey? (line : String) : Option String :=
  match Text.tokens line with
  | .word "const" :: .word key :: .mark '=' :: .word "document" :: _ => some key
  | _ => none

variable {function : Function}

theorem declaredKey?_eq_none {line : String}
    (other : (Text.tokens line).head? ≠ some (.word "const")) : declaredKey? line = none := by
  unfold declaredKey?
  split
  next same => exact absurd (congrArg List.head? same) other
  next => rfl

/-- Read line by line, a function declares the variables of its selectors and no others. -/
theorem filterMap_declaredKey? (spelled : function.IsSpelled)
    (body : ∀ row ∈ Stmt.rowsAll function.body, row.fixedTokens.head? ≠ some (.word "const")) :
    (function.rows.map Row.text).filterMap declaredKey? = function.declarations.map Prod.fst := by
  have each : ∀ declaration ∈ function.declarations,
      declaredKey? ("  " ++ GeneratedHandler.declaration declaration) = some declaration.1 := by
    intro declaration member
    have row := isSpelled_declarationRows spelled _ (List.mem_map_of_mem member)
    have line := (row.deeper 1).spells_text.read
    rw [Row.text_deeper, text_declarationRow] at line
    have start : Text.tokens ("  " ++ GeneratedHandler.declaration declaration) =
        [.word "const", .word declaration.1, .mark '=', .word "document", .mark '.',
          .word "querySelectorAll", .mark '(', .literal, .mark ')', .mark ';'] := line
    rw [declaredKey?, start]
    rfl
  rw [filterMap_rows spelled body (fun _ => declaredKey?_eq_none) (by decide +kernel),
    declarationLines, List.filterMap_map, ← List.filterMap_eq_map]
  exact List.filterMap_congr each

/-- So does the code of a handler whose names are identifiers. -/
theorem filterMap_lines_handlerCode {handler : Handler} {context : Context} (facts : Facts)
    (name : isIdentifier (Names.functionName context.handlerId) = true)
    (cached : ∀ entry ∈ context.cached, isIdentifier entry.1 = true)
    (named : ∀ node ∈ handler.body, Expr.NamesKeys node) :
    (lines (GeneratedHandler.generate handler facts context).1.handlerCode).filterMap declaredKey? =
      ((Statement.body handler.body).run context).cached.map Prod.fst := by
  have read := (Caching.reads_body named).reads
  have spelled : (ofHandler handler facts context).IsSpelled := by
    refine ⟨name, fun entry member => ?_, Stmt.areSpelled_ofNodes fun node member _ code =>
      Stmt.isSpelled_ofNode? node (named node member) code⟩
    obtain before | during := Caching.mem_cacheAll member
    · exact cached entry before
    · exact read entry during entry.1 rfl
  rw [render_ofHandler, render_eq_rows spelled,
    lines_joinLines (Row.linesSpell (isSpelled_rows spelled)).isLine,
    filterMap_declaredKey? spelled (Stmt.head?_rows_ne_const handler.body)]
  rfl

end Program.Function

namespace Context.Operation

/-- A run of operations on a fresh context, with any arguments and in any order. No helper is
listed twice, and the helpers at one time start those at any later time. No variable is cached
twice, and its selector stays until the context gives up what is cached. Commands and statement
lists leave the helpers and the handler as they are. A handler leaves nothing cached; its code
declares, line by line below its head, the variables registered since the last drain and while its
body was generated, each with its first selector, in the order in which they came; its other lines
do not depend on them. Where these are identifiers, as the name of the function is, no other line
declares a variable for a selector. -/
theorem run_keeps (handlerId : String) (earlier later : List Operation) :
    let before := run earlier { handlerId }
    let after := run later before
    before.helpers.Nodup ∧ before.helpers <+: after.helpers ∧
    (before.cached.map Prod.fst).Nodup ∧
    ((∀ operation ∈ later, operation.drains = false) → ∀ key selector,
      before.cached.lookup key = some selector → after.cached.lookup key = some selector) ∧
    (∀ name args target,
      ((command name args target).apply before).helpers = before.helpers ∧
        ((command name args target).apply before).handlerId = before.handlerId) ∧
    (∀ nodes, ((body nodes).apply before).helpers = before.helpers ∧
      ((body nodes).apply before).handlerId = before.handlerId) ∧
    ∀ handler facts,
      let code := (GeneratedHandler.generate handler facts before).1.handlerCode
      let statements := Statement.body handler.body
      let declared := (statements.run before).cached
      (GeneratedHandler.generate handler facts before).2.1.cached = [] ∧
      Caches (registered [] earlier ++ statements.reads) declared ∧
      code = joinLines (GeneratedHandler.headLines before.handlerId facts ++
        declared.map (fun entry =>
          "  const " ++ entry.1 ++ " = document.querySelectorAll(" ++ quoted entry.2 ++ ");") ++
        (GeneratedHandler.entryLines handler.modifiers facts ++
          shifted (GeneratedHandler.bodyDepth facts) (lines statements.value) ++
          GeneratedHandler.exitLines facts)) ∧
      (isIdentifier (Names.functionName before.handlerId) = true →
        (∀ entry ∈ before.cached, isIdentifier entry.1 = true) →
        (∀ node ∈ handler.body, Expr.NamesKeys node) →
        (lines code).filterMap Function.declaredKey? = declared.map Prod.fst) := by
  intro before after
  have caches : Caches (registered [] earlier) before.cached :=
    caches_run caches_nil earlier
  have unhelped (operation : Operation) (none : operation.helpers = []) :
      (operation.apply before).helpers = before.helpers := by
    rw [apply_eq, none]
    rfl
  refine ⟨?_, ?_, caches.nodup, ?_, ?_, ?_, ?_⟩
  · have requested : before.helpers = Ordered.insertAll [] (earlier.flatMap helpers) :=
      helpers_run earlier _
    rw [requested]
    exact Ordered.nodup_insertAll List.nodup_nil _
  · have requested : after.helpers = Ordered.insertAll before.helpers (later.flatMap helpers) :=
      helpers_run later before
    rw [requested]
    exact Ordered.prefix_insertAll _ _
  · intro undrained key selector found
    have held := (caches_run caches later).lookup key
    rw [registered_of_undrained undrained, List.lookup_append, ← caches.lookup, found] at held
    exact held
  · intro name args target
    refine ⟨unhelped _ rfl, ?_⟩
    rw [apply_eq]
    rfl
  · intro nodes
    refine ⟨unhelped _ rfl, ?_⟩
    rw [apply_eq]
    rfl
  · intro handler facts code statements declared
    have inner : Caches (registered [] earlier ++ statements.reads) declared :=
      caches.cacheAll statements.reads
    refine ⟨?_, inner, ?_, ?_⟩
    · change ((generate handler facts).apply before).cached = []
      rw [apply_eq]
      rfl
    · have lines : GeneratedHandler.declarationLines declared = declared.map fun entry =>
          "  const " ++ entry.1 ++ " = document.querySelectorAll(" ++ quoted entry.2 ++ ");" :=
        List.map_congr_left fun entry _ => Function.line_declaration entry.1 entry.2
      rw [← lines]
      simp only [code, GeneratedHandler.handlerCode_eq, GeneratedHandler.functionCode_eq_joinLines,
        List.append_assoc]
      rfl
    · exact Function.filterMap_lines_handlerCode facts

/-- One helper twice, two selectors under one variable, and a command without code that reads
another one. -/
def crowdedRun : List Operation :=
  [.cacheSelector "stale" ".gone", .setHandler "h1", .require "debounce",
    .bind "click" { source := some ".row" }, .require "debounce",
    .command "log" [.selector ".b" (some "second"), .unknown] none, .cacheSelector "first" ".a"]

/-- A handler that reads a selector through a variable known by then, and one more. -/
def crowdedHandler : Handler where
  event := "click"
  modifiers := {}
  body := [.command "log" [.selector ".other" (some "first"), .selector ".c" (some "third")] none]

theorem run_keeps_crowdedRun :
    let before := run crowdedRun { handlerId := "h0" }
    before.helpers = ["debounce", "delegate"] ∧
      (run [.cacheSelector "first" ".other"] before).cached.lookup "first" = some ".a" ∧
      (lines (GeneratedHandler.generate crowdedHandler {} before).1.handlerCode).filterMap
        Function.declaredKey? = ["second", "first", "third"] := by
  obtain ⟨-, -, -, stays, -, -, declares⟩ :=
    run_keeps "h0" crowdedRun [.cacheSelector "first" ".other"]
  refine ⟨by decide +kernel, stays (by decide) "first" ".a" (by decide +kernel), ?_⟩
  obtain ⟨-, -, -, read⟩ := declares crowdedHandler {}
  refine (read (by decide) (by decide +kernel) ?_).trans (by decide +kernel)
  intro node member value cacheKey inside name key
  simp [crowdedHandler] at member
  subst member
  simp [Node.subtree, Node.subtrees, Node.subtree?] at inside
  rcases inside with ⟨-, rfl⟩ | ⟨-, rfl⟩ <;> cases key <;> decide

end Context.Operation
end Hyperscript
