import Hyperscript.Code.Binding
import Hyperscript.Proofs.Text.Numerals
import Hyperscript.Proofs.Text.Layout

/-! The lines of the code that binds handlers: one for each binding, whatever the events, the
selectors and the modifiers are, since none of these can break a line. -/
namespace Hyperscript

namespace Text

theorem unfed_append {first second : String} (inFirst : '\n' ∉ first.toList)
    (inSecond : '\n' ∉ second.toList) : '\n' ∉ (first ++ second).toList := by
  rw [String.toList_append, List.mem_append]
  exact not_or.mpr ⟨inFirst, inSecond⟩

theorem unfed_join {parts : List String} (each : ∀ part ∈ parts, '\n' ∉ part.toList) :
    '\n' ∉ (join ", " parts).toList := by
  fun_induction join ", " parts with
  | case1 => decide
  | case2 part => exact each part List.mem_cons_self
  | case3 part next rest ih =>
    obtain ⟨first, others⟩ := List.forall_mem_cons.mp each
    exact unfed_append (unfed_append first (by decide)) (ih others)

theorem Spells.unfed {text : String} {tokens : List Token} (spells : Spells text tokens) :
    '\n' ∉ text.toList :=
  fun feed => (spells.unbroken _ feed).1 rfl

theorem unfed_quoted (text : String) : '\n' ∉ (quoted text).toList := (spells_quoted text).unfed

theorem unfed_number (x : Float) : '\n' ∉ (Number.text x).toList :=
  (Number.isPlain_text x).spells.unfed

end Text

open Text

namespace Listener

theorem unfed_limited {helper handler : String} (known : helper ∈ ["debounce", "throttle"])
    (unfed : '\n' ∉ handler.toList) (delay : Float) :
    '\n' ∉ (limited helper handler delay).toList := by
  have names : ∀ helper ∈ ["debounce", "throttle"], '\n' ∉ (Names.member helper ++ "(").toList := by
    decide +kernel
  have opened := unfed_append (names helper known) unfed
  have comma : '\n' ∉ ", ".toList := by decide
  have delayed := unfed_append (unfed_append opened comma) (unfed_number delay)
  exact unfed_append delayed (by decide)

theorem unfed_reference {handler : String} (unfed : '\n' ∉ handler.toList)
    (modifiers : Modifiers) : '\n' ∉ (reference handler modifiers).toList := by
  unfold reference
  cases modifiers.debounceDelay? with
  | none =>
    cases modifiers.throttleDelay? with
    | none => exact unfed
    | some delay => exact unfed_limited (by decide) unfed delay
  | some first =>
    have debounced : '\n' ∉ (limited "debounce" handler first).toList :=
      unfed_limited (by decide) unfed first
    cases modifiers.throttleDelay? with
    | none => exact debounced
    | some delay => exact unfed_limited (by decide) debounced delay

theorem unfed_options (modifiers : Modifiers) :
    ∀ option ∈ (options? modifiers).toList, '\n' ∉ option.toList := by
  have all : ∀ once passive capture, ∀ option ∈ (options? { once, passive, capture }).toList,
      '\n' ∉ option.toList := by
    decide +kernel
  exact all _ _ _

theorem unfed_call {target reference : String} (inTarget : '\n' ∉ target.toList)
    (inReference : '\n' ∉ reference.toList) (event : String) (modifiers : Modifiers) :
    '\n' ∉ (call target event reference modifiers).toList := by
  have inOptions := unfed_options modifiers
  unfold call
  dsimp only
  split
  next selector _ =>
    have args : ∀ part ∈ [target, Text.quoted event, Text.quoted selector, reference] ++
        (options? modifiers).toList, '\n' ∉ part.toList :=
      List.forall_mem_append.mpr ⟨by simp [inTarget, inReference, unfed_quoted], inOptions⟩
    exact unfed_append (unfed_append (by decide +kernel) (unfed_join args)) (by decide)
  next =>
    have args : ∀ part ∈ [Text.quoted event, reference] ++ (options? modifiers).toList,
        '\n' ∉ part.toList :=
      List.forall_mem_append.mpr ⟨by simp [inReference, unfed_quoted], inOptions⟩
    have method : '\n' ∉ ".addEventListener(".toList := by decide +kernel
    exact unfed_append (unfed_append (unfed_append inTarget method) (unfed_join args)) (by decide)

end Listener

namespace Binding

/-- The call that registers the handler on an element. -/
def registration (binding : Binding) (element : String) : String :=
  Listener.call element binding.event
    (Listener.reference binding.handler binding.modifiers) binding.modifiers

/-- What is not quoted breaks no line: the name of the handler, and the element if there is an
expression for it. -/
structure IsUnbroken (binding : Binding) : Prop where
  handler : '\n' ∉ binding.handler.toList
  element : ∀ expression, binding.target = .element expression → '\n' ∉ expression.toList

variable {binding : Binding} {bindings : List Binding}

theorem unfed_registration (unbroken : '\n' ∉ binding.handler.toList) {element : String}
    (unfed : '\n' ∉ element.toList) : '\n' ∉ (binding.registration element).toList :=
  Listener.unfed_call unfed (Listener.unfed_reference unbroken _) _ _

theorem statement_element {expression : String} (target : binding.target = .element expression) :
    binding.statement = binding.registration expression ++ ";" := by
  simp only [statement, target, registration]

theorem statement_selector {selector : String} (target : binding.target = .selector selector) :
    binding.statement = "document.querySelectorAll(" ++ quoted selector ++ ").forEach(el => " ++
      binding.registration "el" ++ ");" := by
  have query : Expression.query selector =
      "document.querySelectorAll(" ++ quoted selector ++ ")" := rfl
  have each : ").forEach(el => " = ")" ++ ".forEach(el => " := rfl
  simp only [statement, target, registration, query, each, String.append_assoc]

theorem unfed_statement (unbroken : binding.IsUnbroken) : '\n' ∉ binding.statement.toList := by
  cases target : binding.target with
  | element expression =>
    rw [statement_element target]
    exact unfed_append (unfed_registration unbroken.handler (unbroken.element _ target)) (by decide)
  | selector selector =>
    rw [statement_selector target]
    have query : '\n' ∉ "document.querySelectorAll(".toList := by decide +kernel
    have each : '\n' ∉ ").forEach(el => ".toList := by decide +kernel
    have opened := unfed_append (unfed_append query (unfed_quoted selector)) each
    exact unfed_append (unfed_append opened (unfed_registration unbroken.handler (by decide)))
      (by decide)

/-- A statement ends in a semicolon. -/
theorem isEnded_statement (binding : Binding) : IsEnded binding.statement := by
  have semicolon : IsEnded ";" := ⟨';', by decide, by decide⟩
  have closing : IsEnded ");" := ⟨';', by decide, by decide⟩
  cases target : binding.target with
  | element expression => exact statement_element target ▸ semicolon.after _
  | selector selector => exact statement_selector target ▸ closing.after _

theorem statement_nonempty (binding : Binding) : binding.statement ≠ "" := by
  obtain ⟨c, last, _⟩ := binding.isEnded_statement
  rintro empty
  rw [empty] at last
  cases last

theorem lines_statement (unbroken : binding.IsUnbroken) :
    lines binding.statement = [binding.statement] :=
  lines_of_unfed binding.statement_nonempty (unfed_statement unbroken)

/-- One line for each binding. -/
theorem lines_statements (unbroken : ∀ binding ∈ bindings, binding.IsUnbroken) :
    lines (statements bindings) = bindings.map statement := by
  rw [statements, lines_joinLines_of_ended
    (List.forall_mem_map.mpr fun binding _ => binding.isEnded_statement), List.flatMap_map,
    List.flatMap_congr fun binding member => lines_statement (unbroken binding member),
    ← List.map_eq_flatMap]

/-- The lines of the code that binds handlers. -/
def initializationLines (bindings : List Binding) : List String :=
  (Names.member "ready" ++ "(() => \x7b") :: indented 1 (bindings.map statement) ++ ["\x7d);"]

theorem initialization_of_unbroken (unbroken : ∀ binding ∈ bindings, binding.IsUnbroken) :
    initialization bindings = joinLines (initializationLines bindings) := by
  have opened : (Sheet.empty.line (Names.member "ready" ++ "(() => \x7b")).indent =
      { written := [Names.member "ready" ++ "(() => \x7b"], depth := 1 } := by
    simp [Sheet.empty, Sheet.line_outermost, Sheet.indent]
  have inside : (bindings.map statement).map (indentLine 1) =
      indented 1 (bindings.map statement) := by
    refine List.map_congr_left fun line member => if_neg ?_
    obtain ⟨binding, _, rfl⟩ := List.mem_map.mp member
    exact binding.statement_nonempty
  rw [initialization, opened, Sheet.fragment, lines_statements unbroken, Sheet.foldl_line, inside]
  rfl

/-- The lines of a batch that waits for the document. -/
theorem initializationLines_eq (bindings : List Binding) :
    initializationLines bindings =
      "_rt.ready(() => \x7b" :: bindings.map ("  " ++ ·.statement) ++ ["\x7d);"] := by
  have opening : Names.member "ready" ++ "(() => \x7b" = "_rt.ready(() => \x7b" := by decide
  have two : margin 1 = "  " := by decide
  simp only [initializationLines, opening, indented, two, List.map_map, Function.comp_def]

theorem lines_initialization_of_unbroken (unbroken : ∀ binding ∈ bindings, binding.IsUnbroken) :
    lines (initialization bindings) = initializationLines bindings := by
  have opening : lines "_rt.ready(() => \x7b" = ["_rt.ready(() => \x7b"] := by decide +kernel
  have closing : lines "\x7d);" = ["\x7d);"] := by decide +kernel
  have inside (binding : Binding) (member : binding ∈ bindings) :
      lines ("  " ++ binding.statement) = ["  " ++ binding.statement] :=
    lines_of_unfed (by simp) (unfed_append (by decide) (unfed_statement (unbroken binding member)))
  have ended : ∀ line ∈ initializationLines bindings, IsEnded line := by
    rw [initializationLines_eq, List.forall_mem_append, List.forall_mem_cons, List.forall_mem_map,
      List.forall_mem_singleton]
    exact ⟨⟨⟨'\x7b', by decide +kernel, by decide⟩,
      fun binding _ => binding.isEnded_statement.after "  "⟩, ⟨';', by decide, by decide⟩⟩
  rw [initialization_of_unbroken unbroken, lines_joinLines_of_ended ended, initializationLines_eq,
    List.flatMap_append, List.flatMap_cons, List.flatMap_map, List.flatMap_congr inside,
    ← List.map_eq_flatMap, List.flatMap_singleton, opening, closing]
  rfl

end Binding
end Hyperscript
