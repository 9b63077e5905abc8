import Hyperscript.Proofs.Compile.BindingLines
import Hyperscript.Proofs.Program.QuotedTexts
import Hyperscript.Proofs.Text.Nesting

/-! The code that binds handlers. A listener is registered and removed by one line, and a module
binds its handlers by a block of such lines. What a script has to say there, the event and the
selectors, is quoted; the rest is fixed, a number or the name of a function. -/
namespace Hyperscript

namespace Text

/-- A part of a line. Its literals are the texts, and behind the brackets `before`, innermost
first, it leaves `after` open. -/
structure Inline (code : String) (texts : List String) (before after : List Char) : Prop where
  unbroken : '\n' ∉ code.toList
  quotes : Quotes code texts
  turns : Turns code before after

/-- A part that the emitter writes itself. -/
theorem inline_fixed {code : String} {before after : List Char}
    (checked : '\n' ∉ code.toList ∧ isUnquoted code = true ∧
      code.toList.foldlM readBracket (.code, before) = some (.code, after)) :
    Inline code [] before after :=
  ⟨checked.1, quotes_fixed checked.2.1, turns_of_foldlM checked.2.2⟩

/-- A part that opens and closes no brackets. -/
theorem Spells.inline {code : String} {tokens : List Token} {texts : List String}
    (spells : Spells code tokens) (plain : ∀ token ∈ tokens, token.isBracket = false)
    (quotes : Quotes code texts) : Inline code texts [] [] where
  unbroken := spells.unfed
  quotes := quotes
  turns := spells.turns (.of_plain plain)

theorem inline_quoted (text : String) : Inline (quoted text) [text] [] [] :=
  (spells_quoted text).inline (by simp [Token.isBracket]) (quotes_quoted text)

theorem inline_identifier {name : String} (valid : isIdentifier name = true) :
    Inline name [] [] [] :=
  (spells_identifier valid).inline (by simp [Token.isBracket]) (quotes_identifier valid)

theorem inline_number (x : Float) : Inline (Number.text x) [] [] [] := by
  have plain := Number.isPlain_text x
  exact plain.spells.inline (fun token member => (plain.tokens token member).2)
    (Number.quotes_text x)

namespace Inline

variable {code : String} {texts : List String}

theorem append {next : String} {others : List String} {before between after : List Char}
    (start : Inline code texts before between) (finish : Inline next others between after) :
    Inline (code ++ next) (texts ++ others) before after where
  unbroken := unfed_append start.unbroken finish.unbroken
  quotes := start.quotes.append finish.quotes
  turns := start.turns.append finish.turns

/-- More brackets may be open around a part. -/
theorem within (inline : Inline code texts [] []) (around : List Char) :
    Inline code texts around around :=
  { inline with turns := inline.turns.within around }

theorem isLine {before after : List Char} (inline : Inline code texts before after)
    (nonempty : code ≠ "") : IsLine code where
  nonempty := nonempty
  unbroken := by
    intro c member
    refine ⟨fun feed => inline.unbroken (feed ▸ member), ?_⟩
    rintro rfl
    have either := inline.quotes.printable _ member
    exact absurd either (by decide)

/-- Arguments one after the other. -/
theorem join {parts : List String} {texts : List (List String)}
    (each : List.Forall₂ (fun part texts => Inline part texts [] []) parts texts) :
    Inline (Text.join ", " parts) texts.flatten [] [] :=
  join_of_append (inline_fixed (by decide)) (inline_fixed (by decide)) append each

end Inline
end Text

open Text

namespace Listener

/-- What is quoted where a listener is registered. -/
def texts (event : String) (modifiers : Modifiers) : List String :=
  event :: modifiers.delegate?.toList

theorem inline_limited {helper : String} (known : helper ∈ ["debounce", "throttle"])
    {handler : String} (inline : Inline handler [] [] []) (delay : Float) :
    Inline (limited helper handler delay) [] [] [] := by
  have helpers : ∀ helper ∈ ["debounce", "throttle"],
      '\n' ∉ (Names.member helper ++ "(").toList ∧ isUnquoted (Names.member helper ++ "(") = true ∧
        (Names.member helper ++ "(").toList.foldlM readBracket (.code, []) =
          some (.code, ['(']) := by
    decide +kernel
  have start := inline_fixed (helpers helper known)
  have comma : Inline ", " [] ['('] ['('] := inline_fixed (by decide)
  have finish : Inline ")" [] ['('] [] := inline_fixed (by decide)
  exact (((start.append (inline.within _)).append comma).append
    ((inline_number delay).within _)).append finish

/-- A handler keeps its form behind rate limits. -/
theorem inline_reference {handler : String} (inline : Inline handler [] [] [])
    (modifiers : Modifiers) : Inline (reference handler modifiers) [] [] [] := by
  unfold reference
  cases modifiers.debounceDelay? with
  | none =>
    cases modifiers.throttleDelay? with
    | none => exact inline
    | some delay => exact inline_limited (by decide) inline delay
  | some first =>
    have debounced : Inline (limited "debounce" handler first) [] [] [] :=
      inline_limited (by decide) inline first
    cases modifiers.throttleDelay? with
    | none => exact debounced
    | some delay => exact inline_limited (by decide) debounced delay

theorem inline_options (modifiers : Modifiers) :
    List.Forall₂ (fun part texts => Inline part texts [] []) (options? modifiers).toList
      ((options? modifiers).toList.map fun _ => []) := by
  -- The options depend on three of the modifiers, and none of them is a text.
  have all : ∀ once passive capture, ∀ text ∈ (options? { once, passive, capture }).toList,
      '\n' ∉ text.toList ∧ isUnquoted text = true ∧
        text.toList.foldlM readBracket (.code, []) = some (.code, []) := by
    decide +kernel
  rw [List.forall₂_map_right_iff, List.forall₂_same]
  exact fun text member => inline_fixed (all _ _ _ text member)

theorem inline_call {target reference : String} (inTarget : Inline target [] [] [])
    (inReference : Inline reference [] [] []) (event : String) (modifiers : Modifiers) :
    Inline (call target event reference modifiers) (texts event modifiers) [] [] := by
  have noTexts (options : List String) :
      (options.map fun _ => ([] : List String)).flatten = [] := by
    simp
  have options := inline_options modifiers
  unfold call texts
  cases modifiers.delegate? with
  | none =>
    have opening : Inline ".addEventListener(" [] [] ['('] := inline_fixed (by decide +kernel)
    have closing : Inline ")" [] ['('] [] := inline_fixed (by decide)
    have args := Inline.join (.cons (inline_quoted event) (.cons inReference options))
    have whole := ((inTarget.append opening).append (args.within _)).append closing
    simpa [noTexts] using whole
  | some selector =>
    have opening : Inline (Names.member "delegate" ++ "(") [] [] ['('] :=
      inline_fixed (by decide +kernel)
    have closing : Inline ")" [] ['('] [] := inline_fixed (by decide)
    have args := Inline.join (.cons inTarget (.cons (inline_quoted event)
      (.cons (inline_quoted selector) (.cons inReference options))))
    have whole := (opening.append (args.within _)).append closing
    simpa [noTexts] using whole

theorem inline_binding {handlerId : String}
    (valid : isIdentifier (Names.functionName handlerId) = true) (event : String)
    (modifiers : Modifiers) :
    Inline (binding handlerId event modifiers) (texts event modifiers) [] [] := by
  have element : Inline Names.element [] [] [] := inline_fixed (by decide)
  have semicolon : Inline ";" [] [] [] := inline_fixed (by decide)
  have called := inline_call element (inline_reference (inline_identifier valid) modifiers) event
    modifiers
  simpa [binding] using called.append semicolon

theorem inline_cleanup {handlerId : String}
    (valid : isIdentifier (Names.functionName handlerId) = true) (event : String)
    (modifiers : Modifiers) :
    ∀ code ∈ cleanup? handlerId event modifiers, Inline code [event] [] [] := by
  intro code written
  have opening : Inline (Names.element ++ ".removeEventListener(") [] [] ['('] :=
    inline_fixed (by decide +kernel)
  have comma : Inline ", " [] ['('] ['('] := inline_fixed (by decide)
  have captures : Inline (if modifiers.capture then ", true" else "") [] ['('] ['('] := by
    split
    · exact inline_fixed (by decide)
    · exact inline_fixed (by decide)
  have closing : Inline ");" [] ['('] [] := inline_fixed (by decide)
  unfold cleanup? at written
  split at written
  next => cases written
  next =>
    cases written
    exact ((((opening.append ((inline_quoted event).within _)).append comma).append
      ((inline_identifier valid).within _)).append captures).append closing

end Listener

namespace Binding

/-- What is quoted where a handler is bound to the elements of a selector. -/
def texts (binding : Binding) : List String :=
  match binding.target with
  | .selector selector => selector :: Listener.texts binding.event binding.modifiers
  | .element _ => Listener.texts binding.event binding.modifiers

/-- A binding to the elements of a selector, by a function whose name is an identifier. -/
structure IsNamed (binding : Binding) : Prop where
  selected : ∃ selector, binding.target = .selector selector
  valid : isIdentifier binding.handler = true

variable {binding : Binding} {bindings : List Binding}

theorem inline_statement (named : binding.IsNamed) :
    Inline binding.statement binding.texts [] [] := by
  obtain ⟨⟨selector, target⟩, valid⟩ := named
  have opening : Inline "document.querySelectorAll(" [] [] ['('] := inline_fixed (by decide +kernel)
  have closing : Inline ")" [] ['('] [] := inline_fixed (by decide)
  have query : Inline (Expression.query selector) [selector] [] [] :=
    (opening.append ((inline_quoted selector).within _)).append closing
  have each : Inline ".forEach(el => " [] [] ['('] := inline_fixed (by decide +kernel)
  have element : Inline "el" [] [] [] := inline_fixed (by decide)
  have finish : Inline ");" [] ['('] [] := inline_fixed (by decide)
  have called := Listener.inline_call element
    (Listener.inline_reference (inline_identifier valid) binding.modifiers) binding.event
    binding.modifiers
  have whole := ((query.append each).append (called.within _)).append finish
  simpa [statement, texts, target] using whole

theorem IsNamed.isUnbroken (named : binding.IsNamed) : binding.IsUnbroken where
  handler := (spells_identifier named.valid).unfed
  element expression target := by
    obtain ⟨selector, selected⟩ := named.selected
    cases selected.symm.trans target

theorem initialization_eq (named : ∀ binding ∈ bindings, binding.IsNamed) :
    initialization bindings = joinLines (initializationLines bindings) :=
  initialization_of_unbroken fun binding member => (named binding member).isUnbroken

/-- Each statement has a line of its own, moved right. -/
theorem inline_line (named : binding.IsNamed) :
    Inline (margin 1 ++ binding.statement) binding.texts [] [] :=
  have blanks : Inline (margin 1) [] [] [] := inline_fixed (by decide)
  blanks.append (inline_statement named)

theorem inline_opening : Inline (Names.member "ready" ++ "(() => \x7b") [] [] ['\x7b', '('] :=
  inline_fixed (by decide +kernel)

theorem inline_closing : Inline "\x7d);" [] ['\x7b', '('] [] := inline_fixed (by decide)

theorem quotes_initialization (named : ∀ binding ∈ bindings, binding.IsNamed) :
    Quotes (initialization bindings) (bindings.flatMap texts) := by
  have lineFeed : Quotes "\n" [] := quotes_fixed (by decide)
  have inner : List.Forall₂ Quotes (indented 1 (bindings.map statement)) (bindings.map texts) := by
    rw [indented, List.map_map, List.forall₂_map_left_iff, List.forall₂_map_right_iff,
      List.forall₂_same]
    exact fun binding member => (inline_line (named binding member)).quotes
  have each : List.Forall₂ Quotes (initializationLines bindings)
      ([] :: bindings.map texts ++ [[]]) :=
    List.rel_append (.cons inline_opening.quotes inner) (.cons inline_closing.quotes .nil)
  have whole := join_of_append (quotes_fixed (by decide)) lineFeed Quotes.append each
  rw [initialization_eq named]
  simpa [joinLines, List.flatMap_def] using whole

theorem turns_initialization (named : ∀ binding ∈ bindings, binding.IsNamed) :
    Turns (initialization bindings) [] [] := by
  rw [initialization_eq named]
  refine inline_opening.turns.block (List.forall_mem_map.mpr (List.forall_mem_map.mpr ?_))
    inline_closing.turns
  exact fun binding member => (inline_line (named binding member)).turns

/-- A binding takes one line, whatever is quoted in it. -/
theorem lines_initialization (named : ∀ binding ∈ bindings, binding.IsNamed) :
    lines (initialization bindings) = initializationLines bindings :=
  lines_initialization_of_unbroken fun binding member => (named binding member).isUnbroken

end Binding
end Hyperscript
