import Hyperscript.Proofs.Text.Layout

/-! Brackets of code, token by token and character by character. A reader that skips string
literals keeps the brackets that are open; it stops where a closing bracket does not belong to
the innermost of them, and where a line ends inside a literal. Brackets around a text make no
difference to how it is read, so texts can be read one after the other. -/
namespace Hyperscript.Text

/-- The brackets that tokens leave open, innermost first. -/
def Leaves (tokens : List Token) (brackets : List Char) : Prop :=
  ∀ opened, tokens.foldlM openAfter opened = some (brackets ++ opened)

theorem openAfter_append {opened opened' : List Char} {token : Token}
    (step : openAfter opened token = some opened') (around : List Char) :
    openAfter (opened ++ around) token = some (opened' ++ around) := by
  cases token with
  | word | literal =>
    cases step
    rfl
  | mark c =>
    simp only [openAfter] at step ⊢
    split_ifs at step ⊢ with opens
    · cases step
      rfl
    · cases found : opening? c with
      | none =>
        simp only [found] at step ⊢
        cases step
        rfl
      | some partner =>
        simp only [found] at step ⊢
        split_ifs at step with paired
        obtain ⟨rest, rfl⟩ : ∃ rest, opened = partner :: rest := by
          cases opened with
          | nil => cases paired
          | cons first rest =>
            cases paired
            exact ⟨rest, rfl⟩
        cases step
        simp

/-- What a step makes no difference to, a run makes no difference to. -/
theorem foldlM_frame {σ α : Type} {step : σ → α → Option σ} {frame : σ → σ}
    (one : ∀ {state item state'}, step state item = some state' →
      step (frame state) item = some (frame state'))
    {items : List α} {state state' : σ} (run : items.foldlM step state = some state') :
    items.foldlM step (frame state) = some (frame state') := by
  induction items generalizing state with
  | nil =>
    cases run
    rfl
  | cons item rest ih =>
    obtain ⟨middle, first, others⟩ := Option.bind_eq_some_iff.mp run
    simp only [List.foldlM_cons, one first, Option.bind_eq_bind, Option.bind_some]
    exact ih others

/-- What is open around tokens stays as it is. -/
theorem foldlM_openAfter_append {tokens : List Token} {opened opened' : List Char}
    (run : tokens.foldlM openAfter opened = some opened') (around : List Char) :
    tokens.foldlM openAfter (opened ++ around) = some (opened' ++ around) :=
  foldlM_frame (fun step => openAfter_append step around) run

theorem leaves_of_foldlM {tokens : List Token} {brackets : List Char}
    (alone : tokens.foldlM openAfter [] = some brackets) : Leaves tokens brackets :=
  foldlM_openAfter_append alone

theorem Leaves.append {first second : List Token} {brackets : List Char}
    (before : Leaves first brackets) (after : Balanced second) :
    Leaves (first ++ second) brackets := by
  intro opened
  simp only [List.foldlM_append, before opened, Option.bind_eq_bind, Option.bind_some,
    after (brackets ++ opened)]

/-- Tokens between some that open brackets and some that close them. -/
theorem Leaves.around {first middle last : List Token} {brackets : List Char}
    (before : Leaves first brackets) (inside : Balanced middle)
    (after : last.foldlM openAfter brackets = some []) : Balanced (first ++ (middle ++ last)) := by
  intro opened
  simp only [List.foldlM_append, before opened, inside (brackets ++ opened), Option.bind_eq_bind,
    Option.bind_some]
  exact foldlM_openAfter_append after opened

/-- Tokens between an opening and a closing brace. -/
theorem Leaves.closed {first : List Token} (before : Leaves first ['\x7b']) :
    Balanced (first ++ [.mark '\x7d']) := by
  intro opened
  simp only [List.foldlM_append, before opened, Option.bind_eq_bind, Option.bind_some]
  rfl

/-- One block after another. -/
theorem Leaves.reopened {first : List Token} (before : Leaves first ['\x7b']) :
    Leaves (first ++ Text.tokens "\x7d else \x7b") ['\x7b'] := by
  intro opened
  simp only [List.foldlM_append, before opened, Option.bind_eq_bind, Option.bind_some]
  rfl

/-- One more character: where the reader is then, and which brackets are open, innermost first. -/
def readBracket (state : Mode × List Char) (c : Char) : Option (Mode × List Char) :=
  match state with
  | (.code, opened) =>
    if c = '"' then some (.quoted, opened)
    else (openAfter opened (.mark c)).map fun opened => (.code, opened)
  | (mode, opened) => if c = '\n' ∨ c = '\r' then none else some (mode.next c, opened)

/-- Every bracket outside of string literals is closed by its partner, none is left open, and
every string literal ends on its line. -/
def IsWellBracketed (text : String) : Prop :=
  text.toList.foldlM readBracket (.code, []) = some (.code, [])

instance (text : String) : Decidable (IsWellBracketed text) :=
  inferInstanceAs (Decidable (text.toList.foldlM readBracket (.code, []) = some (.code, [])))

example : IsWellBracketed "f([\")\"]);" ∧ ¬IsWellBracketed "f([)];" ∧
    ¬IsWellBracketed "f(\"a\n\")" := by decide

/-- Read behind these brackets, innermost first, a text leaves those open, whatever else is
open around. -/
def Turns (text : String) (before after : List Char) : Prop :=
  ∀ opened, text.toList.foldlM readBracket (.code, before ++ opened) = some (.code, after ++ opened)

theorem readBracket_append {state state' : Mode × List Char} {c : Char}
    (step : readBracket state c = some state') (around : List Char) :
    readBracket (state.1, state.2 ++ around) c = some (state'.1, state'.2 ++ around) := by
  obtain ⟨mode, opened⟩ := state
  cases mode with
  | code =>
    simp only [readBracket] at step ⊢
    split at step
    next quote =>
      cases step
      rw [if_pos quote]
    next other =>
      obtain ⟨opened', found, same⟩ := Option.map_eq_some_iff.mp step
      cases same
      rw [if_neg other, openAfter_append found around]
      rfl
  | quoted | escaped =>
    simp only [readBracket] at step ⊢
    split at step
    next => cases step
    next unbroken =>
      cases step
      rw [if_neg unbroken]

/-- A text of the emitter, read once. -/
theorem turns_of_foldlM {text : String} {before after : List Char}
    (read : text.toList.foldlM readBracket (.code, before) = some (.code, after)) :
    Turns text before after := by
  intro around
  have frame : ∀ {state c state'}, readBracket state c = some state' →
      readBracket (Prod.map id (· ++ around) state) c = some (Prod.map id (· ++ around) state') :=
    fun step => readBracket_append step around
  exact foldlM_frame frame read

theorem Turns.append {first second : String} {before between after : List Char}
    (start : Turns first before between) (finish : Turns second between after) :
    Turns (first ++ second) before after := by
  intro opened
  rw [String.toList_append, List.foldlM_append, start opened, Option.bind_eq_bind,
    Option.bind_some, finish opened]

theorem Turns.isWellBracketed {text : String} (turns : Turns text [] []) : IsWellBracketed text :=
  turns []

/-- A text that leaves all brackets as they are can stand between any of them. -/
theorem Turns.within {text : String} (turns : Turns text [] []) (around : List Char) :
    Turns text around around := by
  intro opened
  exact turns (around ++ opened)

/-- Lines between one that opens brackets and one that closes them. -/
theorem Turns.block {opening closing : String} {inner : List String} {before brackets : List Char}
    (start : Turns opening before brackets) (inside : ∀ line ∈ inner, Turns line [] [])
    (finish : Turns closing brackets []) :
    Turns (joinLines (opening :: inner ++ [closing])) before [] := by
  have lineFeed : Turns "\n" brackets brackets := Turns.within (turns_of_foldlM rfl) brackets
  induction inner generalizing opening before with
  | nil => exact (start.append lineFeed).append finish
  | cons line rest ih =>
    obtain ⟨first, others⟩ := List.forall_mem_cons.mp inside
    rw [List.cons_append, joinLines_cons _ (by simp)]
    exact (start.append lineFeed).append (ih (first.within brackets) others)

theorem mode_readBracket {mode : Mode} {opened : List Char} {c : Char} {state : Mode × List Char}
    (step : readBracket (mode, opened) c = some state) : state.1 = mode.next c := by
  cases mode with
  | code =>
    simp only [readBracket] at step
    split at step
    next quote =>
      cases step
      simp [Mode.next, quote]
    next other =>
      obtain ⟨opened', _, same⟩ := Option.map_eq_some_iff.mp step
      cases same
      simp [Mode.next, other]
  | quoted | escaped =>
    simp only [readBracket] at step
    split at step
    next => cases step
    next =>
      cases step
      rfl

/-- Words and blanks open and close no brackets. -/
theorem openAfter_of_isIdentifierRest {c : Char}
    (other : isIdentifierRest c = true ∨ c.isWhitespace = true) (opened : List Char) :
    openAfter opened (.mark c) = some opened := by
  have brackets : ∀ c ∈ ['(', '[', '\x7b', ')', ']', '\x7d'],
      (!isIdentifierRest c && !c.isWhitespace) = true :=
    List.all_eq_true.mp (by decide)
  refine openAfter_of_plain ?_ opened
  simp only [Token.isBracket, List.contains_eq_mem, decide_eq_false_iff_not]
  intro bracket
  have neither := brackets c bracket
  obtain inWord | blank := other
  · simp [inWord] at neither
  · simp [blank] at neither

theorem foldlM_extendWord (c : Char) (tokens : List Token) (opened : List Char) :
    (extendWord c tokens).foldlM openAfter opened = tokens.foldlM openAfter opened := by
  unfold extendWord
  split <;> rfl

/-- A character and the tokens that it makes of those behind it. -/
theorem foldlM_readChar {c : Char} (unbroken : c ≠ '\n' ∧ c ≠ '\r') (mode : Mode) (goesOn : Bool)
    (later : List Token) (opened : List Char) :
    (readChar mode c goesOn later).foldlM openAfter opened =
      (readBracket (mode, opened) c).bind fun state => later.foldlM openAfter state.2 := by
  cases mode with
  | code =>
    by_cases quote : c = '"'
    · subst quote
      rfl
    simp only [readChar, readBracket, quote, if_false]
    split
    next inWord =>
      rw [openAfter_of_isIdentifierRest (.inl inWord)]
      split
      · exact foldlM_extendWord c later opened
      · rfl
    next =>
      split
      next blank =>
        rw [openAfter_of_isIdentifierRest (.inr blank)]
        rfl
      next =>
        rw [List.foldlM_cons, Option.bind_map]
        rfl
  | quoted | escaped =>
    have goesOn : ¬(c = '\n' ∨ c = '\r') := not_or.mpr unbroken
    simp only [readChar, readBracket, goesOn, if_false, Option.bind_some]

/-- On a line, characters and tokens open and close the same brackets. -/
theorem foldlM_readBracket {mode : Mode} {text : List Char}
    (unbroken : ∀ c ∈ text, c ≠ '\n' ∧ c ≠ '\r') (opened : List Char) :
    text.foldlM readBracket (mode, opened) =
      ((scan mode text).foldlM openAfter opened).map fun opened =>
        (modeAfter mode text, opened) := by
  induction text generalizing mode opened with
  | nil => rfl
  | cons c rest ih =>
    obtain ⟨first, others⟩ := List.forall_mem_cons.mp unbroken
    rw [scan, foldlM_readChar first, List.foldlM_cons]
    cases step : readBracket (mode, opened) c with
    | none => rfl
    | some state =>
      obtain ⟨mode', opened'⟩ := state
      have next : mode' = mode.next c := mode_readBracket step
      subst next
      exact ih others opened'

theorem Spells.foldlM_readBracket {text : String} {tokens : List Token}
    (spells : Spells text tokens) (opened : List Char) :
    text.toList.foldlM readBracket (.code, opened) =
      (tokens.foldlM openAfter opened).map fun opened => (.code, opened) := by
  rw [Text.foldlM_readBracket spells.unbroken, spells.read, spells.closed]

/-- The brackets of a text are those of its lines. -/
theorem LinesSpell.foldlM_readBracket {texts : List String} {tokens : List (List Token)}
    (spell : LinesSpell texts tokens) (opened : List Char) :
    (joinLines texts).toList.foldlM readBracket (.code, opened) =
      (tokens.flatten.foldlM openAfter opened).map fun opened => (.code, opened) := by
  induction spell generalizing opened with
  | nil => rfl
  | @cons text first rest others here inRest ih =>
    have inText := here.2.foldlM_readBracket opened
    cases inRest with
    | nil => simpa [joinLines, join] using inText
    | @cons next _ more _ _ _ =>
      have lineBreak (opened : List Char) : readBracket (.code, opened) '\n' =
          some (.code, opened) := rfl
      rw [joinLines_cons _ (by simp), String.toList_append, String.toList_append,
        List.append_assoc, List.foldlM_append, inText, List.flatten_cons, List.foldlM_append]
      cases first.foldlM openAfter opened with
      | none => rfl
      | some opened' => exact ih opened'

/-- Balanced tokens make a text that leaves all brackets as they are. -/
theorem LinesSpell.turns {texts : List String} {tokens : List (List Token)}
    (spell : LinesSpell texts tokens) (balanced : Balanced tokens.flatten) :
    Turns (joinLines texts) [] [] := by
  intro opened
  rw [spell.foldlM_readBracket, List.nil_append, balanced opened]
  rfl

theorem Spells.turns {text : String} {tokens : List Token} (spells : Spells text tokens)
    (balanced : Balanced tokens) : Turns text [] [] := by
  intro opened
  rw [spells.foldlM_readBracket, List.nil_append, balanced opened]
  rfl

end Hyperscript.Text
