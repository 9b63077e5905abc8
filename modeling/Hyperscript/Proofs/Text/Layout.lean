import Hyperscript.Code.Statement
import Hyperscript.Proofs.Text.Cutting
import Hyperscript.Proofs.Text.Tokens
import Mathlib.Data.List.Forall2

/-! Code as lines. Fragments of code are cut into lines and moved right; as long as no line
is empty and none holds a line break, cutting gives back the lines that were joined. The
tokens of a text are those of its lines, however far right these stand. -/
namespace Hyperscript.Text

/-- Lines moved right. -/
def indented (depth : Nat) (texts : List String) : List String := texts.map (margin depth ++ ·)

theorem toList_margin (depth : Nat) : ∀ c ∈ (margin depth).toList, c = ' ' := by
  induction depth with
  | zero => simp [margin]
  | succ depth ih => simpa [margin] using ih

theorem IsLine.indented {text : String} (isLine : IsLine text) (depth : Nat) :
    IsLine (margin depth ++ text) where
  nonempty := by simp [isLine.nonempty]
  unbroken := by
    rw [String.toList_append, List.forall_mem_append]
    refine ⟨fun c member => ?_, isLine.unbroken⟩
    rw [toList_margin depth c member]
    decide

theorem forall_indented {texts : List String} (each : ∀ text ∈ texts, IsLine text) (depth : Nat) :
    ∀ text ∈ indented depth texts, IsLine text :=
  List.forall_mem_map.mpr fun text member => (each text member).indented depth

theorem map_indentLine {texts : List String} (each : ∀ text ∈ texts, IsLine text) (depth : Nat) :
    texts.map (indentLine depth) = indented depth texts :=
  List.map_congr_left fun text member => if_neg (each text member).nonempty

theorem indented_zero (texts : List String) : indented 0 texts = texts := by
  simp [indented, margin]

theorem indented_indented (first second : Nat) (texts : List String) :
    indented first (indented second texts) = indented (first + second) texts := by
  have margins : margin (first + second) = margin first ++ margin second := by
    induction first with
    | zero => simp [margin]
    | succ first ih => rw [Nat.succ_add, margin, ih, margin, String.append_assoc]
  simp [indented, margins, String.append_assoc]

namespace Sheet

/-- A line at the outermost depth. -/
theorem line_outermost (written : List String) (text : String) :
    ({ written } : Sheet).line text = { written := written ++ [text] } := by
  by_cases empty : text = "" <;> simp [line, indentLine, margin, empty]

theorem foldl_line (texts : List String) (sheet : Sheet) :
    texts.foldl line sheet =
      { sheet with written := sheet.written ++ texts.map (indentLine sheet.depth) } := by
  induction texts generalizing sheet with
  | nil => simp
  | cons text rest ih => simp [List.foldl_cons, ih, line]

theorem fragment_joinLines {texts : List String} (each : ∀ text ∈ texts, IsLine text)
    (sheet : Sheet) :
    sheet.fragment (joinLines texts) =
      { sheet with written := sheet.written ++ indented sheet.depth texts } := by
  rw [fragment, lines_joinLines each, foldl_line, map_indentLine each]

end Sheet

theorem indentBlock_joinLines {texts : List String} (each : ∀ text ∈ texts, IsLine text) :
    indentBlock (joinLines texts) = joinLines (indented 1 texts) := by
  rw [indentBlock, Sheet.fragment_joinLines each]
  rfl

theorem joinLines_eq_empty_iff {texts : List String} (each : ∀ text ∈ texts, text ≠ "") :
    joinLines texts = "" ↔ texts = [] := by
  cases texts with
  | nil => simp [joinLines, join]
  | cons text rest =>
    have first := each text List.mem_cons_self
    by_cases last : rest = []
    · subst last
      simpa [joinLines, join] using first
    · simp [joinLines_cons text last]

theorem joinLines_append {first second : List String} (before : first ≠ []) (after : second ≠ []) :
    joinLines (first ++ second) = joinLines first ++ "\n" ++ joinLines second := by
  induction first with
  | nil => exact absurd rfl before
  | cons text rest ih =>
    by_cases last : rest = []
    · subst last
      exact joinLines_cons text after
    · rw [List.cons_append, joinLines_cons text (by simp [last]), ih last, joinLines_cons text last]
      simp only [String.append_assoc]

/-- What holds of texts one after the other holds of joined texts, if it holds of what stands
between them. -/
theorem join_of_append {α : Type} {motive : String → List α → Prop} {separator : String}
    (nil : motive "" []) (between : motive separator [])
    (append : ∀ {first second firsts seconds}, motive first firsts → motive second seconds →
      motive (first ++ second) (firsts ++ seconds))
    {parts : List String} {items : List (List α)} (each : List.Forall₂ motive parts items) :
    motive (join separator parts) items.flatten := by
  induction each with
  | nil => exact nil
  | cons first inRest ih =>
    cases inRest with
    | nil => simpa [join] using first
    | cons _ _ =>
      have whole := append (append first between) ih
      rwa [List.append_nil] at whole

/-- Blanks in front of a text change no token. -/
theorem Spells.indented {text : String} {tokens : List Token} (spells : Spells text tokens)
    (depth : Nat) : Spells (margin depth ++ text) tokens := by
  have blank : Spells (margin depth) [] ∧ endsWord (margin depth).toList = false := by
    induction depth with
    | zero => decide
    | succ depth ih =>
      have two : Spells "  " [] := by decide
      refine ⟨two.thenAny ih.1 (by decide), ?_⟩
      simp only [margin, String.toList_append, endsWord, List.getLast?_append]
      cases last : (margin depth).toList.getLast? with
      | none => decide
      | some c => simpa [endsWord, last] using ih.2
  exact blank.1.thenAny spells blank.2

/-- One line after the other, each beside its tokens. -/
def LinesSpell (texts : List String) (tokens : List (List Token)) : Prop :=
  List.Forall₂ (fun text tokens => text ≠ "" ∧ Spells text tokens) texts tokens

namespace LinesSpell

variable {texts : List String} {tokens : List (List Token)}

theorem isLine (spell : LinesSpell texts tokens) : ∀ text ∈ texts, IsLine text := by
  induction spell with
  | nil => simp
  | cons first _ ih => exact List.forall_mem_cons.mpr ⟨⟨first.1, first.2.unbroken⟩, ih⟩

/-- The tokens of a text are those of its lines. -/
theorem tokens_joinLines (spell : LinesSpell texts tokens) :
    Text.tokens (joinLines texts) = tokens.flatten := by
  induction spell with
  | nil => rfl
  | @cons text ts rest others first inRest ih =>
    cases inRest with
    | nil => simpa [joinLines, join, Text.tokens] using first.2.read
    | @cons next _ more _ _ _ =>
      have border : scan .code ('\n' :: (joinLines (next :: more)).toList) =
          Text.tokens (joinLines (next :: more)) := rfl
      have characters : (joinLines (text :: next :: more)).toList =
          text.toList ++ '\n' :: (joinLines (next :: more)).toList := by
        simp [joinLines, join]
      rw [Text.tokens, characters, scan_append _ _ _ (.inr rfl), first.2.closed, first.2.read,
        border, ih]
      rfl

end LinesSpell

end Hyperscript.Text

namespace Hyperscript.Statement

open Text

theorem nest_joinLines {texts : List String} (each : ∀ text ∈ texts, IsLine text)
    (written : List String) :
    nest { written } (joinLines texts) = { written := written ++ indented 1 texts } := by
  unfold nest
  split
  next empty =>
    rw [(joinLines_eq_empty_iff fun text member => (each text member).nonempty).mp empty]
    simp [indented]
  next =>
    rw [indentBlock_joinLines each, Sheet.fragment_joinLines (forall_indented each 1)]
    simp only [indented_zero]

/-- A block of lines under its header. -/
theorem block_joinLines {header inner : List String} (inHeader : ∀ text ∈ header, IsLine text)
    (inInner : ∀ text ∈ inner, IsLine text) :
    block (joinLines header) (joinLines inner) =
      joinLines (header ++ indented 1 inner ++ ["\x7d"]) := by
  have opened : Sheet.empty.fragment (joinLines header) = { written := header } := by
    rw [Sheet.fragment_joinLines inHeader]
    simp [Sheet.empty, indented_zero]
  rw [block, opened, nest_joinLines inInner, Sheet.line_outermost, Sheet.finish]

theorem conditional_joinLines (condition : String) {inThen : List String}
    (isThen : ∀ text ∈ inThen, IsLine text) :
    conditional condition (joinLines inThen) none =
      joinLines (("if (" ++ condition ++ ") \x7b") :: indented 1 inThen ++ ["\x7d"]) := by
  simp only [conditional, Sheet.empty, Sheet.line_outermost, nest_joinLines isThen]
  rfl

theorem conditional_joinLines_else (condition : String) {inThen inElse : List String}
    (isThen : ∀ text ∈ inThen, IsLine text) (isElse : ∀ text ∈ inElse, IsLine text) :
    conditional condition (joinLines inThen) (some (joinLines inElse)) =
      joinLines (("if (" ++ condition ++ ") \x7b") :: indented 1 inThen ++
        "\x7d else \x7b" :: indented 1 inElse ++ ["\x7d"]) := by
  simp only [conditional, Sheet.empty, Sheet.line_outermost, nest_joinLines isThen,
    nest_joinLines isElse, Sheet.finish, List.nil_append, List.append_assoc, List.cons_append]

end Hyperscript.Statement
