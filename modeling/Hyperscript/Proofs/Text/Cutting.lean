import Hyperscript.Text.Lines
import Mathlib.Data.List.Basic

/-! Cutting texts of any characters. A text that ends in the middle of a line is cut as it would
be alone, whatever is joined below it; a carriage return matters only in front of a line feed. -/
namespace Hyperscript.Text

/-- A line that cutting a text leaves as it is. -/
structure IsLine (text : String) : Prop where
  nonempty : text ≠ ""
  unbroken : ∀ c ∈ text.toList, c ≠ '\n' ∧ c ≠ '\r'

/-- No line ends within the text. -/
def IsUnbroken (text : String) : Prop := ∀ c ∈ text.toList, c ≠ '\n' ∧ c ≠ '\r'

instance (text : String) : Decidable (IsUnbroken text) := List.decidableBAll _ _

instance (text : String) : Decidable (IsLine text) :=
  decidable_of_iff (text ≠ "" ∧ IsUnbroken text)
    ⟨fun ⟨nonempty, unbroken⟩ => ⟨nonempty, unbroken⟩,
      fun isLine => ⟨isLine.nonempty, isLine.unbroken⟩⟩

theorem isUnbroken_append {first second : String} :
    IsUnbroken (first ++ second) ↔ IsUnbroken first ∧ IsUnbroken second := by
  rw [IsUnbroken, String.toList_append, List.forall_mem_append, IsUnbroken, IsUnbroken]

theorem isLine_between {opening inner : String} (closing : String) (before : IsUnbroken opening)
    (inside : IsUnbroken inner) (after : IsUnbroken closing) (written : closing ≠ "") :
    IsLine (opening ++ inner ++ closing) where
  nonempty := by simp [written]
  unbroken := isUnbroken_append.mpr ⟨isUnbroken_append.mpr ⟨before, inside⟩, after⟩

theorem isUnbroken_join {parts : List String} (each : ∀ part ∈ parts, IsUnbroken part) :
    IsUnbroken (join ", " parts) := by
  fun_induction join ", " parts with
  | case1 => decide
  | case2 part => exact each part List.mem_cons_self
  | case3 part next rest ih =>
    obtain ⟨first, others⟩ := List.forall_mem_cons.mp each
    simp only [isUnbroken_append]
    exact ⟨⟨first, by decide⟩, ih others⟩

/-- The last character is no part of a line break. -/
def IsEnded (text : String) : Prop := ∃ c ∈ text.toList.getLast?, c ≠ '\n' ∧ c ≠ '\r'

theorem IsEnded.after {text : String} (ended : IsEnded text) (start : String) :
    IsEnded (start ++ text) := by
  obtain ⟨c, last, plain⟩ := ended
  have whole : (start.toList ++ text.toList).getLast? = some c := by
    rw [List.getLast?_append, Option.mem_def.mp last, Option.some_or]
  exact ⟨c, by rw [String.toList_append, whole, Option.mem_def], plain⟩

theorem IsLine.isEnded {text : String} (isLine : IsLine text) : IsEnded text := by
  have nonempty : text.toList ≠ [] := by simpa using isLine.nonempty
  exact ⟨_, List.getLast?_eq_some_getLast nonempty, isLine.unbroken _ (List.getLast_mem nonempty)⟩

/-- Only a line feed, and a carriage return in front of one, does not stay in its line. -/
theorem splitLines_cons_of_ne {c : Char} (feed : c ≠ '\n') {rest : List Char}
    (paired : c = '\r' → rest.head? ≠ some '\n') :
    splitLines (c :: rest) =
      match splitLines rest with
      | [] => [[c]]
      | line :: lines => (c :: line) :: lines := by
  rw [splitLines.eq_def]
  split
  next empty => cases empty
  next same => exact absurd (List.cons.inj same).1 feed
  next same =>
    cases same
    exact absurd rfl (paired rfl)
  next same =>
    cases same
    rfl

theorem splitLines_eq_nil_iff {text : List Char} : splitLines text = [] ↔ text = [] := by
  fun_cases splitLines text <;> simp_all

theorem splitLines_of_unfed {text : List Char} (nonempty : text ≠ []) (unfed : '\n' ∉ text) :
    splitLines text = [text] := by
  induction text with
  | nil => exact absurd rfl nonempty
  | cons c rest ih =>
    obtain ⟨first, others⟩ := List.ne_and_not_mem_of_not_mem_cons unfed
    rw [splitLines_cons_of_ne first.symm fun _ head => others (List.mem_of_head? head)]
    cases rest with
    | nil => rfl
    | cons d more => rw [ih (List.cons_ne_nil d more) others]

/-- What stands below a line feed is cut on its own. -/
theorem splitLines_append_feed {text : List Char} {c : Char} (last : text.getLast? = some c)
    (plain : c ≠ '\n' ∧ c ≠ '\r') (rest : List Char) :
    splitLines (text ++ '\n' :: rest) = splitLines text ++ splitLines rest := by
  induction text with
  | nil => cases last
  | cons d more ih =>
    cases more with
    | nil =>
      obtain rfl : d = c := by simpa using last
      have alone := splitLines_of_unfed (List.cons_ne_nil d []) (by simpa using plain.1.symm)
      rw [List.singleton_append,
        splitLines_cons_of_ne plain.1 fun carriage => absurd carriage plain.2, alone]
      rfl
    | cons e others =>
      have inside := ih (by rwa [List.getLast?_cons_cons] at last)
      simp only [List.cons_append] at inside ⊢
      by_cases feed : d = '\n'
      · subst feed
        exact congrArg (List.cons []) inside
      by_cases paired : d = '\r' ∧ e = '\n'
      · -- A return and its line feed are cut as the line feed alone.
        obtain ⟨rfl, rfl⟩ := paired
        exact inside
      · have apart : d = '\r' → e ≠ '\n' := fun carriage next => paired ⟨carriage, next⟩
        have cut (text : List Char) : splitLines (d :: e :: text) =
            match splitLines (e :: text) with
            | [] => [[d]]
            | line :: lines => (d :: line) :: lines :=
          splitLines_cons_of_ne feed fun carriage head =>
            apart carriage (Option.some.inj head)
        rw [cut, cut, inside]
        cases found : splitLines (e :: others) with
        | nil => cases splitLines_eq_nil_iff.mp found
        | cons => rfl

theorem joinLines_cons (text : String) {rest : List String} (more : rest ≠ []) :
    joinLines (text :: rest) = text ++ "\n" ++ joinLines rest := by
  obtain ⟨next, others, rfl⟩ := List.exists_cons_of_ne_nil more
  rfl

/-- Texts that end in the middle of a line are cut each on its own. -/
theorem lines_joinLines_of_ended {texts : List String} (each : ∀ text ∈ texts, IsEnded text) :
    lines (joinLines texts) = texts.flatMap lines := by
  induction texts with
  | nil => rfl
  | cons text rest ih =>
    obtain ⟨⟨c, last, plain⟩, others⟩ := List.forall_mem_cons.mp each
    by_cases more : rest = []
    · subst more
      simp [joinLines, join]
    · have characters : (joinLines (text :: rest)).toList =
          text.toList ++ '\n' :: (joinLines rest).toList := by
        simp [joinLines_cons text more]
      rw [lines, characters, splitLines_append_feed last plain, List.map_append, List.flatMap_cons,
        ← ih others]
      rfl

theorem lines_of_unfed {text : String} (nonempty : text ≠ "") (unfed : '\n' ∉ text.toList) :
    lines text = [text] := by
  rw [lines, splitLines_of_unfed (by simpa using nonempty) unfed]
  simp

theorem IsLine.lines_eq {text : String} (isLine : IsLine text) : lines text = [text] :=
  lines_of_unfed isLine.nonempty fun feed => (isLine.unbroken _ feed).1 rfl

theorem flatMap_lines {texts : List String} (each : ∀ text ∈ texts, IsLine text) :
    texts.flatMap lines = texts := by
  rw [List.flatMap_congr fun text member => (each text member).lines_eq, List.flatMap_singleton']

/-- Cutting a text gives back the lines that it was joined from. -/
theorem lines_joinLines {texts : List String} (each : ∀ text ∈ texts, IsLine text) :
    lines (joinLines texts) = texts := by
  rw [lines_joinLines_of_ended fun text member => (each text member).isEnded, flatMap_lines each]

end Hyperscript.Text
