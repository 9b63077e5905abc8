import Hyperscript.Code.Names
import Hyperscript.Optimization.Caching
import Hyperscript.Proofs.Text.Identifiers
import Mathlib.Data.List.SplitBy

/-! The variables that selectors make. Each run of characters other than ASCII letters and digits
becomes one underscore, and what comes out is cut. With its prefix it is an identifier that
generated code has no other use for, and it is its own slug. Two selectors make the same variable
exactly when they start alike once their runs are collapsed. -/
namespace Hyperscript

open Text

/-- The names that generated code has for its own purposes, whatever the script is. -/
def Names.introduced : List String :=
  [contextVar, eventParam, element, "_rt", "_err", indexVar, "_item", "el"]

namespace Caching

/-- The longest stretches of a text that are all letters and digits, or all something else. -/
def runs (text : List Char) : List (List Char) :=
  text.splitBy fun c d => c.isAlphanum == d.isAlphanum

/-- A run of letters and digits as it is, any other run as one underscore. -/
def collapse (run : List Char) : List Char := if run.all Char.isAlphanum then run else ['_']

def collapsed (text : List Char) : List Char := (runs text).flatMap collapse

/-- Letters, digits and underscores, and no two underscores side by side. -/
structure IsSlug (text : List Char) : Prop where
  characters : ∀ c ∈ text, c.isAlphanum = true ∨ c = '_'
  separated : text.IsChain fun c d => c = '_' → d ≠ '_'

theorem IsSlug.isIdentifierRest {text : List Char} (isSlug : IsSlug text) :
    ∀ c ∈ text, isIdentifierRest c = true := by
  intro c member
  obtain letter | rfl := isSlug.characters c member
  · simp [Text.isIdentifierRest, letter]
  · decide

theorem IsSlug.take {text : List Char} (isSlug : IsSlug text) (limit : Nat) :
    IsSlug (text.take limit) where
  characters c member := isSlug.characters c (List.mem_of_mem_take member)
  separated := isSlug.separated.take limit

/-- Behind an underscore there is no second one. -/
theorem head?_slugFrom_true (text : List Char) : (slugFrom true text).head? ≠ some '_' := by
  induction text with
  | nil => nofun
  | cons c rest ih =>
    unfold slugFrom
    split
    next letter =>
      rintro ⟨⟩
      exact absurd letter (by decide)
    next => exact ih

theorem isSlug_slugFrom (inRun : Bool) (text : List Char) : IsSlug (slugFrom inRun text) := by
  induction text generalizing inRun with
  | nil => exact ⟨nofun, .nil⟩
  | cons c rest ih =>
    unfold slugFrom
    split_ifs with letter
    · have other : c ≠ '_' := by
        rintro rfl
        exact absurd letter (by decide)
      exact ⟨List.forall_mem_cons.mpr ⟨.inl letter, (ih false).characters⟩,
        List.isChain_cons.mpr ⟨fun _ _ same => absurd same other, (ih false).separated⟩⟩
    · exact ih true
    · refine ⟨List.forall_mem_cons.mpr ⟨.inr rfl, (ih true).characters⟩,
        List.isChain_cons.mpr ⟨?_, (ih true).separated⟩⟩
      rintro d next - rfl
      exact head?_slugFrom_true rest next

/-- A slug is kept, unless it goes on with an underscore. -/
theorem IsSlug.slugFrom_eq {text : List Char} (isSlug : IsSlug text) (inRun : Bool)
    (start : inRun = true → text.head? ≠ some '_') : slugFrom inRun text = text := by
  induction text generalizing inRun with
  | nil => rfl
  | cons c rest ih =>
    obtain ⟨known, others⟩ := List.forall_mem_cons.mp isSlug.characters
    obtain ⟨apart, separated⟩ := List.isChain_cons.mp isSlug.separated
    have later : IsSlug rest := ⟨others, separated⟩
    obtain letter | rfl := known
    · rw [slugFrom, if_pos letter, ih later false nofun]
    · have outside : ¬inRun = true := fun inside => start inside rfl
      have kept := ih later true fun _ next => apart '_' next rfl rfl
      rw [slugFrom, if_neg (by decide), if_neg outside, kept]

theorem isSlug_slug (selector : List Char) : IsSlug (slug selector) :=
  (isSlug_slugFrom false selector).take maxSlugLength

theorem length_slug_le (selector : List Char) : (slug selector).length ≤ maxSlugLength :=
  List.length_take_le _ _

theorem IsSlug.slug_eq {text : List Char} (isSlug : IsSlug text)
    (short : text.length ≤ maxSlugLength) : slug text = text := by
  rw [slug, isSlug.slugFrom_eq false nofun, List.take_of_length_le short]

section

variable {part : List Char} (rest : List Char)

theorem slugFrom_letters (letters : ∀ c ∈ part, c.isAlphanum = true) :
    slugFrom false (part ++ rest) = part ++ slugFrom false rest := by
  induction part with
  | nil => rfl
  | cons c part ih =>
    obtain ⟨letter, others⟩ := List.forall_mem_cons.mp letters
    rw [List.cons_append, slugFrom, if_pos letter, ih others, List.cons_append]

/-- The rest of a run that has its underscore already. -/
theorem slugFrom_gap (gap : ∀ c ∈ part, ¬c.isAlphanum = true) :
    slugFrom true (part ++ rest) = slugFrom true rest := by
  induction part with
  | nil => rfl
  | cons c part ih =>
    obtain ⟨other, others⟩ := List.forall_mem_cons.mp gap
    rw [List.cons_append, slugFrom, if_neg other, if_pos rfl, ih others]

end

/-- In front of a letter or digit it does not matter what came before. -/
theorem slugFrom_true_eq {text : List Char} (start : ∀ c ∈ text.head?, c.isAlphanum = true) :
    slugFrom true text = slugFrom false text := by
  cases text with
  | nil => rfl
  | cons c rest =>
    have letter := start c rfl
    rw [slugFrom, slugFrom, if_pos letter, if_pos letter]

/-- Parts of a text that are runs: not empty, of one class each, and of another class than the
part before. -/
structure AreRuns (parts : List (List Char)) : Prop where
  nonempty : ∀ part ∈ parts, part ≠ []
  uniform : ∀ part ∈ parts, (∀ c ∈ part, c.isAlphanum = true) ∨ ∀ c ∈ part, ¬c.isAlphanum = true
  alternate : parts.IsChain fun part next =>
    ∃ c ∈ part, ∃ d ∈ next.head?, c.isAlphanum ≠ d.isAlphanum

theorem uniform_of_mem_runs {text part : List Char} (member : part ∈ runs text) :
    (∀ c ∈ part, c.isAlphanum = true) ∨ ∀ c ∈ part, ¬c.isAlphanum = true := by
  have chain : (part.map Char.isAlphanum).IsChain (· = ·) :=
    (List.isChain_map _).mpr ((List.isChain_of_mem_splitBy member).imp fun _ _ => eq_of_beq)
  cases part with
  | nil => exact .inl nofun
  | cons c rest =>
    have same : ∀ d ∈ rest, c.isAlphanum = d.isAlphanum :=
      List.forall_mem_map.mp (List.pairwise_cons.mp chain.pairwise).1
    by_cases letter : c.isAlphanum = true
    · exact .inl (List.forall_mem_cons.mpr ⟨letter, fun d inside => same d inside ▸ letter⟩)
    · exact .inr (List.forall_mem_cons.mpr ⟨letter, fun d inside => same d inside ▸ letter⟩)

theorem areRuns_runs (text : List Char) : AreRuns (runs text) where
  nonempty _ := List.ne_nil_of_mem_splitBy
  uniform _ := uniform_of_mem_runs
  alternate := by
    refine (List.isChain_getLast_head_splitBy _ text).imp ?_
    rintro part next ⟨written, nextWritten, differ⟩
    exact ⟨_, List.getLast_mem written, _, List.head_mem_head? nextWritten,
      beq_eq_false_iff_ne.mp differ⟩

/-- The parts behind a gap start with a letter or digit. -/
theorem AreRuns.head?_flatten {gap : List Char} {parts : List (List Char)}
    (areRuns : AreRuns (gap :: parts)) (others : ∀ c ∈ gap, ¬c.isAlphanum = true) :
    ∀ d ∈ parts.flatten.head?, d.isAlphanum = true := by
  cases parts with
  | nil => nofun
  | cons next parts =>
    obtain ⟨c, inGap, d, first, differ⟩ := (List.isChain_cons_cons.mp areRuns.alternate).1
    obtain ⟨rest, rfl⟩ := List.head?_eq_some_iff.mp first
    rintro _ ⟨⟩
    rw [Bool.eq_false_iff.mpr (others c inGap)] at differ
    exact (Bool.not_eq_false _).mp differ.symm

theorem AreRuns.tail {part : List Char} {parts : List (List Char)}
    (areRuns : AreRuns (part :: parts)) : AreRuns parts where
  nonempty := (List.forall_mem_cons.mp areRuns.nonempty).2
  uniform := (List.forall_mem_cons.mp areRuns.uniform).2
  alternate := areRuns.alternate.tail

/-- Each run is entered and left with the flag down. -/
theorem AreRuns.slugFrom_flatten {parts : List (List Char)} (areRuns : AreRuns parts) :
    slugFrom false parts.flatten = parts.flatMap collapse := by
  induction parts with
  | nil => rfl
  | cons part parts ih =>
    have later := ih areRuns.tail
    rw [List.flatten_cons, List.flatMap_cons]
    obtain letters | gap := areRuns.uniform part List.mem_cons_self
    · rw [slugFrom_letters _ letters, later, collapse, if_pos (List.all_eq_true.mpr letters)]
    · -- A gap raises the flag, but as it is maximal, a letter or the end comes behind it.
      have start := slugFrom_true_eq (areRuns.head?_flatten gap)
      obtain ⟨c, rest, rfl⟩ := List.exists_cons_of_ne_nil (areRuns.nonempty part List.mem_cons_self)
      obtain ⟨other, others⟩ := List.forall_mem_cons.mp gap
      have mixed : ¬(c :: rest).all Char.isAlphanum = true := fun all =>
        other (List.all_eq_true.mp all c List.mem_cons_self)
      rw [List.cons_append, slugFrom, if_neg other, if_neg Bool.false_ne_true,
        slugFrom_gap _ others, start, later, collapse, if_neg mixed, List.singleton_append]

/-- Going through a text with a flag comes to collapsing its runs. -/
theorem slugFrom_eq_collapsed (text : List Char) : slugFrom false text = collapsed text := by
  have whole : (runs text).flatten = text := List.flatten_splitBy _ text
  have collapsing := (areRuns_runs text).slugFrom_flatten
  rwa [whole] at collapsing

theorem slug_eq_take (selector : List Char) :
    slug selector = (collapsed selector).take maxSlugLength := by
  rw [slug, slugFrom_eq_collapsed]

/-- The characters that are written take one byte each, so bytes can be counted for characters. -/
theorem truncateBytes?_collapsed (selector : List Char) :
    truncateBytes? maxSlugLength (collapsed selector) = some (slug selector) := by
  rw [slug, slugFrom_eq_collapsed]
  refine truncateBytes?_of_narrow (fun c member => ?_) maxSlugLength
  rw [← slugFrom_eq_collapsed] at member
  exact utf8Size_of_isIdentifierRest ((isSlug_slugFrom false selector).isIdentifierRest c member)

theorem toList_cacheKey (selector : String) :
    (cacheKey selector).toList = ['_', 's', 'e', 'l', '_'] ++ slug selector.toList := by
  simp [cacheKey, String.toList_append]

theorem cacheKey_eq_iff {selector other : String} :
    cacheKey other = cacheKey selector ↔ slug other.toList = slug selector.toList := by
  rw [← String.toList_inj, toList_cacheKey, toList_cacheKey, List.append_right_inj]

theorem isIdentifier_cacheKey (selector : String) : isIdentifier (cacheKey selector) = true := by
  rw [← (cacheKey selector).ofList_toList]
  refine isIdentifier_underscore (toList_cacheKey selector) (List.forall_mem_append.mpr ⟨?_, ?_⟩)
  · exact List.all_eq_true.mp (by decide)
  · exact (isSlug_slug selector.toList).isIdentifierRest

theorem second_cacheKey (selector : String) : (cacheKey selector).toList[1]? = some 's' := by
  simp [toList_cacheKey]

theorem cacheKey_ne {name : String} (known : name ∈ Names.introduced) (selector : String) :
    cacheKey selector ≠ name := by
  have others : ∀ name ∈ Names.introduced, name.toList[1]? ≠ some 's' := by decide
  rintro rfl
  exact others _ known (second_cacheKey selector)

theorem cacheKey_ne_functionName (selector handlerId : String) :
    cacheKey selector ≠ Names.functionName handlerId := by
  intro same
  have second := second_cacheKey selector
  rw [same] at second
  simp [Names.functionName, String.toList_append] at second

/-- The key of a selector is a prefix and a slug of at most twenty ASCII letters, digits and
underscores. It is an identifier, and no name that generated code has for its own purposes. The slug
makes the same key again. It is the first twenty characters of the selector with its runs
collapsed, where a cut behind twenty bytes never goes through a character, and these are all that
the key depends on. -/
theorem cacheKey_canonical (selector : String) :
    ∃ stem : List Char,
      cacheKey selector = "_sel_" ++ String.ofList stem ∧
      stem.length ≤ 20 ∧ IsSlug stem ∧
      isIdentifier (cacheKey selector) = true ∧
      cacheKey selector ∉ Names.introduced ∧
      (∀ handlerId, cacheKey selector ≠ Names.functionName handlerId) ∧
      cacheKey (String.ofList stem) = cacheKey selector ∧
      (collapsed selector.toList).take 20 = stem ∧
      truncateBytes? 20 (collapsed selector.toList) = some stem ∧
      ∀ other : String, cacheKey other = cacheKey selector ↔
        (collapsed other.toList).take 20 = stem := by
  have kept : slug (slug selector.toList) = slug selector.toList :=
    (isSlug_slug selector.toList).slug_eq (length_slug_le _)
  refine ⟨slug selector.toList, rfl, length_slug_le _, isSlug_slug _,
    isIdentifier_cacheKey selector, fun member => cacheKey_ne member selector rfl,
    cacheKey_ne_functionName selector, cacheKey_eq_iff.mpr ?_, (slug_eq_take _).symm,
    truncateBytes?_collapsed _, fun other => ?_⟩
  · rw [String.toList_ofList, kept]
  · rw [cacheKey_eq_iff, slug_eq_take other.toList, maxSlugLength]

example : cacheKey "ul.größe > li:first-child" = "_sel_ul_gr_e_li_first_chi" := by decide

end Caching
end Hyperscript
