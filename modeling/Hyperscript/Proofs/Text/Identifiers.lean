import Hyperscript.Text.Pieces
import Hyperscript.Text.Identifier
import Mathlib.Tactic.Common

/-! The characters of identifiers. Each of them takes one byte, so a text of such characters can
be cut behind any byte. -/
namespace Hyperscript.Text

theorem toNat_lt_of_isDigit {c : Char} (digit : c.isDigit = true) : c.toNat < 128 := by
  have top : c.toNat ≤ 57 := of_decide_eq_true ((Bool.and_eq_true _ _).mp digit).2
  omega

theorem toNat_lt_of_isIdentifierRest {c : Char} (inWord : isIdentifierRest c = true) :
    c.toNat < 128 := by
  simp only [isIdentifierRest, Bool.or_eq_true, beq_iff_eq] at inWord
  obtain (word | rfl) | rfl := inWord
  · obtain letter | digit := (Bool.or_eq_true c.isAlpha c.isDigit).mp word
    · obtain upper | lower := (Bool.or_eq_true c.isUpper c.isLower).mp letter
      · have range : 65 ≤ c.toNat ∧ c.toNat ≤ 90 := of_decide_eq_true upper
        omega
      · have top : c.toNat ≤ 122 := of_decide_eq_true ((Bool.and_eq_true _ _).mp lower).2
        omega
    · exact toNat_lt_of_isDigit digit
  · decide
  · decide

/-- A name with an underscore in front. -/
theorem isIdentifier_underscore {name rest : List Char} (text : name = '_' :: rest)
    (all : ∀ c ∈ rest, isIdentifierRest c = true) :
    isIdentifier (String.ofList name) = true := by
  have unreserved : ∀ word ∈ reservedWords, word.toList.head? ≠ some '_' := by decide
  simp only [isIdentifier, Bool.and_eq_true, Bool.not_eq_true', String.toList_ofList, text]
  constructor
  · simpa [hasIdentifierShape, isIdentifierStart] using all
  · rw [List.contains_eq_mem, decide_eq_false_iff_not]
    intro reserved
    exact unreserved _ reserved (by simp)

theorem utf8Size_of_isIdentifierRest {c : Char} (inWord : isIdentifierRest c = true) :
    c.utf8Size = 1 := by
  have low : c.val.toNat < 128 := toNat_lt_of_isIdentifierRest inWord
  exact Char.utf8Size_eq_one_iff.mpr (UInt32.le_iff_toNat_le.mpr (Nat.le_of_lt_succ low))

def byteLength : List Char → Nat
  | [] => 0
  | c :: rest => c.utf8Size + byteLength rest

/-- The text up to a limit in bytes, and all of it where it is shorter. It fails where the limit
lies inside a character. -/
def truncateBytes? (limit : Nat) (text : List Char) : Option (List Char) :=
  if byteLength text ≤ limit then some text else takeBytes? limit text

section

variable {text : List Char} (narrow : ∀ c ∈ text, c.utf8Size = 1)

include narrow

theorem byteLength_of_narrow : byteLength text = text.length := by
  induction text with
  | nil => rfl
  | cons c rest ih =>
    obtain ⟨one, others⟩ := List.forall_mem_cons.mp narrow
    rw [byteLength, one, ih others, List.length_cons, Nat.add_comm]

theorem takeBytes?_of_narrow {count : Nat} (within : count ≤ text.length) :
    takeBytes? count text = some (text.take count) := by
  induction text generalizing count with
  | nil =>
    obtain rfl : count = 0 := Nat.le_zero.mp within
    rfl
  | cons c rest ih =>
    obtain ⟨one, others⟩ := List.forall_mem_cons.mp narrow
    cases count with
    | zero => rfl
    | succ count =>
      have later := ih others (Nat.le_of_succ_le_succ within)
      simp [takeBytes?, one, later]

theorem truncateBytes?_of_narrow (limit : Nat) :
    truncateBytes? limit text = some (text.take limit) := by
  rw [truncateBytes?, byteLength_of_narrow narrow]
  split
  next short => rw [List.take_of_length_le short]
  next long => exact takeBytes?_of_narrow narrow (Nat.le_of_not_le long)

end

end Hyperscript.Text
