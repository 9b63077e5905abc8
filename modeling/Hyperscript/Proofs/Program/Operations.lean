import Hyperscript.Proofs.Number.Remainder
import Hyperscript.Proofs.Program.Constants

/-! What the operators of generated code give on constants. They convert their operands where
the operands are not of the type that they work on. Whatever the compiler computes is what the
operator in the code gives, except that the compiler compares values of different types as
unequal and the code converts them to numbers first. -/
namespace Hyperscript

/-- The types that the operators tell apart. -/
inductive Literal.Kind where
  | null
  | boolean
  | number
  | text
deriving DecidableEq

def Literal.kind : Literal → Literal.Kind
  | .null => .null
  | .bool _ => .boolean
  | .number _ => .number
  | .string _ => .text

namespace Program

/-- How texts become numbers and how they are ordered is left open, as nothing that the compiler
computes asks for it. The remainder is known by what it has to be. -/
structure Conventions where
  numberOf : String → Float
  precedes : String → String → Bool
  remainder : Float → Float → Float
  isRemainder (n d : Float) : Binary64.IsRemainder n d (remainder n d)

namespace Conventions

def isTruthy : Literal → Bool
  | .null => false
  | .bool value => value
  | .number value => !(value == 0 || value.isNaN)
  | .string value => value != ""

def toText : Literal → String
  | .null => "null"
  | .bool value => if value then "true" else "false"
  | .number value => Number.text value
  | .string value => value

/-- Same type and same value. Numbers are compared as numbers. -/
def identical : Literal → Literal → Bool
  | .number left, .number right => left == right
  | left, right => decide (left = right)

variable (conventions : Conventions)

def toNumber : Literal → Float
  | .null => 0
  | .bool value => if value then 1 else 0
  | .number value => value
  | .string value => conventions.numberOf value

/-- Values of different types are compared as numbers, but `null` equals only itself. -/
def equal (left right : Literal) : Bool :=
  if left.kind = right.kind then identical left right
  else if left.kind = .null ∨ right.kind = .null then false
  else conventions.toNumber left == conventions.toNumber right

/-- Two texts are ordered as texts, all else as numbers, of which NaN has no place. -/
def less? : Literal → Literal → Option Bool
  | .string left, .string right => some (conventions.precedes left right)
  | left, right =>
    if (conventions.toNumber left).isNaN || (conventions.toNumber right).isNaN then none
    else some (conventions.toNumber left < conventions.toNumber right)

/-- Texts are put together, all else is added. -/
def add (left right : Literal) : Literal :=
  if left.kind = .text ∨ right.kind = .text then .string (toText left ++ toText right)
  else .number (conventions.toNumber left + conventions.toNumber right)

/-- The value of an infix operator. -/
def result? (symbol : String) (left right : Literal) : Option Literal :=
  match symbol with
  | "+" => some (conventions.add left right)
  | "-" => some (.number (conventions.toNumber left - conventions.toNumber right))
  | "*" => some (.number (conventions.toNumber left * conventions.toNumber right))
  | "/" => some (.number (conventions.toNumber left / conventions.toNumber right))
  | "%" =>
    some (.number (conventions.remainder (conventions.toNumber left) (conventions.toNumber right)))
  | "<" => some (.bool (conventions.less? left right == some true))
  | ">" => some (.bool (conventions.less? right left == some true))
  | "<=" => some (.bool (conventions.less? right left == some false))
  | ">=" => some (.bool (conventions.less? left right == some false))
  | "==" => some (.bool (conventions.equal left right))
  | "!=" => some (.bool (!conventions.equal left right))
  | "===" => some (.bool (identical left right))
  | "!==" => some (.bool (!identical left right))
  | "&&" => some (if isTruthy left then right else left)
  | "||" => some (if isTruthy left then left else right)
  | _ => none

/-- The value of an expression made of literals and of the operators on two operands. -/
def value? : Expr → Option Literal
  | .literal value => some value
  | .concat left right => do
    return conventions.add (.string (toText (← value? left))) (.string (toText (← value? right)))
  | .binary symbol left right => do conventions.result? symbol (← value? left) (← value? right)
  | _ => none

section Conversions

theorem isTruthy_eq (value : Literal) : isTruthy value = value.isTruthy := by
  cases value with
  | null | bool | string => rfl
  | number value =>
    rw [isTruthy, Literal.isTruthy, ← Binary64.isZero_eq, ← Binary64.isNaN_eq, Bool.not_or]

theorem toText_eq (value : Literal) : toText value = value.text := by
  cases value with
  | null | number | string => rfl
  | bool value => cases value <;> rfl

theorem identical_eq (left right : Literal) : identical left right = left.strictEquals right := by
  cases left <;> cases right <;> simp [identical, Literal.strictEquals, beq_eq_decide]

/-- Two operands of different types, none of them `null`. -/
def IsMixed (left right : Literal) : Prop :=
  left.kind ≠ right.kind ∧ left.kind ≠ .null ∧ right.kind ≠ .null

theorem strictEquals_of_kind_ne {left right : Literal} (different : left.kind ≠ right.kind) :
    left.strictEquals right = false := by
  cases left <;> cases right <;> first | rfl | exact absurd rfl different

variable {conventions}

theorem equal_eq {left right : Literal} (unmixed : ¬ IsMixed left right) :
    conventions.equal left right = left.strictEquals right := by
  unfold equal
  split
  next => exact identical_eq left right
  next different =>
    have null : left.kind = .null ∨ right.kind = .null := by
      unfold IsMixed at unmixed
      tauto
    rw [if_pos null, strictEquals_of_kind_ne different]

end Conversions

section Agreement

variable {conventions : Conventions}

theorem less?_number (left right : Float) :
    (conventions.less? (.number left) (.number right) == some true) = decide (left < right) := by
  change ((if left.isNaN || right.isNaN then none else some (decide (left < right))) == _) = _
  by_cases below : left < right
  · obtain ⟨first, second⟩ := Binary64.isNaN_of_lt below
    rw [first, second]
    simp [below]
  · split <;> simp [below]

theorem not_less?_number (left right : Float) :
    (conventions.less? (.number right) (.number left) == some false) = decide (left ≤ right) := by
  change ((if right.isNaN || left.isNaN then none else some (decide (right < left))) == _) = _
  have order := Binary64.le_iff_not_lt left right
  generalize left.isNaN = first at order ⊢
  generalize right.isNaN = second at order ⊢
  cases first <;> cases second <;> simp [order]

theorem result?_onNumbers {operator : Operator} {symbol : String} {left right : Float}
    {value : Literal} (written : operator.symbol? = some symbol)
    (computed : operator.onNumbers? left right = some value) :
    conventions.result? symbol (.number left) (.number right) = some value := by
  have remainder : conventions.remainder left right = Binary64.remainder left right :=
    Binary64.isRemainder_iff.mp (conventions.isRemainder left right)
  cases operator with
  | add | subtract | multiply =>
    cases written
    cases computed
    rfl
  | divide =>
    cases written
    simp only [Operator.onNumbers?, Option.ite_none_left_eq_some] at computed
    exact computed.2
  | remainder =>
    cases written
    simp only [Operator.onNumbers?, Option.ite_none_left_eq_some] at computed
    rw [← computed.2, ← remainder]
    rfl
  | less =>
    cases written
    cases computed
    exact congrArg (some ∘ Literal.bool) (less?_number left right)
  | greater =>
    cases written
    cases computed
    exact congrArg (some ∘ Literal.bool) (less?_number right left)
  | lessOrEqual =>
    cases written
    cases computed
    exact congrArg (some ∘ Literal.bool) (not_less?_number left right)
  | greaterOrEqual =>
    cases written
    cases computed
    exact congrArg (some ∘ Literal.bool) (not_less?_number right left)
  | concat | and | or | equal | unequal | identical | distinct => cases computed

theorem result?_onLiterals {operator : Operator} {symbol : String} {left right value : Literal}
    (written : operator.symbol? = some symbol)
    (computed : operator.onLiterals? left right = some value)
    (unmixed : operator = .equal ∨ operator = .unequal → ¬ IsMixed left right) :
    conventions.result? symbol left right = some value := by
  cases operator with
  | concat => cases written
  | and | or =>
    cases written
    rw [result?, isTruthy_eq]
    exact computed
  | equal =>
    cases written
    rw [result?, equal_eq (unmixed (.inl rfl))]
    exact computed
  | unequal =>
    cases written
    rw [result?, equal_eq (unmixed (.inr rfl))]
    exact computed
  | add | subtract | multiply | divide | remainder | less | greater | lessOrEqual
  | greaterOrEqual | identical | distinct =>
    simp only [Operator.onLiterals?] at computed
    split at computed
    · exact result?_onNumbers written computed
    · cases computed

theorem value?_concat (left right : Literal) :
    conventions.value? (.concat (.literal left) (.literal right)) =
      some (.string (left.text ++ right.text)) := by
  rw [← toText_eq left, ← toText_eq right]
  rfl

theorem value?_identical (left right : Literal) :
    conventions.value? (.binary "===" (.literal left) (.literal right)) =
      some (.bool (left.strictEquals right)) := by
  rw [← identical_eq]
  rfl

theorem value?_distinct (left right : Literal) :
    conventions.value? (.binary "!==" (.literal left) (.literal right)) =
      some (.bool (!left.strictEquals right)) := by
  rw [← identical_eq]
  rfl

end Agreement

theorem ofText?_eq_equal_iff {operator : String} :
    Operator.ofText? operator = some .equal ↔ operator ∈ ["is", "=="] := by
  fun_cases Operator.ofText? operator <;> simp_all

theorem ofText?_eq_unequal_iff {operator : String} :
    Operator.ofText? operator = some .unequal ↔ operator ∈ ["is not", "!="] := by
  fun_cases Operator.ofText? operator <;> simp_all

theorem mem_equalities_iff {operator : String} :
    operator ∈ ["is", "==", "is not", "!="] ↔
      Operator.ofText? operator = some .equal ∨ Operator.ofText? operator = some .unequal := by
  rw [ofText?_eq_equal_iff, ofText?_eq_unequal_iff, ← List.mem_append]
  rfl

theorem ofBinary?_eq {operator : String} {known : Operator} (left right : Expr)
    (found : Operator.ofText? operator = some known) (symbolic : known ≠ .concat) :
    Expr.ofBinary? operator left right = known.symbol?.map (.binary · left right) := by
  rw [Expr.ofBinary?, found]
  cases known <;> first | rfl | exact absurd rfl symbolic

/-- An operation that the compiler computes has code, and the code has the value that the
compiler computes. The one exception are equalities of values of different types: there the
value is that of the strict operator, while the code has the one that converts. -/
theorem value?_of_combine? (conventions : Conventions) {operator : String}
    {left right value : Literal} (combined : Literal.combine? operator left right = some value) :
    ∃ form, Expr.ofBinary? operator (.literal left) (.literal right) = some form ∧
      (Expression.generate (.binary operator (.literal left) (.literal right))).value =
        some form.render ∧
      (¬ (operator ∈ ["is", "==", "is not", "!="] ∧ IsMixed left right) →
        conventions.value? form = some value) ∧
      (operator ∈ ["is", "=="] → form = .binary "==" (.literal left) (.literal right) ∧
        conventions.value? (.binary "===" (.literal left) (.literal right)) = some value) ∧
      (operator ∈ ["is not", "!="] → form = .binary "!=" (.literal left) (.literal right) ∧
        conventions.value? (.binary "!==" (.literal left) (.literal right)) = some value) := by
  obtain ⟨known, found, computed⟩ := Option.bind_eq_some_iff.mp combined
  obtain ⟨form, code, _⟩ := Engine.ofBinary?_of_combine? combined
  have text : (Expression.generate (.binary operator (.literal left) (.literal right))).value =
      some form.render := by
    rw [Expr.value_generate]
    exact congrArg (Option.map Expr.render) code
  refine ⟨form, code, text, fun unmixed => ?_, fun equality => ?_, fun equality => ?_⟩
  · by_cases isConcat : known = .concat
    · rw [isConcat] at found computed
      rw [Expr.ofBinary?, found] at code
      cases code
      cases computed
      exact value?_concat left right
    · rw [ofBinary?_eq _ _ found isConcat] at code
      obtain ⟨symbol, written, rfl⟩ := Option.map_eq_some_iff.mp code
      refine result?_onLiterals written computed fun equality mixed => unmixed ⟨?_, mixed⟩
      rw [mem_equalities_iff, found]
      exact equality.imp (congrArg some) (congrArg some)
  · rw [← ofText?_eq_equal_iff, found] at equality
    cases equality
    rw [ofBinary?_eq _ _ found (by decide)] at code
    exact ⟨(Option.some.inj code).symm, (value?_identical left right).trans computed⟩
  · rw [← ofText?_eq_unequal_iff, found] at equality
    cases equality
    rw [ofBinary?_eq _ _ found (by decide)] at code
    exact ⟨(Option.some.inj code).symm, (value?_distinct left right).trans computed⟩

/-- Conventions under which no text but the empty one is a number. -/
def plain : Conventions where
  numberOf text := if text == "" then 0 else Float.nan
  precedes left right := left < right
  remainder := Binary64.remainder
  isRemainder := Binary64.isRemainder_remainder

theorem value?_of_combine?_plain :
    Literal.combine? "%" (.number (-7)) (.number 3) = some (.number (-1)) ∧
      (∃ form, Expr.ofBinary? "%" (.literal (.number (-7))) (.literal (.number 3)) = some form ∧
        plain.value? form = some (.number (-1))) ∧
      Literal.combine? "is" (.number 1) (.bool true) = some (.bool false) ∧
      plain.value? (.binary "===" (.literal (.number 1)) (.literal (.bool true))) =
        some (.bool false) ∧
      plain.value? (.binary "==" (.literal (.number 1)) (.literal (.bool true))) =
        some (.bool true) := by
  have remainder : Literal.combine? "%" (.number (-7)) (.number 3) = some (.number (-1)) := by
    decide +kernel
  have equality : Literal.combine? "is" (.number 1) (.bool true) = some (.bool false) := by
    decide +kernel
  obtain ⟨form, code, _, same, _⟩ := value?_of_combine? plain remainder
  obtain ⟨_, _, _, _, strict, _⟩ := value?_of_combine? plain equality
  exact ⟨remainder, ⟨form, code, same (by simp)⟩, equality, (strict (by simp)).2,
    by decide +kernel⟩

end Conventions
end Program
end Hyperscript
