import Hyperscript.Script.Literal

/-! Binary operators: their spellings in scripts, their form in the generated
code, and their value on literals. -/
namespace Hyperscript

inductive Operator where
  | add
  | subtract
  | multiply
  | divide
  | remainder
  | less
  | greater
  | lessOrEqual
  | greaterOrEqual
  | concat
  | and
  | or
  | equal
  | unequal
  | identical
  | distinct
deriving DecidableEq

namespace Operator

def ofText? : String → Option Operator
  | "+" => some .add
  | "-" => some .subtract
  | "*" => some .multiply
  | "/" => some .divide
  | "%" => some .remainder
  | "<" => some .less
  | ">" => some .greater
  | "<=" => some .lessOrEqual
  | ">=" => some .greaterOrEqual
  | "&" => some .concat
  | "and" | "&&" => some .and
  | "or" | "||" => some .or
  | "is" | "==" => some .equal
  | "is not" | "!=" => some .unequal
  | "===" => some .identical
  | "!==" => some .distinct
  | _ => none

/-- Arithmetic and order are defined on numbers only, and nothing is divided by
zero. -/
def onNumbers? (operator : Operator) (left right : Float) : Option Literal :=
  match operator with
  | .add => some (.number (left + right))
  | .subtract => some (.number (left - right))
  | .multiply => some (.number (left * right))
  | .divide => if Binary64.isZero right then none else some (.number (left / right))
  | .remainder =>
    if Binary64.isZero right then none else some (.number (Binary64.remainder left right))
  | .less => some (.bool (left < right))
  | .greater => some (.bool (left > right))
  | .lessOrEqual => some (.bool (left ≤ right))
  | .greaterOrEqual => some (.bool (left ≥ right))
  | _ => none

/-- The value of an operator on two literals, where the compiler computes it.
Equality is strict; `and` and `or` give one of the operands. -/
def onLiterals? (operator : Operator) (left right : Literal) : Option Literal :=
  match operator with
  | .concat => some (.string (left.text ++ right.text))
  | .and => some (if left.isTruthy then right else left)
  | .or => some (if left.isTruthy then left else right)
  | .equal => some (.bool (left.strictEquals right))
  | .unequal => some (.bool (!left.strictEquals right))
  | operator =>
    match left, right with
    | .number left, .number right => operator.onNumbers? left right
    | _, _ => none

/-- The infix form in generated code. Concatenation has none: it converts both
operands to strings first. -/
def symbol? : Operator → Option String
  | .add => some "+"
  | .subtract => some "-"
  | .multiply => some "*"
  | .divide => some "/"
  | .remainder => some "%"
  | .less => some "<"
  | .greater => some ">"
  | .lessOrEqual => some "<="
  | .greaterOrEqual => some ">="
  | .concat => none
  | .and => some "&&"
  | .or => some "||"
  | .equal => some "=="
  | .unequal => some "!="
  | .identical => some "==="
  | .distinct => some "!=="

end Operator

def Literal.combine? (operator : String) (left right : Literal) : Option Literal := do
  (← Operator.ofText? operator).onLiterals? left right

end Hyperscript
