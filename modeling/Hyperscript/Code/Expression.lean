import Hyperscript.Code.Emission
import Hyperscript.Code.Names
import Hyperscript.Script.Operator
import Hyperscript.Script.Node
import Hyperscript.Text.Identifier
import Hyperscript.Text.Quoted

/-! Expressions as code. Statements and unknown nodes have no expression form,
nor has an expression with an operator or a name that code cannot spell. -/
namespace Hyperscript.Expression

/-- All elements matching a selector. -/
def query (selector : String) : String :=
  "document.querySelectorAll(" ++ Text.quoted selector ++ ")"

/-- Negative numbers are put in brackets. -/
def literal : Literal → String
  | .null => "null"
  | .bool true => "true"
  | .bool false => "false"
  | .number value =>
    if Binary64.isBelowZero value then "(" ++ Number.text value ++ ")" else Number.text value
  | .string value => Text.quoted value

def localVariable (name : String) : String :=
  Names.contextVar ++ ".locals[" ++ Text.quoted (Text.withoutColons name) ++ "]"

/-- Names with a meaning of their own, then any plain name. -/
def identifier? (name : String) : Option String :=
  match name with
  | "me" | "my" | "I" => some (Names.contextVar ++ ".me")
  | "it" | "its" | "result" => some (Names.contextVar ++ ".it")
  | "event" => some Names.eventParam
  | "target" => some (Names.eventParam ++ ".target")
  | name => if Text.isIdentifier name then some name else none

def binary? (operator left right : String) : Option String := do
  match ← Operator.ofText? operator with
  | .concat => return "(String(" ++ left ++ ") + String(" ++ right ++ "))"
  | operator => return "(" ++ left ++ " " ++ (← operator.symbol?) ++ " " ++ right ++ ")"

def unary? (operator operand : String) : Option String :=
  match operator with
  | "not" | "no" | "!" => some ("(!" ++ operand ++ ")")
  | "-" => some ("(-" ++ operand ++ ")")
  | "+" => some ("(+" ++ operand ++ ")")
  | _ => none

def member (object property : String) : String :=
  if Text.isIdentifier property then object ++ "." ++ property
  else object ++ "[" ++ Text.quoted property ++ "]"

/-- The elements of a selector: its variable if it has one, else a query. -/
def elements (selector : String) : Option String → Emission String
  | some key => do
    Emission.read key selector
    return key
  | none => return query selector

/-- The code of an expression, if it has one. Operands are generated from left to
right until one has none. -/
def generate : Node → Emission (Option String)
  | .literal value => return some (literal value)
  | .identifier name =>
    return if Node.indexNames.contains name then some Names.indexVar else identifier? name
  | .variableRef name =>
    return if Node.indexNames.contains name then some Names.indexVar else some (localVariable name)
  | .selector value cacheKey => some <$> elements value cacheKey
  | .binary operator left right => do
    let some left ← generate left | return none
    let some right ← generate right | return none
    return binary? operator left right
  | .unary operator operand => do
    let some operand ← generate operand | return none
    return unary? operator operand
  | .member object property => do
    let some object ← generate object | return none
    return some (member object property)
  | .command .. | .ifElse .. | .repeatTimes .. | .forEach .. | .whileLoop .. | .event ..
  | .sequence .. | .unknown => return none

/-- The code of several expressions, if all of them have one. -/
def generateAll : List Node → Emission (Option (List String))
  | [] => return some []
  | node :: nodes => do
    let some code ← generate node | return none
    let some codes ← generateAll nodes | return none
    return some (code :: codes)

end Hyperscript.Expression
