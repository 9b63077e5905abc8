import Hyperscript.Code.Statement

/-! Generating code within a module. The context of the module is at hand all the way, and takes
up a selector where it is read through a variable. -/
namespace Hyperscript

/-- The context so far, and the notes made. -/
structure Generation.State where
  context : Context
  notes : List Note := []

abbrev Generation (α : Type) := StateM Generation.State α

namespace Generation

/-- Read a selector through a variable. -/
def read (key selector : String) : Generation Unit :=
  modify fun state => { state with context := state.context.cacheSelector key selector }

def remark (note : Note) : Generation Unit :=
  modify fun state => { state with notes := state.notes ++ [note] }

/-- The elements of a selector: its variable if it has one, else a query. -/
def elements (selector : String) : Option String → Generation String
  | some key => do
    read key selector
    return key
  | none => return Expression.query selector

/-- The code of an expression, if it has one. Operands are generated from left to
right until one has none. -/
def expression : Node → Generation (Option String)
  | .literal value => return some (Expression.literal value)
  | .identifier name =>
    return if Node.indexNames.contains name then some Names.indexVar
      else Expression.identifier? name
  | .variableRef name =>
    return if Node.indexNames.contains name then some Names.indexVar
      else some (Expression.localVariable name)
  | .selector value cacheKey => some <$> elements value cacheKey
  | .binary operator left right => do
    let some left ← expression left | return none
    let some right ← expression right | return none
    return Expression.binary? operator left right
  | .unary operator operand => do
    let some operand ← expression operand | return none
    return Expression.unary? operator operand
  | .member object property => do
    let some object ← expression object | return none
    return some (Expression.member object property)
  | .command .. | .ifElse .. | .repeatTimes .. | .forEach .. | .whileLoop .. | .event ..
  | .sequence .. | .unknown => return none

/-- The code of several expressions, if all of them have one. -/
def expressions : List Node → Generation (Option (List String))
  | [] => return some []
  | node :: nodes => do
    let some code ← expression node | return none
    let some codes ← expressions nodes | return none
    return some (code :: codes)

/-- Add, remove or toggle a class on the handler's element or on a target. -/
def classCommand (method : String) (args : List Node) (target : Option Node) :
    Generation (Option String) :=
  match Statement.className? args with
  | none => return none
  | some name => do
    let call := "classList." ++ method ++ "(" ++ Text.quoted name ++ ")"
    match target with
    | none => return some (Names.contextVar ++ ".me." ++ call ++ ";")
    | some (.selector value cacheKey) =>
      let elements ← elements value cacheKey
      return some (elements ++ ".forEach((el) => el." ++ call ++ ");")
    | some target =>
      let some target ← expression target | return none
      return some (target ++ "." ++ call ++ ";")

def command (name : String) (args : List Node) (target : Option Node) :
    Generation (Option String) :=
  match name with
  | "halt" => return some ("throw " ++ Names.member "HALT" ++ ";")
  | "exit" => return some ("throw " ++ Names.member "EXIT" ++ ";")
  | "return" =>
    match args with
    | [] => return some "return;"
    | value :: _ => do
      let some value ← expression value | return none
      return some ("return " ++ value ++ ";")
  | "throw" =>
    match args with
    | [] => return none
    | value :: _ => do
      let some value ← expression value | return none
      return some ("throw " ++ value ++ ";")
  | "log" => do
    let some values ← expressions args | return none
    return some ("console.log(" ++ Text.join ", " values ++ ");")
  | "add" | "remove" | "toggle" => classCommand name args target
  | "set" =>
    match args with
    | [.variableRef place, value] => do
      let some place ← expression (.variableRef place) | return none
      let some value ← expression value | return none
      return some (place ++ " = " ++ value ++ ";")
    | _ => return none
  | "wait" =>
    match args with
    | [] => return none
    | delay :: _ => do
      let some delay ← expression delay | return none
      return some ("await new Promise((resolve) => setTimeout(resolve, " ++ delay ++ "));")
  | _ => return none

/-- A node that is no statement. -/
def skip (kind : Kind) : Generation (Option String) := do
  remark (.nodeSkipped kind.name)
  return none

mutual

/-- The code of a statement, if it has any. -/
def statement : Node → Generation (Option String)
  | .command name args target => do
    let code ← command name args target
    if code.isNone then remark (.commandWithoutOutput name)
    return code
  | .ifElse condition thenBranch none => do
    let some condition ← expression condition | return none
    let thenCode ← Text.joinLines <$> statements thenBranch
    return some (Statement.conditional condition thenCode none)
  | .ifElse condition thenBranch (some elseBranch) => do
    let some condition ← expression condition | return none
    let thenCode ← Text.joinLines <$> statements thenBranch
    let elseCode ← Text.joinLines <$> statements elseBranch
    return some (Statement.conditional condition thenCode (some elseCode))
  | .repeatTimes none body => do
    let inner ← Text.joinLines <$> statements body
    return some (Statement.block Statement.foreverHeader inner)
  | .repeatTimes (some count) body => do
    let some count ← expression count | return none
    let inner ← Text.joinLines <$> statements body
    return some (Statement.block (Statement.countedHeader count) inner)
  | .forEach itemName collection body => do
    let some collection ← expression collection | return none
    let inner ← Text.joinLines <$> statements body
    return some (Statement.block (Statement.forEachHeader itemName collection) inner)
  | .whileLoop condition body => do
    let some condition ← expression condition | return none
    let inner ← Text.joinLines <$> statements body
    return some (Statement.block (Statement.whileHeader condition) inner)
  | .sequence commands _ => do
    let code ← Text.joinLines <$> statements commands
    return some code
  | .event .. => skip .event
  | .literal .. => skip .literal
  | .binary .. => skip .binary
  | .unary .. => skip .unary
  | .selector .. => skip .selector
  | .identifier .. => skip .identifier
  | .variableRef .. => skip .variableRef
  | .member .. => skip .member
  | .unknown => skip .unknown

def statements : List Node → Generation (List String)
  | [] => return []
  | node :: nodes => do
    let code ← statement node
    let codes ← statements nodes
    return match code with
      | some code => if code = "" then codes else code :: codes
      | none => codes

end

def body (nodes : List Node) : Generation String := Text.joinLines <$> statements nodes

end Generation
end Hyperscript
