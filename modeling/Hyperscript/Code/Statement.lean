import Hyperscript.Code.Expression
import Hyperscript.Text.Lines

/-! Statements as code, with the commands that a compiler knows by default. A
command outside these, a command whose arguments do not fit and a node that is no
statement give no code; a control statement gives none when its head has no
expression form. -/
namespace Hyperscript.Statement

/-- The class that a class command names: a selector that starts with a dot. -/
def className? : List Node → Option String
  | .selector value _ :: _ =>
    match value.toList with
    | '.' :: name => some (String.ofList name)
    | _ => none
  | _ => none

/-- Add, remove or toggle a class on the handler's element or on a target. -/
def classCommand (method : String) (args : List Node) (target : Option Node) :
    Emission (Option String) :=
  match className? args with
  | none => return none
  | some name => do
    let call := "classList." ++ method ++ "(" ++ Text.quoted name ++ ")"
    match target with
    | none => return some (Names.contextVar ++ ".me." ++ call ++ ";")
    | some (.selector value cacheKey) =>
      let elements ← Expression.elements value cacheKey
      return some (elements ++ ".forEach((el) => el." ++ call ++ ");")
    | some target =>
      let some target ← Expression.generate target | return none
      return some (target ++ "." ++ call ++ ";")

def command (name : String) (args : List Node) (target : Option Node) :
    Emission (Option String) :=
  match name with
  | "halt" => return some ("throw " ++ Names.member "HALT" ++ ";")
  | "exit" => return some ("throw " ++ Names.member "EXIT" ++ ";")
  | "return" =>
    match args with
    | [] => return some "return;"
    | value :: _ => do
      let some value ← Expression.generate value | return none
      return some ("return " ++ value ++ ";")
  | "throw" =>
    match args with
    | [] => return none
    | value :: _ => do
      let some value ← Expression.generate value | return none
      return some ("throw " ++ value ++ ";")
  | "log" => do
    let some values ← Expression.generateAll args | return none
    return some ("console.log(" ++ Text.join ", " values ++ ");")
  | "add" | "remove" | "toggle" => classCommand name args target
  | "set" =>
    match args with
    | [.variableRef place, value] => do
      let some place ← Expression.generate (.variableRef place) | return none
      let some value ← Expression.generate value | return none
      return some (place ++ " = " ++ value ++ ";")
    | _ => return none
  | "wait" =>
    match args with
    | [] => return none
    | delay :: _ => do
      let some delay ← Expression.generate delay | return none
      return some ("await new Promise((resolve) => setTimeout(resolve, " ++ delay ++ "));")
  | _ => return none

/-- Write a fragment one level further in. -/
def nest (sheet : Text.Sheet) (inner : String) : Text.Sheet :=
  if inner = "" then sheet else sheet.fragment (Text.indentBlock inner)

/-- A header, which may take several lines, and the block that it opens. -/
def block (header inner : String) : String :=
  ((nest (Text.Sheet.empty.fragment header) inner).line "\x7d").finish

def conditional (condition thenCode : String) (elseCode : Option String) : String :=
  let opened := nest (Text.Sheet.empty.line ("if (" ++ condition ++ ") \x7b")) thenCode
  match elseCode with
  | none => (opened.line "\x7d").finish
  | some elseCode => ((nest (opened.line "\x7d else \x7b") elseCode).line "\x7d").finish

def countedHeader (count : String) : String :=
  let index := Names.indexVar
  "for (let " ++ index ++ " = 0; " ++ index ++ " < " ++ count ++ "; " ++ index ++ "++) \x7b"

def foreverHeader : String := "while (true) \x7b"

def whileHeader (condition : String) : String := "while (" ++ condition ++ ") \x7b"

/-- The item is a constant of its own name, or a local variable of the script when
code cannot spell that name. -/
def forEachHeader (itemName collection : String) : String :=
  let item := Text.withoutColons itemName
  if Text.isIdentifier item then "for (const " ++ item ++ " of " ++ collection ++ ") \x7b"
  else
    "for (const _item of " ++ collection ++ ") \x7b\n  " ++ Names.contextVar ++ ".locals[" ++
      Text.quoted item ++ "] = _item;"

/-- A node that is no statement. -/
def skip (kind : Kind) : Emission (Option String) := do
  Emission.remark (.nodeSkipped kind.name)
  return none

mutual

/-- The code of a statement, if it has any. -/
def generate : Node → Emission (Option String)
  | .command name args target => do
    let code ← command name args target
    if code.isNone then Emission.remark (.commandWithoutOutput name)
    return code
  | .ifElse condition thenBranch none => do
    let some condition ← Expression.generate condition | return none
    let thenCode ← Text.joinLines <$> generateAll thenBranch
    return some (conditional condition thenCode none)
  | .ifElse condition thenBranch (some elseBranch) => do
    let some condition ← Expression.generate condition | return none
    let thenCode ← Text.joinLines <$> generateAll thenBranch
    let elseCode ← Text.joinLines <$> generateAll elseBranch
    return some (conditional condition thenCode (some elseCode))
  | .repeatTimes none body => do
    let inner ← Text.joinLines <$> generateAll body
    return some (block foreverHeader inner)
  | .repeatTimes (some count) body => do
    let some count ← Expression.generate count | return none
    let inner ← Text.joinLines <$> generateAll body
    return some (block (countedHeader count) inner)
  | .forEach itemName collection body => do
    let some collection ← Expression.generate collection | return none
    let inner ← Text.joinLines <$> generateAll body
    return some (block (forEachHeader itemName collection) inner)
  | .whileLoop condition body => do
    let some condition ← Expression.generate condition | return none
    let inner ← Text.joinLines <$> generateAll body
    return some (block (whileHeader condition) inner)
  | .sequence commands _ => do
    let code ← Text.joinLines <$> generateAll commands
    return some code
  | .event .. => skip .event
  | .literal .. => skip .literal
  | .binary .. => skip .binary
  | .unary .. => skip .unary
  | .selector .. => skip .selector
  | .identifier .. => skip .identifier
  | .variableRef .. => skip .variableRef
  | .member .. => skip .member
  | .unknown => skip .unknown

def generateAll : List Node → Emission (List String)
  | [] => return []
  | node :: nodes => do
    let code ← generate node
    let codes ← generateAll nodes
    return match code with
      | some code => if code = "" then codes else code :: codes
      | none => codes

end

def body (nodes : List Node) : Emission String := Text.joinLines <$> generateAll nodes

end Hyperscript.Statement
