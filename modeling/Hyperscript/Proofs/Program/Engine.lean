import Hyperscript.Proofs.Meaning.Action
import Hyperscript.Proofs.Program.Syntax

/-! Running generated code. An engine supplies the values, the page and everything that
the code calls; nothing but the class calls of the code itself changes classes. A run
can be looked at whenever it has used a selector or changed a class, so a handler that
never ends has outcomes too: one for each of those moments. -/
namespace Hyperscript.Program

open Meaning

/-- The elements of a page, in document order, and their classes. Elements outside the
page have classes as well. -/
structure Document (Element : Type) where
  elements : List Element
  hasClass : Element → String → Bool

/-- Whether an element has the class after the call, given whether it had it before. -/
def hasAfter (method : String) (had : Bool) : Bool :=
  match method with
  | "add" => true
  | "remove" => false
  | "toggle" => !had
  | _ => had

def Document.change {Element : Type} [DecidableEq Element] (document : Document Element)
    (element : Element) (method className : String) : Document Element :=
  { document with
    hasClass := fun other name =>
      if other = element ∧ name = className then hasAfter method (document.hasClass other name)
      else document.hasClass other name }

/-- A class that a selector can name without escapes. -/
def isClassName (name : String) : Bool :=
  match name.toList with
  | [] => false
  | first :: rest =>
    (first.isAlpha || first == '_') && rest.all fun c => c.isAlphanum || c == '_' || c == '-'

/-- What generated code runs on. What it asks of the engine may depend on the page and
may fail with a value; it changes the world and not the page. -/
structure Engine where
  Element : Type
  Value : Type
  World : Type
  Cursor : Type
  decidableElement : DecidableEq Element
  literal : Literal → Value
  isTruthy : Value → Bool
  isSame : Value → Value → Bool
  /-- A constant of the runtime. -/
  runtime : String → Value
  element? : Value → Option Element
  ofElements : List Element → Value
  elements? : Value → Option (List Element)
  elements?_ofElements (found : List Element) : elements? (ofElements found) = some found
  isSelector : String → Bool
  isSelector_class {name : String} : isClassName name → isSelector ("." ++ name)
  /-- The elements that match a selector. -/
  query : Document Element → String → List Element
  query_class (document : Document Element) {name : String} : isClassName name →
    query document ("." ++ name) = document.elements.filter (document.hasClass · name)
  selectorError : String → Value
  /-- The error of a class call with that name, where the name is none of a class. -/
  classError? : String → Option Value
  classError?_class {name : String} : isClassName name → classError? name = none
  /-- The error of a variable that is read before it has a value. -/
  unsetError : String → Value
  constantError : String → Value
  global : String → Document Element → Action World Value Value
  setGlobal : String → Value → Document Element → Action World Value Unit
  member : Value → String → Document Element → Action World Value Value
  setMember : Value → String → Value → Document Element → Action World Value Unit
  binary : String → Value → Value → Document Element → Action World Value Value
  unary : String → Value → Document Element → Action World Value Value
  toText : Value → Document Element → Action World Value Value
  increment : Value → Document Element → Action World Value Value
  /-- A method call without arguments. -/
  call : Value → String → Document Element → Action World Value Unit
  createContext : Value → Document Element → Action World Value Value
  log : List Value → Document Element → Action World Value Unit
  wait : Value → Document Element → Action World Value Unit
  iterate : Value → Document Element → Action World Value Cursor
  advance : Cursor → Document Element → Action World Value (Option (Value × Cursor))
  /-- A class call on something that is no element. -/
  changeOther : Value → String → String → Document Element → Action World Value Unit
  /-- A class call on each item of something that is no list of elements. -/
  changeOthers : Value → String → String → Document Element → Action World Value Unit

attribute [instance] Engine.decidableElement

structure ClassChange (Element : Type) where
  element : Element
  method : String
  className : String

/-- Why a run of code does not go on. -/
inductive Signal (Value : Type) where
  | thrown (value : Value)
  | returned (value : Option Value)
  /-- The run is only looked at so far. -/
  | interrupted

/-- What a variable stands for: a value, the counter of the repetition around, or
nothing yet. -/
inductive Bound (Value : Type) where
  | constant (value : Value)
  | counter
  | unset

abbrev Env (Value : Type) := List (String × Bound Value)

namespace Engine

variable (engine : Engine)

structure State where
  document : Document engine.Element
  world : engine.World
  /-- The counter of the innermost repetition. -/
  counter : engine.Value
  /-- The class changes made so far. -/
  changes : List (ClassChange engine.Element) := []
  /-- The selectors used so far, each with what it stood for. -/
  uses : List (String × engine.Value) := []

abbrev Effect (α : Type) : Type := Action engine.State (Signal engine.Value) α

def starting (document : Document engine.Element) (world : engine.World) : engine.State :=
  { document, world, counter := engine.literal .null }

variable {engine}

/-- The state after a use of a selector. -/
def State.noting (state : engine.State) (selector : String) (value : engine.Value) : engine.State :=
  { state with uses := state.uses ++ [(selector, value)] }

/-- The state after a class change. -/
def State.changing (state : engine.State) (element : engine.Element) (method className : String) :
    engine.State :=
  { state with
    document := state.document.change element method className
    changes := state.changes ++ [{ element, method, className }] }

/-- Something asked of the engine. -/
def request {α : Type} (ask : Document engine.Element → Action engine.World engine.Value α) :
    engine.Effect α :=
  fun start completion final =>
    ∃ world, final = { start with world } ∧
      ((∃ value, completion = .normal value ∧ ask start.document start.world (.normal value) world) ∨
        ∃ error, completion = .abrupt (.thrown error) ∧
          ask start.document start.world (.abrupt error) world)

/-- A moment at which the run may be looked at. -/
def pause : engine.Effect Unit :=
  fun start completion final =>
    (completion = .normal () ∨ completion = .abrupt .interrupted) ∧ final = start

def throwing {α : Type} (error : engine.Value) : engine.Effect α := .raise (.thrown error)

/-- What a thrown value is handled with. -/
def catching (action : engine.Effect Unit) (handle : engine.Value → engine.Effect Unit) :
    engine.Effect Unit :=
  fun start completion final =>
    (action start completion final ∧ ∀ error, completion ≠ .abrupt (.thrown error)) ∨
      ∃ error middle, action start (.abrupt (.thrown error)) middle ∧
        handle error middle completion final

/-- The elements of a selector at this moment. -/
def find (selector : String) : engine.Effect engine.Value :=
  if engine.isSelector selector then
    Action.read fun state => engine.ofElements (engine.query state.document selector)
  else throwing (engine.selectorError selector)

/-- Use a selector that stands for the value. -/
def use (selector : String) (value : engine.Value) : engine.Effect engine.Value := do
  Action.modify (·.noting selector value)
  pause
  return value

def lookup (env : Env engine.Value) (name : String) : engine.Effect engine.Value :=
  match env.lookup name with
  | some (.constant value) => return value
  | some .counter => Action.read (·.counter)
  | some .unset => throwing (engine.unsetError name)
  | none => request (engine.global name)

def assign (env : Env engine.Value) (name : String) (value : engine.Value) : engine.Effect Unit :=
  match env.lookup name with
  | some .counter => Action.modify fun state => { state with counter := value }
  | some (.constant _) => throwing (engine.constantError name)
  | some .unset => throwing (engine.unsetError name)
  | none => request (engine.setGlobal name value)

/-- Operators that give one of their operands. -/
def isLogical (symbol : String) : Bool := symbol == "&&" || symbol == "||"

/-- The left operand decides alone. -/
def isDecided (symbol : String) (left : engine.Value) : Bool :=
  (symbol == "&&" && !engine.isTruthy left) || (symbol == "||" && engine.isTruthy left)

def combine (symbol : String) (left right : engine.Value) : engine.Effect engine.Value :=
  if isLogical symbol then pure right else request (engine.binary symbol left right)

def eval (env : Env engine.Value) : Expr → engine.Effect engine.Value
  | .literal value => return engine.literal value
  | .variableRef name => lookup env name
  | .elements selector none => do use selector (← find selector)
  | .elements selector (some key) => do use selector (← lookup env key)
  | .dot object property | .subscript object property => do
    request (engine.member (← eval env object) property)
  | .concat left right => do
    let left ← request (engine.toText (← eval env left))
    let right ← request (engine.toText (← eval env right))
    request (engine.binary "+" left right)
  | .binary symbol left right => do
    let left ← eval env left
    if isDecided symbol left then return left
    else combine symbol left (← eval env right)
  | .unary symbol operand => do request (engine.unary symbol (← eval env operand))

def evalAll (env : Env engine.Value) : List Expr → engine.Effect (List engine.Value)
  | [] => return []
  | expr :: rest => do return (← eval env expr) :: (← evalAll env rest)

def changeElement (element : engine.Element) (method className : String) : engine.Effect Unit :=
  match engine.classError? className with
  | some error => throwing error
  | none => do
    Action.modify (·.changing element method className)
    pause

def changeElements (method className : String) : List engine.Element → engine.Effect Unit
  | [] => return ()
  | element :: rest => do
    changeElement element method className
    changeElements method className rest

def changeClass (receiver : engine.Value) (method className : String) : engine.Effect Unit :=
  match engine.element? receiver with
  | some element => changeElement element method className
  | none => request (engine.changeOther receiver method className)

def changeClasses (elements : engine.Value) (method className : String) : engine.Effect Unit :=
  match engine.elements? elements with
  | some found => changeElements method className found
  | none => request (engine.changeOthers elements method className)

/-- Set a local variable of the script. -/
def setLocal (env : Env engine.Value) (name : String) (value : engine.Effect engine.Value) :
    engine.Effect Unit := do
  let locals ← eval env (Expr.context "locals")
  request (engine.setMember locals (Text.withoutColons name) (← value))

def forever (body : engine.Effect Unit) : engine.Effect Unit :=
  .Loop (fun _ => do
    body
    return some ()) ()

def looping (condition : engine.Effect engine.Value) (body : engine.Effect Unit) :
    engine.Effect Unit :=
  .Loop (fun _ => do
    if engine.isTruthy (← condition) then
      body
      return some ()
    else return none) ()

/-- The counter of the start comes back, however the action ends. -/
def restoringCounter (action : engine.Effect Unit) : engine.Effect Unit :=
  action.settling fun start last => { last with counter := start.counter }

/-- Go on while the counter is below the count, which is asked for anew every time. The
body may set the counter. -/
def counting (count : engine.Effect engine.Value) (body : engine.Effect Unit) :
    engine.Effect Unit :=
  restoringCounter do
    Action.modify fun state => { state with counter := engine.literal (.number 0) }
    .Loop (fun _ => do
      let index ← Action.read (·.counter)
      if engine.isTruthy (← request (engine.binary "<" index (← count))) then
        body
        let following ← request (engine.increment (← Action.read (·.counter)))
        Action.modify fun state => { state with counter := following }
        return some ()
      else return none) ()

def iterating (collection : engine.Value) (body : engine.Value → engine.Effect Unit) :
    engine.Effect Unit := do
  let cursor ← request (engine.iterate collection)
  .Loop (fun cursor => do
    match ← request (engine.advance cursor) with
    | some (item, following) =>
      body item
      return some following
    | none => return none) cursor

/-- An item that code cannot name goes to a local variable of the script. -/
def storeItem (env : Env engine.Value) (itemName : String) (item : engine.Value) :
    engine.Effect Unit :=
  if Text.isIdentifier (Text.withoutColons itemName) then pure ()
  else setLocal env itemName (pure item)

mutual

def exec (env : Env engine.Value) : Stmt → engine.Effect Unit
  | .throwSignal signal => throwing (engine.runtime signal)
  | .throwValue value => do throwing (← eval env value)
  | .leave none => .raise (.returned none)
  | .leave (some value) => do .raise (.returned (some (← eval env value)))
  | .log values => do request (engine.log (← evalAll env values))
  | .changeClass receiver method className => do changeClass (← eval env receiver) method className
  | .changeClasses elements method className => do
    changeClasses (← eval env elements) method className
  | .setLocal name value => setLocal env name (eval env value)
  | .setIndex value => do assign env Names.indexVar (← eval env value)
  | .wait delay => do request (engine.wait (← eval env delay))
  | .branch condition thenBranch none => do
    if engine.isTruthy (← eval env condition) then execAll env thenBranch
  | .branch condition thenBranch (some elseBranch) => do
    if engine.isTruthy (← eval env condition) then execAll env thenBranch
    else execAll env elseBranch
  | .forever body => forever (execAll env body)
  | .counted count body =>
    counting (eval ((Names.indexVar, .counter) :: env) count)
      (execAll ((Names.indexVar, .counter) :: env) body)
  | .each itemName collection body => do
    let collection ← eval ((Stmt.itemVariable itemName, .unset) :: env) collection
    iterating collection fun item => do
      storeItem ((Stmt.itemVariable itemName, .constant item) :: env) itemName item
      execAll ((Stmt.itemVariable itemName, .constant item) :: env) body
  | .whileLoop condition body => looping (eval env condition) (execAll env body)
  | .group statements => execAll env statements

def execAll (env : Env engine.Value) : List Stmt → engine.Effect Unit
  | [] => return ()
  | statement :: rest => do
    exec env statement
    execAll env rest

end

/-- The variables that a function sets at its start. -/
def declare (env : Env engine.Value) : List (String × String) → engine.Effect (Env engine.Value)
  | [] => return env
  | (key, selector) :: rest => do
    let value ← find selector
    declare (env ++ [(key, .constant value)]) rest

/-- The halting signals end a guarded function; every other error leaves it. -/
def handle (event error : engine.Value) : engine.Effect Unit :=
  if engine.isSame error (engine.runtime "HALT") then do
    request (engine.call event "preventDefault")
    .raise (.returned none)
  else if engine.isSame error (engine.runtime "EXIT") then .raise (.returned none)
  else throwing error

/-- A call that a modifier asks for. -/
def calling (isAsked : Bool) (event : engine.Value) (method : String) : engine.Effect Unit :=
  if isAsked then request (engine.call event method) else pure ()

/-- What a function does after its declarations. -/
def perform (function : Function) (event : engine.Value) (env : Env engine.Value) :
    engine.Effect Unit := do
  calling function.modifiers.prevent event "preventDefault"
  calling function.modifiers.stop event "stopPropagation"
  execAll env function.body

/-- A function that can throw is guarded. -/
def guarded (function : Function) (event : engine.Value) (env : Env engine.Value) :
    engine.Effect Unit :=
  if function.facts.canThrow then catching (perform function event env) (handle event)
  else perform function event env

/-- The variables of every function. -/
def parameters (context event : engine.Value) : Env engine.Value :=
  [(Names.contextVar, .constant context), (Names.eventParam, .constant event)]

def run (function : Function) (event : engine.Value) : engine.Effect Unit := do
  let context ← request (engine.createContext event)
  guarded function event (← declare (parameters context event) function.declarations)

end Engine
end Hyperscript.Program
