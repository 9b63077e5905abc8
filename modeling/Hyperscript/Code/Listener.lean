import Hyperscript.Code.Names
import Hyperscript.Script.Node
import Hyperscript.Text.Lines
import Hyperscript.Text.Quoted

/-! Registering a handler function for an event and removing it again. -/
namespace Hyperscript.Listener

def flags (modifiers : Modifiers) : List String :=
  (if modifiers.once then ["once"] else []) ++
    (if modifiers.passive then ["passive"] else []) ++
    (if modifiers.capture then ["capture"] else [])

/-- The options object, or nothing when no option is set. -/
def options? (modifiers : Modifiers) : Option String :=
  match flags modifiers with
  | [] => none
  | flags => some ("\x7b " ++ Text.join ", " (flags.map (· ++ ": true")) ++ " \x7d")

/-- The call of a rate-limiting helper. -/
def limited (helper handler : String) (delay : Float) : String :=
  Names.member helper ++ "(" ++ handler ++ ", " ++ Number.text delay ++ ")"

/-- The handler with its rate limits: debouncing inside, throttling outside. -/
def reference (handler : String) (modifiers : Modifiers) : String :=
  let debounced :=
    match modifiers.debounceDelay? with
    | some delay => limited "debounce" handler delay
    | none => handler
  match modifiers.throttleDelay? with
  | some delay => limited "throttle" debounced delay
  | none => debounced

def call (target event reference : String) (modifiers : Modifiers) : String :=
  let options := (options? modifiers).toList
  match modifiers.delegate? with
  | some selector =>
    let args := [target, Text.quoted event, Text.quoted selector, reference] ++ options
    Names.member "delegate" ++ "(" ++ Text.join ", " args ++ ")"
  | none =>
    let args := [Text.quoted event, reference] ++ options
    target ++ ".addEventListener(" ++ Text.join ", " args ++ ")"

/-- The statement that registers a handler on its element. -/
def binding (handlerId event : String) (modifiers : Modifiers) : String :=
  let handler := reference (Names.functionName handlerId) modifiers
  call Names.element event handler modifiers ++ ";"

/-- The statement that removes a handler. A listener that fires once removes
itself. -/
def cleanup? (handlerId event : String) (modifiers : Modifiers) : Option String :=
  if modifiers.once then none
  else
    let capture := if modifiers.capture then ", true" else ""
    some (Names.element ++ ".removeEventListener(" ++ Text.quoted event ++ ", " ++
      Names.functionName handlerId ++ capture ++ ");")

end Hyperscript.Listener
