import Hyperscript.Analysis.Wire
import Hyperscript.Json.Reader

/-! What there is to compile: handlers that share one generated module. A
document is an object with a list of them under `handlers`, or one event node. -/
namespace Hyperscript

structure HandlerInput where
  node : Node
  /-- Derived from the node when absent. -/
  facts : Option Facts := none
  /-- Bind to the elements matching this selector. -/
  selector : Option String := none

abbrev ModuleInput := List HandlerInput

namespace HandlerInput

def record : Json.Record HandlerInput where
  name := "HandlerInput"
  blank := { node := .unknown }
  fields :=
    [⟨"node", fun value input => do return { input with node := ← Node.decode false value }⟩,
      ⟨"analysis", fun value input => do
        return { input with facts := ← value.toOptional Facts.decode }⟩,
      ⟨"selector", fun value input => do
        return { input with selector := ← value.toOptional Json.toText }⟩]
  required := 1
  closed := true

def decode (value : Json) : Except DecodeError HandlerInput := record.decode value

end HandlerInput

inductive InputError where
  | malformed
  | badHandlers (error : DecodeError)
  | badNode (error : DecodeError)

namespace InputError

def message : InputError → String
  | .malformed => "input is not valid JSON"
  | .badHandlers error => "invalid `handlers` document: " ++ error.message
  | .badNode error => "invalid event node: " ++ error.message

end InputError

namespace ModuleInput

def record : Json.Record ModuleInput where
  name := "ModuleInput"
  blank := []
  fields := [⟨"handlers", fun value _ => do (← value.toElements).mapM HandlerInput.decode⟩]
  required := 1
  closed := true

/-- A document with `handlers` is a list of them, any other one is an event node. -/
def ofJson (document : Json) : Except InputError ModuleInput :=
  if (document.member? "handlers").isSome then
    (record.decode document).mapError .badHandlers
  else
    ((Node.decode false document).mapError .badNode).map fun node => [{ node }]

def ofText (source : String) : Except InputError ModuleInput :=
  match Json.read? source with
  | some document => ofJson document
  | none => .error .malformed

end ModuleInput
end Hyperscript
