import Hyperscript.Json.Decode
import Hyperscript.Json.Token
import Hyperscript.Optimization.Optimizer

/-! Compiler options, as a JSON value and as JSON text. Text is decoded while it
is read, so the first fault of the text is the one reported, be it one of JSON
or one of the options. -/
namespace Hyperscript

structure Options where
  effort : Effort := .full
  /-- Handler ids are this text and a number, counted from one. -/
  idStem : String := "h"
  /-- Passes that do not run whatever the effort. -/
  disabled : List String := []
deriving DecidableEq

namespace Effort

/-- Any integer but those of a byte is out of range; of a byte, three values are
levels. -/
def ofInt (level : Int) : Except DecodeError Effort :=
  if level < 0 || 255 < level then .error (.outOfRange level "u8")
  else
    match ofNat? level.toNat with
    | some effort => .ok effort
    | Option.none => .error (.unknownLevel level)

def decode : Json → Except DecodeError Effort
  | .number (.integer level) => ofInt level
  | value => value.refuse "u8"

end Effort

namespace Options

/-- The fields, in declaration order. -/
inductive Slot where
  | effort
  | idStem
  | disabled
deriving DecidableEq

namespace Slot

def name : Slot → String
  | .effort => "optimizationLevel"
  | .idStem => "handlerIdPrefix"
  | .disabled => "disabledPasses"

def all : List Slot := [.effort, .idStem, .disabled]

end Slot

def recordName : String := "CompilerOptions"

def record : Json.Record Options where
  name := recordName
  blank := {}
  fields :=
    [⟨Slot.effort.name, fun value options => do
        return { options with effort := ← Effort.decode value }⟩,
      ⟨Slot.idStem.name, fun value options => do
        return { options with idStem := ← value.toText }⟩,
      ⟨Slot.disabled.name, fun value options => do
        return { options with disabled := ← value.toTexts }⟩]
  closed := true

def decode (value : Json) : Except DecodeError Options := record.decode value

def encode (options : Options) : Json :=
  .object
    [(Slot.effort.name, .number (.integer options.effort.toNat)),
      (Slot.idStem.name, .string options.idStem),
      (Slot.disabled.name, .array (options.disabled.map .string))]

inductive ReadError where
  | malformed
  | decode (error : DecodeError)

/-- What may come next in a text. -/
inductive Phase where
  /-- The options themselves. -/
  | start
  /-- A member's name, or the closing brace of an object without members. -/
  | name (first : Bool)
  | colon (slot : Slot)
  /-- The value of a field. -/
  | value (slot : Slot)
  /-- The next field by position, or the closing bracket of an array without
  elements. -/
  | position (first : Bool)
  /-- A pass name, or the closing bracket of an empty list. -/
  | pass (first : Bool)
  | passSeparator
  /-- A comma, or the end of the options. -/
  | separator
  | finished

/-- Options read so far. By name, the fields seen are remembered; by position,
those still to come. -/
structure TextReader where
  options : Options := {}
  byName : Bool := true
  seen : List Slot := []
  ahead : List Slot := Slot.all
  phase : Phase := .start

namespace TextReader

/-- The value that a token starts, as far as refusals name it. -/
def valueOf? : Json.Token → Option Json
  | .null => some .null
  | .bool value => some (.bool value)
  | .number value => some (.number value)
  | .string value => some (.string value)
  | .openBracket => some (.array [])
  | .openBrace => some (.object [])
  | _ => none

def refuse (token : Json.Token) (wanted : String) : Except ReadError α :=
  match valueOf? token with
  | some value => .error (.decode (.wrongType value.describe wanted))
  | none => .error .malformed

def readName (reader : TextReader) (name : String) : Except ReadError TextReader :=
  match Slot.all.find? (·.name == name) with
  | none => .error (.decode (.unknownField name (Slot.all.map Slot.name)))
  | some slot =>
    if reader.seen.contains slot then .error (.decode (.duplicateField name))
    else .ok { reader with seen := slot :: reader.seen, phase := .colon slot }

def readValue (reader : TextReader) (slot : Slot) (token : Json.Token) :
    Except ReadError TextReader :=
  match slot, token with
  | .effort, .number (.integer level) =>
    match Effort.ofInt level with
    | .ok effort =>
      .ok { reader with options := { reader.options with effort }, phase := .separator }
    | .error error => .error (.decode error)
  | .effort, token => refuse token "u8"
  | .idStem, .string idStem =>
    .ok { reader with options := { reader.options with idStem }, phase := .separator }
  | .idStem, token => refuse token "a string"
  | .disabled, .openBracket => .ok { reader with phase := .pass true }
  | .disabled, token => refuse token "a sequence"

def step (reader : TextReader) (token : Json.Token) : Except ReadError TextReader :=
  match reader.phase, token with
  | .start, .openBrace => .ok { reader with byName := true, phase := .name true }
  | .start, .openBracket => .ok { reader with byName := false, phase := .position true }
  | .start, token => refuse token ("struct " ++ recordName)
  | .name true, .closeBrace => .ok { reader with phase := .finished }
  | .name _, .string name => reader.readName name
  | .colon slot, .colon => .ok { reader with phase := .value slot }
  | .value slot, token => reader.readValue slot token
  | .position true, .closeBracket => .ok { reader with phase := .finished }
  | .position _, token =>
    match reader.ahead with
    | slot :: ahead => { reader with ahead }.readValue slot token
    | [] => .error .malformed
  | .pass true, .closeBracket => .ok { reader with phase := .separator }
  | .pass _, .string pass =>
    let disabled := reader.options.disabled ++ [pass]
    .ok { reader with options := { reader.options with disabled }, phase := .passSeparator }
  | .pass _, token => refuse token "a string"
  | .passSeparator, .comma => .ok { reader with phase := .pass false }
  | .passSeparator, .closeBracket => .ok { reader with phase := .separator }
  | .separator, .comma =>
    if reader.byName then .ok { reader with phase := .name false }
    else if reader.ahead.isEmpty then .error .malformed
    else .ok { reader with phase := .position false }
  | .separator, .closeBrace =>
    if reader.byName then .ok { reader with phase := .finished } else .error .malformed
  | .separator, .closeBracket =>
    if reader.byName then .error .malformed else .ok { reader with phase := .finished }
  | _, _ => .error .malformed

end TextReader

def ofText (text : String) : Except ReadError Options := do
  let reader ← (Json.Token.scan text).foldlM TextReader.step {}
  match reader.phase with
  | .finished => .ok reader.options
  | _ => .error .malformed

end Options
end Hyperscript
