import Hyperscript.Json.Decode
import Hyperscript.Script.Node

/-! Scripts from JSON. A node is an object with its kind under `type`, or an
array of the kind and the fields in declaration order. The members of an object
are read in document order and the first bad one is reported; only then are
missing fields. Members that a kind does not know are ignored. -/
namespace Hyperscript

/-- What a field of a node or of modifiers holds. -/
inductive Shape where
  | text
  | flag
  | literal
  | node
  | nodes
  | optionalNode
  | optionalNodes
  | optionalText
  | optionalNumber
  | modifiers

inductive Part where
  | text (value : String)
  | flag (value : Bool)
  | literal (value : Literal)
  | node (value : Node)
  | nodes (value : List Node)
  | optionalNode (value : Option Node)
  | optionalNodes (value : Option (List Node))
  | optionalText (value : Option String)
  | optionalNumber (value : Option Float)
  | modifiers (value : Modifiers)

abbrev Parts := List (String × Part)

namespace Parts

def text? (parts : Parts) (name : String) : Option String :=
  match parts.lookup name with
  | some (.text value) => some value
  | _ => none

def node? (parts : Parts) (name : String) : Option Node :=
  match parts.lookup name with
  | some (.node value) => some value
  | _ => none

/-- A flag that is false unless read. -/
def flag (parts : Parts) (name : String) : Bool :=
  match parts.lookup name with
  | some (.flag value) => value
  | _ => false

def literal (parts : Parts) (name : String) : Literal :=
  match parts.lookup name with
  | some (.literal value) => value
  | _ => .null

/-- A list that is empty unless read. -/
def nodes (parts : Parts) (name : String) : List Node :=
  match parts.lookup name with
  | some (.nodes value) => value
  | _ => []

def optionalNode (parts : Parts) (name : String) : Option Node :=
  match parts.lookup name with
  | some (.optionalNode value) => value
  | _ => none

def optionalNodes (parts : Parts) (name : String) : Option (List Node) :=
  match parts.lookup name with
  | some (.optionalNodes value) => value
  | _ => none

def optionalText (parts : Parts) (name : String) : Option String :=
  match parts.lookup name with
  | some (.optionalText value) => value
  | _ => none

def optionalNumber (parts : Parts) (name : String) : Option Float :=
  match parts.lookup name with
  | some (.optionalNumber value) => value
  | _ => none

def modifiers (parts : Parts) (name : String) : Modifiers :=
  match parts.lookup name with
  | some (.modifiers value) => value
  | _ => {}

def requireText (parts : Parts) (name : String) : Except DecodeError String :=
  match parts.text? name with
  | some value => .ok value
  | none => .error (.missingField name)

def requireNode (parts : Parts) (name : String) : Except DecodeError Node :=
  match parts.node? name with
  | some value => .ok value
  | none => .error (.missingField name)

end Parts

abbrev Schema := List (String × Shape)

/-- The refusal of an array with more elements than there are fields. Inside a
node it says how many there may be. -/
def surplus (nested : Bool) (length fields : Nat) : DecodeError :=
  .wrongLength length <|
    if nested then Json.countElements fields ++ " in sequence" else "fewer elements in array"

def Literal.decode : Json → Except DecodeError Literal
  | .null => .ok .null
  | .bool value => .ok (.bool value)
  | .number value => .ok (.number value.toFloat)
  | .string value => .ok (.string value)
  | .array _ | .object _ => .error .notLiteral

namespace Modifiers

def schema : Schema :=
  [("once", .flag), ("passive", .flag), ("capture", .flag), ("prevent", .flag), ("stop", .flag),
    ("debounce", .optionalNumber), ("throttle", .optionalNumber), ("from", .optionalText)]

/-- A field of modifiers, which hold no nodes. -/
def decodePart : Shape → Json → Except DecodeError Part
  | .flag, value => value.toFlag.map .flag
  | .optionalNumber, value => (value.toOptional Json.toNumber).map .optionalNumber
  | _, value => (value.toOptional Json.toText).map .optionalText

def decodeMembers : List (String × Json) → Except DecodeError Parts
  | [] => .ok []
  | (name, value) :: members =>
    match schema.lookup name with
    | none => decodeMembers members
    | some shape => do
      let part ← decodePart shape value
      return (name, part) :: (← decodeMembers members)

def decodeElements (overflow : DecodeError) : Schema → List Json → Except DecodeError Parts
  | _, [] => .ok []
  | [], _ :: _ => .error overflow
  | (name, shape) :: fields, value :: values => do
    let part ← decodePart shape value
    return (name, part) :: (← decodeElements overflow fields values)

def ofParts (parts : Parts) : Modifiers where
  once := parts.flag "once"
  passive := parts.flag "passive"
  capture := parts.flag "capture"
  prevent := parts.flag "prevent"
  stop := parts.flag "stop"
  debounce := parts.optionalNumber "debounce"
  throttle := parts.optionalNumber "throttle"
  source := parts.optionalText "from"

/-- Modifiers inside a node (`nested`) or on their own. -/
def decode (nested : Bool) : Json → Except DecodeError Modifiers
  | .object members => (decodeMembers members).map ofParts
  | .array values =>
    (decodeElements (surplus nested values.length schema.length) schema values).map ofParts
  | value => value.refuse "struct EventModifiers"

end Modifiers

namespace Kind

def schema : Kind → Schema
  | .command => [("name", .text), ("args", .nodes), ("target", .optionalNode)]
  | .ifElse => [("condition", .node), ("thenBranch", .nodes), ("elseBranch", .optionalNodes)]
  | .repeatTimes => [("count", .optionalNode), ("body", .nodes)]
  | .forEach => [("itemName", .text), ("collection", .node), ("body", .nodes)]
  | .whileLoop => [("condition", .node), ("body", .nodes)]
  | .event => [("event", .text), ("modifiers", .modifiers), ("body", .nodes)]
  | .literal => [("value", .literal)]
  | .binary => [("operator", .text), ("left", .node), ("right", .node)]
  | .unary => [("operator", .text), ("operand", .node)]
  | .selector => [("value", .text), ("_cached", .flag), ("_cacheKey", .optionalText)]
  | .identifier => [("name", .text)]
  | .variableRef => [("name", .text)]
  | .member => [("object", .node), ("property", .text)]
  | .sequence => [("commands", .nodes), ("_unrolled", .flag)]
  | .unknown => []

/-- How many fields, counted from the first, have no default. -/
def required : Kind → Nat
  | .command | .ifElse | .whileLoop | .event | .selector | .identifier | .variableRef => 1
  | .forEach | .unary | .member => 2
  | .binary => 3
  | .repeatTimes | .literal | .sequence | .unknown => 0

def recordName : Kind → String
  | .command => "CommandNode"
  | .ifElse => "IfNode"
  | .repeatTimes => "RepeatNode"
  | .forEach => "ForEachNode"
  | .whileLoop => "WhileNode"
  | .event => "EventHandlerNode"
  | .literal => "LiteralNode"
  | .binary => "BinaryNode"
  | .unary => "UnaryNode"
  | .selector => "SelectorWire"
  | .identifier => "IdentifierNode"
  | .variableRef => "VariableNode"
  | .member => "MemberNode"
  | .sequence => "SequenceNode"
  | .unknown => "Unknown"

/-- The kind that a `type` names. Inside another node its place in the order of
kinds will do as well. -/
def decode (nested : Bool) : Json → Except DecodeError Kind
  | .string name => .ok (ofName name)
  | .number (.integer index) =>
    if nested && 0 ≤ index then .ok (ofIndex index.toNat)
    else (Json.number (.integer index)).refuse "variant identifier"
  | value => value.refuse "variant identifier"

/-- Build a node from its parts. Missing fields are reported in declaration
order. -/
def build (parts : Parts) : Kind → Except DecodeError Node
  | .command => do
    return .command (← parts.requireText "name") (parts.nodes "args") (parts.optionalNode "target")
  | .ifElse => do
    return .ifElse (← parts.requireNode "condition") (parts.nodes "thenBranch")
      (parts.optionalNodes "elseBranch")
  | .repeatTimes => return .repeatTimes (parts.optionalNode "count") (parts.nodes "body")
  | .forEach => do
    return .forEach (← parts.requireText "itemName") (← parts.requireNode "collection")
      (parts.nodes "body")
  | .whileLoop => return .whileLoop (← parts.requireNode "condition") (parts.nodes "body")
  | .event => do
    return .event (← parts.requireText "event") (parts.modifiers "modifiers") (parts.nodes "body")
  | .literal => return .literal (parts.literal "value")
  | .binary => do
    return .binary (← parts.requireText "operator") (← parts.requireNode "left")
      (← parts.requireNode "right")
  | .unary => return .unary (← parts.requireText "operator") (← parts.requireNode "operand")
  | .selector => do
    return .selector (← parts.requireText "value") (parts.optionalText "_cacheKey")
  | .identifier => return .identifier (← parts.requireText "name")
  | .variableRef => return .variableRef (← parts.requireText "name")
  | .member => return .member (← parts.requireNode "object") (← parts.requireText "property")
  | .sequence => return .sequence (parts.nodes "commands") (parts.flag "_unrolled")
  | .unknown => return .unknown

end Kind

namespace Node

def decodeType (nested : Bool) (members : List (String × Json)) : Except DecodeError Kind :=
  match members.lookup "type" with
  | none => .error (.missingField "type")
  | some value => Kind.decode nested value

/-- The contents of a field of that shape. Reading the value as a node or as
nodes is left to the caller and done on demand. -/
def decodePart (shape : Shape) (value : Json) (asNode : Unit → Except DecodeError Node)
    (asNodes : Unit → Except DecodeError (List Node)) : Except DecodeError Part :=
  match shape, value with
  | .text, value => value.toText.map .text
  | .flag, value => value.toFlag.map .flag
  | .literal, value => (Literal.decode value).map .literal
  | .node, _ => (asNode ()).map .node
  | .nodes, _ => (asNodes ()).map .nodes
  | .optionalNode, .null => .ok (.optionalNode none)
  | .optionalNode, _ => (asNode ()).map fun node => .optionalNode (some node)
  | .optionalNodes, .null => .ok (.optionalNodes none)
  | .optionalNodes, _ => (asNodes ()).map fun nodes => .optionalNodes (some nodes)
  | .optionalText, value => (value.toOptional Json.toText).map .optionalText
  | .optionalNumber, value => (value.toOptional Json.toNumber).map .optionalNumber
  | .modifiers, value => (Modifiers.decode true value).map .modifiers

mutual

/-- Read a node; `nested` says whether it stands inside another one. -/
def decode (nested : Bool) : Json → Except DecodeError Node
  | .object members => do
    let kind ← decodeType nested members
    let parts ← decodeMembers kind.schema members
    kind.build parts
  | .array [] => .error (.missingField "type")
  | .array (tag :: values) => do
    let kind ← Kind.decode nested tag
    let overflow := surplus true values.length kind.schema.length
    let parts ← decodeElements overflow kind.schema values
    if values.length < kind.required then
      .error (Json.tooShort values.length kind.recordName kind.schema.length)
    else kind.build parts
  | value => value.refuse "internally tagged enum Node"

def decodeList (nested : Bool) : Json → Except DecodeError (List Node)
  | .array values => decodeAll nested values
  | value => value.refuse "a sequence"

def decodeAll (nested : Bool) : List Json → Except DecodeError (List Node)
  | [] => .ok []
  | value :: values => do
    let node ← decode nested value
    return node :: (← decodeAll nested values)

def decodeMembers (schema : Schema) : List (String × Json) → Except DecodeError Parts
  | [] => .ok []
  | (name, value) :: members =>
    match schema.lookup name with
    | none => decodeMembers schema members
    | some shape => do
      let part ← decodePart shape value
        (fun _ => decode true value) (fun _ => decodeList true value)
      return (name, part) :: (← decodeMembers schema members)

def decodeElements (overflow : DecodeError) : Schema → List Json → Except DecodeError Parts
  | _, [] => .ok []
  | [], _ :: _ => .error overflow
  | (name, shape) :: fields, value :: values => do
    let part ← decodePart shape value
      (fun _ => decode true value) (fun _ => decodeList true value)
    return (name, part) :: (← decodeElements overflow fields values)

end

end Node
end Hyperscript
