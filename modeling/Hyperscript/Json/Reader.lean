import Hyperscript.Json.Token

/-! Reading a JSON value from its tokens with a stack of the containers that are
still open. The first token that cannot follow ends the reading, as does a
container nested too deep. -/
namespace Hyperscript.Json

/-- A container that is still open. Elements are kept latest first. -/
inductive Frame where
  | array (elements : List Json)
  | object (members : List (String × Json))
  | member (members : List (String × Json)) (name : String)

inductive Phase where
  | value
  | elementOrClose
  | nameOrClose
  | name
  | colon
  | separator
  | finished (value : Json)

structure Reader where
  phase : Phase := .value
  stack : List Frame := []

namespace Reader

/-- The deepest nesting of containers in a document. -/
def depthLimit : Nat := 127

/-- A complete value goes to the innermost open container. -/
def deliver (value : Json) : List Frame → Option Reader
  | [] => some { phase := .finished value, stack := [] }
  | .array elements :: stack =>
    some { phase := .separator, stack := .array (value :: elements) :: stack }
  | .member members name :: stack =>
    some { phase := .separator, stack := .object (setMember name value members) :: stack }
  | .object _ :: _ => none

def start (limit : Nat) (stack : List Frame) : Token → Option Reader
  | .null => deliver .null stack
  | .bool value => deliver (.bool value) stack
  | .number value => deliver (.number value) stack
  | .string value => deliver (.string value) stack
  | .openBracket =>
    if stack.length < limit then some { phase := .elementOrClose, stack := .array [] :: stack }
    else none
  | .openBrace =>
    if stack.length < limit then some { phase := .nameOrClose, stack := .object [] :: stack }
    else none
  | _ => none

def close : Token → List Frame → Option Reader
  | .closeBracket, .array elements :: stack => deliver (.array elements.reverse) stack
  | .closeBrace, .object members :: stack => deliver (.object members) stack
  | _, _ => none

def step (limit : Nat) (reader : Reader) (token : Token) : Option Reader :=
  match reader.phase, token, reader.stack with
  | .value, token, stack => start limit stack token
  | .elementOrClose, .closeBracket, stack => close .closeBracket stack
  | .elementOrClose, token, stack => start limit stack token
  | .nameOrClose, .closeBrace, stack => close .closeBrace stack
  | .nameOrClose, .string name, .object members :: stack
  | .name, .string name, .object members :: stack =>
    some { phase := .colon, stack := .member members name :: stack }
  | .colon, .colon, stack => some { phase := .value, stack }
  | .separator, .comma, .array elements :: stack =>
    some { phase := .value, stack := .array elements :: stack }
  | .separator, .comma, .object members :: stack =>
    some { phase := .name, stack := .object members :: stack }
  | .separator, token, stack => close token stack
  | _, _, _ => none

end Reader

/-- Read a text as one value with at most `limit` nested containers. -/
def readWith? (limit : Nat) (text : String) : Option Json :=
  match (Token.scan text).foldlM (Reader.step limit) {} with
  | some { phase := .finished value, .. } => some value
  | _ => none

def read? (text : String) : Option Json := readWith? Reader.depthLimit text

end Hyperscript.Json
