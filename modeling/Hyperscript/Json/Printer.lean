import Hyperscript.Json.Basic
import Hyperscript.Text.Lines

/-! JSON text of a value: compact, or with one element or member a line. -/
namespace Hyperscript.Json

def lowerHexDigit (n : Nat) : Char :=
  if n < 10 then Char.ofNat ('0'.toNat + n) else Char.ofNat ('a'.toNat + (n - 10))

/-- Only quotes, backslashes and control characters are escaped. -/
def escapeChar (c : Char) : List Char :=
  match c with
  | '"' => ['\\', '"']
  | '\\' => ['\\', '\\']
  | '\x08' => ['\\', 'b']
  | '\x0c' => ['\\', 'f']
  | '\n' => ['\\', 'n']
  | '\r' => ['\\', 'r']
  | '\t' => ['\\', 't']
  | c =>
    if c.toNat < 0x20 then
      ['\\', 'u', '0', '0', lowerHexDigit (c.toNat / 16), lowerHexDigit (c.toNat % 16)]
    else [c]

def stringText (text : String) : String :=
  "\"" ++ String.ofList (text.toList.flatMap escapeChar) ++ "\""

def boolText (value : Bool) : String := if value then "true" else "false"

mutual

/-- Without any blanks. -/
def compact : Json → String
  | .null => "null"
  | .bool value => boolText value
  | .number value => value.text
  | .string value => stringText value
  | .array elements => "[" ++ Text.join "," (compactElements elements) ++ "]"
  | .object members => "\x7b" ++ Text.join "," (compactMembers members) ++ "\x7d"

def compactElements : List Json → List String
  | [] => []
  | element :: elements => element.compact :: compactElements elements

def compactMembers : List (String × Json) → List String
  | [] => []
  | (name, value) :: members => (stringText name ++ ":" ++ value.compact) :: compactMembers members

end

/-- The items of a container, one a line, between its brackets. -/
def layItems (depth : Nat) (opening closing : String) (items : List String) : String :=
  if items.isEmpty then opening ++ closing
  else
    opening ++ "\n" ++ Text.join ",\n" (items.map (Text.margin (depth + 1) ++ ·)) ++
      "\n" ++ Text.margin depth ++ closing

mutual

/-- With two blanks a level of nesting; an empty container stays on its line. -/
def prettyAt (depth : Nat) : Json → String
  | .null => "null"
  | .bool value => boolText value
  | .number value => value.text
  | .string value => stringText value
  | .array elements => layItems depth "[" "]" (prettyElements (depth + 1) elements)
  | .object members => layItems depth "\x7b" "\x7d" (prettyMembers (depth + 1) members)

def prettyElements (depth : Nat) : List Json → List String
  | [] => []
  | element :: elements => prettyAt depth element :: prettyElements depth elements

def prettyMembers (depth : Nat) : List (String × Json) → List String
  | [] => []
  | (name, value) :: members =>
    (stringText name ++ ": " ++ prettyAt depth value) :: prettyMembers depth members

end

def pretty (value : Json) : String := prettyAt 0 value

end Hyperscript.Json
