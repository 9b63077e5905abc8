import Hyperscript.Json.Numeral
import Hyperscript.Text.Quoted

/-! Lexical structure of JSON text. The tokens of a text come in text order; a
place that starts no token yields `invalid` and ends the list, so a reader that
works through the list meets faults in the order of the text. -/
namespace Hyperscript.Json

inductive Token where
  | openBrace
  | closeBrace
  | openBracket
  | closeBracket
  | comma
  | colon
  | null
  | bool (value : Bool)
  | number (value : Number)
  | string (value : String)
  | invalid

namespace Token

/-- The four blanks of JSON. -/
def isBlank (c : Char) : Bool := c == ' ' || c == '\t' || c == '\n' || c == '\r'

def hexUnit? (a b c d : Char) : Option Nat := do
  let a ← Text.hexValue? a
  let b ← Text.hexValue? b
  let c ← Text.hexValue? c
  let d ← Text.hexValue? d
  return ((a * 16 + b) * 16 + c) * 16 + d

def isHighSurrogate (unit : Nat) : Bool := 0xD800 ≤ unit && unit < 0xDC00

def isLowSurrogate (unit : Nat) : Bool := 0xDC00 ≤ unit && unit < 0xE000

def pairChar (high low : Nat) : Char :=
  Char.ofNat (0x10000 + (high - 0xD800) * 0x400 + (low - 0xDC00))

def shortEscape? : Char → Option Char
  | '"' => some '"'
  | '\\' => some '\\'
  | '/' => some '/'
  | 'b' => some '\x08'
  | 'f' => some '\x0c'
  | 'n' => some '\n'
  | 'r' => some '\r'
  | 't' => some '\t'
  | _ => none

/-- The contents of a string and the text after it, from behind its opening
quote. Raw control characters and unpaired surrogates are refused. -/
def stringBody : List Char → Option (List Char × List Char)
  | [] => none
  | '"' :: rest => some ([], rest)
  | '\\' :: 'u' :: a :: b :: c :: d :: rest =>
    match hexUnit? a b c d with
    | none => none
    | some unit =>
      if isHighSurrogate unit then
        match rest with
        | '\\' :: 'u' :: a :: b :: c :: d :: rest =>
          match hexUnit? a b c d with
          | none => none
          | some low =>
            if isLowSurrogate low then
              (stringBody rest).map fun (body, rest) => (pairChar unit low :: body, rest)
            else none
        | _ => none
      else if isLowSurrogate unit then none
      else (stringBody rest).map fun (body, rest) => (Char.ofNat unit :: body, rest)
  | '\\' :: letter :: rest =>
    match shortEscape? letter with
    | none => none
    | some c => (stringBody rest).map fun (body, rest) => (c :: body, rest)
  | c :: rest =>
    if c.toNat < 0x20 then none
    else (stringBody rest).map fun (body, rest) => (c :: body, rest)

/-- The first token of a text that starts with no blank, and the text after it. -/
def first? : List Char → Option (Token × List Char)
  | '\x7b' :: rest => some (.openBrace, rest)
  | '\x7d' :: rest => some (.closeBrace, rest)
  | '[' :: rest => some (.openBracket, rest)
  | ']' :: rest => some (.closeBracket, rest)
  | ',' :: rest => some (.comma, rest)
  | ':' :: rest => some (.colon, rest)
  | 'n' :: 'u' :: 'l' :: 'l' :: rest => some (.null, rest)
  | 't' :: 'r' :: 'u' :: 'e' :: rest => some (.bool true, rest)
  | 'f' :: 'a' :: 'l' :: 's' :: 'e' :: rest => some (.bool false, rest)
  | '"' :: rest => (stringBody rest).map fun (body, rest) => (.string (String.ofList body), rest)
  | text => (Numeral.first? text).map fun (value, rest) => (.number value, rest)

/-- At most `fuel` tokens and blanks of a text. -/
def scanWith : (fuel : Nat) → List Char → List Token
  | 0, _ => []
  | _, [] => []
  | fuel + 1, c :: rest =>
    if isBlank c then scanWith fuel rest
    else match first? (c :: rest) with
      | none => [.invalid]
      | some (token, rest) => token :: scanWith fuel rest

/-- The tokens of a text. Every step uses up a character, so the number of
characters bounds the steps. -/
def scan (text : String) : List Token :=
  let chars := text.toList
  scanWith chars.length chars

end Token
end Hyperscript.Json
