import Hyperscript.Text.Quoted
import Hyperscript.Text.Pattern.Mode

/-! What stands in a pattern for one character or one place. There are no tables
behind patterns, so outside byte mode they name no category of characters, no word
edge and no character without regard to case. -/
namespace Hyperscript.Text.Pattern

/-- A `byte` is a character written as two hexadecimal digits, which in byte mode
stands for that byte. A category is that of digits, blanks or word characters. -/
inductive Atom where
  | literal (c : Char)
  | byte (c : Char)
  | category (negated : Bool)
  | place
  | wordEdge

namespace Mode

def isAscii (c : Char) : Bool := c.toNat < 0x80

/-- What may stand outside of classes. In byte mode a character stands for the
bytes that spell it, and bytes of ASCII alone spell characters by themselves. -/
def admits (mode : Mode) : Atom → Bool
  | .literal _ => !mode.unicode || !mode.caseless
  | .byte c => if mode.unicode then !mode.caseless else isAscii c
  | .category negated => !mode.unicode && !negated
  | .place => true
  | .wordEdge => !mode.unicode

/-- What may stand in a class: one character or, in byte mode, one ASCII byte. -/
def admitsMember (mode : Mode) : Atom → Bool
  | .literal c | .byte c => if mode.unicode then !mode.caseless else isAscii c
  | .category negated => !mode.unicode && !negated
  | .place | .wordEdge => false

end Mode

def Atom.char? : Atom → Option Char
  | .literal c | .byte c => some c
  | _ => none

def hexChar? (mode : Mode) : (count value : Nat) → List Char → Option (Char × List Char)
  | 0, value, text => if value.isValidChar then some (Char.ofNat value, text) else none
  | _ + 1, _, [] => none
  | count + 1, value, c :: rest =>
    (hexValue? c).bind fun digit => hexChar? mode count (value * 16 + digit) (mode.skip rest)

def control? : Char → Option Char
  | 'a' => some '\x07'
  | 't' => some '\t'
  | 'n' => some '\n'
  | 'v' => some '\x0b'
  | 'f' => some '\x0c'
  | 'r' => some '\r'
  | _ => none

/-- What a character behind a backslash stands for, when no digits follow. ASCII
characters other than letters and digits stand for themselves. -/
def escapedChar? (c : Char) : Option Atom :=
  if ['d', 's', 'w'].contains c then some (.category false)
  else if ['D', 'S', 'W'].contains c then some (.category true)
  else if ['A', 'z'].contains c then some .place
  else if ['b', 'B', '<', '>'].contains c then some .wordEdge
  else if Mode.isAscii c && !c.isAlphanum then some (.literal c)
  else (control? c).map .literal

def escaped? (mode : Mode) : List Char → Option (Atom × List Char)
  | [] => none
  | 'x' :: rest => (hexChar? mode 2 0 (mode.skip rest)).map fun (c, rest) => (.byte c, rest)
  | 'u' :: rest => (hexChar? mode 4 0 (mode.skip rest)).map fun (c, rest) => (.literal c, rest)
  | 'U' :: rest => (hexChar? mode 8 0 (mode.skip rest)).map fun (c, rest) => (.literal c, rest)
  | c :: rest => (escapedChar? c).map fun atom => (atom, rest)

end Hyperscript.Text.Pattern
