import Hyperscript.Text.Pattern.Atom

/-! Classes of characters in square brackets. A class holds characters, ranges,
categories and further classes, and joins runs of them by operators from left to
right. Every step consumes a part of the text and hands on the rest.

A pattern nests to a limited height. A character or a place has height zero; a group, a
repetition, a class and an operator between classes are one higher than what they
hold, and so are parts that stand side by side, if they are several. -/
namespace Hyperscript.Text.Pattern

/-- No pattern is higher. -/
def heightLimit : Nat := 250

/-- The height of parts side by side. One part alone is just that part. -/
def runHeight : List Nat → Nat
  | [] => 0
  | [height] => height
  | heights => heights.foldl max 0 + 1

/-- Names of classes that need no tables, as in `[:alpha:]`. -/
def classNames : List String :=
  ["alnum", "alpha", "ascii", "blank", "cntrl", "digit", "graph", "lower", "print",
    "punct", "space", "upper", "word", "xdigit"]

def className? (text : List Char) : Option (List Char) :=
  match text.span (· != ':') with
  | (name, ':' :: ']' :: rest) =>
    if classNames.contains (String.ofList name) then some rest else none
  | _ => none

/-- Behind the bracket of a named class: whether it is negated, and the text after
it. -/
def namedClass? : List Char → Option (Bool × List Char)
  | ':' :: '^' :: rest => (className? rest).map fun rest => (true, rest)
  | ':' :: rest => (className? rest).map fun rest => (false, rest)
  | _ => none

/-- Named classes are runs of ASCII characters; in byte mode the others are not. -/
def Mode.admitsNamed (mode : Mode) (negated : Bool) : Bool :=
  if mode.unicode then !mode.caseless else !negated

def Mode.admitsRange (mode : Mode) (low high : Atom) : Bool :=
  match low.char?, high.char? with
  | some first, some last => first ≤ last && mode.admitsMember low && mode.admitsMember high
  | _, _ => false

def memberAtom? (mode : Mode) : List Char → Option (Atom × List Char)
  | [] => none
  | '\\' :: rest => escaped? mode rest
  | c :: rest => some (.literal c, rest)

/-- A member or a range of members; the text after it. A hyphen before the closing
bracket or another hyphen makes no range. -/
def member? (mode : Mode) (text : List Char) : Option (List Char) :=
  (memberAtom? mode text).bind fun (low, rest) =>
    let rest := mode.skip rest
    let alone := if mode.admitsMember low then some rest else none
    match rest with
    | '-' :: after =>
      if [some ']', some '-'].contains (mode.peek? after) then alone
      else
        (memberAtom? mode (mode.skip after)).bind fun (high, rest) =>
          if mode.admitsRange low high then some rest else none
    | _ => alone

/-- The heights of what a class holds so far: its latest run of members, latest
first, and all before the latest operator. -/
structure Holding where
  members : List Nat := []
  operand : Option Nat := none

namespace Holding

def add (holding : Holding) (height : Nat) : Holding :=
  { holding with members := height :: holding.members }

def height (holding : Holding) : Nat :=
  match holding.operand with
  | none => runHeight holding.members
  | some operand => max operand (runHeight holding.members) + 1

/-- Behind an operator a new run begins. -/
def operate (holding : Holding) : Holding := { operand := some holding.height }

end Holding

/-- What may come next in a class, besides its members: at its start a caret, then
hyphens, or instead of them a bracket. -/
inductive Lead where
  | caret
  | bracket
  | hyphen
  | member

/-- A class that is still open, and the classes around it from the inside out. -/
structure OpenClass where
  lead : Lead := .caret
  holding : Holding := {}
  outer : List Holding := []

namespace OpenClass

/-- A class after a step: still open, or closed with its height. -/
abbrev Step := (OpenClass ⊕ Nat) × List Char

def held (state : OpenClass) (height : Nat) (rest : List Char) : Step :=
  (.inl { state with lead := .member, holding := state.holding.add height }, rest)

/-- A closed class is a member of the one around it. -/
def close (state : OpenClass) (rest : List Char) : Step :=
  let height := state.holding.height + 1
  match state.outer with
  | [] => (.inr height, rest)
  | holding :: outer => (.inl { lead := .member, holding := holding.add height, outer }, rest)

/-- A bracket, an operator or a member. -/
def inside (mode : Mode) (state : OpenClass) : List Char → Option Step
  | '[' :: rest =>
    match namedClass? rest with
    | some (negated, rest) =>
      if mode.admitsNamed negated then some (state.held 0 rest) else none
    | none => some (.inl { outer := state.holding :: state.outer }, rest)
  | ']' :: rest => some (state.close rest)
  | '&' :: '&' :: rest | '-' :: '-' :: rest | '~' :: '~' :: rest =>
    some (.inl { state with lead := .member, holding := state.holding.operate }, rest)
  | text => (member? mode text).map (state.held 0)

/-- One step in a class. At its start a caret negates it, which in byte mode would
leave ASCII; hyphens are members, and a closing bracket that comes first is one
too. -/
def step (mode : Mode) (state : OpenClass) (text : List Char) : Option Step :=
  match state.lead, text with
  | .caret, '^' :: rest =>
    if mode.unicode then some (.inl { state with lead := .bracket }, rest) else none
  | .caret, '-' :: rest | .bracket, '-' :: rest | .hyphen, '-' :: rest =>
    if mode.admitsMember (.literal '-') then
      some (.inl { state with lead := .hyphen, holding := state.holding.add 0 }, rest)
    else none
  | .caret, ']' :: rest | .bracket, ']' :: rest =>
    if mode.admitsMember (.literal ']') then some (state.held 0 rest) else none
  | _, text => state.inside mode text

end OpenClass
end Hyperscript.Text.Pattern
