import Hyperscript.Text.Classes
import Hyperscript.Text.Pattern.Bracket

/-! Well-formed search patterns. Only whether a text is a pattern is decided here,
not what it matches. Patterns are made of atoms, classes, groups, alternatives and
repetitions. Neither counts nor code points stand in braces. -/
namespace Hyperscript.Text.Pattern

/-- A group that is still open: the mode, the heights of the parts of its latest
alternative, latest first, and those of the alternatives before. -/
structure OpenGroup where
  mode : Mode := {}
  parts : List Nat := []
  alternatives : List Nat := []

namespace OpenGroup

def height (group : OpenGroup) : Nat :=
  runHeight (runHeight group.parts :: group.alternatives)

def add (group : OpenGroup) (height : Nat) : OpenGroup :=
  { group with parts := height :: group.parts }

def alternate (group : OpenGroup) : OpenGroup :=
  { group with parts := [], alternatives := runHeight group.parts :: group.alternatives }

/-- A repetition takes the place of the latest part. -/
def wrapLatest (group : OpenGroup) : OpenGroup :=
  match group.parts with
  | [] => group
  | latest :: parts => { group with parts := (latest + 1) :: parts }

end OpenGroup

/-- What has been read of a pattern: the innermost group, the groups around it,
whether a repetition may follow, the names of groups, and the class that is open. -/
structure Progress where
  group : OpenGroup := {}
  outer : List OpenGroup := []
  repeatable : Bool := false
  names : List (List Char) := []
  openClass : Option OpenClass := none

namespace Progress

def mode (progress : Progress) : Mode := progress.group.mode

def isNameStart (c : Char) : Bool := c == '_' || isAlphabetic c

def isNameRest (c : Char) : Bool := ['_', '.', '[', ']'].contains c || isAlphanumeric c

def isName : List Char → Bool
  | [] => false
  | first :: rest => isNameStart first && rest.all isNameRest

def addPart (progress : Progress) (height : Nat) : Progress :=
  { progress with group := progress.group.add height, repeatable := true }

def enter (progress : Progress) (mode : Mode) : Progress :=
  { progress with
    group := { mode }, outer := progress.group :: progress.outer, repeatable := false }

/-- Into a group with a name that no other group has. -/
def enterNamed? (progress : Progress) (text : List Char) : Option (Progress × List Char) :=
  match text.span (· != '>') with
  | (name, '>' :: rest) =>
    if isName name && !progress.names.contains name then
      some ({ progress.enter progress.mode with names := name :: progress.names }, rest)
    else none
  | _ => none

/-- A mode change for the rest of the group, or for a group of its own. By itself it
is a part that cannot be repeated. -/
def changeMode? (progress : Progress) (text : List Char) : Option (Progress × List Char) :=
  match text.span (fun c => c != ':' && c != ')') with
  | (letters, closing :: rest) =>
    let mode := progress.mode.change true letters
    if !Mode.isChange letters then none
    else if closing == ':' then some (progress.enter mode, rest)
    else if letters.isEmpty then none
    else
      let group := { progress.group with mode }
      some ({ progress with group := group.add 0, repeatable := false }, rest)
  | _ => none

def openGroup? (progress : Progress) : List Char → Option (Progress × List Char)
  | '?' :: 'P' :: '<' :: rest | '?' :: '<' :: rest => progress.enterNamed? rest
  | '?' :: rest => progress.changeMode? rest
  | rest => some (progress.enter progress.mode, rest)

def closeGroup? (progress : Progress) : Option Progress :=
  match progress.outer with
  | [] => none
  | group :: outer =>
    some ({ progress with group, outer }.addPart (progress.group.height + 1))

def atom? (progress : Progress) (atom : Atom) : Option Progress :=
  if progress.mode.admits atom then some (progress.addPart 0) else none

/-- Behind a repetition sign a question mark changes which match is preferred. -/
def dropPreference : List Char → List Char
  | '?' :: rest => rest
  | rest => rest

/-- One step outside of classes. In byte mode there is no sign for any character. -/
def outsideStep? (progress : Progress) : List Char → Option (Progress × List Char)
  | [] => none
  | '(' :: rest => progress.openGroup? (progress.mode.skip rest)
  | ')' :: rest => progress.closeGroup?.map fun progress => (progress, rest)
  | '|' :: rest =>
    some ({ progress with group := progress.group.alternate, repeatable := false }, rest)
  | '[' :: rest => some ({ progress with openClass := some {} }, rest)
  | '?' :: rest | '*' :: rest | '+' :: rest =>
    if progress.repeatable then
      some ({ progress with group := progress.group.wrapLatest }, dropPreference rest)
    else none
  | '\x7b' :: _ => none
  | '.' :: rest => if progress.mode.unicode then some (progress.addPart 0, rest) else none
  | '^' :: rest | '$' :: rest => some (progress.addPart 0, rest)
  | '\\' :: rest =>
    (escaped? progress.mode rest).bind fun (atom, rest) =>
      (progress.atom? atom).map fun progress => (progress, rest)
  | c :: rest => (progress.atom? (.literal c)).map fun progress => (progress, rest)

/-- One step in a class. A class that closes is a part of the group. -/
def classStep? (progress : Progress) (state : OpenClass) (text : List Char) :
    Option (Progress × List Char) :=
  (state.step progress.mode text).map fun
    | (.inl state, rest) => ({ progress with openClass := some state }, rest)
    | (.inr height, rest) => ({ progress with openClass := none }.addPart height, rest)

def step? (progress : Progress) (text : List Char) : Option (Progress × List Char) :=
  match progress.openClass with
  | none => progress.outsideStep? text
  | some state => progress.classStep? state text

/-- At most `fuel` steps through a text, to its end. -/
def readWith? : (fuel : Nat) → Progress → List Char → Option Progress
  | fuel, progress, text =>
    match fuel, progress.mode.skip text with
    | _, [] => some progress
    | 0, _ => none
    | fuel + 1, text =>
      (progress.step? text).bind fun (progress, rest) => readWith? fuel progress rest

/-- Nothing is left open, and nothing nests too deep. -/
def isComplete (progress : Progress) : Bool :=
  progress.outer.isEmpty && progress.openClass.isNone && progress.group.height ≤ heightLimit

end Progress

/-- Every step uses up a character, so the number of characters bounds the steps. -/
def isValid (text : List Char) : Bool :=
  (Progress.readWith? text.length {} text).any (·.isComplete)

end Hyperscript.Text.Pattern
