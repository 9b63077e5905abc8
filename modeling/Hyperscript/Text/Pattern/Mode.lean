import Hyperscript.Text.Pieces

/-! Modes of search patterns. A pattern is read by characters or by bytes, with or
without regard to case, and with or without blanks and comments in between; a
change of mode lasts to the end of its group. -/
namespace Hyperscript.Text.Pattern

structure Mode where
  unicode : Bool := true
  caseless : Bool := false
  verbose : Bool := false

namespace Mode

/-- Without leading white space and comments; a comment ends with its line. -/
def dropBlank (inComment : Bool) : List Char → List Char
  | [] => []
  | c :: rest =>
    if inComment then dropBlank (c != '\n') rest
    else if isWhite c then dropBlank false rest
    else if c == '#' then dropBlank true rest
    else c :: rest

def skip (mode : Mode) (text : List Char) : List Char :=
  if mode.verbose then dropBlank false text else text

/-- The first character that is neither white space nor the sign of a comment,
though it may belong to a comment. -/
def glimpse? (inComment : Bool) : List Char → Option Char
  | [] => none
  | c :: rest =>
    if isWhite c then glimpse? inComment rest
    else if !inComment && c == '#' then glimpse? true rest
    else some c

/-- The character by which a hyphen in a class is judged. -/
def peek? (mode : Mode) (text : List Char) : Option Char :=
  if mode.verbose then glimpse? false text else text.head?

/-- The letters of a mode change. Those that bear only on what is matched are
known, but change nothing here. -/
def letters : List Char := ['i', 'm', 's', 'U', 'u', 'R', 'x']

/-- Each letter and the minus stand at most once, and the minus not last. -/
def isChange (text : List Char) : Bool :=
  text.all (fun c => c == '-' || letters.contains c) && decide text.Nodup &&
    text.getLast? != some '-'

/-- Letters behind the minus are switched off. -/
def change (mode : Mode) (on : Bool) : List Char → Mode
  | [] => mode
  | '-' :: rest => change mode false rest
  | 'u' :: rest => change { mode with unicode := on } on rest
  | 'i' :: rest => change { mode with caseless := on } on rest
  | 'x' :: rest => change { mode with verbose := on } on rest
  | _ :: rest => change mode on rest

end Mode
end Hyperscript.Text.Pattern
