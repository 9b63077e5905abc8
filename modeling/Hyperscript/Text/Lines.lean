/-! Lines of text and their indentation. Generated code is assembled from
fragments of several lines; a fragment placed inside a block is cut into lines
and each of them is moved right. -/
namespace Hyperscript.Text

/-- The lines of a text. A line ends at a line feed, which may follow one
carriage return; a final line feed starts no further line. -/
def splitLines : List Char → List (List Char)
  | [] => []
  | '\n' :: rest => [] :: splitLines rest
  | '\r' :: '\n' :: rest => [] :: splitLines rest
  | c :: rest =>
    match splitLines rest with
    | [] => [[c]]
    | line :: lines => (c :: line) :: lines

def lines (text : String) : List String := (splitLines text.toList).map String.ofList

def join (separator : String) : List String → String
  | [] => ""
  | [part] => part
  | part :: next :: parts => part ++ separator ++ join separator (next :: parts)

def joinLines (parts : List String) : String := join "\n" parts

/-- Two spaces a level. -/
def margin : Nat → String
  | 0 => ""
  | depth + 1 => "  " ++ margin depth

/-- One line at the given depth. An empty line takes no margin. -/
def indentLine (depth : Nat) (line : String) : String :=
  if line = "" then "" else margin depth ++ line

/-- Lines written so far, and the depth of the next one. -/
structure Sheet where
  written : List String := []
  depth : Nat := 0

namespace Sheet

def empty : Sheet := {}

def line (sheet : Sheet) (text : String) : Sheet :=
  { sheet with written := sheet.written ++ [indentLine sheet.depth text] }

def fragment (sheet : Sheet) (text : String) : Sheet :=
  (lines text).foldl line sheet

def indent (sheet : Sheet) : Sheet := { sheet with depth := sheet.depth + 1 }

/-- One level less; the outermost level stays. -/
def dedent (sheet : Sheet) : Sheet := { sheet with depth := sheet.depth - 1 }

/-- The text, without a line feed after the last line. -/
def finish (sheet : Sheet) : String := joinLines sheet.written

end Sheet

def indentBlock (text : String) : String := (Sheet.empty.indent.fragment text).finish

end Hyperscript.Text
