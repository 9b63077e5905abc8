/-! Names that a generated script may use bare. Letters and digits are the ASCII
ones; a name outside this class is written as a quoted string instead. -/
namespace Hyperscript.Text

def isIdentifierStart (c : Char) : Bool := c.isAlpha || c == '_' || c == '$'

def isIdentifierRest (c : Char) : Bool := c.isAlphanum || c == '_' || c == '$'

/-- Words that a script cannot use as names. -/
def reservedWords : List String :=
  ["break", "case", "catch", "class", "const", "continue", "debugger", "default",
    "delete", "do", "else", "export", "extends", "false", "finally", "for",
    "function", "if", "import", "in", "instanceof", "let", "new", "null",
    "return", "super", "switch", "this", "throw", "true", "try", "typeof",
    "var", "void", "while", "with", "yield", "await", "enum"]

/-- The characters of an identifier, reserved or not. -/
def hasIdentifierShape : List Char → Bool
  | [] => false
  | first :: rest => isIdentifierStart first && rest.all isIdentifierRest

def isIdentifier (name : String) : Bool :=
  hasIdentifierShape name.toList && !reservedWords.contains name

/-- A name without its leading scope colons. -/
def withoutColons (name : String) : String :=
  String.ofList (name.toList.dropWhile (· == ':'))

end Hyperscript.Text
