import Hyperscript.Optimization.Optimizer
import Hyperscript.Text.Pieces

/-! Command-line arguments. Arguments are taken from left to right. A value given
as an argument of its own is only looked at when the next argument with a value,
the next positional argument or the end is reached, so an unknown argument right
behind a bad value is the fault that is reported. -/
namespace Hyperscript.CommandLine

inductive OutputFormat where
  | js
  | json
deriving DecidableEq

/-- Why there is nothing to run. The first two are answers rather than faults. -/
inductive UsageError where
  | displayHelp
  | displayVersion
  | missingRequiredArgument
  | unknownArgument
  | invalidValue
  | valueValidation
  | argumentConflict
  | tooManyValues
deriving DecidableEq

structure Arguments where
  input : String
  effort : Option Effort := none
  config : Option String := none
  format : OutputFormat := .js
  out : Option String := none
  disabled : List String := []
  idStem : Option String := none

/-- What takes a value. -/
inductive Parameter where
  | input
  | effort
  | config
  | format
  | out
  | disablePass
  | idStem
deriving DecidableEq

namespace Parameter

/-- The options by their long names. -/
def ofLongName? : String → Option Parameter
  | "opt-level" => some .effort
  | "config" => some .config
  | "format" => some .format
  | "out" => some .out
  | "disable-pass" => some .disablePass
  | "handler-id-prefix" => some .idStem
  | _ => none

end Parameter

structure Given where
  input : Option String := none
  effort : Option Effort := none
  config : Option String := none
  format : Option OutputFormat := none
  out : Option String := none
  disabled : List String := []
  idStem : Option String := none

namespace Given

/-- Take a value once. -/
def once (known : Option α) (value : Except UsageError α) : Except UsageError (Option α) :=
  if known.isSome then .error .argumentConflict else value.map some

/-- A path is any text but the empty one. -/
def path (value : String) : Except UsageError String :=
  if value = "" then .error .invalidValue else .ok value

/-- A byte in decimal that is one of the levels. -/
def effortOf (value : String) : Except UsageError Effort :=
  match (Text.natOf? value.toList).bind Effort.ofNat? with
  | some effort => .ok effort
  | none => .error .valueValidation

def formatOf : String → Except UsageError OutputFormat
  | "js" => .ok .js
  | "json" => .ok .json
  | _ => .error .invalidValue

def store (given : Given) (value : String) : Parameter → Except UsageError Given
  | .input => do return { given with input := ← once given.input (path value) }
  | .effort => do return { given with effort := ← once given.effort (effortOf value) }
  | .config => do return { given with config := ← once given.config (path value) }
  | .format => do return { given with format := ← once given.format (formatOf value) }
  | .out => do return { given with out := ← once given.out (path value) }
  | .disablePass => .ok { given with disabled := given.disabled ++ [value] }
  | .idStem => do return { given with idStem := ← once given.idStem (.ok value) }

end Given

/-- A parameter whose value is awaited, or has not been looked at yet. -/
structure Pending where
  parameter : Parameter
  value : Option String := none

structure ArgumentReader where
  given : Given := {}
  pending : Option Pending := none
  /-- The input has been named. -/
  positionTaken : Bool := false
  /-- Everything from here on is positional. -/
  optionsEnded : Bool := false

/-- An argument by its form. -/
inductive Argument where
  | endOfOptions
  | long (name : String) (value : Option String)
  | short (letter : Char) (rest : List Char)
  | plain (text : String)

namespace Argument

/-- A long option may carry its value behind an equals sign. -/
def ofLong (text : List Char) : Argument :=
  match text.span (· != '=') with
  | (name, []) => .long (String.ofList name) none
  | (name, _ :: value) => .long (String.ofList name) (some (String.ofList value))

def ofText (text : String) : Argument :=
  match text.toList with
  | ['-', '-'] => .endOfOptions
  | '-' :: '-' :: rest => ofLong rest
  | '-' :: letter :: rest => .short letter rest
  | _ => .plain text

end Argument

namespace ArgumentReader

/-- Look at the pending value. -/
def resolve (reader : ArgumentReader) : Except UsageError ArgumentReader :=
  match reader.pending with
  | none => .ok reader
  | some { value := none, .. } => .error .invalidValue
  | some { parameter, value := some value } => do
    return { reader with given := ← reader.given.store value parameter, pending := none }

/-- An option with its value, or with the value still to come. -/
def takeOption (reader : ArgumentReader) (parameter : Parameter) (value : Option String) :
    Except UsageError ArgumentReader := do
  let reader ← reader.resolve
  match value with
  | some value => return { reader with given := ← reader.given.store value parameter }
  | none => return { reader with pending := some { parameter } }

/-- A flag that ends the reading. -/
def takeFlag (reader : ArgumentReader) (answer : UsageError) :
    Except UsageError ArgumentReader := do
  let _ ← reader.resolve
  .error answer

def takePositional (reader : ArgumentReader) (text : String) : Except UsageError ArgumentReader :=
  if reader.positionTaken then .error .unknownArgument
  else do
    let reader ← reader.resolve
    let pending := some { parameter := Parameter.input, value := some text }
    return { reader with pending, positionTaken := true }

/-- A plain text is the awaited value, or positional. -/
def takePlain (reader : ArgumentReader) (text : String) : Except UsageError ArgumentReader :=
  match reader.pending with
  | some { parameter, value := none } =>
    .ok { reader with pending := some { parameter, value := some text } }
  | _ => reader.takePositional text

def takeLong (reader : ArgumentReader) (name : String) (value : Option String) :
    Except UsageError ArgumentReader :=
  match name, value with
  | "help", none => reader.takeFlag .displayHelp
  | "version", none => reader.takeFlag .displayVersion
  | "help", some _ | "version", some _ => .error .tooManyValues
  | name, value =>
    match Parameter.ofLongName? name with
    | some parameter => reader.takeOption parameter value
    | none => .error .unknownArgument

/-- The value of a short option may follow it directly, also behind an equals
sign. -/
def takeShort (reader : ArgumentReader) (letter : Char) (rest : List Char) :
    Except UsageError ArgumentReader :=
  match letter, rest with
  | 'h', _ => reader.takeFlag .displayHelp
  | 'V', _ => reader.takeFlag .displayVersion
  | 'O', [] => reader.takeOption .effort none
  | 'O', '=' :: value => reader.takeOption .effort (some (String.ofList value))
  | 'O', value => reader.takeOption .effort (some (String.ofList value))
  | _, _ => .error .unknownArgument

def take (reader : ArgumentReader) (text : String) : Except UsageError ArgumentReader :=
  if reader.optionsEnded then reader.takePositional text
  else
    match Argument.ofText text with
    | .endOfOptions => .ok { reader with optionsEnded := true }
    | .long name value => reader.takeLong name value
    | .short letter rest => reader.takeShort letter rest
    | .plain text => reader.takePlain text

def finish (reader : ArgumentReader) : Except UsageError Arguments := do
  let { given, .. } ← reader.resolve
  match given.input with
  | none => .error .missingRequiredArgument
  | some input =>
    return {
      input
      effort := given.effort
      config := given.config
      format := given.format.getD .js
      out := given.out
      disabled := given.disabled
      idStem := given.idStem }

end ArgumentReader

def Arguments.parse (arguments : List String) : Except UsageError Arguments := do
  (← arguments.foldlM ArgumentReader.take {}).finish

end Hyperscript.CommandLine
