import Hyperscript.CommandLine.Arguments
import Hyperscript.Compile.Trace
import Hyperscript.Json.Printer

/-! Running the compiler on files. What a name stands for is given by a function,
so that running is the same on any file system. -/
namespace Hyperscript.CommandLine

/-- What there is under a name. -/
inductive Entry where
  | missing
  | directory
  | file (contents : ByteArray)

inductive ReadFault where
  | missing
  | directory
  | notText

def ReadFault.message : ReadFault → String
  | .missing => "No such file or directory (os error 2)"
  | .directory => "Is a directory (os error 21)"
  | .notText => "stream did not contain valid UTF-8"

def Entry.text : Entry → Except ReadFault String
  | .missing => .error .missing
  | .directory => .error .directory
  | .file contents =>
    match String.fromUTF8? contents with
    | some text => .ok text
    | none => .error .notText

abbrev FileSystem := String → Entry

/-- Why a run gives no output. -/
inductive RunError where
  | unreadableConfig (file : String) (fault : ReadFault)
  | badConfig (file : String) (error : Options.ReadError)
  | unreadableInput (file : String) (fault : ReadFault)
  | badInput (file : String) (error : InputError)
  | compile (error : CompileError)

def optionsMessage : Options.ReadError → String
  | .malformed => "invalid compiler options"
  | .decode error => "invalid compiler options: " ++ error.message

def RunError.message : RunError → String
  | .unreadableConfig file fault => "failed to read config: " ++ file ++ ": " ++ fault.message
  | .badConfig file error => "failed to parse config: " ++ file ++ ": " ++ optionsMessage error
  | .unreadableInput file fault => "failed to read input: " ++ file ++ ": " ++ fault.message
  | .badInput file error => "failed to parse input: " ++ file ++ ": " ++ error.message
  | .compile error => error.message

def loadOptions (files : FileSystem) (file : String) : Except RunError Options := do
  let source ← (files file).text.mapError (.unreadableConfig file)
  (Options.ofText source).mapError (.badConfig file)

namespace Arguments

/-- The options of the configuration file, with the arguments on top. -/
def resolveOptions (arguments : Arguments) (files : FileSystem) : Except RunError Options := do
  let loaded ←
    match arguments.config with
    | some file => loadOptions files file
    | none => .ok {}
  return {
    effort := arguments.effort.getD loaded.effort
    idStem := arguments.idStem.getD loaded.idStem
    disabled := Ordered.insertAll loaded.disabled arguments.disabled }

def render (compiled : CompiledModule) : OutputFormat → String
  | .js => compiled.javascript
  | .json => (Json.array (compiled.handlers.map (·.encode))).pretty ++ "\n"

def load (arguments : Arguments) (files : FileSystem) :
    Except RunError (Options × ModuleInput) := do
  let options ← arguments.resolveOptions files
  let source ← (files arguments.input).text.mapError (.unreadableInput arguments.input)
  let input ← (ModuleInput.ofText source).mapError (.badInput arguments.input)
  return (options, input)

/-- Compile the input file, and say what was remarked meanwhile. -/
def runNoting (arguments : Arguments) (files : FileSystem) :
    Except RunError String × List Remark :=
  match arguments.load files with
  | .error error => (.error error, [])
  | .ok (options, input) =>
    let run := Compiler.compileFresh options input
    ((run.result.mapError .compile).map (render · arguments.format), run.remarks)

def run (arguments : Arguments) (files : FileSystem) : Except RunError String :=
  (arguments.runNoting files).1

end Arguments
end Hyperscript.CommandLine
