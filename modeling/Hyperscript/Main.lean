import Hyperscript.CommandLine.Run
import Hyperscript.Report.Filter

/-! The command-line program: reads the files that the arguments name, and writes
the code or the fault. All decisions are made elsewhere. -/
namespace Hyperscript.CommandLine

def usage : String := "Usage: hfx-aot [OPTIONS] <INPUT>"

def version : String := "hfx-aot 0.1.0"

def entryOf (name : String) : IO Entry := do
  try
    return .file (← IO.FS.readBinFile name)
  catch
    | .noFileOrDirectory .. => return .missing
    | .inappropriateType .. => return .directory
    | error => throw error

/-- The files that the arguments name, read beforehand. -/
def filesOf (arguments : Arguments) : IO FileSystem := do
  let names := arguments.input :: arguments.config.toList
  let entries ← names.mapM fun name => do return (name, ← entryOf name)
  return fun name => (entries.lookup name).getD .missing

def environment : IO Report.Settings := do
  return {
    log := ← IO.getEnv "HFX_LOG"
    general := ← IO.getEnv "RUST_LOG"
    format := ← IO.getEnv "HFX_LOG_FORMAT" }

def deliver (arguments : Arguments) (output : String) : IO Unit :=
  match arguments.out with
  | some file => IO.FS.writeFile file output
  | none => IO.print output

def execute (arguments : Arguments) : IO UInt32 := do
  let settings ← environment
  let (result, remarks) := arguments.runNoting (← filesOf arguments)
  for remark in remarks do
    if settings.admits remark.note then
      IO.eprintln (remark.note.level.name ++ " " ++ remark.note.message)
  match result with
  | .ok output =>
    deliver arguments output
    return 0
  | .error error =>
    IO.eprintln ("Error: " ++ error.message)
    return 1

end Hyperscript.CommandLine

open Hyperscript.CommandLine in
def main (arguments : List String) : IO UInt32 := do
  match Arguments.parse arguments with
  | .ok arguments => execute arguments
  | .error .displayHelp =>
    IO.println usage
    return 0
  | .error .displayVersion =>
    IO.println version
    return 0
  | .error _ =>
    IO.eprintln usage
    return 2
