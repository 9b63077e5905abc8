import Hyperscript.Compile.Compiler

/-! The remarks of a whole compilation, as far as a level shows them. -/
namespace Hyperscript

/-- The span of a handler is information itself: a graver level hides it. -/
def Remark.shown? (most : Level) (remark : Remark) : Option Remark :=
  if most.verbosity < remark.note.level.verbosity then none
  else if most.verbosity < Level.info.verbosity then some { remark with span := none }
  else some remark

namespace Compiler

/-- Compile a module with a fresh compiler. Its remarks begin with those about the
options. -/
def compileFresh (options : Options) (input : ModuleInput) : ModuleRun :=
  let run := compileModule { options } input
  { run with remarks := (optionNotes options).map ({ note := · }) ++ run.remarks }

def ModuleRun.shown (run : ModuleRun) (most : Level) : List Remark :=
  run.remarks.filterMap (·.shown? most)

end Compiler
end Hyperscript
