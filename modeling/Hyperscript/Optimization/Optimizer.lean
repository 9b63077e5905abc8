import Hyperscript.Optimization.Caching
import Hyperscript.Optimization.Rules
import Hyperscript.Script.Encode

/-! The passes in order, and which of them run: those that the effort asks for,
that are not disabled, and that the facts about the script call for. The facts
are those of the script as it came; they are not derived anew between passes. -/
namespace Hyperscript

/-- How much to optimize. -/
inductive Effort where
  | none
  | basic
  | full
deriving DecidableEq

namespace Effort

def toNat : Effort → Nat
  | .none => 0
  | .basic => 1
  | .full => 2

def ofNat? : Nat → Option Effort
  | 0 => some .none
  | 1 => some .basic
  | 2 => some .full
  | _ => Option.none

/-- At least as much as the other. -/
def includes (effort other : Effort) : Bool := decide (other.toNat ≤ effort.toNat)

end Effort

inductive Pass where
  | constantFolding
  | selectorCaching
  | deadCodeElimination
  | loopUnrolling
deriving DecidableEq

namespace Pass

def all : List Pass := [.constantFolding, .selectorCaching, .deadCodeElimination, .loopUnrolling]

def name : Pass → String
  | .constantFolding => "constant-folding"
  | .selectorCaching => "selector-caching"
  | .deadCodeElimination => "dead-code-elimination"
  | .loopUnrolling => "loop-unrolling"

def ofName? (name : String) : Option Pass := all.find? (·.name == name)

/-- The least effort that includes the pass. -/
def effort : Pass → Effort
  | .constantFolding | .selectorCaching => .basic
  | .deadCodeElimination | .loopUnrolling => .full

/-- Whether the pass can find anything to do. -/
def isNeeded (facts : Facts) : Pass → Bool
  | .constantFolding => facts.hasPure
  | .selectorCaching => facts.hasCandidates
  | .deadCodeElimination => facts.canThrow
  | .loopUnrolling => facts.hasLoops

def transform (facts : Facts) (script : Node) : Pass → Revised Node
  | .constantFolding => Folding.revision.node script
  | .selectorCaching => do
    let keys ← Caching.keysFor facts
    (Caching.revision keys).node script
  | .deadCodeElimination => Pruning.revision.node script
  | .loopUnrolling => Unrolling.revision.node script

end Pass

structure Optimizer where
  passes : List Pass := Pass.all
  disabled : List String := []

structure Optimized where
  script : Node
  applied : List Pass := []

/-- The script's own object, with the names of the passes if any ran. -/
def Optimized.encode (optimized : Optimized) : Json :=
  match optimized.script.encode with
  | .object members =>
    let names := optimized.applied.map fun pass => Json.string pass.name
    .object (members ++ if names.isEmpty then [] else [("_optimizations", .array names)])
  | value => value

namespace Optimizer

def addPass (optimizer : Optimizer) (pass : Pass) : Optimizer :=
  { optimizer with passes := optimizer.passes ++ [pass] }

/-- Skip the passes of that name whatever the effort. -/
def disable (optimizer : Optimizer) (name : String) : Optimizer :=
  { optimizer with disabled := optimizer.disabled ++ [name] }

def runPass (optimizer : Optimizer) (facts : Facts) (effort : Effort) (current : Optimized)
    (pass : Pass) : Revised Optimized :=
  if !effort.includes pass.effort then pure current
  else if optimizer.disabled.contains pass.name then .kept current [.passDisabled pass.name]
  else if !pass.isNeeded facts then .kept current [.passNotNeeded pass.name]
  else
    let revised := pass.transform facts current.script
    { value := { script := revised.value, applied := current.applied ++ [pass] }
      changed := revised.changed
      notes := revised.notes ++ [.passRan pass.name revised.changed] }

/-- Run the passes in order. Without effort nothing runs. -/
def optimize (optimizer : Optimizer) (facts : Facts) (effort : Effort) (script : Node) :
    Revised Optimized :=
  if effort = .none then pure { script }
  else optimizer.passes.foldlM (optimizer.runPass facts effort) { script }

end Optimizer
end Hyperscript
