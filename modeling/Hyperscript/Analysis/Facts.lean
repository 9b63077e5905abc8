import Hyperscript.Ordered
import Hyperscript.Report.Note
import Hyperscript.Script.Node

/-! Facts about a script that optimization and emission rely on. They may come with
the script; otherwise `ofScript` derives them from a walk over the whole tree,
each node before its children. -/
namespace Hyperscript

structure SelectorUse where
  selector : String
  usages : List Node := []
  canCache : Bool := false

/-- Used more than once, and the same on every use. -/
def SelectorUse.isCandidate (use : SelectorUse) : Bool :=
  decide (1 < use.usages.length) && use.canCache

structure Facts where
  hasAsync : Bool := false
  canThrow : Bool := false
  hasLoops : Bool := false
  pure : List Node := []
  selectors : List SelectorUse := []
  helpers : List String := []

namespace Facts

def hasPure (facts : Facts) : Bool := !facts.pure.isEmpty

def candidates (facts : Facts) : List SelectorUse := facts.selectors.filter (·.isCandidate)

def hasCandidates (facts : Facts) : Bool := facts.selectors.any (·.isCandidate)

/-- Commands that suspend a handler. -/
def asyncCommands : List String := ["wait", "fetch", "settle", "transition", "call", "send"]

/-- Commands that may raise besides the terminators. -/
def throwingCommands : List String := ["call"]

def suspends (node : Node) : Bool := node.commandName?.any asyncCommands.contains

def mayThrow (node : Node) : Bool :=
  node.commandName?.any fun name => Node.terminators.contains name || throwingCommands.contains name

def isLoop : Node → Bool
  | .repeatTimes .. | .forEach .. | .whileLoop .. => true
  | _ => false

/-- A binary expression over two literals. -/
def isPure : Node → Bool
  | .binary _ (.literal _) (.literal _) => true
  | _ => false

def selectorText? : Node → Option String
  | .selector value _ => some value
  | _ => none

/-- Template selectors change from one run to the next. -/
def isStatic (selector : String) : Bool :=
  !selector.toList.contains '$' && !selector.toList.contains '\x7b'

/-- Runtime helpers that a handler's modifiers call for. -/
def helpersOf : Node → List String
  | .event _ modifiers _ => modifiers.helpers
  | _ => []

end Facts

/-- What a walk has come upon so far. The uses of one selector text stand together, the texts in
the order of their first use. -/
structure Survey where
  hasAsync : Bool := false
  canThrow : Bool := false
  hasLoops : Bool := false
  pure : List Node := []
  uses : List (String × List Node) := []
  helpers : List String := []

namespace Survey

/-- One more use of a selector, behind the earlier ones of its text. -/
def addUse (selector : String) (node : Node) :
    List (String × List Node) → List (String × List Node)
  | [] => [(selector, [node])]
  | (text, nodes) :: rest =>
    if text = selector then (text, nodes ++ [node]) :: rest
    else (text, nodes) :: addUse selector node rest

/-- Take note of one node, not of its children. -/
def add (survey : Survey) (node : Node) : Survey :=
  { hasAsync := survey.hasAsync || Facts.suspends node
    canThrow := survey.canThrow || Facts.mayThrow node
    hasLoops := survey.hasLoops || Facts.isLoop node
    pure := if Facts.isPure node then survey.pure ++ [node] else survey.pure
    uses :=
      match Facts.selectorText? node with
      | some selector => addUse selector node survey.uses
      | none => survey.uses
    helpers := Ordered.insertAll survey.helpers (Facts.helpersOf node) }

def facts (survey : Survey) : Facts :=
  { hasAsync := survey.hasAsync
    canThrow := survey.canThrow
    hasLoops := survey.hasLoops
    pure := survey.pure
    selectors := survey.uses.map fun (selector, usages) =>
      { selector, usages, canCache := Facts.isStatic selector }
    helpers := survey.helpers }

end Survey

namespace Facts

/-- The facts of a script, from one walk over it. -/
def ofScript (root : Node) : Facts := (root.subtree.foldl Survey.add {}).facts

def note (facts : Facts) : Note :=
  .analysisDerived facts.hasAsync facts.canThrow facts.hasLoops facts.pure.length
    facts.selectors.length

end Facts
end Hyperscript
