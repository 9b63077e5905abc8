import Hyperscript.Script.Operator
import Hyperscript.Script.Revision

/-! The rules of three passes: constant folding, the pruning of dead code and the unrolling of
loops. Each is a revision of the whole script. -/

/-! Constant folding: a binary expression over two literals becomes the literal
it evaluates to. Folding goes from the leaves up, so a folded operand counts as
a literal for the expression around it. -/
namespace Hyperscript.Folding

def fold (node : Node) : Revised Node :=
  match node with
  | .binary operator (.literal left) (.literal right) =>
    match Literal.combine? operator left right with
    | some value => .replaced (.literal value)
    | none => .kept node [.leftUnfolded operator]
  | node => pure node

def revision : Revision := { finish := fold }

end Hyperscript.Folding

/-! Dead code: in a statement list nothing runs after a terminator, so the rest
of the list is dropped. A terminator inside a branch ends that branch only.
Arguments and flattened commands are no statement lists and stay as they are. -/
namespace Hyperscript.Pruning

def revision : Revision := { endsBlock := Node.isTerminator, entersLists := false }

end Hyperscript.Pruning

/-! Loop unrolling: a short repetition with a small literal count becomes the
sequence of its iterations, unless its body reads the loop index. -/
namespace Hyperscript.Unrolling

/-- The largest count that is unrolled. -/
def maxCount : Nat := 5

/-- The longest body that is unrolled. -/
def maxStatements : Nat := 3

/-- Why a repetition with a literal count stays, if it does. -/
def obstacle? (count : Float) (body : List Node) : Option Note :=
  if !((Binary64.toNat? count).any (· ≤ maxCount)) then some (.countOutOfRange count)
  else if maxStatements < body.length then some (.bodyTooLarge body.length)
  else if body.any (·.anyInSubtree Node.readsIndex) then some .bodyReadsIndex
  else none

def iterations (count : Float) (body : List Node) : List Node :=
  let copied := body.map fun statement => (Revision.copy.node statement).value
  (List.replicate ((Binary64.toNat? count).getD 0) copied).flatten

def unroll (node : Node) : Revised Node :=
  match node with
  | .repeatTimes (some (.literal (.number count))) body =>
    match obstacle? count body with
    | some note => .kept node [note]
    | none => .replaced (.sequence (iterations count body) true)
  | node => pure node

def revision : Revision := { finish := unroll }

end Hyperscript.Unrolling
