import Hyperscript.Analysis.Facts
import Hyperscript.Script.Revision

/-! Selector caching: uses of a selector that is read more than once are marked
with the name of a variable, and the handler asks for the elements only once. The
name is made from the selector; where two selectors make the same name, the first
keeps it and the other stays uncached. -/
namespace Hyperscript.Caching

def maxSlugLength : Nat := 20

/-- Letters and digits as they are, each run of anything else as one underscore.
The flag says that such a run has been written already. -/
def slugFrom (inRun : Bool) : List Char → List Char
  | [] => []
  | c :: rest =>
    if c.isAlphanum then c :: slugFrom false rest
    else if inRun then slugFrom true rest
    else '_' :: slugFrom true rest

def slug (selector : List Char) : List Char := (slugFrom false selector).take maxSlugLength

/-- The variable that holds the elements of a selector. -/
def cacheKey (selector : String) : String := "_sel_" ++ String.ofList (slug selector.toList)

/-- The selectors that have a key, in the order in which they got it. -/
abbrev Keys := List (String × String)

def owner? (keys : Keys) (key : String) : Option String :=
  (keys.find? (·.2 == key)).map (·.1)

/-- Give a selector its key, unless it has one or another selector owns it. -/
def assign (keys : Keys) (selector : String) : Revised Keys :=
  if (keys.lookup selector).isSome then pure keys
  else
    let key := cacheKey selector
    match owner? keys key with
    | some owner => .kept keys [.keyCollision selector key owner]
    | none => pure (keys ++ [(selector, key)])

/-- Keys for all selectors worth caching. -/
def keysFor (facts : Facts) : Revised Keys :=
  (facts.candidates.map (·.selector)).foldlM assign []

def annotate (keys : Keys) (node : Node) : Revised Node :=
  match node with
  | .selector value cacheKey =>
    match keys.lookup value with
    | some key => if cacheKey = some key then pure node else .replaced (.selector value (some key))
    | none => pure node
  | node => pure node

def revision (keys : Keys) : Revision := { finish := annotate keys }

end Hyperscript.Caching
