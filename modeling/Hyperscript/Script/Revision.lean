import Hyperscript.Report.Note
import Hyperscript.Script.Node

/-! Revising scripts from the leaves up. Nodes have three shapes of child slot:
single nodes, blocks (statement lists) and lists (arguments and flattened
commands, which are no statement lists of their own). A revision says what
becomes of a node once its children are done, where a block ends early, and
whether lists are entered at all; the walk is the same for all of them. -/
namespace Hyperscript

/-- The outcome of a revision: the new value, whether anything was replaced on
the way, and the notes made meanwhile, in order. -/
structure Revised (α : Type) where
  value : α
  changed : Bool := false
  notes : List Note := []

namespace Revised

protected def pure (value : α) : Revised α := { value }

protected def bind (first : Revised α) (next : α → Revised β) : Revised β :=
  let second := next first.value
  { value := second.value
    changed := first.changed || second.changed
    notes := first.notes ++ second.notes }

instance : Monad Revised where
  pure := Revised.pure
  bind := Revised.bind

instance : LawfulMonad Revised := LawfulMonad.mk' Revised
  (fun _ => by simp [Functor.map, Revised.bind, Revised.pure])
  (fun _ _ => by simp [Bind.bind, Pure.pure, Revised.bind, Revised.pure])
  (fun _ _ _ => by simp [Bind.bind, Revised.bind, Bool.or_assoc])

@[simp] theorem value_pure (value : α) : (pure value : Revised α).value = value := rfl

@[simp] theorem changed_pure (value : α) : (pure value : Revised α).changed = false := rfl

@[simp] theorem notes_pure (value : α) : (pure value : Revised α).notes = [] := rfl

@[simp] theorem value_bind (first : Revised α) (next : α → Revised β) :
    (first >>= next).value = (next first.value).value := rfl

@[simp] theorem value_map (next : α → β) (first : Revised α) :
    (next <$> first).value = next first.value := rfl

@[simp] theorem changed_bind (first : Revised α) (next : α → Revised β) :
    (first >>= next).changed = (first.changed || (next first.value).changed) := rfl

@[simp] theorem changed_map (next : α → β) (first : Revised α) :
    (next <$> first).changed = first.changed := Bool.or_false _

@[simp] theorem notes_bind (first : Revised α) (next : α → Revised β) :
    (first >>= next).notes = first.notes ++ (next first.value).notes := rfl

def replaced (value : α) (notes : List Note := []) : Revised α :=
  { value, changed := true, notes }

def kept (value : α) (notes : List Note) : Revised α := { value, notes }

end Revised

/-- The children of a node replaced slot by slot, in the order of `children`. -/
def Node.mapSlots {m : Type → Type} [Monad m] (single : Node → m Node)
    (block list : List Node → m (List Node)) : Node → m Node
  | .command name args target => do
    return .command name (← list args) (← target.mapM single)
  | .ifElse condition thenBranch elseBranch => do
    return .ifElse (← single condition) (← block thenBranch) (← elseBranch.mapM block)
  | .repeatTimes count body => do return .repeatTimes (← count.mapM single) (← block body)
  | .forEach itemName collection body => do
    return .forEach itemName (← single collection) (← block body)
  | .whileLoop condition body => do return .whileLoop (← single condition) (← block body)
  | .event name modifiers body => do return .event name modifiers (← block body)
  | .binary operator left right => do return .binary operator (← single left) (← single right)
  | .unary operator operand => do return .unary operator (← single operand)
  | .member object property => do return .member (← single object) property
  | .sequence commands unrolled => do return .sequence (← list commands) unrolled
  | .literal value => pure (.literal value)
  | .selector value cacheKey => pure (.selector value cacheKey)
  | .identifier name => pure (.identifier name)
  | .variableRef name => pure (.variableRef name)
  | .unknown => pure .unknown

structure Revision where
  /-- What becomes of a node whose children are done. -/
  finish : Node → Revised Node := pure
  /-- A block keeps nothing behind such a statement. -/
  endsBlock : Node → Bool := fun _ => false
  /-- Whether arguments and flattened commands are revised too. -/
  entersLists : Bool := true

namespace Revision

mutual

def node (revision : Revision) : Node → Revised Node
  | .command name args target => do
    revision.finish (.command name (← revision.list args) (← revision.single? target))
  | .ifElse condition thenBranch elseBranch => do
    revision.finish (.ifElse (← revision.node condition) (← revision.block thenBranch)
      (← revision.block? elseBranch))
  | .repeatTimes count body => do
    revision.finish (.repeatTimes (← revision.single? count) (← revision.block body))
  | .forEach itemName collection body => do
    revision.finish (.forEach itemName (← revision.node collection) (← revision.block body))
  | .whileLoop condition body => do
    revision.finish (.whileLoop (← revision.node condition) (← revision.block body))
  | .event name modifiers body => do
    revision.finish (.event name modifiers (← revision.block body))
  | .binary operator left right => do
    revision.finish (.binary operator (← revision.node left) (← revision.node right))
  | .unary operator operand => do
    revision.finish (.unary operator (← revision.node operand))
  | .member object property => do
    revision.finish (.member (← revision.node object) property)
  | .sequence commands unrolled => do
    revision.finish (.sequence (← revision.list commands) unrolled)
  | .literal value => revision.finish (.literal value)
  | .selector value cacheKey => revision.finish (.selector value cacheKey)
  | .identifier name => revision.finish (.identifier name)
  | .variableRef name => revision.finish (.variableRef name)
  | .unknown => revision.finish .unknown

def single? (revision : Revision) : Option Node → Revised (Option Node)
  | none => pure none
  | some child => some <$> revision.node child

/-- Revise statements up to the first that ends the block, and drop the rest. -/
def block (revision : Revision) : List Node → Revised (List Node)
  | [] => pure []
  | statement :: rest => do
    let first ← revision.node statement
    if revision.endsBlock first then
      if rest.isEmpty then pure [first]
      else .replaced [first] [.truncated rest.length]
    else return first :: (← revision.block rest)

def block? (revision : Revision) : Option (List Node) → Revised (Option (List Node))
  | none => pure none
  | some statements => some <$> revision.block statements

def list (revision : Revision) : List Node → Revised (List Node)
  | [] => pure []
  | item :: rest =>
    if revision.entersLists then do return (← revision.node item) :: (← revision.list rest)
    else pure (item :: rest)

end

/-- The revision without rules: it takes a tree apart and puts it together again. -/
def copy : Revision := {}

/-- The walk is the slot schema with the revision in every slot. -/
theorem node_eq (revision : Revision) (tree : Node) :
    revision.node tree =
      tree.mapSlots revision.node revision.block revision.list >>= revision.finish := by
  cases tree with
  | command name args target => cases target <;> simp [node, single?, Node.mapSlots]
  | ifElse condition thenBranch elseBranch =>
    cases elseBranch <;> simp [node, block?, Node.mapSlots]
  | repeatTimes count body => cases count <;> simp [node, single?, Node.mapSlots]
  | _ => simp [node, Node.mapSlots]

end Revision
end Hyperscript
