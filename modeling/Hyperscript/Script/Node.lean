import Hyperscript.Script.Literal

/-! Scripts as trees. One type holds statements, expressions and event handlers:
a script may put any node anywhere, and it is for the emitter to decide what a
node means in its place. -/
namespace Hyperscript

/-- How a handler listens. Delays are in milliseconds; `source` is the selector
that events are delegated from. -/
structure Modifiers where
  once : Bool := false
  passive : Bool := false
  capture : Bool := false
  prevent : Bool := false
  stop : Bool := false
  debounce : Option Float := none
  throttle : Option Float := none
  source : Option String := none
deriving DecidableEq

namespace Modifiers

/-- Only a positive delay counts. -/
def debounceDelay? (modifiers : Modifiers) : Option Float :=
  modifiers.debounce.filter Binary64.isAboveZero

def throttleDelay? (modifiers : Modifiers) : Option Float :=
  modifiers.throttle.filter Binary64.isAboveZero

/-- The delegation selector, unless empty. -/
def delegate? (modifiers : Modifiers) : Option String :=
  modifiers.source.filter (· != "")

/-- The runtime helpers that a listener with these modifiers goes through. -/
def helpers (modifiers : Modifiers) : List String :=
  (if modifiers.debounceDelay?.isSome then ["debounce"] else []) ++
    (if modifiers.throttleDelay?.isSome then ["throttle"] else []) ++
    (if modifiers.delegate?.isSome then ["delegate"] else [])

end Modifiers

/-- A script node. A repetition without a count goes on forever; a selector with
a cache key is read from the variable of that name. Kinds of no interest to the
compiler are all `unknown`. -/
inductive Node where
  | command (name : String) (args : List Node) (target : Option Node)
  | ifElse (condition : Node) (thenBranch : List Node) (elseBranch : Option (List Node))
  | repeatTimes (count : Option Node) (body : List Node)
  | forEach (itemName : String) (collection : Node) (body : List Node)
  | whileLoop (condition : Node) (body : List Node)
  | event (name : String) (modifiers : Modifiers) (body : List Node)
  | literal (value : Literal)
  | binary (operator : String) (left right : Node)
  | unary (operator : String) (operand : Node)
  | selector (value : String) (cacheKey : Option String)
  | identifier (name : String)
  | variableRef (name : String)
  | member (object : Node) (property : String)
  | sequence (commands : List Node) (unrolled : Bool)
  | unknown

/-- The kinds of node, in the order of their constructors. -/
inductive Kind where
  | command
  | ifElse
  | repeatTimes
  | forEach
  | whileLoop
  | event
  | literal
  | binary
  | unary
  | selector
  | identifier
  | variableRef
  | member
  | sequence
  | unknown
deriving DecidableEq

namespace Kind

def name : Kind → String
  | .command => "command"
  | .ifElse => "if"
  | .repeatTimes => "repeat"
  | .forEach => "foreach"
  | .whileLoop => "while"
  | .event => "event"
  | .literal => "literal"
  | .binary => "binary"
  | .unary => "unary"
  | .selector => "selector"
  | .identifier => "identifier"
  | .variableRef => "variable"
  | .member => "member"
  | .sequence => "sequence"
  | .unknown => "unknown"

def all : List Kind :=
  [.command, .ifElse, .repeatTimes, .forEach, .whileLoop, .event, .literal, .binary, .unary,
    .selector, .identifier, .variableRef, .member, .sequence, .unknown]

/-- The kind of that name. Names are case-sensitive, and every other text names
the unknown kind. -/
def ofName (name : String) : Kind := (all.find? (·.name == name)).getD .unknown

def ofIndex (index : Nat) : Kind := (all[index]?).getD .unknown

end Kind

/-- An event handler: what it listens to, how, and what it does. -/
structure Handler where
  event : String
  modifiers : Modifiers
  body : List Node

namespace Node

def kind : Node → Kind
  | .command .. => .command
  | .ifElse .. => .ifElse
  | .repeatTimes .. => .repeatTimes
  | .forEach .. => .forEach
  | .whileLoop .. => .whileLoop
  | .event .. => .event
  | .literal .. => .literal
  | .binary .. => .binary
  | .unary .. => .unary
  | .selector .. => .selector
  | .identifier .. => .identifier
  | .variableRef .. => .variableRef
  | .member .. => .member
  | .sequence .. => .sequence
  | .unknown => .unknown

def commandName? : Node → Option String
  | .command name .. => some name
  | _ => none

def literal? : Node → Option Literal
  | .literal value => some value
  | _ => none

def handler? : Node → Option Handler
  | .event name modifiers body => some { event := name, modifiers, body }
  | _ => none

/-- Commands after which nothing else in the same statement list runs. -/
def terminators : List String := ["halt", "exit", "return", "throw"]

def isTerminator (node : Node) : Bool := node.commandName?.any terminators.contains

/-- The two spellings of the implicit loop index. -/
def indexNames : List String := ["index", ":index"]

def readsIndex : Node → Bool
  | .identifier name | .variableRef name => indexNames.contains name
  | _ => false

/-- The direct children, slot by slot. -/
def children : Node → List Node
  | .command _ args target => args ++ target.toList
  | .ifElse condition thenBranch elseBranch => condition :: thenBranch ++ elseBranch.getD []
  | .repeatTimes count body => count.toList ++ body
  | .forEach _ collection body => collection :: body
  | .whileLoop condition body => condition :: body
  | .event _ _ body => body
  | .binary _ left right => [left, right]
  | .unary _ operand => [operand]
  | .member object _ => [object]
  | .sequence commands _ => commands
  | .literal _ | .selector .. | .identifier _ | .variableRef _ | .unknown => []

mutual

/-- The node and everything beneath it, each node before its children. -/
def subtree : Node → List Node
  | .command name args target =>
    .command name args target :: (subtrees args ++ subtree? target)
  | .ifElse condition thenBranch none =>
    .ifElse condition thenBranch none :: (condition.subtree ++ subtrees thenBranch)
  | .ifElse condition thenBranch (some elseBranch) =>
    .ifElse condition thenBranch (some elseBranch) ::
      (condition.subtree ++ subtrees thenBranch ++ subtrees elseBranch)
  | .repeatTimes count body => .repeatTimes count body :: (subtree? count ++ subtrees body)
  | .forEach itemName collection body =>
    .forEach itemName collection body :: (collection.subtree ++ subtrees body)
  | .whileLoop condition body =>
    .whileLoop condition body :: (condition.subtree ++ subtrees body)
  | .event name modifiers body => .event name modifiers body :: subtrees body
  | .binary operator left right =>
    .binary operator left right :: (left.subtree ++ right.subtree)
  | .unary operator operand => .unary operator operand :: operand.subtree
  | .member object property => .member object property :: object.subtree
  | .sequence commands unrolled => .sequence commands unrolled :: subtrees commands
  | .literal value => [.literal value]
  | .selector value cacheKey => [.selector value cacheKey]
  | .identifier name => [.identifier name]
  | .variableRef name => [.variableRef name]
  | .unknown => [.unknown]

def subtrees : List Node → List Node
  | [] => []
  | node :: nodes => node.subtree ++ subtrees nodes

def subtree? : Option Node → List Node
  | none => []
  | some node => node.subtree

end

theorem subtrees_eq (nodes : List Node) : subtrees nodes = nodes.flatMap subtree := by
  induction nodes with
  | nil => rfl
  | cons node nodes ih => simp only [subtrees, ih, List.flatMap_cons]

theorem subtree?_eq (node : Option Node) : subtree? node = node.toList.flatMap subtree := by
  cases node <;> simp [subtree?]

/-- A subtree is its root and the subtrees of the children, slot by slot. -/
theorem subtree_eq (node : Node) : node.subtree = node :: node.children.flatMap subtree := by
  cases node with
  | ifElse condition thenBranch elseBranch =>
    cases elseBranch <;> simp [subtree, children, subtrees_eq]
  | _ => simp [subtree, children, subtrees_eq, subtree?_eq]

def anyInSubtree (p : Node → Bool) (node : Node) : Bool := node.subtree.any p

end Node
end Hyperscript
