import Hyperscript.Proofs.Script.Slots

/-! Scripts with one place left open, one frame for every child slot. A congruence is an
equivalence that can be used in any frame, and a meaning is compositional when nodes
that mean the same can take each other's place. -/
namespace Hyperscript
namespace Node

inductive Frame where
  | commandArg (name : String) (before after : List Node) (target : Option Node)
  | commandTarget (name : String) (args : List Node)
  | ifCondition (thenBranch : List Node) (elseBranch : Option (List Node))
  | ifThen (condition : Node) (before after : List Node) (elseBranch : Option (List Node))
  | ifElse (condition : Node) (thenBranch before after : List Node)
  | repeatCount (body : List Node)
  | repeatBody (count : Option Node) (before after : List Node)
  | forEachCollection (itemName : String) (body : List Node)
  | forEachBody (itemName : String) (collection : Node) (before after : List Node)
  | whileCondition (body : List Node)
  | whileBody (condition : Node) (before after : List Node)
  | eventBody (name : String) (modifiers : Modifiers) (before after : List Node)
  | binaryLeft (operator : String) (right : Node)
  | binaryRight (operator : String) (left : Node)
  | unaryOperand (operator : String)
  | memberObject (property : String)
  | sequenceCommand (before after : List Node) (unrolled : Bool)

/-- The script with the node in the open place. -/
def Frame.plug (node : Node) : Frame → Node
  | .commandArg name before after target => .command name (before ++ node :: after) target
  | .commandTarget name args => .command name args (some node)
  | .ifCondition thenBranch elseBranch => .ifElse node thenBranch elseBranch
  | .ifThen condition before after elseBranch =>
    .ifElse condition (before ++ node :: after) elseBranch
  | .ifElse condition thenBranch before after =>
    .ifElse condition thenBranch (some (before ++ node :: after))
  | .repeatCount body => .repeatTimes (some node) body
  | .repeatBody count before after => .repeatTimes count (before ++ node :: after)
  | .forEachCollection itemName body => .forEach itemName node body
  | .forEachBody itemName collection before after =>
    .forEach itemName collection (before ++ node :: after)
  | .whileCondition body => .whileLoop node body
  | .whileBody condition before after => .whileLoop condition (before ++ node :: after)
  | .eventBody name modifiers before after => .event name modifiers (before ++ node :: after)
  | .binaryLeft operator right => .binary operator node right
  | .binaryRight operator left => .binary operator left node
  | .unaryOperand operator => .unary operator node
  | .memberObject property => .member node property
  | .sequenceCommand before after unrolled => .sequence (before ++ node :: after) unrolled

/-- The frames around a node are those of its places among the children of others. -/
theorem mem_children_iff {child node : Node} :
    child ∈ node.children ↔ ∃ frame : Frame, frame.plug child = node := by
  constructor
  · intro inside
    cases node with
    | command name args target =>
      rcases List.mem_append.mp inside with inArgs | inTarget
      · obtain ⟨before, after, rfl⟩ := List.append_of_mem inArgs
        exact ⟨.commandArg name before after target, rfl⟩
      · obtain rfl := Option.mem_toList.mp inTarget
        exact ⟨.commandTarget name args, rfl⟩
    | ifElse condition thenBranch elseBranch =>
      simp only [children, List.cons_append, List.mem_cons, List.mem_append] at inside
      rcases inside with rfl | inThen | inElse
      · exact ⟨.ifCondition thenBranch elseBranch, rfl⟩
      · obtain ⟨before, after, rfl⟩ := List.append_of_mem inThen
        exact ⟨.ifThen condition before after elseBranch, rfl⟩
      · cases elseBranch with
        | none => contradiction
        | some elseBranch =>
          obtain ⟨before, after, rfl⟩ := List.append_of_mem (show child ∈ elseBranch from inElse)
          exact ⟨.ifElse condition thenBranch before after, rfl⟩
    | repeatTimes count body =>
      rcases List.mem_append.mp inside with inCount | inBody
      · obtain rfl := Option.mem_toList.mp inCount
        exact ⟨.repeatCount body, rfl⟩
      · obtain ⟨before, after, rfl⟩ := List.append_of_mem inBody
        exact ⟨.repeatBody count before after, rfl⟩
    | forEach itemName collection body =>
      rcases List.mem_cons.mp inside with rfl | inBody
      · exact ⟨.forEachCollection itemName body, rfl⟩
      · obtain ⟨before, after, rfl⟩ := List.append_of_mem inBody
        exact ⟨.forEachBody itemName collection before after, rfl⟩
    | whileLoop condition body =>
      rcases List.mem_cons.mp inside with rfl | inBody
      · exact ⟨.whileCondition body, rfl⟩
      · obtain ⟨before, after, rfl⟩ := List.append_of_mem inBody
        exact ⟨.whileBody condition before after, rfl⟩
    | event name modifiers body =>
      obtain ⟨before, after, rfl⟩ := List.append_of_mem (show child ∈ body from inside)
      exact ⟨.eventBody name modifiers before after, rfl⟩
    | binary operator left right =>
      rcases List.mem_cons.mp inside with rfl | inRight
      · exact ⟨.binaryLeft operator right, rfl⟩
      · obtain rfl := List.mem_singleton.mp inRight
        exact ⟨.binaryRight operator left, rfl⟩
    | unary operator operand =>
      obtain rfl := List.mem_singleton.mp inside
      exact ⟨.unaryOperand operator, rfl⟩
    | member object property =>
      obtain rfl := List.mem_singleton.mp inside
      exact ⟨.memberObject property, rfl⟩
    | sequence commands unrolled =>
      obtain ⟨before, after, rfl⟩ := List.append_of_mem (show child ∈ commands from inside)
      exact ⟨.sequenceCommand before after unrolled, rfl⟩
    | literal | selector | identifier | variableRef | unknown => contradiction
  · rintro ⟨frame, rfl⟩
    cases frame <;> simp [Frame.plug, children]

structure IsCongruence (related : Node → Node → Prop) : Prop extends Equivalence related where
  inside (frame : Frame) {node node'} :
    related node node' → related (frame.plug node) (frame.plug node')

/-- Nodes of one meaning can take each other's place. -/
def Compositional {α : Sort u} (meaning : Node → α) : Prop :=
  ∀ (frame : Frame) (node node' : Node), meaning node = meaning node' →
    meaning (frame.plug node) = meaning (frame.plug node')

/-- Meaning the same is a congruence. -/
theorem Compositional.isCongruence {α : Sort u} {meaning : Node → α}
    (compositional : Compositional meaning) :
    IsCongruence fun node node' => meaning node = meaning node' where
  refl _ := rfl
  symm := Eq.symm
  trans := Eq.trans
  inside frame := compositional frame _ _

namespace IsCongruence

variable {related : Node → Node → Prop}

/-- List slots are changed one item after the other, from the left. -/
theorem of_forall₂ (congruence : IsCongruence related) (plug : List Node → Node)
    (inside : ∀ before after node node', related node node' →
      related (plug (before ++ node :: after)) (plug (before ++ node' :: after)))
    {nodes nodes' : List Node} (each : List.Forall₂ related nodes nodes') :
    related (plug nodes) (plug nodes') := by
  suffices ∀ before, related (plug (before ++ nodes)) (plug (before ++ nodes')) from this []
  induction each with
  | nil => exact fun before => congruence.refl _
  | @cons node node' rest rest' first _ ih =>
    intro before
    have changed := inside before rest node node' first
    have others := ih (before ++ [node'])
    simp only [List.append_assoc, List.singleton_append] at others
    exact congruence.trans changed others

theorem of_slotwise (congruence : IsCongruence related) {node node' : Node}
    (slots : node.Slotwise related (List.Forall₂ related) (List.Forall₂ related) node') :
    related node node' := by
  cases slots with
  | leaf => exact congruence.refl node
  | @command name args args' target target' inArgs inTarget =>
    have first := congruence.of_forall₂ (.command name · target)
      (fun before after _ _ => congruence.inside (.commandArg name before after target)) inArgs
    cases inTarget with
    | none => exact first
    | some second =>
      exact congruence.trans first (congruence.inside (.commandTarget name args') second)
  | @ifElse condition condition' thenBranch thenBranch' elseBranch elseBranch' head inThen inElse =>
    have first := congruence.inside (.ifCondition thenBranch elseBranch) head
    have second := congruence.of_forall₂ (.ifElse condition' · elseBranch)
      (fun before after _ _ => congruence.inside (.ifThen condition' before after elseBranch)) inThen
    cases inElse with
    | none => exact congruence.trans first second
    | some inElse =>
      have third := congruence.of_forall₂ (fun nodes => .ifElse condition' thenBranch' (some nodes))
        (fun before after _ _ =>
          congruence.inside (.ifElse condition' thenBranch' before after)) inElse
      exact congruence.trans first (congruence.trans second third)
  | @repeatTimes count count' body body' inCount inBody =>
    have second := congruence.of_forall₂ (.repeatTimes count' ·)
      (fun before after _ _ => congruence.inside (.repeatBody count' before after)) inBody
    cases inCount with
    | none => exact second
    | some first => exact congruence.trans (congruence.inside (.repeatCount body) first) second
  | @forEach itemName collection collection' body body' head inBody =>
    exact congruence.trans (congruence.inside (.forEachCollection itemName body) head) <|
      congruence.of_forall₂ (.forEach itemName collection' ·) (fun before after _ _ =>
        congruence.inside (.forEachBody itemName collection' before after)) inBody
  | @whileLoop condition condition' body body' head inBody =>
    exact congruence.trans (congruence.inside (.whileCondition body) head) <|
      congruence.of_forall₂ (.whileLoop condition' ·) (fun before after _ _ =>
        congruence.inside (.whileBody condition' before after)) inBody
  | @event name modifiers body body' inBody =>
    exact congruence.of_forall₂ (.event name modifiers ·) (fun before after _ _ =>
      congruence.inside (.eventBody name modifiers before after)) inBody
  | @binary operator left left' right right' first second =>
    exact congruence.trans (congruence.inside (.binaryLeft operator right) first)
      (congruence.inside (.binaryRight operator left') second)
  | unary operand => exact congruence.inside (.unaryOperand _) operand
  | member object => exact congruence.inside (.memberObject _) object
  | @sequence commands commands' unrolled inCommands =>
    exact congruence.of_forall₂ (.sequence · unrolled) (fun before after _ _ =>
      congruence.inside (.sequenceCommand before after unrolled)) inCommands

/-- A revision that drops nothing stays within any congruence that holds its rule. -/
theorem of_revision (congruence : IsCongruence related) {revision : Revision}
    (finish : ∀ node, related node (revision.finish node).value)
    (neverEnds : ∀ node, revision.endsBlock node = false) (tree : Node) :
    related tree (revision.node tree).value :=
  Revision.Within.related
    { compatible := congruence.of_slotwise
      trans := congruence.trans
      finish
      block := Revision.block_forall₂ neverEnds
      list := Revision.list_forall₂ (fun _ => congruence.refl) }
    tree

end IsCongruence
end Node
end Hyperscript
