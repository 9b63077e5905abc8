import Hyperscript.Proofs.Script.Everywhere

/-! Statement lists, as far as they can be reached without passing through arguments or
flattened commands, and what revisions make of them. In a trimmed script no statement of
such a list stands behind a terminator. -/
namespace Hyperscript
namespace Node

/-- The children that stand in no list of arguments or flattened commands. -/
def openChildren : Node → List Node
  | .command _ _ target => target.toList
  | .sequence .. => []
  | node => node.children

/-- The statement lists of the node itself. -/
def blocks : Node → List (List Node)
  | .ifElse _ thenBranch elseBranch => thenBranch :: elseBranch.toList
  | .repeatTimes _ body | .forEach _ _ body | .whileLoop _ body | .event _ _ body => [body]
  | _ => []

/-- What is beneath a node, or is the node, without arguments and flattened commands. -/
inductive Reaches : Node → Node → Prop where
  | root (node : Node) : Reaches node node
  | child {node child inner : Node} : child ∈ node.openChildren → Reaches child inner →
      Reaches node inner

/-- No statement stands behind a terminator. -/
def EndsAtTerminator (statements : List Node) : Prop :=
  ∀ before statement after, statements = before ++ statement :: after →
    statement.isTerminator = true → after = []

theorem endsAtTerminator_nil : EndsAtTerminator [] := by
  intro before statement after same
  simp at same

theorem endsAtTerminator_cons {statement : Node} {rest : List Node} :
    EndsAtTerminator (statement :: rest) ↔
      (statement.isTerminator = true → rest = []) ∧ EndsAtTerminator rest := by
  constructor
  · intro whole
    refine ⟨whole [] statement rest rfl, ?_⟩
    intro before inner after same
    exact whole (statement :: before) inner after (by rw [same, List.cons_append])
  · rintro ⟨first, others⟩ before inner after same
    cases before with
    | nil =>
      cases same
      exact first
    | cons _ before =>
      cases same
      exact others before inner after rfl

/-- Every statement list in reach ends where a terminator stands. -/
def IsTrimmed (node : Node) : Prop :=
  ∀ inner, node.Reaches inner → ∀ block ∈ inner.blocks, EndsAtTerminator block

theorem isTrimmed_iff {node : Node} :
    node.IsTrimmed ↔ (∀ block ∈ node.blocks, EndsAtTerminator block) ∧
      ∀ child ∈ node.openChildren, child.IsTrimmed := by
  constructor
  · intro trimmed
    exact ⟨trimmed node (.root node),
      fun child member inner reached => trimmed inner (.child member reached)⟩
  · rintro ⟨here, beneath⟩ inner reached
    cases reached with
    | root => exact here
    | child member reached => exact beneath _ member inner reached

theorem openChildren_subset (node : Node) : node.openChildren ⊆ node.children := by
  cases node with
  | command name args target => exact List.subset_append_right _ _
  | sequence commands unrolled => exact List.nil_subset _
  | _ => exact List.Subset.refl _

theorem mem_children_of_mem_blocks {node statement : Node} {block : List Node}
    (inBlocks : block ∈ node.blocks) (member : statement ∈ block) : statement ∈ node.children := by
  cases node with
  | ifElse condition thenBranch elseBranch =>
    cases elseBranch with
    | none =>
      cases List.mem_singleton.mp inBlocks
      exact List.mem_cons_of_mem _ (List.mem_append_left _ member)
    | some elseBranch =>
      obtain rfl | rfl : block = thenBranch ∨ block = elseBranch := by
        simpa [blocks] using inBlocks
      · exact List.mem_cons_of_mem _ (List.mem_append_left _ member)
      · exact List.mem_cons_of_mem _ (List.mem_append_right _ member)
  | repeatTimes count body =>
    cases List.mem_singleton.mp inBlocks
    exact List.mem_append_right _ member
  | forEach itemName head body =>
    cases List.mem_singleton.mp inBlocks
    exact List.mem_cons_of_mem _ member
  | whileLoop head body =>
    cases List.mem_singleton.mp inBlocks
    exact List.mem_cons_of_mem _ member
  | event name modifiers body =>
    cases List.mem_singleton.mp inBlocks
    exact member
  | _ => cases inBlocks

variable {single : Node → Node → Prop} {block list : List Node → List Node → Prop}

/-- What the slots make of the blocks and of the children outside of lists. -/
theorem Slotwise.isTrimmed {node node' : Node} (related : Slotwise single block list node node')
    (inSingle : ∀ child child', single child child' → child'.IsTrimmed)
    (inBlock : ∀ nodes nodes', block nodes nodes' →
      EndsAtTerminator nodes' ∧ ∀ child ∈ nodes', child.IsTrimmed) : node'.IsTrimmed := by
  rw [isTrimmed_iff]
  cases related with
  | leaf none =>
    constructor
    · intro block inBlocks
      have empty : block = [] := by
        rw [List.eq_nil_iff_forall_not_mem]
        intro statement member
        have inside := mem_children_of_mem_blocks inBlocks member
        rw [none] at inside
        cases inside
      rw [empty]
      exact endsAtTerminator_nil
    · intro child member
      have inside := openChildren_subset _ member
      rw [none] at inside
      cases inside
  | command args target =>
    cases target with
    | none => simp [openChildren, blocks]
    | some target => simpa [openChildren, blocks] using inSingle _ _ target
  | ifElse condition thenBranch elseBranch =>
    have first := inSingle _ _ condition
    have second := inBlock _ _ thenBranch
    cases elseBranch with
    | none => simpa [openChildren, blocks, Node.children, first] using second
    | some elseBranch =>
      have third := inBlock _ _ elseBranch
      refine ⟨?_, List.forall_mem_cons.mpr ⟨first, List.forall_mem_append.mpr ⟨second.2, third.2⟩⟩⟩
      exact List.forall_mem_cons.mpr ⟨second.1, List.forall_mem_singleton.mpr third.1⟩
  | repeatTimes count body =>
    have second := inBlock _ _ body
    cases count with
    | none => simpa [openChildren, blocks, Node.children] using second
    | some count => simpa [openChildren, blocks, Node.children, inSingle _ _ count] using second
  | forEach head body | whileLoop head body =>
    simpa [openChildren, blocks, Node.children, inSingle _ _ head] using inBlock _ _ body
  | event body => simpa [openChildren, blocks, Node.children] using inBlock _ _ body
  | binary left right =>
    simpa [openChildren, blocks, Node.children, inSingle _ _ left] using inSingle _ _ right
  | unary operand => simpa [openChildren, blocks, Node.children] using inSingle _ _ operand
  | member object => simpa [openChildren, blocks, Node.children] using inSingle _ _ object
  | sequence => simp [openChildren, blocks]

/-- Of a trimmed node, the blocks end at terminators and what is in the slots is trimmed,
lists apart. -/
theorem Slotwise.and_isTrimmed {node node' : Node} (related : Slotwise single block list node node')
    (trimmed : node.IsTrimmed) :
    Slotwise (fun child child' => child.IsTrimmed ∧ single child child')
      (fun nodes nodes' => (EndsAtTerminator nodes ∧ ∀ child ∈ nodes, child.IsTrimmed) ∧
        block nodes nodes') list node node' := by
  obtain ⟨here, beneath⟩ := isTrimmed_iff.mp trimmed
  cases related with
  | leaf none => exact .leaf none
  | command args target =>
    cases target with
    | none => exact .command args .none
    | some target => exact .command args (.some ⟨beneath _ (by simp [openChildren]), target⟩)
  | ifElse condition thenBranch elseBranch =>
    simp only [openChildren, Node.children, List.cons_append, List.forall_mem_cons,
      List.forall_mem_append] at beneath
    have first := here _ List.mem_cons_self
    cases elseBranch with
    | none =>
      exact .ifElse ⟨beneath.1, condition⟩ ⟨⟨first, beneath.2.1⟩, thenBranch⟩ .none
    | some elseBranch =>
      have second := here _ (List.mem_cons_of_mem _ List.mem_cons_self)
      exact .ifElse ⟨beneath.1, condition⟩ ⟨⟨first, beneath.2.1⟩, thenBranch⟩
        (.some ⟨⟨second, beneath.2.2⟩, elseBranch⟩)
  | repeatTimes count body =>
    simp only [openChildren, Node.children, List.forall_mem_append] at beneath
    have ends := here _ List.mem_cons_self
    cases count with
    | none => exact .repeatTimes .none ⟨⟨ends, beneath.2⟩, body⟩
    | some count =>
      exact .repeatTimes (.some ⟨beneath.1 _ (by simp), count⟩) ⟨⟨ends, beneath.2⟩, body⟩
  | forEach head body =>
    obtain ⟨inHead, inBody⟩ := List.forall_mem_cons.mp beneath
    exact .forEach ⟨inHead, head⟩ ⟨⟨here _ List.mem_cons_self, inBody⟩, body⟩
  | whileLoop head body =>
    obtain ⟨inHead, inBody⟩ := List.forall_mem_cons.mp beneath
    exact .whileLoop ⟨inHead, head⟩ ⟨⟨here _ List.mem_cons_self, inBody⟩, body⟩
  | event body => exact .event ⟨⟨here _ List.mem_cons_self, beneath⟩, body⟩
  | binary left right =>
    obtain ⟨inLeft, inRight⟩ := List.forall_mem_cons.mp beneath
    exact .binary ⟨inLeft, left⟩ ⟨inRight _ List.mem_cons_self, right⟩
  | unary operand => exact .unary ⟨beneath _ List.mem_cons_self, operand⟩
  | member object => exact .member ⟨beneath _ List.mem_cons_self, object⟩
  | sequence commands => exact .sequence commands

end Node
end Hyperscript
