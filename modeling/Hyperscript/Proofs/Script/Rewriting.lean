import Hyperscript.Proofs.Script.Frame
import Mathlib.Logic.Relation

/-! The two readings of the child slots. One lists the children of a node, the other puts the
node together again from what a rewriter makes of them. They go through the same slots in the
same order, so that whatever lies beneath a node is found by the first and reached by the
second. -/
namespace Hyperscript
namespace Node

variable {σ : Type}

/-- A node with each child handed to the rewriter. Blocks and lists are gone through from left
to right. -/
def rewriteChildren {m : Type → Type} [Monad m] (rewrite : Node → m Node) : Node → m Node :=
  mapSlots rewrite (·.mapM rewrite) (·.mapM rewrite)

/-- So many blanks. -/
def blanks (nodes : List Node) : List Node := List.replicate nodes.length .unknown

/-- A node without its children: the kind, the fields that hold no nodes, and how many nodes
there are in each slot. -/
def outline : Node → Node
  | .command name args target => .command name (blanks args) (target.map fun _ => .unknown)
  | .ifElse _ thenBranch elseBranch =>
    .ifElse .unknown (blanks thenBranch) (elseBranch.map blanks)
  | .repeatTimes count body => .repeatTimes (count.map fun _ => .unknown) (blanks body)
  | .forEach itemName _ body => .forEach itemName .unknown (blanks body)
  | .whileLoop _ body => .whileLoop .unknown (blanks body)
  | .event name modifiers body => .event name modifiers (blanks body)
  | .binary operator _ _ => .binary operator .unknown .unknown
  | .unary operator _ => .unary operator .unknown
  | .member _ property => .member .unknown property
  | .sequence commands unrolled => .sequence (blanks commands) unrolled
  | .literal value => .literal value
  | .selector value cacheKey => .selector value cacheKey
  | .identifier name => .identifier name
  | .variableRef name => .variableRef name
  | .unknown => .unknown

theorem blanks_inj {nodes nodes' : List Node} :
    blanks nodes = blanks nodes' ↔ nodes.length = nodes'.length := by
  simp [blanks]

/-- Nothing but the outline and the children makes a node: no slot is left out of them. -/
theorem eq_of_outline {node node' : Node} (outlines : node.outline = node'.outline)
    (inside : node.children = node'.children) : node = node' := by
  cases node <;> cases node' <;> simp only [outline, reduceCtorEq] at outlines
  case command.command name args target name' args' target' =>
    obtain ⟨rfl, inArgs, -⟩ := command.inj outlines
    obtain ⟨rfl, targets⟩ := List.append_inj inside (blanks_inj.mp inArgs)
    cases target <;> cases target' <;> simp_all
  case ifElse.ifElse condition thenBranch elseBranch condition' thenBranch' elseBranch' =>
    obtain ⟨-, inThen, inElse⟩ := ifElse.inj outlines
    obtain ⟨rfl, branches⟩ := List.cons.inj inside
    obtain ⟨rfl, others⟩ := List.append_inj branches (blanks_inj.mp inThen)
    cases elseBranch <;> cases elseBranch' <;> simp_all
  case repeatTimes.repeatTimes count body count' body' =>
    obtain ⟨inCount, -⟩ := repeatTimes.inj outlines
    cases count <;> cases count' <;> simp_all [children]
  all_goals simp_all [children]

section Calls

variable (rewrite : Node → StateM σ Node)

theorem run_mapM_cons (node : Node) (rest : List Node) (state : σ) :
    ((node :: rest).mapM rewrite).run state =
      let image := (rewrite node).run state
      let images := (rest.mapM rewrite).run image.2
      (image.1 :: images.1, images.2) := by
  rw [List.mapM_cons]
  rfl

theorem run_mapM_append (first second : List Node) (state : σ) :
    ((first ++ second).mapM rewrite).run state =
      let images := (first.mapM rewrite).run state
      let others := (second.mapM rewrite).run images.2
      (images.1 ++ others.1, others.2) := by
  rw [List.mapM_append]
  rfl

/-- One image for each node. -/
theorem blanks_mapM (nodes : List Node) (state : σ) :
    blanks ((nodes.mapM rewrite).run state).1 = blanks nodes := by
  rw [blanks_inj]
  induction nodes generalizing state with
  | nil => rfl
  | cons node rest ih => simp only [run_mapM_cons, List.length_cons, ih]

/-- A rewritten node has its outline still, and the images of its children for children. -/
theorem run_rewriteChildren (node : Node) (state : σ) :
    let images := (node.children.mapM rewrite).run state
    let rewritten := (node.rewriteChildren rewrite).run state
    rewritten.2 = images.2 ∧ rewritten.1.outline = node.outline ∧
      rewritten.1.children = images.1 := by
  cases node with
  | command name args target =>
    have first := congrArg (command name · (target.map fun _ => .unknown))
      (blanks_mapM rewrite args state)
    cases target with
    | none =>
      simp only [children, Option.toList_none, List.append_nil]
      exact ⟨rfl, first, List.append_nil _⟩
    | some target =>
      simp only [children, Option.toList_some, run_mapM_append]
      exact ⟨rfl, first, rfl⟩
  | ifElse condition thenBranch elseBranch =>
    have inThen := blanks_mapM rewrite thenBranch ((rewrite condition).run state).2
    cases elseBranch with
    | none =>
      simp only [children, List.cons_append, run_mapM_cons, Option.getD_none, List.append_nil]
      exact ⟨rfl, congrArg (ifElse .unknown · none) inThen,
        congrArg (List.cons _) (List.append_nil _)⟩
    | some elseBranch =>
      simp only [children, List.cons_append, run_mapM_cons, run_mapM_append, Option.getD_some]
      exact ⟨rfl, congrArg₂ (ifElse .unknown · <| some ·) inThen
        (blanks_mapM rewrite elseBranch _), rfl⟩
  | repeatTimes count body =>
    cases count with
    | none => exact ⟨rfl, congrArg (repeatTimes none) (blanks_mapM rewrite body state), rfl⟩
    | some count =>
      simp only [children, Option.toList_some, List.singleton_append, run_mapM_cons]
      exact ⟨rfl, congrArg (repeatTimes (some .unknown)) (blanks_mapM rewrite body _), rfl⟩
  | forEach itemName collection body =>
    simp only [children, run_mapM_cons]
    exact ⟨rfl, congrArg (forEach itemName .unknown) (blanks_mapM rewrite body _), rfl⟩
  | whileLoop condition body =>
    simp only [children, run_mapM_cons]
    exact ⟨rfl, congrArg (whileLoop .unknown) (blanks_mapM rewrite body _), rfl⟩
  | event name modifiers body =>
    exact ⟨rfl, congrArg (event name modifiers) (blanks_mapM rewrite body state), rfl⟩
  | sequence commands unrolled =>
    exact ⟨rfl, congrArg (sequence · unrolled) (blanks_mapM rewrite commands state), rfl⟩
  | binary | unary | member => exact ⟨rfl, rfl, rfl⟩
  | literal | selector | identifier | variableRef | unknown => exact ⟨rfl, rfl, rfl⟩

/-- The rewriter, with a list of the nodes that it is called on. -/
def noting (node : Node) : StateM (σ × List Node) Node := do
  let (state, called) ← get
  let (image, state) := (rewrite node).run state
  set (state, called ++ [node])
  return image

/-- Noting the calls changes none of them. -/
theorem run_mapM_noting (nodes : List Node) (state : σ) (called : List Node) :
    (nodes.mapM (noting rewrite)).run (state, called) =
      let images := (nodes.mapM rewrite).run state
      (images.1, images.2, called ++ nodes) := by
  induction nodes generalizing state called with
  | nil => exact congrArg (fun called => ([], state, called)) (List.append_nil called).symm
  | cons node rest ih =>
    have step : (noting rewrite node).run (state, called) =
        let image := (rewrite node).run state
        (image.1, image.2, called ++ [node]) := rfl
    simp only [run_mapM_cons, step, ih, List.append_assoc, List.singleton_append]

end Calls

/-- The node itself or something beneath it, in whatever slots. -/
def Encloses (node inner : Node) : Prop :=
  Relation.ReflTransGen (fun parent child => ∃ frame : Frame, frame.plug child = parent) node inner

theorem mem_subtree_iff {node inner : Node} : inner ∈ node.subtree ↔ node.Encloses inner := by
  constructor
  · intro inside
    induction node using childInduction with
    | parent node ih =>
      rw [subtree_eq, List.mem_cons, List.mem_flatMap] at inside
      obtain rfl | ⟨child, member, inside⟩ := inside
      · exact .refl
      · exact .head (mem_children_iff.mp member) (ih child member inside)
  · intro beneath
    induction beneath using Relation.ReflTransGen.head_induction_on with
    | refl =>
      rw [subtree_eq]
      exact List.mem_cons_self
    | head step _ ih => exact mem_subtree_of_child (mem_children_iff.mpr step) ih

end Node

namespace Revision

open Node

variable {revision : Revision}

theorem block_eq_mapM (neverEnds : ∀ node, revision.endsBlock node = false)
    (statements : List Node) : revision.block statements = statements.mapM revision.node := by
  induction statements with
  | nil => rfl
  | cons statement rest ih => simp [block, neverEnds, ih, List.mapM_cons]

theorem list_eq_mapM (enters : revision.entersLists = true) (items : List Node) :
    revision.list items = items.mapM revision.node := by
  induction items with
  | nil => rfl
  | cons item rest ih => simp [list, enters, ih, List.mapM_cons]

/-- A revision that ends no block and enters lists rewrites the children, then the node. -/
theorem node_eq_rewriteChildren (neverEnds : ∀ node, revision.endsBlock node = false)
    (enters : revision.entersLists = true) (tree : Node) :
    revision.node tree = tree.rewriteChildren revision.node >>= revision.finish := by
  have inBlock : revision.block = (·.mapM revision.node) := funext (block_eq_mapM neverEnds)
  have inList : revision.list = (·.mapM revision.node) := funext (list_eq_mapM enters)
  rw [node_eq, rewriteChildren, inBlock, inList]

end Revision

namespace Node

/-- A rewriter is called once on each child, in the order in which the children are listed, and
is handed its own state from call to call. What comes of the node is the one node of the same
outline whose children are the images. So a search finds what holds of the node or of
something beneath it, through whatever slots, and a copy is equal to what was copied. -/
theorem visiting_and_rewriting_agree :
    (∀ (σ : Type) (rewrite : Node → StateM σ Node) (node : Node) (state : σ),
      let images := (node.children.mapM rewrite).run state
      let rewritten := (node.rewriteChildren rewrite).run state
      rewritten.2 = images.2 ∧
        (∀ result, result = rewritten.1 ↔
          result.outline = node.outline ∧ result.children = images.1) ∧
        (node.rewriteChildren (noting rewrite)).run (state, []) =
          (rewritten.1, rewritten.2, node.children)) ∧
    (∀ (p : Node → Bool) (node : Node),
      node.anyInSubtree p = true ↔ ∃ inner, node.Encloses inner ∧ p inner = true) ∧
    ∀ node, Revision.copy.node node = node.rewriteChildren Revision.copy.node ∧
      (Revision.copy.node node).value = node := by
  refine ⟨?_, ?_, ?_⟩
  · intro σ rewrite node state
    obtain ⟨left, outline, inside⟩ := run_rewriteChildren rewrite node state
    obtain ⟨left', outline', inside'⟩ :=
      run_rewriteChildren (noting rewrite) node (state, [])
    simp only [run_mapM_noting, List.nil_append] at left' inside'
    refine ⟨left, ?_, ?_⟩
    · intro result
      constructor
      · rintro rfl
        exact ⟨outline, inside⟩
      · rintro ⟨sameOutline, sameChildren⟩
        exact eq_of_outline (sameOutline.trans outline.symm) (sameChildren.trans inside.symm)
    · have same := eq_of_outline (outline'.trans outline.symm) (inside'.trans inside.symm)
      exact Prod.ext same (left'.trans (by rw [left]))
  · intro p node
    simp only [anyInSubtree, List.any_eq_true, mem_subtree_iff]
  · intro node
    refine ⟨?_, Revision.value_copy node⟩
    exact (Revision.node_eq_rewriteChildren (fun _ => rfl) rfl node).trans (bind_pure _)

end Node
end Hyperscript
