import Hyperscript.Script.Revision
import Mathlib.Data.List.Forall2

/-! Scripts compared slot by slot. A relation that respects the slots relates every
script to its revision as soon as the rules of the revision stay within it; what
each pass preserves is such a relation, and the walk is dealt with here once. -/
namespace Hyperscript
namespace Node

/-- A property that passes from the direct children to their parent holds of every
script; no case for the lists and options in between. -/
@[elab_as_elim]
theorem childInduction {P : Node → Prop}
    (parent : ∀ node : Node, (∀ child ∈ node.children, P child) → P node) (node : Node) :
    P node := by
  refine @Node.rec P (fun nodes => ∀ child ∈ nodes, P child)
    (fun node? => ∀ child ∈ node?, P child)
    (fun nodes? => ∀ nodes ∈ nodes?, ∀ child ∈ nodes, P child)
    ?command ?ifElse ?repeatTimes ?forEach ?whileLoop ?event ?literal ?binary ?unary ?selector
    ?identifier ?variableRef ?member ?sequence ?unknown ?nil ?cons ?none ?some ?noBlock ?block node
  case nil | none | noBlock => simp
  case cons => simp +contextual
  case some | block => simp +contextual
  case ifElse =>
    intro condition thenBranch elseBranch first inThen inElse
    apply parent
    cases elseBranch <;> grind [children]
  all_goals
    intros
    apply parent
    grind [children]

/-- Some node of the tree satisfies the predicate when the root does or some child's
tree has one. -/
theorem anyInSubtree_eq (p : Node → Bool) (node : Node) :
    node.anyInSubtree p = (p node || node.children.any (anyInSubtree p)) := by
  rw [anyInSubtree, subtree_eq, List.any_cons, List.any_flatMap]
  rfl

theorem mem_children_of_handler? {node statement : Node} {handler : Handler}
    (found : node.handler? = some handler) (member : statement ∈ handler.body) :
    statement ∈ node.children := by
  cases node with
  | event name modifiers body =>
    cases found
    exact member
  | _ => cases found

/-- What holds of every selector of a script and of its cache key. -/
def Selectors (p : String → Option String → Prop) (node : Node) : Prop :=
  ∀ value cacheKey, .selector value cacheKey ∈ node.subtree → p value cacheKey

theorem mem_subtree_of_child {node child inner : Node} (member : child ∈ node.children)
    (inside : inner ∈ child.subtree) : inner ∈ node.subtree := by
  rw [subtree_eq]
  exact List.mem_cons_of_mem _ (List.mem_flatMap_of_mem member inside)

theorem Selectors.child {p : String → Option String → Prop} {node child : Node}
    (all : node.Selectors p) (member : child ∈ node.children) : child.Selectors p :=
  fun value cacheKey inside => all value cacheKey (mem_subtree_of_child member inside)

theorem Selectors.of_children {p : String → Option String → Prop} {node : Node}
    (root : ∀ value cacheKey, node = .selector value cacheKey → p value cacheKey)
    (children : ∀ child ∈ node.children, child.Selectors p) : node.Selectors p := by
  intro value cacheKey inside
  rw [subtree_eq, List.mem_cons, List.mem_flatMap] at inside
  obtain same | ⟨child, member, inside⟩ := inside
  · exact root value cacheKey same.symm
  · exact children child member value cacheKey inside

variable (single : Node → Node → Prop) (block list : List Node → List Node → Prop)

/-- Same kind, same names and flags, and children related slot by slot. -/
inductive Slotwise : Node → Node → Prop where
  | leaf {node : Node} : node.children = [] → Slotwise node node
  | command {name args args' target target'} : list args args' → Option.Rel single target target' →
      Slotwise (.command name args target) (.command name args' target')
  | ifElse {condition condition' thenBranch thenBranch' elseBranch elseBranch'} :
      single condition condition' → block thenBranch thenBranch' →
      Option.Rel block elseBranch elseBranch' →
      Slotwise (.ifElse condition thenBranch elseBranch) (.ifElse condition' thenBranch' elseBranch')
  | repeatTimes {count count' body body'} : Option.Rel single count count' → block body body' →
      Slotwise (.repeatTimes count body) (.repeatTimes count' body')
  | forEach {itemName collection collection' body body'} :
      single collection collection' → block body body' →
      Slotwise (.forEach itemName collection body) (.forEach itemName collection' body')
  | whileLoop {condition condition' body body'} : single condition condition' → block body body' →
      Slotwise (.whileLoop condition body) (.whileLoop condition' body')
  | event {name modifiers body body'} : block body body' →
      Slotwise (.event name modifiers body) (.event name modifiers body')
  | binary {operator left left' right right'} : single left left' → single right right' →
      Slotwise (.binary operator left right) (.binary operator left' right')
  | unary {operator operand operand'} : single operand operand' →
      Slotwise (.unary operator operand) (.unary operator operand')
  | member {object object' property} : single object object' →
      Slotwise (.member object property) (.member object' property)
  | sequence {commands commands' unrolled} : list commands commands' →
      Slotwise (.sequence commands unrolled) (.sequence commands' unrolled)

theorem Slotwise.eq {node node' : Node} (related : Slotwise Eq Eq Eq node node') : node = node' := by
  cases related with
  | leaf => rfl
  | command args target => cases target <;> simp_all
  | ifElse condition thenBranch elseBranch => cases elseBranch <;> simp_all
  | repeatTimes count body => cases count <;> simp_all
  | _ => simp_all

theorem Slotwise.children {single : Node → Node → Prop} {node node' : Node}
    (related : Slotwise single (List.Forall₂ single) (List.Forall₂ single) node node') :
    List.Forall₂ single node.children node'.children := by
  cases related with
  | leaf none => simp [none]
  | command args target =>
    cases target with
    | none => exact List.rel_append args .nil
    | some target => exact List.rel_append args (.cons target .nil)
  | ifElse condition thenBranch elseBranch =>
    cases elseBranch with
    | none => exact .cons condition (List.rel_append thenBranch .nil)
    | some elseBranch => exact .cons condition (List.rel_append thenBranch elseBranch)
  | repeatTimes count body =>
    cases count with
    | none => exact body
    | some count => exact .cons count body
  | forEach head body | whileLoop head body => exact .cons head body
  | event body => exact body
  | binary left right => exact .cons left (.cons right .nil)
  | unary operand => exact .cons operand .nil
  | member object => exact .cons object .nil
  | sequence commands => exact commands

end Node

namespace Revision

open Node

variable {single : Node → Node → Prop} {block list : List Node → List Node → Prop}

/-- What the walk does before the rule of the node itself. -/
theorem slotwise {revision : Revision}
    (inBlock : ∀ statements, (∀ statement ∈ statements,
      single statement (revision.node statement).value) →
        block statements (revision.block statements).value)
    (inList : ∀ items, (∀ item ∈ items, single item (revision.node item).value) →
      list items (revision.list items).value)
    (node : Node) (children : ∀ child ∈ node.children, single child (revision.node child).value) :
    Slotwise single block list node
      (node.mapSlots revision.node revision.block revision.list).value := by
  cases node with
  | command name args target =>
    have inArgs := inList args fun item member => children item (by simp [Node.children, member])
    cases target with
    | none => exact .command inArgs .none
    | some target => exact .command inArgs (.some (children target (by simp [Node.children])))
  | ifElse condition thenBranch elseBranch =>
    have first := children condition (by simp [Node.children])
    have inThen := inBlock thenBranch fun statement member =>
      children statement (by simp [Node.children, member])
    cases elseBranch with
    | none => exact .ifElse first inThen .none
    | some elseBranch =>
      have inElse := inBlock elseBranch fun statement member =>
        children statement (by simp [Node.children, member])
      exact .ifElse first inThen (.some inElse)
  | repeatTimes count body =>
    have inBody := inBlock body fun statement member =>
      children statement (by simp [Node.children, member])
    cases count with
    | none => exact .repeatTimes .none inBody
    | some count => exact .repeatTimes (.some (children count (by simp [Node.children]))) inBody
  | forEach itemName collection body =>
    exact .forEach (children collection (by simp [Node.children])) <|
      inBlock body fun statement member => children statement (by simp [Node.children, member])
  | whileLoop condition body =>
    exact .whileLoop (children condition (by simp [Node.children])) <|
      inBlock body fun statement member => children statement (by simp [Node.children, member])
  | event name modifiers body => exact .event (inBlock body children)
  | binary operator left right =>
    exact .binary (children left (by simp [Node.children])) (children right (by simp [Node.children]))
  | unary operator operand => exact .unary (children operand (by simp [Node.children]))
  | member object property => exact .member (children object (by simp [Node.children]))
  | sequence commands unrolled => exact .sequence (inList commands children)
  | literal | selector | identifier | variableRef | unknown => exact .leaf rfl

/-- The rules of a revision stay within a relation that respects the slots. Blocks
and lists are related as a whole, since a revision may shorten a block. -/
structure Within (revision : Revision) (single : Node → Node → Prop)
    (block list : List Node → List Node → Prop) : Prop where
  compatible {node node'} : Slotwise single block list node node' → single node node'
  trans {first second third} : single first second → single second third → single first third
  finish (node) : single node (revision.finish node).value
  block (statements) : (∀ statement ∈ statements, single statement (revision.node statement).value) →
    block statements (revision.block statements).value
  list (items) : (∀ item ∈ items, single item (revision.node item).value) →
    list items (revision.list items).value

theorem Within.related {revision : Revision} (within : revision.Within single block list)
    (tree : Node) : single tree (revision.node tree).value := by
  induction tree using childInduction with
  | parent node children =>
    rw [node_eq]
    exact within.trans (within.compatible (slotwise within.block within.list node children))
      (within.finish _)

theorem value_block_cons (revision : Revision) (statement : Node) (rest : List Node) :
    (revision.block (statement :: rest)).value =
      if revision.endsBlock (revision.node statement).value then [(revision.node statement).value]
      else (revision.node statement).value :: (revision.block rest).value := by
  simp only [Revision.block, Revised.value_bind]
  split
  · cases rest <;> rfl
  · rfl

/-- Without early ends a block keeps its statements, each revised. -/
theorem block_forall₂ {revision : Revision} (neverEnds : ∀ node, revision.endsBlock node = false)
    (statements : List Node)
    (related : ∀ statement ∈ statements, single statement (revision.node statement).value) :
    List.Forall₂ single statements (revision.block statements).value := by
  induction statements with
  | nil => exact .nil
  | cons statement rest ih =>
    simp only [value_block_cons, neverEnds, Bool.false_eq_true, if_false]
    exact .cons (related statement List.mem_cons_self) <|
      ih fun other member => related other (List.mem_cons_of_mem _ member)

theorem list_forall₂ {revision : Revision}
    (kept : revision.entersLists = false → ∀ node, single node node) (items : List Node)
    (related : ∀ item ∈ items, single item (revision.node item).value) :
    List.Forall₂ single items (revision.list items).value := by
  induction items with
  | nil => exact .nil
  | cons item rest ih =>
    unfold Revision.list
    split
    next =>
      exact .cons (related item List.mem_cons_self) <|
        ih fun other member => related other (List.mem_cons_of_mem _ member)
    next skipped =>
      exact List.forall₂_same.mpr fun node _ => kept (Bool.eq_false_iff.mpr skipped) node

/-- A revision that drops nothing, as far as the selectors are concerned. -/
theorem selectors_node {revision : Revision} {p q : String → Option String → Prop}
    (neverEnds : ∀ node, revision.endsBlock node = false) (enters : revision.entersLists = true)
    (finish : ∀ node, (∀ value cacheKey, node = .selector value cacheKey → p value cacheKey) →
      (∀ child ∈ node.children, child.Selectors q) → (revision.finish node).value.Selectors q)
    (tree : Node) (all : tree.Selectors p) : (revision.node tree).value.Selectors q := by
  induction tree using childInduction with
  | parent tree ih =>
    have inside : List.Forall₂ (fun _ revised => revised.Selectors q) tree.children
        (tree.mapSlots revision.node revision.block revision.list).value.children :=
      (slotwise (block_forall₂ neverEnds) (list_forall₂ (by simp [enters])) tree
        fun child member => ih child member (all.child member)).children
    rw [node_eq, Revised.value_bind]
    refine finish _ ?_ ?_
    · intro value cacheKey same
      refine all value cacheKey ?_
      cases tree <;> simp_all [mapSlots, subtree]
    · have flipped := inside.flip.imp fun _ _ holds => And.intro holds trivial
      exact ((List.forall₂_and_left _ _).mp flipped).1

/-- Taking a script apart and putting it together again gives the same script. -/
theorem value_copy (tree : Node) : (copy.node tree).value = tree := by
  have within : copy.Within Eq Eq Eq :=
    { compatible := fun related => Slotwise.eq related
      trans := Eq.trans
      finish := fun _ => rfl
      block := fun statements same =>
        List.forall₂_eq_eq_eq ▸ block_forall₂ (fun _ => rfl) statements same
      list := fun items same =>
        List.forall₂_eq_eq_eq ▸ list_forall₂ (fun _ _ => rfl) items same }
  exact (within.related tree).symm

end Revision
end Hyperscript
