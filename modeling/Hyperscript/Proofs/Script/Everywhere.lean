import Hyperscript.Proofs.Script.Slots

/-! Properties of all nodes of a script, and revisions. A property of a node without its
children holds all over a revised script as soon as the rule of the revision keeps it. A
revision whose rule has nothing to do at any node gives the script back as it was. -/
namespace Hyperscript
namespace Node

/-- The property holds of the node and of everything beneath it. -/
def Everywhere (p : Node → Prop) (node : Node) : Prop := ∀ inner ∈ node.subtree, p inner

variable {p : Node → Prop}

theorem everywhere_iff {node : Node} :
    node.Everywhere p ↔ p node ∧ ∀ child ∈ node.children, child.Everywhere p := by
  unfold Everywhere
  rw [subtree_eq]
  simp only [List.forall_mem_cons, List.forall_mem_flatMap]

theorem Everywhere.child {node child : Node} (all : node.Everywhere p)
    (member : child ∈ node.children) : child.Everywhere p :=
  (everywhere_iff.mp all).2 child member

theorem anyInSubtree_eq_false_iff {q : Node → Bool} {node : Node} :
    node.anyInSubtree q = false ↔ node.Everywhere (q · = false) := by
  simp only [anyInSubtree, List.any_eq_false, Bool.not_eq_true, Everywhere]

theorem selectors_iff_everywhere {p : String → Option String → Prop} {node : Node} :
    node.Selectors p ↔
      node.Everywhere fun inner => ∀ value cacheKey, inner = .selector value cacheKey →
        p value cacheKey := by
  constructor
  · rintro all inner inside value cacheKey rfl
    exact all value cacheKey inside
  · intro all value cacheKey inside
    exact all _ inside value cacheKey rfl

/-- Same kind, same names and flags, whatever the children are. -/
abbrev SameRoot (node node' : Node) : Prop :=
  Slotwise (fun _ _ => True) (fun _ _ => True) (fun _ _ => True) node node'

variable {single : Node → Node → Prop} {block list : List Node → List Node → Prop}

theorem Slotwise.imp {single' : Node → Node → Prop} {block' list' : List Node → List Node → Prop}
    {node node' : Node} (related : Slotwise single block list node node')
    (inSingle : ∀ child child', single child child' → single' child child')
    (inBlock : ∀ nodes nodes', block nodes nodes' → block' nodes nodes')
    (inList : ∀ nodes nodes', list nodes nodes' → list' nodes nodes') :
    Slotwise single' block' list' node node' := by
  have optional {α : Type} {r r' : α → α → Prop} {x x' : Option α} (weaker : ∀ a b, r a b → r' a b)
      (related : Option.Rel r x x') : Option.Rel r' x x' := by
    cases related with
    | none => exact .none
    | some inside => exact .some (weaker _ _ inside)
  cases related with
  | leaf none => exact .leaf none
  | command args target => exact .command (inList _ _ args) (optional inSingle target)
  | ifElse condition thenBranch elseBranch =>
    exact .ifElse (inSingle _ _ condition) (inBlock _ _ thenBranch) (optional inBlock elseBranch)
  | repeatTimes count body => exact .repeatTimes (optional inSingle count) (inBlock _ _ body)
  | forEach head body => exact .forEach (inSingle _ _ head) (inBlock _ _ body)
  | whileLoop head body => exact .whileLoop (inSingle _ _ head) (inBlock _ _ body)
  | event body => exact .event (inBlock _ _ body)
  | binary left right => exact .binary (inSingle _ _ left) (inSingle _ _ right)
  | unary operand => exact .unary (inSingle _ _ operand)
  | member object => exact .member (inSingle _ _ object)
  | sequence commands => exact .sequence (inList _ _ commands)

/-- What holds of everything in the slots holds of the children. -/
theorem Slotwise.forall_children {q : Node → Prop} {node node' : Node}
    (related : Slotwise single block list node node')
    (inSingle : ∀ child child', single child child' → q child')
    (inBlock : ∀ nodes nodes', block nodes nodes' → ∀ child ∈ nodes', q child)
    (inList : ∀ nodes nodes', list nodes nodes' → ∀ child ∈ nodes', q child) :
    ∀ child ∈ node'.children, q child := by
  cases related with
  | leaf none => simp [none]
  | command args target =>
    have first := inList _ _ args
    cases target with
    | none => simpa [Node.children] using first
    | some target =>
      have second := inSingle _ _ target
      exact List.forall_mem_append.mpr ⟨first, by simpa using second⟩
  | ifElse condition thenBranch elseBranch =>
    have first := inSingle _ _ condition
    have second := inBlock _ _ thenBranch
    cases elseBranch with
    | none => simpa [Node.children, first] using second
    | some elseBranch =>
      have third := inBlock _ _ elseBranch
      exact List.forall_mem_cons.mpr ⟨first, List.forall_mem_append.mpr ⟨second, third⟩⟩
  | repeatTimes count body =>
    have second := inBlock _ _ body
    cases count with
    | none => exact second
    | some count => exact List.forall_mem_cons.mpr ⟨inSingle _ _ count, second⟩
  | forEach head body | whileLoop head body =>
    exact List.forall_mem_cons.mpr ⟨inSingle _ _ head, inBlock _ _ body⟩
  | event body => exact inBlock _ _ body
  | binary left right => simpa [Node.children, inSingle _ _ left] using inSingle _ _ right
  | unary operand => simpa [Node.children] using inSingle _ _ operand
  | member object => simpa [Node.children] using inSingle _ _ object
  | sequence commands => exact inList _ _ commands

/-- The property is about the node itself, not about its children. -/
def IsOfRoot (p : Node → Prop) : Prop :=
  ∀ {node node' : Node}, SameRoot node node' → p node → p node'

end Node

namespace Revision

open Node

variable {p : Node → Prop} {revision : Revision}

theorem forall_mem_block {q : Node → Prop} {statements : List Node}
    (each : ∀ statement ∈ statements, q (revision.node statement).value) :
    ∀ node ∈ (revision.block statements).value, q node := by
  induction statements with
  | nil => simp [Revision.block]
  | cons statement rest ih =>
    have first := each statement List.mem_cons_self
    have others := ih fun other member => each other (List.mem_cons_of_mem _ member)
    rw [value_block_cons]
    split
    · simpa using first
    · exact List.forall_mem_cons.mpr ⟨first, others⟩

theorem forall_mem_list {q : Node → Prop} {items : List Node} (kept : ∀ item ∈ items, q item)
    (each : ∀ item ∈ items, q (revision.node item).value) :
    ∀ node ∈ (revision.list items).value, q node := by
  induction items with
  | nil => simp [Revision.list]
  | cons item rest ih =>
    unfold Revision.list
    split
    · refine List.forall_mem_cons.mpr ⟨each item List.mem_cons_self, ih ?_ ?_⟩
      · exact fun other member => kept other (List.mem_cons_of_mem _ member)
      · exact fun other member => each other (List.mem_cons_of_mem _ member)
    · exact kept

/-- A property of nodes and of their children as far as `same` tells them apart, kept by the
rule of a revision that leaves every node the same, is kept all over the script, also where
a block ends early or lists are not entered. -/
theorem everywhere_node_of_slots {same : Node → Node → Prop}
    (keeps : ∀ tree, same tree (revision.node tree).value)
    (slots : ∀ {node node' : Node},
      Slotwise same (fun _ _ => True) (fun _ _ => True) node node' → p node → p node')
    (finish : ∀ node, node.Everywhere p → (revision.finish node).value.Everywhere p)
    (tree : Node) (all : tree.Everywhere p) : (revision.node tree).value.Everywhere p := by
  induction tree using childInduction with
  | parent tree ih =>
    rw [node_eq, Revised.value_bind]
    apply finish
    have related : Slotwise (fun node node' => same node node' ∧ node.Everywhere p ∧
          node'.Everywhere p)
        (fun _ nodes => ∀ node ∈ nodes, node.Everywhere p)
        (fun _ nodes => ∀ node ∈ nodes, node.Everywhere p) tree
        (tree.mapSlots revision.node revision.block revision.list).value :=
      slotwise (fun _ each => forall_mem_block fun node member => (each node member).2.2)
        (fun _ each => forall_mem_list (fun node member => (each node member).2.1)
          fun node member => (each node member).2.2)
        tree fun child member =>
          ⟨keeps child, all.child member, ih child member (all.child member)⟩
    refine everywhere_iff.mpr ⟨slots (related.imp (fun _ _ both => both.1) (fun _ _ _ => trivial)
      fun _ _ _ => trivial) (everywhere_iff.mp all).1, ?_⟩
    exact related.forall_children (fun _ _ both => both.2.2) (fun _ _ each => each)
      fun _ _ each => each

/-- A property of roots that the rule of the revision keeps is kept all over the script. -/
theorem everywhere_node (ofRoot : IsOfRoot p)
    (finish : ∀ node, node.Everywhere p → (revision.finish node).value.Everywhere p)
    (tree : Node) (all : tree.Everywhere p) : (revision.node tree).value.Everywhere p :=
  everywhere_node_of_slots (fun _ => trivial) ofRoot finish tree all

/-- What the rule of a revision that goes everywhere brings about at each node holds all over
the revised script. -/
theorem everywhere_established (enters : revision.entersLists = true)
    (finish : ∀ node, (∀ child ∈ node.children, child.Everywhere p) →
      (revision.finish node).value.Everywhere p)
    (tree : Node) : (revision.node tree).value.Everywhere p := by
  induction tree using childInduction with
  | parent tree ih =>
    rw [node_eq, Revised.value_bind]
    apply finish
    have inBlock (statements : List Node)
        (each : ∀ statement ∈ statements, (revision.node statement).value.Everywhere p) :
        ∀ node ∈ (revision.block statements).value, node.Everywhere p := forall_mem_block each
    have inList (items : List Node)
        (each : ∀ item ∈ items, (revision.node item).value.Everywhere p) :
        ∀ node ∈ (revision.list items).value, node.Everywhere p := by
      have revised : List.Forall₂ (fun _ node => node.Everywhere p) items
          (revision.list items).value :=
        list_forall₂ (fun skipped => by simp [enters] at skipped) items each
      have flipped := revised.flip.imp fun _ _ holds => And.intro holds trivial
      exact ((List.forall₂_and_left _ _).mp flipped).1
    have slots : Slotwise (fun _ node => node.Everywhere p)
        (fun _ nodes => ∀ node ∈ nodes, node.Everywhere p)
        (fun _ nodes => ∀ node ∈ nodes, node.Everywhere p) tree
        (tree.mapSlots revision.node revision.block revision.list).value :=
      slotwise inBlock inList tree ih
    exact slots.forall_children (fun _ _ holds => holds) (fun _ _ each => each) fun _ _ each => each

/-- What tells nodes apart by their roots, and not by what the rule does, is the same of a
revised script. -/
theorem root_node {α : Type} (view : Node → α)
    (ofRoot : ∀ {node node' : Node}, SameRoot node node' → view node' = view node)
    (finish : ∀ node, view (revision.finish node).value = view node) (tree : Node) :
    view (revision.node tree).value = view tree := by
  have slots : SameRoot tree (tree.mapSlots revision.node revision.block revision.list).value :=
    slotwise (fun _ _ => trivial) (fun _ _ => trivial) tree fun _ _ => trivial
  rw [node_eq, Revised.value_bind, finish, ofRoot slots]

/-- A revision whose rule finds nothing to replace at any node, and that ends no block, gives
the script back. It may still have something to note. -/
theorem value_node_eq_self (neverEnds : ∀ node, revision.endsBlock node = false) (tree : Node)
    (idle : tree.Everywhere fun node => (revision.finish node).value = node) :
    (revision.node tree).value = tree := by
  induction tree using childInduction with
  | parent tree ih =>
    obtain ⟨finished, inside⟩ := everywhere_iff.mp idle
    have slots : Slotwise Eq Eq Eq tree
        (tree.mapSlots revision.node revision.block revision.list).value :=
      slotwise (fun statements same =>
          List.forall₂_eq_eq_eq ▸ block_forall₂ neverEnds statements same)
        (fun items same => List.forall₂_eq_eq_eq ▸ list_forall₂ (fun _ _ => rfl) items same)
        tree fun child member => (ih child member (inside child member)).symm
    rw [node_eq, Revised.value_bind, ← slots.eq, finished]

theorem block_eq_pure {statements : List Node}
    (each : ∀ statement ∈ statements,
      revision.node statement = pure statement ∧ revision.endsBlock statement = false) :
    revision.block statements = pure statements := by
  induction statements with
  | nil => rfl
  | cons statement rest ih =>
    obtain ⟨same, goesOn⟩ := each statement List.mem_cons_self
    have others := ih fun other member => each other (List.mem_cons_of_mem _ member)
    simp [Revision.block, same, goesOn, others]

theorem list_eq_pure {items : List Node} (each : ∀ item ∈ items, revision.node item = pure item) :
    revision.list items = pure items := by
  induction items with
  | nil => rfl
  | cons item rest ih =>
    have first := each item List.mem_cons_self
    have others := ih fun other member => each other (List.mem_cons_of_mem _ member)
    unfold Revision.list
    split
    · simp [first, others]
    · rfl

/-- A revision whose rule has nothing to do at any node, and that ends no block, gives the
script back: unchanged, and without a note. -/
theorem node_eq_pure (tree : Node)
    (idle : tree.Everywhere fun node =>
      revision.finish node = pure node ∧ revision.endsBlock node = false) :
    revision.node tree = pure tree := by
  induction tree using childInduction with
  | parent tree ih =>
    obtain ⟨⟨finished, _⟩, inside⟩ := everywhere_iff.mp idle
    have single (child : Node) (member : child ∈ tree.children) :
        revision.node child = pure child :=
      ih child member (inside child member)
    have inBlock (statements : List Node) (member : ∀ node ∈ statements, node ∈ tree.children) :
        revision.block statements = pure statements :=
      block_eq_pure fun node inStatements =>
        have inTree := member node inStatements
        ⟨single node inTree, (everywhere_iff.mp (inside node inTree)).1.2⟩
    have inList (items : List Node) (member : ∀ node ∈ items, node ∈ tree.children) :
        revision.list items = pure items :=
      list_eq_pure fun node inItems => single node (member node inItems)
    have slots : tree.mapSlots revision.node revision.block revision.list = pure tree := by
      cases tree with
      | command name args target =>
        have first := inList args (by simp +contextual [children])
        cases target with
        | none => simp [mapSlots, first]
        | some target => simp [mapSlots, first, single target (by simp [children])]
      | ifElse condition thenBranch elseBranch =>
        have first := single condition (by simp [children])
        have second := inBlock thenBranch (by simp +contextual [children])
        cases elseBranch with
        | none => simp [mapSlots, first, second]
        | some elseBranch =>
          have third := inBlock elseBranch (by simp +contextual [children])
          simp [mapSlots, first, second, third]
      | repeatTimes count body =>
        have second := inBlock body (by simp +contextual [children])
        cases count with
        | none => simp [mapSlots, second]
        | some count => simp [mapSlots, single count (by simp [children]), second]
      | forEach itemName collection body =>
        have second := inBlock body (by simp +contextual [children])
        simp [mapSlots, single collection (by simp [children]), second]
      | whileLoop condition body =>
        have second := inBlock body (by simp +contextual [children])
        simp [mapSlots, single condition (by simp [children]), second]
      | event name modifiers body =>
        simp [mapSlots, inBlock body (by simp [children])]
      | binary operator left right =>
        simp [mapSlots, single left (by simp [children]), single right (by simp [children])]
      | unary operator operand => simp [mapSlots, single operand (by simp [children])]
      | member object property => simp [mapSlots, single object (by simp [children])]
      | sequence commands unrolled =>
        simp [mapSlots, inList commands (by simp [children])]
      | literal | selector | identifier | variableRef | unknown => rfl
    rw [node_eq, slots, pure_bind, finished]

end Revision
end Hyperscript
