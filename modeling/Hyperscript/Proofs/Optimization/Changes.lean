import Hyperscript.Proofs.Optimization.Settled

/-! What a revision reports. It reports a change of a tree if and only if the outcome is
another tree, and if and only if its rule replaced a node that the walk came to, or a block
was cut there; so no change on the way up gets lost, and none is reported that did not
happen. Equality of trees compares numbers by their bits. -/
namespace Hyperscript

open Node

/-- A change is denied if and only if there is none. -/
def Revised.IsFaithful (original : α) (revised : Revised α) : Prop :=
  revised.changed = false ↔ revised.value = original

namespace Revision

variable (revision : Revision)

/-- The node with its children revised, before the rule of the node itself. -/
def slots (node : Node) : Revised Node :=
  node.mapSlots revision.node revision.block revision.list

/-- The statements of a block that the walk comes to, the last of them the first that ends
the block. -/
def entered : List Node → List Node
  | [] => []
  | statement :: rest =>
    if revision.endsBlock (revision.node statement).value then [statement]
    else statement :: entered rest

def enteredItems (items : List Node) : List Node := if revision.entersLists then items else []

/-- The children that the walk comes to. -/
def enteredChildren : Node → List Node
  | .command _ args target => revision.enteredItems args ++ target.toList
  | .ifElse condition thenBranch elseBranch =>
    condition :: (revision.entered thenBranch ++ revision.entered (elseBranch.getD []))
  | .repeatTimes count body => count.toList ++ revision.entered body
  | .forEach _ head body | .whileLoop head body => head :: revision.entered body
  | .event _ _ body => revision.entered body
  | .sequence commands _ => revision.enteredItems commands
  | node => node.children

/-- The walk over the first node comes to the second. -/
inductive Visits : Node → Node → Prop where
  | root (node : Node) : Visits node node
  | child {node child inner : Node} : child ∈ revision.enteredChildren node →
      Visits child inner → Visits node inner

/-- Something is done to the node itself: its rule replaces it, or one of its blocks ends
early. -/
def ActsOn (node : Node) : Prop :=
  (revision.finish (revision.slots node).value).changed = true ∨
    ∃ block ∈ node.blocks, revision.entered block ≠ block

variable {revision}

theorem Visits.trans {outer node inner : Node} (first : revision.Visits outer node)
    (second : revision.Visits node inner) : revision.Visits outer inner := by
  induction first with
  | root => exact second
  | child member _ ih => exact .child member (ih second)

theorem entered_sublist (statements : List Node) :
    (revision.entered statements).Sublist statements := by
  induction statements with
  | nil => exact List.Sublist.refl _
  | cons statement rest ih =>
    unfold entered
    split
    · exact (List.nil_sublist rest).cons_cons statement
    · exact ih.cons_cons statement

theorem enteredItems_sublist (items : List Node) : (revision.enteredItems items).Sublist items := by
  unfold enteredItems
  split
  · exact List.Sublist.refl _
  · exact List.nil_sublist items

theorem enteredChildren_sublist (node : Node) :
    (revision.enteredChildren node).Sublist node.children := by
  cases node with
  | command name args target => exact (enteredItems_sublist args).append_right target.toList
  | ifElse condition thenBranch elseBranch =>
    exact ((entered_sublist thenBranch).append (entered_sublist _)).cons_cons condition
  | repeatTimes count body => exact (entered_sublist body).append_left count.toList
  | forEach itemName head body | whileLoop head body =>
    exact (entered_sublist body).cons_cons head
  | event name modifiers body => exact entered_sublist body
  | sequence commands unrolled => exact enteredItems_sublist commands
  | _ => exact List.Sublist.refl _

/-! ## What is reported of a slot -/

theorem changed_block_iff (statements : List Node) :
    (revision.block statements).changed = true ↔
      (∃ statement ∈ revision.entered statements, (revision.node statement).changed = true) ∨
        revision.entered statements ≠ statements := by
  induction statements with
  | nil => simp [Revision.block, entered]
  | cons statement rest ih =>
    simp only [Revision.block, Revised.changed_bind, Bool.or_eq_true, entered]
    split
    next => cases rest <;> simp [Revised.replaced]
    next =>
      simp only [Revised.changed_bind, Bool.or_eq_true, ih, Revised.changed_pure, List.mem_cons,
        exists_eq_or_imp, ne_eq, List.cons.injEq, true_and, Bool.false_eq_true, or_false, or_assoc]

theorem changed_list_iff (items : List Node) :
    (revision.list items).changed = true ↔
      ∃ item ∈ revision.enteredItems items, (revision.node item).changed = true := by
  induction items with
  | nil => simp [Revision.list, enteredItems]
  | cons item rest ih =>
    unfold Revision.list
    split
    next enters =>
      rw [enteredItems, if_pos enters] at ih ⊢
      simp only [Revised.changed_bind, Bool.or_eq_true, ih, Revised.changed_pure, List.mem_cons,
        exists_eq_or_imp, Bool.false_eq_true, or_false]
    next skips => simp [enteredItems, skips]

theorem changed_slots_iff (node : Node) :
    (revision.slots node).changed = true ↔
      (∃ child ∈ revision.enteredChildren node, (revision.node child).changed = true) ∨
        ∃ block ∈ node.blocks, revision.entered block ≠ block := by
  cases node with
  | command name args target =>
    cases target <;>
      simp [slots, mapSlots, enteredChildren, blocks, changed_list_iff, or_and_right, exists_or]
  | ifElse condition thenBranch elseBranch =>
    cases elseBranch with
    | none => simp [slots, mapSlots, enteredChildren, blocks, entered, changed_block_iff, or_assoc]
    | some elseBranch =>
      simp [slots, mapSlots, enteredChildren, blocks, changed_block_iff, or_and_right, exists_or]
      -- both blocks give children that changed and an end that came early
      grind
  | repeatTimes count body =>
    cases count <;>
      simp [slots, mapSlots, enteredChildren, blocks, changed_block_iff, or_assoc]
  | forEach itemName head body | whileLoop head body =>
    simp [slots, mapSlots, enteredChildren, blocks, changed_block_iff, or_assoc]
  | event name modifiers body =>
    simp [slots, mapSlots, enteredChildren, blocks, changed_block_iff]
  | sequence commands unrolled =>
    simp [slots, mapSlots, enteredChildren, blocks, changed_list_iff]
  | _ => simp [slots, mapSlots, enteredChildren, blocks, children]

theorem changed_node_iff (tree : Node) :
    (revision.node tree).changed = true ↔
      revision.ActsOn tree ∨
        ∃ child ∈ revision.enteredChildren tree, (revision.node child).changed = true := by
  have split : (revision.node tree).changed =
      ((revision.slots tree).changed ||
        (revision.finish (revision.slots tree).value).changed) := by
    rw [node_eq, Revised.changed_bind, slots]
  rw [split, Bool.or_eq_true, changed_slots_iff, ActsOn]
  constructor
  · rintro ((inChild | cut) | replaced)
    · exact .inr inChild
    · exact .inl (.inr cut)
    · exact .inl (.inl replaced)
  · rintro ((replaced | cut) | inChild)
    · exact .inr replaced
    · exact .inl (.inr cut)
    · exact .inl (.inl inChild)

/-- A change is reported if and only if something was done to a node that the walk came to. -/
theorem changed_iff_exists_visited (tree : Node) :
    (revision.node tree).changed = true ↔
      ∃ inner, revision.Visits tree inner ∧ revision.ActsOn inner := by
  induction tree using childInduction with
  | parent tree ih =>
    rw [changed_node_iff]
    constructor
    · rintro (here | ⟨child, entered, changed⟩)
      · exact ⟨tree, .root tree, here⟩
      · obtain ⟨inner, visited, acts⟩ :=
          (ih child ((enteredChildren_sublist tree).subset entered)).mp changed
        exact ⟨inner, .child entered visited, acts⟩
    · rintro ⟨inner, visited, acts⟩
      cases visited with
      | root => exact .inl acts
      | child entered inside =>
        exact .inr ⟨_, entered,
          (ih _ ((enteredChildren_sublist tree).subset entered)).mpr ⟨inner, inside, acts⟩⟩

/-- What is reported of a node that the walk comes to is reported of the root. -/
theorem Visits.changed {tree inner : Node} (visited : revision.Visits tree inner)
    (changed : (revision.node inner).changed = true) : (revision.node tree).changed = true := by
  obtain ⟨deeper, inside, acts⟩ := (changed_iff_exists_visited inner).mp changed
  exact (changed_iff_exists_visited tree).mpr ⟨deeper, visited.trans inside, acts⟩

theorem entered_eq_self (neverEnds : ∀ node, revision.endsBlock node = false)
    (statements : List Node) : revision.entered statements = statements := by
  induction statements with
  | nil => rfl
  | cons statement rest ih => simp only [entered, neverEnds, Bool.false_eq_true, if_false, ih]

/-- A revision that ends no block acts by its rule alone. -/
theorem actsOn_iff_of_neverEnds (neverEnds : ∀ node, revision.endsBlock node = false)
    (node : Node) :
    revision.ActsOn node ↔ (revision.finish (revision.slots node).value).changed = true := by
  simp [ActsOn, entered_eq_self neverEnds]

/-! ## What is reported, and what comes out -/

/-- The rule of the revision is faithful, and what it puts in the place of a node is not what
the node may have been before its children were revised. -/
structure Exact (revision : Revision) : Prop where
  finish (node) : (revision.finish node).IsFaithful node
  replaced {node node'} : SameRoot node node' → (revision.finish node').changed = true →
    (revision.finish node').value ≠ node

theorem isFaithful_block {statements : List Node}
    (each : ∀ statement ∈ statements, (revision.node statement).IsFaithful statement) :
    (revision.block statements).IsFaithful statements := by
  unfold Revised.IsFaithful at *
  induction statements with
  | nil => simp [Revision.block]
  | cons statement rest ih =>
    obtain ⟨first, others⟩ := List.forall_mem_cons.mp each
    rw [value_block_cons]
    simp only [Revision.block, Revised.changed_bind, Bool.or_eq_false_iff, first]
    split
    next => cases rest <;> simp [Revised.replaced]
    next => simp [ih others]

theorem isFaithful_list {items : List Node}
    (each : ∀ item ∈ items, (revision.node item).IsFaithful item) :
    (revision.list items).IsFaithful items := by
  unfold Revised.IsFaithful at *
  induction items with
  | nil => simp [Revision.list]
  | cons item rest ih =>
    obtain ⟨first, others⟩ := List.forall_mem_cons.mp each
    unfold Revision.list
    split
    next => simp [first, ih others]
    next => simp

theorem isFaithful_slots {node : Node}
    (each : ∀ child ∈ node.children, (revision.node child).IsFaithful child) :
    (revision.slots node).IsFaithful node := by
  have inBlock (statements : List Node) (inside : statements ⊆ node.children) :
      (revision.block statements).changed = false ↔
        (revision.block statements).value = statements :=
    isFaithful_block fun statement member => each statement (inside member)
  have inList (items : List Node) (inside : items ⊆ node.children) :
      (revision.list items).changed = false ↔ (revision.list items).value = items :=
    isFaithful_list fun item member => each item (inside member)
  unfold Revised.IsFaithful at each ⊢
  cases node with
  | command name args target =>
    have first := inList args (List.subset_append_left _ _)
    cases target with
    | none => simp [slots, mapSlots, first]
    | some target => simp [slots, mapSlots, first, each target (by simp [children])]
  | ifElse condition thenBranch elseBranch =>
    have first := each condition (by simp [children])
    have second := inBlock thenBranch (by simp [children])
    cases elseBranch with
    | none => simp [slots, mapSlots, first, second]
    | some elseBranch =>
      have third := inBlock elseBranch (by simp [children])
      simp [slots, mapSlots, first, second, third]
  | repeatTimes count body =>
    have second := inBlock body (by simp [children])
    cases count with
    | none => simp [slots, mapSlots, second]
    | some count => simp [slots, mapSlots, each count (by simp [children]), second]
  | forEach itemName head body | whileLoop head body =>
    have second := inBlock body (by simp [children])
    simp [slots, mapSlots, each head (by simp [children]), second]
  | event name modifiers body =>
    simp [slots, mapSlots, inBlock body (List.Subset.refl _)]
  | binary operator left right =>
    simp [slots, mapSlots, each left (by simp [children]), each right (by simp [children])]
  | unary operator operand => simp [slots, mapSlots, each operand (by simp [children])]
  | member object property => simp [slots, mapSlots, each object (by simp [children])]
  | sequence commands unrolled =>
    simp [slots, mapSlots, inList commands (List.Subset.refl _)]
  | literal | selector | identifier | variableRef | unknown => simp [slots, mapSlots]

theorem sameRoot_slots (node : Node) : SameRoot node (revision.slots node).value :=
  slotwise (fun _ _ => trivial) (fun _ _ => trivial) node fun _ _ => trivial

/-- With an exact rule the outcome tells the truth about every tree. -/
theorem Exact.isFaithful (exact : revision.Exact) (tree : Node) :
    (revision.node tree).IsFaithful tree := by
  induction tree using childInduction with
  | parent tree ih =>
    have inSlots : (revision.slots tree).changed = false ↔ (revision.slots tree).value = tree :=
      isFaithful_slots ih
    rw [node_eq, ← slots, Revised.IsFaithful, Revised.changed_bind, Revised.value_bind,
      Bool.or_eq_false_iff]
    constructor
    · rintro ⟨calm, kept⟩
      rw [(exact.finish _).mp kept, inSlots.mp calm]
    · intro same
      have kept : (revision.finish (revision.slots tree).value).changed = false := by
        rw [← Bool.not_eq_true]
        exact fun replaced => exact.replaced (sameRoot_slots tree) replaced same
      rw [(exact.finish _).mp kept] at same
      exact ⟨inSlots.mpr same, kept⟩

end Revision

/-! ## The passes -/

namespace Folding

theorem changed_fold_iff {node : Node} : (fold node).changed = true ↔ IsFoldable node := by
  unfold fold
  split
  next operator left right =>
    split
    next value combined => simp [Revised.replaced, IsFoldable, combined]
    next failed => simp [Revised.kept, IsFoldable, failed]
  next other =>
    constructor
    · intro changed
      cases changed
    · rintro ⟨operator, left, right, _, rfl, _⟩
      exact absurd rfl (other operator left right)

/-- A folded operator is a literal, and no operator was one before. -/
theorem exact : revision.Exact where
  finish node := by
    change (fold node).changed = false ↔ (fold node).value = node
    rw [fold_eq_self_iff, ← changed_fold_iff, Bool.not_eq_true]
  replaced := by
    rintro node node' sameRoot folded rfl
    obtain ⟨operator, left, right, value, rfl, combined⟩ := changed_fold_iff.mp folded
    simp only [revision, fold, combined, Revised.replaced] at sameRoot
    cases sameRoot

end Folding

namespace Caching

variable {keys : Keys}

theorem changed_annotate_iff {node : Node} :
    (annotate keys node).changed = true ↔ ¬IsMarked keys node := by
  unfold annotate
  split
  next value cacheKey =>
    rw [isMarked_selector_iff]
    split
    next key found =>
      by_cases present : cacheKey = some key <;> simp [Revised.replaced, found, present]
    next failed => simp [failed]
  next other =>
    constructor
    · intro changed
      cases changed
    · intro unmarked
      refine absurd ?_ unmarked
      rintro value cacheKey key rfl
      exact absurd rfl (other value cacheKey)

theorem isMarked_slots_iff {node : Node} :
    IsMarked keys ((revision keys).slots node).value ↔ IsMarked keys node := by
  constructor
  · rintro marked value cacheKey key rfl
    exact marked value cacheKey key rfl
  · rintro marked value cacheKey key same
    have sameRoot : SameRoot node ((revision keys).slots node).value :=
      Revision.sameRoot_slots node
    rw [same] at sameRoot
    exact marked value cacheKey key sameRoot.selector

/-- A selector has no children, so it is what it was before. -/
theorem exact : (revision keys).Exact where
  finish node := by
    change (annotate keys node).changed = false ↔ (annotate keys node).value = node
    rw [annotate_eq_self_iff, ← not_iff_not, Bool.not_eq_false, changed_annotate_iff]
  replaced := by
    rintro node node' sameRoot marked rfl
    have unmarked := changed_annotate_iff.mp marked
    unfold IsMarked at unmarked
    push Not at unmarked
    obtain ⟨value, cacheKey, key, rfl, found, different⟩ := unmarked
    have selector := sameRoot.selector
    simp only [revision, annotate, found, if_neg different, Revised.replaced] at selector
    cases selector
    exact different rfl

theorem changed_assign (keys : Keys) (selector : String) :
    (assign keys selector).changed = false := by
  unfold assign
  split
  · rfl
  · dsimp only
    split <;> rfl

/-- Giving out keys changes no node. -/
theorem changed_keysFor (facts : Facts) : (keysFor facts).changed = false := by
  have run (selectors : List String) (keys : Keys) :
      (selectors.foldlM assign keys).changed = false := by
    induction selectors generalizing keys with
    | nil => rfl
    | cons selector rest ih => simp [changed_assign, ih]
  exact run _ _

end Caching

namespace Pruning

theorem isTerminator_pruned (tree : Node) :
    (revision.node tree).value.isTerminator = tree.isTerminator :=
  Revision.root_node isTerminator SameRoot.isTerminator (fun _ => rfl) tree

theorem entered_eq_self_iff {statements : List Node} :
    revision.entered statements = statements ↔ EndsAtTerminator statements := by
  induction statements with
  | nil => exact ⟨fun _ => endsAtTerminator_nil, fun _ => rfl⟩
  | cons statement rest ih =>
    have ends : revision.endsBlock (revision.node statement).value = statement.isTerminator :=
      isTerminator_pruned statement
    rw [endsAtTerminator_cons, Revision.entered, ends]
    cases statement.isTerminator with
    | true =>
      have single : rest = [] → EndsAtTerminator rest := (· ▸ endsAtTerminator_nil)
      simpa [eq_comm] using single
    | false => simpa using ih

theorem exact : revision.Exact where
  finish _ := ⟨fun _ => rfl, fun _ => rfl⟩
  replaced _ replaced := nomatch replaced

end Pruning

namespace Unrolling

theorem changed_unroll_iff {node : Node} : (unroll node).changed = true ↔ IsUnrollable node := by
  unfold unroll
  split
  next number body =>
    rw [← obstacle?_eq_none_iff]
    split
    next found => simp [Revised.kept, found]
    next clear => simp [Revised.replaced, clear]
  next other =>
    constructor
    · intro changed
      cases changed
    · rintro ⟨number, _, body, rfl, _⟩
      exact absurd rfl (other number body)

/-- An unrolled repetition is a sequence, and no repetition was one before. -/
theorem exact : revision.Exact where
  finish node := by
    change (unroll node).changed = false ↔ (unroll node).value = node
    rw [unroll_eq_self_iff, ← changed_unroll_iff, Bool.not_eq_true]
  replaced := by
    rintro node node' sameRoot unrolled rfl
    have unrollable := changed_unroll_iff.mp unrolled
    obtain kept | ⟨number, body, commands, rfl, sequence⟩ := unroll_cases node'
    · exact unroll_eq_self_iff.mp kept unrollable
    · change SameRoot (unroll _).value _ at sameRoot
      rw [sequence] at sameRoot
      cases sameRoot

end Unrolling

namespace Pass

/-- The revision that the pass is. -/
def revision (facts : Facts) : Pass → Revision
  | .constantFolding => Folding.revision
  | .selectorCaching => Caching.revision (Caching.keysFor facts).value
  | .deadCodeElimination => Pruning.revision
  | .loopUnrolling => Unrolling.revision

/-- What the pass does at one node: fold it, once its operands are folded; mark it; cut one of
its blocks; or unroll it, once its count and its body are done. -/
def ActsOn (facts : Facts) (node : Node) : Pass → Prop
  | .constantFolding => Folding.IsFoldable (Folding.revision.slots node).value
  | .selectorCaching => ¬Caching.IsMarked (Caching.keysFor facts).value node
  | .deadCodeElimination => ∃ block ∈ node.blocks, ¬EndsAtTerminator block
  | .loopUnrolling => Unrolling.IsUnrollable (Unrolling.revision.slots node).value

variable {facts : Facts}

theorem exact_revision (pass : Pass) : (pass.revision facts).Exact := by
  cases pass with
  | constantFolding => exact Folding.exact
  | selectorCaching => exact Caching.exact
  | deadCodeElimination => exact Pruning.exact
  | loopUnrolling => exact Unrolling.exact

theorem actsOn_iff (pass : Pass) (node : Node) :
    (pass.revision facts).ActsOn node ↔ pass.ActsOn facts node := by
  cases pass with
  | constantFolding =>
    exact (Revision.actsOn_iff_of_neverEnds (fun _ => rfl) node).trans Folding.changed_fold_iff
  | selectorCaching =>
    have acts : (Caching.revision (Caching.keysFor facts).value).ActsOn node ↔ _ :=
      Revision.actsOn_iff_of_neverEnds (fun _ => rfl) node
    exact acts.trans (Caching.changed_annotate_iff.trans (not_congr Caching.isMarked_slots_iff))
  | deadCodeElimination =>
    have idle : (Pruning.revision.finish (Pruning.revision.slots node).value).changed = false := rfl
    change Pruning.revision.ActsOn node ↔ ∃ block ∈ node.blocks, ¬EndsAtTerminator block
    simp only [Revision.ActsOn, idle, Bool.false_eq_true, false_or, ne_eq,
      Pruning.entered_eq_self_iff]
  | loopUnrolling =>
    exact (Revision.actsOn_iff_of_neverEnds (fun _ => rfl) node).trans Unrolling.changed_unroll_iff

theorem value_transform (pass : Pass) (script : Node) :
    (pass.transform facts script).value = ((pass.revision facts).node script).value := by
  cases pass <;> rfl

theorem changed_transform (pass : Pass) (script : Node) :
    (pass.transform facts script).changed = ((pass.revision facts).node script).changed := by
  cases pass with
  | selectorCaching =>
    simp only [transform, Revised.changed_bind, Caching.changed_keysFor, Bool.false_or, revision]
  | _ => rfl

/-- A pass denies a change if and only if it has nothing to do wherever its walk comes. -/
theorem unchanged_iff (pass : Pass) (script : Node) :
    ((pass.revision facts).node script).changed = false ↔
      ∀ inner, (pass.revision facts).Visits script inner → ¬pass.ActsOn facts inner := by
  rw [← not_iff_not, Bool.not_eq_false, Revision.changed_iff_exists_visited]
  simp only [actsOn_iff, not_forall, not_not, exists_prop]

/-- What every pass reports is exact, whatever the facts and the script: no change if and only if
the script comes out as it was, where numbers are compared by their bits, and if and only if
nothing was folded, marked, cut or unrolled at any node that the walk comes to. The same is
true of each of these nodes, and a change reported of one of them is reported of the script. -/
theorem changed_exact (pass : Pass) (facts : Facts) (script : Node) :
    ((pass.transform facts script).changed = false ↔
      (pass.transform facts script).value = script) ∧
    ((pass.transform facts script).changed = false ↔
      ∀ inner, (pass.revision facts).Visits script inner → ¬pass.ActsOn facts inner) ∧
    ∀ inner, (pass.revision facts).Visits script inner →
      (((pass.revision facts).node inner).changed = false ↔
        ((pass.revision facts).node inner).value = inner) ∧
      (((pass.revision facts).node inner).changed = false ↔
        ∀ deeper, (pass.revision facts).Visits inner deeper → ¬pass.ActsOn facts deeper) ∧
      (((pass.revision facts).node inner).changed = true →
        (pass.transform facts script).changed = true) := by
  have faithful (tree : Node) : ((pass.revision facts).node tree).changed = false ↔
      ((pass.revision facts).node tree).value = tree := pass.exact_revision.isFaithful tree
  rw [changed_transform, value_transform]
  refine ⟨faithful script, pass.unchanged_iff script, ?_⟩
  intro inner visited
  exact ⟨faithful inner, pass.unchanged_iff inner, visited.changed⟩

/-- A loop with a command behind its end. -/
def haltingLoop : Node :=
  .whileLoop (.identifier "ready") [.command "halt" [] none, .command "log" [] none]

def loggingLoop : Node := .whileLoop (.identifier "ready") [.command "log" [] none]

def twoLoops : Node := .event "click" {} [haltingLoop, loggingLoop]

/-- Of two loops the first is cut, and with it the handler, but not the second. -/
theorem changed_twoLoops :
    (deadCodeElimination.revision {}).Visits twoLoops haltingLoop ∧
    (deadCodeElimination.revision {}).Visits twoLoops loggingLoop ∧
    (deadCodeElimination.transform {} twoLoops).changed = true ∧
    ((deadCodeElimination.revision {}).node haltingLoop).value ≠ haltingLoop ∧
    ((deadCodeElimination.revision {}).node loggingLoop).value = loggingLoop := by
  have first : (deadCodeElimination.revision {}).Visits twoLoops haltingLoop :=
    .child List.mem_cons_self (.root _)
  have second : (deadCodeElimination.revision {}).Visits twoLoops loggingLoop :=
    .child (List.mem_cons_of_mem _ List.mem_cons_self) (.root _)
  have cut : ((deadCodeElimination.revision {}).node haltingLoop).changed = true := rfl
  have kept : ((deadCodeElimination.revision {}).node loggingLoop).changed = false := rfl
  obtain ⟨_, _, inside⟩ := changed_exact deadCodeElimination {} twoLoops
  obtain ⟨sameFirst, _, reported⟩ := inside haltingLoop first
  obtain ⟨sameSecond, _⟩ := inside loggingLoop second
  refine ⟨first, second, reported cut, ?_, sameSecond.mp kept⟩
  intro same
  rw [sameFirst.mpr same] at cut
  cases cut

end Pass
end Hyperscript
