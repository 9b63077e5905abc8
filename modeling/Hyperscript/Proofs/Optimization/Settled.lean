import Hyperscript.Proofs.Optimization.Gates
import Hyperscript.Proofs.Script.Blocks

/-! One run of the optimizer settles a script. A pass leaves nothing behind that it would
change, and what it has settled stays so under the passes after it: a block cut short or a
repetition written out brings back no operator to fold, no selector without its key and no
statement behind a terminator. So a second run with the same facts and the same effort finds
nothing to change. With the passes in another order this fails, since an operator in a count
may only fold to the number that lets the repetition be unrolled. -/
namespace Hyperscript

open Node

theorem Node.literal?_eq_some_iff {node : Node} {value : Literal} :
    node.literal? = some value ↔ node = .literal value := by
  cases node <;> simp [literal?]

theorem Node.SameRoot.literal? {node node' : Node} (same : SameRoot node node') :
    node'.literal? = node.literal? := by
  cases same <;> rfl

namespace Folding

/-- An operator on two literals that the table evaluates. -/
def IsFoldable (node : Node) : Prop :=
  ∃ operator left right value, node = .binary operator (.literal left) (.literal right) ∧
    Literal.combine? operator left right = some value

theorem fold_eq_self_iff {node : Node} : (fold node).value = node ↔ ¬IsFoldable node := by
  unfold fold
  split
  next operator left right =>
    split
    next value combined => simp [Revised.replaced, IsFoldable, combined]
    next failed => simp [Revised.kept, IsFoldable, failed]
  next other =>
    constructor
    · rintro _ ⟨operator, left, right, _, rfl, _⟩
      exact other operator left right rfl
    · exact fun _ => rfl

theorem everywhere_folded (tree : Node) :
    (revision.node tree).value.Everywhere (¬IsFoldable ·) := by
  refine Revision.everywhere_established rfl ?_ tree
  intro node inside
  refine everywhere_fold ?_ fold_eq_self_iff.mp inside
  rintro value ⟨_, _, _, _, same, _⟩
  cases same

/-- Whether an operator can be folded shows in which of its operands are literals. -/
theorem IsFoldable.of_slotwise {block list : List Node → List Node → Prop} {node node' : Node}
    (related : Slotwise (fun child child' => child'.literal? = child.literal?) block list
      node node') (foldable : IsFoldable node') : IsFoldable node := by
  obtain ⟨operator, left, right, value, rfl, combined⟩ := foldable
  cases related with
  | leaf none => cases none
  | binary sameLeft sameRight =>
    obtain rfl := literal?_eq_some_iff.mp sameLeft.symm
    obtain rfl := literal?_eq_some_iff.mp sameRight.symm
    exact ⟨operator, left, right, value, rfl, combined⟩

/-- A revision that turns nothing into a literal brings in no operator to fold. -/
theorem unfoldable_node {revision : Revision}
    (literals : ∀ node, (revision.finish node).value.literal? = node.literal?)
    (finish : ∀ node, node.Everywhere (¬IsFoldable ·) →
      (revision.finish node).value.Everywhere (¬IsFoldable ·))
    (tree : Node) (all : tree.Everywhere (¬IsFoldable ·)) :
    (revision.node tree).value.Everywhere (¬IsFoldable ·) :=
  Revision.everywhere_node_of_slots (Revision.root_node literal? SameRoot.literal? literals)
    (fun related unfoldable foldable => unfoldable (foldable.of_slotwise related)) finish tree all

end Folding

namespace Caching

variable {keys : Keys}

/-- A selector with a key carries it. -/
def IsMarked (keys : Keys) (node : Node) : Prop :=
  ∀ value cacheKey key, node = .selector value cacheKey → keys.lookup value = some key →
    cacheKey = some key

theorem isMarked_selector_iff {value : String} {cacheKey : Option String} :
    IsMarked keys (.selector value cacheKey) ↔
      ∀ key, keys.lookup value = some key → cacheKey = some key := by
  constructor
  · exact fun marked key => marked value cacheKey key rfl
  · rintro marked _ _ key ⟨⟩
    exact marked key

theorem annotate_eq_self_iff {node : Node} :
    (annotate keys node).value = node ↔ IsMarked keys node := by
  unfold annotate
  split
  next value cacheKey =>
    rw [isMarked_selector_iff]
    split
    next key found =>
      by_cases present : cacheKey = some key <;>
        simp [Revised.replaced, found, present, eq_comm]
    next failed => simp [failed]
  next other =>
    constructor
    · rintro _ value cacheKey key rfl _
      exact absurd rfl (other value cacheKey)
    · exact fun _ => rfl

theorem isMarked_selector {value key : String} (found : keys.lookup value = some key) :
    IsMarked keys (.selector value (some key)) := by
  rw [isMarked_selector_iff]
  intro other again
  rw [← again, found]

theorem everywhere_annotated (tree : Node) :
    ((revision keys).node tree).value.Everywhere (IsMarked keys) := by
  refine Revision.everywhere_established rfl ?_ tree
  intro node inside
  exact everywhere_annotate (fun _ _ found => isMarked_selector found) annotate_eq_self_iff.mp
    inside

theorem stable_isMarked (facts : Facts) : Stable facts (IsMarked (keysFor facts).value) where
  ofRoot same marked value cacheKey key isSelector :=
    marked value cacheKey key (isSelector ▸ same).selector
  literal _ _ _ _ same := nomatch same
  sequence _ _ _ _ _ same := nomatch same
  selector _ _ found := isMarked_selector found

theorem literal?_annotate (node : Node) : (annotate keys node).value.literal? = node.literal? := by
  unfold annotate
  split
  next =>
    split
    · split <;> rfl
    · rfl
  next => rfl

end Caching

namespace Pruning

/-- A revised block ends at its first terminator. -/
theorem endsAtTerminator_block (statements : List Node) :
    EndsAtTerminator (revision.block statements).value := by
  induction statements with
  | nil => exact endsAtTerminator_nil
  | cons statement rest ih =>
    rw [Revision.value_block_cons]
    split
    next => exact endsAtTerminator_cons.mpr ⟨fun _ => rfl, endsAtTerminator_nil⟩
    next goesOn => exact endsAtTerminator_cons.mpr ⟨fun ends => absurd ends goesOn, ih⟩

theorem isTrimmed_pruned (tree : Node) : (revision.node tree).value.IsTrimmed := by
  induction tree using childInduction with
  | parent tree ih =>
    have slots : Slotwise (fun _ node => node.IsTrimmed)
        (fun _ nodes => EndsAtTerminator nodes ∧ ∀ child ∈ nodes, child.IsTrimmed)
        (fun _ _ => True) tree
        (tree.mapSlots revision.node revision.block revision.list).value :=
      Revision.slotwise
        (fun statements each =>
          ⟨endsAtTerminator_block statements, Revision.forall_mem_block each⟩)
        (fun _ _ => trivial) tree ih
    rw [Revision.node_eq]
    exact slots.isTrimmed (fun _ _ trimmed => trimmed) fun _ _ both => both

theorem value_list (items : List Node) : (revision.list items).value = items := by
  cases items <;> rfl

/-- Of a block that ends where a terminator stands, nothing is dropped. -/
theorem value_block_eq_self {statements : List Node} (ends : EndsAtTerminator statements)
    (same : ∀ statement ∈ statements, (revision.node statement).value = statement) :
    (revision.block statements).value = statements := by
  induction statements with
  | nil => rfl
  | cons statement rest ih =>
    obtain ⟨last, others⟩ := endsAtTerminator_cons.mp ends
    obtain ⟨first, behind⟩ := List.forall_mem_cons.mp same
    rw [Revision.value_block_cons, first]
    split
    next terminates => rw [last terminates]
    next => rw [ih others behind]

theorem pruned_eq_self {tree : Node} (trimmed : tree.IsTrimmed) :
    (revision.node tree).value = tree := by
  induction tree using childInduction with
  | parent tree ih =>
    have walked : Slotwise (fun child child' => child.IsTrimmed → child' = child)
        (fun nodes nodes' => EndsAtTerminator nodes → (∀ child ∈ nodes, child.IsTrimmed) →
          nodes' = nodes) (fun nodes nodes' => nodes' = nodes) tree
        (tree.mapSlots revision.node revision.block revision.list).value :=
      Revision.slotwise
        (fun _ (each : ∀ statement ∈ _, IsTrimmed statement → _) ends inside =>
          value_block_eq_self ends fun statement member =>
            each statement member (inside statement member))
        (fun items _ => value_list items) tree ih
    have slots : Slotwise Eq Eq Eq tree
        (tree.mapSlots revision.node revision.block revision.list).value :=
      (walked.and_isTrimmed trimmed).imp (fun _ _ ⟨inside, same⟩ => (same inside).symm)
        (fun _ _ ⟨inside, same⟩ => (same inside.1 inside.2).symm) fun _ _ same => same.symm
    rw [Revision.node_eq]
    exact slots.eq.symm

end Pruning

namespace Unrolling

/-- A repetition with a small literal count and a short body in which nothing reads the
index. -/
def IsUnrollable (node : Node) : Prop :=
  ∃ number count body, node = .repeatTimes (some (.literal (.number number))) body ∧
    Binary64.toNat? number = some count ∧ count ≤ maxCount ∧ body.length ≤ maxStatements ∧
    ∀ statement ∈ body, statement.anyInSubtree readsIndex = false

theorem obstacle?_eq_none_iff {number : Float} {body : List Node} :
    obstacle? number body = none ↔
      IsUnrollable (.repeatTimes (some (.literal (.number number))) body) := by
  constructor
  · intro clear
    obtain ⟨⟨count, small, whole⟩, short, unread⟩ := of_obstacle?_eq_none clear
    exact ⟨number, count, body, rfl, whole, small, short, unread⟩
  · rintro ⟨_, count, _, ⟨⟩, whole, small, short, unread⟩
    have none : body.any (·.anyInSubtree readsIndex) = false :=
      List.any_eq_false.mpr fun statement member => by simp [unread statement member]
    simp [obstacle?, whole, small, Nat.not_lt.mpr short, none]

theorem unroll_eq_self_iff {node : Node} : (unroll node).value = node ↔ ¬IsUnrollable node := by
  unfold unroll
  split
  next number body =>
    rw [← obstacle?_eq_none_iff]
    split
    next found => simp [Revised.kept, found]
    next clear => simp [Revised.replaced, clear]
  next other =>
    constructor
    · rintro _ ⟨number, _, body, rfl, _⟩
      exact other number body rfl
    · exact fun _ => rfl

/-- The rule lets a node be or makes a sequence of it. -/
theorem unroll_cases (node : Node) :
    (unroll node).value = node ∨ ∃ number body commands,
      node = .repeatTimes (some (.literal (.number number))) body ∧
        (unroll node).value = .sequence commands true := by
  unfold unroll
  split
  next number body =>
    split
    next => exact .inl rfl
    next => exact .inr ⟨number, body, _, rfl, rfl⟩
  next => exact .inl rfl

theorem everywhere_unrolled (tree : Node) :
    (revision.node tree).value.Everywhere (¬IsUnrollable ·) := by
  refine Revision.everywhere_established rfl ?_ tree
  intro node inside
  refine everywhere_unroll ?_ unroll_eq_self_iff.mp inside
  rintro commands ⟨_, _, _, same, _⟩
  cases same

theorem literal?_unroll (node : Node) : (unroll node).value.literal? = node.literal? := by
  obtain same | ⟨number, body, commands, rfl, unrolled⟩ := unroll_cases node
  · rw [same]
  · rw [unrolled]
    rfl

theorem isTerminator_unroll (node : Node) :
    (unroll node).value.isTerminator = node.isTerminator := by
  obtain same | ⟨number, body, commands, rfl, unrolled⟩ := unroll_cases node
  · rw [same]
  · rw [unrolled]
    rfl

theorem isTrimmed_unroll {node : Node} (trimmed : node.IsTrimmed) :
    (unroll node).value.IsTrimmed := by
  obtain same | ⟨number, body, commands, rfl, unrolled⟩ := unroll_cases node
  · rwa [same]
  · rw [unrolled, isTrimmed_iff]
    simp [blocks, openChildren]

theorem isTerminator_unrolled (tree : Node) :
    (revision.node tree).value.isTerminator = tree.isTerminator :=
  Revision.root_node isTerminator SameRoot.isTerminator isTerminator_unroll tree

/-- Terminators stay where they are, and so do the ends of blocks. -/
theorem endsAtTerminator_block {statements : List Node} (ends : EndsAtTerminator statements) :
    EndsAtTerminator (revision.block statements).value := by
  induction statements with
  | nil => exact endsAtTerminator_nil
  | cons statement rest ih =>
    obtain ⟨last, others⟩ := endsAtTerminator_cons.mp ends
    rw [Revision.value_block_cons]
    refine endsAtTerminator_cons.mpr ⟨?_, ih others⟩
    intro terminates
    rw [isTerminator_unrolled] at terminates
    rw [last terminates]
    rfl

theorem isTrimmed_unrolled {tree : Node} (trimmed : tree.IsTrimmed) :
    (revision.node tree).value.IsTrimmed := by
  induction tree using childInduction with
  | parent tree ih =>
    have walked : Slotwise (fun child child' => child.IsTrimmed → child'.IsTrimmed)
        (fun nodes nodes' => EndsAtTerminator nodes → (∀ child ∈ nodes, child.IsTrimmed) →
          EndsAtTerminator nodes' ∧ ∀ child ∈ nodes', child.IsTrimmed) (fun _ _ => True) tree
        (tree.mapSlots revision.node revision.block revision.list).value :=
      Revision.slotwise
        (fun _ (each : ∀ statement ∈ _, IsTrimmed statement → _) ends inside =>
          ⟨endsAtTerminator_block ends, Revision.forall_mem_block fun statement member =>
            each statement member (inside statement member)⟩)
        (fun _ _ => trivial) tree ih
    rw [Revision.node_eq]
    apply isTrimmed_unroll
    exact (walked.and_isTrimmed trimmed).isTrimmed (fun _ _ ⟨inside, kept⟩ => kept inside)
      fun _ _ ⟨inside, kept⟩ => kept inside.1 inside.2

end Unrolling

namespace Pass

/-- There is nothing of what the pass removes. -/
def Settled (facts : Facts) (script : Node) : Pass → Prop
  | .constantFolding => script.Everywhere (¬Folding.IsFoldable ·)
  | .selectorCaching => script.Everywhere (Caching.IsMarked (Caching.keysFor facts).value)
  | .deadCodeElimination => script.IsTrimmed
  | .loopUnrolling => script.Everywhere (¬Unrolling.IsUnrollable ·)

variable {facts : Facts}

theorem settled_transform (pass : Pass) (script : Node) :
    pass.Settled facts (pass.transform facts script).value := by
  cases pass with
  | constantFolding => exact Folding.everywhere_folded script
  | selectorCaching => exact Caching.everywhere_annotated script
  | deadCodeElimination => exact Pruning.isTrimmed_pruned script
  | loopUnrolling => exact Unrolling.everywhere_unrolled script

theorem Settled.transform_eq_self {pass : Pass} {script : Node}
    (settled : pass.Settled facts script) :
    (pass.transform facts script).value = script := by
  cases pass with
  | constantFolding =>
    exact Revision.value_node_eq_self (fun _ => rfl) script fun inner inside =>
      Folding.fold_eq_self_iff.mpr (settled inner inside)
  | selectorCaching =>
    exact Revision.value_node_eq_self (fun _ => rfl) script fun inner inside =>
      Caching.annotate_eq_self_iff.mpr (settled inner inside)
  | deadCodeElimination => exact Pruning.pruned_eq_self settled
  | loopUnrolling =>
    exact Revision.value_node_eq_self (fun _ => rfl) script fun inner inside =>
      Unrolling.unroll_eq_self_iff.mpr (settled inner inside)

/-- What a pass has settled, the passes after it leave settled. -/
theorem Settled.transform {earlier later : Pass} (order : [earlier, later].Sublist Pass.all)
    {script : Node} (settled : earlier.Settled facts script) :
    earlier.Settled facts (later.transform facts script).value := by
  cases earlier with
  | constantFolding =>
    have kept {node : Node} (all : node.Everywhere (¬Folding.IsFoldable ·)) :
        ¬Folding.IsFoldable node ∧
          ∀ child ∈ node.children, child.Everywhere (¬Folding.IsFoldable ·) :=
      everywhere_iff.mp all
    cases later with
    | constantFolding => exact absurd order (by decide)
    | selectorCaching =>
      refine Folding.unfoldable_node Caching.literal?_annotate (fun node all => ?_) script settled
      refine Caching.everywhere_annotate ?_ (fun _ => (kept all).1) (kept all).2
      rintro value key _ ⟨_, _, _, _, same, _⟩
      cases same
    | deadCodeElimination =>
      exact Folding.unfoldable_node (fun _ => rfl) (fun _ all => all) script settled
    | loopUnrolling =>
      refine Folding.unfoldable_node Unrolling.literal?_unroll (fun node all => ?_) script settled
      refine Unrolling.everywhere_unroll ?_ (fun _ => (kept all).1) (kept all).2
      rintro commands ⟨_, _, _, _, same, _⟩
      cases same
  | selectorCaching => exact (Caching.stable_isMarked facts).transform later script settled
  | deadCodeElimination =>
    cases later with
    | loopUnrolling => exact Unrolling.isTrimmed_unrolled settled
    | _ => exact absurd order (by decide)
  | loopUnrolling => cases later <;> exact absurd order (by decide)

theorem Settled.compose {pass : Pass} {rest : List Pass} (order : (pass :: rest).Sublist Pass.all)
    {script : Node} (settled : pass.Settled facts script) :
    pass.Settled facts (compose facts rest script) := by
  induction rest generalizing script with
  | nil => exact settled
  | cons later rest ih =>
    have behind : [pass, later].Sublist (pass :: later :: rest) :=
      ((List.nil_sublist rest).cons_cons later).cons_cons pass
    have skipped : (pass :: rest).Sublist (pass :: later :: rest) :=
      (List.sublist_cons_self later rest).cons_cons pass
    exact ih (skipped.trans order) (settled.transform (behind.trans order))

/-- Passes in order leave a script with which all of them are done. -/
theorem settled_compose {passes : List Pass} (order : passes.Sublist Pass.all) (script : Node) :
    ∀ pass ∈ passes, pass.Settled facts (compose facts passes script) := by
  induction passes generalizing script with
  | nil => simp
  | cons first rest ih =>
    refine List.forall_mem_cons.mpr ⟨?_, ?_⟩
    · exact (first.settled_transform script).compose order
    · have later := (List.sublist_cons_self first rest).trans order
      exact ih later (first.transform facts script).value

theorem compose_eq_self {passes : List Pass} {script : Node}
    (settled : ∀ pass ∈ passes, pass.Settled facts script) :
    compose facts passes script = script := by
  induction passes with
  | nil => rfl
  | cons first rest ih =>
    obtain ⟨done, others⟩ := List.forall_mem_cons.mp settled
    calc compose facts (first :: rest) script
        = compose facts rest (first.transform facts script).value := rfl
      _ = compose facts rest script := by rw [done.transform_eq_self]
      _ = script := ih others

end Pass

namespace Optimizer

theorem value_runPass (optimizer : Optimizer) (facts : Facts) (effort : Effort)
    (current : Optimized) (pass : Pass) :
    (optimizer.runPass facts effort current pass).value =
      if optimizer.includes facts effort pass then
        { script := (pass.transform facts current.script).value
          applied := current.applied ++ [pass] }
      else current := by
  unfold runPass includes
  cases effort.includes pass.effort <;> cases optimizer.disabled.contains pass.name <;>
    cases pass.isNeeded facts <;> rfl

theorem value_foldlM (optimizer : Optimizer) (facts : Facts) (effort : Effort) (passes : List Pass)
    (current : Optimized) :
    (passes.foldlM (optimizer.runPass facts effort) current).value =
      { script := Pass.compose facts (passes.filter (optimizer.includes facts effort))
          current.script
        applied := current.applied ++ passes.filter (optimizer.includes facts effort) } := by
  induction passes generalizing current with
  | nil => simp [Pass.compose]
  | cons pass rest ih =>
    rw [List.foldlM_cons, Revised.value_bind, ih, value_runPass]
    cases included : optimizer.includes facts effort pass with
    | true => simp [included, Pass.compose]
    | false => simp [included]

/-- An optimizer runs the passes that it includes, and names them, in order. -/
theorem value_optimize (optimizer : Optimizer) (facts : Facts) (effort : Effort) (script : Node) :
    (optimizer.optimize facts effort script).value =
      { script := Pass.compose facts (optimizer.passes.filter (optimizer.includes facts effort))
          script
        applied := optimizer.passes.filter (optimizer.includes facts effort) } := by
  by_cases idle : effort = .none
  · have excluded : optimizer.passes.filter (optimizer.includes facts .none) = [] :=
      List.filter_eq_nil_iff.mpr fun pass _ => by cases pass <;> exact Bool.false_ne_true
    simp [optimize, idle, excluded, Pass.compose]
  · rw [optimize, if_neg idle, value_foldlM]
    rfl

theorem optimize_idempotent {optimizer : Optimizer} (standard : optimizer.passes.Sublist Pass.all)
    (facts : Facts) (effort : Effort) (script : Node) :
    (optimizer.optimize facts effort (optimizer.optimize facts effort script).value.script).value =
      (optimizer.optimize facts effort script).value := by
  have order : (optimizer.passes.filter (optimizer.includes facts effort)).Sublist Pass.all :=
    List.filter_sublist.trans standard
  simp only [value_optimize, Pass.compose_eq_self (Pass.settled_compose order script)]

/-- The standard passes with nothing disabled, on a script with its own facts: all of them
are done, also those that the facts call off. -/
theorem settled_optimize (script : Node) (pass : Pass) :
    pass.Settled (Facts.ofScript script)
      ((({} : Optimizer).optimize (Facts.ofScript script) .full script).value.script) := by
  have composed : ({} : Optimizer).scriptAfter (Facts.ofScript script) .full Pass.all script =
      Pass.compose (Facts.ofScript script) Pass.all script :=
    scriptAfter_folding {} (by decide) (by decide) script
  have member : pass ∈ Pass.all := by cases pass <;> decide
  rw [script_optimize _ _ (by decide)]
  exact composed ▸ Pass.settled_compose (List.Sublist.refl _) script pass member

/-- A second run changes nothing and applies the same passes, whatever passes are disabled,
whatever the facts and the effort. With all passes and the facts of the script itself, what
is left has no operator to fold, no repetition to unroll, and no statement behind a
terminator. -/
theorem optimize_fixed_point (script : Node) :
    (∀ (disabled : List String) (facts : Facts) (effort : Effort),
      ((disabled.foldl disable {}).optimize facts effort
          ((disabled.foldl disable {}).optimize facts effort script).value.script).value =
        ((disabled.foldl disable {}).optimize facts effort script).value) ∧
    ((({} : Optimizer).optimize (Facts.ofScript script) .full script).value.script.Everywhere
      (¬Folding.IsFoldable ·)) ∧
    ((({} : Optimizer).optimize (Facts.ofScript script) .full script).value.script.Everywhere
      (¬Unrolling.IsUnrollable ·)) ∧
    (({} : Optimizer).optimize (Facts.ofScript script) .full script).value.script.IsTrimmed := by
  refine ⟨?_, settled_optimize script .constantFolding, settled_optimize script .loopUnrolling,
    settled_optimize script .deadCodeElimination⟩
  intro disabled facts effort
  refine optimize_idempotent ?_ facts effort script
  rw [foldl_disable]

end Optimizer
end Hyperscript
