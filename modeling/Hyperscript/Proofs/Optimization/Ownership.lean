import Hyperscript.Proofs.Compile.Imports
import Hyperscript.Proofs.Optimization.Caching
import Mathlib.Data.List.Induction

/-! Which selectors are cached. Of the selectors that the facts list as worth caching, the first
of those that make the same name owns it; the pass gives every use of an owner, wherever it is,
the name as its key, and changes nothing else. -/
namespace Hyperscript

namespace Node

mutual

/-- The script with other keys: the key of each selector is made from its text and the key
that it had. -/
def rekeyed (key : String → Option String → Option String) : Node → Node
  | .command name args target => .command name (rekeyedAll key args) (rekeyed? key target)
  | .ifElse condition thenBranch none =>
    .ifElse (rekeyed key condition) (rekeyedAll key thenBranch) none
  | .ifElse condition thenBranch (some elseBranch) =>
    .ifElse (rekeyed key condition) (rekeyedAll key thenBranch) (some (rekeyedAll key elseBranch))
  | .repeatTimes count body => .repeatTimes (rekeyed? key count) (rekeyedAll key body)
  | .forEach itemName collection body =>
    .forEach itemName (rekeyed key collection) (rekeyedAll key body)
  | .whileLoop condition body => .whileLoop (rekeyed key condition) (rekeyedAll key body)
  | .event name modifiers body => .event name modifiers (rekeyedAll key body)
  | .binary operator left right => .binary operator (rekeyed key left) (rekeyed key right)
  | .unary operator operand => .unary operator (rekeyed key operand)
  | .member object property => .member (rekeyed key object) property
  | .sequence commands unrolled => .sequence (rekeyedAll key commands) unrolled
  | .selector value cacheKey => .selector value (key value cacheKey)
  | .literal value => .literal value
  | .identifier name => .identifier name
  | .variableRef name => .variableRef name
  | .unknown => .unknown

def rekeyedAll (key : String → Option String → Option String) : List Node → List Node
  | [] => []
  | node :: nodes => rekeyed key node :: rekeyedAll key nodes

def rekeyed? (key : String → Option String → Option String) : Option Node → Option Node
  | none => none
  | some node => some (rekeyed key node)

end

variable {key : String → Option String → Option String}

theorem rekeyedAll_eq (nodes : List Node) : rekeyedAll key nodes = nodes.map (rekeyed key) := by
  induction nodes with
  | nil => rfl
  | cons node rest ih => rw [rekeyedAll, ih, List.map_cons]

theorem rekeyed?_eq (node? : Option Node) : rekeyed? key node? = node?.map (rekeyed key) := by
  cases node? <;> rfl

theorem children_rekeyed (node : Node) :
    (node.rekeyed key).children = node.children.map (rekeyed key) := by
  cases node with
  | command name args target => cases target <;> simp [rekeyed, children, rekeyedAll_eq, rekeyed?_eq]
  | ifElse condition thenBranch elseBranch =>
    cases elseBranch <;> simp [rekeyed, children, rekeyedAll_eq]
  | repeatTimes count body => cases count <;> simp [rekeyed, children, rekeyedAll_eq, rekeyed?_eq]
  | _ => simp [rekeyed, children, rekeyedAll_eq]

/-- Only a selector is rekeyed to a selector. -/
theorem eq_of_rekeyed_eq_selector {node : Node} {value : String} {cacheKey : Option String}
    (same : node.rekeyed key = .selector value cacheKey) :
    ∃ before, node = .selector value before ∧ cacheKey = key value before := by
  cases node with
  | selector text before =>
    cases same
    exact ⟨before, rfl, rfl⟩
  | ifElse condition thenBranch elseBranch => cases elseBranch <;> cases same
  | _ => cases same

/-- The selectors of the rekeyed script are those of the script. -/
theorem mem_subtree_rekeyed {script : Node} {value : String} {cacheKey : Option String}
    (inside : .selector value cacheKey ∈ (script.rekeyed key).subtree) :
    ∃ before, .selector value before ∈ script.subtree ∧ cacheKey = key value before := by
  induction script using childInduction with
  | parent script ih =>
    rw [subtree_eq, List.mem_cons, children_rekeyed] at inside
    rcases inside with root | beneath
    · obtain ⟨before, rfl, made⟩ := eq_of_rekeyed_eq_selector root.symm
      exact ⟨before, by simp [subtree], made⟩
    · obtain ⟨_, member, deeper⟩ := List.mem_flatMap.mp beneath
      obtain ⟨child, isChild, rfl⟩ := List.mem_map.mp member
      obtain ⟨before, found, made⟩ := ih child isChild deeper
      exact ⟨before, mem_subtree_of_child isChild found, made⟩

theorem rekeyedAll_of_forall₂ {nodes nodes' : List Node}
    (related : List.Forall₂ (fun node node' => node' = node.rekeyed key) nodes nodes') :
    nodes' = rekeyedAll key nodes := by
  induction related with
  | nil => rfl
  | cons first _ ih => rw [first, ih, rekeyedAll]

theorem rekeyed?_of_rel {node? node?' : Option Node}
    (related : Option.Rel (fun node node' => node' = node.rekeyed key) node? node?') :
    node?' = rekeyed? key node? := by
  cases related with
  | none => rfl
  | some same => rw [same, rekeyed?]

/-- Apart from selectors, a node with its children rekeyed is the rekeyed node. -/
theorem rekeyed_of_slotwise {node node' : Node}
    (related : node.Slotwise (fun child child' => child' = child.rekeyed key)
      (List.Forall₂ fun child child' => child' = child.rekeyed key)
      (List.Forall₂ fun child child' => child' = child.rekeyed key) node')
    (other : ∀ value cacheKey, node ≠ .selector value cacheKey) : node' = node.rekeyed key := by
  cases related with
  | leaf none =>
    cases node with
    | selector value cacheKey => exact absurd rfl (other value cacheKey)
    | command name args target =>
      obtain ⟨rfl, noTarget⟩ := List.append_eq_nil_iff.mp none
      cases target with
      | none => rfl
      | some => cases noTarget
    | repeatTimes count body =>
      obtain ⟨noCount, rfl⟩ := List.append_eq_nil_iff.mp none
      cases count with
      | none => rfl
      | some => cases noCount
    | event | sequence =>
      cases none
      rfl
    | literal | identifier | variableRef | unknown => rfl
    | _ => cases none
  | command args target => rw [rekeyed, rekeyedAll_of_forall₂ args, rekeyed?_of_rel target]
  | ifElse condition thenBranch elseBranch =>
    cases elseBranch with
    | none => rw [rekeyed, condition, rekeyedAll_of_forall₂ thenBranch]
    | some elseBranch =>
      rw [rekeyed, condition, rekeyedAll_of_forall₂ thenBranch, rekeyedAll_of_forall₂ elseBranch]
  | repeatTimes count body => rw [rekeyed, rekeyed?_of_rel count, rekeyedAll_of_forall₂ body]
  | forEach head body | whileLoop head body => rw [rekeyed, head, rekeyedAll_of_forall₂ body]
  | event body => rw [rekeyed, rekeyedAll_of_forall₂ body]
  | binary left right => rw [rekeyed, left, right]
  | unary operand => rw [rekeyed, operand]
  | member object => rw [rekeyed, object]
  | sequence commands => rw [rekeyed, rekeyedAll_of_forall₂ commands]

end Node

namespace Caching

open Node

/-- Of the selectors that are worth caching, it is the first that makes its name. -/
def Owns (facts : Facts) (selector : String) : Prop :=
  (facts.candidates.map (·.selector)).find? (cacheKey · == cacheKey selector) = some selector

instance (facts : Facts) (selector : String) : Decidable (Owns facts selector) :=
  inferInstanceAs (Decidable (_ = _))

/-- No two owners have the same name. -/
theorem Owns.injective {facts : Facts} {selector other : String} (first : Owns facts selector)
    (second : Owns facts other) (same : cacheKey selector = cacheKey other) : selector = other := by
  unfold Owns at first second
  rw [← same, first] at second
  exact Option.some.inj second

/-- After a run over some selectors, the first that makes a name has it as its key. -/
structure Assigned (selectors : List String) (keys : Keys) : Prop where
  lookup (selector : String) : keys.lookup selector =
    if selectors.find? (cacheKey · == cacheKey selector) = some selector then
      some (cacheKey selector) else none
  owner (key : String) : owner? keys key = selectors.find? (cacheKey · == key)

theorem assigned_nil : Assigned [] [] := ⟨fun _ => rfl, fun _ => rfl⟩

/-- A name that another selector has is not given again. -/
theorem value_assign_of_taken {keys : Keys} {selector owner : String}
    (taken : owner? keys (cacheKey selector) = some owner) :
    (assign keys selector).value = keys := by
  unfold assign
  split
  next => rfl
  next =>
    simp only [taken]
    rfl

/-- One more selector gets its name unless the name is taken, by the selector itself or by
another one. -/
theorem Assigned.assign {selectors : List String} {keys : Keys} (assigned : Assigned selectors keys)
    (selector : String) :
    Assigned (selectors ++ [selector]) (Caching.assign keys selector).value := by
  have owned := assigned.owner (cacheKey selector)
  cases taken : selectors.find? (cacheKey · == cacheKey selector) with
  | some owner =>
    rw [value_assign_of_taken (owned.trans taken)]
    have same (key : String) : (selectors ++ [selector]).find? (cacheKey · == key) =
        selectors.find? (cacheKey · == key) := by
      rw [List.find?_append]
      by_cases isKey : cacheKey selector = key
      · rw [← isKey, taken, Option.some_or]
      · simp [isKey]
    exact ⟨fun other => by rw [same, assigned.lookup], fun key => by rw [same, assigned.owner]⟩
  | none =>
    have unknown : keys.lookup selector = none := by
      rw [assigned.lookup, taken, if_neg nofun]
    have added : (Caching.assign keys selector).value = keys ++ [(selector, cacheKey selector)] := by
      simp [Caching.assign, unknown, owned, taken]
    rw [added]
    constructor
    · intro other
      rw [List.lookup_append, assigned.lookup, List.find?_append]
      by_cases same : other = selector
      · subst same
        simp [taken]
      · have unlisted : List.lookup other [(selector, cacheKey selector)] = none := by
          rw [List.lookup_cons, beq_eq_false_iff_ne.mpr same, List.lookup_nil]
        -- Another selector that makes this name comes too late for it.
        have late : (selectors.find? (cacheKey · == cacheKey other)).or
              ([selector].find? (cacheKey · == cacheKey other)) = some other ↔
            selectors.find? (cacheKey · == cacheKey other) = some other := by
          cases selectors.find? (cacheKey · == cacheKey other) with
          | some => rfl
          | none =>
            refine iff_of_false (fun found => same ?_) nofun
            exact List.mem_singleton.mp (List.mem_of_find?_eq_some (Option.none_or.symm.trans found))
        rw [unlisted, Option.or_none]
        exact if_congr late.symm rfl rfl
    · intro key
      have ownerSame := assigned.owner key
      unfold owner? at ownerSame ⊢
      rw [List.find?_append, List.find?_append, Option.map_or, ownerSame]
      by_cases isKey : cacheKey selector = key <;> simp [isKey]

theorem assigned_foldlM {selectors : List String} {keys : Keys} (assigned : Assigned selectors keys)
    (rest : List String) : Assigned (selectors ++ rest) (rest.foldlM assign keys).value := by
  induction rest generalizing selectors keys with
  | nil => simpa using assigned
  | cons selector rest ih =>
    rw [List.foldlM_cons, Revised.value_bind, List.append_cons]
    exact ih (assigned.assign selector)

/-- The keys are those of the owners. -/
theorem lookup_keysFor (facts : Facts) (selector : String) :
    (keysFor facts).value.lookup selector =
      if Owns facts selector then some (cacheKey selector) else none :=
  (assigned_foldlM assigned_nil _).lookup selector

/-- The key of a selector behind the pass. -/
def keyAfter (facts : Facts) (selector : String) (cacheKey? : Option String) : Option String :=
  if Owns facts selector then some (cacheKey selector) else cacheKey?

theorem annotate_selector (facts : Facts) (selector : String) (cacheKey? : Option String) :
    (annotate (keysFor facts).value (.selector selector cacheKey?)).value =
      .selector selector (keyAfter facts selector cacheKey?) := by
  unfold annotate keyAfter
  simp only [lookup_keysFor]
  by_cases owns : Owns facts selector
  · simp only [if_pos owns]
    split
    next present => rw [Revised.value_pure, present]
    next => rfl
  · simp only [if_neg owns]
    rfl

/-- The pass changes nothing but keys. -/
theorem value_annotated (facts : Facts) (script : Node) :
    ((revision (keysFor facts).value).node script).value = script.rekeyed (keyAfter facts) := by
  induction script using childInduction with
  | parent script ih =>
    have slots : Slotwise (fun node node' => node' = node.rekeyed (keyAfter facts))
        (List.Forall₂ fun node node' => node' = node.rekeyed (keyAfter facts))
        (List.Forall₂ fun node node' => node' = node.rekeyed (keyAfter facts)) script
        (script.mapSlots (revision (keysFor facts).value).node
          (revision (keysFor facts).value).block (revision (keysFor facts).value).list).value :=
      Revision.slotwise (Revision.block_forall₂ fun _ => rfl) (Revision.list_forall₂ nofun) script ih
    rw [Revision.node_eq, Revised.value_bind]
    change (annotate _ _).value = _
    by_cases selects : ∃ value cacheKey, script = .selector value cacheKey
    · obtain ⟨value, cacheKey, rfl⟩ := selects
      exact annotate_selector facts value cacheKey
    · have other : ∀ value cacheKey, script ≠ .selector value cacheKey :=
        fun value cacheKey same => selects ⟨value, cacheKey, same⟩
      rw [← rekeyed_of_slotwise slots other]
      unfold annotate
      split
      next value cacheKey same =>
        have root : SameRoot script (.selector value cacheKey) := same ▸ slots.imp
          (fun _ _ _ => trivial) (fun _ _ _ => trivial) fun _ _ _ => trivial
        exact absurd root.selector (other value cacheKey)
      next => rfl

/-- The texts of the selectors of a script, in the order of the script. -/
def queries (script : Node) : List String := script.subtree.filterMap Facts.selectorText?

theorem length_usages (nodes : List Node) (selector : String) :
    (nodes.filter fun node => Facts.selectorText? node == some selector).length =
      (nodes.filterMap Facts.selectorText?).count selector := by
  rw [List.count_filterMap, List.countP_eq_length_filter]

/-- The candidates of a script are its static selectors that occur more than once. -/
theorem candidates_ofScript (script : Node) :
    (Facts.ofScript script).candidates.map (·.selector) =
      (queries script).eraseDups.filter fun selector =>
        decide (1 < (queries script).count selector) && Facts.isStatic selector := by
  simp only [Facts.candidates, Facts.ofScript_eq, Survey.facts, Survey.ofNodes, List.map_map,
    List.filter_map, Ordered.ofList_eq_eraseDups, Function.comp_def, SelectorUse.isCandidate,
    Survey.usesOf, length_usages, List.map_id']
  rfl

/-- Behind the pass, a selector has the name that it makes as its key if it is the first of the
candidates that make this name, and else the key that it had; nothing else is changed. So no two
owners share a key. The candidates of a script are the selectors that occur at least twice in it
and have neither a dollar sign nor a brace, in the order in which they first occur. -/
theorem annotated_owners (facts : Facts) (script : Node) :
    (Pass.selectorCaching.transform facts script).value =
      (script.rekeyed fun selector before =>
        if Owns facts selector then some (cacheKey selector) else before) ∧
    (∀ selector other key,
      .selector selector (some key) ∈ (Pass.selectorCaching.transform facts script).value.subtree →
      .selector other (some key) ∈ (Pass.selectorCaching.transform facts script).value.subtree →
      Owns facts selector → Owns facts other → selector = other) ∧
    (∀ selector, selector ∈ (Facts.ofScript script).candidates.map (·.selector) ↔
      2 ≤ (queries script).count selector ∧ '$' ∉ selector.toList ∧ '\x7b' ∉ selector.toList) ∧
    ((Facts.ofScript script).candidates.map (·.selector)).Pairwise fun earlier later =>
      (queries script).idxOf earlier < (queries script).idxOf later := by
  have rekeyed : (Pass.selectorCaching.transform facts script).value =
      script.rekeyed (keyAfter facts) := value_annotated facts script
  refine ⟨rekeyed, ?_, ?_, ?_⟩
  · intro selector other key inside also owns ownsToo
    rw [rekeyed] at inside also
    obtain ⟨_, -, keyed⟩ := mem_subtree_rekeyed inside
    obtain ⟨_, -, keyedToo⟩ := mem_subtree_rekeyed also
    rw [keyAfter, if_pos owns] at keyed
    rw [keyAfter, if_pos ownsToo] at keyedToo
    exact owns.injective ownsToo (Option.some.inj (keyed.symm.trans keyedToo))
  · intro selector
    rw [candidates_ofScript, List.mem_filter, List.mem_eraseDups]
    simp only [Facts.isStatic, Bool.and_eq_true, decide_eq_true_eq, Bool.not_eq_true',
      List.contains_eq_mem, decide_eq_false_iff_not]
    refine and_iff_right_of_imp fun ⟨often, _⟩ => ?_
    exact List.count_pos_iff.mp (Nat.zero_lt_of_lt often)
  · rw [candidates_ofScript]
    exact (Ordered.pairwise_idxOf_eraseDups _).filter _

end Caching
end Hyperscript
