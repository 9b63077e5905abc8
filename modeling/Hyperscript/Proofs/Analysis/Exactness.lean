import Hyperscript.Proofs.Analysis.Survey
import Hyperscript.Proofs.Number.Values
import Hyperscript.Proofs.Script.Slots

/-! Derived facts are exactly those of the script. The nodes of a script stand in one order, each
before what is beneath it and its slots from first to last; flags hold for some of these nodes,
and lists are made of the nodes they speak of, in this order and with none left out or repeated. -/
namespace Hyperscript

/-- A delay counts if it is positive; NaN is not. -/
theorem Binary64.isAboveZero_iff (x : Float) : isAboveZero x = true ↔ 0 < x := by
  have zero : (0 : Float).toModel.unpack = .zero .positive := by
    have fields : exponentField 0 = 0 ∧ significand 0 = 0 ∧ signBit 0 = false := by decide +kernel
    rw [unpack_eq, fields.1, if_neg (by decide), dif_pos fields.2.1, sign, fields.2.2]
    rfl
  rw [lt_iff, zero, unpack_eq, isAboveZero, isZero, isNaN]
  by_cases infinite : exponentField x = 2047
  · have unbounded : isFinite x = false := by simp [isFinite, infinite]
    rw [if_pos infinite, unbounded]
    by_cases none : fractionField x = 0
    · cases bit : signBit x <;> simp [none, sign, bit, Float.Model.UnpackedFloat.compare]
    · simp [none, Float.Model.UnpackedFloat.compare]
  · have bounded : isFinite x = true := by simp [isFinite, infinite]
    rw [if_neg infinite, bounded, steps_eq]
    generalize (gapLog x - stepsPerOne.log2 : Int) = exponent
    by_cases none : significand x = 0
    · simp [none, Float.Model.UnpackedFloat.compare]
    · cases bit : signBit x <;> simp [none, sign, bit, Float.Model.UnpackedFloat.compare]

namespace Node

/-- The nodes of a script in the order of the walk: each node, then what is beneath it, slot by
slot. -/
inductive Preorder : Node → List Node → Prop where
  | node {node : Node} {beneath : List (List Node)} :
      List.Forall₂ Preorder node.children beneath → Preorder node (node :: beneath.flatten)

theorem eq_map_of_forall₂ {α β : Type} {related : α → β → Prop} {next : α → β} {xs : List α}
    {ys : List β} (each : List.Forall₂ related xs ys)
    (determined : ∀ x ∈ xs, ∀ y, related x y → y = next x) : ys = xs.map next := by
  induction each with
  | nil => rfl
  | cons first _ ih =>
    obtain ⟨head, tail⟩ := List.forall_mem_cons.mp determined
    rw [head _ first, ih tail, List.map_cons]

/-- A script has one such order. -/
theorem preorder_iff {node : Node} {nodes : List Node} :
    node.Preorder nodes ↔ nodes = node.subtree := by
  induction node using childInduction generalizing nodes with
  | parent node ih =>
    rw [subtree_eq, List.flatMap_def]
    constructor
    · rintro ⟨inside⟩
      rw [eq_map_of_forall₂ inside fun child member _ ordered => (ih child member).mp ordered]
    · rintro rfl
      refine .node (List.forall₂_map_right_iff.mpr (List.forall₂_same.mpr fun child member => ?_))
      exact (ih child member).mpr rfl

end Node

/-- The elements of a list that have a property, in their order. -/
def Picks {α : Type} (p : α → Prop) (xs picked : List α) : Prop :=
  ∃ keep : α → Bool, (∀ x, keep x = true ↔ p x) ∧ picked = xs.filter keep

/-- One selector is used before the other is. -/
def UsedBefore (nodes : List Node) (earlier later : String) : Prop :=
  ∃ before cacheKey after, nodes = before ++ .selector earlier cacheKey :: after ∧
    ∀ cacheKey, .selector later cacheKey ∉ before

/-- What facts have to say of the nodes of a script, given in the order of the walk. -/
structure Facts.Report (facts : Facts) (nodes : List Node) : Prop where
  hasLoops : facts.hasLoops = true ↔
    ∃ node ∈ nodes, node.kind ∈ [Kind.repeatTimes, Kind.forEach, Kind.whileLoop]
  canThrow : facts.canThrow = true ↔ ∃ name args target, .command name args target ∈ nodes ∧
    (name ∈ Node.terminators ∨ name ∈ Facts.throwingCommands)
  hasAsync : facts.hasAsync = true ↔ ∃ name args target, .command name args target ∈ nodes ∧
    name ∈ Facts.asyncCommands
  pure : Picks (fun node => ∃ operator left right,
    node = .binary operator (.literal left) (.literal right)) nodes facts.pure
  /-- Every text that some selector has is listed once. -/
  distinct : (facts.selectors.map (·.selector)).Nodup
  listed (selector : String) : selector ∈ facts.selectors.map (·.selector) ↔
    ∃ cacheKey, .selector selector cacheKey ∈ nodes
  ordered : (facts.selectors.map (·.selector)).Pairwise (UsedBefore nodes)
  usages : ∀ use ∈ facts.selectors,
    Picks (fun node => ∃ cacheKey, node = .selector use.selector cacheKey) nodes use.usages
  /-- No use is lost, and none belongs to two texts. -/
  partition : ∃ selectors, Picks (fun node => ∃ value cacheKey, node = .selector value cacheKey)
    nodes selectors ∧ (facts.selectors.flatMap (·.usages)).Perm selectors
  canCache : ∀ use ∈ facts.selectors,
    use.canCache = true ↔ '$' ∉ use.selector.toList ∧ '\x7b' ∉ use.selector.toList
  helpers : facts.helpers.Nodup
  known : facts.helpers ⊆ ["debounce", "throttle", "delegate"]
  debounce : "debounce" ∈ facts.helpers ↔ ∃ name modifiers body,
    .event name modifiers body ∈ nodes ∧ ∃ delay, modifiers.debounce = some delay ∧ 0 < delay
  throttle : "throttle" ∈ facts.helpers ↔ ∃ name modifiers body,
    .event name modifiers body ∈ nodes ∧ ∃ delay, modifiers.throttle = some delay ∧ 0 < delay
  delegate : "delegate" ∈ facts.helpers ↔ ∃ name modifiers body,
    .event name modifiers body ∈ nodes ∧ ∃ source, modifiers.source = some source ∧ source ≠ ""

section Nodes

variable {nodes : List Node} {selector : String}

theorem Facts.any_commandName?_iff {flagged : String → Bool} :
    nodes.any (·.commandName?.any flagged) = true ↔
      ∃ name args target, .command name args target ∈ nodes ∧ flagged name = true := by
  rw [List.any_eq_true]
  constructor
  · rintro ⟨node, member, isFlagged⟩
    cases node with
    | command name args target => exact ⟨name, args, target, member, isFlagged⟩
    | _ => cases isFlagged
  · rintro ⟨name, args, target, member, isFlagged⟩
    exact ⟨_, member, isFlagged⟩

theorem Facts.selectorText?_eq_some_iff {node : Node} :
    selectorText? node = some selector ↔ ∃ cacheKey, node = .selector selector cacheKey := by
  cases node <;> simp [selectorText?]

theorem mem_texts_iff :
    selector ∈ nodes.filterMap Facts.selectorText? ↔
      ∃ cacheKey, .selector selector cacheKey ∈ nodes := by
  rw [List.mem_filterMap]
  constructor
  · rintro ⟨node, member, found⟩
    obtain ⟨cacheKey, rfl⟩ := Facts.selectorText?_eq_some_iff.mp found
    exact ⟨cacheKey, member⟩
  · rintro ⟨cacheKey, member⟩
    exact ⟨_, member, rfl⟩

/-- The place of a text among the texts is that of its first use among the nodes. -/
theorem usedBefore_of_idxOf_lt {earlier later : String}
    (before : (nodes.filterMap Facts.selectorText?).idxOf earlier <
      (nodes.filterMap Facts.selectorText?).idxOf later) : UsedBefore nodes earlier later := by
  induction nodes with
  | nil => exact absurd before (Nat.lt_irrefl _)
  | cons node rest ih =>
    have behind (tail : UsedBefore rest earlier later)
        (other : ∀ cacheKey, node ≠ .selector later cacheKey) :
        UsedBefore (node :: rest) earlier later := by
      obtain ⟨front, cacheKey, back, rfl, absent⟩ := tail
      refine ⟨node :: front, cacheKey, back, rfl, fun key member => ?_⟩
      rcases List.mem_cons.mp member with same | inside
      · exact other key same.symm
      · exact absent key inside
    cases found : Facts.selectorText? node with
    | none =>
      rw [List.filterMap_cons_none found] at before
      refine behind (ih before) ?_
      rintro key rfl
      cases found
    | some text =>
      rw [List.filterMap_cons_some found] at before
      by_cases first : text = earlier
      · subst first
        obtain ⟨cacheKey, rfl⟩ := Facts.selectorText?_eq_some_iff.mp found
        exact ⟨[], cacheKey, rest, rfl, fun _ => List.not_mem_nil⟩
      · by_cases second : text = later
        · subst second
          rw [List.idxOf_cons_self] at before
          exact absurd before (Nat.not_lt_zero _)
        · rw [List.idxOf_cons_ne _ first, List.idxOf_cons_ne _ second] at before
          refine behind (ih (Nat.lt_of_succ_lt_succ before)) ?_
          rintro key rfl
          exact second (Option.some.inj found).symm

end Nodes

namespace Survey

/-- One more use, wherever it goes, is one more among all. -/
theorem perm_addUse (selector : String) (node : Node) (uses : List (String × List Node)) :
    ((addUse selector node uses).flatMap (·.2)).Perm (uses.flatMap (·.2) ++ [node]) := by
  induction uses with
  | nil => exact .refl _
  | cons entry rest ih =>
    unfold addUse
    split
    · simp only [List.flatMap_cons, List.append_assoc]
      exact List.perm_append_comm.append_left _
    · simp only [List.flatMap_cons, List.append_assoc]
      exact ih.append_left _

/-- All uses together are the selectors that the walk has passed. -/
theorem perm_uses (nodes : List Node) :
    ((nodes.foldl add {}).uses.flatMap (·.2)).Perm
      (nodes.filter fun node => (Facts.selectorText? node).isSome) := by
  induction nodes using List.reverseRecOn with
  | nil => exact .refl _
  | append_singleton nodes node ih =>
    rw [List.foldl_append, List.foldl_cons, List.foldl_nil, List.filter_append]
    generalize nodes.foldl add {} = survey at ih
    cases found : Facts.selectorText? node with
    | none => simpa [add, found] using ih
    | some selector =>
      have step := (perm_addUse selector node survey.uses).trans (ih.append_right [node])
      simpa [add, found] using step

end Survey

namespace Facts

theorem selectors_ofScript (root : Node) :
    (ofScript root).selectors =
      (Ordered.ofList (root.subtree.filterMap selectorText?)).map fun selector =>
        { selector
          usages := Survey.usesOf root.subtree selector
          canCache := isStatic selector } := by
  rw [ofScript_eq, Survey.facts, Survey.ofNodes, List.map_map]
  rfl

theorem texts_ofScript (root : Node) :
    (ofScript root).selectors.map (·.selector) =
      Ordered.ofList (root.subtree.filterMap selectorText?) := by
  rw [selectors_ofScript, List.map_map]
  exact List.map_id' _

theorem mem_helpers_ofScript {root : Node} {helper : String} :
    helper ∈ (ofScript root).helpers ↔
      ∃ name modifiers body, .event name modifiers body ∈ root.subtree ∧
        helper ∈ modifiers.helpers := by
  rw [ofScript_eq]
  simp only [Survey.facts, Survey.ofNodes, Ordered.ofList, Ordered.mem_insertAll,
    List.not_mem_nil, false_or, List.mem_flatMap]
  constructor
  · rintro ⟨node, member, called⟩
    cases node with
    | event name modifiers body => exact ⟨name, modifiers, body, member, called⟩
    | _ => cases called
  · rintro ⟨name, modifiers, body, member, called⟩
    exact ⟨_, member, called⟩

end Facts

namespace Modifiers

variable {modifiers : Modifiers} {helper : String}

theorem mem_helpers_iff : helper ∈ modifiers.helpers ↔
    helper = "debounce" ∧ modifiers.debounceDelay?.isSome = true ∨
      helper = "throttle" ∧ modifiers.throttleDelay?.isSome = true ∨
      helper = "delegate" ∧ modifiers.delegate?.isSome = true := by
  have one {condition : Bool} {name : String} :
      helper ∈ (if condition then [name] else []) ↔ helper = name ∧ condition = true := by
    cases condition <;> simp
  rw [helpers, List.mem_append, List.mem_append, one, one, one, or_assoc]

theorem isSome_delay_iff {set : Option Float} :
    (set.filter Binary64.isAboveZero).isSome = true ↔ ∃ delay, set = some delay ∧ 0 < delay := by
  simp [Option.isSome_filter, Option.any_eq_true, Binary64.isAboveZero_iff]

theorem debounce_mem_helpers_iff : "debounce" ∈ modifiers.helpers ↔
    ∃ delay, modifiers.debounce = some delay ∧ 0 < delay := by
  rw [mem_helpers_iff, ← isSome_delay_iff]
  simp [debounceDelay?]

theorem throttle_mem_helpers_iff : "throttle" ∈ modifiers.helpers ↔
    ∃ delay, modifiers.throttle = some delay ∧ 0 < delay := by
  rw [mem_helpers_iff, ← isSome_delay_iff]
  simp [throttleDelay?]

theorem delegate_mem_helpers_iff : "delegate" ∈ modifiers.helpers ↔
    ∃ source, modifiers.source = some source ∧ source ≠ "" := by
  rw [mem_helpers_iff]
  simp [delegate?, Option.isSome_filter, Option.any_eq_true]

end Modifiers

namespace Facts

/-- The facts of a tree are what its nodes say, read in the order that a walk from the root meets
them, and nothing else. -/
theorem ofScript_report (root : Node) :
    ∃ nodes, (∀ other, root.Preorder other ↔ other = nodes) ∧ (ofScript root).Report nodes := by
  refine ⟨root.subtree, fun _ => Node.preorder_iff, ?_⟩
  have uses {use : SelectorUse} (member : use ∈ (ofScript root).selectors) :
      use.usages = Survey.usesOf root.subtree use.selector ∧
        use.canCache = isStatic use.selector := by
    rw [selectors_ofScript] at member
    obtain ⟨selector, _, rfl⟩ := List.mem_map.mp member
    exact ⟨rfl, rfl⟩
  have helpers {helper : String} {calls : Modifiers → Prop}
      (called : ∀ modifiers : Modifiers, helper ∈ modifiers.helpers ↔ calls modifiers) :
      helper ∈ (ofScript root).helpers ↔ ∃ name modifiers body,
        .event name modifiers body ∈ root.subtree ∧ calls modifiers := by
    simp only [mem_helpers_ofScript, called]
  constructor
  case hasLoops =>
    rw [hasLoops_ofScript, Node.anyInSubtree, List.any_eq_true]
    refine exists_congr fun node => and_congr_right fun _ => ?_
    cases node <;> simp [isLoop, Node.kind]
  case canThrow =>
    rw [canThrow_ofScript]
    refine any_commandName?_iff.trans ?_
    simp only [Bool.or_eq_true, List.contains_iff_mem]
  case hasAsync =>
    rw [hasAsync_ofScript]
    refine any_commandName?_iff.trans ?_
    simp only [List.contains_iff_mem]
  case pure =>
    refine ⟨isPure, fun node => ?_, pure_ofScript root⟩
    unfold isPure
    split <;> simp_all
  case distinct =>
    rw [texts_ofScript]
    exact Ordered.nodup_insertAll List.nodup_nil _
  case listed =>
    intro selector
    rw [texts_ofScript, Ordered.ofList, Ordered.mem_insertAll, ← mem_texts_iff]
    simp
  case ordered =>
    rw [texts_ofScript, Ordered.ofList_eq_eraseDups]
    exact (Ordered.pairwise_idxOf_eraseDups _).imp usedBefore_of_idxOf_lt
  case usages =>
    intro use member
    refine ⟨(selectorText? · == some use.selector), fun node => ?_, (uses member).1⟩
    rw [beq_iff_eq, selectorText?_eq_some_iff]
  case partition =>
    refine ⟨_, ⟨fun node => (selectorText? node).isSome, fun node => ?_, rfl⟩, ?_⟩
    · simp only [Option.isSome_iff_exists, selectorText?_eq_some_iff]
    · have all := Survey.perm_uses root.subtree
      rw [ofScript, Survey.facts, List.flatMap_map]
      exact all
  case canCache =>
    intro use member
    rw [(uses member).2, isStatic]
    simp
  case helpers =>
    rw [ofScript_eq]
    exact Ordered.nodup_insertAll List.nodup_nil _
  case known =>
    intro helper member
    obtain ⟨_, _, _, _, called⟩ := mem_helpers_ofScript.mp member
    rcases Modifiers.mem_helpers_iff.mp called with ⟨rfl, _⟩ | ⟨rfl, _⟩ | ⟨rfl, _⟩ <;> decide
  case debounce => exact helpers fun _ => Modifiers.debounce_mem_helpers_iff
  case throttle => exact helpers fun _ => Modifiers.throttle_mem_helpers_iff
  case delegate => exact helpers fun _ => Modifiers.delegate_mem_helpers_iff

end Facts
end Hyperscript
