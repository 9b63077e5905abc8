import Hyperscript.Analysis.Facts
import Hyperscript.Ordered
import Mathlib.Data.List.Induction

/-! What the walk over a script gathers. Each node adds to the survey what it is on its own, so
after any number of nodes the survey is read off their list: flags from some node, lists from all
of them, the texts of selectors without repetition and with each text the nodes that have it. -/
namespace Hyperscript

theorem Ordered.ofList_append {α : Type} [BEq α] (xs ys : List α) :
    ofList (xs ++ ys) = insertAll (ofList xs) ys := List.foldl_append

namespace Survey

/-- The uses of a text among some nodes. -/
def usesOf (nodes : List Node) (selector : String) : List Node :=
  nodes.filter (Facts.selectorText? · == some selector)

/-- The survey of a list of nodes, read off the list. -/
def ofNodes (nodes : List Node) : Survey :=
  { hasAsync := nodes.any Facts.suspends
    canThrow := nodes.any Facts.mayThrow
    hasLoops := nodes.any Facts.isLoop
    pure := nodes.filter Facts.isPure
    uses := (Ordered.ofList (nodes.filterMap Facts.selectorText?)).map fun selector =>
      (selector, usesOf nodes selector)
    helpers := Ordered.ofList (nodes.flatMap Facts.helpersOf) }

section Uses

variable {selector : String} {node : Node}

/-- Among distinct texts, one more use goes to the entry of its text and to no other. -/
theorem addUse_map {texts : List String} (distinct : texts.Nodup) (usages : String → List Node)
    (fresh : selector ∉ texts → usages selector = []) :
    addUse selector node (texts.map fun text => (text, usages text)) =
      (Ordered.insert texts selector).map fun text =>
        (text, if text = selector then usages text ++ [node] else usages text) := by
  induction texts with
  | nil => simp [addUse, Ordered.insert, fresh]
  | cons text rest ih =>
    obtain ⟨absent, others⟩ := List.nodup_cons.mp distinct
    by_cases same : text = selector
    · subst same
      have untouched : rest.map (fun other => (other, usages other)) =
          rest.map fun other =>
            (other, if other = text then usages other ++ [node] else usages other) := by
        refine List.map_congr_left fun other member => ?_
        rw [if_neg]
        rintro rfl
        exact absent member
      simp [addUse, Ordered.insert, untouched]
    · have apart : selector ≠ text := fun equal => same equal.symm
      have inserted : Ordered.insert (text :: rest) selector =
          text :: Ordered.insert rest selector := by
        unfold Ordered.insert
        by_cases known : selector ∈ rest <;> simp [known, apart]
      have tail := ih others fun missing => fresh (by simp [apart, missing])
      simp [addUse, inserted, same, tail]

theorem usesOf_concat_of_some {nodes : List Node} (found : Facts.selectorText? node = some selector)
    (text : String) :
    usesOf (nodes ++ [node]) text =
      if text = selector then usesOf nodes text ++ [node] else usesOf nodes text := by
  unfold usesOf
  rw [List.filter_append]
  by_cases same : text = selector
  · simp [found, same]
  · have apart : selector ≠ text := fun equal => same equal.symm
    simp [found, same, apart]

theorem usesOf_concat_of_none {nodes : List Node} (none : Facts.selectorText? node = none)
    (text : String) : usesOf (nodes ++ [node]) text = usesOf nodes text := by
  simp [usesOf, none]

/-- A text that no node has is not used. -/
theorem usesOf_eq_nil {nodes : List Node}
    (unused : selector ∉ Ordered.ofList (nodes.filterMap Facts.selectorText?)) :
    usesOf nodes selector = [] := by
  rw [Ordered.ofList, Ordered.mem_insertAll] at unused
  refine List.filter_eq_nil_iff.mpr fun node member found => unused (.inr ?_)
  exact List.mem_filterMap.mpr ⟨node, member, by simpa using found⟩

end Uses

/-- One more node, in the order of the walk. -/
theorem add_ofNodes (nodes : List Node) (node : Node) :
    (ofNodes nodes).add node = ofNodes (nodes ++ [node]) := by
  have distinct : (Ordered.ofList (nodes.filterMap Facts.selectorText?)).Nodup :=
    Ordered.nodup_insertAll List.nodup_nil _
  have pure : (if Facts.isPure node then nodes.filter Facts.isPure ++ [node]
      else nodes.filter Facts.isPure) = (nodes ++ [node]).filter Facts.isPure := by
    cases isPure : Facts.isPure node <;> simp [isPure]
  have uses : ((ofNodes nodes).add node).uses = (ofNodes (nodes ++ [node])).uses := by
    cases found : Facts.selectorText? node with
    | none => simp [add, ofNodes, found, usesOf_concat_of_none found]
    | some selector =>
      simp only [add, ofNodes, addUse_map distinct (usesOf nodes) usesOf_eq_nil, List.filterMap_append,
        List.filterMap_cons, List.filterMap_nil, found, Ordered.ofList_append,
        usesOf_concat_of_some found]
      rfl
  simp only [add, ofNodes, Survey.mk.injEq]
  exact ⟨by simp, by simp, by simp, pure, uses, by simp [Ordered.ofList_append]⟩

/-- A run over some nodes gives their survey. -/
theorem foldl_add (nodes : List Node) : nodes.foldl add {} = ofNodes nodes := by
  induction nodes using List.reverseRecOn with
  | nil => rfl
  | append_singleton nodes node ih =>
    rw [List.foldl_append, ih, List.foldl_cons, List.foldl_nil, add_ofNodes]

end Survey

namespace Facts

/-- The facts of a script, read off the list of its nodes. -/
theorem ofScript_eq (root : Node) : ofScript root = (Survey.ofNodes root.subtree).facts := by
  rw [ofScript, Survey.foldl_add]

theorem hasAsync_ofScript (root : Node) :
    (ofScript root).hasAsync = root.anyInSubtree suspends := by
  rw [ofScript_eq]
  rfl

theorem canThrow_ofScript (root : Node) :
    (ofScript root).canThrow = root.anyInSubtree mayThrow := by
  rw [ofScript_eq]
  rfl

theorem hasLoops_ofScript (root : Node) :
    (ofScript root).hasLoops = root.anyInSubtree isLoop := by
  rw [ofScript_eq]
  rfl

theorem pure_ofScript (root : Node) : (ofScript root).pure = root.subtree.filter isPure := by
  rw [ofScript_eq]
  rfl

end Facts
end Hyperscript
