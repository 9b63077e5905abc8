import Hyperscript.Proofs.Optimization.Folding
import Hyperscript.Proofs.Program.Equivalence

/-! Folded code. Where the engine computes what the compiler has computed, the code of a
folded script does what the code of the script does. The values of the compiler are
those of strict equality and of its own number texts, so this is asked of the operations
of one script and not of all of them. -/
namespace Hyperscript.Program.Engine

open Folding

/-- The engine gives every constant operation of the script the value that it folds to. -/
def Computes (engine : Engine) (tree : Node) : Prop :=
  ∀ operator left right, .binary operator left right ∈ tree.subtree →
    ∀ first second value, evaluate? left = some first → evaluate? right = some second →
      Literal.combine? operator first second = some value →
        ∀ expr ∈ Expr.ofBinary? operator (.literal first) (.literal second),
          ∀ env : Env engine.Value, eval env expr = pure (engine.literal value)

variable {engine : Engine}

theorem Computes.child {node child : Node} (computes : engine.Computes node)
    (member : child ∈ node.children) : engine.Computes child :=
  fun operator left right inside =>
    computes operator left right (Node.mem_subtree_of_child member inside)

/-- An operator that can be computed can be written, too. -/
theorem ofBinary?_of_combine? {operator : String} {left right value : Literal}
    (combined : Literal.combine? operator left right = some value) :
    ∃ expr, Expr.ofBinary? operator (.literal left) (.literal right) = some expr ∧
      expr.bare = expr := by
  obtain ⟨known, found, _⟩ := Option.bind_eq_some_iff.mp combined
  cases known <;> simp [Expr.ofBinary?, found, Operator.symbol?, Expr.bare]

/-- One operation on two literals. -/
theorem sameCode_value {operator : String} {left right value : Literal}
    (combined : Literal.combine? operator left right = some value)
    (computed : ∀ expr ∈ Expr.ofBinary? operator (.literal left) (.literal right),
      ∀ env : Env engine.Value, eval env expr = pure (engine.literal value)) :
    engine.SameCode (.binary operator (.literal left) (.literal right)) (.literal value) := by
  obtain ⟨expr, found, bare⟩ := ofBinary?_of_combine? combined
  have code : Expr.ofNode? (.binary operator (.literal left) (.literal right)) = some expr := found
  refine ⟨rfl, ?_, rfl, rfl⟩
  rw [code]
  refine congrArg some (funext fun env => ?_)
  rw [denote, bare]
  exact computed expr found env

theorem sameCode_folded (tree : Node) (computes : engine.Computes tree) :
    engine.SameCode tree (Folding.revision.node tree).value := by
  induction tree using Node.childInduction with
  | parent tree ih =>
    have inside := SameCode.of_slotwise <| Revision.slotwise
      (Revision.block_forall₂ fun _ => rfl) (Revision.list_forall₂ fun _ => SameCode.refl) tree
      fun child member => ih child member (computes.child member)
    rw [Revision.node_eq, Revised.value_bind]
    refine inside.trans ?_
    change engine.SameCode _ (fold _).value
    cases tree with
    | binary operator left right =>
      simp only [Node.mapSlots, Revised.value_bind, Revised.value_pure]
      generalize inLeft : (Folding.revision.node left).value = left'
      generalize inRight : (Folding.revision.node right).value = right'
      unfold fold
      split
      next first second same =>
        cases same
        split
        next value combined =>
          exact sameCode_value combined <| computes _ left right (by simp [Node.subtree]) _ _ _
            ((folded_eq_literal_iff left first).mp inLeft)
            ((folded_eq_literal_iff right second).mp inRight) combined
        next => exact .refl _
      next => exact .refl _
    | _ => exact .refl _

end Hyperscript.Program.Engine
