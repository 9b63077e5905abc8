import Hyperscript.Optimization.Optimizer
import Hyperscript.Proofs.Script.Frame

/-! Constant folding preserves meaning. It moves within the least congruence that holds
the operator table, so no meaning that is compositional and agrees with the table can
tell a script from its folded form; and it is complete on constant expressions: what
the table evaluates, it folds to the value. -/
namespace Hyperscript.Folding

open Node

/-- The least congruence that identifies an operator on two literals with its value. -/
inductive Congruent : Node → Node → Prop where
  | value {operator left right value} : Literal.combine? operator left right = some value →
      Congruent (.binary operator (.literal left) (.literal right)) (.literal value)
  | refl (node) : Congruent node node
  | symm {node node'} : Congruent node node' → Congruent node' node
  | trans {first second third} : Congruent first second → Congruent second third →
      Congruent first third
  | inside (frame : Frame) {node node'} : Congruent node node' →
      Congruent (frame.plug node) (frame.plug node')

theorem congruent_isCongruence : IsCongruence Congruent where
  refl := .refl
  symm := .symm
  trans := .trans
  inside frame := .inside frame

/-- A meaning in which an operator on two literals is the value that the table gives. -/
def Validates {α : Sort u} (meaning : Node → α) : Prop :=
  ∀ operator left right value, Literal.combine? operator left right = some value →
    meaning (.binary operator (.literal left) (.literal right)) = meaning (.literal value)

theorem Congruent.least {related : Node → Node → Prop} (congruence : IsCongruence related)
    (values : ∀ {operator left right value}, Literal.combine? operator left right = some value →
      related (.binary operator (.literal left) (.literal right)) (.literal value))
    {node node' : Node} (congruent : Congruent node node') : related node node' := by
  induction congruent with
  | value combined => exact values combined
  | refl node => exact congruence.refl node
  | symm _ ih => exact congruence.symm ih
  | trans _ _ before after => exact congruence.trans before after
  | inside frame _ ih => exact congruence.inside frame ih

theorem Congruent.meaning_eq {α : Sort u} {meaning : Node → α}
    (compositional : Compositional meaning) (validates : Validates meaning) {node node' : Node}
    (congruent : Congruent node node') : meaning node = meaning node' :=
  congruent.least compositional.isCongruence fun combined => validates _ _ _ _ combined

theorem fold_congruent (node : Node) : Congruent node (fold node).value := by
  unfold fold
  split
  next operator left right =>
    split
    next value combined => exact .value combined
    next => exact .refl _
  next => exact .refl _

theorem folded_congruent (tree : Node) : Congruent tree (revision.node tree).value :=
  congruent_isCongruence.of_revision fold_congruent (fun _ => rfl) tree

/-- The value of an expression made of operators and literals only, where the table
evaluates each of its operators. -/
def evaluate? : Node → Option Literal
  | .literal value => some value
  | .binary operator left right => do
    Literal.combine? operator (← evaluate? left) (← evaluate? right)
  | _ => none

theorem evaluate?_compositional : Compositional evaluate? := by
  intro frame node node' same
  cases frame <;> simp only [Frame.plug, evaluate?, same]

theorem evaluate?_validates : Validates evaluate? := by
  intro operator left right value combined
  simp only [evaluate?, Option.bind_eq_bind, Option.bind_some, combined]

/-- Only an operator on two literals becomes a literal by the rule itself. -/
theorem fold_eq_literal_iff {node : Node} {value : Literal} :
    (fold node).value = .literal value ↔
      node = .literal value ∨ ∃ operator left right,
        node = .binary operator (.literal left) (.literal right) ∧
          Literal.combine? operator left right = some value := by
  unfold fold
  split
  next operator left right =>
    split
    next result combined => simp [Revised.replaced, combined]
    next failed => simp [Revised.kept, failed]
  next other =>
    constructor
    · exact .inl
    · rintro (same | ⟨operator, left, right, rfl, _⟩)
      · exact same
      · exact absurd rfl (other operator left right)

/-- Folding gives a literal where evaluation gives a value, and then that value. -/
theorem folded_eq_literal_iff (tree : Node) (value : Literal) :
    (revision.node tree).value = .literal value ↔ evaluate? tree = some value := by
  induction tree using childInduction generalizing value with
  | parent tree ih =>
    rw [Revision.node_eq, Revised.value_bind]
    change (fold _).value = _ ↔ _
    rw [fold_eq_literal_iff]
    cases tree with
    | binary operator left right =>
      have inLeft := ih left (by simp [children])
      have inRight := ih right (by simp [children])
      simp [mapSlots, evaluate?, inLeft, inRight, Option.bind_eq_some_iff, and_assoc]
    | _ => simp [mapSlots, evaluate?]

/-- A folded script is congruent to the script; it means the same to every compositional
meaning that validates the table; and it is a literal exactly where the script is an
expression that the table evaluates, and then it is the value. -/
theorem folded_meaning (facts : Facts) (tree : Node) :
    Congruent tree (Pass.constantFolding.transform facts tree).value ∧
    (∀ {α : Sort u} (meaning : Node → α), Compositional meaning → Validates meaning →
      meaning (Pass.constantFolding.transform facts tree).value = meaning tree) ∧
    ∀ value, (Pass.constantFolding.transform facts tree).value = .literal value ↔
      evaluate? tree = some value :=
  ⟨folded_congruent tree,
    fun _ compositional validates =>
      ((folded_congruent tree).meaning_eq compositional validates).symm,
    folded_eq_literal_iff tree⟩

/-- The inner operators decide whether the outer one has literals to work on. -/
def cascade : Node :=
  .binary "or" (.binary "is" (.literal (.number 1.0)) (.literal (.string "1")))
    (.binary "&" (.literal (.string "a"))
      (.binary "+" (.literal (.number 1.0)) (.literal (.number 2.0))))

theorem folded_cascade :
    Compositional evaluate? ∧ Validates evaluate? ∧
    evaluate? (Pass.constantFolding.transform {} cascade).value = evaluate? cascade ∧
    (Pass.constantFolding.transform {} cascade).value = .literal (.string "a3") :=
  ⟨evaluate?_compositional, evaluate?_validates,
    (folded_meaning {} cascade).2.1 evaluate? evaluate?_compositional evaluate?_validates,
    ((folded_meaning.{1} {} cascade).2.2 _).mpr (by decide +kernel)⟩

end Hyperscript.Folding
