import Hyperscript.Optimization.Optimizer
import Hyperscript.Proofs.Meaning.Recording

/-! Loop unrolling preserves what scripts do. The pass judges a repetition after its
body has been unrolled, and judges it by the body as it then stands; so each rewritten
repetition is dealt with on its own, and the walk takes care of the nesting. -/
namespace Hyperscript.Unrolling

open Meaning Interpretation

variable {meaning : Interpretation}

theorem execAll_append (first second : List Node) :
    meaning.execAll (first ++ second) = (do
      meaning.execAll first
      meaning.execAll second) := by
  induction first with
  | nil => simp only [List.nil_append, execAll, pure_bind]
  | cons statement rest ih => simp only [List.cons_append, execAll, ih, bind_assoc]

theorem execAll_replicate (body : List Node) (count : Nat) :
    meaning.execAll (List.replicate count body).flatten =
      consecutively (meaning.execAll body) count := by
  induction count with
  | zero => rfl
  | succ count ih =>
    simp only [List.replicate_succ, List.flatten_cons, execAll_append, ih, consecutively]

theorem iterations_eq {number : Float} {count : Nat} (whole : Binary64.toNat? number = some count)
    (body : List Node) : iterations number body = (List.replicate count body).flatten := by
  simp only [iterations, Revision.value_copy, List.map_id', whole, Option.getD_some]

/-- What a repetition that nothing speaks against is known to be. -/
theorem of_obstacle?_eq_none {number : Float} {body : List Node}
    (clear : obstacle? number body = none) :
    (∃ count ≤ maxCount, Binary64.toNat? number = some count) ∧ body.length ≤ maxStatements ∧
      ∀ statement ∈ body, statement.anyInSubtree Node.readsIndex = false := by
  unfold obstacle? at clear
  split at clear
  · contradiction
  next inRange =>
    split at clear
    · contradiction
    next short =>
      split at clear
      · contradiction
      next unread =>
        refine ⟨?_, Nat.not_lt.mp short, ?_⟩
        · cases whole : Binary64.toNat? number with
          | none => simp [whole] at inRange
          | some count => exact ⟨count, by simpa [whole] using inRange, rfl⟩
        · intro statement member
          have allUnread := List.any_eq_false.mp (Bool.eq_false_iff.mpr unread)
          exact Bool.eq_false_iff.mpr (allUnread statement member)

/-- A repetition with a literal count and a body that ignores the index is its body
that many times over. -/
theorem exec_repeatTimes {number : Float} {count : Nat} {body : List Node}
    (whole : Binary64.toNat? number = some count) (ignores : IgnoresIndex (meaning.execAll body)) :
    meaning.exec (.repeatTimes (some (.literal (.number number))) body) =
      consecutively (meaning.execAll body) count := by
  simp only [exec, eval, pure_bind, repeated, meaning.whole?_literal whole]
  exact counted_eq_consecutively ignores count

theorem unroll_equivalent (byName : meaning.IndexByName) (node : Node) :
    meaning.Equivalent node (unroll node).value := by
  unfold unroll
  split
  next number body =>
    split
    next => exact .refl _
    next clear =>
      obtain ⟨⟨count, _, whole⟩, _, unread⟩ := of_obstacle?_eq_none clear
      have ignores := IndexByName.execAll fun statement member =>
        (byName.ignores statement (unread statement member)).2
      refine .of_statement rfl ?_ rfl rfl
      rw [exec_repeatTimes whole ignores]
      simp only [Revised.replaced, exec, iterations_eq whole, execAll_replicate]
  next => exact .refl _

/-- Under every interpretation that reaches the loop index by its name only, an unrolled
script has the outcomes of the script: run as a whole, and as an expression. -/
theorem unrolled_outcomes (meaning : Interpretation) (byName : meaning.IndexByName) (facts : Facts)
    (tree : Node) :
    (∀ start completion final,
      meaning.run (Pass.loopUnrolling.transform facts tree).value start completion final ↔
        meaning.run tree start completion final) ∧
    ∀ start completion final,
      meaning.eval (Pass.loopUnrolling.transform facts tree).value start completion final ↔
        meaning.eval tree start completion final := by
  have same : meaning.Equivalent tree (revision.node tree).value :=
    .of_revision (unroll_equivalent byName) (fun _ ends => Bool.noConfusion ends) tree
  exact ⟨fun _ _ _ => by rw [same.run]; rfl, fun _ _ _ => by rw [same.eval]; rfl⟩

/-- A repetition inside another, left in the middle of its body, and a use of the
index behind both. -/
def nestedRepetition : Node :=
  .event "click" {}
    [.repeatTimes (some (.literal (.number 2.0)))
      [.repeatTimes (some (.literal (.number 3.0)))
        [.command "log" [.literal (.string "once")] none, .command "halt" [] none]],
      .command "log" [.identifier "index"] none]

theorem unrolled_nestedRepetition :
    recording.IndexByName ∧ (Pass.loopUnrolling.transform {} nestedRepetition).changed = true ∧
    (∀ start completion final,
      recording.run (Pass.loopUnrolling.transform {} nestedRepetition).value start completion final ↔
        recording.run nestedRepetition start completion final) ∧
    ∀ start completion final,
      recording.eval (Pass.loopUnrolling.transform {} nestedRepetition).value start completion final ↔
        recording.eval nestedRepetition start completion final :=
  ⟨recording_indexByName, by decide +kernel,
    unrolled_outcomes recording recording_indexByName {} nestedRepetition⟩

end Hyperscript.Unrolling
