import Hyperscript.Proofs.Meaning.Index

/-! An interpretation that writes down what it is told to do. Operands are evaluated
from left to right, operators are left symbolic, and a command puts its name and its
evaluated operands on record. It can tell any two scripts apart that give different
commands, or the same with different operands, in some order. -/
namespace Hyperscript.Meaning

/-- A symbolic value. -/
inductive Datum where
  | nothing
  | literal (value : Literal)
  | index (number : Option Nat)
  | name (text : String)
  | compound (operator : String) (operands : List Datum)

namespace Datum

def isTruthy : Datum → Bool
  | .nothing => false
  | .literal value => value.isTruthy
  | _ => true

def whole? : Datum → Option Nat
  | .literal (.number value) => Binary64.toNat? value
  | .index number => number
  | _ => none

/-- Only a compound has items. -/
def items : Datum → List Datum
  | .compound _ operands => operands
  | _ => []

end Datum

/-- The commands given so far, each with its operands. -/
abbrev Record := List (String × List Datum)

/-- What a name stands for: the loop index, or itself. -/
def recordedName (name : String) : Action (State Record (Option Nat)) String Datum :=
  if name ∈ Node.indexNames then .read fun state => .index state.index else pure (.name name)

def recordedOperands (args : List (Action (State Record (Option Nat)) String Datum))
    (target : Option (Action (State Record (Option Nat)) String Datum)) :
    Action (State Record (Option Nat)) String (List Datum) :=
  (args ++ target.toList).mapM id

/-- Record a command, and stop after a terminator. -/
def recordedCommand (name : String) (args : List (Action (State Record (Option Nat)) String Datum))
    (target : Option (Action (State Record (Option Nat)) String Datum)) :
    Action (State Record (Option Nat)) String Unit := do
  let operands ← recordedOperands args target
  Action.modify fun state => { state with world := state.world ++ [(name, operands)] }
  if name ∈ Node.terminators then .raise name else pure ()

def recording : Interpretation where
  World := Record
  Index := Option Nat
  Value := Datum
  Signal := String
  Cursor := List Datum
  counter := some
  literal := .literal
  noValue := .nothing
  isTruthy := Datum.isTruthy
  whole? := Datum.whole?
  whole?_literal := id
  identifier := recordedName
  variableRef := recordedName
  selector value _ := pure (.name value)
  binary operator left right := do return .compound operator [← left, ← right]
  unary operator operand := do return .compound operator [← operand]
  member object property := do return .compound property [← object]
  unknownValue := pure .nothing
  unknownStatement := pure ()
  discard _ := pure ()
  command := recordedCommand
  irregular _ body := body
  iterate collection := pure collection.items
  advance
    | [] => pure none
    | item :: rest => pure (some (item, rest))
  bindItem name item record := record ++ [(name, [item])]
  releaseItem _ _ record := record

theorem IgnoresIndex.mapM {actions : List (Action (State World Index) κ α)}
    (each : ∀ action ∈ actions, IgnoresIndex action) : IgnoresIndex (actions.mapM id) := by
  induction actions with
  | nil => exact .pure []
  | cons action rest ih =>
    rw [List.mapM_cons]
    exact (each action List.mem_cons_self).bind fun _ =>
      (ih fun other member => each other (List.mem_cons_of_mem _ member)).bind fun _ => .pure _

theorem IgnoresIndex.raise (signal : κ) :
    IgnoresIndex (.raise signal : Action (State World Index) κ α) where
  keeps := by
    rintro start completion final ⟨rfl, rfl⟩
    rfl
  shifts := by
    rintro start completion final ⟨rfl, rfl⟩ index
    exact ⟨rfl, rfl⟩

theorem recordedName_ignoresIndex {name : String} (other : name ∉ Node.indexNames) :
    IgnoresIndex (recordedName name) := by
  rw [recordedName, if_neg other]
  exact .pure _

theorem recording_indexByName : recording.IndexByName where
  identifier := recordedName_ignoresIndex
  variableRef := recordedName_ignoresIndex
  selector _ _ := .pure _
  binary left right := left.bind fun _ => right.bind fun _ => .pure _
  unary operand := operand.bind fun _ => .pure _
  member object := object.bind fun _ => .pure _
  unknownValue := .pure _
  unknownStatement := .pure ()
  discard _ := .pure ()
  command {name args target} inArgs inTarget := by
    have operands : IgnoresIndex (recordedOperands args target) := by
      apply IgnoresIndex.mapM
      intro action member
      rcases List.mem_append.mp member with inside | inside
      · exact inArgs action inside
      · exact inTarget action (Option.mem_toList.mp inside)
    refine operands.bind fun values =>
      (IgnoresIndex.modifyWorld fun record => record ++ [(name, values)]).bind fun _ => ?_
    split
    · exact .raise name
    · exact .pure ()
  irregular body := body
  iterate _ := .pure _
  advance cursor := by
    cases cursor with
    | nil => exact .pure none
    | cons item rest => exact .pure _

theorem recording_terminators {name : String} (terminator : name ∈ Node.terminators)
    (args : List (recording.Effect recording.Value))
    (target : Option (recording.Effect recording.Value)) :
    (recording.command name args target).NeverNormal := by
  intro start value final ran
  change recordedCommand name args target start (.normal value) final at ran
  simp only [recordedCommand, if_pos terminator] at ran
  obtain ⟨_, _, _, (⟨_, _, _, same, _⟩ | ⟨_, same, _⟩)⟩ | ⟨_, same, _⟩ := ran <;> cases same

end Hyperscript.Meaning
