import Hyperscript.Proofs.Program.Hoisting

/-! Class commands step by step, and a page on which to run them: its elements are
numbers, and the only selectors are those of one class. -/
namespace Hyperscript.Program

open Meaning

namespace Engine

variable {engine : Engine}

theorem request_pure {α : Type} (value : α) :
    request (fun _ : Document engine.Element => (pure value : Action engine.World engine.Value α)) =
      pure value := by
  apply Action.ext
  intro start completion final
  constructor
  · rintro ⟨world, rfl, ⟨_, rfl, ⟨⟨⟩, rfl⟩⟩ | ⟨_, _, ⟨⟩, _⟩⟩
    exact ⟨rfl, rfl⟩
  · rintro ⟨rfl, rfl⟩
    exact ⟨final.world, rfl, .inl ⟨value, rfl, rfl, rfl⟩⟩

/-- The state after the same class change on each of the elements. -/
def State.changingAll (state : engine.State) (elements : List engine.Element)
    (method className : String) : engine.State :=
  elements.foldl (fun state element => state.changing element method className) state

theorem changeElements_normal_iff {method className : String} (plain : isClassName className)
    {elements : List engine.Element} {start final : engine.State} :
    changeElements method className elements start (.normal ()) final ↔
      final = start.changingAll elements method className := by
  induction elements generalizing start with
  | nil => simp [changeElements, Action.pure_iff, State.changingAll]
  | cons element rest ih =>
    have first {middle : engine.State} :
        changeElement element method className start (.normal ()) middle ↔
          middle = start.changing element method className := by
      simp [changeElement, engine.classError?_class plain, Action.modify_bind_iff, pause]
    simp [changeElements, Action.bind_iff, first, ih, State.changingAll]

/-- Where the elements of a selector come from at a moment. -/
def Found (env : Env engine.Value) (state : engine.State) (selector : String) (key : Option String)
    (found : List engine.Element) : Prop :=
  match key with
  | none => engine.isSelector selector ∧ engine.query state.document selector = found
  | some key => env.lookup key = some (.constant (engine.ofElements found))

theorem execAll_changeClasses_iff {env : Env engine.Value} {selector method className : String}
    {key : Option String} {found : List engine.Element} (plain : isClassName className)
    {start final : engine.State} (source : Found env start selector key found) {rest : List Stmt} :
    execAll env (.changeClasses (.elements selector key) method className :: rest)
        start (.normal ()) final ↔
      execAll env rest
        ((start.noting selector (engine.ofElements found)).changingAll found method className)
        (.normal ()) final := by
  have read {value : engine.Value} {middle : engine.State} :
      eval env (.elements selector key) start (.normal value) middle ↔
        value = engine.ofElements found ∧
          middle = start.noting selector (engine.ofElements found) := by
    cases key with
    | none => simp [eval_elements_iff source.1, source.2, use_iff, and_comm]
    | some key =>
      have held : env.lookup key = some (.constant (engine.ofElements found)) := source
      simp [eval, lookup, held, use_iff, and_comm]
  have command {middle : engine.State} :
      exec env (.changeClasses (.elements selector key) method className) start (.normal ()) middle ↔
        middle =
          (start.noting selector (engine.ofElements found)).changingAll found method className := by
    have changes : changeClasses (engine.ofElements found) method className =
        changeElements method className found := by
      rw [changeClasses, engine.elements?_ofElements]
    constructor
    · rintro (⟨value, state, ran, changed⟩ | ⟨_, ⟨⟩, _⟩)
      obtain ⟨rfl, rfl⟩ := read.mp ran
      rwa [changes, changeElements_normal_iff plain] at changed
    · rintro rfl
      have changed : changeElements method className found
          (start.noting selector (engine.ofElements found)) (.normal ()) _ :=
        (changeElements_normal_iff plain).mpr rfl
      rw [← changes] at changed
      exact .inl ⟨_, _, read.mpr ⟨rfl, rfl⟩, changed⟩
  simp [execAll, Action.bind_iff, command]

theorem execAll_nil_iff {env : Env engine.Value} {start final : engine.State} :
    execAll env [] start (.normal ()) final ↔ final = start := by
  simp [execAll, Action.pure_iff]

/-- A function without errors and modifiers does what its body says. -/
theorem run_calm_iff {function : Function} (calm : function.facts.canThrow = false)
    (plain : function.modifiers = {})
    (valid : ∀ declaration ∈ function.declarations, engine.isSelector declaration.2)
    {occurrence context : engine.Value}
    (created : engine.createContext occurrence = fun _ => pure context)
    {start final : engine.State} {completion : Completion (Signal engine.Value) Unit} :
    run function occurrence start completion final ↔
      execAll (parameters context occurrence ++
          constants (heldOn start.document function.declarations))
        function.body start completion final := by
  simp only [run, created, request_pure, pure_bind, declare_bind_iff valid, guarded, calm, perform,
    plain, calling, Bool.false_eq_true, if_false]

end Engine

inductive PageValue where
  | literal (value : Literal)
  | element (number : Nat)
  | elements (found : List Nat)
  | runtime (name : String)
  | error (name : String)
  | nothing
deriving DecidableEq

namespace PageValue

def isTruthy : PageValue → Bool
  | .literal value => value.isTruthy
  | .nothing => false
  | _ => true

def element? : PageValue → Option Nat
  | .element number => some number
  | _ => none

def elements? : PageValue → Option (List Nat)
  | .elements found => some found
  | _ => none

end PageValue

/-- The class of a selector of one class. -/
def selectedClass? (selector : String) : Option String :=
  match selector.toList with
  | '.' :: name => some (String.ofList name)
  | _ => none

theorem selectedClass?_class (name : String) : selectedClass? ("." ++ name) = some name := by
  simp [selectedClass?, String.toList_append]

def page : Engine where
  Element := Nat
  Value := PageValue
  World := Unit
  Cursor := List Nat
  decidableElement := inferInstance
  literal := .literal
  isTruthy := PageValue.isTruthy
  isSame value other := decide (value = other)
  runtime := .runtime
  element? := PageValue.element?
  ofElements := .elements
  elements? := PageValue.elements?
  elements?_ofElements _ := rfl
  isSelector selector := (selectedClass? selector).any isClassName
  isSelector_class plain := by simpa [selectedClass?_class] using plain
  query document selector :=
    match selectedClass? selector with
    | some name => document.elements.filter (document.hasClass · name)
    | none => []
  query_class document _ _ := by rw [selectedClass?_class]
  selectorError := .error
  classError? name := if isClassName name then none else some (.error name)
  classError?_class plain := if_pos plain
  unsetError := .error
  constantError := .error
  global name _ := .raise (.error name)
  setGlobal name _ _ := .raise (.error name)
  member _ _ _ := pure .nothing
  setMember _ _ _ _ := pure ()
  binary _ _ _ _ := pure .nothing
  unary _ _ _ := pure .nothing
  toText _ _ := pure .nothing
  increment _ _ := pure .nothing
  call _ _ _ := pure ()
  createContext _ _ := pure .nothing
  log _ _ := pure ()
  wait _ _ := pure ()
  iterate value _ := pure (value.elements?.getD [])
  advance cursor _ := pure (cursor.head?.map fun element => (.element element, cursor.tail))
  changeOther _ _ name _ := .raise (.error name)
  changeOthers _ _ name _ := .raise (.error name)

end Hyperscript.Program
