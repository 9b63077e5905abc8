import Hyperscript.Proofs.Meaning.Action
import Hyperscript.Proofs.Script.Slots

/-! What scripts do. An interpretation supplies everything that scripts leave to their
surroundings: values, expressions, commands, iteration. Statement lists and control
statements have one meaning in all of them. Expressions and commands are given the
meanings of their operands and not the values, so an interpretation decides itself
in what order, how often and whether operands are evaluated. -/
namespace Hyperscript.Meaning

/-- The loop index is kept apart from the rest of the world. -/
structure State (World Index : Type) where
  world : World
  index : Index

structure Interpretation where
  World : Type
  Index : Type
  Value : Type
  Signal : Type
  Cursor : Type
  /-- The loop index during the iteration of that number. -/
  counter : Nat → Index
  literal : Literal → Value
  /-- What a statement gives where an expression is expected. -/
  noValue : Value
  isTruthy : Value → Bool
  /-- The whole number that a value is, if it is one. -/
  whole? : Value → Option Nat
  whole?_literal {number : Float} {count : Nat} :
    Binary64.toNat? number = some count → whole? (literal (.number number)) = some count
  identifier : String → Action (State World Index) Signal Value
  variableRef : String → Action (State World Index) Signal Value
  selector : String → Option String → Action (State World Index) Signal Value
  binary : String → Action (State World Index) Signal Value →
    Action (State World Index) Signal Value → Action (State World Index) Signal Value
  unary : String → Action (State World Index) Signal Value → Action (State World Index) Signal Value
  member : Action (State World Index) Signal Value → String → Action (State World Index) Signal Value
  unknownValue : Action (State World Index) Signal Value
  unknownStatement : Action (State World Index) Signal Unit
  /-- What an expression does where a statement is expected, which may be nothing. -/
  discard : Action (State World Index) Signal Value → Action (State World Index) Signal Unit
  command : String → List (Action (State World Index) Signal Value) →
    Option (Action (State World Index) Signal Value) → Action (State World Index) Signal Unit
  /-- A repetition whose count is no whole number. -/
  irregular : Value → Action (State World Index) Signal Unit → Action (State World Index) Signal Unit
  /-- Iteration over a value may look at the world anew for every item. -/
  iterate : Value → Action (State World Index) Signal Cursor
  advance : Cursor → Action (State World Index) Signal (Option (Value × Cursor))
  bindItem : String → Value → World → World
  /-- The world after an iteration, from those before the binding and after the body. -/
  releaseItem : String → World → World → World

namespace Interpretation

abbrev Effect (meaning : Interpretation) (α : Type) : Type :=
  Action (State meaning.World meaning.Index) meaning.Signal α

variable (meaning : Interpretation)

def setIndex (number : Nat) : meaning.Effect Unit :=
  .modify fun state => { state with index := meaning.counter number }

/-- The index of the start comes back, however the action ends. -/
def restoringIndex (action : meaning.Effect Unit) : meaning.Effect Unit :=
  action.settling fun start last => { last with index := start.index }

/-- Go on while the condition is true. -/
def looping (condition : meaning.Effect meaning.Value) (body : meaning.Effect Unit) :
    meaning.Effect Unit :=
  .Loop (fun _ => do
    let value ← condition
    if meaning.isTruthy value then
      body
      return some ()
    else return none) ()

def forever (body : meaning.Effect Unit) : meaning.Effect Unit :=
  .Loop (fun _ => do
    body
    return some ()) ()

/-- The iterations from a number on. -/
def iterationsFrom (count : Nat) (body : meaning.Effect Unit) : Nat → meaning.Effect Unit :=
  .Loop fun number => do
    if number < count then
      meaning.setIndex number
      body
      return some (number + 1)
    else return none

def counted (count : Nat) (body : meaning.Effect Unit) : meaning.Effect Unit :=
  meaning.restoringIndex (meaning.iterationsFrom count body 0)

def repeated (value : meaning.Value) (body : meaning.Effect Unit) : meaning.Effect Unit :=
  match meaning.whole? value with
  | some count => meaning.counted count body
  | none => meaning.irregular value body

def withItem (name : String) (item : meaning.Value) (body : meaning.Effect Unit) :
    meaning.Effect Unit :=
  Action.settling
    (fun start last => { last with world := meaning.releaseItem name start.world last.world }) do
    Action.modify fun state => { state with world := meaning.bindItem name item state.world }
    body

def each (name : String) (collection : meaning.Value) (body : meaning.Effect Unit) :
    meaning.Effect Unit := do
  let cursor ← meaning.iterate collection
  .Loop (fun cursor => do
    match ← meaning.advance cursor with
    | some (item, following) =>
      meaning.withItem name item body
      return some following
    | none => return none) cursor

/-- A node where an expression is expected. -/
def eval : Node → meaning.Effect meaning.Value
  | .literal value => pure (meaning.literal value)
  | .identifier name => meaning.identifier name
  | .variableRef name => meaning.variableRef name
  | .selector value cacheKey => meaning.selector value cacheKey
  | .binary operator left right => meaning.binary operator (eval left) (eval right)
  | .unary operator operand => meaning.unary operator (eval operand)
  | .member object property => meaning.member (eval object) property
  | .unknown => meaning.unknownValue
  | .command .. | .ifElse .. | .repeatTimes .. | .forEach .. | .whileLoop .. | .event ..
  | .sequence .. => pure meaning.noValue

mutual

/-- A node where a statement is expected. A handler inside another one is not run. -/
def exec : Node → meaning.Effect Unit
  | .command name args target =>
    meaning.command name (args.map meaning.eval) (target.map meaning.eval)
  | .ifElse condition thenBranch elseBranch => do
    if meaning.isTruthy (← meaning.eval condition) then execAll thenBranch
    else execAll? elseBranch
  | .repeatTimes none body => meaning.forever (execAll body)
  | .repeatTimes (some count) body => do meaning.repeated (← meaning.eval count) (execAll body)
  | .forEach itemName collection body => do
    meaning.each itemName (← meaning.eval collection) (execAll body)
  | .whileLoop condition body => meaning.looping (meaning.eval condition) (execAll body)
  | .sequence commands _ => execAll commands
  | .unknown => meaning.unknownStatement
  | .event .. => pure ()
  | .literal value => meaning.discard (meaning.eval (.literal value))
  | .binary operator left right => meaning.discard (meaning.eval (.binary operator left right))
  | .unary operator operand => meaning.discard (meaning.eval (.unary operator operand))
  | .selector value cacheKey => meaning.discard (meaning.eval (.selector value cacheKey))
  | .identifier name => meaning.discard (meaning.eval (.identifier name))
  | .variableRef name => meaning.discard (meaning.eval (.variableRef name))
  | .member object property => meaning.discard (meaning.eval (.member object property))

/-- Statements from left to right, up to the first that ends abruptly. -/
def execAll : List Node → meaning.Effect Unit
  | [] => pure ()
  | statement :: rest => do
    exec statement
    execAll rest

def execAll? : Option (List Node) → meaning.Effect Unit
  | none => pure ()
  | some statements => execAll statements

end

/-- A whole script: a handler does what its body says. -/
def run : Node → meaning.Effect Unit
  | .event _ _ body => meaning.execAll body
  | statement => meaning.exec statement

/-- Alike wherever they stand. -/
structure Equivalent (node node' : Node) : Prop where
  eval : meaning.eval node = meaning.eval node'
  exec : meaning.exec node = meaning.exec node'
  run : meaning.run node = meaning.run node'

/-- Alike as arguments and as flattened commands. -/
structure EquivalentLists (nodes nodes' : List Node) : Prop where
  eval : nodes.map meaning.eval = nodes'.map meaning.eval
  exec : meaning.execAll nodes = meaning.execAll nodes'

def EquivalentBlocks (statements statements' : List Node) : Prop :=
  meaning.execAll statements = meaning.execAll statements'

variable {meaning}

theorem Equivalent.refl (node : Node) : meaning.Equivalent node node := ⟨rfl, rfl, rfl⟩

theorem Equivalent.trans {first second third : Node} (before : meaning.Equivalent first second)
    (after : meaning.Equivalent second third) : meaning.Equivalent first third :=
  ⟨before.eval.trans after.eval, before.exec.trans after.exec, before.run.trans after.run⟩

/-- Only a handler is run otherwise than executed. -/
theorem run_eq_exec {node : Node} (bare : node.handler? = none) :
    meaning.run node = meaning.exec node := by
  cases node <;> first | rfl | contradiction

theorem Equivalent.of_statement {node node' : Node}
    (eval : meaning.eval node = meaning.eval node') (exec : meaning.exec node = meaning.exec node')
    (bare : node.handler? = none) (bare' : node'.handler? = none) :
    meaning.Equivalent node node' :=
  ⟨eval, exec, by rw [run_eq_exec bare, run_eq_exec bare', exec]⟩

theorem Equivalent.of_slotwise {node node' : Node}
    (related :
      node.Slotwise meaning.Equivalent meaning.EquivalentBlocks meaning.EquivalentLists node') :
    meaning.Equivalent node node' := by
  cases related with
  | leaf => exact .refl node
  | command args target =>
    refine .of_statement rfl ?_ rfl rfl
    cases target with
    | none => simp only [Interpretation.exec, args.eval, Option.map_none]
    | some target => simp only [Interpretation.exec, args.eval, Option.map_some, target.eval]
  | ifElse condition thenBranch elseBranch =>
    refine .of_statement rfl ?_ rfl rfl
    have sameThen : meaning.execAll _ = meaning.execAll _ := thenBranch
    cases elseBranch with
    | none => simp only [Interpretation.exec, condition.eval, sameThen]
    | some elseBranch =>
      have sameElse : meaning.execAll _ = meaning.execAll _ := elseBranch
      simp only [Interpretation.exec, execAll?, condition.eval, sameThen, sameElse]
  | repeatTimes count body =>
    refine .of_statement rfl ?_ rfl rfl
    have sameBody : meaning.execAll _ = meaning.execAll _ := body
    cases count with
    | none => simp only [Interpretation.exec, sameBody]
    | some count => simp only [Interpretation.exec, count.eval, sameBody]
  | forEach head body | whileLoop head body =>
    refine .of_statement rfl ?_ rfl rfl
    have sameBody : meaning.execAll _ = meaning.execAll _ := body
    simp only [Interpretation.exec, head.eval, sameBody]
  | event body => exact ⟨rfl, rfl, body⟩
  | @binary operator left left' right right' first second =>
    have same : meaning.eval (.binary operator left right) =
        meaning.eval (.binary operator left' right') := by
      simp only [Interpretation.eval, first.eval, second.eval]
    exact .of_statement same (by simp only [Interpretation.exec, same]) rfl rfl
  | @unary operator operand operand' inner =>
    have same : meaning.eval (.unary operator operand) = meaning.eval (.unary operator operand') := by
      simp only [Interpretation.eval, inner.eval]
    exact .of_statement same (by simp only [Interpretation.exec, same]) rfl rfl
  | @member object object' property inner =>
    have same : meaning.eval (.member object property) = meaning.eval (.member object' property) := by
      simp only [Interpretation.eval, inner.eval]
    exact .of_statement same (by simp only [Interpretation.exec, same]) rfl rfl
  | sequence commands =>
    exact .of_statement rfl (by simp only [Interpretation.exec, commands.exec]) rfl rfl

theorem execAll_revision {revision : Revision}
    (ends : ∀ node, revision.endsBlock node = true → (meaning.exec node).NeverNormal)
    (statements : List Node) (same : ∀ statement ∈ statements,
      meaning.Equivalent statement (revision.node statement).value) :
    meaning.execAll statements = meaning.execAll (revision.block statements).value := by
  induction statements with
  | nil => rfl
  | cons statement rest ih =>
    have first := (same statement List.mem_cons_self).exec
    rw [Revision.value_block_cons]
    split
    next ended =>
      simp only [execAll, first]
      exact (ends _ ended).bind_eq _ _
    next =>
      simp only [execAll, first, ih fun other member => same other (List.mem_cons_of_mem _ member)]

theorem equivalentLists_revision {revision : Revision} (items : List Node)
    (same : ∀ item ∈ items, meaning.Equivalent item (revision.node item).value) :
    meaning.EquivalentLists items (revision.list items).value := by
  have related := Revision.list_forall₂ (fun _ => Equivalent.refl) items same
  generalize (revision.list items).value = revised at related
  clear same
  induction related with
  | nil => exact ⟨rfl, rfl⟩
  | cons first _ ih =>
    constructor
    · simp only [List.map_cons, first.eval, ih.eval]
    · simp only [execAll, first.exec, ih.exec]

/-- A revision preserves the meaning when the rule for finished nodes does and when it
ends blocks only at statements that always end abruptly. -/
theorem Equivalent.of_revision {revision : Revision}
    (finish : ∀ node, meaning.Equivalent node (revision.finish node).value)
    (ends : ∀ node, revision.endsBlock node = true → (meaning.exec node).NeverNormal)
    (tree : Node) : meaning.Equivalent tree (revision.node tree).value :=
  Revision.Within.related
    { compatible := of_slotwise
      trans := trans
      finish
      block := execAll_revision ends
      list := equivalentLists_revision }
    tree

end Interpretation
end Hyperscript.Meaning
