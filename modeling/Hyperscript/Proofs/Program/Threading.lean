import Hyperscript.Code.Handler
import Hyperscript.Proofs.Script.Slots

/-! Generating code with a context at hand. Nothing in the context decides what is written: a
generator performs an emission, that is, it gives the text of the emission, reads the selectors of
the emission in the context it was handed, and appends the notes. So does each generator of
expressions and statements, and hence the context of a module comes out of a handler as the
emission of its body says. -/
namespace Hyperscript

namespace Generation

/-- From every state the generator gives the text of the emission, with its reads carried into the
context and its notes made. -/
def Performs (generation : Generation α) (emission : Emission α) : Prop :=
  ∀ state, generation state =
    (emission.value,
      { context := emission.run state.context, notes := state.notes ++ emission.notes })

/-- What is written is the same in every context. -/
def IsContextFree (generation : Generation α) : Prop :=
  ∀ here there, (generation here).1 = (generation there).1

namespace Performs

variable {generation : Generation α} {emission : Emission α}

theorem pure (value : α) : Performs (Pure.pure value) (Pure.pure value) := by
  intro state
  rw [Emission.notes_pure, List.append_nil]
  rfl

/-- One after the other: the second goes on in the context that the first leaves. -/
theorem bind {next : α → Generation β} {following : α → Emission β}
    (first : generation.Performs emission)
    (second : ∀ value, (next value).Performs (following value)) :
    (generation >>= next).Performs (emission >>= following) := by
  intro state
  have run : (generation >>= next) state = next (generation state).1 (generation state).2 := rfl
  rw [run, first state, second emission.value, Emission.notes_bind, ← List.append_assoc,
    Emission.run, Emission.run, Emission.run, Emission.reads_bind, Context.cacheAll_append]
  rfl

/-- What has no code ends the generation of what it is a part of. -/
theorem bindSome {generation : Generation (Option α)} {emission : Emission (Option α)}
    {next : Option α → Generation (Option β)} {following : Option α → Emission (Option β)}
    (first : generation.Performs emission)
    (without : next none = Pure.pure none ∧ following none = Pure.pure none)
    (second : ∀ value, (next (some value)).Performs (following (some value))) :
    (generation >>= next).Performs (emission >>= following) := by
  refine first.bind fun value => ?_
  cases value with
  | none =>
    rw [without.1, without.2]
    exact pure none
  | some value => exact second value

theorem map (f : α → β) (performs : generation.Performs emission) :
    (f <$> generation).Performs (f <$> emission) := by
  rw [← bind_pure_comp, ← bind_pure_comp]
  exact performs.bind fun value => pure (f value)

theorem read (key selector : String) :
    (Generation.read key selector).Performs (Emission.read key selector) := by
  intro state
  have unnoted : (Emission.read key selector).notes = [] := rfl
  rw [unnoted, List.append_nil]
  rfl

theorem remark (note : Note) : (Generation.remark note).Performs (Emission.remark note) :=
  fun _ => rfl

theorem isContextFree (performs : generation.Performs emission) : generation.IsContextFree := by
  intro here there
  rw [performs here, performs there]

end Performs

theorem performs_elements (selector : String) (cacheKey : Option String) :
    (elements selector cacheKey).Performs (Expression.elements selector cacheKey) := by
  cases cacheKey with
  | none => exact .pure _
  | some key => exact (Performs.read key selector).bind fun _ => .pure key

theorem performs_expression (node : Node) :
    (expression node).Performs (Expression.generate node) := by
  induction node using Node.childInduction with
  | parent node ih =>
    cases node with
    | selector value cacheKey => exact (performs_elements value cacheKey).map some
    | binary operator left right =>
      refine (ih left (by simp [Node.children])).bindSome ⟨rfl, rfl⟩ fun leftCode => ?_
      refine (ih right (by simp [Node.children])).bindSome ⟨rfl, rfl⟩ fun rightCode => ?_
      exact .pure _
    | unary operator operand =>
      exact (ih operand (by simp [Node.children])).bindSome ⟨rfl, rfl⟩ fun _ => .pure _
    | member object property =>
      exact (ih object (by simp [Node.children])).bindSome ⟨rfl, rfl⟩ fun _ => .pure _
    | _ => exact .pure _

theorem performs_expressions (nodes : List Node) :
    (expressions nodes).Performs (Expression.generateAll nodes) := by
  induction nodes with
  | nil => exact .pure _
  | cons node rest ih =>
    refine (performs_expression node).bindSome ⟨rfl, rfl⟩ fun code => ?_
    exact ih.bindSome ⟨rfl, rfl⟩ fun codes => .pure _

theorem performs_classCommand (method : String) (args : List Node) (target : Option Node) :
    (classCommand method args target).Performs (Statement.classCommand method args target) := by
  fun_cases Statement.classCommand method args target <;> simp only [classCommand, *]
  case case3 value cacheKey => exact (performs_elements value cacheKey).bind fun _ => .pure _
  case case4 target _ => exact (performs_expression target).bindSome ⟨rfl, rfl⟩ fun _ => .pure _
  all_goals exact .pure _

theorem performs_command (name : String) (args : List Node) (target : Option Node) :
    (command name args target).Performs (Statement.command name args target) := by
  fun_cases Statement.command name args target <;> simp only [command]
  case case4 value _ | case6 value _ | case14 value _ =>
    exact (performs_expression value).bindSome ⟨rfl, rfl⟩ fun _ => .pure _
  case case7 => exact (performs_expressions args).bindSome ⟨rfl, rfl⟩ fun _ => .pure _
  case case8 | case9 | case10 => exact performs_classCommand _ args target
  case case11 place value =>
    refine (performs_expression (.variableRef place)).bindSome ⟨rfl, rfl⟩ fun placeCode => ?_
    exact (performs_expression value).bindSome ⟨rfl, rfl⟩ fun valueCode => .pure _
  all_goals exact .pure _

theorem performs_skip (kind : Kind) : (skip kind).Performs (Statement.skip kind) :=
  (Performs.remark _).bind fun _ => .pure none

theorem performs_statements {nodes : List Node}
    (each : ∀ node ∈ nodes, (statement node).Performs (Statement.generate node)) :
    (statements nodes).Performs (Statement.generateAll nodes) := by
  induction nodes with
  | nil => exact .pure []
  | cons node rest ih =>
    obtain ⟨first, others⟩ := List.forall_mem_cons.mp each
    exact first.bind fun code => (ih others).bind fun codes => .pure _

/-- Statements are generated block by block. -/
theorem performs_statement (node : Node) :
    (statement node).Performs (Statement.generate node) := by
  induction node using Node.childInduction with
  | parent node ih =>
    have block (nodes : List Node) (inside : ∀ node' ∈ nodes, node' ∈ node.children) :
        (Text.joinLines <$> statements nodes).Performs
          (Text.joinLines <$> Statement.generateAll nodes) :=
      (performs_statements fun node' member => ih node' (inside node' member)).map _
    cases node with
    | command name args target =>
      refine (performs_command name args target).bind fun code => ?_
      cases code with
      | none => exact (Performs.remark _).bind fun _ => .pure none
      | some code => exact .pure (some code)
    | ifElse condition thenBranch elseBranch =>
      have inThen := block thenBranch (by simp +contextual [Node.children])
      cases elseBranch with
      | none =>
        refine (performs_expression condition).bindSome ⟨rfl, rfl⟩ fun conditionCode => ?_
        exact inThen.bind fun thenCode => .pure _
      | some elseBranch =>
        have inElse := block elseBranch (by simp +contextual [Node.children])
        refine (performs_expression condition).bindSome ⟨rfl, rfl⟩ fun conditionCode => ?_
        exact inThen.bind fun thenCode => inElse.bind fun elseCode => .pure _
    | repeatTimes count body =>
      have inBody := block body (by simp +contextual [Node.children])
      cases count with
      | none => exact inBody.bind fun inner => .pure _
      | some count =>
        refine (performs_expression count).bindSome ⟨rfl, rfl⟩ fun countCode => ?_
        exact inBody.bind fun inner => .pure _
    | forEach itemName collection body =>
      have inBody := block body (by simp +contextual [Node.children])
      refine (performs_expression collection).bindSome ⟨rfl, rfl⟩ fun collectionCode => ?_
      exact inBody.bind fun inner => .pure _
    | whileLoop condition body =>
      have inBody := block body (by simp +contextual [Node.children])
      refine (performs_expression condition).bindSome ⟨rfl, rfl⟩ fun conditionCode => ?_
      exact inBody.bind fun inner => .pure _
    | sequence commands unrolled =>
      exact (block commands fun _ member => member).bind fun code => .pure _
    | _ => exact performs_skip _

theorem performs_body (nodes : List Node) : (body nodes).Performs (Statement.body nodes) :=
  (performs_statements fun node _ => performs_statement node).map Text.joinLines

end Generation

namespace GeneratedHandler

/-- A handler, by the emission of its body. What the body reads is declared and not left behind. -/
theorem generate_eq (handler : Handler) (facts : Facts) (context : Context) :
    generate handler facts context =
      let body := Statement.body handler.body
      let helpers := Ordered.insertAll context.helpers handler.modifiers.helpers
      let imports := Ordered.insertAll (Ordered.insertAll [Names.createContext] helpers)
        facts.helpers
      ({ handlerCode := functionCode context.handlerId handler.modifiers
          (body.run context).cached body.value facts
         bindingCode := Listener.binding context.handlerId handler.event handler.modifiers
         cleanup := Listener.cleanup? context.handlerId handler.event handler.modifiers
         isAsync := facts.hasAsync
         imports },
        { context with helpers, cached := [] },
        body.notes ++
          [.handlerGenerated context.handlerId handler.event facts.hasAsync imports.length]) := by
  have cleared : ((Statement.body handler.body).run context).clearCached = context.clearCached := by
    rw [Emission.run, Context.cacheAll_eq]
    rfl
  rw [generate, Generation.performs_body handler.body { context }]
  dsimp only
  rw [cleared]
  simp only [bind, Context.requireAll_eq, Context.clearCached, importsOf, List.nil_append]

end GeneratedHandler
end Hyperscript
