import Hyperscript.Proofs.Program.Engine

/-! Two runs of the same code, one of which reads selectors from variables. A relation
between actions that respects the few ways in which code is put together relates the
code that asks for every selector on the spot to the code that does not. -/
namespace Hyperscript.Program

open Meaning

variable {engine : Engine}

namespace Engine

/-- An action that neither changes classes nor uses selectors. -/
def Quiet {α : Type} (action : engine.Effect α) : Prop :=
  ∀ start completion final, action start completion final →
    final.document = start.document ∧ final.uses = start.uses

theorem quiet_pure {α : Type} (value : α) : Quiet (pure value : engine.Effect α) := by
  rintro start completion final ⟨_, rfl⟩
  exact ⟨rfl, rfl⟩

theorem quiet_read {α : Type} (look : engine.State → α) :
    Quiet (Action.read look : engine.Effect α) := by
  rintro start completion final ⟨_, rfl⟩
  exact ⟨rfl, rfl⟩

theorem quiet_raise {α : Type} (signal : Signal engine.Value) :
    Quiet (Action.raise signal : engine.Effect α) := by
  rintro start completion final ⟨_, rfl⟩
  exact ⟨rfl, rfl⟩

theorem quiet_request {α : Type}
    (ask : Document engine.Element → Action engine.World engine.Value α) : Quiet (request ask) := by
  rintro start completion final ⟨world, rfl, _⟩
  exact ⟨rfl, rfl⟩

theorem quiet_setCounter (value : engine.State → engine.Value) :
    Quiet (Action.modify fun state =>
      { state with counter := value state } : engine.Effect Unit) := by
  rintro start completion final ⟨_, rfl⟩
  exact ⟨rfl, rfl⟩

theorem quiet_lookup (env : Env engine.Value) (name : String) : Quiet (lookup env name) := by
  unfold lookup
  split
  · exact quiet_pure _
  · exact quiet_read _
  · exact quiet_raise _
  · exact quiet_request _

theorem quiet_assign (env : Env engine.Value) (name : String) (value : engine.Value) :
    Quiet (assign env name value) := by
  unfold assign
  split
  · exact quiet_setCounter _
  · exact quiet_raise _
  · exact quiet_raise _
  · exact quiet_request _

/-- The second environment has some more variables, and those hold values. -/
structure Extends (held : List (String × engine.Value)) (env env' : Env engine.Value) : Prop where
  other {name : String} : held.lookup name = none → env'.lookup name = env.lookup name
  held {name : String} {value : engine.Value} : held.lookup name = some value →
    env'.lookup name = some (.constant value)

theorem Extends.cons {held : List (String × engine.Value)} {env env' : Env engine.Value}
    (extend : Extends held env env') {name : String} (free : held.lookup name = none)
    (bound : Bound engine.Value) : Extends held ((name, bound) :: env) ((name, bound) :: env') where
  other {other} free' := by
    simp only [List.lookup_cons]
    split
    · rfl
    · exact extend.other free'
  held {other value} found := by
    have distinct : (other == name) = false := by
      rw [beq_eq_false_iff_ne]
      rintro rfl
      rw [free] at found
      cases found
    simp only [List.lookup_cons, distinct]
    exact extend.held found

/-- A relation between actions that stay in step. -/
structure Respects (related : (α : Type) → engine.Effect α → engine.Effect α → Prop)
    (held : List (String × engine.Value)) (good : String → Option String → Prop)
    (change : String → Prop) : Prop where
  quiet {α : Type} {action : engine.Effect α} : Quiet action → related α action action
  bind {α β : Type} {first first' : engine.Effect α} {next next' : α → engine.Effect β} :
    related α first first' → (∀ value, related β (next value) (next' value)) →
      related β (first >>= next) (first' >>= next')
  loop {γ : Type} {step step' : γ → engine.Effect (Option γ)} :
    (∀ place, related _ (step place) (step' place)) →
      ∀ place, related Unit (.Loop step place) (.Loop step' place)
  restoring {action action' : engine.Effect Unit} : related Unit action action' →
    related Unit (restoringCounter action) (restoringCounter action')
  catching {action action' : engine.Effect Unit} {handle : engine.Value → engine.Effect Unit} :
    related Unit action action' → (∀ error, related Unit (handle error) (handle error)) →
      related Unit (catching action handle) (catching action' handle)
  change {element : engine.Element} {method className : String} : change className →
    related Unit (changeElement element method className) (changeElement element method className)
  elements {env env' : Env engine.Value} {selector : String} {key : Option String} :
    Extends held env env' → good selector key →
      related _ (eval env (.elements selector none)) (eval env' (.elements selector key))

/-- A part of a statement that keeps clear of the held variables. -/
def Fits (held : List (String × engine.Value)) (good : String → Option String → Prop)
    (change : String → Prop) : Stmt.Part → Prop
  | .expr expr =>
    (∀ use ∈ expr.uses, good use.1 use.2) ∧ ∀ name ∈ expr.names, held.lookup name = none
  | .name name => held.lookup name = none
  | .change className => change className

namespace Respects

variable {related : (α : Type) → engine.Effect α → engine.Effect α → Prop}
  {held : List (String × engine.Value)} {good : String → Option String → Prop}
  {change : String → Prop}

section

variable (respects : Respects related held good change)
include respects

theorem lookup {env env' : Env engine.Value} (extend : Extends held env env') {name : String}
    (free : held.lookup name = none) :
    related _ (Engine.lookup env name) (Engine.lookup env' name) := by
  have same : Engine.lookup env' name = Engine.lookup env name := by
    simp only [Engine.lookup, extend.other free]
  rw [same]
  exact respects.quiet (quiet_lookup env name)

theorem eval {env env' : Env engine.Value} (extend : Extends held env env') {expr : Expr}
    (fits : Fits held good change (.expr expr)) :
    related _ (Engine.eval env expr.bare) (Engine.eval env' expr) := by
  induction expr with
  | literal value => exact respects.quiet (quiet_pure _)
  | variableRef name => exact respects.lookup extend (fits.2 name List.mem_cons_self)
  | elements selector key =>
    exact respects.elements extend (fits.1 (selector, key) List.mem_cons_self)
  | dot object property ih | subscript object property ih =>
    exact respects.bind (ih fits) fun _ => respects.quiet (quiet_request _)
  | concat left right first second =>
    simp only [Fits, Expr.uses, Expr.names, List.forall_mem_append] at fits
    exact respects.bind (first ⟨fits.1.1, fits.2.1⟩) fun _ =>
      respects.bind (respects.quiet (quiet_request _)) fun _ =>
      respects.bind (second ⟨fits.1.2, fits.2.2⟩) fun _ =>
      respects.bind (respects.quiet (quiet_request _)) fun _ => respects.quiet (quiet_request _)
  | binary symbol left right first second =>
    simp only [Fits, Expr.uses, Expr.names, List.forall_mem_append] at fits
    refine respects.bind (first ⟨fits.1.1, fits.2.1⟩) fun value => ?_
    split
    · exact respects.quiet (quiet_pure _)
    · refine respects.bind (second ⟨fits.1.2, fits.2.2⟩) fun other => ?_
      unfold combine
      split
      · exact respects.quiet (quiet_pure _)
      · exact respects.quiet (quiet_request _)
  | unary symbol operand ih =>
    exact respects.bind (ih fits) fun _ => respects.quiet (quiet_request _)

theorem evalAll {env env' : Env engine.Value} (extend : Extends held env env') {exprs : List Expr}
    (fits : ∀ expr ∈ exprs, Fits held good change (.expr expr)) :
    related _ (Engine.evalAll env (exprs.map Expr.bare)) (Engine.evalAll env' exprs) := by
  induction exprs with
  | nil => exact respects.quiet (quiet_pure _)
  | cons expr rest ih =>
    exact respects.bind (respects.eval extend (fits expr List.mem_cons_self)) fun _ =>
      respects.bind (ih fun other member => fits other (List.mem_cons_of_mem _ member)) fun _ =>
      respects.quiet (quiet_pure _)

theorem changeElements {method className : String} (allowed : change className)
    (elements : List engine.Element) :
    related _ (Engine.changeElements method className elements)
      (Engine.changeElements method className elements) := by
  induction elements with
  | nil => exact respects.quiet (quiet_pure _)
  | cons element rest ih => exact respects.bind (respects.change allowed) fun _ => ih

theorem changeClass {method className : String} (allowed : change className)
    (receiver : engine.Value) :
    related _ (Engine.changeClass receiver method className)
      (Engine.changeClass receiver method className) := by
  unfold Engine.changeClass
  split
  · exact respects.change allowed
  · exact respects.quiet (quiet_request _)

theorem changeClasses {method className : String} (allowed : change className)
    (elements : engine.Value) :
    related _ (Engine.changeClasses elements method className)
      (Engine.changeClasses elements method className) := by
  unfold Engine.changeClasses
  split
  · exact respects.changeElements allowed _
  · exact respects.quiet (quiet_request _)

theorem setLocal {env env' : Env engine.Value} (extend : Extends held env env')
    (free : held.lookup Names.contextVar = none) (name : String)
    {value value' : engine.Effect engine.Value} (same : related _ value value') :
    related _ (Engine.setLocal env name value) (Engine.setLocal env' name value') := by
  have fits : Fits held good change (.expr (Expr.context "locals")) := by
    refine ⟨by simp [Expr.context, Expr.uses], ?_⟩
    simpa [Expr.context, Expr.names] using free
  exact respects.bind (respects.eval extend fits) fun _ =>
    respects.bind same fun _ => respects.quiet (quiet_request _)

theorem forever {body body' : engine.Effect Unit} (same : related _ body body') :
    related _ (Engine.forever body) (Engine.forever body') :=
  respects.loop (fun _ => respects.bind same fun _ => respects.quiet (quiet_pure _)) ()

theorem looping {condition condition' : engine.Effect engine.Value} {body body' : engine.Effect Unit}
    (first : related _ condition condition') (second : related _ body body') :
    related _ (Engine.looping condition body) (Engine.looping condition' body') := by
  refine respects.loop (fun _ => respects.bind first fun value => ?_) ()
  split
  · exact respects.bind second fun _ => respects.quiet (quiet_pure _)
  · exact respects.quiet (quiet_pure _)

theorem counting {count count' : engine.Effect engine.Value} {body body' : engine.Effect Unit}
    (first : related _ count count') (second : related _ body body') :
    related _ (Engine.counting count body) (Engine.counting count' body') := by
  refine respects.restoring <| respects.bind (respects.quiet (quiet_setCounter _)) fun _ =>
    respects.loop (fun _ => respects.bind (respects.quiet (quiet_read _)) fun _ =>
      respects.bind first fun _ =>
        respects.bind (respects.quiet (quiet_request _)) fun value => ?_) ()
  split
  · exact respects.bind second fun _ =>
      respects.bind (respects.quiet (quiet_read _)) fun _ =>
      respects.bind (respects.quiet (quiet_request _)) fun _ =>
      respects.bind (respects.quiet (quiet_setCounter _)) fun _ => respects.quiet (quiet_pure _)
  · exact respects.quiet (quiet_pure _)

theorem iterating (collection : engine.Value) {body body' : engine.Value → engine.Effect Unit}
    (same : ∀ item, related _ (body item) (body' item)) :
    related _ (Engine.iterating collection body) (Engine.iterating collection body') := by
  refine respects.bind (respects.quiet (quiet_request _)) <|
    respects.loop fun _ => respects.bind (respects.quiet (quiet_request _)) fun next => ?_
  split
  · exact respects.bind (same _) fun _ => respects.quiet (quiet_pure _)
  · exact respects.quiet (quiet_pure _)

theorem storeItem {env env' : Env engine.Value} (extend : Extends held env env')
    (free : held.lookup Names.contextVar = none) (itemName : String) (item : engine.Value) :
    related _ (Engine.storeItem env itemName item) (Engine.storeItem env' itemName item) := by
  unfold Engine.storeItem
  split
  · exact respects.quiet (quiet_pure _)
  · exact respects.setLocal extend free itemName (respects.quiet (quiet_pure _))

theorem assignIndex {env env' : Env engine.Value} (extend : Extends held env env')
    (free : held.lookup Names.indexVar = none) (value : engine.Value) :
    related _ (assign env Names.indexVar value) (assign env' Names.indexVar value) := by
  have same : assign env' Names.indexVar value = assign env Names.indexVar value := by
    simp only [assign, extend.other free]
  rw [same]
  exact respects.quiet (quiet_assign env _ value)

mutual

/-- Code that asks for every selector on the spot is related to the code that has
variables for some of them. -/
theorem exec {env env' : Env engine.Value} (extend : Extends held env env') :
    ∀ {statement : Stmt}, (∀ part ∈ statement.parts, Fits held good change part) →
      related _ (Engine.exec env statement.bare) (Engine.exec env' statement)
  | .throwSignal _, _ => respects.quiet (quiet_raise _)
  | .throwValue value, fits =>
    respects.bind (respects.eval extend (fits _ List.mem_cons_self)) fun _ =>
      respects.quiet (quiet_raise _)
  | .leave none, _ => respects.quiet (quiet_raise _)
  | .leave (some value), fits =>
    respects.bind (respects.eval extend (fits _ List.mem_cons_self)) fun _ =>
      respects.quiet (quiet_raise _)
  | .log values, fits =>
    have inValues := fun value member => fits _ (List.mem_map_of_mem member)
    respects.bind (respects.evalAll extend inValues) fun _ => respects.quiet (quiet_request _)
  | .changeClass receiver method className, fits => by
    simp only [Stmt.parts, List.forall_mem_cons] at fits
    exact respects.bind (respects.eval extend fits.1) fun _ => respects.changeClass fits.2.1 _
  | .changeClasses elements method className, fits => by
    simp only [Stmt.parts, List.forall_mem_cons] at fits
    exact respects.bind (respects.eval extend fits.1) fun _ => respects.changeClasses fits.2.1 _
  | .setLocal name value, fits => by
    simp only [Stmt.parts, List.forall_mem_cons] at fits
    exact respects.setLocal extend fits.1 name (respects.eval extend fits.2.1)
  | .setIndex value, fits => by
    simp only [Stmt.parts, List.forall_mem_cons] at fits
    exact respects.bind (respects.eval extend fits.2.1) fun _ => respects.assignIndex extend fits.1 _
  | .wait delay, fits =>
    respects.bind (respects.eval extend (fits _ List.mem_cons_self)) fun _ =>
      respects.quiet (quiet_request _)
  | .branch condition thenBranch none, fits => by
    simp only [Stmt.parts, List.forall_mem_cons] at fits
    refine respects.bind (respects.eval extend fits.1) fun value => ?_
    split
    · exact execAll extend fits.2
    · exact respects.quiet (quiet_pure _)
  | .branch condition thenBranch (some elseBranch), fits => by
    simp only [Stmt.parts, List.forall_mem_cons, List.forall_mem_append] at fits
    refine respects.bind (respects.eval extend fits.1) fun value => ?_
    split
    · exact execAll extend fits.2.1
    · exact execAll extend fits.2.2
  | .forever body, fits => respects.forever (execAll extend fits)
  | .counted count body, fits => by
    simp only [Stmt.parts, List.forall_mem_cons] at fits
    have inside := extend.cons fits.1 .counter
    exact respects.counting (respects.eval inside fits.2.1) (execAll inside fits.2.2)
  | .each itemName collection body, fits => by
    simp only [Stmt.parts, List.forall_mem_cons] at fits
    refine respects.bind (respects.eval (extend.cons fits.2.1 .unset) fits.2.2.1) fun _ =>
      respects.iterating _ fun item => ?_
    have inside := extend.cons fits.2.1 (.constant item)
    exact respects.bind (respects.storeItem inside fits.1 itemName item) fun _ =>
      execAll inside fits.2.2.2
  | .whileLoop condition body, fits => by
    simp only [Stmt.parts, List.forall_mem_cons] at fits
    exact respects.looping (respects.eval extend fits.1) (execAll extend fits.2)
  | .group statements, fits => execAll extend fits

theorem execAll {env env' : Env engine.Value} (extend : Extends held env env') :
    ∀ {statements : List Stmt}, (∀ part ∈ Stmt.partsAll statements, Fits held good change part) →
      related _ (Engine.execAll env (Stmt.bareAll statements)) (Engine.execAll env' statements)
  | [], _ => respects.quiet (quiet_pure _)
  | statement :: rest, fits => by
    simp only [Stmt.partsAll, List.forall_mem_append] at fits
    exact respects.bind (exec extend fits.1) fun _ => execAll extend fits.2

end

theorem calling (isAsked : Bool) (event : engine.Value) (method : String) :
    related _ (Engine.calling isAsked event method) (Engine.calling isAsked event method) := by
  unfold Engine.calling
  split
  · exact respects.quiet (quiet_request _)
  · exact respects.quiet (quiet_pure _)

theorem perform {env env' : Env engine.Value} (extend : Extends held env env') {function : Function}
    (fits : ∀ part ∈ Stmt.partsAll function.body, Fits held good change part) (event : engine.Value) :
    related _ (Engine.perform function.bare event env) (Engine.perform function event env') :=
  respects.bind (respects.calling ..) fun _ => respects.bind (respects.calling ..) fun _ =>
    respects.execAll extend fits

theorem guarded {env env' : Env engine.Value} (extend : Extends held env env') {function : Function}
    (fits : ∀ part ∈ Stmt.partsAll function.body, Fits held good change part) (event : engine.Value) :
    related _ (Engine.guarded function.bare event env) (Engine.guarded function event env') := by
  have performs := respects.perform extend fits event
  have handles (error : engine.Value) :
      related _ (handle event error) (handle event error) := by
    unfold handle
    split
    · exact respects.bind (respects.quiet (quiet_request _)) fun _ => respects.quiet (quiet_raise _)
    · split <;> exact respects.quiet (quiet_raise _)
  have sameFacts : function.bare.facts = function.facts := rfl
  unfold Engine.guarded
  rw [sameFacts]
  cases function.facts.canThrow with
  | true => exact respects.catching performs handles
  | false => exact performs

end

end Respects
end Engine
end Hyperscript.Program
