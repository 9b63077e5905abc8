import Hyperscript.Proofs.Program.Aspects
import Hyperscript.Proofs.Program.Engine

/-! Scripts whose code does the same when every selector is asked for on the spot. What
code does is told of its parts, so it stays the same when nodes give way to nodes whose code
does the same. -/
namespace Hyperscript.Program

namespace Engine

variable (engine : Engine)

def denote (expr : Expr) (env : Env engine.Value) : engine.Effect engine.Value := eval env expr.bare

def effect (statement : Stmt) (env : Env engine.Value) : engine.Effect Unit :=
  exec env statement.bare

/-- The effects of statements one after the other. -/
def inTurn (effects : List (Env engine.Value → engine.Effect Unit)) (env : Env engine.Value) :
    engine.Effect Unit :=
  effects.foldr (fun effect rest => do effect env; rest) (pure ())

def inOrder (denotations : List (Env engine.Value → engine.Effect engine.Value))
    (env : Env engine.Value) : engine.Effect (List engine.Value) :=
  denotations.foldr (fun denotation rest => do return (← denotation env) :: (← rest)) (pure [])

theorem execAll_bareAll (statements : List Stmt) (env : Env engine.Value) :
    execAll env (Stmt.bareAll statements) = engine.inTurn (statements.map engine.effect) env := by
  induction statements with
  | nil => rfl
  | cons statement rest ih =>
    simp only [Stmt.bareAll, execAll, ih]
    rfl

theorem evalAll_bare (exprs : List Expr) (env : Env engine.Value) :
    evalAll env (exprs.map Expr.bare) = engine.inOrder (exprs.map engine.denote) env := by
  induction exprs with
  | nil => rfl
  | cons expr rest ih =>
    simp only [List.map_cons, evalAll, ih]
    rfl

/-- What a handler listens to, how, and what its code does. -/
def outline (handler : Handler) :
    String × Modifiers × List (Env engine.Value → engine.Effect Unit) :=
  (handler.event, handler.modifiers, (Stmt.ofNodes handler.body).map engine.effect)

/-- Alike for every statement around them. -/
structure SameCode (node node' : Node) : Prop where
  view : View.of node = View.of node'
  expr : (Expr.ofNode? node).map engine.denote = (Expr.ofNode? node').map engine.denote
  stmt : (Stmt.ofNode? node).map engine.effect = (Stmt.ofNode? node').map engine.effect
  handler : node.handler?.map engine.outline = node'.handler?.map engine.outline

/-- What the code of a piece does is told by what the code of its parts does. -/
def aspect (engine : Engine) : Aspect where
  OfExpr := Env engine.Value → engine.Effect engine.Value
  OfStmt := Env engine.Value → engine.Effect Unit
  expr := engine.denote
  stmt := engine.effect
  expr_congr related := by
    funext env
    unfold denote at related
    cases related with
    | dot object | subscript object | unary object =>
      simp only [denote, Expr.bare, eval, congrFun object env]
    | concat left right | binary left right =>
      simp only [denote, Expr.bare, eval, congrFun left env, congrFun right env]
  stmt_congr related := by
    funext env
    cases related with
    | throwValue value | setLocal value | setIndex value | wait value | leave value
    | changeClass value | changeClasses value =>
      have inside : ∀ env, eval env _ = eval env _ := congrFun value
      simp only [effect, Stmt.bare, Option.map_some, exec, inside]
    | log values => simp only [effect, Stmt.bare, exec, evalAll_bare, values]
    | forever body | group body => simp only [effect, Stmt.bare, exec, execAll_bareAll, body]
    | counted value body | each value body | whileLoop value body =>
      have inside : ∀ env, eval env _ = eval env _ := congrFun value
      simp only [effect, Stmt.bare, exec, execAll_bareAll, inside, body]
    | branch condition thenBranch elseBranch =>
      have inside : ∀ env, eval env _ = eval env _ := congrFun condition
      cases elseBranch with
      | none => simp only [effect, Stmt.bare, exec, execAll_bareAll, inside, thenBranch]
      | some elseBranch =>
        simp only [effect, Stmt.bare, exec, execAll_bareAll, inside, thenBranch, elseBranch]

variable {engine : Engine}

theorem sameCode_eq : engine.SameCode = engine.aspect.Alike := by
  funext node node'
  exact propext ⟨fun same => ⟨same.view, same.expr, same.stmt, same.handler⟩,
    fun alike => ⟨alike.view, alike.expr, alike.stmt, alike.handler⟩⟩

namespace SameCode

theorem refl (node : Node) : engine.SameCode node node := ⟨rfl, rfl, rfl, rfl⟩

theorem trans {first second third : Node} (before : engine.SameCode first second)
    (after : engine.SameCode second third) : engine.SameCode first third :=
  ⟨before.view.trans after.view, before.expr.trans after.expr, before.stmt.trans after.stmt,
    before.handler.trans after.handler⟩

/-- Nodes with the same slots but for parts that have the same code. -/
theorem of_slotwise {node node' : Node}
    (related : node.Slotwise engine.SameCode (List.Forall₂ engine.SameCode)
      (List.Forall₂ engine.SameCode) node') : engine.SameCode node node' := by
  rw [sameCode_eq] at related ⊢
  exact .of_slotwise related

end SameCode
end Engine
end Hyperscript.Program
