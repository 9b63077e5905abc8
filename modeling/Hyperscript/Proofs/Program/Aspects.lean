import Hyperscript.Proofs.Program.Lowering

/-! What can be told of code part by part. The code of a script is put together from the
code of its parts; only commands look at their arguments too, and then at no more than
names and selectors. So whatever a piece of code shows through its parts alone stays the
same when nodes give way to nodes that show the same. -/
namespace Hyperscript.Program

/-- What a command sees of an argument besides its code. -/
inductive View where
  | variableRef (name : String)
  | selector (text : String)
  | other

def View.of : Node → View
  | .variableRef name => .variableRef name
  | .selector text _ => .selector text
  | _ => .other

theorem View.of_eq_variableRef {node : Node} {name : String}
    (same : View.of node = .variableRef name) : node = .variableRef name := by
  cases node <;> simp_all [View.of]

theorem View.of_eq_selector {node : Node} {text : String} (same : View.of node = .selector text) :
    ∃ cacheKey, node = .selector text cacheKey := by
  cases node <;> simp_all [View.of]

/-- The same operation on related operands. -/
inductive Expr.Slotwise (single : Expr → Expr → Prop) : Expr → Expr → Prop where
  | dot {object object' property} : single object object' →
      Slotwise single (.dot object property) (.dot object' property)
  | subscript {object object' property} : single object object' →
      Slotwise single (.subscript object property) (.subscript object' property)
  | concat {left left' right right'} : single left left' → single right right' →
      Slotwise single (.concat left right) (.concat left' right')
  | binary {symbol left left' right right'} : single left left' → single right right' →
      Slotwise single (.binary symbol left right) (.binary symbol left' right')
  | unary {symbol operand operand'} : single operand operand' →
      Slotwise single (.unary symbol operand) (.unary symbol operand')

/-- The same statement with related parts. -/
inductive Stmt.Slotwise (single : Expr → Expr → Prop) (list : List Expr → List Expr → Prop)
    (block : List Stmt → List Stmt → Prop) : Stmt → Stmt → Prop where
  | throwValue {value value'} : single value value' →
      Slotwise single list block (.throwValue value) (.throwValue value')
  | leave {value value'} : single value value' →
      Slotwise single list block (.leave (some value)) (.leave (some value'))
  | log {values values'} : list values values' →
      Slotwise single list block (.log values) (.log values')
  | changeClass {receiver receiver' method name} : single receiver receiver' →
      Slotwise single list block (.changeClass receiver method name)
        (.changeClass receiver' method name)
  | changeClasses {elements elements' method name} : single elements elements' →
      Slotwise single list block (.changeClasses elements method name)
        (.changeClasses elements' method name)
  | setLocal {name value value'} : single value value' →
      Slotwise single list block (.setLocal name value) (.setLocal name value')
  | setIndex {value value'} : single value value' →
      Slotwise single list block (.setIndex value) (.setIndex value')
  | wait {delay delay'} : single delay delay' →
      Slotwise single list block (.wait delay) (.wait delay')
  | branch {condition condition' thenBranch thenBranch' elseBranch elseBranch'} :
      single condition condition' → block thenBranch thenBranch' →
      Option.Rel block elseBranch elseBranch' →
      Slotwise single list block (.branch condition thenBranch elseBranch)
        (.branch condition' thenBranch' elseBranch')
  | forever {body body'} : block body body' →
      Slotwise single list block (.forever body) (.forever body')
  | counted {count count' body body'} : single count count' → block body body' →
      Slotwise single list block (.counted count body) (.counted count' body')
  | each {itemName collection collection' body body'} : single collection collection' →
      block body body' →
      Slotwise single list block (.each itemName collection body) (.each itemName collection' body')
  | whileLoop {condition condition' body body'} : single condition condition' → block body body' →
      Slotwise single list block (.whileLoop condition body) (.whileLoop condition' body')
  | group {statements statements'} : block statements statements' →
      Slotwise single list block (.group statements) (.group statements')

/-- Something to tell of every expression and of every statement, by what is told of
the parts. -/
structure Aspect where
  OfExpr : Type
  OfStmt : Type
  expr : Expr → OfExpr
  stmt : Stmt → OfStmt
  expr_congr {value value' : Expr} :
    Expr.Slotwise (fun part part' => expr part = expr part') value value' →
      expr value = expr value'
  stmt_congr {statement statement' : Stmt} :
    Stmt.Slotwise (fun part part' => expr part = expr part')
      (fun parts parts' => parts.map expr = parts'.map expr)
      (fun parts parts' => parts.map stmt = parts'.map stmt) statement statement' →
      stmt statement = stmt statement'

/-- What is made of an optional part depends on no more of the part than is told. -/
theorem made_congr {α β γ δ : Type _} {part part' : Option α} {tell : α → β}
    {make make' : α → Option γ} {result : γ → δ} (same : part.map tell = part'.map tell)
    (respects : ∀ value value', tell value = tell value' →
      (make value).map result = (make' value').map result) :
    (part >>= make).map result = (part' >>= make').map result := by
  cases part with
  | none =>
    cases part' with
    | none => rfl
    | some value' => cases same
  | some value =>
    cases part' with
    | none => cases same
    | some value' => exact respects value value' (Option.some.inj same)

/-- Only a selector stands for more than one element. -/
theorem ofClassCommand?_receiver (method : String) (args : List Node) {target : Node}
    (plain : ∀ text, View.of target ≠ .selector text) :
    Stmt.ofClassCommand? method args (some target) =
      (Statement.className? args).bind fun name => do
        return .changeClass (← Expr.ofNode? target) method name := by
  cases target with
  | selector text key => exact absurd rfl (plain text)
  | _ => rfl

namespace Aspect

variable (aspect : Aspect)

/-- What a handler listens to, how, and what is told of its code. -/
def outline (handler : Handler) : String × Modifiers × List aspect.OfStmt :=
  (handler.event, handler.modifiers, (Stmt.ofNodes handler.body).map aspect.stmt)

/-- Alike for every statement around them. -/
structure Alike (node node' : Node) : Prop where
  view : View.of node = View.of node'
  expr : (Expr.ofNode? node).map aspect.expr = (Expr.ofNode? node').map aspect.expr
  stmt : (Stmt.ofNode? node).map aspect.stmt = (Stmt.ofNode? node').map aspect.stmt
  handler : node.handler?.map aspect.outline = node'.handler?.map aspect.outline

variable {aspect}

theorem Alike.refl (node : Node) : aspect.Alike node node := ⟨rfl, rfl, rfl, rfl⟩

theorem Alike.trans {first second third : Node} (before : aspect.Alike first second)
    (after : aspect.Alike second third) : aspect.Alike first third :=
  ⟨before.view.trans after.view, before.expr.trans after.expr, before.stmt.trans after.stmt,
    before.handler.trans after.handler⟩

theorem expr_ofBinary? (operator : String) {left left' right right' : Expr}
    (first : aspect.expr left = aspect.expr left')
    (second : aspect.expr right = aspect.expr right') :
    (Expr.ofBinary? operator left right).map aspect.expr =
      (Expr.ofBinary? operator left' right').map aspect.expr := by
  unfold Expr.ofBinary?
  cases Operator.ofText? operator with
  | none => rfl
  | some operator =>
    cases operator with
    | concat => exact congrArg some (aspect.expr_congr (.concat first second))
    | _ => exact congrArg some (aspect.expr_congr (.binary first second))

theorem expr_ofUnary? (operator : String) {operand operand' : Expr}
    (same : aspect.expr operand = aspect.expr operand') :
    (Expr.ofUnary? operator operand).map aspect.expr =
      (Expr.ofUnary? operator operand').map aspect.expr := by
  unfold Expr.ofUnary?
  split <;> first | exact congrArg some (aspect.expr_congr (.unary same)) | rfl

theorem expr_ofMember (property : String) {object object' : Expr}
    (same : aspect.expr object = aspect.expr object') :
    aspect.expr (Expr.ofMember object property) = aspect.expr (Expr.ofMember object' property) := by
  unfold Expr.ofMember
  split
  · exact aspect.expr_congr (.dot same)
  · exact aspect.expr_congr (.subscript same)

theorem expr_mapM {nodes nodes' : List Node} (related : List.Forall₂ aspect.Alike nodes nodes') :
    (nodes.mapM Expr.ofNode?).map (·.map aspect.expr) =
      (nodes'.mapM Expr.ofNode?).map (·.map aspect.expr) := by
  induction related with
  | nil => rfl
  | @cons node node' rest rest' first _ ih =>
    have split (node : Node) (rest : List Node) :
        ((node :: rest).mapM Expr.ofNode?).map (·.map aspect.expr) = (do
          let head ← (Expr.ofNode? node).map aspect.expr
          let tail ← (rest.mapM Expr.ofNode?).map (·.map aspect.expr)
          return head :: tail) := by
      rw [List.mapM_cons]
      cases Expr.ofNode? node with
      | none => rfl
      | some head => cases rest.mapM Expr.ofNode? <;> rfl
    rw [split, split, first.expr, ih]

theorem stmt_ofNodes {nodes nodes' : List Node}
    (related : List.Forall₂ aspect.Alike nodes nodes') :
    (Stmt.ofNodes nodes).map aspect.stmt = (Stmt.ofNodes nodes').map aspect.stmt := by
  induction related with
  | nil => rfl
  | cons first _ ih =>
    simp only [Stmt.ofNodes, List.map_append, ← Option.toList_map, first.stmt, ih]

theorem className?_congr {args args' : List Node}
    (related : List.Forall₂ aspect.Alike args args') :
    Statement.className? args = Statement.className? args' := by
  cases related with
  | nil => rfl
  | @cons arg arg' _ _ first _ =>
    have view := first.view
    cases arg <;> cases arg' <;> simp_all [View.of, Statement.className?]

/-- A statement that is made of the code of a node. -/
theorem stmt_headed {node node' : Node} (head : aspect.Alike node node') {make make' : Expr → Stmt}
    (respects : ∀ value value', aspect.expr value = aspect.expr value' →
      aspect.stmt (make value) = aspect.stmt (make' value')) :
    (do return make (← Expr.ofNode? node) : Option Stmt).map aspect.stmt =
      (do return make' (← Expr.ofNode? node') : Option Stmt).map aspect.stmt :=
  made_congr head.expr fun value value' same => congrArg some (respects value value' same)

theorem stmt_ofClassCommand? (method : String) {args args' : List Node}
    {target target' : Option Node} (inArgs : List.Forall₂ aspect.Alike args args')
    (inTarget : Option.Rel aspect.Alike target target') :
    (Stmt.ofClassCommand? method args target).map aspect.stmt =
      (Stmt.ofClassCommand? method args' target').map aspect.stmt := by
  have sameName := className?_congr inArgs
  cases inTarget with
  | none => simp only [Stmt.ofClassCommand?, sameName]
  | @some target target' same =>
    by_cases selects : ∃ text, View.of target = .selector text
    · obtain ⟨text, view⟩ := selects
      obtain ⟨key, rfl⟩ := View.of_eq_selector view
      obtain ⟨key', rfl⟩ := View.of_eq_selector (same.view ▸ view)
      have elements := Option.some.inj same.expr
      simp only [Stmt.ofClassCommand?, sameName]
      cases Statement.className? args' with
      | none => rfl
      | some name => exact congrArg some (aspect.stmt_congr (.changeClasses elements))
    · rw [not_exists] at selects
      rw [ofClassCommand?_receiver method args selects,
        ofClassCommand?_receiver method args' (same.view ▸ selects), sameName]
      cases Statement.className? args' with
      | none => rfl
      | some name =>
        exact stmt_headed same fun value value' inside => aspect.stmt_congr (.changeClass inside)

theorem stmt_ofCommand? (name : String) {args args' : List Node} {target target' : Option Node}
    (inArgs : List.Forall₂ aspect.Alike args args')
    (inTarget : Option.Rel aspect.Alike target target') :
    (Stmt.ofCommand? name args target).map aspect.stmt =
      (Stmt.ofCommand? name args' target').map aspect.stmt := by
  unfold Stmt.ofCommand?
  split
  case h_1 | h_2 => rfl
  case h_3 =>
    cases inArgs with
    | nil => rfl
    | cons first _ =>
      exact stmt_headed first fun value value' same => aspect.stmt_congr (.leave same)
  case h_4 =>
    cases inArgs with
    | nil => rfl
    | cons first _ =>
      exact stmt_headed first fun value value' same => aspect.stmt_congr (.throwValue same)
  case h_5 =>
    exact made_congr (expr_mapM inArgs) fun values values' same =>
      congrArg some (aspect.stmt_congr (.log same))
  case h_6 | h_7 | h_8 => exact stmt_ofClassCommand? _ inArgs inTarget
  case h_9 =>
    split
    next place value =>
      obtain _ | ⟨first, _ | ⟨second, ⟨⟩⟩⟩ := inArgs
      cases View.of_eq_variableRef first.view.symm
      refine stmt_headed second fun value value' same => ?_
      split
      · exact aspect.stmt_congr (.setIndex same)
      · exact aspect.stmt_congr (.setLocal same)
    next other =>
      split
      next place value =>
        obtain _ | ⟨first, _ | ⟨second, ⟨⟩⟩⟩ := inArgs
        exact absurd rfl (View.of_eq_variableRef first.view ▸ other place _)
      next => rfl
  case h_10 =>
    cases inArgs with
    | nil => rfl
    | cons first _ =>
      exact stmt_headed first fun value value' same => aspect.stmt_congr (.wait same)
  case h_11 => rfl

/-- Nodes with the same slots but for parts that are alike. -/
theorem Alike.of_slotwise {node node' : Node}
    (related : node.Slotwise aspect.Alike (List.Forall₂ aspect.Alike)
      (List.Forall₂ aspect.Alike) node') : aspect.Alike node node' := by
  cases related with
  | leaf => exact .refl node
  | command args target => exact ⟨rfl, rfl, stmt_ofCommand? _ args target, rfl⟩
  | ifElse condition thenBranch elseBranch =>
    have sameThen := stmt_ofNodes thenBranch
    refine ⟨rfl, rfl, ?_, rfl⟩
    cases elseBranch with
    | none =>
      exact stmt_headed condition fun value value' same =>
        aspect.stmt_congr (.branch same sameThen .none)
    | some elseBranch =>
      have sameElse := stmt_ofNodes elseBranch
      exact stmt_headed condition fun value value' same =>
        aspect.stmt_congr (.branch same sameThen (.some sameElse))
  | repeatTimes count body =>
    have sameBody := stmt_ofNodes body
    refine ⟨rfl, rfl, ?_, rfl⟩
    cases count with
    | none => exact congrArg some (aspect.stmt_congr (.forever sameBody))
    | some count =>
      exact stmt_headed count fun value value' same => aspect.stmt_congr (.counted same sameBody)
  | forEach collection body =>
    have sameBody := stmt_ofNodes body
    exact ⟨rfl, rfl, stmt_headed collection fun value value' same =>
      aspect.stmt_congr (.each same sameBody), rfl⟩
  | whileLoop condition body =>
    have sameBody := stmt_ofNodes body
    exact ⟨rfl, rfl, stmt_headed condition fun value value' same =>
      aspect.stmt_congr (.whileLoop same sameBody), rfl⟩
  | event body =>
    refine ⟨rfl, rfl, rfl, ?_⟩
    simp only [Node.handler?, Option.map_some, outline, stmt_ofNodes body]
  | @binary operator left left' right right' first second =>
    refine ⟨rfl, ?_, rfl, rfl⟩
    exact made_congr first.expr fun _ _ inLeft => made_congr second.expr fun _ _ inRight =>
      expr_ofBinary? operator inLeft inRight
  | @unary operator operand operand' inner =>
    exact ⟨rfl, made_congr inner.expr fun _ _ same => expr_ofUnary? operator same, rfl, rfl⟩
  | @member object object' property inner =>
    refine ⟨rfl, made_congr inner.expr fun _ _ same => ?_, rfl, rfl⟩
    exact congrArg some (expr_ofMember property same)
  | sequence commands =>
    exact ⟨rfl, rfl, congrArg some (aspect.stmt_congr (.group (stmt_ofNodes commands))), rfl⟩

end Aspect
end Hyperscript.Program
