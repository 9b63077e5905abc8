import Hyperscript.Code.Handler

/-! Generated code as trees. The emitter writes text; the tree of the same text says
which expressions and statements it is made of, and everything about running it is
said of the tree. Rendering the tree gives the emitted text, character by character. -/
namespace Hyperscript.Program

/-- An expression of generated code. The elements of a selector are asked for on the
spot, or read from the variable with the given key. -/
inductive Expr where
  | literal (value : Literal)
  | variableRef (name : String)
  | elements (selector : String) (key : Option String)
  | dot (object : Expr) (property : String)
  | subscript (object : Expr) (property : String)
  | concat (left right : Expr)
  | binary (symbol : String) (left right : Expr)
  | unary (symbol : String) (operand : Expr)

namespace Expr

def render : Expr → String
  | .literal value => Expression.literal value
  | .variableRef name => name
  | .elements selector none => Expression.query selector
  | .elements _ (some key) => key
  | .dot object property => object.render ++ "." ++ property
  | .subscript object property => object.render ++ "[" ++ Text.quoted property ++ "]"
  | .concat left right => "(String(" ++ left.render ++ ") + String(" ++ right.render ++ "))"
  | .binary symbol left right => "(" ++ left.render ++ " " ++ symbol ++ " " ++ right.render ++ ")"
  | .unary symbol operand => "(" ++ symbol ++ operand.render ++ ")"

/-- A member of the handler's context. -/
def context (property : String) : Expr := .dot (.variableRef Names.contextVar) property

def localVariable (name : String) : Expr :=
  .subscript (context "locals") (Text.withoutColons name)

/-- The selectors that are used, each with the variable that stands for it. -/
def uses : Expr → List (String × Option String)
  | .literal _ | .variableRef _ => []
  | .elements selector key => [(selector, key)]
  | .dot operand _ | .subscript operand _ | .unary _ operand => operand.uses
  | .concat left right | .binary _ left right => left.uses ++ right.uses

/-- The variables that are spelled out; those of selectors are not. -/
def names : Expr → List String
  | .literal _ | .elements .. => []
  | .variableRef name => [name]
  | .dot operand _ | .subscript operand _ | .unary _ operand => operand.names
  | .concat left right | .binary _ left right => left.names ++ right.names

/-- The same code with every selector asked for on the spot. -/
def bare : Expr → Expr
  | .literal value => .literal value
  | .variableRef name => .variableRef name
  | .elements selector _ => .elements selector none
  | .dot object property => .dot object.bare property
  | .subscript object property => .subscript object.bare property
  | .concat left right => .concat left.bare right.bare
  | .binary symbol left right => .binary symbol left.bare right.bare
  | .unary symbol operand => .unary symbol operand.bare

/-- Code that asks for every selector on the spot already. -/
theorem bare_eq_self {expr : Expr} (keyless : ∀ use ∈ expr.uses, use.2 = none) :
    expr.bare = expr := by
  induction expr with
  | literal | variableRef => rfl
  | elements selector key =>
    have none : key = none := keyless (selector, key) List.mem_cons_self
    rw [none, bare]
  | dot object property ih | subscript object property ih => simp only [bare, ih keyless]
  | unary symbol operand ih => simp only [bare, ih keyless]
  | concat left right first second =>
    simp only [uses, List.mem_append] at keyless
    simp only [bare, first fun use member => keyless use (.inl member),
      second fun use member => keyless use (.inr member)]
  | binary symbol left right first second =>
    simp only [uses, List.mem_append] at keyless
    simp only [bare, first fun use member => keyless use (.inl member),
      second fun use member => keyless use (.inr member)]

end Expr

/-- A statement of generated code. A group is no statement of its own: its members are
written one after the other. -/
inductive Stmt where
  | throwSignal (signal : String)
  | throwValue (value : Expr)
  | leave (value : Option Expr)
  | log (values : List Expr)
  | changeClass (receiver : Expr) (method className : String)
  | changeClasses (elements : Expr) (method className : String)
  | setLocal (name : String) (value : Expr)
  | setIndex (value : Expr)
  | wait (delay : Expr)
  | branch (condition : Expr) (thenBranch : List Stmt) (elseBranch : Option (List Stmt))
  | forever (body : List Stmt)
  | counted (count : Expr) (body : List Stmt)
  | each (itemName : String) (collection : Expr) (body : List Stmt)
  | whileLoop (condition : Expr) (body : List Stmt)
  | group (statements : List Stmt)

namespace Stmt

/-- The call that changes the classes of one element. -/
def classCall (method className : String) : String :=
  "classList." ++ method ++ "(" ++ Text.quoted className ++ ")"

mutual

def render : Stmt → String
  | .throwSignal signal => "throw " ++ Names.member signal ++ ";"
  | .throwValue value => "throw " ++ value.render ++ ";"
  | .leave none => "return;"
  | .leave (some value) => "return " ++ value.render ++ ";"
  | .log values => "console.log(" ++ Text.join ", " (values.map Expr.render) ++ ");"
  | .changeClass receiver method className =>
    receiver.render ++ "." ++ classCall method className ++ ";"
  | .changeClasses elements method className =>
    elements.render ++ ".forEach((el) => el." ++ classCall method className ++ ");"
  | .setLocal name value => (Expr.localVariable name).render ++ " = " ++ value.render ++ ";"
  | .setIndex value => Names.indexVar ++ " = " ++ value.render ++ ";"
  | .wait delay =>
    "await new Promise((resolve) => setTimeout(resolve, " ++ delay.render ++ "));"
  | .branch condition thenBranch none =>
    Statement.conditional condition.render (Text.joinLines (renderAll thenBranch)) none
  | .branch condition thenBranch (some elseBranch) =>
    Statement.conditional condition.render (Text.joinLines (renderAll thenBranch))
      (some (Text.joinLines (renderAll elseBranch)))
  | .forever body => Statement.block Statement.foreverHeader (Text.joinLines (renderAll body))
  | .counted count body =>
    Statement.block (Statement.countedHeader count.render) (Text.joinLines (renderAll body))
  | .each itemName collection body =>
    Statement.block (Statement.forEachHeader itemName collection.render)
      (Text.joinLines (renderAll body))
  | .whileLoop condition body =>
    Statement.block (Statement.whileHeader condition.render) (Text.joinLines (renderAll body))
  | .group statements => Text.joinLines (renderAll statements)

/-- The texts of those statements that have one. -/
def renderAll : List Stmt → List String
  | [] => []
  | statement :: rest =>
    if statement.render = "" then renderAll rest else statement.render :: renderAll rest

end

/-- The variable of an iteration. -/
def itemVariable (itemName : String) : String :=
  if Text.isIdentifier (Text.withoutColons itemName) then Text.withoutColons itemName else "_item"

/-- What a statement is made of: expressions, the variables that it binds or sets
itself, and the classes that it changes. -/
inductive Part where
  | expr (expr : Expr)
  | name (name : String)
  | change (className : String)

namespace Part

def uses : Part → List (String × Option String)
  | .expr value => value.uses
  | .name _ | .change _ => []

def names : Part → List String
  | .expr value => value.names
  | .name variableName => [variableName]
  | .change _ => []

end Part

mutual

/-- The parts at all depths. -/
def parts : Stmt → List Part
  | .throwSignal _ | .leave none => []
  | .throwValue value | .leave (some value) | .wait value => [.expr value]
  | .log values => values.map .expr
  | .changeClass elements _ className | .changeClasses elements _ className =>
    [.expr elements, .change className]
  | .setLocal _ value => [.name Names.contextVar, .expr value]
  | .setIndex value => [.name Names.indexVar, .expr value]
  | .branch condition thenBranch none => .expr condition :: partsAll thenBranch
  | .branch condition thenBranch (some elseBranch) =>
    .expr condition :: (partsAll thenBranch ++ partsAll elseBranch)
  | .forever body | .group body => partsAll body
  | .counted count body => .name Names.indexVar :: .expr count :: partsAll body
  | .each itemName collection body =>
    .name Names.contextVar :: .name (itemVariable itemName) :: .expr collection :: partsAll body
  | .whileLoop condition body => .expr condition :: partsAll body

def partsAll : List Stmt → List Part
  | [] => []
  | statement :: rest => parts statement ++ partsAll rest

end

theorem partsAll_append (first second : List Stmt) :
    partsAll (first ++ second) = partsAll first ++ partsAll second := by
  induction first with
  | nil => rfl
  | cons statement rest ih => simp only [List.cons_append, partsAll, ih, List.append_assoc]

def uses (statement : Stmt) : List (String × Option String) := statement.parts.flatMap Part.uses

def usesAll (statements : List Stmt) : List (String × Option String) :=
  (partsAll statements).flatMap Part.uses

mutual

def bare : Stmt → Stmt
  | .throwSignal signal => .throwSignal signal
  | .throwValue value => .throwValue value.bare
  | .leave value => .leave (value.map Expr.bare)
  | .log values => .log (values.map Expr.bare)
  | .changeClass receiver method className => .changeClass receiver.bare method className
  | .changeClasses elements method className => .changeClasses elements.bare method className
  | .setLocal name value => .setLocal name value.bare
  | .setIndex value => .setIndex value.bare
  | .wait delay => .wait delay.bare
  | .branch condition thenBranch none => .branch condition.bare (bareAll thenBranch) none
  | .branch condition thenBranch (some elseBranch) =>
    .branch condition.bare (bareAll thenBranch) (some (bareAll elseBranch))
  | .forever body => .forever (bareAll body)
  | .counted count body => .counted count.bare (bareAll body)
  | .each itemName collection body => .each itemName collection.bare (bareAll body)
  | .whileLoop condition body => .whileLoop condition.bare (bareAll body)
  | .group statements => .group (bareAll statements)

def bareAll : List Stmt → List Stmt
  | [] => []
  | statement :: rest => bare statement :: bareAll rest

end

mutual

theorem bare_eq_self : ∀ {statement : Stmt}, (∀ use ∈ statement.uses, use.2 = none) →
    statement.bare = statement
  | .throwSignal _, _ | .leave none, _ => rfl
  | .throwValue value, keyless | .leave (some value), keyless | .wait value, keyless => by
    simp only [uses, parts, List.flatMap_cons, List.flatMap_nil, List.append_nil] at keyless
    simp only [bare, Option.map_some, Expr.bare_eq_self keyless]
  | .setLocal _ value, keyless | .setIndex value, keyless => by
    simp only [uses, parts, List.flatMap_cons, List.flatMap_nil, List.append_nil] at keyless
    simp only [bare, Expr.bare_eq_self keyless]
  | .changeClass value _ _, keyless | .changeClasses value _ _, keyless => by
    simp only [uses, parts, List.flatMap_cons, List.flatMap_nil, Part.uses,
      List.append_nil] at keyless
    simp only [bare, Expr.bare_eq_self keyless]
  | .log values, keyless => by
    have inside : ∀ value ∈ values, value.bare = value := fun value member =>
      Expr.bare_eq_self fun use used => keyless use <|
        List.mem_flatMap.mpr ⟨.expr value, List.mem_map_of_mem member, used⟩
    simp only [bare, List.map_congr_left inside, List.map_id']
  | .branch condition thenBranch none, keyless => by
    simp only [uses, parts, List.flatMap_cons, Part.uses, List.forall_mem_append] at keyless
    simp only [bare, Expr.bare_eq_self keyless.1, bareAll_eq_self keyless.2]
  | .branch condition thenBranch (some elseBranch), keyless => by
    simp only [uses, parts, List.flatMap_cons, List.flatMap_append, Part.uses,
      List.forall_mem_append] at keyless
    simp only [bare, Expr.bare_eq_self keyless.1, bareAll_eq_self keyless.2.1,
      bareAll_eq_self keyless.2.2]
  | .forever body, keyless | .group body, keyless => by
    have inside : ∀ use ∈ usesAll body, use.2 = none := by
      simpa only [uses, usesAll, parts] using keyless
    simp only [bare, bareAll_eq_self inside]
  | .whileLoop condition body, keyless => by
    simp only [uses, parts, List.flatMap_cons, Part.uses, List.forall_mem_append] at keyless
    simp only [bare, Expr.bare_eq_self keyless.1, bareAll_eq_self keyless.2]
  | .counted condition body, keyless => by
    simp only [uses, parts, List.flatMap_cons, Part.uses, List.forall_mem_append] at keyless
    simp only [bare, Expr.bare_eq_self keyless.2.1, bareAll_eq_self keyless.2.2]
  | .each _ condition body, keyless => by
    simp only [uses, parts, List.flatMap_cons, Part.uses, List.forall_mem_append] at keyless
    simp only [bare, Expr.bare_eq_self keyless.2.2.1, bareAll_eq_self keyless.2.2.2]

theorem bareAll_eq_self : ∀ {statements : List Stmt}, (∀ use ∈ usesAll statements, use.2 = none) →
    bareAll statements = statements
  | [], _ => rfl
  | statement :: rest, keyless => by
    simp only [usesAll, partsAll, List.flatMap_append, List.forall_mem_append] at keyless
    simp only [bareAll, bare_eq_self keyless.1, bareAll_eq_self keyless.2]

end

end Stmt

/-- The function of a handler. -/
structure Function where
  handlerId : String
  modifiers : Modifiers
  /-- The variables set at the start, each to the elements of a selector. -/
  declarations : List (String × String)
  facts : Facts
  body : List Stmt

namespace Function

def render (function : Function) : String :=
  GeneratedHandler.functionCode function.handlerId function.modifiers function.declarations
    (Text.joinLines (Stmt.renderAll function.body)) function.facts

/-- The function that asks for every selector on the spot. -/
def bare (function : Function) : Function :=
  { function with declarations := [], body := Stmt.bareAll function.body }

end Function
end Hyperscript.Program
