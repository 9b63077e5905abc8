import Hyperscript.Proofs.Program.Syntax
import Hyperscript.Proofs.Program.Threading

/-! The tree of the code of a script. Its text is what the emitter writes, and the
selectors that it reads from variables are those that the emission asks for. -/
namespace Hyperscript.Program

namespace Expr

def ofIdentifier? (name : String) : Option Expr :=
  match name with
  | "me" | "my" | "I" => some (context "me")
  | "it" | "its" | "result" => some (context "it")
  | "event" => some (.variableRef Names.eventParam)
  | "target" => some (.dot (.variableRef Names.eventParam) "target")
  | name => if Text.isIdentifier name then some (.variableRef name) else none

def ofBinary? (operator : String) (left right : Expr) : Option Expr := do
  match ← Operator.ofText? operator with
  | .concat => return .concat left right
  | operator => return .binary (← operator.symbol?) left right

def ofUnary? (operator : String) (operand : Expr) : Option Expr :=
  match operator with
  | "not" | "no" | "!" => some (.unary "!" operand)
  | "-" => some (.unary "-" operand)
  | "+" => some (.unary "+" operand)
  | _ => none

def ofMember (object : Expr) (property : String) : Expr :=
  if Text.isIdentifier property then .dot object property else .subscript object property

/-- The tree of the code of a node, if it has any. -/
def ofNode? : Node → Option Expr
  | .literal value => some (.literal value)
  | .identifier name =>
    if Node.indexNames.contains name then some (.variableRef Names.indexVar) else ofIdentifier? name
  | .variableRef name =>
    if Node.indexNames.contains name then some (.variableRef Names.indexVar)
    else some (localVariable name)
  | .selector value cacheKey => some (.elements value cacheKey)
  | .binary operator left right => do ofBinary? operator (← ofNode? left) (← ofNode? right)
  | .unary operator operand => do ofUnary? operator (← ofNode? operand)
  | .member object property => do return ofMember (← ofNode? object) property
  | .command .. | .ifElse .. | .repeatTimes .. | .forEach .. | .whileLoop .. | .event ..
  | .sequence .. | .unknown => none

theorem render_localVariable (name : String) :
    (localVariable name).render = Expression.localVariable name := by
  simp only [localVariable, context, render, Expression.localVariable]
  rfl

theorem render_ofIdentifier? (name : String) :
    (ofIdentifier? name).map render = Expression.identifier? name := by
  fun_cases Expression.identifier? name with
  | case9 => simp_all [ofIdentifier?, render]
  | case10 => simp_all [ofIdentifier?]
  | _ => rfl

theorem render_ofBinary? (operator : String) (left right : Expr) :
    (ofBinary? operator left right).map render =
      Expression.binary? operator left.render right.render := by
  unfold ofBinary? Expression.binary?
  cases Operator.ofText? operator with
  | none => rfl
  | some operator => cases operator <;> rfl

theorem render_ofUnary? (operator : String) (operand : Expr) :
    (ofUnary? operator operand).map render = Expression.unary? operator operand.render := by
  fun_cases Expression.unary? operator operand.render with
  | case6 => simp_all [ofUnary?]
  | _ => rfl

theorem render_ofMember (object : Expr) (property : String) :
    (ofMember object property).render = Expression.member object.render property := by
  unfold ofMember Expression.member
  split <;> rfl

/-- The emitted text of an expression is that of its tree. -/
theorem value_generate (node : Node) :
    (Expression.generate node).value = (ofNode? node).map render := by
  induction node using Node.childInduction with
  | parent node ih =>
    cases node with
    | identifier name =>
      simp only [Expression.generate, Emission.value_pure, ofNode?]
      split
      · rfl
      · exact (render_ofIdentifier? name).symm
    | variableRef name =>
      simp only [Expression.generate, Emission.value_pure, ofNode?]
      split
      · rfl
      · simp only [Option.map_some, render_localVariable]
    | selector value cacheKey => cases cacheKey <;> rfl
    | binary operator left right =>
      have first := ih left (by simp [Node.children])
      have second := ih right (by simp [Node.children])
      simp only [Expression.generate, Emission.value_bind, first, ofNode?]
      cases ofNode? left with
      | none => rfl
      | some left =>
        simp only [Option.map_some, Emission.value_bind, second]
        cases ofNode? right with
        | none => rfl
        | some right => exact (render_ofBinary? operator left right).symm
    | unary operator operand =>
      have inner := ih operand (by simp [Node.children])
      simp only [Expression.generate, Emission.value_bind, inner, ofNode?]
      cases ofNode? operand with
      | none => rfl
      | some operand => exact (render_ofUnary? operator operand).symm
    | member object property =>
      have inner := ih object (by simp [Node.children])
      simp only [Expression.generate, Emission.value_bind, inner, ofNode?]
      cases ofNode? object with
      | none => rfl
      | some object => exact congrArg some (render_ofMember object property).symm
    | _ => rfl

theorem value_generateAll (nodes : List Node) :
    (Expression.generateAll nodes).value = (nodes.mapM ofNode?).map (·.map render) := by
  induction nodes with
  | nil => rfl
  | cons node rest ih =>
    simp only [Expression.generateAll, Emission.value_bind, value_generate, List.mapM_cons]
    cases ofNode? node with
    | none => rfl
    | some first =>
      simp only [Option.map_some, Emission.value_bind, ih]
      cases rest.mapM ofNode? <;> rfl

/-- If all nodes have code, each has its own. -/
theorem map_ofNode? {nodes : List Node} {exprs : List Expr}
    (codes : nodes.mapM ofNode? = some exprs) : nodes.map ofNode? = exprs.map some := by
  induction nodes generalizing exprs with
  | nil =>
    cases codes
    rfl
  | cons node rest ih =>
    rw [List.mapM_cons] at codes
    obtain ⟨first, found, codes⟩ := Option.bind_eq_some_iff.mp codes
    obtain ⟨others, inRest, codes⟩ := Option.bind_eq_some_iff.mp codes
    cases codes
    simp only [List.map_cons, found, ih inRest]

/-- The names that stand for something of the handler's own. -/
def specialNames : List String := ["me", "my", "I", "it", "its", "result", "event", "target"]

/-- The expressions that have code, each with its code. -/
inductive NodeCode : Node → Expr → Prop where
  | literal {value} : NodeCode (.literal value) (.literal value)
  | index {name} : name ∈ Node.indexNames →
    NodeCode (.identifier name) (.variableRef Names.indexVar)
  | me {name} : name ∈ ["me", "my", "I"] → NodeCode (.identifier name) (context "me")
  | it {name} : name ∈ ["it", "its", "result"] → NodeCode (.identifier name) (context "it")
  | event : NodeCode (.identifier "event") (.variableRef Names.eventParam)
  | target : NodeCode (.identifier "target") (.dot (.variableRef Names.eventParam) "target")
  | plain {name} : name ∉ Node.indexNames → name ∉ specialNames → Text.isIdentifier name = true →
      NodeCode (.identifier name) (.variableRef name)
  | indexVariable {name} : name ∈ Node.indexNames →
      NodeCode (.variableRef name) (.variableRef Names.indexVar)
  | localVariable {name} : name ∉ Node.indexNames →
      NodeCode (.variableRef name) (Expr.localVariable name)
  | selector {value cacheKey} : NodeCode (.selector value cacheKey) (.elements value cacheKey)
  | concat {operator left right leftExpr rightExpr} : Operator.ofText? operator = some .concat →
      ofNode? left = some leftExpr → ofNode? right = some rightExpr →
      NodeCode (.binary operator left right) (.concat leftExpr rightExpr)
  | binary {operator known symbol left right leftExpr rightExpr} :
      Operator.ofText? operator = some known → known.symbol? = some symbol →
      ofNode? left = some leftExpr → ofNode? right = some rightExpr →
      NodeCode (.binary operator left right) (.binary symbol leftExpr rightExpr)
  | unary {operator symbol operand expr} : symbol ∈ ["!", "-", "+"] → ofNode? operand = some expr →
      NodeCode (.unary operator operand) (.unary symbol expr)
  | dot {object property expr} : Text.isIdentifier property = true → ofNode? object = some expr →
      NodeCode (.member object property) (.dot expr property)
  | subscript {object property expr} : Text.isIdentifier property = false →
      ofNode? object = some expr → NodeCode (.member object property) (.subscript expr property)

theorem nodeCode_identifier {name : String} {expr : Expr} (plain : name ∉ Node.indexNames)
    (code : ofIdentifier? name = some expr) : NodeCode (.identifier name) expr := by
  unfold ofIdentifier? at code
  split at code
  case h_7 =>
    cases code
    exact .event
  case h_8 =>
    cases code
    exact .target
  case h_9 me my i it its result event target =>
    split at code
    next valid =>
      cases code
      refine .plain plain ?_ valid
      simp only [specialNames, List.mem_cons, List.not_mem_nil, or_false, not_or]
      exact ⟨me, my, i, it, its, result, event, target⟩
    next => cases code
  case h_1 | h_2 | h_3 =>
    cases code
    exact .me (by decide)
  case h_4 | h_5 | h_6 =>
    cases code
    exact .it (by decide)

theorem nodeCode_ofNode? {node : Node} {expr : Expr} (code : ofNode? node = some expr) :
    NodeCode node expr := by
  cases node with
  | literal value =>
    cases code
    exact .literal
  | identifier name =>
    rw [ofNode?] at code
    split at code
    next index =>
      cases code
      exact .index (List.contains_iff_mem.mp index)
    next other => exact nodeCode_identifier (mt List.contains_iff_mem.mpr other) code
  | variableRef name =>
    rw [ofNode?] at code
    split at code
    next index =>
      cases code
      exact .indexVariable (List.contains_iff_mem.mp index)
    next other =>
      cases code
      exact .localVariable (mt List.contains_iff_mem.mpr other)
  | selector value cacheKey =>
    cases code
    exact .selector
  | binary operator left right =>
    obtain ⟨leftExpr, leftCode, code⟩ := Option.bind_eq_some_iff.mp code
    obtain ⟨rightExpr, rightCode, code⟩ := Option.bind_eq_some_iff.mp code
    obtain ⟨known, found, code⟩ := Option.bind_eq_some_iff.mp code
    split at code
    · cases code
      exact .concat found leftCode rightCode
    · obtain ⟨symbol, spelled, code⟩ := Option.bind_eq_some_iff.mp code
      cases code
      exact .binary found spelled leftCode rightCode
  | unary operator operand =>
    obtain ⟨operandExpr, operandCode, code⟩ := Option.bind_eq_some_iff.mp code
    unfold ofUnary? at code
    split at code
    case h_6 => cases code
    all_goals
      cases code
      exact .unary (by decide) operandCode
  | member object property =>
    obtain ⟨objectExpr, objectCode, code⟩ := Option.bind_eq_some_iff.mp code
    unfold ofMember at code
    split at code
    next valid =>
      cases code
      exact .dot valid objectCode
    next other =>
      cases code
      exact .subscript (Bool.eq_false_iff.mpr other) objectCode
  | _ => cases code

end Expr

namespace Stmt

def ofClassCommand? (method : String) (args : List Node) (target : Option Node) : Option Stmt := do
  let name ← Statement.className? args
  match target with
  | none => return .changeClass (Expr.context "me") method name
  | some (.selector value cacheKey) => return .changeClasses (.elements value cacheKey) method name
  | some target => return .changeClass (← Expr.ofNode? target) method name

def ofCommand? (name : String) (args : List Node) (target : Option Node) : Option Stmt :=
  match name with
  | "halt" => some (.throwSignal "HALT")
  | "exit" => some (.throwSignal "EXIT")
  | "return" =>
    match args with
    | [] => some (.leave none)
    | value :: _ => do return .leave (some (← Expr.ofNode? value))
  | "throw" =>
    match args with
    | [] => none
    | value :: _ => do return .throwValue (← Expr.ofNode? value)
  | "log" => do return .log (← args.mapM Expr.ofNode?)
  | "add" | "remove" | "toggle" => ofClassCommand? name args target
  | "set" =>
    match args with
    | [.variableRef place, value] => do
      let value ← Expr.ofNode? value
      return if Node.indexNames.contains place then .setIndex value else .setLocal place value
    | _ => none
  | "wait" =>
    match args with
    | [] => none
    | delay :: _ => do return .wait (← Expr.ofNode? delay)
  | _ => none

/-- The commands that have code, each with its code. -/
inductive CommandCode : String → List Node → Option Node → Stmt → Prop where
  | halt {args target} : CommandCode "halt" args target (.throwSignal "HALT")
  | exit {args target} : CommandCode "exit" args target (.throwSignal "EXIT")
  | leave {target} : CommandCode "return" [] target (.leave none)
  | leaveWith {value rest target expr} : Expr.ofNode? value = some expr →
      CommandCode "return" (value :: rest) target (.leave (some expr))
  | throwValue {value rest target expr} : Expr.ofNode? value = some expr →
      CommandCode "throw" (value :: rest) target (.throwValue expr)
  | log {args target exprs} : args.mapM Expr.ofNode? = some exprs →
      CommandCode "log" args target (.log exprs)
  | changeOwnClass {method args name} : method ∈ ["add", "remove", "toggle"] →
      CommandCode method args none (.changeClass (Expr.context "me") method name)
  | changeClasses {method args value cacheKey name} : method ∈ ["add", "remove", "toggle"] →
      CommandCode method args (some (.selector value cacheKey))
        (.changeClasses (.elements value cacheKey) method name)
  | changeClass {method args receiver expr name} : method ∈ ["add", "remove", "toggle"] →
      Expr.ofNode? receiver = some expr →
      CommandCode method args (some receiver) (.changeClass expr method name)
  | setIndex {place value target expr} : Node.indexNames.contains place = true →
      Expr.ofNode? value = some expr →
      CommandCode "set" [.variableRef place, value] target (.setIndex expr)
  | setLocal {place value target expr} : Node.indexNames.contains place = false →
      Expr.ofNode? value = some expr →
      CommandCode "set" [.variableRef place, value] target (.setLocal place expr)
  | wait {delay rest target expr} : Expr.ofNode? delay = some expr →
      CommandCode "wait" (delay :: rest) target (.wait expr)

theorem commandCode_ofClassCommand? {method : String} {args : List Node} {target : Option Node}
    {statement : Stmt} (known : method ∈ ["add", "remove", "toggle"])
    (code : ofClassCommand? method args target = some statement) :
    CommandCode method args target statement := by
  obtain ⟨name, _, code⟩ := Option.bind_eq_some_iff.mp code
  split at code
  · cases code
    exact .changeOwnClass known
  · cases code
    exact .changeClasses known
  · obtain ⟨receiver, receiverCode, code⟩ := Option.bind_eq_some_iff.mp code
    cases code
    exact .changeClass known receiverCode

theorem commandCode_ofCommand? {name : String} {args : List Node} {target : Option Node}
    {statement : Stmt} (code : ofCommand? name args target = some statement) :
    CommandCode name args target statement := by
  fun_cases ofCommand? name args target <;> simp only [ofCommand?] at code
  case case1 | case2 | case3 =>
    cases code
    constructor
  case case4 =>
    obtain ⟨expr, operand, code⟩ := Option.bind_eq_some_iff.mp code
    cases code
    exact .leaveWith operand
  case case6 =>
    obtain ⟨expr, operand, code⟩ := Option.bind_eq_some_iff.mp code
    cases code
    exact .throwValue operand
  case case7 =>
    obtain ⟨exprs, operands, code⟩ := Option.bind_eq_some_iff.mp code
    cases code
    exact .log operands
  case case8 | case9 | case10 => exact commandCode_ofClassCommand? (by decide) code
  case case11 place value =>
    obtain ⟨expr, operand, code⟩ := Option.bind_eq_some_iff.mp code
    split at code
    next index =>
      cases code
      exact .setIndex index operand
    next other =>
      cases code
      exact .setLocal (Bool.eq_false_iff.mpr other) operand
  case case14 =>
    obtain ⟨expr, operand, code⟩ := Option.bind_eq_some_iff.mp code
    cases code
    exact .wait operand
  all_goals cases code

mutual

/-- The tree of the code of a statement, if it has any. -/
def ofNode? : Node → Option Stmt
  | .command name args target => ofCommand? name args target
  | .ifElse condition thenBranch none => do
    return .branch (← Expr.ofNode? condition) (ofNodes thenBranch) none
  | .ifElse condition thenBranch (some elseBranch) => do
    return .branch (← Expr.ofNode? condition) (ofNodes thenBranch) (some (ofNodes elseBranch))
  | .repeatTimes none body => some (.forever (ofNodes body))
  | .repeatTimes (some count) body => do return .counted (← Expr.ofNode? count) (ofNodes body)
  | .forEach itemName collection body => do
    return .each itemName (← Expr.ofNode? collection) (ofNodes body)
  | .whileLoop condition body => do return .whileLoop (← Expr.ofNode? condition) (ofNodes body)
  | .sequence commands _ => some (.group (ofNodes commands))
  | .event .. | .literal .. | .binary .. | .unary .. | .selector .. | .identifier ..
  | .variableRef .. | .member .. | .unknown => none

def ofNodes : List Node → List Stmt
  | [] => []
  | node :: nodes => (ofNode? node).toList ++ ofNodes nodes

end

/-- The text of a statement with a head, if the head has one. -/
theorem value_headed {head : Node} {next : Option String → Emission (Option String)}
    {statement : Expr → Stmt} (stop : (next none).value = none)
    (goOn : ∀ expr, (next (some expr.render)).value = some (statement expr).render) :
    (Expression.generate head >>= next).value =
      (do return statement (← Expr.ofNode? head) : Option Stmt).map render := by
  rw [Emission.value_bind, Expr.value_generate]
  cases Expr.ofNode? head with
  | none => exact stop
  | some expr => exact goOn expr

theorem render_ofClassCommand? (method : String) (args : List Node) (target : Option Node) :
    (ofClassCommand? method args target).map render =
      (Statement.classCommand method args target).value := by
  fun_cases Statement.classCommand method args target <;> simp only [ofClassCommand?, *]
  case case3 value cacheKey => cases cacheKey <;> rfl
  case case4 target _ =>
    exact (value_headed rfl fun _ => rfl).symm
  all_goals rfl

theorem render_ofCommand? (name : String) (args : List Node) (target : Option Node) :
    (ofCommand? name args target).map render = (Statement.command name args target).value := by
  fun_cases Statement.command name args target <;> simp only [ofCommand?]
  case case4 | case6 | case14 => exact (value_headed rfl fun _ => rfl).symm
  case case7 =>
    simp only [Emission.value_bind, Expr.value_generateAll]
    cases args.mapM Expr.ofNode? <;> rfl
  case case8 | case9 | case10 => exact render_ofClassCommand? _ args target
  case case11 place value =>
    simp only [Emission.value_bind, Expr.value_generate, Expr.ofNode?]
    split <;> simp only [Option.map_some, Emission.value_bind, Expr.value_generate] <;>
      cases Expr.ofNode? value <;> rfl
  all_goals rfl

theorem renderAll_append (first second : List Stmt) :
    renderAll (first ++ second) = renderAll first ++ renderAll second := by
  induction first with
  | nil => rfl
  | cons statement rest ih =>
    simp only [List.cons_append, renderAll, ih]
    split <;> rfl

theorem value_generateAll {nodes : List Node}
    (each : ∀ node ∈ nodes, (Statement.generate node).value = (ofNode? node).map render) :
    (Statement.generateAll nodes).value = renderAll (ofNodes nodes) := by
  induction nodes with
  | nil => rfl
  | cons node rest ih =>
    have first := each node List.mem_cons_self
    have others := ih fun other member => each other (List.mem_cons_of_mem _ member)
    simp only [Statement.generateAll, Emission.value_bind, Emission.value_pure, first, others,
      ofNodes, renderAll_append]
    cases ofNode? node with
    | none => rfl
    | some statement =>
      simp only [Option.map_some, Option.toList_some, renderAll]
      split <;> rfl

/-- The emitted text of a statement is that of its tree. -/
theorem value_generate (node : Node) :
    (Statement.generate node).value = (ofNode? node).map render := by
  induction node using Node.childInduction with
  | parent node ih =>
    have block (nodes : List Node) (inside : ∀ child ∈ nodes, child ∈ node.children) :=
      value_generateAll fun child member => ih child (inside child member)
    cases node with
    | command name args target =>
      simp only [Statement.generate, Emission.value_bind]
      rw [ofNode?, render_ofCommand?]
      split <;> rfl
    | ifElse condition thenBranch elseBranch =>
      have inThen := block thenBranch (by simp +contextual [Node.children])
      cases elseBranch with
      | none =>
        refine value_headed rfl fun condition => ?_
        simp only [Emission.value_bind, Emission.value_map, inThen]
        rfl
      | some elseBranch =>
        have inElse := block elseBranch (by simp +contextual [Node.children])
        refine value_headed rfl fun condition => ?_
        simp only [Emission.value_bind, Emission.value_map, inThen, inElse]
        rfl
    | repeatTimes count body =>
      have inBody := block body (by simp +contextual [Node.children])
      cases count with
      | none =>
        simp only [Statement.generate, Emission.value_bind, Emission.value_map, inBody, ofNode?]
        rfl
      | some count =>
        refine value_headed rfl fun count => ?_
        simp only [Emission.value_bind, Emission.value_map, inBody]
        rfl
    | forEach itemName collection body =>
      have inBody := block body (by simp +contextual [Node.children])
      refine value_headed rfl fun collection => ?_
      simp only [Emission.value_bind, Emission.value_map, inBody]
      rfl
    | whileLoop condition body =>
      have inBody := block body (by simp +contextual [Node.children])
      refine value_headed rfl fun condition => ?_
      simp only [Emission.value_bind, Emission.value_map, inBody]
      rfl
    | sequence commands unrolled =>
      have inside := block commands fun _ member => member
      simp only [Statement.generate, Emission.value_bind, Emission.value_map, inside, ofNode?]
      rfl
    | _ => rfl

theorem value_body (nodes : List Node) :
    (Statement.body nodes).value = Text.joinLines (renderAll (ofNodes nodes)) := by
  simp only [Statement.body, Emission.value_map, value_generateAll fun node _ => value_generate node]

end Stmt

namespace Function

/-- The tree of the code that is generated for a handler. -/
def ofHandler (handler : Handler) (facts : Facts) (context : Context) : Function where
  handlerId := context.handlerId
  modifiers := handler.modifiers
  declarations := ((Statement.body handler.body).run context).cached
  facts
  body := Stmt.ofNodes handler.body

/-- The emitted text of a handler is that of its tree. -/
theorem render_ofHandler (handler : Handler) (facts : Facts) (context : Context) :
    (GeneratedHandler.generate handler facts context).1.handlerCode =
      (ofHandler handler facts context).render := by
  simp only [GeneratedHandler.generate_eq, ofHandler, render, Stmt.value_body]

end Function
end Hyperscript.Program
