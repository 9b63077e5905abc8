import Hyperscript.Proofs.Program.Scopes

/-! The loop index. A script reads the index of a repetition by its name; the code reads a
variable that the heads of counted repetitions declare, all under the same name. Every
mention of the variable in the code comes from a node of the script, and what is around
the node is what is around the mention. From that follows to which head it refers. -/
namespace Hyperscript

namespace Node

/-- The children that are evaluated rather than run. -/
def heads : Node → List Node
  | .command _ args target => args ++ target.toList
  | .ifElse condition _ _ | .whileLoop condition _ => [condition]
  | .repeatTimes count _ => count.toList
  | .forEach _ collection _ => [collection]
  | .binary _ left right => [left, right]
  | .unary _ operand => [operand]
  | .member object _ => [object]
  | .event .. | .sequence .. | .literal _ | .selector .. | .identifier _ | .variableRef _
  | .unknown => []

/-- The children that are run. -/
def bodies : Node → List Node
  | .ifElse _ thenBranch elseBranch => thenBranch ++ elseBranch.getD []
  | .repeatTimes _ body | .forEach _ _ body | .whileLoop _ body | .event _ _ body => body
  | .sequence commands _ => commands
  | .command .. | .binary .. | .unary .. | .member .. | .literal _ | .selector .. | .identifier _
  | .variableRef _ | .unknown => []

/-- The code of the node declares the index variable, for all of its parts: the node is a
counted repetition, or an iteration whose variable is spelled like the index. -/
def declaresIndex : Node → Bool
  | .repeatTimes count _ => count.isSome
  | .forEach itemName .. => Program.Stmt.itemVariable itemName == Names.indexVar
  | _ => false

end Node

namespace Program

/-- A node around a place in a script, on one side or the other. -/
inductive Enclosure where
  | head (parent : Node)
  | body (parent : Node)

namespace Enclosure

def parent : Enclosure → Node
  | .head parent | .body parent => parent

end Enclosure

/-- There is code for the node, as a statement or as an expression. -/
def HasCode (node : Node) : Prop := (Stmt.ofNode? node).isSome ∨ (Expr.ofNode? node).isSome

/-- The node is at that place of a script: its enclosures, from the inside out, lead from
it to one of the roots. What is around it has code. -/
inductive Placed (roots : List Node) : Node → List Enclosure → Prop where
  | root {node} : node ∈ roots → Placed roots node []
  | head {parent around node} : Placed roots parent around → HasCode parent →
      node ∈ parent.heads → Placed roots node (.head parent :: around)
  | body {parent around node} : Placed roots parent around → HasCode parent →
      node ∈ parent.bodies → Placed roots node (.body parent :: around)

/-- The statements of the code around a place. -/
def scopeOf (around : List Enclosure) : List Stmt := around.filterMap (Stmt.ofNode? ·.parent)

/-- A node whose code is the index variable, with what is around it. -/
structure Mention where
  node : Node
  around : List Enclosure

def Mention.site (mention : Mention) : Site :=
  { name := Names.indexVar, scope := scopeOf mention.around }

/-- The index by one of its two names, or by the name that the code has for it. -/
def spellsIndex : Node → Bool
  | .identifier name => Node.indexNames.contains name || name == Names.indexVar
  | .variableRef name => Node.indexNames.contains name
  | _ => false

/-- The mentions in an expression that has code. -/
def operandMentions (around : List Enclosure) : Node → List Mention
  | .binary operator left right =>
    let inside := .head (.binary operator left right) :: around
    operandMentions inside left ++ operandMentions inside right
  | .unary operator operand => operandMentions (.head (.unary operator operand) :: around) operand
  | .member object property => operandMentions (.head (.member object property) :: around) object
  | node => if spellsIndex node then [{ node, around }] else []

/-- The operands whose code is part of the code of a command. -/
def commandOperands (name : String) (args : List Node) (target : Option Node) : List Node :=
  match name with
  | "return" | "throw" | "wait" => args.take 1
  | "log" | "set" => args
  | "add" | "remove" | "toggle" => target.toList
  | _ => []

mutual

/-- The mentions in a statement, in the order of its code; none where it has no code. -/
def mentions (around : List Enclosure) : Node → List Mention
  | .command name args target =>
    if (Stmt.ofCommand? name args target).isSome then
      (commandOperands name args target).flatMap
        (operandMentions (.head (.command name args target) :: around))
    else []
  | .ifElse condition thenBranch none =>
    if (Expr.ofNode? condition).isSome then
      operandMentions (.head (.ifElse condition thenBranch none) :: around) condition ++
        mentionsAll (.body (.ifElse condition thenBranch none) :: around) thenBranch
    else []
  | .ifElse condition thenBranch (some elseBranch) =>
    if (Expr.ofNode? condition).isSome then
      let inside := .body (.ifElse condition thenBranch (some elseBranch)) :: around
      operandMentions (.head (.ifElse condition thenBranch (some elseBranch)) :: around)
          condition ++
        mentionsAll inside thenBranch ++ mentionsAll inside elseBranch
    else []
  | .repeatTimes none body => mentionsAll (.body (.repeatTimes none body) :: around) body
  | .repeatTimes (some count) body =>
    if (Expr.ofNode? count).isSome then
      operandMentions (.head (.repeatTimes (some count) body) :: around) count ++
        mentionsAll (.body (.repeatTimes (some count) body) :: around) body
    else []
  | .forEach itemName collection body =>
    if (Expr.ofNode? collection).isSome then
      operandMentions (.head (.forEach itemName collection body) :: around) collection ++
        mentionsAll (.body (.forEach itemName collection body) :: around) body
    else []
  | .whileLoop condition body =>
    if (Expr.ofNode? condition).isSome then
      operandMentions (.head (.whileLoop condition body) :: around) condition ++
        mentionsAll (.body (.whileLoop condition body) :: around) body
    else []
  | .sequence commands unrolled =>
    mentionsAll (.body (.sequence commands unrolled) :: around) commands
  | .event .. | .literal _ | .binary .. | .unary .. | .selector .. | .identifier _
  | .variableRef _ | .member .. | .unknown => []

def mentionsAll (around : List Enclosure) : List Node → List Mention
  | [] => []
  | node :: nodes => mentions around node ++ mentionsAll around nodes

end

def Site.isIndex (site : Site) : Bool := site.name == Names.indexVar

theorem Expr.filter_sites (scope : List Stmt) (expr : Expr) :
    (expr.sites scope).filter Site.isIndex =
      (expr.names.filter (· == Names.indexVar)).map ({ name := ·, scope }) := by
  rw [sites, List.filter_map]
  rfl

theorem Expr.names_ofBinary? {operator : String} {left right expr : Expr}
    (code : ofBinary? operator left right = some expr) :
    expr.names = left.names ++ right.names := by
  unfold ofBinary? at code
  cases known : Operator.ofText? operator with
  | none => simp [known] at code
  | some operator =>
    cases operator <;>
      · simp [known, Operator.symbol?] at code
        rw [← code]
        rfl

theorem Expr.names_ofUnary? {operator : String} {operand expr : Expr}
    (code : ofUnary? operator operand = some expr) : expr.names = operand.names := by
  unfold ofUnary? at code
  split at code
  all_goals cases code
  all_goals rfl

theorem Expr.names_ofMember (object : Expr) (property : String) :
    (ofMember object property).names = object.names := by
  unfold ofMember
  split <;> rfl

theorem Expr.names_ofIdentifier? {name : String} {expr : Expr}
    (code : ofIdentifier? name = some expr) :
    expr.names.filter (· == Names.indexVar) = if name = Names.indexVar then [name] else [] := by
  unfold ofIdentifier? at code
  split at code
  case h_9 =>
    split at code
    · cases code
      by_cases same : name = Names.indexVar <;> simp [names, same]
    · cases code
  all_goals
    cases code
    rfl

/-- The mentions of the index variable in the code of an expression. -/
theorem sites_operand (node : Node) {expr : Expr} (code : Expr.ofNode? node = some expr)
    (around : List Enclosure) :
    (expr.sites (scopeOf around)).filter Site.isIndex =
      (operandMentions around node).map Mention.site := by
  induction node using Node.childInduction generalizing expr around with
  | parent node ih =>
    cases node with
    | identifier name =>
      rw [Expr.filter_sites]
      simp only [Expr.ofNode?] at code
      split at code
      next index =>
        cases code
        simp only [operandMentions, spellsIndex, index, Bool.true_or, if_true]
        rfl
      next other =>
        rw [Expr.names_ofIdentifier? code]
        simp only [operandMentions, spellsIndex, Bool.eq_false_iff.mpr other, Bool.false_or,
          beq_iff_eq]
        split
        next same =>
          subst same
          rfl
        next => rfl
    | variableRef name =>
      rw [Expr.filter_sites]
      simp only [Expr.ofNode?] at code
      split at code
      next index =>
        cases code
        simp only [operandMentions, spellsIndex, index, if_true]
        rfl
      next other =>
        cases code
        simp only [operandMentions, spellsIndex, Bool.eq_false_iff.mpr other, Bool.false_eq_true,
          if_false]
        rfl
    | binary operator left right =>
      obtain ⟨inLeft, leftCode, code⟩ := Option.bind_eq_some_iff.mp code
      obtain ⟨inRight, rightCode, code⟩ := Option.bind_eq_some_iff.mp code
      have first := ih left (by simp [Node.children]) leftCode
        (.head (.binary operator left right) :: around)
      have second := ih right (by simp [Node.children]) rightCode
        (.head (.binary operator left right) :: around)
      simp only [operandMentions, List.map_append, ← first, ← second, Expr.sites,
        Expr.names_ofBinary? code, List.filter_append]
      rfl
    | unary operator operand =>
      obtain ⟨inner, innerCode, code⟩ := Option.bind_eq_some_iff.mp code
      have inside := ih operand (by simp [Node.children]) innerCode
        (.head (.unary operator operand) :: around)
      simp only [operandMentions, ← inside, Expr.sites, Expr.names_ofUnary? code]
      rfl
    | member object property =>
      obtain ⟨inner, innerCode, code⟩ := Option.bind_eq_some_iff.mp code
      cases code
      have inside := ih object (by simp [Node.children]) innerCode
        (.head (.member object property) :: around)
      simp only [operandMentions, ← inside, Expr.sites, Expr.names_ofMember]
      rfl
    | literal | selector =>
      cases code
      rfl
    | _ => cases code

theorem sites_operands {nodes : List Node} {exprs : List Expr}
    (codes : nodes.mapM Expr.ofNode? = some exprs) (around : List Enclosure) :
    (exprs.flatMap (Expr.sites (scopeOf around))).filter Site.isIndex =
      (nodes.flatMap (operandMentions around)).map Mention.site := by
  induction nodes generalizing exprs with
  | nil =>
    cases codes
    rfl
  | cons node rest ih =>
    rw [List.mapM_cons] at codes
    obtain ⟨first, code, codes⟩ := Option.bind_eq_some_iff.mp codes
    obtain ⟨others, restCodes, codes⟩ := Option.bind_eq_some_iff.mp codes
    cases codes
    simp only [List.flatMap_cons, List.filter_append, List.map_append, sites_operand node code,
      ih restCodes]

theorem scopeOf_cons {node : Node} {statement : Stmt} (code : Stmt.ofNode? node = some statement)
    (around : List Enclosure) :
    scopeOf (.head node :: around) = statement :: scopeOf around ∧
      scopeOf (.body node :: around) = statement :: scopeOf around := by
  simp [scopeOf, Enclosure.parent, code]

theorem commandOperands_class {method : String} (known : method ∈ ["add", "remove", "toggle"])
    (args : List Node) (target : Option Node) :
    commandOperands method args target = target.toList := by
  simp only [List.mem_cons, List.not_mem_nil, or_false] at known
  rcases known with rfl | rfl | rfl <;> rfl

/-- The mentions of the index variable in the code of a command. -/
theorem sites_command {name : String} {args : List Node} {target : Option Node} {statement : Stmt}
    (code : Stmt.ofCommand? name args target = some statement) {around : List Enclosure}
    {scope : List Stmt} (inside : scopeOf around = statement :: scope) :
    (statement.sites scope).filter Site.isIndex =
      ((commandOperands name args target).flatMap (operandMentions around)).map Mention.site := by
  -- Most commands hold the code of one operand.
  have single {value : Node} {expr : Expr} (operand : Expr.ofNode? value = some expr) :
      (expr.sites (statement :: scope)).filter Site.isIndex =
        ([value].flatMap (operandMentions around)).map Mention.site := by
    rw [← inside, sites_operand value operand, List.flatMap_singleton]
  have second {place : String} {value : Node} {expr : Expr}
      (operand : Expr.ofNode? value = some expr) :
      ((commandOperands "set" [.variableRef place, value] target).flatMap
          (operandMentions around)).map Mention.site =
        (operandMentions around (.variableRef place)).map Mention.site ++
          (expr.sites (statement :: scope)).filter Site.isIndex := by
    simp [single operand, commandOperands]
  cases Stmt.commandCode_ofCommand? code with
  | halt | exit | leave => rfl
  | leaveWith operand | throwValue operand | wait operand => exact single operand
  | log operands =>
    simp only [Stmt.sites, ← inside, sites_operands operands]
    rfl
  | changeOwnClass known =>
    rw [commandOperands_class known]
    rfl
  | changeClasses known =>
    rw [commandOperands_class known]
    rfl
  | changeClass known operand =>
    rw [commandOperands_class known]
    exact single operand
  | @setIndex place value _ expr index operand =>
    rw [second operand]
    simp only [operandMentions, spellsIndex, index, if_true, List.map_cons, List.map_nil,
      Mention.site, inside]
    rfl
  | @setLocal place value _ expr other operand =>
    rw [second operand]
    simp only [operandMentions, spellsIndex, other]
    rfl

theorem sites_ofNodes {nodes : List Node} {around : List Enclosure}
    (each : ∀ node ∈ nodes, (Stmt.sitesAll (scopeOf around) (Stmt.ofNode? node).toList).filter
      Site.isIndex = (mentions around node).map Mention.site) :
    (Stmt.sitesAll (scopeOf around) (Stmt.ofNodes nodes)).filter Site.isIndex =
      (mentionsAll around nodes).map Mention.site := by
  induction nodes with
  | nil => rfl
  | cons node rest ih =>
    have first := each node List.mem_cons_self
    have others := ih fun other member => each other (List.mem_cons_of_mem _ member)
    simp only [Stmt.ofNodes, Stmt.sitesAll_append, List.filter_append, first, others, mentionsAll,
      List.map_append]

/-- An item that code cannot name has a variable of its own. -/
theorem filter_itemSites (scope : List Stmt) (itemName : String) :
    (Stmt.itemSites scope itemName).filter Site.isIndex = [] := by
  unfold Stmt.itemSites
  split
  next => rfl
  next unnamed =>
    simp only [Stmt.itemVariable, unnamed]
    rfl

/-- A statement with a head that is evaluated and bodies that are run. -/
theorem sites_headed (bodySites : List Stmt → List Site) {node head : Node}
    {statement : Expr → Stmt} {bodyMentions : List Mention} {around : List Enclosure}
    (code : Stmt.ofNode? node = (do return statement (← Expr.ofNode? head)))
    (sites_eq : ∀ expr scope, (statement expr).sites scope =
      expr.sites (statement expr :: scope) ++ bodySites (statement expr :: scope))
    (inBodies : (bodySites (scopeOf (.body node :: around))).filter Site.isIndex =
      bodyMentions.map Mention.site) :
    (Stmt.sitesAll (scopeOf around) (Stmt.ofNode? node).toList).filter Site.isIndex =
      (if (Expr.ofNode? head).isSome then
        operandMentions (.head node :: around) head ++ bodyMentions else []).map Mention.site := by
  cases found : Expr.ofNode? head with
  | none => simp [code, found, Stmt.sitesAll]
  | some expr =>
    have written : Stmt.ofNode? node = some (statement expr) := by simp [code, found]
    obtain ⟨inHead, inBody⟩ := scopeOf_cons written around
    have first := sites_operand head found (.head node :: around)
    rw [inHead] at first
    rw [inBody] at inBodies
    simp only [written, Option.toList_some, Stmt.sitesAll, List.append_nil, sites_eq,
      List.filter_append, first, inBodies, Option.isSome_some, if_true, List.map_append]

/-- The mentions of the index variable in the code of a statement are those of its nodes. -/
theorem sites_statement (node : Node) (around : List Enclosure) :
    (Stmt.sitesAll (scopeOf around) (Stmt.ofNode? node).toList).filter Site.isIndex =
      (mentions around node).map Mention.site := by
  induction node using Node.childInduction generalizing around with
  | parent node ih =>
    have block (nodes : List Node) (inside : ∀ child ∈ nodes, child ∈ node.children)
        (around : List Enclosure) :=
      @sites_ofNodes nodes around fun child member => ih child (inside child member) around
    cases node with
    | command name args target =>
      simp only [mentions, Stmt.ofNode?]
      cases code : Stmt.ofCommand? name args target with
      | none => rfl
      | some statement =>
        have inside := (scopeOf_cons (show Stmt.ofNode? (.command name args target) =
          some statement from code) around).1
        simpa [Stmt.sitesAll] using sites_command code inside
    | ifElse condition thenBranch elseBranch =>
      have inThen := block thenBranch (by simp +contextual [Node.children])
        (.body (.ifElse condition thenBranch elseBranch) :: around)
      cases elseBranch with
      | none =>
        exact sites_headed (Stmt.sitesAll · (Stmt.ofNodes thenBranch)) rfl (fun _ _ => rfl) inThen
      | some elseBranch =>
        have inElse := block elseBranch (by simp +contextual [Node.children])
          (.body (.ifElse condition thenBranch (some elseBranch)) :: around)
        simp only [mentions, List.append_assoc]
        refine sites_headed (fun scope => Stmt.sitesAll scope (Stmt.ofNodes thenBranch) ++
          Stmt.sitesAll scope (Stmt.ofNodes elseBranch)) rfl ?_ ?_
        · intro expr scope
          rw [Stmt.sites, List.append_assoc]
        · simp only [List.filter_append, List.map_append, inThen, inElse]
    | repeatTimes count body =>
      have inBody := block body (by simp +contextual [Node.children])
        (.body (.repeatTimes count body) :: around)
      cases count with
      | none => simpa [Stmt.ofNode?, Stmt.sitesAll, Stmt.sites, mentions, scopeOf, Enclosure.parent]
          using inBody
      | some count =>
        exact sites_headed (Stmt.sitesAll · (Stmt.ofNodes body)) rfl (fun _ _ => rfl) inBody
    | forEach itemName collection body =>
      have inBody := block body (by simp +contextual [Node.children])
        (.body (.forEach itemName collection body) :: around)
      refine sites_headed (fun scope => Stmt.itemSites scope itemName ++
        Stmt.sitesAll scope (Stmt.ofNodes body)) rfl ?_ ?_
      · intro expr scope
        rw [Stmt.sites, List.append_assoc]
      · rw [List.filter_append, filter_itemSites, List.nil_append, inBody]
    | whileLoop condition body =>
      have inBody := block body (by simp +contextual [Node.children])
        (.body (.whileLoop condition body) :: around)
      exact sites_headed (Stmt.sitesAll · (Stmt.ofNodes body)) rfl (fun _ _ => rfl) inBody
    | sequence commands unrolled =>
      have inside := block commands (by simp [Node.children])
        (.body (.sequence commands unrolled) :: around)
      simpa [Stmt.ofNode?, Stmt.sitesAll, Stmt.sites, mentions, scopeOf, Enclosure.parent]
        using inside
    | _ => rfl

variable {roots : List Node}

theorem Placed.hasCode {node : Node} {around : List Enclosure} (placed : Placed roots node around) :
    ∀ enclosure ∈ around, HasCode enclosure.parent := by
  induction placed with
  | root => simp
  | head _ code _ ih | body _ code _ ih => exact List.forall_mem_cons.mpr ⟨code, ih⟩

/-- The mention is that of a node of the script, at its place. -/
structure Mention.Within (roots : List Node) (mention : Mention) : Prop where
  placed : Placed roots mention.node mention.around
  spelled : spellsIndex mention.node = true

theorem within_operand {node : Node} {around : List Enclosure} (placed : Placed roots node around)
    (code : (Expr.ofNode? node).isSome) :
    ∀ mention ∈ operandMentions around node, mention.Within roots := by
  induction node using Node.childInduction generalizing around with
  | parent node ih =>
    have hasCode : HasCode node := .inr code
    obtain ⟨expr, code⟩ := Option.isSome_iff_exists.mp code
    cases node with
    | binary operator left right =>
      obtain ⟨_, leftCode, code⟩ := Option.bind_eq_some_iff.mp code
      obtain ⟨_, rightCode, _⟩ := Option.bind_eq_some_iff.mp code
      have first := ih left (by simp [Node.children]) (placed.head hasCode (by simp [Node.heads]))
        (Option.isSome_of_mem leftCode)
      have second := ih right (by simp [Node.children]) (placed.head hasCode (by simp [Node.heads]))
        (Option.isSome_of_mem rightCode)
      exact List.forall_mem_append.mpr ⟨first, second⟩
    | unary operator operand =>
      obtain ⟨_, innerCode, _⟩ := Option.bind_eq_some_iff.mp code
      exact ih operand (by simp [Node.children]) (placed.head hasCode (by simp [Node.heads]))
        (Option.isSome_of_mem innerCode)
    | member object property =>
      obtain ⟨_, innerCode, _⟩ := Option.bind_eq_some_iff.mp code
      exact ih object (by simp [Node.children]) (placed.head hasCode (by simp [Node.heads]))
        (Option.isSome_of_mem innerCode)
    | _ =>
      intro mention member
      simp only [operandMentions] at member
      split at member
      next spelled =>
        cases List.mem_singleton.mp member
        exact ⟨placed, spelled⟩
      next => cases member

/-- The operands of a command with code have code. -/
theorem commandOperands_code {name : String} {args : List Node} {target : Option Node}
    {statement : Stmt} (code : Stmt.ofCommand? name args target = some statement) :
    ∀ operand ∈ commandOperands name args target, (Expr.ofNode? operand).isSome := by
  have variableCode (place : String) : (Expr.ofNode? (.variableRef place)).isSome := by
    simp only [Expr.ofNode?]
    split <;> rfl
  cases Stmt.commandCode_ofCommand? code with
  | halt | exit | leave => simp [commandOperands]
  | leaveWith operand | throwValue operand | wait operand => simp [commandOperands, operand]
  | log operands =>
    intro operand member
    have found : Expr.ofNode? operand ∈ args.map Expr.ofNode? := List.mem_map_of_mem member
    rw [Expr.map_ofNode? operands] at found
    obtain ⟨expr, _, same⟩ := List.mem_map.mp found
    exact Option.isSome_of_mem same.symm
  | changeOwnClass known => simp [commandOperands_class known]
  | changeClasses known => simp [commandOperands_class known, Expr.ofNode?]
  | changeClass known operand => simp [commandOperands_class known, operand]
  | setIndex _ operand | setLocal _ operand => simp [commandOperands, operand, variableCode]

theorem mem_heads_of_mem_commandOperands {name : String} {args : List Node} {target : Option Node}
    {operand : Node} (member : operand ∈ commandOperands name args target) :
    operand ∈ (Node.command name args target).heads := by
  unfold commandOperands at member
  simp only [Node.heads, List.mem_append]
  split at member
  case h_1 | h_2 | h_3 => exact .inl (List.mem_of_mem_take member)
  case h_4 | h_5 => exact .inl member
  case h_6 | h_7 | h_8 => exact .inr member
  case h_9 => cases member

theorem within_block {nodes : List Node} {around : List Enclosure}
    (each : ∀ node ∈ nodes, ∀ mention ∈ mentions around node,
      mention.Within roots) :
    ∀ mention ∈ mentionsAll around nodes, mention.Within roots := by
  induction nodes with
  | nil => simp [mentionsAll]
  | cons node rest ih =>
    obtain ⟨first, others⟩ := List.forall_mem_cons.mp each
    exact List.forall_mem_append.mpr ⟨first, ih others⟩

/-- Every mention is where it is said to be. -/
theorem within_statement {node : Node} {around : List Enclosure}
    (placed : Placed roots node around) :
    ∀ mention ∈ mentions around node, mention.Within roots := by
  induction node using Node.childInduction generalizing around with
  | parent node ih =>
    have block (nodes : List Node) (inside : ∀ child ∈ nodes, child ∈ node.children)
        (inBodies : ∀ child ∈ nodes, child ∈ node.bodies) (hasCode : HasCode node) :=
      @within_block roots nodes (.body node :: around) fun child member =>
        ih child (inside child member) (placed.body hasCode (inBodies child member))
    have headed {head : Node} {statement : Expr → Stmt} {more : List Mention}
        (isCode : Stmt.ofNode? node = (do return statement (← Expr.ofNode? head)))
        (inHeads : head ∈ node.heads)
        (others : HasCode node → ∀ mention ∈ more, mention.Within roots) :
        ∀ mention ∈ (if (Expr.ofNode? head).isSome then
          operandMentions (.head node :: around) head ++ more else []),
          mention.Within roots := by
      split
      next code =>
        have hasCode : HasCode node := by
          obtain ⟨expr, found⟩ := Option.isSome_iff_exists.mp code
          exact .inl (by simp [isCode, found])
        exact List.forall_mem_append.mpr
          ⟨within_operand (placed.head hasCode inHeads) code, others hasCode⟩
      next => simp
    cases node with
    | command name args target =>
      simp only [mentions]
      split
      next code =>
        obtain ⟨statement, code⟩ := Option.isSome_iff_exists.mp code
        have hasCode : HasCode (.command name args target) := .inl (by simp [Stmt.ofNode?, code])
        simp only [List.forall_mem_flatMap]
        intro operand member
        exact within_operand (placed.head hasCode (mem_heads_of_mem_commandOperands member))
          (commandOperands_code code operand member)
      next => simp
    | ifElse condition thenBranch elseBranch =>
      have inThen := block thenBranch (by simp +contextual [Node.children])
        (by simp +contextual [Node.bodies])
      cases elseBranch with
      | none => exact headed rfl (by simp [Node.heads]) inThen
      | some elseBranch =>
        have inElse := block elseBranch (by simp +contextual [Node.children])
          (by simp +contextual [Node.bodies])
        simp only [mentions, List.append_assoc]
        exact headed rfl (by simp [Node.heads]) fun hasCode =>
          List.forall_mem_append.mpr ⟨inThen hasCode, inElse hasCode⟩
    | repeatTimes count body =>
      have inBody := block body (by simp +contextual [Node.children])
        (by simp +contextual [Node.bodies])
      cases count with
      | none => exact inBody (.inl rfl)
      | some count => exact headed rfl (by simp [Node.heads]) inBody
    | forEach itemName collection body =>
      have inBody := block body (by simp +contextual [Node.children])
        (by simp +contextual [Node.bodies])
      exact headed rfl (by simp [Node.heads]) inBody
    | whileLoop condition body =>
      have inBody := block body (by simp +contextual [Node.children])
        (by simp +contextual [Node.bodies])
      exact headed rfl (by simp [Node.heads]) inBody
    | sequence commands unrolled =>
      exact block commands (by simp [Node.children]) (by simp [Node.bodies]) (.inl rfl)
    | _ => simp [mentions]

theorem declaredName?_eq_index_iff (node : Node) :
    declaredName? node = some Names.indexVar ↔ node.declaresIndex = true := by
  cases node with
  | command name args target =>
    unfold declaredName?
    split
    all_goals simp_all [Node.declaresIndex, Names.indexVar]
  | repeatTimes count body => cases count <;> simp [declaredName?, Node.declaresIndex]
  | _ => simp [declaredName?, Node.declaresIndex]

/-- What declares a variable is a statement. -/
theorem ofNode?_of_declaredName? {node : Node} (code : HasCode node) {name : String}
    (declares : declaredName? node = some name) :
    ∃ statement, Stmt.ofNode? node = some statement := by
  cases node with
  | command | repeatTimes | forEach => exact Option.isSome_iff_exists.mp (code.resolve_right nofun)
  | _ => cases declares

theorem forall_scopeOf_iff {around : List Enclosure}
    (codes : ∀ enclosure ∈ around, HasCode enclosure.parent) {name : String} :
    (∀ statement ∈ scopeOf around, statement.declares ≠ some name) ↔
      ∀ enclosure ∈ around, declaredName? enclosure.parent ≠ some name := by
  constructor
  · intro silent enclosure member declares
    obtain ⟨statement, code⟩ := ofNode?_of_declaredName? (codes enclosure member) declares
    exact silent statement (List.mem_filterMap.mpr ⟨enclosure, member, code⟩)
      ((declares_ofNode? code).trans declares)
  · intro silent statement member declares
    obtain ⟨enclosure, member, code⟩ := List.mem_filterMap.mp member
    exact silent enclosure member ((declares_ofNode? code).symm.trans declares)

/-- A variable refers to a node around it if that one declares it and none nearer does. -/
theorem binding_name_iff {node : Node} {statement : Stmt}
    (code : Stmt.ofNode? node = some statement) {inner outer : List Enclosure}
    (codes : ∀ enclosure ∈ inner, HasCode enclosure.parent) {name : String} :
    ({ name, scope := scopeOf (inner ++ .body node :: outer) } : Site).binding =
        statement :: scopeOf outer ↔
      declaredName? node = some name ∧
        ∀ enclosure ∈ inner, declaredName? enclosure.parent ≠ some name := by
  have scope : scopeOf (inner ++ .body node :: outer) =
      scopeOf inner ++ statement :: scopeOf outer := by
    rw [scopeOf, List.filterMap_append, ← (scopeOf_cons code outer).2]
    rfl
  rw [← forall_scopeOf_iff codes, ← declares_ofNode? code, scope, Site.binding_eq_iff]

/-- The index refers to a statement around it if that one declares it and none nearer does. -/
theorem binding_eq_iff {node : Node} {statement : Stmt} (code : Stmt.ofNode? node = some statement)
    {inner outer : List Enclosure} (codes : ∀ enclosure ∈ inner, HasCode enclosure.parent) :
    ({ name := Names.indexVar, scope := scopeOf (inner ++ .body node :: outer) } : Site).binding =
        statement :: scopeOf outer ↔
      node.declaresIndex = true ∧ ∀ enclosure ∈ inner, enclosure.parent.declaresIndex = false := by
  rw [binding_name_iff code codes]
  simp only [ne_eq, declaredName?_eq_index_iff, Bool.not_eq_true]

/-- Which loop an index in the code of a script belongs to. All mentions of the index
variable come from nodes of the script. One in the body of a repetition refers to the head of
that repetition exactly if the repetition has a count and nothing nearer to the mention
declares the variable: no counted repetition with the mention in its body or in its count, and
no iteration whose variable is spelled like the index. -/
theorem index_binding_iff (nodes : List Node) :
    (Statement.body nodes).value = Text.joinLines (Stmt.renderAll (Stmt.ofNodes nodes)) ∧
    (Stmt.sitesAll [] (Stmt.ofNodes nodes)).filter Site.isIndex =
      (mentionsAll [] nodes).map Mention.site ∧
    ∀ mention ∈ mentionsAll [] nodes, mention.Within nodes ∧
      ∀ inner count body outer, mention.around = inner ++ .body (.repeatTimes count body) :: outer →
        ∃ loop, Stmt.ofNode? (.repeatTimes count body) = some loop ∧
          (mention.site.binding = loop :: scopeOf outer ↔
            count.isSome ∧ ∀ enclosure ∈ inner, enclosure.parent.declaresIndex = false) := by
  refine ⟨Stmt.value_body nodes, sites_ofNodes fun node _ => sites_statement node [], ?_⟩
  intro mention member
  have within := within_block (fun node inside => within_statement (.root inside)) mention member
  refine ⟨within, ?_⟩
  intro inner count body outer around
  have codes := within.placed.hasCode
  rw [around] at codes
  have repetition : HasCode (.repeatTimes count body) := codes (.body _) (by simp)
  obtain ⟨loop, code⟩ := Option.isSome_iff_exists.mp (repetition.resolve_right nofun)
  refine ⟨loop, code, ?_⟩
  rw [Mention.site, around]
  exact binding_eq_iff code fun enclosure inside => codes enclosure (by simp [inside])

/-- A repetition that logs its index. -/
def loggedIndex (count : Option Node) : Node :=
  .repeatTimes count [.command "log" [.identifier "index"] none]

/-- In a counted repetition inside one that goes on forever, the index is that of the inner
repetition. -/
theorem index_binding_inner :
    ∃ mention loop outer,
      mentionsAll [] [.repeatTimes none [loggedIndex (some (.identifier "n"))]] = [mention] ∧
      Stmt.ofNode? (loggedIndex (some (.identifier "n"))) = some loop ∧
      mention.site.binding = loop :: outer := by
  let outer : List Enclosure := [.body (.repeatTimes none [loggedIndex (some (.identifier "n"))])]
  have only : mentionsAll [] [.repeatTimes none [loggedIndex (some (.identifier "n"))]] =
      [{ node := .identifier "index"
         around := [.head (.command "log" [.identifier "index"] none)] ++
           .body (loggedIndex (some (.identifier "n"))) :: outer }] := rfl
  obtain ⟨loop, code, binding⟩ :=
    ((index_binding_iff _).2.2 _ (only ▸ List.mem_cons_self)).2 _ _ _ outer rfl
  exact ⟨_, loop, _, only, code, binding.mpr (by decide)⟩

/-- The index of a repetition without a count has no declaration, and the index in the count
of an inner repetition is that of the inner one, not of the one around it. -/
theorem index_unbound_or_captured :
    (Statement.body [loggedIndex none]).value =
      "while (true) \x7b\n  console.log(_index);\n\x7d" ∧
    (Stmt.sitesAll [] (Stmt.ofNodes [loggedIndex none])).map Site.binding = [[]] ∧
    ∃ inner outer,
      Stmt.ofNode? (loggedIndex (some (.identifier "index"))) = some inner ∧
      Stmt.ofNode? (.repeatTimes (some (.literal (.string "3")))
        [loggedIndex (some (.identifier "index"))]) = some outer ∧
      outer.render =
        "for (let _index = 0; _index < \"3\"; _index++) \x7b\n" ++
        "  for (let _index = 0; _index < _index; _index++) \x7b\n" ++
        "    console.log(_index);\n  \x7d\n\x7d" ∧
      (outer.sites []).map Site.binding = [[inner, outer], [inner, outer]] :=
  ⟨by decide +kernel, rfl, _, _, rfl, rfl, by decide +kernel, rfl⟩

end Program
end Hyperscript
