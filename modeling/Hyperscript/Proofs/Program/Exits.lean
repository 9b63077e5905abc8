import Hyperscript.Proofs.Optimization.Settled
import Hyperscript.Proofs.Program.Page
import Hyperscript.Proofs.Program.RuntimeCalls

/-! Commands that end a statement list, and their code. A block is cut behind a command by the
name of the command alone; its code is a `throw` or a `return` statement only if its argument
has a form as an expression, and there is none at all otherwise. So what is cut off was out of
reach in the generated code exactly behind the commands that have code. -/
namespace Hyperscript

open Text Program Meaning

namespace Node

/-- A node that has a form as an expression if everything beneath it has. -/
def hasForm : Node → Bool
  | .literal _ | .variableRef _ | .selector .. | .member .. => true
  | .identifier name => indexNames.contains name || isIdentifier name
  | .binary operator .. => (Operator.ofText? operator).isSome
  | .unary operator _ => ["not", "no", "!", "-", "+"].contains operator
  | .command .. | .ifElse .. | .repeatTimes .. | .forEach .. | .whileLoop .. | .event ..
  | .sequence .. | .unknown => false

/-- Every node of the tree has a form as an expression. -/
def IsExpressible (node : Node) : Prop := node.Everywhere (·.hasForm = true)

theorem isExpressible_iff {node : Node} :
    node.IsExpressible ↔ node.hasForm = true ∧ ∀ child ∈ node.children, child.IsExpressible :=
  everywhere_iff

/-- The argument that decides whether a command leaves its statement list has a form. -/
def Leaves (name : String) (args : List Node) : Prop :=
  match name with
  | "return" => ∀ value ∈ args.head?, value.IsExpressible
  | "throw" => ∃ value ∈ args.head?, value.IsExpressible
  | _ => True

end Node

namespace Program.Expr

theorem isSome_ofIdentifier? (name : String) :
    (ofIdentifier? name).isSome = isIdentifier name := by
  unfold ofIdentifier?
  split
  case h_9 =>
    split
    next valid => rw [valid, Option.isSome_some]
    next other => rw [Bool.eq_false_iff.mpr other, Option.isSome_none]
  all_goals decide

theorem isSome_ofBinary? (operator : String) (left right : Expr) :
    (ofBinary? operator left right).isSome = (Operator.ofText? operator).isSome := by
  unfold ofBinary?
  cases Operator.ofText? operator with
  | none => rfl
  | some operator => cases operator <;> rfl

theorem isSome_ofUnary? (operator : String) (operand : Expr) :
    (ofUnary? operator operand).isSome = ["not", "no", "!", "-", "+"].contains operator := by
  unfold ofUnary?
  split
  case h_6 negation word sign minus plus =>
    simp only [Option.isSome_none]
    symm
    simp_all
  all_goals rfl

/-- The nodes that code can express are those whose tree has a form throughout. -/
theorem exists_ofNode?_iff {node : Node} :
    (∃ expr, ofNode? node = some expr) ↔ node.IsExpressible := by
  rw [← Option.isSome_iff_exists]
  induction node using Node.childInduction with
  | parent node ih =>
    rw [Node.isExpressible_iff]
    cases node with
    | identifier name =>
      rw [ofNode?]
      split
      next index => simp [Node.hasForm, Node.children, List.contains_iff_mem.mp index]
      next other => simp [Node.hasForm, Node.children, isSome_ofIdentifier?, by simpa using other]
    | variableRef name =>
      rw [ofNode?]
      split <;> simp [Node.hasForm, Node.children]
    | binary operator left right =>
      have first := ih left (by simp [Node.children])
      have second := ih right (by simp [Node.children])
      simp only [Node.children, List.forall_mem_cons, ← first, ← second, ofNode?, Node.hasForm]
      cases ofNode? left with
      | none => simp
      | some leftCode =>
        cases ofNode? right with
        | none => simp
        | some rightCode => simp [isSome_ofBinary?]
    | unary operator operand =>
      have inner := ih operand (by simp [Node.children])
      simp only [Node.children, List.forall_mem_singleton, ← inner, ofNode?, Node.hasForm]
      cases ofNode? operand with
      | none => simp
      | some operandCode => simp [isSome_ofUnary?]
    | member object property =>
      have inner := ih object (by simp [Node.children])
      simp only [Node.children, List.forall_mem_singleton, ← inner, ofNode?, Node.hasForm]
      cases ofNode? object <;> simp
    | literal | selector => simp [ofNode?, Node.hasForm, Node.children]
    | _ => simp [ofNode?, Node.hasForm]

/-- Only a selector has the code of one. -/
theorem ofNode?_eq_elements_iff {node : Node} {value : String} {cacheKey : Option String} :
    ofNode? node = some (.elements value cacheKey) ↔ node = .selector value cacheKey := by
  constructor
  · intro code
    cases nodeCode_ofNode? code with
    | selector => rfl
  · rintro rfl
    rfl

/-- A semicolon ends statements; no expression has one. -/
theorem semicolon_not_mem_tokens {expr : Expr} (spelled : expr.IsSpelled) :
    .mark ';' ∉ expr.tokens := by
  have shown {text : String} (absent : ';' ∉ text.toList) : .mark ';' ∉ Text.tokens text :=
    fun member => absent (characters_subset _ member List.mem_cons_self)
  induction expr with
  | literal value =>
    cases value with
    | null => decide
    | bool value => cases value <;> decide
    | number value =>
      have digits : ';' ∉ (Number.text value).toList := by
        rcases Number.isNumeral_text value with word | numeral
        · have words : ∀ word ∈ ["NaN", "Infinity", "-Infinity"], ';' ∉ word.toList := by decide
          exact words _ word
        · intro member
          exact absurd (numeral _ member) (by decide)
      refine shown ?_
      simp only [Expression.literal]
      split
      · simpa [String.toList_append] using digits
      · exact digits
    | string value =>
      rw [tokens, Expression.literal, Text.tokens, (spells_quoted value).read]
      decide
  | variableRef name => simp [tokens]
  | elements selector key => cases key <;> simp [tokens]
  | dot object property ih => simp [tokens, ih spelled.1]
  | subscript object property ih => simp [tokens, ih spelled]
  | concat left right first second => simp [tokens, first spelled.1, second spelled.2]
  | binary symbol left right first second =>
    obtain ⟨⟨operator, known⟩, inLeft, inRight⟩ := spelled
    have sign : .mark ';' ∉ Text.tokens symbol := by
      cases operator with
      | concat => cases known
      | _ =>
        cases known
        decide
    simp [tokens, sign, first inLeft, second inRight]
  | unary symbol operand ih =>
    have signs : ∀ symbol ∈ ["!", "-", "+"], .mark ';' ∉ Text.tokens symbol := by decide
    simp [tokens, signs symbol spelled.1, ih spelled.2]

end Program.Expr

/-- Code that is read as one statement and leaves: a keyword, an operand that closes its brackets
and has neither keywords nor semicolons, and the semicolon, all on one line. -/
structure Text.IsExit (code : String) : Prop where
  read : ∃ keyword operand, keyword ∈ ["throw", "return"] ∧
    Spells code (.word keyword :: operand ++ [.mark ';']) ∧ Balanced operand ∧
    (∀ token ∈ operand, token.isKeyword = false) ∧ .mark ';' ∉ operand

namespace Program.Stmt

/-- A `throw` or a `return` statement. -/
def isExit : Stmt → Bool
  | .throwSignal _ | .throwValue _ | .leave _ => true
  | _ => false

theorem exec_neverNormal {engine : Engine} {statement : Stmt} (exit : statement.isExit = true)
    (env : Env engine.Value) : (Engine.exec env statement).NeverNormal := by
  have thrown (action : engine.Effect engine.Value)
      (signal : engine.Value → Signal engine.Value) :
      (do Action.raise (signal (← action)) : engine.Effect Unit).NeverNormal := by
    rintro start value final (⟨_, _, -, ⟨⟩, -⟩ | ⟨_, ⟨⟩, -⟩)
  cases statement with
  | throwSignal signal => rintro start value final ⟨⟨⟩, -⟩
  | throwValue value => exact thrown _ _
  | leave value =>
    cases value with
    | none => rintro start value final ⟨⟨⟩, -⟩
    | some value => exact thrown _ _
  | _ => cases exit

/-- How the text of such a statement is read. -/
theorem isExit_render {statement : Stmt} (exit : statement.isExit = true)
    (spelled : statement.IsSpelled) : IsExit statement.render := by
  have semicolon : Spells ";" [.mark ';'] := by decide
  have operand (keyword : String) (known : keyword ∈ ["throw", "return"]) {opening : String}
      (starts : Spells opening [.word keyword]) (ends : endsWord opening.toList = false)
      {value : Expr} (spelled : value.IsSpelled) : IsExit (opening ++ value.render ++ ";") := by
    have whole := (starts.thenAny (Expr.spells_render spelled) ends).thenMark semicolon (by decide)
    exact ⟨keyword, value.tokens, known, whole, Expr.balanced_tokens spelled,
      Expr.isKeyword_tokens spelled, Expr.semicolon_not_mem_tokens spelled⟩
  have thrown {value : Expr} := @operand "throw" (by decide) "throw " (by decide) (by decide) value
  have returned {value : Expr} :=
    @operand "return" (by decide) "return " (by decide) (by decide) value
  cases statement with
  | throwSignal signal =>
    have signals : ∀ signal ∈ ["HALT", "EXIT"], Spells ("throw " ++ Names.member signal ++ ";")
        (.word "throw" :: [.word "_rt", .mark '.', .word signal] ++ [.mark ';']) := by
      decide +kernel
    have plain : ∀ signal ∈ ["HALT", "EXIT"],
        ∀ token ∈ [Token.word "_rt", .mark '.', .word signal], token.isKeyword = false := by decide
    exact ⟨"throw", [.word "_rt", .mark '.', .word signal], by decide, signals signal spelled,
      .of_plain (by simp [Token.isBracket]), plain signal spelled, by simp⟩
  | throwValue value => exact thrown spelled
  | leave value =>
    cases value with
    | none =>
      have alone : Spells "return;" [.word "return", .mark ';'] := by decide
      exact ⟨"return", [], by decide, alone, .nil, by simp, by simp⟩
    | some value => exact returned spelled
  | _ => cases exit

/-- The code of a command that ends its statement list, if there is any. -/
theorem ofCommand?_of_leaves {name : String} (terminator : name ∈ Node.terminators)
    {args : List Node} (leaves : Node.Leaves name args) (target : Option Node) :
    ∃ statement, ofCommand? name args target = some statement ∧ statement.isExit = true := by
  simp only [Node.terminators, List.mem_cons, List.not_mem_nil, or_false] at terminator
  obtain rfl | rfl | rfl | rfl := terminator
  · exact ⟨_, rfl, rfl⟩
  · exact ⟨_, rfl, rfl⟩
  · cases args with
    | nil => exact ⟨_, rfl, rfl⟩
    | cons value rest =>
      obtain ⟨expr, code⟩ := Expr.exists_ofNode?_iff.mpr (leaves value rfl)
      exact ⟨.leave (some expr), by simp [ofCommand?, code], rfl⟩
  · obtain ⟨value, first, form⟩ := leaves
    obtain ⟨rest, rfl⟩ := List.head?_eq_some_iff.mp first
    obtain ⟨expr, code⟩ := Expr.exists_ofNode?_iff.mpr form
    exact ⟨.throwValue expr, by simp [ofCommand?, code], rfl⟩

theorem ofCommand?_of_not_leaves {name : String} {args : List Node}
    (stays : ¬ Node.Leaves name args) (target : Option Node) :
    ofCommand? name args target = none := by
  have none {value : Node} (formless : ¬ value.IsExpressible) : Expr.ofNode? value = none := by
    refine Option.eq_none_iff_forall_ne_some.mpr fun expr code => formless ?_
    exact Expr.exists_ofNode?_iff.mp ⟨expr, code⟩
  unfold Node.Leaves at stays
  split at stays
  · cases args with
    | nil => exact absurd (by simp) stays
    | cons value rest => simp [ofCommand?, none (by simpa using stays)]
  · cases args with
    | nil => rfl
    | cons value rest => simp [ofCommand?, none (by simpa using stays)]
  · exact absurd trivial stays

end Program.Stmt

namespace Program.Engine

variable {engine : Engine}

theorem execAll_append (env : Env engine.Value) (first second : List Stmt) :
    execAll env (first ++ second) = (do execAll env first; execAll env second) := by
  induction first with
  | nil => simp [execAll]
  | cons statement rest ih => simp [execAll, ih]

/-- What the code of statements does. -/
def execCode (env : Env engine.Value) (nodes : List Node) : engine.Effect Unit :=
  execAll env (Stmt.ofNodes nodes)

theorem execCode_cons (env : Env engine.Value) (node : Node) (rest : List Node) :
    execCode env (node :: rest) = (do execCode env [node]; execCode env rest) := by
  simp only [execCode, Stmt.ofNodes, List.append_nil, execAll_append]

theorem execCode_of_none (env : Env engine.Value) {node : Node}
    (none : Stmt.ofNode? node = none) (rest : List Node) :
    execCode env (node :: rest) = execCode env rest := by
  simp [execCode, Stmt.ofNodes, none]

/-- The code of a command that leaves never ends normally. -/
theorem execCode_neverNormal {name : String} (terminator : name ∈ Node.terminators)
    {args : List Node} (leaves : Node.Leaves name args) (target : Option Node)
    (env : Env engine.Value) : (execCode env [.command name args target]).NeverNormal := by
  obtain ⟨statement, code, exit⟩ := Stmt.ofCommand?_of_leaves terminator leaves target
  have single : execCode env [.command name args target] = exec env statement := by
    simp [execCode, Stmt.ofNodes, Stmt.ofNode?, code, execAll]
  rw [single]
  exact Stmt.exec_neverNormal exit env

end Program.Engine

open Engine

namespace Pruning

/-- The code of two nodes is the same where it is a value, and does the same where it is a
statement. -/
structure SameCode (node node' : Node) : Prop where
  value : Expr.ofNode? node = Expr.ofNode? node'
  effect (engine : Engine) (env : Env engine.Value) : execCode env [node] = execCode env [node']

/-- The code of two statement lists does the same. -/
def SameBlocks (nodes nodes' : List Node) : Prop :=
  ∀ (engine : Engine) (env : Env engine.Value), execCode env nodes = execCode env nodes'

theorem SameCode.refl (node : Node) : SameCode node node := ⟨rfl, fun _ _ => rfl⟩

/-- A command uses its target as a value, and asks only whether it is a selector. -/
theorem ofCommand?_congr {target target' : Option Node} (same : Option.Rel SameCode target target')
    (name : String) (args : List Node) :
    Stmt.ofCommand? name args target = Stmt.ofCommand? name args target' := by
  have classes (method : String) :
      Stmt.ofClassCommand? method args target = Stmt.ofClassCommand? method args target' := by
    cases same with
    | none => rfl
    | @some node node' related =>
      by_cases selector : ∃ value cacheKey, node = .selector value cacheKey
      · obtain ⟨value, cacheKey, rfl⟩ := selector
        rw [Expr.ofNode?_eq_elements_iff.mp related.value.symm]
      · have other : ∀ value cacheKey, node' ≠ .selector value cacheKey := by
          rintro value cacheKey rfl
          exact selector ⟨value, cacheKey, Expr.ofNode?_eq_elements_iff.mp related.value⟩
        unfold Stmt.ofClassCommand?
        congr 1
        funext className
        split
        next => contradiction
        next found => exact absurd ⟨_, _, Option.some.inj found⟩ selector
        next found =>
          cases found
          rw [related.value]
  unfold Stmt.ofCommand?
  simp only [classes]

theorem SameCode.of_slotwise {node node' : Node}
    (related : node.Slotwise SameCode SameBlocks Eq node') : SameCode node node' := by
  cases related with
  | leaf => exact .refl node
  | @command name args _ target target' sameArgs inTarget =>
    subst sameArgs
    refine ⟨rfl, fun engine env => ?_⟩
    simp only [execCode, Stmt.ofNodes, Stmt.ofNode?, ofCommand?_congr inTarget]
  | @ifElse condition condition' thenBranch thenBranch' _ _ head inThen inElse =>
    refine ⟨rfl, fun engine env => ?_⟩
    have sameThen := inThen engine env
    unfold execCode at sameThen
    cases inElse with
    | none =>
      simp only [execCode, Stmt.ofNodes, Stmt.ofNode?, head.value]
      cases Expr.ofNode? condition' with
      | none => rfl
      | some condition => simp [execAll, exec, sameThen]
    | some inElse =>
      have sameElse := inElse engine env
      unfold execCode at sameElse
      simp only [execCode, Stmt.ofNodes, Stmt.ofNode?, head.value]
      cases Expr.ofNode? condition' with
      | none => rfl
      | some condition => simp [execAll, exec, sameThen, sameElse]
  | @repeatTimes _ _ body body' inCount inBody =>
    refine ⟨rfl, fun engine env => ?_⟩
    have sameBody (env : Env engine.Value) := inBody engine env
    unfold execCode at sameBody
    cases inCount with
    | none => simp [execCode, Stmt.ofNodes, Stmt.ofNode?, execAll, exec, sameBody]
    | @some _ count' head =>
      simp only [execCode, Stmt.ofNodes, Stmt.ofNode?, head.value]
      cases Expr.ofNode? count' with
      | none => rfl
      | some count => simp [execAll, exec, sameBody]
  | @forEach itemName _ collection' body body' head inBody =>
    refine ⟨rfl, fun engine env => ?_⟩
    have sameBody (env : Env engine.Value) := inBody engine env
    unfold execCode at sameBody
    simp only [execCode, Stmt.ofNodes, Stmt.ofNode?, head.value]
    cases Expr.ofNode? collection' with
    | none => rfl
    | some collection => simp [execAll, exec, sameBody]
  | @whileLoop _ condition' body body' head inBody =>
    refine ⟨rfl, fun engine env => ?_⟩
    have sameBody := inBody engine env
    unfold execCode at sameBody
    simp only [execCode, Stmt.ofNodes, Stmt.ofNode?, head.value]
    cases Expr.ofNode? condition' with
    | none => rfl
    | some condition => simp [execAll, exec, sameBody]
  | event => exact ⟨rfl, fun _ _ => rfl⟩
  | binary left right =>
    exact ⟨by simp only [Expr.ofNode?, left.value, right.value], fun _ _ => rfl⟩
  | unary operand => exact ⟨by simp only [Expr.ofNode?, operand.value], fun _ _ => rfl⟩
  | member object => exact ⟨by simp only [Expr.ofNode?, object.value], fun _ _ => rfl⟩
  | sequence commands =>
    subst commands
    exact .refl _

/-- Every command that ends its statement list leaves it in the code, too. -/
abbrev AllLeave (node : Node) : Prop :=
  node.Everywhere fun inner => ∀ name args target, inner = .command name args target →
    name ∈ Node.terminators → Node.Leaves name args

/-- Behind a command that leaves, nothing of the code is reached. -/
theorem sameBlocks_of_leaves {name : String} (terminator : name ∈ Node.terminators)
    {args : List Node} (leaves : Node.Leaves name args) (target : Option Node) (rest : List Node) :
    SameBlocks (.command name args target :: rest) [.command name args target] := by
  intro engine env
  have abrupt := execCode_neverNormal terminator leaves target env
  rw [execCode_cons, ← bind_pure (execCode env [Node.command name args target])]
  simp only [bind_assoc]
  exact abrupt.bind_eq _ _

theorem sameBlocks_cut {statement : Node} (terminator : statement.isTerminator = true)
    (leaves : AllLeave statement) (rest : List Node) :
    SameBlocks (statement :: rest) [statement] := by
  cases statement with
  | command name args target =>
    have listed : name ∈ Node.terminators := List.contains_iff_mem.mp terminator
    have first := (Node.everywhere_iff.mp leaves).1 name args target rfl listed
    exact sameBlocks_of_leaves listed first target rest
  | _ => cases terminator

theorem sameBlocks_block (statements : List Node) (each : ∀ statement ∈ statements,
    AllLeave statement ∧ SameCode statement (revision.node statement).value) :
    SameBlocks statements (revision.block statements).value := by
  induction statements with
  | nil => exact fun _ _ => rfl
  | cons statement rest ih =>
    obtain ⟨⟨leaves, same⟩, others⟩ := List.forall_mem_cons.mp each
    intro engine env
    rw [Revision.value_block_cons]
    split
    next ended =>
      have root : Node.SameRoot statement (revision.node statement).value := by
        rw [Revision.node_eq]
        exact Revision.slotwise (fun _ _ => trivial) (fun _ _ => trivial) _ fun _ _ => trivial
      have terminator : statement.isTerminator = true := root.isTerminator.symm.trans ended
      rw [sameBlocks_cut terminator leaves rest engine env, same.effect engine env]
    next =>
      rw [execCode_cons, same.effect engine env, ih others engine env, ← execCode_cons]

/-- A pruned script has code that does the same as the code of the script. -/
theorem sameCode_pruned (tree : Node) (leaves : AllLeave tree) :
    SameCode tree (revision.node tree).value := by
  induction tree using Node.childInduction with
  | parent tree ih =>
    have slots : tree.Slotwise (fun node node' => AllLeave node ∧ SameCode node node') SameBlocks Eq
        (tree.mapSlots revision.node revision.block revision.list).value :=
      Revision.slotwise sameBlocks_block (fun items _ => (value_list items).symm) tree
        fun child member => ⟨leaves.child member, ih child member (leaves.child member)⟩
    rw [Revision.node_eq]
    exact .of_slotwise (slots.imp (fun _ _ both => both.2) (fun _ _ same => same) fun _ _ => id)

/-- Nothing of what follows a command can be reached in the code exactly if it leaves. -/
theorem forall_sameBlocks_iff {name : String} (terminator : name ∈ Node.terminators)
    {args : List Node} {target : Option Node} :
    (∀ rest, SameBlocks (.command name args target :: rest) [.command name args target]) ↔
      Node.Leaves name args := by
  constructor
  · intro same
    by_contra stays
    -- The command has no code, so a command behind it that leaves is reached.
    have none : Stmt.ofNode? (.command name args target) = none :=
      Stmt.ofCommand?_of_not_leaves stays target
    have behind := same [.command "halt" [] .none] page []
    rw [execCode_of_none [] none, execCode_of_none [] none] at behind
    have abrupt := @execCode_neverNormal page "halt" (by decide) [] trivial .none []
    have start : page.State := page.starting { elements := [], hasClass := fun _ _ => false } ()
    refine abrupt start () start ?_
    rw [behind]
    exact ⟨rfl, rfl⟩
  · exact fun leaves => sameBlocks_of_leaves terminator leaves target

/-- The code of a command that ends its statement list is one `throw` or `return` statement if
the argument it needs has a form as an expression, and there is no code otherwise; and the first
case is exactly the one in which nothing behind the command can be reached in the code. If no
command of a handler is of the second kind, the pruned handler has code that does the same. -/
theorem exits_agree_iff {name : String} (terminator : name ∈ Node.terminators) (args : List Node)
    (target : Option Node) (facts : Facts) (event : String) (modifiers : Modifiers)
    (body : List Node) :
    ((∃ statement : Stmt, statement.isExit = true ∧
        (Statement.command name args target).value = some statement.render) ↔
      Node.Leaves name args) ∧
    (¬ Node.Leaves name args → (Statement.command name args target).value = none) ∧
    (Expr.NamesKeys (.command name args target) →
      ∀ code ∈ (Statement.command name args target).value, IsExit code) ∧
    ((∀ rest, SameBlocks (.command name args target :: rest) [.command name args target]) ↔
      Node.Leaves name args) ∧
    ((∀ statement ∈ body, AllLeave statement) →
      ∃ body', (Pass.deadCodeElimination.transform facts (.event event modifiers body)).value =
        .event event modifiers body' ∧ SameBlocks body body') := by
  have text := Stmt.render_ofCommand? name args target
  refine ⟨⟨?_, ?_⟩, ?_, ?_, forall_sameBlocks_iff terminator, ?_⟩
  · rintro ⟨statement, -, code⟩
    by_contra stays
    rw [← text, Stmt.ofCommand?_of_not_leaves stays target] at code
    cases code
  · intro leaves
    obtain ⟨statement, code, exit⟩ := Stmt.ofCommand?_of_leaves terminator leaves target
    exact ⟨statement, exit, by rw [← text, code, Option.map_some]⟩
  · intro stays
    rw [← text, Stmt.ofCommand?_of_not_leaves stays target, Option.map_none]
  · intro named code written
    rw [← text] at written
    obtain ⟨statement, found, rfl⟩ := Option.map_eq_some_iff.mp written
    have leaves : Node.Leaves name args := by
      by_contra stays
      cases found.symm.trans (Stmt.ofCommand?_of_not_leaves stays target)
    obtain ⟨other, same, exit⟩ := Stmt.ofCommand?_of_leaves terminator leaves target
    cases found.symm.trans same
    refine Stmt.isExit_render exit (Stmt.isSpelled_ofCommand? ?_ ?_ found)
    · exact fun node member => named.child (by simp [Node.children, member])
    · exact fun node member => named.child (by simp [Node.children, Option.mem_def.mp member])
  · intro leaves
    refine ⟨(revision.block body).value, rfl, sameBlocks_block body fun statement member => ?_⟩
    exact ⟨leaves statement member, sameCode_pruned statement (leaves statement member)⟩

/-- A value with a form, and one that has none. -/
theorem exits_agree_return :
    (∃ statement : Stmt, statement.isExit = true ∧
      (Statement.command "return" [.unary "-" (.identifier "x")] none).value =
        some statement.render) ∧
    (∀ code ∈ (Statement.command "return" [.unary "-" (.identifier "x")] none).value,
      IsExit code) ∧
    (Statement.command "return" [.unary "~" (.identifier "x")] none).value = none ∧
    ∃ body', (Pass.deadCodeElimination.transform {} (.event "click" {}
        [.command "exit" [] none, .command "log" [] none])).value = .event "click" {} body' ∧
      SameBlocks [.command "exit" [] none, .command "log" [] none] body' := by
  have isListed : "return" ∈ Node.terminators := by decide
  have form : Node.Leaves "return" [.unary "-" (.identifier "x")] := by
    rintro value ⟨⟩
    exact List.forall_mem_cons.mpr ⟨by decide, List.forall_mem_singleton.mpr (by decide)⟩
  have formless : ¬ Node.Leaves "return" [.unary "~" (.identifier "x")] := by
    intro leaves
    exact absurd ((Node.isExpressible_iff.mp (leaves _ rfl)).1) (by decide)
  obtain ⟨emitted, -, single, -, pruned⟩ :=
    exits_agree_iff isListed [.unary "-" (.identifier "x")] none {} "click" {}
      [.command "exit" [] none, .command "log" [] none]
  obtain ⟨-, nothing, -⟩ :=
    exits_agree_iff isListed [.unary "~" (.identifier "x")] none {} "click" {} []
  refine ⟨emitted.mpr form, single ?_, nothing formless, pruned ?_⟩
  · intro value cacheKey inside
    simp [Node.subtree, Node.subtrees, Node.subtree?] at inside
  · intro statement member inner inside name args target same listed
    simp only [List.mem_cons, List.not_mem_nil, or_false] at member
    obtain rfl | rfl := member
    · simp only [Node.subtree, Node.subtrees, Node.subtree?, List.append_nil,
        List.mem_singleton] at inside
      cases inside.symm.trans same
      trivial
    · simp only [Node.subtree, Node.subtrees, Node.subtree?, List.append_nil,
        List.mem_singleton] at inside
      cases inside.symm.trans same
      exact absurd listed (by decide)

/-- A `throw` without a value is dropped from the code, and what follows it is dropped from the
script. -/
theorem cut_behind_bareThrow :
    (Node.command "throw" [] none).isTerminator = true ∧
    (Statement.command "throw" [] none).value = none ∧
    (Statement.body [.command "throw" [] none,
      .command "log" [.literal (.string "reached")] none]).value =
        "console.log(\"reached\");" ∧
    (Statement.body (revision.block [.command "throw" [] none,
      .command "log" [.literal (.string "reached")] none]).value).value = "" := by
  decide +kernel

end Pruning
end Hyperscript
