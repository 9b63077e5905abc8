import Hyperscript.Compile.Compiler
import Hyperscript.Proofs.Optimization.Caching
import Hyperscript.Proofs.Program.LoopIndex

/-! What statements without code leave behind. Code is asked for from left to right, and where
some part has none the rest is left alone; but a selector that was met before then has its
variable already. So a statement without code leaves no trace exactly if no such selector is
among the operands up to the first without code, and only from there do the variables of a
handler come that nothing reads. -/
namespace Hyperscript

namespace Node

/-- The parts that the code of an expression is made of. -/
def parts : Node → List Node
  | .binary _ left right => [left, right]
  | .unary _ operand => [operand]
  | .member object _ => [object]
  | _ => []

/-- The arguments have the shape that the command asks for: a class to change, or a variable
to set and its value. -/
def fits (name : String) (args : List Node) : Bool :=
  match name with
  | "add" | "remove" | "toggle" => (Statement.className? args).isSome
  | "set" =>
    match args with
    | [.variableRef _, _] => true
    | _ => false
  | _ => true

/-- The expressions that a statement needs code for, in order. -/
def asked : Node → List Node
  | .command name args target =>
    if fits name args then Program.commandOperands name args target else []
  | .ifElse condition _ _ | .whileLoop condition _ => [condition]
  | .repeatTimes count _ => count.toList
  | .forEach _ collection _ => [collection]
  | _ => []

end Node

namespace Program

/-- The expressions that code is asked for, of some in order and of their parts: all those in
front of the first without code, and that one. -/
inductive Asked : List Node → Node → Prop where
  | first {node rest} : Asked (node :: rest) node
  | inside {node rest other} : Asked node.parts other → Asked (node :: rest) other
  | later {node rest other} : (Expr.ofNode? node).isSome → Asked rest other →
      Asked (node :: rest) other

theorem not_asked_nil {node : Node} : ¬ Asked [] node := nofun

theorem asked_cons_iff {node other : Node} {rest : List Node} :
    Asked (node :: rest) other ↔
      other = node ∨ Asked node.parts other ∨ (Expr.ofNode? node).isSome ∧ Asked rest other := by
  constructor
  · intro asked
    cases asked with
    | first => exact .inl rfl
    | inside within => exact .inr (.inl within)
    | later code after => exact .inr (.inr ⟨code, after⟩)
  · rintro (rfl | within | ⟨code, after⟩)
    · exact .first
    · exact .inside within
    · exact .later code after

theorem asked_single_iff {node other : Node} :
    Asked [node] other ↔ other = node ∨ Asked node.parts other := by
  simp only [asked_cons_iff, not_asked_nil, and_false, or_false]

theorem asked_cons_iff_single {node other : Node} {rest : List Node} :
    Asked (node :: rest) other ↔
      Asked [node] other ∨ (Expr.ofNode? node).isSome ∧ Asked rest other := by
  rw [asked_cons_iff, asked_single_iff, or_assoc]

/-- A statement that code is asked for: it is in a block of a statement with code, up to the
roots. -/
inductive Reached (roots : List Node) : Node → Prop where
  | root {node} : node ∈ roots → Reached roots node
  | body {parent node} : Reached roots parent → (Stmt.ofNode? parent).isSome →
      node ∈ parent.bodies → Reached roots node

/-- What is read where something follows only behind code. -/
theorem mem_reads_andThen {node : Node} {next : Option String → Emission β}
    {inner : List (String × String)} (stop : (next none).reads = [])
    (goOn : ∀ code, (next (some code)).reads = inner) (read : String × String) :
    read ∈ (Expression.generate node >>= next).reads ↔
      read ∈ (Expression.generate node).reads ∨ (Expr.ofNode? node).isSome ∧ read ∈ inner := by
  rw [Emission.reads_bind, List.mem_append, Expr.value_generate]
  cases Expr.ofNode? node <;> simp [stop, goOn]

variable {key selector : String}

/-- The reads of an expression are the selectors with keys that code is asked for. -/
theorem mem_reads_expression {node : Node} :
    (key, selector) ∈ (Expression.generate node).reads ↔
      Asked [node] (.selector selector (some key)) := by
  induction node using Node.childInduction with
  | parent node ih =>
    rw [asked_single_iff]
    cases node with
    | selector value cacheKey =>
      cases cacheKey with
      | none =>
        have silent : (Expression.generate (.selector value none)).reads = [] := rfl
        simp [silent, Node.parts, not_asked_nil]
      | some name =>
        have reads : (Expression.generate (.selector value (some name))).reads = [(name, value)] :=
          rfl
        simp [reads, Node.parts, not_asked_nil, and_comm]
    | binary operator left right =>
      have first := ih left (by simp [Node.children])
      have second := ih right (by simp [Node.children])
      rw [Expression.generate, mem_reads_andThen (by rfl) fun text =>
        reads_followed fun code => by cases code <;> rfl, first, second, ← asked_cons_iff_single]
      exact (or_iff_right Node.noConfusion).symm
    | unary operator operand =>
      have inner := ih operand (by simp [Node.children])
      have reads : (Expression.generate (.unary operator operand)).reads =
          (Expression.generate operand).reads :=
        reads_followed fun code => by cases code <;> rfl
      rw [reads, inner]
      exact (or_iff_right Node.noConfusion).symm
    | member object property =>
      have inner := ih object (by simp [Node.children])
      have reads : (Expression.generate (.member object property)).reads =
          (Expression.generate object).reads :=
        reads_followed fun code => by cases code <;> rfl
      rw [reads, inner]
      exact (or_iff_right Node.noConfusion).symm
    | _ => simp [Expression.generate, Node.parts, not_asked_nil]

theorem mem_reads_expressions {nodes : List Node} :
    (key, selector) ∈ (Expression.generateAll nodes).reads ↔
      Asked nodes (.selector selector (some key)) := by
  induction nodes with
  | nil => simp [Expression.generateAll, not_asked_nil]
  | cons node rest ih =>
    rw [Expression.generateAll, mem_reads_andThen (by rfl) fun text =>
      reads_followed fun codes => by cases codes <;> rfl, mem_reads_expression, ih,
      ← asked_cons_iff_single]

theorem mem_reads_classCommand {method : String} {args : List Node} {target : Option Node} :
    (key, selector) ∈ (Statement.classCommand method args target).reads ↔
      Asked (if (Statement.className? args).isSome then target.toList else [])
        (.selector selector (some key)) := by
  fun_cases Statement.classCommand method args target <;> simp only [*]
  case case1 | case2 => exact iff_of_false List.not_mem_nil not_asked_nil
  case case3 value cacheKey =>
    have elements : (Expression.elements value cacheKey).reads =
        (Expression.generate (.selector value cacheKey)).reads :=
      (reads_followed fun _ => rfl).symm
    rw [reads_followed fun _ => rfl, elements]
    exact mem_reads_expression
  case case4 target _ =>
    rw [reads_followed fun code => by cases code <;> rfl]
    exact mem_reads_expression

/-- A command reads the selectors with keys among what it asks code for. -/
theorem mem_reads_command {name : String} {args : List Node} {target : Option Node} :
    (key, selector) ∈ (Statement.command name args target).reads ↔
      Asked (Node.command name args target).asked (.selector selector (some key)) := by
  fun_cases Statement.command name args target
  case case1 | case2 | case3 | case5 | case13 =>
    exact iff_of_false List.not_mem_nil not_asked_nil
  case case4 | case6 | case14 =>
    rw [reads_followed fun code => by cases code <;> rfl]
    exact mem_reads_expression
  case case7 =>
    rw [reads_followed fun codes => by cases codes <;> rfl]
    exact mem_reads_expressions
  case case8 | case9 | case10 => exact mem_reads_classCommand
  case case11 place value =>
    rw [mem_reads_andThen (by rfl) fun text => reads_followed fun code => by cases code <;> rfl,
      mem_reads_expression, mem_reads_expression, ← asked_cons_iff_single]
    rfl
  case case12 other =>
    have misfit : Node.fits "set" args = false := by simp only [Node.fits]
    rw [Node.asked, if_neg (by simp [misfit])]
    exact iff_of_false List.not_mem_nil not_asked_nil
  case case15 =>
    have none : commandOperands name args target = [] := by simp_all [commandOperands]
    rw [Node.asked, none, ite_self]
    exact iff_of_false List.not_mem_nil not_asked_nil

theorem reads_block (nodes : List Node) :
    (Statement.generateAll nodes).reads = nodes.flatMap fun node => (Statement.generate node).reads := by
  induction nodes with
  | nil => rfl
  | cons node rest ih =>
    rw [Statement.generateAll, Emission.reads_bind, reads_followed fun _ => rfl, ih,
      List.flatMap_cons]

/-- A statement reads the selectors with keys among what it asks code for, and where it has code
what the statements in its blocks read. -/
theorem mem_reads_statement {node : Node} :
    (key, selector) ∈ (Statement.generate node).reads ↔
      Asked node.asked (.selector selector (some key)) ∨
        (Stmt.ofNode? node).isSome ∧
          ∃ child ∈ node.bodies, (key, selector) ∈ (Statement.generate child).reads := by
  -- A statement with a head, and with blocks behind it.
  have headed {head : Node} {bodies : List Node} {next : Option String → Emission (Option String)}
      (statement : Expr → Stmt) (stop : (next none).reads = [])
      (goOn : ∀ code, (next (some code)).reads =
        bodies.flatMap fun child => (Statement.generate child).reads) :
      (key, selector) ∈ (Expression.generate head >>= next).reads ↔
        Asked [head] (.selector selector (some key)) ∨
          (do return statement (← Expr.ofNode? head) : Option Stmt).isSome ∧
            ∃ child ∈ bodies, (key, selector) ∈ (Statement.generate child).reads := by
    rw [mem_reads_andThen stop goOn, mem_reads_expression, List.mem_flatMap]
    cases Expr.ofNode? head <;> simp
  have block (body : List Node) : (Text.joinLines <$> Statement.generateAll body).reads =
      body.flatMap fun child => (Statement.generate child).reads :=
    (reads_followed fun _ => rfl).trans (reads_block body)
  have following (body : List Node) (finish : String → Option String) :
      ((do return finish (← Text.joinLines <$> Statement.generateAll body)) :
        Emission (Option String)).reads =
          body.flatMap fun child => (Statement.generate child).reads :=
    (reads_followed fun _ => rfl).trans (block body)
  cases node with
  | command name args target =>
    rw [Statement.generate, reads_followed fun code => by cases code <;> rfl, mem_reads_command]
    simp [Node.bodies]
  | ifElse condition thenBranch elseBranch =>
    cases elseBranch with
    | none =>
      simp only [Node.bodies, Option.getD_none, List.append_nil]
      exact headed (.branch · (Stmt.ofNodes thenBranch) none) rfl fun code => following thenBranch _
    | some elseBranch =>
      refine headed (.branch · (Stmt.ofNodes thenBranch) (some (Stmt.ofNodes elseBranch))) rfl
        fun code => ?_
      rw [Emission.reads_bind, block, following, ← List.flatMap_append]
      rfl
  | repeatTimes count body =>
    cases count with
    | none =>
      rw [Statement.generate, following, List.mem_flatMap]
      simp [Node.asked, not_asked_nil, Stmt.ofNode?, Node.bodies]
    | some count => exact headed _ rfl fun code => following body _
  | forEach itemName collection body => exact headed _ rfl fun code => following body _
  | whileLoop condition body => exact headed _ rfl fun code => following body _
  | sequence commands unrolled =>
    rw [Statement.generate, following, List.mem_flatMap]
    simp [Node.asked, not_asked_nil, Stmt.ofNode?, Node.bodies]
  | _ =>
    refine iff_of_false List.not_mem_nil ?_
    simp [Node.asked, not_asked_nil, Stmt.ofNode?]

/-- The code of an expression uses what the code of its parts uses. -/
theorem exists_parts {node : Node} {expr : Expr} (code : Expr.ofNode? node = some expr) :
    ∃ exprs, node.parts.mapM Expr.ofNode? = some exprs ∧ exprs.flatMap Expr.uses ⊆ expr.uses := by
  cases Expr.nodeCode_ofNode? code with
  | @concat _ _ _ left right _ leftCode rightCode
  | @binary _ _ _ _ _ left right _ _ leftCode rightCode =>
    exact ⟨[left, right], by simp [Node.parts, leftCode, rightCode], by simp [Expr.uses]⟩
  | @unary _ _ _ operand _ operandCode =>
    exact ⟨[operand], by simp [Node.parts, operandCode], by simp [Expr.uses]⟩
  | @dot _ _ object _ objectCode | @subscript _ _ object _ objectCode =>
    exact ⟨[object], by simp [Node.parts, objectCode], by simp [Expr.uses]⟩
  | _ => exact ⟨[], rfl, List.nil_subset _⟩

/-- Where all have code, it uses every selector that was met. -/
theorem uses_of_asked {nodes : List Node} {exprs : List Expr}
    (codes : nodes.mapM Expr.ofNode? = some exprs)
    (asked : Asked nodes (.selector selector (some key))) :
    (selector, some key) ∈ exprs.flatMap Expr.uses := by
  generalize same : Node.selector selector (some key) = node at asked
  induction asked generalizing exprs with
  | @first head rest =>
    subst same
    rw [List.mapM_cons] at codes
    obtain ⟨expr, code, codes⟩ := Option.bind_eq_some_iff.mp codes
    obtain ⟨others, _, codes⟩ := Option.bind_eq_some_iff.mp codes
    cases code
    cases codes
    simp [Expr.uses]
  | @inside head rest other within ih =>
    rw [List.mapM_cons] at codes
    obtain ⟨expr, code, codes⟩ := Option.bind_eq_some_iff.mp codes
    obtain ⟨others, _, codes⟩ := Option.bind_eq_some_iff.mp codes
    cases codes
    obtain ⟨parts, partCodes, subset⟩ := exists_parts code
    rw [List.flatMap_cons]
    exact List.mem_append_left _ (subset (ih partCodes same))
  | @later head rest other _ after ih =>
    rw [List.mapM_cons] at codes
    obtain ⟨expr, _, codes⟩ := Option.bind_eq_some_iff.mp codes
    obtain ⟨others, restCodes, codes⟩ := Option.bind_eq_some_iff.mp codes
    cases codes
    rw [List.flatMap_cons]
    exact List.mem_append_right _ (ih restCodes same)

theorem exists_asked_command {name : String} {args : List Node} {target : Option Node}
    {statement : Stmt} (code : Stmt.ofCommand? name args target = some statement) :
    ∃ exprs, (Node.command name args target).asked.mapM Expr.ofNode? = some exprs ∧
      exprs.flatMap Expr.uses ⊆ statement.uses := by
  have onTarget {method : String} (known : method ∈ ["add", "remove", "toggle"]) :
      (Node.command method args target).asked =
        if Node.fits method args then target.toList else [] := by
    rw [Node.asked, commandOperands_class known]
  have single {node : Node} {expr : Expr} (operand : Expr.ofNode? node = some expr)
      (subset : expr.uses ⊆ statement.uses) : ∃ exprs, [node].mapM Expr.ofNode? = some exprs ∧
        exprs.flatMap Expr.uses ⊆ statement.uses :=
    ⟨[expr], by simp [operand], by simpa using subset⟩
  have nothing : ∃ exprs, [].mapM Expr.ofNode? = some exprs ∧
      exprs.flatMap Expr.uses ⊆ statement.uses := ⟨[], rfl, List.nil_subset _⟩
  cases Stmt.commandCode_ofCommand? code with
  | halt | exit | leave => exact nothing
  | leaveWith operand | throwValue operand | wait operand =>
    exact single operand (by simp [Stmt.uses, Stmt.parts, Stmt.Part.uses])
  | @log _ _ exprs operands =>
    refine ⟨exprs, operands, ?_⟩
    simp [Stmt.uses, Stmt.parts, List.flatMap_map, Stmt.Part.uses]
  | changeOwnClass known =>
    rw [onTarget known, Option.toList_none, ite_self]
    exact nothing
  | changeClasses known =>
    rw [onTarget known]
    split
    · exact single rfl (by simp [Stmt.uses, Stmt.parts, Stmt.Part.uses])
    · exact nothing
  | changeClass known operand =>
    rw [onTarget known]
    split
    · exact single operand (by simp [Stmt.uses, Stmt.parts, Stmt.Part.uses])
    · exact nothing
  | @setIndex place value _ expr index operand =>
    have placeCode : Expr.ofNode? (.variableRef place) = some (.variableRef Names.indexVar) := by
      rw [Expr.ofNode?, if_pos index]
    refine ⟨[.variableRef Names.indexVar, expr], ?_, ?_⟩
    · change [Node.variableRef place, value].mapM Expr.ofNode? = _
      simp [placeCode, operand]
    · simp [Stmt.uses, Stmt.parts, Stmt.Part.uses, Expr.uses]
  | @setLocal place value _ expr other operand =>
    have placeCode : Expr.ofNode? (.variableRef place) = some (Expr.localVariable place) := by
      rw [Expr.ofNode?, if_neg (Bool.eq_false_iff.mp other)]
    refine ⟨[Expr.localVariable place, expr], ?_, ?_⟩
    · change [Node.variableRef place, value].mapM Expr.ofNode? = _
      simp [placeCode, operand]
    · simp [Stmt.uses, Stmt.parts, Stmt.Part.uses, Expr.uses, Expr.localVariable, Expr.context]

/-- The code of a statement uses what the code of all that it asks for uses. -/
theorem exists_asked {node : Node} {statement : Stmt} (code : Stmt.ofNode? node = some statement) :
    ∃ exprs, node.asked.mapM Expr.ofNode? = some exprs ∧
      exprs.flatMap Expr.uses ⊆ statement.uses := by
  have headed {head : Node} {make : Expr → Stmt}
      (code : (do return make (← Expr.ofNode? head)) = some statement)
      (subset : ∀ expr, expr.uses ⊆ (make expr).uses) :
      ∃ exprs, [head].mapM Expr.ofNode? = some exprs ∧
        exprs.flatMap Expr.uses ⊆ statement.uses := by
    obtain ⟨expr, headCode, code⟩ := Option.bind_eq_some_iff.mp code
    cases code
    exact ⟨[expr], by simp [headCode], by simpa using subset expr⟩
  have nothing : ∃ exprs, [].mapM Expr.ofNode? = some exprs ∧
      exprs.flatMap Expr.uses ⊆ statement.uses := ⟨[], rfl, List.nil_subset _⟩
  cases node with
  | command name args target => exact exists_asked_command code
  | ifElse condition thenBranch elseBranch =>
    cases elseBranch <;> exact headed code fun expr => by simp [Stmt.uses, Stmt.parts, Stmt.Part.uses]
  | repeatTimes count body =>
    cases count with
    | none => exact nothing
    | some count => exact headed code fun expr => by simp [Stmt.uses, Stmt.parts, Stmt.Part.uses]
  | forEach | whileLoop =>
    exact headed code fun expr => by simp [Stmt.uses, Stmt.parts, Stmt.Part.uses]
  | sequence => exact nothing
  | _ => cases code

theorem ofNodes_append (first second : List Node) :
    Stmt.ofNodes (first ++ second) = Stmt.ofNodes first ++ Stmt.ofNodes second := by
  induction first with
  | nil => rfl
  | cons node rest ih => simp only [List.cons_append, Stmt.ofNodes, ih, List.append_assoc]

/-- The code of a statement uses what the statements in its blocks use. -/
theorem uses_bodies {node : Node} {statement : Stmt} (code : Stmt.ofNode? node = some statement) :
    Stmt.usesAll (Stmt.ofNodes node.bodies) ⊆ statement.uses := by
  cases node with
  | ifElse condition thenBranch elseBranch =>
    cases elseBranch with
    | none =>
      obtain ⟨expr, _, code⟩ := Option.bind_eq_some_iff.mp code
      cases code
      simp [Node.bodies, Stmt.uses, Stmt.usesAll, Stmt.parts]
    | some elseBranch =>
      obtain ⟨expr, _, code⟩ := Option.bind_eq_some_iff.mp code
      cases code
      simp [Node.bodies, ofNodes_append, Stmt.uses, Stmt.usesAll, Stmt.parts, Stmt.partsAll_append]
  | repeatTimes count body =>
    cases count with
    | none =>
      cases code
      exact List.Subset.refl _
    | some count =>
      obtain ⟨expr, _, code⟩ := Option.bind_eq_some_iff.mp code
      cases code
      simp [Node.bodies, Stmt.uses, Stmt.usesAll, Stmt.parts]
  | forEach | whileLoop =>
    obtain ⟨expr, _, code⟩ := Option.bind_eq_some_iff.mp code
    cases code
    simp [Node.bodies, Stmt.uses, Stmt.usesAll, Stmt.parts, Stmt.Part.uses]
  | sequence =>
    cases code
    exact List.Subset.refl _
  | event => cases code
  | _ => exact List.nil_subset _

theorem uses_subset_usesAll {nodes : List Node} {node : Node} {statement : Stmt}
    (member : node ∈ nodes) (code : Stmt.ofNode? node = some statement) :
    statement.uses ⊆ Stmt.usesAll (Stmt.ofNodes nodes) := by
  induction nodes with
  | nil => cases member
  | cons first rest ih =>
    rw [Stmt.ofNodes, Stmt.usesAll, Stmt.partsAll_append, List.flatMap_append]
    rcases List.mem_cons.mp member with rfl | inRest
    · apply List.subset_append_of_subset_left
      simp [code, Stmt.partsAll, Stmt.uses]
    · exact List.subset_append_of_subset_right _ (ih inRest)

namespace Reached

variable {roots : List Node} {node : Node}

theorem uses_subset (reached : Reached roots node) {statement : Stmt}
    (code : Stmt.ofNode? node = some statement) :
    statement.uses ⊆ Stmt.usesAll (Stmt.ofNodes roots) := by
  induction reached generalizing statement with
  | root member => exact uses_subset_usesAll member code
  | body outside hasCode member ih =>
    obtain ⟨whole, outer⟩ := Option.isSome_iff_exists.mp hasCode
    exact List.Subset.trans (uses_subset_usesAll member code) <|
      List.Subset.trans (uses_bodies outer) (ih outer)

theorem reads_subset (reached : Reached roots node)
    (read : (key, selector) ∈ (Statement.generate node).reads) :
    (key, selector) ∈ (Statement.generateAll roots).reads := by
  induction reached with
  | root member =>
    rw [reads_block]
    exact List.mem_flatMap.mpr ⟨_, member, read⟩
  | body outside hasCode member ih =>
    exact ih (mem_reads_statement.mpr (.inr ⟨hasCode, _, member, read⟩))

/-- Where no root has blocks, only the roots are reached. -/
theorem mem_of_flat (flat : ∀ root ∈ roots, root.bodies = []) (reached : Reached roots node) :
    node ∈ roots := by
  induction reached with
  | root member => exact member
  | body _ _ member ih =>
    rw [flat _ ih] at member
    cases member

end Reached

theorem bodies_subset_children (node : Node) : node.bodies ⊆ node.children := by
  cases node <;> simp [Node.bodies, Node.children]

/-- Every read of a block is of an operand of a statement in it. -/
theorem mem_reads_iff_reached {roots : List Node} :
    (key, selector) ∈ (Statement.generateAll roots).reads ↔
      ∃ statement, Reached roots statement ∧
        Asked statement.asked (.selector selector (some key)) := by
  have beneath (node : Node) (reached : Reached roots node)
      (read : (key, selector) ∈ (Statement.generate node).reads) :
      ∃ statement, Reached roots statement ∧
        Asked statement.asked (.selector selector (some key)) := by
    induction node using Node.childInduction with
    | parent node ih =>
      rcases mem_reads_statement.mp read with own | ⟨code, child, member, inside⟩
      · exact ⟨node, reached, own⟩
      · exact ih child (bodies_subset_children node member) (reached.body code member) inside
  constructor
  · intro read
    rw [reads_block] at read
    obtain ⟨root, member, read⟩ := List.mem_flatMap.mp read
    exact beneath root (.root member) read
  · rintro ⟨statement, reached, asked⟩
    exact reached.reads_subset (mem_reads_statement.mpr (.inl asked))

theorem mem_keys_iff {entries : List (String × String)} :
    key ∈ entries.map Prod.fst ↔ (entries.lookup key).isSome := by
  rw [List.lookup_isSome_iff, List.mem_map]
  exact exists_congr fun entry => and_congr_right fun _ => eq_comm.trans beq_iff_eq.symm

theorem mem_keys_cacheAll {context : Context} {reads : List (String × String)} :
    key ∈ (context.cacheAll reads).cached.map Prod.fst ↔
      key ∈ context.cached.map Prod.fst ∨ key ∈ reads.map Prod.fst := by
  simp only [mem_keys_iff, Caching.lookup_cacheAll, Option.isSome_or, Bool.or_eq_true]

/-- Reads through variables that are there leave the context as it is. -/
theorem cacheAll_eq_self {context : Context} {reads : List (String × String)}
    (known : ∀ read ∈ reads, read.1 ∈ context.cached.map Prod.fst) :
    context.cacheAll reads = context := by
  induction reads with
  | nil => rfl
  | cons read rest ih =>
    obtain ⟨first, others⟩ := List.forall_mem_cons.mp known
    have unchanged : context.cacheSelector read.1 read.2 = context := if_pos (mem_keys_iff.mp first)
    change (context.cacheSelector read.1 read.2).cacheAll rest = context
    rw [unchanged]
    exact ih others

/-- Reads leave the variables as they are exactly if all of theirs are there. -/
theorem cached_cacheAll_eq_iff {context : Context} {reads : List (String × String)} :
    (context.cacheAll reads).cached = context.cached ↔
      ∀ read ∈ reads, read.1 ∈ context.cached.map Prod.fst := by
  constructor
  · intro same read member
    rw [← same, mem_keys_cacheAll]
    exact .inr (List.mem_map_of_mem member)
  · intro known
    rw [cacheAll_eq_self known]

/-- A variable that code reads in place of a selector. -/
def IsUsed (statements : List Stmt) (key : String) : Prop :=
  ∃ selector, (selector, some key) ∈ Stmt.usesAll statements

/-- What statements without code leave behind. Such a statement changes no variable exactly if
every selector with a key that it asks code for, up to the first operand or part without code,
has its variable already. In the code of a handler, every variable that is declared is read in
the body exactly if this holds of those that the context had from before, and of those that
belong to the operands of statements without code. -/
theorem traces_iff (statement : Node) (handler : Handler) (facts : Facts) (context : Context) :
    ((Statement.generate statement).value = none →
      (((Statement.generate statement).run context).cached = context.cached ↔
        ∀ selector key, Asked statement.asked (.selector selector (some key)) →
          key ∈ context.cached.map Prod.fst)) ∧
    let function := Function.ofHandler handler facts context
    (GeneratedHandler.generate handler facts context).1.handlerCode = function.render ∧
    ((∀ key ∈ function.declarations.map Prod.fst, IsUsed function.body key) ↔
      (∀ key ∈ context.cached.map Prod.fst, IsUsed function.body key) ∧
      ∀ statement selector key, Reached handler.body statement →
        (Statement.generate statement).value = none →
        Asked statement.asked (.selector selector (some key)) → IsUsed function.body key) := by
  have codeless {statement : Node} :
      (Statement.generate statement).value = none ↔ Stmt.ofNode? statement = none := by
    rw [Stmt.value_generate, Option.map_eq_none_iff]
  constructor
  · intro silent
    have reads (key selector : String) : (key, selector) ∈ (Statement.generate statement).reads ↔
        Asked statement.asked (.selector selector (some key)) := by
      rw [mem_reads_statement, codeless.mp silent]
      simp
    rw [Emission.run, cached_cacheAll_eq_iff, Prod.forall]
    simp only [reads]
    exact forall_comm
  · intro function
    refine ⟨Function.render_ofHandler handler facts context, ?_⟩
    have declared (key : String) : key ∈ function.declarations.map Prod.fst ↔
        key ∈ context.cached.map Prod.fst ∨ ∃ statement selector, Reached handler.body statement ∧
          Asked statement.asked (.selector selector (some key)) := by
      have body : (Statement.body handler.body).reads =
          (Statement.generateAll handler.body).reads := reads_followed fun _ => rfl
      change key ∈ (context.cacheAll (Statement.body handler.body).reads).cached.map Prod.fst ↔ _
      rw [mem_keys_cacheAll, body, exists_comm]
      simp [mem_reads_iff_reached]
    constructor
    · intro used
      refine ⟨fun key known => used key ((declared key).mpr (.inl known)), ?_⟩
      intro statement selector key reached _ asked
      exact used key ((declared key).mpr (.inr ⟨statement, selector, reached, asked⟩))
    · rintro ⟨known, strays⟩ key member
      rcases (declared key).mp member with before | ⟨statement, selector, reached, asked⟩
      · exact known key before
      · cases code : Stmt.ofNode? statement with
        | none => exact strays statement selector key reached (codeless.mpr code) asked
        | some whole =>
          obtain ⟨exprs, codes, subset⟩ := exists_asked code
          exact ⟨selector, reached.uses_subset code (subset (uses_of_asked codes asked))⟩

/-- A log of something that has no code, behind other arguments. -/
def brokenLog (args : List Node) : Node := .command "log" (args ++ [.unknown]) none

/-- The selector that the second log leaves behind is read by the first. -/
def repeatedLog : Handler where
  event := "click"
  modifiers := {}
  body :=
    [.command "log" [.selector ".a" (some "_sel__a")] none,
      brokenLog [.selector ".a" (some "_sel__a")]]

theorem traces_repeatedLog :
    (Statement.generate (brokenLog [.selector ".a" none])).value = none ∧
    ((Statement.generate (brokenLog [.selector ".a" none])).run { handlerId := "h" }).cached = [] ∧
    (Function.ofHandler repeatedLog {} { handlerId := "h" }).declarations = [("_sel__a", ".a")] ∧
    ∀ key ∈ (Function.ofHandler repeatedLog {} { handlerId := "h" }).declarations.map Prod.fst,
      IsUsed (Function.ofHandler repeatedLog {} { handlerId := "h" }).body key := by
  obtain ⟨unchanged, _, used⟩ :=
    traces_iff (brokenLog [.selector ".a" none]) repeatedLog {} { handlerId := "h" }
  have silent : (Statement.generate (brokenLog [.selector ".a" none])).value = none := rfl
  refine ⟨silent, (unchanged silent).mpr ?_, rfl, used.mpr ⟨nofun, ?_⟩⟩
  · intro selector key asked
    have asked : Asked [.selector ".a" none, .unknown] (.selector selector (some key)) := asked
    simp [asked_cons_iff, not_asked_nil, Node.parts] at asked
  · intro statement selector key reached silent asked
    have isRoot : statement ∈ repeatedLog.body :=
      reached.mem_of_flat (by simp [repeatedLog, brokenLog, Node.bodies])
    rcases List.mem_pair.mp isRoot with rfl | rfl
    · cases silent
    · have asked : Asked [.selector ".a" (some "_sel__a"), .unknown]
          (.selector selector (some key)) := asked
      simp [asked_cons_iff, not_asked_nil, Node.parts] at asked
      obtain ⟨rfl, rfl⟩ := asked
      exact ⟨".a", List.mem_cons_self⟩

/-- Compiled with caching, a handler whose only statement has no code asks for elements that
nothing reads. -/
theorem stray_variable :
    (Statement.generate (brokenLog [.selector ".a" (some "_sel__a")])).value = none ∧
    ((Statement.generate (brokenLog [.selector ".a" (some "_sel__a")])).run
      { handlerId := "h1" }).cached = [("_sel__a", ".a")] ∧
    (Compiler.compileHandler { options := { effort := .basic } }
        { node := .event "click" {} [brokenLog [.selector ".a" none, .selector ".a" none]] }
        { handlerId := "h" }).toOption.map (·.handler.generated.handlerCode) =
      some ("function _handler_h1(_event) \x7b\n" ++
        "  const _ctx = _rt.createContext(_event, this);\n" ++
        "  const _sel__a = document.querySelectorAll(\".a\");\n\x7d") := by
  refine ⟨rfl, rfl, ?_⟩
  decide +kernel

end Program
end Hyperscript
