import Hyperscript.Proofs.Program.Lowering

/-! Emission and variables. The emission of a script reads exactly such selectors as the
script has, and every selector that the code reads from a variable is among its reads. -/
namespace Hyperscript.Program

theorem reads_followed {first : Emission α} {next : α → Emission β}
    (silent : ∀ value, (next value).reads = []) : (first >>= next).reads = first.reads := by
  rw [Emission.reads_bind, silent, List.append_nil]

variable {p : String → Option String → Prop}

/-- The reads of an emission beside the selectors that its code uses: all of them have
the property, and those that are used through variables are read. -/
structure Reads (p : String → Option String → Prop) (emission : Emission α)
    (uses : List (String × Option String)) : Prop where
  reads : ∀ read ∈ emission.reads, p read.2 (some read.1)
  holds : ∀ use ∈ uses, p use.1 use.2
  used : ∀ use ∈ uses, ∀ key ∈ use.2, (key, use.1) ∈ emission.reads

namespace Reads

theorem silent {emission : Emission α} (nothing : emission.reads = []) : Reads p emission [] := by
  constructor <;> simp [nothing]

theorem bind {first : Emission α} {next : α → Emission β} {uses more : List (String × Option String)}
    (before : Reads p first uses) (after : Reads p (next first.value) more) :
    Reads p (first >>= next) (uses ++ more) where
  reads := by
    simp only [Emission.reads_bind, List.forall_mem_append]
    exact ⟨before.reads, after.reads⟩
  holds := List.forall_mem_append.mpr ⟨before.holds, after.holds⟩
  used := by
    simp only [Emission.reads_bind, List.mem_append]
    rintro use (member | member) key read
    · exact .inl (before.used use member key read)
    · exact .inr (after.used use member key read)

/-- What follows an emission and reads nothing. -/
theorem followed {first : Emission α} {next : α → Emission β}
    {uses : List (String × Option String)} (before : Reads p first uses)
    (silent : ∀ value, (next value).reads = []) : Reads p (first >>= next) uses := by
  have same : (first >>= next).reads = first.reads := reads_followed silent
  exact ⟨same ▸ before.reads, before.holds, same ▸ before.used⟩

theorem weaken {emission : Emission α} {uses fewer : List (String × Option String)}
    (reads : Reads p emission uses) (within : fewer ⊆ uses) : Reads p emission fewer where
  reads := reads.reads
  holds use member := reads.holds use (within member)
  used use member := reads.used use (within member)

/-- An emission that goes on only where there is code so far. -/
theorem andThen {tree? : Option τ} {text : τ → α} {usesOf more : τ → List (String × Option String)}
    {first : Emission (Option α)} {next : Option α → Emission β}
    (value : first.value = tree?.map text) (before : Reads p first (tree?.elim [] usesOf))
    (stop : Reads p (next none) [])
    (after : ∀ tree, Reads p (next (some (text tree))) (more tree)) :
    Reads p (first >>= next) (tree?.elim [] fun tree => usesOf tree ++ more tree) := by
  cases tree? with
  | none => exact before.bind (value ▸ stop)
  | some tree => exact before.bind (value ▸ after tree)

end Reads

namespace Expr

/-- The selectors that the code of an expression uses. -/
def usesOf (node : Node) : List (String × Option String) := (ofNode? node).elim [] uses

theorem uses_ofIdentifier? (name : String) : (ofIdentifier? name).elim [] uses = [] := by
  unfold ofIdentifier?
  split
  case h_9 => split <;> rfl
  all_goals rfl

theorem uses_ofBinary? (operator : String) (left right : Expr) :
    (ofBinary? operator left right).elim [] uses ⊆ left.uses ++ right.uses := by
  unfold ofBinary?
  cases Operator.ofText? operator with
  | none => simp
  | some operator => cases operator <;> simp [Operator.symbol?, uses]

theorem uses_ofUnary? (operator : String) (operand : Expr) :
    (ofUnary? operator operand).elim [] uses ⊆ operand.uses := by
  unfold ofUnary?
  split <;> simp [uses]

theorem uses_ofMember (object : Expr) (property : String) :
    (ofMember object property).uses = object.uses := by
  unfold ofMember
  split <;> rfl

theorem reads_elements {selector : String} {key : Option String} (holds : p selector key) :
    Reads p (Expression.elements selector key) [(selector, key)] := by
  cases key with
  | none =>
    have silent : (Expression.elements selector none).reads = [] := rfl
    exact ⟨by simp [silent], by simpa using holds, by simp⟩
  | some key =>
    have reads : (Expression.elements selector (some key)).reads = [(key, selector)] := rfl
    exact ⟨by simpa [reads] using holds, by simpa using holds, by simp [reads]⟩

/-- The selectors of a script and the code of an expression in it. -/
theorem reads_generate (node : Node) (all : node.Selectors p) :
    Reads p (Expression.generate node) (usesOf node) := by
  induction node using Node.childInduction with
  | parent node ih =>
    cases node with
    | literal => exact .silent rfl
    | identifier name =>
      refine (Reads.silent rfl).weaken ?_
      simp only [usesOf, ofNode?]
      split
      · simp [uses]
      · simp [uses_ofIdentifier?]
    | variableRef name =>
      refine (Reads.silent rfl).weaken ?_
      simp only [usesOf, ofNode?]
      split <;> simp [uses, localVariable, context]
    | selector value cacheKey =>
      exact (reads_elements (all value cacheKey (by simp [Node.subtree]))).followed fun _ => rfl
    | binary operator left right =>
      have first := ih left (by simp [Node.children]) (all.child (by simp [Node.children]))
      have second := ih right (by simp [Node.children]) (all.child (by simp [Node.children]))
      refine (first.andThen (value_generate left) ?_ fun _ => second.followed ?_).weaken ?_
      · exact .silent rfl
      · intro value
        cases value <;> rfl
      simp only [usesOf, ofNode?]
      cases ofNode? left with
      | none => exact List.nil_subset _
      | some inLeft =>
        cases ofNode? right with
        | none => exact List.nil_subset _
        | some inRight => simpa using uses_ofBinary? operator inLeft inRight
    | unary operator operand =>
      have inner := ih operand (by simp [Node.children]) (all.child (by simp [Node.children]))
      refine (inner.followed ?_).weaken ?_
      · intro value
        cases value <;> rfl
      simp only [usesOf, ofNode?]
      cases ofNode? operand with
      | none => exact List.nil_subset _
      | some operand => simpa using uses_ofUnary? operator operand
    | member object property =>
      have inner := ih object (by simp [Node.children]) (all.child (by simp [Node.children]))
      refine (inner.followed ?_).weaken ?_
      · intro value
        cases value <;> rfl
      simp only [usesOf, ofNode?]
      cases ofNode? object with
      | none => exact List.nil_subset _
      | some object => simp [uses_ofMember]
    | _ => exact .silent rfl

theorem reads_generateAll (nodes : List Node) (all : ∀ node ∈ nodes, node.Selectors p) :
    Reads p (Expression.generateAll nodes) ((nodes.mapM ofNode?).elim [] (·.flatMap uses)) := by
  induction nodes with
  | nil => exact .silent rfl
  | cons node rest ih =>
    have first := reads_generate node (all node List.mem_cons_self)
    have others := ih fun other member => all other (List.mem_cons_of_mem _ member)
    refine (first.andThen (value_generate node) ?_ fun _ => others.followed ?_).weaken ?_
    · exact .silent rfl
    · intro value
      cases value <;> rfl
    · simp only [List.mapM_cons]
      cases ofNode? node with
      | none => exact List.nil_subset _
      | some first =>
        cases rest.mapM ofNode? with
        | none => exact List.nil_subset _
        | some others => exact List.Subset.refl _

end Expr

namespace Stmt

def usesOf (node : Node) : List (String × Option String) := (ofNode? node).elim [] uses

theorem reads_classCommand (method : String) (args : List Node) (target : Option Node)
    (all : ∀ node ∈ target, node.Selectors p) :
    Reads p (Statement.classCommand method args target)
      ((ofClassCommand? method args target).elim [] uses) := by
  fun_cases Statement.classCommand method args target <;> simp only [ofClassCommand?, *]
  case case1 | case2 => exact .silent rfl
  case case3 value cacheKey =>
    have isUse := all _ rfl value cacheKey (by simp [Node.subtree])
    exact (Expr.reads_elements isUse).followed fun _ => rfl
  case case4 target _ =>
    refine ((Expr.reads_generate target (all target rfl)).followed ?_).weaken ?_
    · intro code
      cases code <;> rfl
    · cases code : Expr.ofNode? target with
      | none => exact List.nil_subset _
      | some receiver => simp [Expr.usesOf, code, uses, parts, Part.uses]

theorem reads_command (name : String) (args : List Node) (target : Option Node)
    (inArgs : ∀ node ∈ args, node.Selectors p) (inTarget : ∀ node ∈ target, node.Selectors p) :
    Reads p (Statement.command name args target) ((ofCommand? name args target).elim [] uses) := by
  -- Most commands read at most the first of their arguments.
  have firstOnly {value : Node} {rest : List Node} {statement : Expr → Stmt}
      {next : Option String → Emission (Option String)}
      (same : args = value :: rest) (silent : ∀ code, (next code).reads = [])
      (parts : ∀ expr, (statement expr).uses = expr.uses) :
      Reads p (Expression.generate value >>= next)
        ((do return statement (← Expr.ofNode? value) : Option Stmt).elim [] uses) := by
    subst same
    refine ((Expr.reads_generate value (inArgs value List.mem_cons_self)).followed silent).weaken ?_
    cases found : Expr.ofNode? value with
    | none => exact List.nil_subset _
    | some expr => simp [Expr.usesOf, found, parts]
  fun_cases Statement.command name args target <;> simp only [ofCommand?]
  case case4 value rest | case6 value rest | case14 value rest =>
    refine firstOnly rfl ?_ ?_
    · intro code
      cases code <;> rfl
    · simp [uses, parts, Part.uses]
  case case7 =>
    refine ((Expr.reads_generateAll args inArgs).followed ?_).weaken ?_
    · intro codes
      cases codes <;> rfl
    · cases args.mapM Expr.ofNode? with
      | none => exact List.nil_subset _
      | some values => simp [uses, parts, List.flatMap_map, Part.uses]
  case case8 | case9 | case10 => exact reads_classCommand _ args target inTarget
  case case11 place value =>
    have first := Expr.reads_generate _ (inArgs (.variableRef place) (by simp))
    have second := Expr.reads_generate value (inArgs value (by simp))
    refine (first.andThen (Expr.value_generate _) ?_ fun _ => second.followed ?_).weaken ?_
    · exact .silent rfl
    · intro code
      cases code <;> rfl
    · simp only [Expr.ofNode?]
      split <;> cases code : Expr.ofNode? value <;>
        simp [Expr.usesOf, uses, parts, Part.uses, *]
  all_goals exact .silent rfl

theorem reads_generateAll {nodes : List Node}
    (each : ∀ node ∈ nodes, Reads p (Statement.generate node) (usesOf node)) :
    Reads p (Statement.generateAll nodes) (usesAll (ofNodes nodes)) := by
  induction nodes with
  | nil => exact .silent rfl
  | cons node rest ih =>
    have first := each node List.mem_cons_self
    have others := ih fun other member => each other (List.mem_cons_of_mem _ member)
    refine (first.bind (others.followed fun _ => rfl)).weaken ?_
    simp only [usesAll, ofNodes, partsAll_append, List.flatMap_append, usesOf]
    cases ofNode? node <;> simp [partsAll, uses]

/-- A statement with a head and with code inside. -/
theorem reads_headed {head : Node} {next : Option String → Emission (Option String)}
    {statement : Expr → Stmt} {inside : List (String × Option String)}
    (first : Reads p (Expression.generate head) (Expr.usesOf head)) (stop : (next none).reads = [])
    (second : ∀ code, Reads p (next (some code)) inside)
    (uses_eq : ∀ expr, (statement expr).uses = expr.uses ++ inside) :
    Reads p (Expression.generate head >>= next)
      ((do return statement (← Expr.ofNode? head) : Option Stmt).elim [] uses) := by
  have reads := first.andThen (Expr.value_generate head) (.silent stop) fun expr =>
    second expr.render
  cases code : Expr.ofNode? head with
  | none => exact reads.weaken (List.nil_subset _)
  | some expr =>
    refine reads.weaken ?_
    simp [code, uses_eq]

theorem reads_generate (node : Node) (all : node.Selectors p) :
    Reads p (Statement.generate node) (usesOf node) := by
  induction node using Node.childInduction with
  | parent node ih =>
    have head (child : Node) (member : child ∈ node.children) :=
      Expr.reads_generate child (all.child member)
    have block (nodes : List Node) (inside : ∀ child ∈ nodes, child ∈ node.children) :
        Reads p (Text.joinLines <$> Statement.generateAll nodes) (usesAll (ofNodes nodes)) :=
      (reads_generateAll fun child member =>
        ih child (inside child member) (all.child (inside child member))).followed fun _ => rfl
    cases node with
    | command name args target =>
      have inArgs : ∀ node ∈ args, node.Selectors p := fun node member =>
        all.child (by simp [Node.children, member])
      have inTarget : ∀ node ∈ target, node.Selectors p := fun node member =>
        all.child (by simp [Node.children, Option.mem_toList.mpr member])
      refine (reads_command name args target inArgs inTarget).followed ?_
      intro code
      cases code <;> rfl
    | ifElse condition thenBranch elseBranch =>
      have first := head condition (by simp [Node.children])
      have inThen := block thenBranch (by simp +contextual [Node.children])
      cases elseBranch with
      | none => exact reads_headed first rfl (fun _ => inThen.followed fun _ => rfl) fun _ => rfl
      | some elseBranch =>
        have inElse := block elseBranch (by simp +contextual [Node.children])
        refine reads_headed first rfl (fun _ => inThen.bind (inElse.followed fun _ => rfl)) ?_
        intro expr
        simp only [uses, usesAll, parts, Part.uses, List.flatMap_cons, List.flatMap_append]
    | repeatTimes count body =>
      have inBody := block body (by simp +contextual [Node.children])
      cases count with
      | none => exact inBody.followed fun _ => rfl
      | some count =>
        exact reads_headed (head count (by simp [Node.children])) rfl
          (fun _ => inBody.followed fun _ => rfl) fun _ => rfl
    | forEach itemName collection body =>
      have inBody := block body (by simp +contextual [Node.children])
      exact reads_headed (head collection (by simp [Node.children])) rfl
        (fun _ => inBody.followed fun _ => rfl) fun _ => rfl
    | whileLoop condition body =>
      have inBody := block body (by simp +contextual [Node.children])
      exact reads_headed (head condition (by simp [Node.children])) rfl
        (fun _ => inBody.followed fun _ => rfl) fun _ => rfl
    | sequence commands unrolled =>
      exact (block commands fun _ member => member).followed fun _ => rfl
    | _ => exact .silent rfl

end Stmt
end Hyperscript.Program
