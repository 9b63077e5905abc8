import Hyperscript.Proofs.Program.LoopIndex
import Hyperscript.Proofs.Text.Tokens

/-! The item of an iteration. The head of the loop binds a constant, and stores it in a local
variable of the script if code cannot spell the item's name. The name is read elsewhere, by
rules of its own: variables are local variables of the script whatever is around them, and some
names stand for something else. So a reference reads what the loop binds only where both rules
come to the same place, and where nothing nearer declares the constant's name. -/
namespace Hyperscript

namespace Node

/-- The name that a node reads. -/
def readName? : Node → Option String
  | .identifier name | .variableRef name => some name
  | _ => none

/-- The children whose code is part of the node's own. -/
def operands : Node → List Node
  | .command name args target => Program.commandOperands name args target
  | node => node.heads

end Node

namespace Program

/-- A node whose code is a statement of the code, and what is around it. -/
inductive Runs (roots : List Node) : Node → Stmt → List Enclosure → Prop where
  | root {node statement} : node ∈ roots → Stmt.ofNode? node = some statement →
      Runs roots node statement []
  | body {parent whole around node statement} : Runs roots parent whole around →
      node ∈ parent.bodies → Stmt.ofNode? node = some statement →
      Runs roots node statement (.body parent :: around)

/-- A node whose code is an expression of the code, and what is around it. -/
inductive Evaluates (roots : List Node) : Node → Expr → List Enclosure → Prop where
  | operand {parent whole around node expr} : Runs roots parent whole around →
      node ∈ parent.operands → Expr.ofNode? node = some expr →
      Evaluates roots node expr (.head parent :: around)
  | part {parent whole around node expr} : Evaluates roots parent whole around →
      node ∈ parent.heads → Expr.ofNode? node = some expr →
      Evaluates roots node expr (.head parent :: around)

section Sites

variable {roots : List Node} {around : List Enclosure}

theorem Runs.code {node : Node} {statement : Stmt} (runs : Runs roots node statement around) :
    Stmt.ofNode? node = some statement := by
  cases runs with
  | root _ code => exact code
  | body _ _ code => exact code

theorem Evaluates.code {node : Node} {expr : Expr} (evaluates : Evaluates roots node expr around) :
    Expr.ofNode? node = some expr := by
  cases evaluates with
  | operand _ _ code => exact code
  | part _ _ code => exact code

/-- The sites of a statement are among those of its block. -/
theorem sites_subset_ofNodes {nodes : List Node} {scope : List Stmt} {node : Node}
    {statement : Stmt} (member : node ∈ nodes) (code : Stmt.ofNode? node = some statement) :
    statement.sites scope ⊆ Stmt.sitesAll scope (Stmt.ofNodes nodes) := by
  induction nodes with
  | nil => cases member
  | cons first rest ih =>
    rw [Stmt.ofNodes, Stmt.sitesAll_append]
    rcases List.mem_cons.mp member with rfl | inRest
    · apply List.subset_append_of_subset_left
      simp [code, Stmt.sitesAll]
    · exact List.subset_append_of_subset_right _ (ih inRest)

/-- The sites of what is run inside a statement are among its own. -/
theorem sites_subset_body {parent node : Node} {whole statement : Stmt} {scope : List Stmt}
    (parentCode : Stmt.ofNode? parent = some whole) (member : node ∈ parent.bodies)
    (code : Stmt.ofNode? node = some statement) :
    statement.sites (whole :: scope) ⊆ whole.sites scope := by
  have block {nodes : List Node} (inside : node ∈ nodes) :=
    @sites_subset_ofNodes nodes (whole :: scope) node statement inside code
  cases parent with
  | ifElse condition thenBranch elseBranch =>
    cases elseBranch with
    | none =>
      obtain ⟨expr, _, same⟩ := Option.bind_eq_some_iff.mp parentCode
      cases same
      exact List.subset_append_of_subset_right _ (block (by simpa [Node.bodies] using member))
    | some elseBranch =>
      obtain ⟨expr, _, same⟩ := Option.bind_eq_some_iff.mp parentCode
      cases same
      rcases List.mem_append.mp member with inThen | inElse
      · apply List.subset_append_of_subset_left
        exact List.subset_append_of_subset_right _ (block inThen)
      · exact List.subset_append_of_subset_right _ (block inElse)
  | repeatTimes count body =>
    cases count with
    | none =>
      cases parentCode
      exact block member
    | some count =>
      obtain ⟨expr, _, same⟩ := Option.bind_eq_some_iff.mp parentCode
      cases same
      exact List.subset_append_of_subset_right _ (block member)
  | forEach | whileLoop =>
    obtain ⟨expr, _, same⟩ := Option.bind_eq_some_iff.mp parentCode
    cases same
    exact List.subset_append_of_subset_right _ (block member)
  | sequence =>
    cases parentCode
    exact block member
  | event => cases parentCode
  | _ => cases member

theorem eq_of_code {node other : Node} {expr value : Expr} (code : Expr.ofNode? node = some expr)
    (found : Expr.ofNode? other = some value) (same : node = other) : expr = value := by
  rw [same, found] at code
  exact (Option.some.inj code).symm

/-- The sites of the operands of a command are among its own. -/
theorem sites_subset_command {name : String} {args : List Node} {target : Option Node} {node : Node}
    {whole : Stmt} {expr : Expr} {scope : List Stmt}
    (parentCode : Stmt.ofCommand? name args target = some whole)
    (member : node ∈ commandOperands name args target) (code : Expr.ofNode? node = some expr) :
    expr.sites (whole :: scope) ⊆ whole.sites scope := by
  cases Stmt.commandCode_ofCommand? parentCode with
  | halt | exit | leave => simp [commandOperands] at member
  | leaveWith operand | throwValue operand | wait operand =>
    rw [eq_of_code code operand (by simpa [commandOperands] using member)]
    exact List.Subset.refl _
  | @log _ _ exprs operands =>
    have found : some expr ∈ exprs.map some := by
      rw [← Expr.map_ofNode? operands, ← code]
      exact List.mem_map_of_mem member
    obtain ⟨value, inside, same⟩ := List.mem_map.mp found
    cases same
    exact fun site found => List.mem_flatMap.mpr ⟨expr, inside, found⟩
  | changeOwnClass known => simp [commandOperands_class known] at member
  | changeClasses known =>
    rw [eq_of_code code rfl (by simpa [commandOperands_class known] using member)]
    exact List.Subset.refl _
  | changeClass known operand =>
    rw [eq_of_code code operand (by simpa [commandOperands_class known] using member)]
    exact List.Subset.refl _
  | @setIndex place value _ _ index operand =>
    have placeCode : Expr.ofNode? (.variableRef place) = some (.variableRef Names.indexVar) := by
      rw [Expr.ofNode?, if_pos index]
    rcases List.mem_pair.mp member with isPlace | isValue
    · rw [eq_of_code code placeCode isPlace]
      exact List.cons_subset_cons _ (List.nil_subset _)
    · rw [eq_of_code code operand isValue]
      exact List.subset_cons_self _ _
  | @setLocal place value _ _ other operand =>
    have placeCode : Expr.ofNode? (.variableRef place) = some (Expr.localVariable place) := by
      rw [Expr.ofNode?, if_neg (Bool.eq_false_iff.mp other)]
    rcases List.mem_pair.mp member with isPlace | isValue
    · rw [eq_of_code code placeCode isPlace]
      exact List.cons_subset_cons _ (List.nil_subset _)
    · rw [eq_of_code code operand isValue]
      exact List.subset_cons_self _ _

/-- A statement that is made of the code of what it evaluates. -/
theorem eq_of_headed {parent head : Node} {make : Expr → Stmt} {whole : Stmt} {expr : Expr}
    (isCode : Stmt.ofNode? parent = (do return make (← Expr.ofNode? head)))
    (parentCode : Stmt.ofNode? parent = some whole) (code : Expr.ofNode? head = some expr) :
    whole = make expr := by
  rw [isCode, code] at parentCode
  exact (Option.some.inj parentCode).symm

/-- The sites of what a statement evaluates are among its own. -/
theorem sites_subset_operand {parent node : Node} {whole : Stmt} {expr : Expr} {scope : List Stmt}
    (parentCode : Stmt.ofNode? parent = some whole) (member : node ∈ parent.operands)
    (code : Expr.ofNode? node = some expr) : expr.sites (whole :: scope) ⊆ whole.sites scope := by
  cases parent with
  | command => exact sites_subset_command parentCode member code
  | ifElse condition thenBranch elseBranch =>
    obtain rfl := List.mem_singleton.mp member
    cases elseBranch with
    | none =>
      rw [eq_of_headed rfl parentCode code]
      exact List.subset_append_left _ _
    | some elseBranch =>
      rw [eq_of_headed rfl parentCode code]
      exact List.subset_append_of_subset_left _ (List.subset_append_left _ _)
  | repeatTimes count body =>
    cases count with
    | none => cases member
    | some count =>
      obtain rfl := List.mem_singleton.mp member
      rw [eq_of_headed rfl parentCode code]
      exact List.subset_append_left _ _
  | whileLoop condition body =>
    obtain rfl := List.mem_singleton.mp member
    rw [eq_of_headed rfl parentCode code]
    exact List.subset_append_left _ _
  | forEach itemName collection body =>
    obtain rfl := List.mem_singleton.mp member
    rw [eq_of_headed rfl parentCode code]
    exact List.subset_append_of_subset_left _ (List.subset_append_left _ _)
  | sequence => cases member
  | _ => cases parentCode

theorem Runs.sites_subset {node : Node} {statement : Stmt}
    (runs : Runs roots node statement around) :
    statement.sites (scopeOf around) ⊆ Stmt.sitesAll [] (Stmt.ofNodes roots) := by
  induction runs with
  | root member code => exact sites_subset_ofNodes member code
  | body outside member code ih =>
    rw [(scopeOf_cons outside.code _).2]
    exact List.Subset.trans (sites_subset_body outside.code member code) ih

/-- The variables of a part of an expression are among its own. -/
theorem names_subset_part {parent node : Node} {whole expr : Expr}
    (parentCode : Expr.ofNode? parent = some whole) (member : node ∈ parent.heads)
    (code : Expr.ofNode? node = some expr) : expr.names ⊆ whole.names := by
  cases Expr.nodeCode_ofNode? parentCode with
  | concat _ leftCode rightCode | binary _ _ leftCode rightCode =>
    rcases List.mem_pair.mp member with isLeft | isRight
    · rw [eq_of_code code leftCode isLeft]
      exact List.subset_append_left _ _
    · rw [eq_of_code code rightCode isRight]
      exact List.subset_append_right _ _
  | unary _ operandCode =>
    rw [eq_of_code code operandCode (List.mem_singleton.mp member)]
    exact List.Subset.refl _
  | dot _ objectCode | subscript _ objectCode =>
    rw [eq_of_code code objectCode (List.mem_singleton.mp member)]
    exact List.Subset.refl _
  | _ => cases member

theorem Evaluates.sites_subset {node : Node} {expr : Expr}
    (evaluates : Evaluates roots node expr around) :
    expr.sites (scopeOf around) ⊆ Stmt.sitesAll [] (Stmt.ofNodes roots) := by
  induction evaluates with
  | operand outside member code =>
    rw [(scopeOf_cons outside.code _).1]
    exact List.Subset.trans (sites_subset_operand outside.code member code) outside.sites_subset
  | @part parent whole around node expr outside member code ih =>
    have silent : Stmt.ofNode? parent = none := by
      cases Expr.nodeCode_ofNode? outside.code <;> rfl
    have scope : scopeOf (.head parent :: around) = scopeOf around := by
      simp [scopeOf, Enclosure.parent, silent]
    rw [scope]
    apply List.Subset.trans _ ih
    exact List.map_subset _ (names_subset_part outside.code member code)

/-- What a statement is in the body of is a statement of the code. -/
theorem Runs.exists_enclosing {node parent : Node} {statement : Stmt}
    {inner outer : List Enclosure}
    (runs : Runs roots node statement (inner ++ .body parent :: outer)) :
    ∃ whole, Runs roots parent whole outer := by
  induction inner generalizing node statement with
  | nil =>
    cases runs with
    | body outside => exact ⟨_, outside⟩
  | cons enclosure inner ih =>
    cases runs with
    | body outside => exact ih outside

theorem Evaluates.exists_enclosing {node parent : Node} {expr : Expr} {inner outer : List Enclosure}
    (evaluates : Evaluates roots node expr (inner ++ .body parent :: outer)) :
    ∃ whole, Runs roots parent whole outer := by
  induction inner generalizing node expr with
  | nil => cases evaluates
  | cons enclosure inner ih =>
    cases evaluates with
    | operand outside => exact outside.exists_enclosing
    | part outside => exact ih outside

/-- What is in the code is in the script, at the same place. -/
theorem Runs.placed {node : Node} {statement : Stmt} (runs : Runs roots node statement around) :
    Placed roots node around := by
  induction runs with
  | root member => exact .root member
  | body outside member _ ih => exact ih.body (.inl (Option.isSome_of_mem outside.code)) member

theorem Evaluates.placed {node : Node} {expr : Expr}
    (evaluates : Evaluates roots node expr around) : Placed roots node around := by
  induction evaluates with
  | @operand parent _ _ node _ outside member =>
    have inHeads : node ∈ parent.heads := by
      cases parent with
      | command => exact mem_heads_of_mem_commandOperands member
      | _ => exact member
    exact outside.placed.head (.inl (Option.isSome_of_mem outside.code)) inHeads
  | part outside member _ ih => exact ih.head (.inr (Option.isSome_of_mem outside.code)) member

end Sites

/-- Where the head of an iteration puts the item. -/
def Stmt.itemPlace (itemName : String) : String :=
  if Text.isIdentifier (Text.withoutColons itemName) then Text.withoutColons itemName
  else Expression.localVariable itemName

/-- The head binds a constant. If that is not the item's place, its first line moves it there. -/
theorem forEachHeader_eq (itemName collection : String) :
    Statement.forEachHeader itemName collection =
      "for (const " ++ Stmt.itemVariable itemName ++ " of " ++ collection ++ ") \x7b" ++
        if Text.isIdentifier (Text.withoutColons itemName) then ""
        else "\n  " ++ Stmt.itemPlace itemName ++ " = " ++ Stmt.itemVariable itemName ++ ";" := by
  by_cases valid : Text.isIdentifier (Text.withoutColons itemName) = true
  · simp only [Statement.forEachHeader, Stmt.itemVariable, if_pos valid, String.append_empty]
  · have opening : "for (const _item of " = "for (const " ++ ("_item" ++ " of ") := by decide
    have moving : ") \x7b\n  " = ") \x7b" ++ "\n  " := by decide
    have ending : "] = _item;" = "]" ++ (" = " ++ ("_item" ++ ";")) := by decide
    simp only [Statement.forEachHeader, Stmt.itemVariable, Stmt.itemPlace,
      Expression.localVariable, if_neg valid, opening, moving, ending, String.append_assoc]

theorem withoutColons_of_isIdentifier {name : String} (valid : Text.isIdentifier name = true) :
    Text.withoutColons name = name := by
  obtain ⟨shape, -⟩ := (Bool.and_eq_true _ _).mp valid
  cases characters : name.toList with
  | nil =>
    rw [characters] at shape
    cases shape
  | cons first others =>
    rw [characters, Text.hasIdentifierShape, Bool.and_eq_true] at shape
    have other : first ≠ ':' := by
      rintro rfl
      exact absurd shape.1 (by decide)
    rw [Text.withoutColons, characters, List.dropWhile_cons_of_neg (by simpa using other),
      ← characters, String.ofList_toList]

/-- The text of a local variable is no name. -/
theorem isIdentifier_localVariable (name : String) :
    Text.isIdentifier (Expression.localVariable name) = false := by
  apply Bool.eq_false_iff.mpr
  intro valid
  obtain ⟨-, all, -⟩ := Text.isIdentifierRest_of_isIdentifier valid
  have point : '.' ∈ (Expression.localVariable name).toList := by
    simp [Expression.localVariable]
  exact absurd (List.all_eq_true.mp all '.' point) (by decide)

theorem contexts_subset_specialNames :
    ["me", "my", "I"] ⊆ Expr.specialNames ∧ ["it", "its", "result"] ⊆ Expr.specialNames := by
  decide

/-- A reference by the item's name is read from the item's place exactly if both are local
variables of the script, or if it is an identifier that stands for nothing else. -/
theorem render_eq_itemPlace_iff {node : Node} {expr : Expr} {name : String}
    (code : Expr.ofNode? node = some expr) (reads : node.readName? = some name) :
    expr.render = Stmt.itemPlace name ↔
      Text.isIdentifier (Text.withoutColons name) = false ∨
        node = .identifier name ∧ name ∉ Node.indexNames ∧ name ∉ Expr.specialNames := by
  have taken (valid : Text.isIdentifier (Text.withoutColons name) = true)
      (other : name ∈ Node.indexNames ∨ name ∈ Expr.specialNames)
      (differs : expr.render ≠ Stmt.itemPlace name) :
      expr.render = Stmt.itemPlace name ↔
        Text.isIdentifier (Text.withoutColons name) = false ∨
          node = .identifier name ∧ name ∉ Node.indexNames ∧ name ∉ Expr.specialNames := by
    apply iff_of_false differs
    rintro (unnamed | ⟨-, plain, ordinary⟩)
    · rw [valid] at unnamed
      cases unnamed
    · exact other.elim plain ordinary
  cases Expr.nodeCode_ofNode? code with
  | index member | indexVariable member =>
    cases reads
    have all : ∀ name ∈ Node.indexNames, Text.isIdentifier (Text.withoutColons name) = true ∧
        Names.indexVar ≠ Stmt.itemPlace name := by
      decide
    exact taken (all name member).1 (.inl member) (all name member).2
  | me member =>
    cases reads
    have all : ∀ name ∈ ["me", "my", "I"], Text.isIdentifier (Text.withoutColons name) = true ∧
        (Expr.context "me").render ≠ Stmt.itemPlace name := by
      decide
    have special := contexts_subset_specialNames.1 member
    exact taken (all name member).1 (.inr special) (all name member).2
  | it member =>
    cases reads
    have all : ∀ name ∈ ["it", "its", "result"],
        Text.isIdentifier (Text.withoutColons name) = true ∧
          (Expr.context "it").render ≠ Stmt.itemPlace name := by
      decide
    have special := contexts_subset_specialNames.2 member
    exact taken (all name member).1 (.inr special) (all name member).2
  | event =>
    cases reads
    exact taken (by decide) (by decide) (by decide)
  | target =>
    cases reads
    exact taken (by decide) (by decide) (by decide)
  | plain outside ordinary valid =>
    cases reads
    have place : Stmt.itemPlace name = name := by
      rw [Stmt.itemPlace, withoutColons_of_isIdentifier valid, if_pos valid]
    rw [place]
    exact iff_of_true rfl (.inr ⟨rfl, outside, ordinary⟩)
  | localVariable other =>
    cases reads
    rw [Expr.render_localVariable, Stmt.itemPlace]
    split
    next valid =>
      apply iff_of_false
      · intro same
        rw [← same, isIdentifier_localVariable] at valid
        cases valid
      · rintro (unnamed | ⟨same, -⟩)
        · rw [valid] at unnamed
          cases unnamed
        · cases same
    next unnamed => exact iff_of_true rfl (.inl (Bool.eq_false_iff.mpr unnamed))
  | _ => cases reads

/-- An identifier that stands for nothing else is a variable of its own name. -/
theorem variableRef_of_plain {name : String} {expr : Expr} (outside : name ∉ Node.indexNames)
    (ordinary : name ∉ Expr.specialNames) (code : Expr.ofNode? (.identifier name) = some expr) :
    expr = .variableRef name ∧ Text.isIdentifier name = true := by
  cases Expr.nodeCode_ofNode? code with
  | index member => exact absurd member outside
  | me member => exact absurd (contexts_subset_specialNames.1 member) ordinary
  | it member => exact absurd (contexts_subset_specialNames.2 member) ordinary
  | event => exact absurd (by decide) ordinary
  | target => exact absurd (by decide) ordinary
  | plain _ _ valid => exact ⟨rfl, valid⟩

/-- Where references to the item of an iteration are read from. Whatever the body holds, at
whatever depth, a node of the item's name that is evaluated in the code is read from the place
that the head of the loop puts the item in exactly if code cannot spell the name, or if the node
is an identifier and the name stands for nothing else. In the second case it is a variable of the
code, and refers to the loop exactly if nothing nearer declares its name: no inner iteration over
the same name, and nothing that makes up a variable which is spelled alike. -/
theorem item_reference_iff {nodes : List Node} {node : Node} {expr : Expr}
    {inner outer : List Enclosure} {itemName : String} {collection : Node} {body : List Node}
    (evaluates : Evaluates nodes node expr
      (inner ++ .body (.forEach itemName collection body) :: outer))
    {name : String} (reads : node.readName? = some name)
    (same : Text.withoutColons name = Text.withoutColons itemName) :
    (Expression.generate node).value = some expr.render ∧
    (∃ head, (Expression.generate collection).value = some head ∧
      (Statement.generate (.forEach itemName collection body)).value =
        some (Statement.block (Statement.forEachHeader itemName head)
          (Text.joinLines (Statement.generateAll body).value)) ∧
      Statement.forEachHeader itemName head =
        "for (const " ++ Stmt.itemVariable itemName ++ " of " ++ head ++ ") \x7b" ++
          if Text.isIdentifier (Text.withoutColons itemName) then ""
          else "\n  " ++ Stmt.itemPlace itemName ++ " = " ++ Stmt.itemVariable itemName ++ ";") ∧
    (expr.render = Stmt.itemPlace itemName ↔
      Text.isIdentifier (Text.withoutColons itemName) = false ∨
        node = .identifier name ∧ name ∉ Node.indexNames ∧ name ∉ Expr.specialNames) ∧
    (Text.isIdentifier (Text.withoutColons itemName) = true →
      expr.render = Stmt.itemPlace itemName →
      ∃ site ∈ Stmt.sitesAll [] (Stmt.ofNodes nodes), ∃ loop,
        expr = .variableRef site.name ∧
        Stmt.ofNode? (.forEach itemName collection body) = some loop ∧
        (site.binding = loop :: scopeOf outer ↔
          ∀ enclosure ∈ inner, declaredName? enclosure.parent ≠ some site.name)) := by
  have place : Stmt.itemPlace name = Stmt.itemPlace itemName := by
    simp only [Stmt.itemPlace, Expression.localVariable, same]
  have placed := render_eq_itemPlace_iff evaluates.code reads
  rw [place, same] at placed
  obtain ⟨loop, runs⟩ := evaluates.exists_enclosing
  obtain ⟨head, headCode, -⟩ := Option.bind_eq_some_iff.mp runs.code
  have headText : (Expression.generate collection).value = some head.render := by
    rw [Expr.value_generate, headCode, Option.map_some]
  refine ⟨?_, ⟨head.render, headText, ?_, forEachHeader_eq itemName head.render⟩, placed, ?_⟩
  · rw [Expr.value_generate, evaluates.code, Option.map_some]
  · simp only [Statement.generate, Emission.value_bind, headText]
    rfl
  · intro valid found
    obtain unnamed | ⟨isIdentifier, outside, ordinary⟩ := placed.mp found
    · rw [valid] at unnamed
      cases unnamed
    · subst isIdentifier
      obtain ⟨rfl, spelled⟩ := variableRef_of_plain outside ordinary evaluates.code
      have item : Stmt.itemVariable itemName = name := by
        rw [Stmt.itemVariable, if_pos valid, ← same, withoutColons_of_isIdentifier spelled]
      refine ⟨_, evaluates.sites_subset List.mem_cons_self, loop, rfl, runs.code, ?_⟩
      have codes : ∀ enclosure ∈ inner, HasCode enclosure.parent := fun enclosure member =>
        evaluates.placed.hasCode enclosure (List.mem_append_left _ member)
      rw [binding_name_iff runs.code codes, declaredName?, item]
      exact and_iff_right rfl

/-- An iteration that logs its item. -/
def loggedItem (reference : Node) : Node :=
  .forEach "item" (.selector ".row" none) [.command "log" [reference] none]

/-- By its plain name, the item is read from the constant that the loop declares. -/
theorem item_reference_identifier :
    (Expression.generate (.identifier "item")).value = some (Stmt.itemPlace "item") ∧
      ∃ site ∈ Stmt.sitesAll [] (Stmt.ofNodes [loggedItem (.identifier "item")]), ∃ loop,
        Stmt.ofNode? (loggedItem (.identifier "item")) = some loop ∧ site.binding = [loop] := by
  have runs : Runs [loggedItem (.identifier "item")] (loggedItem (.identifier "item")) _ [] :=
    .root List.mem_cons_self rfl
  have evaluates : Evaluates [loggedItem (.identifier "item")] (.identifier "item")
      (.variableRef "item")
      ([.head (.command "log" [.identifier "item"] none)] ++
        .body (loggedItem (.identifier "item")) :: []) :=
    .operand (runs.body List.mem_cons_self rfl) List.mem_cons_self rfl
  obtain ⟨text, -, placed, bound⟩ := item_reference_iff evaluates rfl rfl
  have place := placed.mpr (.inr ⟨rfl, by decide, by decide⟩)
  obtain ⟨site, inCode, loop, written, code, binding⟩ := bound (by decide) place
  refine ⟨text.trans (congrArg some place), site, inCode, loop, code, binding.mpr ?_⟩
  simp [Enclosure.parent, declaredName?]

/-- As a variable, the item is read from a local variable that the loop does not set. -/
theorem item_missed_variable :
    (Statement.body [loggedItem (.variableRef ":item")]).value =
        "for (const item of document.querySelectorAll(\".row\")) \x7b\n" ++
        "  console.log(_ctx.locals[\"item\"]);\n\x7d" ∧
      Stmt.itemPlace "item" = "item" ∧
      (Expression.generate (.variableRef ":item")).value ≠ some (Stmt.itemPlace "item") :=
  ⟨by decide +kernel, by decide, by decide +kernel⟩

end Program
end Hyperscript
