import Hyperscript.Proofs.Program.Lowering
import Hyperscript.Proofs.Text.Layout
import Hyperscript.Proofs.Text.Numerals

/-! How generated code is spelled. The emitter writes names that are identifiers, symbols
from a fixed list, quoted strings and numbers. So the tokens of an expression follow its
tree, none of them is a keyword, and its brackets come in pairs. -/
namespace Hyperscript.Program

open Text

namespace Expr

/-- The names are identifiers and the symbols are those of operators. -/
def IsSpelled : Expr → Prop
  | .literal _ => True
  | .variableRef name => isIdentifier name = true
  | .elements _ key => ∀ name ∈ key, isIdentifier name = true
  | .dot object property => object.IsSpelled ∧ isIdentifier property = true
  | .subscript object _ => object.IsSpelled
  | .concat left right => left.IsSpelled ∧ right.IsSpelled
  | .binary symbol left right =>
    (∃ operator : Operator, operator.symbol? = some symbol) ∧ left.IsSpelled ∧ right.IsSpelled
  | .unary symbol operand => symbol ∈ ["!", "-", "+"] ∧ operand.IsSpelled

/-- The tokens of the text of an expression. -/
def tokens : Expr → List Token
  | .literal value => Text.tokens (Expression.literal value)
  | .variableRef name => [.word name]
  | .elements _ none =>
    [.word "document", .mark '.', .word "querySelectorAll", .mark '(', .literal, .mark ')']
  | .elements _ (some key) => [.word key]
  | .dot object property => object.tokens ++ [.mark '.', .word property]
  | .subscript object _ => object.tokens ++ [.mark '[', .literal, .mark ']']
  | .concat left right =>
    [.mark '(', .word "String", .mark '('] ++ left.tokens ++
      [.mark ')', .mark '+', .word "String", .mark '('] ++ right.tokens ++ [.mark ')', .mark ')']
  | .binary symbol left right =>
    [.mark '('] ++ left.tokens ++ Text.tokens symbol ++ right.tokens ++ [.mark ')']
  | .unary symbol operand => [.mark '('] ++ Text.tokens symbol ++ operand.tokens ++ [.mark ')']

/-- The symbols of operators stand apart from the words beside them. -/
theorem symbol_isPlain {symbol : String} {operator : Operator}
    (known : operator.symbol? = some symbol) :
    IsPlain symbol ∧ startsWord symbol.toList = false ∧ endsWord symbol.toList = false := by
  cases operator with
  | concat => cases known
  | _ =>
    cases known
    decide

theorem sign_isPlain : ∀ symbol ∈ ["!", "-", "+"],
    IsPlain symbol ∧ startsWord symbol.toList = false ∧ endsWord symbol.toList = false := by
  decide

theorem spells_query (selector : String) :
    Spells (Expression.query selector) (elements selector none).tokens := by
  have opening : Spells "document.querySelectorAll("
      [.word "document", .mark '.', .word "querySelectorAll", .mark '('] := by decide +kernel
  have closing : Spells ")" [.mark ')'] := by decide
  exact (opening.thenAny (spells_quoted selector) (by decide)).thenMark closing (by decide)

theorem spells_literal (value : Literal) :
    Spells (Expression.literal value) (Text.tokens (Expression.literal value)) := by
  cases value with
  | null => decide
  | bool value => cases value <;> decide
  | number value =>
    have inner := (Number.isPlain_text value).spells
    simp only [Expression.literal]
    split
    · have opening : Spells "(" [.mark '('] := by decide
      have closing : Spells ")" [.mark ')'] := by decide
      have whole := (opening.thenAny inner (by decide)).thenMark closing (by decide)
      exact ⟨whole.unbroken, whole.closed, rfl⟩
    · exact inner
  | string value =>
    have whole := spells_quoted value
    exact ⟨whole.unbroken, whole.closed, rfl⟩

/-- A piece that ends in a mark. -/
theorem endsWord_append {first second : String} (nonempty : second ≠ "") :
    endsWord (first ++ second).toList = endsWord second.toList := by
  have last : ∃ c, second.toList.getLast? = some c := by
    rw [← Option.isSome_iff_exists, List.getLast?_isSome]
    simpa using nonempty
  obtain ⟨c, last⟩ := last
  simp [endsWord, List.getLast?_append, last]

theorem spells_render {expr : Expr} (spelled : expr.IsSpelled) :
    Spells expr.render expr.tokens := by
  have leftBracket : Spells "(" [.mark '('] := by decide
  have rightBracket : Spells ")" [.mark ')'] := by decide
  have blank : Spells " " [] := by decide
  induction expr with
  | literal value => exact spells_literal value
  | variableRef name => exact spells_identifier spelled
  | elements selector key =>
    cases key with
    | none => exact spells_query selector
    | some key => exact spells_identifier (spelled key rfl)
  | dot object property ih =>
    have point : Spells "." [.mark '.'] := by decide
    rw [render, tokens, List.append_cons]
    exact ((ih spelled.1).thenMark point (by decide)).thenAny (spells_identifier spelled.2)
      (endsWord_append (by decide))
  | subscript object property ih =>
    have opening : Spells "[" [.mark '['] := by decide
    have closing : Spells "]" [.mark ']'] := by decide
    have whole := (((ih spelled).thenMark opening (by decide)).thenAny (spells_quoted property)
      (endsWord_append (by decide))).thenMark closing (by decide)
    simpa [render, tokens] using whole
  | concat left right first second =>
    have opening : Spells "(String(" [.mark '(', .word "String", .mark '('] := by decide
    have middle : Spells ") + String(" [.mark ')', .mark '+', .word "String", .mark '('] := by
      decide
    have closing : Spells "))" [.mark ')', .mark ')'] := by decide
    have start := (opening.thenAny (first spelled.1) (by decide)).thenMark middle (by decide)
    exact (start.thenAny (second spelled.2) (endsWord_append (by decide))).thenMark closing
      (by decide)
  | binary symbol left right first second =>
    obtain ⟨⟨operator, known⟩, inLeft, inRight⟩ := spelled
    obtain ⟨plain, starts, ends⟩ := symbol_isPlain known
    have start := (leftBracket.thenAny (first inLeft) (by decide)).thenMark blank (by decide)
    have middle := (start.thenMark plain.spells starts).thenMark blank (by decide)
    have whole := (middle.thenAny (second inRight) (endsWord_append (by decide))).thenMark
      rightBracket (by decide)
    simpa [render, tokens] using whole
  | unary symbol operand ih =>
    obtain ⟨known, inside⟩ := spelled
    obtain ⟨plain, starts, ends⟩ := sign_isPlain symbol known
    have nonempty : symbol ≠ "" := by
      rintro rfl
      exact absurd known (by decide)
    have start := leftBracket.thenMark plain.spells starts
    exact (start.thenAny (ih inside) ((endsWord_append nonempty).trans ends)).thenMark
      rightBracket (by decide)

theorem isPlain_literal (value : Literal) :
    (∀ token ∈ Text.tokens (Expression.literal value), token.isKeyword = false) ∧
      Balanced (Text.tokens (Expression.literal value)) := by
  have plainly {text : String} (plain : IsPlain text) :
      (∀ token ∈ Text.tokens text, token.isKeyword = false) ∧ Balanced (Text.tokens text) :=
    ⟨fun token member => (plain.tokens token member).1,
      .of_plain fun token member => (plain.tokens token member).2⟩
  cases value with
  | null => exact plainly (by decide)
  | bool value => cases value <;> exact plainly (by decide)
  | number value =>
    have inner := Number.isPlain_text value
    simp only [Expression.literal]
    split
    · have opening : Spells "(" [.mark '('] := by decide
      have closing : Spells ")" [.mark ')'] := by decide
      have whole := (opening.thenAny inner.spells (by decide)).thenMark closing (by decide)
      obtain ⟨unkeyed, balanced⟩ := plainly inner
      rw [Text.tokens, whole.read]
      constructor
      · exact List.forall_mem_append.mpr
          ⟨List.forall_mem_append.mpr ⟨by decide, unkeyed⟩, by decide⟩
      · exact balanced.parenthesized
    · exact plainly inner
  | string value =>
    rw [Expression.literal, Text.tokens, (spells_quoted value).read]
    exact ⟨by decide, .of_plain (by decide)⟩

/-- No token of an expression is a keyword. -/
theorem isKeyword_tokens {expr : Expr} (spelled : expr.IsSpelled) :
    ∀ token ∈ expr.tokens, token.isKeyword = false := by
  induction expr with
  | literal value => exact (isPlain_literal value).1
  | variableRef name =>
    exact List.forall_mem_singleton.mpr (isKeyword_of_isIdentifier spelled)
  | elements selector key =>
    cases key with
    | none =>
      rw [tokens]
      decide
    | some key => exact List.forall_mem_singleton.mpr (isKeyword_of_isIdentifier (spelled key rfl))
  | dot object property ih =>
    refine List.forall_mem_append.mpr ⟨ih spelled.1, ?_⟩
    exact List.forall_mem_cons.mpr
      ⟨rfl, List.forall_mem_singleton.mpr (isKeyword_of_isIdentifier spelled.2)⟩
  | subscript object property ih => exact List.forall_mem_append.mpr ⟨ih spelled, by decide⟩
  | concat left right first second =>
    simp only [tokens, List.forall_mem_append]
    exact ⟨⟨⟨⟨by decide, first spelled.1⟩, by decide⟩, second spelled.2⟩, by decide⟩
  | binary symbol left right first second =>
    obtain ⟨⟨operator, known⟩, inLeft, inRight⟩ := spelled
    have plain := (symbol_isPlain known).1
    simp only [tokens, List.forall_mem_append]
    exact ⟨⟨⟨⟨by decide, first inLeft⟩, fun token member => (plain.tokens token member).1⟩,
      second inRight⟩, by decide⟩
  | unary symbol operand ih =>
    have plain := (sign_isPlain symbol spelled.1).1
    simp only [tokens, List.forall_mem_append]
    exact ⟨⟨⟨by decide, fun token member => (plain.tokens token member).1⟩, ih spelled.2⟩,
      by decide⟩

theorem balanced_tokens {expr : Expr} (spelled : expr.IsSpelled) : Balanced expr.tokens := by
  have held : Balanced [.literal] := .of_plain (by decide)
  induction expr with
  | literal value => exact (isPlain_literal value).2
  | variableRef name => exact .of_plain (by simp [tokens, Token.isBracket])
  | elements selector key =>
    cases key with
    | none =>
      have method : Balanced [.word "document", .mark '.', .word "querySelectorAll"] :=
        .of_plain (by decide)
      exact method.append held.parenthesized
    | some key => exact .of_plain (by simp [tokens, Token.isBracket])
  | dot object property ih =>
    exact (ih spelled.1).append (.of_plain (by simp [Token.isBracket]))
  | subscript object property ih =>
    exact (ih spelled).append (held.enclosed '[' ']' (by decide))
  | concat left right first second =>
    have name : Balanced [.word "String"] := .of_plain (by decide)
    have plus : Balanced [.mark '+'] := .of_plain (by decide)
    have inLeft := name.append (first spelled.1).parenthesized
    have inRight := name.append (second spelled.2).parenthesized
    simpa [tokens] using (inLeft.append (plus.append inRight)).parenthesized
  | binary symbol left right first second =>
    obtain ⟨⟨operator, known⟩, inLeft, inRight⟩ := spelled
    have plain := (symbol_isPlain known).1
    have middle := Balanced.of_plain fun token member => (plain.tokens token member).2
    simpa [tokens] using ((first inLeft).append (middle.append (second inRight))).parenthesized
  | unary symbol operand ih =>
    have plain := (sign_isPlain symbol spelled.1).1
    have sign := Balanced.of_plain fun token member => (plain.tokens token member).2
    simpa [tokens] using (sign.append (ih spelled.2)).parenthesized

/-- The variables of a script's selectors are identifiers. -/
abbrev NamesKeys (node : Node) : Prop :=
  node.Selectors fun _ key => ∀ name ∈ key, isIdentifier name = true

theorem isSpelled_context {property : String} (valid : isIdentifier property = true) :
    (context property).IsSpelled :=
  ⟨(by decide : isIdentifier Names.contextVar = true), valid⟩

theorem isSpelled_ofIdentifier? {name : String} {expr : Expr}
    (code : ofIdentifier? name = some expr) : expr.IsSpelled := by
  unfold ofIdentifier? at code
  split at code
  case h_9 =>
    split at code
    next valid =>
      cases code
      exact valid
    next => cases code
  case h_1 | h_2 | h_3 | h_4 | h_5 | h_6 =>
    cases code
    exact isSpelled_context (by decide)
  case h_7 =>
    cases code
    exact (by decide : isIdentifier Names.eventParam = true)
  case h_8 =>
    cases code
    exact ⟨(by decide : isIdentifier Names.eventParam = true), by decide⟩

theorem isSpelled_ofBinary? {operator : String} {left right expr : Expr} (first : left.IsSpelled)
    (second : right.IsSpelled) (code : ofBinary? operator left right = some expr) :
    expr.IsSpelled := by
  unfold ofBinary? at code
  obtain ⟨known, _, code⟩ := Option.bind_eq_some_iff.mp code
  split at code
  · cases code
    exact ⟨first, second⟩
  · obtain ⟨symbol, found, code⟩ := Option.bind_eq_some_iff.mp code
    cases code
    exact ⟨⟨known, found⟩, first, second⟩

theorem isSpelled_ofUnary? {operator : String} {operand expr : Expr} (inside : operand.IsSpelled)
    (code : ofUnary? operator operand = some expr) : expr.IsSpelled := by
  unfold ofUnary? at code
  split at code
  case h_6 => cases code
  all_goals
    cases code
    exact ⟨by decide, inside⟩

theorem isSpelled_ofMember {object : Expr} (inside : object.IsSpelled) (property : String) :
    (ofMember object property).IsSpelled := by
  unfold ofMember
  split
  next valid => exact ⟨inside, valid⟩
  next => exact inside

/-- What the emitter writes for an expression is spelled with identifiers. -/
theorem isSpelled_ofNode? (node : Node) (named : NamesKeys node) {expr : Expr}
    (code : ofNode? node = some expr) : expr.IsSpelled := by
  induction node using Node.childInduction generalizing expr with
  | parent node ih =>
    cases node with
    | literal =>
      cases code
      trivial
    | identifier name =>
      simp only [ofNode?] at code
      split at code
      · cases code
        exact (by decide : isIdentifier Names.indexVar = true)
      · exact isSpelled_ofIdentifier? code
    | variableRef name =>
      simp only [ofNode?] at code
      split at code
      · cases code
        exact (by decide : isIdentifier Names.indexVar = true)
      · cases code
        exact isSpelled_context (by decide)
    | selector value cacheKey =>
      cases code
      exact named value cacheKey (by simp [Node.subtree])
    | binary operator left right =>
      obtain ⟨inLeft, leftCode, code⟩ := Option.bind_eq_some_iff.mp code
      obtain ⟨inRight, rightCode, code⟩ := Option.bind_eq_some_iff.mp code
      have first := ih left (by simp [Node.children]) (named.child (by simp [Node.children]))
        leftCode
      have second := ih right (by simp [Node.children]) (named.child (by simp [Node.children]))
        rightCode
      exact isSpelled_ofBinary? first second code
    | unary operator operand =>
      obtain ⟨inner, innerCode, code⟩ := Option.bind_eq_some_iff.mp code
      have inside := ih operand (by simp [Node.children]) (named.child (by simp [Node.children]))
        innerCode
      exact isSpelled_ofUnary? inside code
    | member object property =>
      obtain ⟨inner, innerCode, code⟩ := Option.bind_eq_some_iff.mp code
      cases code
      have inside := ih object (by simp [Node.children]) (named.child (by simp [Node.children]))
        innerCode
      exact isSpelled_ofMember inside property
    | _ => cases code

end Expr

namespace Stmt

mutual

/-- The expressions are spelled with identifiers, and the code throws only the two signals and
changes classes only in the three ways that there are. -/
def IsSpelled : Stmt → Prop
  | .throwSignal signal => signal ∈ ["HALT", "EXIT"]
  | .leave none => True
  | .throwValue value | .leave (some value) | .setLocal _ value | .setIndex value | .wait value =>
    value.IsSpelled
  | .log values => ∀ value ∈ values, value.IsSpelled
  | .changeClass elements method _ | .changeClasses elements method _ =>
    elements.IsSpelled ∧ method ∈ ["add", "remove", "toggle"]
  | .branch condition thenBranch none => condition.IsSpelled ∧ AreSpelled thenBranch
  | .branch condition thenBranch (some elseBranch) =>
    condition.IsSpelled ∧ AreSpelled thenBranch ∧ AreSpelled elseBranch
  | .forever body | .group body => AreSpelled body
  | .counted head body | .each _ head body | .whileLoop head body =>
    head.IsSpelled ∧ AreSpelled body

def AreSpelled : List Stmt → Prop
  | [] => True
  | statement :: rest => IsSpelled statement ∧ AreSpelled rest

end

theorem areSpelled_append {first second : List Stmt} (before : AreSpelled first)
    (after : AreSpelled second) : AreSpelled (first ++ second) := by
  induction first with
  | nil => exact after
  | cons statement rest ih => exact ⟨before.1, ih before.2⟩

theorem isSpelled_ofCommand? {name : String} {args : List Node} {target : Option Node}
    {statement : Stmt} (inArgs : ∀ node ∈ args, Expr.NamesKeys node)
    (inTarget : ∀ node ∈ target, Expr.NamesKeys node)
    (code : ofCommand? name args target = some statement) : statement.IsSpelled := by
  cases commandCode_ofCommand? code with
  | halt | exit => simp [IsSpelled]
  | leave => trivial
  | leaveWith operand | throwValue operand | wait operand =>
    exact Expr.isSpelled_ofNode? _ (inArgs _ List.mem_cons_self) operand
  | @log _ _ exprs operands =>
    intro expr member
    have found : some expr ∈ exprs.map some := List.mem_map_of_mem member
    rw [← Expr.map_ofNode? operands] at found
    obtain ⟨node, inNodes, operand⟩ := List.mem_map.mp found
    exact Expr.isSpelled_ofNode? node (inArgs node inNodes) operand
  | changeOwnClass known => exact ⟨Expr.isSpelled_context (by decide), known⟩
  | changeClasses known => exact ⟨inTarget _ rfl _ _ List.mem_cons_self, known⟩
  | changeClass known operand => exact ⟨Expr.isSpelled_ofNode? _ (inTarget _ rfl) operand, known⟩
  | setIndex _ operand | setLocal _ operand =>
    exact Expr.isSpelled_ofNode? _ (inArgs _ (by simp)) operand

theorem areSpelled_ofNodes {nodes : List Node}
    (each : ∀ node ∈ nodes, ∀ statement, ofNode? node = some statement → statement.IsSpelled) :
    AreSpelled (ofNodes nodes) := by
  induction nodes with
  | nil => trivial
  | cons node rest ih =>
    obtain ⟨first, others⟩ := List.forall_mem_cons.mp each
    refine areSpelled_append ?_ (ih others)
    cases code : ofNode? node with
    | none => trivial
    | some statement => exact ⟨first statement code, trivial⟩

/-- What the emitter writes for a statement is spelled with identifiers. -/
theorem isSpelled_ofNode? (node : Node) (named : Expr.NamesKeys node) {statement : Stmt}
    (code : ofNode? node = some statement) : statement.IsSpelled := by
  induction node using Node.childInduction generalizing statement with
  | parent node ih =>
    have head {child : Node} {expr : Expr} (code : Expr.ofNode? child = some expr)
        (member : child ∈ node.children) : expr.IsSpelled :=
      Expr.isSpelled_ofNode? child (named.child member) code
    have block (nodes : List Node) (inside : ∀ child ∈ nodes, child ∈ node.children) :
        AreSpelled (ofNodes nodes) :=
      areSpelled_ofNodes fun child member _ code =>
        ih child (inside child member) (named.child (inside child member)) code
    cases node with
    | command name args target =>
      refine isSpelled_ofCommand? ?_ ?_ code
      · exact fun child member => named.child (by simp [Node.children, member])
      · exact fun child member =>
          named.child (by simp [Node.children, Option.mem_toList.mpr member])
    | ifElse condition thenBranch elseBranch =>
      have inThen := block thenBranch (by simp +contextual [Node.children])
      cases elseBranch with
      | none =>
        obtain ⟨expr, found, code⟩ := Option.bind_eq_some_iff.mp code
        cases code
        exact ⟨head found (by simp [Node.children]), inThen⟩
      | some elseBranch =>
        have inElse := block elseBranch (by simp +contextual [Node.children])
        obtain ⟨expr, found, code⟩ := Option.bind_eq_some_iff.mp code
        cases code
        exact ⟨head found (by simp [Node.children]), inThen, inElse⟩
    | repeatTimes count body =>
      have inBody := block body (by simp +contextual [Node.children])
      cases count with
      | none =>
        cases code
        exact inBody
      | some count =>
        obtain ⟨expr, found, code⟩ := Option.bind_eq_some_iff.mp code
        cases code
        exact ⟨head found (by simp [Node.children]), inBody⟩
    | forEach itemName collection body =>
      have inBody := block body (by simp +contextual [Node.children])
      obtain ⟨expr, found, code⟩ := Option.bind_eq_some_iff.mp code
      cases code
      exact ⟨head found (by simp [Node.children]), inBody⟩
    | whileLoop condition body =>
      have inBody := block body (by simp +contextual [Node.children])
      obtain ⟨expr, found, code⟩ := Option.bind_eq_some_iff.mp code
      cases code
      exact ⟨head found (by simp [Node.children]), inBody⟩
    | sequence commands unrolled =>
      cases code
      exact block commands (by simp [Node.children])
    | _ => cases code

end Stmt
end Hyperscript.Program
