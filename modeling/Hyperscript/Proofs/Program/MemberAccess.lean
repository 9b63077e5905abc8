import Hyperscript.Proofs.Optimization.Folding
import Hyperscript.Proofs.Program.Spelling
import Hyperscript.Proofs.Script.Everywhere
import Hyperscript.Proofs.Text.Lexemes

/-! Member access in code. The code of an expression is followed by a point and a name where a
member is read by name and where a class is changed. All expressions end where their last lexeme
ends, but for one kind: the whole numbers that are written with digits alone take the point for a
part of themselves. -/
namespace Hyperscript

open Text

namespace Number

open Binary64

variable {x : Float} {rest : List Char} {more : List Lexeme}

/-- Numbers that are not finite have names. -/
def lexeme (x : Float) : Lexeme :=
  if isFinite x then .numeral (unsigned x) else .name (String.ofList (unsigned x))

/-- A number ends where no word starts, but digits alone take a point with them. -/
theorem lexes_unsigned_iff (ends : startsWord rest = false) :
    Lexes (unsigned x ++ rest) (lexeme x :: more) ↔
      (isDigits x = true → rest.head? ≠ some '.') ∧ Lexes rest more := by
  by_cases finite : isFinite x = true
  · obtain ⟨whole, fraction, exponent, decimal, alone⟩ := exists_isDecimal_unsigned finite
    rw [← alone, lexeme, if_pos finite]
    by_cases apart : fraction ++ exponent = [] → rest.head? ≠ some '.'
    · rw [lexes_cons_iff (next?_numeral decimal ends apart)]
      exact (and_iff_right apart).symm
    · obtain ⟨none, point⟩ := Classical.not_imp.mp apart
      obtain ⟨others, rfl⟩ := List.head?_eq_some_iff.mp (not_not.mp point)
      have digits : unsigned x = whole := by rw [decimal.text, none, List.append_nil]
      rw [digits]
      apply iff_of_false
      · exact not_lexes_point decimal.nonempty decimal.digits
      · exact fun both => apart both.1
  · have fractional : isDigits x = false := by simp [isDigits, isWhole, finite]
    have named : hasIdentifierShape (unsigned x) = true := by
      rw [unsigned, if_neg finite]
      split <;> decide
    have read := @next?_name rest (String.ofList (unsigned x)) (by simpa using named) ends
    rw [String.toList_ofList] at read
    rw [lexeme, if_neg finite, lexes_cons_iff read, fractional]
    simp

theorem startsOperand_unsigned (x : Float) : startsOperand (unsigned x ++ rest) = true := by
  by_cases finite : isFinite x = true
  · obtain ⟨whole, fraction, exponent, decimal, -⟩ := exists_isDecimal_unsigned finite
    obtain ⟨first, others, rfl⟩ := List.exists_cons_of_ne_nil decimal.nonempty
    have digit := decimal.digits first List.mem_cons_self
    rw [decimal.text]
    simp [startsOperand, isIdentifierRest, Char.isAlphanum, digit]
  · rw [unsigned, if_neg finite]
    split <;> rfl

end Number

namespace Program.Expr

variable {rest : List Char} {more : List Lexeme}

def literalLexemes : Literal → List Lexeme
  | .null => [.name "null"]
  | .bool true => [.name "true"]
  | .bool false => [.name "false"]
  | .number value =>
    if Binary64.isBelowZero value then
      [.punctuator "(", .punctuator "-", Number.lexeme value, .punctuator ")"]
    else [Number.lexeme value]
  | .string value => [.string (utf16 value)]

/-- The lexemes that the code of an expression is meant to have. -/
def lexemes : Expr → List Lexeme
  | .literal value => literalLexemes value
  | .variableRef name | .elements _ (some name) => [.name name]
  | .elements selector none =>
    [.name "document", .punctuator ".", .name "querySelectorAll", .punctuator "(",
      .string (utf16 selector), .punctuator ")"]
  | .dot object property => object.lexemes ++ [.punctuator ".", .name property]
  | .subscript object property =>
    object.lexemes ++ [.punctuator "[", .string (utf16 property), .punctuator "]"]
  | .concat left right =>
    [.punctuator "(", .name "String", .punctuator "("] ++ left.lexemes ++
      [.punctuator ")", .punctuator "+", .name "String", .punctuator "("] ++ right.lexemes ++
      [.punctuator ")", .punctuator ")"]
  | .binary symbol left right =>
    [.punctuator "("] ++ left.lexemes ++ [.punctuator symbol] ++ right.lexemes ++ [.punctuator ")"]
  | .unary symbol operand =>
    [.punctuator "(", .punctuator symbol] ++ operand.lexemes ++ [.punctuator ")"]

/-- A literal that is written with digits alone. -/
def isDigits : Expr → Bool
  | .literal (.number value) => !Binary64.isBelowZero value && Number.isDigits value
  | _ => false

/-- No member of digits is read by name. -/
def KeepsApart : Expr → Prop
  | .literal _ | .variableRef _ | .elements .. => True
  | .dot object _ => object.KeepsApart ∧ object.isDigits = false
  | .subscript object _ => object.KeepsApart
  | .concat left right | .binary _ left right => left.KeepsApart ∧ right.KeepsApart
  | .unary _ operand => operand.KeepsApart

theorem lexes_literal_iff {value : Literal} (ends : startsWord rest = false) :
    Lexes ((Expression.literal value).toList ++ rest) (literalLexemes value ++ more) ↔
      (isDigits (.literal value) = true → rest.head? ≠ some '.') ∧ Lexes rest more := by
  have plain {text : List Char} {lexeme : Lexeme}
      (read : next? (text ++ rest) = some (lexeme, rest)) :
      Lexes (text ++ rest) ([lexeme] ++ more) ↔
        (false = true → rest.head? ≠ some '.') ∧ Lexes rest more := by
    rw [List.singleton_append, lexes_cons_iff read]
    simp
  cases value with
  | null => exact plain (next?_name (by decide) ends)
  | bool value =>
    cases value with
    | true => exact plain (next?_name (by decide) ends)
    | false => exact plain (next?_name (by decide) ends)
  | string value => exact plain (next?_quoted value)
  | number value =>
    have written := Number.toList_text value
    simp only [Expression.literal, literalLexemes, isDigits]
    split
    next below =>
      rw [if_pos below] at written
      have characters : ("(" ++ Number.text value ++ ")").toList ++ rest =
          "(".toList ++ ("-".toList ++ (Number.unsigned value ++ (")".toList ++ rest))) := by
        simp [written]
      rw [characters, List.cons_append, lexes_cons_iff (next?_mark "(" (by decide)),
        List.cons_append, lexes_cons_iff (next?_sign "-" (by decide)
          (Number.startsOperand_unsigned value) (by simp)),
        List.cons_append, Number.lexes_unsigned_iff (by rfl), List.singleton_append,
        lexes_cons_iff (next?_mark ")" (by decide))]
      simp [below]
    next above =>
      rw [if_neg above] at written
      simpa [written, above] using Number.lexes_unsigned_iff ends

theorem startsOperand_identifier {name : String} (valid : isIdentifier name = true) :
    startsOperand (name.toList ++ rest) = true := by
  obtain ⟨nonempty, all, -⟩ := isIdentifierRest_of_isIdentifier valid
  cases characters : name.toList with
  | nil => exact absurd (String.toList_eq_nil_iff.mp characters) nonempty
  | cons first others =>
    rw [characters] at all
    have inWord := List.all_eq_true.mp all first List.mem_cons_self
    simp [startsOperand, inWord]

theorem query_eq (selector : String) :
    Expression.query selector =
      "document" ++ ("." ++ ("querySelectorAll" ++ ("(" ++ (quoted selector ++ ")")))) := by
  have pieces : "document.querySelectorAll(" =
      "document" ++ ("." ++ ("querySelectorAll" ++ "(")) := by
    decide +kernel
  change "document.querySelectorAll(" ++ quoted selector ++ ")" = _
  simp only [pieces, String.append_assoc]

/-- Expressions are operands. -/
theorem startsOperand_render {expr : Expr} (spelled : expr.IsSpelled) :
    startsOperand (expr.render.toList ++ rest) = true := by
  induction expr generalizing rest with
  | literal value =>
    cases value with
    | null => rfl
    | bool value => cases value <;> rfl
    | string value => simp [render, Expression.literal, quoted, startsOperand]
    | number value =>
      simp only [render, Expression.literal]
      split
      next => simp [startsOperand]
      next above =>
        rw [Number.toList_text, if_neg above]
        exact Number.startsOperand_unsigned value
  | variableRef name => exact startsOperand_identifier spelled
  | elements selector key =>
    cases key with
    | none =>
      rw [render, query_eq, String.toList_append, List.append_assoc]
      exact startsOperand_identifier (by decide)
    | some key => exact startsOperand_identifier (spelled key rfl)
  | dot object property ih =>
    rw [render, String.toList_append, String.toList_append, List.append_assoc, List.append_assoc]
    exact ih spelled.1
  | subscript object property ih =>
    simp only [render, String.toList_append, List.append_assoc]
    exact ih spelled
  | concat _ _ | binary _ _ _ | unary _ _ => simp [render, startsOperand]

theorem isDigit_identifier {name : String} (valid : isIdentifier name = true) :
    (name.toList ++ rest).head?.any (·.isDigit) = false := by
  obtain ⟨shape, -⟩ := (Bool.and_eq_true _ _).mp valid
  cases characters : name.toList with
  | nil =>
    rw [characters] at shape
    cases shape
  | cons first others =>
    rw [characters, hasIdentifierShape, Bool.and_eq_true] at shape
    apply Bool.eq_false_iff.mpr
    intro digit
    rw [(kinds_of_isDigit digit).1] at shape
    exact absurd shape.1 (by decide)

/-- A point and a name are two lexemes. -/
theorem lexes_access_iff {property : String} (valid : isIdentifier property = true)
    (ends : startsWord rest = false) :
    Lexes (".".toList ++ (property.toList ++ rest)) (.punctuator "." :: .name property :: more) ↔
      Lexes rest more := by
  have shape : hasIdentifierShape property.toList = true := ((Bool.and_eq_true _ _).mp valid).1
  rw [lexes_cons_iff (next?_sign "." (by decide) (startsOperand_identifier valid)
    fun _ => isDigit_identifier valid), lexes_cons_iff (next?_name shape ends)]

/-- The code of an expression has the lexemes it is meant to have exactly if no member of digits
is read by name in it, and if it is not itself digits in front of a point. -/
theorem lexes_render_iff {expr : Expr} (spelled : expr.IsSpelled)
    (ends : startsWord rest = false) :
    Lexes (expr.render.toList ++ rest) (expr.lexemes ++ more) ↔
      (expr.KeepsApart ∧ (expr.isDigits = true → rest.head? ≠ some '.')) ∧ Lexes rest more := by
  induction expr generalizing rest more with
  | literal value =>
    rw [KeepsApart, true_and]
    exact lexes_literal_iff ends
  | variableRef name =>
    have shape := ((Bool.and_eq_true _ _).mp spelled).1
    rw [render, lexemes, List.singleton_append, lexes_cons_iff (next?_name shape ends)]
    simp [KeepsApart, isDigits]
  | elements selector key =>
    cases key with
    | none =>
      simp only [render, query_eq, lexemes, String.toList_append, List.append_assoc,
        List.cons_append, List.nil_append]
      rw [lexes_cons_iff (next?_name (by decide) (by rfl)),
        lexes_cons_iff (next?_sign "." (by decide) (startsOperand_identifier (by decide))
          fun _ => isDigit_identifier (by decide)),
        lexes_cons_iff (next?_name (by decide) (by rfl)),
        lexes_cons_iff (next?_mark "(" (by decide)), lexes_cons_iff (next?_quoted selector),
        lexes_cons_iff (next?_mark ")" (by decide))]
      simp [KeepsApart, isDigits]
    | some key =>
      have shape := ((Bool.and_eq_true _ _).mp (spelled key rfl)).1
      rw [render, lexemes, List.singleton_append, lexes_cons_iff (next?_name shape ends)]
      simp [KeepsApart, isDigits]
  | dot object property ih =>
    obtain ⟨inside, valid⟩ := spelled
    simp only [render, lexemes, String.toList_append, List.append_assoc]
    rw [ih inside (by rfl), List.cons_append, List.singleton_append, lexes_access_iff valid ends]
    simp [KeepsApart, isDigits]
  | subscript object property ih =>
    simp only [render, lexemes, String.toList_append, List.append_assoc]
    rw [ih spelled (by rfl), List.cons_append, List.cons_append, List.singleton_append,
      lexes_cons_iff (next?_mark "[" (by decide)), lexes_cons_iff (next?_quoted property),
      lexes_cons_iff (next?_mark "]" (by decide))]
    simp [KeepsApart, isDigits]
  | concat left right first second =>
    have opening : "(String(" = "(" ++ ("String" ++ "(") := by decide
    have middle : ") + String(" = ")" ++ (" " ++ ("+" ++ (" " ++ ("String" ++ "(")))) := by decide
    have closing : "))" = ")" ++ ")" := by decide
    have plus := @next?_symbol ("String".toList ++ ("(".toList ++ (right.render.toList ++
      (")".toList ++ (")".toList ++ rest))))) .add "+" rfl
    simp only [render, lexemes, opening, middle, closing, String.toList_append, List.append_assoc,
      List.cons_append, List.nil_append]
    rw [lexes_cons_iff (next?_mark "(" (by decide)),
      lexes_cons_iff (next?_name (by decide) (by rfl)),
      lexes_cons_iff (next?_mark "(" (by decide)), first spelled.1 (by rfl),
      lexes_cons_iff (next?_mark ")" (by decide)), lexes_space_iff, lexes_cons_iff plus,
      lexes_space_iff, lexes_cons_iff (next?_name (by decide) (by rfl)),
      lexes_cons_iff (next?_mark "(" (by decide)), second spelled.2 (by rfl),
      lexes_cons_iff (next?_mark ")" (by decide)), lexes_cons_iff (next?_mark ")" (by decide))]
    simp [KeepsApart, isDigits, and_assoc]
  | binary symbol left right first second =>
    obtain ⟨⟨operator, known⟩, inLeft, inRight⟩ := spelled
    simp only [render, lexemes, String.toList_append, List.append_assoc, List.cons_append,
      List.nil_append]
    rw [lexes_cons_iff (next?_mark "(" (by decide)), first inLeft (by rfl), lexes_space_iff,
      lexes_cons_iff (next?_symbol known), lexes_space_iff, second inRight (by rfl),
      lexes_cons_iff (next?_mark ")" (by decide))]
    simp [KeepsApart, isDigits, and_assoc]
  | unary symbol operand ih =>
    obtain ⟨known, inside⟩ := spelled
    have sign : symbol ∈ ["!", "-", "+", "."] := by
      simp only [List.mem_cons, List.not_mem_nil, or_false] at known ⊢
      tauto
    have apart : symbol ≠ "." := by
      rintro rfl
      exact absurd known (by decide)
    simp only [render, lexemes, String.toList_append, List.append_assoc, List.cons_append,
      List.nil_append]
    rw [lexes_cons_iff (next?_mark "(" (by decide)),
      lexes_cons_iff (next?_sign symbol sign (startsOperand_render inside) (absurd · apart)),
      ih inside (by rfl), lexes_cons_iff (next?_mark ")" (by decide))]
    simp [KeepsApart, isDigits]

end Program.Expr

namespace Node

/-- A whole number that is not negative and below `10 ^ 21`. -/
def isCount : Node → Bool
  | .literal (.number value) => (Binary64.toNat? value).any (· < 10 ^ 21)
  | _ => false

/-- Access to a member of such a number by name. -/
def accessesCount : Node → Bool
  | .member object property => object.isCount && isIdentifier property
  | _ => false

/-- No member of such a number is read by name. -/
def KeepsApart (node : Node) : Prop := node.Everywhere (·.accessesCount = false)

theorem keepsApart_iff {node : Node} :
    node.KeepsApart ↔
      node.accessesCount = false ∧ ∀ child ∈ node.children, child.KeepsApart :=
  everywhere_iff

end Node

namespace Program.Expr

theorem isDigits_number (value : Float) :
    isDigits (.literal (.number value)) = Node.isCount (.literal (.number value)) := by
  have small : Binary64.steps value < Binary64.steps Number.exponentFrom ↔
      Binary64.steps value / Binary64.stepsPerOne < 10 ^ 21 := by
    rw [Number.steps_exponentFrom, Nat.div_lt_iff_lt_mul Binary64.stepsPerOne_pos]
  simp only [isDigits, Number.isDigits, Node.isCount, Binary64.toNat?, small]
  cases Binary64.isWhole value <;> cases Binary64.isBelowZero value <;> simp

/-- The numbers that are written with digits alone are the counts. -/
theorem isDigits_ofNode? {node : Node} {expr : Expr} (code : ofNode? node = some expr) :
    expr.isDigits = node.isCount := by
  cases nodeCode_ofNode? code with
  | @literal value =>
    cases value with
    | number value => exact isDigits_number value
    | _ => rfl
  | _ => rfl

theorem keepsApart_ofNode? {node : Node} {expr : Expr} (code : ofNode? node = some expr) :
    expr.KeepsApart ↔ node.KeepsApart := by
  induction node using Node.childInduction generalizing expr with
  | parent node ih =>
    rw [Node.keepsApart_iff]
    cases nodeCode_ofNode? code with
    | dot valid objectCode =>
      have inside := ih _ (by simp [Node.children]) objectCode
      simp [KeepsApart, Node.children, Node.accessesCount, valid, inside,
        isDigits_ofNode? objectCode, and_comm]
    | subscript other objectCode =>
      have inside := ih _ (by simp [Node.children]) objectCode
      simp [KeepsApart, Node.children, Node.accessesCount, other, inside]
    | concat _ leftCode rightCode | binary _ _ leftCode rightCode =>
      have first := ih _ (by simp [Node.children]) leftCode
      have second := ih _ (by simp [Node.children]) rightCode
      simp [KeepsApart, Node.children, Node.accessesCount, first, second]
    | unary _ operandCode =>
      have inside := ih _ (by simp [Node.children]) operandCode
      simp [KeepsApart, Node.children, Node.accessesCount, inside]
    | _ => simp [KeepsApart, Node.children, Node.accessesCount, context, localVariable, isDigits]

end Program.Expr

namespace Program.Stmt

/-- The lexemes of the call that changes a class, from the point on. -/
def methodLexemes (method className : String) : List Lexeme :=
  [.punctuator ".", .name method, .punctuator "(", .string (utf16 className), .punctuator ")",
    .punctuator ";"]

theorem lexes_method {method : String} (known : method ∈ ["add", "remove", "toggle"])
    (className : String) :
    Lexes (".".toList ++ (method.toList ++ ("(".toList ++ ((quoted className).toList ++
      (")".toList ++ ";".toList))))) (methodLexemes method className) := by
  have identifiers : ∀ method ∈ ["add", "remove", "toggle"], isIdentifier method = true := by decide
  rw [methodLexemes, Expr.lexes_access_iff (identifiers method known) (by rfl),
    lexes_cons_iff (next?_mark "(" (by decide)), lexes_cons_iff (next?_quoted className),
    lexes_cons_iff (next?_mark ")" (by decide))]
  exact .next (next?_mark ";" (by decide)) .done

theorem toList_changeClass (receiver : Expr) (method className : String) :
    (render (.changeClass receiver method className)).toList =
      receiver.render.toList ++ (".".toList ++ ("classList".toList ++ (".".toList ++
        (method.toList ++ ("(".toList ++ ((quoted className).toList ++
          (")".toList ++ ";".toList))))))) := by
  have pieces : "classList." = "classList" ++ "." := by decide
  change (receiver.render ++ "." ++ ("classList." ++ method ++ "(" ++ quoted className ++ ")") ++
    ";").toList = _
  simp only [pieces, String.toList_append, List.append_assoc]

/-- A command that changes the classes of what is no selector. -/
theorem ofCommand?_receiver {method : String} (known : method ∈ ["add", "remove", "toggle"])
    {args : List Node} {className : String} (class? : Statement.className? args = some className)
    {node : Node} (other : ∀ value cacheKey, node ≠ .selector value cacheKey) {expr : Expr}
    (code : Expr.ofNode? node = some expr) :
    ofCommand? method args (some node) = some (.changeClass expr method className) := by
  have receiver (method : String) :
      ofClassCommand? method args (some node) = some (.changeClass expr method className) := by
    unfold ofClassCommand?
    rw [class?]
    cases node with
    | selector value cacheKey => exact absurd rfl (other value cacheKey)
    | _ => simp [code]
  simp only [List.mem_cons, List.not_mem_nil, or_false] at known
  rcases known with rfl | rfl | rfl
  · exact receiver "add"
  · exact receiver "remove"
  · exact receiver "toggle"

end Program.Stmt

/-- The lexemes that the code of an expression is meant to have, if it has code. -/
def Node.lexemes? (node : Node) : Option (List Lexeme) :=
  (Program.Expr.ofNode? node).map Program.Expr.lexemes

/-- The code of an expression has the lexemes it is meant to have exactly if no member of a count
is read by name in it. Behind it, a point and a name are lexemes of their own exactly if, besides,
it is no count itself: in the code of a member, and in that of a command that changes classes. -/
theorem access_lexes_iff {node : Node} (named : Program.Expr.NamesKeys node) {text : String}
    (code : (Expression.generate node).value = some text) :
    ∃ lexemes, node.lexemes? = some lexemes ∧
      (Lexes text.toList lexemes ↔ node.KeepsApart) ∧
      (node.KeepsApart → ∀ others, Lexes text.toList others → others = lexemes) ∧
      (∀ property, isIdentifier property = true →
        (Expression.generate (.member node property)).value = some (text ++ "." ++ property) ∧
        (Lexes (text ++ "." ++ property).toList
            (lexemes ++ [.punctuator ".", .name property]) ↔
          node.KeepsApart ∧ node.isCount = false)) ∧
      ∀ method ∈ ["add", "remove", "toggle"], ∀ args className,
        Statement.className? args = some className →
        (∀ value cacheKey, node ≠ .selector value cacheKey) →
        ∃ statement, (Statement.command method args (some node)).value = some statement ∧
          (Lexes statement.toList
              (lexemes ++ .punctuator "." :: .name "classList" ::
                Program.Stmt.methodLexemes method className) ↔
            node.KeepsApart ∧ node.isCount = false) := by
  rw [Program.Expr.value_generate] at code
  obtain ⟨expr, exprCode, rfl⟩ := Option.map_eq_some_iff.mp code
  have spelled := Program.Expr.isSpelled_ofNode? node named exprCode
  have apart := Program.Expr.keepsApart_ofNode? exprCode
  have digits := Program.Expr.isDigits_ofNode? exprCode
  have access {property : String} (valid : isIdentifier property = true) {rest : List Char}
      (ends : startsWord rest = false) {more : List Lexeme} (lexes : Lexes rest more) :
      Lexes (expr.render.toList ++ (".".toList ++ (property.toList ++ rest)))
          (expr.lexemes ++ .punctuator "." :: .name property :: more) ↔
        node.KeepsApart ∧ node.isCount = false := by
    rw [Program.Expr.lexes_render_iff spelled (by rfl), Program.Expr.lexes_access_iff valid ends,
      apart, digits]
    simp [lexes]
  have whole : Lexes expr.render.toList expr.lexemes ↔ node.KeepsApart := by
    have read := @Program.Expr.lexes_render_iff [] [] expr spelled rfl
    simpa [apart, Lexes.done] using read
  refine ⟨expr.lexemes, by simp [Node.lexemes?, exprCode], whole, ?_, ?_, ?_⟩
  · intro keeps others lexes
    exact lexes.unique (whole.mpr keeps)
  · intro property valid
    constructor
    · rw [Program.Expr.value_generate, Program.Expr.ofNode?, exprCode]
      simp [Program.Expr.ofMember, valid, Program.Expr.render]
    · have read := access valid rfl .done
      simpa using read
  · intro method known args className class? other
    have lowered := Program.Stmt.ofCommand?_receiver known class? other exprCode
    refine ⟨_, by rw [← Program.Stmt.render_ofCommand?, lowered, Option.map_some], ?_⟩
    have read := access (by decide : isIdentifier "classList" = true) (by rfl)
      (Program.Stmt.lexes_method known className)
    rw [Program.Stmt.toList_changeClass]
    exact read

/-- An object that is a count only when its operator is computed. -/
def sumOfCounts : Node := .binary "+" (.literal (.number 2)) (.literal (.number 3))

theorem access_lexes_sumOfCounts :
    ∃ lexemes, sumOfCounts.lexemes? = some lexemes ∧
      Lexes "(2 + 3).x".toList (lexemes ++ [.punctuator ".", .name "x"]) := by
  have named : Program.Expr.NamesKeys sumOfCounts := by
    intro value cacheKey inside
    simp [sumOfCounts, Node.subtree] at inside
  have code : (Expression.generate sumOfCounts).value = some "(2 + 3)" := by decide +kernel
  have keeps : sumOfCounts.KeepsApart := by
    intro inner inside
    simp only [sumOfCounts, Node.subtree, List.mem_cons, List.mem_append, List.not_mem_nil,
      or_false] at inside
    rcases inside with rfl | rfl | rfl <;> rfl
  obtain ⟨lexemes, found, -, -, access, -⟩ := access_lexes_iff named code
  exact ⟨lexemes, found, (access "x" (by decide)).2.mpr ⟨keeps, rfl⟩⟩

/-- Computing the operator leaves digits, and the point behind them is taken for theirs. -/
theorem unreadable_foldedSum :
    (Folding.revision.node sumOfCounts).value = .literal (.number 5) ∧
      (Expression.generate (.member (.literal (.number 5)) "x")).value = some "5.x" ∧
      ∀ lexemes, ¬ Lexes "5.x".toList lexemes := by
  refine ⟨(Folding.folded_eq_literal_iff _ _).mpr (by decide +kernel), by decide +kernel, ?_⟩
  intro lexemes lexes
  have refused : next? "5.x".toList = none := by decide +kernel
  cases lexes with
  | blank blank => exact absurd blank (by decide)
  | next found =>
    rw [refused] at found
    cases found

end Hyperscript
