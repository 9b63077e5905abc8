import Hyperscript.Proofs.Program.Keywords
import Hyperscript.Proofs.Text.Identifiers
import Hyperscript.Proofs.Text.Literals

/-! The texts of a script in generated code. Selectors, classes, members, events and string
values are quoted, and nothing else in the code is: read as literals, the code has these texts
and no others, each of them whole. -/
namespace Hyperscript

open Text

namespace Text

/-- A class of characters that are all in the first 128, and none of them a quote. -/
theorem quotes_of_all {p : Char → Bool} (ascii : ∀ c, p c = true → c.toNat < 128)
    (plain : ∀ n < 128, p (Char.ofNat n) = true → isCodeChar (Char.ofNat n) = true)
    {code : String} (all : ∀ c ∈ code.toList, p c = true) : Quotes code [] := by
  refine quotes_unquoted fun c member => ?_
  have inClass := all c member
  have known := plain c.toNat (ascii c inClass)
  rw [Char.ofNat_toNat] at known
  exact known inClass

theorem quotes_identifier {name : String} (valid : isIdentifier name = true) : Quotes name [] := by
  obtain ⟨_, all, _⟩ := isIdentifierRest_of_isIdentifier valid
  exact quotes_of_all (fun _ => toNat_lt_of_isIdentifierRest) (by decide +kernel)
    (List.all_eq_true.mp all)

/-- A text that the emitter writes itself. -/
def isUnquoted (text : String) : Bool := text.toList.all isCodeChar

theorem quotes_fixed {text : String} (unquoted : isUnquoted text = true) : Quotes text [] :=
  quotes_unquoted (List.all_eq_true.mp unquoted)

end Text

theorem Number.quotes_text (x : Float) : Quotes (Number.text x) [] := by
  have ascii (c : Char) (numeral : Number.isNumeral c = true) : c.toNat < 128 := by
    obtain digit | other := (Bool.or_eq_true _ _).mp numeral
    · exact toNat_lt_of_isDigit digit
    · have marks : ∀ c ∈ ['.', 'e', '+', '-'], decide (c.toNat < 128) = true :=
        List.all_eq_true.mp (by decide)
      exact of_decide_eq_true (marks c (List.contains_iff_mem.mp other))
  obtain word | numeral := Number.isNumeral_text x
  · have words : ∀ word ∈ ["NaN", "Infinity", "-Infinity"], isUnquoted word = true := by decide
    exact quotes_fixed (words _ word)
  · exact quotes_of_all ascii (by decide +kernel) numeral

namespace Program

namespace Expr

/-- The texts that are quoted in the code of an expression. -/
def texts : Expr → List String
  | .literal (.string value) => [value]
  | .literal _ | .variableRef _ | .elements _ (some _) => []
  | .elements selector none => [selector]
  | .dot object _ => object.texts
  | .subscript object property => object.texts ++ [property]
  | .concat left right | .binary _ left right => left.texts ++ right.texts
  | .unary _ operand => operand.texts

theorem quotes_literal (value : Literal) :
    Quotes (Expression.literal value) (texts (.literal value)) := by
  cases value with
  | null => exact quotes_fixed (by decide)
  | bool value => cases value <;> exact quotes_fixed (by decide)
  | number value =>
    have left : Quotes "(" [] := quotes_fixed (by decide)
    have right : Quotes ")" [] := quotes_fixed (by decide)
    simp only [Expression.literal]
    split
    · exact (left.append (Number.quotes_text value)).append right
    · exact Number.quotes_text value
  | string value => exact quotes_quoted value

theorem quotes_query (selector : String) : Quotes (Expression.query selector) [selector] := by
  have start : Quotes "document.querySelectorAll(" [] := quotes_fixed (by decide +kernel)
  have finish : Quotes ")" [] := quotes_fixed (by decide)
  exact (start.append (quotes_quoted selector)).append finish

theorem quotes_render {expr : Expr} (spelled : expr.IsSpelled) : Quotes expr.render expr.texts := by
  have left : Quotes "(" [] := quotes_fixed (by decide)
  have right : Quotes ")" [] := quotes_fixed (by decide)
  have blank : Quotes " " [] := quotes_fixed (by decide)
  induction expr with
  | literal value => exact quotes_literal value
  | variableRef name => exact quotes_identifier spelled
  | elements selector key =>
    cases key with
    | none => exact quotes_query selector
    | some key => exact quotes_identifier (spelled key rfl)
  | dot object property ih =>
    have point : Quotes "." [] := quotes_fixed (by decide)
    simpa [render, texts] using ((ih spelled.1).append point).append (quotes_identifier spelled.2)
  | subscript object property ih =>
    have opening : Quotes "[" [] := quotes_fixed (by decide)
    have closing : Quotes "]" [] := quotes_fixed (by decide)
    have whole := (((ih spelled).append opening).append (quotes_quoted property)).append closing
    simpa [render, texts] using whole
  | concat first second inFirst inSecond =>
    have opening : Quotes "(String(" [] := quotes_fixed (by decide)
    have middle : Quotes ") + String(" [] := quotes_fixed (by decide)
    have closing : Quotes "))" [] := quotes_fixed (by decide)
    have whole := (((opening.append (inFirst spelled.1)).append middle).append
      (inSecond spelled.2)).append closing
    simpa [render, texts] using whole
  | binary symbol first second inFirst inSecond =>
    obtain ⟨⟨operator, known⟩, spelledFirst, spelledSecond⟩ := spelled
    have sign : Quotes symbol [] := by
      cases operator with
      | concat => cases known
      | _ =>
        cases known
        exact quotes_fixed (by decide)
    have start := ((left.append (inFirst spelledFirst)).append blank).append sign
    have whole := ((start.append blank).append (inSecond spelledSecond)).append right
    simpa [render, texts] using whole
  | unary symbol operand ih =>
    have signs : ∀ symbol ∈ ["!", "-", "+"], isUnquoted symbol = true := by decide
    have sign : Quotes symbol [] := quotes_fixed (signs symbol spelled.1)
    simpa [render, texts] using ((left.append sign).append (ih spelled.2)).append right

end Expr

namespace Piece

/-- The texts that are quoted in a piece of code. -/
def texts : Piece → List String
  | .fixed _ | .name _ => []
  | .quote content => [content]
  | .expr tree => tree.texts

theorem quotes_render {piece : Piece} (spelled : piece.IsSpelled)
    (unquoted : ∀ text, piece = .fixed text → isUnquoted text = true) :
    Quotes piece.render piece.texts := by
  cases piece with
  | fixed text => exact quotes_fixed (unquoted text rfl)
  | name spelling => exact quotes_identifier spelled
  | quote content => exact quotes_quoted content
  | expr tree => exact tree.quotes_render spelled

end Piece

namespace Row

def texts (row : Row) : List String := row.pieces.flatMap Piece.texts

theorem quotes_margin (depth : Nat) : Quotes (margin depth) [] := by
  refine quotes_unquoted fun c member => ?_
  rw [toList_margin depth c member]
  rfl

theorem quotes_renderPieces {pieces : List Piece} (spelled : ∀ piece ∈ pieces, piece.IsSpelled)
    (unquoted : ∀ text, .fixed text ∈ pieces → isUnquoted text = true) :
    Quotes (renderPieces pieces) (pieces.flatMap Piece.texts) := by
  induction pieces with
  | nil => exact quotes_fixed (by decide)
  | cons piece rest ih =>
    obtain ⟨first, others⟩ := List.forall_mem_cons.mp spelled
    have inPiece := Piece.quotes_render first fun text same => unquoted text (by simp [same])
    have inRest := ih others fun text member => unquoted text (List.mem_cons_of_mem _ member)
    exact inPiece.append inRest

theorem mem_fixedTexts {row : Row} {text : String} (member : .fixed text ∈ row.pieces) :
    text ∈ row.fixedTexts :=
  List.mem_flatMap.mpr ⟨.fixed text, member, List.mem_singleton_self text⟩

theorem quotes_text {row : Row} (spelled : row.IsSpelled)
    (unquoted : ∀ text ∈ row.fixedTexts, isUnquoted text = true) : Quotes row.text row.texts :=
  (quotes_margin row.depth).append <|
    quotes_renderPieces spelled.pieces fun text member => unquoted text (mem_fixedTexts member)

/-- Lines one after the other have the texts of all of them. -/
theorem quotes_joinLines {rows : List Row} (spelled : ∀ row ∈ rows, row.IsSpelled)
    (unquoted : ∀ row ∈ rows, ∀ text ∈ row.fixedTexts, isUnquoted text = true) :
    Quotes (joinLines (rows.map text)) (rows.flatMap texts) := by
  have each : List.Forall₂ Quotes (rows.map text) (rows.map texts) := by
    rw [List.forall₂_map_left_iff, List.forall₂_map_right_iff, List.forall₂_same]
    exact fun row member => quotes_text (spelled row member) (unquoted row member)
  exact join_of_append (quotes_fixed (by decide)) (quotes_fixed (by decide)) Quotes.append each

end Row

namespace Stmt

theorem CommandCode.isUnquoted {name : String} {args : List Node} {target : Option Node}
    {statement : Stmt} (code : CommandCode name args target statement) :
    ∀ row ∈ statement.rows, ∀ text ∈ row.fixedTexts, isUnquoted text = true := by
  cases code with
  | @log _ _ exprs =>
    have known : ∀ text ∈ ["console.log(", ", ", ");"], Text.isUnquoted text = true := by decide
    exact List.forall_mem_singleton.mpr fun text member =>
      known text (fixedTexts_log exprs text member)
  | _ =>
    refine List.forall_mem_singleton.mpr (List.all_eq_true.mp ?_)
    rfl

theorem isUnquoted_rowsAll (nodes : List Node) :
    ∀ row ∈ rowsAll (ofNodes nodes), ∀ text ∈ row.fixedTexts, isUnquoted text = true := by
  refine forall_rowsAll (q := fun row => ∀ text ∈ row.fixedTexts, isUnquoted text = true)
    fun node _ statement code => ?_
  have covers : Covers (fun texts => ∀ text ∈ texts, isUnquoted text = true) node :=
    ⟨by decide +kernel, fun _ _ code => code.isUnquoted⟩
  exact covers.forall_rows code

end Stmt

namespace Function

/-- The emitter writes no quotes into a function itself. -/
theorem isUnquoted_rows (handler : Handler) (facts : Facts) (context : Context) :
    ∀ row ∈ (ofHandler handler facts context).rows, ∀ text ∈ row.fixedTexts,
      isUnquoted text = true := by
  set function := ofHandler handler facts context
  have all {row : Row} (checked : row.fixedTexts.all isUnquoted = true) :
      ∀ text ∈ row.fixedTexts, isUnquoted text = true := List.all_eq_true.mp checked
  have opening : ∀ text ∈ function.openingRow.fixedTexts, isUnquoted text = true := by
    unfold openingRow
    split
    · exact all rfl
    · exact all rfl
  have declarations : ∀ row ∈ function.declarations.map declarationRow, ∀ text ∈ row.fixedTexts,
      isUnquoted text = true :=
    List.forall_mem_map.mpr fun _ _ => all rfl
  have body : ∀ row ∈ function.bodyRows, ∀ text ∈ row.fixedTexts, isUnquoted text = true :=
    List.forall_mem_append.mpr ⟨forall_mem_callRows (all rfl) (all rfl) _,
      Stmt.isUnquoted_rowsAll handler.body⟩
  have caught : ∀ row ∈ catchRows, ∀ text ∈ row.fixedTexts, isUnquoted text = true := by
    decide +kernel
  have guarded : ∀ row ∈ function.guardedRows, ∀ text ∈ row.fixedTexts,
      isUnquoted text = true := by
    unfold guardedRows
    split
    · refine List.forall_mem_append.mpr ⟨List.forall_mem_cons.mpr ⟨all rfl, ?_⟩, caught⟩
      exact List.forall_mem_map.mpr body
    · exact body
  have inside : ∀ row ∈ setupRow :: function.declarations.map declarationRow ++
      function.guardedRows, ∀ text ∈ row.fixedTexts, isUnquoted text = true :=
    List.forall_mem_append.mpr ⟨List.forall_mem_cons.mpr ⟨all rfl, declarations⟩, guarded⟩
  refine List.forall_mem_append.mpr ⟨List.forall_mem_append.mpr ⟨?_, ?_⟩, ?_⟩
  · exact List.forall_mem_singleton.mpr opening
  · exact List.forall_mem_map.mpr inside
  · exact List.forall_mem_singleton.mpr (all rfl)

/-- The texts that are quoted in a function. -/
def texts (function : Function) : List String := function.rows.flatMap Row.texts

theorem quotes_render {handler : Handler} {facts : Facts} {context : Context}
    (spelled : (ofHandler handler facts context).IsSpelled) :
    Quotes (ofHandler handler facts context).render (ofHandler handler facts context).texts := by
  rw [render_eq_rows spelled]
  exact Row.quotes_joinLines (isSpelled_rows spelled) (isUnquoted_rows handler facts context)

end Function
end Program
end Hyperscript
