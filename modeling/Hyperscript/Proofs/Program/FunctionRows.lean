import Hyperscript.Proofs.Program.FunctionLines
import Hyperscript.Proofs.Program.Rows

/-! The function of a handler line by line: its head, the context, the declarations, and then
the body, which stands between `try` and `catch` where it can throw. -/
namespace Hyperscript.Program

open Text

namespace Row

theorem text_fixed (line : String) : ({ pieces := [.fixed line] } : Row).text = line := by
  simp [text, margin, renderPieces, Piece.render]

theorem text_closing : closing.text = "\x7d" := text_fixed "\x7d"

end Row

namespace Function

/-- The head of the function. -/
def openingRow (function : Function) : Row where
  pieces :=
    (if function.facts.hasAsync then [.fixed "async "] else []) ++
      [.fixed "function ", .name (Names.functionName function.handlerId), .fixed "(",
        .fixed Names.eventParam, .fixed ") \x7b"]

def setupRow : Row where
  pieces := [.fixed "const ", .fixed Names.contextVar, .fixed " = ", .fixed "_rt.",
    .fixed Names.createContext, .fixed "(", .fixed Names.eventParam, .fixed ", this);"]

def declarationRow (declaration : String × String) : Row where
  pieces := [.fixed "const ", .name declaration.1, .fixed " = ",
    .expr (.elements declaration.2 none), .fixed ";"]

/-- A call that a modifier asks for. -/
def callRow (method : String) : Row where
  pieces := [.fixed Names.eventParam, .fixed method]

def callRows (modifiers : Modifiers) : List Row :=
  (if modifiers.prevent then [callRow ".preventDefault();"] else []) ++
    (if modifiers.stop then [callRow ".stopPropagation();"] else [])

/-- What the function does after its declarations. -/
def bodyRows (function : Function) : List Row :=
  callRows function.modifiers ++ Stmt.rowsAll function.body

def tryRow : Row where pieces := [.fixed "try \x7b"]

/-- How a guarded function ends. -/
def catchRows : List Row :=
  { pieces := [.fixed "\x7d catch (_err) \x7b"] } ::
    (GeneratedHandler.catchLines.map fun line => { depth := 1, pieces := [.fixed line] }) ++
    [Row.closing]

def guardedRows (function : Function) : List Row :=
  if function.facts.canThrow then
    tryRow :: function.bodyRows.map (.deeper 1) ++ catchRows
  else function.bodyRows

def rows (function : Function) : List Row :=
  Row.block [function.openingRow]
    (setupRow :: function.declarations.map declarationRow ++ function.guardedRows)

/-- The names that the function declares are identifiers, and its body is spelled with such. -/
structure IsSpelled (function : Function) : Prop where
  name : isIdentifier (Names.functionName function.handlerId) = true
  declarations : ∀ declaration ∈ function.declarations, isIdentifier declaration.1 = true
  body : Stmt.AreSpelled function.body

variable {function : Function}

theorem isSpelled_openingRow (spelled : function.IsSpelled) : function.openingRow.IsSpelled := by
  have valid := spelled.name
  unfold openingRow
  split
  · exact ⟨rfl, by simp [Piece.IsSpelled, valid]⟩
  · exact ⟨rfl, by simp [Piece.IsSpelled, valid]⟩

theorem isSpelled_setupRow : setupRow.IsSpelled :=
  ⟨by decide +kernel, by simp [setupRow, Piece.IsSpelled]⟩

theorem isSpelled_declarationRows (spelled : function.IsSpelled) :
    ∀ row ∈ function.declarations.map declarationRow, row.IsSpelled := by
  refine List.forall_mem_map.mpr fun declaration member => ⟨rfl, ?_⟩
  simp [declarationRow, Piece.IsSpelled, Expr.IsSpelled, spelled.declarations declaration member]

theorem forall_mem_callRows {p : Row → Prop} (prevent : p (callRow ".preventDefault();"))
    (stop : p (callRow ".stopPropagation();")) (modifiers : Modifiers) :
    ∀ row ∈ callRows modifiers, p row := by
  have asked {flag : Bool} {row : Row} (holds : p row) :
      ∀ other ∈ (if flag then [row] else []), p other := by
    cases flag <;> simp [holds]
  exact List.forall_mem_append.mpr ⟨asked prevent, asked stop⟩

theorem isSpelled_callRow {method : String}
    (known : method ∈ [".preventDefault();", ".stopPropagation();"]) :
    (callRow method).IsSpelled := by
  have written : ∀ method ∈ [".preventDefault();", ".stopPropagation();"],
      (callRow method).isWritten = true := by decide +kernel
  exact ⟨written method known, by simp [callRow, Piece.IsSpelled]⟩

theorem isSpelled_bodyRows (spelled : function.IsSpelled) :
    ∀ row ∈ function.bodyRows, row.IsSpelled := by
  refine List.forall_mem_append.mpr ⟨?_, Stmt.isSpelled_rowsAll spelled.body⟩
  exact forall_mem_callRows (isSpelled_callRow (by decide)) (isSpelled_callRow (by decide)) _

theorem isSpelled_catchRows : ∀ row ∈ catchRows, row.IsSpelled := by
  have written : ∀ row ∈ catchRows, row.isWritten = true := by decide +kernel
  have fixed : ∀ row ∈ catchRows, ∀ piece ∈ row.pieces, piece.IsSpelled := by
    simp only [catchRows, List.forall_mem_append, List.forall_mem_cons, List.forall_mem_map,
      Row.closing]
    exact ⟨⟨⟨trivial, by simp⟩, fun line _ => ⟨trivial, by simp⟩⟩, ⟨trivial, by simp⟩, by simp⟩
  exact fun row member => ⟨written row member, fixed row member⟩

theorem isSpelled_guardedRows (spelled : function.IsSpelled) :
    ∀ row ∈ function.guardedRows, row.IsSpelled := by
  unfold guardedRows
  split
  · refine List.forall_mem_append.mpr ⟨List.forall_mem_cons.mpr ⟨?_, ?_⟩, isSpelled_catchRows⟩
    · exact ⟨rfl, by simp [tryRow, Piece.IsSpelled]⟩
    · exact List.forall_mem_map.mpr fun row member =>
        (isSpelled_bodyRows spelled row member).deeper 1
  · exact isSpelled_bodyRows spelled

theorem isSpelled_rows (spelled : function.IsSpelled) : ∀ row ∈ function.rows, row.IsSpelled := by
  refine Stmt.isSpelled_block (List.forall_mem_singleton.mpr (isSpelled_openingRow spelled)) ?_
  refine List.forall_mem_append.mpr ⟨?_, isSpelled_guardedRows spelled⟩
  exact List.forall_mem_cons.mpr ⟨isSpelled_setupRow, isSpelled_declarationRows spelled⟩

theorem text_openingRow (function : Function) :
    function.openingRow.text =
      (if function.facts.hasAsync then "async " else "") ++ "function " ++
        Names.functionName function.handlerId ++ "(" ++ Names.eventParam ++ ") \x7b" := by
  unfold openingRow
  split <;>
    simp only [Row.text, margin, Row.renderPieces, Piece.render, List.cons_append, List.nil_append,
      String.empty_append, String.append_empty, String.append_assoc]

theorem text_declarationRow (declaration : String × String) :
    (declarationRow declaration).text = GeneratedHandler.declaration declaration := by
  change _ = "const " ++ declaration.1 ++ " = " ++ Expression.query declaration.2 ++ ";"
  simp only [Row.text, margin, declarationRow, Row.renderPieces, Piece.render, Expr.render,
    String.empty_append, String.append_empty, String.append_assoc]

theorem text_bodyRows (function : Function) :
    function.bodyRows.map Row.text =
      GeneratedHandler.callLines function.modifiers ++
        (Stmt.rowsAll function.body).map Row.text := by
  have asked (flag : Bool) (method : String) :
      (if flag then [callRow method] else []).map Row.text =
        if flag then [Names.eventParam ++ method] else [] := by
    cases flag
    · rfl
    · simp [callRow, Row.text, margin, Row.renderPieces, Piece.render]
  simp only [bodyRows, callRows, List.map_append, asked, GeneratedHandler.callLines]

theorem text_catchRows :
    catchRows.map Row.text =
      "\x7d catch (_err) \x7b" :: indented 1 GeneratedHandler.catchLines ++ ["\x7d"] := by
  have inner (line : String) :
      ({ depth := 1, pieces := [.fixed line] } : Row).text = margin 1 ++ line := by
    simp [Row.text, Row.renderPieces, Piece.render]
  simp [catchRows, Row.text_fixed, Row.text_closing, inner, indented]

/-- What stands below the declarations. -/
theorem text_guardedRows (function : Function) :
    indented 1 (function.guardedRows.map Row.text) ++ ["\x7d"] =
      GeneratedHandler.entryLines function.modifiers function.facts ++
        indented (GeneratedHandler.bodyDepth function.facts)
          ((Stmt.rowsAll function.body).map Row.text) ++
        GeneratedHandler.exitLines function.facts := by
  have opening : margin 1 ++ tryRow.text = "  try \x7b" := by decide +kernel
  unfold guardedRows GeneratedHandler.entryLines GeneratedHandler.bodyDepth
    GeneratedHandler.exitLines
  split
  · rw [List.map_append, List.map_cons, Row.map_text_deeper, text_bodyRows, text_catchRows,
      indented_append, indented_append, indented_cons, opening, indented_append,
      indented_indented, indented_indented]
    simp only [List.append_assoc, List.cons_append, List.nil_append]
  · rw [text_bodyRows, indented_append]
    simp only [List.nil_append]

/-- The lines of a function, as they are written. -/
theorem text_rows (function : Function) :
    function.rows.map Row.text =
      GeneratedHandler.headLines function.handlerId function.facts ++
        GeneratedHandler.declarationLines function.declarations ++
        (indented 1 (function.guardedRows.map Row.text) ++ ["\x7d"]) := by
  have setup : margin 1 ++ setupRow.text = "  " ++ GeneratedHandler.setupLine := by decide +kernel
  have declared : indented 1 ((function.declarations.map declarationRow).map Row.text) =
      GeneratedHandler.declarationLines function.declarations := by
    simp only [indented, List.map_map, Function.comp_def, text_declarationRow]
    rfl
  rw [rows, Row.block, List.map_append, List.map_append, Row.map_text_deeper, List.map_append,
    indented_append, List.map_singleton, List.map_singleton, List.map_cons, indented_cons, setup,
    declared, text_openingRow, Row.text_closing]
  simp only [GeneratedHandler.headLines, GeneratedHandler.heading, List.append_assoc,
    List.cons_append, List.nil_append]

/-- The text of a function is that of its rows. -/
theorem render_eq_rows (spelled : function.IsSpelled) :
    function.render = joinLines (function.rows.map Row.text) := by
  have inBody := (Row.linesSpell (Stmt.isSpelled_rowsAll spelled.body)).isLine
  rw [render, GeneratedHandler.functionCode_eq_joinLines, Stmt.renderAll_eq_rowsAll spelled.body,
    lines_joinLines inBody, shifted, map_indentLine inBody, text_rows, text_guardedRows]
  simp only [List.append_assoc]

end Function
end Hyperscript.Program
