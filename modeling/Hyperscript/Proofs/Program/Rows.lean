import Hyperscript.Proofs.Program.Spelling

/-! Generated code line by line. A row is a line of the code with its depth, made of fixed
texts, names, quoted strings and expressions. What the emitter writes itself is fixed: it
can be checked once for all scripts that no word runs into the next and which keywords
stand where. -/
namespace Hyperscript.Program

open Text

inductive Piece where
  | fixed (text : String)
  | name (spelling : String)
  | quote (content : String)
  | expr (tree : Expr)

namespace Piece

def render : Piece → String
  | .fixed text => text
  | .name spelling => spelling
  | .quote content => quoted content
  | .expr tree => tree.render

def tokens : Piece → List Token
  | .fixed text => Text.tokens text
  | .name spelling => [.word spelling]
  | .quote _ => [.literal]
  | .expr tree => tree.tokens

/-- The tokens that the emitter writes for every script. -/
def fixedTokens : Piece → List Token
  | .fixed text => Text.tokens text
  | _ => []

def IsSpelled : Piece → Prop
  | .fixed _ | .quote _ => True
  | .name spelling => isIdentifier spelling = true
  | .expr tree => tree.IsSpelled

/-- A fixed text is a whole number of tokens. -/
def isWritten : Piece → Bool
  | .fixed text => text != "" && decide (Spells text (Text.tokens text))
  | _ => true

def startsInWord : Piece → Bool
  | .fixed text => startsWord text.toList
  | .quote _ => false
  | .name _ | .expr _ => true

def endsInWord : Piece → Bool
  | .fixed text => endsWord text.toList
  | .quote _ => false
  | .name _ | .expr _ => true

theorem spells_render {piece : Piece} (written : piece.isWritten = true)
    (spelled : piece.IsSpelled) : Spells piece.render piece.tokens := by
  cases piece with
  | fixed text => exact of_decide_eq_true ((Bool.and_eq_true _ _).mp written).2
  | name spelling => exact spells_identifier spelled
  | quote content => exact spells_quoted content
  | expr tree => exact tree.spells_render spelled

theorem endsWord_render {piece : Piece} (ends : piece.endsInWord = false) :
    endsWord piece.render.toList = false := by
  cases piece with
  | fixed text => exact ends
  | quote content =>
    rw [render, quoted, Expr.endsWord_append (by decide)]
    decide
  | name | expr => cases ends

theorem startsWord_render {piece : Piece} (written : piece.isWritten = true)
    (starts : piece.startsInWord = false) (rest : String) :
    startsWord (piece.render ++ rest).toList = false := by
  cases piece with
  | fixed text =>
    have nonempty : text.toList ≠ [] := by
      simpa using ((Bool.and_eq_true _ _).mp written).1
    obtain ⟨c, others, same⟩ := List.exists_cons_of_ne_nil nonempty
    simp only [startsInWord, startsWord, same] at starts
    simpa [startsWord, render, same] using starts
  | quote content => simp [startsWord, render, quoted, isIdentifierRest]
  | name | expr => cases starts

/-- A keyword in a piece is part of a fixed text. -/
theorem mem_fixedTokens {piece : Piece} (spelled : piece.IsSpelled) {token : Token}
    (member : token ∈ piece.tokens) (keyword : token.isKeyword = true) :
    token ∈ piece.fixedTokens := by
  cases piece with
  | fixed text => exact member
  | name spelling =>
    rw [List.mem_singleton.mp member, isKeyword_of_isIdentifier spelled] at keyword
    cases keyword
  | quote content =>
    rw [List.mem_singleton.mp member] at keyword
    cases keyword
  | expr tree =>
    rw [tree.isKeyword_tokens spelled token member] at keyword
    cases keyword

/-- Only fixed texts open or close brackets. -/
theorem foldlM_tokens {piece : Piece} (spelled : piece.IsSpelled) (opened : List Char) :
    piece.tokens.foldlM openAfter opened = piece.fixedTokens.foldlM openAfter opened := by
  cases piece with
  | expr tree => exact tree.balanced_tokens spelled opened
  | fixed | name | quote => rfl

end Piece

/-- A line of code, and how far right it stands. -/
structure Row where
  depth : Nat := 0
  pieces : List Piece

namespace Row

def renderPieces : List Piece → String
  | [] => ""
  | piece :: rest => piece.render ++ renderPieces rest

/-- The line itself. -/
def text (row : Row) : String := margin row.depth ++ renderPieces row.pieces

def tokens (row : Row) : List Token := row.pieces.flatMap Piece.tokens

def fixedTokens (row : Row) : List Token := row.pieces.flatMap Piece.fixedTokens

/-- The same line further right. -/
def deeper (depth : Nat) (row : Row) : Row := { row with depth := depth + row.depth }

/-- No word runs into the next. -/
def isApart : List Piece → Bool
  | first :: second :: rest =>
    !(first.endsInWord && second.startsInWord) && isApart (second :: rest)
  | _ => true

def isWritten (row : Row) : Bool :=
  !row.fixedTokens.isEmpty && row.pieces.all Piece.isWritten && isApart row.pieces

structure IsSpelled (row : Row) : Prop where
  written : row.isWritten = true
  pieces : ∀ piece ∈ row.pieces, piece.IsSpelled

theorem spells_renderPieces {pieces : List Piece} (written : pieces.all Piece.isWritten = true)
    (apart : isApart pieces = true) (spelled : ∀ piece ∈ pieces, piece.IsSpelled) :
    Spells (renderPieces pieces) (pieces.flatMap Piece.tokens) := by
  induction pieces with
  | nil => decide
  | cons piece rest ih =>
    obtain ⟨first, others⟩ := List.forall_mem_cons.mp spelled
    obtain ⟨here, later⟩ := (Bool.and_eq_true _ _).mp written
    have before := piece.spells_render here first
    cases rest with
    | nil => simpa [renderPieces] using before
    | cons next more =>
      obtain ⟨border, inRest⟩ := (Bool.and_eq_true _ _).mp apart
      refine before.append (ih later inRest others) ?_
      rw [Bool.not_eq_true', Bool.and_eq_false_iff] at border
      refine border.imp Piece.endsWord_render fun starts => ?_
      exact Piece.startsWord_render (List.all_eq_true.mp later next List.mem_cons_self) starts _

namespace IsSpelled

variable {row : Row}

theorem spells_text (spelled : row.IsSpelled) : Spells row.text row.tokens := by
  have written := spelled.written
  simp only [isWritten, Bool.and_eq_true] at written
  exact (spells_renderPieces written.1.2 written.2 spelled.pieces).indented row.depth

theorem text_ne (spelled : row.IsSpelled) : row.text ≠ "" := by
  intro empty
  have none := spelled.spells_text.read
  rw [empty] at none
  have written := spelled.written
  simp only [isWritten, Bool.and_eq_true, Bool.not_eq_true', List.isEmpty_eq_false_iff] at written
  obtain ⟨token, member⟩ := List.exists_mem_of_ne_nil _ written.1.1
  obtain ⟨piece, inRow, inPiece⟩ := List.mem_flatMap.mp member
  have shown : token ∈ row.tokens := by
    refine List.mem_flatMap.mpr ⟨piece, inRow, ?_⟩
    cases piece with
    | fixed => exact inPiece
    | name | quote | expr => cases inPiece
  rw [← none] at shown
  cases shown

theorem mem_fixedTokens (spelled : row.IsSpelled) {token : Token} (member : token ∈ row.tokens)
    (keyword : token.isKeyword = true) : token ∈ row.fixedTokens := by
  obtain ⟨piece, inRow, inPiece⟩ := List.mem_flatMap.mp member
  exact List.mem_flatMap.mpr ⟨piece, inRow, Piece.mem_fixedTokens (spelled.pieces piece inRow)
    inPiece keyword⟩

theorem foldlM_tokens (spelled : row.IsSpelled) (opened : List Char) :
    row.tokens.foldlM openAfter opened = row.fixedTokens.foldlM openAfter opened := by
  obtain ⟨depth, pieces⟩ := row
  have each := spelled.pieces
  clear spelled
  simp only [tokens, fixedTokens]
  induction pieces generalizing opened with
  | nil => rfl
  | cons piece rest ih =>
    obtain ⟨first, others⟩ := List.forall_mem_cons.mp each
    simp only [List.flatMap_cons, List.foldlM_append, Piece.foldlM_tokens first, ih _ others]

end IsSpelled

theorem text_deeper (depth : Nat) (row : Row) :
    (row.deeper depth).text = margin depth ++ row.text := by
  have rows := indented_indented depth row.depth [renderPieces row.pieces]
  simpa [indented, text, deeper] using rows.symm

theorem map_text_deeper (depth : Nat) (rows : List Row) :
    (rows.map (deeper depth)).map text = indented depth (rows.map text) := by
  simp [indented, text_deeper]

theorem IsSpelled.deeper {row : Row} (spelled : row.IsSpelled) (depth : Nat) :
    (row.deeper depth).IsSpelled :=
  ⟨spelled.written, spelled.pieces⟩

/-- Rows as lines beside their tokens. -/
theorem linesSpell {rows : List Row} (spelled : ∀ row ∈ rows, row.IsSpelled) :
    LinesSpell (rows.map text) (rows.map tokens) := by
  induction rows with
  | nil => exact .nil
  | cons row rest ih =>
    obtain ⟨first, others⟩ := List.forall_mem_cons.mp spelled
    exact .cons ⟨first.text_ne, first.spells_text⟩ (ih others)

/-- The line behind a block. -/
def closing : Row := { pieces := [.fixed "\x7d"] }

/-- A block of rows under its header. -/
def block (header body : List Row) : List Row := header ++ body.map (deeper 1) ++ [closing]

end Row

namespace Stmt

/-- Expressions with commas between them. -/
def separated : List Expr → List Piece
  | [] => []
  | [value] => [.expr value]
  | value :: next :: rest => .expr value :: .fixed ", " :: separated (next :: rest)

/-- The head of an iteration. An item that code cannot name takes a row of its own. -/
def eachHeader (itemName : String) (collection : Expr) : List Row :=
  let item := withoutColons itemName
  if isIdentifier item then
    [{ pieces := [.fixed "for (const ", .name item, .fixed " of ", .expr collection,
        .fixed ") \x7b"] }]
  else
    [{ pieces := [.fixed "for (const _item of ", .expr collection, .fixed ") \x7b"] },
      { depth := 1
        pieces := [.fixed Names.contextVar, .fixed ".locals[", .quote item,
          .fixed "] = _item;"] }]

mutual

def rows : Stmt → List Row
  | .throwSignal signal =>
    [{ pieces := [.fixed "throw ", .fixed "_rt.", .name signal, .fixed ";"] }]
  | .throwValue value => [{ pieces := [.fixed "throw ", .expr value, .fixed ";"] }]
  | .leave none => [{ pieces := [.fixed "return;"] }]
  | .leave (some value) => [{ pieces := [.fixed "return ", .expr value, .fixed ";"] }]
  | .log values => [{ pieces := .fixed "console.log(" :: separated values ++ [.fixed ");"] }]
  | .changeClass receiver method className =>
    [{ pieces := [.expr receiver, .fixed ".", .fixed "classList.", .name method, .fixed "(",
        .quote className, .fixed ")", .fixed ";"] }]
  | .changeClasses elements method className =>
    [{ pieces := [.expr elements, .fixed ".forEach((el) => el.", .fixed "classList.", .name method,
        .fixed "(", .quote className, .fixed ")", .fixed ");"] }]
  | .setLocal name value =>
    [{ pieces := [.expr (Expr.localVariable name), .fixed " = ", .expr value, .fixed ";"] }]
  | .setIndex value =>
    [{ pieces := [.fixed Names.indexVar, .fixed " = ", .expr value, .fixed ";"] }]
  | .wait delay =>
    [{ pieces := [.fixed "await new Promise((resolve) => setTimeout(resolve, ", .expr delay,
        .fixed "));"] }]
  | .branch condition thenBranch none =>
    Row.block [{ pieces := [.fixed "if (", .expr condition, .fixed ") \x7b"] }] (rowsAll thenBranch)
  | .branch condition thenBranch (some elseBranch) =>
    { pieces := [.fixed "if (", .expr condition, .fixed ") \x7b"] } ::
      (rowsAll thenBranch).map (.deeper 1) ++
      Row.block [{ pieces := [.fixed "\x7d else \x7b"] }] (rowsAll elseBranch)
  | .forever body => Row.block [{ pieces := [.fixed "while (true) \x7b"] }] (rowsAll body)
  | .counted count body =>
    Row.block
      [{ pieces := [.fixed "for (let ", .fixed Names.indexVar, .fixed " = 0; ",
          .fixed Names.indexVar, .fixed " < ", .expr count, .fixed "; ", .fixed Names.indexVar,
          .fixed "++) \x7b"] }]
      (rowsAll body)
  | .each itemName collection body => Row.block (eachHeader itemName collection) (rowsAll body)
  | .whileLoop condition body =>
    Row.block [{ pieces := [.fixed "while (", .expr condition, .fixed ") \x7b"] }] (rowsAll body)
  | .group statements => rowsAll statements

/-- The rows of the code of several statements. -/
def rowsAll : List Stmt → List Row
  | [] => []
  | statement :: rest => rows statement ++ rowsAll rest

end

theorem isSpelled_separated {values : List Expr} (spelled : ∀ value ∈ values, value.IsSpelled) :
    ∀ piece ∈ separated values, piece.IsSpelled := by
  fun_induction separated values with
  | case1 => simp
  | case2 value => simpa [Piece.IsSpelled] using spelled
  | case3 value next rest ih =>
    obtain ⟨first, others⟩ := List.forall_mem_cons.mp spelled
    exact List.forall_mem_cons.mpr ⟨first, List.forall_mem_cons.mpr ⟨trivial, ih others⟩⟩

theorem isWritten_separated (values : List Expr) :
    (separated values).all Piece.isWritten = true := by
  fun_induction separated values with
  | case1 | case2 => rfl
  | case3 value next rest ih =>
    have comma : (Piece.fixed ", ").isWritten = true := rfl
    simp only [List.all_cons, comma, ih]
    rfl

/-- Commas keep expressions apart, and brackets stand around them. -/
theorem isApart_separated (values : List Expr) {before : Piece} (ends : before.endsInWord = false) :
    Row.isApart (before :: separated values ++ [.fixed ");"]) = true := by
  fun_induction separated values generalizing before with
  | case1 | case2 =>
    simp only [List.cons_append, List.nil_append, Row.isApart, ends]
    rfl
  | case3 value next rest ih =>
    have inRest := ih (show (Piece.fixed ", ").endsInWord = false from rfl)
    simp only [List.cons_append, Row.isApart, ends, Bool.false_and, Bool.not_false, Bool.true_and]
    rw [List.cons_append] at inRest
    rw [inRest]
    rfl

theorem isSpelled_eachHeader (itemName : String) {collection : Expr}
    (spelled : collection.IsSpelled) : ∀ row ∈ eachHeader itemName collection, row.IsSpelled := by
  unfold eachHeader
  dsimp only
  split
  next valid =>
    exact List.forall_mem_singleton.mpr ⟨rfl, by simp [Piece.IsSpelled, valid, spelled]⟩
  next =>
    refine List.forall_mem_cons.mpr ⟨⟨rfl, by simp [Piece.IsSpelled, spelled]⟩, ?_⟩
    exact List.forall_mem_singleton.mpr ⟨rfl, by simp [Piece.IsSpelled]⟩

theorem isSpelled_block {header body : List Row} (inHeader : ∀ row ∈ header, row.IsSpelled)
    (inBody : ∀ row ∈ body, row.IsSpelled) : ∀ row ∈ Row.block header body, row.IsSpelled := by
  refine List.forall_mem_append.mpr ⟨List.forall_mem_append.mpr ⟨inHeader, ?_⟩, ?_⟩
  · exact List.forall_mem_map.mpr fun row member => (inBody row member).deeper 1
  · exact List.forall_mem_singleton.mpr ⟨rfl, by simp [Row.closing, Piece.IsSpelled]⟩

mutual

theorem isSpelled_rows : ∀ {statement : Stmt}, statement.IsSpelled →
    ∀ row ∈ statement.rows, row.IsSpelled
  | .throwSignal signal, spelled => by
    have names : ∀ signal ∈ ["HALT", "EXIT"], isIdentifier signal = true := by decide
    exact List.forall_mem_singleton.mpr ⟨rfl, by simp [Piece.IsSpelled, names signal spelled]⟩
  | .leave none, _ => List.forall_mem_singleton.mpr ⟨rfl, by simp [Piece.IsSpelled]⟩
  | .throwValue value, spelled | .leave (some value), spelled | .setIndex value, spelled
  | .wait value, spelled =>
    have inside : value.IsSpelled := spelled
    List.forall_mem_singleton.mpr ⟨rfl, by simp [Piece.IsSpelled, inside]⟩
  | .setLocal name value, spelled =>
    have inside : value.IsSpelled := spelled
    have place : (Expr.localVariable name).IsSpelled := Expr.isSpelled_context (by decide)
    List.forall_mem_singleton.mpr ⟨rfl, by simp [Piece.IsSpelled, inside, place]⟩
  | .log values, spelled => by
    have apart := isApart_separated values
      (show (Piece.fixed "console.log(").endsInWord = false from rfl)
    refine List.forall_mem_singleton.mpr ⟨?_, ?_⟩
    · simp only [Row.isWritten, apart, List.all_append, List.all_cons, isWritten_separated]
      rfl
    · have inside := isSpelled_separated spelled
      exact List.forall_mem_append.mpr
        ⟨List.forall_mem_cons.mpr ⟨trivial, inside⟩, by simp [Piece.IsSpelled]⟩
  | .changeClass elements method _, spelled | .changeClasses elements method _, spelled => by
    have methods : ∀ method ∈ ["add", "remove", "toggle"], isIdentifier method = true := by decide
    have inside : elements.IsSpelled := spelled.1
    exact List.forall_mem_singleton.mpr
      ⟨rfl, by simp [Piece.IsSpelled, inside, methods method spelled.2]⟩
  | .branch condition thenBranch none, spelled =>
    isSpelled_block (List.forall_mem_singleton.mpr ⟨rfl, by simp [Piece.IsSpelled, spelled.1]⟩)
      (isSpelled_rowsAll spelled.2)
  | .branch condition thenBranch (some elseBranch), spelled => by
    have inThen := isSpelled_rowsAll spelled.2.1
    have inElse := isSpelled_rowsAll spelled.2.2
    refine List.forall_mem_append.mpr ⟨List.forall_mem_cons.mpr ⟨?_, ?_⟩, ?_⟩
    · exact ⟨rfl, by simp [Piece.IsSpelled, spelled.1]⟩
    · exact List.forall_mem_map.mpr fun row member => (inThen row member).deeper 1
    · exact isSpelled_block
        (List.forall_mem_singleton.mpr ⟨rfl, by simp [Piece.IsSpelled]⟩) inElse
  | .forever body, spelled =>
    isSpelled_block (List.forall_mem_singleton.mpr ⟨rfl, by simp [Piece.IsSpelled]⟩)
      (isSpelled_rowsAll spelled)
  | .counted head body, spelled | .whileLoop head body, spelled =>
    isSpelled_block (List.forall_mem_singleton.mpr ⟨rfl, by simp [Piece.IsSpelled, spelled.1]⟩)
      (isSpelled_rowsAll spelled.2)
  | .each itemName collection body, spelled =>
    isSpelled_block (isSpelled_eachHeader itemName spelled.1) (isSpelled_rowsAll spelled.2)
  | .group statements, spelled => @isSpelled_rowsAll statements spelled

theorem isSpelled_rowsAll : ∀ {statements : List Stmt}, AreSpelled statements →
    ∀ row ∈ rowsAll statements, row.IsSpelled
  | [], _ => by simp [rowsAll]
  | _ :: _, spelled =>
    List.forall_mem_append.mpr ⟨isSpelled_rows spelled.1, isSpelled_rowsAll spelled.2⟩

end

/-- The text of a row at the left margin. -/
theorem joinLines_row (pieces : List Piece) :
    joinLines ([{ pieces }].map Row.text) = Row.renderPieces pieces := by
  simp [joinLines, join, Row.text, margin]

theorem renderPieces_append (first second : List Piece) :
    Row.renderPieces (first ++ second) = Row.renderPieces first ++ Row.renderPieces second := by
  induction first with
  | nil => simp [Row.renderPieces]
  | cons piece rest ih => simp only [List.cons_append, Row.renderPieces, ih, String.append_assoc]

theorem renderPieces_separated (values : List Expr) :
    Row.renderPieces (separated values) = join ", " (values.map Expr.render) := by
  fun_induction separated values with
  | case1 => rfl
  | case2 value => simp [Row.renderPieces, Piece.render, join]
  | case3 value next rest ih =>
    simp only [Row.renderPieces, Piece.render, ih, List.map_cons, join, String.append_assoc]

theorem joinLines_eachHeader (itemName : String) (collection : Expr) :
    joinLines ((eachHeader itemName collection).map Row.text) =
      Statement.forEachHeader itemName collection.render := by
  unfold eachHeader Statement.forEachHeader
  dsimp only
  split
  · rw [joinLines_row]
    simp only [Row.renderPieces, Piece.render, String.append_assoc, String.append_empty]
  · have twoLines : ") \x7b\n  " = ") \x7b" ++ "\n" ++ "  " := rfl
    rw [twoLines]
    simp only [List.map_cons, List.map_nil, joinLines, join, Row.text, margin, Row.renderPieces,
      Piece.render, String.append_assoc, String.append_empty, String.empty_append]

theorem joinLines_block {header body : List Row} (inHeader : ∀ row ∈ header, row.IsSpelled)
    (inBody : ∀ row ∈ body, row.IsSpelled) :
    joinLines ((Row.block header body).map Row.text) =
      Statement.block (joinLines (header.map Row.text)) (joinLines (body.map Row.text)) := by
  rw [Statement.block_joinLines (Row.linesSpell inHeader).isLine (Row.linesSpell inBody).isLine,
    Row.block, List.map_append, List.map_append, Row.map_text_deeper]
  rfl

theorem renderAll_nonempty (statements : List Stmt) : ∀ text ∈ renderAll statements, text ≠ "" := by
  induction statements with
  | nil => exact fun text member => nomatch (show text ∈ [] from member)
  | cons statement rest ih =>
    change ∀ text ∈ (if statement.render = "" then renderAll rest
      else statement.render :: renderAll rest), text ≠ ""
    split
    next => exact ih
    next nonempty => exact List.forall_mem_cons.mpr ⟨nonempty, ih⟩

/-- The texts of statements, those without any left out, joined to the text of their rows. -/
theorem joinLines_renderAll_cons {statement : Stmt} {rest : List Stmt}
    (inFirst : ∀ row ∈ statement.rows, row.IsSpelled) (inRest : ∀ row ∈ rowsAll rest, row.IsSpelled)
    (first : statement.render = joinLines (statement.rows.map Row.text))
    (others : joinLines (renderAll rest) = joinLines ((rowsAll rest).map Row.text)) :
    joinLines (renderAll (statement :: rest)) =
      joinLines ((rowsAll (statement :: rest)).map Row.text) := by
  have emptyFirst : statement.render = "" ↔ statement.rows.map Row.text = [] := by
    rw [first]
    exact joinLines_eq_empty_iff fun text member =>
      ((Row.linesSpell inFirst).isLine text member).nonempty
  have emptyRest : renderAll rest = [] ↔ (rowsAll rest).map Row.text = [] := by
    rw [← joinLines_eq_empty_iff (renderAll_nonempty rest), others]
    exact joinLines_eq_empty_iff fun text member =>
      ((Row.linesSpell inRest).isLine text member).nonempty
  have together : (rowsAll (statement :: rest)).map Row.text =
      statement.rows.map Row.text ++ (rowsAll rest).map Row.text := List.map_append
  rw [together]
  change joinLines (if statement.render = "" then renderAll rest
      else statement.render :: renderAll rest) = _
  split
  next empty => rw [emptyFirst.mp empty, List.nil_append, others]
  next nonempty =>
    by_cases last : renderAll rest = []
    · rw [last, emptyRest.mp last, List.append_nil, ← first]
      rfl
    · rw [joinLines_cons _ last, others, first,
        joinLines_append (mt emptyFirst.mpr nonempty) (mt emptyRest.mpr last)]

theorem render_single {statement : Stmt} {pieces : List Piece}
    (rows : statement.rows = [{ pieces }]) (render : statement.render = Row.renderPieces pieces) :
    statement.render = joinLines (statement.rows.map Row.text) := by
  rw [render, rows, joinLines_row]

/-- A loop or branch with one line for its head. -/
theorem render_headed {statement : Stmt} {pieces : List Piece} {body : List Stmt}
    (rows : statement.rows = Row.block [{ pieces }] (rowsAll body))
    (spelled : statement.IsSpelled) (inBody : AreSpelled body)
    (render : statement.render =
      Statement.block (Row.renderPieces pieces) (joinLines (renderAll body)))
    (inner : joinLines (renderAll body) = joinLines ((rowsAll body).map Row.text)) :
    statement.render = joinLines (statement.rows.map Row.text) := by
  have inHeader : ∀ row ∈ [({ pieces } : Row)], row.IsSpelled := by
    intro row member
    apply isSpelled_rows spelled row
    simp [rows, Row.block, List.mem_singleton.mp member]
  rw [render, rows, joinLines_block inHeader (isSpelled_rowsAll inBody), inner, joinLines_row]

mutual

/-- The text of a statement is that of its rows. -/
theorem render_eq_rows : ∀ {statement : Stmt}, statement.IsSpelled →
    statement.render = joinLines (statement.rows.map Row.text)
  | .throwSignal signal, _ => by
    refine render_single rfl ?_
    change "throw " ++ ("_rt." ++ signal) ++ ";" = _
    simp only [Row.renderPieces, Piece.render, String.append_assoc, String.append_empty]
  | .throwValue value, _ => by
    refine render_single rfl ?_
    change "throw " ++ value.render ++ ";" = _
    simp only [Row.renderPieces, Piece.render, String.append_assoc, String.append_empty]
  | .leave none, _ => rfl
  | .leave (some value), _ => by
    refine render_single rfl ?_
    change "return " ++ value.render ++ ";" = _
    simp only [Row.renderPieces, Piece.render, String.append_assoc, String.append_empty]
  | .log values, _ => by
    refine render_single rfl ?_
    change "console.log(" ++ Text.join ", " (values.map Expr.render) ++ ");" = _
    rw [List.cons_append, Row.renderPieces, renderPieces_append, renderPieces_separated]
    simp only [Row.renderPieces, Piece.render, String.append_assoc, String.append_empty]
  | .changeClass receiver method className, _ => by
    refine render_single rfl ?_
    change receiver.render ++ "." ++ ("classList." ++ method ++ "(" ++ quoted className ++ ")") ++
      ";" = _
    simp only [Row.renderPieces, Piece.render, String.append_assoc, String.append_empty]
  | .changeClasses elements method className, _ => by
    refine render_single rfl ?_
    change elements.render ++ ".forEach((el) => el." ++
      ("classList." ++ method ++ "(" ++ quoted className ++ ")") ++ ");" = _
    simp only [Row.renderPieces, Piece.render, String.append_assoc, String.append_empty]
  | .setLocal name value, _ => by
    refine render_single rfl ?_
    change (Expr.localVariable name).render ++ " = " ++ value.render ++ ";" = _
    simp only [Row.renderPieces, Piece.render, String.append_assoc, String.append_empty]
  | .setIndex value, _ => by
    refine render_single rfl ?_
    change Names.indexVar ++ " = " ++ value.render ++ ";" = _
    simp only [Row.renderPieces, Piece.render, String.append_assoc, String.append_empty]
  | .wait delay, _ => by
    refine render_single rfl ?_
    change "await new Promise((resolve) => setTimeout(resolve, " ++ delay.render ++ "));" = _
    simp only [Row.renderPieces, Piece.render, String.append_assoc, String.append_empty]
  | .branch condition thenBranch none, spelled => by
    have inThen := isSpelled_rowsAll spelled.2
    change Statement.conditional condition.render (joinLines (renderAll thenBranch)) none = _
    rw [renderAll_eq_rowsAll spelled.2,
      Statement.conditional_joinLines _ (Row.linesSpell inThen).isLine, rows, Row.block,
      List.map_append, List.map_append, Row.map_text_deeper]
    simp only [List.map_cons, List.map_nil, Row.text, Row.renderPieces, Piece.render, Row.closing,
      margin, String.append_assoc, String.append_empty, String.empty_append, List.cons_append,
      List.nil_append]
  | .branch condition thenBranch (some elseBranch), spelled => by
    have inThen := isSpelled_rowsAll spelled.2.1
    have inElse := isSpelled_rowsAll spelled.2.2
    change Statement.conditional condition.render (joinLines (renderAll thenBranch))
      (some (joinLines (renderAll elseBranch))) = _
    rw [renderAll_eq_rowsAll spelled.2.1, renderAll_eq_rowsAll spelled.2.2,
      Statement.conditional_joinLines_else _ (Row.linesSpell inThen).isLine
        (Row.linesSpell inElse).isLine, rows, Row.block]
    simp only [List.map_append, Row.map_text_deeper, List.map_cons, List.map_nil, Row.text,
      Row.renderPieces, Piece.render, Row.closing, margin, String.append_assoc,
      String.append_empty, String.empty_append, List.cons_append, List.nil_append,
      List.append_assoc]
  | .forever body, spelled => by
    refine render_headed rfl spelled spelled ?_ (renderAll_eq_rowsAll spelled)
    rfl
  | .counted count body, spelled => by
    refine render_headed rfl spelled spelled.2 ?_ (renderAll_eq_rowsAll spelled.2)
    change Statement.block ("for (let " ++ Names.indexVar ++ " = 0; " ++ Names.indexVar ++ " < " ++
      count.render ++ "; " ++ Names.indexVar ++ "++) \x7b") (joinLines (renderAll body)) = _
    simp only [Row.renderPieces, Piece.render, String.append_assoc, String.append_empty]
  | .whileLoop condition body, spelled => by
    refine render_headed rfl spelled spelled.2 ?_ (renderAll_eq_rowsAll spelled.2)
    change Statement.block ("while (" ++ condition.render ++ ") \x7b")
      (joinLines (renderAll body)) = _
    simp only [Row.renderPieces, Piece.render, String.append_assoc, String.append_empty]
  | .each itemName collection body, spelled => by
    change Statement.block (Statement.forEachHeader itemName collection.render)
      (joinLines (renderAll body)) = _
    rw [renderAll_eq_rowsAll spelled.2, rows,
      joinLines_block (isSpelled_eachHeader itemName spelled.1) (isSpelled_rowsAll spelled.2),
      joinLines_eachHeader]
  | .group statements, spelled => @renderAll_eq_rowsAll statements spelled

theorem renderAll_eq_rowsAll : ∀ {statements : List Stmt}, AreSpelled statements →
    joinLines (renderAll statements) = joinLines ((rowsAll statements).map Row.text)
  | [], _ => rfl
  | _ :: _, spelled =>
    joinLines_renderAll_cons (isSpelled_rows spelled.1) (isSpelled_rowsAll spelled.2)
      (render_eq_rows spelled.1) (renderAll_eq_rowsAll spelled.2)

end

end Stmt
end Hyperscript.Program
