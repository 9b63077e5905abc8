import Hyperscript.Proofs.Program.Keywords
import Hyperscript.Proofs.Text.Nesting

/-! Brackets in generated code. What rows leave open is decided by their fixed texts, and the
rows of a statement leave nothing open: a block ends where its own brace is closed. -/
namespace Hyperscript

open Text

namespace Program

namespace Row

/-- What rows leave open is what their fixed texts leave open. -/
theorem leaves_tokens {rows : List Row} (texts : List String)
    (spelled : ∀ row ∈ rows, row.IsSpelled) (same : rows.flatMap fixedTexts = texts)
    {brackets : List Char}
    (alone : (texts.flatMap Text.tokens).foldlM openAfter [] = some brackets) :
    Leaves (rows.flatMap tokens) brackets := by
  have fixed : rows.flatMap fixedTokens = texts.flatMap Text.tokens := by
    rw [← same, List.flatMap_assoc]
    exact List.flatMap_congr fun row _ => row.fixedTokens_eq
  intro opened
  rw [← leaves_of_foldlM alone opened, ← fixed]
  clear fixed same alone
  induction rows generalizing opened with
  | nil => rfl
  | cons row rest ih =>
    obtain ⟨first, others⟩ := List.forall_mem_cons.mp spelled
    simp only [List.flatMap_cons, List.foldlM_append, first.foldlM_tokens, ih others]

theorem balanced_flatMap {rows : List Row} (each : ∀ row ∈ rows, Balanced row.tokens) :
    Balanced (rows.flatMap tokens) := by
  induction rows with
  | nil => exact .nil
  | cons row rest ih =>
    obtain ⟨first, others⟩ := List.forall_mem_cons.mp each
    exact first.append (ih others)

theorem flatMap_tokens_deeper (depth : Nat) (rows : List Row) :
    (rows.map (deeper depth)).flatMap tokens = rows.flatMap tokens := by
  rw [List.flatMap_map]
  rfl

theorem balanced_block {header body : List Row} (inHeader : Leaves (header.flatMap tokens) ['\x7b'])
    (inBody : Balanced (body.flatMap tokens)) : Balanced ((block header body).flatMap tokens) := by
  rw [block, List.flatMap_append, List.flatMap_append, flatMap_tokens_deeper]
  exact (inHeader.append inBody).closed

end Row

namespace Stmt

theorem balanced_separated {values : List Expr} (spelled : ∀ value ∈ values, value.IsSpelled) :
    Balanced ((separated values).flatMap Piece.tokens) := by
  fun_induction separated values with
  | case1 => exact .nil
  | case2 value =>
    have only := spelled value List.mem_cons_self
    simpa [Piece.tokens] using value.balanced_tokens only
  | case3 value next rest ih =>
    obtain ⟨first, others⟩ := List.forall_mem_cons.mp spelled
    have comma : Balanced (Text.tokens ", ") := .of_plain (by decide)
    rw [List.flatMap_cons, List.flatMap_cons]
    exact (value.balanced_tokens first).append (comma.append (ih others))

theorem leaves_eachHeader (itemName : String) {collection : Expr}
    (spelled : collection.IsSpelled) :
    Leaves ((eachHeader itemName collection).flatMap Row.tokens) ['\x7b'] := by
  have rows := isSpelled_eachHeader itemName spelled
  revert rows
  unfold eachHeader
  dsimp only
  split
  · intro rows
    exact Row.leaves_tokens ["for (const ", " of ", ") \x7b"] rows rfl (by decide +kernel)
  · intro rows
    exact Row.leaves_tokens
      ["for (const _item of ", ") \x7b", Names.contextVar, ".locals[", "] = _item;"] rows rfl
      (by decide +kernel)

/-- The rows of a statement without a block. -/
theorem balanced_single {statement : Stmt} (texts : List String) (spelled : statement.IsSpelled)
    (same : statement.rows.flatMap Row.fixedTexts = texts)
    (alone : (texts.flatMap Text.tokens).foldlM openAfter [] = some []) :
    Balanced (statement.rows.flatMap Row.tokens) :=
  Row.leaves_tokens texts (isSpelled_rows spelled) same alone

/-- The head of a statement with one block. -/
theorem leaves_header {statement : Stmt} (texts : List String) (spelled : statement.IsSpelled)
    {header : Row} {others : List Row} (rows : statement.rows = header :: others)
    (same : header.fixedTexts = texts)
    (alone : (texts.flatMap Text.tokens).foldlM openAfter [] = some ['\x7b']) :
    Leaves ([header].flatMap Row.tokens) ['\x7b'] := by
  have here := isSpelled_rows spelled header (rows ▸ List.mem_cons_self)
  refine Row.leaves_tokens texts (List.forall_mem_singleton.mpr here) ?_ alone
  rw [List.flatMap_singleton, same]

mutual

/-- The rows of a statement leave nothing open. -/
theorem balanced_rows : ∀ {statement : Stmt}, statement.IsSpelled →
    Balanced (statement.rows.flatMap Row.tokens)
  | .throwSignal _, spelled =>
    balanced_single ["throw ", "_rt.", ";"] spelled rfl (by decide +kernel)
  | .throwValue _, spelled => balanced_single ["throw ", ";"] spelled rfl (by decide +kernel)
  | .leave none, spelled => balanced_single ["return;"] spelled rfl (by decide +kernel)
  | .leave (some _), spelled => balanced_single ["return ", ";"] spelled rfl (by decide +kernel)
  | .log values, spelled => by
    have inside := balanced_separated spelled
    have method : Balanced [.word "console", .mark '.', .word "log"] := .of_plain (by decide)
    have finish : Balanced [.mark ';'] := .of_plain (by decide)
    have call : Text.tokens "console.log(" =
        [.word "console", .mark '.', .word "log"] ++ [.mark '('] := by decide
    have close : Text.tokens ");" = [.mark ')'] ++ [.mark ';'] := by decide
    have whole := (method.append inside.parenthesized).append finish
    rw [rows, List.flatMap_singleton, Row.tokens]
    simpa [Piece.tokens, call, close] using whole
  | .changeClass .., spelled =>
    balanced_single [".", "classList.", "(", ")", ";"] spelled rfl (by decide +kernel)
  | .changeClasses .., spelled =>
    balanced_single [".forEach((el) => el.", "classList.", "(", ")", ");"] spelled rfl
      (by decide +kernel)
  | .setLocal .., spelled => balanced_single [" = ", ";"] spelled rfl (by decide +kernel)
  | .setIndex _, spelled =>
    balanced_single [Names.indexVar, " = ", ";"] spelled rfl (by decide +kernel)
  | .wait _, spelled =>
    balanced_single ["await new Promise((resolve) => setTimeout(resolve, ", "));"] spelled rfl
      (by decide +kernel)
  | .branch _ _ none, spelled =>
    Row.balanced_block (leaves_header ["if (", ") \x7b"] spelled rfl rfl (by decide +kernel))
      (balanced_rowsAll spelled.2)
  | .branch condition thenBranch (some elseBranch), spelled => by
    have start := leaves_header ["if (", ") \x7b"] spelled rfl rfl (by decide +kernel)
    have inThen := balanced_rowsAll spelled.2.1
    have inElse := balanced_rowsAll spelled.2.2
    have first := (start.append inThen).reopened
    have between : Row.tokens { pieces := [.fixed "\x7d else \x7b"] } =
        Text.tokens "\x7d else \x7b" := List.append_nil _
    have finish : Row.closing.tokens = [.mark '\x7d'] := by decide
    rw [rows, Row.block, List.cons_append, List.flatMap_cons]
    simp only [List.flatMap_append, Row.flatMap_tokens_deeper, List.flatMap_singleton, between,
      finish]
    simpa using (first.append inElse).closed
  | .forever _, spelled =>
    Row.balanced_block (leaves_header ["while (true) \x7b"] spelled rfl rfl (by decide +kernel))
      (@balanced_rowsAll _ spelled)
  | .counted _ _, spelled =>
    Row.balanced_block
      (leaves_header ["for (let ", Names.indexVar, " = 0; ", Names.indexVar, " < ", "; ",
        Names.indexVar, "++) \x7b"] spelled rfl rfl (by decide +kernel))
      (balanced_rowsAll spelled.2)
  | .each itemName _ _, spelled =>
    Row.balanced_block (leaves_eachHeader itemName spelled.1) (balanced_rowsAll spelled.2)
  | .whileLoop _ _, spelled =>
    Row.balanced_block (leaves_header ["while (", ") \x7b"] spelled rfl rfl (by decide +kernel))
      (balanced_rowsAll spelled.2)
  | .group statements, spelled => @balanced_rowsAll statements spelled

theorem balanced_rowsAll : ∀ {statements : List Stmt}, AreSpelled statements →
    Balanced ((rowsAll statements).flatMap Row.tokens)
  | [], _ => .nil
  | statement :: rest, spelled => by
    rw [rowsAll, List.flatMap_append]
    exact (balanced_rows spelled.1).append (balanced_rowsAll spelled.2)

end

end Stmt

end Program
end Hyperscript
