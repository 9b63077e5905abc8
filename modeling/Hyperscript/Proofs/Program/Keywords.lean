import Hyperscript.Proofs.Program.FunctionRows
import Hyperscript.Proofs.Script.Everywhere

/-! Where keywords stand in generated code. The fixed texts of a row say which statement it
belongs to: the heads and ends of blocks have nine kinds of texts, and all other rows are the
code of commands. So a keyword in the code of a script goes back to a command in the script. -/
namespace Hyperscript.Program

open Text

namespace Row

/-- The texts of a row that are the same in every script. -/
def fixedTexts (row : Row) : List String :=
  row.pieces.flatMap fun
    | .fixed text => [text]
    | .name _ | .quote _ | .expr _ => []

theorem fixedTokens_eq (row : Row) : row.fixedTokens = row.fixedTexts.flatMap Text.tokens := by
  rw [fixedTokens, fixedTexts, List.flatMap_assoc]
  refine List.flatMap_congr fun piece _ => ?_
  cases piece with
  | fixed text => simp [Piece.fixedTokens]
  | name | quote | expr => rfl

/-- A row that starts with a keyword starts with a fixed text. -/
theorem IsSpelled.head?_fixedTokens {row : Row} (spelled : row.IsSpelled) {token : Token}
    (first : row.tokens.head? = some token) (keyword : token.isKeyword = true) :
    row.fixedTokens.head? = some token := by
  obtain ⟨depth, pieces⟩ := row
  have each := spelled.pieces
  clear spelled
  simp only [tokens, fixedTokens] at first ⊢
  induction pieces with
  | nil => cases first
  | cons piece rest ih =>
    obtain ⟨here, others⟩ := List.forall_mem_cons.mp each
    rw [List.flatMap_cons, List.head?_append] at first ⊢
    cases found : piece.tokens.head? with
    | none =>
      have nothing : piece.fixedTokens = [] := by
        cases piece with
        | fixed text => exact List.head?_eq_none_iff.mp found
        | name | quote | expr => rfl
      rw [found, Option.none_or] at first
      rw [nothing, List.head?_nil, Option.none_or]
      exact ih first others
    | some other =>
      rw [found] at first
      cases first
      have inPiece := Piece.mem_fixedTokens here (List.mem_of_mem_head? found) keyword
      cases piece with
      | fixed text =>
        have same : (Piece.fixed text).fixedTokens.head? = some token := found
        rw [same, Option.some_or]
      | name | quote | expr => cases inPiece

end Row

namespace Stmt

/-- The fixed texts of the heads and ends of blocks. -/
def blockTexts : List (List String) :=
  [["\x7d"],
    ["if (", ") \x7b"],
    ["\x7d else \x7b"],
    ["while (true) \x7b"],
    ["while (", ") \x7b"],
    ["for (let ", Names.indexVar, " = 0; ", Names.indexVar, " < ", "; ", Names.indexVar,
      "++) \x7b"],
    ["for (const ", " of ", ") \x7b"],
    ["for (const _item of ", ") \x7b"],
    [Names.contextVar, ".locals[", "] = _item;"]]

/-- The texts of blocks have the property, and so does the code of every command. -/
structure Covers (q : List String → Prop) (node : Node) : Prop where
  blocks : ∀ texts ∈ blockTexts, q texts
  commands {name args target} : .command name args target ∈ node.subtree →
    ∀ {statement}, CommandCode name args target statement → ∀ row ∈ statement.rows, q row.fixedTexts

namespace Covers

variable {q : List String → Prop} {node : Node}

theorem child (covers : Covers q node) {child : Node} (member : child ∈ node.children) :
    Covers q child where
  blocks := covers.blocks
  commands inside := covers.commands (Node.mem_subtree_of_child member inside)

theorem block (covers : Covers q node) {header body : List Row}
    (inHeader : ∀ row ∈ header, row.fixedTexts ∈ blockTexts)
    (inBody : ∀ row ∈ body, q row.fixedTexts) :
    ∀ row ∈ Row.block header body, q row.fixedTexts := by
  refine List.forall_mem_append.mpr ⟨List.forall_mem_append.mpr ⟨?_, ?_⟩, ?_⟩
  · exact fun row member => covers.blocks _ (inHeader row member)
  · exact List.forall_mem_map.mpr inBody
  · exact List.forall_mem_singleton.mpr (covers.blocks _ List.mem_cons_self)

end Covers

theorem fixedTexts_eachHeader (itemName : String) (collection : Expr) :
    ∀ row ∈ eachHeader itemName collection, row.fixedTexts ∈ blockTexts := by
  unfold eachHeader
  dsimp only
  split
  · exact List.forall_mem_singleton.mpr (by simp [Row.fixedTexts, blockTexts])
  · refine List.forall_mem_cons.mpr ⟨?_, List.forall_mem_singleton.mpr ?_⟩
    · simp [Row.fixedTexts, blockTexts]
    · simp [Row.fixedTexts, blockTexts]

theorem forall_rowsAll {q : Row → Prop} {nodes : List Node}
    (each : ∀ node ∈ nodes, ∀ statement, ofNode? node = some statement →
      ∀ row ∈ statement.rows, q row) :
    ∀ row ∈ rowsAll (ofNodes nodes), q row := by
  induction nodes with
  | nil => exact nofun
  | cons node rest ih =>
    obtain ⟨first, others⟩ := List.forall_mem_cons.mp each
    rw [ofNodes]
    cases code : ofNode? node with
    | none => exact ih others
    | some statement => exact List.forall_mem_append.mpr ⟨first statement code, ih others⟩

/-- What blocks and commands have, all rows of the code of a script have. -/
theorem Covers.forall_rows {q : List String → Prop} {node : Node} (covers : Covers q node)
    {statement : Stmt} (code : ofNode? node = some statement) :
    ∀ row ∈ statement.rows, q row.fixedTexts := by
  induction node using Node.childInduction generalizing statement with
  | parent node ih =>
    have block (nodes : List Node) (inside : ∀ child ∈ nodes, child ∈ node.children) :
        ∀ row ∈ rowsAll (ofNodes nodes), q row.fixedTexts :=
      forall_rowsAll fun child member _ code =>
        ih child (inside child member) (covers.child (inside child member)) code
    cases node with
    | command name args target =>
      exact covers.commands List.mem_cons_self (commandCode_ofCommand? code)
    | ifElse condition thenBranch elseBranch =>
      have inThen := block thenBranch (by simp +contextual [Node.children])
      cases elseBranch with
      | none =>
        obtain ⟨expr, found, code⟩ := Option.bind_eq_some_iff.mp code
        cases code
        exact covers.block (by simp [Row.fixedTexts, blockTexts]) inThen
      | some elseBranch =>
        have inElse := block elseBranch (by simp +contextual [Node.children])
        obtain ⟨expr, found, code⟩ := Option.bind_eq_some_iff.mp code
        cases code
        refine List.forall_mem_append.mpr ⟨List.forall_mem_cons.mpr ⟨?_, ?_⟩, ?_⟩
        · exact covers.blocks ["if (", ") \x7b"] (by simp [blockTexts])
        · exact List.forall_mem_map.mpr inThen
        · exact covers.block (by simp [Row.fixedTexts, blockTexts]) inElse
    | repeatTimes count body =>
      have inBody := block body (by simp +contextual [Node.children])
      cases count with
      | none =>
        cases code
        exact covers.block (by simp [Row.fixedTexts, blockTexts]) inBody
      | some count =>
        obtain ⟨expr, found, code⟩ := Option.bind_eq_some_iff.mp code
        cases code
        exact covers.block (by simp [Row.fixedTexts, blockTexts]) inBody
    | forEach itemName collection body =>
      have inBody := block body (by simp +contextual [Node.children])
      obtain ⟨expr, found, code⟩ := Option.bind_eq_some_iff.mp code
      cases code
      exact covers.block (fixedTexts_eachHeader itemName expr) inBody
    | whileLoop condition body =>
      have inBody := block body (by simp +contextual [Node.children])
      obtain ⟨expr, found, code⟩ := Option.bind_eq_some_iff.mp code
      cases code
      exact covers.block (by simp [Row.fixedTexts, blockTexts]) inBody
    | sequence commands unrolled =>
      cases code
      exact block commands (by simp [Node.children])
    | _ => cases code

theorem fixedTexts_separated (values : List Expr) :
    ∀ text ∈ Row.fixedTexts { pieces := separated values }, text = ", " := by
  fun_induction separated values with
  | case1 | case2 => simp [Row.fixedTexts]
  | case3 value next rest ih => simpa [Row.fixedTexts] using ih

theorem fixedTexts_log (values : List Expr) :
    ∀ text ∈ Row.fixedTexts
        { pieces := .fixed "console.log(" :: separated values ++ [.fixed ");"] },
      text ∈ ["console.log(", ", ", ");"] := by
  have split : Row.fixedTexts
      { pieces := .fixed "console.log(" :: separated values ++ [.fixed ");"] } =
      "console.log(" :: Row.fixedTexts { pieces := separated values } ++ [");"] := by
    simp [Row.fixedTexts]
  rw [split, List.cons_append, List.forall_mem_cons, List.forall_mem_append]
  exact ⟨by simp, fun text member => by simp [fixedTexts_separated values text member], by simp⟩

/-- The keywords of a command: its code has `await` only if it waits, and `throw` only if it
ends or fails the handler; and it starts no declaration. -/
structure Keywords (name : String) (texts : List String) : Prop where
  waits : .word "await" ∈ texts.flatMap Text.tokens → name = "wait"
  throws : .word "throw" ∈ texts.flatMap Text.tokens → name ∈ ["halt", "exit", "throw"]
  first : (texts.flatMap Text.tokens).head? ≠ some (.word "const")

/-- Code without any of these keywords. -/
theorem Keywords.of_none (name : String) {texts : List String}
    (none : ∀ word ∈ ["await", "throw", "const"], .word word ∉ texts.flatMap Text.tokens) :
    Keywords name texts where
  waits held := absurd held (none "await" (by decide))
  throws held := absurd held (none "throw" (by decide))
  first same := none "const" (by decide) (List.mem_of_mem_head? same)

theorem CommandCode.keywords {name : String} {args : List Node} {target : Option Node}
    {statement : Stmt} (code : CommandCode name args target statement) :
    ∀ row ∈ statement.rows, Keywords name row.fixedTexts := by
  cases code with
  | halt | exit =>
    exact List.forall_mem_singleton.mpr
      (⟨by decide +kernel, by decide, by decide⟩ : Keywords _ ["throw ", "_rt.", ";"])
  | throwValue =>
    exact List.forall_mem_singleton.mpr
      (⟨by decide, by decide, by decide⟩ : Keywords _ ["throw ", ";"])
  | wait =>
    exact List.forall_mem_singleton.mpr
      (⟨by decide, by decide +kernel, by decide +kernel⟩ :
        Keywords _ ["await new Promise((resolve) => setTimeout(resolve, ", "));"])
  | leave =>
    exact List.forall_mem_singleton.mpr (@Keywords.of_none _ ["return;"] (by decide +kernel))
  | leaveWith =>
    exact List.forall_mem_singleton.mpr (@Keywords.of_none _ ["return ", ";"] (by decide +kernel))
  | changeOwnClass | changeClass =>
    exact List.forall_mem_singleton.mpr
      (@Keywords.of_none _ [".", "classList.", "(", ")", ";"] (by decide +kernel))
  | changeClasses =>
    exact List.forall_mem_singleton.mpr
      (@Keywords.of_none _ [".forEach((el) => el.", "classList.", "(", ")", ");"]
        (by decide +kernel))
  | setIndex =>
    exact List.forall_mem_singleton.mpr
      (@Keywords.of_none _ [Names.indexVar, " = ", ";"] (by decide +kernel))
  | setLocal =>
    exact List.forall_mem_singleton.mpr (@Keywords.of_none _ [" = ", ";"] (by decide +kernel))
  | @log _ _ exprs =>
    refine List.forall_mem_singleton.mpr (.of_none _ fun word known => ?_)
    have outside : ∀ word ∈ ["await", "throw", "const"], ∀ text ∈ ["console.log(", ", ", ");"],
        .word word ∉ Text.tokens text := by decide +kernel
    intro held
    obtain ⟨text, inTexts, inText⟩ := List.mem_flatMap.mp held
    exact outside word known text (fixedTexts_log exprs text inTexts) inText

section Scripts

variable {nodes : List Node}

/-- The code of statements has what blocks have and what commands in them have. -/
theorem forall_rows_ofNodes {q : List Token → Prop}
    (covers : ∀ node ∈ nodes, Covers (fun texts => q (texts.flatMap Text.tokens)) node) :
    ∀ row ∈ rowsAll (ofNodes nodes), q row.fixedTokens := by
  have each := forall_rowsAll (q := fun row => q (row.fixedTexts.flatMap Text.tokens))
    fun node member _ code => (covers node member).forall_rows code
  intro row member
  rw [row.fixedTokens_eq]
  exact each row member

theorem await_not_mem_rows
    (still : ∀ node ∈ nodes, node.Everywhere (Facts.suspends · = false)) :
    ∀ row ∈ rowsAll (ofNodes nodes), .word "await" ∉ row.fixedTokens := by
  refine forall_rows_ofNodes (q := (.word "await" ∉ ·)) fun node member => ⟨by decide +kernel, ?_⟩
  intro name args target inside statement code row inRows held
  have waits : Facts.suspends (.command "wait" args target) = true := by
    have listed : "wait" ∈ Facts.asyncCommands := by decide
    simp [Facts.suspends, Node.commandName?, listed]
  have none : Facts.suspends (.command name args target) = false := still node member _ inside
  rw [(code.keywords row inRows).waits held, waits] at none
  cases none

theorem throw_not_mem_rows
    (safe : ∀ node ∈ nodes, node.Everywhere (Facts.mayThrow · = false)) :
    ∀ row ∈ rowsAll (ofNodes nodes), .word "throw" ∉ row.fixedTokens := by
  refine forall_rows_ofNodes (q := (.word "throw" ∉ ·)) fun node member => ⟨by decide +kernel, ?_⟩
  intro name args target inside statement code row inRows held
  have throws : Facts.mayThrow (.command name args target) = true := by
    have listed : ∀ name ∈ ["halt", "exit", "throw"], name ∈ Node.terminators := by decide
    simp [Facts.mayThrow, Node.commandName?, listed name ((code.keywords row inRows).throws held)]
  have none : Facts.mayThrow (.command name args target) = false := safe node member _ inside
  rw [throws] at none
  cases none

theorem head?_rows_ne_const (nodes : List Node) :
    ∀ row ∈ rowsAll (ofNodes nodes), row.fixedTokens.head? ≠ some (.word "const") :=
  forall_rows_ofNodes (q := (·.head? ≠ some (.word "const"))) fun _ _ =>
    ⟨by decide +kernel, fun _ _ code row inRows => (code.keywords row inRows).first⟩

end Scripts

end Stmt
end Hyperscript.Program
