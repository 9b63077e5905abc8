import Hyperscript.Proofs.Optimization.Folding
import Hyperscript.Proofs.Program.Constants
import Hyperscript.Proofs.Program.Rows

/-! Passes that rewrite expressions and keys. They change how code reads and not which code
there is: every expression that has code keeps some, and every statement keeps its code but
for the expressions in it. -/
namespace Hyperscript

open Program

namespace Text

theorem joinLines_ne_empty_of_mem {texts : List String} {text : String} (member : text ∈ texts)
    (present : text ≠ "") : joinLines texts ≠ "" := by
  induction texts with
  | nil => cases member
  | cons first rest ih =>
    by_cases last : rest = []
    · subst last
      obtain rfl := List.mem_singleton.mp member
      exact present
    · simp [joinLines_cons first last]

/-- A sheet whose last line has a text has one. -/
theorem Sheet.finish_line_ne (sheet : Sheet) {text : String} (present : text ≠ "") :
    (sheet.line text).finish ≠ "" := by
  refine joinLines_ne_empty_of_mem (List.mem_append_right _ (List.mem_singleton_self _)) ?_
  rw [indentLine, if_neg present]
  simp [present]

end Text

namespace Program

namespace Stmt

/-- The expression in the place of any other. -/
def hole : Expr := .literal .null

mutual

/-- The statement without its expressions. -/
def skeleton : Stmt → Stmt
  | .throwSignal signal => .throwSignal signal
  | .throwValue _ => .throwValue hole
  | .leave value => .leave (value.map fun _ => hole)
  | .log values => .log (values.map fun _ => hole)
  | .changeClass _ method className => .changeClass hole method className
  | .changeClasses _ method className => .changeClasses hole method className
  | .setLocal name _ => .setLocal name hole
  | .setIndex _ => .setIndex hole
  | .wait _ => .wait hole
  | .branch _ thenBranch none => .branch hole (skeletons thenBranch) none
  | .branch _ thenBranch (some elseBranch) =>
    .branch hole (skeletons thenBranch) (some (skeletons elseBranch))
  | .forever body => .forever (skeletons body)
  | .counted _ body => .counted hole (skeletons body)
  | .each itemName _ body => .each itemName hole (skeletons body)
  | .whileLoop _ body => .whileLoop hole (skeletons body)
  | .group statements => .group (skeletons statements)

def skeletons : List Stmt → List Stmt
  | [] => []
  | statement :: rest => skeleton statement :: skeletons rest

end

theorem skeletons_eq (statements : List Stmt) : skeletons statements = statements.map skeleton := by
  induction statements with
  | nil => rfl
  | cons statement rest ih => rw [skeletons, ih, List.map_cons]

mutual

/-- A statement without a line of its own: a group of such statements. -/
def isBlank : Stmt → Bool
  | .group statements => areBlank statements
  | _ => false

def areBlank : List Stmt → Bool
  | [] => true
  | statement :: rest => isBlank statement && areBlank rest

end

mutual

theorem isBlank_skeleton : ∀ statement : Stmt, statement.skeleton.isBlank = statement.isBlank
  | .group statements => areBlank_skeletons statements
  | .branch _ _ none | .branch _ _ (some _) => rfl
  | .throwSignal _ | .throwValue _ | .leave _ | .log _ | .changeClass .. | .changeClasses ..
  | .setLocal .. | .setIndex _ | .wait _ | .forever _ | .counted .. | .each .. | .whileLoop .. => rfl

theorem areBlank_skeletons : ∀ statements : List Stmt,
    areBlank (skeletons statements) = areBlank statements
  | [] => rfl
  | statement :: rest => by
    rw [skeletons, areBlank, areBlank, isBlank_skeleton statement, areBlank_skeletons rest]

end

theorem block_ne_empty (header inner : String) : Statement.block header inner ≠ "" :=
  Text.Sheet.finish_line_ne _ (by decide)

theorem conditional_ne_empty (condition thenCode : String) (elseCode : Option String) :
    Statement.conditional condition thenCode elseCode ≠ "" := by
  have closing : "\x7d" ≠ "" := by decide
  unfold Statement.conditional
  cases elseCode <;> exact Text.Sheet.finish_line_ne _ closing

theorem append_ne_empty (text : String) {ending : String} (present : ending ≠ "") :
    text ++ ending ≠ "" := by
  simp [present]

/-- All statements but groups have a text. -/
theorem render_ne_empty (statement : Stmt) (single : ∀ statements, statement ≠ .group statements) :
    statement.render ≠ "" := by
  have colon : ";" ≠ "" := by decide
  have closed : ");" ≠ "" := by decide
  cases statement with
  | group statements => exact absurd rfl (single statements)
  | branch condition thenBranch elseBranch =>
    cases elseBranch with
    | none => exact conditional_ne_empty condition.render _ none
    | some elseBranch => exact conditional_ne_empty condition.render _ (some _)
  | forever | counted | each | whileLoop => exact block_ne_empty _ _
  | leave value =>
    cases value with
    | none => exact append_ne_empty "return" colon
    | some value => exact append_ne_empty _ colon
  | log | changeClasses => exact append_ne_empty _ closed
  | wait => exact append_ne_empty _ (show "));" ≠ "" by decide)
  | _ => exact append_ne_empty _ colon

theorem renderAll_cons (statement : Stmt) (rest : List Stmt) : renderAll (statement :: rest) =
    if statement.render = "" then renderAll rest else statement.render :: renderAll rest := by
  rw [renderAll]

mutual

theorem render_eq_empty_iff : ∀ statement : Stmt, statement.render = "" ↔ statement.isBlank = true
  | .group statements => by
    change Text.joinLines (renderAll statements) = "" ↔ areBlank statements = true
    rw [Text.joinLines_eq_empty_iff (renderAll_nonempty statements)]
    exact renderAll_eq_nil_iff statements
  | .throwSignal _ | .throwValue _ | .leave _ | .log _ | .changeClass .. | .changeClasses ..
  | .setLocal .. | .setIndex _ | .wait _ | .branch .. | .forever _ | .counted .. | .each ..
  | .whileLoop .. => iff_of_false (render_ne_empty _ nofun) nofun

theorem renderAll_eq_nil_iff : ∀ statements : List Stmt,
    renderAll statements = [] ↔ areBlank statements = true
  | [] => iff_of_true rfl rfl
  | statement :: rest => by
    rw [areBlank, Bool.and_eq_true, ← render_eq_empty_iff statement, ← renderAll_eq_nil_iff rest,
      renderAll_cons]
    split
    next empty => exact (and_iff_right empty).symm
    next present => exact iff_of_false (List.cons_ne_nil _ _) fun both => present both.1

end

/-- As many texts as there are skeletons with a line. -/
theorem length_renderAll (statements : List Stmt) :
    (renderAll statements).length = (statements.map skeleton).countP fun statement =>
      !statement.isBlank := by
  induction statements with
  | nil => rfl
  | cons statement rest ih =>
    have blank := render_eq_empty_iff statement
    rw [List.map_cons, List.countP_cons, isBlank_skeleton, ← ih, renderAll_cons]
    split
    next empty => simp [blank.mp empty]
    next present => simp [Bool.eq_false_iff.mpr (mt blank.mpr present)]

end Stmt

/-- Whether there is code, and that of statements but for the expressions in it. -/
def Aspect.presence : Aspect where
  OfExpr := Unit
  OfStmt := Stmt
  expr _ := ()
  stmt := Stmt.skeleton
  expr_congr _ := rfl
  stmt_congr related := by
    cases related with
    | throwValue | leave | changeClass | changeClasses | setLocal | setIndex | wait => rfl
    | @log values values' same =>
      have lengths : values.length = values'.length := by simpa using congrArg List.length same
      simp [Stmt.skeleton, List.map_const', lengths]
    | branch _ thenBranch elseBranch =>
      cases elseBranch with
      | none => simp only [Stmt.skeleton, Stmt.skeletons_eq, thenBranch]
      | some elseBranch => simp only [Stmt.skeleton, Stmt.skeletons_eq, thenBranch, elseBranch]
    | forever body | counted _ body | each _ body | whileLoop _ body | group body =>
      simp only [Stmt.skeleton, Stmt.skeletons_eq, body]

end Program

namespace Statement

/-- The statement has a text that is not empty. -/
def Emits (statement : Node) : Prop := ∃ code ∈ (generate statement).value, code ≠ ""

theorem emits_iff {statement : Node} :
    Emits statement ↔ ∃ skeleton ∈ (Stmt.ofNode? statement).map Stmt.skeleton,
      skeleton.isBlank = false := by
  unfold Emits
  rw [Stmt.value_generate]
  cases Stmt.ofNode? statement with
  | none => simp
  | some code => simp [Stmt.isBlank_skeleton, Stmt.render_eq_empty_iff]

end Statement

namespace Folding

theorem presence_fold (node : Node) : Aspect.presence.Alike node (fold node).value := by
  unfold fold
  split
  next operator left right =>
    split
    next value combined =>
      obtain ⟨expr, found, _⟩ := Engine.ofBinary?_of_combine? combined
      have code : Expr.ofNode? (.binary operator (.literal left) (.literal right)) = some expr :=
        found
      refine ⟨rfl, ?_, rfl, rfl⟩
      rw [code]
      rfl
    next => exact .refl _
  next => exact .refl _

end Folding

namespace Caching

theorem presence_annotate (keys : Keys) (node : Node) :
    Aspect.presence.Alike node (annotate keys node).value := by
  unfold annotate
  split
  next value cacheKey =>
    split
    next key found =>
      split
      next => exact .refl _
      next => exact ⟨rfl, rfl, rfl, rfl⟩
    next => exact .refl _
  next => exact .refl _

end Caching

namespace Pass

/-- Such a pass revises every node by a rule that keeps what code there is. -/
theorem exists_revision {pass : Pass} (rewriting : pass ∈ [constantFolding, selectorCaching])
    (facts : Facts) : ∃ revision : Revision,
      (∀ node, (pass.transform facts node).value = (revision.node node).value) ∧
      (∀ node, revision.endsBlock node = false) ∧
      (∀ node, Aspect.presence.Alike node (revision.finish node).value) ∧
      ∀ name modifiers body, revision.finish (.event name modifiers body) =
        pure (.event name modifiers body) := by
  rcases List.mem_pair.mp rewriting with rfl | rfl
  · exact ⟨Folding.revision, fun _ => rfl, fun _ => rfl, Folding.presence_fold, fun _ _ _ => rfl⟩
  · exact ⟨Caching.revision (Caching.keysFor facts).value, fun _ => rfl, fun _ => rfl,
      Caching.presence_annotate _, fun _ _ _ => rfl⟩

variable {pass : Pass} (rewriting : pass ∈ [constantFolding, selectorCaching]) (facts : Facts)
include rewriting

theorem presence_transform (node : Node) :
    Aspect.presence.Alike node (pass.transform facts node).value := by
  obtain ⟨revision, same, neverEnds, finish, _⟩ := exists_revision rewriting facts
  have within : revision.Within Aspect.presence.Alike (List.Forall₂ Aspect.presence.Alike)
      (List.Forall₂ Aspect.presence.Alike) :=
    { compatible := .of_slotwise
      trans := .trans
      finish
      block := Revision.block_forall₂ neverEnds
      list := Revision.list_forall₂ fun _ => .refl }
  rw [same]
  exact within.related node

/-- A handler stays one, with each of its statements on its own. -/
theorem handler?_transform (node : Node) :
    (pass.transform facts node).value.handler? = node.handler?.map fun handler =>
      { handler with
        body := handler.body.map fun statement => (pass.transform facts statement).value } := by
  have outlined := (presence_transform rewriting facts node).handler
  cases node with
  | event name modifiers body =>
    obtain ⟨revision, same, neverEnds, _, events⟩ := exists_revision rewriting facts
    have inBody : body.map (fun statement => (revision.node statement).value) =
        (revision.block body).value := by
      have each := Revision.block_forall₂ neverEnds body fun statement _ =>
        (rfl : (revision.node statement).value = (revision.node statement).value)
      exact List.forall₂_eq_eq_eq ▸ List.forall₂_map_left_iff.mpr each
    have revised : (revision.node (.event name modifiers body)).value =
        .event name modifiers (revision.block body).value := by
      rw [Revision.node, Revised.value_bind, events, Revised.value_pure]
    simp only [same, revised, Node.handler?, Option.map_some, inBody]
  | _ => exact Option.map_eq_none_iff.mp outlined.symm

/-- Constant folding and selector caching keep what code there is. An expression has code
behind the pass exactly if it had some, and so has a statement; the statements in the code are
the same at all depths but for the expressions in them. So a handler has the same statements
behind the pass, in the same order. -/
theorem transform_keeps_code (node : Node) :
    ((Expression.generate (pass.transform facts node).value).value.isSome =
      (Expression.generate node).value.isSome) ∧
    (Statement.Emits (pass.transform facts node).value ↔ Statement.Emits node) ∧
    (Stmt.ofNode? (pass.transform facts node).value).map Stmt.skeleton =
      (Stmt.ofNode? node).map Stmt.skeleton ∧
    ((pass.transform facts node).value.handler? = node.handler?.map fun handler =>
      { handler with
        body := handler.body.map fun statement => (pass.transform facts statement).value }) ∧
    ∀ body : List Node,
      let rewritten := body.map fun statement => (pass.transform facts statement).value
      (Stmt.ofNodes rewritten).map Stmt.skeleton = (Stmt.ofNodes body).map Stmt.skeleton ∧
      (Statement.generateAll rewritten).value.length = (Statement.generateAll body).value.length := by
  have alike := presence_transform rewriting facts node
  refine ⟨?_, ?_, alike.stmt.symm, handler?_transform rewriting facts node, ?_⟩
  · have sameExpr := congrArg Option.isSome alike.expr
    simpa only [Expr.value_generate, Option.isSome_map] using sameExpr.symm
  · rw [Statement.emits_iff, Statement.emits_iff]
    exact alike.stmt ▸ Iff.rfl
  · intro body rewritten
    have each : List.Forall₂ Aspect.presence.Alike body rewritten :=
      List.forall₂_map_right_iff.mpr <|
        List.forall₂_same.mpr fun statement _ => presence_transform rewriting facts statement
    have same := Aspect.stmt_ofNodes each
    refine ⟨same.symm, ?_⟩
    rw [Stmt.value_generateAll fun node _ => Stmt.value_generate node,
      Stmt.value_generateAll fun node _ => Stmt.value_generate node, Stmt.length_renderAll,
      Stmt.length_renderAll]
    exact congrArg _ same.symm

omit rewriting in
/-- Of four statements, one has no code before and after the pass, and one an empty one. -/
theorem transform_keeps_code_fourStatements :
    let body : List Node :=
      [.command "log" [.binary "+" (.literal (.number 1)) (.literal (.number 2))] none,
        .command "add" [.selector "#item" none] none, .sequence [] false,
        .command "throw" [.binary "&" (.literal .null) (.selector ".item" none)] none]
    let rewritten := body.map fun statement => (constantFolding.transform {} statement).value
    (Statement.generateAll body).value =
      ["console.log((1 + 2));",
        "throw (String(null) + String(document.querySelectorAll(\".item\")));"] ∧
    (Statement.generateAll rewritten).value.head? = some "console.log(3);" ∧
    (Statement.generateAll rewritten).value.length = 2 := by
  intro body rewritten
  have before : (Statement.generateAll body).value =
      ["console.log((1 + 2));",
        "throw (String(null) + String(document.querySelectorAll(\".item\")));"] := by
    decide +kernel
  have kept := (transform_keeps_code (by decide : constantFolding ∈ [constantFolding,
    selectorCaching]) {} .unknown).2.2.2.2 body
  refine ⟨before, by decide +kernel, ?_⟩
  rw [kept.2, before]
  rfl

end Pass
end Hyperscript
