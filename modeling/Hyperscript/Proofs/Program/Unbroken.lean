import Hyperscript.Proofs.Program.Spelling
import Hyperscript.Proofs.Text.Cutting

/-! Code without line breaks. Names, numbers and operators hold none, and in a quoted text they
are escaped; so an expression or a command stands on one line, unless the variable of a selector,
which is written as it is, breaks it. -/
namespace Hyperscript

namespace Text

theorem isUnbroken_quoted (text : String) : IsUnbroken (quoted text) :=
  (spells_quoted text).unbroken

theorem isUnbroken_identifier {name : String} (valid : isIdentifier name = true) :
    IsUnbroken name :=
  (spells_identifier valid).unbroken

end Text

open Text

/-- The variables of the selectors in a script hold no line breaks. -/
def Node.UnbrokenKeys (node : Node) : Prop :=
  node.Selectors fun _ key => ∀ name ∈ key, IsUnbroken name

namespace Program

namespace Expr

theorem isUnbroken_context {property : String} (valid : isIdentifier property = true) :
    IsUnbroken (context property).render :=
  (spells_render (isSpelled_context valid)).unbroken

theorem isUnbroken_localVariable (name : String) : IsUnbroken (localVariable name).render := by
  have locals : IsUnbroken (context "locals").render := isUnbroken_context (by decide)
  simp only [localVariable, render, isUnbroken_append]
  exact ⟨⟨⟨locals, by decide⟩, isUnbroken_quoted _⟩, by decide⟩

theorem isUnbroken_elements (selector : String) {key : Option String}
    (named : ∀ name ∈ key, IsUnbroken name) : IsUnbroken (elements selector key).render := by
  cases key with
  | none => exact (spells_query selector).unbroken
  | some key => exact named key rfl

/-- The code of an expression stands on one line. -/
theorem isUnbroken_ofNode? (node : Node) (keys : node.UnbrokenKeys) {expr : Expr}
    (code : ofNode? node = some expr) : IsUnbroken expr.render := by
  induction node using Node.childInduction generalizing expr with
  | parent node ih =>
    have operand {child : Node} {expr : Expr} (code : ofNode? child = some expr)
        (member : child ∈ node.children) : IsUnbroken expr.render :=
      ih child member (keys.child member) code
    cases nodeCode_ofNode? code with
    | literal => exact (spells_literal _).unbroken
    | index | indexVariable => exact (by decide : IsUnbroken Names.indexVar)
    | event => exact (by decide : IsUnbroken Names.eventParam)
    | target => exact (by decide : IsUnbroken (Names.eventParam ++ "." ++ "target"))
    | me => exact isUnbroken_context (by decide : isIdentifier "me" = true)
    | it => exact isUnbroken_context (by decide : isIdentifier "it" = true)
    | plain _ _ valid => exact isUnbroken_identifier valid
    | localVariable => exact isUnbroken_localVariable _
    | @selector value cacheKey =>
      exact isUnbroken_elements value (keys value cacheKey (by simp [Node.subtree]))
    | concat _ left right =>
      simp only [render, isUnbroken_append]
      exact ⟨⟨⟨⟨by decide, operand left (by simp [Node.children])⟩, by decide⟩,
        operand right (by simp [Node.children])⟩, by decide⟩
    | binary _ known left right =>
      simp only [render, isUnbroken_append]
      exact ⟨⟨⟨⟨⟨⟨by decide, operand left (by simp [Node.children])⟩, by decide⟩,
        (symbol_isPlain known).1.spells.unbroken⟩, by decide⟩,
        operand right (by simp [Node.children])⟩, by decide⟩
    | unary known inner =>
      simp only [render, isUnbroken_append]
      exact ⟨⟨⟨by decide, (sign_isPlain _ known).1.spells.unbroken⟩,
        operand inner (by simp [Node.children])⟩, by decide⟩
    | dot valid inner =>
      simp only [render, isUnbroken_append]
      exact ⟨⟨operand inner (by simp [Node.children]), by decide⟩, isUnbroken_identifier valid⟩
    | subscript _ inner =>
      simp only [render, isUnbroken_append]
      exact ⟨⟨⟨operand inner (by simp [Node.children]), by decide⟩, isUnbroken_quoted _⟩,
        by decide⟩

end Expr

namespace Stmt

theorem isUnbroken_classCall {method : String} (known : method ∈ ["add", "remove", "toggle"])
    (className : String) : IsUnbroken (classCall method className) := by
  have methods : ∀ method ∈ ["add", "remove", "toggle"], IsUnbroken method := by decide
  simp only [classCall, isUnbroken_append]
  exact ⟨⟨⟨⟨by decide, methods method known⟩, by decide⟩, isUnbroken_quoted className⟩,
    by decide⟩

/-- The code of a command stands on one line. -/
theorem isLine_ofCommand? {name : String} {args : List Node} {target : Option Node}
    {statement : Stmt} (inArgs : ∀ node ∈ args, node.UnbrokenKeys)
    (inTarget : ∀ node ∈ target, node.UnbrokenKeys)
    (code : ofCommand? name args target = some statement) : IsLine statement.render := by
  have first {value : Node} {rest : List Node} {expr : Expr} (inArgs : ∀ node ∈ value :: rest,
      node.UnbrokenKeys) (code : Expr.ofNode? value = some expr) : IsUnbroken expr.render :=
    Expr.isUnbroken_ofNode? value (inArgs value List.mem_cons_self) code
  have call (opening closing : String) {receiver method : String} (inside : IsUnbroken receiver)
      (known : method ∈ ["add", "remove", "toggle"]) (className : String)
      (before : IsUnbroken opening) (after : IsUnbroken closing) (written : closing ≠ "") :
      IsLine (receiver ++ opening ++ classCall method className ++ closing) :=
    isLine_between closing (isUnbroken_append.mpr ⟨inside, before⟩)
      (isUnbroken_classCall known className) after written
  cases commandCode_ofCommand? code with
  | halt => exact (by decide : IsLine ("throw " ++ Names.member "HALT" ++ ";"))
  | exit => exact (by decide : IsLine ("throw " ++ Names.member "EXIT" ++ ";"))
  | leave => exact (by decide : IsLine "return;")
  | leaveWith operand | throwValue operand =>
    exact isLine_between ";" (by decide) (first inArgs operand) (by decide) (by decide)
  | wait operand =>
    exact isLine_between "));" (by decide) (first inArgs operand) (by decide) (by decide)
  | @log _ _ exprs operands =>
    have each : ∀ text ∈ exprs.map Expr.render, IsUnbroken text := by
      refine List.forall_mem_map.mpr fun expr member => ?_
      have found : some expr ∈ exprs.map some := List.mem_map_of_mem member
      rw [← Expr.map_ofNode? operands] at found
      obtain ⟨node, inArgs', operand⟩ := List.mem_map.mp found
      exact Expr.isUnbroken_ofNode? node (inArgs node inArgs') operand
    exact isLine_between ");" (by decide) (isUnbroken_join each) (by decide) (by decide)
  | changeOwnClass known =>
    have own := Expr.isUnbroken_context (by decide : isIdentifier "me" = true)
    exact call "." ";" own known _ (by decide) (by decide) (by decide)
  | @changeClasses _ _ value cacheKey _ known =>
    have keys := inTarget _ rfl value cacheKey (by simp [Node.subtree])
    exact call ".forEach((el) => el." ");" (Expr.isUnbroken_elements value keys) known _ (by decide)
      (by decide) (by decide)
  | changeClass known operand =>
    exact call "." ";" (Expr.isUnbroken_ofNode? _ (inTarget _ rfl) operand) known _ (by decide)
      (by decide) (by decide)
  | setIndex _ operand =>
    have inside := Expr.isUnbroken_ofNode? _ (inArgs _ (by simp)) operand
    have before : IsUnbroken (Names.indexVar ++ " = ") := by decide
    exact isLine_between ";" before inside (by decide) (by decide)
  | @setLocal place _ _ _ _ operand =>
    have inside := Expr.isUnbroken_ofNode? _ (inArgs _ (by simp)) operand
    have before : IsUnbroken ((Expr.localVariable place).render ++ " = ") :=
      isUnbroken_append.mpr ⟨Expr.isUnbroken_localVariable place, by decide⟩
    exact isLine_between ";" before inside (by decide) (by decide)

end Stmt
end Program
end Hyperscript
