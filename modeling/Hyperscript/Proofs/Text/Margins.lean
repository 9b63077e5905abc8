import Hyperscript.Proofs.Text.Layout

/-! Lines moved right. A block of code is cut into its lines, moved right, joined, and cut once
more where it is placed in another block. Without carriage returns and empty lines this comes
to the same as moving its lines right by as many levels as there are blocks around it. -/
namespace Hyperscript.Text

/-- Lines moved right. An empty line takes no margin. -/
def shifted (depth : Nat) (texts : List String) : List String := texts.map (indentLine depth)

theorem indented_cons (depth : Nat) (first : String) (rest : List String) :
    indented depth (first :: rest) = (margin depth ++ first) :: indented depth rest :=
  rfl

theorem indented_append (depth : Nat) (first second : List String) :
    indented depth (first ++ second) = indented depth first ++ indented depth second :=
  List.map_append

/-- There are no carriage returns and no empty lines. -/
structure IsWhole (text : String) : Prop where
  unreturned : '\r' ∉ text.toList
  written : "" ∉ lines text

theorem mem_splitLines {text : List Char} :
    ∀ line ∈ splitLines text, line ⊆ text ∧ '\n' ∉ line := by
  fun_induction splitLines text with
  | case1 => simp
  | case2 rest ih =>
    refine List.forall_mem_cons.mpr ⟨by simp, fun line member => ?_⟩
    exact ⟨List.subset_cons_of_subset _ (ih line member).1, (ih line member).2⟩
  | case3 rest ih =>
    refine List.forall_mem_cons.mpr ⟨by simp, fun line member => ?_⟩
    exact ⟨List.subset_cons_of_subset _ (List.subset_cons_of_subset _ (ih line member).1),
      (ih line member).2⟩
  | case4 c rest feed paired none ih =>
    simpa using fun same => feed same.symm
  | case5 c rest feed paired line lines found ih =>
    rw [found] at ih
    obtain ⟨first, others⟩ := List.forall_mem_cons.mp ih
    refine List.forall_mem_cons.mpr ⟨⟨List.cons_subset_cons c first.1, ?_⟩, fun other member => ?_⟩
    · exact List.not_mem_cons_of_ne_of_not_mem (Ne.symm feed) first.2
    · exact ⟨List.subset_cons_of_subset c (others other member).1, (others other member).2⟩

/-- The lines of such a text can be cut again and again. -/
theorem IsWhole.isLine {text : String} (whole : IsWhole text) :
    ∀ line ∈ lines text, IsLine line := by
  intro line member
  obtain ⟨characters, cut, rfl⟩ := List.mem_map.mp member
  obtain ⟨inside, unfed⟩ := mem_splitLines characters cut
  refine ⟨fun empty => whole.written (empty ▸ member), fun c inLine => ?_⟩
  rw [String.toList_ofList] at inLine
  exact ⟨fun feed => unfed (feed ▸ inLine),
    fun carriage => whole.unreturned (carriage ▸ inside inLine)⟩

theorem isWhole_joinLines {texts : List String} (each : ∀ text ∈ texts, IsLine text) :
    IsWhole (joinLines texts) where
  unreturned := by
    have unreturned : ∀ text ∈ texts, '\r' ∉ text.toList :=
      fun text member carriage => ((each text member).unbroken _ carriage).2 rfl
    clear each
    unfold joinLines
    fun_induction join "\n" texts with
    | case1 => simp
    | case2 part => exact unreturned part List.mem_cons_self
    | case3 part next rest ih =>
      obtain ⟨first, others⟩ := List.forall_mem_cons.mp unreturned
      simpa using ⟨first, ih others⟩
  written := by
    rw [lines_joinLines each]
    exact fun member => (each "" member).nonempty rfl

theorem IsWhole.indentBlock {text : String} (whole : IsWhole text) :
    indentBlock text = joinLines (indented 1 (lines text)) := by
  rw [Text.indentBlock, Sheet.fragment, Sheet.foldl_line]
  exact congrArg joinLines (map_indentLine whole.isLine 1)

/-- A block that was moved right is written as its lines are one level further in. -/
theorem Sheet.fragment_indentBlock {text : String} (whole : IsWhole text) (sheet : Sheet) :
    sheet.fragment (indentBlock text) = (sheet.indent.fragment text).dedent := by
  rw [whole.indentBlock, fragment_joinLines (forall_indented whole.isLine 1), indented_indented,
    fragment, foldl_line, map_indentLine whole.isLine]
  rfl

end Hyperscript.Text
