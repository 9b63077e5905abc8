import Hyperscript.Proofs.Program.Lowering
import Hyperscript.Proofs.Text.Margins

/-! The function of a handler as a list of lines, whatever its names, its declarations and its
body are. The declarations stand below the line that sets up the context, and the body is moved
right as a whole; the other lines depend on neither. -/
namespace Hyperscript

open Text

namespace GeneratedHandler

/-- The head of the function of a handler. -/
def heading (name : String) (isAsync : Bool) : String :=
  (if isAsync then "async " else "") ++ "function " ++ name ++ "(" ++ Names.eventParam ++ ") \x7b"

def setupLine : String :=
  "const " ++ Names.contextVar ++ " = " ++ Names.member Names.createContext ++ "(" ++
    Names.eventParam ++ ", this);"

/-- The lines in front of the declarations. -/
def headLines (handlerId : String) (facts : Facts) : List String :=
  [heading (Names.functionName handlerId) facts.hasAsync, "  " ++ setupLine]

def declarationLines (cached : List (String × String)) : List String :=
  cached.map ("  " ++ declaration ·)

/-- How deep the statements of a handler stand. -/
def bodyDepth (facts : Facts) : Nat := if facts.canThrow then 2 else 1

/-- The calls that the modifiers of a handler ask for. -/
def callLines (modifiers : Modifiers) : List String :=
  (if modifiers.prevent then [Names.eventParam ++ ".preventDefault();"] else []) ++
    (if modifiers.stop then [Names.eventParam ++ ".stopPropagation();"] else [])

/-- The lines between the declarations and the statements. -/
def entryLines (modifiers : Modifiers) (facts : Facts) : List String :=
  (if facts.canThrow then ["  try \x7b"] else []) ++
    indented (bodyDepth facts) (callLines modifiers)

/-- The lines below the statements. -/
def exitLines (facts : Facts) : List String :=
  (if facts.canThrow then
    indented 1 ("\x7d catch (_err) \x7b" :: indented 1 catchLines ++ ["\x7d"]) else []) ++ ["\x7d"]

theorem isLine_callLines (modifiers : Modifiers) : ∀ line ∈ callLines modifiers, IsLine line := by
  have asked {flag : Bool} {line : String} (isLine : IsLine line) :
      ∀ other ∈ (if flag then [line] else []), IsLine other := by
    cases flag <;> simp [isLine]
  exact List.forall_mem_append.mpr ⟨asked (by decide), asked (by decide)⟩

theorem isLine_catchLines : ∀ line ∈ catchLines, IsLine line := by
  simp only [catchLines, List.forall_mem_cons]
  exact ⟨by decide, by decide, by decide, by decide, by decide, by decide, by decide, by decide,
    by simp⟩

theorem isLine_entryLines (modifiers : Modifiers) (facts : Facts) :
    ∀ line ∈ entryLines modifiers facts, IsLine line := by
  refine List.forall_mem_append.mpr ⟨?_, forall_indented (isLine_callLines modifiers) _⟩
  split
  · exact List.forall_mem_singleton.mpr (by decide)
  · simp

theorem isLine_exitLines (facts : Facts) : ∀ line ∈ exitLines facts, IsLine line := by
  have closing : ∀ line ∈ ["\x7d"], IsLine line :=
    List.forall_mem_singleton.mpr (by decide)
  refine List.forall_mem_append.mpr ⟨?_, closing⟩
  split
  · refine forall_indented ?_ 1
    rw [List.cons_append, List.forall_mem_cons, List.forall_mem_append]
    exact ⟨by decide, forall_indented isLine_catchLines 1, closing⟩
  · simp

theorem writeBody_eq (sheet : Sheet) (modifiers : Modifiers) (body : String) :
    writeBody sheet modifiers body =
      { sheet with
        written := sheet.written ++ indented sheet.depth (callLines modifiers) ++
          shifted sheet.depth (lines body) } := by
  rw [← map_indentLine (isLine_callLines modifiers)]
  unfold writeBody callLines
  split <;> split <;>
    simp [Sheet.fragment, Sheet.foldl_line, Sheet.line, shifted]

/-- The text of a function is that of its lines. -/
theorem functionCode_eq_joinLines (handlerId : String) (modifiers : Modifiers)
    (cached : List (String × String)) (body : String) (facts : Facts) :
    functionCode handlerId modifiers cached body facts =
      joinLines (headLines handlerId facts ++ declarationLines cached ++
        entryLines modifiers facts ++ shifted (bodyDepth facts) (lines body) ++
        exitLines facts) := by
  have outermost (text : String) : indentLine 0 text = text := by
    by_cases empty : text = "" <;> simp [indentLine, margin, empty]
  have declared : (cached.map declaration).map (indentLine 1) = declarationLines cached := by
    rw [List.map_map]
    refine List.map_congr_left fun entry _ => ?_
    have written : declaration entry ≠ "" := by
      obtain ⟨key, selector⟩ := entry
      change "const " ++ key ++ " = " ++ Expression.query selector ++ ";" ≠ ""
      simp
    rw [Function.comp_apply, indentLine, if_neg written]
    rfl
  have caught : catchLines.map (indentLine 2) = indented 1 (indented 1 catchLines) := by
    rw [map_indentLine isLine_catchLines, indented_indented]
  have setup : indentLine 1 ("const " ++ Names.contextVar ++ " = " ++
      Names.member Names.createContext ++ "(" ++ Names.eventParam ++ ", this);") =
      "  " ++ setupLine := by decide
  have fixed : indentLine 1 "try \x7b" = "  try \x7b" ∧
      indentLine 1 "\x7d catch (_err) \x7b" = margin 1 ++ "\x7d catch (_err) \x7b" ∧
      indentLine 1 "\x7d" = margin 1 ++ "\x7d" := by decide
  unfold functionCode headLines heading entryLines exitLines bodyDepth
  simp only [writeBody_eq, Sheet.foldl_line, Sheet.line, Sheet.indent, Sheet.dedent, Sheet.finish,
    Sheet.empty]
  split <;>
    simp only [Nat.zero_add, Nat.reduceAdd, Nat.reduceSub, Nat.sub_self, List.nil_append, outermost,
      declared, caught, setup, fixed, List.append_assoc, List.cons_append,
      indented, List.map_cons, List.map_append, List.map_nil]

/-- Where the lines of a body are whole, they stand in the function one level further in, or two
if it is guarded. The lines in front of them are cut as they would be alone. -/
theorem lines_functionCode {body : String} (each : ∀ line ∈ lines body, IsLine line)
    (handlerId : String) (modifiers : Modifiers) (cached : List (String × String)) (facts : Facts) :
    lines (functionCode handlerId modifiers cached body facts) =
      (headLines handlerId facts ++ declarationLines cached).flatMap lines ++
        entryLines modifiers facts ++ indented (bodyDepth facts) (lines body) ++
        exitLines facts := by
  have inside := forall_indented each (bodyDepth facts)
  have opening : ∀ text ∈ headLines handlerId facts, IsEnded text := by
    simp only [headLines, List.forall_mem_cons]
    exact ⟨IsEnded.after ⟨'\x7b', by decide⟩ _, ⟨';', by decide⟩, by simp⟩
  have declared : ∀ text ∈ declarationLines cached, IsEnded text :=
    List.forall_mem_map.mpr fun entry _ => IsEnded.after (IsEnded.after ⟨';', by decide⟩ _) "  "
  have behind : ∀ text ∈ entryLines modifiers facts ++ indented (bodyDepth facts) (lines body) ++
      exitLines facts, IsLine text :=
    List.forall_mem_append.mpr
      ⟨List.forall_mem_append.mpr ⟨isLine_entryLines modifiers facts, inside⟩,
        isLine_exitLines facts⟩
  have cut := lines_joinLines_of_ended <|
    List.forall_mem_append.mpr ⟨List.forall_mem_append.mpr ⟨opening, declared⟩,
      fun text member => (behind text member).isEnded⟩
  rw [List.flatMap_append, flatMap_lines behind] at cut
  rw [functionCode_eq_joinLines, shifted, map_indentLine each]
  simpa only [List.append_assoc] using cut

/-- The code of a handler: the function around its body, with the selectors that are cached once
the body is generated. -/
theorem handlerCode_eq (handler : Handler) (facts : Facts) (context : Context) :
    (generate handler facts context).1.handlerCode =
      functionCode context.handlerId handler.modifiers
        ((Statement.body handler.body).run context).cached (Statement.body handler.body).value
        facts := by
  rw [generate_eq]

end GeneratedHandler
end Hyperscript
