import Hyperscript.Proofs.Program.FunctionLines
import Hyperscript.Proofs.Program.Sequences
import Hyperscript.Proofs.Program.Unbroken
import Hyperscript.Proofs.Script.Blocks

/-! Nested statements line by line. However deep a statement stands, the lines generated for it
alone are found among those of its function, moved right by one level for each block around it;
the lines above and below do not depend on it. -/
namespace Hyperscript

open Text

namespace Text

/-- The text is made of lines that can be cut and joined again. -/
structure IsOfLines (text : String) : Prop where
  isLine : ∀ line ∈ lines text, IsLine line
  joined : joinLines (lines text) = text

theorem isOfLines_joinLines {texts : List String} (each : ∀ text ∈ texts, IsLine text) :
    IsOfLines (joinLines texts) := by
  constructor <;> rw [lines_joinLines each]
  exact each

theorem IsLine.isOfLines {text : String} (isLine : IsLine text) : IsOfLines text :=
  isOfLines_joinLines (List.forall_mem_singleton.mpr isLine)

theorem IsOfLines.isWhole {text : String} (ofLines : IsOfLines text) : IsWhole text :=
  ofLines.joined ▸ isWhole_joinLines ofLines.isLine

theorem IsOfLines.lines_ne {text : String} (ofLines : IsOfLines text) (nonempty : text ≠ "") :
    lines text ≠ [] := by
  intro none
  rw [← ofLines.joined, none] at nonempty
  exact nonempty rfl

/-- Joined texts have the lines of all of them. -/
theorem joinLines_flatMap_lines {texts : List String}
    (each : ∀ text ∈ texts, text ≠ "" ∧ IsOfLines text) :
    joinLines (texts.flatMap lines) = joinLines texts := by
  induction texts with
  | nil => rfl
  | cons text rest ih =>
    obtain ⟨⟨nonempty, ofLines⟩, others⟩ := List.forall_mem_cons.mp each
    rw [List.flatMap_cons]
    cases rest with
    | nil => simpa [joinLines, join] using ofLines.joined
    | cons next more =>
      obtain ⟨written, inNext⟩ := others next List.mem_cons_self
      have below : (next :: more).flatMap lines ≠ [] :=
        List.append_ne_nil_of_left_ne_nil (inNext.lines_ne written) _
      rw [joinLines_append (ofLines.lines_ne nonempty) below, ofLines.joined, ih others,
        joinLines_cons text (List.cons_ne_nil next more)]

theorem isLine_flatMap_lines {texts : List String} (each : ∀ text ∈ texts, IsOfLines text) :
    ∀ line ∈ texts.flatMap lines, IsLine line := by
  intro line member
  obtain ⟨text, inTexts, inText⟩ := List.mem_flatMap.mp member
  exact (each text inTexts).isLine line inText

end Text

namespace Statement

def ifLine (condition : String) : String := "if (" ++ condition ++ ") \x7b"

/-- A head that may take two lines. -/
def forEachLines (itemName collection : String) : List String :=
  let item := withoutColons itemName
  if isIdentifier item then ["for (const " ++ item ++ " of " ++ collection ++ ") \x7b"]
  else
    ["for (const _item of " ++ collection ++ ") \x7b",
      "  " ++ Names.contextVar ++ ".locals[" ++ quoted item ++ "] = _item;"]

theorem joinLines_forEachLines (itemName collection : String) :
    joinLines (forEachLines itemName collection) = forEachHeader itemName collection := by
  unfold forEachLines forEachHeader
  dsimp only
  split
  · rfl
  · have twoLines : ") \x7b\n  " = ") \x7b" ++ "\n" ++ "  " := rfl
    simp only [joinLines, join, twoLines, String.append_assoc]

theorem isLine_ifLine {condition : String} (unbroken : IsUnbroken condition) :
    IsLine (ifLine condition) :=
  isLine_between ") \x7b" (by decide) unbroken (by decide) (by decide)

theorem isLine_whileHeader {condition : String} (unbroken : IsUnbroken condition) :
    IsLine (whileHeader condition) :=
  isLine_between ") \x7b" (by decide) unbroken (by decide) (by decide)

theorem isLine_countedHeader {count : String} (unbroken : IsUnbroken count) :
    IsLine (countedHeader count) := by
  have opening : IsUnbroken ("for (let " ++ Names.indexVar ++ " = 0; " ++ Names.indexVar ++
      " < ") := by decide
  have closing : IsUnbroken ("; " ++ Names.indexVar ++ "++) \x7b") := by decide
  have written : countedHeader count = "for (let " ++ Names.indexVar ++ " = 0; " ++
      Names.indexVar ++ " < " ++ count ++ "; " ++ Names.indexVar ++ "++) \x7b" := rfl
  have whole := isLine_between _ opening unbroken closing (by decide)
  simpa only [written, String.append_assoc] using whole

theorem isLine_forEachLines (itemName : String) {collection : String}
    (unbroken : IsUnbroken collection) :
    ∀ line ∈ forEachLines itemName collection, IsLine line := by
  unfold forEachLines
  dsimp only
  split
  next valid =>
    refine List.forall_mem_singleton.mpr (isLine_between _ ?_ unbroken (by decide) (by decide))
    simp only [isUnbroken_append]
    exact ⟨⟨by decide, isUnbroken_identifier valid⟩, by decide⟩
  next =>
    have opening : IsUnbroken ("  " ++ Names.contextVar ++ ".locals[") := by decide
    have second := isLine_between "] = _item;" opening (isUnbroken_quoted (withoutColons itemName))
      (by decide) (by decide)
    simp only [List.forall_mem_cons]
    exact ⟨isLine_between _ (by decide) unbroken (by decide) (by decide), second, by simp⟩

variable {inner : String}

theorem block_of_lines {header : List String} (inHeader : ∀ line ∈ header, IsLine line)
    (inInner : IsOfLines inner) :
    block (joinLines header) inner =
      joinLines (header ++ indented 1 (lines inner) ++ ["\x7d"]) := by
  have layout := block_joinLines inHeader inInner.isLine
  rwa [inInner.joined] at layout

/-- A head of one line. -/
theorem block_of_line {header : String} (isLine : IsLine header) (inInner : IsOfLines inner) :
    block header inner = joinLines ([header] ++ indented 1 (lines inner) ++ ["\x7d"]) := by
  have single : joinLines [header] = header := rfl
  have layout := block_of_lines (List.forall_mem_singleton.mpr isLine) inInner
  rwa [single] at layout

theorem conditional_of_lines (condition : String) (inThen : IsOfLines inner) :
    conditional condition inner none =
      joinLines ([ifLine condition] ++ indented 1 (lines inner) ++ ["\x7d"]) := by
  have layout := conditional_joinLines condition inThen.isLine
  rw [inThen.joined] at layout
  simpa only [ifLine, List.cons_append, List.nil_append] using layout

theorem conditional_of_lines_else (condition : String) {other : String} (inThen : IsOfLines inner)
    (inElse : IsOfLines other) :
    conditional condition inner (some other) =
      joinLines ([ifLine condition] ++ indented 1 (lines inner) ++
        ("\x7d else \x7b" :: indented 1 (lines other) ++ ["\x7d"])) := by
  have layout := conditional_joinLines_else condition inThen.isLine inElse.isLine
  rw [inThen.joined, inElse.joined] at layout
  simpa only [ifLine, List.append_assoc, List.cons_append, List.nil_append] using layout

/-- A statement that has code if its head has. -/
theorem value_headed {head : Node} {next : Option String → Emission (Option String)}
    {code : String → String} (stop : (next none).value = none)
    (goOn : ∀ text ∈ (Expression.generate head).value,
      (next (some text)).value = some (code text)) :
    (Expression.generate head >>= next).value = (Expression.generate head).value.map code := by
  rw [Emission.value_bind]
  cases written : (Expression.generate head).value with
  | none => exact stop
  | some text => exact goOn text written

end Statement

/-- A list of statements within a statement, with all of the statement but the list. -/
inductive BlockFrame where
  | inThen (condition : Node) (elseBranch : Option (List Node))
  | inElse (condition : Node) (thenBranch : List Node)
  | inRepeat (count : Option Node)
  | inForEach (itemName : String) (collection : Node)
  | inWhile (condition : Node)
  | inEvent (name : String) (modifiers : Modifiers)
  | inSequence (unrolled : Bool)

namespace BlockFrame

def around (block : List Node) : BlockFrame → Node
  | .inThen condition elseBranch => .ifElse condition block elseBranch
  | .inElse condition thenBranch => .ifElse condition thenBranch (some block)
  | .inRepeat count => .repeatTimes count block
  | .inForEach itemName collection => .forEach itemName collection block
  | .inWhile condition => .whileLoop condition block
  | .inEvent name modifiers => .event name modifiers block
  | .inSequence unrolled => .sequence block unrolled

/-- No list of statements is left out. -/
theorem exists_around_iff {node : Node} {block : List Node} :
    (∃ frame : BlockFrame, frame.around block = node) ↔
      block ∈ node.blocks ∨ ∃ unrolled, node = .sequence block unrolled := by
  constructor
  · rintro ⟨frame, rfl⟩
    cases frame <;> simp [around, Node.blocks]
  · rintro (member | ⟨unrolled, rfl⟩)
    · cases node with
      | ifElse condition thenBranch elseBranch =>
        obtain rfl | inElse := List.mem_cons.mp member
        · exact ⟨.inThen condition elseBranch, rfl⟩
        · cases Option.mem_toList.mp inElse
          exact ⟨.inElse condition thenBranch, rfl⟩
      | repeatTimes count body =>
        obtain rfl := List.mem_singleton.mp member
        exact ⟨.inRepeat count, rfl⟩
      | forEach itemName collection body =>
        obtain rfl := List.mem_singleton.mp member
        exact ⟨.inForEach itemName collection, rfl⟩
      | whileLoop condition body =>
        obtain rfl := List.mem_singleton.mp member
        exact ⟨.inWhile condition, rfl⟩
      | event name modifiers body =>
        obtain rfl := List.mem_singleton.mp member
        exact ⟨.inEvent name modifiers, rfl⟩
      | _ => cases member
    · exact ⟨.inSequence unrolled, rfl⟩

/-- How much further in the list stands. A sequence is no block of its own. -/
def levels : BlockFrame → Nat
  | .inThen .. | .inElse .. | .inRepeat _ | .inForEach .. | .inWhile _ | .inEvent .. => 1
  | .inSequence _ => 0

/-- The lines above and below the list, if the statement has code. -/
def rest? : BlockFrame → Option (List String × List String)
  | .inThen condition none =>
    (Expression.generate condition).value.map fun condition =>
      ([Statement.ifLine condition], ["\x7d"])
  | .inThen condition (some elseBranch) =>
    (Expression.generate condition).value.map fun condition =>
      ([Statement.ifLine condition],
        "\x7d else \x7b" :: indented 1 (lines (Statement.body elseBranch).value) ++ ["\x7d"])
  | .inElse condition thenBranch =>
    (Expression.generate condition).value.map fun condition =>
      (Statement.ifLine condition :: indented 1 (lines (Statement.body thenBranch).value) ++
        ["\x7d else \x7b"], ["\x7d"])
  | .inRepeat none => some ([Statement.foreverHeader], ["\x7d"])
  | .inRepeat (some count) =>
    (Expression.generate count).value.map fun count => ([Statement.countedHeader count], ["\x7d"])
  | .inForEach itemName collection =>
    (Expression.generate collection).value.map fun collection =>
      (Statement.forEachLines itemName collection, ["\x7d"])
  | .inWhile condition =>
    (Expression.generate condition).value.map fun condition =>
      ([Statement.whileHeader condition], ["\x7d"])
  | .inEvent .. => none
  | .inSequence _ => some ([], [])

/-- The other list of a statement with two. -/
def others : BlockFrame → List (List Node)
  | .inThen _ elseBranch => elseBranch.toList
  | .inElse _ thenBranch => [thenBranch]
  | _ => []

def head? : BlockFrame → Option Node
  | .inThen condition _ | .inElse condition _ | .inWhile condition => some condition
  | .inRepeat count => count
  | .inForEach _ collection => some collection
  | .inEvent .. | .inSequence _ => none

/-- What a frame holds besides the list breaks no line. -/
structure IsLined (frame : BlockFrame) : Prop where
  head : ∀ head ∈ frame.head?, ∀ code ∈ (Expression.generate head).value, IsUnbroken code
  others : ∀ block ∈ frame.others, IsOfLines (Statement.body block).value

variable {frame : BlockFrame} {block : List Node}

theorem isLine_rest? (lined : frame.IsLined) :
    ∀ rest ∈ frame.rest?, ∀ line ∈ rest.1 ++ rest.2, IsLine line := by
  have closing : IsLine "\x7d" := by decide
  have reopening : IsLine "\x7d else \x7b" := by decide
  rintro ⟨above, below⟩ written
  have other {block : List Node} (member : block ∈ frame.others) :=
    forall_indented (lined.others block member).isLine 1
  cases frame with
  | inThen condition elseBranch =>
    cases elseBranch with
    | none =>
      obtain ⟨text, code, same⟩ := Option.map_eq_some_iff.mp written
      cases same
      simpa using ⟨Statement.isLine_ifLine (lined.head condition rfl text code), closing⟩
    | some elseBranch =>
      obtain ⟨text, code, same⟩ := Option.map_eq_some_iff.mp written
      cases same
      have first := Statement.isLine_ifLine (lined.head condition rfl text code)
      simp only [List.forall_mem_append, List.forall_mem_cons]
      exact ⟨⟨first, by simp⟩, ⟨reopening, other List.mem_cons_self⟩, closing, by simp⟩
  | inElse condition thenBranch =>
    obtain ⟨text, code, same⟩ := Option.map_eq_some_iff.mp written
    cases same
    have first := Statement.isLine_ifLine (lined.head condition rfl text code)
    simp only [List.forall_mem_append, List.forall_mem_cons]
    exact ⟨⟨⟨first, other List.mem_cons_self⟩, reopening, by simp⟩, closing, by simp⟩
  | inRepeat count =>
    cases count with
    | none =>
      cases written
      simpa using ⟨(by decide : IsLine Statement.foreverHeader), closing⟩
    | some count =>
      obtain ⟨text, code, same⟩ := Option.map_eq_some_iff.mp written
      cases same
      simpa using ⟨Statement.isLine_countedHeader (lined.head count rfl text code), closing⟩
  | inForEach itemName collection =>
    obtain ⟨text, code, same⟩ := Option.map_eq_some_iff.mp written
    cases same
    exact List.forall_mem_append.mpr
      ⟨Statement.isLine_forEachLines itemName (lined.head collection rfl text code),
        by simpa using closing⟩
  | inWhile condition =>
    obtain ⟨text, code, same⟩ := Option.map_eq_some_iff.mp written
    cases same
    simpa using ⟨Statement.isLine_whileHeader (lined.head condition rfl text code), closing⟩
  | inEvent name modifiers => cases written
  | inSequence unrolled =>
    cases written
    simp

/-- The lines of the statement around a list. -/
theorem isLine_around (lined : frame.IsLined) (inBlock : IsOfLines (Statement.body block).value) :
    ∀ rest ∈ frame.rest?, ∀ line ∈
      rest.1 ++ indented frame.levels (lines (Statement.body block).value) ++ rest.2,
      IsLine line := by
  intro rest written
  obtain ⟨above, below⟩ := List.forall_mem_append.mp (isLine_rest? lined rest written)
  have inside := forall_indented inBlock.isLine frame.levels
  exact List.forall_mem_append.mpr ⟨List.forall_mem_append.mpr ⟨above, inside⟩, below⟩

/-- The code of the statement, line by line. -/
theorem value_generate_around (lined : frame.IsLined)
    (inBlock : IsOfLines (Statement.body block).value) :
    (Statement.generate (frame.around block)).value = frame.rest?.map fun rest =>
      joinLines
        (rest.1 ++ indented frame.levels (lines (Statement.body block).value) ++ rest.2) := by
  cases frame with
  | inThen condition elseBranch =>
    cases elseBranch with
    | none =>
      rw [rest?, Option.map_map]
      refine Statement.value_headed rfl fun text _ => ?_
      rw [Function.comp_apply, levels, ← Statement.conditional_of_lines text inBlock]
      rfl
    | some elseBranch =>
      have inElse := lined.others elseBranch List.mem_cons_self
      rw [rest?, Option.map_map]
      refine Statement.value_headed rfl fun text _ => ?_
      rw [Function.comp_apply, levels, ← Statement.conditional_of_lines_else text inBlock inElse]
      rfl
  | inElse condition thenBranch =>
    have inThen := lined.others thenBranch List.mem_cons_self
    rw [rest?, Option.map_map]
    refine Statement.value_headed rfl fun text _ => ?_
    have layout := Statement.conditional_of_lines_else text inThen inBlock
    simp only [List.cons_append, List.nil_append] at layout
    simp only [Function.comp_apply, levels, List.append_assoc, List.cons_append, List.nil_append,
      ← layout]
    rfl
  | inRepeat count =>
    cases count with
    | none =>
      have code : (Statement.generate (.repeatTimes none block)).value =
          some (Statement.block Statement.foreverHeader (Statement.body block).value) := rfl
      rw [around, code, Statement.block_of_line (by decide) inBlock]
      rfl
    | some count =>
      rw [rest?, Option.map_map]
      refine Statement.value_headed rfl fun text code => ?_
      rw [Function.comp_apply, levels, ← Statement.block_of_line
        (Statement.isLine_countedHeader (lined.head count rfl text code)) inBlock]
      rfl
  | inForEach itemName collection =>
    rw [rest?, Option.map_map]
    refine Statement.value_headed rfl fun text code => ?_
    rw [Function.comp_apply, levels, ← Statement.block_of_lines
      (Statement.isLine_forEachLines itemName (lined.head collection rfl text code)) inBlock,
      Statement.joinLines_forEachLines]
    rfl
  | inWhile condition =>
    rw [rest?, Option.map_map]
    refine Statement.value_headed rfl fun text code => ?_
    rw [Function.comp_apply, levels, ← Statement.block_of_line
      (Statement.isLine_whileHeader (lined.head condition rfl text code)) inBlock]
    rfl
  | inEvent name modifiers => rfl
  | inSequence unrolled =>
    have code : (Statement.generate (.sequence block unrolled)).value =
        some (Statement.body block).value := by
      rw [Statement.generate_sequence, Emission.value_map]
    simpa [around, rest?, levels, indented_zero, inBlock.joined] using code

/-- What stands in a frame are the children of the whole. -/
theorem mem_children_around (frame : BlockFrame) (block : List Node) :
    (∀ head ∈ frame.head?, head ∈ (frame.around block).children) ∧
      (∀ other ∈ frame.others, other ⊆ (frame.around block).children) ∧
        block ⊆ (frame.around block).children := by
  cases frame with
  | inThen condition elseBranch =>
    cases elseBranch <;> simp [head?, others, around, Node.children]
  | inRepeat count => cases count <;> simp [head?, others, around, Node.children]
  | _ => simp [head?, others, around, Node.children]

end BlockFrame

namespace Statement

theorem isUnbroken_generate {node : Node} (keys : node.UnbrokenKeys) :
    ∀ code ∈ (Expression.generate node).value, IsUnbroken code := by
  intro code written
  rw [Program.Expr.value_generate] at written
  obtain ⟨expr, found, rfl⟩ := Option.map_eq_some_iff.mp written
  exact Program.Expr.isUnbroken_ofNode? node keys found

theorem isLine_generate_command {name : String} {args : List Node} {target : Option Node}
    (keys : (Node.command name args target).UnbrokenKeys) :
    ∀ code ∈ (generate (.command name args target)).value, IsLine code := by
  intro code written
  rw [Program.Stmt.value_generate] at written
  obtain ⟨statement, found, rfl⟩ := Option.map_eq_some_iff.mp written
  refine Program.Stmt.isLine_ofCommand? (fun arg member => keys.child ?_)
    (fun target member => keys.child ?_) found
  · exact List.mem_append_left _ member
  · exact List.mem_append_right _ (Option.mem_toList.mpr member)

theorem exists_of_mem_generateAll {nodes : List Node} :
    ∀ part ∈ (generateAll nodes).value, ∃ node ∈ nodes, part ∈ (generate node).value := by
  induction nodes with
  | nil => simp [generateAll]
  | cons node rest ih =>
    intro part member
    rw [generateAll_cons, Emission.value_bind, Emission.value_bind, Emission.value_pure,
      List.mem_append] at member
    obtain first | others := member
    · rw [parts, Option.mem_toList, Option.filter_eq_some_iff] at first
      exact ⟨node, List.mem_cons_self, first.1⟩
    · obtain ⟨other, inRest, code⟩ := ih part others
      exact ⟨other, List.mem_cons_of_mem node inRest, code⟩

theorem isOfLines_body_of_forall {nodes : List Node}
    (each : ∀ node ∈ nodes, ∀ code ∈ (generate node).value, IsOfLines code) :
    IsOfLines (body nodes).value ∧
      lines (body nodes).value = (generateAll nodes).value.flatMap lines := by
  have parts : ∀ part ∈ (generateAll nodes).value, part ≠ "" ∧ IsOfLines part := by
    intro part member
    obtain ⟨node, inNodes, code⟩ := exists_of_mem_generateAll part member
    exact ⟨forall_mem_generateAll nodes part member, each node inNodes part code⟩
  have whole := isLine_flatMap_lines fun part member => (parts part member).2
  rw [value_body, ← joinLines_flatMap_lines parts]
  exact ⟨isOfLines_joinLines whole, lines_joinLines whole⟩

/-- A frame is lined where the children of the statement are. -/
theorem isLined_around {frame : BlockFrame} {block : List Node}
    (keys : (frame.around block).UnbrokenKeys)
    (each : ∀ child ∈ (frame.around block).children, ∀ code ∈ (generate child).value,
      IsOfLines code) :
    frame.IsLined ∧ IsOfLines (body block).value := by
  obtain ⟨inHead, inOthers, inside⟩ := frame.mem_children_around block
  have ofLines {nodes : List Node} (beneath : nodes ⊆ (frame.around block).children) :
      IsOfLines (body nodes).value :=
    (isOfLines_body_of_forall fun child member => each child (beneath member)).1
  exact ⟨⟨fun head member => isUnbroken_generate (keys.child (inHead head member)),
    fun other member => ofLines (inOthers other member)⟩, ofLines inside⟩

/-- The code of a statement is made of whole lines. -/
theorem isOfLines_generate (node : Node) (keys : node.UnbrokenKeys) :
    ∀ code ∈ (generate node).value, IsOfLines code := by
  induction node using Node.childInduction with
  | parent node ih =>
    have framed (frame : BlockFrame) (block : List Node) (same : frame.around block = node) :
        ∀ code ∈ (generate node).value, IsOfLines code := by
      subst same
      obtain ⟨lined, within⟩ := isLined_around keys fun child member =>
        ih child member (keys.child member)
      intro code written
      rw [Option.mem_def, BlockFrame.value_generate_around lined within] at written
      obtain ⟨rest, found, rfl⟩ := Option.map_eq_some_iff.mp written
      exact isOfLines_joinLines (BlockFrame.isLine_around lined within rest found)
    cases node with
    | command name args target =>
      exact fun code written => (isLine_generate_command keys code written).isOfLines
    | ifElse condition thenBranch elseBranch => exact framed (.inThen condition elseBranch) _ rfl
    | repeatTimes count body => exact framed (.inRepeat count) _ rfl
    | forEach itemName collection body => exact framed (.inForEach itemName collection) _ rfl
    | whileLoop condition body => exact framed (.inWhile condition) _ rfl
    | event name modifiers body => exact framed (.inEvent name modifiers) _ rfl
    | sequence commands unrolled => exact framed (.inSequence unrolled) _ rfl
    | _ => exact fun code written => nomatch written

variable {nodes : List Node}

/-- So is that of a list of statements. -/
theorem isOfLines_body (keys : ∀ node ∈ nodes, node.UnbrokenKeys) :
    IsOfLines (body nodes).value :=
  (isOfLines_body_of_forall fun node member => isOfLines_generate node (keys node member)).1

theorem lines_body (keys : ∀ node ∈ nodes, node.UnbrokenKeys) :
    lines (body nodes).value = (generateAll nodes).value.flatMap lines :=
  (isOfLines_body_of_forall fun node member => isOfLines_generate node (keys node member)).2

/-- The lines of statements one after the other. -/
theorem lines_body_append {first second : List Node}
    (keys : ∀ node ∈ first ++ second, node.UnbrokenKeys) :
    lines (body (first ++ second)).value =
      lines (body first).value ++ lines (body second).value := by
  obtain ⟨inFirst, inSecond⟩ := List.forall_mem_append.mp keys
  rw [lines_body keys, lines_body inFirst, lines_body inSecond, generateAll_append]
  simp only [Emission.value_bind, Emission.value_pure, List.flatMap_append]

theorem flatMap_parts (code : Option String) :
    (parts code).flatMap lines = code.elim [] lines := by
  cases code with
  | none => rfl
  | some code =>
    by_cases empty : code = "" <;> simp [parts, empty, Option.filter, lines, splitLines]

/-- The lines of a statement around a list of others. -/
theorem lines_body_around {frame : BlockFrame} {block : List Node}
    (keys : (frame.around block).UnbrokenKeys) :
    lines (body [frame.around block]).value = frame.rest?.elim [] fun rest =>
      rest.1 ++ indented frame.levels (lines (body block).value) ++ rest.2 := by
  obtain ⟨lined, within⟩ := isLined_around keys fun child member =>
    isOfLines_generate child (keys.child member)
  rw [lines_body (by simpa using keys), generateAll_cons, Emission.value_bind, Emission.value_bind,
    Emission.value_pure, List.flatMap_append, flatMap_parts,
    BlockFrame.value_generate_around lined within]
  cases found : frame.rest? with
  | none => rfl
  | some rest =>
    rw [Option.map_some, Option.elim_some, Option.elim_some,
      lines_joinLines (BlockFrame.isLine_around lined within rest found)]
    exact List.append_nil _

end Statement

/-- A place in nested lists of statements: what stands there before and after it, and around
that the same for each list further out. -/
inductive Site where
  | here (before after : List Node)
  | within (before : List Node) (frame : BlockFrame) (inner : Site) (after : List Node)

namespace Site

/-- The outermost list, with these statements at the place. -/
def fill (nodes : List Node) : Site → List Node
  | .here before after => before ++ nodes ++ after
  | .within before frame inner after => before ++ [frame.around (inner.fill nodes)] ++ after

/-- The number of blocks around the place. -/
def depth : Site → Nat
  | .here .. => 0
  | .within _ frame inner _ => frame.levels + inner.depth

/-- All statements around the place have code. -/
def isWritten : Site → Bool
  | .here .. => true
  | .within _ frame inner _ => frame.rest?.isSome && inner.isWritten

/-- The lines above the place, whatever stands there. -/
def linesAbove : Site → List String
  | .here before _ => lines (Statement.body before).value
  | .within before frame inner _ =>
    lines (Statement.body before).value ++
      frame.rest?.elim [] fun rest => rest.1 ++ indented frame.levels inner.linesAbove

def linesBelow : Site → List String
  | .here _ after => lines (Statement.body after).value
  | .within _ frame inner after =>
    (frame.rest?.elim [] fun rest => indented frame.levels inner.linesBelow ++ rest.2) ++
      lines (Statement.body after).value

/-- The statements at a place are written as on their own, as deep as the place is, if anything
is written there. -/
theorem lines_body_fill {site : Site} {nodes : List Node}
    (keys : ∀ node ∈ site.fill nodes, node.UnbrokenKeys) :
    lines (Statement.body (site.fill nodes)).value =
      site.linesAbove ++
        (if site.isWritten then indented site.depth (lines (Statement.body nodes).value) else []) ++
        site.linesBelow := by
  induction site with
  | here before after =>
    rw [fill, Statement.lines_body_append keys, Statement.lines_body_append]
    · simp [linesAbove, linesBelow, isWritten, depth, indented_zero]
    · exact (List.forall_mem_append.mp keys).1
  | within before frame inner after ih =>
    rw [fill] at keys ⊢
    obtain ⟨inFirst, inAfter⟩ := List.forall_mem_append.mp keys
    have inFrame := List.forall_mem_singleton.mp (List.forall_mem_append.mp inFirst).2
    have inside := ih fun node member =>
      inFrame.child ((frame.mem_children_around (inner.fill nodes)).2.2 member)
    rw [Statement.lines_body_append keys, Statement.lines_body_append inFirst,
      Statement.lines_body_around inFrame, inside, linesAbove, linesBelow, isWritten, depth]
    cases frame.rest? with
    | none => simp
    | some rest =>
      cases inner.isWritten <;> simp [indented_append, indented_indented]

/-- Code for statements is made of lines without carriage returns, none of them empty, as long as
no variable of a selector holds a line break. To place such code in a block, where it is moved
right and cut once more, comes to the same as to write it one level further in. So in the function
of a handler, the lines of statements at any place within nested lists are those that they have
on their own, moved right by two spaces for each block around the place, for the function and for
the `try` of a guarded one; what stands around them does not depend on them, except for the
declarations of the variables that they read. Where a statement around the place has no code,
nothing is written there. -/
theorem nesting_keeps_lines :
    (∀ nodes : List Node, (∀ node ∈ nodes, node.UnbrokenKeys) →
      '\r' ∉ (Statement.body nodes).value.toList ∧ "" ∉ lines (Statement.body nodes).value ∧
        joinLines (lines (Statement.body nodes).value) = (Statement.body nodes).value) ∧
    (∀ text : String, '\r' ∉ text.toList → "" ∉ lines text → ∀ sheet : Sheet,
      sheet.fragment (indentBlock text) = (sheet.indent.fragment text).dedent) ∧
    (∀ (node : Node) (block : List Node), (∃ frame : BlockFrame, frame.around block = node) ↔
      block ∈ node.blocks ∨ ∃ unrolled, node = .sequence block unrolled) ∧
    ∀ (site : Site) (nodes : List Node) (handler : Handler) (facts : Facts) (context : Context),
      handler.body = site.fill nodes → (∀ node ∈ handler.body, node.UnbrokenKeys) →
      lines (GeneratedHandler.generate handler facts context).1.handlerCode =
        (GeneratedHandler.headLines context.handlerId facts ++ GeneratedHandler.declarationLines
            ((Statement.body handler.body).run context).cached).flatMap lines ++
          GeneratedHandler.entryLines handler.modifiers facts ++
          indented (GeneratedHandler.bodyDepth facts) site.linesAbove ++
          (if site.isWritten then
            indented (GeneratedHandler.bodyDepth facts + site.depth)
              (lines (Statement.body nodes).value) else []) ++
          indented (GeneratedHandler.bodyDepth facts) site.linesBelow ++
          GeneratedHandler.exitLines facts := by
  refine ⟨?_, ?_, fun node block => BlockFrame.exists_around_iff, ?_⟩
  · intro nodes keys
    have ofLines := Statement.isOfLines_body keys
    exact ⟨ofLines.isWhole.unreturned, ofLines.isWhole.written, ofLines.joined⟩
  · exact fun text unreturned written => Sheet.fragment_indentBlock ⟨unreturned, written⟩
  · intro site nodes handler facts context filled keys
    have inside := lines_body_fill (filled ▸ keys)
    rw [← filled] at inside
    rw [GeneratedHandler.handlerCode_eq,
      GeneratedHandler.lines_functionCode (Statement.isOfLines_body keys).isLine, inside]
    cases site.isWritten <;> simp [indented_append, indented_indented]

/-- A condition inside an iteration whose head takes two lines. -/
def rowCondition : Site :=
  .within [] (.inForEach "the row" (.selector ".row" (some "_sel__row")))
    (.within [] (.inThen (.literal (.bool true)) none) (.here [] []) [])
    [.command "exit" [] none]

/-- A handler that logs a text with a line break there. -/
def rowHandler : Handler where
  event := "click"
  modifiers := { prevent := true }
  body := rowCondition.fill [.command "log" [.literal (.string "deep\r\n")] none]

theorem nesting_keeps_lines_rowHandler :
    (∀ node ∈ rowHandler.body, node.UnbrokenKeys) ∧
      '\r' ∉ (Statement.body rowHandler.body).value.toList ∧
      "" ∉ lines (Statement.body rowHandler.body).value ∧
      ({ depth := 1 } : Sheet).fragment (indentBlock (Statement.body rowHandler.body).value) =
        (({ depth := 1 } : Sheet).indent.fragment (Statement.body rowHandler.body).value).dedent ∧
      lines (GeneratedHandler.generate rowHandler { canThrow := true }
          { handlerId := "h1" }).1.handlerCode =
        ["function _handler_h1(_event) \x7b",
          "  const _ctx = _rt.createContext(_event, this);",
          "  const _sel__row = document.querySelectorAll(\".row\");",
          "  try \x7b",
          "    _event.preventDefault();",
          "    for (const _item of _sel__row) \x7b",
          "      _ctx.locals[\"the row\"] = _item;",
          "      if (true) \x7b",
          "        console.log(\"deep\\r\\n\");",
          "      \x7d",
          "    \x7d",
          "    throw _rt.EXIT;",
          "  \x7d catch (_err) \x7b",
          "    if (_err === _rt.HALT) \x7b",
          "      _event.preventDefault();",
          "      return;",
          "    \x7d",
          "    if (_err === _rt.EXIT) \x7b",
          "      return;",
          "    \x7d",
          "    throw _err;",
          "  \x7d",
          "\x7d"] := by
  obtain ⟨whole, composes, -, nested⟩ := nesting_keeps_lines
  have keys : ∀ node ∈ rowHandler.body, node.UnbrokenKeys := by
    have key : IsUnbroken "_sel__row" := by decide
    intro node member value cacheKey inside name read
    simp [rowHandler, rowCondition, fill, BlockFrame.around] at member
    rcases member with rfl | rfl <;>
      simp [Node.subtree, Node.subtrees, Node.subtree?] at inside
    obtain ⟨-, rfl⟩ := inside
    cases read
    exact key
  obtain ⟨unreturned, written, -⟩ := whole rowHandler.body keys
  have code := nested rowCondition _ rowHandler { canThrow := true } { handlerId := "h1" } rfl keys
  refine ⟨keys, unreturned, written, composes _ unreturned written _, code.trans ?_⟩
  decide +kernel

end Site
end Hyperscript
