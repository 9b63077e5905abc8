import Hyperscript.Proofs.Optimization.Settled
import Hyperscript.Proofs.Program.Traces
import Hyperscript.Proofs.Text.Layout

/-! Sequences leave no mark in the code. A sequence in a statement list is emitted as its
statements would be in its place, at any depth; so an unrolled repetition is emitted as so many
copies of its body, and its reads are those of one copy. -/
namespace Hyperscript

open Node Text

namespace Text

theorem joinLines_cons_congr {rest rest' : List String} (empty : rest = [] ↔ rest' = [])
    (same : joinLines rest = joinLines rest') (text : String) :
    joinLines (text :: rest) = joinLines (text :: rest') := by
  by_cases last : rest = []
  · rw [last, empty.mp last]
  · rw [joinLines_cons text last, same, joinLines_cons text (mt empty.mpr last)]

/-- Lines that were joined before count as one text. -/
theorem joinLines_joined {inner : List String} (nonempty : inner ≠ []) (before after : List String) :
    joinLines (before ++ joinLines inner :: after) = joinLines (before ++ (inner ++ after)) := by
  induction before with
  | nil =>
    by_cases last : after = []
    · simp [last, joinLines, join]
    · rw [List.nil_append, List.nil_append, joinLines_cons _ last,
        joinLines_append nonempty last]
  | cons text rest ih => exact joinLines_cons_congr (by simp [nonempty]) ih text

theorem joinLines_replicate {inner : List String} (nonempty : inner ≠ []) (times : Nat) :
    joinLines (List.replicate times inner).flatten =
      joinLines (List.replicate times (joinLines inner)) := by
  induction times with
  | zero => rfl
  | succ times ih =>
    rw [List.replicate_succ, List.replicate_succ, List.flatten_cons, ← List.nil_append (_ ++ _),
      ← joinLines_joined nonempty, List.nil_append]
    exact joinLines_cons_congr (by cases times <;> simp [List.replicate_succ, nonempty]) ih _

end Text

namespace Statement

/-- What a statement puts among the parts of its list: nothing if it has no code or no text. -/
def parts (code : Option String) : List String := (code.filter (· ≠ "")).toList

theorem generateAll_cons (node : Node) (nodes : List Node) :
    generateAll (node :: nodes) = do
      let code ← generate node
      let codes ← generateAll nodes
      return parts code ++ codes := by
  rw [generateAll]
  refine bind_congr fun code => bind_congr fun codes => congrArg pure ?_
  cases code with
  | none => rfl
  | some code => by_cases empty : code = "" <;> simp [parts, empty, Option.filter]

theorem generateAll_append (first second : List Node) :
    generateAll (first ++ second) = do
      let codes ← generateAll first
      let others ← generateAll second
      return codes ++ others := by
  induction first with
  | nil => simp [generateAll]
  | cons node rest ih =>
    simp only [List.cons_append, generateAll_cons, ih, bind_assoc, pure_bind, List.append_assoc]

theorem forall_mem_generateAll (nodes : List Node) :
    ∀ part ∈ (generateAll nodes).value, part ≠ "" := by
  induction nodes with
  | nil => simp [generateAll]
  | cons node rest ih =>
    simp only [generateAll_cons, Emission.value_bind, Emission.value_pure, List.forall_mem_append]
    refine ⟨?_, ih⟩
    intro part member
    simp only [parts, Option.mem_toList, Option.filter_eq_some_iff] at member
    simpa using member.2

theorem value_body (nodes : List Node) : (body nodes).value = joinLines (generateAll nodes).value :=
  rfl

/-- Code for statement lists is the same whatever stands around them. -/
def Alike (nodes nodes' : List Node) : Prop :=
  ∀ before after, body (before ++ nodes ++ after) = body (before ++ nodes' ++ after)

theorem body_eq (nodes : List Node) : body nodes = do
    let codes ← generateAll nodes
    return joinLines codes := by
  rw [bind_pure_comp, body]

theorem generate_sequence (commands : List Node) (unrolled : Bool) :
    generate (.sequence commands unrolled) = some <$> body commands := by
  simp [generate, body]

/-- Among the parts of a list, the text of another list counts as the parts it was joined from. -/
theorem joinLines_parts {inner : List String} (each : ∀ part ∈ inner, part ≠ "")
    (before after : List String) :
    joinLines (before ++ parts (some (joinLines inner)) ++ after) =
      joinLines (before ++ inner ++ after) := by
  by_cases empty : inner = []
  · simp [empty, parts, joinLines, join, Option.filter]
  · have single : parts (some (joinLines inner)) = [joinLines inner] := by
      simp [parts, Option.filter, mt (joinLines_eq_empty_iff each).mp empty]
    rw [single, List.append_assoc, List.append_assoc, List.singleton_append,
      joinLines_joined empty]

/-- A sequence is emitted as its statements. -/
theorem alike_sequence (commands : List Node) (unrolled : Bool) :
    Alike [.sequence commands unrolled] commands := by
  intro before after
  simp only [body_eq, generateAll_append, generateAll_cons, generate_sequence, map_bind, map_pure,
    bind_assoc, pure_bind]
  apply Emission.ext
  · simpa [generateAll] using
      joinLines_parts (forall_mem_generateAll commands) (generateAll before).value
        (generateAll after).value
  · simp [generateAll]
  · simp [generateAll]

/-- Statements with the same code are interchangeable. -/
theorem alike_of_generate {node node' : Node} (same : generate node = generate node') :
    Alike [node] [node'] := by
  intro before after
  simp only [body_eq, generateAll_append, generateAll_cons, same]

namespace Alike

variable {first first' second second' : List Node}

theorem refl (nodes : List Node) : Alike nodes nodes := fun _ _ => rfl

theorem trans {third : List Node} (one : Alike first second) (two : Alike second third) :
    Alike first third := fun before after => (one before after).trans (two before after)

theorem symm (alike : Alike first second) : Alike second first :=
  fun before after => (alike before after).symm

theorem append (one : Alike first first') (two : Alike second second') :
    Alike (first ++ second) (first' ++ second') := by
  intro before after
  calc body (before ++ (first ++ second) ++ after)
      = body (before ++ first ++ (second ++ after)) := by simp only [List.append_assoc]
    _ = body (before ++ first' ++ (second ++ after)) := one before (second ++ after)
    _ = body (before ++ first' ++ second ++ after) := by simp only [List.append_assoc]
    _ = body (before ++ first' ++ second' ++ after) := two (before ++ first') after
    _ = body (before ++ (first' ++ second') ++ after) := by simp only [List.append_assoc]

theorem body (alike : Alike first second) : body first = body second := by
  simpa using alike [] []

end Alike

end Statement

namespace Node

mutual

/-- A statement with the sequences in it dissolved: those in its blocks, at any depth, and the
statement itself if it is one. -/
def spliced : Node → List Node
  | .sequence commands _ => splicedAll commands
  | .ifElse condition thenBranch elseBranch =>
    [.ifElse condition (splicedAll thenBranch) (spliced? elseBranch)]
  | .repeatTimes count body => [.repeatTimes count (splicedAll body)]
  | .forEach itemName collection body => [.forEach itemName collection (splicedAll body)]
  | .whileLoop condition body => [.whileLoop condition (splicedAll body)]
  | .event name modifiers body => [.event name modifiers (splicedAll body)]
  | .command name args target => [.command name args target]
  | .literal value => [.literal value]
  | .binary operator left right => [.binary operator left right]
  | .unary operator operand => [.unary operator operand]
  | .selector value cacheKey => [.selector value cacheKey]
  | .identifier name => [.identifier name]
  | .variableRef name => [.variableRef name]
  | .member object property => [.member object property]
  | .unknown => [.unknown]

def splicedAll : List Node → List Node
  | [] => []
  | node :: nodes => node.spliced ++ splicedAll nodes

def spliced? : Option (List Node) → Option (List Node)
  | none => none
  | some nodes => some (splicedAll nodes)

end

/-- No sequence stands among the statements, nor in their blocks. -/
inductive IsFlat : List Node → Prop where
  | intro {nodes : List Node} : (∀ node ∈ nodes, node.kind ≠ .sequence) →
      (∀ node ∈ nodes, ∀ block ∈ node.blocks, IsFlat block) → IsFlat nodes

theorem isFlat_nil : IsFlat [] := .intro (by simp) (by simp)

theorem isFlat_single {node : Node} (other : node.kind ≠ .sequence)
    (inside : ∀ block ∈ node.blocks, IsFlat block) : IsFlat [node] :=
  .intro (by simpa using other) (by simpa using inside)

theorem IsFlat.append {first second : List Node} (one : IsFlat first) (two : IsFlat second) :
    IsFlat (first ++ second) := by
  obtain ⟨others, inside⟩ := one
  obtain ⟨others', inside'⟩ := two
  exact .intro (List.forall_mem_append.mpr ⟨others, others'⟩)
    (List.forall_mem_append.mpr ⟨inside, inside'⟩)

theorem isFlat_splicedAll {nodes : List Node} (each : ∀ node ∈ nodes, IsFlat node.spliced) :
    IsFlat (splicedAll nodes) := by
  induction nodes with
  | nil => exact isFlat_nil
  | cons node rest ih =>
    obtain ⟨first, others⟩ := List.forall_mem_cons.mp each
    exact first.append (ih others)

theorem isFlat_spliced (node : Node) : IsFlat node.spliced := by
  induction node using childInduction with
  | parent node ih =>
    have inBlock (statements : List Node) (inside : statements ⊆ node.children) :
        IsFlat (splicedAll statements) :=
      isFlat_splicedAll fun statement member => ih statement (inside member)
    cases node with
    | sequence commands unrolled => exact inBlock commands (List.Subset.refl _)
    | ifElse condition thenBranch elseBranch =>
      have first := inBlock thenBranch (by simp [children])
      cases elseBranch with
      | none => exact isFlat_single (by rintro ⟨⟩) (by simpa [blocks, spliced?] using first)
      | some elseBranch =>
        have second := inBlock elseBranch (by simp [children])
        exact isFlat_single (by rintro ⟨⟩) (by simpa [blocks, spliced?] using ⟨first, second⟩)
    | repeatTimes count body | forEach itemName head body | whileLoop head body =>
      have first := inBlock body (by simp [children])
      exact isFlat_single (by rintro ⟨⟩) (by simpa [blocks] using first)
    | event name modifiers body =>
      have first := inBlock body (List.Subset.refl _)
      exact isFlat_single (by rintro ⟨⟩) (by simpa [blocks] using first)
    | _ => exact isFlat_single (by rintro ⟨⟩) (by simp [blocks])

end Node

namespace Statement

theorem alike_splicedAll {nodes : List Node} (each : ∀ node ∈ nodes, Alike node.spliced [node]) :
    Alike (splicedAll nodes) nodes := by
  induction nodes with
  | nil => exact .refl []
  | cons node rest ih =>
    obtain ⟨first, others⟩ := List.forall_mem_cons.mp each
    exact first.append (ih others)

/-- A statement and its spliced form have the same code, whatever stands around. -/
theorem alike_spliced (node : Node) : Alike node.spliced [node] := by
  induction node using childInduction with
  | parent node ih =>
    have inBlock (statements : List Node) (inside : statements ⊆ node.children) :
        body (splicedAll statements) = body statements :=
      (alike_splicedAll fun statement member => ih statement (inside member)).body
    have folded (statements : List Node) :
        joinLines <$> generateAll statements = body statements := rfl
    cases node with
    | sequence commands unrolled =>
      exact (alike_splicedAll fun command member => ih command member).trans
        (alike_sequence commands unrolled).symm
    | ifElse condition thenBranch elseBranch =>
      have first := inBlock thenBranch (by simp [children])
      cases elseBranch with
      | none => exact alike_of_generate (by simp only [spliced?, generate, folded, first])
      | some elseBranch =>
        have second := inBlock elseBranch (by simp [children])
        exact alike_of_generate (by simp only [spliced?, generate, folded, first, second])
    | repeatTimes count body =>
      have first := inBlock body (by simp [children])
      cases count <;> exact alike_of_generate (by simp only [generate, folded, first])
    | forEach itemName head body | whileLoop head body =>
      have first := inBlock body (by simp [children])
      exact alike_of_generate (by simp only [generate, folded, first])
    | event name modifiers body => exact alike_of_generate rfl
    | _ => exact .refl _

end Statement

theorem Unrolling.literal_of_node {node : Node} {value : Literal}
    (literal : (revision.node node).value = .literal value) : node = .literal value := by
  have same : (revision.node node).value.literal? = node.literal? :=
    Revision.root_node literal? SameRoot.literal? literal?_unroll node
  rw [← literal?_eq_some_iff, ← literal?_eq_some_iff.mpr literal]
  exact same.symm

theorem Unrolling.value_node_repeatTimes (count : Node) (loop : List Node) :
    (revision.node (.repeatTimes (some count) loop)).value =
      (unroll (.repeatTimes (some (revision.node count).value) (revision.block loop).value)).value :=
  rfl

/-- A repetition that becomes a sequence has a literal count, and the sequence holds so many
copies of the revised body. -/
theorem Unrolling.of_node_eq_sequence {count : Option Node} {loop commands : List Node}
    {unrolled : Bool}
    (replaced : (revision.node (.repeatTimes count loop)).value = .sequence commands unrolled) :
    ∃ number times, count = some (.literal (.number number)) ∧
      Binary64.toNat? number = some times ∧
      commands = (List.replicate times (revision.block loop).value).flatten := by
  cases count with
  | none => cases replaced
  | some count =>
    rw [value_node_repeatTimes] at replaced
    unfold unroll at replaced
    split at replaced
    next number body same =>
      obtain ⟨literal, rfl⟩ : (revision.node count).value = .literal (.number number) ∧
        (revision.block loop).value = body := by simpa using same
      split at replaced
      next => cases replaced
      next clear =>
        obtain ⟨⟨times, _, whole⟩, _⟩ := of_obstacle?_eq_none clear
        obtain ⟨rfl, _⟩ : iterations number (revision.block loop).value = commands ∧
          true = unrolled := by simpa [Revised.replaced] using replaced
        exact ⟨number, times, by rw [literal_of_node literal], whole, iterations_eq whole _⟩
    next => cases replaced

/-- Once read, a selector has its variable. -/
theorem Context.cacheAll_replicate (context : Context) (reads : List (String × String))
    (times : Nat) :
    context.cacheAll (List.replicate (times + 1) reads).flatten = context.cacheAll reads := by
  have append (context : Context) (first second : List (String × String)) :
      context.cacheAll (first ++ second) = (context.cacheAll first).cacheAll second :=
    List.foldl_append
  induction times generalizing context with
  | zero => simp
  | succ times ih =>
    rw [List.replicate_succ, List.flatten_cons, append, ih]
    apply Program.cacheAll_eq_self
    intro read member
    exact Program.mem_keys_cacheAll.mpr (.inr (List.mem_map_of_mem member))

namespace Statement

theorem value_generateAll_replicate (nodes : List Node) (times : Nat) :
    (generateAll (List.replicate times nodes).flatten).value =
      (List.replicate times (generateAll nodes).value).flatten := by
  induction times with
  | zero => rfl
  | succ times ih => simp [List.replicate_succ, generateAll_append, ih]

theorem reads_generateAll_replicate (nodes : List Node) (times : Nat) :
    (generateAll (List.replicate times nodes).flatten).reads =
      (List.replicate times (generateAll nodes).reads).flatten := by
  induction times with
  | zero => rfl
  | succ times ih => simp [List.replicate_succ, generateAll_append, ih]

/-- The text of so many copies. -/
theorem value_body_replicate (nodes : List Node) (times : Nat) :
    (body (List.replicate times nodes).flatten).value =
      if times = 0 ∨ (body nodes).value = "" then ""
      else joinLines (List.replicate times (body nodes).value) := by
  have empty := joinLines_eq_empty_iff (forall_mem_generateAll nodes)
  rw [value_body, value_body, value_generateAll_replicate]
  split
  next nothing =>
    obtain rfl | without := nothing
    · rfl
    · rw [empty.mp without, List.flatten_replicate_nil]
      rfl
  next something =>
    obtain ⟨_, written⟩ := not_or.mp something
    exact joinLines_replicate (mt empty.mpr written) times

theorem run_body_replicate (nodes : List Node) (times : Nat) (context : Context) :
    (body (List.replicate (times + 1) nodes).flatten).run context = (body nodes).run context := by
  have reads (nodes : List Node) : (body nodes).reads = (generateAll nodes).reads :=
    Emission.reads_map _ _
  simp only [Emission.run, reads, reads_generateAll_replicate, Context.cacheAll_replicate]

/-- A sequence in a statement list, with what stands around it, has the text, the reads and the
notes of its statements there; and so has a list of which all sequences are dissolved, also
those within sequences and within blocks. So where a repetition is unrolled, its text is that
of so many copies of the revised body, one below the other, or empty if there are none or if
the body has no text; and every context is left as the body leaves it, unless there are none. -/
theorem sequences_transparent :
    (∀ before commands unrolled after,
      body (before ++ [.sequence commands unrolled] ++ after) =
        body (before ++ commands ++ after)) ∧
    (∀ nodes, IsFlat (splicedAll nodes) ∧ body (splicedAll nodes) = body nodes) ∧
    ∀ count loop commands unrolled,
      (Unrolling.revision.node (.repeatTimes count loop)).value = .sequence commands unrolled →
      ∃ number times, count = some (.literal (.number number)) ∧
        Binary64.toNat? number = some times ∧
        (body [.sequence commands unrolled]).value =
          (if times = 0 ∨ (body (Unrolling.revision.block loop).value).value = "" then ""
          else joinLines (List.replicate times (body (Unrolling.revision.block loop).value).value)) ∧
        ∀ context, (body [.sequence commands unrolled]).run context =
          if times = 0 then context
          else (body (Unrolling.revision.block loop).value).run context := by
  refine ⟨?_, ?_, ?_⟩
  · exact fun before commands unrolled after => alike_sequence commands unrolled before after
  · intro nodes
    exact ⟨isFlat_splicedAll fun node _ => isFlat_spliced node,
      (alike_splicedAll fun node _ => alike_spliced node).body⟩
  · intro count loop commands unrolled replaced
    obtain ⟨number, times, literal, whole, rfl⟩ := Unrolling.of_node_eq_sequence replaced
    refine ⟨number, times, literal, whole, ?_⟩
    rw [(alike_sequence _ unrolled).body]
    refine ⟨value_body_replicate _ times, ?_⟩
    intro context
    cases times with
    | zero => rfl
    | succ times => exact run_body_replicate _ times context

/-- A command that reads its target through a variable. -/
def mark : Node :=
  .command "add" [.selector ".on" none] (some (.selector ".item" (some "_sel__item")))

/-- Repeated twice, it is written twice, and its variable is declared once. -/
theorem body_of_repeated_mark :
    ∃ commands,
      (Unrolling.revision.node (.repeatTimes (some (.literal (.number 2.0))) [mark])).value =
        .sequence commands true ∧
      (body [.sequence commands true]).value =
        "_sel__item.forEach((el) => el.classList.add(\"on\"));\n" ++
          "_sel__item.forEach((el) => el.classList.add(\"on\"));" ∧
      ((body [.sequence commands true]).run { handlerId := "h1" }).cached =
        [("_sel__item", ".item")] := by
  have whole : Binary64.toNat? 2.0 = some 2 := by decide +kernel
  have clear : Unrolling.obstacle? 2.0 [mark] = none := by
    refine Unrolling.obstacle?_eq_none_iff.mpr ⟨2.0, 2, [mark], rfl, whole, ?_⟩
    decide
  have replaced : (Unrolling.revision.node
      (.repeatTimes (some (.literal (.number 2.0))) [mark])).value =
        .sequence (Unrolling.iterations 2.0 [mark]) true := by
    have count (value : Literal) :
        (Unrolling.revision.node (.literal value)).value = .literal value := rfl
    have loop : (Unrolling.revision.block [mark]).value = [mark] := rfl
    rw [Unrolling.value_node_repeatTimes, count, loop]
    simp only [Unrolling.unroll, clear, Revised.replaced]
  obtain ⟨_, _, unrolling⟩ := sequences_transparent
  obtain ⟨number, times, literal, same, text, context⟩ := unrolling _ _ _ _ replaced
  cases literal
  cases whole.symm.trans same
  refine ⟨_, replaced, text.trans ?_, (congrArg Context.cached (context _)).trans ?_⟩
  · decide
  · decide

end Statement
end Hyperscript
