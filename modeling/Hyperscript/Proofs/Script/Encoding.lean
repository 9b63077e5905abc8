import Hyperscript.Analysis.Wire
import Hyperscript.Optimization.Optimizer
import Hyperscript.Proofs.Script.Everywhere
import Hyperscript.Proofs.Script.Written

/-! Reading what was written. The object that a node is written as has its fields in declaration
order and leaves out only those that hold their default, so it is read as the node again. All of
it needs numbers that are finite: the others are written as `null`. -/
namespace Hyperscript

def Literal.IsFinite (literal : Literal) : Prop :=
  ∀ value ∈ literal.number?, Binary64.isFinite value

def Modifiers.IsFinite (modifiers : Modifiers) : Prop :=
  (∀ delay ∈ modifiers.debounce, Binary64.isFinite delay) ∧
    ∀ delay ∈ modifiers.throttle, Binary64.isFinite delay

/-- Every number of the node is finite: its literals, and the delays of its handlers. -/
def Node.IsFinite (node : Node) : Prop :=
  node.Everywhere fun inner =>
    (∀ literal ∈ inner.literal?, literal.IsFinite) ∧
      ∀ handler ∈ inner.handler?, handler.modifiers.IsFinite

def Part.IsFinite : Part → Prop
  | .text _ | .flag _ | .optionalText _ => True
  | .literal value => value.IsFinite
  | .node value => value.IsFinite
  | .nodes value => ∀ node ∈ value, node.IsFinite
  | .optionalNode value => ∀ node ∈ value, node.IsFinite
  | .optionalNodes value => ∀ nodes ∈ value, ∀ node ∈ nodes, node.IsFinite
  | .optionalNumber value => ∀ number ∈ value, Binary64.isFinite number
  | .modifiers value => value.IsFinite

theorem Node.isFinite_iff {node : Node} :
    node.IsFinite ↔ ∀ part ∈ node.fields, part.IsFinite := by
  rw [IsFinite, everywhere_iff]
  cases node with
  | ifElse condition thenBranch elseBranch =>
    cases elseBranch <;>
      simp [literal?, handler?, children, fields, Part.IsFinite, IsFinite, or_imp, forall_and]
  | _ => simp [literal?, handler?, children, fields, Part.IsFinite, IsFinite, or_imp, forall_and]

theorem Modifiers.isFinite_iff {modifiers : Modifiers} :
    modifiers.IsFinite ↔ ∀ part ∈ modifiers.fields, part.IsFinite := by
  simp [IsFinite, fields, Part.IsFinite]

theorem Literal.decode_encode {literal : Literal} (finite : literal.IsFinite) :
    decode literal.encode = .ok literal := by
  cases literal with
  | number value =>
    have isFinite : Binary64.isFinite value = true := finite value rfl
    simp [encode, Json.ofNumber, isFinite, decode, Json.Number.toFloat]
  | null | bool | string => rfl

namespace Node

theorem decodeList_encodeAll {nested : Bool} {nodes : List Node}
    (each : ∀ node ∈ nodes, decode nested node.encode = .ok node) :
    decodeList nested (.array (encodeAll nodes)) = .ok nodes := by
  refine decodeList_eq_ok.mpr ⟨_, rfl, decodeAll_eq_ok.mpr ?_⟩
  induction nodes with
  | nil => exact .nil
  | cons node nodes ih =>
    obtain ⟨first, rest⟩ := List.forall_mem_cons.mp each
    exact .cons first (ih rest)

namespace Abridged

variable {schema : Schema} {fields : List Part} {members : List (String × Json)}

theorem flag (name : String) (value : Bool) (rest : Abridged schema fields members) :
    Abridged ((name, .flag) :: schema) (.flag value :: fields)
      (Json.flagMember name value ++ members) := by
  cases value with
  | false => exact .omitted name (.flag false) rfl rest
  | true => exact .written name (.flag true) rest

theorem number (name : String) {value : Option Float}
    (finite : ∀ number ∈ value, Binary64.isFinite number) (rest : Abridged schema fields members) :
    Abridged ((name, .optionalNumber) :: schema) (.optionalNumber value :: fields)
      (Json.optionalMember name (value.map Json.ofNumber) ++ members) := by
  cases value with
  | none => exact .omitted name (.optionalNumber none) rfl rest
  | some number =>
    have asNumber : Json.ofNumber number = .number (.float number) := if_pos (finite number rfl)
    rw [Option.map_some, asNumber]
    exact .written name (.someNumber (.float number)) rest

theorem text (name : String) (value : Option String) (rest : Abridged schema fields members) :
    Abridged ((name, .optionalText) :: schema) (.optionalText value :: fields)
      (Json.optionalMember name (value.map Json.string) ++ members) := by
  cases value with
  | none => exact .omitted name (.optionalText none) rfl rest
  | some value => exact .written name (.someText value) rest

theorem node (name : String) {value : Option Node}
    (each : ∀ node ∈ value, decode true node.encode = .ok node)
    (rest : Abridged schema fields members) :
    Abridged ((name, .optionalNode) :: schema) (.optionalNode value :: fields)
      (Json.optionalMember name (encode? value) ++ members) := by
  cases value with
  | none => exact .omitted name (.optionalNode none) rfl rest
  | some node => exact .written name (.someNode (each node rfl)) rest

end Abridged
end Node

theorem Modifiers.decode_encode {nested : Bool} {modifiers : Modifiers}
    (finite : modifiers.IsFinite) : decode nested modifiers.encode = .ok modifiers := by
  have abridged : Node.Abridged schema modifiers.fields _ :=
    .flag "once" _ <| .flag "passive" _ <| .flag "capture" _ <| .flag "prevent" _ <|
      .flag "stop" _ <| .number "debounce" finite.1 <| .number "throttle" finite.2 <|
      .text "from" _ .nil
  obtain ⟨parts, read, held⟩ := abridged.decodeMembers distinct_schema
  refine decode_object_eq_ok.mpr ⟨parts, ?_, held.modifiers⟩
  simpa only [List.append_assoc, List.append_nil] using read

namespace Node

/-- A node is written as an object with its fields in order, given that its children are read
back. -/
theorem abridged_encode {node : Node} (finite : node.IsFinite)
    (each : ∀ child ∈ node.children, decode true child.encode = .ok child) :
    ∃ members, node.encode = tagged node.kind members ∧
      Abridged node.kind.schema node.fields members := by
  have readAll (nodes : List Node) (among : nodes ⊆ node.children) :
      decodeList true (.array (encodeAll nodes)) = .ok nodes :=
    decodeList_encodeAll fun child member => each child (among member)
  cases node with
  | command name args target =>
    have readTarget : ∀ node ∈ target, decode true node.encode = .ok node := by
      rintro node ⟨⟩
      exact each node (by simp [children])
    refine ⟨_, rfl, .written "name" (.text name) ?_⟩
    cases args with
    | nil =>
      simpa using Abridged.omitted "args" (.nodes []) rfl (.node "target" readTarget .nil)
    | cons arg args =>
      have readArgs := readAll (arg :: args) (by simp [children])
      simpa using Abridged.written "args" (.nodes readArgs) (.node "target" readTarget .nil)
  | ifElse condition thenBranch elseBranch =>
    refine ⟨_, rfl, .written "condition" (.node (each condition (by simp [children]))) <|
      .written "thenBranch" (.nodes (readAll thenBranch (by simp [children]))) ?_⟩
    cases elseBranch with
    | none => exact .omitted "elseBranch" (.optionalNodes none) rfl .nil
    | some elseBranch =>
      exact .written "elseBranch" (.someNodes (readAll elseBranch (by simp [children]))) .nil
  | repeatTimes count body =>
    have readCount : ∀ node ∈ count, decode true node.encode = .ok node := by
      rintro node ⟨⟩
      exact each node (by simp [children])
    exact ⟨_, rfl, .node "count" readCount <|
      .written "body" (.nodes (readAll body (by simp [children]))) .nil⟩
  | forEach itemName collection body =>
    exact ⟨_, rfl, .written "itemName" (.text itemName) <|
      .written "collection" (.node (each collection (by simp [children]))) <|
      .written "body" (.nodes (readAll body (by simp [children]))) .nil⟩
  | whileLoop condition body =>
    exact ⟨_, rfl, .written "condition" (.node (each condition (by simp [children]))) <|
      .written "body" (.nodes (readAll body (by simp [children]))) .nil⟩
  | event name modifiers body =>
    have readModifiers : Modifiers.decode true modifiers.encode = .ok modifiers :=
      Modifiers.decode_encode (isFinite_iff.mp finite (.modifiers modifiers) (by simp [fields]))
    exact ⟨_, rfl, .written "event" (.text name) <|
      .written "modifiers" (.modifiers readModifiers) <|
      .written "body" (.nodes (readAll body (by simp [children]))) .nil⟩
  | literal value =>
    have readValue : Literal.decode value.encode = .ok value :=
      Literal.decode_encode (isFinite_iff.mp finite (.literal value) (by simp [fields]))
    exact ⟨_, rfl, .written "value" (.literal readValue) .nil⟩
  | binary operator left right =>
    exact ⟨_, rfl, .written "operator" (.text operator) <|
      .written "left" (.node (each left (by simp [children]))) <|
      .written "right" (.node (each right (by simp [children]))) .nil⟩
  | unary operator operand =>
    exact ⟨_, rfl, .written "operator" (.text operator) <|
      .written "operand" (.node (each operand (by simp [children]))) .nil⟩
  | selector value cacheKey =>
    refine ⟨_, rfl, .written "value" (.text value) ?_⟩
    simpa using Abridged.flag "_cached" cacheKey.isSome (.text "_cacheKey" cacheKey .nil)
  | identifier name => exact ⟨_, rfl, .written "name" (.text name) .nil⟩
  | variableRef name => exact ⟨_, rfl, .written "name" (.text name) .nil⟩
  | member object property =>
    exact ⟨_, rfl, .written "object" (.node (each object (by simp [children]))) <|
      .written "property" (.text property) .nil⟩
  | sequence commands unrolled =>
    refine ⟨_, rfl, .written "commands" (.nodes (readAll commands (by simp [children]))) ?_⟩
    simpa using Abridged.flag "_unrolled" unrolled .nil
  | unknown => exact ⟨[], rfl, .nil⟩

/-- An object of the kind of a node that writes its fields is read as the node, also when it has
further members behind them. -/
theorem decode_tagged {nested : Bool} {node : Node} {members further : List (String × Json)}
    (abridged : Abridged node.kind.schema node.fields members)
    (unknown : known node.kind.schema further = []) :
    decode nested (tagged node.kind (members ++ further)) = .ok node := by
  obtain ⟨parts, read, held⟩ := abridged.decodeMembers node.kind.distinct_schema
  have isKind : decodeType nested (("type", .string node.kind.name) :: (members ++ further)) =
      .ok node.kind := by
    simp [decodeType, Kind.decode, Kind.ofName_name]
  refine decode_object_eq_ok.mpr ⟨node.kind, parts, isKind, ?_, held.build⟩
  have noField : node.kind.schema.lookup "type" = none :=
    lookup_eq_none node.kind.type_not_mem_schema
  rw [decodeMembers_eq_ok] at read ⊢
  rwa [known_cons_of_noField noField, known_append, unknown, List.append_nil]

theorem decode_encode {nested : Bool} {node : Node} (finite : node.IsFinite) :
    decode nested node.encode = .ok node := by
  induction node using childInduction generalizing nested with
  | parent node ih =>
    obtain ⟨members, encoded, abridged⟩ :=
      abridged_encode finite fun child member => ih child member (finite.child member)
    rw [encoded, ← List.append_nil members]
    exact decode_tagged abridged rfl

end Node

theorem mapM_map_eq_ok {ε α β : Type} {encode : α → β} {decode : β → Except ε α} {values : List α}
    (each : ∀ value ∈ values, decode (encode value) = .ok value) :
    (values.map encode).mapM decode = .ok values := by
  induction values with
  | nil => rfl
  | cons value values ih =>
    obtain ⟨first, rest⟩ := List.forall_mem_cons.mp each
    rw [List.map_cons, List.mapM_cons, first, ih rest]
    rfl

namespace Json.Record

variable {ρ : Type} {record : Record ρ} {members : List (String × Json)} {read : ρ}

theorem decode_object (stored : members.foldlM record.storeMember record.blank = .ok read)
    (complete : record.absent? members = none) : record.decode (.object members) = .ok read := by
  rw [decode, stored]
  simp [bind, Except.bind, complete]

theorem store_cons {member : String × Json} {blank first : ρ}
    (stored : record.storeMember blank member = .ok first)
    (rest : members.foldlM record.storeMember first = .ok read) :
    (member :: members).foldlM record.storeMember blank = .ok read :=
  List.foldlM_cons.trans (bind_eq_ok.mpr ⟨first, stored, rest⟩)

end Json.Record

/-- Every number of the nodes that the facts hold is finite. -/
structure Facts.IsFinite (facts : Facts) : Prop where
  pure : ∀ node ∈ facts.pure, node.IsFinite
  usages : ∀ use ∈ facts.selectors, ∀ node ∈ use.usages, node.IsFinite

open Json.Record (decode_object store_cons)

theorem SelectorUse.decode_encode {use : SelectorUse}
    (finite : ∀ node ∈ use.usages, node.IsFinite) : record.decode use.encode = .ok use := by
  have usages : Node.decodeList false (.array (Node.encodeAll use.usages)) = .ok use.usages :=
    Node.decodeList_encodeAll fun node member => Node.decode_encode (finite node member)
  refine decode_object (store_cons rfl ?_) rfl
  exact store_cons (bind_eq_ok.mpr ⟨_, usages, rfl⟩) rfl

/-- Facts are read group by group. -/
theorem Facts.decode_encode {facts : Facts} (finite : facts.IsFinite) :
    decode facts.encode = .ok facts := by
  have pure : Node.decodeList false (.array (Node.encodeAll facts.pure)) = .ok facts.pure :=
    Node.decodeList_encodeAll fun node member => Node.decode_encode (finite.pure node member)
  have selectors : (facts.selectors.map (·.encode)).mapM SelectorUse.record.decode =
      .ok facts.selectors :=
    mapM_map_eq_ok fun use member => SelectorUse.decode_encode (finite.usages use member)
  have helpers : (facts.helpers.map Json.string).mapM Json.toText = .ok facts.helpers :=
    mapM_map_eq_ok fun _ _ => rfl
  have expressionsRead :
      expressions.decode (.object [("pure", .array (Node.encodeAll facts.pure)),
        ("selectors", .array (facts.selectors.map (·.encode)))]) =
      .ok { pure := facts.pure, selectors := facts.selectors } := by
    refine decode_object (store_cons (bind_eq_ok.mpr ⟨_, pure, rfl⟩) ?_) rfl
    exact store_cons (bind_eq_ok.mpr ⟨_, rfl, bind_eq_ok.mpr ⟨_, selectors, rfl⟩⟩) rfl
  have dependenciesRead :
      dependencies.decode (.object [("runtimeHelpers", .array (facts.helpers.map .string))]) =
      .ok { helpers := facts.helpers } :=
    decode_object (store_cons (bind_eq_ok.mpr ⟨_, helpers, rfl⟩) rfl) rfl
  refine decode_object (store_cons rfl ?_) rfl
  refine store_cons (bind_eq_ok.mpr ⟨_, expressionsRead, rfl⟩) ?_
  exact store_cons (bind_eq_ok.mpr ⟨_, dependenciesRead, rfl⟩) rfl

/-- The names of the passes that ran do not stand for a field. -/
theorem Optimized.decode_encode {nested : Bool} {optimized : Optimized}
    (finite : optimized.script.IsFinite) :
    Node.decode nested optimized.encode = .ok optimized.script := by
  obtain ⟨members, encoded, abridged⟩ :=
    Node.abridged_encode finite fun child member => Node.decode_encode (finite.child member)
  have noField : optimized.script.kind.schema.lookup "_optimizations" = none := by
    cases optimized.script.kind <;> rfl
  rw [encode, encoded, Node.tagged]
  dsimp only
  refine Node.decode_tagged abridged ?_
  split
  · rfl
  · exact Node.known_cons_of_noField noField

end Hyperscript
