import Hyperscript.Proofs.Number.Integers
import Hyperscript.Proofs.Script.Encoding
import Mathlib.Algebra.Group.Int.Defs

/-! Writing as a normal form. JSON has no infinities and no integers beyond 64 bits, so whatever is
read has finite numbers only, and is read back from what it is written as. -/
namespace Hyperscript
namespace Json

/-- The values directly inside a value. -/
def inner : Json → List Json
  | .array elements => elements
  | .object members => members.map Prod.snd
  | .null | .bool _ | .number _ | .string _ => []

@[elab_as_elim]
theorem innerInduction {P : Json → Prop}
    (outer : ∀ value : Json, (∀ part ∈ value.inner, P part) → P value) (value : Json) :
    P value := by
  refine @Json.rec P (fun elements => ∀ part ∈ elements, P part)
    (fun members => ∀ part ∈ members.map Prod.snd, P part) (fun member => P member.2)
    ?null ?bool ?number ?string ?array ?object ?nil ?cons ?empty ?member ?pair value
  case null | bool | number | string => intros; exact outer _ (by simp [inner])
  case array | object => exact fun _ each => outer _ each
  case nil | empty => simp
  case cons | member => simp +contextual
  case pair => exact fun _ _ read => read

/-- A number that JSON can have. -/
def Number.IsProper : Number → Prop
  | .integer value => -2 ^ 63 ≤ value ∧ value < 2 ^ 64
  | .float value => Binary64.isFinite value

mutual

def numbers : Json → List Number
  | .null | .bool _ | .string _ => []
  | .number value => [value]
  | .array elements => numbersAll elements
  | .object members => numbersIn members

def numbersAll : List Json → List Number
  | [] => []
  | value :: values => value.numbers ++ numbersAll values

def numbersIn : List (String × Json) → List Number
  | [] => []
  | (_, value) :: members => value.numbers ++ numbersIn members

end

def IsProper (value : Json) : Prop := ∀ number ∈ value.numbers, number.IsProper

theorem numbersAll_eq (values : List Json) : numbersAll values = values.flatMap numbers := by
  induction values with
  | nil => rfl
  | cons value values ih => rw [numbersAll, ih, List.flatMap_cons]

theorem numbersIn_eq (members : List (String × Json)) :
    numbersIn members = (members.map Prod.snd).flatMap numbers := by
  induction members with
  | nil => rfl
  | cons member members ih => rw [numbersIn, ih, List.map_cons, List.flatMap_cons]

theorem IsProper.inner {value part : Json} (proper : value.IsProper) (member : part ∈ value.inner) :
    part.IsProper := by
  intro number inside
  refine proper number ?_
  cases value with
  | array elements =>
    rw [numbers, numbersAll_eq]
    exact List.mem_flatMap.mpr ⟨part, member, inside⟩
  | object members =>
    rw [numbers, numbersIn_eq]
    exact List.mem_flatMap.mpr ⟨part, member, inside⟩
  | null | bool | number | string => cases member

theorem Number.IsProper.isFinite {number : Number} (proper : number.IsProper) :
    Binary64.isFinite number.toFloat := by
  cases number with
  | integer value =>
    obtain ⟨above, below⟩ := proper
    exact Binary64.isFinite_floatOfInt (by omega)
  | float => exact proper

end Json

namespace Parts

variable {parts : Parts} (finite : ∀ entry ∈ parts, entry.2.IsFinite) {name : String}
include finite

theorem isFinite_lookup {part : Part} (found : parts.lookup name = some part) : part.IsFinite := by
  obtain ⟨before, after, rfl, _⟩ := List.lookup_eq_some_iff.mp found
  exact finite (name, part) (by simp)

theorem isFinite_literal : (parts.literal name).IsFinite := by
  unfold literal
  split
  · next found => exact isFinite_lookup finite found
  · simp [Literal.IsFinite, Literal.number?]

theorem isFinite_nodes : ∀ node ∈ parts.nodes name, node.IsFinite := by
  unfold nodes
  split
  · next found => exact isFinite_lookup finite found
  · simp

theorem isFinite_optionalNode : ∀ node ∈ parts.optionalNode name, node.IsFinite := by
  unfold optionalNode
  split
  · next found => exact isFinite_lookup finite found
  · simp

theorem isFinite_optionalNodes :
    ∀ nodes ∈ parts.optionalNodes name, ∀ node ∈ nodes, node.IsFinite := by
  unfold optionalNodes
  split
  · next found => exact isFinite_lookup finite found
  · simp

theorem isFinite_optionalNumber :
    ∀ number ∈ parts.optionalNumber name, Binary64.isFinite number := by
  unfold optionalNumber
  split
  · next found => exact isFinite_lookup finite found
  · simp

theorem isFinite_modifiers : (parts.modifiers name).IsFinite := by
  unfold modifiers
  split
  · next found => exact isFinite_lookup finite found
  · simp [Modifiers.IsFinite]

theorem isFinite_requireNode {node : Node} (found : parts.requireNode name = .ok node) :
    node.IsFinite := by
  unfold requireNode node? at found
  split at found
  · next value same =>
    cases found
    split at same
    · next held =>
      cases same
      exact isFinite_lookup finite held
    · cases same
  · cases found

theorem isFinite_build {kind : Kind} {node : Node} (built : kind.build parts = .ok node) :
    ∀ part ∈ node.fields, part.IsFinite := by
  cases kind with
  | command =>
    obtain ⟨_, _, ⟨⟩⟩ := bind_eq_ok.mp built
    simpa [Node.fields, Part.IsFinite] using
      ⟨isFinite_nodes finite, isFinite_optionalNode finite⟩
  | ifElse =>
    obtain ⟨_, condition, ⟨⟩⟩ := bind_eq_ok.mp built
    simpa [Node.fields, Part.IsFinite] using
      ⟨isFinite_requireNode finite condition, isFinite_nodes finite, isFinite_optionalNodes finite⟩
  | repeatTimes =>
    cases built
    simpa [Node.fields, Part.IsFinite] using
      ⟨isFinite_optionalNode finite, isFinite_nodes finite⟩
  | forEach =>
    obtain ⟨_, _, rest⟩ := bind_eq_ok.mp built
    obtain ⟨_, collection, ⟨⟩⟩ := bind_eq_ok.mp rest
    simpa [Node.fields, Part.IsFinite] using
      ⟨isFinite_requireNode finite collection, isFinite_nodes finite⟩
  | whileLoop =>
    obtain ⟨_, condition, ⟨⟩⟩ := bind_eq_ok.mp built
    simpa [Node.fields, Part.IsFinite] using
      ⟨isFinite_requireNode finite condition, isFinite_nodes finite⟩
  | event =>
    obtain ⟨_, _, ⟨⟩⟩ := bind_eq_ok.mp built
    simpa [Node.fields, Part.IsFinite] using ⟨isFinite_modifiers finite, isFinite_nodes finite⟩
  | literal =>
    cases built
    simpa [Node.fields, Part.IsFinite] using isFinite_literal finite
  | binary =>
    obtain ⟨_, _, rest⟩ := bind_eq_ok.mp built
    obtain ⟨_, left, rest⟩ := bind_eq_ok.mp rest
    obtain ⟨_, right, ⟨⟩⟩ := bind_eq_ok.mp rest
    simpa [Node.fields, Part.IsFinite] using
      ⟨isFinite_requireNode finite left, isFinite_requireNode finite right⟩
  | unary =>
    obtain ⟨_, _, rest⟩ := bind_eq_ok.mp built
    obtain ⟨_, operand, ⟨⟩⟩ := bind_eq_ok.mp rest
    simpa [Node.fields, Part.IsFinite] using isFinite_requireNode finite operand
  | selector | identifier | variableRef =>
    obtain ⟨_, _, ⟨⟩⟩ := bind_eq_ok.mp built
    simp [Node.fields, Part.IsFinite]
  | member =>
    obtain ⟨_, object, rest⟩ := bind_eq_ok.mp built
    obtain ⟨_, _, ⟨⟩⟩ := bind_eq_ok.mp rest
    simpa [Node.fields, Part.IsFinite] using isFinite_requireNode finite object
  | sequence =>
    cases built
    simpa [Node.fields, Part.IsFinite] using isFinite_nodes finite
  | unknown =>
    cases built
    simp [Node.fields]

theorem isFinite_ofParts : (Modifiers.ofParts parts).IsFinite :=
  ⟨isFinite_optionalNumber finite, isFinite_optionalNumber finite⟩

end Parts

/-- Whatever the value is read as is finite. -/
structure Json.ReadsFinite (value : Json) : Prop where
  node : ∀ {nested node}, Node.decode nested value = .ok node → node.IsFinite
  nodes : ∀ {nested nodes}, Node.decodeList nested value = .ok nodes →
    ∀ node ∈ nodes, node.IsFinite
  modifiers : ∀ {nested modifiers}, Modifiers.decode nested value = .ok modifiers →
    modifiers.IsFinite

theorem Part.Written.isFinite {part : Part} {value : Json} (written : part.Written value)
    (proper : value.IsProper) (reads : value.ReadsFinite) : part.IsFinite := by
  cases written with
  | text | flag | noText | someText => trivial
  | noNode | noNodes | noNumber => simp [IsFinite]
  | literal read =>
    cases value with
    | null | bool | string =>
      cases read
      simp [IsFinite, Literal.IsFinite, Literal.number?]
    | number number =>
      cases read
      rintro _ ⟨⟩
      exact (proper number (by simp [Json.numbers])).isFinite
    | array | object => cases read
  | node read => exact reads.node read
  | nodes read => exact reads.nodes read
  | someNode read =>
    rintro _ ⟨⟩
    exact reads.node read
  | someNodes read =>
    rintro _ ⟨⟩
    exact reads.nodes read
  | someNumber number =>
    rintro _ ⟨⟩
    exact (proper number (by simp [Json.numbers])).isFinite
  | modifiers read => exact reads.modifiers read

theorem forall_mem_of_forall₂ {α β : Type} {R : α → β → Prop} {q : β → Prop} {values : List α}
    {results : List β} (related : List.Forall₂ R values results)
    (each : ∀ value ∈ values, ∀ result, R value result → q result) :
    ∀ result ∈ results, q result := by
  induction related with
  | nil => simp
  | cons first _ ih =>
    obtain ⟨head, tail⟩ := List.forall_mem_cons.mp each
    exact List.forall_mem_cons.mpr ⟨head _ first, ih tail⟩

theorem Node.isFinite_decodeMembers {schema : Schema} {members : List (String × Json)}
    {parts : Parts} (each : ∀ member ∈ members, member.2.IsProper ∧ member.2.ReadsFinite)
    (read : decodeMembers schema members = .ok parts) : ∀ entry ∈ parts, entry.2.IsFinite := by
  refine forall_mem_of_forall₂ (decodeMembers_eq_ok.mp read) ?_
  rintro member inside entry ⟨_, _, written⟩
  obtain ⟨proper, reads⟩ := each member (List.mem_of_mem_filter inside)
  exact written.isFinite proper reads

/-- By induction on the value: an object is read from its members, an array from its elements. -/
theorem Json.IsProper.readsFinite {value : Json} (proper : value.IsProper) : value.ReadsFinite := by
  induction value using innerInduction with
  | outer value ih =>
    have each : ∀ part ∈ value.inner, part.IsProper ∧ part.ReadsFinite := fun part member =>
      ⟨proper.inner member, ih part member (proper.inner member)⟩
    cases value with
    | null | bool | number | string => constructor <;> intro _ _ read <;> cases read
    | object members =>
      have inMembers : ∀ member ∈ members, member.2.IsProper ∧ member.2.ReadsFinite :=
        fun member inside => each _ (List.mem_map.mpr ⟨member, inside, rfl⟩)
      constructor
      · intro _ node read
        obtain ⟨kind, parts, _, readMembers, built⟩ := Node.decode_object_eq_ok.mp read
        have finite := Node.isFinite_decodeMembers inMembers readMembers
        exact Node.isFinite_iff.mpr (Parts.isFinite_build finite built)
      · intro _ _ read
        cases read
      · intro _ _ read
        obtain ⟨parts, readMembers, rfl⟩ := Modifiers.decode_object_eq_ok.mp read
        exact Parts.isFinite_ofParts (Node.isFinite_decodeMembers inMembers readMembers)
    | array elements =>
      have inNamed {schema : Schema} {values : List Json} (among : values ⊆ elements) :
          ∀ member ∈ Node.named schema values, member.2.IsProper ∧ member.2.ReadsFinite :=
        fun member inside => each _ (among (List.of_mem_zip inside).2)
      constructor
      · intro _ node read
        cases elements with
        | nil => cases read
        | cons tag values =>
          obtain ⟨kind, parts, _, _, readMembers, built⟩ := Node.decode_array_eq_ok.mp read
          have finite :=
            Node.isFinite_decodeMembers (inNamed (List.subset_cons_self _ _)) readMembers
          exact Node.isFinite_iff.mpr (Parts.isFinite_build finite built)
      · intro _ nodes read
        obtain ⟨_, ⟨⟩, readAll⟩ := Node.decodeList_eq_ok.mp read
        refine forall_mem_of_forall₂ (Node.decodeAll_eq_ok.mp readAll) ?_
        exact fun value inside node readNode => (each value inside).2.node readNode
      · intro _ _ read
        obtain ⟨_, asObject⟩ := Modifiers.decode_array_eq_ok.mp read
        obtain ⟨parts, readMembers, rfl⟩ := Modifiers.decode_object_eq_ok.mp asObject
        exact Parts.isFinite_ofParts
          (Node.isFinite_decodeMembers (inNamed (List.Subset.refl _)) readMembers)

/-- Reading undoes writing, for nodes, for facts and for optimized scripts, as long as their
numbers are finite. So writing is a normal form: what any JSON value is read as is read again from
what it is written as. -/
theorem decode_encode_normal :
    (∀ (nested : Bool) (node : Node), node.IsFinite → Node.decode nested node.encode = .ok node) ∧
      (∀ facts : Facts, facts.IsFinite → Facts.decode facts.encode = .ok facts) ∧
      (∀ (nested : Bool) (optimized : Optimized), optimized.script.IsFinite →
        Node.decode nested optimized.encode = .ok optimized.script) ∧
      ∀ (nested nested' : Bool) (value : Json) (node : Node), value.IsProper →
        Node.decode nested value = .ok node → Node.decode nested' node.encode = .ok node := by
  refine ⟨?_, ?_, ?_, ?_⟩
  · intro nested node finite
    exact Node.decode_encode finite
  · intro facts finite
    exact Facts.decode_encode finite
  · intro nested optimized finite
    exact Optimized.decode_encode finite
  · intro nested nested' value node proper read
    exact Node.decode_encode (proper.readsFinite.node read)

/-- A handler with zero delays of either sign, an empty alternative, a marked sequence and a
cached selector. -/
def zeroDelays : Node :=
  .event "input" { debounce := some 0.0, throttle := some (-0.0) }
    [.ifElse (.literal (.number (-0.0))) [.sequence [] true] (some []),
      .command "add" [.selector ".a" (some "_sel__a")] none]

/-- The same handler, by position and with its kinds in other places. -/
def zeroDelaysSpelled : Json :=
  .array [.string "event", .string "input",
    .object [("throttle", .number (.float (-0.0))), ("debounce", .number (.integer 0))],
    .array [
      .object [("elseBranch", .array []),
        ("condition", .object [("value", .number (.float (-0.0))), ("type", .string "literal")]),
        ("thenBranch", .array [.object [("type", .number (.integer 13)),
          ("_unrolled", .bool true)]]),
        ("note", .null), ("type", .string "if")],
      .array [.string "command", .string "add",
        .array [.array [.string "selector", .string ".a", .bool false, .string "_sel__a"]]]]]

theorem isFinite_zeroDelays : zeroDelays.IsFinite := by
  have zero : Binary64.isFinite 0.0 = true := by decide
  have negativeZero : Binary64.isFinite (-0.0) = true := by decide
  simp [zeroDelays, Node.IsFinite, Node.Everywhere, Node.subtree, Node.subtrees, Node.subtree?,
    Node.literal?, Node.handler?, Modifiers.IsFinite, Literal.IsFinite, Literal.number?, zero,
    negativeZero]

theorem isProper_zeroDelaysSpelled : zeroDelaysSpelled.IsProper := by
  have negativeZero : Binary64.isFinite (-0.0) = true := by decide
  simp [zeroDelaysSpelled, Json.IsProper, Json.numbers, Json.numbersAll, Json.numbersIn,
    Json.Number.IsProper, negativeZero]

theorem decode_encode_normal_zeroDelays :
    Node.decode true zeroDelays.encode = .ok zeroDelays ∧
      Facts.decode (Facts.encode { pure := [zeroDelays] }) = .ok { pure := [zeroDelays] } ∧
      Node.decode false (Optimized.encode ⟨zeroDelays, [.loopUnrolling]⟩) = .ok zeroDelays ∧
      Node.decode false zeroDelaysSpelled = .ok zeroDelays ∧
      Node.decode false zeroDelays.encode = .ok zeroDelays := by
  obtain ⟨ofNode, ofFacts, ofOptimized, normal⟩ := decode_encode_normal
  have read : Node.decode false zeroDelaysSpelled = .ok zeroDelays := rfl
  refine ⟨ofNode true _ isFinite_zeroDelays, ofFacts _ ⟨?_, ?_⟩,
    ofOptimized false ⟨zeroDelays, _⟩ isFinite_zeroDelays, read,
    normal false false _ _ isProper_zeroDelaysSpelled read⟩
  · simp [isFinite_zeroDelays]
  · simp

end Hyperscript
