import Hyperscript.Proofs.Script.Fields

/-! What values are read as. `Part.Written` lists the values that a field accepts for each
content. An object is read member by member, each known member as the contents of its field, and
an array is read as the object that names its elements after the fields in their order. Modifiers
are read as nodes are, by their own fields. -/
namespace Hyperscript

/-- The value is accepted where a field has those contents. -/
inductive Part.Written : Part → Json → Prop where
  | text (value : String) : Written (.text value) (.string value)
  | flag (value : Bool) : Written (.flag value) (.bool value)
  | literal {literal : Literal} {value : Json} (read : Literal.decode value = .ok literal) :
    Written (.literal literal) value
  | node {node : Node} {value : Json} (read : Node.decode true value = .ok node) :
    Written (.node node) value
  | nodes {nodes : List Node} {value : Json} (read : Node.decodeList true value = .ok nodes) :
    Written (.nodes nodes) value
  | noNode : Written (.optionalNode none) .null
  | someNode {node : Node} {value : Json} (read : Node.decode true value = .ok node) :
    Written (.optionalNode (some node)) value
  | noNodes : Written (.optionalNodes none) .null
  | someNodes {nodes : List Node} {value : Json} (read : Node.decodeList true value = .ok nodes) :
    Written (.optionalNodes (some nodes)) value
  | noText : Written (.optionalText none) .null
  | someText (value : String) : Written (.optionalText (some value)) (.string value)
  | noNumber : Written (.optionalNumber none) .null
  | someNumber (value : Json.Number) :
    Written (.optionalNumber (some value.toFloat)) (.number value)
  | modifiers {modifiers : Modifiers} {value : Json}
    (read : Modifiers.decode true value = .ok modifiers) : Written (.modifiers modifiers) value

namespace Json

variable {value : Json}

theorem toText_eq_ok {text : String} : value.toText = .ok text ↔ value = .string text := by
  cases value <;> simp [toText, refuse]

theorem toFlag_eq_ok {flag : Bool} : value.toFlag = .ok flag ↔ value = .bool flag := by
  cases value <;> simp [toFlag, refuse]

theorem toNumber_eq_ok {x : Float} :
    value.toNumber = .ok x ↔ ∃ number, value = .number number ∧ number.toFloat = x := by
  cases value <;> simp [toNumber, refuse]

theorem toOptional_eq_ok {α : Type} {decode : Json → Except DecodeError α} {found : Option α} :
    value.toOptional decode = .ok found ↔
      value = .null ∧ found = none ∨
        value ≠ .null ∧ ∃ x, decode value = .ok x ∧ some x = found := by
  cases value with
  | null => simp [toOptional, eq_comm]
  | bool | number | string | array | object => simp [toOptional, map_eq_ok]

end Json

namespace Node

variable {nested : Bool} {schema : Schema} {members : List (String × Json)} {values : List Json}
  {parts : Parts} {overflow : DecodeError}

/-- The contents of a field of that shape, read inside a node. -/
def readPart (shape : Shape) (value : Json) : Except DecodeError Part :=
  decodePart shape value (fun _ => decode true value) (fun _ => decodeList true value)

theorem ne_null_of_decode {value : Json} {node : Node} (read : decode nested value = .ok node) :
    value ≠ .null := by
  rintro rfl
  simp [decode, Json.refuse] at read

theorem ne_null_of_decodeList {value : Json} {nodes : List Node}
    (read : decodeList nested value = .ok nodes) : value ≠ .null := by
  rintro rfl
  simp [decodeList, Json.refuse] at read

theorem readPart_eq_ok_iff {shape : Shape} {value : Json} {part : Part} :
    readPart shape value = .ok part ↔ part.shape = shape ∧ part.Written value := by
  constructor
  · intro read
    unfold readPart at read
    cases shape with
    | text =>
      obtain ⟨text, found, rfl⟩ := map_eq_ok.mp read
      obtain rfl := Json.toText_eq_ok.mp found
      exact ⟨rfl, .text text⟩
    | flag =>
      obtain ⟨flag, found, rfl⟩ := map_eq_ok.mp read
      obtain rfl := Json.toFlag_eq_ok.mp found
      exact ⟨rfl, .flag flag⟩
    | literal =>
      obtain ⟨literal, found, rfl⟩ := map_eq_ok.mp read
      exact ⟨rfl, .literal found⟩
    | node =>
      obtain ⟨node, found, rfl⟩ := map_eq_ok.mp read
      exact ⟨rfl, .node found⟩
    | nodes =>
      obtain ⟨nodes, found, rfl⟩ := map_eq_ok.mp read
      exact ⟨rfl, .nodes found⟩
    | optionalNode =>
      by_cases absent : value = .null
      · subst absent
        cases read
        exact ⟨rfl, .noNode⟩
      · simp only [decodePart] at read
        obtain ⟨node, found, rfl⟩ := map_eq_ok.mp read
        exact ⟨rfl, .someNode found⟩
    | optionalNodes =>
      by_cases absent : value = .null
      · subst absent
        cases read
        exact ⟨rfl, .noNodes⟩
      · simp only [decodePart] at read
        obtain ⟨nodes, found, rfl⟩ := map_eq_ok.mp read
        exact ⟨rfl, .someNodes found⟩
    | optionalText =>
      obtain ⟨text, found, rfl⟩ := map_eq_ok.mp read
      obtain ⟨rfl, rfl⟩ | ⟨_, text, isText, rfl⟩ := Json.toOptional_eq_ok.mp found
      · exact ⟨rfl, .noText⟩
      · obtain rfl := Json.toText_eq_ok.mp isText
        exact ⟨rfl, .someText text⟩
    | optionalNumber =>
      obtain ⟨number, found, rfl⟩ := map_eq_ok.mp read
      obtain ⟨rfl, rfl⟩ | ⟨_, _, isNumber, rfl⟩ := Json.toOptional_eq_ok.mp found
      · exact ⟨rfl, .noNumber⟩
      · obtain ⟨number, rfl, rfl⟩ := Json.toNumber_eq_ok.mp isNumber
        exact ⟨rfl, .someNumber number⟩
    | modifiers =>
      obtain ⟨modifiers, found, rfl⟩ := map_eq_ok.mp read
      exact ⟨rfl, .modifiers found⟩
  · rintro ⟨rfl, written⟩
    cases written with
    | text | flag | noNode | noNodes | noText | someText | noNumber | someNumber => rfl
    | literal read | node read | nodes read | modifiers read =>
      simp [Part.shape, readPart, decodePart, read, Except.map]
    | someNode read =>
      have := ne_null_of_decode read
      simp [Part.shape, readPart, decodePart, read, Except.map]
    | someNodes read =>
      have := ne_null_of_decodeList read
      simp [Part.shape, readPart, decodePart, read, Except.map]

theorem decodeAll_eq_ok {nodes : List Node} :
    decodeAll nested values = .ok nodes ↔
      List.Forall₂ (fun value node => decode nested value = .ok node) values nodes := by
  induction values generalizing nodes with
  | nil => simp [decodeAll, eq_comm]
  | cons value values ih =>
    rw [decodeAll, bind_eq_ok, List.forall₂_cons_left_iff]
    refine exists_congr fun node => ?_
    rw [bind_eq_ok]
    constructor
    · rintro ⟨read, rest, readRest, ⟨⟩⟩
      exact ⟨rest, read, ih.mp readRest, rfl⟩
    · rintro ⟨rest, read, readRest, rfl⟩
      exact ⟨read, rest, ih.mpr readRest, rfl⟩

theorem decodeList_eq_ok {value : Json} {nodes : List Node} :
    decodeList nested value = .ok nodes ↔
      ∃ values, value = .array values ∧ decodeAll nested values = .ok nodes := by
  cases value with
  | array values => simp [decodeList]
  | null | bool | number | string | object => simp [decodeList, Json.refuse]

/-- The members that stand for a field. -/
def known (schema : Schema) (members : List (String × Json)) : List (String × Json) :=
  members.filter fun member => (schema.lookup member.1).isSome

@[simp]
theorem known_append (before after : List (String × Json)) :
    known schema (before ++ after) = known schema before ++ known schema after :=
  List.filter_append ..

theorem known_cons_of_field {name : String} {shape : Shape} {value : Json}
    (found : schema.lookup name = some shape) :
    known schema ((name, value) :: members) = (name, value) :: known schema members := by
  simp [known, found]

theorem known_cons_of_noField {name : String} {value : Json} (absent : schema.lookup name = none) :
    known schema ((name, value) :: members) = known schema members := by
  simp [known, absent]

/-- The member is read as that part, under its own name. -/
def Supplies (schema : Schema) (member : String × Json) (entry : String × Part) : Prop :=
  entry.1 = member.1 ∧ schema.lookup member.1 = some entry.2.shape ∧ entry.2.Written member.2

/-- Objects are read member by member. -/
theorem decodeMembers_eq_ok :
    decodeMembers schema members = .ok parts ↔
      List.Forall₂ (Supplies schema) (known schema members) parts := by
  induction members generalizing parts with
  | nil => simp [decodeMembers, known, eq_comm]
  | cons member members ih =>
    obtain ⟨name, value⟩ := member
    rw [decodeMembers]
    cases found : schema.lookup name with
    | none =>
      rw [known_cons_of_noField found]
      exact ih
    | some shape =>
      simp only [known_cons_of_field found, List.forall₂_cons_left_iff, bind_eq_ok]
      constructor
      · rintro ⟨part, read, rest, readRest, ⟨⟩⟩
        obtain ⟨rfl, written⟩ := readPart_eq_ok_iff.mp read
        exact ⟨(name, part), rest, ⟨rfl, found, written⟩, ih.mp readRest, rfl⟩
      · rintro ⟨⟨_, part⟩, rest, ⟨rfl, sameShape, written⟩, readRest, rfl⟩
        have isShape : part.shape = shape := by
          simpa [found, eq_comm] using sameShape
        exact ⟨part, readPart_eq_ok_iff.mpr ⟨isShape, written⟩, rest, ih.mpr readRest, rfl⟩

/-- Elements are named after the fields in their order. -/
def named (schema : Schema) (values : List Json) : List (String × Json) :=
  (schema.map Prod.fst).zip values

/-- An array is read as the object of its named elements. The schema may go on in front: `within`
says that names mean the same in the whole of it. -/
theorem decodeElements_eq_decodeMembers {whole : Schema}
    (within : ∀ field ∈ schema, whole.lookup field.1 = some field.2)
    (fits : values.length ≤ schema.length) :
    decodeElements overflow schema values = decodeMembers whole (named schema values) := by
  induction schema generalizing values with
  | nil =>
    obtain rfl : values = [] := List.length_eq_zero_iff.mp (Nat.le_zero.mp fits)
    rfl
  | cons field fields ih =>
    cases values with
    | nil => rfl
    | cons value values =>
      obtain ⟨name, shape⟩ := field
      have rest := ih (fun field member => within field (List.mem_cons_of_mem _ member))
        (Nat.le_of_succ_le_succ fits)
      have first := within (name, shape) List.mem_cons_self
      simp only [named, List.map_cons, List.zip_cons_cons, decodeElements, decodeMembers, first]
      rw [rest]
      rfl

theorem length_le_of_decodeElements (read : decodeElements overflow schema values = .ok parts) :
    values.length ≤ schema.length := by
  induction schema generalizing values parts with
  | nil =>
    cases values with
    | nil => exact Nat.le_refl _
    | cons => simp [decodeElements] at read
  | cons field fields ih =>
    cases values with
    | nil => exact Nat.zero_le _
    | cons value values =>
      rw [decodeElements, bind_eq_ok] at read
      obtain ⟨_, _, rest⟩ := read
      obtain ⟨_, readRest, _⟩ := bind_eq_ok.mp rest
      exact Nat.succ_le_succ (ih readRest)

theorem decodeElements_eq_ok (distinct : (schema.map Prod.fst).Nodup) :
    decodeElements overflow schema values = .ok parts ↔
      values.length ≤ schema.length ∧ decodeMembers schema (named schema values) = .ok parts := by
  have within : ∀ field ∈ schema, schema.lookup field.1 = some field.2 := fun _ member =>
    (lookup_eq_some_iff_mem distinct).mpr member
  constructor
  · intro read
    have fits := length_le_of_decodeElements read
    exact ⟨fits, decodeElements_eq_decodeMembers within fits ▸ read⟩
  · rintro ⟨fits, read⟩
    exact (decodeElements_eq_decodeMembers within fits).trans read

end Node

namespace Kind

theorem distinct_schema (kind : Kind) : (kind.schema.map Prod.fst).Nodup := by
  cases kind <;> decide

theorem type_not_mem_schema (kind : Kind) : "type" ∉ kind.schema.map Prod.fst := by
  cases kind <;> decide

theorem ofName_name (kind : Kind) : ofName kind.name = kind := by
  cases kind <;> rfl

end Kind

namespace Modifiers

variable {nested : Bool} {members : List (String × Json)} {values : List Json}
  {modifiers : Modifiers}

theorem distinct_schema : (schema.map Prod.fst).Nodup := by decide

/-- The fields of modifiers are read as those of a node are. -/
theorem decodePart_eq_readPart {shape : Shape} (known : shape ∈ schema.map Prod.snd)
    (value : Json) : decodePart shape value = Node.readPart shape value := by
  have : shape = .flag ∨ shape = .optionalNumber ∨ shape = .optionalText := by
    simpa [schema] using known
  obtain rfl | rfl | rfl := this <;> rfl

theorem decodeMembers_eq (members : List (String × Json)) :
    decodeMembers members = Node.decodeMembers schema members := by
  induction members with
  | nil => rfl
  | cons member members ih =>
    obtain ⟨name, value⟩ := member
    rw [decodeMembers, Node.decodeMembers]
    cases found : schema.lookup name with
    | none => exact ih
    | some shape =>
      have known : shape ∈ schema.map Prod.snd :=
        List.mem_map.mpr ⟨_, (lookup_eq_some_iff_mem distinct_schema).mp found, rfl⟩
      simp only [decodePart_eq_readPart known, ih]
      rfl

theorem decodeElements_eq {overflow : DecodeError} {fields : Schema} (known : fields ⊆ schema)
    (values : List Json) :
    decodeElements overflow fields values = Node.decodeElements overflow fields values := by
  induction fields generalizing values with
  | nil => cases values <;> rfl
  | cons field fields ih =>
    cases values with
    | nil => rfl
    | cons value values =>
      obtain ⟨name, shape⟩ := field
      obtain ⟨isField, rest⟩ := List.cons_subset.mp known
      have isShape : shape ∈ schema.map Prod.snd := List.mem_map.mpr ⟨_, isField, rfl⟩
      rw [decodeElements, Node.decodeElements, decodePart_eq_readPart isShape, ih rest]
      rfl

theorem decode_object_eq_ok :
    decode nested (.object members) = .ok modifiers ↔
      ∃ parts, Node.decodeMembers schema members = .ok parts ∧ ofParts parts = modifiers := by
  rw [decode, map_eq_ok, decodeMembers_eq]

theorem decode_array_eq_ok :
    decode nested (.array values) = .ok modifiers ↔
      values.length ≤ schema.length ∧
        decode nested (.object (Node.named schema values)) = .ok modifiers := by
  rw [decode_object_eq_ok, decode, map_eq_ok, decodeElements_eq (List.Subset.refl _)]
  simp only [Node.decodeElements_eq_ok distinct_schema, and_assoc, exists_and_left]

end Modifiers

namespace Node

variable {nested : Bool} {members : List (String × Json)} {values : List Json} {node : Node}

theorem decode_object_eq_ok :
    decode nested (.object members) = .ok node ↔
      ∃ kind parts, decodeType nested members = .ok kind ∧
        decodeMembers kind.schema members = .ok parts ∧ kind.build parts = .ok node := by
  rw [decode]
  simp only [bind_eq_ok, exists_and_left]

/-- An array behind its kind is read as the object of its named elements, if it is long enough. -/
theorem decode_array_eq_ok {tag : Json} :
    decode nested (.array (tag :: values)) = .ok node ↔
      ∃ kind parts, Kind.decode nested tag = .ok kind ∧
        (kind.required ≤ values.length ∧ values.length ≤ kind.schema.length) ∧
        decodeMembers kind.schema (named kind.schema values) = .ok parts ∧
        kind.build parts = .ok node := by
  rw [decode]
  simp only [bind_eq_ok, decodeElements_eq_ok (Kind.distinct_schema _)]
  constructor
  · rintro ⟨kind, isKind, parts, ⟨fits, read⟩, built⟩
    split at built
    · cases built
    · exact ⟨kind, parts, isKind, ⟨by omega, fits⟩, read, built⟩
  · rintro ⟨kind, parts, isKind, ⟨enough, fits⟩, read, built⟩
    refine ⟨kind, isKind, parts, ⟨fits, read⟩, ?_⟩
    rw [if_neg (by omega)]
    exact built

/-- The members write the fields in declaration order; fields that hold their default may be left
out. -/
inductive Abridged : Schema → List Part → List (String × Json) → Prop where
  | nil : Abridged [] [] []
  | written {schema : Schema} {fields : List Part} {members : List (String × Json)}
    (name : String) {part : Part} {value : Json} (written : part.Written value)
    (rest : Abridged schema fields members) :
    Abridged ((name, part.shape) :: schema) (part :: fields) ((name, value) :: members)
  | omitted {schema : Schema} {fields : List Part} {members : List (String × Json)}
    (name : String) (part : Part) (byDefault : part.IsDefault)
    (rest : Abridged schema fields members) :
    Abridged ((name, part.shape) :: schema) (part :: fields) members

end Node

namespace Parts

variable {parts : Parts}

theorem Holds.weaken {schema : Schema} {fields : List Part} {name : String} (part : Part)
    (fresh : name ∉ schema.map Prod.fst) (held : parts.Holds schema fields) :
    Parts.Holds ((name, part) :: parts) schema fields := by
  have others : ∀ field ∈ schema, field.1 ≠ name := by
    rintro field member rfl
    exact fresh (List.mem_map.mpr ⟨field, member, rfl⟩)
  refine ((List.forall₂_and_left _ _).mpr ⟨others, held⟩).imp ?_
  rintro field other ⟨different, heldAt⟩
  simpa [HoldsAt, List.lookup_cons, beq_false_of_ne different] using heldAt

end Parts

namespace Node

/-- Members that write the fields are read, and what is read holds the fields. -/
theorem Abridged.supplies {schema whole : Schema} {fields : List Part}
    {members : List (String × Json)} (abridged : Abridged schema fields members)
    (distinct : (schema.map Prod.fst).Nodup)
    (within : ∀ field ∈ schema, whole.lookup field.1 = some field.2) :
    ∃ parts : Parts, List.Forall₂ (Supplies whole) (known whole members) parts ∧
      parts.map Prod.fst ⊆ schema.map Prod.fst ∧ parts.Holds schema fields := by
  induction abridged with
  | nil => exact ⟨[], .nil, List.Subset.refl _, .nil⟩
  | @written _ _ _ name part _ written _ ih =>
    obtain ⟨fresh, others⟩ := List.nodup_cons.mp distinct
    obtain ⟨parts, supplied, among, held⟩ :=
      ih others fun field member => within field (List.mem_cons_of_mem _ member)
    have isField : whole.lookup name = some part.shape := within _ List.mem_cons_self
    refine ⟨(name, part) :: parts, ?_, List.cons_subset_cons _ among, ?_⟩
    · rw [known_cons_of_field isField]
      exact .cons ⟨rfl, isField, written⟩ supplied
    · exact List.Forall₂.cons (.inl (by simp)) (held.weaken part fresh)
  | omitted name part byDefault _ ih =>
    obtain ⟨fresh, others⟩ := List.nodup_cons.mp distinct
    obtain ⟨parts, supplied, among, held⟩ :=
      ih others fun field member => within field (List.mem_cons_of_mem _ member)
    have absent : parts.lookup name = none :=
      lookup_eq_none fun member => fresh (among member)
    exact ⟨parts, supplied, List.Subset.trans among (List.subset_cons_self _ _),
      List.Forall₂.cons (.inr ⟨absent, byDefault⟩) held⟩

theorem Abridged.decodeMembers {schema : Schema} {fields : List Part}
    {members : List (String × Json)} (abridged : Abridged schema fields members)
    (distinct : (schema.map Prod.fst).Nodup) :
    ∃ parts, Node.decodeMembers schema members = .ok parts ∧ Parts.Holds parts schema fields := by
  obtain ⟨parts, supplied, _, held⟩ := abridged.supplies distinct fun field member =>
    (lookup_eq_some_iff_mem distinct).mpr member
  exact ⟨parts, decodeMembers_eq_ok.mpr supplied, held⟩

end Node
end Hyperscript
