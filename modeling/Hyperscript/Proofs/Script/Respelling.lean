import Hyperscript.Proofs.Script.Written
import Mathlib.Data.List.Perm.Subperm
import Mathlib.Logic.Relation

/-! Other spellings of a script. Anywhere in a value that is read as a node, an object that is
itself read as a node or as modifiers may have its members in another order, may have members that
mean nothing there, and may be replaced by the array of its fields. The value is read as before. -/
namespace Hyperscript

/-- What a value inside a script is read as. -/
inductive Place where
  | node (nested : Bool)
  | nodes
  | modifiers

/-- The place of the values of a field. Other fields hold no objects. -/
def Shape.place? : Shape → Option Place
  | .node | .optionalNode => some (.node true)
  | .nodes | .optionalNodes => some .nodes
  | .modifiers => some .modifiers
  | .text | .flag | .literal | .optionalText | .optionalNumber => none

namespace Place

/-- The name means nothing in an object with those members. -/
def Ignores (members : List (String × Json)) (name : String) : Place → Prop
  | .node nested =>
    name ≠ "type" ∧
      ∃ kind, Node.decodeType nested members = .ok kind ∧ kind.schema.lookup name = none
  | .nodes => False
  | .modifiers => Modifiers.schema.lookup name = none

end Place

/-- An object that is read as a node or as modifiers, and the same object in another order. -/
inductive Reordered : Place → Json → Json → Prop where
  | node {nested : Bool} {members members' : List (String × Json)}
    (distinct : (members.map Prod.fst).Nodup) (same : members.Perm members') :
    Reordered (.node nested) (.object members) (.object members')
  | modifiers {members members' : List (String × Json)}
    (distinct : (members.map Prod.fst).Nodup) (same : members.Perm members') :
    Reordered .modifiers (.object members) (.object members')

/-- An object that is read as a node or as modifiers, and another spelling of it. An array has the
fields in declaration order, up to some that hold their default. -/
inductive Respelled : Place → Json → Json → Prop where
  | reordered {place : Place} {value value' : Json} (reordered : Reordered place value value') :
    Respelled place value value'
  | extended {place : Place} {before after : List (String × Json)} {name : String} (value : Json)
    (ignored : place.Ignores (before ++ after) name) :
    Respelled place (.object (before ++ after)) (.object (before ++ (name, value) :: after))
  | nodeFields {nested : Bool} {members : List (String × Json)} {node : Node} {tag : Json}
    {kept dropped : List Part} {values : List Json}
    (read : Node.decode nested (.object members) = .ok node)
    (isKind : Kind.decode nested tag = .ok node.kind) (fields : node.fields = kept ++ dropped)
    (written : List.Forall₂ Part.Written kept values)
    (defaults : ∀ part ∈ dropped, part.IsDefault) :
    Respelled (.node nested) (.object members) (.array (tag :: values))
  | modifiersFields {members : List (String × Json)} {modifiers : Modifiers}
    {kept dropped : List Part} {values : List Json}
    (read : Modifiers.decode true (.object members) = .ok modifiers)
    (fields : modifiers.fields = kept ++ dropped) (written : List.Forall₂ Part.Written kept values)
    (defaults : ∀ part ∈ dropped, part.IsDefault) :
    Respelled .modifiers (.object members) (.array values)

/-- A step on one value in its place inside another. -/
inductive Inside (step : Place → Json → Json → Prop) : Place → Json → Json → Prop where
  | here {place : Place} {value value' : Json} (changed : step place value value') :
    Inside step place value value'
  | member {nested : Bool} {kind : Kind} {before after : List (String × Json)} {name : String}
    {shape : Shape} {place : Place} {value value' : Json}
    (isKind : Node.decodeType nested (before ++ (name, value) :: after) = .ok kind)
    (isField : kind.schema.lookup name = some shape) (isPlace : shape.place? = some place)
    (inside : Inside step place value value') :
    Inside step (.node nested) (.object (before ++ (name, value) :: after))
      (.object (before ++ (name, value') :: after))
  | field {nested : Bool} {tag : Json} {kind : Kind} {fields rest : Schema} {name : String}
    {shape : Shape} {place : Place} {before after : List Json} {value value' : Json}
    (isKind : Kind.decode nested tag = .ok kind)
    (isField : kind.schema = fields ++ (name, shape) :: rest)
    (position : fields.length = before.length) (isPlace : shape.place? = some place)
    (inside : Inside step place value value') :
    Inside step (.node nested) (.array (tag :: (before ++ value :: after)))
      (.array (tag :: (before ++ value' :: after)))
  | item {before after : List Json} {value value' : Json}
    (inside : Inside step (.node true) value value') :
    Inside step .nodes (.array (before ++ value :: after)) (.array (before ++ value' :: after))

/-- What the first value is read as in its place, the other one is read as too. -/
def Place.Keeps (value value' : Json) : Place → Prop
  | .node nested =>
    ∀ node, Node.decode nested value = .ok node → Node.decode nested value' = .ok node
  | .nodes => ∀ nodes, Node.decodeList true value = .ok nodes →
    Node.decodeList true value' = .ok nodes
  | .modifiers => ∀ modifiers, Modifiers.decode true value = .ok modifiers →
    Modifiers.decode true value' = .ok modifiers

theorem forall₂_replace {α β : Type} {R : α → β → Prop} {before after : List α} {value value' : α}
    {results : List β} (keeps : ∀ result, R value result → R value' result)
    (related : List.Forall₂ R (before ++ value :: after) results) :
    List.Forall₂ R (before ++ value' :: after) results := by
  induction before generalizing results with
  | nil =>
    obtain ⟨result, rest, first, others, rfl⟩ := List.forall₂_cons_left_iff.mp related
    exact .cons (keeps result first) others
  | cons head before ih =>
    obtain ⟨result, rest, first, others, rfl⟩ := List.forall₂_cons_left_iff.mp related
    exact .cons first (ih others)

theorem Part.Written.replace {part : Part} {value value' : Json} {place : Place}
    (written : part.Written value) (isPlace : part.shape.place? = some place)
    (present : value ≠ .null) (keeps : place.Keeps value value') : part.Written value' := by
  cases written with
  | text | flag | literal | noText | someText | noNumber | someNumber => cases isPlace
  | noNode | noNodes => exact absurd rfl present
  | node read =>
    cases isPlace
    exact .node (keeps _ read)
  | someNode read =>
    cases isPlace
    exact .someNode (keeps _ read)
  | nodes read =>
    cases isPlace
    exact .nodes (keeps _ read)
  | someNodes read =>
    cases isPlace
    exact .someNodes (keeps _ read)
  | modifiers read =>
    cases isPlace
    exact .modifiers (keeps _ read)

namespace Node

variable {nested : Bool} {kind : Kind} {schema : Schema} {members members' : List (String × Json)}
  {parts : Parts}

theorem decodeMembers_replace {before after : List (String × Json)} {name : String} {shape : Shape}
    {place : Place} {value value' : Json} (isField : schema.lookup name = some shape)
    (isPlace : shape.place? = some place) (present : value ≠ .null)
    (keeps : place.Keeps value value')
    (read : decodeMembers schema (before ++ (name, value) :: after) = .ok parts) :
    decodeMembers schema (before ++ (name, value') :: after) = .ok parts := by
  rw [decodeMembers_eq_ok, known_append, known_cons_of_field isField] at read ⊢
  refine forall₂_replace ?_ read
  rintro entry ⟨rfl, sameShape, written⟩
  obtain rfl : shape = entry.2.shape := by simpa [isField] using sameShape
  exact ⟨rfl, sameShape, written.replace isPlace present keeps⟩

theorem names_of_supplies (supplied : List.Forall₂ (Supplies schema) members parts) :
    parts.map Prod.fst = members.map Prod.fst := by
  induction supplied with
  | nil => rfl
  | cons first _ ih => rw [List.map_cons, List.map_cons, first.1, ih]

/-- The order of members makes no difference to what is found under each name. -/
theorem decodeMembers_of_perm (distinct : (members.map Prod.fst).Nodup)
    (same : members.Perm members') (read : decodeMembers schema members = .ok parts) :
    ∃ parts' : Parts, decodeMembers schema members' = .ok parts' ∧
      ∀ name, parts.lookup name = parts'.lookup name := by
  have supplied := decodeMembers_eq_ok.mp read
  have knownSame : (known schema members').Perm (known schema members) := (same.filter _).symm
  obtain ⟨parts', supplied', reordered⟩ := List.perm_comp_forall₂ knownSame supplied
  have distinctParts : (parts.map Prod.fst).Nodup := by
    rw [names_of_supplies supplied]
    exact distinct.sublist (List.filter_sublist.map _)
  exact ⟨parts', decodeMembers_eq_ok.mpr supplied',
    lookup_eq_of_perm distinctParts reordered.symm⟩

theorem decodeType_congr (same : members.lookup "type" = members'.lookup "type") :
    decodeType nested members = decodeType nested members' := by
  rw [decodeType, decodeType, same]

theorem ne_type_of_field {name : String} {shape : Shape}
    (isField : kind.schema.lookup name = some shape) : name ≠ "type" := by
  rintro rfl
  rw [lookup_eq_none kind.type_not_mem_schema] at isField
  cases isField

theorem decodeType_replace {before after : List (String × Json)} {name : String} {value : Json}
    (value' : Json) (other : name ≠ "type") :
    decodeType nested (before ++ (name, value) :: after) =
      decodeType nested (before ++ (name, value') :: after) := by
  refine decodeType_congr ?_
  simp [List.lookup_append, List.lookup_cons, beq_false_of_ne other.symm]

theorem decodeType_insert {before after : List (String × Json)} {name : String} (value : Json)
    (other : name ≠ "type") :
    decodeType nested (before ++ after) = decodeType nested (before ++ (name, value) :: after) := by
  refine decodeType_congr ?_
  simp [List.lookup_append, List.lookup_cons, beq_false_of_ne other.symm]

theorem decodeMembers_insert {before after : List (String × Json)} {name : String} (value : Json)
    (unknown : schema.lookup name = none)
    (read : decodeMembers schema (before ++ after) = .ok parts) :
    decodeMembers schema (before ++ (name, value) :: after) = .ok parts := by
  rw [decodeMembers_eq_ok] at read ⊢
  rwa [known_append, known_cons_of_noField unknown, ← known_append]

/-- Values in the order of the fields write them, with the rest left out. -/
theorem abridged_named {kept dropped : List Part} {values : List Json}
    (written : List.Forall₂ Part.Written kept values) (defaults : ∀ part ∈ dropped, part.IsDefault)
    (shapes : (kept ++ dropped).map Part.shape = schema.map Prod.snd) :
    Abridged schema (kept ++ dropped) (named schema values) := by
  induction written generalizing schema with
  | nil =>
    rw [List.nil_append] at shapes ⊢
    rw [named, List.zip_nil_right]
    induction dropped generalizing schema with
    | nil =>
      obtain rfl : schema = [] := by simpa using shapes.symm
      exact .nil
    | cons part dropped ih =>
      obtain ⟨first, rest⟩ := List.forall_mem_cons.mp defaults
      obtain ⟨⟨name, shape⟩, fields, rfl, rfl, others⟩ := List.map_eq_cons_iff.mp shapes.symm
      exact .omitted name part first (ih rest others.symm)
  | @cons part value kept values first _ ih =>
    obtain ⟨⟨name, shape⟩, fields, rfl, rfl, others⟩ := List.map_eq_cons_iff.mp shapes.symm
    exact .written name first (ih others.symm)

theorem decodeMembers_named {fields kept dropped : List Part} {values : List Json}
    (distinct : (schema.map Prod.fst).Nodup)
    (shapes : fields.map Part.shape = schema.map Prod.snd) (split : fields = kept ++ dropped)
    (written : List.Forall₂ Part.Written kept values)
    (defaults : ∀ part ∈ dropped, part.IsDefault) :
    values.length ≤ schema.length ∧
      ∃ parts, decodeMembers schema (named schema values) = .ok parts ∧
        Parts.Holds parts schema fields := by
  subst split
  refine ⟨?_, (abridged_named written defaults shapes).decodeMembers distinct⟩
  have lengths := congrArg List.length shapes
  rw [List.length_map, List.length_append, List.length_map, written.length_eq] at lengths
  omega

/-- The required fields do not hold a default. -/
theorem required_le {node : Node} {kept dropped : List Part}
    (fields : node.fields = kept ++ dropped)
    (defaults : ∀ part ∈ dropped, part.IsDefault) : node.kind.required ≤ kept.length := by
  have enough : node.kind.required ≤ node.fields.length := by
    cases node <;> simp [Node.fields, Node.kind, Kind.required]
  have filled : ∀ part ∈ node.fields.take node.kind.required, ¬ part.IsDefault := by
    cases node <;> simp [Node.fields, Node.kind, Kind.required, Part.IsDefault]
  by_contra short
  rw [fields, List.length_append] at enough
  rw [fields, List.take_append] at filled
  cases dropped with
  | nil =>
    rw [List.length_nil] at enough
    omega
  | cons part dropped =>
    refine filled part ?_ (defaults part List.mem_cons_self)
    obtain ⟨more, isMore⟩ : ∃ more, node.kind.required - kept.length = more + 1 :=
      ⟨node.kind.required - kept.length - 1, by omega⟩
    simp [isMore]

end Node

theorem Reordered.keeps {place : Place} {value value' : Json}
    (reordered : Reordered place value value') : place.Keeps value value' := by
  cases reordered with
  | node distinct same =>
    intro node read
    obtain ⟨kind, parts, isKind, readMembers, built⟩ := Node.decode_object_eq_ok.mp read
    obtain ⟨parts', readMembers', found⟩ := Node.decodeMembers_of_perm distinct same readMembers
    refine Node.decode_object_eq_ok.mpr ⟨kind, parts', ?_, readMembers', ?_⟩
    · rw [← isKind, Node.decodeType_congr (lookup_eq_of_perm distinct same "type")]
    · rw [← built, Parts.build_congr found]
  | modifiers distinct same =>
    intro modifiers read
    obtain ⟨parts, readMembers, rfl⟩ := Modifiers.decode_object_eq_ok.mp read
    obtain ⟨parts', readMembers', found⟩ := Node.decodeMembers_of_perm distinct same readMembers
    exact Modifiers.decode_object_eq_ok.mpr
      ⟨parts', readMembers', (Parts.ofParts_congr found).symm⟩

theorem Reordered.symm {place : Place} {value value' : Json}
    (reordered : Reordered place value value') : Reordered place value' value := by
  cases reordered with
  | node distinct same =>
    exact .node ((same.map Prod.fst).nodup_iff.mp distinct) same.symm
  | modifiers distinct same =>
    exact .modifiers ((same.map Prod.fst).nodup_iff.mp distinct) same.symm

theorem Respelled.keeps {place : Place} {value value' : Json}
    (respelled : Respelled place value value') : place.Keeps value value' := by
  cases respelled with
  | reordered reordered => exact reordered.keeps
  | extended extra ignored =>
    cases place with
    | nodes => cases ignored
    | node nested =>
      intro node read
      obtain ⟨other, kind, isKind, unknown⟩ := ignored
      obtain ⟨kind', parts, isKind', readMembers, built⟩ := Node.decode_object_eq_ok.mp read
      obtain rfl : kind = kind' := by simpa [isKind] using isKind'
      rw [Node.decodeType_insert extra other] at isKind
      exact Node.decode_object_eq_ok.mpr
        ⟨kind, parts, isKind, Node.decodeMembers_insert extra unknown readMembers, built⟩
    | modifiers =>
      intro modifiers read
      obtain ⟨parts, readMembers, rfl⟩ := Modifiers.decode_object_eq_ok.mp read
      exact Modifiers.decode_object_eq_ok.mpr
        ⟨parts, Node.decodeMembers_insert extra ignored readMembers, rfl⟩
  | @nodeFields nested members node tag kept dropped values read isKind fields written defaults =>
    intro node' read'
    obtain rfl : node = node' := by simpa [read] using read'
    obtain ⟨fits, parts, readMembers, held⟩ := Node.decodeMembers_named node.kind.distinct_schema
      node.shape_fields fields written defaults
    have enough : node.kind.required ≤ values.length :=
      written.length_eq ▸ Node.required_le fields defaults
    exact Node.decode_array_eq_ok.mpr
      ⟨node.kind, parts, isKind, ⟨enough, fits⟩, readMembers, held.build⟩
  | @modifiersFields members modifiers kept dropped values read fields written defaults =>
    intro modifiers' read'
    obtain rfl : modifiers = modifiers' := by simpa [read] using read'
    obtain ⟨fits, parts, readMembers, held⟩ := Node.decodeMembers_named Modifiers.distinct_schema
      modifiers.shape_fields fields written defaults
    exact Modifiers.decode_array_eq_ok.mpr
      ⟨fits, Modifiers.decode_object_eq_ok.mpr ⟨parts, readMembers, held.modifiers⟩⟩

theorem Inside.keeps {step : Place → Json → Json → Prop}
    (each : ∀ {place value value'}, step place value value' →
      value ≠ .null ∧ place.Keeps value value')
    {place : Place} {value value' : Json} (inside : Inside step place value value') :
    value ≠ .null ∧ place.Keeps value value' := by
  induction inside with
  | here changed => exact each changed
  | @member nested kind before after name shape place value value' isKind isField isPlace _ ih =>
    obtain ⟨present, keeps⟩ := ih
    refine ⟨Json.noConfusion, fun node read => ?_⟩
    obtain ⟨kind', parts, isKind', readMembers, built⟩ := Node.decode_object_eq_ok.mp read
    obtain rfl : kind = kind' := by simpa [isKind] using isKind'
    rw [Node.decodeType_replace value' (Node.ne_type_of_field isField)] at isKind
    exact Node.decode_object_eq_ok.mpr ⟨kind, parts, isKind,
      Node.decodeMembers_replace isField isPlace present keeps readMembers, built⟩
  | @field nested tag kind fields rest name shape place before after value value' isKind isField
      position isPlace _ ih =>
    obtain ⟨present, keeps⟩ := ih
    refine ⟨Json.noConfusion, fun node read => ?_⟩
    obtain ⟨kind', parts, isKind', lengths, readMembers, built⟩ := Node.decode_array_eq_ok.mp read
    obtain rfl : kind = kind' := by simpa [isKind] using isKind'
    have found : kind.schema.lookup name = some shape :=
      (lookup_eq_some_iff_mem kind.distinct_schema).mpr (by simp [isField])
    have named (value : Json) : Node.named kind.schema (before ++ value :: after) =
        Node.named fields before ++ (name, value) :: Node.named rest after := by
      simp [Node.named, isField, List.zip_append, position]
    rw [named] at readMembers
    have readMembers' := Node.decodeMembers_replace found isPlace present keeps readMembers
    rw [← named] at readMembers'
    refine Node.decode_array_eq_ok.mpr ⟨kind, parts, isKind, ?_, readMembers', built⟩
    simpa using lengths
  | item _ ih =>
    obtain ⟨present, keeps⟩ := ih
    refine ⟨Json.noConfusion, fun nodes read => ?_⟩
    obtain ⟨_, ⟨⟩, readAll⟩ := Node.decodeList_eq_ok.mp read
    refine Node.decodeList_eq_ok.mpr ⟨_, rfl, Node.decodeAll_eq_ok.mpr ?_⟩
    exact forall₂_replace keeps (Node.decodeAll_eq_ok.mp readAll)

theorem Inside.symm {step : Place → Json → Json → Prop}
    (each : ∀ {place value value'}, step place value value' → step place value' value)
    {place : Place} {value value' : Json} (inside : Inside step place value value') :
    Inside step place value' value := by
  induction inside with
  | here changed => exact .here (each changed)
  | @member _ _ _ _ _ _ _ _ value' isKind isField isPlace _ ih =>
    rw [Node.decodeType_replace value' (Node.ne_type_of_field isField)] at isKind
    exact .member isKind isField isPlace ih
  | field isKind isField position isPlace _ ih => exact .field isKind isField position isPlace ih
  | item _ ih => exact .item ih

theorem Reordered.ne_null {place : Place} {value value' : Json}
    (reordered : Reordered place value value') : value ≠ .null := by
  cases reordered <;> exact Json.noConfusion

theorem Respelled.ne_null {place : Place} {value value' : Json}
    (respelled : Respelled place value value') : value ≠ .null := by
  cases respelled with
  | reordered reordered => exact reordered.ne_null
  | extended | nodeFields | modifiersFields => exact Json.noConfusion

/-- All spellings of a node are read as the node, wherever inside it the objects that are read as
nodes or as modifiers are respelled and however often. A value that is refused is refused in every
order of its members. -/
theorem decode_respelled (nested : Bool) (value value' : Json) :
    (∀ node, Node.decode nested value = .ok node →
      Relation.ReflTransGen (Inside Respelled (.node nested)) value value' →
      Node.decode nested value' = .ok node) ∧
    (∀ error, Node.decode nested value = .error error →
      Relation.ReflTransGen (Inside Reordered (.node nested)) value value' →
      ∃ error', Node.decode nested value' = .error error') := by
  constructor
  · intro node read respelled
    induction respelled with
    | refl => exact read
    | tail _ changed ih =>
      have keeps := changed.keeps fun step => ⟨step.ne_null, step.keeps⟩
      exact keeps.2 node ih
  · intro error refused reordered
    cases read' : Node.decode nested value' with
    | error error' => exact ⟨error', rfl⟩
    | ok node =>
      -- The steps lead back as well, so the first value would be read too.
      have read : Node.decode nested value = .ok node := by
        clear refused
        induction reordered with
        | refl => exact read'
        | tail _ changed ih =>
          have back := @Inside.symm Reordered Reordered.symm _ _ _ changed
          have keeps := back.keeps fun step => ⟨step.ne_null, step.keeps⟩
          exact ih (keeps.2 node read')
      rw [refused] at read
      cases read

/-- A handler with the given modifiers, and with further members in its only command. -/
def clickMembers (modifiers : Json) (extra : List (String × Json)) : List (String × Json) :=
  [("type", .string "event"), ("event", .string "click"), ("modifiers", modifiers),
    ("body", .array [.object ([("type", .string "command"), ("name", .string "log")] ++ extra)])]

theorem respelled_clickMembers :
    Relation.ReflTransGen (Inside Respelled (.node false))
      (.object (clickMembers (.object [("once", .bool true)]) []))
      (.object (clickMembers (.array [.bool true]) [("note", .null)]).reverse) := by
  have byPosition : Inside Respelled (.node false)
      (.object (clickMembers (.object [("once", .bool true)]) []))
      (.object (clickMembers (.array [.bool true]) [])) := by
    refine @Inside.member _ _ .event [_, _] [_] "modifiers" .modifiers .modifiers _ _ rfl rfl rfl
      (.here ?_)
    exact @Respelled.modifiersFields _ { once := true } [_] _ _ rfl rfl
      (.cons (.flag true) .nil) (by simp [Part.IsDefault])
  have extended : Inside Respelled (.node false)
      (.object (clickMembers (.array [.bool true]) []))
      (.object (clickMembers (.array [.bool true]) [("note", .null)])) := by
    refine @Inside.member _ _ .event [_, _, _] [] "body" .nodes .nodes _ _ rfl rfl rfl
      (@Inside.item _ [] [] _ _ (.here ?_))
    exact @Respelled.extended (.node true) [_, _] [] "note" .null
      ⟨by decide, .command, rfl, rfl⟩
  have reversed : Inside Respelled (.node false)
      (.object (clickMembers (.array [.bool true]) [("note", .null)]))
      (.object (clickMembers (.array [.bool true]) [("note", .null)]).reverse) :=
    .here (.reordered (.node (by decide) (List.reverse_perm _).symm))
  exact .tail (.tail (.tail .refl byPosition) extended) reversed

theorem decode_respelled_click :
    Node.decode false (.object (clickMembers (.array [.bool true]) [("note", .null)]).reverse) =
        .ok (.event "click" { once := true } [.command "log" [] none]) ∧
      ∃ error, Node.decode false (.object [("body", .array []), ("type", .string "event")]) =
        .error error := by
  constructor
  · exact (decode_respelled false _ _).1 _ rfl respelled_clickMembers
  · refine (decode_respelled false (.object [("type", .string "event"), ("body", .array [])]) _).2
      (.missingField "event") rfl (.tail .refl (.here (.node (by decide) ?_)))
    exact .swap _ _ _

end Hyperscript
