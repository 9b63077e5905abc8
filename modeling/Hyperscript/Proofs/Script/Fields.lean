import Hyperscript.Script.Decode
import Mathlib.Data.List.Forall2
import Mathlib.Data.List.Perm.Basic

/-! Fields as they are read. A node is made of the contents of its fields, in declaration
order. Of the parts that were read only the contents under each name matter, and a field for
which there are none holds its default. So objects and arrays are two ways to the same parts,
and neither the order of members nor members without a field make a difference. -/
namespace Hyperscript

section Results

variable {ε α β : Type} {result : Except ε α} {value : β}

theorem bind_eq_ok {next : α → Except ε β} :
    result >>= next = .ok value ↔ ∃ first, result = .ok first ∧ next first = .ok value := by
  cases result with
  | error => simp [bind, Except.bind]
  | ok first => simp [bind, Except.bind]

theorem map_eq_ok {change : α → β} :
    result.map change = .ok value ↔ ∃ first, result = .ok first ∧ change first = value := by
  cases result with
  | error => simp [Except.map]
  | ok first => simp [Except.map]

end Results

section Lookups

variable {κ α : Type} [BEq κ] [LawfulBEq κ] {entries entries' : List (κ × α)}

theorem lookup_eq_some_iff_mem (distinct : (entries.map Prod.fst).Nodup) {key : κ} {value : α} :
    entries.lookup key = some value ↔ (key, value) ∈ entries := by
  induction entries with
  | nil => simp
  | cons entry rest ih =>
    obtain ⟨name, held⟩ := entry
    obtain ⟨fresh, others⟩ := List.nodup_cons.mp distinct
    rw [List.lookup_cons, List.mem_cons, Prod.mk.injEq]
    by_cases same : key = name
    · subst same
      have absent : (key, value) ∉ rest := by
        intro member
        exact fresh (List.mem_map.mpr ⟨_, member, rfl⟩)
      simp [absent, eq_comm]
    · rw [beq_false_of_ne same, ih others]
      simp [same]

theorem lookup_eq_none {key : κ} (absent : key ∉ entries.map Prod.fst) :
    entries.lookup key = none := by
  refine List.lookup_eq_none_iff.mpr fun entry member => ?_
  exact bne_iff_ne.mpr fun same => absent (List.mem_map.mpr ⟨entry, member, same.symm⟩)

/-- Where every name stands once, the order of entries makes no difference. -/
theorem lookup_eq_of_perm (distinct : (entries.map Prod.fst).Nodup) (same : entries.Perm entries')
    (key : κ) : entries.lookup key = entries'.lookup key := by
  have distinct' : (entries'.map Prod.fst).Nodup := (same.map Prod.fst).nodup_iff.mp distinct
  refine Option.ext fun value => ?_
  rw [lookup_eq_some_iff_mem distinct, lookup_eq_some_iff_mem distinct', same.mem_iff]

end Lookups

namespace Part

@[simp] def shape : Part → Shape
  | .text _ => .text
  | .flag _ => .flag
  | .literal _ => .literal
  | .node _ => .node
  | .nodes _ => .nodes
  | .optionalNode _ => .optionalNode
  | .optionalNodes _ => .optionalNodes
  | .optionalText _ => .optionalText
  | .optionalNumber _ => .optionalNumber
  | .modifiers _ => .modifiers

/-- What a field holds when nothing is written for it. Texts and nodes have to be written. -/
def IsDefault : Part → Prop
  | .text _ | .node _ => False
  | .flag value => value = false
  | .literal value => value = .null
  | .nodes value => value = []
  | .optionalNode value => value = none
  | .optionalNodes value => value = none
  | .optionalText value => value = none
  | .optionalNumber value => value = none
  | .modifiers value => value = {}

end Part

/-- The contents of modifiers in declaration order. -/
def Modifiers.fields (modifiers : Modifiers) : List Part :=
  [.flag modifiers.once, .flag modifiers.passive, .flag modifiers.capture, .flag modifiers.prevent,
    .flag modifiers.stop, .optionalNumber modifiers.debounce, .optionalNumber modifiers.throttle,
    .optionalText modifiers.source]

/-- The contents of a node in declaration order. A selector is marked as cached when it has a
key. -/
def Node.fields : Node → List Part
  | .command name args target => [.text name, .nodes args, .optionalNode target]
  | .ifElse condition thenBranch elseBranch =>
    [.node condition, .nodes thenBranch, .optionalNodes elseBranch]
  | .repeatTimes count body => [.optionalNode count, .nodes body]
  | .forEach itemName collection body => [.text itemName, .node collection, .nodes body]
  | .whileLoop condition body => [.node condition, .nodes body]
  | .event name modifiers body => [.text name, .modifiers modifiers, .nodes body]
  | .literal value => [.literal value]
  | .binary operator left right => [.text operator, .node left, .node right]
  | .unary operator operand => [.text operator, .node operand]
  | .selector value cacheKey => [.text value, .flag cacheKey.isSome, .optionalText cacheKey]
  | .identifier name => [.text name]
  | .variableRef name => [.text name]
  | .member object property => [.node object, .text property]
  | .sequence commands unrolled => [.nodes commands, .flag unrolled]
  | .unknown => []

theorem Node.shape_fields (node : Node) :
    node.fields.map Part.shape = node.kind.schema.map Prod.snd := by
  cases node <;> rfl

theorem Modifiers.shape_fields (modifiers : Modifiers) :
    modifiers.fields.map Part.shape = schema.map Prod.snd := rfl

namespace Parts

variable {parts : Parts} {name : String}

/-- The part was read under the name, or nothing was and the part is the default. -/
def HoldsAt (parts : Parts) (name : String) (part : Part) : Prop :=
  parts.lookup name = some part ∨ parts.lookup name = none ∧ part.IsDefault

/-- Field by field, what was read is what the fields hold. -/
def Holds (parts : Parts) : Schema → List Part → Prop :=
  List.Forall₂ fun field part => parts.HoldsAt field.1 part

namespace HoldsAt

theorem requireText {value : String} (held : parts.HoldsAt name (.text value)) :
    parts.requireText name = .ok value := by
  obtain found | ⟨_, ⟨⟩⟩ := held
  simp [Parts.requireText, text?, found]

theorem requireNode {value : Node} (held : parts.HoldsAt name (.node value)) :
    parts.requireNode name = .ok value := by
  obtain found | ⟨_, ⟨⟩⟩ := held
  simp [Parts.requireNode, node?, found]

theorem flag {value : Bool} (held : parts.HoldsAt name (.flag value)) :
    parts.flag name = value := by
  obtain found | ⟨absent, rfl⟩ := held
  · simp [Parts.flag, found]
  · simp [Parts.flag, absent]

theorem literal {value : Literal} (held : parts.HoldsAt name (.literal value)) :
    parts.literal name = value := by
  obtain found | ⟨absent, rfl⟩ := held
  · simp [Parts.literal, found]
  · simp [Parts.literal, absent]

theorem nodes {value : List Node} (held : parts.HoldsAt name (.nodes value)) :
    parts.nodes name = value := by
  obtain found | ⟨absent, rfl⟩ := held
  · simp [Parts.nodes, found]
  · simp [Parts.nodes, absent]

theorem optionalNode {value : Option Node} (held : parts.HoldsAt name (.optionalNode value)) :
    parts.optionalNode name = value := by
  obtain found | ⟨absent, rfl⟩ := held
  · simp [Parts.optionalNode, found]
  · simp [Parts.optionalNode, absent]

theorem optionalNodes {value : Option (List Node)}
    (held : parts.HoldsAt name (.optionalNodes value)) : parts.optionalNodes name = value := by
  obtain found | ⟨absent, rfl⟩ := held
  · simp [Parts.optionalNodes, found]
  · simp [Parts.optionalNodes, absent]

theorem optionalText {value : Option String} (held : parts.HoldsAt name (.optionalText value)) :
    parts.optionalText name = value := by
  obtain found | ⟨absent, rfl⟩ := held
  · simp [Parts.optionalText, found]
  · simp [Parts.optionalText, absent]

theorem optionalNumber {value : Option Float} (held : parts.HoldsAt name (.optionalNumber value)) :
    parts.optionalNumber name = value := by
  obtain found | ⟨absent, rfl⟩ := held
  · simp [Parts.optionalNumber, found]
  · simp [Parts.optionalNumber, absent]

theorem modifiers {value : Modifiers} (held : parts.HoldsAt name (.modifiers value)) :
    parts.modifiers name = value := by
  obtain found | ⟨absent, rfl⟩ := held
  · simp [Parts.modifiers, found]
  · simp [Parts.modifiers, absent]

end HoldsAt

/-- Parts that hold the fields of a node build the node. -/
theorem Holds.build : ∀ {node : Node}, parts.Holds node.kind.schema node.fields →
    node.kind.build parts = .ok node
  | .command .., .cons first (.cons second (.cons third .nil)) => by
    simp only [Node.kind, Kind.build, first.requireText, second.nodes, third.optionalNode]
    rfl
  | .ifElse .., .cons first (.cons second (.cons third .nil)) => by
    simp only [Node.kind, Kind.build, first.requireNode, second.nodes, third.optionalNodes]
    rfl
  | .repeatTimes .., .cons first (.cons second .nil) => by
    simp only [Node.kind, Kind.build, first.optionalNode, second.nodes]
    rfl
  | .forEach .., .cons first (.cons second (.cons third .nil)) => by
    simp only [Node.kind, Kind.build, first.requireText, second.requireNode, third.nodes]
    rfl
  | .whileLoop .., .cons first (.cons second .nil) => by
    simp only [Node.kind, Kind.build, first.requireNode, second.nodes]
    rfl
  | .event .., .cons first (.cons second (.cons third .nil)) => by
    simp only [Node.kind, Kind.build, first.requireText, second.modifiers, third.nodes]
    rfl
  | .literal .., .cons first .nil => by
    simp only [Node.kind, Kind.build, first.literal]
    rfl
  | .binary .., .cons first (.cons second (.cons third .nil)) => by
    simp only [Node.kind, Kind.build, first.requireText, second.requireNode, third.requireNode]
    rfl
  | .unary .., .cons first (.cons second .nil) => by
    simp only [Node.kind, Kind.build, first.requireText, second.requireNode]
    rfl
  | .selector .., .cons first (.cons _ (.cons third .nil)) => by
    -- Whether a selector is marked as cached does not matter; its key does.
    simp only [Node.kind, Kind.build, first.requireText, third.optionalText]
    rfl
  | .identifier .., .cons first .nil | .variableRef .., .cons first .nil => by
    simp only [Node.kind, Kind.build, first.requireText]
    rfl
  | .member .., .cons first (.cons second .nil) => by
    simp only [Node.kind, Kind.build, first.requireNode, second.requireText]
    rfl
  | .sequence .., .cons first (.cons second .nil) => by
    simp only [Node.kind, Kind.build, first.nodes, second.flag]
    rfl
  | .unknown, _ => rfl

theorem Holds.modifiers {modifiers : Modifiers}
    (held : parts.Holds Modifiers.schema modifiers.fields) : .ofParts parts = modifiers := by
  obtain _ | ⟨once, _ | ⟨passive, _ | ⟨capture, _ | ⟨prevent, _ | ⟨stop, _ | ⟨debounce,
    _ | ⟨throttle, _ | ⟨source, _⟩⟩⟩⟩⟩⟩⟩⟩ := held
  simp only [Modifiers.ofParts, once.flag, passive.flag, capture.flag, prevent.flag, stop.flag,
    debounce.optionalNumber, throttle.optionalNumber, source.optionalText]

section Lookups

variable {parts' : Parts} (same : ∀ name, parts.lookup name = parts'.lookup name)
include same

/-- What is built depends on what is found under each name. -/
theorem build_congr (kind : Kind) : kind.build parts = kind.build parts' := by
  cases kind <;>
    simp only [Kind.build, requireText, text?, requireNode, node?, Parts.flag, Parts.literal,
      Parts.nodes, Parts.optionalNode, Parts.optionalNodes, Parts.optionalText, Parts.modifiers,
      same]

theorem ofParts_congr : Modifiers.ofParts parts = .ofParts parts' := by
  simp only [Modifiers.ofParts, Parts.flag, Parts.optionalNumber, Parts.optionalText, same]

end Lookups

end Parts
end Hyperscript
