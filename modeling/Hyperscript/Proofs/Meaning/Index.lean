import Hyperscript.Proofs.Meaning.Interpretation

/-! Actions that leave the loop index alone. A script without a loop index node in it
neither reads nor writes the index, whatever loops it has inside, and a repetition of
such a body is its body so many times over. -/
namespace Hyperscript.Meaning

variable {World Index κ α β γ : Type}

/-- Two runs that differ in the index alone go the same way, and the index is at the
end what it was at the start. -/
structure IgnoresIndex (action : Action (State World Index) κ α) : Prop where
  keeps {start completion final} : action start completion final → final.index = start.index
  shifts {start completion final} : action start completion final →
    ∀ index, action { start with index } completion { final with index }

namespace IgnoresIndex

theorem pure (value : α) : IgnoresIndex (pure value : Action (State World Index) κ α) where
  keeps := by
    rintro start completion final ⟨rfl, rfl⟩
    rfl
  shifts := by
    rintro start completion final ⟨rfl, rfl⟩ index
    exact ⟨rfl, rfl⟩

theorem bind {first : Action (State World Index) κ α} {next : α → Action (State World Index) κ β}
    (before : IgnoresIndex first) (after : ∀ value, IgnoresIndex (next value)) :
    IgnoresIndex (first >>= next) where
  keeps := by
    rintro start completion final (⟨value, middle, ran, rest⟩ | ⟨signal, rfl, ran⟩)
    · exact ((after value).keeps rest).trans (before.keeps ran)
    · exact before.keeps ran
  shifts := by
    rintro start completion final (⟨value, middle, ran, rest⟩ | ⟨signal, rfl, ran⟩) index
    · exact .inl ⟨value, _, before.shifts ran index, (after value).shifts rest index⟩
    · exact .inr ⟨signal, rfl, before.shifts ran index⟩

/-- A change of the world only. -/
theorem modifyWorld (change : World → World) :
    IgnoresIndex (.modify fun state => { state with world := change state.world } :
      Action (State World Index) κ Unit) where
  keeps := by
    rintro start completion final ⟨rfl, rfl⟩
    rfl
  shifts := by
    rintro start completion final ⟨rfl, rfl⟩ index
    exact ⟨rfl, rfl⟩

theorem settlingWorld {action : Action (State World Index) κ α} (ignores : IgnoresIndex action)
    (settle : World → World → World) :
    IgnoresIndex (action.settling fun start last =>
      { last with world := settle start.world last.world }) where
  keeps := by
    rintro start completion final ⟨last, ran, rfl⟩
    have kept := ignores.keeps ran
    exact kept
  shifts := by
    rintro start completion final ⟨last, ran, rfl⟩ index
    exact ⟨_, ignores.shifts ran index, rfl⟩

theorem loop {step : γ → Action (State World Index) κ (Option γ)}
    (steps : ∀ place, IgnoresIndex (step place)) (place : γ) : IgnoresIndex (.Loop step place) where
  keeps := by
    intro start completion final ran
    induction ran with
    | finish last => exact (steps _).keeps last
    | stop last => exact (steps _).keeps last
    | next first _ ih => exact ih.trans ((steps _).keeps first)
  shifts := by
    intro start completion final ran index
    induction ran with
    | finish last => exact .finish ((steps _).shifts last index)
    | stop last => exact .stop ((steps _).shifts last index)
    | next first _ ih => exact .next ((steps _).shifts first index) ih

end IgnoresIndex

namespace Interpretation

variable {meaning : Interpretation}

/-- The body that many times in a row. -/
def consecutively (body : meaning.Effect Unit) : Nat → meaning.Effect Unit
  | 0 => pure ()
  | count + 1 => do
    body
    consecutively body count

theorem iterationsFrom_eq (count : Nat) (body : meaning.Effect Unit) (number : Nat) :
    meaning.iterationsFrom count body number =
      if number < count then do
        meaning.setIndex number
        body
        meaning.iterationsFrom count body (number + 1)
      else pure () := by
  unfold iterationsFrom
  rw [Action.loop_eq]
  split <;> simp only [bind_assoc, pure_bind]

theorem consecutively_ignoresIndex {body : meaning.Effect Unit} (ignores : IgnoresIndex body)
    (count : Nat) : IgnoresIndex (consecutively body count) := by
  induction count with
  | zero => exact .pure ()
  | succ count ih => exact ignores.bind fun _ => ih

/-- The index that the iterations leave behind is thrown away, and the body does not
see the index it is given. -/
theorem restoringIndex_iterationsFrom {body : meaning.Effect Unit} (ignores : IgnoresIndex body)
    (remaining number : Nat) :
    meaning.restoringIndex (meaning.iterationsFrom (number + remaining) body number) =
      consecutively body remaining := by
  induction remaining generalizing number with
  | zero =>
    apply Action.ext
    intro start completion final
    rw [iterationsFrom_eq, if_neg (by omega)]
    constructor
    · rintro ⟨last, ⟨rfl, rfl⟩, rfl⟩
      exact ⟨rfl, rfl⟩
    · rintro ⟨rfl, rfl⟩
      exact ⟨final, ⟨rfl, rfl⟩, rfl⟩
  | succ remaining ih =>
    have rest := ih (number + 1)
    rw [Nat.add_right_comm, Nat.add_assoc] at rest
    have restIgnores := consecutively_ignoresIndex ignores remaining
    apply Action.ext
    intro start completion final
    rw [iterationsFrom_eq, if_pos (by omega)]
    constructor
    · rintro ⟨last, (⟨_, _, ⟨_, rfl⟩, (⟨_, middle, ran, more⟩ | ⟨signal, rfl, ran⟩)⟩ |
        ⟨_, _, same, _⟩), rfl⟩
      · have following : consecutively body remaining middle completion
            { last with index := middle.index } := rest ▸ ⟨last, more, rfl⟩
        exact .inl ⟨(), _, ignores.shifts ran start.index, restIgnores.shifts following start.index⟩
      · exact .inr ⟨signal, rfl, ignores.shifts ran start.index⟩
      · cases same
    · rintro (⟨_, middle, ran, more⟩ | ⟨signal, rfl, ran⟩)
      · have kept := (restIgnores.keeps more).trans (ignores.keeps ran)
        have shifted := restIgnores.shifts more (meaning.counter number)
        rw [← rest] at shifted
        obtain ⟨last, iterated, same⟩ := shifted
        refine ⟨last, .inl ⟨(), _, ⟨rfl, rfl⟩, .inl ⟨(), _, ignores.shifts ran _, iterated⟩⟩, ?_⟩
        have world := congrArg State.world same
        cases final
        simp only at world kept
        simp only [world, kept]
      · have kept := ignores.keeps ran
        refine ⟨_, .inl ⟨(), _, ⟨rfl, rfl⟩, .inr ⟨signal, rfl, ignores.shifts ran _⟩⟩, ?_⟩
        cases final
        simp only at kept
        simp only [kept]

theorem counted_eq_consecutively {body : meaning.Effect Unit} (ignores : IgnoresIndex body)
    (count : Nat) : meaning.counted count body = consecutively body count := by
  have unrolled := restoringIndex_iterationsFrom ignores count 0
  rwa [Nat.zero_add] at unrolled

theorem ite_ignoresIndex {condition : Bool} {first second : meaning.Effect α}
    (before : IgnoresIndex first) (after : IgnoresIndex second) :
    IgnoresIndex (if condition then first else second) := by
  cases condition
  · exact after
  · exact before

theorem forever_ignoresIndex {body : meaning.Effect Unit} (ignores : IgnoresIndex body) :
    IgnoresIndex (meaning.forever body) :=
  .loop (fun _ => ignores.bind fun _ => .pure _) _

theorem looping_ignoresIndex {condition : meaning.Effect meaning.Value} {body : meaning.Effect Unit}
    (head : IgnoresIndex condition) (ignores : IgnoresIndex body) :
    IgnoresIndex (meaning.looping condition body) :=
  .loop (fun _ => head.bind fun _ =>
    ite_ignoresIndex (ignores.bind fun _ => .pure _) (.pure _)) _

theorem withItem_ignoresIndex {body : meaning.Effect Unit} (ignores : IgnoresIndex body)
    (name : String) (item : meaning.Value) : IgnoresIndex (meaning.withItem name item body) :=
  ((IgnoresIndex.modifyWorld _).bind fun _ => ignores).settlingWorld _

variable (meaning) in
/-- The loop index is read and written through its own nodes only: everything else
ignores it as long as its operands do. -/
structure IndexByName : Prop where
  identifier {name} : name ∉ Node.indexNames → IgnoresIndex (meaning.identifier name)
  variableRef {name} : name ∉ Node.indexNames → IgnoresIndex (meaning.variableRef name)
  selector (value cacheKey) : IgnoresIndex (meaning.selector value cacheKey)
  binary {operator left right} : IgnoresIndex left → IgnoresIndex right →
    IgnoresIndex (meaning.binary operator left right)
  unary {operator operand} : IgnoresIndex operand → IgnoresIndex (meaning.unary operator operand)
  member {object property} : IgnoresIndex object → IgnoresIndex (meaning.member object property)
  unknownValue : IgnoresIndex meaning.unknownValue
  unknownStatement : IgnoresIndex meaning.unknownStatement
  discard {expression} : IgnoresIndex expression → IgnoresIndex (meaning.discard expression)
  command {name args target} : (∀ arg ∈ args, IgnoresIndex arg) →
    (∀ place ∈ target, IgnoresIndex place) → IgnoresIndex (meaning.command name args target)
  irregular {value body} : IgnoresIndex body → IgnoresIndex (meaning.irregular value body)
  iterate (collection) : IgnoresIndex (meaning.iterate collection)
  advance (cursor) : IgnoresIndex (meaning.advance cursor)

namespace IndexByName

theorem each (byName : meaning.IndexByName) {body : meaning.Effect Unit}
    (ignores : IgnoresIndex body) (name : String) (collection : meaning.Value) :
    IgnoresIndex (meaning.each name collection body) := by
  refine (byName.iterate collection).bind fun cursor => .loop (fun place => ?_) cursor
  refine (byName.advance place).bind fun found => ?_
  cases found with
  | none => exact .pure none
  | some found => exact (withItem_ignoresIndex ignores name found.1).bind fun _ => .pure _

theorem repeated (byName : meaning.IndexByName) {body : meaning.Effect Unit}
    (ignores : IgnoresIndex body) (value : meaning.Value) :
    IgnoresIndex (meaning.repeated value body) := by
  unfold Interpretation.repeated
  split
  next count _ =>
    rw [counted_eq_consecutively ignores]
    exact consecutively_ignoresIndex ignores count
  next => exact byName.irregular ignores

theorem execAll {statements : List Node}
    (each : ∀ statement ∈ statements, IgnoresIndex (meaning.exec statement)) :
    IgnoresIndex (meaning.execAll statements) := by
  induction statements with
  | nil => exact .pure ()
  | cons statement rest ih =>
    exact (each statement List.mem_cons_self).bind fun _ =>
      ih fun other member => each other (List.mem_cons_of_mem _ member)

/-- A script without a loop index node in it does not touch the loop index. -/
theorem ignores (byName : meaning.IndexByName) (node : Node)
    (free : node.anyInSubtree Node.readsIndex = false) :
    IgnoresIndex (meaning.eval node) ∧ IgnoresIndex (meaning.exec node) := by
  induction node using Node.childInduction with
  | parent node ih =>
    rw [Node.anyInSubtree_eq, Bool.or_eq_false_iff, List.any_eq_false] at free
    obtain ⟨here, below⟩ := free
    have child (other : Node) (member : other ∈ node.children) :=
      ih other member (Bool.eq_false_iff.mpr (below other member))
    have block (statements : List Node) (inside : ∀ other ∈ statements, other ∈ node.children) :=
      execAll fun other member => (child other (inside other member)).2
    clear ih below
    cases node with
    | command name args target =>
      refine ⟨.pure _, byName.command ?_ ?_⟩
      · intro arg member
        obtain ⟨other, inside, rfl⟩ := List.mem_map.mp member
        exact (child other (by simp [Node.children, inside])).1
      · intro place member
        obtain ⟨other, rfl, rfl⟩ := Option.map_eq_some_iff.mp member
        exact (child other (by simp [Node.children])).1
    | ifElse condition thenBranch elseBranch =>
      refine ⟨.pure _, (child condition (by simp [Node.children])).1.bind fun _ =>
        ite_ignoresIndex (block thenBranch (by simp +contextual [Node.children])) ?_⟩
      cases elseBranch with
      | none => exact .pure ()
      | some elseBranch => exact block elseBranch (by simp +contextual [Node.children])
    | repeatTimes count body =>
      have inBody := block body (by simp +contextual [Node.children])
      refine ⟨.pure _, ?_⟩
      cases count with
      | none => exact forever_ignoresIndex inBody
      | some count =>
        exact (child count (by simp [Node.children])).1.bind fun _ => byName.repeated inBody _
    | forEach itemName collection body =>
      exact ⟨.pure _, (child collection (by simp [Node.children])).1.bind fun _ =>
        byName.each (block body (by simp +contextual [Node.children])) itemName _⟩
    | whileLoop condition body =>
      exact ⟨.pure _, looping_ignoresIndex (child condition (by simp [Node.children])).1
        (block body (by simp +contextual [Node.children]))⟩
    | sequence commands unrolled => exact ⟨.pure _, block commands fun _ member => member⟩
    | event => exact ⟨.pure _, .pure ()⟩
    | literal => exact ⟨.pure _, byName.discard (.pure _)⟩
    | binary operator left right =>
      have value : IgnoresIndex (meaning.eval (.binary operator left right)) :=
        byName.binary (child left (by simp [Node.children])).1
          (child right (by simp [Node.children])).1
      exact ⟨value, byName.discard value⟩
    | unary operator operand =>
      have value : IgnoresIndex (meaning.eval (.unary operator operand)) :=
        byName.unary (child operand (by simp [Node.children])).1
      exact ⟨value, byName.discard value⟩
    | member object property =>
      have value : IgnoresIndex (meaning.eval (.member object property)) :=
        byName.member (child object (by simp [Node.children])).1
      exact ⟨value, byName.discard value⟩
    | selector value cacheKey =>
      exact ⟨byName.selector value cacheKey, byName.discard (byName.selector value cacheKey)⟩
    | identifier name =>
      have value : IgnoresIndex (meaning.eval (.identifier name)) :=
        byName.identifier (by simpa [Node.readsIndex] using here)
      exact ⟨value, byName.discard value⟩
    | variableRef name =>
      have value : IgnoresIndex (meaning.eval (.variableRef name)) :=
        byName.variableRef (by simpa [Node.readsIndex] using here)
      exact ⟨value, byName.discard value⟩
    | unknown => exact ⟨byName.unknownValue, byName.unknownStatement⟩

end IndexByName
end Interpretation
end Hyperscript.Meaning
