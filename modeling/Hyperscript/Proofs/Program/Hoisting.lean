import Hyperscript.Proofs.Program.Relation

/-! Selectors asked for once, at the start of a function. Every use must then find what
the selector stood for at the start; that is all there is to it: a function behaves like
the one that asks on the spot exactly if no run of the latter uses one of the selectors
when it stands for something else. -/
namespace Hyperscript.Program

open Meaning

theorem lookup_map_value {κ α β : Type} [BEq κ] (change : α → β) (entries : List (κ × α)) (key : κ) :
    (entries.map fun (key, value) => (key, change value)).lookup key =
      (entries.lookup key).map change := by
  induction entries with
  | nil => rfl
  | cons entry rest ih =>
    obtain ⟨other, value⟩ := entry
    simp only [List.map_cons, List.lookup_cons, ih]
    split <;> rfl

theorem mem_of_lookup {κ α : Type} [BEq κ] [LawfulBEq κ] {entries : List (κ × α)} {key : κ}
    {value : α} (found : entries.lookup key = some value) : (key, value) ∈ entries := by
  obtain ⟨before, after, same, _⟩ := List.lookup_eq_some_iff.mp found
  simp [same]

variable {engine : Engine}

namespace Engine

/-- All uses of the selectors that have an entry value found that value. -/
def Steady (entry : String → Option engine.Value) (state : engine.State) : Prop :=
  ∀ use ∈ state.uses, ∀ value ∈ entry use.1, use.2 = value

theorem steady_congr {entry : String → Option engine.Value} {state state' : engine.State}
    (same : state'.uses = state.uses) : Steady entry state' ↔ Steady entry state := by
  simp only [Steady, same]

theorem catching_preserves {property : engine.State → Prop} {action : engine.Effect Unit}
    {handle : engine.Value → engine.Effect Unit} (inner : action.Preserves property)
    (handles : ∀ error, (handle error).Preserves property) :
    Action.Preserves property (catching action handle) := by
  rintro start completion final (⟨ran, _⟩ | ⟨error, middle, ran, handled⟩) holds
  · exact inner _ _ _ ran holds
  · exact handles error _ _ _ handled (inner _ _ _ ran holds)

theorem use_iff {selector : String} {value : engine.Value} {start final : engine.State}
    {completion : Completion (Signal engine.Value) engine.Value} :
    use selector value start completion final ↔
      final = start.noting selector value ∧
        (completion = .normal value ∨ completion = .abrupt .interrupted) := by
  constructor
  · rintro (⟨_, middle, ⟨_, rfl⟩, (⟨_, _, ⟨_, rfl⟩, rfl, rfl⟩ | ⟨signal, rfl, ended, rfl⟩)⟩ |
      ⟨signal, _, ⟨⟩, _⟩)
    · exact ⟨rfl, .inl rfl⟩
    · rcases ended with ⟨⟨⟩⟩ | ⟨⟨⟩⟩
      exact ⟨rfl, .inr rfl⟩
  · rintro ⟨rfl, rfl | rfl⟩
    · exact .inl ⟨(), _, ⟨rfl, rfl⟩, .inl ⟨(), _, ⟨.inl rfl, rfl⟩, rfl, rfl⟩⟩
    · exact .inl ⟨(), _, ⟨rfl, rfl⟩, .inr ⟨_, rfl, .inr rfl, rfl⟩⟩

/-- A selector that is asked for on the spot. -/
theorem eval_elements_iff {env : Env engine.Value} {selector : String}
    (valid : engine.isSelector selector) {start final : engine.State}
    {completion : Completion (Signal engine.Value) engine.Value} :
    eval env (.elements selector none) start completion final ↔
      use selector (engine.ofElements (engine.query start.document selector))
        start completion final := by
  simp only [eval, find, valid, if_true, Action.read_bind_iff]

/-- A text that is no selector uses nothing. -/
theorem uses_elements_invalid {env : Env engine.Value} {selector : String}
    (invalid : engine.isSelector selector = false) {start final : engine.State}
    {completion : Completion (Signal engine.Value) engine.Value}
    (ran : eval env (.elements selector none) start completion final) : final = start := by
  simp only [eval, find, invalid, Bool.false_eq_true, if_false] at ran
  rcases ran with ⟨_, _, ⟨⟨⟩, _⟩, _⟩ | ⟨_, _, _, rfl⟩
  rfl

theorem steady_noting_iff {entry : String → Option engine.Value} {state : engine.State}
    {selector : String} {value : engine.Value} :
    Steady entry (state.noting selector value) ↔
      Steady entry state ∧ ∀ expected ∈ entry selector, value = expected := by
  simp only [Steady, State.noting, List.forall_mem_append, List.forall_mem_singleton]

/-- The second action does what the first does as long as the first is steady; where the
second goes on, the first can at least be seen to become unsteady. -/
structure Tracks (entry : String → Option engine.Value) (α : Type)
    (live held : engine.Effect α) : Prop where
  forth {start completion final} : live start completion final →
    held start completion final ∨ ¬ Steady entry final
  back {start completion final} : held start completion final →
    live start completion final ∨
      ∃ seen, live start (.abrupt .interrupted) seen ∧ ¬ Steady entry seen
  grows : live.Preserves fun state => ¬ Steady entry state
  keeps : held.Preserves (Steady entry)

namespace Tracks

variable {entry : String → Option engine.Value} {α β γ : Type}

theorem same {action : engine.Effect α}
    (neutral : ∀ start completion final, action start completion final →
      (Steady entry final ↔ Steady entry start)) : Tracks entry α action action where
  forth := .inl
  back := .inl
  grows _ _ _ ran := mt (neutral _ _ _ ran).mp
  keeps _ _ _ ran := (neutral _ _ _ ran).mpr

theorem bind {live held : engine.Effect α} {next next' : α → engine.Effect β}
    (first : Tracks entry α live held)
    (second : ∀ value, Tracks entry β (next value) (next' value)) :
    Tracks entry β (live >>= next) (held >>= next') where
  forth := by
    rintro start completion final (⟨value, middle, ran, rest⟩ | ⟨signal, rfl, ran⟩)
    · rcases first.forth ran with ran' | unsteady
      · exact ((second value).forth rest).imp_left fun rest' => .inl ⟨value, middle, ran', rest'⟩
      -- What is unsteady once stays so, whatever is done next.
      · exact .inr ((second value).grows _ _ _ rest unsteady)
    · exact (first.forth ran).imp_left fun ran' => .inr ⟨signal, rfl, ran'⟩
  back := by
    rintro start completion final (⟨value, middle, ran, rest⟩ | ⟨signal, rfl, ran⟩)
    · rcases first.back ran with ran' | ⟨seen, ran', unsteady⟩
      · rcases (second value).back rest with rest' | ⟨seen, rest', unsteady⟩
        · exact .inl (.inl ⟨value, middle, ran', rest'⟩)
        · exact .inr ⟨seen, .inl ⟨value, middle, ran', rest'⟩, unsteady⟩
      -- The first action is seen to become unsteady, so the rest does not matter.
      · exact .inr ⟨seen, .inr ⟨_, rfl, ran'⟩, unsteady⟩
    · rcases first.back ran with ran' | ⟨seen, ran', unsteady⟩
      · exact .inl (.inr ⟨signal, rfl, ran'⟩)
      · exact .inr ⟨seen, .inr ⟨_, rfl, ran'⟩, unsteady⟩
  grows := first.grows.bind fun value => (second value).grows
  keeps := first.keeps.bind fun value => (second value).keeps

theorem loop {step step' : γ → engine.Effect (Option γ)}
    (each : ∀ place, Tracks entry _ (step place) (step' place)) (place : γ) :
    Tracks entry Unit (.Loop step place) (.Loop step' place) where
  forth := by
    intro start completion final ran
    induction ran with
    | finish last => exact ((each _).forth last).imp_left .finish
    | stop last => exact ((each _).forth last).imp_left .stop
    | next first rest ih =>
      rcases (each _).forth first with first' | unsteady
      · exact ih.imp_left (.next first')
      · exact .inr (Action.Preserves.loop (fun place => (each place).grows) _ _ _ _ rest unsteady)
  back := by
    intro start completion final ran
    induction ran with
    | finish last =>
      exact ((each _).back last).imp .finish fun ⟨seen, ran, unsteady⟩ => ⟨seen, .stop ran, unsteady⟩
    | stop last =>
      exact ((each _).back last).imp .stop fun ⟨seen, ran, unsteady⟩ => ⟨seen, .stop ran, unsteady⟩
    | next first _ ih =>
      rcases (each _).back first with first' | ⟨seen, ran, unsteady⟩
      · exact ih.imp (.next first') fun ⟨seen, ran, unsteady⟩ => ⟨seen, .next first' ran, unsteady⟩
      · exact .inr ⟨seen, .stop ran, unsteady⟩
  grows := .loop (fun place => (each place).grows) place
  keeps := .loop (fun place => (each place).keeps) place

theorem restoring {live held : engine.Effect Unit} (inner : Tracks entry Unit live held) :
    Tracks entry Unit (restoringCounter live) (restoringCounter held) where
  forth := by
    rintro start completion final ⟨last, ran, rfl⟩
    exact (inner.forth ran).imp_left fun ran' => ⟨last, ran', rfl⟩
  back := by
    rintro start completion final ⟨last, ran, rfl⟩
    exact (inner.back ran).imp (fun ran' => ⟨last, ran', rfl⟩) fun ⟨seen, ran', unsteady⟩ =>
      ⟨_, ⟨seen, ran', rfl⟩, unsteady⟩
  grows := inner.grows.settling fun _ _ unsteady => unsteady
  keeps := inner.keeps.settling fun _ _ steady => steady

theorem catching {live held : engine.Effect Unit} {handle : engine.Value → engine.Effect Unit}
    (inner : Tracks entry Unit live held)
    (handles : ∀ error, Tracks entry Unit (handle error) (handle error)) :
    Tracks entry Unit (catching live handle) (catching held handle) where
  forth := by
    rintro start completion final (⟨ran, uncaught⟩ | ⟨error, middle, ran, handled⟩)
    · exact (inner.forth ran).imp_left fun ran' => .inl ⟨ran', uncaught⟩
    · rcases inner.forth ran with ran' | unsteady
      · exact .inl (.inr ⟨error, middle, ran', handled⟩)
      · exact .inr ((handles error).grows _ _ _ handled unsteady)
  back := by
    -- An interruption is no error, so what is seen inside is seen outside.
    have passes {start seen} (ran : live start (.abrupt .interrupted) seen) :
        Engine.catching live handle start (.abrupt .interrupted) seen := by
      refine .inl ⟨ran, ?_⟩
      rintro error ⟨⟩
    rintro start completion final (⟨ran, uncaught⟩ | ⟨error, middle, ran, handled⟩)
    · exact (inner.back ran).imp (fun ran' => .inl ⟨ran', uncaught⟩) fun ⟨seen, ran', unsteady⟩ =>
        ⟨seen, passes ran', unsteady⟩
    · exact (inner.back ran).imp (fun ran' => .inr ⟨error, middle, ran', handled⟩)
        fun ⟨seen, ran', unsteady⟩ => ⟨seen, passes ran', unsteady⟩
  grows := catching_preserves inner.grows fun error => (handles error).grows
  keeps := catching_preserves inner.keeps fun error => (handles error).keeps

/-- From a steady start both actions have the same outcomes exactly if every outcome of
the first is steady. -/
theorem same_iff_steady {live held : engine.Effect α} (tracks : Tracks entry α live held)
    {start : engine.State} (steady : Steady entry start) :
    (∀ completion final, held start completion final ↔ live start completion final) ↔
      ∀ completion final, live start completion final → Steady entry final := by
  constructor
  · intro same completion final ran
    exact tracks.keeps _ _ _ ((same completion final).mpr ran) steady
  · intro allSteady completion final
    constructor
    · intro ran
      rcases tracks.back ran with ran' | ⟨seen, ran', unsteady⟩
      · exact ran'
      · exact absurd (allSteady _ _ ran') unsteady
    · intro ran
      exact (tracks.forth ran).resolve_right (not_not_intro (allSteady _ _ ran))

end Tracks

/-- What a selector is read from: the variable that holds its entry value, or a query if
it has none. -/
def Sourced (held : List (String × engine.Value)) (entry : String → Option engine.Value)
    (selector : String) : Option String → Prop
  | some key => engine.isSelector selector ∧
      ∃ value, held.lookup key = some value ∧ entry selector = some value
  | none => entry selector = none

/-- A class call is refused or changes the one class. -/
theorem changeElement_cases {element : engine.Element} {method className : String}
    {start final : engine.State} {completion : Completion (Signal engine.Value) Unit}
    (ran : changeElement element method className start completion final) :
    final = start ∨ final = start.changing element method className := by
  cases refused : engine.classError? className with
  | some error =>
    simp only [changeElement, refused] at ran
    exact .inl ran.2
  | none =>
    simp only [changeElement, refused] at ran
    obtain ⟨_, middle, ⟨_, rfl⟩, _, rfl⟩ | ⟨_, _, ⟨⟩, _⟩ := ran
    exact .inr rfl

theorem uses_changeElement {element : engine.Element} {method className : String}
    {start final : engine.State} {completion : Completion (Signal engine.Value) Unit}
    (ran : changeElement element method className start completion final) :
    final.uses = start.uses := by
  obtain rfl | rfl := changeElement_cases ran <;> rfl

theorem Tracks.elements {held : List (String × engine.Value)}
    {entry : String → Option engine.Value} {env env' : Env engine.Value}
    (extend : Extends held env env') {selector : String} {key : Option String}
    (sourced : Sourced held entry selector key) :
    Tracks entry _ (eval env (.elements selector none)) (eval env' (.elements selector key)) := by
  cases key with
  | none =>
    refine .same fun start completion final ran => ?_
    cases valid : engine.isSelector selector with
    | true =>
      obtain ⟨rfl, _⟩ := use_iff.mp ((eval_elements_iff valid).mp ran)
      have absent : entry selector = none := sourced
      simp [steady_noting_iff, absent]
    | false => rw [uses_elements_invalid valid ran]
  | some key =>
    obtain ⟨valid, value, inKey, inEntry⟩ := sourced
    have read : eval env' (.elements selector (some key)) = use selector value := by
      simp only [eval, lookup, extend.held inKey, pure_bind]
    rw [read]
    constructor
    case forth =>
      intro start completion final ran
      by_cases current : engine.ofElements (engine.query start.document selector) = value
      · exact .inl (current ▸ (eval_elements_iff valid).mp ran)
      · obtain ⟨rfl, _⟩ := use_iff.mp ((eval_elements_iff valid).mp ran)
        exact .inr fun steady => current ((steady_noting_iff.mp steady).2 value inEntry)
    case back =>
      intro start completion final ran
      by_cases current : engine.ofElements (engine.query start.document selector) = value
      · exact .inl ((eval_elements_iff valid).mpr (current.symm ▸ ran))
      · refine .inr ⟨_, (eval_elements_iff valid).mpr (use_iff.mpr ⟨rfl, .inr rfl⟩), ?_⟩
        exact fun steady => current ((steady_noting_iff.mp steady).2 value inEntry)
    case grows =>
      intro start completion final ran unsteady steady
      obtain ⟨rfl, _⟩ := use_iff.mp ((eval_elements_iff valid).mp ran)
      exact unsteady (steady_noting_iff.mp steady).1
    case keeps =>
      intro start completion final ran steady
      obtain ⟨rfl, _⟩ := use_iff.mp ran
      refine steady_noting_iff.mpr ⟨steady, fun expected found => ?_⟩
      rw [inEntry] at found
      exact Option.some.inj found

theorem Tracks.respects (held : List (String × engine.Value))
    (entry : String → Option engine.Value) :
    Respects (Tracks entry) held (Sourced held entry) fun _ => True where
  quiet silent := .same fun _ _ _ ran => steady_congr (silent _ _ _ ran).2
  bind := .bind
  loop := .loop
  restoring := .restoring
  catching := .catching
  change _ := .same fun _ _ _ ran => steady_congr (uses_changeElement ran)
  elements extend sourced := .elements extend sourced

/-- What a selector stands for on a page. -/
def standing (document : Document engine.Element) (selector : String) : engine.Value :=
  engine.ofElements (engine.query document selector)

/-- What the variables of declarations hold when they are set on that page. -/
def heldOn (document : Document engine.Element) (declarations : List (String × String)) :
    List (String × engine.Value) :=
  declarations.map fun (key, selector) => (key, standing document selector)

def constants (held : List (String × engine.Value)) : Env engine.Value :=
  held.map fun (key, value) => (key, .constant value)

/-- Declarations of selectors do nothing but look at the page. -/
theorem declare_iff {declarations : List (String × String)}
    (valid : ∀ declaration ∈ declarations, engine.isSelector declaration.2)
    (env : Env engine.Value) {start final : engine.State}
    {completion : Completion (Signal engine.Value) (Env engine.Value)} :
    declare env declarations start completion final ↔
      completion = .normal (env ++ constants (heldOn start.document declarations)) ∧
        final = start := by
  induction declarations generalizing env with
  | nil => simp [declare, heldOn, constants, Action.pure_iff]
  | cons declaration rest ih =>
    have first := valid declaration List.mem_cons_self
    have others := ih fun other member => valid other (List.mem_cons_of_mem _ member)
    simp only [declare, find, first, if_true, Action.read_bind_iff, others]
    simp [heldOn, constants, standing]

theorem declare_bind_iff {declarations : List (String × String)}
    (valid : ∀ declaration ∈ declarations, engine.isSelector declaration.2)
    {env : Env engine.Value} {next : Env engine.Value → engine.Effect Unit}
    {start final : engine.State} {completion : Completion (Signal engine.Value) Unit} :
    (declare env declarations >>= next) start completion final ↔
      next (env ++ constants (heldOn start.document declarations)) start completion final := by
  simp only [Action.bind_iff, declare_iff valid]
  constructor
  · rintro (⟨_, _, ⟨⟨⟩, rfl⟩, ran⟩ | ⟨_, _, ⟨⟩, _⟩)
    exact ran
  · intro ran
    exact .inl ⟨_, _, ⟨rfl, rfl⟩, ran⟩

theorem extends_constants {held : List (String × engine.Value)} {env : Env engine.Value}
    (apart : ∀ entry ∈ env, held.lookup entry.1 = none) :
    Extends held env (env ++ constants held) where
  other {name} free := by
    simp [List.lookup_append, constants, lookup_map_value, free]
  held {name value} found := by
    have absent : env.lookup name = none := by
      rw [List.lookup_eq_none_iff]
      intro entry member
      simp only [bne_iff_ne]
      rintro rfl
      simp [apart entry member] at found
    simp [List.lookup_append, constants, lookup_map_value, found, absent]

end Engine

namespace Function

/-- The selectors that a function asks for at its start. -/
def hoisted (function : Function) : List String := function.declarations.map (·.2)

/-- Exactly the uses of the declared selectors read variables, each the one that was
declared for it. -/
structure IsDeclared (function : Function) : Prop where
  sourced : ∀ use ∈ Stmt.usesAll function.body,
    match use.2 with
    | some key => function.declarations.lookup key = some use.1
    | none => use.1 ∉ function.hoisted
  apart : ∀ name ∈ [Names.contextVar, Names.eventParam], function.declarations.lookup name = none

/-- The script spells none of the variables that are declared for selectors. -/
def IsFree (function : Function) : Prop :=
  ∀ part ∈ Stmt.partsAll function.body, ∀ name ∈ part.names, function.declarations.lookup name = none

instance (function : Function) : Decidable function.IsFree :=
  inferInstanceAs (Decidable (∀ part ∈ Stmt.partsAll function.body, ∀ name ∈ part.names,
    function.declarations.lookup name = none))

end Function

namespace Engine

/-- What each of the selectors stood for at the start. -/
def entryOn (document : Document engine.Element) (selectors : List String) (selector : String) :
    Option engine.Value :=
  if selector ∈ selectors then some (standing document selector) else none

theorem fits_of_isDeclared {function : Function} (declared : function.IsDeclared)
    (free : function.IsFree)
    (valid : ∀ declaration ∈ function.declarations, engine.isSelector declaration.2)
    (document : Document engine.Element) {part : Stmt.Part}
    (member : part ∈ Stmt.partsAll function.body) :
    Fits (heldOn document function.declarations)
      (Sourced (heldOn document function.declarations) (entryOn document function.hoisted))
      (fun _ => True) part := by
  have clear (name : String) (spelled : name ∈ part.names) :
      (heldOn document function.declarations).lookup name = none := by
    simp [heldOn, lookup_map_value, free part member name spelled]
  cases part with
  | name name => exact clear name List.mem_cons_self
  | change className => trivial
  | expr expr =>
    refine ⟨fun use used => ?_, clear⟩
    have sourced := declared.sourced use (List.mem_flatMap_of_mem member used)
    obtain ⟨selector, key⟩ := use
    cases key with
    | none => exact if_neg sourced
    | some key =>
      have found : function.declarations.lookup key = some selector := sourced
      have inDeclarations := mem_of_lookup found
      refine ⟨valid _ inDeclarations, standing document selector, ?_, if_pos ?_⟩
      · simp [heldOn, lookup_map_value, found]
      · exact List.mem_map_of_mem inDeclarations

theorem run_bare_eq (function : Function) (event : engine.Value) :
    run function.bare event = (do
      let context ← request (engine.createContext event)
      guarded function.bare event (parameters context event)) := by
  simp only [run, Function.bare, declare, pure_bind]

/-- A function runs like the one that asks for every selector on the spot exactly if, in
every run of the latter, every use of a hoisted selector finds what the selector stood
for at the start. -/
theorem run_same_iff {function : Function} (declared : function.IsDeclared) (free : function.IsFree)
    (valid : ∀ declaration ∈ function.declarations, engine.isSelector declaration.2)
    (event : engine.Value) (document : Document engine.Element) (world : engine.World) :
    (∀ completion final, run function event (engine.starting document world) completion final ↔
        run function.bare event (engine.starting document world) completion final) ↔
      ∀ completion final,
        run function.bare event (engine.starting document world) completion final →
          Steady (entryOn document function.hoisted) final := by
  let held := heldOn document function.declarations
  let entry := entryOn document function.hoisted
  have direct (completion : Completion (Signal engine.Value) Unit) (final : engine.State) :
      run function event (engine.starting document world) completion final ↔ (do
        let context ← request (engine.createContext event)
        guarded function event (parameters context event ++ constants held))
          (engine.starting document world) completion final := by
    -- The context is made before the declarations, but on the same page.
    refine Action.bind_congr_iff fun context middle asked => ?_
    have samePage : middle.document = document := (quiet_request _ _ _ _ asked).1
    rw [declare_bind_iff valid, samePage]
  have extend (context : engine.Value) :
      Extends held (parameters context event) (parameters context event ++ constants held) := by
    refine extends_constants fun entry member => ?_
    have absent : function.declarations.lookup entry.1 = none := by
      apply declared.apart
      simp only [parameters, List.mem_cons, List.not_mem_nil, or_false] at member
      obtain rfl | rfl := member <;> simp
    simp [held, heldOn, lookup_map_value, absent]
  have respects := Tracks.respects held entry
  have tracks := respects.bind (respects.quiet (quiet_request (engine.createContext event)))
    fun context => respects.guarded (extend context)
      (fun _ => fits_of_isDeclared declared free valid document) event
  simp only [direct, run_bare_eq]
  exact tracks.same_iff_steady fun use member => nomatch member

/-- Changes of the class on elements of the page do not change what the selector stands
for. -/
def Unaffected (engine : Engine) (selector className : String) : Prop :=
  ∀ (document : Document engine.Element) element method,
    engine.query (document.change element method className) selector = engine.query document selector

theorem unaffected_class {name className : String} (plain : isClassName name)
    (distinct : className ≠ name) : engine.Unaffected ("." ++ name) className := by
  intro document element method
  rw [engine.query_class _ plain, engine.query_class _ plain]
  have same (other : engine.Element) :
      (document.change element method className).hasClass other name =
        document.hasClass other name :=
    if_neg fun both => distinct both.2.symm
  simp only [same]
  rfl

/-- The selectors stand for the same as on that page, and all uses found so. -/
def Current (document : Document engine.Element) (selectors : List String)
    (state : engine.State) : Prop :=
  (∀ selector ∈ selectors, engine.query state.document selector = engine.query document selector) ∧
    Steady (entryOn document selectors) state

theorem current_congr {document : Document engine.Element} {selectors : List String}
    {state state' : engine.State} (samePage : state'.document = state.document)
    (sameUses : state'.uses = state.uses) (current : Current document selectors state) :
    Current document selectors state' :=
  ⟨by simpa only [samePage] using current.1, (steady_congr sameUses).mpr current.2⟩

theorem current_changeElement {document : Document engine.Element} {selectors : List String}
    {element : engine.Element} {method className : String}
    (unaffected : ∀ selector ∈ selectors, engine.Unaffected selector className) :
    (changeElement element method className).Preserves (Current document selectors) := by
  intro start completion final ran current
  refine ⟨?_, (steady_congr (uses_changeElement ran)).mpr current.2⟩
  intro selector member
  obtain rfl | rfl := changeElement_cases ran
  · exact current.1 selector member
  · exact (unaffected selector member _ _ _).trans (current.1 selector member)

theorem current_elements {document : Document engine.Element} {selectors : List String}
    (env : Env engine.Value) (selector : String) :
    (eval env (.elements selector none)).Preserves (Current document selectors) := by
  intro start completion final ran current
  cases valid : engine.isSelector selector with
  | false => rwa [uses_elements_invalid valid ran]
  | true =>
    obtain ⟨rfl, _⟩ := use_iff.mp ((eval_elements_iff valid).mp ran)
    refine ⟨current.1, steady_noting_iff.mpr ⟨current.2, fun expected found => ?_⟩⟩
    simp only [entryOn, Option.mem_def, Option.ite_none_right_eq_some] at found
    obtain ⟨member, found⟩ := found
    rw [current.1 selector member]
    exact Option.some.inj found

theorem current_respects (document : Document engine.Element) (selectors : List String) :
    Respects (fun _ live _ => live.Preserves (Current document selectors)) []
      (fun _ _ => True) fun className =>
        ∀ selector ∈ selectors, engine.Unaffected selector className where
  quiet silent _ _ _ ran := current_congr (silent _ _ _ ran).1 (silent _ _ _ ran).2
  bind := .bind
  loop := .loop
  restoring inner := inner.settling fun _ _ current => current
  catching := catching_preserves
  change := current_changeElement
  elements _ _ := current_elements _ _

/-- Selectors that no class change of the function affects stay the same all along. -/
theorem run_steady {function : Function}
    (unaffected : ∀ className, .change className ∈ Stmt.partsAll function.body →
      ∀ selector ∈ function.hoisted, engine.Unaffected selector className)
    (event : engine.Value) (document : Document engine.Element) (world : engine.World)
    {completion : Completion (Signal engine.Value) Unit} {final : engine.State}
    (ran : run function.bare event (engine.starting document world) completion final) :
    Steady (entryOn document function.hoisted) final := by
  have respects := current_respects document function.hoisted
  have extend (env : Env engine.Value) : Extends [] env env := ⟨fun _ => rfl, nofun⟩
  have fits (part : Stmt.Part) (member : part ∈ Stmt.partsAll function.body) :
      Fits ([] : List (String × engine.Value)) (fun _ _ => True)
        (fun className => ∀ selector ∈ function.hoisted, engine.Unaffected selector className)
        part := by
    cases part with
    | expr expr => exact ⟨fun _ _ => trivial, fun _ _ => rfl⟩
    | name name => rfl
    | change className => exact unaffected className member
  have asks := respects.quiet (quiet_request (engine.createContext event))
  have preserves := asks.bind fun context =>
    respects.guarded (extend (parameters context event)) fits event
  rw [run_bare_eq] at ran
  exact (preserves _ _ _ ran ⟨fun _ _ => rfl, nofun⟩).2

end Engine
end Hyperscript.Program
