import Hyperscript.Proofs.Optimization.Pipeline
import Hyperscript.Proofs.Optimization.Slugs
import Hyperscript.Proofs.Program.Compiled
import Hyperscript.Proofs.Program.Constants
import Hyperscript.Proofs.Program.Hoisting
import Hyperscript.Proofs.Program.Reads

/-! Selector caching. Distinct selectors get distinct variables, every use of a selector
gets its variable or none does, and the function declares what it reads. -/
namespace Hyperscript.Caching

open Program

/-- A selector has the key that is made from it, and no other selector has it. -/
structure IsSound (keys : Keys) : Prop where
  named : ∀ entry ∈ keys, entry.2 = cacheKey entry.1
  injective : ∀ first ∈ keys, ∀ second ∈ keys, first.2 = second.2 → first.1 = second.1

theorem isSound_nil : IsSound [] := ⟨by simp, by simp⟩

theorem IsSound.assign {keys : Keys} (sound : IsSound keys) (selector : String) :
    IsSound (assign keys selector).value := by
  unfold Caching.assign
  split
  next => exact sound
  next =>
    dsimp only
    split
    next => exact sound
    next unowned =>
      have fresh : ∀ entry ∈ keys, entry.2 ≠ cacheKey selector := by
        simpa [owner?] using unowned
      constructor
      · exact List.forall_mem_append.mpr ⟨sound.named, by simp⟩
      · intro first inFirst second inSecond same
        simp only [Revised.value_pure, List.mem_append, List.mem_singleton] at inFirst inSecond
        obtain inFirst | rfl := inFirst <;> obtain inSecond | rfl := inSecond
        · exact sound.injective first inFirst second inSecond same
        · exact absurd same (fresh first inFirst)
        · exact absurd same.symm (fresh second inSecond)
        · rfl

theorem isSound_foldlM {keys : Keys} (sound : IsSound keys) (selectors : List String) :
    IsSound (selectors.foldlM Caching.assign keys).value := by
  induction selectors generalizing keys with
  | nil => exact sound
  | cons selector rest ih =>
    rw [List.foldlM_cons, Revised.value_bind]
    exact ih (sound.assign selector)

theorem isSound_keysFor (facts : Facts) : IsSound (keysFor facts).value :=
  isSound_foldlM isSound_nil _

theorem IsSound.of_lookup {keys : Keys} (sound : IsSound keys) {selector other key : String}
    (first : keys.lookup selector = some key) (second : keys.lookup other = some key) :
    selector = other := by
  exact sound.injective _ (mem_of_lookup first) _ (mem_of_lookup second) rfl

/-- The scripts in which the keys say of every selector whether and where it is cached. -/
def IsKeyed (keys : Keys) (script : Node) : Prop :=
  script.Selectors fun selector cacheKey => cacheKey = keys.lookup selector

def IsKeyless (script : Node) : Prop := script.Selectors fun _ cacheKey => cacheKey = none

theorem isKeyed_annotated (keys : Keys) (script : Node) (keyless : IsKeyless script) :
    IsKeyed keys ((revision keys).node script).value := by
  refine Revision.selectors_node (fun _ => rfl) rfl ?_ script keyless
  intro node root children
  change (annotate keys node).value.Selectors _
  have leaf (value : String) :
      (Node.selector value (keys.lookup value)).Selectors fun selector cacheKey =>
        cacheKey = keys.lookup selector :=
    .of_children (by rintro _ _ ⟨⟩; rfl) (by simp [Node.children])
  unfold annotate
  split
  next value cacheKey =>
    cases root value cacheKey rfl
    have inLeaf := leaf value
    split
    next key found => simpa [found, Revised.replaced] using inLeaf
    next absent => simpa [absent] using inLeaf
  next other =>
    exact .of_children (fun value cacheKey same => absurd same (other value cacheKey)) children

theorem sameCode_annotated (engine : Engine) (keys : Keys) (script : Node) :
    engine.SameCode script ((revision keys).node script).value := by
  have finish (node : Node) : engine.SameCode node (annotate keys node).value := by
    unfold annotate
    split
    next value cacheKey =>
      split
      next key found =>
        split
        · exact .refl _
        · exact ⟨rfl, rfl, rfl, rfl⟩
      next => exact .refl _
    next => exact .refl _
  exact Revision.Within.related
    { compatible := .of_slotwise
      trans := .trans
      finish
      block := Revision.block_forall₂ fun _ => rfl
      list := Revision.list_forall₂ fun _ => Engine.SameCode.refl }
    script

/-- The first read of a variable declares it. -/
theorem lookup_cacheAll (context : Context) (reads : List (String × String)) (key : String) :
    (context.cacheAll reads).cached.lookup key =
      (context.cached.lookup key).or (reads.lookup key) := by
  induction reads generalizing context with
  | nil => simp [Context.cacheAll]
  | cons read rest ih =>
    obtain ⟨name, selector⟩ := read
    change ((context.cacheSelector name selector).cacheAll rest).cached.lookup key = _
    rw [ih, Context.cacheSelector, List.lookup_cons]
    split
    next known =>
      cases same : key == name with
      | true =>
        obtain ⟨value, found⟩ := Option.isSome_iff_exists.mp known
        simp [eq_of_beq same, found]
      | false => rfl
    next =>
      cases same : key == name <;>
        simp [List.lookup_append, List.lookup_cons, same]

theorem mem_cacheAll {context : Context} {reads : List (String × String)} {read : String × String}
    (member : read ∈ (context.cacheAll reads).cached) : read ∈ context.cached ∨ read ∈ reads := by
  induction reads generalizing context with
  | nil => exact .inl member
  | cons first rest ih =>
    change read ∈ ((context.cacheSelector first.1 first.2).cacheAll rest).cached at member
    rcases ih member with earlier | later
    · unfold Context.cacheSelector at earlier
      split at earlier
      · exact .inl earlier
      · exact (List.mem_append.mp earlier).imp_right (by simp +contextual)
    · exact .inr (List.mem_cons_of_mem _ later)

theorem reads_body {p : String → Option String → Prop} {nodes : List Node}
    (all : ∀ node ∈ nodes, node.Selectors p) :
    Reads p (Statement.body nodes) (Stmt.usesAll (Stmt.ofNodes nodes)) :=
  (Stmt.reads_generateAll fun node member => Stmt.reads_generate node (all node member)).followed
    fun _ => rfl

/-- The function of a handler declares the selectors with keys, and reads them from
their variables everywhere. -/
theorem isDeclared_ofHandler {keys : Keys} (sound : IsSound keys) {handler : Handler}
    (keyed : ∀ node ∈ handler.body, IsKeyed keys node) (facts : Facts) {context : Context}
    (blank : context.cached = []) : (Function.ofHandler handler facts context).IsDeclared := by
  have reads := reads_body keyed
  have declared (key : String) :
      (Function.ofHandler handler facts context).declarations.lookup key =
        (Statement.body handler.body).reads.lookup key := by
    simp [Function.ofHandler, Emission.run, lookup_cacheAll, blank]
  have read (declaration : String × String)
      (member : declaration ∈ (Function.ofHandler handler facts context).declarations) :
      declaration ∈ (Statement.body handler.body).reads := by
    simpa [blank] using mem_cacheAll member
  constructor
  · rintro ⟨selector, key⟩ used
    have held := reads.holds _ used
    cases key with
    | some key =>
      have known : ((Statement.body handler.body).reads.lookup key).isSome :=
        List.lookup_isSome_iff.mpr ⟨_, reads.used _ used key rfl, by simp⟩
      obtain ⟨other, found⟩ := Option.isSome_iff_exists.mp known
      have inKeys := reads.reads _ (mem_of_lookup found)
      change _ = some selector
      rw [declared, found]
      exact congrArg some (sound.of_lookup inKeys.symm held.symm)
    | none =>
      intro member
      obtain ⟨⟨key, _⟩, inDeclarations, rfl⟩ := List.mem_map.mp member
      have same := reads.reads _ (read _ inDeclarations)
      cases held.trans same.symm
  · intro name other
    rw [declared, Option.eq_none_iff_forall_not_mem]
    intro selector found
    have inKeys := reads.reads _ (mem_of_lookup found)
    have known : name ∈ Names.introduced := List.mem_append_left _ other
    exact cacheKey_ne known selector (sound.named _ (mem_of_lookup inKeys.symm)).symm

/-- A handler without keys has code that asks for every selector on the spot. -/
theorem bare_ofHandler {handler : Handler} (keyless : ∀ node ∈ handler.body, IsKeyless node)
    (facts : Facts) {context : Context} (blank : context.cached = []) :
    (Function.ofHandler handler facts context).bare = Function.ofHandler handler facts context := by
  have reads := reads_body keyless
  have silent : (Statement.body handler.body).reads = [] := by
    rw [List.eq_nil_iff_forall_not_mem]
    intro read member
    exact nomatch reads.reads read member
  simp only [Function.bare, Function.ofHandler, Stmt.bareAll_eq_self reads.holds, Emission.run,
    silent, Context.cacheAll, List.foldl_nil, blank]

theorem isKeyless_folded {script : Node} (keyless : IsKeyless script) :
    IsKeyless (Folding.revision.node script).value := by
  refine Revision.selectors_node (fun _ => rfl) rfl ?_ script keyless
  intro node root children
  change (Folding.fold node).value.Selectors _
  unfold Folding.fold
  split
  next =>
    split
    next => exact .of_children nofun (by simp [Node.children, Revised.replaced])
    next => exact .of_children root children
  next => exact .of_children root children

/-- What the first level makes of a script without keys: the code stays the same but for
the variables, and these are sound. -/
theorem optimized_basic {engine : Engine} (optimizer : Optimizer) (all : optimizer.passes = Pass.all)
    (facts : Facts) {script : Node} (keyless : IsKeyless script)
    (computes : Pass.constantFolding.name ∈ optimizer.disabled ∨ engine.Computes script) :
    ∃ keys, IsSound keys ∧ IsKeyed keys (optimizer.optimize facts .basic script).value.script ∧
      engine.SameCode script (optimizer.optimize facts .basic script).value.script := by
  rw [optimizer.script_optimize_basic all, Optimizer.scriptAfter_cons, Optimizer.scriptAfter_cons]
  set folded := if optimizer.includes facts .basic .constantFolding then
    (Pass.constantFolding.transform facts script).value else script with foldedEq
  have inFolded : IsKeyless folded ∧ engine.SameCode script folded := by
    rw [foldedEq]
    split
    next runs =>
      have computed : engine.Computes script := by
        refine computes.resolve_left fun disabled => ?_
        simp [Optimizer.includes, disabled] at runs
      exact ⟨isKeyless_folded keyless, Engine.sameCode_folded script computed⟩
    next => exact ⟨keyless, .refl _⟩
  obtain ⟨keyless', same⟩ := inFolded
  rw [Optimizer.scriptAfter, List.foldl_nil]
  split
  · exact ⟨_, isSound_keysFor facts, isKeyed_annotated _ folded keyless',
      same.trans (sameCode_annotated engine _ folded)⟩
  · exact ⟨[], isSound_nil, keyless', same⟩

/-- Functions that differ in no more than the code of equal effect. -/
theorem run_bare_congr {engine : Engine} {function function' : Function}
    (modifiers : function.modifiers = function'.modifiers) (facts : function.facts = function'.facts)
    (body : function.body.map engine.effect = function'.body.map engine.effect)
    (occurrence : engine.Value) :
    Engine.run function.bare occurrence = Engine.run function'.bare occurrence := by
  have performs (env : Env engine.Value) :
      Engine.perform function.bare occurrence env =
        Engine.perform function'.bare occurrence env := by
    simp only [Engine.perform, Function.bare, Engine.execAll_bareAll, modifiers, body]
  have sameFacts : function.bare.facts = function'.bare.facts := facts
  simp only [Engine.run_bare_eq, Engine.guarded, performs, sameFacts]

/-- What the compiler writes for a handler without keys, without optimization and at the
first level: but for the variables of selectors, the functions do the same. -/
theorem exists_functions (compiler : Compiler) (input : HandlerInput) (context : Context)
    {source : Handler} (event : input.node.handler? = some source) (keyless : IsKeyless input.node)
    (engine : Engine)
    (computes : Pass.constantFolding.name ∈ compiler.options.disabled ∨ engine.Computes input.node) :
    ∃ plain cached : Function,
      (compiler.withEffort .none).Writes input context plain ∧
      (compiler.withEffort .basic).Writes input context cached ∧
      cached.IsDeclared ∧
      ∀ occurrence : engine.Value,
        Engine.run plain occurrence = Engine.run cached.bare occurrence := by
  let facts := input.facts.getD (Facts.ofScript input.node)
  obtain ⟨keys, sound, keyed, same⟩ := optimized_basic (compiler.withEffort .basic).optimizer
    (by rw [Compiler.optimizer_eq]) facts keyless (by rw [Compiler.optimizer_eq]; exact computes)
  obtain ⟨handler, found, outlined⟩ := Option.map_eq_some_iff.mp
    (same.handler.symm.trans (congrArg (Option.map engine.outline) event))
  simp only [Engine.outline, Prod.mk.injEq] at outlined
  obtain ⟨-, sameModifiers, sameBody⟩ := outlined
  let started := context.setHandler compiler.nextId
  let plain := Function.ofHandler source facts started
  let cached := Function.ofHandler handler facts started
  have unoptimized : ((compiler.withEffort .none).optimizer.optimize facts .none
      input.node).value.script.handler? = some source := event
  have declared : cached.IsDeclared := isDeclared_ofHandler sound
    (fun node member => keyed.child (Node.mem_children_of_handler? found member)) facts rfl
  have plainBare : plain.bare = plain := bare_ofHandler
    (fun node member => keyless.child (Node.mem_children_of_handler? event member)) facts rfl
  have sameFacts : plain.facts = cached.facts := rfl
  refine ⟨plain, cached, Compiler.writes_of_handler? context event unoptimized,
    Compiler.writes_of_handler? context event found, declared, fun occurrence => ?_⟩
  rw [← plainBare]
  exact run_bare_congr sameModifiers.symm sameFacts sameBody.symm occurrence

end Hyperscript.Caching
