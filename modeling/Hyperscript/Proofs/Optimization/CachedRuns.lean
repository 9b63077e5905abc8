import Hyperscript.Proofs.Optimization.Caching
import Hyperscript.Proofs.Program.Page

/-! Selector caching and behaviour. A cached selector is asked for when the handler
starts, whatever the handler does to classes afterwards; so it is safe exactly where every
later use would still find the same elements, and not in general. -/
namespace Hyperscript.Caching

open Program

/-- The handler that is compiled at the first level behaves like the one that is compiled
without optimization exactly if, in every run of the latter, every use of a hoisted
selector finds what the selector stood for at the start. It takes for granted that the
script does not spell the variables of selectors, that the hoisted texts are selectors,
and that the engine computes what the compiler has folded. -/
theorem cached_outcomes_iff (compiler : Compiler) (input : HandlerInput) (context : Context)
    {source : Handler} (event : input.node.handler? = some source) (keyless : IsKeyless input.node)
    (engine : Engine)
    (computes : Pass.constantFolding.name ∈ compiler.options.disabled ∨ engine.Computes input.node) :
    ∃ plain cached : Function,
      (compiler.withEffort .none).Writes input context plain ∧
      (compiler.withEffort .basic).Writes input context cached ∧
      (cached.IsFree → (∀ selector ∈ cached.hoisted, engine.isSelector selector) →
        ∀ (occurrence : engine.Value) (document : Document engine.Element) (world : engine.World),
          (∀ completion final,
            Engine.run cached occurrence (engine.starting document world) completion final ↔
              Engine.run plain occurrence (engine.starting document world) completion final) ↔
          ∀ completion final,
            Engine.run plain occurrence (engine.starting document world) completion final →
              Engine.Steady (Engine.entryOn document cached.hoisted) final) := by
  obtain ⟨plain, cached, writesPlain, writesCached, declared, alike⟩ :=
    exists_functions compiler input context event keyless engine computes
  refine ⟨plain, cached, writesPlain, writesCached, ?_⟩
  intro free valid occurrence document world
  rw [alike]
  exact Engine.run_same_iff declared free
    (fun declaration member => valid _ (List.mem_map_of_mem member)) occurrence document world

/-- In particular a handler is safe whose class changes leave its hoisted selectors alone. -/
theorem unaffected_outcomes (compiler : Compiler) (input : HandlerInput) (context : Context)
    {source : Handler} (event : input.node.handler? = some source) (keyless : IsKeyless input.node)
    (engine : Engine)
    (computes : Pass.constantFolding.name ∈ compiler.options.disabled ∨ engine.Computes input.node) :
    ∃ plain cached : Function,
      (compiler.withEffort .none).Writes input context plain ∧
      (compiler.withEffort .basic).Writes input context cached ∧
      (cached.IsFree → (∀ selector ∈ cached.hoisted, engine.isSelector selector) →
        (∀ className, .change className ∈ Stmt.partsAll cached.body →
          ∀ selector ∈ cached.hoisted, engine.Unaffected selector className) →
        ∀ (occurrence : engine.Value) (document : Document engine.Element) (world : engine.World)
          completion final,
          Engine.run cached occurrence (engine.starting document world) completion final ↔
            Engine.run plain occurrence (engine.starting document world) completion final) := by
  obtain ⟨plain, cached, writesPlain, writesCached, declared, alike⟩ :=
    exists_functions compiler input context event keyless engine computes
  refine ⟨plain, cached, writesPlain, writesCached, ?_⟩
  intro free valid unaffected occurrence document world
  rw [alike]
  have same_iff := Engine.run_same_iff declared free
    (fun declaration member => valid _ (List.mem_map_of_mem member)) occurrence document world
  refine same_iff.mpr ?_
  intro completion final ran
  exact Engine.run_steady unaffected occurrence document world ran

/-- Two uses of a selector of which neither changes what it stands for. -/
def addTwice : HandlerInput where
  node := .event "click" {}
    [.command "add" [.selector ".b" none] (some (.selector ".a" none)),
      .command "add" [.selector ".c" none] (some (.selector ".a" none))]

def addTwiceCached : Function where
  handlerId := "h1"
  modifiers := {}
  declarations := [("_sel__a", ".a")]
  facts := Facts.ofScript addTwice.node
  body :=
    [.changeClasses (.elements ".a" (some "_sel__a")) "add" "b",
      .changeClasses (.elements ".a" (some "_sel__a")) "add" "c"]

theorem cached_outcomes_addTwice : ∃ plain cached,
    (({} : Compiler).withEffort .none).Writes addTwice { handlerId := "h" } plain ∧
    (({} : Compiler).withEffort .basic).Writes addTwice { handlerId := "h" } cached ∧
    cached.hoisted = [".a"] ∧
    ∀ document completion final,
      Engine.run cached PageValue.nothing (page.starting document ()) completion final ↔
        Engine.run plain PageValue.nothing (page.starting document ()) completion final := by
  have keyless : IsKeyless addTwice.node := by
    intro value cacheKey member
    simp [addTwice, Node.subtree, Node.subtrees, Node.subtree?] at member
    rcases member with ⟨_, unkeyed⟩ | ⟨_, unkeyed⟩ | ⟨_, unkeyed⟩ | ⟨_, unkeyed⟩ <;> exact unkeyed
  have computes : page.Computes addTwice.node := by
    simp [Engine.Computes, addTwice, Node.subtree, Node.subtrees, Node.subtree?]
  obtain ⟨plain, cached, writesPlain, writesCached, same_iff⟩ :=
    cached_outcomes_iff {} addTwice { handlerId := "h" } rfl keyless page (.inr computes)
  cases Option.some.inj (writesCached.tree.symm.trans (rfl : _ = some addTwiceCached))
  cases Option.some.inj (writesPlain.tree.symm.trans (rfl : _ = some addTwiceCached.bare))
  refine ⟨_, _, writesPlain, writesCached, rfl, fun document => ?_⟩
  refine (same_iff (by decide) (by decide) PageValue.nothing document ()).mpr ?_
  intro completion final ran
  refine Engine.run_steady ?_ PageValue.nothing document () ran
  intro className changed selector hoisted
  have other : className ≠ "a" := by
    rintro rfl
    simp [addTwiceCached, Stmt.partsAll, Stmt.parts] at changed
  have same : selector = "." ++ "a" := by simpa [Function.hoisted, addTwiceCached] using hoisted
  exact same ▸ Engine.unaffected_class (by decide) other

/-- Both commands use the selector, and the first changes what it stands for. -/
def removeThenAdd : HandlerInput where
  node := .event "click" {}
    [.command "remove" [.selector ".a" none] (some (.selector ".a" none)),
      .command "add" [.selector ".b" none] (some (.selector ".a" none))]

def removeThenAddCached : Function where
  handlerId := "h1"
  modifiers := {}
  declarations := [("_sel__a", ".a")]
  facts := Facts.ofScript removeThenAdd.node
  body :=
    [.changeClasses (.elements ".a" (some "_sel__a")) "remove" "a",
      .changeClasses (.elements ".a" (some "_sel__a")) "add" "b"]

def button : page.Element := (0 : Nat)

/-- A page with one element that has the class. -/
def buttonPage : Document page.Element where
  elements := [button]
  hasClass _ name := name == "a"

/-- Caching is not safe in general: without it the second command finds no element, with
it the one that has lost the class. -/
theorem stale_removeThenAdd :
    IsKeyless removeThenAdd.node ∧
    (({} : Compiler).withEffort .none).Writes removeThenAdd { handlerId := "h" }
      removeThenAddCached.bare ∧
    (({} : Compiler).withEffort .basic).Writes removeThenAdd { handlerId := "h" }
      removeThenAddCached ∧
    (∃ final, Engine.run removeThenAddCached PageValue.nothing (page.starting buttonPage ())
        (.normal ()) final ∧
      final.changes = [⟨button, "remove", "a"⟩, ⟨button, "add", "b"⟩] ∧
      final.document.hasClass button "b") ∧
    (∃ final, Engine.run removeThenAddCached.bare PageValue.nothing (page.starting buttonPage ())
      (.normal ()) final) ∧
    ∀ final, Engine.run removeThenAddCached.bare PageValue.nothing (page.starting buttonPage ())
        (.normal ()) final →
      final.changes = [⟨button, "remove", "a"⟩] ∧ ¬ final.document.hasClass button "b" := by
  have keyless : IsKeyless removeThenAdd.node := by
    intro value cacheKey member
    simp [removeThenAdd, Node.subtree, Node.subtrees, Node.subtree?] at member
    rcases member with ⟨_, unkeyed⟩ | ⟨_, unkeyed⟩ | ⟨_, unkeyed⟩ <;> exact unkeyed
  let held : Env page.Value := Engine.parameters PageValue.nothing PageValue.nothing ++
    [("_sel__a", .constant (.elements [button]))]
  let removed :=
    ((page.starting buttonPage ()).noting ".a" (.elements [button])).changing button "remove" "a"
  have cached (state : page.State) : Engine.Found held state ".a" (some "_sel__a") [button] := rfl
  have first (env : Env page.Value) :
      Engine.Found env (page.starting buttonPage ()) ".a" none [button] := ⟨rfl, rfl⟩
  have second (env : Env page.Value) : Engine.Found env removed ".a" none [] := ⟨rfl, rfl⟩
  have ends (final : page.State) :
      Engine.run removeThenAddCached.bare PageValue.nothing (page.starting buttonPage ())
        (.normal ()) final ↔ final = removed.noting ".a" (.elements []) :=
    (Engine.run_calm_iff rfl rfl (by decide) rfl).trans <|
      (Engine.execAll_changeClasses_iff (by decide) (first _)).trans <|
      (Engine.execAll_changeClasses_iff (by decide) (second _)).trans Engine.execAll_nil_iff
  refine ⟨keyless, Compiler.writes_of_function? rfl, Compiler.writes_of_function? rfl, ?_,
    ⟨_, (ends _).mpr rfl⟩, ?_⟩
  · exact ⟨_, (Engine.run_calm_iff rfl rfl (by decide) rfl).mpr <|
      (Engine.execAll_changeClasses_iff (by decide) (cached _)).mpr <|
      (Engine.execAll_changeClasses_iff (by decide) (cached _)).mpr <|
      Engine.execAll_nil_iff.mpr rfl, rfl, rfl⟩
  · intro final ran
    cases (ends final).mp ran
    exact ⟨rfl, Bool.false_ne_true⟩

end Hyperscript.Caching
