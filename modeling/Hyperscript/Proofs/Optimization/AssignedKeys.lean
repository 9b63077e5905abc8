import Hyperscript.Proofs.Optimization.Caching
import Hyperscript.Proofs.Optimization.Invariants
import Hyperscript.Proofs.Program.FunctionRows

/-! The variables in optimized scripts. Whatever passes run, a selector keeps the key that it came
with or takes the one that the facts assign to it. An assigned key is an identifier. So where the
keys of a script are identifiers, as the name of the function is, all that the compiler writes is
spelled as the rows of generated code ask. -/
namespace Hyperscript

open Text Program

namespace Caching

/-- Every key in the script is the one that the facts assign to the selector. -/
def IsAssigned (facts : Facts) (script : Node) : Prop :=
  script.Selectors fun selector cacheKey =>
    ∀ key ∈ cacheKey, (keysFor facts).value.lookup selector = some key

theorem isIdentifier_of_lookup_keysFor {facts : Facts} {selector key : String}
    (found : (keysFor facts).value.lookup selector = some key) : isIdentifier key = true := by
  have made : key = cacheKey selector := (isSound_keysFor facts).named _ (mem_of_lookup found)
  rw [made]
  exact isIdentifier_cacheKey selector

theorem IsAssigned.namesKeys {facts : Facts} {script : Node} (assigned : IsAssigned facts script) :
    Expr.NamesKeys script := by
  intro selector found inside key member
  exact isIdentifier_of_lookup_keysFor (assigned selector found inside key member)

theorem IsKeyless.namesKeys {script : Node} (keyless : IsKeyless script) :
    Expr.NamesKeys script := by
  intro selector found inside key member
  rw [keyless selector found inside] at member
  cases member

/-- What holds of the selectors of a script and of all keys that the facts assign is kept by any
passes. -/
theorem selectors_optimize (optimizer : Optimizer) (facts : Facts) (effort : Effort)
    {p : String → Option String → Prop}
    (assigned : ∀ selector key, (keysFor facts).value.lookup selector = some key →
      p selector (some key))
    {script : Node} (all : script.Selectors p) :
    (optimizer.optimize facts effort script).value.script.Selectors p := by
  rw [Node.selectors_iff_everywhere] at all ⊢
  refine optimizer.everywhere_optimize ?_ effort all
  constructor
  · rintro node node' same holds value cacheKey rfl
    exact holds value cacheKey same.selector
  · exact nofun
  · exact nofun
  · rintro value key found _ _ ⟨⟩
    exact assigned value key found

theorem isAssigned_optimize (optimizer : Optimizer) (facts : Facts) (effort : Effort)
    {script : Node} (keyless : IsKeyless script) :
    IsAssigned facts (optimizer.optimize facts effort script).value.script := by
  refine selectors_optimize optimizer facts effort ?_ ?_
  · intro selector key found other member
    cases member
    exact found
  · intro selector found inside key member
    rw [keyless selector found inside] at member
    cases member

/-- The statements of an optimized handler are of the optimized script. -/
theorem isAssigned_body {optimizer : Optimizer} {facts : Facts} {effort : Effort} {script : Node}
    {handler : Handler} (keyless : IsKeyless script)
    (found : (optimizer.optimize facts effort script).value.script.handler? = some handler) :
    ∀ node ∈ handler.body, IsAssigned facts node := by
  intro node member
  exact (isAssigned_optimize optimizer facts effort keyless).child
    (Node.mem_children_of_handler? found member)

theorem namesKeys_optimize (optimizer : Optimizer) (facts : Facts) (effort : Effort)
    {script : Node} (named : Expr.NamesKeys script) :
    Expr.NamesKeys (optimizer.optimize facts effort script).value.script := by
  refine selectors_optimize optimizer facts effort ?_ named
  intro selector key found other member
  cases member
  exact isIdentifier_of_lookup_keysFor found

end Caching

namespace Compiler

open Caching

/-- The name of a function has the characters of its prefix and then digits. -/
theorem isIdentifier_functionName (compiler : Compiler)
    (stem : ∀ c ∈ compiler.options.idStem.toList, isIdentifierRest c = true) :
    isIdentifier (Names.functionName compiler.nextId) = true := by
  have digits : ∀ c ∈ (toString (compiler.issued + 1)).toList, isIdentifierRest c = true := by
    intro c member
    rw [Nat.toString_eq_ofList_toDigits, String.toList_ofList] at member
    have digit := Nat.isDigit_of_mem_toDigits (by decide) (by decide) member
    simp [isIdentifierRest, Char.isAlphanum, digit]
  have characters : (Names.functionName compiler.nextId).toList =
      '_' :: (['h', 'a', 'n', 'd', 'l', 'e', 'r', '_'] ++
        (compiler.options.idStem.toList ++ (toString (compiler.issued + 1)).toList)) := by
    simp [Names.functionName, nextId, String.toList_append]
  rw [← (Names.functionName compiler.nextId).ofList_toList]
  refine isIdentifier_underscore characters (List.forall_mem_append.mpr ⟨?_, ?_⟩)
  · exact List.all_eq_true.mp (by decide)
  · exact List.forall_mem_append.mpr ⟨stem, digits⟩

/-- The compiler writes a function for every handler, and where the names that it is handed are
identifiers its code is spelled with identifiers. -/
theorem exists_spelled (compiler : Compiler) (input : HandlerInput) (context : Context)
    {source : Handler} (event : input.node.handler? = some source)
    (keys : Expr.NamesKeys input.node)
    (name : isIdentifier (Names.functionName compiler.nextId) = true) :
    ∃ handler,
      (compiler.optimizer.optimize (input.facts.getD (Facts.ofScript input.node))
        compiler.options.effort input.node).value.script.handler? = some handler ∧
      (Function.ofHandler handler (input.facts.getD (Facts.ofScript input.node))
        (context.setHandler compiler.nextId)).IsSpelled := by
  set facts := input.facts.getD (Facts.ofScript input.node)
  obtain ⟨body, found⟩ :=
    compiler.optimizer.handler?_optimize facts compiler.options.effort event
  have named : ∀ node ∈ body, Expr.NamesKeys node := fun node member =>
    (namesKeys_optimize compiler.optimizer facts compiler.options.effort keys).child
      (Node.mem_children_of_handler? found member)
  refine ⟨_, found, name, ?_, ?_⟩
  · intro declaration member
    have read := (mem_cacheAll member).resolve_left List.not_mem_nil
    exact (reads_body named).reads declaration read declaration.1 rfl
  · exact Stmt.areSpelled_ofNodes fun node member _ code =>
      Stmt.isSpelled_ofNode? node (named node member) code

/-- The function of such a handler is the one with these properties. -/
theorem isSpelled_of_function? {compiler : Compiler} {input : HandlerInput} {context : Context}
    {function : Function} (tree : compiler.function? input context = some function)
    (keys : Expr.NamesKeys input.node)
    (name : isIdentifier (Names.functionName compiler.nextId) = true) :
    function.IsSpelled := by
  obtain ⟨source, event, _⟩ := Option.bind_eq_some_iff.mp tree
  obtain ⟨handler, found, spelled⟩ := compiler.exists_spelled input context event keys name
  have writes := compiler.writes_of_handler? context event found
  cases Option.some.inj (tree.symm.trans writes.tree)
  exact spelled

end Compiler
end Hyperscript
