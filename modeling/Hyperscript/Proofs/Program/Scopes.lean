import Hyperscript.Proofs.Program.Lowering
import Mathlib.Data.List.TakeWhile

/-! Variables of generated code and their declarations. A variable refers to the innermost
statement around it that declares its name. The head of a loop declares its variable for
the whole loop: for the body, and for the head itself. -/
namespace Hyperscript.Program

/-- A place where a variable is read or set, and the statements around it from the inside
out. What the forms of code bring along by themselves, such as `console`, is not counted. -/
structure Site where
  name : String
  scope : List Stmt

namespace Expr

def sites (scope : List Stmt) (expr : Expr) : List Site := expr.names.map ({ name := ·, scope })

end Expr

namespace Stmt

/-- The variable that a statement declares for all of its parts. -/
def declares : Stmt → Option String
  | .counted .. => some Names.indexVar
  | .each itemName .. => some (itemVariable itemName)
  | .wait _ => some "resolve"
  | _ => none

/-- The sites of the line that stores an item which code cannot name. -/
def itemSites (scope : List Stmt) (itemName : String) : List Site :=
  if Text.isIdentifier (Text.withoutColons itemName) then []
  else [{ name := Names.contextVar, scope }, { name := itemVariable itemName, scope }]

mutual

/-- The sites at all depths, in the order of the text. -/
def sites (scope : List Stmt) : Stmt → List Site
  | .throwSignal _ => []
  | .throwValue value => value.sites (.throwValue value :: scope)
  | .leave none => []
  | .leave (some value) => value.sites (.leave (some value) :: scope)
  | .log values => values.flatMap (Expr.sites (.log values :: scope))
  | .changeClass receiver method className =>
    receiver.sites (.changeClass receiver method className :: scope)
  | .changeClasses elements method className =>
    elements.sites (.changeClasses elements method className :: scope)
  | .setLocal name value =>
    let inside := .setLocal name value :: scope
    { name := Names.contextVar, scope := inside } :: value.sites inside
  | .setIndex value =>
    let inside := .setIndex value :: scope
    { name := Names.indexVar, scope := inside } :: value.sites inside
  | .wait delay => delay.sites (.wait delay :: scope)
  | .branch condition thenBranch none =>
    let inside := .branch condition thenBranch none :: scope
    condition.sites inside ++ sitesAll inside thenBranch
  | .branch condition thenBranch (some elseBranch) =>
    let inside := .branch condition thenBranch (some elseBranch) :: scope
    condition.sites inside ++ sitesAll inside thenBranch ++ sitesAll inside elseBranch
  | .forever body => sitesAll (.forever body :: scope) body
  | .counted count body =>
    let inside := .counted count body :: scope
    count.sites inside ++ sitesAll inside body
  | .each itemName collection body =>
    let inside := .each itemName collection body :: scope
    collection.sites inside ++ itemSites inside itemName ++ sitesAll inside body
  | .whileLoop condition body =>
    let inside := .whileLoop condition body :: scope
    condition.sites inside ++ sitesAll inside body
  | .group statements => sitesAll (.group statements :: scope) statements

def sitesAll (scope : List Stmt) : List Stmt → List Site
  | [] => []
  | statement :: rest => sites scope statement ++ sitesAll scope rest

end

theorem sitesAll_append (scope : List Stmt) (first second : List Stmt) :
    sitesAll scope (first ++ second) = sitesAll scope first ++ sitesAll scope second := by
  induction first with
  | nil => rfl
  | cons statement rest ih => simp only [List.cons_append, sitesAll, ih, List.append_assoc]

end Stmt

namespace Site

/-- The statement whose head declares the variable, behind it the statements around that
one; nothing if no statement around the site declares it. -/
def binding (site : Site) : List Stmt :=
  site.scope.dropWhile fun statement => statement.declares != some site.name

/-- A variable refers to a statement around it if that one declares it and none nearer does. -/
theorem binding_eq_iff {name : String} {inner outer : List Stmt} {statement : Stmt} :
    ({ name, scope := inner ++ statement :: outer } : Site).binding = statement :: outer ↔
      statement.declares = some name ∧ ∀ nearer ∈ inner, nearer.declares ≠ some name := by
  rw [binding, List.dropWhile_append]
  by_cases silent : ∀ nearer ∈ inner, nearer.declares ≠ some name
  · have passed : inner.dropWhile (fun nearer => nearer.declares != some name) = [] := by
      simpa [List.dropWhile_eq_nil_iff] using silent
    by_cases declares : statement.declares = some name
    · simp only [passed, List.isEmpty_nil, if_true, List.dropWhile_cons, declares,
        bne_self_eq_false, Bool.false_eq_true, if_false, true_and, true_iff]
      exact silent
    · -- The statement itself is passed over, so what is left is shorter.
      have shorter := List.length_dropWhile_le
        (p := fun nearer : Stmt => nearer.declares != some name) outer
      have different : outer.dropWhile (fun nearer => nearer.declares != some name) ≠
          statement :: outer := by
        intro same
        rw [same, List.length_cons] at shorter
        omega
      simp [passed, declares, different]
  · have stopped : inner.dropWhile (fun nearer => nearer.declares != some name) ≠ [] := by
      simpa [List.dropWhile_eq_nil_iff] using silent
    simp [stopped, silent]

end Site

/-- The variable that the code of a node declares for all of its parts. -/
def declaredName? : Node → Option String
  | .repeatTimes (some _) _ => some Names.indexVar
  | .forEach itemName .. => some (Stmt.itemVariable itemName)
  | .command "wait" .. => some "resolve"
  | _ => none

theorem declares_ofNode? {node : Node} {statement : Stmt}
    (code : Stmt.ofNode? node = some statement) : statement.declares = declaredName? node := by
  cases node with
  | command name args target =>
    cases Stmt.commandCode_ofCommand? code with
    | changeOwnClass known | changeClasses known | changeClass known =>
      simp only [List.mem_cons, List.not_mem_nil, or_false] at known
      rcases known with rfl | rfl | rfl <;> rfl
    | _ => rfl
  | ifElse condition thenBranch elseBranch =>
    cases elseBranch <;>
    · obtain ⟨_, _, code⟩ := Option.bind_eq_some_iff.mp code
      cases code
      rfl
  | repeatTimes count body =>
    cases count with
    | none =>
      cases code
      rfl
    | some count =>
      obtain ⟨_, _, code⟩ := Option.bind_eq_some_iff.mp code
      cases code
      rfl
  | forEach | whileLoop =>
    obtain ⟨_, _, code⟩ := Option.bind_eq_some_iff.mp code
    cases code
    rfl
  | sequence =>
    cases code
    rfl
  | _ => cases code

end Hyperscript.Program
