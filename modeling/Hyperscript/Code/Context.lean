import Hyperscript.Ordered

/-! State shared by the handlers of one generated module: the handler being
generated, the runtime helpers required so far, and the selectors that the
current handler reads through variables. -/
namespace Hyperscript

structure Context where
  handlerId : String
  helpers : List String := []
  /-- Variables and their selectors, by first use. -/
  cached : List (String × String) := []

namespace Context

/-- Require a helper; a second request changes nothing. -/
def require (context : Context) (helper : String) : Context :=
  { context with helpers := Ordered.insert context.helpers helper }

def requireAll (context : Context) (helpers : List String) : Context :=
  helpers.foldl require context

/-- Go on to another handler of the same module. -/
def setHandler (context : Context) (handlerId : String) : Context :=
  { context with handlerId, cached := [] }

/-- Read a selector through a variable. The first selector of a variable stays. -/
def cacheSelector (context : Context) (key selector : String) : Context :=
  if (context.cached.lookup key).isSome then context
  else { context with cached := context.cached ++ [(key, selector)] }

def cacheAll (context : Context) (reads : List (String × String)) : Context :=
  reads.foldl (fun context read => context.cacheSelector read.1 read.2) context

def clearCached (context : Context) : Context := { context with cached := [] }

theorem requireAll_eq (context : Context) (names : List String) :
    context.requireAll names =
      { context with helpers := Ordered.insertAll context.helpers names } := by
  induction names generalizing context with
  | nil => rfl
  | cons name rest ih => exact ih (context.require name)

@[simp] theorem helpers_cacheSelector (context : Context) (key selector : String) :
    (context.cacheSelector key selector).helpers = context.helpers := by
  unfold cacheSelector
  split <;> rfl

@[simp] theorem handlerId_cacheSelector (context : Context) (key selector : String) :
    (context.cacheSelector key selector).handlerId = context.handlerId := by
  unfold cacheSelector
  split <;> rfl

/-- Reading selectors changes what is cached and nothing else. -/
theorem cacheAll_eq (context : Context) (reads : List (String × String)) :
    context.cacheAll reads = { context with cached := (context.cacheAll reads).cached } := by
  induction reads generalizing context with
  | nil => rfl
  | cons read rest ih =>
    refine (ih (context.cacheSelector read.1 read.2)).trans ?_
    rw [helpers_cacheSelector, handlerId_cacheSelector]
    rfl

/-- Reading selectors has nothing to do with helpers. -/
theorem cached_cacheAll {context context' : Context} (same : context'.cached = context.cached)
    (reads : List (String × String)) :
    (context'.cacheAll reads).cached = (context.cacheAll reads).cached := by
  induction reads generalizing context context' with
  | nil => exact same
  | cons read rest ih =>
    refine @ih (context.cacheSelector read.1 read.2) (context'.cacheSelector read.1 read.2) ?_
    unfold cacheSelector
    rw [same]
    split
    · exact same
    · rfl

theorem cacheAll_append (context : Context) (reads others : List (String × String)) :
    context.cacheAll (reads ++ others) = (context.cacheAll reads).cacheAll others :=
  List.foldl_append

end Context
end Hyperscript
