import Hyperscript.Code.Expression
import Hyperscript.Code.Listener

/-! Binding many handlers at once, each to the elements of a selector or to one
element. -/
namespace Hyperscript

inductive BindingTarget where
  | selector (selector : String)
  | element (expression : String)

structure Binding where
  target : BindingTarget
  event : String
  /-- The name of the handler function. -/
  handler : String
  modifiers : Modifiers := {}

namespace Binding

def statement (binding : Binding) : String :=
  let handler := Listener.reference binding.handler binding.modifiers
  match binding.target with
  | .selector selector =>
    Expression.query selector ++ ".forEach(el => " ++
      Listener.call "el" binding.event handler binding.modifiers ++ ");"
  | .element expression => Listener.call expression binding.event handler binding.modifiers ++ ";"

def statements (bindings : List Binding) : String := Text.joinLines (bindings.map statement)

/-- The runtime helpers that the statements call, added to those given. -/
def helpers (known : List String) (bindings : List Binding) : List String :=
  Ordered.insertAll known (bindings.flatMap (·.modifiers.helpers))

/-- The bindings, put off until the document is ready. -/
def initialization (bindings : List Binding) : String :=
  let opened := (Text.Sheet.empty.line (Names.member "ready" ++ "(() => \x7b")).indent
  ((opened.fragment (statements bindings)).dedent.line "\x7d);").finish

end Binding
end Hyperscript
