import Hyperscript.Analysis.Facts
import Hyperscript.Code.Generation
import Hyperscript.Code.Listener

/-! A handler as code: its function, the statement that binds it, the statement
that unbinds it, and the runtime helpers that it imports. -/
namespace Hyperscript

structure GeneratedHandler where
  handlerCode : String
  bindingCode : String
  cleanup : Option String
  isAsync : Bool
  imports : List String

namespace GeneratedHandler

def declaration (cached : String × String) : String :=
  "const " ++ cached.1 ++ " = " ++ Expression.query cached.2 ++ ";"

/-- The lines that turn the halting signals into the end of the handler. -/
def catchLines : List String :=
  ["if (_err === " ++ Names.member "HALT" ++ ") \x7b",
    "  " ++ Names.eventParam ++ ".preventDefault();",
    "  return;",
    "\x7d",
    "if (_err === " ++ Names.member "EXIT" ++ ") \x7b",
    "  return;",
    "\x7d",
    "throw _err;"]

/-- What a handler does, after the calls that its modifiers ask for. -/
def writeBody (sheet : Text.Sheet) (modifiers : Modifiers) (body : String) : Text.Sheet :=
  let sheet :=
    if modifiers.prevent then sheet.line (Names.eventParam ++ ".preventDefault();") else sheet
  let sheet :=
    if modifiers.stop then sheet.line (Names.eventParam ++ ".stopPropagation();") else sheet
  sheet.fragment body

/-- The function of a handler. A body that can throw is guarded. -/
def functionCode (handlerId : String) (modifiers : Modifiers) (cached : List (String × String))
    (body : String) (facts : Facts) : String :=
  let opening := (if facts.hasAsync then "async " else "") ++ "function " ++
    Names.functionName handlerId ++ "(" ++ Names.eventParam ++ ") \x7b"
  let setup := "const " ++ Names.contextVar ++ " = " ++ Names.member Names.createContext ++
    "(" ++ Names.eventParam ++ ", this);"
  let sheet := ((Text.Sheet.empty.line opening).indent).line setup
  let sheet := (cached.map declaration).foldl Text.Sheet.line sheet
  let sheet :=
    if facts.canThrow then
      let sheet := writeBody (sheet.line "try \x7b").indent modifiers body
      let sheet := (sheet.dedent.line "\x7d catch (_err) \x7b").indent
      (catchLines.foldl Text.Sheet.line sheet).dedent.line "\x7d"
    else writeBody sheet modifiers body
  (sheet.dedent.line "\x7d").finish

/-- What a handler imports: context creation, the helpers required so far, then
those that its facts name. -/
def importsOf (context : Context) (facts : Facts) : List String :=
  Ordered.insertAll (Ordered.insertAll [Names.createContext] context.helpers) facts.helpers

/-- Require the helpers of a binding, and write it for the current handler. -/
def bind (context : Context) (event : String) (modifiers : Modifiers) : String × Context :=
  (Listener.binding context.handlerId event modifiers, context.requireAll modifiers.helpers)

/-- Generate a handler for the current handler id. The selectors cached so far are
declared in it and then forgotten. -/
def generate (handler : Handler) (facts : Facts) (context : Context) :
    GeneratedHandler × Context × List Note :=
  let written := Generation.body handler.body { context }
  let cached := written.2.context.cached
  let (bindingCode, context) := bind written.2.context.clearCached handler.event handler.modifiers
  let imports := importsOf context facts
  let generated :=
    { handlerCode := functionCode context.handlerId handler.modifiers cached written.1 facts
      bindingCode
      cleanup := Listener.cleanup? context.handlerId handler.event handler.modifiers
      isAsync := facts.hasAsync
      imports }
  let note := .handlerGenerated context.handlerId handler.event facts.hasAsync imports.length
  (generated, context, written.2.notes ++ [note])

end GeneratedHandler
end Hyperscript
