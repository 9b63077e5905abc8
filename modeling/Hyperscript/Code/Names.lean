/-! Names that generated code uses for its runtime support and for itself. -/
namespace Hyperscript.Names

/-- The helper that sets up a handler's context; every handler calls it. -/
def createContext : String := "createContext"

/-- The variable that holds the context. -/
def contextVar : String := "_ctx"

def eventParam : String := "_event"

/-- The element that a handler is bound to. -/
def element : String := "_el"

/-- The counter of a repetition. -/
def indexVar : String := "_index"

/-- A member of the runtime. -/
def member (name : String) : String := "_rt." ++ name

def functionName (handlerId : String) : String := "_handler_" ++ handlerId

end Hyperscript.Names
