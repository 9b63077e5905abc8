import Hyperscript.Compile.Input
import Hyperscript.Compile.Options
import Hyperscript.Code.Binding
import Hyperscript.Code.Handler

/-! The compiler: facts, optimization and code for one handler after the other.
Handler ids are handed out once; a handler that is no event node takes none and
leaves no trace. Commands and control statements are those of `Statement`; a compiler
that is handed another generator in their place is outside this library. -/
namespace Hyperscript

structure CompiledHandler where
  handlerId : String
  event : String
  applied : List Pass
  selector : Option String
  modifiers : Modifiers
  generated : GeneratedHandler

structure CompiledModule where
  handlers : List CompiledHandler
  /-- What any handler imports, by first occurrence. -/
  imports : List String

inductive CompileError where
  | notEvent (kind : Kind)
  | rootReplaced
  | inHandler (index : Nat) (error : CompileError)

def CompileError.message : CompileError → String
  | .notEvent kind =>
    "expected an `event` node at the top level, found `" ++ kind.name ++ "`"
  | .rootReplaced => "optimizer replaced the event node"
  | .inHandler index error => "handler #" ++ toString index ++ ": " ++ error.message

structure Span where
  event : String
  handlerId : String

/-- A note and where it was made. -/
structure Remark where
  note : Note
  span : Option Span := none

def GeneratedHandler.members (generated : GeneratedHandler) : List (String × Json) :=
  [("handlerCode", .string generated.handlerCode),
    ("bindingCode", .string generated.bindingCode),
    ("cleanup", (generated.cleanup.map Json.string).getD .null),
    ("async", .bool generated.isAsync),
    ("imports", .array (generated.imports.map .string))]

namespace CompiledHandler

def functionName (handler : CompiledHandler) : String := Names.functionName handler.handlerId

/-- The record of a handler. Its modifiers are not part of it. -/
def encode (handler : CompiledHandler) : Json :=
  .object <|
    [("handlerId", .string handler.handlerId),
      ("event", .string handler.event),
      ("optimizations", .array (handler.applied.map fun pass => .string pass.name))] ++
    Json.optionalMember "selector" (handler.selector.map Json.string) ++
    handler.generated.members

/-- The binding of a handler that comes with a selector. -/
def binding? (handler : CompiledHandler) : Option Binding :=
  handler.selector.map fun selector =>
    { target := .selector selector
      event := handler.event
      handler := handler.functionName
      modifiers := handler.modifiers }

end CompiledHandler

namespace CompiledModule

/-- Code that binds the handlers with selectors, if there are any. -/
def initialization? (compiled : CompiledModule) : Option String :=
  match compiled.handlers.filterMap (·.binding?) with
  | [] => none
  | bindings => some (Binding.initialization bindings)

/-- The handler functions, then the initialization. -/
def javascript (compiled : CompiledModule) : String :=
  let functions := compiled.handlers.map (·.generated.handlerCode)
  Text.join "\n\n" (functions ++ compiled.initialization?.toList) ++ "\n"

end CompiledModule

/-- A compiler and the number of handler ids it has handed out. -/
structure Compiler where
  options : Options := {}
  issued : Nat := 0

namespace Compiler

def optimizer (compiler : Compiler) : Optimizer :=
  compiler.options.disabled.foldl Optimizer.disable {}

/-- Remarks about the options: disabled passes that do not exist. -/
def optionNotes (options : Options) : List Note :=
  (options.disabled.filter fun name => !(Pass.all.map Pass.name).contains name).map
    .unknownPassDisabled

def nextId (compiler : Compiler) : String :=
  compiler.options.idStem ++ toString (compiler.issued + 1)

structure Step where
  handler : CompiledHandler
  compiler : Compiler
  context : Context
  remarks : List Remark

def compileHandler (compiler : Compiler) (input : HandlerInput) (context : Context) :
    Except CompileError Step :=
  match input.node.handler? with
  | none => .error (.notEvent input.node.kind)
  | some source =>
    let handlerId := compiler.nextId
    let facts := input.facts.getD (Facts.ofScript input.node)
    let optimized := compiler.optimizer.optimize facts compiler.options.effort input.node
    match optimized.value.script.handler? with
    | none => .error .rootReplaced
    | some handler =>
      let (generated, context, emitted) :=
        GeneratedHandler.generate handler facts (context.setHandler handlerId)
      let derived := if input.facts.isSome then [] else [facts.note]
      let span : Span := { event := source.event, handlerId }
      let notes := derived ++ optimized.notes ++ emitted
      .ok
        { handler :=
            { handlerId
              event := handler.event
              applied := optimized.value.applied
              selector := input.selector
              modifiers := handler.modifiers
              generated }
          compiler := { compiler with issued := compiler.issued + 1 }
          context
          remarks := notes.map ({ note := ·, span := some span }) }

structure Progress where
  compiler : Compiler
  context : Context
  handlers : List CompiledHandler := []
  remarks : List Remark := []

/-- The handlers of a module one after the other, up to the first that fails. -/
def compileAll (progress : Progress) : List HandlerInput → Progress × Option CompileError
  | [] => (progress, none)
  | input :: inputs =>
    match progress.compiler.compileHandler input progress.context with
    | .error error => (progress, some (.inHandler progress.handlers.length error))
    | .ok step =>
      compileAll
        { compiler := step.compiler
          context := step.context
          handlers := progress.handlers ++ [step.handler]
          remarks := progress.remarks ++ step.remarks }
        inputs

/-- The outcome of compiling a module, with the compiler after it. -/
structure ModuleRun where
  compiler : Compiler
  result : Except CompileError CompiledModule
  remarks : List Remark

/-- Compile the handlers of a module into one fresh context. -/
def compileModule (compiler : Compiler) (input : ModuleInput) : ModuleRun :=
  let start := { compiler, context := { handlerId := compiler.options.idStem } }
  match compileAll start input with
  | (progress, some error) =>
    { compiler := progress.compiler, result := .error error, remarks := progress.remarks }
  | (progress, none) =>
    let imports := Ordered.ofList (progress.handlers.flatMap (·.generated.imports))
    let note := .moduleCompiled progress.handlers.length imports.length
    { compiler := progress.compiler
      result := .ok { handlers := progress.handlers, imports }
      remarks := progress.remarks ++ [{ note }] }

end Compiler
end Hyperscript
