/-! What the compiler remarks about its own work. A note is a fact; its level,
its origin and its wording are functions of it. -/
namespace Hyperscript

/-- Severity, the gravest first. -/
inductive Level where
  | error
  | warn
  | info
  | debug
  | trace
deriving DecidableEq

namespace Level

/-- How much is shown: each level shows itself and all graver ones. -/
def verbosity : Level → Nat
  | .error => 1
  | .warn => 2
  | .info => 3
  | .debug => 4
  | .trace => 5

def name : Level → String
  | .error => "ERROR"
  | .warn => "WARN"
  | .info => "INFO"
  | .debug => "DEBUG"
  | .trace => "TRACE"

def all : List Level := [.error, .warn, .info, .debug, .trace]

end Level

inductive Note where
  | analysisDerived (hasAsync canThrow hasLoops : Bool) (pure selectors : Nat)
  | passDisabled (pass : String)
  | passNotNeeded (pass : String)
  | passRan (pass : String) (changed : Bool)
  | leftUnfolded (operator : String)
  | keyCollision (selector key owner : String)
  | truncated (dropped : Nat)
  | countOutOfRange (count : Float)
  | bodyTooLarge (statements : Nat)
  | bodyReadsIndex
  | commandWithoutOutput (command : String)
  | nodeSkipped (kind : String)
  | handlerGenerated (handlerId event : String) (isAsync : Bool) (imports : Nat)
  | unknownPassDisabled (pass : String)
  | moduleCompiled (handlers imports : Nat)

/-- A value attached to a note. -/
inductive Note.Value where
  | text (value : String)
  | number (value : Float)

namespace Note

def flagValue (value : Bool) : Value := .text (if value then "true" else "false")

def countValue (value : Nat) : Value := .text (toString value)

def level : Note → Level
  | .analysisDerived .. | .passRan .. | .keyCollision .. | .handlerGenerated .. => .debug
  | .unknownPassDisabled .. => .warn
  | .moduleCompiled .. => .info
  | _ => .trace

/-- The part of the compiler that the note comes from. -/
def origin : Note → String
  | .analysisDerived .. => "hfx_ast::analysis"
  | .passDisabled .. | .passNotNeeded .. | .passRan .. => "hfx_optimizer::pipeline"
  | .leftUnfolded .. => "hfx_optimizer::passes::constant_folding"
  | .keyCollision .. => "hfx_optimizer::passes::selector_caching"
  | .truncated .. => "hfx_optimizer::passes::dead_code"
  | .countOutOfRange .. | .bodyTooLarge .. | .bodyReadsIndex =>
    "hfx_optimizer::passes::loop_unrolling"
  | .commandWithoutOutput .. | .nodeSkipped .. | .handlerGenerated .. => "hfx_emitter::handler"
  | .unknownPassDisabled .. | .moduleCompiled .. => "hyperfixi_aot::compiler"

def message : Note → String
  | .analysisDerived .. => "[analysis] derived"
  | .passDisabled .. => "[optimizer] disabled by configuration"
  | .passNotNeeded .. => "[optimizer] precondition not met"
  | .passRan .. => "[optimizer] pass ran"
  | .leftUnfolded .. => "[constant-folding] left unfolded"
  | .keyCollision .. => "[selector-caching] key collision, leaving selector uncached"
  | .truncated .. => "[dead-code-elimination] truncated after terminator"
  | .countOutOfRange .. => "[loop-unrolling] count out of range"
  | .bodyTooLarge .. => "[loop-unrolling] body too large"
  | .bodyReadsIndex => "[loop-unrolling] body reads the loop index"
  | .commandWithoutOutput .. => "[codegen] no output for command"
  | .nodeSkipped .. => "[codegen] skipping node"
  | .handlerGenerated .. => "[codegen] handler generated"
  | .unknownPassDisabled .. => "[compiler] disabling unknown pass"
  | .moduleCompiled .. => "[compiler] module compiled"

def details : Note → List (String × Value)
  | .analysisDerived hasAsync canThrow hasLoops pure selectors =>
    [("has_async", flagValue hasAsync), ("can_throw", flagValue canThrow),
      ("has_loops", flagValue hasLoops), ("pure", countValue pure),
      ("selectors", countValue selectors)]
  | .passDisabled pass | .passNotNeeded pass | .unknownPassDisabled pass => [("pass", .text pass)]
  | .passRan pass changed => [("pass", .text pass), ("changed", flagValue changed)]
  | .leftUnfolded operator => [("operator", .text operator)]
  | .keyCollision selector key owner =>
    [("selector", .text selector), ("key", .text key), ("owner", .text owner)]
  | .truncated dropped => [("dropped", countValue dropped)]
  | .countOutOfRange count => [("count", .number count)]
  | .bodyTooLarge statements => [("statements", countValue statements)]
  | .bodyReadsIndex => []
  | .commandWithoutOutput command => [("command", .text command)]
  | .nodeSkipped kind => [("kind", .text kind)]
  | .handlerGenerated handlerId event isAsync imports =>
    [("handler_id", .text handlerId), ("event", .text event), ("is_async", flagValue isAsync),
      ("imports", countValue imports)]
  | .moduleCompiled handlers imports =>
    [("handlers", countValue handlers), ("imports", countValue imports)]

def messageField : String := "message"

def fieldNames (note : Note) : List String := messageField :: note.details.map (·.1)

end Note
end Hyperscript
