import Hyperscript.Analysis.Facts
import Hyperscript.Json.Decode
import Hyperscript.Script.Decode
import Hyperscript.Script.Encode

/-! Facts as JSON, grouped into control flow, expressions and dependencies. Every
group and every field may be left out. -/
namespace Hyperscript

namespace SelectorUse

def encode (use : SelectorUse) : Json :=
  .object
    [("selector", .string use.selector), ("usages", .array (Node.encodeAll use.usages)),
      ("canCache", .bool use.canCache)]

def record : Json.Record SelectorUse where
  name := "SelectorInfo"
  blank := { selector := "" }
  fields :=
    [⟨"selector", fun value use => do return { use with selector := ← value.toText }⟩,
      ⟨"usages", fun value use => do return { use with usages := ← Node.decodeList false value }⟩,
      ⟨"canCache", fun value use => do return { use with canCache := ← value.toFlag }⟩]
  required := 1

end SelectorUse

namespace Facts

def encode (facts : Facts) : Json :=
  .object
    [("controlFlow", .object
        [("hasAsync", .bool facts.hasAsync), ("canThrow", .bool facts.canThrow),
          ("hasLoops", .bool facts.hasLoops)]),
      ("expressions", .object
        [("pure", .array (Node.encodeAll facts.pure)),
          ("selectors", .array (facts.selectors.map (·.encode)))]),
      ("dependencies", .object
        [("runtimeHelpers", .array (facts.helpers.map .string))])]

/-- Control flow, read into otherwise blank facts. -/
def controlFlow : Json.Record Facts where
  name := "ControlFlowInfo"
  blank := {}
  fields :=
    [⟨"hasAsync", fun value facts => do return { facts with hasAsync := ← value.toFlag }⟩,
      ⟨"canThrow", fun value facts => do return { facts with canThrow := ← value.toFlag }⟩,
      ⟨"hasLoops", fun value facts => do return { facts with hasLoops := ← value.toFlag }⟩]

def expressions : Json.Record Facts where
  name := "ExpressionInfo"
  blank := {}
  fields :=
    [⟨"pure", fun value facts => do return { facts with pure := ← Node.decodeList false value }⟩,
      ⟨"selectors", fun value facts => do
        let uses ← (← value.toElements).mapM SelectorUse.record.decode
        return { facts with selectors := uses }⟩]

def dependencies : Json.Record Facts where
  name := "DependencyInfo"
  blank := {}
  fields :=
    [⟨"runtimeHelpers", fun value facts => do return { facts with helpers := ← value.toTexts }⟩]

def record : Json.Record Facts where
  name := "AnalysisResult"
  blank := {}
  fields :=
    [⟨"controlFlow", fun value facts => do
        let read ← controlFlow.decode value
        return { facts with
          hasAsync := read.hasAsync, canThrow := read.canThrow, hasLoops := read.hasLoops }⟩,
      ⟨"expressions", fun value facts => do
        let read ← expressions.decode value
        return { facts with pure := read.pure, selectors := read.selectors }⟩,
      ⟨"dependencies", fun value facts => do
        return { facts with helpers := (← dependencies.decode value).helpers }⟩]

def decode (value : Json) : Except DecodeError Facts := record.decode value

end Facts
end Hyperscript
