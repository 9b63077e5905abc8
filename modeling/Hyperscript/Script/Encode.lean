import Hyperscript.Json.Basic
import Hyperscript.Script.Node

/-! Scripts as JSON. A node is an object with its kind under `type`; parts that
are empty or unset are left out where reading fills them in again. A number that
is not finite has no JSON form and becomes `null`. -/
namespace Hyperscript

namespace Json

def ofNumber (value : Float) : Json :=
  if Binary64.isFinite value then .number (.float value) else .null

/-- A member that is left out when there is nothing to write. -/
def optionalMember (name : String) : Option Json → List (String × Json)
  | none => []
  | some value => [(name, value)]

/-- A flag is written only when set. -/
def flagMember (name : String) (flag : Bool) : List (String × Json) :=
  if flag then [(name, .bool true)] else []

end Json

def Literal.encode : Literal → Json
  | .null => .null
  | .bool value => .bool value
  | .number value => Json.ofNumber value
  | .string value => .string value

def Modifiers.encode (modifiers : Modifiers) : Json :=
  .object <|
    Json.flagMember "once" modifiers.once ++
    Json.flagMember "passive" modifiers.passive ++
    Json.flagMember "capture" modifiers.capture ++
    Json.flagMember "prevent" modifiers.prevent ++
    Json.flagMember "stop" modifiers.stop ++
    Json.optionalMember "debounce" (modifiers.debounce.map Json.ofNumber) ++
    Json.optionalMember "throttle" (modifiers.throttle.map Json.ofNumber) ++
    Json.optionalMember "from" (modifiers.source.map Json.string)

namespace Node

def tagged (kind : Kind) (members : List (String × Json)) : Json :=
  .object (("type", .string kind.name) :: members)

mutual

def encode : Node → Json
  | .command name args target =>
    tagged .command <|
      ("name", .string name) ::
        (if args.isEmpty then [] else [("args", .array (encodeAll args))]) ++
        Json.optionalMember "target" (encode? target)
  | .ifElse condition thenBranch elseBranch =>
    tagged .ifElse <|
      [("condition", condition.encode), ("thenBranch", .array (encodeAll thenBranch))] ++
        Json.optionalMember "elseBranch" (encodeAll? elseBranch)
  | .repeatTimes count body =>
    tagged .repeatTimes <|
      Json.optionalMember "count" (encode? count) ++ [("body", .array (encodeAll body))]
  | .forEach itemName collection body =>
    tagged .forEach
      [("itemName", .string itemName), ("collection", collection.encode),
        ("body", .array (encodeAll body))]
  | .whileLoop condition body =>
    tagged .whileLoop [("condition", condition.encode), ("body", .array (encodeAll body))]
  | .event name modifiers body =>
    tagged .event
      [("event", .string name), ("modifiers", modifiers.encode), ("body", .array (encodeAll body))]
  | .literal value => tagged .literal [("value", value.encode)]
  | .binary operator left right =>
    tagged .binary [("operator", .string operator), ("left", left.encode), ("right", right.encode)]
  | .unary operator operand =>
    tagged .unary [("operator", .string operator), ("operand", operand.encode)]
  | .selector value cacheKey =>
    tagged .selector <|
      ("value", .string value) :: Json.flagMember "_cached" cacheKey.isSome ++
        Json.optionalMember "_cacheKey" (cacheKey.map Json.string)
  | .identifier name => tagged .identifier [("name", .string name)]
  | .variableRef name => tagged .variableRef [("name", .string name)]
  | .member object property =>
    tagged .member [("object", object.encode), ("property", .string property)]
  | .sequence commands unrolled =>
    tagged .sequence <|
      ("commands", .array (encodeAll commands)) :: Json.flagMember "_unrolled" unrolled
  | .unknown => tagged .unknown []

def encodeAll : List Node → List Json
  | [] => []
  | node :: nodes => node.encode :: encodeAll nodes

def encode? : Option Node → Option Json
  | none => none
  | some node => some node.encode

def encodeAll? : Option (List Node) → Option Json
  | none => none
  | some nodes => some (.array (encodeAll nodes))

end

end Node
end Hyperscript
