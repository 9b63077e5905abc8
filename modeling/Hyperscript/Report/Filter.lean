import Hyperscript.Report.Field
import Hyperscript.Report.Note
import Hyperscript.Text.Pieces
import Hyperscript.Text.Lines

/-! Which notes are logged, and how. A filter is a list of directives, each of
which sets the most verbose level for the origins that start with a text, or for
those of their notes that have a field. The most specific directive decides, and
of two equally specific ones the later; a note that no directive is about is not
logged. -/
namespace Hyperscript.Report

/-- The most verbose level that is logged; `none` is silence. -/
abbrev Limit := Option Level

namespace Limit

/-- Level names in any case, or their number. -/
def ofText? (text : List Char) : Option Limit :=
  match Text.natOf? text with
  | some 0 => some none
  | some 1 => some (some .error)
  | some 2 => some (some .warn)
  | some 3 => some (some .info)
  | some 4 => some (some .debug)
  | some 5 => some (some .trace)
  | _ =>
    match Text.lower (String.ofList text) with
    | "off" => some none
    | "error" => some (some .error)
    | "warn" => some (some .warn)
    | "info" => some (some .info)
    | "debug" => some (some .debug)
    | "trace" => some (some .trace)
    | _ => none

def name : Limit → String
  | none => "off"
  | some level => Text.lower level.name

def allows (limit : Limit) (level : Level) : Bool :=
  limit.any fun most => level.verbosity ≤ most.verbosity

end Limit

/-- A level for the notes of all origins that start with `origin`, if there is one,
and only for those notes that have the field, if there is one. -/
structure Directive where
  origin : Option (List Char) := none
  field : Option String := none
  limit : Limit

namespace Directive

/-- Where the reading of a directive stands, with the place where the current
part began. Parts in brackets are about spans and fields. -/
inductive Phase where
  | start
  | levelOrOrigin
  | level (begins : Nat)
  | span (begins : Nat)
  | field (begins : Nat)
  | fieldEnd
  | spanEnd

/-- The parts found so far. Places are counted in bytes. -/
structure Scan where
  phase : Phase := .start
  place : Nat := 0
  originEnd : Option Nat := none
  namesSpan : Bool := false
  field : Option (Nat × Nat) := none

/-- Characters that a directive may begin with, besides an opening bracket. -/
def canBegin (c : Char) : Bool := ['-', ':', '_'].contains c || Text.isAlphanumeric c

/-- A span without a field counts as named even when its name is empty. -/
def scanChar (scan : Scan) (c : Char) : Option Scan :=
  let here := scan.place
  let next := { scan with place := here + c.utf8Size }
  match scan.phase, c with
  | .start, '[' => some { next with phase := .span (here + 1) }
  | .start, c => if canBegin c then some { next with phase := .levelOrOrigin } else none
  | .levelOrOrigin, '=' => some { next with phase := .level (here + 1), originEnd := some here }
  | .levelOrOrigin, '[' => some { next with phase := .span (here + 1), originEnd := some here }
  | .span _, ']' => some { next with phase := .spanEnd, namesSpan := true }
  | .span begins, '\x7b' =>
    some { next with phase := .field (here + 1), namesSpan := decide (begins < here) }
  | .field begins, '\x7d' =>
    if begins < here then some { next with phase := .fieldEnd, field := some (begins, here) }
    else none
  | .fieldEnd, ']' => some { next with phase := .spanEnd }
  | .spanEnd, '=' => some { next with phase := .level (here + 1) }
  | .fieldEnd, _ | .spanEnd, _ => none
  | _, _ => some next

def readOrigin? (text : List Char) (scan : Scan) : Option (Option (List Char)) :=
  match scan.originEnd with
  | none => some none
  | some last => (Text.takeBytes? last text).map some

def readField? (text : List Char) (scan : Scan) : Option (Option Field) :=
  match scan.field with
  | none => some none
  | some (first, last) => ((Text.cut? text first last).bind Field.parse?).map some

/-- The level from a place on; without a text it is the most verbose. -/
def readLevel? (text : List Char) (begins : Nat) : Option Limit :=
  (Text.dropBytes? begins text).bind fun level =>
    if level.isEmpty then some (some .trace) else Limit.ofText? level

/-- A text without brackets and equals sign: a level, or an origin. -/
def ofWord (text : List Char) : Directive :=
  match Limit.ofText? text with
  | some limit => { limit }
  | none => { origin := some text, limit := some .trace }

/-- Read one directive. The outer `none` refuses the text; the inner one stands
for a directive about a span or the value of a field, which no note falls under.
White space around the text is skipped in finding its parts, but the parts are
taken at the same places of the whole text. -/
def parse? (text : List Char) : Option (Option Directive) := do
  let scan ← (Text.trimChars text).foldlM scanChar {}
  let origin ← readOrigin? text scan
  let field ← readField? text scan
  let directive (limit : Limit) : Option Directive :=
    if scan.namesSpan || field.any (·.hasValue) then none
    else some { origin, field := field.map (·.name), limit }
  match scan.phase with
  | .levelOrOrigin => return some (ofWord text)
  | .level begins => return directive (← readLevel? text begins)
  | .spanEnd => return directive (some .trace)
  | _ => none

/-- Whether a directive is about an origin, whatever fields its notes have. -/
def coversOrigin (directive : Directive) (origin : String) : Bool :=
  directive.origin.all (·.isPrefixOf origin.toList)

/-- Whether a directive is about a note of that origin with those fields. -/
def covers (directive : Directive) (origin : String) (fields : List String) : Bool :=
  directive.coversOrigin origin && directive.field.all fields.contains

/-- Longer origins are more specific, and none is the least. -/
def originSize (directive : Directive) : Nat :=
  (directive.origin.map (·.length + 1)).getD 0

/-- No field comes before any, and fields come in alphabetical order. -/
def fieldPrecedes : Option String → Option String → Bool
  | none, _ => true
  | some _, none => false
  | some first, some second => first ≤ second

/-- Of two directives about one note the second decides, unless the first is more
specific. -/
def yieldsTo (first second : Directive) : Bool :=
  first.originSize < second.originSize ||
    (first.originSize == second.originSize && fieldPrecedes first.field second.field)

end Directive

structure Filter where
  directives : List Directive

namespace Filter

/-- The directives of a comma-separated text; those that cannot be read are left
out. When none is left, `fallback` holds for every origin. -/
def ofText (fallback : Limit) (text : String) : Filter :=
  let pieces := (Text.splitCommas text.toList).filter (!·.isEmpty)
  let read := pieces.filterMap Directive.parse?
  if read.isEmpty then { directives := [{ limit := fallback }] }
  else { directives := read.filterMap id }

/-- The most specific of some directives, the last of those that are equally so. -/
def deciding? (directives : List Directive) : Option Directive :=
  directives.foldl (fun best directive =>
    if best.all (·.yieldsTo directive) then some directive else best) none

/-- What the directive that decides allows; without one, nothing. -/
def decision (directives : List Directive) : Limit :=
  ((deciding? directives).map (·.limit)).getD none

/-- The limit for an origin, before anything is known of a note's fields. -/
def limit (filter : Filter) (origin : String) : Limit :=
  decision (filter.directives.filter (·.coversOrigin origin))

/-- The limit for a note of that origin with those fields. -/
def noteLimit (filter : Filter) (origin : String) (fields : List String) : Limit :=
  decision (filter.directives.filter (·.covers origin fields))

end Filter

inductive Format where
  | text
  | tree
  | json

namespace Format

def ofText (text : String) : Format :=
  match Text.lower (Text.trim text) with
  | "tree" => .tree
  | "json" => .json
  | _ => .text

def name : Format → String
  | .text => "text"
  | .tree => "tree"
  | .json => "json"

end Format

/-- The parts of the compiler that log. -/
def origins : List String := ["hyperfixi_aot", "hfx_ast", "hfx_optimizer", "hfx_emitter"]

/-- One level for all parts of the compiler. -/
def everywhere (level : String) : String :=
  Text.join "," (origins.map fun origin => origin ++ "=" ++ level)

/-- The directives of the compiler's own log setting: a switch, a bare level for
the parts of the compiler, or directives as written. -/
def directivesOf (setting : String) : String :=
  let trimmed := Text.trim setting
  let word := Text.lower trimmed
  if ["", "1", "true", "on"].contains word then everywhere "debug"
  else if ["error", "warn", "info", "debug", "trace"].contains word then everywhere word
  else trimmed

structure Settings where
  log : Option String := none
  general : Option String := none
  format : Option String := none

namespace Settings

/-- The filter in force, if any setting asks for one. The compiler's own setting
wins over the general one, whose directives fall back to errors. -/
def filter? (settings : Settings) : Option Filter :=
  match settings.log, settings.general with
  | some log, _ => some (Filter.ofText none (directivesOf log))
  | none, some general => some (Filter.ofText (some .error) general)
  | none, none => none

def limit (settings : Settings) (origin : String) : Limit :=
  (settings.filter?.map (·.limit origin)).getD none

def noteLimit (settings : Settings) (origin : String) (fields : List String) : Limit :=
  (settings.filter?.map (·.noteLimit origin fields)).getD none

def admits (settings : Settings) (note : Note) : Bool :=
  (settings.noteLimit note.origin note.fieldNames).allows note.level

/-- The look of an error of the compiler itself, if it is logged at all. -/
def errorFormat? (settings : Settings) : Option Format :=
  if (settings.noteLimit "hyperfixi_aot" [Note.messageField]).allows .error then
    some (Format.ofText (settings.format.getD ""))
  else none

end Settings
end Hyperscript.Report
