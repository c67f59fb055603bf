import Telescope.Core.CapturedEntry

namespace Telescope
namespace Observe

/-!
# The wire contract

The records that the exporter sends, and how their values are cut to what the collector
takes.
-/

inductive TagValue
  | string (value : Units)
  | number (value : Number)
  | boolean (value : Bool)

abbrev WireTags := List (Units × TagValue)

structure WireError where
  cls : Option Units := none
  message : Units
  stack : Option Units := none
  tags : Option WireTags := none

inductive SpanOrigin
  | auto
  | manual

/-- One node of a span tree. -/
structure WireSpan where
  n : Units
  o : SpanOrigin
  t : Option WireTags
  d : Option Number
  e : Option WireError
  c : Units
  m : Units
  s : Option Units
  so : Option Number

structure WireSnapshotAttributes where
  m : Option Units
  sc : Option Number
  ou : Option Units

structure WireSnapshot where
  ct : Text
  ti : Units
  d : Option Number
  p : Units
  op : Option Units
  t : List WireSpan
  a : Option WireSnapshotAttributes
  tg : WireTags
  e : Option WireError
  u : Option Units

inductive JobStatus
  | completed
  | failed

structure WireJob where
  i : Units
  ti : Units
  n : Option Units
  q : Option Units
  s : JobStatus
  c : Text
  d : Option Number
  ea : Option Text
  wd : Option Number
  am : Option Number
  ma : Option Number
  t : List WireSpan
  e : Option WireError

structure WireLog where
  timestamp : Number
  text : Units
  traceId : Option Units
  spanId : Option Units
  level : Option Units
  context : Option Units

/-! ## Ceilings -/

/-- Ceiling for any string that reaches a tag map. -/
def MAX_TAG_LENGTH : Nat := 512

def MAX_IDENTIFIER_LENGTH : Nat := 255

/-! ## Values for the wire -/

def truncateTagValue (value : Units) : Units :=
  if value.length ≤ MAX_TAG_LENGTH then value else value.take (MAX_TAG_LENGTH - 1) ++ units "…"

/-- `tags[key] = value`. -/
def WireTags.set (tags : WireTags) (key : Units) (value : TagValue) : WireTags := Fields.assign tags key value

/-- Put a usable scalar under a key; anything else is dropped. -/
def putTag (tags : WireTags) (key : Units) : Value -> WireTags
  | .string value => if value.length > 0 then tags.set key (.string (truncateTagValue value)) else tags
  | .number value => if value.isFinite then tags.set key (.number value) else tags
  | .boolean value => tags.set key (.boolean value)
  | _ => tags

def tagsOrUndefined (tags : WireTags) : Option WireTags := if tags.length > 0 then some tags else none

/-- The text before the first separator, and the text behind it if there is one. -/
def splitAtFirst (separator : Text.CodeUnit) : Units -> Units × Option Units
  | [] => ([], none)
  | unit :: rest =>
      if unit = separator then ([], some rest)
      else (unit :: (splitAtFirst separator rest).1, (splitAtFirst separator rest).2)

/-- One turn of `parseEntryTags`: a tag `key:value`, or a bare marker. -/
def parseEntryTag (skip : Units -> Bool) (parsed : WireTags) (tag : Units) : WireTags :=
  let parts := splitAtFirst 58 tag
  if parts.1.length = 0 || skip parts.1 then parsed
  else
    match parts.2 with
    | none => parsed.set parts.1 (.boolean true)
    | some value => parsed.set parts.1 (.string (truncateTagValue value))

def parseEntryTags (tags : List Units) (skip : Units -> Bool) : WireTags :=
  tags.foldl (parseEntryTag skip) []

def asRecord (value : Value) : Option Value := value.record?

def nonEmptyString (value : Option Units) : Option Units := value.filter fun text => decide (text.length > 0)

def finiteNumber (value : Option Number) : Option Number := value.filter Number.isFinite

end Observe
end Telescope
