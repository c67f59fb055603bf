import Telescope.Foundation.Spacing
import Telescope.Observe.Wire

namespace Telescope
namespace Observe

/-!
# Spans and errors of entries

A failure entry becomes the error of its record or of its span, and any other child of a
batch a span on the record's tree.  Neither moves the values that a query, a cache or a
job held: a span shows a few dimensions of its entry as bounded tags.
-/

/-- When the operation of an entry began: entries are dated when their work has
finished, and the duration leads back to the start. -/
def entryStartMs (entry : CapturedEntry) : Number :=
  let recordedAt := getTime entry.createdAt
  if recordedAt.isFinite then
    match entry.durationMs with
    | none => recordedAt
    | some duration =>
        if !duration.isFinite || duration.lt (.finite 0) then recordedAt else recordedAt.sub duration
  else .nan

/-- An optional text as the value of a property. -/
def optionalText : Option Units -> Value
  | none => .undefined
  | some text => .string text

/-- `Object.keys` with the values under them. -/
def ownProperties : Value -> List (Units × Value)
  | .array elements => elements.zipIdx.map fun element => (Number.digits element.2, element.1)
  | value => value.fields

/-! ## Errors -/

/-- How many keys of a context may reach the wire. -/
def MAX_CONTEXT_TAGS : Nat := 8

/-- The two types that are a failure by construction. -/
def isFailureEntry (entry : CapturedEntry) : Bool :=
  decide (entry.type = EntryType.exception) || decide (entry.type = EntryType.clientException)

def contextTags (content : Value) : WireTags :=
  match content.getRecord (units "context") with
  | none => []
  | some context =>
      ((ownProperties context).take MAX_CONTEXT_TAGS).foldl (fun tags property => putTag tags property.1 property.2) []

def serverError (content : Value) : Option WireError :=
  ((nonEmptyString (content.getString (units "message"))).orElse fun _absent =>
    nonEmptyString (content.getString (units "class"))).map fun message =>
      { message := message
        cls := nonEmptyString (content.getString (units "class"))
        stack := nonEmptyString (content.getString (units "stack"))
        tags := tagsOrUndefined (contextTags content) }

def browserTags (content : Value) : WireTags :=
  putTag (putTag (putTag [] (units "url") (content.get (units "url"))) (units "release")
    (content.get (units "release"))) (units "userAgent") (content.get (units "userAgent"))

def browserError (content : Value) : Option WireError :=
  ((nonEmptyString (content.getString (units "message"))).orElse fun _absent =>
    nonEmptyString (content.getString (units "name"))).map fun message =>
      { message := message
        cls := nonEmptyString (content.getString (units "name"))
        stack := nonEmptyString (content.getString (units "stack"))
        tags := tagsOrUndefined (browserTags content) }

/-- The error of a failure entry; none of any other, or when it has nothing to name. -/
def toWireError (entry : CapturedEntry) : Option WireError :=
  match asRecord entry.content with
  | none => none
  | some content =>
      if entry.type = EntryType.exception then serverError content
      else if entry.type = EntryType.clientException then browserError content
      else none

/-! ## Shapes -/

structure SpanShape where
  name : Units
  tags : WireTags := []
  className : Option Units := none
  methodKey : Option Units := none

/-- The text of a query with its white space collapsed; its bindings stay behind. -/
def sqlShape (sql : Option Units) : Option Units :=
  (nonEmptyString sql).map fun text =>
    truncateTagValue (Spacing.trim Units.isSpace (Spacing.collapse Units.isSpace 32 text))

/-- `prefix.operation`, or the fallback where no operation is named. -/
def operationName (subject : String) (operation : Option Units) (fallback : Units) : Units :=
  match operation with
  | none => fallback
  | some operation => units subject ++ units "." ++ operation

/-- The shape of a span by the type of its entry. -/
def shapeFor (entry : CapturedEntry) (content : Option Value) : SpanShape :=
  let fallback := units "telescope." ++ entry.type
  match content with
  | none => { name := fallback }
  | some content =>
      let text (name : String) := nonEmptyString (content.getString (units name))
      let put (tags : WireTags) (key name : String) := putTag tags (units key) (content.get (units name))
      if entry.type = EntryType.query then
        { name := units "db.query"
          tags := putTag (put (put [] "connection" "connection") "slow" "slow") (units "sql")
            (optionalText (sqlShape (content.getString (units "sql"))))
          className := text "connection" }
      else if entry.type = EntryType.cache then
        { name := operationName "cache" (text "operation") fallback
          tags := put (put (put (put (putTag [] (units "operation") (optionalText (text "operation")))
            "hit" "hit") "tier" "tier") "stale" "stale") "store" "store" }
      else if entry.type = EntryType.redis then
        { name := operationName "redis" (text "command") fallback
          tags := putTag [] (units "command") (optionalText (text "command")) }
      else if entry.type = EntryType.httpClient then
        { name := units "http.client"
          tags := put (put (put [] "method" "method") "host" "host") "statusCode" "statusCode" }
      else if entry.type = EntryType.mail then
        { name := units "mail.send", tags := put (put [] "mailer" "mailer") "status" "status" }
      else if entry.type = EntryType.model then
        { name := operationName "model" (text "action") fallback
          tags := putTag (putTag [] (units "action") (optionalText (text "action"))) (units "entity")
            (optionalText (text "entity"))
          className := text "entity"
          methodKey := text "action" }
      else if entry.type = EntryType.event then
        { name := operationName "event" (text "name") fallback
          tags := put [] "listeners" "listenerCount" }
      else if entry.type = EntryType.job then
        { name := fallback, tags := put (put (put [] "queue" "queue") "job" "name") "status" "status" }
      else if entry.type = EntryType.log then { name := fallback, tags := put [] "level" "level" }
      else { name := fallback }

def clampIdentifier (value : Units) : Units :=
  if value.length ≤ MAX_IDENTIFIER_LENGTH then value else value.take MAX_IDENTIFIER_LENGTH

/-- The texts before and behind the last separator. -/
def splitAtLast (separator : Text.CodeUnit) : Units -> Option (Units × Units)
  | [] => none
  | unit :: rest =>
      match splitAtLast separator rest with
      | some parts => some (unit :: parts.1, parts.2)
      | none => if unit = separator then some ([], rest) else none

/-- The class and the method of a span name `subject.operation`. -/
def splitQualifiedName (name : Units) : Units × Units :=
  match splitAtLast 46 name with
  | none => (units "telescope", name)
  | some parts => if parts.1 = [] ∨ parts.2 = [] then (units "telescope", name) else parts

/-! ## Spans -/

/-- The span of an entry, offset against the start of its root. -/
def entryToSpan (rootStartMs : Number) (entry : CapturedEntry) : WireSpan :=
  let shape := shapeFor entry (asRecord entry.content)
  let startedAtMs := entryStartMs entry
  let qualified := splitQualifiedName shape.name
  { n := shape.name
    o := .auto
    t := tagsOrUndefined shape.tags
    d := finiteNumber entry.durationMs
    e := toWireError entry
    c := clampIdentifier (shape.className.getD qualified.1)
    m := clampIdentifier (shape.methodKey.getD qualified.2)
    s := nonEmptyString entry.spanId
    so :=
      if startedAtMs.isFinite && rootStartMs.isFinite then some (startedAtMs.sub rootStartMs).maxZero else none }

/-- The types that are records of their own. -/
def RECORD_TYPES : List Units := [EntryType.request, EntryType.job]

/-- A child that `toChildSpans` does not hold back. -/
def isChildSpan (consumed : Option CapturedEntry) (child : CapturedEntry) : Bool :=
  decide (child.type ≠ EntryType.log) && decide (child.type ∉ RECORD_TYPES) &&
    !consumed.any fun consumed => decide (child.id = consumed.id)

/-- The children of a record that belong on its span tree. -/
def toChildSpans (children : List CapturedEntry) (rootStartMs : Number) (consumed : Option CapturedEntry) :
    List WireSpan :=
  (children.filter (isChildSpan consumed)).map (entryToSpan rootStartMs)

end Observe
end Telescope
