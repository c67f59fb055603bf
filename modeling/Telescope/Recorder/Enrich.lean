import Telescope.Core.CapturedEntry
import Telescope.Core.Redaction

namespace Telescope
namespace Recorder

/-!
# Enrichment

What a watcher hands over becomes an entry: its content is cloned within the bounds of its
type, and the identifiers, the trace and the tags come from where and when it is recorded.
-/

/-! ## Tags -/

/-- A tagger reads an entry whose other fields are set. -/
abbrev Tagger := CapturedEntry -> List Units

/-- A tag that is not there yet goes to the end. -/
def addTag (result : List Units) (tag : Units) : List Units := if tag ∈ result then result else result ++ [tag]

/-- The tags of an entry and those of the taggers, each once. -/
def runTaggers (entry : CapturedEntry) (taggers : List Tagger) : List Units :=
  if taggers.isEmpty then
    if entry.tags.length ≤ 1 then entry.tags else entry.tags.foldl addTag []
  else (taggers.flatMap fun tagger => tagger entry).foldl addTag (entry.tags.foldl addTag [])

/-! ## The surroundings of a record -/

/-- The batch that is open when something is recorded. -/
structure Batch where
  id : Units
  origin : BatchOrigin

structure TraceContext where
  traceId : Units
  spanId : Units

/-- A reference to a user, with its identifier as a string. -/
structure ContextUserRef where
  type : Units
  id : Units

/-- What the context accessor answers; an accessor that throws answers nothing. -/
structure ContextReadings where
  traceId : Option Units := none
  userRef : Option ContextUserRef := none
  tenantId : Option Units := none

structure ContextEnrichment where
  traceId : Option Units
  tags : List Units

def nonEmpty (text : Option Units) : Option Units := text.filter fun text => decide (text.length > 0)

def readContextEnrichment (readings : Option ContextReadings) : ContextEnrichment :=
  match readings with
  | none => { traceId := none, tags := [] }
  | some readings =>
      { traceId := nonEmpty readings.traceId
        tags :=
          ((readings.userRef.filter fun user => decide (user.id.length > 0)).map fun user =>
            units "user:" ++ user.type ++ units "#" ++ user.id).toList ++
          ((nonEmpty readings.tenantId).map fun tenantId => units "tenant:" ++ tenantId).toList }

structure EnrichOptions where
  redact : Redaction.RedactOptions := {}
  taggers : List Tagger := []
  instanceId : Units

/-- What the recorder finds when it is called: the open batch, the trace, the context, the
next identifiers, the next number of the batch and the clock. -/
structure Surroundings where
  batch : Option Batch := none
  trace : Option TraceContext := none
  context : Option ContextReadings := none
  batchId : Units
  id : Units
  sequence : Int
  now : JsDate

/-- The entry of an input, before the taggers have read it. -/
def baseEntry (toLowerCase : Units -> Units) (options : EnrichOptions) (surroundings : Surroundings)
    (input : RecordInput) : CapturedEntry :=
  let redacted := Redaction.redactBoundedWith (options.redact.forType input.type).limits
    (Redaction.compileRedactSpec toLowerCase options.redact) input.content
  let context := readContextEnrichment surroundings.context
  { id := surroundings.id
    batchId := (surroundings.batch.map Batch.id).getD surroundings.batchId
    type := input.type
    familyHash := input.familyHash
    content := redacted.value
    tags := context.tags ++ input.tags.getD []
    sequence := surroundings.sequence
    durationMs := input.durationMs
    origin := (surroundings.batch.map Batch.origin).getD .manual
    instanceId := options.instanceId
    traceId := input.traceId.orElse fun _ =>
      (surroundings.trace.map TraceContext.traceId).orElse fun _ => context.traceId
    spanId := surroundings.trace.map TraceContext.spanId
    createdAt := match input.startedAt with
      | some startedAt => startedAt
      | none => surroundings.now }

def enrich (toLowerCase : Units -> Units) (options : EnrichOptions) (surroundings : Surroundings)
    (input : RecordInput) : CapturedEntry :=
  let base := baseEntry toLowerCase options surroundings input
  { base with tags := runTaggers base options.taggers }

/-- Without an explicit start an entry is dated by the clock at the time it is recorded. -/
theorem createdAt_enrich {toLowerCase : Units -> Units} {options : EnrichOptions} {surroundings : Surroundings}
    {input : RecordInput} (unstarted : input.startedAt = none) :
    (enrich toLowerCase options surroundings input).createdAt = surroundings.now := by
  change (match input.startedAt with
    | some startedAt => startedAt
    | none => surroundings.now) = _
  rw [unstarted]

end Recorder
end Telescope
