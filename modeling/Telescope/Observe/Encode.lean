import Telescope.Observe.Collect
import Telescope.Observe.Spans

namespace Telescope
namespace Observe

/-!
# Sampling of batches

A batch is exported when its hash falls below the rate, and whatever the rate is when
one of its entries counts as a failure.
-/

/-- An assembled batch of captured entries. -/
structure CapturedBatch where
  batchId : Units
  origin : BatchOrigin
  root : Option CapturedEntry
  children : List CapturedEntry

def CapturedBatch.entries (batch : CapturedBatch) : List CapturedEntry :=
  batch.root.toList ++ batch.children

/-- One round of FNV-1a. -/
def fnvStep (hash : UInt32) (unit : Text.CodeUnit) : UInt32 :=
  (hash ^^^ UInt32.ofNat unit.val) * 0x01000193

/-- The avalanche of the hash. -/
def finalize (hash : UInt32) : UInt32 :=
  let hash := hash ^^^ (hash >>> 16)
  let hash := hash * 0x7feb352d
  let hash := hash ^^^ (hash >>> 15)
  let hash := hash * 0x846ca68b
  hash ^^^ (hash >>> 16)

def batchToUnitInterval (batchId : Units) : Number :=
  .finite ((finalize (batchId.foldl fnvStep 0x811c9dc5)).toNat / 4294967296)

def isFailure (entry : CapturedEntry) : Bool := isErrorEntry (some entry.tags) entry.content

def batchHasFailure (batch : CapturedBatch) : Bool :=
  batch.root.any isFailure || batch.children.any isFailure

def shouldExportBatch (sampleRate : Number) (batch : CapturedBatch) : Bool :=
  if sampleRate.ge (.finite 1) then true
  else if batchHasFailure batch then true
  else if Number.ge (.finite 0) sampleRate then false
  else (batchToUnitInterval batch.batchId).lt sampleRate

end Observe
end Telescope

namespace Telescope
namespace Observe

/-!
# The encoders

A batch that is rooted at a request becomes a snapshot, one that is rooted at a job with
an outcome a job, and each log entry a log line.  An encoder throws, here `none`, when a
date that it shows as an ISO string is invalid.
-/

/-! ## Operations -/

def isHex (unit : Text.CodeUnit) : Bool :=
  decide (48 ≤ unit.val ∧ unit.val ≤ 57 ∨ 97 ≤ unit.val ∧ unit.val ≤ 102 ∨ 65 ≤ unit.val ∧ unit.val ≤ 70)

def isDigit (unit : Text.CodeUnit) : Bool := decide (48 ≤ unit.val ∧ unit.val ≤ 57)

/-- Five groups of hexadecimal digits. -/
def isUuid (segment : Units) : Bool :=
  let groups := segment.splitOn 45
  decide (groups.map List.length = [8, 4, 4, 4, 12]) && groups.all fun group => group.all isHex

/-- A UUID, a number, or a long run of hexadecimal digits. -/
def isIdSegment (segment : Units) : Bool :=
  isUuid segment || (decide (0 < segment.length) && segment.all isDigit) ||
    (decide (16 ≤ segment.length) && segment.all isHex)

/-- `GET /orders/:id` for a method and a URL; the query string is dropped. -/
def operationId (method : Option Units) (url : Units) : Units :=
  let path := (splitAtFirst 63 url).1
  let normalizedPath := [47].intercalate
    ((path.splitOn 47).map fun segment => if isIdSegment segment then units ":id" else segment)
  match nonEmptyString method with
  | none => normalizedPath
  | some method => method ++ units " " ++ normalizedPath

/-! ## Snapshots -/

def originName : BatchOrigin -> Units
  | .http => units "http"
  | .queue => units "queue"
  | .schedule => units "schedule"
  | .cli => units "cli"
  | .manual => units "manual"

/-- The loop of `pickFailure`: the first exception, else the first failure of a client. -/
def pickFailureFrom (clientFailure : Option CapturedEntry) : List CapturedEntry -> Option CapturedEntry
  | [] => clientFailure
  | child :: children =>
      if child.type = EntryType.exception then some child
      else if child.type = EntryType.clientException ∧ clientFailure.isNone = true then
        pickFailureFrom (some child) children
      else pickFailureFrom clientFailure children

/-- The failure of the request itself. -/
def pickFailure (children : List CapturedEntry) : Option CapturedEntry := pickFailureFrom none children

def attributes (content : Value) : Option WireSnapshotAttributes :=
  let method := nonEmptyString (content.getString (units "method"))
  let statusCode := finiteNumber (content.getNumber (units "statusCode"))
  let uri := nonEmptyString (content.getString (units "uri"))
  if method.isSome || statusCode.isSome || uri.isSome then some ⟨method, statusCode, uri⟩ else none

/-- The identity of the user without the prefix of its tag. -/
def userId (content : Value) : Option Units :=
  (userIdentityTag (content.get (units "user"))).map fun tag => tag.drop (units "user:").length

/-- The failure that becomes the error of a snapshot: one without a usable error keeps
its span. -/
def snapshotConsumed (children : List CapturedEntry) : Option CapturedEntry :=
  (pickFailure children).filter fun failure => (toWireError failure).isSome

def snapshotTags (root : CapturedEntry) (origin : BatchOrigin) : WireTags :=
  (parseEntryTags root.tags fun key => decide (key = units "user")).set (units "origin") (.string (originName origin))

/-- The snapshot of a batch that is rooted at a request. -/
def encodeSnapshot (included : Include) (batch : CapturedBatch) : Option (Option WireSnapshot) :=
  match batch.root with
  | none => some none
  | some root =>
      if root.type = EntryType.request then
        match asRecord root.content with
        | none => some none
        | some content =>
            let uri := nonEmptyString (content.getString (units "uri"))
            let consumed := snapshotConsumed batch.children
            (toISOString (newDate (entryStartMs root))).map fun ct => some
              { ct := ct
                ti := (nonEmptyString root.traceId).getD root.batchId
                d := finiteNumber root.durationMs
                p := units "http"
                op := uri.map (operationId (nonEmptyString (content.getString (units "method"))))
                t := if included.spans then toChildSpans batch.children (entryStartMs root) consumed else []
                a := attributes content
                tg := snapshotTags root batch.origin
                e := consumed.bind toWireError
                u := userId content }
      else some none

/-! ## Jobs -/

/-- Only a run with an outcome is sent. -/
def terminalStatus (status : Option Units) : Option JobStatus :=
  if status = some (units "completed") then some .completed
  else if status = some (units "failed") then some .failed
  else none

def SCHEDULE_TAG_PREFIX : Units := units "schedule:"

/-- The tag that tells scheduled runs apart. -/
def scheduleQueue (entry : CapturedEntry) : Option Units :=
  entry.tags.find? fun tag =>
    SCHEDULE_TAG_PREFIX.isPrefixOf tag && decide (SCHEDULE_TAG_PREFIX.length < tag.length)

/-- The first failure among the children that has a usable error. -/
def jobConsumed (children : List CapturedEntry) : Option CapturedEntry :=
  children.find? fun child => isFailureEntry child && (toWireError child).isSome

/-- The reason of a failed run, as an error. -/
def reasonError (content : Value) : Option WireError :=
  (nonEmptyString (content.getString (units "failureReason"))).map fun reason =>
    { message := truncateTagValue reason }

/-- The error of a run, and the child that it is taken from. -/
def jobError (content : Value) (children : List CapturedEntry) : Option WireError × Option CapturedEntry :=
  match jobConsumed children with
  | some child => (toWireError child, some child)
  | none => (reasonError content, none)

def jobQueue (origin : BatchOrigin) (root : CapturedEntry) (content : Value) : Option Units :=
  let queue := nonEmptyString (content.getString (units "queue"))
  if origin = .schedule then (scheduleQueue root).orElse fun _absent => queue else queue

/-- When the run was enqueued; `some none` where that is not known. -/
def enqueuedAt (startedAtMs : Number) (waitMs : Option Number) : Option (Option Text) :=
  match waitMs with
  | none => some none
  | some waitMs =>
      if startedAtMs.isFinite then (toISOString (newDate (startedAtMs.sub waitMs))).map some else some none

/-- The job of a batch that is rooted at a job with an outcome. -/
def encodeJob (included : Include) (batch : CapturedBatch) : Option (Option WireJob) :=
  match batch.root with
  | none => some none
  | some root =>
      if root.type = EntryType.job then
        match asRecord root.content with
        | none => some none
        | some content =>
            match terminalStatus (content.getString (units "status")) with
            | none => some none
            | some status =>
                let errors := jobError content batch.children
                let waitMs := finiteNumber (content.getNumber (units "waitMs"))
                let startedAtMs := entryStartMs root
                (enqueuedAt startedAtMs waitMs).bind fun ea =>
                  (toISOString (newDate startedAtMs)).map fun c => some
                    { i := (nonEmptyString (content.getString (units "id"))).getD batch.batchId
                      ti := (nonEmptyString root.traceId).getD batch.batchId
                      n := nonEmptyString (content.getString (units "name"))
                      q := jobQueue batch.origin root content
                      s := status
                      c := c
                      d := finiteNumber root.durationMs
                      ea := ea
                      wd := waitMs
                      am := finiteNumber (content.getNumber (units "attempts"))
                      ma := finiteNumber (content.getNumber (units "maxAttempts"))
                      t := if included.spans then toChildSpans batch.children startedAtMs errors.2 else []
                      e := errors.1 }
      else some none

/-! ## Logs -/

/-- Ceiling on a forwarded log line. -/
def MAX_LOG_TEXT_LENGTH : Nat := 4096

def TRUNCATION_MARKER : Units := units "… [truncated]"

def capText (message : Units) : Units :=
  if message.length ≤ MAX_LOG_TEXT_LENGTH then message
  else message.take (MAX_LOG_TEXT_LENGTH - TRUNCATION_MARKER.length) ++ TRUNCATION_MARKER

/-- The line of a log entry that has a message and a date. -/
def encodeLog (toLowerCase : Units -> Units) (entry : CapturedEntry) : Option WireLog :=
  if entry.type = EntryType.log then
    (asRecord entry.content).bind fun content =>
      (nonEmptyString (content.getString (units "message"))).bind fun message =>
        let timestamp := getTime entry.createdAt
        if timestamp.isFinite then some
          { timestamp := timestamp
            text := capText message
            traceId := (nonEmptyString entry.traceId).orElse fun _absent => nonEmptyString (some entry.batchId)
            spanId := nonEmptyString entry.spanId
            level := (nonEmptyString (content.getString (units "level"))).map toLowerCase
            context := nonEmptyString (content.getString (units "context")) }
        else none
  else none

/-- The encoders of the exporter. -/
def wireEncoders (toLowerCase : Units -> Units) (included : Include) (sampleRate : Number) :
    Encoders CapturedBatch CapturedEntry WireLog WireSnapshot WireJob where
  shouldExportBatch := shouldExportBatch sampleRate
  children := CapturedBatch.children
  isLog child := decide (child.type = EntryType.log)
  encodeLog child := some (encodeLog toLowerCase child)
  encodeSnapshot := encodeSnapshot included
  encodeJob := encodeJob included

end Observe
end Telescope
