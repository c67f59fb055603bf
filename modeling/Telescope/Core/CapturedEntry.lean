import Telescope.Core.Date
import Telescope.Core.Entry

namespace Telescope

/-!
# Captured entries

What a watcher hands to the recorder, and the entry that the recorder makes of it, with
whatever a host can put into them: strings that are not well formed, durations that are
not finite, dates without a time.
-/

/-- What a watcher hands to the recorder. -/
structure RecordInput where
  type : Units
  content : Value
  familyHash : Option Units := none
  tags : Option (List Units) := none
  durationMs : Option Number := none
  startedAt : Option JsDate := none
  traceId : Option Units := none

/-- An entry before it is stored. -/
structure CapturedEntry where
  id : Units
  batchId : Units
  type : Units
  familyHash : Option Units
  content : Value
  tags : List Units
  sequence : Int
  durationMs : Option Number
  origin : BatchOrigin
  instanceId : Units
  traceId : Option Units
  spanId : Option Units
  createdAt : JsDate

namespace EntryType

def request : Units := units "request"
def query : Units := units "query"
def job : Units := units "job"
def exception : Units := units "exception"
def mail : Units := units "mail"
def cache : Units := units "cache"
def httpClient : Units := units "http_client"
def event : Units := units "event"
def log : Units := units "log"
def model : Units := units "model"
def redis : Units := units "redis"
def clientException : Units := units "client_exception"

end EntryType

/-! ## Identities of users -/

/-- A string or a number that identifies a user. -/
def identityToken : Value -> Option Units
  | .string text => if text.length > 0 then some text else none
  | .number number => if number.isFinite then some number.text else none
  | _ => none

/-- The tag `user:<id>` of a user, by the first of `id`, `_id` and `email` that
identifies it. -/
def userIdentityTag (user : Value) : Option Units :=
  if user.isRecord then
    ((identityToken (user.get (units "id"))).orElse fun _absent =>
      (identityToken (user.get (units "_id"))).orElse fun _absent =>
        identityToken (user.get (units "email"))).map fun id => units "user:" ++ id
  else none

end Telescope

namespace Telescope

/-!
# Tail sampling

Each entry type has a keep-rate, or a rule that also keeps errors and slow entries.
Whether an entry is an error is read off its tags and the top of its content.
-/

/-- The levels of a log line that counts as an error. -/
def ERROR_LOG_LEVELS : List Units := [units "warn", units "error", units "fatal"]

/-- The content shows a failure by itself. -/
def contentShowsError (content : Value) : Bool :=
  content.isRecord &&
    (((content.has (units "failed")) && match content.get (units "failed") with
        | .boolean failed => failed
        | _ => false) ||
      ((content.has (units "statusCode")) && match content.get (units "statusCode") with
        | .number statusCode => statusCode.ge (.finite 500)
        | _ => false) ||
      ((content.has (units "level")) && match content.get (units "level") with
        | .string level => decide (level ∈ ERROR_LOG_LEVELS)
        | _ => false))

/-- What `isErrorEntry` reads of an input. -/
def isErrorEntry (tags : Option (List Units)) (content : Value) : Bool :=
  tags.any (fun tags => decide (units "failed" ∈ tags)) || contentShowsError content

structure SamplingRule where
  rate : Number
  keepErrors : Option Bool := none
  keepSlowMs : Option Number := none

/-- A bare rate or a rule. -/
inductive Sampling
  | rate (rate : Number)
  | rule (rule : SamplingRule)

/-- Rates and rules by entry type. -/
abbrev SamplingConfig := List (Units × Sampling)

end Telescope
