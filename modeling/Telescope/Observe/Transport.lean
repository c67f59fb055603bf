import Telescope.Core.Value
import Telescope.Foundation.Throwing
import Telescope.Foundation.NumberLine
import Telescope.Foundation.Spacing

namespace Telescope
namespace Observe

/-!
# The transport

`send` compresses a batch and posts it to the collector: a failure that may pass is
retried after a pause, a rejected payload is dropped, and one rejection of the
credentials opens a breaker that nothing closes.  The collector, the clock and the host
answer as they like; while an answer is awaited, the counters can be read.
-/

/-! ## What is thrown -/

/-- A thrown value.  The text of one that is not an `Error` may itself throw. -/
inductive Failure
  | error (name message : Units)
  | other (text : Except Failure Units)

/-- `describe(error)`. -/
def Failure.describe : Failure -> Except Failure Units
  | .error name message => .ok (name ++ units ": " ++ message)
  | .other text => text

/-! ## What the collector answers -/

/-- The `headers` of a response, which an injected `fetch` need not have. -/
inductive Headers
  | absent
  | getter (get : Units -> Value)
  | record (fields : List (Units × Value))

/-- A response; it is `ok` when its status says so. -/
structure CollectorResponse where
  status : Nat
  ok : Bool
  headers : Headers
  ok_iff : ok = true <-> 200 ≤ status ∧ status ≤ 299

/-- `readHeader(response, name)`. -/
def readHeader (response : CollectorResponse) (name : Units) : Option Units :=
  match response.headers with
  | .absent => none
  | .getter get => (get name).string?
  | .record fields => ((Fields.lookup fields name).getD .undefined).string?

/-- `Number(text)` and `Date.parse(text)`. -/
structure Readers where
  toNumber : Units -> Number
  parseDate : Units -> Number

def MAX_RETRY_AFTER_MS : Rat := 60000

def parseRetryAfter (readers : Readers) (raw : Option Units) (now : Number) : Option Number :=
  match raw with
  | none => none
  | some raw =>
      let trimmed := Spacing.trim Units.isSpace raw
      if trimmed = [] then none
      else
        match readers.toNumber trimmed with
        | .finite seconds => some ((Number.round (max seconds 0 * 1000)).min (.finite MAX_RETRY_AFTER_MS))
        | _ =>
            match readers.parseDate trimmed with
            | .nan => none
            | at_ => some (((at_.sub now).max (.finite 0)).min (.finite MAX_RETRY_AFTER_MS))

def isRetryableStatus (status : Nat) : Bool :=
  decide (status = 408 ∨ status = 429) || decide (500 ≤ status)

def isAuthStatus (status : Nat) : Bool := decide (status = 401 ∨ status = 403)

/-! ## The transport's state -/

structure ObserveTransportCounters where
  sent : Nat
  failed : Nat
  retried : Nat
  droppedPermanent : Nat
  lastStatus : Option Nat
  lastErrorAt : Option Number

/-- The fields of a transport. -/
structure Transport where
  tally : ObserveTransportCounters
  consecutiveAuthFailures : Nat
  authDisabled : Bool
  lastAuthLogAt : Number
  suppressedSinceLog : Nat

/-- A transport that has just been constructed. -/
def Transport.initial : Transport where
  tally := ⟨0, 0, 0, 0, none, none⟩
  consecutiveAuthFailures := 0
  authDisabled := false
  lastAuthLogAt := .finite 0
  suppressedSinceLog := 0

namespace Transport

/-- The credentials were rejected. -/
def countRejection (state : Transport) : Transport :=
  { state with
    tally := { state.tally with
      droppedPermanent := state.tally.droppedPermanent + 1, failed := state.tally.failed + 1 }
    consecutiveAuthFailures := state.consecutiveAuthFailures + 1 }

/-- A batch was dropped while the breaker is open. -/
def countSuppressed (state : Transport) : Transport :=
  { state with
    tally := { state.tally with
      failed := state.tally.failed + 1, droppedPermanent := state.tally.droppedPermanent + 1 }
    suppressedSinceLog := state.suppressedSinceLog + 1 }

/-- The breaker opens. -/
def disable (state : Transport) : Transport := { state with authDisabled := true }

/-- The logger is told about the breaker. -/
def logAt (now : Number) (state : Transport) : Transport :=
  { state with lastAuthLogAt := now, suppressedSinceLog := 0 }

end Transport

structure TransportOptions where
  endpoint : Units
  appKey : Units
  appSecret : Units
  maxRetries : Rat
  readers : Readers

def TELEMETRY_PATH : Units := units "/applications/telemetry"

def AUTH_FAILURES_BEFORE_DISABLE : Nat := 1

def AUTH_RELOG_INTERVAL_MS : Rat := 3600000

def ERROR_BODY_CHARS : Nat := 200

def BASE_BACKOFF_MS : Rat := 500

def MAX_BACKOFF_MS : Rat := 30000

/-! ## Requests to the world -/

variable {Batch Body : Type}

structure FetchInit (Body : Type) where
  method : Units
  headers : List (Units × Units)
  body : Body

/-- What a send asks for.  A `fetch` that is not answered in time is aborted, and then
rejects. -/
inductive WorldCall (Batch Body : Type)
  | encode (batch : Batch)
  | fetch (url : Units) (init : FetchInit Body)
  | text (response : CollectorResponse)
  | clock
  | random
  | timeout (ms : Number)
  | warn (message : Units)

/-- The answers to a call; some calls may throw. -/
def WorldCall.Answer : WorldCall Batch Body -> Type
  | .encode _batch => Except Failure Body
  | .fetch _url _init => Except Failure CollectorResponse
  | .text _response => Except Failure Units
  | .clock => Number
  | .random => Rat
  | .timeout _ms => Unit
  | .warn _message => Unit

/-- A call, and the counters that can be read while it is answered. -/
structure Awaited (Batch Body : Type) where
  call : WorldCall Batch Body
  tally : ObserveTransportCounters

abbrev Awaited.Answer (awaited : Awaited Batch Body) : Type := awaited.call.Answer

/-- A method of the transport. -/
abbrev Method (Batch Body : Type) := Throwing (Awaited Batch Body) Awaited.Answer Transport Failure

/-- Make a call. -/
def await (call : WorldCall Batch Body) : Method Batch Body call.Answer :=
  fun state => @Throwing.ask (Awaited Batch Body) Awaited.Answer Transport Failure ⟨call, state.tally⟩ state

def encode (batch : Batch) : Method Batch Body (Except Failure Body) := await (.encode batch)

def clock : Method Batch Body Number := await .clock

def random : Method Batch Body Rat := await .random

def readText (response : CollectorResponse) : Method Batch Body (Except Failure Units) :=
  await (.text response)

def warn (message : Units) : Method Batch Body Unit := await (.warn message)

/-- Change the counters. -/
def count (change : ObserveTransportCounters -> ObserveTransportCounters) : Method Batch Body Unit :=
  Throwing.update fun state => { state with tally := change state.tally }

/-! ## Sending -/

/-- Why a send gave up: what the logger is told, and one more failed send. -/
def giveUp (message : Units) : Method Batch Body Unit := do
  count fun tally => { tally with failed := tally.failed + 1 }
  warn message

/-- `this.tally.lastErrorAt = this.options.clock()`. -/
def noteError : Method Batch Body Unit := do
  let now <- clock
  count fun tally => { tally with lastErrorAt := some now }

def readBodySnippet (response : CollectorResponse) : Method Batch Body Units := do
  let text <- readText response
  match text with
  | .error _error => pure []
  | .ok text =>
      let trimmed := Spacing.trim Units.isSpace text
      pure (if trimmed = [] then [] else units ": " ++ trimmed.take ERROR_BODY_CHARS)

def noteAuthFailure (response : CollectorResponse) : Method Batch Body Unit := do
  Throwing.update Transport.countRejection
  let detail <- readBodySnippet response
  let state <- Throwing.current
  if AUTH_FAILURES_BEFORE_DISABLE ≤ state.consecutiveAuthFailures then do
    Throwing.update Transport.disable
    let now <- clock
    Throwing.update (Transport.logAt now)
    warn (units "POST " ++ TELEMETRY_PATH ++ units " rejected with " ++
      Number.digits response.status ++ units "; credentials will not fix themselves, so telemetry export is now disabled" ++
      detail)
  else
    warn (units "POST " ++ TELEMETRY_PATH ++ units " rejected with " ++
      Number.digits response.status ++ detail)

/-- A send that the open breaker drops; one an hour is told to the logger. -/
def noteSuppressedDrop : Method Batch Body Unit := do
  Throwing.update Transport.countSuppressed
  let now <- clock
  let state <- Throwing.current
  if (now.sub state.lastAuthLogAt).lt (.finite AUTH_RELOG_INTERVAL_MS) then pure ()
  else do
    Throwing.update (Transport.logAt now)
    warn (units "telemetry export is still disabled after credentials were rejected on " ++
      TELEMETRY_PATH ++ units "; " ++ Number.digits state.suppressedSinceLog ++
      units " batch(es) dropped since the last warning")

/-- Half of the capped backoff, and a random share of the other half. -/
def backoffMs (attempt : Nat) (retryAfterMs : Option Number) : Method Batch Body Number :=
  match retryAfterMs with
  | some retryAfterMs => pure retryAfterMs
  | none => do
      let capped := min (BASE_BACKOFF_MS * 2 ^ (attempt - 1)) MAX_BACKOFF_MS
      let random <- random
      pure ((Number.finite (capped / 2)).add (Number.round (random * (capped / 2))))

def pause (ms : Number) : Method Batch Body Unit := do
  count fun tally => { tally with retried := tally.retried + 1 }
  await (.timeout ms)

variable (options : TransportOptions)

/-- `this.attempt(body)`. -/
def post (body : Body) : Method Batch Body (Except Failure CollectorResponse) :=
  await (.fetch (options.endpoint ++ TELEMETRY_PATH)
    { method := units "POST"
      headers := [(units "Content-Type", units "application/json"), (units "Content-Encoding", units "gzip"),
        (units "x-api-key", options.appKey), (units "x-api-secret", options.appSecret)]
      body := body })

/-- The loop over the attempts that remain of `attempts`. -/
def attemptAll (body : Body) (attempts : Nat) : Nat -> Method Batch Body Bool
  | 0 => pure false
  | remaining + 1 => do
      let attempt := attempts - remaining
      let answer <- post options body
      match answer with
      | .error error => do
          noteError
          if attempts ≤ attempt then do
            let described <- Throwing.computed error.describe
            giveUp (units "gave up on POST " ++ TELEMETRY_PATH ++ units " after " ++
              Number.digits attempts ++ units " attempt(s): " ++ described)
            pure false
          else do
            pause (<- backoffMs attempt none)
            attemptAll body attempts remaining
      | .ok response => do
          count fun tally => { tally with lastStatus := some response.status }
          if response.ok then do
            count fun tally => { tally with sent := tally.sent + 1 }
            Throwing.update fun state => { state with consecutiveAuthFailures := 0 }
            pure true
          else do
            noteError
            if isAuthStatus response.status then do
              noteAuthFailure response
              pure false
            else if isRetryableStatus response.status = false then do
              let detail <- readBodySnippet response
              count fun tally => { tally with droppedPermanent := tally.droppedPermanent + 1 }
              giveUp (units "POST " ++ TELEMETRY_PATH ++ units " rejected with " ++
                Number.digits response.status ++ units "; dropping the batch" ++ detail)
              pure false
            else if attempts ≤ attempt then do
              giveUp (units "POST " ++ TELEMETRY_PATH ++ units " still failing with " ++
                Number.digits response.status ++ units " after " ++ Number.digits attempts ++
                units " attempt(s); dropping the batch")
              pure false
            else do
              let now <- clock
              pause (<- backoffMs attempt
                (parseRetryAfter options.readers (readHeader response (units "retry-after")) now))
              attemptAll body attempts remaining

/-- `Math.max(1, Math.floor(this.options.maxRetries))`. -/
def TransportOptions.attempts : Nat := (max 1 ⌊options.maxRetries⌋).toNat

def send (batch : Batch) : Method Batch Body Bool := do
  let state <- Throwing.current
  if state.authDisabled then do
    noteSuppressedDrop
    pure false
  else do
    let encoded <- encode batch
    match encoded with
    | .error error => do
        noteError
        let described <- Throwing.computed error.describe
        giveUp (units "could not encode a batch: " ++ described)
        pure false
    | .ok body => attemptAll options body options.attempts options.attempts

end Observe
end Telescope
