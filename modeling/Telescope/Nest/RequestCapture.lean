import Telescope.Alerts.Alerter
import Telescope.Core.Json
import Telescope.Foundation.Transition
import Telescope.Observe.Encode

namespace Telescope
namespace Nest
namespace Capture

open Alerts (Thrown)

universe u

/-!
# Capturing requests

A middleware sees a request come in, and records it when its response is finished. What is
recorded of the body is decided by three gates: its content type, its size, and a predicate
of the host. A pattern of a content type may be a regular expression, which is one object
for all requests and may keep the index at which its last match ended.
-/

/-! ## Values -/

/-- A value that is false as a condition. -/
def isFalsy : Value -> Bool
  | .undefined => true
  | .null => true
  | .boolean value => !value
  | .number .nan => true
  | .number (.finite value) => decide (value = 0)
  | .bigint value => decide (value = 0)
  | .string text => decide (text = [])
  | _ => false

/-- `value ?? null`. -/
def orNull : Value -> Value
  | .undefined => .null
  | value => value

/-- The own properties of a value with their names, in the order of `Object.entries`. -/
def objectEntries : Value -> List (Units × Value)
  | .string text => text.mapIdx fun index unit => (Number.digits index, .string [unit])
  | .array elements => elements.mapIdx fun index element => (Number.digits index, element)
  | .object fields => fields
  | _ => []

/-- The bytes of a text in UTF-8. -/
def byteLength (text : Units) : Nat :=
  ((Json.symbols text).map fun symbol =>
    match symbol with
    | .pair _high _low _isHigh => 4
    | .single unit => if unit.val < 128 then 1 else if unit.val < 2048 then 2 else 3).sum

/-! ## Requests -/

structure NormalizedRequest where
  method : Units
  url : Units
  headers : Value
  ip : Option Units

/-- The value if it is a record, else an empty one. -/
def asRecord (value : Value) : Value := if value.isRecord then value else .object []

/-- `value !== undefined ? value : other`. -/
def orElse (value other : Value) : Value :=
  match value with
  | .undefined => other
  | value => value

def normalizeRequest (req : Value) : NormalizedRequest where
  method := (req.getString (units "method")).getD (units "UNKNOWN")
  url := (orElse (req.get (units "originalUrl")) (req.get (units "url"))).string?.getD []
  headers := asRecord (req.get (units "headers"))
  ip := (orElse (req.get (units "ip")) ((req.get (units "socket")).get (units "remoteAddress"))).string?

def pathOf (url : Units) : Units := url.takeWhile fun unit => decide (unit.val ≠ 63)

/-- The routes of the dashboard are not captured. -/
def isTelescopePath (url pathPrefix : Units) : Bool :=
  decide (pathOf url = pathPrefix) || (pathPrefix ++ units "/").isPrefixOf (pathOf url)

def normalizeRoute (method url : Units) : Units :=
  method ++ units " " ++ [47].intercalate
    (((pathOf url).splitOn 47).map fun segment => if Observe.isIdSegment segment then units ":id" else segment)

/-- The first text of a header. -/
def headerValue (headers : Value) (name : Units) : Option Units :=
  match headers.get name with
  | .string text => some text
  | .array (.string text :: _rest) => some text
  | _ => none

def hasReplayHeader (headers : Value) : Bool :=
  match headers.get (units "x-telescope-replay") with
  | .string text => decide (text ≠ [])
  | .array elements => decide (elements ≠ [])
  | _ => false

/-- The request as the hooks of the host get it. -/
def toTelescopeHttpRequest (request : Value) : Value :=
  if request.isRecord then
    let result := objectEntries request
    let headers := request.get (units "headers")
    if headers.isRecord then
      let kept := (objectEntries headers).filter fun header =>
        match header.2 with
        | .string _text => true
        | .undefined => true
        | .array elements => elements.all fun element => element.string?.isSome
        | _ => false
      let normalized := kept.foldl (fun fields header => Fields.assign fields header.1 header.2) []
      .object (Fields.assign result (units "headers") (.object normalized))
    else .object result
  else .object []

/-! ## Patterns -/

/-- What the engine does: which matches a regular expression has in a text from an index
on, where the match that it finds ends, and how texts are read. -/
structure Engine (ρ : Type u) where
  exec : ρ -> Units -> Nat -> Option Nat
  toLowerCase : Units -> Units
  toNumber : Units -> Number

/-- A regular expression. One with the flag `g` or `y` keeps the index it goes on from. -/
structure RegExp (ρ : Type u) where
  source : ρ
  keepsIndex : Bool
  lastIndex : Nat

inductive Pattern (ρ : Type u)
  | literal (start : Units)
  | expression (regExp : RegExp ρ)

variable {ρ : Type u} (engine : Engine ρ)

/-- `regExp.test(text)`, with the expression as the call leaves it. -/
def RegExp.test (text : Units) (regExp : RegExp ρ) : Bool × RegExp ρ :=
  if regExp.keepsIndex then
    if text.length < regExp.lastIndex then (false, { regExp with lastIndex := 0 })
    else
      match engine.exec regExp.source text regExp.lastIndex with
      | none => (false, { regExp with lastIndex := 0 })
      | some ending => (true, { regExp with lastIndex := ending })
  else ((engine.exec regExp.source text 0).isSome, regExp)

def Pattern.test (contentType : Units) (pattern : Pattern ρ) : Bool × Pattern ρ :=
  match pattern with
  | .literal start => ((engine.toLowerCase start).isPrefixOf (engine.toLowerCase contentType), .literal start)
  | .expression regExp =>
      let tested := regExp.test engine contentType
      (tested.1, .expression tested.2)

/-- Whether a pattern matches; those behind the first that does are not tested. -/
def matchesContentType (contentType : Units) : List (Pattern ρ) -> Bool × List (Pattern ρ)
  | [] => (false, [])
  | pattern :: patterns =>
      let tested := pattern.test engine contentType
      if tested.1 then (true, tested.2 :: patterns)
      else
        let rest := matchesContentType contentType patterns
        (rest.1, tested.2 :: rest.2)

/-! ## The gates -/

/-- What the host answers while a request is recorded: its predicate and its hook for the
user, where they are set. -/
structure Hooks where
  skipBody : Option (Value -> Except Thrown Value)
  resolveUser : Option (Value -> Except Thrown Value)

def contentLengthOf (headers : Value) : Option Number :=
  (headerValue headers (units "content-length")).bind fun raw =>
    match engine.toNumber raw with
    | .finite value => if 0 ≤ value then some (.finite value) else none
    | _ => none

/-- A size of the body that takes no walk over it. -/
def estimateBodyBytes (body : Value) (contentLength : Option Number) : Option Number :=
  match contentLength with
  | some contentLength => some contentLength
  | none =>
      match body with
      | .string text => some (.finite (byteLength text))
      | .binary name bytes => if name = units "ArrayBuffer" then none else some (.finite bytes)
      | _ => none

def readPayload (req : Value) : Value :=
  if req.has (units "body") then req.get (units "body") else .null

/-- The size of the body, if it is above the limit. -/
def oversize (maxBodyBytes : Option Number) (body headers : Value) : Option (Number × Number) :=
  maxBodyBytes.bind fun limit =>
    (estimateBodyBytes body (contentLengthOf engine headers)).bind fun bytes =>
      if limit.lt bytes then some (bytes, limit) else none

def contentTypeMarker (contentType : Units) : Units := units "[Skipped: " ++ contentType ++ units "]"

def sizeMarker (bytes limit : Number) : Units :=
  units "[Skipped: " ++ bytes.text ++ units " bytes > " ++ limit.text ++ units " bytes]"

def PREDICATE_MARKER : Units := units "[Skipped: skipBody predicate]"

/-- The gate of the content type, with the patterns as it leaves them. -/
def contentTypeGate (patterns : List (Pattern ρ)) (contentType : Option Units) : Bool × List (Pattern ρ) :=
  match contentType with
  | none => (false, patterns)
  | some contentType => matchesContentType engine contentType patterns

/-- The gate of the host's predicate. -/
def predicateGate (req : Value) (skipBody : Option (Value -> Except Thrown Value)) : Except Thrown Bool :=
  match skipBody with
  | none => .ok false
  | some predicate => (predicate (toTelescopeHttpRequest req)).map fun answer => !isFalsy answer

/-- The payload of a request: its body, or a marker of the gate that matches. -/
def gateRequestPayload (maxBodyBytes : Option Number) (patterns : List (Pattern ρ)) (req headers : Value)
    (skipBody : Option (Value -> Except Thrown Value)) : Except Thrown Value × List (Pattern ρ) :=
  let body := readPayload req
  let contentType := headerValue headers (units "content-type")
  let gate := contentTypeGate engine patterns contentType
  if gate.1 then (.ok (.string (contentTypeMarker (contentType.getD []))), gate.2)
  else
    match oversize engine maxBodyBytes body headers with
    | some (bytes, limit) => (.ok (.string (sizeMarker bytes limit)), gate.2)
    | none =>
        ((predicateGate req skipBody).map fun skips => if skips then .string PREDICATE_MARKER else body, gate.2)

/-- The user of a request; a hook that throws leaves none. -/
def readUser (req : Value) (resolveUser : Option (Value -> Except Thrown Value)) : Value :=
  match resolveUser with
  | some resolve =>
      match resolve req with
      | .ok user => orNull user
      | .error _thrown => .null
  | none => orNull (req.get (units "user"))

/-! ## The middleware -/

/-- A request whose response is not finished. -/
structure Pending where
  id : Nat
  request : NormalizedRequest
  route : Units
  isReplay : Bool

def Pending.ofRequest (id : Nat) (req : Value) : Pending :=
  let request := normalizeRequest req
  ⟨id, request, normalizeRoute request.method request.url, hasReplayHeader request.headers⟩

/-- What the listener finds: the request and its header object as they are by then, the
answers of the host, and the status. -/
structure Finish where
  req : Value
  headers : Value
  hooks : Hooks
  statusCode : Value
  durationMs : Rat

def requestContent (request : NormalizedRequest) (headers payload user statusCode : Value) : Value :=
  .object [(units "method", .string request.method), (units "uri", .string request.url),
    (units "headers", headers), (units "payload", payload), (units "user", user),
    (units "ip", request.ip.elim .null .string), (units "statusCode", statusCode)]

/-- What is handed to the recorder. -/
structure RequestRecord where
  familyHash : Units
  tags : List Units
  content : Value
  durationMs : Rat

def Pending.record (pending : Pending) (finish : Finish) (payload : Value) : RequestRecord where
  familyHash := pending.route
  tags := if pending.isReplay then [units "replay"] else []
  content := requestContent pending.request finish.headers payload
    (readUser finish.req finish.hooks.resolveUser) finish.statusCode
  durationMs := finish.durationMs

structure Options where
  pathPrefix : Units
  maxBodyBytes : Option Number

/-- The middleware, with a record of the responses that have finished, and of what was
thrown into the host. -/
structure Middleware (ρ : Type u) where
  patterns : List (Pattern ρ)
  pending : List Pending := []
  nextRequest : Nat := 0
  records : List RequestRecord := []
  finished : List (Pending × Finish) := []
  escaped : List Thrown := []

namespace Middleware

variable (options : Options)

/-- A request comes in. The response of one that is captured gets a listener. -/
def use (req : Value) (finishable : Bool) (state : Middleware ρ) : Middleware ρ :=
  if isTelescopePath (normalizeRequest req).url options.pathPrefix then state
  else if finishable then
    { state with
      pending := state.pending ++ [Pending.ofRequest state.nextRequest req]
      nextRequest := state.nextRequest + 1 }
  else state

/-- The listener is called, once. -/
def finish (id : Nat) (finish : Finish) (state : Middleware ρ) : Option (Middleware ρ) :=
  (state.pending.find? fun pending => decide (pending.id = id)).map fun pending =>
    let gated := gateRequestPayload engine options.maxBodyBytes state.patterns finish.req finish.headers
      finish.hooks.skipBody
    let called := { state with
      pending := state.pending.filter fun other => !decide (other.id = id)
      finished := state.finished ++ [(pending, finish)]
      patterns := gated.2 }
    match gated.1 with
    | .ok payload => { called with records := state.records ++ [pending.record finish payload] }
    | .error thrown => { called with escaped := state.escaped ++ [thrown] }

inductive Event
  | use (req : Value) (finishable : Bool)
  | finish (id : Nat) (finish : Finish)

def step (state : Middleware ρ) : Event -> Option (Middleware ρ)
  | .use req finishable => some (state.use options req finishable)
  | .finish id finish => state.finish engine options id finish

end Middleware

end Capture
end Nest
end Telescope
