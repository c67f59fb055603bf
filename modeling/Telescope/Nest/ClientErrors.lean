import Telescope.Core.CapturedEntry
import Telescope.Core.ExceptionFamily
import Telescope.Foundation.Grouping
import Telescope.Foundation.NumberLine
import Telescope.Foundation.Recency

namespace Telescope

/-!
# The rate limiter of the client error endpoint

Every address has a bucket of at most `perMinute` tokens, which is filled steadily.  There
are buckets for a bounded number of addresses; the one inserted first makes room for a new
one.  Sums and products are exact.
-/

namespace Number

/-- `left + right`, not rounded. -/
def exactAdd : Number -> Number -> Number
  | .finite left, .finite right => .finite (left + right)
  | .finite _left, .infinity negative => .infinity negative
  | .infinity negative, .finite _right => .infinity negative
  | .infinity left, .infinity right => if left = right then .infinity left else .nan
  | _, _ => .nan

/-- `left * right`, not rounded. -/
def exactMul : Number -> Number -> Number
  | .finite left, .finite right => .finite (left * right)
  | .finite left, .infinity negative => if left = 0 then .nan else .infinity (decide (left < 0) != negative)
  | .infinity negative, .finite right => if right = 0 then .nan else .infinity (negative != decide (right < 0))
  | .infinity left, .infinity right => .infinity (left != right)
  | _, _ => .nan

end Number

namespace Nest

/-- Default ceiling on the number of distinct addresses tracked at once. -/
def DEFAULT_MAX_TRACKED_IPS : Nat := 10000

/-- Default requests per minute of an address. -/
def DEFAULT_RATE_LIMIT_PER_MINUTE : Number := .finite 60

structure Bucket where
  tokens : Number
  lastRefillMs : Rat

structure ClientErrorRateLimiter where
  buckets : Grouping Units Bucket
  perMinute : Number
  maxTrackedIps : Nat
  refillPerMs : Number

namespace ClientErrorRateLimiter

/-- A rate that is not positive counts as one request a minute. -/
def guarded (perMinute : Number) : Number :=
  if Number.lt (.finite 0) perMinute then perMinute else .finite 1

def new (perMinute : Number) (maxTrackedIps : Option Nat) : ClientErrorRateLimiter where
  buckets := .empty
  perMinute := guarded perMinute
  maxTrackedIps := maxTrackedIps.getD DEFAULT_MAX_TRACKED_IPS
  refillPerMs := Number.exactMul (guarded perMinute) (.finite (1 / 60000))

/-- The limiter that the controller builds from its option. -/
def limiter (perMinute : Option Number) : ClientErrorRateLimiter :=
  new (perMinute.getD DEFAULT_RATE_LIMIT_PER_MINUTE) none

/-- Delete the buckets inserted first until there is room for one. -/
def evict (limiter : ClientErrorRateLimiter) : Grouping Units Bucket where
  groups := (Recency.shed (fun size => limiter.maxTrackedIps ≤ size) limiter.buckets.groups).2
  distinct := by
    have kept := limiter.buckets.distinct
    rw [← Recency.shed_append (fun size => limiter.maxTrackedIps ≤ size) limiter.buckets.groups, List.map_append,
      List.nodup_append] at kept
    exact kept.2.1

def insert (limiter : ClientErrorRateLimiter) (ip : Units) (bucket : Bucket) : ClientErrorRateLimiter :=
  { limiter with buckets := limiter.evict.upsert ip bucket fun _ => bucket }

/-- The tokens of an existing bucket with its refill. -/
def refilled (limiter : ClientErrorRateLimiter) (existing : Bucket) (nowMs : Rat) : Number :=
  let elapsedMs := nowMs - existing.lastRefillMs
  Number.min limiter.perMinute
    (Number.exactAdd existing.tokens (Number.exactMul (.finite elapsedMs) limiter.refillPerMs))

/-- Refill an existing bucket, and take a token if there is a whole one. -/
def spend (limiter : ClientErrorRateLimiter) (existing : Bucket) (nowMs : Rat) : Bool × Bucket :=
  if (limiter.refilled existing nowMs).lt (.finite 1) then (false, ⟨limiter.refilled existing nowMs, nowMs⟩)
  else (true, ⟨Number.exactAdd (limiter.refilled existing nowMs) (.finite (-1)), nowMs⟩)

def tryConsume (limiter : ClientErrorRateLimiter) (ip : Units) (nowMs : Rat) : Bool × ClientErrorRateLimiter :=
  match limiter.buckets.lookup ip with
  | none => (true, limiter.insert ip ⟨Number.exactAdd limiter.perMinute (.finite (-1)), nowMs⟩)
  | some existing =>
      let spent := limiter.spend existing nowMs
      (spent.1, { limiter with buckets := limiter.buckets.upsert ip spent.2 fun _ => spent.2 })

end ClientErrorRateLimiter

/-! ## Requests one after another -/

structure Request where
  ip : Units
  nowMs : Rat
  deriving DecidableEq

namespace ClientErrorRateLimiter

/-- The requests, and whether they were allowed. -/
def serve (limiter : ClientErrorRateLimiter) : List Request -> List (Request × Bool)
  | [] => []
  | request :: requests =>
      (request, (limiter.tryConsume request.ip request.nowMs).1) ::
        serve (limiter.tryConsume request.ip request.nowMs).2 requests

/-- The limiter after some requests. -/
def after (limiter : ClientErrorRateLimiter) (requests : List Request) : ClientErrorRateLimiter :=
  requests.foldl (fun limiter request => (limiter.tryConsume request.ip request.nowMs).2) limiter

/-- The answers that allowed a request of an address in a stretch of time. -/
def allowedBetween (ip : Units) (start stop : Rat) (answers : List (Request × Bool)) : List (Request × Bool) :=
  answers.filter fun answer =>
    decide (answer.1.ip = ip ∧ answer.2 = true ∧ start ≤ answer.1.nowMs ∧ answer.1.nowMs ≤ stop)

/-- The requests come in the order of their times. -/
def Ordered (requests : List Request) : Prop := requests.Pairwise fun earlier later => earlier.nowMs ≤ later.nowMs

/-- The addresses are no more than are tracked. -/
def Fits (maxTrackedIps : Option Nat) (requests : List Request) : Prop :=
  (requests.map Request.ip).dedup.length ≤ maxTrackedIps.getD DEFAULT_MAX_TRACKED_IPS

/-- What the limiter promises its callers about some requests: an address gets no more than
its allowance and the refill of a stretch of time, whatever others do, and if it waits long
enough, it is allowed again. -/
structure Contract (perMinute : Number) (maxTrackedIps : Option Nat) (requests : List Request) : Prop where
  bounded : forall ip start stop rate, start ≤ stop -> perMinute = .finite rate ->
    ((allowedBetween ip start stop ((new perMinute maxTrackedIps).serve requests)).length : Rat) ≤
      rate + (stop - start) * (rate / 60000)
  independent : forall ip,
    ((new perMinute maxTrackedIps).serve requests).filter (fun answer => decide (answer.1.ip = ip)) =
      (new perMinute maxTrackedIps).serve (requests.filter fun request => decide (request.ip = ip))
  allowedAgain : Exists fun wait => forall ip nowMs, (forall request, request ∈ requests -> request.nowMs ≤ nowMs) ->
    (forall request, request ∈ requests -> request.ip = ip -> request.nowMs + wait ≤ nowMs) ->
      (((new perMinute maxTrackedIps).after requests).tryConsume ip nowMs).1 = true

end ClientErrorRateLimiter

end Nest
end Telescope

namespace Telescope
namespace Nest

/-!
# The client error endpoint

A browser reports an error.  Its body is not trusted: the endpoint checks it, cuts its
strings and records an entry, in whose content the short fields come before the stacks.
-/

/-! ## Validation -/

def STACK_MAX : Nat := 16 * 1024
def COMPONENT_STACK_MAX : Nat := 16 * 1024
def MESSAGE_MAX : Nat := 2 * 1024
def SHORT_FIELD_MAX : Nat := 2 * 1024
def NAME_MAX : Nat := 256
def RELEASE_MAX : Nat := 256

/-- A validated body; the address of the client is no part of it. -/
structure ClientExceptionContent where
  message : Units
  name : Option Units
  stack : Option Units
  componentStack : Option Units
  url : Option Units
  userAgent : Option Units
  user : Value
  release : Option Units
  extra : Option Value

/-- An object that is no array. -/
def isPlainRecord : Value -> Bool
  | .array _elements => false
  | value => value.isRecord

/-- `value.length > max ? value.slice(0, max) : value` -/
def capped (max : Nat) (text : Units) : Units := if max < text.length then text.take max else text

def optionalString (value : Value) (field : Units) (max : Nat) : Except Units (Option Units) :=
  match value with
  | .undefined => .ok none
  | .null => .ok none
  | .string text => .ok (some (capped max text))
  | _ => .error (units "`" ++ field ++ units "` must be a string")

def optionalExtra (value : Value) : Except Units (Option Value) :=
  match value with
  | .undefined => .ok none
  | .null => .ok none
  | value => if isPlainRecord value then .ok (some value) else .error (units "`extra` must be an object")

def requiredMessage (value : Value) : Except Units Units :=
  match value with
  | .string (unit :: text) => .ok (capped MESSAGE_MAX (unit :: text))
  | _ => .error (units "`message` is required and must be a non-empty string")

def validateClientErrorBody (body : Value) : Except Units ClientExceptionContent :=
  if isPlainRecord body then do
    let message <- requiredMessage (body.get (units "message"))
    let name <- optionalString (body.get (units "name")) (units "name") NAME_MAX
    let stack <- optionalString (body.get (units "stack")) (units "stack") STACK_MAX
    let componentStack <-
      optionalString (body.get (units "componentStack")) (units "componentStack") COMPONENT_STACK_MAX
    let url <- optionalString (body.get (units "url")) (units "url") SHORT_FIELD_MAX
    let userAgent <- optionalString (body.get (units "userAgent")) (units "userAgent") SHORT_FIELD_MAX
    let release <- optionalString (body.get (units "release")) (units "release") RELEASE_MAX
    let extra <- optionalExtra (body.get (units "extra"))
    return {
      message, name, stack, componentStack, url, userAgent
      user := if body.has (units "user") then body.get (units "user") else .null
      release, extra }
  else .error (units "Body must be a JSON object")

/-! ## The record -/

/-- A string, or `null`. -/
def text? : Option Units -> Value
  | none => .null
  | some text => .string text

/-- The fields that identify the error. -/
def ClientExceptionContent.identifying (content : ClientExceptionContent) : List (Units × Value) :=
  [(units "message", .string content.message), (units "name", text? content.name),
    (units "url", text? content.url), (units "userAgent", text? content.userAgent)]

/-- The content of the entry: the order of the fields is that in which redaction takes them. -/
def ClientExceptionContent.fields (ip : Option Units) (content : ClientExceptionContent) : List (Units × Value) :=
  (units "clientIp", text? ip) :: content.identifying ++
    [(units "user", content.user), (units "release", text? content.release),
      (units "extra", content.extra.getD .null), (units "stack", text? content.stack),
      (units "componentStack", text? content.componentStack)]

/-- What the endpoint hands to the recorder. -/
def clientErrorRecord (ip : Option Units) (content : ClientExceptionContent) : RecordInput where
  type := EntryType.clientException
  familyHash := some (ExceptionFamily.exceptionFamilyHash
    { name := content.name.getD [], message := content.message, stack := content.stack })
  tags := some ([units "failed", units "client"] ++ (userIdentityTag content.user).toList)
  content := .object (content.fields ip)

/-! ## Requests -/

structure ClientErrorsOptions where
  enabled : Bool
  maxBodyBytes : Option Nat := none
  perMinute : Option Number := none
  /-- A hook decides which requests are let in. -/
  authorizes : Bool := false

def DEFAULT_MAX_BODY_BYTES : Nat := 32768

/-- What is read of a request, and what the hook answers to it. -/
structure ClientErrorRequest where
  body : Value
  forwarded : Value
  ip : Value
  remoteAddress : Value
  authorized : Except Units Value

def COMMA : Text.CodeUnit := 44

/-- The first address of the header that the proxies fill, unless it is empty. -/
def firstHop : Value -> Option Units
  | .string forwarded =>
      ((forwarded.splitOn COMMA).head?.map (Spacing.trim Units.isSpace)).filter fun hop => decide (0 < hop.length)
  | _ => none

def clientIp (request : ClientErrorRequest) : Option Units :=
  (firstHop request.forwarded).orElse fun _none =>
    (request.ip.string?.filter fun ip => decide (0 < ip.length)).orElse fun _none => request.remoteAddress.string?

structure HttpException where
  status : Nat
  message : Option Units := none

structure ClientErrorController where
  rateLimiter : Option ClientErrorRateLimiter
  warnedAuthorize : Bool

namespace ClientErrorController

def initial : ClientErrorController where
  rateLimiter := none
  warnedAuthorize := false

/-- What a request comes to: a record or an exception, and a warning. -/
structure Outcome where
  result : Except HttpException RecordInput
  warning : Option Units := none

/-- Whether the hook lets the request in; a hook that throws does not, and is reported once. -/
def runAuthorize (controller : ClientErrorController) (authorized : Except Units Value) :
    Bool × Option Units × ClientErrorController :=
  match authorized with
  | .ok (.boolean answer) => (answer, none, controller)
  | .ok _answer => (false, none, controller)
  | .error message =>
      if controller.warnedAuthorize then (false, none, controller)
      else
        (false,
          some (units "Telescope clientErrors authorize hook threw; treating as denial. " ++ message),
          { controller with warnedAuthorize := true })

/-- The limiter is built for the first request that gets so far. -/
def limiter (controller : ClientErrorController) (config : ClientErrorsOptions) : ClientErrorRateLimiter :=
  controller.rateLimiter.getD (ClientErrorRateLimiter.limiter config.perMinute)

section Ingest

variable (bodyByteSize : Value -> Nat)

/-- A request that was let in. -/
def accept (controller : ClientErrorController) (config : ClientErrorsOptions) (request : ClientErrorRequest)
    (nowMs : Rat) : Except HttpException RecordInput × ClientErrorController :=
  if config.maxBodyBytes.getD DEFAULT_MAX_BODY_BYTES < bodyByteSize request.body then
    (.error ⟨413, some (units "Body exceeds the configured size limit")⟩, controller)
  else
    let consumed := (controller.limiter config).tryConsume ((clientIp request).getD (units "unknown")) nowMs
    let next := { controller with rateLimiter := some consumed.2 }
    if consumed.1 then
      match validateClientErrorBody request.body with
      | .error reason => (.error ⟨400, some reason⟩, next)
      | .ok content => (.ok (clientErrorRecord (clientIp request) content), next)
    else (.error ⟨429, some (units "Rate limit exceeded")⟩, next)

def ingest (controller : ClientErrorController) (config : Option ClientErrorsOptions) (request : ClientErrorRequest)
    (nowMs : Rat) : Outcome × ClientErrorController :=
  match config with
  | none => (⟨.error ⟨404, none⟩, none⟩, controller)
  | some config =>
      if config.enabled then
        if config.authorizes then
          let answered := controller.runAuthorize request.authorized
          if answered.1 then
            let accepted := answered.2.2.accept bodyByteSize config request nowMs
            (⟨accepted.1, answered.2.1⟩, accepted.2)
          else (⟨.error ⟨403, none⟩, answered.2.1⟩, answered.2.2)
        else
          let accepted := controller.accept bodyByteSize config request nowMs
          (⟨accepted.1, none⟩, accepted.2)
      else (⟨.error ⟨404, none⟩, none⟩, controller)

end Ingest
end ClientErrorController
end Nest
end Telescope
