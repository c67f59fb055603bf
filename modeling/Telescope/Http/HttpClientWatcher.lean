import Telescope.Http.Runtime
import Telescope.Observe.Encode

namespace Telescope
namespace Http

/-!
# The watcher of the HTTP client

What the wrapped `fetch` and the interceptors of axios do with a request and with what
becomes of it: the target is described, its URL sanitized, and an entry recorded.  Only
the recording and the parsing of URLs stand in a `try` block.
-/

/-! ## Sanitizing -/

/-- The words of `SENSITIVE_PARAM`. -/
def SENSITIVE_WORDS : List Units :=
  [units "token", units "secret", units "password", units "passwd", units "apikey", units "api-key", units "api_key",
    units "accesskey", units "access-key", units "access_key", units "auth", units "credential"]

/-- `SENSITIVE_PARAM.test(key)`. -/
def isSensitive (key : Units) : Bool :=
  SENSITIVE_WORDS.any fun word => decide (word <:+: Units.toLowerAscii key)

def REDACTED : Units := units "[REDACTED]"

/-- The loop over the names of the parameters. -/
def redactParameters (web : Web) (url : Url) : Url :=
  (url.parameters.map Prod.fst).foldl
    (fun url key => if isSensitive key then url.setSearchParam web key REDACTED else url) url

structure Sanitized where
  url : Runtime
  host : Option Units

/-- `sanitizeUrl` -/
def sanitizeUrl (web : Web) (rawUrl : Runtime) : Sanitized :=
  match rawUrl.text with
  | .error _thrown => { url := rawUrl, host := none }
  | .ok text =>
      match web.parse text with
      | none => { url := rawUrl, host := none }
      | some parsed =>
          { url := .string (redactParameters web parsed.withoutCredentials).href, host := some parsed.host }

/-- Which request it is. -/
structure Described where
  method : Runtime
  url : Runtime
  host : Option Units

/-! ## Requests of `fetch` -/

/-- The first argument: a string, a `URL` by its `href`, a `Request`, or anything else. -/
inductive FetchInput
  | text (url : Units)
  | urlObject (href : Units)
  | request (url method : Units)
  | other

namespace FetchInput

def rawUrl : FetchInput -> Units
  | .text url => url
  | .urlObject href => href
  | .request url _method => url
  | .other => []

def method : FetchInput -> Units
  | .request _url method => method
  | _ => units "GET"

end FetchInput

/-- `init && typeof init.method === 'string'`, and then the method. -/
def initMethod (init : Runtime) : Option Units :=
  match init.get (units "method") with
  | .ok (.string method) => if init.truthy then some method else none
  | _ => none

def describeRequest (web : Web) (input : FetchInput) (init : Runtime) : Described :=
  let sanitized := sanitizeUrl web (.string input.rawUrl)
  { method := .string (web.upperCase ((initMethod init).getD input.method))
    url := sanitized.url
    host := sanitized.host }

/-! ## Requests of axios -/

/-- What is read of a request configuration. -/
structure AxiosRequestConfig where
  method : Runtime
  baseURL : Runtime
  url : Runtime
  params : Runtime

/-- `(config ?? {}).name` -/
def readField (config : Runtime) (name : Units) : Runtime :=
  match config.get name with
  | .error _thrown => .undefined
  | .ok value => value

def readConfig (config : Runtime) : AxiosRequestConfig where
  method := readField config (units "method")
  baseURL := readField config (units "baseURL")
  url := readField config (units "url")
  params := readField config (units "params")

/-- `/^https?:\/\//i.test(path)`. -/
def isAbsolute (path : Units) : Bool :=
  let path := Units.toLowerAscii path
  (units "http://").isPrefixOf path || (units "https://").isPrefixOf path

namespace AxiosRequestConfig

/-- `config.baseURL ?? ''` -/
def base (config : AxiosRequestConfig) : Runtime := config.baseURL.orElse (.string [])

/-- `config.url ?? ''` -/
def path (config : AxiosRequestConfig) : Runtime := config.url.orElse (.string [])

/-- Base and path, with one slash at the seam. -/
def seam (web : Web) (config : AxiosRequestConfig) : Attempt Units := do
  let base <- config.base.call web.upperCase .dropSlashesAtEnd
  let front <- base.text
  let path <- config.path.call web.upperCase .dropSlashesAtStart
  let rest <- path.text
  return front ++ SLASH :: rest

/-- `path || base` -/
def single (config : AxiosRequestConfig) : Runtime := if config.path.truthy then config.path else config.base

/-- The URL in front of the parameters: an absolute `url` wins over `baseURL`. -/
def join (web : Web) (config : AxiosRequestConfig) : Attempt Runtime :=
  if config.base.truthy && config.path.truthy then do
    let text <- config.path.text
    if isAbsolute text then return config.path
    else do
      let joined <- config.seam web
      return .string joined
  else .ok config.single

/-- The parameters that are appended: those of an object literal but `undefined` and `null`. -/
def entries (config : AxiosRequestConfig) : List (Units × Runtime) :=
  match config.params with
  | .object shape =>
      if !shape.callable && shape.plain then shape.own.filter fun entry => !entry.2.nullish else []
  | _ => []

/-- `search.append(key, String(value))` for each of them. -/
def search (config : AxiosRequestConfig) : Attempt (List (Units × Units)) :=
  config.entries.mapM fun entry => entry.2.stringOf.map fun text => (entry.1, text)

/-- `rawUrl += (rawUrl.includes('?') ? '&' : '?') + qs`, for a query that is not empty. -/
def append (web : Web) (rawUrl : Runtime) (query : Units) : Attempt Runtime :=
  if query.isEmpty then .ok rawUrl
  else do
    let includes <- rawUrl.call web.upperCase .includesQuestionMark
    let joined <- rawUrl.plus ((if includes.truthy then AMPERSAND else QUESTION_MARK) :: query)
    return .string joined

end AxiosRequestConfig

def describeAxiosRequest (web : Web) (config : AxiosRequestConfig) : Attempt Described := do
  let method <- (config.method.orElse (.string (units "GET"))).call web.upperCase .toUpperCase
  let joined <- config.join web
  let search <- config.search
  let rawUrl <- AxiosRequestConfig.append web joined (web.serialize search)
  let sanitized := sanitizeUrl web rawUrl
  return { method := method, url := sanitized.url, host := sanitized.host }

/-! ## Families -/

/-- The path with its id-like segments replaced. -/
def normalizePath (path : Units) : Units :=
  [SLASH].intercalate ((path.splitOn SLASH).map fun segment =>
    if Observe.isIdSegment segment then units ":id" else segment)

/-- `normalizeRoute`, on any values. -/
def normalizeRoute (web : Web) (method url : Runtime) : Attempt Units := do
  let path <- url.call web.upperCase .path
  let path <- path.text
  let method <- method.text
  return method ++ units " " ++ normalizePath path

def normalizeHttpTarget (web : Web) (method url : Runtime) : Attempt Units :=
  match url.text with
  | .error _thrown => normalizeRoute web method url
  | .ok text =>
      match web.parse text with
      | none => normalizeRoute web method url
      | some parsed => do
          let method <- method.text
          return method ++ units " " ++ parsed.host ++ normalizePath parsed.site.pathname

/-! ## Recording -/

structure HttpClientContent where
  method : Runtime
  url : Runtime
  host : Option Units
  statusCode : Runtime
  durationMs : Int

/-- What is handed to the recorder. -/
structure HttpClientInput where
  content : HttpClientContent
  familyHash : Units
  durationMs : Int
  tags : List Units

/-- The watcher with what it calls: the recorder, the clock at its next reading, and
`statusCode >= 500`, which converts. -/
structure HttpClientWatcher where
  web : Web
  slowMs : Int
  now : Int
  atLeast500 : Runtime -> Attempt Bool
  record : HttpClientInput -> Attempt Unit

/-- The tag of the host, unless it is empty. -/
def hostTags (host : Option Units) : List Units :=
  match host with
  | none => []
  | some host => if host.isEmpty then [] else [units "host:" ++ host]

namespace HttpClientWatcher

/-- `content.statusCode === null || content.statusCode >= 500` -/
def failed (watcher : HttpClientWatcher) : Runtime -> Attempt Bool
  | .null => .ok true
  | statusCode => watcher.atLeast500 statusCode

/-- The `try` block of `safeRecord`. -/
def recordContent (watcher : HttpClientWatcher) (content : HttpClientContent) : Attempt Unit := do
  let failed <- watcher.failed content.statusCode
  let familyHash <- normalizeHttpTarget watcher.web content.method content.url
  watcher.record
    { content := content
      familyHash := familyHash
      durationMs := content.durationMs
      tags := hostTags content.host ++ (if failed then [units "failed"] else []) ++
        if watcher.slowMs ≤ content.durationMs then [units "slow"] else [] }

/-- `safeRecord`, with the line that it logs. -/
def safeRecord (watcher : HttpClientWatcher) (content : HttpClientContent) : Attempt (Option Units) :=
  match watcher.recordContent content with
  | .ok _recorded => .ok none
  | .error recordError =>
      match recordError.message with
      | none => .error typeError
      | some message => .ok (some (units "HttpClientWatcher: failed to record entry: " ++ message))

end HttpClientWatcher

/-! ## The wrapped `fetch` -/

/-- How a promise is settled for the host: with a value of its own, or with what the
watcher has thrown. -/
inductive Settled
  | resolved (value : Runtime)
  | rejected (reason : Runtime)
  | escaped (thrown : Thrown)

/-- A promise settled without the watcher. -/
def Settled.ofOriginal : Except Runtime Runtime -> Settled
  | .ok value => .resolved value
  | .error reason => .rejected reason

namespace HttpClientWatcher

/-- The content of a described request with its outcome. -/
def contentOf (described : Described) (statusCode : Runtime) (durationMs : Int) : HttpClientContent :=
  { method := described.method
    url := described.url
    host := described.host
    statusCode := statusCode
    durationMs := durationMs }

/-- The rest of the `try` block of `patchedFetch`, after the original `fetch` has resolved. -/
def recordResponse (watcher : HttpClientWatcher) (described : Described) (response : Runtime) (durationMs : Int) :
    Attempt (Option Units) := do
  let status <- response.get (units "status")
  watcher.safeRecord (contentOf described status durationMs)

/-- The `catch` block of `patchedFetch`. -/
def recordFailure (watcher : HttpClientWatcher) (described : Described) (durationMs : Int) (rethrown : Settled) : Settled :=
  match watcher.safeRecord (contentOf described .null durationMs) with
  | .error thrown => .escaped thrown
  | .ok _logged => rethrown

/-- `patchedFetch`, for a request that took so long and is settled like this by the
original `fetch`. -/
def patchedFetch (watcher : HttpClientWatcher) (input : FetchInput) (init : Runtime) (durationMs : Int)
    (original : Except Runtime Runtime) : Settled :=
  let described := describeRequest watcher.web input init
  match original with
  | .error reason => watcher.recordFailure described durationMs (.rejected reason)
  | .ok response =>
      match watcher.recordResponse described response durationMs with
      | .ok _logged => .resolved response
      | .error thrown => watcher.recordFailure described durationMs (.escaped thrown)

/-! ## The interceptors of axios -/

/-- `axiosStartedAt`: the start times, under the identities of configurations. -/
abbrev StartTimes := Nat -> Option Int

/-- The interceptor of requests.  Only an object can be a key of the start times. -/
def onRequest (watcher : HttpClientWatcher) (startedAt : StartTimes) (config : Runtime) :
    Attempt Runtime × StartTimes :=
  match config with
  | .object shape =>
      (.ok config, fun identity => if identity = shape.identity then some watcher.now else startedAt identity)
  | _ => (.error typeError, startedAt)

/-- `axiosStartedAt.get(config)` -/
def startOf (startedAt : StartTimes) : Runtime -> Option Int
  | .object shape => startedAt shape.identity
  | _ => none

/-- `axiosStartedAt.delete(config)` -/
def forget (startedAt : StartTimes) : Runtime -> StartTimes
  | .object shape => fun identity => if identity = shape.identity then none else startedAt identity
  | _ => startedAt

def recordAxios (watcher : HttpClientWatcher) (startedAt : StartTimes) (config statusCode : Runtime) :
    Attempt (Option Units) := do
  let described <- describeAxiosRequest watcher.web (readConfig config)
  watcher.safeRecord (contentOf described statusCode
    ((startOf startedAt config).elim 0 fun start => max 0 (watcher.now - start)))

/-- The fields of an `AxiosErrorLike`. -/
structure AxiosError where
  config : Runtime
  status : Runtime

/-- `asAxiosError`: an object as the configuration, and a number as the status. -/
def asAxiosError (error : Runtime) : AxiosError :=
  let candidate := if error.isObject then error else .undefined
  let config := readField candidate (units "config")
  let response := readField candidate (units "response")
  { config := if config.isObject then config else .undefined
    status :=
      if response.isObject then
        match readField response (units "status") with
        | .number status => .number status
        | _ => .null
      else .null }

/-- What the handler of a response does with the outcome of recording. -/
def settle (settled : Settled) : Attempt (Option Units) -> Settled
  | .ok _logged => settled
  | .error thrown => .escaped thrown

/-- The interceptor of responses. -/
def onFulfilled (watcher : HttpClientWatcher) (startedAt : StartTimes) (response : Runtime) : Settled × StartTimes :=
  match response.get (units "config"), response.get (units "status") with
  | .ok config, .ok status =>
      (settle (.resolved response) (watcher.recordAxios startedAt config status), forget startedAt config)
  | .error thrown, _status => (.escaped thrown, startedAt)
  | _config, .error thrown => (.escaped thrown, startedAt)

/-- The interceptor of errors. -/
def onRejected (watcher : HttpClientWatcher) (startedAt : StartTimes) (error : Runtime) : Settled × StartTimes :=
  let axiosError := asAxiosError error
  (settle (.rejected error) (watcher.recordAxios startedAt axiosError.config axiosError.status),
    forget startedAt axiosError.config)

end HttpClientWatcher
end Http
end Telescope
