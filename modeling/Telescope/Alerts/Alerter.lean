import Telescope.Core.StorageProvider
import Telescope.Core.Value
import Telescope.Foundation.Recency
import Telescope.Foundation.Throwing

namespace Telescope
namespace Alerts

/-!
# Evaluating the exceptions of a flush

The alerter looks at the exception entries that a flush has stored, one after the
other.  A family that is new to its window, or any exception under the other rule,
fires an alert: the store is read for its context, the hooks may add to it, and the
alert goes to every channel.  The store, the hooks and the channels answer as they
like, also with a rejection of any value.
-/

/-! ## Thrown values -/

/-- A value that was thrown or rejected with, by what a handler can make of it: the
text of its `message`, and the text of the value itself.  Reading either may throw. -/
inductive Thrown
  | undefined
  | null
  | primitive (text : Units)
  | error (message : Except Thrown Units)
  | object (message text : Except Thrown Units)

namespace Thrown

/-- The engine's own error. -/
def typeError (message : Units) : Thrown := .error (.ok message)

/-- `${(error as Error).message}`. -/
def message : Thrown -> Except Thrown Units
  | .undefined => .error (typeError (units "Cannot read properties of undefined (reading 'message')"))
  | .null => .error (typeError (units "Cannot read properties of null (reading 'message')"))
  | .primitive _text => .ok (units "undefined")
  | .error message => message
  | .object message _text => message

/-- `${reason instanceof Error ? reason.message : String(reason)}`. -/
def describe : Thrown -> Except Thrown Units
  | .undefined => .ok (units "undefined")
  | .null => .ok (units "null")
  | .primitive text => .ok text
  | .error message => message
  | .object _message text => text

/-- A handler can read the message of the value. -/
def Readable (thrown : Thrown) : Prop := Exists fun text => thrown.message = .ok text

theorem readable_typeError (text : Units) : (typeError text).Readable := ⟨text, rfl⟩

end Thrown

/-! ## Rules -/

/-- The factor of a duration's unit. -/
def durationUnit : Text -> Option Nat
  | ['m', 's'] => some 1
  | ['s'] => some 1000
  | ['m'] => some 60000
  | ['h'] => some 3600000
  | ['d'] => some 86400000
  | _ => none

/-- Milliseconds of a trimmed duration `<int><ms|s|m|h|d>`. -/
def durationToMs (duration : Text) : Option Nat :=
  let digits := duration.takeWhile Char.isDigit
  if digits = [] then none
  else (durationUnit (duration.drop digits.length)).map fun factor => Decimal.value digits * factor

/-- A window that boot has found to be a duration. -/
structure Window where
  text : Text
  isDuration : (durationToMs text).isSome

def Window.ms (window : Window) : Nat := (durationToMs window.text).get window.isDuration

inductive RuleType
  | newException
  | everyException
  deriving DecidableEq

def RuleType.text : RuleType -> Text
  | .newException => "new-exception".toList
  | .everyException => "every-exception".toList

/-- A rule that flushes drive. -/
structure ExceptionRule where
  type : RuleType
  window : Option Window

/-- The window that counts the occurrences of a rule without one. -/
def DEFAULT_EVERY_WINDOW : Window := ⟨['1', 'h'], rfl⟩

def ALERT_SCAN_CAP : Nat := 10000
def ALERT_STACK_FRAME_LIMIT : Nat := 12
def DEFAULT_PAGE_SIZE : Int := 5000

/-! ## Payloads -/

structure AlertGeoLocation where
  city : Option Units
  region : Option Units
  country : Option Units
  countryCode : Option Units

structure ExceptionAlertContext where
  familyHash : Text
  className : Units
  message : Units
  stack : Option Units
  route : Option Units
  method : Option Units
  userAgent : Option Units
  referer : Option Units
  componentStack : Option Units
  extra : Option Value
  client : Bool
  clientIp : Option Units
  geo : Option AlertGeoLocation
  statusCode : Option Number
  durationMs : Option Rat
  user : Option Text
  occurrences : Nat
  isNew : Bool
  entryId : Text
  batchId : Text

structure AlertPayload where
  rule : ExceptionRule
  value : Nat
  threshold : Nat
  firedAt : Int
  instanceId : Text
  exception : ExceptionAlertContext
  dashboardUrl : Option Text
  diagnosis : Option Text

/-! ## The parties of an evaluation -/

inductive Request
  | now
  | markFamilySeen (familyHash : Text) (nowMs : Int) (windowMs : Nat)
  | get (query : EntryQuery)
  | batch (batchId : Text)
  | geoLookup (clientIp : Units)
  | diagnosisFor (familyHash : Text)
  | send (payload : AlertPayload)

/-- How the channels answer: a synchronous throw of one of them, or the outcome of
each.  Meanwhile the interval rules may have warned about channels. -/
structure Dispatched where
  warnedMeanwhile : List Text
  results : Except Thrown (List (Except Thrown Unit))

/-- Replies; an error is a throw or a rejection.  For `diagnosisFor` the outer error
is a synchronous throw and the inner one a rejection. -/
abbrev Reply : Request -> Type
  | .now => Int
  | .markFamilySeen _familyHash _nowMs _windowMs => Except Thrown Bool
  | .get _query => Except Thrown (Page Value)
  | .batch _batchId => Except Thrown (List (Entry Value))
  | .geoLookup _clientIp => Except Thrown (Option AlertGeoLocation)
  | .diagnosisFor _familyHash => Except Thrown (Except Thrown (Option Text))
  | .send _payload => Dispatched

/-- A channel, by the name its failures are logged under. -/
structure AlertChannel where
  name : Text

/-- What the alerter is built with: the resolved alerts, which optional functions
exist, and the bound on its maps. -/
structure TelescopeAlerterDeps where
  channels : List AlertChannel
  dashboardUrl : Option Text
  instanceId : Text
  cooldownMs : Nat
  newExceptionWindow : Option Window
  everyException : Option (Option Window)
  sharesFamilies : Bool
  looksUpGeo : Bool
  diagnoses : Bool
  maxFamilies : Nat

/-- The maps of the alerter and of its tracker, in insertion order, and what was
logged. -/
structure Memory where
  seen : List (Text × Int) := []
  lastFiredFamily : List (Text × Int) := []
  warnedChannels : List Text := []
  logged : List Units := []

abbrev Evaluation := Throwing Request Reply Memory Thrown

def warn (line : Units) : Evaluation PUnit :=
  Throwing.update fun memory => { memory with logged := memory.logged ++ [line] }

/-! ## The maps of families -/

/-- `NewExceptionTracker.observe`. -/
def observe (maxFamilies : Nat) (familyHash : Text) (nowMs : Int) (windowMs : Nat)
    (seen : List (Text × Int)) : Bool × List (Text × Int) :=
  let isNew :=
    match Recency.get Prod.fst seen familyHash with
    | none => true
    | some lastSeen => decide (nowMs - lastSeen.2 ≥ windowMs)
  (isNew, (Recency.shed (maxFamilies < ·) (Recency.touch Prod.fst seen (familyHash, nowMs))).2)

def cooldownKey (ruleType : RuleType) (familyHash : Text) : Text := ruleType.text ++ '|' :: familyHash

variable (deps : TelescopeAlerterDeps)

def markFamilyFired (ruleType : RuleType) (familyHash : Text) (nowMs : Int) : Evaluation PUnit :=
  Throwing.update fun memory =>
    { memory with
      lastFiredFamily :=
        (Recency.shed (deps.maxFamilies < ·)
          (Recency.touch Prod.fst memory.lastFiredFamily (cooldownKey ruleType familyHash, nowMs))).2 }

def familyInCooldown (ruleType : RuleType) (familyHash : Text) (nowMs : Int) (memory : Memory) : Bool :=
  match Recency.get Prod.fst memory.lastFiredFamily (cooldownKey ruleType familyHash) with
  | none => false
  | some last => decide (nowMs - last.2 < deps.cooldownMs)

/-- Whether the family is new to the window: by the shared marks, or by the tracker of
this replica where there are none or they fail. -/
def observeFamily (familyHash : Text) (nowMs : Int) (windowMs : Nat) : Evaluation Bool := do
  let shared <-
    (if deps.sharesFamilies then do
      match <- Throwing.ask (Request.markFamilySeen familyHash nowMs windowMs) with
      | .ok isNew => pure (some isNew)
      | .error error =>
          let message <- Throwing.computed error.message
          warn (units "Telescope shared new-exception dedup failed, falling back to per-replica: " ++
            message)
          pure none
    else pure none : Evaluation (Option Bool))
  match shared with
  | some isNew => pure isNew
  | none =>
      let memory <- Throwing.current
      let observed := observe deps.maxFamilies familyHash nowMs windowMs memory.seen
      Throwing.update fun memory => { memory with seen := observed.2 }
      pure observed.1

/-! ## The context of an alert -/

/-- Page through the store for all entries of a query, up to a cap.  Every page that is
followed by another brings an entry, so as many pages as the cap are enough. -/
def collectPages (query : EntryQuery) (scanCap : Nat) :
    Nat -> Option Text -> List (Entry Value) -> Evaluation (List (Entry Value))
  | 0, _cursor, entries => pure (entries.take scanCap)
  | pages + 1, cursor, entries => do
      let page <- Throwing.ask (Request.get { query with cursor := cursor, limit := some DEFAULT_PAGE_SIZE })
      match page with
      | .error error => throw error
      | .ok page =>
          if page.data = [] then pure (entries.take scanCap)
          else if scanCap ≤ (entries ++ page.data).length then pure ((entries ++ page.data).take scanCap)
          else if page.nextCursor = none ∨ page.nextCursor = cursor then
            pure ((entries ++ page.data).take scanCap)
          else collectPages query scanCap pages page.nextCursor (entries ++ page.data)

def collectEntriesInWindow (query : EntryQuery) (scanCap : Nat) : Evaluation (List (Entry Value)) :=
  collectPages query scanCap scanCap none []

/-- Entries of this family and type in the trailing window, at least one. -/
def countFamilyInWindow (type : Text) (familyHash : Option Text) (windowMs : Nat) : Evaluation Nat :=
  match familyHash with
  | none => pure 1
  | some familyHash => do
      let now <- Throwing.ask Request.now
      let entries <- collectEntriesInWindow
        { type := some type, familyHash := some familyHash, after := some (now - windowMs),
          omitContent := true } ALERT_SCAN_CAP
      pure (max 1 entries.length)

def findSiblingRequest (batchId : Text) : Evaluation (Option (Entry Value)) := do
  match <- Throwing.ask (Request.batch batchId) with
  | .error error => throw error
  | .ok batch => pure (batch.find? fun member => decide (member.type = "request".toList))

/-- The first header of this name, unless it is blank or no string. -/
def headerValue (headers : Option Value) (name : Units) : Option Units := do
  let header <- (headers.map Value.fields).bind
    (List.find? fun header => decide (Units.toLowerAscii header.1 = name))
  let raw :=
    match header.2 with
    | .array elements => elements.headD .undefined
    | raw => raw
  raw.string?.filter fun value => !Units.isBlank value

def clipStackFrames (stack : Option Units) : Option Units :=
  stack.map fun stack => [10].intercalate ((stack.splitOn 10).take ALERT_STACK_FRAME_LIMIT)

def userFromTags (tags : List Text) : Option Text :=
  (tags.find? fun tag => "user:".toList.isPrefixOf tag).map (List.drop 5)

def buildServerContext (entry : Entry Value) (occurrences : Nat) : Evaluation ExceptionAlertContext := do
  let request <- findSiblingRequest entry.batchId
  let content := request.map Entry.content
  let headers := content.bind (Value.getRecord · (units "headers"))
  pure
    { familyHash := entry.familyHash.getD []
      className := (entry.content.getString (units "class")).getD (units "Error")
      message := (entry.content.getString (units "message")).getD []
      stack := clipStackFrames (entry.content.getString (units "stack"))
      route := content.bind (Value.getString · (units "uri"))
      method := content.bind (Value.getString · (units "method"))
      userAgent := headerValue headers (units "user-agent")
      referer := headerValue headers (units "referer") <|> headerValue headers (units "referrer")
      componentStack := none
      extra := none
      client := false
      clientIp := content.bind (Value.getString · (units "ip"))
      geo := none
      statusCode := content.bind (Value.getNumber · (units "statusCode"))
      durationMs := request.bind Entry.durationMs
      user := userFromTags (request.getD entry).tags
      occurrences := occurrences
      isNew := decide (occurrences = 1)
      entryId := entry.id
      batchId := entry.batchId }

def buildClientContext (entry : Entry Value) (occurrences : Nat) : ExceptionAlertContext where
  familyHash := entry.familyHash.getD []
  className := (entry.content.getString (units "name")).getD (units "Error")
  message := (entry.content.getString (units "message")).getD []
  stack := clipStackFrames (entry.content.getString (units "stack"))
  route := entry.content.getString (units "url")
  method := none
  userAgent := entry.content.getString (units "userAgent")
  referer := none
  componentStack := entry.content.getString (units "componentStack")
  extra := entry.content.getRecord (units "extra")
  client := true
  clientIp := entry.content.getString (units "clientIp")
  geo := none
  statusCode := none
  durationMs := none
  user := userFromTags entry.tags
  occurrences := occurrences
  isNew := decide (occurrences = 1)
  entryId := entry.id
  batchId := entry.batchId

/-- The location of a client, where a hook resolves it. -/
def resolveGeo (clientIp : Option Units) : Evaluation (Option AlertGeoLocation) :=
  match clientIp with
  | none => pure none
  | some clientIp =>
      if deps.looksUpGeo then do
        match <- Throwing.ask (Request.geoLookup clientIp) with
        | .ok location => pure location
        | .error error =>
            let message <- Throwing.computed error.message
            warn (units "Telescope alert geoLookup failed: " ++ message)
            pure none
      else pure none

/-- The diagnosis of a family, if there is a hook and it resolves to one. -/
def resolveDiagnosis (familyHash : Option Text) : Evaluation (Option Text) :=
  match familyHash with
  | none => pure none
  | some familyHash =>
      if deps.diagnoses then do
        match <- Throwing.ask (Request.diagnosisFor familyHash) with
        | .error error => throw error
        | .ok (.error _rejection) => pure none
        | .ok (.ok diagnosis) => pure diagnosis
      else pure none

def buildExceptionPayload (rule : ExceptionRule) (entry : Entry Value) (windowMs : Nat) (nowMs : Int) :
    Evaluation AlertPayload := do
  let occurrences <- countFamilyInWindow entry.type entry.familyHash windowMs
  let context <-
    (if entry.type = "client_exception".toList then pure (buildClientContext entry occurrences)
    else buildServerContext entry occurrences : Evaluation ExceptionAlertContext)
  let geo <- resolveGeo deps context.clientIp
  let diagnosis <- resolveDiagnosis deps entry.familyHash
  pure
    { rule := rule
      value := occurrences
      threshold := 1
      firedAt := nowMs
      instanceId := deps.instanceId
      exception := { context with geo := geo }
      dashboardUrl := deps.dashboardUrl
      diagnosis := diagnosis }

/-! ## Channels -/

/-- Warn once for each channel name. -/
def warnChannelFailure (channel : AlertChannel) (reason : Thrown) : Evaluation PUnit := do
  let memory <- Throwing.current
  if channel.name ∈ memory.warnedChannels then pure ⟨⟩
  else
    Throwing.update fun memory => { memory with warnedChannels := memory.warnedChannels ++ [channel.name] }
    let message <- Throwing.computed reason.describe
    warn (units "Telescope alert channel '" ++ channel.name.codeUnits ++ units "' failed: " ++ message)

/-- `results.forEach`: the outcomes go with the channels in order. -/
def reportFailures : List AlertChannel -> List (Except Thrown Unit) -> Evaluation PUnit
  | channel :: channels, result :: results => do
      (match result with
      | .ok () => pure ⟨⟩
      | .error reason => warnChannelFailure channel reason : Evaluation PUnit)
      reportFailures channels results
  | _, _ => pure ⟨⟩

def dispatch (payload : AlertPayload) : Evaluation PUnit := do
  let sent <- Throwing.ask (Request.send payload)
  Throwing.update fun memory =>
    { memory with warnedChannels := memory.warnedChannels ++ sent.warnedMeanwhile }
  match sent.results with
  | .error error => throw error
  | .ok results => reportFailures deps.channels results

/-! ## Evaluation -/

/-- The `new-exception` rule on one entry. -/
def evaluateNewException (window : Window) (entry : Entry Value) (familyHash : Text) (nowMs : Int) :
    Evaluation PUnit := do
  let isNew <- observeFamily deps familyHash nowMs window.ms
  let memory <- Throwing.current
  if isNew && !familyInCooldown deps .newException familyHash nowMs memory then
    markFamilyFired deps .newException familyHash nowMs
    let payload <- buildExceptionPayload deps ⟨.newException, some window⟩ entry window.ms nowMs
    dispatch deps payload
  else pure ⟨⟩

/-- The `every-exception` rule on one entry. -/
def evaluateEveryException (window : Option Window) (entry : Entry Value) (familyHash : Text)
    (nowMs : Int) : Evaluation PUnit := do
  let memory <- Throwing.current
  if familyInCooldown deps .everyException familyHash nowMs memory then pure ⟨⟩
  else
    markFamilyFired deps .everyException familyHash nowMs
    let payload <- buildExceptionPayload deps ⟨.everyException, window⟩ entry
      (window.getD DEFAULT_EVERY_WINDOW).ms nowMs
    dispatch deps payload

/-- The loop over the exceptions of a flush.  A family is observed once, unless the
window is empty. -/
def evaluateEntries (nowMs : Int) : List (Entry Value) -> List Text -> Evaluation PUnit
  | [], _observed => pure ⟨⟩
  | entry :: entries, observed =>
      match entry.familyHash with
      | none => evaluateEntries nowMs entries observed
      | some familyHash => do
          let nowObserved <-
            (match deps.newExceptionWindow with
            | none => pure observed
            | some window =>
                if familyHash ∈ observed then pure observed
                else do
                  evaluateNewException deps window entry familyHash nowMs
                  pure (if 0 < window.ms then familyHash :: observed else observed) : Evaluation (List Text))
          (match deps.everyException with
          | none => pure ⟨⟩
          | some window => evaluateEveryException deps window entry familyHash nowMs : Evaluation PUnit)
          evaluateEntries nowMs entries nowObserved

def evaluateExceptions (exceptions : List (Entry Value)) (nowMs : Int) : Evaluation PUnit :=
  tryCatch (evaluateEntries deps nowMs exceptions []) fun error => do
    let message <- Throwing.computed error.message
    warn (units "Telescope exception-alert evaluation failed: " ++ message)

end Alerts
end Telescope
