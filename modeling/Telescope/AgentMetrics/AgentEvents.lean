import Telescope.Core.Value

namespace Telescope
namespace AgentMetrics

/-!
# Agent events

What the agent library publishes is read structurally: every field is optional and
checked, and an event of an older library yields fewer fields.  A stored entry carries
an event in one of two shapes, by the watcher that recorded it.
-/

/-- Where a call's cost figure came from; `none` means the call had no price at all. -/
inductive CostSource
  | provider
  | estimate
  | none
  deriving DecidableEq

/-- How a run ended. -/
inductive RunStatus
  | completed
  | failed
  | cancelled
  deriving DecidableEq

/-- One `usage.recorded` ledger row. -/
structure UsageObservation where
  actorRef : Units
  feature : Units
  model : Units
  provider : Units
  costSource : CostSource
  platform : Bool
  costUsd : Option Rat
  inputTokens : Rat
  outputTokens : Rat
  cacheReadTokens : Rat
  cacheWriteTokens : Rat
  audioSeconds : Rat
  characters : Rat
  requests : Rat
  purpose : Option Units
  runId : Option Units
  threadId : Option Units

structure ToolTiming where
  toolName : Units
  ms : Rat

/-- One step: its model call and the tools it ran. -/
structure StepTiming where
  step : Rat
  modelMs : Option Rat
  toolsMs : Rat
  tools : List ToolTiming

/-- A terminal run event. -/
structure RunObservation where
  status : RunStatus
  agent : Units
  runId : Option Units
  threadId : Option Units
  actorId : Option Units
  modelId : Option Units
  durationMs : Option Rat
  ttftMs : Option Rat
  queueMs : Option Rat
  modelMs : Option Rat
  toolsMs : Option Rat
  steps : Option Rat
  modelCalls : Option Rat
  toolCalls : Option Rat
  inputTokens : Option Rat
  outputTokens : Option Rat
  costUsd : Option Rat
  code : Option Units
  stepTimings : List StepTiming

inductive AgentObservation
  | usage (observation : UsageObservation)
  | run (observation : RunObservation)

def CostSource.text : CostSource -> Units
  | .provider => units "provider"
  | .estimate => units "estimate"
  | .none => units "none"

def RunStatus.text : RunStatus -> Units
  | .completed => units "completed"
  | .failed => units "failed"
  | .cancelled => units "cancelled"

/-- The `actorRef` the agent ledger uses for spend the platform pays for, not a user. -/
def PLATFORM_ACTOR_REF : Units := units "@platform"

def unknown : Units := units "unknown"

/-! ## Reading fields -/

def asRecord (value : Value) : Option Value :=
  match value with
  | .array _elements => none
  | value => value.record?

def num : Value -> Option Rat
  | .number (.finite value) => some value
  | _ => none

def nonNegative (value : Value) : Rat :=
  match num value with
  | some value => if 0 < value then value else 0
  | none => 0

def str (value : Value) : Option Units :=
  match value with
  | .string text => if text = [] then none else some text
  | _ => none

/-- `left ?? right`. -/
def orElse (left right : Value) : Value :=
  match left with
  | .undefined => right
  | .null => right
  | left => left

/-! ## Reading events -/

/-- A cost with no declared source was priced by someone; the ledger's default is the
provider. -/
def costSourceOf (costUsd : Option Rat) (declared : Value) : CostSource :=
  match costUsd with
  | none => .none
  | some _ => if str declared = some (units "estimate") then .estimate else .provider

def readUsage (payload : Value) : Option UsageObservation :=
  (asRecord payload).map fun p =>
    let actorRef := (str (p.get (units "actorRef"))).getD unknown
    let costUsd := num (p.get (units "costUsd"))
    { actorRef := actorRef
      feature := (str (p.get (units "feature"))).getD unknown
      model := (str (p.get (units "modelId"))).getD unknown
      provider := (str (p.get (units "provider"))).getD unknown
      costSource := costSourceOf costUsd (p.get (units "costSource"))
      platform := decide (actorRef = PLATFORM_ACTOR_REF)
      costUsd := costUsd
      inputTokens := nonNegative (p.get (units "inputTokens"))
      outputTokens := nonNegative (p.get (units "outputTokens"))
      cacheReadTokens := nonNegative (p.get (units "cacheReadTokens"))
      cacheWriteTokens := nonNegative (p.get (units "cacheWriteTokens"))
      audioSeconds := nonNegative (p.get (units "audioSeconds"))
      characters := nonNegative (p.get (units "characters"))
      requests := ((num (p.get (units "requests"))).filter fun requests => decide (0 ≤ requests)).getD 1
      purpose := str (p.get (units "purpose"))
      runId := str (p.get (units "runId"))
      threadId := str (p.get (units "threadId")) }

def readTool (raw : Value) : Option ToolTiming := do
  let tool <- asRecord raw
  let ms <- num (tool.get (units "ms"))
  return ⟨(str (tool.get (units "toolName"))).getD unknown, ms⟩

def elements : Value -> List Value
  | .array elements => elements
  | _ => []

/-- One step behind so many others. -/
def readStep (before : Nat) (raw : Value) : Option StepTiming :=
  (asRecord raw).map fun step =>
    { step := (num (step.get (units "step"))).getD before
      modelMs := num (step.get (units "modelMs"))
      toolsMs := (num (step.get (units "toolsMs"))).getD 0
      tools := (elements (step.get (units "tools"))).filterMap readTool }

def readStepTimings (value : Value) : List StepTiming :=
  (elements value).foldl (fun steps raw => steps ++ (readStep steps.length raw).toList) []

def runStatus (event : Units) : Option RunStatus :=
  if event = units "run.finished" then some .completed
  else if event = units "run.failed" then some .failed
  else if event = units "run.cancelled" then some .cancelled
  else none

/-- `run.finished` carries the run context at the top level, the others under `context`;
both are read. -/
def readRun (event : Units) (payload : Value) : Option RunObservation := do
  let status <- runStatus event
  let p <- asRecord payload
  let context := (asRecord (p.get (units "context"))).getD (.object [])
  let pick (key : String) : Value := orElse (p.get (units key)) (context.get (units key))
  let number (key : String) : Option Rat := num (p.get (units key))
  return {
    status := status
    agent := (str (pick "agentName")).getD (units "default")
    runId := str (pick "runId")
    threadId := str (pick "threadId")
    actorId := str (pick "actorId")
    modelId := str (pick "modelId")
    durationMs := number "durationMs"
    ttftMs := number "ttftMs"
    queueMs := number "queueMs"
    modelMs := number "modelMs"
    toolsMs := number "toolsMs"
    steps := number "steps"
    modelCalls := number "modelCalls"
    toolCalls := number "toolCalls"
    inputTokens := number "inputTokens"
    outputTokens := number "outputTokens"
    costUsd := number "costUsd"
    code := str (pick "code")
    stepTimings := readStepTimings (p.get (units "stepTimings")) }

/-- Read any agent event the metrics care about. -/
def readAgentEvent (event : Units) (payload : Value) : Option AgentObservation :=
  if event = units "usage.recorded" then (readUsage payload).map .usage
  else (readRun event payload).map .run

/-! ## Events of entries -/

structure AgentEvent where
  event : Units
  payload : Value

def AGENT : Units := units "agent"

def DIAGNOSTIC : Units := units "diagnostic"

/-- The agent event a stored entry carries, whichever watcher recorded it. -/
def agentEventOfEntry (type : Units) (content : Value) : Option AgentEvent := do
  let content <- asRecord content
  let event <- str (content.get (units "event"))
  if type = AGENT then return ⟨event, content⟩
  else if type = DIAGNOSTIC ∧ str (content.get (units "lib")) = some AGENT ∧
      content.get (units "phase") matches .undefined then
    return ⟨event, content.get (units "payload")⟩
  else none

end AgentMetrics
end Telescope
