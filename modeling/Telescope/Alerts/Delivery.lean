import Telescope.Alerts.Handlers

namespace Telescope
namespace Alerts

open Throwing

/-!
# The alerts of one flush

A flush calls for alerts: those of the families that are new to their window and not in
their cooldown, and those of the other rule.  Which ones is settled by the maps of the
alerter and by what the shared marks answer.  The parties of an evaluation are given as
a script for each of these alerts, so that a script says how an alert would be built and
sent also where the evaluation does not come to it.
-/

/-! ## Channels -/

/-- What a channel does with a payload. -/
inductive SendAnswer
  | accepts
  | rejects (reason : Thrown)
  | throws (error : Thrown)

/-- `channels.map((channel) => channel.send(payload))` and the outcomes of the promises. -/
def callChannels : List SendAnswer -> Except Thrown (List (Except Thrown Unit))
  | [] => .ok []
  | .throws error :: _answers => .error error
  | .accepts :: answers => (callChannels answers).map (.ok () :: ·)
  | .rejects reason :: answers => (callChannels answers).map (.error reason :: ·)

/-- How many channels this has called. -/
def called : List SendAnswer -> Nat
  | [] => 0
  | .throws _error :: _answers => 1
  | .accepts :: answers => called answers + 1
  | .rejects _reason :: answers => called answers + 1

/-- Without a synchronous throw every channel is called. -/
theorem called_of_callChannels {answers : List SendAnswer} {results : List (Except Thrown Unit)}
    (settled : callChannels answers = .ok results) : called answers = answers.length := by
  induction answers generalizing results with
  | nil => rfl
  | cons answer answers inductionHypothesis =>
      cases answer with
      | throws error => cases settled
      | accepts | rejects =>
          rw [callChannels] at settled
          cases rest : callChannels answers with
          | error error =>
              rw [rest] at settled
              cases settled
          | ok results =>
              rw [called, inductionHypothesis rest]
              rfl

theorem mem_callChannels {answers : List SendAnswer} {results : List (Except Thrown Unit)}
    (settled : callChannels answers = .ok results) (accepted : .ok () ∈ results) :
    SendAnswer.accepts ∈ answers := by
  induction answers generalizing results with
  | nil =>
      cases settled
      cases accepted
  | cons answer answers inductionHypothesis =>
      cases answer with
      | throws error => cases settled
      | accepts => exact List.mem_cons_self ..
      | rejects reason =>
          rw [callChannels] at settled
          cases rest : callChannels answers with
          | error error =>
              rw [rest] at settled
              cases settled
          | ok earlier =>
              rw [rest] at settled
              cases settled
              rcases List.mem_cons.mp accepted with rejected | later
              · cases rejected
              · exact List.mem_cons_of_mem _ (inductionHypothesis rest later)

/-! ## Scripts -/

/-- How the parties answer while one alert is built, by the number of the request, and
what the channels do with its payload. -/
structure Script where
  answers : Nat -> (request : Request) -> Reply request
  channels : Nat -> SendAnswer
  warnedMeanwhile : List Text := []

/-- The script on its own. -/
def Script.handle (script : Script) (asked : Nat) (request : Request) : Reply request × Nat :=
  (script.answers asked request, asked + 1)

/-- The answers of the shared marks, by the number of the observation, and a script for
every alert. -/
structure World where
  marks : Nat -> Except Thrown Bool
  scripts : Nat -> Script

/-- A payload with the number of channels that were called with it. -/
structure Delivery where
  payload : AlertPayload
  called : Nat

/-- Where an evaluation stands: the observations made, the alerts handed to the channels,
and the requests made for the alert under way. -/
structure Served where
  observations : Nat := 0
  asked : Nat := 0
  deliveries : List Delivery := []

variable (deps : TelescopeAlerterDeps)

/-- What the channels do with the payload of an alert. -/
def Script.sendAnswers (script : Script) : List SendAnswer :=
  (List.range deps.channels.length).map script.channels

/-- The script of the alert under way. -/
def World.script (world : World) (served : Served) : Script := world.scripts served.deliveries.length

def World.handle (world : World) (served : Served) : (request : Request) -> Reply request × Served
  | .markFamilySeen _familyHash _nowMs _windowMs =>
      (world.marks served.observations, { served with observations := served.observations + 1 })
  | .send payload =>
      let answers := (world.script served).sendAnswers deps
      (⟨(world.script served).warnedMeanwhile, callChannels answers⟩,
        { served with
          asked := 0
          deliveries := served.deliveries ++ [⟨payload, called answers⟩] })
  | request =>
      ((world.script served).answers served.asked request, { served with asked := served.asked + 1 })

theorem handle_markFamilySeen (world : World) (served : Served) (familyHash : Text) (nowMs : Int)
    (windowMs : Nat) : world.handle deps served (.markFamilySeen familyHash nowMs windowMs) =
      (world.marks served.observations, { served with observations := served.observations + 1 }) := rfl

theorem handle_send (world : World) (served : Served) (payload : AlertPayload) :
    world.handle deps served (.send payload) =
      (⟨(world.script served).warnedMeanwhile,
          callChannels ((world.script served).sendAnswers deps)⟩,
        { served with
          asked := 0
          deliveries := served.deliveries ++
            [⟨payload, called ((world.script served).sendAnswers deps)⟩] }) := rfl

/-! ## The alerts that a flush calls for -/

structure Alert where
  rule : ExceptionRule
  entry : Entry Value
  windowMs : Nat

/-- The maps alone, without what was logged. -/
def Memory.maps (memory : Memory) : Memory :=
  { seen := memory.seen, lastFiredFamily := memory.lastFiredFamily }

def Memory.fired (ruleType : RuleType) (familyHash : Text) (nowMs : Int) (memory : Memory) : Memory :=
  { memory with
    lastFiredFamily :=
      (Recency.shed (deps.maxFamilies < ·)
        (Recency.touch Prod.fst memory.lastFiredFamily (cooldownKey ruleType familyHash, nowMs))).2 }

/-- What one rule calls for on one entry, with the maps and the observations after it. -/
structure Turn where
  alerts : List Alert
  memory : Memory
  observations : Nat

/-- Whether the family is new to the tracker of this replica. -/
def trackedFamily (familyHash : Text) (nowMs : Int) (windowMs : Nat) (memory : Memory) : Bool × Memory :=
  let observed := observe deps.maxFamilies familyHash nowMs windowMs memory.seen
  (observed.1, { memory with seen := observed.2 })

/-- Whether the family is new, given the answer of the shared marks. -/
def observedFamily (familyHash : Text) (nowMs : Int) (windowMs : Nat) (shared : Except Thrown Bool)
    (memory : Memory) : Bool × Memory :=
  if deps.sharesFamilies then
    match shared with
    | .ok isNew => (isNew, memory)
    | .error _thrown => trackedFamily deps familyHash nowMs windowMs memory
  else trackedFamily deps familyHash nowMs windowMs memory

def newExceptionTurn (marks : Nat -> Except Thrown Bool) (window : Window) (entry : Entry Value)
    (familyHash : Text) (nowMs : Int) (memory : Memory) (observations : Nat) : Turn :=
  let observed := observedFamily deps familyHash nowMs window.ms (marks observations) memory
  let observations := if deps.sharesFamilies then observations + 1 else observations
  if observed.1 && !familyInCooldown deps .newException familyHash nowMs observed.2 then
    ⟨[⟨⟨.newException, some window⟩, entry, window.ms⟩],
      observed.2.fired deps .newException familyHash nowMs, observations⟩
  else ⟨[], observed.2, observations⟩

def everyExceptionTurn (window : Option Window) (entry : Entry Value) (familyHash : Text)
    (nowMs : Int) (memory : Memory) (observations : Nat) : Turn :=
  if familyInCooldown deps .everyException familyHash nowMs memory then ⟨[], memory, observations⟩
  else
    ⟨[⟨⟨.everyException, window⟩, entry, (window.getD DEFAULT_EVERY_WINDOW).ms⟩],
      memory.fired deps .everyException familyHash nowMs, observations⟩

/-- The `new-exception` rule on an entry: the families observed so far go along. -/
def newTurn (marks : Nat -> Except Thrown Bool) (entry : Entry Value) (familyHash : Text)
    (nowMs : Int) (observed : List Text) (memory : Memory) (observations : Nat) : Turn × List Text :=
  match deps.newExceptionWindow with
  | none => (⟨[], memory, observations⟩, observed)
  | some window =>
      if familyHash ∈ observed then (⟨[], memory, observations⟩, observed)
      else
        (newExceptionTurn deps marks window entry familyHash nowMs memory observations,
          if 0 < window.ms then familyHash :: observed else observed)

def everyTurn (entry : Entry Value) (familyHash : Text) (nowMs : Int) (memory : Memory)
    (observations : Nat) : Turn :=
  match deps.everyException with
  | none => ⟨[], memory, observations⟩
  | some window => everyExceptionTurn deps window entry familyHash nowMs memory observations

/-- The alerts that the exceptions of a flush call for, in order, whatever becomes of
building and sending each of them, and the maps after them. -/
def due (marks : Nat -> Except Thrown Bool) (nowMs : Int) :
    List (Entry Value) -> List Text -> Memory -> Nat -> Turn
  | [], _observed, memory, observations => ⟨[], memory, observations⟩
  | entry :: entries, observed, memory, observations =>
      match entry.familyHash with
      | none => due marks nowMs entries observed memory observations
      | some familyHash =>
          let first := newTurn deps marks entry familyHash nowMs observed memory observations
          let second := everyTurn deps entry familyHash nowMs first.1.memory first.1.observations
          let rest := due marks nowMs entries first.2 second.memory second.observations
          ⟨first.1.alerts ++ second.alerts ++ rest.alerts, rest.memory, rest.observations⟩

/-! ## Isolation -/

/-- The payload of an alert, where its own building succeeds. -/
def World.payload (world : World) (nowMs : Int) (index : Nat) (alert : Alert) : Option AlertPayload :=
  let built := serve (world.scripts index).handle
    (buildExceptionPayload deps alert.rule alert.entry alert.windowMs nowMs) {} 0
  match built.1.1 with
  | .ok payload => some payload
  | .error _thrown => none

/-- The evaluation of the exceptions of a flush in this world. -/
def World.evaluate (world : World) (memory : Memory) (exceptions : List (Entry Value)) (nowMs : Int) :
    (Except Thrown PUnit × Memory) × Served :=
  serve (world.handle deps) (evaluateExceptions deps exceptions nowMs) memory {}

/-- The alert was handed over, and some channel accepted it, if there are channels. -/
def World.Sent (world : World) (nowMs : Int) (served : Served) (index : Nat) (alert : Alert) : Prop :=
  Exists fun delivery => served.deliveries[index]? = some delivery ∧
    world.payload deps nowMs index alert = some delivery.payload ∧
      (deps.channels = [] ∨ Exists fun channel =>
        channel < delivery.called ∧ (world.scripts index).channels channel = .accepts)

/-- The stamp of this flush stands at the family. -/
def LeftMarked (ruleType : RuleType) (familyHash : Text) (nowMs : Int) (before after : Memory) : Prop :=
  (cooldownKey ruleType familyHash, nowMs) ∈ after.lastFiredFamily ∧
    (cooldownKey ruleType familyHash, nowMs) ∉ before.lastFiredFamily

/-- Every alert that the flush calls for and whose own building succeeds is received by
every channel that accepts it, and a family is left marked as fired only where its alert
was sent. -/
structure Isolated (world : World) (memory : Memory) (exceptions : List (Entry Value)) (nowMs : Int) :
    Prop where
  received : forall index alert payload,
    (due deps world.marks nowMs exceptions [] memory.maps 0).alerts[index]? = some alert ->
      world.payload deps nowMs index alert = some payload ->
        forall channel, channel < deps.channels.length ->
          (world.scripts index).channels channel = .accepts ->
            Exists fun delivery =>
              (world.evaluate deps memory exceptions nowMs).2.deliveries[index]? = some delivery ∧
                delivery.payload = payload ∧ channel < delivery.called
  marked : forall ruleType familyHash,
    LeftMarked ruleType familyHash nowMs memory (world.evaluate deps memory exceptions nowMs).1.2 ->
      Exists fun index => Exists fun alert =>
        (due deps world.marks nowMs exceptions [] memory.maps 0).alerts[index]? = some alert ∧
          alert.rule.type = ruleType ∧ alert.entry.familyHash = some familyHash ∧
            world.Sent deps nowMs (world.evaluate deps memory exceptions nowMs).2 index alert

/-! ## Failures -/

inductive Failure
  | familyMarks
  | entries
  | batch
  | geoLookup
  | diagnosisThrows
  | diagnosisRejects
  | channelRejects
  | channelThrows
  | noChannelAccepts
  | unreadable

/-- A reply is a failure of some kind.  `unreadable` is a thrown value from which the
handler it comes to can read no message. -/
inductive Failing : (request : Request) -> Reply request -> Failure -> Prop
  | familyMarks {familyHash nowMs windowMs error} (readable : error.Readable) :
      Failing (.markFamilySeen familyHash nowMs windowMs) (.error error) .familyMarks
  | unreadableMarks {familyHash nowMs windowMs error} (unreadable : ¬ error.Readable) :
      Failing (.markFamilySeen familyHash nowMs windowMs) (.error error) .unreadable
  | entries {query error} : Failing (.get query) (.error error) .entries
  | batch {batchId error} : Failing (.batch batchId) (.error error) .batch
  | geoLookup {clientIp error} (readable : error.Readable) :
      Failing (.geoLookup clientIp) (.error error) .geoLookup
  | unreadableGeo {clientIp error} (unreadable : ¬ error.Readable) :
      Failing (.geoLookup clientIp) (.error error) .unreadable
  | diagnosisThrows {familyHash error} :
      Failing (.diagnosisFor familyHash) (.error error) .diagnosisThrows
  | diagnosisRejects {familyHash rejection} :
      Failing (.diagnosisFor familyHash) (.ok (.error rejection)) .diagnosisRejects
  | channelThrows {payload warned error} :
      Failing (.send payload) ⟨warned, .error error⟩ .channelThrows
  | channelRejects {payload warned results reason} (member : .error reason ∈ results)
      (accepted : .ok () ∈ results) :
      Failing (.send payload) ⟨warned, .ok results⟩ .channelRejects
  | noChannelAccepts {payload warned results} (some : results ≠ []) (none : .ok () ∉ results) :
      Failing (.send payload) ⟨warned, .ok results⟩ .noChannelAccepts
  | unreadableReason {payload warned results reason thrown} (member : .error reason ∈ results)
      (unreadable : reason.describe = .error thrown) :
      Failing (.send payload) ⟨warned, .ok results⟩ .unreadable

/-- Only these kinds of failures happen. -/
def World.FailsOnly (world : World) (failures : Failure -> Prop) : Prop :=
  forall served request failure, Failing request (world.handle deps served request).1 failure ->
    failures failure

end Alerts
end Telescope
