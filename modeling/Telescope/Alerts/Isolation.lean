import Telescope.Alerts.Delivery
import Telescope.Alerts.FlushQueue

namespace Telescope
namespace Alerts

open Throwing

/-!
# Which failures stay with their alert

A rejected promise of the shared marks, of the hooks or of some of the channels stays
with the alert it belongs to.  A failed read of the store, a synchronous throw and a
value without a message end the evaluation of the whole flush, after the family was
marked as fired; and a family stays marked whose alert no channel has accepted.
-/

variable {deps : TelescopeAlerterDeps}

/-! ## Building an alert -/

/-- An attempt that reads only the script of the alert under way: it does the same on
every memory, and leaves the maps and what was delivered as they are. -/
structure Building (deps : TelescopeAlerterDeps) {α : Type} (attempt : Evaluation α) : Prop where
  reads : forall (world : World) (memory other : Memory) (served : Served),
    (serve (world.handle deps) attempt memory served).1.1 =
        (serve (world.script served).handle attempt other served.asked).1.1 ∧
      (serve (world.handle deps) attempt memory served).2 =
          { served with asked := (serve (world.script served).handle attempt other served.asked).2 } ∧
        (serve (world.handle deps) attempt memory served).1.2.maps = memory.maps

variable {α : Type}

theorem building_pure (value : α) : Building deps (pure value) :=
  ⟨fun _world _memory _other _served => ⟨rfl, rfl, rfl⟩⟩

theorem building_throw (thrown : Thrown) :
    Building deps (throw thrown : Evaluation α) :=
  ⟨fun _world _memory _other _served => ⟨rfl, rfl, rfl⟩⟩

theorem building_computed (result : Except Thrown α) : Building deps (computed result) := by
  cases result with
  | ok value => exact building_pure value
  | error thrown => exact building_throw thrown

theorem building_warn (line : Units) : Building deps (warn line) :=
  ⟨fun _world _memory _other _served => ⟨rfl, rfl, rfl⟩⟩

/-- A request to the parties that help to build an alert. -/
def Request.IsRead : Request -> Prop
  | .markFamilySeen _familyHash _nowMs _windowMs => False
  | .send _payload => False
  | _ => True

theorem building_ask {request : Request} (isRead : request.IsRead) :
    Building deps (ask request) := by
  refine ⟨fun world memory other served => ?_⟩
  cases request with
  | markFamilySeen | send => cases isRead
  | now | get | batch | geoLookup | diagnosisFor => exact ⟨rfl, rfl, rfl⟩

theorem building_bind {β : Type} {first : Evaluation α} {next : α -> Evaluation β} (firstBuilds : Building deps first)
    (nextBuilds : forall value, Building deps (next value)) :
    Building deps (first >>= next) := by
  refine ⟨fun world memory other served => ?_⟩
  rcases firstBuilds.reads world memory other served with ⟨outcome, reached, maps⟩
  rw [serve_bind, serve_bind]
  rcases left : serve (world.handle deps) first memory served with ⟨⟨result, middle⟩, between⟩
  rcases right : serve (world.script served).handle first other served.asked with
    ⟨⟨otherResult, otherMiddle⟩, asked⟩
  rw [left, right] at outcome reached
  rw [left] at maps
  dsimp only at outcome reached maps
  cases outcome
  cases reached
  cases result with
  | error thrown => exact ⟨rfl, rfl, maps⟩
  | ok value =>
      rcases (nextBuilds value).reads world middle otherMiddle { served with asked := asked } with
        ⟨outcome, reached, kept⟩
      exact ⟨outcome, reached, kept.trans maps⟩

theorem building_collectPages (query : EntryQuery) (scanCap pages : Nat) (cursor : Option Text)
    (entries : List (Entry Value)) : Building deps (collectPages query scanCap pages cursor entries) := by
  induction pages generalizing cursor entries with
  | zero => exact building_pure _
  | succ pages inductionHypothesis =>
      refine building_bind (building_ask trivial) fun page => ?_
      cases page with
      | error error => exact building_throw error
      | ok page =>
          dsimp only
          split
          · exact building_pure _
          · split
            · exact building_pure _
            · split
              · exact building_pure _
              · exact inductionHypothesis _ _

theorem building_countFamilyInWindow (type : Text) (familyHash : Option Text) (windowMs : Nat) :
    Building deps (countFamilyInWindow type familyHash windowMs) := by
  cases familyHash with
  | none => exact building_pure _
  | some familyHash =>
      refine building_bind (building_ask trivial) fun now => ?_
      exact building_bind (building_collectPages ..) fun entries => building_pure _

theorem building_buildServerContext (entry : Entry Value) (occurrences : Nat) :
    Building deps (buildServerContext entry occurrences) := by
  refine building_bind (building_bind (building_ask trivial) fun answer => ?_) fun request =>
    building_pure _
  cases answer with
  | error error => exact building_throw error
  | ok batch => exact building_pure _

theorem building_resolveGeo (clientIp : Option Units) : Building deps (resolveGeo deps clientIp) := by
  cases clientIp with
  | none => exact building_pure _
  | some clientIp =>
      rw [resolveGeo]
      split
      · refine building_bind (building_ask trivial) fun answer => ?_
        cases answer with
        | ok location => exact building_pure _
        | error error =>
            refine building_bind (building_computed _) fun message => ?_
            exact building_bind (building_warn _) fun _ => building_pure _
      · exact building_pure _

theorem building_resolveDiagnosis (familyHash : Option Text) :
    Building deps (resolveDiagnosis deps familyHash) := by
  cases familyHash with
  | none => exact building_pure _
  | some familyHash =>
      rw [resolveDiagnosis]
      split
      · refine building_bind (building_ask trivial) fun answer => ?_
        cases answer with
        | error error => exact building_throw error
        | ok settled => cases settled <;> exact building_pure _
      · exact building_pure _

theorem building_buildExceptionPayload (rule : ExceptionRule) (entry : Entry Value) (windowMs : Nat)
    (nowMs : Int) : Building deps (buildExceptionPayload deps rule entry windowMs nowMs) := by
  refine building_bind (building_countFamilyInWindow ..) fun occurrences => ?_
  refine building_bind ?_ fun context => ?_
  · split
    · exact building_pure _
    · exact building_buildServerContext ..
  · refine building_bind (building_resolveGeo _) fun geo => ?_
    exact building_bind (building_resolveDiagnosis _) fun diagnosis => building_pure _

/-! ## Logging -/

/-- An attempt that at most logs and warns: it makes no request and leaves the maps. -/
structure Logging {α : Type} (attempt : Evaluation α) : Prop where
  logs : forall memory, Exists fun outcome => Exists fun after =>
    attempt memory = .done (outcome, after) ∧ Memory.maps after = memory.maps

theorem logging_pure (value : α) : Logging (pure value) :=
  ⟨fun memory => ⟨.ok value, memory, rfl, rfl⟩⟩

theorem logging_computed (result : Except Thrown α) : Logging (computed result) := by
  cases result with
  | ok value => exact logging_pure value
  | error thrown => exact ⟨fun memory => ⟨.error thrown, memory, rfl, rfl⟩⟩

theorem logging_bind {β : Type} {first : Evaluation α} {next : α -> Evaluation β} (firstLogs : Logging first)
    (nextLogs : forall value, Logging (next value)) :
    Logging (first >>= next) := by
  refine ⟨fun memory => ?_⟩
  rcases firstLogs.logs memory with ⟨outcome, middle, reached, maps⟩
  change Exists fun result => Exists fun after =>
    (first memory).bind (andThen next) = .done (result, after) ∧ _
  rw [reached]
  cases outcome with
  | error thrown => exact ⟨.error thrown, middle, rfl, maps⟩
  | ok value =>
      rcases (nextLogs value).logs middle with ⟨result, after, ended, kept⟩
      exact ⟨result, after, ended, kept.trans maps⟩

theorem logging_reportFailures (channels : List AlertChannel) (results : List (Except Thrown Unit)) :
    Logging (reportFailures channels results) := by
  induction channels generalizing results with
  | nil => cases results <;> exact logging_pure _
  | cons channel channels inductionHypothesis =>
      cases results with
      | nil => exact logging_pure _
      | cons result results =>
          refine logging_bind ?_ fun _ => inductionHypothesis results
          cases result with
          | ok sent => exact logging_pure _
          | error reason =>
              refine logging_bind ⟨fun memory => ⟨.ok memory, memory, rfl, rfl⟩⟩ fun memory => ?_
              split
              · exact logging_pure _
              · refine logging_bind ⟨fun memory => ⟨_, _, rfl, rfl⟩⟩ fun _ => ?_
                exact logging_bind (logging_computed _) fun message => ⟨fun memory => ⟨_, _, rfl, rfl⟩⟩

/-- What a logging attempt does against a server. -/
theorem Logging.serve {attempt : Evaluation α} (logging : Logging attempt) {World : Type}
    {handle : World -> (request : Request) -> Reply request × World} {memory after : Memory} {world reached : World}
    {outcome : Except Thrown α} (served : serve handle attempt memory world = ((outcome, after), reached)) :
    reached = world ∧ after.maps = memory.maps := by
  rcases logging.logs memory with ⟨result, last, ended, maps⟩
  unfold Throwing.serve at served
  rw [ended] at served
  cases served
  exact ⟨rfl, maps⟩

/-! ## One alert -/

/-- The alerts were built and handed to every channel in order, and each was accepted by
some channel, if there are channels. -/
def Delivers (deps : TelescopeAlerterDeps) (world : World) (nowMs : Int) :
    Nat -> List Alert -> List Delivery -> Prop
  | _index, [], [] => True
  | index, alert :: alerts, delivery :: deliveries =>
      (world.payload deps nowMs index alert = some delivery.payload ∧
        delivery.called = deps.channels.length ∧
          (deps.channels = [] ∨ Exists fun channel =>
            channel < deps.channels.length ∧ (world.scripts index).channels channel = .accepts)) ∧
        Delivers deps world nowMs (index + 1) alerts deliveries
  | _index, _alerts, _deliveries => False

/-- The evaluation has gone as one turn says, and has delivered its alerts. -/
structure Follows (deps : TelescopeAlerterDeps) (world : World) (nowMs : Int) (turn : Turn)
    (before after : Served) (memory : Memory) : Prop where
  maps : memory.maps = turn.memory
  observations : after.observations = turn.observations
  asked : after.asked = 0
  deliveries : Exists fun delivered => after.deliveries = before.deliveries ++ delivered ∧
    Delivers deps world nowMs before.deliveries.length turn.alerts delivered

theorem Follows.nothing {world : World} {nowMs : Int} {served : Served} {memory : Memory}
    (idle : served.asked = 0) :
    Follows deps world nowMs ⟨[], memory.maps, served.observations⟩ served served memory :=
  ⟨rfl, rfl, idle, [], (List.append_nil _).symm, trivial⟩

theorem Delivers.append {world : World} {nowMs : Int} {index : Nat} {alerts more : List Alert}
    {deliveries further : List Delivery} (first : Delivers deps world nowMs index alerts deliveries)
    (second : Delivers deps world nowMs (index + deliveries.length) more further) :
    Delivers deps world nowMs index (alerts ++ more) (deliveries ++ further) := by
  induction alerts generalizing index deliveries with
  | nil =>
      cases deliveries with
      | nil => exact second
      | cons delivery deliveries => exact first.elim
  | cons alert alerts inductionHypothesis =>
      cases deliveries with
      | nil => exact first.elim
      | cons delivery deliveries =>
          refine ⟨first.1, inductionHypothesis first.2 ?_⟩
          rw [List.length_cons, Nat.add_comm deliveries.length, ← Nat.add_assoc] at second
          exact second

/-- One turn after another. -/
theorem Follows.append {world : World} {nowMs : Int} {first second : Turn}
    {before middle after : Served} {memory last : Memory}
    (earlier : Follows deps world nowMs first before middle memory)
    (later : Follows deps world nowMs second middle after last) :
    Follows deps world nowMs ⟨first.alerts ++ second.alerts, second.memory, second.observations⟩
      before after last := by
  rcases earlier.deliveries with ⟨delivered, isFirst, delivers⟩
  rcases later.deliveries with ⟨further, isSecond, others⟩
  refine ⟨later.maps, later.observations, later.asked, delivered ++ further, ?_, ?_⟩
  · rw [isSecond, isFirst, List.append_assoc]
  · rw [isFirst, List.length_append] at others
    exact delivers.append others

/-- The failures that stay with their alert. -/
def Contained (failures : Failure -> Prop) : Prop :=
  ¬ failures .entries ∧ ¬ failures .batch ∧ ¬ failures .diagnosisThrows ∧ ¬ failures .channelThrows ∧
    ¬ failures .noChannelAccepts ∧ ¬ failures .unreadable

/-- Replies whose failures are of these kinds. -/
def Allowed (failures : Failure -> Prop) (request : Request) (reply : Reply request) : Prop :=
  forall failure, Failing request reply failure -> failures failure

variable {failures : Failure -> Prop}

/-- Where the failures are contained, nothing escapes an evaluation. -/
theorem contains_of_contained (contained : Contained failures) :
    Contains (Allowed failures) (fun _ => False) := by
  rcases contained with ⟨noEntries, noBatch, noDiagnosis, noThrow, _, noUnreadable⟩
  have unread {error thrown : Thrown} (failed : error.message = .error thrown) : ¬ error.Readable := by
    rintro ⟨text, isText⟩
    cases failed.symm.trans isText
  refine ⟨?_, ?_, ?_, ?_, ?_, ?_⟩
  · intro familyHash nowMs windowMs error isAllowed thrown failed
    exact noUnreadable (isAllowed _ (.unreadableMarks (unread failed)))
  · exact fun isAllowed => noEntries (isAllowed _ .entries)
  · exact fun isAllowed => noBatch (isAllowed _ .batch)
  · intro clientIp error isAllowed thrown failed
    exact noUnreadable (isAllowed _ (.unreadableGeo (unread failed)))
  · exact fun isAllowed => noDiagnosis (isAllowed _ .diagnosisThrows)
  · rintro payload ⟨warned, results⟩ isAllowed
    refine ⟨?_, ?_⟩
    · rintro error rfl
      exact noThrow (isAllowed _ .channelThrows)
    · rintro results rfl reason member thrown unreadable
      exact noUnreadable (isAllowed _ (.unreadableReason member unreadable))

variable {familyHash : Text} {entry : Entry Value}

section Run

variable {world : World} {nowMs : Int} {memory last : Memory} {served after : Served}

variable {returned : PUnit}

/-- A dispatch that returns has handed the payload to every channel. -/
theorem dispatch_returns {payload : AlertPayload}
    (ran : serve (world.handle deps) (dispatch deps payload) memory served =
      ((.ok returned, last), after)) :
    (Exists fun results => callChannels ((world.script served).sendAnswers deps) = .ok results) ∧
      last.maps = memory.maps ∧
        after = { served with
          asked := 0
          deliveries := served.deliveries ++ [⟨payload, deps.channels.length⟩] } := by
  rcases serve_bind_eq_ok.mp ran with ⟨sent, middle, between, asked, rest⟩
  cases asked
  rcases serve_bind_eq_ok.mp rest with ⟨_, warned, logged, updated, reported⟩
  cases updated
  rw [handle_send] at reported
  cases answered : callChannels ((world.script served).sendAnswers deps) with
  | error error =>
      rw [answered] at reported
      cases reported
  | ok results =>
      rw [answered] at reported
      rcases (logging_reportFailures deps.channels results).serve reported with ⟨reached, maps⟩
      refine ⟨⟨results, rfl⟩, maps, ?_⟩
      have everyChannel := called_of_callChannels answered
      rw [Script.sendAnswers, List.length_map, List.length_range] at everyChannel
      rw [reached, Script.sendAnswers, everyChannel]

/-- Some channel accepts, where not all of them fail. -/
theorem accepts_of_failsOnly (only : world.FailsOnly deps failures) (accepted : ¬ failures .noChannelAccepts)
    (payload : AlertPayload) {results : List (Except Thrown Unit)}
    (answered : callChannels ((world.script served).sendAnswers deps) = .ok results) :
    deps.channels = [] ∨ Exists fun channel => channel < deps.channels.length ∧
      (world.scripts served.deliveries.length).channels channel = .accepts := by
  have size := called_of_callChannels answered
  by_cases none : results = []
  · left
    rw [none] at answered
    cases channels : deps.channels with
    | nil => rfl
    | cons channel channels =>
        rw [Script.sendAnswers, channels, List.length_cons, List.range_succ_eq_map, List.map_cons]
          at answered
        cases first : (world.script served).channels 0 with
        | throws error =>
            rw [first] at answered
            cases answered
        | accepts | rejects =>
            rw [first, callChannels] at answered
            revert answered
            generalize callChannels _ = rest
            cases rest <;> exact fun same => by cases same
  · right
    have someAccept : Except.ok () ∈ results := by
      by_contra noneAccepts
      refine accepted (only served (.send payload) _ ?_)
      change Failing (.send payload)
        ⟨_, callChannels ((world.script served).sendAnswers deps)⟩ .noChannelAccepts
      rw [answered]
      exact .noChannelAccepts none noneAccepts
    have member := mem_callChannels answered someAccept
    rcases List.mem_map.mp member with ⟨channel, isChannel, accepts⟩
    exact ⟨channel, List.mem_range.mp isChannel, accepts⟩

theorem payload_of_built {index : Nat} {alert : Alert} {payload : AlertPayload}
    (built : (serve (world.scripts index).handle
      (buildExceptionPayload deps alert.rule alert.entry alert.windowMs nowMs) {} 0).1.1 = .ok payload) :
    world.payload deps nowMs index alert = some payload := by
  rw [World.payload, built]

/-- An alert that is built and dispatched without a throw is delivered. -/
theorem alert_returns (only : world.FailsOnly deps failures) (accepted : ¬ failures .noChannelAccepts) (alert : Alert)
    (idle : served.asked = 0) (ran : serve (world.handle deps)
      (buildExceptionPayload deps alert.rule alert.entry alert.windowMs nowMs >>= dispatch deps)
        memory served = ((.ok returned, last), after)) :
    Follows deps world nowMs ⟨[alert], memory.maps, served.observations⟩ served after last := by
  rcases serve_bind_eq_ok.mp ran with ⟨payload, middle, between, built, dispatched⟩
  have builds : Building deps
      (buildExceptionPayload deps alert.rule alert.entry alert.windowMs nowMs) :=
    building_buildExceptionPayload ..
  have building := builds.reads world memory {} served
  rw [built] at building
  rcases building with ⟨value, reached, maps⟩
  dsimp only at value reached maps
  rcases dispatch_returns dispatched with ⟨⟨results, answered⟩, kept, delivered⟩
  subst reached
  refine ⟨kept.trans maps, ?_, ?_, [⟨payload, deps.channels.length⟩], ?_, ⟨?_, rfl, ?_⟩, trivial⟩
  · rw [delivered]
  · rw [delivered]
  · rw [delivered]
  · rw [idle] at value
    exact payload_of_built value.symm
  · exact accepts_of_failsOnly only accepted payload answered

/-! ## One entry -/

theorem observeFamily_returns {windowMs : Nat} {isNew : Bool}
    (ran : serve (world.handle deps) (observeFamily deps familyHash nowMs windowMs) memory served =
      ((.ok isNew, last), after)) :
    (isNew, last.maps) =
        observedFamily deps familyHash nowMs windowMs (world.marks served.observations) memory.maps ∧
      after = { served with
        observations :=
          if deps.sharesFamilies then served.observations + 1 else served.observations } := by
  rcases serve_bind_eq_ok.mp ran with ⟨shared, middle, between, answered, rest⟩
  unfold observedFamily
  by_cases sharing : deps.sharesFamilies = true
  · rw [if_pos sharing] at answered
    rw [if_pos sharing, if_pos sharing]
    rcases serve_bind_eq_ok.mp answered with ⟨reply, asking, asked, replied, handled⟩
    cases replied
    rw [handle_markFamilySeen] at handled
    cases marked : world.marks served.observations with
    | ok isMarked =>
        rw [marked] at handled
        cases handled
        cases rest
        exact ⟨rfl, rfl⟩
    | error error =>
        rw [marked] at handled
        rcases serve_bind_eq_ok.mp handled with ⟨message, reading, read, isRead, warned⟩
        rcases (logging_computed error.message).serve isRead with ⟨same, maps⟩
        rcases serve_bind_eq_ok.mp warned with ⟨_, logging, logged, isLogged, none⟩
        cases isLogged
        cases none
        cases rest
        subst same
        refine ⟨?_, rfl⟩
        change _ = trackedFamily deps familyHash nowMs windowMs memory.maps
        rw [← maps]
        rfl
  · rw [if_neg sharing] at answered
    rw [if_neg sharing, if_neg sharing]
    cases answered
    cases rest
    exact ⟨rfl, rfl⟩

theorem newException_returns (only : world.FailsOnly deps failures) (accepted : ¬ failures .noChannelAccepts)
    {window : Window} (idle : served.asked = 0)
    (ran : serve (world.handle deps) (evaluateNewException deps window entry familyHash nowMs) memory
      served = ((.ok returned, last), after)) :
    Follows deps world nowMs
      (newExceptionTurn deps world.marks window entry familyHash nowMs memory.maps served.observations)
      served after last := by
  rcases serve_bind_eq_ok.mp ran with ⟨isNew, middle, between, observed, rest⟩
  rcases observeFamily_returns observed with ⟨isObserved, isBetween⟩
  rcases serve_bind_eq_ok.mp rest with ⟨_, _, _, isMemory, decided⟩
  cases isMemory
  have isNew_eq := congrArg Prod.fst isObserved
  have maps_eq := congrArg Prod.snd isObserved
  dsimp only at isNew_eq maps_eq
  subst isNew_eq
  rw [newExceptionTurn, ← maps_eq]
  have cooldown : familyInCooldown deps .newException familyHash nowMs middle.maps =
      familyInCooldown deps .newException familyHash nowMs middle := rfl
  rw [cooldown]
  split at decided
  · rename_i fires
    rw [if_pos fires]
    rcases serve_bind_eq_ok.mp decided with ⟨_, marked, _, isMarked, alerted⟩
    cases isMarked
    have follows : Follows deps world nowMs ⟨[⟨⟨.newException, some window⟩, entry, window.ms⟩], _, _⟩
        between after last :=
      alert_returns only accepted ⟨⟨.newException, some window⟩, entry, window.ms⟩
        (by rw [isBetween]; exact idle) alerted
    subst isBetween
    exact ⟨follows.maps, follows.observations, follows.asked, follows.deliveries⟩
  · rename_i quiet
    rw [if_neg quiet]
    cases decided
    subst isBetween
    exact ⟨rfl, rfl, idle, [], (List.append_nil _).symm, trivial⟩

theorem everyException_returns (only : world.FailsOnly deps failures) (accepted : ¬ failures .noChannelAccepts)
    {window : Option Window} (idle : served.asked = 0)
    (ran : serve (world.handle deps) (evaluateEveryException deps window entry familyHash nowMs) memory
      served = ((.ok returned, last), after)) :
    Follows deps world nowMs
      (everyExceptionTurn deps window entry familyHash nowMs memory.maps served.observations)
      served after last := by
  rcases serve_bind_eq_ok.mp ran with ⟨_, _, _, isMemory, decided⟩
  cases isMemory
  have cooldown : familyInCooldown deps .everyException familyHash nowMs memory.maps =
      familyInCooldown deps .everyException familyHash nowMs memory := rfl
  rw [everyExceptionTurn, cooldown]
  split at decided
  · rename_i quiet
    rw [if_pos quiet]
    cases decided
    exact Follows.nothing idle
  · rename_i fires
    rw [if_neg fires]
    rcases serve_bind_eq_ok.mp decided with ⟨_, marked, _, isMarked, alerted⟩
    cases isMarked
    have follows : Follows deps world nowMs
        ⟨[⟨⟨.everyException, window⟩, entry, (window.getD DEFAULT_EVERY_WINDOW).ms⟩], _, _⟩
        served after last :=
      alert_returns only accepted
        ⟨⟨.everyException, window⟩, entry, (window.getD DEFAULT_EVERY_WINDOW).ms⟩ idle alerted
    exact ⟨follows.maps, follows.observations, follows.asked, follows.deliveries⟩

/-- An evaluation that returns has delivered every alert that the flush calls for. -/
theorem evaluateEntries_returns (only : world.FailsOnly deps failures) (accepted : ¬ failures .noChannelAccepts)
    {entries : List (Entry Value)} {observed : List Text} (idle : served.asked = 0)
    (ran : serve (world.handle deps) (evaluateEntries deps nowMs entries observed) memory served =
      ((.ok returned, last), after)) :
    Follows deps world nowMs
      (due deps world.marks nowMs entries observed memory.maps served.observations) served after last := by
  induction entries generalizing observed memory served with
  | nil =>
      cases ran
      exact Follows.nothing idle
  | cons entry entries inductionHypothesis =>
      rw [evaluateEntries] at ran
      rw [due]
      cases family : entry.familyHash with
      | none =>
          rw [family] at ran
          exact inductionHypothesis idle ran
      | some familyHash =>
          rw [family] at ran
          rcases serve_bind_eq_ok.mp ran with ⟨nowObserved, middle, between, first, rest⟩
          rcases serve_bind_eq_ok.mp rest with ⟨_, later, reached, second, others⟩
          have new : Follows deps world nowMs
              (newTurn deps world.marks entry familyHash nowMs observed memory.maps
                served.observations).1 served between middle ∧
              nowObserved = (newTurn deps world.marks entry familyHash nowMs observed memory.maps
                served.observations).2 := by
            rw [newTurn]
            cases windowed : deps.newExceptionWindow with
            | none =>
                rw [windowed] at first
                cases first
                exact ⟨Follows.nothing idle, rfl⟩
            | some window =>
                rw [windowed] at first
                dsimp only at first ⊢
                split at first
                · rename_i seen
                  rw [if_pos seen]
                  cases first
                  exact ⟨Follows.nothing idle, rfl⟩
                · rename_i unseen
                  rw [if_neg unseen]
                  rcases serve_bind_eq_ok.mp first with ⟨_, _, _, evaluated, kept⟩
                  cases kept
                  exact ⟨newException_returns only accepted idle evaluated, rfl⟩
          rcases new with ⟨isNew, isObserved⟩
          have every : Follows deps world nowMs
              (everyTurn deps entry familyHash nowMs middle.maps between.observations) between reached
                later := by
            rw [everyTurn]
            cases windowed : deps.everyException with
            | none =>
                rw [windowed] at second
                cases second
                exact Follows.nothing isNew.asked
            | some window =>
                rw [windowed] at second
                exact everyException_returns only accepted isNew.asked second
          have remaining := inductionHypothesis every.asked others
          rw [isObserved, every.maps, every.observations] at remaining
          rw [isNew.maps, isNew.observations] at remaining every
          exact (isNew.append every).append remaining

end Run

/-! ## The marks of a flush -/

theorem cooldownKey_injective {ruleType other : RuleType} {otherHash : Text}
    (same : cooldownKey ruleType familyHash = cooldownKey other otherHash) :
    ruleType = other ∧ familyHash = otherHash := by
  cases ruleType <;> cases other
  · exact ⟨rfl, (List.cons.inj (List.append_cancel_left same)).2⟩
  · exact absurd (List.cons.inj same).1 (by decide)
  · exact absurd (List.cons.inj same).1 (by decide)
  · exact ⟨rfl, (List.cons.inj (List.append_cancel_left same)).2⟩

theorem mem_fired {ruleType : RuleType} {nowMs : Int} {memory : Memory} {stamp : Text × Int}
    (member : stamp ∈ (memory.fired deps ruleType familyHash nowMs).lastFiredFamily) :
    stamp ∈ memory.lastFiredFamily ∨ stamp = (cooldownKey ruleType familyHash, nowMs) := by
  have touched : stamp ∈ Recency.touch Prod.fst memory.lastFiredFamily
      (cooldownKey ruleType familyHash, nowMs) := by
    rw [← Recency.shed_append (deps.maxFamilies < ·) (Recency.touch _ _ _)]
    exact List.mem_append_right _ member
  exact (Recency.mem_touch touched).imp_left And.left

/-- A turn marks no family but those of its alerts. -/
def MarksAlerts (nowMs : Int) (memory : Memory) (turn : Turn) : Prop :=
  forall ruleType familyHash, (cooldownKey ruleType familyHash, nowMs) ∈ turn.memory.lastFiredFamily ->
    (cooldownKey ruleType familyHash, nowMs) ∈ memory.lastFiredFamily ∨
      Exists fun alert => alert ∈ turn.alerts ∧ alert.rule.type = ruleType ∧
        alert.entry.familyHash = some familyHash

variable {observations : Nat}

theorem MarksAlerts.nothing {nowMs : Int} {memory : Memory} :
    MarksAlerts nowMs memory ⟨[], memory, observations⟩ :=
  fun _ _ member => Or.inl member

theorem MarksAlerts.append {nowMs : Int} {memory : Memory} {first second : Turn}
    (earlier : MarksAlerts nowMs memory first) (later : MarksAlerts nowMs first.memory second) :
    MarksAlerts nowMs memory
      ⟨first.alerts ++ second.alerts, second.memory, second.observations⟩ := by
  intro ruleType familyHash member
  rcases later ruleType familyHash member with before | ⟨alert, isAlert, isFor⟩
  · rcases earlier ruleType familyHash before with start | ⟨alert, isAlert, isFor⟩
    · exact Or.inl start
    · exact Or.inr ⟨alert, List.mem_append_left _ isAlert, isFor⟩
  · exact Or.inr ⟨alert, List.mem_append_right _ isAlert, isFor⟩

/-- The turn of one alert. -/
theorem MarksAlerts.alert {nowMs : Int} {memory before : Memory} {ruleType : RuleType} {window : Option Window}
    {windowMs : Nat} (family : entry.familyHash = some familyHash)
    (same : before.lastFiredFamily = memory.lastFiredFamily) :
    MarksAlerts nowMs memory ⟨[⟨⟨ruleType, window⟩, entry, windowMs⟩],
      before.fired deps ruleType familyHash nowMs, observations⟩ := by
  intro other otherHash member
  rcases mem_fired member with kept | stamped
  · exact Or.inl (same ▸ kept)
  · rcases cooldownKey_injective (Prod.mk.inj stamped).1 with ⟨rfl, rfl⟩
    exact Or.inr ⟨_, List.mem_singleton_self _, rfl, family⟩

theorem lastFiredFamily_observedFamily (deps : TelescopeAlerterDeps) {nowMs : Int} {windowMs : Nat}
    {shared : Except Thrown Bool} {memory : Memory} :
    (observedFamily deps familyHash nowMs windowMs shared memory).2.lastFiredFamily =
      memory.lastFiredFamily := by
  unfold observedFamily
  split
  · cases shared <;> rfl
  · rfl

theorem marksAlerts_newTurn {marks : Nat -> Except Thrown Bool} (family : entry.familyHash = some familyHash)
    {nowMs : Int} {observed : List Text} {memory : Memory} :
    MarksAlerts nowMs memory
      (newTurn deps marks entry familyHash nowMs observed memory observations).1 := by
  unfold newTurn
  cases deps.newExceptionWindow with
  | none => exact MarksAlerts.nothing
  | some window =>
      dsimp only
      split
      · exact MarksAlerts.nothing
      · change MarksAlerts nowMs memory (newExceptionTurn deps marks window entry familyHash nowMs memory
          observations)
        unfold newExceptionTurn
        dsimp only
        split
        · exact MarksAlerts.alert family (lastFiredFamily_observedFamily deps)
        · exact fun _ _ member => Or.inl (lastFiredFamily_observedFamily deps ▸ member)

theorem marksAlerts_everyTurn (family : entry.familyHash = some familyHash) {nowMs : Int} {memory : Memory} :
    MarksAlerts nowMs memory (everyTurn deps entry familyHash nowMs memory observations) := by
  unfold everyTurn
  cases deps.everyException with
  | none => exact MarksAlerts.nothing
  | some window =>
      change MarksAlerts nowMs memory (everyExceptionTurn deps window entry familyHash nowMs memory
        observations)
      unfold everyExceptionTurn
      split
      · exact MarksAlerts.nothing
      · exact MarksAlerts.alert family rfl

theorem marksAlerts_due {marks : Nat -> Except Thrown Bool} {nowMs : Int} (entries : List (Entry Value))
    {observed : List Text} {memory : Memory} :
    MarksAlerts nowMs memory (due deps marks nowMs entries observed memory observations) := by
  induction entries generalizing observed memory observations with
  | nil => exact MarksAlerts.nothing
  | cons entry entries inductionHypothesis =>
      unfold due
      split
      · exact inductionHypothesis
      · rename_i familyHash family
        exact ((marksAlerts_newTurn family).append (marksAlerts_everyTurn family)).append
          inductionHypothesis

/-! ## Contained failures -/

/-- What was delivered for one of the alerts. -/
theorem Delivers.get {world : World} {nowMs : Int} {first index : Nat} {alerts : List Alert}
    {deliveries : List Delivery} {alert : Alert}
    (delivers : Delivers deps world nowMs first alerts deliveries)
    (isAlert : alerts[index]? = some alert) :
    Exists fun delivery => deliveries[index]? = some delivery ∧
      world.payload deps nowMs (first + index) alert = some delivery.payload ∧
        delivery.called = deps.channels.length ∧
          (deps.channels = [] ∨ Exists fun channel => channel < deps.channels.length ∧
            (world.scripts (first + index)).channels channel = .accepts) := by
  induction alerts generalizing first index deliveries with
  | nil => cases isAlert
  | cons head alerts inductionHypothesis =>
      cases deliveries with
      | nil => exact delivers.elim
      | cons delivery deliveries =>
          cases index with
          | zero =>
              cases isAlert
              exact ⟨delivery, rfl, delivers.1⟩
          | succ index =>
              have later := inductionHypothesis delivers.2 isAlert
              rwa [Nat.add_assoc, Nat.add_comm 1 index] at later

/-- Where only contained failures happen, every evaluation is isolated. -/
theorem isolated_of_contained (contained : Contained failures) {world : World} (only : world.FailsOnly deps failures)
    (memory : Memory) (exceptions : List (Entry Value)) (nowMs : Int) :
    Isolated deps world memory exceptions nowMs := by
  have settled : ThrowsOnly (Allowed failures) (fun _ => False)
      (evaluateEntries deps nowMs exceptions []) :=
    settles_evaluateEntries (contains_of_contained contained) deps nowMs exceptions []
  have outcome : Outcome (fun _ => False)
      (serve (world.handle deps) (evaluateEntries deps nowMs exceptions []) memory {}).1 :=
    settled.serve only memory {}
  rcases ran : serve (world.handle deps) (evaluateEntries deps nowMs exceptions []) memory {} with
    ⟨⟨result, last⟩, after⟩
  rw [ran] at outcome
  cases result with
  | error thrown => exact (outcome thrown rfl).elim
  | ok returned =>
      have evaluated : world.evaluate deps memory exceptions nowMs = ((.ok returned, last), after) :=
        serve_tryCatch_of_ok ran
      have follows := evaluateEntries_returns only contained.2.2.2.2.1 rfl ran
      rcases follows.deliveries with ⟨delivered, isAfter, delivers⟩
      change after.deliveries = delivered at isAfter
      change Delivers deps world nowMs 0 _ delivered at delivers
      subst isAfter
      refine ⟨?_, ?_⟩
      · intro index alert payload isDue built channel isChannel _accepts
        rcases delivers.get isDue with ⟨delivery, isDelivered, isBuilt, everyChannel, _⟩
        rw [Nat.zero_add, built] at isBuilt
        rw [evaluated]
        exact ⟨delivery, isDelivered, (Option.some.inj isBuilt).symm, everyChannel ▸ isChannel⟩
      · rintro ruleType familyHash ⟨marked, unmarked⟩
        rw [evaluated] at marked ⊢
        have inMaps : (cooldownKey ruleType familyHash, nowMs) ∈ last.maps.lastFiredFamily := marked
        rw [follows.maps] at inMaps
        rcases marksAlerts_due exceptions ruleType familyHash inMaps with
          before | ⟨alert, isDue, isRule, isFamily⟩
        · exact (unmarked before).elim
        · rcases List.mem_iff_getElem?.mp isDue with ⟨index, isIndex⟩
          rcases delivers.get isIndex with ⟨delivery, isDelivered, isBuilt, everyChannel, accepted⟩
          rw [Nat.zero_add] at isBuilt accepted
          refine ⟨index, alert, isIndex, isRule, isFamily, delivery, isDelivered, isBuilt, ?_⟩
          rw [everyChannel]
          exact accepted

/-! ## Failures that reach other alerts -/

/-- Nothing fails. -/
def calm : (request : Request) -> Reply request
  | .now => 0
  | .markFamilySeen _familyHash _nowMs _windowMs => .ok true
  | .get _query => .ok { data := [], nextCursor := none }
  | .batch _batchId => .ok []
  | .geoLookup _clientIp => .ok none
  | .diagnosisFor _familyHash => .ok (.ok none)
  | .send _payload => ⟨[], .ok []⟩

/-- The store rejects `get`. -/
def withoutEntries : (request : Request) -> Reply request
  | .get _query => .error (Thrown.typeError (units "gone"))
  | request => calm request

/-- The store rejects `batch`. -/
def withoutBatch : (request : Request) -> Reply request
  | .batch _batchId => .error (Thrown.typeError (units "gone"))
  | request => calm request

/-- The diagnosis hook throws before it returns a promise. -/
def throwingDiagnosis : (request : Request) -> Reply request
  | .diagnosisFor _familyHash => .error (Thrown.typeError (units "gone"))
  | request => calm request

/-- The same answers for every alert. -/
def uniformly (marks : Except Thrown Bool) (answers : (request : Request) -> Reply request)
    (channel : SendAnswer) : World where
  marks := fun _ => marks
  scripts := fun _ => { answers := fun _ => answers, channels := fun _ => channel }

/-- The exceptions of two families. -/
def twoFamilies : List (Entry Value) :=
  [System.plainException ['1'] ['f'], System.plainException ['2'] ['g']]

/-- The store rejects the lookup for the first alert only. -/
def firstLookupFails : World where
  marks := fun _ => .ok true
  scripts := fun index =>
    { answers := fun _ => if index = 0 then withoutEntries else calm
      channels := fun _ => .accepts }

/-- The second family qualifies, its alert can be built and its channel accepts; it is
not sent, because the lookup for the first family has failed. -/
theorem firstLookupFails_not_isolated :
    ¬ forall (deps : TelescopeAlerterDeps) (world : World) (memory : Memory)
      (exceptions : List (Entry Value)) (nowMs : Int), Isolated deps world memory exceptions nowMs := by
  intro isolated
  have received := (isolated System.plainDeps firstLookupFails {} twoFamilies 0).received 1
  have isDue : (due System.plainDeps firstLookupFails.marks 0 twoFamilies [] (Memory.maps {}) 0).alerts[1]? =
      some ⟨⟨.newException, System.plainDeps.newExceptionWindow⟩, System.plainException ['2'] ['g'],
        3600000⟩ := rfl
  have built : (firstLookupFails.payload System.plainDeps 0 1
      ⟨⟨.newException, System.plainDeps.newExceptionWindow⟩, System.plainException ['2'] ['g'],
        3600000⟩).isSome := rfl
  have nothing : (firstLookupFails.evaluate System.plainDeps {} twoFamilies 0).2.deliveries = [] := rfl
  rcases Option.isSome_iff_exists.mp built with ⟨payload, isPayload⟩
  rcases received _ payload isDue isPayload 0 (by decide) rfl with ⟨delivery, delivered, _⟩
  rw [nothing] at delivered
  cases delivered

section Uniform

variable {marks : Except Thrown Bool} {answers : (request : Request) -> Reply request}
  {channel : SendAnswer} {failures : Failure -> Prop}

/-- Which failures happen where every alert is answered alike. -/
theorem failsOnly_uniformly (sharedMarks : forall familyHash nowMs windowMs failure,
      Failing (.markFamilySeen familyHash nowMs windowMs) marks failure -> failures failure)
    (reads : forall request failure, request.IsRead -> Failing request (answers request) failure ->
      failures failure)
    (sends : forall payload failure,
      Failing (.send payload) ⟨[], callChannels (deps.channels.map fun _ => channel)⟩ failure ->
        failures failure) : (uniformly marks answers channel).FailsOnly deps failures := by
  intro served request failure failing
  cases request with
  | markFamilySeen familyHash nowMs windowMs =>
      exact sharedMarks familyHash nowMs windowMs failure failing
  | send payload =>
      refine sends payload failure ?_
      have answers_eq : Script.sendAnswers deps ((uniformly marks answers channel).script served) =
          deps.channels.map fun _ => channel := by
        rw [List.map_const']
        exact (List.map_const' ..).trans (by rw [List.length_range])
      rw [← answers_eq]
      exact failing
  | now => exact reads .now failure trivial failing
  | get query => exact reads (.get query) failure trivial failing
  | batch batchId => exact reads (.batch batchId) failure trivial failing
  | geoLookup clientIp => exact reads (.geoLookup clientIp) failure trivial failing
  | diagnosisFor familyHash => exact reads (.diagnosisFor familyHash) failure trivial failing

theorem calm_not_failing {request : Request} {failure : Failure} (isRead : request.IsRead) :
    ¬ Failing request (calm request) failure := by
  intro failing
  cases request with
  | markFamilySeen | send => cases isRead
  | now | get | batch | geoLookup | diagnosisFor => cases failing

theorem accepting_not_failing {payload : AlertPayload} {failure : Failure} :
    ¬ Failing (.send payload) ⟨[], callChannels (System.plainDeps.channels.map fun _ => .accepts)⟩
      failure := by
  intro failing
  change Failing (.send payload) ⟨[], .ok [.ok ()]⟩ failure at failing
  cases failing with
  | channelRejects member _accepted => cases List.mem_singleton.mp member
  | noChannelAccepts _some none => exact none (List.mem_singleton_self _)
  | unreadableReason member _unreadable => cases List.mem_singleton.mp member

end Uniform

/-- A family that is left marked without an alert that was sent. -/
theorem not_isolated_of_marked {world : World} {exceptions : List (Entry Value)} {nowMs : Int}
    (ruleType : RuleType) (familyHash : Text)
    (marked : LeftMarked ruleType familyHash nowMs {} (world.evaluate deps {} exceptions nowMs).1.2)
    (unsent : (world.evaluate deps {} exceptions nowMs).2.deliveries = [] ∨
      (deps.channels ≠ [] ∧ forall index channel, (world.scripts index).channels channel ≠ .accepts)) :
    ¬ Isolated deps world {} exceptions nowMs := by
  intro isolated
  rcases isolated.marked ruleType familyHash marked with
    ⟨index, alert, _isDue, _isRule, _isFamily, delivery, delivered, _built, accepted⟩
  rcases unsent with nothing | ⟨someChannel, noneAccepts⟩
  · rw [nothing] at delivered
    cases delivered
  · rcases accepted with noChannel | ⟨channel, _called, accepts⟩
    · exact someChannel noChannel
    · exact noneAccepts index channel accepts

theorem plainException_marked {world : World}
    (fired : (world.evaluate System.plainDeps {} twoFamilies 0).1.2.lastFiredFamily =
      [(cooldownKey .newException ['f'], 0)]) :
    LeftMarked .newException ['f'] 0 {} (world.evaluate System.plainDeps {} twoFamilies 0).1.2 :=
  ⟨fired ▸ List.mem_singleton_self _, List.not_mem_nil⟩

/-- A kind of failure under which every evaluation is isolated is a contained one. -/
theorem contained_of_isolated (isolated : forall (deps : TelescopeAlerterDeps) (world : World) (memory : Memory)
      (exceptions : List (Entry Value)) (nowMs : Int), world.FailsOnly deps failures ->
        Isolated deps world memory exceptions nowMs) : Contained failures := by
  refine ⟨fun mayFail => ?_, fun mayFail => ?_, fun mayFail => ?_, fun mayFail => ?_, fun mayFail => ?_,
    fun mayFail => ?_⟩
  · refine not_isolated_of_marked .newException ['f'] (plainException_marked rfl) (Or.inl rfl)
      (isolated System.plainDeps (uniformly (.ok true) withoutEntries .accepts) {} twoFamilies 0
        (failsOnly_uniformly (fun _ _ _ _ failing => by cases failing) ?_
          fun _ _ failing => (accepting_not_failing failing).elim))
    intro request failure isRead failing
    cases request with
    | get query =>
        cases failing
        exact mayFail
    | now | batch | geoLookup | diagnosisFor => exact (calm_not_failing isRead failing).elim
    | markFamilySeen | send => cases isRead
  · refine not_isolated_of_marked .newException ['f'] (plainException_marked rfl) (Or.inl rfl)
      (isolated System.plainDeps (uniformly (.ok true) withoutBatch .accepts) {} twoFamilies 0
        (failsOnly_uniformly (fun _ _ _ _ failing => by cases failing) ?_
          fun _ _ failing => (accepting_not_failing failing).elim))
    intro request failure isRead failing
    cases request with
    | batch batchId =>
        cases failing
        exact mayFail
    | now | get | geoLookup | diagnosisFor => exact (calm_not_failing isRead failing).elim
    | markFamilySeen | send => cases isRead
  · have diagnosing : (uniformly (.ok true) throwingDiagnosis .accepts).FailsOnly
        { System.plainDeps with diagnoses := true } failures := by
      refine failsOnly_uniformly (fun _ _ _ _ failing => by cases failing) ?_
        fun _ _ failing => (accepting_not_failing failing).elim
      intro request failure isRead failing
      cases request with
      | diagnosisFor familyHash =>
          cases failing
          exact mayFail
      | now | get | geoLookup | batch => exact (calm_not_failing isRead failing).elim
      | markFamilySeen | send => cases isRead
    exact not_isolated_of_marked .newException ['f']
      ⟨List.mem_singleton_self _, List.not_mem_nil⟩ (Or.inl rfl)
      (isolated _ _ {} twoFamilies 0 diagnosing)
  · refine not_isolated_of_marked .newException ['f'] (plainException_marked rfl)
      (Or.inr ⟨List.cons_ne_nil _ _, fun _ _ => SendAnswer.noConfusion⟩)
      (isolated System.plainDeps
        (uniformly (.ok true) calm (.throws (Thrown.typeError (units "gone")))) {} twoFamilies 0
        (failsOnly_uniformly (fun _ _ _ _ failing => by cases failing)
          (fun _ _ isRead failing => (calm_not_failing isRead failing).elim) ?_))
    intro payload failure failing
    cases failing
    exact mayFail
  · have rejecting : (uniformly (.ok true) calm (.rejects (Thrown.typeError (units "gone")))).FailsOnly
        System.plainDeps failures := by
      refine failsOnly_uniformly (fun _ _ _ _ failing => by cases failing)
        (fun _ _ isRead failing => (calm_not_failing isRead failing).elim) ?_
      intro payload failure failing
      change Failing (.send payload) ⟨[], .ok [.error (Thrown.typeError (units "gone"))]⟩ failure
        at failing
      cases failing with
      | channelRejects _member accepted => cases List.mem_singleton.mp accepted
      | noChannelAccepts _some _none => exact mayFail
      | unreadableReason member unreadable =>
          cases List.mem_singleton.mp member
          cases unreadable
    refine not_isolated_of_marked .newException ['f']
      ⟨List.mem_cons_self .., List.not_mem_nil⟩
      (Or.inr ⟨List.cons_ne_nil _ _, fun _ _ => SendAnswer.noConfusion⟩)
      (isolated _ _ {} twoFamilies 0 rejecting)
  · have unread : (uniformly (.error .null) calm .accepts).FailsOnly
        { System.plainDeps with sharesFamilies := true } failures := by
      refine failsOnly_uniformly ?_ (fun _ _ isRead failing => (calm_not_failing isRead failing).elim)
        fun _ _ failing => (accepting_not_failing failing).elim
      intro familyHash nowMs windowMs failure failing
      cases failing with
      | familyMarks readable =>
          rcases readable with ⟨text, isText⟩
          cases isText
      | unreadableMarks _unreadable => exact mayFail
    have received := (isolated _ _ {} twoFamilies 0 unread).received 0
    have built : ((uniformly (.error .null) calm .accepts).payload
        { System.plainDeps with sharesFamilies := true } 0 0
        ⟨⟨.newException, System.plainDeps.newExceptionWindow⟩, System.plainException ['1'] ['f'],
          3600000⟩).isSome := rfl
    rcases Option.isSome_iff_exists.mp built with ⟨payload, isPayload⟩
    rcases received _ payload rfl isPayload 0 (by decide) rfl with ⟨delivery, delivered, _⟩
    have nothing : ((uniformly (.error .null) calm .accepts).evaluate
        { System.plainDeps with sharesFamilies := true } {} twoFamilies 0).2.deliveries = [] := rfl
    rw [nothing] at delivered
    cases delivered

/-- Every evaluation whose failures are of some kinds is isolated exactly where these are
contained: neither a failed read of the store, nor a synchronous throw of the diagnosis
hook or of a channel, nor a payload that no channel accepts, nor a thrown value from
which its handler can read no message. -/
theorem isolated_iff_contained (failures : Failure -> Prop) :
    (forall (deps : TelescopeAlerterDeps) (world : World) (memory : Memory)
      (exceptions : List (Entry Value)) (nowMs : Int), world.FailsOnly deps failures ->
        Isolated deps world memory exceptions nowMs) <->
      ¬ failures .entries ∧ ¬ failures .batch ∧ ¬ failures .diagnosisThrows ∧
        ¬ failures .channelThrows ∧ ¬ failures .noChannelAccepts ∧ ¬ failures .unreadable :=
  ⟨contained_of_isolated, fun contained _ _ memory exceptions nowMs only =>
    isolated_of_contained contained only memory exceptions nowMs⟩

end Alerts
end Telescope
