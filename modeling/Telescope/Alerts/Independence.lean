import Telescope.Alerts.Interval

namespace Telescope
namespace Alerts

open Throwing

/-!
# Which interval rules are independent

A rule is independent of the others when in every evaluation it fires exactly where the
value it measures crosses its threshold and its own cooldown has elapsed, with the
history that it would have alone.  Two rules that read the drop counter share the field
for the counter's last value, and a throw ends the evaluation before the rules behind
it are measured.
-/

/-! ## Telemetry -/

/-- The answers in one evaluation, by the number of the request of the rule. -/
abbrev Telemetry := Nat -> (labelled : Labelled) -> IntervalReply labelled

/-- The number of requests made for each rule in this evaluation, and the rules that
have fired in it. -/
structure Progress where
  asked : Nat -> Nat := fun _ => 0
  fired : List Nat := []

def IntervalRequest.isSend : IntervalRequest -> Bool
  | .send _payload => true
  | _ => false

/-- The rule has made more requests, and has fired a number of times. -/
def Progress.moved (progress : Progress) (rule asked times : Nat) : Progress where
  asked := Function.update progress.asked rule asked
  fired := progress.fired ++ List.replicate times rule

def Telemetry.handle (telemetry : Telemetry) (progress : Progress) (labelled : Labelled) :
    IntervalReply labelled × Progress :=
  (telemetry (progress.asked labelled.rule) labelled,
    progress.moved labelled.rule (progress.asked labelled.rule + 1) labelled.request.isSend.toNat)

section Runs

variable (deps : IntervalDeps)

/-- One evaluation of some rules. -/
def evaluation (rules : List (AlertRule × Nat)) (telemetry : Telemetry) (memory : IntervalMemory) :
    (Except Thrown PUnit × IntervalMemory) × Progress :=
  serve telemetry.handle (evaluateRules deps rules) memory {}

/-- The fields after a number of evaluations, one of which may have ended with a throw. -/
def memoryAfter (rules : List (AlertRule × Nat)) (telemetry : Nat -> Telemetry)
    (first : IntervalMemory) : Nat -> IntervalMemory
  | 0 => first
  | evaluations + 1 =>
      (evaluation deps rules (telemetry evaluations)
        (memoryAfter rules telemetry first evaluations)).1.2

/-- The rule fires in this evaluation of all rules. -/
def Fires (telemetry : Nat -> Telemetry) (first : IntervalMemory) (number index : Nat) : Prop :=
  index ∈ (evaluation deps deps.rules.zipIdx (telemetry number)
    (memoryAfter deps deps.rules.zipIdx telemetry first number)).2.fired

/-- With the history that the rule has alone, the value it measures crosses its threshold
and its cooldown has elapsed. -/
def Due (telemetry : Nat -> Telemetry) (first : IntervalMemory) (number index : Nat)
    (alertRule : AlertRule) : Prop :=
  Exists fun crossing => Exists fun memory => Exists fun progress =>
    serve (telemetry number).handle (measure index alertRule)
        (memoryAfter deps [(alertRule, index)] telemetry first number) {} =
      ((.ok (some crossing), memory), progress) ∧
    (serve (telemetry number).handle (inCooldown index deps) memory progress).1.1 = .ok false

/-- Every interval rule fires exactly where it is due. -/
def Independent (telemetry : Nat -> Telemetry) (first : IntervalMemory) : Prop :=
  forall number index alertRule, deps.rules[index]? = some alertRule -> alertRule.isInterval = true ->
    (Fires deps telemetry first number index <-> Due deps telemetry first number index alertRule)

/-! ## Circumstances -/

inductive Circumstance
  | severalDropRules
  | measurementThrows
  | dispatchThrows

/-- An answer that makes a measurement or a dispatch throw. -/
inductive Throws : (labelled : Labelled) -> IntervalReply labelled -> Circumstance -> Prop
  | measurement {rule query error} :
      Throws ⟨rule, .get query⟩ (Except.error error : Except Thrown (Page Value)) .measurementThrows
  | channel {rule payload warned error} :
      Throws ⟨rule, .send payload⟩ (⟨warned, .error error⟩ : Dispatched) .dispatchThrows
  | reason {rule payload warned results reason thrown} (member : .error reason ∈ results)
      (unreadable : reason.describe = .error thrown) :
      Throws ⟨rule, .send payload⟩ (⟨warned, .ok results⟩ : Dispatched) .dispatchThrows

theorem Throws.ne_severalDropRules {labelled : Labelled} {answer : IntervalReply labelled}
    {circumstance : Circumstance} (throws : Throws labelled answer circumstance) :
    circumstance ≠ .severalDropRules := by
  cases throws <;> exact Circumstance.noConfusion

/-- Only these circumstances occur. -/
structure OccursOnly (circumstances : Circumstance -> Prop) (telemetry : Nat -> Telemetry) : Prop where
  rules : ¬ circumstances .severalDropRules -> deps.rules.countP AlertRule.readsDrops ≤ 1
  answers : forall number asked labelled circumstance,
    Throws labelled (telemetry number asked labelled) circumstance -> circumstances circumstance

end Runs

/-- No answer makes anything throw. -/
def Telemetry.Calm (telemetry : Telemetry) : Prop :=
  forall asked labelled circumstance, ¬ Throws labelled (telemetry asked labelled) circumstance

/-! ## Readings -/

theorem moved_same (progress : Progress) (rule : Nat) :
    progress.moved rule (progress.asked rule) 0 = progress := by
  rw [Progress.moved, Function.update_eq_self, List.replicate_zero, List.append_nil]

theorem moved_moved (progress : Progress) (rule first second times more : Nat) :
    (progress.moved rule first times).moved rule second more = progress.moved rule second (times + more) := by
  rw [Progress.moved, Progress.moved, Progress.moved, Function.update_idem, List.append_assoc,
    List.replicate_append_replicate]

theorem moved_asked (progress : Progress) (rule asked times : Nat) :
    (progress.moved rule asked times).asked rule = asked := Function.update_self ..

variable {α : Type}

section Calm

variable {telemetry : Telemetry} {rule : Nat}

/-- A reading returns a value that depends on the answers to this rule only. -/
structure Settled (telemetry : Telemetry) (rule : Nat) {α : Type} (reading : Reading α) : Prop where
  settles : forall asked, Exists fun value => Exists fun more =>
    forall progress : Progress, progress.asked rule = asked ->
      (reading ⟨⟩).run telemetry.handle progress = ((.ok value, ⟨⟩), progress.moved rule more 0)

theorem settled_pure (value : α) : Settled telemetry rule (pure value) := by
  refine ⟨fun asked => ⟨value, asked, fun progress isAsked => ?_⟩⟩
  rw [← isAsked, moved_same]
  rfl

theorem settled_bind {β : Type} {first : Reading α} {next : α -> Reading β}
    (firstSettles : Settled telemetry rule first) (nextSettles : forall value, Settled telemetry rule (next value)) :
    Settled telemetry rule (first >>= next) := by
  refine ⟨fun asked => ?_⟩
  rcases firstSettles.settles asked with ⟨value, more, reached⟩
  rcases (nextSettles value).settles more with ⟨result, last, ended⟩
  refine ⟨result, last, fun progress isAsked => ?_⟩
  change ((first ⟨⟩).bind (andThen next)).run telemetry.handle progress = _
  have sequenced := Program.run_bind telemetry.handle (first ⟨⟩) (andThen next) progress
  rw [reached progress isAsked] at sequenced
  refine sequenced.trans ?_
  have continued := ended (progress.moved rule more 0) (moved_asked ..)
  rw [moved_moved] at continued
  exact continued

theorem settled_askNow : Settled telemetry rule (askNow rule) :=
  ⟨fun asked => ⟨telemetry asked ⟨rule, .now⟩, asked + 1, fun progress isAsked => by
    cases isAsked
    rfl⟩⟩

theorem run_get (query : EntryQuery) (next : Except Thrown (Page Value) -> Reading α) (progress : Progress) :
    Program.run telemetry.handle ((ask (⟨rule, .get query⟩ : Labelled) >>= next : Reading α) ⟨⟩) progress =
      Program.run telemetry.handle (next (telemetry (progress.asked rule) ⟨rule, .get query⟩) ⟨⟩)
        (progress.moved rule (progress.asked rule + 1) 0) := rfl

theorem settled_storageGet (calm : telemetry.Calm) (query : EntryQuery) :
    Settled telemetry rule (storageGet rule query) := by
  refine ⟨fun asked => ?_⟩
  have unthrown := calm asked ⟨rule, .get query⟩ .measurementThrows
  cases answered : telemetry asked ⟨rule, .get query⟩ with
  | error error =>
      rw [answered] at unthrown
      exact (unthrown .measurement).elim
  | ok page =>
      refine ⟨page, asked + 1, fun progress isAsked => ?_⟩
      cases isAsked
      refine (run_get query _ progress).trans ?_
      rw [answered]
      rfl

theorem settled_collectLoop (calm : telemetry.Calm) (query : EntryQuery) (pageSize : Int)
    (scanCap pages : Nat) (cursor : Option Text) (entries : List (Entry Value)) :
    Settled telemetry rule
      (Metrics.collectLoop (storageGet rule) query pageSize scanCap pages cursor entries) := by
  induction pages generalizing cursor entries with
  | zero => exact settled_pure _
  | succ pages inductionHypothesis =>
      refine settled_bind (settled_storageGet calm _) fun page => ?_
      split
      · exact settled_pure _
      · split
        · exact settled_pure _
        · split
          · exact settled_pure _
          · exact inductionHypothesis _ _

theorem settled_readWindow (calm : telemetry.Calm) (window : Window) (type : Text) :
    Settled telemetry rule (readWindow rule window type) :=
  settled_bind settled_askNow fun _now =>
    settled_bind (settled_collectLoop calm ..) fun _result => settled_pure _

theorem settled_computeMetric (calm : telemetry.Calm) (metric : AlertMetric) (window : Window) :
    Settled telemetry rule (computeMetric rule metric window) := by
  cases metric with
  | cacheHitRate =>
      refine settled_bind settled_askNow fun _now => ?_
      refine settled_bind (settled_collectLoop calm ..) fun result => ?_
      dsimp only
      split <;> exact settled_pure _
  | requestP95Ms | requestP99Ms | queryP95Ms | queryP99Ms =>
      refine settled_bind (settled_readWindow calm _ _) fun entries => ?_
      dsimp only
      split <;> exact settled_pure _

theorem settled_measureMetric (calm : telemetry.Calm) (metric : AlertMetric) (window : Window)
    (comparator : Comparator) (threshold : Number) (minSamples : Option Number) :
    Settled telemetry rule (measureMetric rule metric window comparator threshold minSamples) := by
  refine settled_bind (settled_computeMetric calm metric window) fun measured => ?_
  cases measured with
  | none => exact settled_pure _
  | some computed =>
      dsimp only
      split
      · exact settled_pure _
      · cases comparator <;> exact settled_pure _

end Calm

/-! ## Turns of one rule -/

/-- What a rule reads of the fields is the same. -/
structure Near (rule : Nat) (alertRule : AlertRule) (memory other : IntervalMemory) : Prop where
  fired : memory.lastFiredAt rule = other.lastFiredAt rule
  dropped : alertRule.readsDrops = true -> memory.lastDroppedCount = other.lastDroppedCount

/-- What the other rules read is as it was. -/
structure Elsewhere (rule : Nat) (alertRule : AlertRule) (before after : IntervalMemory) : Prop where
  fired : forall other, other ≠ rule -> after.lastFiredAt other = before.lastFiredAt other
  dropped : alertRule.readsDrops = false -> after.lastDroppedCount = before.lastDroppedCount

theorem Near.refl (rule : Nat) (alertRule : AlertRule) (memory : IntervalMemory) :
    Near rule alertRule memory memory := ⟨rfl, fun _ => rfl⟩

theorem Elsewhere.refl (rule : Nat) (alertRule : AlertRule) (memory : IntervalMemory) :
    Elsewhere rule alertRule memory memory := ⟨fun _ _ => rfl, fun _ => rfl⟩

theorem Elsewhere.trans {rule : Nat} {alertRule : AlertRule} {first second third : IntervalMemory}
    (earlier : Elsewhere rule alertRule first second) (later : Elsewhere rule alertRule second third) :
    Elsewhere rule alertRule first third :=
  ⟨fun other different => (later.fired other different).trans (earlier.fired other different),
    fun reads => (later.dropped reads).trans (earlier.dropped reads)⟩

section Turns

variable {telemetry : Telemetry} {rule : Nat} {alertRule : AlertRule} {silent : Bool}

/-- An attempt on behalf of a rule returns; it depends on the fields the rule reads and on
the answers to the rule, and leaves what the other rules read.  A silent one does not
fire the rule. -/
structure OwnTurn (telemetry : Telemetry) (rule : Nat) (alertRule : AlertRule) (silent : Bool) {α : Type}
    (attempt : IntervalEvaluation α) : Prop where
  turns : forall memory other progress otherProgress, Near rule alertRule memory other ->
    progress.asked rule = otherProgress.asked rule ->
      Exists fun value => Exists fun more => Exists fun times => Exists fun after =>
        Exists fun otherAfter =>
          serve telemetry.handle attempt memory progress =
              ((.ok value, after), progress.moved rule more times) ∧
            serve telemetry.handle attempt other otherProgress =
                ((.ok value, otherAfter), otherProgress.moved rule more times) ∧
              (silent = true -> times = 0) ∧ Near rule alertRule after otherAfter ∧
                Elsewhere rule alertRule memory after

theorem ownTurn_pure (value : α) : OwnTurn telemetry rule alertRule silent (pure value) := by
  refine ⟨fun memory other progress otherProgress near same => ?_⟩
  refine ⟨value, progress.asked rule, 0, memory, other, ?_, ?_, fun _ => rfl, near, Elsewhere.refl ..⟩
  · rw [moved_same]
    rfl
  · rw [same, moved_same]
    rfl

theorem ownTurn_bind {β : Type} {first : IntervalEvaluation α} {next : α -> IntervalEvaluation β}
    (firstTurn : OwnTurn telemetry rule alertRule silent first)
    (nextTurn : forall value, OwnTurn telemetry rule alertRule silent (next value)) :
    OwnTurn telemetry rule alertRule silent (first >>= next) := by
  refine ⟨fun memory other progress otherProgress near same => ?_⟩
  rcases firstTurn.turns memory other progress otherProgress near same with
    ⟨value, more, times, middle, otherMiddle, reached, otherReached, quiet, still, elsewhere⟩
  have sameAsked : (progress.moved rule more times).asked rule =
      (otherProgress.moved rule more times).asked rule := by rw [moved_asked, moved_asked]
  rcases (nextTurn value).turns middle otherMiddle _ _ still sameAsked with
    ⟨result, last, further, after, otherAfter, ended, otherEnded, quiet', kept, elsewhere'⟩
  rw [moved_moved] at ended otherEnded
  exact ⟨result, last, times + further, after, otherAfter,
    serve_bind_eq_ok.mpr ⟨value, middle, _, reached, ended⟩,
    serve_bind_eq_ok.mpr ⟨value, otherMiddle, _, otherReached, otherEnded⟩,
    fun isSilent => by rw [quiet isSilent, quiet' isSilent], kept, elsewhere.trans elsewhere'⟩

theorem serve_lift {reading : Reading α} {memory : IntervalMemory} {progress after : Progress} {value : α}
    (reached : (reading ⟨⟩).run telemetry.handle progress = ((.ok value, ⟨⟩), after)) :
    serve telemetry.handle reading.lift memory progress = ((.ok value, memory), after) := by
  have sequenced := Program.run_bind telemetry.handle (reading ⟨⟩)
    (fun outcome => Program.done (outcome.1, memory)) progress
  rw [reached] at sequenced
  exact sequenced

theorem ownTurn_lift {reading : Reading α} (settled : Settled telemetry rule reading) :
    OwnTurn telemetry rule alertRule silent reading.lift := by
  refine ⟨fun memory other progress otherProgress near same => ?_⟩
  rcases settled.settles (progress.asked rule) with ⟨value, more, reached⟩
  exact ⟨value, more, 0, memory, other, serve_lift (reached progress rfl),
    serve_lift (reached otherProgress same.symm), fun _ => rfl, near, Elsewhere.refl ..⟩

/-- A field that the rule reads. -/
theorem ownTurn_current {β : Type} (field : IntervalMemory -> β) (next : β -> IntervalEvaluation α)
    (same : forall memory other, Near rule alertRule memory other -> field memory = field other)
    (nextTurn : forall value, OwnTurn telemetry rule alertRule silent (next value)) :
    OwnTurn telemetry rule alertRule silent (current >>= fun memory => next (field memory)) := by
  refine ⟨fun memory other progress otherProgress near sameAsked => ?_⟩
  rcases (nextTurn (field memory)).turns memory other progress otherProgress near sameAsked with
    ⟨value, more, times, after, otherAfter, reached, otherReached, rest⟩
  rw [same memory other near] at otherReached
  exact ⟨value, more, times, after, otherAfter, reached, otherReached, rest⟩

theorem ownTurn_update (change : IntervalMemory -> IntervalMemory)
    (near : forall memory other, Near rule alertRule memory other ->
      Near rule alertRule (change memory) (change other))
    (elsewhere : forall memory, Elsewhere rule alertRule memory (change memory)) :
    OwnTurn telemetry rule alertRule silent (update change) := by
  refine ⟨fun memory other progress otherProgress isNear same => ?_⟩
  refine ⟨⟨⟩, progress.asked rule, 0, change memory, change other, ?_, ?_, fun _ => rfl,
    near _ _ isNear, elsewhere memory⟩
  · rw [moved_same]
    rfl
  · rw [same, moved_same]
    rfl

/-- A request for the rule. -/
theorem ownTurn_ask (request : IntervalRequest) (quietly : silent = true -> request.isSend = false)
    {next : IntervalReply ⟨rule, request⟩ -> IntervalEvaluation α}
    (nextTurn : forall asked, OwnTurn telemetry rule alertRule silent (next (telemetry asked ⟨rule, request⟩))) :
    OwnTurn telemetry rule alertRule silent (ask (⟨rule, request⟩ : Labelled) >>= next) := by
  refine ⟨fun memory other progress otherProgress near same => ?_⟩
  have sameAsked : (progress.moved rule (progress.asked rule + 1) request.isSend.toNat).asked rule =
      (otherProgress.moved rule (otherProgress.asked rule + 1) request.isSend.toNat).asked rule := by
    rw [moved_asked, moved_asked, same]
  rcases (nextTurn (progress.asked rule)).turns memory other _ _ near sameAsked with
    ⟨value, more, times, after, otherAfter, reached, otherReached, quiet, still, elsewhere⟩
  rw [moved_moved] at reached otherReached
  refine ⟨value, more, _, after, otherAfter, reached, ?_, ?_, still, elsewhere⟩
  · rw [same] at otherReached
    exact otherReached
  · intro isSilent
    rw [quiet isSilent, quietly isSilent]
    rfl

/-- What logging leaves alone. -/
structure LogsOnly (attempt : IntervalEvaluation PUnit) : Prop where
  logs : forall memory, Exists fun after => attempt memory = .done (.ok ⟨⟩, after) ∧
    after.lastFiredAt = memory.lastFiredAt ∧ after.lastDroppedCount = memory.lastDroppedCount

theorem LogsOnly.ownTurn {attempt : IntervalEvaluation PUnit} (logging : LogsOnly attempt) :
    OwnTurn telemetry rule alertRule silent attempt := by
  refine ⟨fun memory other progress otherProgress near same => ?_⟩
  rcases logging.logs memory with ⟨after, ended, fired, dropped⟩
  rcases logging.logs other with ⟨otherAfter, otherEnded, otherFired, otherDropped⟩
  refine ⟨⟨⟩, progress.asked rule, 0, after, otherAfter, ?_, ?_, fun _ => rfl, ⟨?_, ?_⟩, ⟨?_, ?_⟩⟩
  · rw [moved_same, serve, ended]
    rfl
  · rw [same, moved_same, serve, otherEnded]
    rfl
  · rw [fired, otherFired, near.fired]
  · intro reads
    rw [dropped, otherDropped, near.dropped reads]
  · exact fun index _ => by rw [fired]
  · exact fun _ => dropped

theorem LogsOnly.andThen {first second : IntervalEvaluation PUnit} (firstLogs : LogsOnly first)
    (secondLogs : LogsOnly second) : LogsOnly (first >>= fun _ => second) := by
  refine ⟨fun memory => ?_⟩
  rcases firstLogs.logs memory with ⟨middle, reached, fired, dropped⟩
  rcases secondLogs.logs middle with ⟨after, ended, fired', dropped'⟩
  refine ⟨after, ?_, fired'.trans fired, dropped'.trans dropped⟩
  change (first memory).bind _ = _
  rw [reached]
  exact ended

theorem logsOnly_warnIntervalFailure (channel : AlertChannel) {reason : Thrown}
    (described : forall thrown, reason.describe ≠ .error thrown) :
    LogsOnly (warnIntervalFailure channel reason) := by
  refine ⟨fun memory => ?_⟩
  change Exists fun after => (if channel.name ∈ memory.warnedChannels then pure ⟨⟩ else _ :
    IntervalEvaluation PUnit) memory = _ ∧ _
  split
  · exact ⟨memory, rfl, rfl, rfl⟩
  · cases message : reason.describe with
    | error thrown => exact (described thrown message).elim
    | ok text => exact ⟨_, rfl, rfl, rfl⟩

theorem logsOnly_reportIntervalFailures (channels : List AlertChannel)
    {results : List (Except Thrown Unit)}
    (described : forall reason, .error reason ∈ results -> forall thrown, reason.describe ≠ .error thrown) :
    LogsOnly (reportIntervalFailures channels results) := by
  induction channels generalizing results with
  | nil => cases results <;> exact ⟨fun memory => ⟨memory, rfl, rfl, rfl⟩⟩
  | cons channel channels inductionHypothesis =>
      cases results with
      | nil => exact ⟨fun memory => ⟨memory, rfl, rfl, rfl⟩⟩
      | cons result results =>
          have rest := inductionHypothesis fun reason member =>
            described reason (List.mem_cons_of_mem _ member)
          cases result with
          | ok sent => exact ⟨fun memory => rest.logs memory⟩
          | error reason =>
              exact (logsOnly_warnIntervalFailure channel
                (described reason (List.mem_cons_self ..))).andThen rest

end Turns

/-! ## The turn of a rule -/

section Evaluation

variable {telemetry : Telemetry} (calm : telemetry.Calm) (deps : IntervalDeps) (rule : Nat)
  {silent : Bool}

include calm

theorem ownTurn_measure (alertRule : AlertRule) : OwnTurn telemetry rule alertRule silent (measure rule alertRule) := by
  cases alertRule with
  | exceptionRate window threshold =>
      exact ownTurn_lift (settled_bind (settled_bind (settled_readWindow calm _ _) fun _ =>
        settled_pure _) fun _ => settled_pure _)
  | slowRequestRate window thresholdMs count =>
      exact ownTurn_lift (settled_bind (settled_bind (settled_readWindow calm _ _) fun _ =>
        settled_pure _) fun _ => settled_pure _)
  | metricThreshold metric window comparator threshold minSamples =>
      exact ownTurn_lift (settled_measureMetric calm ..)
  | newException | everyException => exact ownTurn_pure _
  | droppedEntries threshold =>
      refine ownTurn_ask .droppedCount (fun _ => rfl) fun asked => ?_
      refine ownTurn_current IntervalMemory.lastDroppedCount
        (fun last => do
          update fun memory => { memory with lastDroppedCount := telemetry asked ⟨rule, .droppedCount⟩ }
          pure (reaches (.finite (((telemetry asked ⟨rule, .droppedCount⟩ : Nat) : Int) - last : Int))
            threshold))
        (fun _ _ near => near.dropped rfl) fun last => ?_
      exact ownTurn_bind (ownTurn_update _ (fun _ _ near => ⟨near.fired, fun _ => rfl⟩)
        fun _ => ⟨fun _ _ => rfl, fun reads => by cases reads⟩) fun _ => ownTurn_pure _

/-- Whether a rule cools down that fired last at a time. -/
def coolsDown (fired : Option Int) : IntervalEvaluation Bool :=
  match fired with
  | none => pure false
  | some last => do
      let now <- Reading.lift (askNow rule)
      pure (decide (now - last < deps.cooldownMs))

omit calm in
theorem ownTurn_inCooldown (alertRule : AlertRule) :
    OwnTurn telemetry rule alertRule silent (inCooldown rule deps) := by
  refine ownTurn_current (fun memory => memory.lastFiredAt rule) (coolsDown deps rule)
    (fun _ _ near => near.fired) fun fired => ?_
  cases fired with
  | none => exact ownTurn_pure _
  | some last => exact ownTurn_bind (ownTurn_lift settled_askNow) fun _ => ownTurn_pure _

theorem ownTurn_settleDispatch (alertRule : AlertRule) (payload : RatePayload) (asked : Nat) :
    OwnTurn telemetry rule alertRule silent
      (settleDispatch deps (telemetry asked ⟨rule, .send payload⟩)) := by
  refine ownTurn_bind (ownTurn_update _ (fun _ _ near => ⟨near.fired, near.dropped⟩)
    fun _ => ⟨fun _ _ => rfl, fun _ => rfl⟩) fun _ => ?_
  have unthrown := calm asked ⟨rule, .send payload⟩ .dispatchThrows
  rcases sent : telemetry asked ⟨rule, .send payload⟩ with ⟨warned, results⟩
  rw [sent] at unthrown
  cases results with
  | error error => exact (unthrown .channel).elim
  | ok results =>
      exact (logsOnly_reportIntervalFailures _ fun reason member thrown unreadable =>
        unthrown (.reason member unreadable)).ownTurn

theorem ownTurn_dispatchRate (alertRule : AlertRule) (payload : RatePayload) :
    OwnTurn telemetry rule alertRule false (dispatchRate rule deps payload) :=
  ownTurn_ask (.send payload) (fun isSilent => absurd isSilent Bool.false_ne_true)
    fun asked => ownTurn_settleDispatch calm deps rule alertRule payload asked

/-- A dispatch fires the rule. -/
theorem dispatchRate_fires (alertRule : AlertRule) (payload : RatePayload) (memory : IntervalMemory)
    (progress : Progress) :
    rule ∈ (serve telemetry.handle (dispatchRate rule deps payload) memory progress).2.fired := by
  have settling : OwnTurn telemetry rule alertRule true _ :=
    ownTurn_settleDispatch calm deps rule alertRule payload (progress.asked rule)
  rcases settling.turns memory memory (progress.moved rule (progress.asked rule + 1) 1) _
    (Near.refl ..) rfl with ⟨_, more, times, after, _, settled, _, _, _, _⟩
  change rule ∈ (serve telemetry.handle (settleDispatch deps
    (telemetry (progress.asked rule) (⟨rule, .send payload⟩ : Labelled))) memory
    (progress.moved rule (progress.asked rule + 1) 1)).2.fired
  rw [settled]
  change rule ∈ (progress.fired ++ [rule]) ++ List.replicate times rule
  rw [List.mem_append, List.mem_append]
  exact .inl (.inr (List.mem_singleton_self rule))

theorem ownTurn_evaluateRule (alertRule : AlertRule) :
    OwnTurn telemetry rule alertRule false (evaluateRule rule deps alertRule) := by
  rw [evaluateRule]
  split
  · exact ownTurn_pure _
  · refine ownTurn_bind (ownTurn_measure calm rule alertRule) fun outcome => ?_
    cases outcome with
    | none => exact ownTurn_pure _
    | some crossing =>
        refine ownTurn_bind (ownTurn_inCooldown deps rule alertRule) fun cooling => ?_
        split
        · exact ownTurn_pure _
        · refine ownTurn_bind (ownTurn_lift settled_askNow) fun now => ?_
          refine ownTurn_bind (ownTurn_update _ (fun memory other near => ⟨?_, near.dropped⟩)
            fun _ => ⟨fun other different => ?_, fun _ => rfl⟩) fun _ => ?_
          · change Function.update memory.lastFiredAt rule (some now) rule =
              Function.update other.lastFiredAt rule (some now) rule
            rw [Function.update_self, Function.update_self]
          · exact Function.update_of_ne different _ _
          · exact ownTurn_bind (ownTurn_bind (ownTurn_lift settled_askNow) fun _ => ownTurn_pure _)
              fun payload => ownTurn_dispatchRate calm deps rule alertRule payload

end Evaluation

/-! ## Runs -/

section Evaluations

variable {telemetry : Telemetry} (calm : telemetry.Calm) (deps : IntervalDeps)

theorem evaluateRules_append (first second : List (AlertRule × Nat)) (memory : IntervalMemory)
    (progress : Progress) {middle : IntervalMemory} {between : Progress}
    (returned : serve telemetry.handle (evaluateRules deps first) memory progress =
      ((.ok ⟨⟩, middle), between)) :
    serve telemetry.handle (evaluateRules deps (first ++ second)) memory progress =
      serve telemetry.handle (evaluateRules deps second) middle between := by
  induction first generalizing memory progress with
  | nil =>
      cases returned
      rfl
  | cons head first inductionHypothesis =>
      rcases head with ⟨alertRule, index⟩
      rcases serve_bind_eq_ok.mp returned with ⟨_, after, reached, turned, rest⟩
      have shifted := inductionHypothesis after reached rest
      rw [List.cons_append, evaluateRules, serve_bind, turned]
      exact shifted

include calm in
/-- Other rules leave what a rule reads, and do not fire it. -/
theorem evaluateRules_elsewhere (rule : Nat) (alertRule : AlertRule) (rules : List (AlertRule × Nat))
    (apart : forall other, other ∈ rules -> other.2 ≠ rule ∧
      (alertRule.readsDrops = true -> other.1.readsDrops = false))
    (memory : IntervalMemory) (progress : Progress) :
    Exists fun after => Exists fun reached =>
      serve telemetry.handle (evaluateRules deps rules) memory progress = ((.ok ⟨⟩, after), reached) ∧
        Near rule alertRule after memory ∧ reached.asked rule = progress.asked rule ∧
          (rule ∈ reached.fired <-> rule ∈ progress.fired) := by
  induction rules generalizing memory progress with
  | nil => exact ⟨memory, progress, rfl, Near.refl .., rfl, Iff.rfl⟩
  | cons head rules inductionHypothesis =>
      rcases head with ⟨other, index⟩
      rw [List.forall_mem_cons] at apart
      rcases apart with ⟨⟨different, drops⟩, others⟩
      rcases (ownTurn_evaluateRule calm deps index other).turns memory memory progress progress
        (Near.refl ..) rfl with ⟨_, more, times, middle, _, turned, _, _, _, elsewhere⟩
      rcases inductionHypothesis others middle (progress.moved index more times) with
        ⟨after, reached, ended, near, asked, fired⟩
      refine ⟨after, reached, serve_bind_eq_ok.mpr ⟨⟨⟩, middle, _, turned, ended⟩, ⟨?_, ?_⟩, ?_, ?_⟩
      · exact near.fired.trans (elsewhere.fired rule different.symm)
      · exact fun reads => (near.dropped reads).trans (elsewhere.dropped (drops reads))
      · exact asked.trans (Function.update_of_ne different.symm _ _)
      · rw [fired]
        change rule ∈ progress.fired ++ List.replicate times index <-> _
        rw [List.mem_append]
        exact or_iff_left fun repeated => different.symm (List.eq_of_mem_replicate repeated)

include calm in
/-- One evaluation, beside the evaluation of one of its rules. -/
theorem evaluation_near {rules before behind : List (AlertRule × Nat)} {rule : Nat}
    {alertRule : AlertRule} (split : rules = before ++ (alertRule, rule) :: behind)
    (apartBefore : forall other, other ∈ before -> other.2 ≠ rule ∧
      (alertRule.readsDrops = true -> other.1.readsDrops = false))
    (apartBehind : forall other, other ∈ behind -> other.2 ≠ rule ∧
      (alertRule.readsDrops = true -> other.1.readsDrops = false))
    {memory own : IntervalMemory} (near : Near rule alertRule memory own) :
    Near rule alertRule (evaluation deps rules telemetry memory).1.2
        (evaluation deps [(alertRule, rule)] telemetry own).1.2 ∧
      (rule ∈ (evaluation deps rules telemetry memory).2.fired <->
        rule ∈ (evaluation deps [(alertRule, rule)] telemetry own).2.fired) := by
  rcases evaluateRules_elsewhere calm deps rule alertRule before apartBefore memory {} with
    ⟨middle, between, ran, kept, asked, quiet⟩
  have nearMiddle : Near rule alertRule middle own :=
    ⟨kept.fired.trans near.fired, fun reads => (kept.dropped reads).trans (near.dropped reads)⟩
  rcases (ownTurn_evaluateRule calm deps rule alertRule).turns middle own between {} nearMiddle asked with
    ⟨_, more, times, after, ownAfter, turned, ownTurned, _, nearAfter, _⟩
  rcases evaluateRules_elsewhere calm deps rule alertRule behind apartBehind after
    (between.moved rule more times) with ⟨last, reached, ended, keptLast, _, fired⟩
  have whole : evaluation deps rules telemetry memory = ((.ok ⟨⟩, last), reached) := by
    rw [evaluation, split, evaluateRules_append deps before _ memory {} ran]
    exact serve_bind_eq_ok.mpr ⟨⟨⟩, after, _, turned, ended⟩
  have alone : evaluation deps [(alertRule, rule)] telemetry own =
      ((.ok ⟨⟩, ownAfter), ({} : Progress).moved rule more times) :=
    serve_bind_eq_ok.mpr ⟨⟨⟩, ownAfter, _, ownTurned, rfl⟩
  rw [whole, alone]
  refine ⟨⟨keptLast.fired.trans nearAfter.fired, fun reads =>
    (keptLast.dropped reads).trans (nearAfter.dropped reads)⟩, fired.trans ?_⟩
  change rule ∈ between.fired ++ List.replicate times rule <-> rule ∈ [] ++ List.replicate times rule
  rw [List.mem_append, List.nil_append]
  exact or_iff_right fun earlier => List.not_mem_nil (quiet.mp earlier)

/-- A silent attempt, on its own. -/
theorem OwnTurn.alone {rule : Nat} {alertRule : AlertRule} {attempt : IntervalEvaluation α}
    (turn : OwnTurn telemetry rule alertRule true attempt) (memory : IntervalMemory) (progress : Progress) :
    Exists fun value => Exists fun more => Exists fun after =>
      serve telemetry.handle attempt memory progress = ((.ok value, after), progress.moved rule more 0) := by
  rcases turn.turns memory memory progress progress (Near.refl ..) rfl with
    ⟨value, more, times, after, _, reached, _, quiet, _, _⟩
  rw [quiet rfl] at reached
  exact ⟨value, more, after, reached⟩

include calm in
/-- Alone, a rule fires where its value crosses the threshold outside the cooldown. -/
theorem fires_alone_iff {rule : Nat} {alertRule : AlertRule} (interval : alertRule.isInterval = true)
    (own : IntervalMemory) :
    rule ∈ (evaluation deps [(alertRule, rule)] telemetry own).2.fired <->
      Exists fun crossing => Exists fun memory => Exists fun progress =>
        serve telemetry.handle (measure rule alertRule) own {} =
          ((.ok (some crossing), memory), progress) ∧
        (serve telemetry.handle (inCooldown rule deps) memory progress).1.1 = .ok false := by
  rcases (ownTurn_measure calm rule alertRule).alone own {} with ⟨outcome, more, middle, measured⟩
  have evaluated : (evaluation deps [(alertRule, rule)] telemetry own).2.fired =
      (serve telemetry.handle (evaluateRule rule deps alertRule) own {}).2.fired := by
    rw [evaluation, evaluateRules, serve_bind]
    rcases serve telemetry.handle (evaluateRule rule deps alertRule) own {} with ⟨⟨result, _⟩, _⟩
    cases result <;> rfl
  rw [evaluated, evaluateRule, interval, Bool.not_true, if_neg Bool.false_ne_true,
    serve_bind_of_ok _ measured, measured]
  cases outcome with
  | none =>
      refine iff_of_false List.not_mem_nil ?_
      rintro ⟨crossing, memory, progress, ⟨⟩, _⟩
  | some crossing =>
      rcases (ownTurn_inCooldown deps rule alertRule).alone middle
        (({} : Progress).moved rule more 0) with ⟨cooling, further, still, cooled⟩
      rw [moved_moved] at cooled
      rw [serve_bind_of_ok _ cooled]
      cases cooling with
      | true =>
          refine iff_of_false List.not_mem_nil ?_
          rintro ⟨_, memory, progress, ⟨⟩, elapsed⟩
          rw [cooled] at elapsed
          cases elapsed
      | false =>
          refine iff_of_true ?_ ⟨crossing, middle, _, rfl, congrArg (fun served => served.1.1) cooled⟩
          exact dispatchRate_fires calm deps rule alertRule _ _ _

/-- The other rules have other indices, and do not read the drop counter where the rule
reads it. -/
theorem apart_of_split {rules : List AlertRule} {index : Nat} {alertRule : AlertRule}
    (isThere : rules[index]? = some alertRule) (drops : rules.countP AlertRule.readsDrops ≤ 1) :
    Exists fun before => Exists fun behind =>
      rules.zipIdx = before ++ (alertRule, index) :: behind ∧
        forall other, other ∈ before ∨ other ∈ behind -> other.2 ≠ index ∧
          (alertRule.readsDrops = true -> other.1.readsDrops = false) := by
  rcases List.getElem?_eq_some_iff.mp isThere with ⟨bound, isRule⟩
  have whole : rules = rules.take index ++ alertRule :: rules.drop (index + 1) := by
    rw [← isRule, List.getElem_cons_drop, List.take_append_drop]
  have length : (rules.take index).length = index := List.length_take_of_le bound.le
  rw [whole, List.countP_append, List.countP_cons] at drops
  have alone : forall other, other ∈ rules.take index ∨ other ∈ rules.drop (index + 1) ->
      alertRule.readsDrops = true -> other.readsDrops = false := by
    intro other member reads
    rw [if_pos reads] at drops
    refine Bool.eq_false_iff.mpr fun otherReads => ?_
    rcases member with earlier | later
    · have positive := List.countP_pos_iff.mpr ⟨other, earlier, otherReads⟩
      omega
    · have positive := List.countP_pos_iff.mpr ⟨other, later, otherReads⟩
      omega
  refine ⟨(rules.take index).zipIdx, (rules.drop (index + 1)).zipIdx (index + 1), ?_, ?_⟩
  · conv_lhs => rw [whole]
    rw [List.zipIdx_append, List.zipIdx_cons, length, Nat.zero_add]
  · rintro ⟨other, place⟩ (earlier | later)
    · have below := List.snd_lt_of_mem_zipIdx earlier
      rw [length] at below
      exact ⟨by change place ≠ index; omega, alone other (.inl (List.fst_mem_of_mem_zipIdx earlier))⟩
    · have above := List.le_snd_of_mem_zipIdx later
      exact ⟨by change place ≠ index; omega, alone other (.inr (List.fst_mem_of_mem_zipIdx later))⟩

end Evaluations

/-- Where at most one rule reads the drop counter and nothing throws, the rules are
independent. -/
theorem independent_of_calm (deps : IntervalDeps) (telemetry : Nat -> Telemetry) (first : IntervalMemory)
    (drops : deps.rules.countP AlertRule.readsDrops ≤ 1) (calm : forall number, (telemetry number).Calm) :
    Independent deps telemetry first := by
  intro number index alertRule isThere interval
  rcases apart_of_split isThere drops with ⟨before, behind, split, apart⟩
  have beside {memory own : IntervalMemory} (number : Nat) (near : Near index alertRule memory own) :=
    evaluation_near (calm number) deps split (fun other member => apart other (.inl member))
      (fun other member => apart other (.inr member)) near
  have near : forall number, Near index alertRule (memoryAfter deps deps.rules.zipIdx telemetry first number)
      (memoryAfter deps [(alertRule, index)] telemetry first number) := by
    intro number
    induction number with
    | zero => exact Near.refl ..
    | succ number inductionHypothesis => exact (beside number inductionHypothesis).1
  exact (beside number (near number)).2.trans (fires_alone_iff (calm number) deps interval _)

/-! ## Where they are not -/

/-- A rule on the drop counter, behind another rule. -/
def behindRule (alertRule : AlertRule) : IntervalDeps where
  channels := []
  dashboardUrl := none
  instanceId := []
  cooldownMs := 0
  rules := [alertRule, .droppedEntries (.finite 1)]

/-- Five entries are dropped; reads and sends for the first rule are answered as given. -/
def fiveDropped (page : Except Thrown (Page Value)) (sent : Dispatched) : Nat -> Telemetry :=
  fun _number _asked labelled =>
    match labelled with
    | ⟨_, .now⟩ => (0 : Int)
    | ⟨_, .get _query⟩ => page
    | ⟨_, .droppedCount⟩ => (5 : Nat)
    | ⟨0, .send _payload⟩ => sent
    | ⟨_ + 1, .send _payload⟩ => (⟨[], .ok []⟩ : Dispatched)

/-- Whatever is in front of it, the second rule is due in the first evaluation. -/
theorem due_behindRule (alertRule : AlertRule) (page : Except Thrown (Page Value)) (sent : Dispatched) :
    Due (behindRule alertRule) (fiveDropped page sent) { lastDroppedCount := 0 } 0 1
      (.droppedEntries (.finite 1)) :=
  ⟨⟨.finite 5, .finite 1⟩, { lastDroppedCount := 5 }, _, rfl, rfl⟩

/-- The rule in front silences the one behind it. -/
theorem not_independent_of_silenced {alertRule : AlertRule} {page : Except Thrown (Page Value)}
    {sent : Dispatched}
    (silenced : ¬ Fires (behindRule alertRule) (fiveDropped page sent) { lastDroppedCount := 0 } 0 1) :
    ¬ Independent (behindRule alertRule) (fiveDropped page sent) { lastDroppedCount := 0 } :=
  fun independent => silenced ((independent 0 1 _ rfl rfl).mpr (due_behindRule ..))

/-- Only the given answers throw. -/
theorem throws_fiveDropped {page : Except Thrown (Page Value)} {sent : Dispatched} {number asked : Nat}
    {labelled : Labelled} {circumstance : Circumstance}
    (throws : Throws labelled (fiveDropped page sent number asked labelled) circumstance) :
    (circumstance = .measurementThrows ∧ Exists fun error => page = .error error) ∨
      (circumstance = .dispatchThrows ∧ sent.results ≠ .ok []) := by
  generalize answered : fiveDropped page sent number asked labelled = answer at throws
  cases throws with
  | measurement => exact .inl ⟨rfl, _, answered⟩
  | @channel rule payload warned error =>
      cases rule with
      | zero =>
          rw [show sent = ⟨warned, .error error⟩ from answered]
          exact .inr ⟨rfl, fun equal => by cases equal⟩
      | succ rule => cases (show (⟨[], .ok []⟩ : Dispatched) = ⟨warned, .error error⟩ from answered)
  | @reason rule payload warned results reason thrown member unreadable =>
      cases rule with
      | zero =>
          rw [show sent = ⟨warned, .ok results⟩ from answered]
          refine .inr ⟨rfl, fun equal => ?_⟩
          cases equal
          exact List.not_mem_nil member
      | succ rule =>
          cases (show (⟨[], .ok []⟩ : Dispatched) = ⟨warned, .ok results⟩ from answered)
          exact (List.not_mem_nil member).elim

def emptyPage : Page Value := { data := [], nextCursor := none }

/-- A rule that every reading of its window crosses. -/
def alwaysRule : AlertRule := .exceptionRate DEFAULT_EVERY_WINDOW (.finite 0)

/-- The rule in front takes the growth of the counter. -/
theorem silenced_by_dropRule :
    ¬ Fires (behindRule (.droppedEntries (.finite 1))) (fiveDropped (.ok emptyPage) ⟨[], .ok []⟩)
      { lastDroppedCount := 0 } 0 1 := by
  unfold Fires
  decide +kernel

/-- The read of the rule in front rejects. -/
theorem silenced_by_measurement :
    ¬ Fires (behindRule alwaysRule) (fiveDropped (.error .undefined) ⟨[], .ok []⟩)
      { lastDroppedCount := 0 } 0 1 := by
  unfold Fires
  decide +kernel

/-- A channel throws on the payload of the rule in front. -/
theorem silenced_by_dispatch :
    ¬ Fires (behindRule alwaysRule) (fiveDropped (.ok emptyPage) ⟨[], .error .undefined⟩)
      { lastDroppedCount := 0 } 0 1 := by
  unfold Fires
  decide +kernel

/-- A read that fails for the first rule leaves the second one silent, although the counter
has grown by five. -/
theorem failedRead_not_independent :
    ¬ Independent (behindRule alwaysRule) (fiveDropped (.error .undefined) ⟨[], .ok []⟩)
      { lastDroppedCount := 0 } :=
  not_independent_of_silenced silenced_by_measurement

/-- Rules are independent in every run in which only some circumstances occur exactly where
these are neither a second rule on the drop counter, nor a throwing measurement, nor a
throwing dispatch. -/
theorem independent_iff_uneventful (circumstances : Circumstance -> Prop) :
    (forall (deps : IntervalDeps) (telemetry : Nat -> Telemetry) (first : IntervalMemory),
      OccursOnly deps circumstances telemetry -> Independent deps telemetry first) <->
      ¬ circumstances .severalDropRules ∧ ¬ circumstances .measurementThrows ∧
        ¬ circumstances .dispatchThrows := by
  constructor
  · intro independent
    refine ⟨fun several => ?_, fun throwing => ?_, fun throwing => ?_⟩
    · refine not_independent_of_silenced silenced_by_dropRule (independent _ _ _ ⟨?_, ?_⟩)
      · exact fun uneventful => (uneventful several).elim
      · intro number asked labelled circumstance throws
        rcases throws_fiveDropped throws with ⟨_, error, failed⟩ | ⟨_, failed⟩
        · cases failed
        · exact (failed rfl).elim
    · refine not_independent_of_silenced silenced_by_measurement (independent _ _ _ ⟨?_, ?_⟩)
      · exact fun _ => by decide
      · intro number asked labelled circumstance throws
        rcases throws_fiveDropped throws with ⟨isMeasurement, _⟩ | ⟨_, failed⟩
        · rw [isMeasurement]
          exact throwing
        · exact (failed rfl).elim
    · refine not_independent_of_silenced silenced_by_dispatch (independent _ _ _ ⟨?_, ?_⟩)
      · exact fun _ => by decide
      · intro number asked labelled circumstance throws
        rcases throws_fiveDropped throws with ⟨_, error, failed⟩ | ⟨isDispatch, _⟩
        · cases failed
        · rw [isDispatch]
          exact throwing
  · rintro ⟨several, measurement, dispatch⟩ deps telemetry first only
    refine independent_of_calm deps telemetry first (only.rules several) ?_
    intro number asked labelled circumstance throws
    have occurs := only.answers number asked labelled circumstance throws
    cases circumstance with
    | severalDropRules => exact throws.ne_severalDropRules rfl
    | measurementThrows => exact measurement occurs
    | dispatchThrows => exact dispatch occurs

end Alerts
end Telescope
