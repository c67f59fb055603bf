import Telescope.Alerts.Alerter

namespace Telescope
namespace Alerts

open Throwing

/-!
# What the handlers can read

Every failure of an evaluation ends in a handler that writes its message to the log.
A handler throws where it cannot read one.  The last of them stands around the whole
evaluation, so that an evaluation settles without a throw as long as the values that
come to this one have a message.
-/

/-- A handler inside an evaluation reads the value, or throws one that the last handler
can read. -/
def Thrown.Handled (error : Thrown) : Prop :=
  forall thrown, error.message = .error thrown -> thrown.Readable

/-- So for the handler of a channel's rejection. -/
def Thrown.Described (reason : Thrown) : Prop :=
  forall thrown, reason.describe = .error thrown -> thrown.Readable

/-- A reply whose failures are read by the handlers they come to.  Store reads, a
synchronous throw of a channel and one of the diagnosis hook come to the last
handler; a rejected diagnosis comes to none. -/
def Harmless : (request : Request) -> Reply request -> Prop
  | .now, _now => True
  | .markFamilySeen _familyHash _nowMs _windowMs, answer =>
      forall error, answer = .error error -> error.Handled
  | .get _query, answer => forall error, answer = .error error -> error.Readable
  | .batch _batchId, answer => forall error, answer = .error error -> error.Readable
  | .geoLookup _clientIp, answer => forall error, answer = .error error -> error.Handled
  | .diagnosisFor _familyHash, answer => forall error, answer = .error error -> error.Readable
  | .send _payload, sent =>
      (forall error, sent.results = .error error -> error.Readable) ∧
        forall results, sent.results = .ok results ->
          forall reason, .error reason ∈ results -> reason.Described

/-! ## What a reply lets escape -/

/-- Which values escape an evaluation whose requests are answered as allowed: those of
failed store reads, of synchronous throws, and what a handler throws that cannot read
the value it is given. -/
structure Contains (allowed : (request : Request) -> Reply request -> Prop)
    (escapes : Thrown -> Prop) : Prop where
  marks : forall {familyHash nowMs windowMs error},
    allowed (.markFamilySeen familyHash nowMs windowMs) (.error error) ->
      forall thrown, error.message = .error thrown -> escapes thrown
  entries : forall {query error}, allowed (.get query) (.error error) -> escapes error
  batch : forall {batchId error}, allowed (.batch batchId) (.error error) -> escapes error
  geo : forall {clientIp error}, allowed (.geoLookup clientIp) (.error error) ->
    forall thrown, error.message = .error thrown -> escapes thrown
  diagnosis : forall {familyHash error}, allowed (.diagnosisFor familyHash) (.error error) ->
    escapes error
  channels : forall {payload sent}, allowed (.send payload) sent ->
    (forall error, sent.results = .error error -> escapes error) ∧
      forall results, sent.results = .ok results -> forall reason, .error reason ∈ results ->
        forall thrown, reason.describe = .error thrown -> escapes thrown

/-- Harmless replies let values escape that the last handler reads. -/
theorem contains_harmless : Contains Harmless Thrown.Readable where
  marks := fun harmless => harmless _ rfl
  entries := fun harmless => harmless _ rfl
  batch := fun harmless => harmless _ rfl
  geo := fun harmless => harmless _ rfl
  diagnosis := fun harmless => harmless _ rfl
  channels := fun harmless => harmless

section Contained

variable {allowed : (request : Request) -> Reply request -> Prop} {escapes : Thrown -> Prop}

theorem settles_warn (line : Units) : ThrowsOnly allowed escapes (warn line) := throwsOnly_update _

variable (contains : Contains allowed escapes) (deps : TelescopeAlerterDeps)

include contains

theorem settles_observeFamily (familyHash : Text) (nowMs : Int) (windowMs : Nat) :
    ThrowsOnly allowed escapes (observeFamily deps familyHash nowMs windowMs) := by
  refine throwsOnly_bind ?_ fun shared => ?_
  · split
    · refine throwsOnly_ask fun answer isAllowed => ?_
      cases answer with
      | ok isNew => exact throwsOnly_pure _
      | error error =>
          refine throwsOnly_bind (throwsOnly_computed (contains.marks isAllowed)) fun message => ?_
          exact throwsOnly_bind (settles_warn _) fun _ => throwsOnly_pure _
    · exact throwsOnly_pure _
  · cases shared with
    | some isNew => exact throwsOnly_pure _
    | none =>
        refine throwsOnly_bind throwsOnly_current fun memory => ?_
        exact throwsOnly_bind (throwsOnly_update _) fun _ => throwsOnly_pure _

theorem settles_collectPages (query : EntryQuery) (scanCap pages : Nat) (cursor : Option Text)
    (entries : List (Entry Value)) :
    ThrowsOnly allowed escapes (collectPages query scanCap pages cursor entries) := by
  induction pages generalizing cursor entries with
  | zero => exact throwsOnly_pure _
  | succ pages inductionHypothesis =>
      refine throwsOnly_ask fun answer isAllowed => ?_
      cases answer with
      | error error => exact throwsOnly_throw (contains.entries isAllowed)
      | ok page =>
          dsimp only
          split
          · exact throwsOnly_pure _
          · split
            · exact throwsOnly_pure _
            · split
              · exact throwsOnly_pure _
              · exact inductionHypothesis _ _

theorem settles_countFamilyInWindow (type : Text) (familyHash : Option Text) (windowMs : Nat) :
    ThrowsOnly allowed escapes (countFamilyInWindow type familyHash windowMs) := by
  cases familyHash with
  | none => exact throwsOnly_pure _
  | some familyHash =>
      refine throwsOnly_ask fun now _allowed => ?_
      exact throwsOnly_bind (settles_collectPages contains ..) fun entries => throwsOnly_pure _

theorem settles_buildServerContext (entry : Entry Value) (occurrences : Nat) :
    ThrowsOnly allowed escapes (buildServerContext entry occurrences) := by
  refine throwsOnly_bind (throwsOnly_ask fun answer isAllowed => ?_) fun request => throwsOnly_pure _
  cases answer with
  | error error => exact throwsOnly_throw (contains.batch isAllowed)
  | ok batch => exact throwsOnly_pure _

theorem settles_resolveGeo (clientIp : Option Units) :
    ThrowsOnly allowed escapes (resolveGeo deps clientIp) := by
  cases clientIp with
  | none => exact throwsOnly_pure _
  | some clientIp =>
      rw [resolveGeo]
      split
      · refine throwsOnly_ask fun answer isAllowed => ?_
        cases answer with
        | ok location => exact throwsOnly_pure _
        | error error =>
            refine throwsOnly_bind (throwsOnly_computed (contains.geo isAllowed)) fun message => ?_
            exact throwsOnly_bind (settles_warn _) fun _ => throwsOnly_pure _
      · exact throwsOnly_pure _

theorem settles_resolveDiagnosis (familyHash : Option Text) :
    ThrowsOnly allowed escapes (resolveDiagnosis deps familyHash) := by
  cases familyHash with
  | none => exact throwsOnly_pure _
  | some familyHash =>
      rw [resolveDiagnosis]
      split
      · refine throwsOnly_ask fun answer isAllowed => ?_
        cases answer with
        | error error => exact throwsOnly_throw (contains.diagnosis isAllowed)
        | ok settled => cases settled <;> exact throwsOnly_pure _
      · exact throwsOnly_pure _

theorem settles_buildExceptionPayload (rule : ExceptionRule) (entry : Entry Value) (windowMs : Nat)
    (nowMs : Int) : ThrowsOnly allowed escapes (buildExceptionPayload deps rule entry windowMs nowMs) := by
  refine throwsOnly_bind (settles_countFamilyInWindow contains ..) fun occurrences => ?_
  refine throwsOnly_bind ?_ fun context => ?_
  · split
    · exact throwsOnly_pure _
    · exact settles_buildServerContext contains ..
  · refine throwsOnly_bind (settles_resolveGeo contains deps _) fun geo => ?_
    exact throwsOnly_bind (settles_resolveDiagnosis contains deps _) fun diagnosis => throwsOnly_pure _

omit contains in
theorem settles_warnChannelFailure (channel : AlertChannel) {reason : Thrown}
    (described : forall thrown, reason.describe = .error thrown -> escapes thrown) :
    ThrowsOnly allowed escapes (warnChannelFailure channel reason) := by
  refine throwsOnly_bind throwsOnly_current fun memory => ?_
  split
  · exact throwsOnly_pure _
  · refine throwsOnly_bind (throwsOnly_update _) fun _ => ?_
    exact throwsOnly_bind (throwsOnly_computed described) fun message => settles_warn _

omit contains in
theorem settles_reportFailures (channels : List AlertChannel) {results : List (Except Thrown Unit)}
    (described : forall reason, .error reason ∈ results ->
      forall thrown, reason.describe = .error thrown -> escapes thrown) :
    ThrowsOnly allowed escapes (reportFailures channels results) := by
  induction channels generalizing results with
  | nil => cases results <;> exact throwsOnly_pure _
  | cons channel channels inductionHypothesis =>
      cases results with
      | nil => exact throwsOnly_pure _
      | cons result results =>
          refine throwsOnly_bind ?_ fun _ =>
            inductionHypothesis fun reason member => described reason (List.mem_cons_of_mem _ member)
          cases result with
          | ok sent => exact throwsOnly_pure _
          | error reason =>
              exact settles_warnChannelFailure channel (described reason (List.mem_cons_self ..))

theorem settles_dispatch (payload : AlertPayload) : ThrowsOnly allowed escapes (dispatch deps payload) := by
  refine throwsOnly_ask fun sent isAllowed => ?_
  refine throwsOnly_bind (throwsOnly_update _) fun _ => ?_
  cases outcome : sent.results with
  | error error => exact throwsOnly_throw ((contains.channels isAllowed).1 error outcome)
  | ok results => exact settles_reportFailures _ ((contains.channels isAllowed).2 results outcome)

omit contains in
theorem settles_markFamilyFired (ruleType : RuleType) (familyHash : Text) (nowMs : Int) :
    ThrowsOnly allowed escapes (markFamilyFired deps ruleType familyHash nowMs) := throwsOnly_update _

theorem settles_evaluateNewException (window : Window) (entry : Entry Value) (familyHash : Text)
    (nowMs : Int) : ThrowsOnly allowed escapes (evaluateNewException deps window entry familyHash nowMs) := by
  refine throwsOnly_bind (settles_observeFamily contains deps ..) fun isNew => ?_
  refine throwsOnly_bind throwsOnly_current fun memory => ?_
  split
  · refine throwsOnly_bind (settles_markFamilyFired ..) fun _ => ?_
    exact throwsOnly_bind (settles_buildExceptionPayload contains deps ..) fun payload =>
      settles_dispatch contains deps _
  · exact throwsOnly_pure _

theorem settles_evaluateEveryException (window : Option Window) (entry : Entry Value)
    (familyHash : Text) (nowMs : Int) :
    ThrowsOnly allowed escapes (evaluateEveryException deps window entry familyHash nowMs) := by
  refine throwsOnly_bind throwsOnly_current fun memory => ?_
  split
  · exact throwsOnly_pure _
  · refine throwsOnly_bind (settles_markFamilyFired ..) fun _ => ?_
    exact throwsOnly_bind (settles_buildExceptionPayload contains deps ..) fun payload =>
      settles_dispatch contains deps _

theorem settles_evaluateEntries (nowMs : Int) (entries : List (Entry Value)) (observed : List Text) :
    ThrowsOnly allowed escapes (evaluateEntries deps nowMs entries observed) := by
  induction entries generalizing observed with
  | nil => exact throwsOnly_pure _
  | cons entry entries inductionHypothesis =>
      rw [evaluateEntries]
      split
      · exact inductionHypothesis observed
      · refine throwsOnly_bind ?_ fun nowObserved => throwsOnly_bind ?_ fun _ =>
          inductionHypothesis nowObserved
        · split
          · exact throwsOnly_pure _
          · split
            · exact throwsOnly_pure _
            · exact throwsOnly_bind (settles_evaluateNewException contains deps ..) fun _ => throwsOnly_pure _
        · split
          · exact throwsOnly_pure _
          · exact settles_evaluateEveryException contains deps ..

end Contained

/-- As long as the replies are harmless, an evaluation throws nothing. -/
theorem evaluateExceptions_settles (deps : TelescopeAlerterDeps) (exceptions : List (Entry Value))
    (nowMs : Int) : ThrowsOnly Harmless (fun _ => False) (evaluateExceptions deps exceptions nowMs) := by
  refine throwsOnly_tryCatch (settles_evaluateEntries contains_harmless deps ..) fun error readable => ?_
  rcases readable with ⟨text, isText⟩
  refine throwsOnly_bind (throwsOnly_computed fun thrown failed => ?_) fun message => throwsOnly_update _
  rw [isText] at failed
  cases failed

end Alerts
end Telescope
