import Telescope.Nest.RequestCapture

namespace Telescope
namespace Nest
namespace Capture

open Alerts (Thrown)

universe u

/-!
# What one request owes to the others

Each gate is first stated on its own: by the patterns as they are configured, each tried
from the start of the content type, whatever has been tested before. The listener decides
by these gates as long as no expression stands behind the start when it is tested, and it
throws only where the host's predicate does.
-/

variable {ρ : Type u} (engine : Engine ρ) (options : Options)

/-! ## The gates on their own -/

/-- The pattern matches a content type, looked at from its start. -/
def Pattern.Matches (contentType : Units) (pattern : Pattern ρ) : Prop :=
  match pattern with
  | .literal start => (engine.toLowerCase start).isPrefixOf (engine.toLowerCase contentType) = true
  | .expression regExp => (engine.exec regExp.source contentType 0).isSome = true

def ContentTypeGate (patterns : List (Pattern ρ)) (headers : Value) : Prop :=
  Exists fun contentType => headerValue headers (units "content-type") = some contentType ∧
    Exists fun pattern => pattern ∈ patterns ∧ Pattern.Matches engine contentType pattern

def SizeGate (finish : Finish) : Prop :=
  Exists fun limit => Exists fun bytes => options.maxBodyBytes = some limit ∧
    estimateBodyBytes (readPayload finish.req) (contentLengthOf engine finish.headers) = some bytes ∧
      limit.lt bytes = true

def PredicateGate (finish : Finish) : Prop :=
  Exists fun predicate => Exists fun answer => finish.hooks.skipBody = some predicate ∧
    predicate (toTelescopeHttpRequest finish.req) = .ok answer ∧ isFalsy answer = false

/-- Some gate matches the request. -/
def SomeGate (patterns : List (Pattern ρ)) (finish : Finish) : Prop :=
  ContentTypeGate engine patterns finish.headers ∨ SizeGate engine options finish ∨ PredicateGate finish

/-- The payload is the body where no gate matches, and the marker of a gate where one does. -/
structure Decided (patterns : List (Pattern ρ)) (finish : Finish) (payload : Value) : Prop where
  body : ¬ SomeGate engine options patterns finish -> payload = readPayload finish.req
  marker : SomeGate engine options patterns finish ->
    Exists fun reason => payload = .string (units "[Skipped: " ++ reason)

/-- The record of a response that has finished. -/
def Recorded (patterns : List (Pattern ρ)) (finished : Pending × Finish) (record : RequestRecord) : Prop :=
  Exists fun payload => record = finished.1.record finished.2 payload ∧
    Decided engine options patterns finished.2 payload

/-- Nothing is thrown into the host, and there is one record of each response that has
finished, decided by that request alone. -/
structure Contained (patterns : List (Pattern ρ)) (state : Middleware ρ) : Prop where
  escaped : state.escaped = []
  records : List.Forall₂ (Recorded engine options patterns) state.finished state.records

/-! ## What keeps the requests apart -/

/-- A test of the pattern begins at the start of the text. -/
def Pattern.AtStart (pattern : Pattern ρ) : Prop :=
  match pattern with
  | .literal _start => True
  | .expression regExp => regExp.keepsIndex = true -> regExp.lastIndex = 0

/-- The patterns are tested from the start, and the predicate is not asked or does not throw. -/
def Independent (patterns : List (Pattern ρ)) (state : Middleware ρ) : Middleware.Event -> Prop
  | .use _req _finishable => True
  | .finish _id finish =>
      (headerValue finish.headers (units "content-type") ≠ none ->
        forall pattern, pattern ∈ state.patterns -> Pattern.AtStart pattern) ∧
      forall predicate thrown, finish.hooks.skipBody = some predicate ->
        predicate (toTelescopeHttpRequest finish.req) = .error thrown ->
          ContentTypeGate engine patterns finish.headers ∨ SizeGate engine options finish

/-! ## Testing patterns -/

variable {patterns configured : List (Pattern ρ)}

section Patterns

variable {engine}

/-- The pattern as it is configured. -/
def Pattern.reset (pattern : Pattern ρ) : Pattern ρ :=
  match pattern with
  | .literal start => .literal start
  | .expression regExp => .expression { regExp with lastIndex := 0 }

variable {contentType : Units}

theorem Pattern.matches_reset (pattern : Pattern ρ) :
    Pattern.Matches engine contentType pattern.reset <-> Pattern.Matches engine contentType pattern := by
  cases pattern with
  | literal start => exact Iff.rfl
  | expression regExp => exact Iff.rfl

theorem RegExp.reset_test (text : Units) (regExp : RegExp ρ) :
    ({ (regExp.test engine text).2 with lastIndex := 0 } : RegExp ρ) = { regExp with lastIndex := 0 } := by
  rw [RegExp.test]
  split
  · split
    · rfl
    · split
      · rfl
      · rfl
  · rfl

/-- A test changes nothing but the index of an expression. -/
theorem Pattern.reset_test (contentType : Units) (pattern : Pattern ρ) :
    (pattern.test engine contentType).2.reset = pattern.reset := by
  cases pattern with
  | literal start => rfl
  | expression regExp => exact congrArg Pattern.expression (RegExp.reset_test contentType regExp)

theorem Pattern.test_of_atStart {pattern : Pattern ρ} (atStart : pattern.AtStart) :
    (pattern.test engine contentType).1 = true <-> Pattern.Matches engine contentType pattern := by
  cases pattern with
  | literal start => exact Iff.rfl
  | expression regExp =>
      change (regExp.test engine contentType).1 = true <-> _
      rw [RegExp.test, Pattern.Matches]
      split
      · rename_i keeps
        rw [atStart keeps, if_neg (Nat.not_lt_zero _)]
        cases engine.exec regExp.source contentType 0 with
        | none => exact Iff.rfl
        | some ending => exact Iff.rfl
      · exact Iff.rfl

theorem map_reset_matchesContentType (contentType : Units) (patterns : List (Pattern ρ)) :
    (matchesContentType engine contentType patterns).2.map Pattern.reset = patterns.map Pattern.reset := by
  induction patterns with
  | nil => rfl
  | cons pattern patterns inductionHypothesis =>
      rw [matchesContentType]
      dsimp only
      split
      · rw [List.map_cons, List.map_cons, Pattern.reset_test]
      · rw [List.map_cons, List.map_cons, Pattern.reset_test, inductionHypothesis]

theorem matchesContentType_iff (atStart : forall pattern, pattern ∈ patterns -> pattern.AtStart) :
    (matchesContentType engine contentType patterns).1 = true <->
      Exists fun pattern => pattern ∈ patterns ∧ Pattern.Matches engine contentType pattern := by
  induction patterns with
  | nil => exact ⟨fun impossible => (by cases impossible), fun found => found.elim fun _ both => (by cases both.1)⟩
  | cons pattern patterns inductionHypothesis =>
      rw [List.forall_mem_cons] at atStart
      have first := @Pattern.test_of_atStart ρ engine contentType pattern atStart.1
      have rest := inductionHypothesis atStart.2
      rw [matchesContentType]
      dsimp only
      split
      · rename_i found
        exact ⟨fun _ => ⟨pattern, List.mem_cons_self .., first.mp found⟩, fun _ => rfl⟩
      · rename_i missed
        rw [rest]
        constructor
        · rintro ⟨other, member, isMatch⟩
          exact ⟨other, List.mem_cons_of_mem _ member, isMatch⟩
        · rintro ⟨other, member, isMatch⟩
          rcases List.mem_cons.mp member with rfl | later
          · exact absurd (first.mpr isMatch) missed
          · exact ⟨other, later, isMatch⟩

theorem exists_matches_congr {left right : List (Pattern ρ)} (same : left.map Pattern.reset = right.map Pattern.reset)
    (found : Exists fun pattern => pattern ∈ left ∧ Pattern.Matches engine contentType pattern) :
    Exists fun pattern => pattern ∈ right ∧ Pattern.Matches engine contentType pattern := by
  rcases found with ⟨pattern, member, isMatch⟩
  have isReset : pattern.reset ∈ right.map Pattern.reset := same ▸ List.mem_map_of_mem member
  rcases List.mem_map.mp isReset with ⟨other, inRight, sameReset⟩
  refine ⟨other, inRight, ?_⟩
  rw [← Pattern.matches_reset, sameReset, Pattern.matches_reset]
  exact isMatch

theorem contentTypeGate_iff {headers : Value} (same : patterns.map Pattern.reset = configured.map Pattern.reset)
    (atStart : headerValue headers (units "content-type") ≠ none ->
      forall pattern, pattern ∈ patterns -> pattern.AtStart) :
    (contentTypeGate engine patterns (headerValue headers (units "content-type"))).1 = true <->
      ContentTypeGate engine configured headers := by
  rw [contentTypeGate.eq_def, ContentTypeGate]
  cases isType : headerValue headers (units "content-type") with
  | none => exact ⟨fun impossible => (by cases impossible), fun gate => gate.elim fun _ both => (by cases both.1)⟩
  | some contentType =>
      have started := atStart (by rw [isType]; exact Option.some_ne_none contentType)
      dsimp only
      rw [matchesContentType_iff started]
      constructor
      · exact fun found => ⟨contentType, rfl, exists_matches_congr same found⟩
      · rintro ⟨other, isOther, found⟩
        cases isOther
        exact exists_matches_congr same.symm found

theorem map_reset_contentTypeGate (patterns : List (Pattern ρ)) (contentType : Option Units) :
    (contentTypeGate engine patterns contentType).2.map Pattern.reset = patterns.map Pattern.reset := by
  cases contentType with
  | none => rfl
  | some contentType => exact map_reset_matchesContentType contentType patterns

end Patterns

/-! ## One request -/

section Deciding

variable {engine} {options}

variable {finish : Finish}

theorem exists_oversize_iff :
    Exists (fun sizes => oversize engine options.maxBodyBytes (readPayload finish.req) finish.headers = some sizes) <->
      SizeGate engine options finish := by
  simp only [oversize, Option.bind_eq_some_iff, SizeGate]
  constructor
  · rintro ⟨sizes, limit, isLimit, bytes, isBytes, found⟩
    split at found
    · rename_i exceeds
      exact ⟨limit, bytes, isLimit, isBytes, exceeds⟩
    · cases found
  · rintro ⟨limit, bytes, isLimit, isBytes, exceeds⟩
    exact ⟨(bytes, limit), limit, isLimit, bytes, isBytes, if_pos exceeds⟩

theorem predicateGate_eq_ok {skips : Bool} (asked : predicateGate finish.req finish.hooks.skipBody = .ok skips) :
    skips = true <-> PredicateGate finish := by
  rw [predicateGate.eq_def] at asked
  constructor
  · rintro rfl
    split at asked
    · cases asked
    · rename_i predicate isPredicate
      cases isAnswer : predicate (toTelescopeHttpRequest finish.req) with
      | error thrown =>
          rw [isAnswer] at asked
          cases asked
      | ok answer =>
          rw [isAnswer] at asked
          refine ⟨predicate, answer, isPredicate, isAnswer, ?_⟩
          exact (Bool.not_eq_true' _).mp (Except.ok.inj asked)
  · rintro ⟨predicate, answer, isPredicate, isAnswer, truthy⟩
    rw [isPredicate] at asked
    dsimp only at asked
    rw [isAnswer] at asked
    have isSkips : (!isFalsy answer) = skips := Except.ok.inj asked
    rw [← isSkips, truthy]
    rfl

theorem predicateGate_eq_error {thrown : Thrown}
    (asked : predicateGate finish.req finish.hooks.skipBody = .error thrown) :
    Exists fun predicate => finish.hooks.skipBody = some predicate ∧
      predicate (toTelescopeHttpRequest finish.req) = .error thrown := by
  rw [predicateGate.eq_def] at asked
  split at asked
  · cases asked
  · rename_i predicate isPredicate
    refine ⟨predicate, isPredicate, ?_⟩
    cases isAnswer : predicate (toTelescopeHttpRequest finish.req) with
    | error other =>
        rw [isAnswer] at asked
        exact congrArg Except.error (Except.error.inj asked)
    | ok answer =>
        rw [isAnswer] at asked
        cases asked

/-- A decision that a gate matches ends in its marker. -/
theorem decided_marker (reason : Units) (gate : SomeGate engine options configured finish) :
    Decided engine options configured finish (.string (units "[Skipped: " ++ reason)) :=
  ⟨fun noGate => absurd gate noGate, fun _gate => ⟨reason, rfl⟩⟩

/-- The patterns as the earlier requests leave them decide as the configured ones do. -/
theorem gateRequestPayload_spec (same : patterns.map Pattern.reset = configured.map Pattern.reset)
    (atStart : headerValue finish.headers (units "content-type") ≠ none ->
      forall pattern, pattern ∈ patterns -> pattern.AtStart)
    (answers : forall predicate thrown, finish.hooks.skipBody = some predicate ->
      predicate (toTelescopeHttpRequest finish.req) = .error thrown ->
        ContentTypeGate engine configured finish.headers ∨ SizeGate engine options finish) :
    Exists fun payload =>
      (gateRequestPayload engine options.maxBodyBytes patterns finish.req finish.headers
          finish.hooks.skipBody).1 = .ok payload ∧
        Decided engine options configured finish payload := by
  have byType := @contentTypeGate_iff ρ engine patterns configured finish.headers same atStart
  rw [gateRequestPayload]
  split
  · rename_i found
    refine ⟨_, rfl, ?_⟩
    rw [contentTypeMarker, List.append_assoc]
    exact decided_marker _ (.inl (byType.mp found))
  · rename_i missed
    have noType : ¬ ContentTypeGate engine configured finish.headers := fun gate => missed (byType.mpr gate)
    split
    · rename_i bytes limit isOversize
      refine ⟨_, rfl, ?_⟩
      rw [sizeMarker, List.append_assoc, List.append_assoc, List.append_assoc]
      exact decided_marker _ (.inr (.inl (exists_oversize_iff.mp ⟨_, isOversize⟩)))
    · rename_i isNone
      have noSize : ¬ SizeGate engine options finish := by
        intro gate
        rcases exists_oversize_iff.mpr gate with ⟨sizes, isSome⟩
        cases isNone.symm.trans isSome
      cases asked : predicateGate finish.req finish.hooks.skipBody with
      | error thrown =>
          rcases predicateGate_eq_error asked with ⟨predicate, isPredicate, throws⟩
          rcases answers predicate thrown isPredicate throws with byOther | bySize
          · exact absurd byOther noType
          · exact absurd bySize noSize
      | ok skips =>
          refine ⟨_, rfl, ?_⟩
          have isGate := predicateGate_eq_ok asked
          cases skips with
          | true => exact decided_marker (units "skipBody predicate]") (.inr (.inr (isGate.mp rfl)))
          | false =>
              have noGate : ¬ SomeGate engine options configured finish := by
                rintro (byOther | bySize | byPredicate)
                · exact noType byOther
                · exact noSize bySize
                · exact Bool.false_ne_true (isGate.mpr byPredicate)
              exact ⟨fun _noGate => rfl, fun gate => absurd gate noGate⟩

theorem map_reset_gateRequestPayload (patterns : List (Pattern ρ)) (finish : Finish) :
    (gateRequestPayload engine options.maxBodyBytes patterns finish.req finish.headers
      finish.hooks.skipBody).2.map Pattern.reset = patterns.map Pattern.reset := by
  rw [gateRequestPayload]
  split
  · exact map_reset_contentTypeGate patterns _
  · split
    · exact map_reset_contentTypeGate patterns _
    · exact map_reset_contentTypeGate patterns _

end Deciding

/-! ## Runs -/

/-- What a run with independent requests keeps. -/
structure Kept (configured : List (Pattern ρ)) (state : Middleware ρ) : Prop where
  contained : Contained engine options configured state
  same : state.patterns.map Pattern.reset = configured.map Pattern.reset

variable {engine} {options}

theorem kept_step (state : Middleware ρ) (event : Middleware.Event) (next : Middleware ρ)
    (kept : Kept engine options configured state) (independent : Independent engine options configured state event)
    (stepped : state.step engine options event = some next) : Kept engine options configured next := by
  cases event with
  | use req finishable =>
      cases stepped
      rw [Middleware.use]
      split
      · exact kept
      · split
        · exact ⟨⟨kept.contained.escaped, kept.contained.records⟩, kept.same⟩
        · exact kept
  | finish id finish =>
      rcases Option.map_eq_some_iff.mp stepped with ⟨pending, _isPending, ended⟩
      rcases gateRequestPayload_spec kept.same independent.1 independent.2 with ⟨payload, isPayload, decided⟩
      dsimp only at ended
      rw [isPayload] at ended
      cases ended
      refine ⟨⟨kept.contained.escaped, ?_⟩, (map_reset_gateRequestPayload _ finish).trans kept.same⟩
      exact List.rel_append kept.contained.records (.cons ⟨payload, rfl, decided⟩ .nil)

/-- In a run of any requests that leaves the expressions at their start, and in which the
predicate does not throw, nothing is thrown into the host, and each response that finishes
is recorded once, as its own request decides. -/
theorem contained_of_independent (engine : Engine ρ) (options : Options) (patterns : List (Pattern ρ))
    (events : List Middleware.Event) (final : Middleware ρ)
    (ran : Transition.runFrom (Middleware.step engine options) { patterns := patterns } events = some final)
    (independent : Transition.Along (Middleware.step engine options) (Independent engine options patterns)
      { patterns := patterns } events) :
    Contained engine options patterns final :=
  (Transition.invariant_along kept_step ⟨⟨rfl, .nil⟩, rfl⟩ independent ran).contained

/-! ## Two runs -/

/-- An engine whose expressions are plain texts. -/
def plainEngine : Engine Units where
  exec source text start := ((List.range (text.length + 1)).find? fun index =>
    decide (start ≤ index) && source.isPrefixOf (text.drop index)).map (· + source.length)
  toLowerCase := Units.toLowerAscii
  toNumber _text := .nan

/-- `/image/g`. -/
def imagePattern : Pattern Units := .expression ⟨units "image", true, 0⟩

/-- The first of two requests moves the expression, so that the second is not matched. -/
example :
    let first := matchesContentType plainEngine (units "image/png") [imagePattern]
    (first.1, (matchesContentType plainEngine (units "image/png") first.2).1) = (true, false) := by
  decide +kernel

def imageOptions : Options where
  pathPrefix := units "/telescope"
  maxBodyBytes := none

def imageHeaders : Value := .object [(units "content-type", .string (units "image/png"))]

def imageRequest : Value := .object [(units "headers", imageHeaders), (units "body", .string (units "pixels"))]

/-- One request comes in and is finished. -/
def oneRequest (skipBody : Option (Value -> Except Thrown Value)) : List Middleware.Event :=
  [.use imageRequest true, .finish 0 ⟨imageRequest, imageHeaders, ⟨skipBody, none⟩, .null, 0⟩]

theorem contained_one_request :
    Exists fun final =>
      Transition.runFrom (Middleware.step plainEngine imageOptions) { patterns := [imagePattern] }
          (oneRequest none) = some final ∧
        Contained plainEngine imageOptions [imagePattern] final := by
  refine ⟨_, rfl, contained_of_independent plainEngine imageOptions [imagePattern] (oneRequest none) _ rfl ?_⟩
  refine ⟨trivial, fun next stepped => ⟨⟨fun _typed pattern member => ?_, ?_⟩, fun _next _stepped => trivial⟩⟩
  · cases stepped
    rw [List.mem_singleton.mp member]
    exact fun _keeps => rfl
  · exact fun predicate thrown isPredicate => (by cases isPredicate)

/-- A predicate of the host that throws. -/
theorem throwing_not_contained :
    ¬ forall (engine : Engine Units) (options : Options) (patterns : List (Pattern Units))
        (events : List Middleware.Event) (final : Middleware Units),
      Transition.runFrom (Middleware.step engine options) { patterns := patterns } events = some final ->
        Contained engine options patterns final := by
  intro all
  have contained := all plainEngine imageOptions [] (oneRequest (some fun _request => .error .undefined)) _ rfl
  exact List.cons_ne_nil _ _ contained.escaped

end Capture
end Nest
end Telescope
