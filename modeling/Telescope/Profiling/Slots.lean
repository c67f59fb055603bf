import Telescope.Profiling.ProfilerService

namespace Telescope
namespace Profiling

/-!
# The slots of the profiler

As long as every profiled request finishes and the inspector answers the calls of
`start()`, a capture gives its slot back with its session.  A profiled request that is
closed keeps the slot, a session that could not be started stays connected, and a request
that was accepted may be turned down by the second draw.
-/

/-- Nothing of the capture is still under way. -/
def Capture.Quiet (capture : Capture) : Prop :=
  capture.starting = .settled ∧ (capture.ending = .uncalled ∨ capture.ending = .settled)

namespace System

/-- Every request has ended, and nothing of a capture is still under way. -/
def AllEnded (system : System) : Prop :=
  forall request, request ∈ system.requests -> request.ended = true ∧
    forall capture, request.profile = some capture -> capture.Quiet

/-- What is promised of the slots, the sessions and the accepted requests. -/
structure Accounted (config : ResolvedProfilingConfig) (system : System) : Prop where
  bounded : system.service.active ≤ config.maxConcurrent
  released : system.AllEnded -> system.service.active = 0
  disconnected : system.AllEnded -> forall request, request ∈ system.requests ->
    forall capture, request.profile = some capture -> capture.connected = false
  profiled : forall request, request ∈ system.requests -> request.acceptedWithSlot = true ->
    request.profile.isSome = true

/-- A request that gets a capture has a response with listeners, and no second draw turns it
down; it finishes, and its listener gets to the end of the capture; and the inspector does
not fail a call of `start()`. -/
def Regular (config : ResolvedProfilingConfig) (system : System) : Event -> Prop
  | .request route finishable gateDraw beginDraw _connects =>
      system.service.shouldProfile config (some route) gateDraw = true ->
        system.service.active < config.maxConcurrent ->
          finishable = true ∧ ((system.service.matchingArm (some route)).isSome = true ∨ beginDraw < config.sampleRate)
  | .answered _position ok => ok = true
  | .finish position captured =>
      captured = true ∨ forall request, system.requests[position]? = some request -> request.profile = none
  | .close position => forall request, system.requests[position]? = some request -> request.profile = none
  | _ => True

end System

/-! ## What is kept -/

/-- A connected session is the one that its profiler will stop. -/
def Capture.Tracked (capture : Capture) : Prop :=
  capture.connected = true -> capture.ending ≠ .settled ∧ capture.profiler.session = true ∧
    (capture.starting = .settled -> capture.profiler.running = true)

theorem Capture.tracked_start (reason : Reason) (connects : Bool) : (Capture.start reason connects).Tracked := by
  intro connected
  cases connects with
  | false => cases connected
  | true => exact ⟨fun isSettled => (by cases isSettled), rfl, fun isSettled => by cases isSettled⟩

theorem Capture.Tracked.answered {capture next : Capture} (tracked : capture.Tracked)
    (isNext : capture.answered true = some next) : next.Tracked ∧ next.ending = capture.ending := by
  rw [Capture.answered] at isNext
  cases stage : capture.starting with
  | enabling =>
      rw [stage] at isNext
      cases isNext
      exact ⟨fun connected => ⟨(tracked connected).1, (tracked connected).2.1, fun isSettled => by cases isSettled⟩, rfl⟩
  | settingInterval =>
      rw [stage] at isNext
      cases isNext
      exact ⟨fun connected => ⟨(tracked connected).1, (tracked connected).2.1, fun isSettled => by cases isSettled⟩, rfl⟩
  | starting =>
      rw [stage] at isNext
      cases isNext
      exact ⟨fun connected => ⟨(tracked connected).1, (tracked connected).2.1, fun _ => rfl⟩, rfl⟩
  | settled =>
      rw [stage] at isNext
      cases isNext

theorem Capture.Tracked.callEnd {capture : Capture} (tracked : capture.Tracked) : capture.callEnd.Tracked :=
  fun connected => ⟨fun isSettled => (by cases isSettled), (tracked connected).2⟩

theorem Capture.Tracked.proceed {capture next : Capture} (tracked : capture.Tracked)
    (isNext : capture.proceed = some next) :
    next.Tracked ∧ capture.holdsSlot = true ∧ capture.ending ≠ .uncalled ∧ next.ending ≠ .uncalled := by
  rw [Capture.proceed] at isNext
  split at isNext
  · rename_i awaiting
    have holds : capture.holdsSlot = true ∧ capture.ending ≠ .uncalled := by
      rw [Capture.holdsSlot, awaiting.1]
      exact ⟨rfl, fun isUncalled => (by cases isUncalled)⟩
    split at isNext
    · cases isNext
      exact ⟨fun connected => ⟨fun isSettled => (by cases isSettled), (tracked connected).2⟩, holds.1, holds.2,
        fun isUncalled => by cases isUncalled⟩
    · rename_i nothing
      cases isNext
      refine ⟨fun connected => ?_, holds.1, holds.2, fun isUncalled => by cases isUncalled⟩
      have known := tracked connected
      exact (nothing (by rw [known.2.1, known.2.2 awaiting.2]; rfl)).elim
  · cases isNext

theorem Capture.stopped_spec {capture next : Capture} (isNext : capture.stopped = some next) :
    next.Tracked ∧ capture.holdsSlot = true ∧ capture.ending ≠ .uncalled ∧ next.ending ≠ .uncalled := by
  rw [Capture.stopped] at isNext
  split at isNext
  · rename_i stopping
    cases isNext
    rw [Capture.holdsSlot, stopping]
    exact ⟨fun connected => (by cases connected), rfl, fun isUncalled => (by cases isUncalled),
      fun isUncalled => by cases isUncalled⟩
  · cases isNext

namespace Request

/-- The request holds a slot. -/
def holdsSlot (request : Request) : Bool := request.profile.any Capture.holdsSlot

/-- A capture belongs to a response with listeners, and is ended with its request. -/
structure Kept (request : Request) : Prop where
  profiled : request.acceptedWithSlot = true -> request.profile.isSome = true
  capture : forall capture, request.profile = some capture ->
    request.finishable = true ∧ (request.ended = true <-> capture.ending ≠ .uncalled) ∧ capture.Tracked

end Request

namespace System

structure Kept (config : ResolvedProfilingConfig) (system : System) : Prop where
  requests : forall request, request ∈ system.requests -> request.Kept
  counted : system.service.active = system.requests.countP Request.holdsSlot
  bounded : system.service.active ≤ config.maxConcurrent

variable {config : ResolvedProfilingConfig} {system next : System} {position : Nat} {request changed : Request}

theorem kept_initial (config : ResolvedProfilingConfig) : initial.Kept config where
  requests _request member := (List.not_mem_nil member).elim
  counted := rfl
  bounded := Nat.zero_le _

theorem Kept.accounted (kept : system.Kept config) : system.Accounted config where
  bounded := kept.bounded
  released ended := by
    rw [kept.counted, List.countP_eq_zero]
    intro request member
    cases isProfile : request.profile with
    | none =>
        rw [Request.holdsSlot, isProfile]
        exact Bool.false_ne_true
    | some capture =>
        have called := ((kept.requests request member).capture capture isProfile).2.1.mp (ended request member).1
        have settled := (((ended request member).2 capture isProfile).2).resolve_left called
        rw [Request.holdsSlot, isProfile, Option.any_some, Capture.holdsSlot, settled]
        exact Bool.false_ne_true
  disconnected ended request member capture isProfile := by
    have known := (kept.requests request member).capture capture isProfile
    have settled := (((ended request member).2 capture isProfile).2).resolve_left (known.2.1.mp (ended request member).1)
    exact Bool.eq_false_iff.mpr fun connected => (known.2.2 connected).1 settled
  profiled request member := (kept.requests request member).profiled

/-- A changed request keeps the count when its slot is given back with it. -/
theorem Kept.set (kept : system.Kept config) (found : system.requests[position]? = some request)
    (changedKept : changed.Kept) :
    (forall other, other ∈ (system.put position changed).requests -> other.Kept) ∧
      (system.put position changed).requests.countP Request.holdsSlot + (if request.holdsSlot then 1 else 0) =
        system.service.active + if changed.holdsSlot then 1 else 0 := by
  rcases List.getElem?_eq_some_iff.mp found with ⟨inRange, isRequest⟩
  constructor
  · intro other member
    rcases List.mem_or_eq_of_mem_set member with before | isChanged
    · exact kept.requests other before
    · exact isChanged ▸ changedKept
  · change (system.requests.set position changed).countP _ + _ = _
    rw [List.countP_set inRange, isRequest, kept.counted]
    have positive : request.holdsSlot = true -> 0 < system.requests.countP Request.holdsSlot := fun holds =>
      List.countP_pos_iff.mpr ⟨request, List.mem_of_getElem? found, holds⟩
    split
    · rename_i holds
      have present := positive holds
      omega
    · omega

theorem Kept.put (kept : system.Kept config) (found : system.requests[position]? = some request)
    (changedKept : changed.Kept) (sameSlot : changed.holdsSlot = request.holdsSlot) :
    (system.put position changed).Kept config := by
  rcases kept.set found changedKept with ⟨requests, counted⟩
  rw [sameSlot] at counted
  exact ⟨requests, (Nat.add_right_cancel counted).symm, kept.bounded⟩

theorem Kept.put_settle (kept : system.Kept config) {capture after : Capture}
    (found : system.requests[position]? = some request) (isProfile : request.profile = some capture)
    (holds : capture.holdsSlot = true) (called : capture.ending ≠ .uncalled) (still : after.ending ≠ .uncalled)
    (tracked : after.Tracked) :
    ((system.put position { request with profile := some after }).settle after).Kept config := by
  have member := List.mem_of_getElem? found
  have requestKept := kept.requests request member
  have changedKept : Request.Kept { request with profile := some after } := by
    refine ⟨fun _ => rfl, fun other isOther => ?_⟩
    cases isOther
    have known := requestKept.capture capture isProfile
    exact ⟨known.1, iff_of_true (known.2.1.mpr called) still, tracked⟩
  have held : request.holdsSlot = true := by rw [Request.holdsSlot, isProfile, Option.any_some, holds]
  rcases kept.set found changedKept with ⟨requests, counted⟩
  rw [held, if_pos rfl] at counted
  change _ + 1 = _ + if after.holdsSlot = true then 1 else 0 at counted
  rw [settle]
  split
  · rename_i still
    rw [if_pos still] at counted
    exact ⟨requests, (Nat.add_right_cancel counted).symm, kept.bounded⟩
  · rename_i free
    rw [if_neg free] at counted
    refine ⟨requests, ?_, ?_⟩
    · change max 0 (system.service.active - 1) = (system.put position _).requests.countP Request.holdsSlot
      omega
    · change max 0 (system.service.active - 1) ≤ _
      have bounded := kept.bounded
      omega

/-- A new request, with or without a capture of its own. -/
theorem Kept.append (kept : system.Kept config) (requestKept : request.Kept) (service : ProfilerService)
    (active : service.active = system.service.active + if request.holdsSlot then 1 else 0)
    (bounded : service.active ≤ config.maxConcurrent) :
    Kept config { system with service := service, requests := system.requests ++ [request] } where
  requests := by
    intro other member
    rcases List.mem_append.mp member with before | isNew
    · exact kept.requests other before
    · exact List.mem_singleton.mp isNew ▸ requestKept
  counted := by
    change service.active = (system.requests ++ [request]).countP Request.holdsSlot
    rw [active, kept.counted, List.countP_append, List.countP_singleton]
  bounded := bounded

theorem begin_spec {service after : ProfilerService} {label : Option Units} {random : Rat} {reason : Reason}
    (begun : service.begin config label random = some (reason, after)) :
    service.active < config.maxConcurrent ∧ after.active = service.active + 1 := by
  rw [ProfilerService.begin] at begun
  split at begun
  · cases begun
  · split at begun
    · cases begun
    · split at begun
      · cases begun
      · rename_i room
        split at begun <;> cases begun <;> exact ⟨not_le.mp room, rfl⟩

/-- An accepted request is turned down only by the second draw or for want of a slot. -/
theorem begin_isSome {service : ProfilerService} {label : Option Units} {gateDraw beginDraw : Rat}
    (accepted : service.shouldProfile config label gateDraw = true) (free : service.active < config.maxConcurrent)
    (again : (service.matchingArm label).isSome = true ∨ beginDraw < config.sampleRate) :
    (service.begin config label beginDraw).isSome = true := by
  rw [ProfilerService.shouldProfile, Bool.and_eq_true] at accepted
  rw [ProfilerService.begin, accepted.1, if_neg (by decide)]
  split
  · rename_i turnedDown
    rw [Bool.and_eq_true, Option.isNone_iff_eq_none] at turnedDown
    rw [turnedDown.1, Option.isSome_none, Bool.false_or, Bool.and_eq_true, decide_eq_true_eq,
      decide_eq_true_eq] at accepted
    rw [turnedDown.1, Option.isSome_none] at again
    rw [Bool.or_eq_true, decide_eq_true_eq, decide_eq_true_eq] at turnedDown
    rcases turnedDown.2 with noSampling | drawn
    · exact absurd accepted.2.1 (not_lt.mpr noSampling)
    · exact absurd (again.resolve_left Bool.false_ne_true) (not_lt.mpr drawn)
  · rw [if_neg (not_le.mpr free)]
    split <;> rfl

/-! ## Steps -/

/-- A request without a capture. -/
theorem kept_unprofiled (unprofiled : request.profile = none) (unaccepted : request.acceptedWithSlot = false) :
    request.Kept where
  profiled isAccepted := (Bool.false_ne_true (unaccepted.symm.trans isAccepted)).elim
  capture _capture isProfile := (Option.some_ne_none _ (isProfile.symm.trans unprofiled)).elim

theorem Kept.use (kept : system.Kept config) {route : Units} {finishable connects : Bool} {gateDraw beginDraw : Rat}
    (regular : system.Regular config (.request route finishable gateDraw beginDraw connects)) :
    (system.use config route finishable gateDraw beginDraw connects).Kept config := by
  rw [System.use]
  cases accepted : system.service.shouldProfile config (some route) gateDraw with
  | false => exact kept.append (kept_unprofiled rfl rfl) _ rfl kept.bounded
  | true =>
      rw [if_pos rfl]
      cases begun : system.service.begin config (some route) beginDraw with
      | none =>
          refine kept.append (kept_unprofiled rfl ?_) _ rfl kept.bounded
          refine Bool.eq_false_iff.mpr fun isAccepted => ?_
          rw [Bool.true_and, decide_eq_true_eq] at isAccepted
          have profiled := begin_isSome accepted isAccepted (regular accepted isAccepted).2
          rw [begun] at profiled
          cases profiled
      | some pair =>
          rcases pair with ⟨reason, service⟩
          rcases begin_spec begun with ⟨free, active⟩
          refine kept.append ⟨fun _ => rfl, fun capture isProfile => ?_⟩ service active (active.trans_le free)
          cases isProfile
          exact ⟨(regular accepted free).1, iff_of_false Bool.false_ne_true fun called => called rfl,
            Capture.tracked_start reason connects⟩

theorem open?_eq_some (isOpen : system.open? position = some request) :
    system.requests[position]? = some request ∧ request.ended = false := by
  rw [open?, Option.filter_eq_some_iff, Bool.not_eq_true'] at isOpen
  exact isOpen

theorem unaccepted_of_unprofiled (kept : request.Kept) (unprofiled : request.profile = none) :
    request.acceptedWithSlot = false := by
  refine Bool.eq_false_iff.mpr fun isAccepted => ?_
  have profiled := kept.profiled isAccepted
  rw [unprofiled] at profiled
  cases profiled

theorem Kept.finish (kept : system.Kept config) {captured : Bool}
    (regular : system.Regular config (.finish position captured)) (isOpen : system.open? position = some request) :
    (system.put position { request with
      ended := true
      profile := if request.finishable && captured then request.profile.map Capture.callEnd
        else request.profile }).Kept config := by
  rcases open?_eq_some isOpen with ⟨found, unended⟩
  have requestKept := kept.requests request (List.mem_of_getElem? found)
  cases isProfile : request.profile with
  | none =>
      have unprofiled : (if request.finishable && captured then Option.map Capture.callEnd none else none) =
          (none : Option Capture) := ite_self none
      rw [unprofiled]
      have unaccepted := unaccepted_of_unprofiled requestKept isProfile
      refine kept.put found (kept_unprofiled rfl unaccepted) ?_
      rw [Request.holdsSlot, Request.holdsSlot, isProfile]
  | some capture =>
      rcases requestKept.capture capture isProfile with ⟨finishable, called, tracked⟩
      have isCaptured : captured = true := by
        refine regular.resolve_right fun unprofiled => ?_
        cases (unprofiled request found).symm.trans isProfile
      have uncalled : capture.ending = .uncalled := by
        by_contra isCalled
        exact Bool.false_ne_true (unended.symm.trans (called.mpr isCalled))
      rw [if_pos (by rw [finishable, isCaptured]; rfl), Option.map_some]
      refine kept.put found ⟨fun _ => rfl, fun other isOther => ?_⟩ ?_
      · cases isOther
        exact ⟨finishable, iff_of_true rfl fun isUncalled => (by cases isUncalled), tracked.callEnd⟩
      · rw [Request.holdsSlot, Request.holdsSlot, isProfile, Option.any_some, Option.any_some, Capture.holdsSlot,
          Capture.holdsSlot, uncalled]
        rfl

theorem Kept.close (kept : system.Kept config) (regular : system.Regular config (.close position))
    (isOpen : system.open? position = some request) :
    (system.put position { request with ended := true }).Kept config := by
  have found := (open?_eq_some isOpen).1
  have unprofiled := regular request found
  have unaccepted := unaccepted_of_unprofiled (kept.requests request (List.mem_of_getElem? found)) unprofiled
  exact kept.put found (kept_unprofiled unprofiled unaccepted) rfl

/-- What is recorded does not matter. -/
theorem Kept.record {capture after : Capture} {durationMs : Option Rat} (kept : (system.settle after).Kept config) :
    ((system.record config request capture durationMs).settle after).Kept config := by
  have same : (system.record config request capture durationMs).service = system.service ∧
      (system.record config request capture durationMs).requests = system.requests := by
    cases durationMs with
    | none => exact ⟨rfl, rfl⟩
    | some durationMs =>
        rw [System.record]
        split <;> exact ⟨rfl, rfl⟩
  have settled : ((system.record config request capture durationMs).settle after).service =
      (system.settle after).service ∧
      ((system.record config request capture durationMs).settle after).requests = (system.settle after).requests := by
    rw [settle, settle]
    split
    · exact same
    · exact ⟨congrArg ProfilerService.release same.1, same.2⟩
  exact ⟨settled.2 ▸ kept.requests, by rw [settled.1, settled.2]; exact kept.counted,
    by rw [settled.1]; exact kept.bounded⟩

/-- A regular step keeps the account. -/
theorem kept_step (kept : system.Kept config) {event : Event} (regular : system.Regular config event)
    (isNext : system.step config event = some next) : next.Kept config := by
  cases event with
  | arm count label =>
      cases isNext
      have active : (system.service.arm config count label).active = system.service.active := by
        rw [ProfilerService.arm]
        split <;> rfl
      exact ⟨kept.requests, active.trans kept.counted, active.trans_le kept.bounded⟩
  | request route finishable gateDraw beginDraw connects =>
      cases isNext
      exact kept.use regular
  | answered position ok =>
      rcases Option.bind_eq_some_iff.mp isNext with ⟨request, found, rest⟩
      rcases Option.bind_eq_some_iff.mp rest with ⟨capture, isProfile, settled⟩
      rcases Option.map_eq_some_iff.mp settled with ⟨after, isAfter, rfl⟩
      have requestKept := kept.requests request (List.mem_of_getElem? found)
      rcases requestKept.capture capture isProfile with ⟨finishable, called, tracked⟩
      cases regular
      rcases tracked.answered isAfter with ⟨stillTracked, sameEnding⟩
      refine kept.put found ⟨fun _ => rfl, fun other isOther => ?_⟩ ?_
      · cases isOther
        exact ⟨finishable, sameEnding ▸ called, stillTracked⟩
      · rw [Request.holdsSlot, Request.holdsSlot, isProfile, Option.any_some, Option.any_some, Capture.holdsSlot,
          Capture.holdsSlot, sameEnding]
  | finish position captured =>
      rcases Option.map_eq_some_iff.mp isNext with ⟨request, isOpen, rfl⟩
      exact kept.finish regular isOpen
  | close position =>
      rcases Option.map_eq_some_iff.mp isNext with ⟨request, isOpen, rfl⟩
      exact kept.close regular isOpen
  | proceed position =>
      rcases Option.bind_eq_some_iff.mp isNext with ⟨request, found, rest⟩
      rcases Option.bind_eq_some_iff.mp rest with ⟨capture, isProfile, settled⟩
      rcases Option.map_eq_some_iff.mp settled with ⟨after, isAfter, rfl⟩
      have requestKept := kept.requests request (List.mem_of_getElem? found)
      rcases (requestKept.capture capture isProfile).2.2.proceed isAfter with ⟨tracked, holds, called, still⟩
      exact kept.put_settle found isProfile holds called still tracked
  | stopped position durationMs =>
      rcases Option.bind_eq_some_iff.mp isNext with ⟨request, found, rest⟩
      rcases Option.bind_eq_some_iff.mp rest with ⟨capture, isProfile, settled⟩
      rcases Option.map_eq_some_iff.mp settled with ⟨after, isAfter, rfl⟩
      rcases Capture.stopped_spec isAfter with ⟨tracked, holds, called, still⟩
      exact (kept.put_settle found isProfile holds called still tracked).record

/-- Whatever begins, finishes, is closed or fails in the profiler, in every run of regular
steps: there are never more captures than the maximum; when every request has ended, no
slot is taken and no session connected; and an accepted request is profiled when a slot is
free. -/
theorem accounted_of_regular {events : List Event}
    (regular : Transition.Along (step config) (Regular config) initial events)
    (ran : Transition.runFrom (step config) initial events = some system) : system.Accounted config := by
  refine Kept.accounted (Transition.invariant_along (fun state event after kept isRegular isAfter => ?_)
    (kept_initial config) regular ran)
  exact kept_step kept isRegular isAfter

/-- An event that is regular in any state. -/
def Plain (config : ResolvedProfilingConfig) : Event -> Prop
  | .request _route finishable _gateDraw beginDraw _connects => finishable = true ∧ beginDraw < config.sampleRate
  | .answered _position ok => ok = true
  | .finish _position captured => captured = true
  | .close _position => False
  | _ => True

theorem regular_of_plain {event : Event} (plain : Plain config event) : system.Regular config event := by
  cases event with
  | request => exact fun _ _ => ⟨plain.1, .inr plain.2⟩
  | answered => exact plain
  | finish => exact .inl plain
  | close => exact plain.elim
  | arm => trivial
  | proceed => trivial
  | stopped => trivial

/-- Half of the requests are sampled, one at a time. -/
def halfSampled : ResolvedProfilingConfig := ⟨true, 1 / 2, 1, 0⟩

/-- The last state of a request that was profiled. -/
def oneRequest (active : Nat) (profile : Option Capture) (ended : Bool) (recorded : List ProfileRecord) : System :=
  ⟨⟨active, []⟩, [⟨units "GET /", true, profile, ended, true⟩], recorded⟩

/-- A profiled request from its arrival to the end of its capture. -/
def profiledRequest : List Event :=
  [.request (units "GET /") true 0 0 true, .answered 0 true, .answered 0 true, .answered 0 true, .finish 0 true,
    .proceed 0, .stopped 0 (some 12)]

theorem accounted_profiledRequest :
    Accounted halfSampled (oneRequest 0 (some ⟨.sampled, ⟨false, false⟩, false, .settled, .settled⟩) true
      [⟨.sampled, units "GET /", 12⟩]) := by
  have plain : forall event, event ∈ profiledRequest -> Plain halfSampled event := by
    rw [profiledRequest, List.forall_mem_cons]
    refine ⟨⟨rfl, by decide +kernel⟩, ?_⟩
    simp only [List.forall_mem_cons, List.not_mem_nil, false_imp_iff, implies_true, Plain, and_self]
  refine @accounted_of_regular halfSampled _ profiledRequest ?_ (by decide +kernel)
  exact (Transition.along_of_forall plain initial).imp fun _ _ => regular_of_plain

/-- The client closes a profiled request: it keeps its slot and its session.  The inspector
refuses to start the profile: its session stays connected.  The second draw turns down a
request that the first one accepted while the slot was free. -/
theorem not_accounted :
    (Exists fun final => Transition.runFrom (step halfSampled) initial
        [.request (units "GET /") true 0 0 true, .answered 0 true, .answered 0 true, .answered 0 true, .close 0] =
          some final ∧ final.AllEnded ∧ ¬ final.Accounted halfSampled) ∧
      (Exists fun final => Transition.runFrom (step halfSampled) initial
        [.request (units "GET /") true 0 0 true, .answered 0 true, .answered 0 true, .answered 0 false,
          .finish 0 true, .proceed 0] = some final ∧ final.AllEnded ∧ ¬ final.Accounted halfSampled) ∧
      (Exists fun final => Transition.runFrom (step halfSampled) initial
        [.request (units "GET /") true 0 (3 / 4) true] = some final ∧ ¬ final.Accounted halfSampled) := by
  refine ⟨⟨oneRequest 1 (some ⟨.sampled, ⟨true, true⟩, true, .settled, .uncalled⟩) true [], by decide +kernel, ?_⟩,
    ⟨oneRequest 0 (some ⟨.sampled, ⟨true, false⟩, true, .settled, .settled⟩) true [], by decide +kernel, ?_⟩,
    ⟨oneRequest 0 none false [], by decide +kernel, fun accounted => ?_⟩⟩
  · have ended : (oneRequest 1 (some ⟨.sampled, ⟨true, true⟩, true, .settled, .uncalled⟩) true []).AllEnded := by
      refine List.forall_mem_singleton.mpr ⟨rfl, fun capture isProfile => ?_⟩
      cases isProfile
      exact ⟨rfl, .inl rfl⟩
    exact ⟨ended, fun accounted => absurd (accounted.released ended) Nat.one_ne_zero⟩
  · have ended : (oneRequest 0 (some ⟨.sampled, ⟨true, false⟩, true, .settled, .settled⟩) true []).AllEnded := by
      refine List.forall_mem_singleton.mpr ⟨rfl, fun capture isProfile => ?_⟩
      cases isProfile
      exact ⟨rfl, .inr rfl⟩
    exact ⟨ended, fun accounted => Bool.false_ne_true
      (accounted.disconnected ended _ List.mem_cons_self _ rfl).symm⟩
  · exact Bool.false_ne_true (accounted.profiled _ List.mem_cons_self rfl)

end System

end Profiling
end Telescope
