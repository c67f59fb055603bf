import Telescope.Http.HttpClientWatcher

namespace Telescope
namespace Http

/-!
# Transparency of the HTTP capture

The host gets what it would get without the watcher whenever its values can be described
and whatever recording throws has a text.  Describing a configuration throws for some
values: which ones is said here value by value, from the configuration alone.
-/

namespace Returns

variable {α β : Type}

theorem mapM_iff {change : α -> Attempt β} {values : List α} :
    Returns (values.mapM change) <-> forall value, value ∈ values -> Returns (change value) := by
  induction values with
  | nil => exact ⟨fun _ value member => (List.not_mem_nil member).elim, fun _ => ok []⟩
  | cons value values inductionHypothesis =>
      rw [List.mapM_cons, bind_iff, List.forall_mem_cons]
      constructor
      · intro found
        rcases found with ⟨first, isFirst, returns⟩
        rcases bind_iff.mp returns with ⟨others, areOthers, _⟩
        exact ⟨⟨first, isFirst⟩, inductionHypothesis.mp ⟨others, areOthers⟩⟩
      · intro all
        rcases all.1 with ⟨first, isFirst⟩
        rcases inductionHypothesis.mpr all.2 with ⟨others, areOthers⟩
        exact ⟨first, isFirst, bind_iff.mpr ⟨others, areOthers, ok (first :: others)⟩⟩

theorem isEmpty_mapM {change : α -> Attempt β} {values : List α} {results : List β}
    (returns : values.mapM change = .ok results) : results.isEmpty = values.isEmpty := by
  cases values with
  | nil =>
      cases returns
      rfl
  | cons value values =>
      rw [List.mapM_cons] at returns
      rcases bind_iff.mp ⟨results, returns⟩ with ⟨first, isFirst, found⟩
      rcases bind_iff.mp found with ⟨others, areOthers, _⟩
      rw [isFirst] at returns
      change (do let others <- values.mapM change; pure (first :: others)) = Except.ok results at returns
      rw [areOthers] at returns
      cases returns
      rfl

end Returns

/-! ## Values that can be described -/

/-- Slashes can be dropped from the value, and the result has a text. -/
def Strippable (web : Web) (value : Runtime) (method : Method) : Prop :=
  Exists fun stripped => value.call web.upperCase method = .ok stripped ∧ Returns stripped.text

namespace AxiosRequestConfig

/-- Base and path are joined at a seam: there are both, and the path is not absolute. -/
def Seamed (config : AxiosRequestConfig) : Prop :=
  config.base.truthy = true ∧ config.path.truthy = true ∧
    Exists fun text => config.path.text = .ok text ∧ isAbsolute text = false

/-- The values of the configuration can be described. -/
structure Describable (web : Web) (config : AxiosRequestConfig) : Prop where
  /-- The method can be put into upper case, if there is one. -/
  method : config.method.nullish = true ∨ Returns (config.method.call web.upperCase .toUpperCase)
  /-- Beside a base the path has a text. -/
  text : config.base.truthy = true -> config.path.truthy = true -> Returns config.path.text
  seam : config.Seamed -> Strippable web config.base .dropSlashesAtEnd ∧ Strippable web config.path .dropSlashesAtStart
  /-- Every parameter that is appended has a text. -/
  entries : forall entry, entry ∈ config.entries -> Returns entry.2.stringOf
  /-- Parameters are appended to a value that takes them. -/
  append : config.entries ≠ [] -> ¬ config.Seamed ->
    Returns (config.single.call web.upperCase .includesQuestionMark) ∧ Returns (config.single.plus [])

end AxiosRequestConfig

theorem returns_plus {value : Runtime} {addend : Units} : Returns (value.plus addend) <-> Returns (value.plus []) := by
  cases value <;> simp only [Runtime.plus, Returns.map_iff]

namespace AxiosRequestConfig

variable {web : Web} {config : AxiosRequestConfig}

theorem returns_seam : Returns (config.seam web) <->
    Strippable web config.base .dropSlashesAtEnd ∧ Strippable web config.path .dropSlashesAtStart := by
  rw [seam, Returns.bind_iff]
  constructor
  · intro found
    rcases found with ⟨base, isBase, found⟩
    rcases Returns.bind_iff.mp found with ⟨front, isFront, found⟩
    rcases Returns.bind_iff.mp found with ⟨path, isPath, found⟩
    rcases Returns.bind_iff.mp found with ⟨rest, isRest, _⟩
    exact ⟨⟨base, isBase, front, isFront⟩, path, isPath, rest, isRest⟩
  · intro strippable
    rcases strippable with ⟨⟨base, isBase, front, isFront⟩, path, isPath, rest, isRest⟩
    refine ⟨base, isBase, Returns.bind_iff.mpr ⟨front, isFront, Returns.bind_iff.mpr ⟨path, isPath, ?_⟩⟩⟩
    exact Returns.bind_iff.mpr ⟨rest, isRest, Returns.ok _⟩

theorem returns_append {rawUrl : Runtime} {query : Units} : Returns (append web rawUrl query) <->
    (query.isEmpty = false ->
      Returns (rawUrl.call web.upperCase .includesQuestionMark) ∧ Returns (rawUrl.plus [])) := by
  rw [append]
  split
  · rename_i empty
    exact ⟨fun _ notEmpty => (Bool.false_ne_true (notEmpty.symm.trans empty)).elim, fun _ => Returns.ok rawUrl⟩
  · rename_i notEmpty
    rw [Returns.bind_iff]
    constructor
    · intro found _
      rcases found with ⟨includes, areIncluded, found⟩
      rcases Returns.bind_iff.mp found with ⟨joined, isJoined, _⟩
      exact ⟨⟨includes, areIncluded⟩, returns_plus.mp ⟨joined, isJoined⟩⟩
    · intro takes
      rcases takes (Bool.eq_false_iff.mpr notEmpty) with ⟨⟨includes, areIncluded⟩, adds⟩
      rcases returns_plus.mpr adds with ⟨joined, isJoined⟩
      exact ⟨includes, areIncluded, Returns.bind_iff.mpr ⟨joined, isJoined, Returns.ok _⟩⟩

/-- At a seam the joined URL is a string. -/
theorem join_of_seamed (seamed : config.Seamed) :
    config.join web = (config.seam web).map Runtime.string := by
  rcases seamed with ⟨hasBase, hasPath, text, isText, relative⟩
  rw [join, hasBase, hasPath, Bool.and_self, if_pos rfl, isText]
  change (if isAbsolute text = true then _ else _) = _
  rw [relative, if_neg Bool.false_ne_true]
  cases config.seam web <;> rfl

/-- Elsewhere it is the path or the base. -/
theorem join_of_not_seamed (notSeamed : ¬ config.Seamed)
    (text : config.base.truthy = true -> config.path.truthy = true -> Returns config.path.text) :
    config.join web = .ok config.single := by
  rw [join]
  split
  · rename_i both
    rcases Bool.and_eq_true_iff.mp both with ⟨hasBase, hasPath⟩
    rcases text hasBase hasPath with ⟨path, isPath⟩
    have absolute : isAbsolute path = true := by
      cases known : isAbsolute path with
      | true => rfl
      | false => exact (notSeamed ⟨hasBase, hasPath, path, isPath, known⟩).elim
    rw [isPath, single, hasPath, if_pos rfl]
    change (if isAbsolute path = true then _ else _) = _
    rw [absolute, if_pos rfl]
    rfl
  · rfl

/-- Joining throws where a text is missing. -/
theorem text_of_returns_join (returns : Returns (config.join web)) (hasBase : config.base.truthy = true)
    (hasPath : config.path.truthy = true) : Returns config.path.text := by
  rw [join, hasBase, hasPath, Bool.and_self, if_pos rfl, Returns.bind_iff] at returns
  rcases returns with ⟨text, isText, _⟩
  exact ⟨text, isText⟩

end AxiosRequestConfig

/-- The method has an upper case. -/
theorem returns_method {web : Web} {method : Runtime} :
    Returns ((method.orElse (.string (units "GET"))).call web.upperCase .toUpperCase) <->
      method.nullish = true ∨ Returns (method.call web.upperCase .toUpperCase) := by
  rw [Runtime.orElse]
  split
  · rename_i nullish
    exact ⟨fun _ => .inl nullish, fun _ => Returns.ok _⟩
  · rename_i given
    exact ⟨.inr, fun either => either.resolve_left given⟩

open AxiosRequestConfig in
theorem describable_of_returns {web : Web} {config : AxiosRequestConfig}
    (returns : Returns (describeAxiosRequest web config)) : config.Describable web := by
  rcases Returns.bind_iff.mp returns with ⟨method, isMethod, found⟩
  rcases Returns.bind_iff.mp found with ⟨joined, isJoined, found⟩
  rcases Returns.bind_iff.mp found with ⟨search, isSearch, found⟩
  rcases Returns.bind_iff.mp found with ⟨rawUrl, isRawUrl, _⟩
  have text := text_of_returns_join ⟨joined, isJoined⟩
  refine ⟨returns_method.mp ⟨method, isMethod⟩, text, fun seamed => ?_, fun entry member => ?_,
    fun hasEntries notSeamed => ?_⟩
  · rw [join_of_seamed seamed] at isJoined
    exact returns_seam.mp (Returns.map_iff.mp ⟨joined, isJoined⟩)
  · exact Returns.map_iff.mp (Returns.mapM_iff.mp ⟨search, isSearch⟩ entry member)
  · rw [join_of_not_seamed notSeamed text] at isJoined
    cases isJoined
    have hasQuery : (web.serialize search).isEmpty = false := by
      rw [isEmpty_serialize, Returns.isEmpty_mapM isSearch]
      exact List.isEmpty_eq_false_iff.mpr hasEntries
    exact returns_append.mp ⟨rawUrl, isRawUrl⟩ hasQuery

open AxiosRequestConfig in
theorem returns_of_describable {web : Web} {config : AxiosRequestConfig} (describable : config.Describable web) :
    Returns (describeAxiosRequest web config) := by
  rcases returns_method.mpr describable.method with ⟨method, isMethod⟩
  have searches : Returns config.search :=
    Returns.mapM_iff.mpr fun entry member => Returns.map_iff.mpr (describable.entries entry member)
  rcases searches with ⟨search, isSearch⟩
  have joins : Exists fun joined => config.join web = .ok joined ∧ Returns (append web joined (web.serialize search)) := by
    by_cases seamed : config.Seamed
    · rcases returns_seam.mpr (describable.seam seamed) with ⟨joined, isJoined⟩
      refine ⟨.string joined, ?_, returns_append.mpr fun _ => ⟨Returns.ok _, Returns.ok _⟩⟩
      rw [join_of_seamed seamed, isJoined]
      rfl
    · refine ⟨config.single, join_of_not_seamed seamed describable.text, returns_append.mpr fun hasQuery => ?_⟩
      rw [isEmpty_serialize, Returns.isEmpty_mapM isSearch] at hasQuery
      exact describable.append (List.isEmpty_eq_false_iff.mp hasQuery) seamed
  rcases joins with ⟨joined, isJoined, rawUrl, isRawUrl⟩
  refine Returns.bind_iff.mpr ⟨method, isMethod, Returns.bind_iff.mpr ⟨joined, isJoined, ?_⟩⟩
  exact Returns.bind_iff.mpr ⟨search, isSearch, Returns.bind_iff.mpr ⟨rawUrl, isRawUrl, Returns.ok _⟩⟩

theorem returns_describeAxiosRequest {web : Web} {config : AxiosRequestConfig} :
    Returns (describeAxiosRequest web config) <-> config.Describable web :=
  ⟨describable_of_returns, returns_of_describable⟩

/-! ## What the host gets -/

theorem get_of_not_nullish {value : Runtime} (given : value.nullish = false) (name : Units) :
    value.get name = .ok (readField value name) := by
  cases value with
  | undefined => cases given
  | null => cases given
  | _ => rfl

theorem get_of_nullish {value : Runtime} (nullish : value.nullish = true) (name : Units) :
    value.get name = .error typeError := by
  cases value with
  | undefined => rfl
  | null => rfl
  | _ => cases nullish

/-- What an attempt throws, if anything, has a text. -/
def Reported (attempt : Attempt Unit) : Prop := forall thrown, attempt = .error thrown -> thrown.message ≠ none

namespace HttpClientWatcher

variable {watcher : HttpClientWatcher}

theorem returns_safeRecord {content : HttpClientContent} :
    Returns (watcher.safeRecord content) <-> Reported (watcher.recordContent content) := by
  rw [safeRecord]
  cases recorded : watcher.recordContent content with
  | ok _ =>
      refine ⟨fun _ thrown isThrown => ?_, fun _ => Returns.ok _⟩
      cases isThrown
  | error recordError =>
      dsimp only
      cases message : recordError.message with
      | none => exact ⟨fun returns => (Returns.not_error _ returns).elim, fun reported => (reported _ rfl message).elim⟩
      | some text =>
          refine ⟨fun _ thrown isThrown => ?_, fun _ => Returns.ok _⟩
          cases isThrown
          rw [message]
          exact Option.some_ne_none text

/-- The recording of a request with this outcome, after it was described. -/
def ReportsAxios (watcher : HttpClientWatcher) (startedAt : StartTimes) (config statusCode : Runtime) : Prop :=
  forall described, describeAxiosRequest watcher.web (readConfig config) = .ok described ->
    Reported (watcher.recordContent (contentOf described statusCode
      ((startOf startedAt config).elim 0 fun start => max 0 (watcher.now - start))))

theorem returns_recordAxios {startedAt : StartTimes} {config statusCode : Runtime} :
    Returns (watcher.recordAxios startedAt config statusCode) <->
      (readConfig config).Describable watcher.web ∧ watcher.ReportsAxios startedAt config statusCode := by
  rw [recordAxios, Returns.bind_iff, <- returns_describeAxiosRequest]
  constructor
  · intro found
    rcases found with ⟨described, isDescribed, returns⟩
    refine ⟨⟨described, isDescribed⟩, fun other isOther => ?_⟩
    rw [isDescribed] at isOther
    cases isOther
    exact returns_safeRecord.mp returns
  · intro holds
    rcases holds with ⟨⟨described, isDescribed⟩, reports⟩
    exact ⟨described, isDescribed, returns_safeRecord.mpr (reports described isDescribed)⟩

theorem settle_eq_iff {settled : Settled} (genuine : forall thrown, settled ≠ .escaped thrown)
    {recorded : Attempt (Option Units)} : settle settled recorded = settled <-> Returns recorded := by
  cases recorded with
  | ok logged => exact ⟨fun _ => Returns.ok logged, fun _ => rfl⟩
  | error thrown => exact ⟨fun same => (genuine thrown same.symm).elim, fun returns => (Returns.not_error _ returns).elim⟩

/-- The interceptor of responses. -/
theorem onFulfilled_iff {startedAt : StartTimes} {response : Runtime} :
    (watcher.onFulfilled startedAt response).1 = .resolved response <->
      response.nullish = false ∧
        (readConfig (readField response (units "config"))).Describable watcher.web ∧
        watcher.ReportsAxios startedAt (readField response (units "config")) (readField response (units "status")) := by
  rw [onFulfilled]
  cases nullish : response.nullish with
  | true =>
      rw [get_of_nullish nullish, get_of_nullish nullish]
      constructor
      · intro settled
        cases settled
      · intro holds
        cases holds.1
  | false =>
      rw [get_of_not_nullish nullish, get_of_not_nullish nullish]
      refine (settle_eq_iff fun thrown isEscaped => ?_).trans ?_
      · cases isEscaped
      · rw [returns_recordAxios]
        exact ⟨fun holds => ⟨rfl, holds⟩, fun holds => holds.2⟩

/-- The interceptor of errors. -/
theorem onRejected_iff {startedAt : StartTimes} {error : Runtime} :
    (watcher.onRejected startedAt error).1 = .rejected error <->
      (readConfig (asAxiosError error).config).Describable watcher.web ∧
        watcher.ReportsAxios startedAt (asAxiosError error).config (asAxiosError error).status := by
  rw [onRejected]
  refine (settle_eq_iff fun thrown isEscaped => ?_).trans returns_recordAxios
  cases isEscaped

/-- The status that the wrapped `fetch` records. -/
def statusOf : Except Runtime Runtime -> Runtime
  | .error _reason => .null
  | .ok response => readField response (units "status")

theorem returns_recordResponse {described : Described} {response : Runtime} {durationMs : Int} :
    Returns (watcher.recordResponse described response durationMs) <-> response.nullish = false ∧
      Reported (watcher.recordContent (contentOf described (readField response (units "status")) durationMs)) := by
  rw [recordResponse]
  cases nullish : response.nullish with
  | true =>
      rw [get_of_nullish nullish]
      constructor
      · intro returns
        exact (Returns.not_error _ returns).elim
      · intro holds
        cases holds.1
  | false =>
      rw [get_of_not_nullish nullish]
      exact returns_safeRecord.trans ⟨fun reported => ⟨rfl, reported⟩, fun holds => holds.2⟩

/-- In the `catch` block nothing becomes of a response. -/
theorem recordFailure_ne_resolved {described : Described} {durationMs : Int} {thrown : Thrown} {response : Runtime} :
    watcher.recordFailure described durationMs (.escaped thrown) ≠ .resolved response := by
  intro settled
  rw [recordFailure] at settled
  split at settled <;> cases settled

/-- The wrapped `fetch`. -/
theorem patchedFetch_iff {input : FetchInput} {init : Runtime} {durationMs : Int} {original : Except Runtime Runtime} :
    watcher.patchedFetch input init durationMs original = Settled.ofOriginal original <->
      (forall response, original = .ok response -> response.nullish = false) ∧
        Reported (watcher.recordContent
          (contentOf (describeRequest watcher.web input init) (statusOf original) durationMs)) := by
  cases original with
  | error reason =>
      have records := @returns_safeRecord watcher
        (contentOf (describeRequest watcher.web input init) .null durationMs)
      rw [patchedFetch, recordFailure, statusOf, Settled.ofOriginal, <- records]
      constructor
      · intro settled
        refine ⟨fun response isResponse => ?_, ?_⟩
        · cases isResponse
        · split at settled
          · cases settled
          · rename_i logged isLogged
            exact ⟨logged, isLogged⟩
      · intro holds
        rcases holds.2 with ⟨logged, isLogged⟩
        rw [isLogged]
  | ok response =>
      have records := @returns_recordResponse watcher (describeRequest watcher.web input init) response durationMs
      rw [patchedFetch, statusOf, Settled.ofOriginal]
      constructor
      · intro settled
        split at settled
        · rename_i logged isLogged
          rcases records.mp ⟨logged, isLogged⟩ with ⟨given, reported⟩
          refine ⟨fun other isOther => ?_, reported⟩
          cases isOther
          exact given
        · exact (recordFailure_ne_resolved settled).elim
      · intro holds
        rcases records.mpr ⟨holds.1 response rfl, holds.2⟩ with ⟨logged, isLogged⟩
        rw [isLogged]

/-- The HTTP capture is transparent exactly where the values of the configuration can be
described, the response is a value and whatever recording throws has a text. -/
theorem transparent_iff (watcher : HttpClientWatcher) :
    (forall startedAt shape, (watcher.onRequest startedAt (.object shape)).1 = .ok (.object shape)) ∧
      (forall startedAt response, (watcher.onFulfilled startedAt response).1 = .resolved response <->
        response.nullish = false ∧
          (readConfig (readField response (units "config"))).Describable watcher.web ∧
          watcher.ReportsAxios startedAt (readField response (units "config")) (readField response (units "status"))) ∧
      (forall startedAt error, (watcher.onRejected startedAt error).1 = .rejected error <->
        (readConfig (asAxiosError error).config).Describable watcher.web ∧
          watcher.ReportsAxios startedAt (asAxiosError error).config (asAxiosError error).status) ∧
      (forall input init durationMs original,
        watcher.patchedFetch input init durationMs original = Settled.ofOriginal original <->
          (forall response, original = .ok response -> response.nullish = false) ∧
            Reported (watcher.recordContent
              (contentOf (describeRequest watcher.web input init) (statusOf original) durationMs))) :=
  ⟨fun _ _ => rfl, fun _ _ => onFulfilled_iff, fun _ _ => onRejected_iff, fun _ _ _ _ => patchedFetch_iff⟩

/-! ## An object without a prototype -/

/-- An object literal. -/
def literal (fields : List (Units × Runtime)) : Runtime :=
  .object
    { identity := 0
      callable := false
      plain := true
      own := fields
      inherited := []
      text := .ok (units "[object Object]")
      summand := .ok (units "[object Object]")
      call := fun _ => .error typeError }

/-- `Object.create(null)` -/
def prototypeless : Runtime :=
  .object
    { identity := 1
      callable := false
      plain := true
      own := []
      inherited := []
      text := .error typeError
      summand := .error typeError
      call := fun _ => .error typeError }

/-- The response to a request with such an object as a parameter. -/
def filteredResponse : Runtime :=
  literal
    [(units "status", .number (.finite 200)),
      (units "config",
        literal
          [(units "url", .string (units "https://api.example.com/v1")),
            (units "params", literal [(units "filter", prototypeless)])])]

/-- A watcher whose recording never fails. -/
def quietWatcher : HttpClientWatcher where
  web :=
    { upperCase := id
      site := fun _ => none
      encodeQuery := fun _ => id
      encodeFragment := id
      decode := id
      encode := id }
  slowMs := 1000
  now := 0
  atLeast500 := fun _ => .ok false
  record := fun _ => .ok ()

/-- Its conversion rejects the request that has been answered. -/
theorem filteredResponse_escapes :
    (forall (watcher : HttpClientWatcher) (startedAt : StartTimes),
        (watcher.onFulfilled startedAt filteredResponse).1 = .escaped typeError) ∧
      ¬ forall (watcher : HttpClientWatcher) (startedAt : StartTimes) (response : Runtime),
          (watcher.onFulfilled startedAt response).1 = .resolved response := by
  have escapes (watcher : HttpClientWatcher) (startedAt : StartTimes) :
      (watcher.onFulfilled startedAt filteredResponse).1 = .escaped typeError := rfl
  refine ⟨escapes, fun transparent => ?_⟩
  cases (transparent quietWatcher (fun _ => none) filteredResponse).symm.trans (escapes quietWatcher fun _ => none)

end HttpClientWatcher
end Http
end Telescope
