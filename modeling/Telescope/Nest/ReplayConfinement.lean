import Telescope.Core.Numeral
import Telescope.Core.Redaction
import Telescope.Foundation.Elementwise
import Telescope.Nest.RequestCapture

namespace Telescope
namespace Nest

open Alerts (Thrown)
open Capture (isFalsy objectEntries)

/-!
# Replaying a request

A request that was captured is sent once more, to the local server. Where it goes and what
it carries is read out of the stored content, which has been masked and cut: its parts may
be missing, or be markers.
-/

def REPLAY_BODY_CAP : Nat := 4096

/-- Headers that a replay does not carry. -/
def REPLAY_STRIPPED_HEADERS : List Units :=
  [units "cookie", units "authorization", units "host", units "content-length"]

def REPLAY_HEADER : Units := units "x-telescope-replay"

abbrev Headers := List (Units × Units)

/-- A call of `fetch`, with `redirect: 'manual'`. -/
structure FetchCall where
  url : Units
  method : Units
  headers : Headers
  body : Option Units

/-- What the call comes to, with the text of the response. -/
structure Fetched where
  status : Number
  text : Units

/-- The engine around the program. `fetch` answers, or rejects with a value of which a
handler can say what it is; `JSON.stringify` may throw an error of its own. -/
structure Platform where
  toLowerCase : Units -> Units
  lower_ascii : forall text : Units, (forall unit, unit ∈ text -> unit.val < 128) ->
    toLowerCase text = Units.toLowerAscii text
  toUpperCase : Units -> Units
  toNumber : Units -> Number
  stringify : Value -> Except Units (Option Units)
  environmentPort : Option Units
  fetch : FetchCall -> Except Thrown Fetched
  described : forall call error, fetch call = .error error -> Exists fun text => error.describe = .ok text

structure ReplayResult where
  status : Number
  durationMs : Rat
  body : Units
  error : Option Units

/-- The calls of `fetch` that a replay makes, and what it comes to. -/
structure Replay where
  sent : List FetchCall
  outcome : Except Thrown ReplayResult

variable (platform : Platform)

/-! ## Headers -/

/-- The text that a header is replayed with. -/
def headerText : Value -> Option Units
  | .string text => some text
  | .array (.string text :: _rest) => some text
  | _ => none

/-- A header of the captured ones, unless it is stripped or has no text. -/
def replayHeader (header : Units × Value) : Option (Units × Units) :=
  if platform.toLowerCase header.1 ∈ REPLAY_STRIPPED_HEADERS then none
  else (headerText header.2).map fun text => (header.1, text)

def assignHeaders (headers : Headers) (assigned : Headers) : Headers :=
  assigned.foldl (fun headers header => Fields.assign headers header.1 header.2) headers

def buildReplayHeaders (source : List (Units × Value)) : Headers :=
  Fields.assign (assignHeaders [] (source.filterMap (replayHeader platform))) REPLAY_HEADER (units "1")

/-- The headers that go with a payload. -/
def payloadHeaders (payload : Value) (headers : Headers) : Headers :=
  match payload with
  | .string _text => headers
  | _ =>
      if headers.any fun header => decide (platform.toLowerCase header.1 = units "content-type") then headers
      else Fields.assign headers (units "content-type") (units "application/json")

def serializePayload (payload : Value) : Except Units (Option Units) :=
  match payload with
  | .string text => .ok (some text)
  | _ => platform.stringify payload

/-! ## The port -/

/-- `number > 0`. -/
def isPositive : Number -> Bool
  | .nan => false
  | .infinity negative => !negative
  | .finite value => decide (0 < value)

/-- A positive finite number. -/
def positivePort (number : Number) : Option Number :=
  match number with
  | .finite value => if 0 < value then some number else none
  | _ => none

/-- The port of the socket, of the `Host` header, of the environment, or 3000. -/
def resolveLocalPort (request : Value) : Number :=
  let socketPort := (((request.get (units "socket")).getNumber (units "localPort")).filter isPositive)
  let hostPort := ((request.get (units "headers")).getString (units "host")).bind fun host =>
    ((host.splitOn 58)[1]?).bind fun part => positivePort (platform.toNumber part)
  let ownPort := platform.environmentPort.bind fun port => positivePort (platform.toNumber port)
  (socketPort.or (hostPort.or ownPort)).getD (.finite 3000)

/-! ## The replay -/

/-- `content[name]`, which throws on `undefined` and `null`. -/
def readProperty (content : Value) (name : Units) : Except Thrown Value :=
  match content with
  | .undefined => .error (.typeError (units "Cannot read properties of undefined (reading '" ++ name ++ units "')"))
  | .null => .error (.typeError (units "Cannot read properties of null (reading '" ++ name ++ units "')"))
  | content => .ok (content.get name)

/-- The path, with a slash in front. -/
def replayPath (uri : Value) : Except Thrown Units :=
  match uri with
  | .string text => .ok (if (units "/").isPrefixOf text then text else units "/" ++ text)
  | .undefined => .error (.typeError (units "Cannot read properties of undefined (reading 'startsWith')"))
  | .null => .error (.typeError (units "Cannot read properties of null (reading 'startsWith')"))
  | _ => .error (.typeError (units "content.uri.startsWith is not a function"))

/-- `Object.entries(headers)`. -/
def replaySource (headers : Value) : Except Thrown (List (Units × Value)) :=
  match headers with
  | .undefined => .error (.typeError (units "Cannot convert undefined or null to object"))
  | .null => .error (.typeError (units "Cannot convert undefined or null to object"))
  | headers => .ok (objectEntries headers)

/-- `(method || 'GET').toUpperCase()`. -/
def replayMethod (method : Value) : Except Thrown Units :=
  if isFalsy method then .ok (platform.toUpperCase (units "GET"))
  else
    match method with
    | .string text => .ok (platform.toUpperCase text)
    | _ => .error (.typeError (units "(content.method || \"GET\").toUpperCase is not a function"))

/-- What the first part of the function makes of the content. -/
structure Prepared where
  path : Units
  headers : Headers
  method : Units
  payload : Value

def prepare (content : Value) : Except Thrown Prepared := do
  let uri <- readProperty content (units "uri")
  let path <- replayPath uri
  let source <- replaySource (content.get (units "headers"))
  let method <- replayMethod platform (content.get (units "method"))
  pure ⟨path, buildReplayHeaders platform source, method, content.get (units "payload")⟩

def Prepared.hasBody (prepared : Prepared) : Bool :=
  decide (prepared.method ≠ units "GET") && decide (prepared.method ≠ units "HEAD") &&
    (match prepared.payload with
      | .undefined => false
      | .null => false
      | _ => true)

/-- The call that a replay is about to make; the error of a payload that cannot be written. -/
def Prepared.call (port : Number) (prepared : Prepared) : Except Units FetchCall :=
  let url := units "http://127.0.0.1:" ++ port.text ++ prepared.path
  if prepared.hasBody then
    (serializePayload platform prepared.payload).map fun body =>
      ⟨url, prepared.method, payloadHeaders platform prepared.payload prepared.headers, body⟩
  else .ok ⟨url, prepared.method, prepared.headers, none⟩

/-- What a failed call is reported as. -/
def failedReplay (durationMs : Rat) (error : Thrown) : Except Thrown ReplayResult :=
  error.describe.map fun message => ⟨.finite 0, durationMs, [], some message⟩

def replayRequest (content request : Value) (durationMs : Rat) : Replay :=
  let port := resolveLocalPort platform request
  match prepare platform content with
  | .error thrown => ⟨[], .error thrown⟩
  | .ok prepared =>
      match prepared.call platform port with
      | .error message => ⟨[], failedReplay durationMs (.typeError message)⟩
      | .ok call =>
          match platform.fetch call with
          | .error error => ⟨[call], failedReplay durationMs error⟩
          | .ok response =>
              ⟨[call], .ok ⟨response.status, durationMs, response.text.take REPLAY_BODY_CAP, none⟩⟩

end Nest
end Telescope

namespace Telescope
namespace Nest

open Alerts (Thrown)
open Capture (isFalsy objectEntries)

/-!
# Where a replay goes

The text before the path is `http://127.0.0.1:` and the text of a number, so that no path
changes the host. A header is sent under a name in any letter case; the names are compared
as the receiver compares them.
-/

/-! ## The host -/

/-- A unit that ends the authority of an `http` address. -/
def endsAuthority (unit : Text.CodeUnit) : Bool :=
  decide (unit.val = 47 ∨ unit.val = 92 ∨ unit.val = 63 ∨ unit.val = 35)

/-- A unit that is left out of an address before it is read: a tab or a line break. -/
def isSkipped (unit : Text.CodeUnit) : Bool := decide (unit.val = 9 ∨ unit.val = 10 ∨ unit.val = 13)

/-- The host of an `http` address: what stands between the two slashes and the end of the
authority, without credentials and without a port. -/
def addressHost (url : Units) : Units :=
  let authority := ((url.filter fun unit => !isSkipped unit).drop (units "http://").length).takeWhile fun unit =>
    !endsAuthority unit
  let location := (authority.reverse.takeWhile fun unit => decide (unit.val ≠ 64)).reverse
  location.takeWhile fun unit => decide (unit.val ≠ 58)

def LOOPBACK : Units := units "127.0.0.1"

theorem not_skipped_of_isTextUnit {unit : Text.CodeUnit} (isText : Number.IsTextUnit unit) : isSkipped unit = false := by
  refine decide_eq_false fun skipped => ?_
  rw [Number.IsTextUnit] at isText
  omega

theorem not_endsAuthority_of_isTextUnit {unit : Text.CodeUnit} (isText : Number.IsTextUnit unit) :
    endsAuthority unit = false := by
  refine decide_eq_false fun ends => ?_
  rw [Number.IsTextUnit] at isText
  omega

/-- The host is the one the address is built with, whatever the port and the path. -/
theorem addressHost_replay (port : Number) {path : Units} (slash : Exists fun rest => path = units "/" ++ rest) :
    addressHost (units "http://127.0.0.1:" ++ port.text ++ path) = LOOPBACK := by
  rcases slash with ⟨rest, rfl⟩
  have isText := Number.isTextUnit_text port
  have keepsPort : (port.text.filter fun unit => !isSkipped unit) = port.text := by
    refine List.filter_eq_self.mpr fun unit member => ?_
    rw [not_skipped_of_isTextUnit (isText unit member)]
    rfl
  have keepsSlash : ((units "/" ++ rest).filter fun unit => !isSkipped unit) =
      units "/" ++ rest.filter fun unit => !isSkipped unit := by
    rw [List.filter_append]
    exact congrArg (· ++ _) (by decide +kernel)
  have cleaned : ((units "http://127.0.0.1:" ++ port.text ++ (units "/" ++ rest)).filter fun unit => !isSkipped unit).drop
      (units "http://").length =
        (LOOPBACK ++ units ":" ++ port.text) ++ (units "/" ++ rest.filter fun unit => !isSkipped unit) := by
    rw [List.filter_append, List.filter_append, keepsPort, keepsSlash]
    rfl
  have plain : forall unit, unit ∈ LOOPBACK ++ units ":" ++ port.text ->
      endsAuthority unit = false ∧ unit.val ≠ 64 := by
    intro unit member
    rcases List.mem_append.mp member with isFixed | isPort
    · have fixed : ((LOOPBACK ++ units ":").all fun unit =>
          decide (endsAuthority unit = false ∧ unit.val ≠ 64)) = true := by decide +kernel
      exact of_decide_eq_true (List.all_eq_true.mp fixed unit isFixed)
    · have textUnit := isText unit isPort
      refine ⟨not_endsAuthority_of_isTextUnit textUnit, fun isAt => ?_⟩
      rw [Number.IsTextUnit] at textUnit
      omega
  have authority : (((LOOPBACK ++ units ":" ++ port.text) ++ (units "/" ++ rest.filter fun unit => !isSkipped unit)).takeWhile
      fun unit => !endsAuthority unit) = LOOPBACK ++ units ":" ++ port.text := by
    rw [List.takeWhile_append_of_pos]
    · exact List.append_nil _
    · intro unit member
      rw [(plain unit member).1]
      rfl
  have located : ((LOOPBACK ++ units ":" ++ port.text).reverse.takeWhile fun unit => decide (unit.val ≠ 64)) =
      (LOOPBACK ++ units ":" ++ port.text).reverse := by
    refine List.takeWhile_eq_self_iff.mpr fun unit member => ?_
    exact decide_eq_true (plain unit (List.mem_reverse.mp member)).2
  rw [addressHost, cleaned, authority, located, List.reverse_reverse]
  rfl

/-! ## The headers -/

/-- The texts that are sent under a name, in whatever letter case it is written. -/
def sentValues (headers : Headers) (name : Units) : List Units :=
  (headers.filter fun header => decide (Units.toLowerAscii header.1 = name)).map Prod.snd

variable {headers : Headers} {name : Units}

theorem mem_sentValues {header : Units × Units} (member : header ∈ headers)
    (isName : Units.toLowerAscii header.1 = name) :
    header ∈ headers.filter fun header => decide (Units.toLowerAscii header.1 = name) :=
  List.mem_filter.mpr ⟨member, decide_eq_true isName⟩

/-- No header is sent under a name exactly when no name is one of its spellings. -/
theorem sentValues_eq_nil (absent : forall header, header ∈ headers -> Units.toLowerAscii header.1 ≠ name) :
    sentValues headers name = [] := by
  refine List.map_eq_nil_iff.mpr (List.filter_eq_nil_iff.mpr fun header member isName => ?_)
  exact absent header member (of_decide_eq_true isName)

/-- One text is sent under a name exactly when the headers have no other spelling of it. -/
theorem sentValues_eq_singleton_iff (distinct : (headers.map Prod.fst).Nodup) {value : Units}
    (own : Units.toLowerAscii name = name) (isSent : (name, value) ∈ headers) :
    sentValues headers name = [value] <->
      forall header, header ∈ headers -> Units.toLowerAscii header.1 = name -> header.1 = name := by
  have kept := mem_sentValues isSent own
  constructor
  · intro single header member isName
    rw [sentValues, List.map_eq_singleton_iff] at single
    rcases single with ⟨only, isOnly, _isValue⟩
    have inFilter := mem_sentValues member isName
    rw [isOnly, List.mem_singleton] at inFilter kept
    rw [inFilter, ← kept]
  · intro spelled
    have same : forall header, header ∈ (headers.filter fun header =>
        decide (Units.toLowerAscii header.1 = name)) -> header = (name, value) := by
      intro header member
      rcases List.mem_filter.mp member with ⟨inHeaders, isName⟩
      exact List.inj_on_of_nodup_map distinct inHeaders isSent (spelled header inHeaders (of_decide_eq_true isName))
    have replicated := List.eq_replicate_of_mem same
    have once : (headers.filter fun header => decide (Units.toLowerAscii header.1 = name)).length ≤ 1 := by
      have nodup := (List.Nodup.of_map Prod.fst distinct).filter fun header =>
        decide (Units.toLowerAscii header.1 = name)
      rw [replicated] at nodup
      exact List.nodup_replicate.mp nodup
    have some := List.length_pos_of_mem kept
    have one : (headers.filter fun header => decide (Units.toLowerAscii header.1 = name)).length = 1 := by omega
    rw [sentValues, replicated, one]
    rfl

variable {source : List (Units × Value)}

section Build

variable {platform : Platform}

theorem nodup_assignHeaders (distinct : (headers.map Prod.fst).Nodup) (assigned : Headers) :
    ((assignHeaders headers assigned).map Prod.fst).Nodup := by
  induction assigned generalizing headers with
  | nil => exact distinct
  | cons header assigned inductionHypothesis => exact inductionHypothesis (Fields.nodup_assign distinct _ _)

theorem mem_assignHeaders {assigned : Headers} {header : Units × Units}
    (member : header ∈ assignHeaders headers assigned) : header ∈ headers ∨ header ∈ assigned := by
  induction assigned generalizing headers with
  | nil => exact .inl member
  | cons first assigned inductionHypothesis =>
      rcases inductionHypothesis member with before | later
      · rcases Fields.mem_assign before with isFirst | ⟨inHeaders, _different⟩
        · exact .inr (List.mem_cons.mpr (.inl isFirst))
        · exact .inl inHeaders
      · exact .inr (List.mem_cons_of_mem _ later)

theorem mem_names_assignHeaders {assigned : Headers} :
    name ∈ (assignHeaders headers assigned).map Prod.fst <->
      name ∈ headers.map Prod.fst ∨ (name ∈ assigned.map Prod.fst ∧ name ≠ units "__proto__") := by
  induction assigned generalizing headers with
  | nil => exact ⟨Or.inl, fun either => either.elim (fun before => before) fun both => absurd both.1 List.not_mem_nil⟩
  | cons first assigned inductionHypothesis =>
      rw [assignHeaders, List.foldl_cons, ← assignHeaders, inductionHypothesis, Fields.mem_names_assign, List.map_cons,
        List.mem_cons, or_assoc]
      refine or_congr_right ⟨fun either => ?_, fun both => ?_⟩
      · rcases either with ⟨isFirst, ordinary⟩ | ⟨later, ordinary⟩
        · exact ⟨.inl isFirst, isFirst ▸ ordinary⟩
        · exact ⟨.inr later, ordinary⟩
      · rcases both.1 with isFirst | later
        · exact .inl ⟨isFirst, isFirst ▸ both.2⟩
        · exact .inr ⟨later, both.2⟩

/-- What holds of the headers of a replay, with or without a payload. -/
structure Built (platform : Platform) (source : List (Units × Value)) (headers : Headers) : Prop where
  distinct : (headers.map Prod.fst).Nodup
  marked : (REPLAY_HEADER, units "1") ∈ headers
  from_source : forall header, header ∈ headers -> header ∈ source.filterMap (replayHeader platform) ∨
    header.1 = REPLAY_HEADER ∨ header.1 = units "content-type"
  names : forall name, name ∈ (source.filterMap (replayHeader platform)).map Prod.fst ->
    name ≠ units "__proto__" -> name ∈ headers.map Prod.fst

theorem built_replayHeaders (source : List (Units × Value)) :
    Built platform source (buildReplayHeaders platform source) where
  distinct := Fields.nodup_assign (@nodup_assignHeaders [] List.nodup_nil _) _ _
  marked := Fields.mem_assign_self _ (by decide +kernel) _
  from_source header member := by
    rcases Fields.mem_assign member with isMark | ⟨inHeaders, _different⟩
    · exact .inr (.inl (congrArg Prod.fst isMark))
    · exact .inl ((mem_assignHeaders inHeaders).resolve_left List.not_mem_nil)
  names name inSource ordinary :=
    Fields.mem_names_assign.mpr (.inl (mem_names_assignHeaders.mpr (.inr ⟨inSource, ordinary⟩)))

theorem Built.payloadHeaders (built : Built platform source headers) (payload : Value) :
    Built platform source (payloadHeaders platform payload headers) := by
  have typed : Built platform source (Fields.assign headers (units "content-type") (units "application/json")) := by
    have distinct := Fields.nodup_assign built.distinct (units "content-type") (units "application/json")
    refine ⟨distinct, ?_, fun header member => ?_, fun name inSource ordinary => ?_⟩
    · have isName : REPLAY_HEADER ∈
          (Fields.assign headers (units "content-type") (units "application/json")).map Prod.fst :=
        Fields.mem_names_assign.mpr (.inl (List.mem_map_of_mem built.marked))
      rcases List.mem_map.mp isName with ⟨header, member, same⟩
      rcases Fields.mem_assign member with isType | ⟨inHeaders, _different⟩
      · rw [isType] at same
        exact absurd same (by decide +kernel)
      · rwa [List.inj_on_of_nodup_map built.distinct inHeaders built.marked same] at member
    · rcases Fields.mem_assign member with isType | ⟨inHeaders, _different⟩
      · exact .inr (.inr (congrArg Prod.fst isType))
      · exact built.from_source header inHeaders
    · exact Fields.mem_names_assign.mpr (.inl (built.names name inSource ordinary))
  rw [Nest.payloadHeaders.eq_def]
  split
  · exact built
  · split
    · exact built
    · exact typed

/-- A text whose lower case is in ASCII is in ASCII itself. -/
theorem lt_of_mem_toLowerAscii {text : Units} (ascii : forall unit, unit ∈ Units.toLowerAscii text -> unit.val < 128)
    (unit : Text.CodeUnit) (member : unit ∈ text) : unit.val < 128 := by
  have lowered := ascii _ (List.mem_map_of_mem member)
  split at lowered
  · omega
  · exact lowered

/-- On the names that matter the program's lower case is that of the receiver. -/
theorem toLowerCase_of_toLowerAscii {text : Units} (isName : Units.toLowerAscii text = name)
    (ascii : (name.all fun unit => decide (unit.val < 128)) = true) : platform.toLowerCase text = name := by
  rw [platform.lower_ascii text, isName]
  refine lt_of_mem_toLowerAscii fun unit member => ?_
  rw [isName] at member
  exact of_decide_eq_true (List.all_eq_true.mp ascii unit member)

theorem Built.sentValues_stripped (built : Built platform source headers)
    (isStripped : name ∈ REPLAY_STRIPPED_HEADERS) :
    sentValues headers name = [] := by
  have fixed : forall name, name ∈ REPLAY_STRIPPED_HEADERS ->
      Units.toLowerAscii REPLAY_HEADER ≠ name ∧ Units.toLowerAscii (units "content-type") ≠ name ∧
        (name.all fun unit => decide (unit.val < 128)) = true := by decide +kernel
  rcases fixed name isStripped with ⟨notMark, notType, ascii⟩
  refine sentValues_eq_nil fun header member isName => ?_
  rcases built.from_source header member with inSource | isMark | isType
  · rcases List.mem_filterMap.mp inSource with ⟨field, _inFields, kept⟩
    rw [replayHeader] at kept
    split at kept
    · cases kept
    · rename_i allowed
      rcases Option.map_eq_some_iff.mp kept with ⟨text, _isText, rfl⟩
      refine allowed ?_
      rw [toLowerCase_of_toLowerAscii isName ascii]
      exact isStripped
  · exact notMark (isMark ▸ isName)
  · exact notType (isType ▸ isName)

/-- No header with a text is the mark of a replay in another letter case. -/
def Spelled (source : List (Units × Value)) : Prop :=
  forall header, header ∈ source -> (headerText header.2).isSome -> Units.toLowerAscii header.1 = REPLAY_HEADER ->
    header.1 = REPLAY_HEADER

theorem Built.sentValues_mark (built : Built platform source headers) :
    sentValues headers REPLAY_HEADER = [units "1"] <-> Spelled source := by
  rw [sentValues_eq_singleton_iff built.distinct (by decide +kernel) built.marked]
  constructor
  · intro spelled header member hasText isMark
    rcases Option.isSome_iff_exists.mp hasText with ⟨text, isText⟩
    have kept : replayHeader platform header = some (header.1, text) := by
      have lower : platform.toLowerCase header.1 = REPLAY_HEADER :=
        toLowerCase_of_toLowerAscii isMark (by decide +kernel)
      rw [replayHeader, lower, if_neg (by decide +kernel), isText]
      rfl
    have ordinary : header.1 ≠ units "__proto__" := by
      intro isPrototype
      rw [isPrototype] at isMark
      exact absurd isMark (by decide +kernel)
    have inNames := built.names header.1
      (List.mem_map.mpr ⟨(header.1, text), List.mem_filterMap.mpr ⟨header, member, kept⟩, rfl⟩) ordinary
    rcases List.mem_map.mp inNames with ⟨sent, isSent, same⟩
    rw [← same] at isMark ⊢
    exact spelled sent isSent isMark
  · intro spelled header member isMark
    rcases built.from_source header member with inSource | isOwn | isType
    · rcases List.mem_filterMap.mp inSource with ⟨field, inFields, kept⟩
      rw [replayHeader] at kept
      split at kept
      · cases kept
      · rcases Option.map_eq_some_iff.mp kept with ⟨text, isText, rfl⟩
        exact spelled field inFields (by rw [isText]; rfl) isMark
    · exact isOwn
    · rw [isType] at isMark
      exact absurd isMark (by decide +kernel)

end Build

/-! ## The replay -/

/-- A replay settles, goes to the local host, is marked as a replay and carries none of the
stripped headers. -/
structure Confined (replay : Replay) : Prop where
  settles : Exists fun result => replay.outcome = .ok result
  host : forall call, call ∈ replay.sent -> addressHost call.url = LOOPBACK
  marked : forall call, call ∈ replay.sent -> sentValues call.headers REPLAY_HEADER = [units "1"]
  stripped : forall call, call ∈ replay.sent -> forall name, name ∈ REPLAY_STRIPPED_HEADERS ->
    sentValues call.headers name = []

/-- The content has a uri, headers and a method that a request can have. -/
structure WellFormed (content : Value) : Prop where
  uri : Exists fun text => content.get (units "uri") = .string text
  headers : content.get (units "headers") ≠ .undefined ∧ content.get (units "headers") ≠ .null
  method : isFalsy (content.get (units "method")) = true ∨ Exists fun text => content.get (units "method") = .string text

/-- `JSON.stringify` throws on the payload of a request that has one. -/
def Unwritable (platform : Platform) (content : Value) : Prop :=
  Exists fun prepared => prepare platform content = .ok prepared ∧ prepared.hasBody = true ∧
    Exists fun message => serializePayload platform (content.get (units "payload")) = .error message

section Run

variable {platform : Platform} {content request : Value} {durationMs : Rat}

theorem replayPath_eq_ok {uri : Value} {path : Units} :
    replayPath uri = .ok path -> Exists (fun text => uri = .string text) ∧ Exists fun rest => path = units "/" ++ rest := by
  intro isPath
  cases uri with
  | string text =>
      rw [replayPath, Except.ok.injEq] at isPath
      refine ⟨⟨text, rfl⟩, ?_⟩
      split at isPath
      · rename_i begins
        rcases List.isPrefixOf_iff_prefix.mp begins with ⟨rest, isText⟩
        exact ⟨rest, isPath.symm.trans isText.symm⟩
      · exact ⟨text, isPath.symm⟩
  | _ => cases isPath

theorem replaySource_eq_ok {headers : Value} :
    replaySource headers = .ok source <->
      (headers ≠ .undefined ∧ headers ≠ .null) ∧ source = objectEntries headers := by
  rw [replaySource.eq_def]
  split
  · exact ⟨fun isSource => (by cases isSource), fun both => absurd rfl both.1.1⟩
  · exact ⟨fun isSource => (by cases isSource), fun both => absurd rfl both.1.2⟩
  · rename_i notUndefined notNull
    rw [Except.ok.injEq]
    exact ⟨fun same => ⟨⟨notUndefined, notNull⟩, same.symm⟩, fun both => both.2.symm⟩

theorem replayMethod_eq_ok {method : Value} :
    Exists (fun text => replayMethod platform method = .ok text) <->
      isFalsy method = true ∨ Exists fun text => method = .string text := by
  rw [replayMethod.eq_def]
  split
  · rename_i falsy
    exact ⟨fun _ => .inl falsy, fun _ => ⟨_, rfl⟩⟩
  · rename_i truthy
    split
    · rename_i text
      exact ⟨fun _ => .inr ⟨text, rfl⟩, fun _ => ⟨_, rfl⟩⟩
    · rename_i notString
      constructor
      · exact fun isMethod => isMethod.elim fun text same => by cases same
      · rintro (falsy | ⟨text, isString⟩)
        · exact absurd falsy truthy
        · exact absurd isString (notString text)

theorem readProperty_eq_ok {value : Value} (isValue : readProperty content name = .ok value) :
    value = content.get name := by
  cases content with
  | undefined => cases isValue
  | null => cases isValue
  | _ => exact (Except.ok.inj isValue).symm

theorem readProperty_of_string {text : Units} (isString : content.get name = .string text) :
    readProperty content name = .ok (.string text) := by
  rw [readProperty.eq_def]
  split
  · cases (rfl : Value.undefined = Value.undefined.get name).trans isString
  · cases (rfl : Value.undefined = Value.null.get name).trans isString
  · exact congrArg Except.ok isString

variable {prepared : Prepared}

/-- The first part of the function goes through exactly on a well formed content. -/
theorem prepare_eq_ok (isPrepared : prepare platform content = .ok prepared) :
    WellFormed content ∧ Exists (fun rest => prepared.path = units "/" ++ rest) ∧
      prepared.headers = buildReplayHeaders platform (objectEntries (content.get (units "headers"))) ∧
      prepared.payload = content.get (units "payload") := by
  simp only [prepare, Elementwise.bind_eq_ok_iff] at isPrepared
  rcases isPrepared with ⟨uri, isUri, path, isPath, source, isSource, method, isMethod, same⟩
  rw [readProperty_eq_ok isUri] at isPath
  rcases replayPath_eq_ok isPath with ⟨isString, slash⟩
  rcases replaySource_eq_ok.mp isSource with ⟨present, rfl⟩
  cases same
  exact ⟨⟨isString, present, replayMethod_eq_ok.mp ⟨method, isMethod⟩⟩, slash, rfl, rfl⟩

theorem WellFormed.exists_prepared (wellFormed : WellFormed content) :
    Exists fun prepared => prepare platform content = .ok prepared := by
  rcases wellFormed.uri with ⟨text, isUri⟩
  rcases (@replayMethod_eq_ok platform _).mpr wellFormed.method with ⟨method, isMethod⟩
  have isRead := readProperty_of_string isUri
  have hasPath : Exists fun path => replayPath (.string text) = .ok path := ⟨_, rfl⟩
  rcases hasPath with ⟨path, isPath⟩
  have isSource := replaySource_eq_ok.mpr ⟨wellFormed.headers, rfl⟩
  refine ⟨⟨path, buildReplayHeaders platform (objectEntries (content.get (units "headers"))), method,
    content.get (units "payload")⟩, ?_⟩
  simp only [prepare, Elementwise.bind_eq_ok_iff]
  exact ⟨.string text, isRead, path, isPath, _, isSource, method, isMethod, rfl⟩

theorem failedReplay_eq_ok {error : Thrown} (described : Exists fun text => error.describe = .ok text) :
    Exists fun result => failedReplay durationMs error = .ok result := by
  rcases described with ⟨text, isText⟩
  rw [failedReplay, isText]
  exact ⟨_, rfl⟩

/-- A replay whose content lets it come to a call makes that one call, and settles. -/
theorem replayRequest_of_call {call : FetchCall} (isPrepared : prepare platform content = .ok prepared)
    (isCall : prepared.call platform (resolveLocalPort platform request) = .ok call) :
    (replayRequest platform content request durationMs).sent = [call] ∧
      Exists fun result => (replayRequest platform content request durationMs).outcome = .ok result := by
  simp only [replayRequest, isPrepared, isCall]
  cases isFetched : platform.fetch call with
  | ok response => exact ⟨rfl, _, rfl⟩
  | error error => exact ⟨rfl, failedReplay_eq_ok (platform.described call error isFetched)⟩

theorem replayRequest_of_unwritable {message : Units} (isPrepared : prepare platform content = .ok prepared)
    (isCall : prepared.call platform (resolveLocalPort platform request) = .error message) :
    (replayRequest platform content request durationMs).sent = [] ∧
      Exists fun result => (replayRequest platform content request durationMs).outcome = .ok result := by
  simp only [replayRequest, isPrepared, isCall]
  exact ⟨trivial, _, rfl⟩

/-- What a call is built of. -/
theorem call_spec {port : Number} {call : FetchCall} (slash : Exists fun rest => prepared.path = units "/" ++ rest)
    (built : Built platform source prepared.headers) (isCall : prepared.call platform port = .ok call) :
    addressHost call.url = LOOPBACK ∧ Built platform source call.headers := by
  rw [Prepared.call] at isCall
  split at isCall
  · cases isBody : serializePayload platform prepared.payload with
    | error message =>
        rw [isBody] at isCall
        cases isCall
    | ok body =>
        rw [isBody] at isCall
        cases isCall
        exact ⟨addressHost_replay port slash, built.payloadHeaders prepared.payload⟩
  · cases isCall
    exact ⟨addressHost_replay port slash, built⟩

theorem call_eq_error_iff {port : Number} :
    Exists (fun message => prepared.call platform port = .error message) <->
      prepared.hasBody = true ∧ Exists fun message => serializePayload platform prepared.payload = .error message := by
  rw [Prepared.call]
  split
  · rename_i hasBody
    rw [and_iff_right hasBody]
    cases serializePayload platform prepared.payload with
    | error message => exact ⟨fun _ => ⟨message, rfl⟩, fun _ => ⟨message, rfl⟩⟩
    | ok body =>
        exact ⟨fun failed => failed.elim fun _ same => (by cases same),
          fun failed => failed.elim fun _ same => (by cases same)⟩
  · rename_i noBody
    exact ⟨fun failed => failed.elim fun _ same => (by cases same), fun both => absurd both.1 noBody⟩

/-- A replay is confined exactly when its content has the parts of a request, and no header
of it is the mark in another letter case, unless the payload keeps it from being sent. -/
theorem confined_iff (platform : Platform) (content request : Value) (durationMs : Rat) :
    Confined (replayRequest platform content request durationMs) <->
      WellFormed content ∧
        (¬ Unwritable platform content -> Spelled (objectEntries (content.get (units "headers")))) := by
  cases isPrepared : prepare platform content with
  | error thrown =>
      have outcome : (replayRequest platform content request durationMs).outcome = .error thrown := by
        simp only [replayRequest, isPrepared]
      constructor
      · intro confined
        rcases confined.settles with ⟨result, isResult⟩
        cases outcome.symm.trans isResult
      · intro both
        rcases @WellFormed.exists_prepared platform _ both.1 with ⟨prepared, isOk⟩
        cases isPrepared.symm.trans isOk
  | ok prepared =>
      rcases prepare_eq_ok isPrepared with ⟨wellFormed, slash, isHeaders, isPayload⟩
      have built : Built platform (objectEntries (content.get (units "headers"))) prepared.headers :=
        isHeaders ▸ built_replayHeaders _
      rw [and_iff_right wellFormed]
      cases isCall : prepared.call platform (resolveLocalPort platform request) with
      | error message =>
          rcases @replayRequest_of_unwritable platform content request durationMs _ _ isPrepared isCall with ⟨none, settles⟩
          rcases call_eq_error_iff.mp ⟨message, isCall⟩ with ⟨hasBody, fails⟩
          have unwritable : Unwritable platform content := ⟨prepared, isPrepared, hasBody, isPayload ▸ fails⟩
          refine ⟨fun _ written => absurd unwritable written, fun _ => ⟨settles, ?_, ?_, ?_⟩⟩ <;>
            · rw [none]
              exact fun _call member => (by cases member)
      | ok call =>
          rcases @replayRequest_of_call platform content request durationMs _ _ isPrepared isCall with ⟨sent, settles⟩
          rcases call_spec slash built isCall with ⟨isHost, called⟩
          have written : ¬ Unwritable platform content := by
            rintro ⟨other, isOther, hasBody, fails⟩
            cases isPrepared.symm.trans isOther
            rw [← isPayload] at fails
            rcases call_eq_error_iff.mpr ⟨hasBody, fails⟩ with ⟨message, isError⟩
            cases isCall.symm.trans isError
          rw [imp_iff_right written, ← called.sentValues_mark]
          have isSent : call ∈ (replayRequest platform content request durationMs).sent := by
            rw [sent]
            exact List.mem_singleton_self call
          refine ⟨fun confined => confined.marked call isSent, fun marked => ?_⟩
          refine ⟨settles, ?_, ?_, ?_⟩ <;> rw [sent] <;> intro other member <;> cases List.mem_singleton.mp member
          · exact isHost
          · exact marked
          · exact fun name isStripped => called.sentValues_stripped isStripped

end Run

/-! ## Captured contents -/

/-- An engine around it that has no port and whose calls all fail. -/
def plainPlatform : Platform where
  toLowerCase := Units.toLowerAscii
  lower_ascii _text _ascii := rfl
  toUpperCase text := text
  toNumber _text := .nan
  stringify _value := .ok none
  environmentPort := none
  fetch _call := .error (.typeError (units "fetch failed"))
  described _call _error failed := ⟨units "fetch failed", by cases failed; rfl⟩

def threeNodes : Redaction.RedactOptions where
  maxNodes := some 3

def homeRequest : Capture.NormalizedRequest where
  method := units "GET"
  url := units "/"
  headers := .object []
  ip := none

/-- Of a request that is kept within three nodes the headers are missing, and the replay rejects. -/
theorem cut_content_not_confined :
    ¬ forall (platform : Platform) (options : Redaction.RedactOptions) (captured : Capture.NormalizedRequest)
        (headers payload user statusCode request : Value) (durationMs : Rat),
      Confined (replayRequest platform
        (Redaction.redactBounded platform.toLowerCase options
          (Capture.requestContent captured headers payload user statusCode)).value request durationMs) := by
  intro all
  rcases (all plainPlatform threeNodes homeRequest (.object []) .null .null .null .null 0).settles with
    ⟨result, settled⟩
  have rejected : (replayRequest plainPlatform
      (Redaction.redactBounded plainPlatform.toLowerCase threeNodes
        (Capture.requestContent homeRequest (.object []) .null .null .null)).value .null 0).outcome =
        .error (.typeError (units "Cannot convert undefined or null to object")) := by
    rfl
  cases rejected.symm.trans settled

end Nest
end Telescope
