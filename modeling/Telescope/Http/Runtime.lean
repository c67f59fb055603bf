import Mathlib.Data.List.Infix
import Telescope.Core.Value
import Telescope.Foundation.Cut
import Telescope.Foundation.Spacing

namespace Telescope
namespace Http

/-!
# URLs

`new URL(text)` without a base, and the parts of a URL that are read and changed.  The
text is cleaned of controls and line breaks, and cut at its first `#` and then at its
first `?`.  How a platform parses what stands in front of these, and how it encodes and
decodes characters, is not fixed here.
-/

def HASH : Text.CodeUnit := 35

def AMPERSAND : Text.CodeUnit := 38

def EQUALS : Text.CodeUnit := 61

def AT : Text.CodeUnit := 64

def SLASH : Text.CodeUnit := 47

def BACKSLASH : Text.CodeUnit := 92

def QUESTION_MARK : Text.CodeUnit := 63

/-! ## The platform -/

/-- What stands in front of the query and the fragment. -/
structure Site where
  protocol : Units
  username : Units
  password : Units
  host : Option Units
  pathname : Units
  deriving DecidableEq

/-- How the platform reads and writes the parts of a URL. -/
structure Web where
  /-- `toUpperCase` -/
  upperCase : Units -> Units
  site : Units -> Option Site
  /-- How a query is encoded under a protocol. -/
  encodeQuery : Units -> Units -> Units
  encodeFragment : Units -> Units
  /-- The name or the value that a part of a query stands for. -/
  decode : Units -> Units
  /-- How a name or a value is written into a query. -/
  encode : Units -> Units

structure Url where
  site : Site
  query : Option Units
  parameters : List (Units × Units)
  fragment : Option Units
  deriving DecidableEq

/-- The controls and the space. -/
def isControl (unit : Text.CodeUnit) : Bool := decide (unit.val ≤ 32)

/-- No tabulator and no line break. -/
def stays (unit : Text.CodeUnit) : Bool := !decide (unit.val ∈ [9, 10, 13])

def clean (text : Units) : Units := (Spacing.trim isControl text).filter stays

namespace Web

/-- The parameters of a query: its parts but the empty ones, each cut at its first `=`. -/
def readParameters (web : Web) (query : Units) : List (Units × Units) :=
  ((query.splitOn AMPERSAND).filter fun part => !part.isEmpty).map fun part =>
    (web.decode (cutAt EQUALS part).1, web.decode ((cutAt EQUALS part).2.getD []))

/-- Encoding a query changes neither where it is cut nor what its parts stand for, so that
the parameters are read before it. -/
def parse (web : Web) (text : Units) : Option Url :=
  let beforeFragment := cutAt HASH (clean text)
  let beforeQuery := cutAt QUESTION_MARK beforeFragment.1
  (web.site beforeQuery.1).map fun site =>
    { site := site
      query := beforeQuery.2.map (web.encodeQuery site.protocol)
      parameters := beforeQuery.2.elim [] web.readParameters
      fragment := beforeFragment.2.map web.encodeFragment }

/-- `searchParams.toString()`. -/
def serialize (web : Web) (parameters : List (Units × Units)) : Units :=
  [AMPERSAND].intercalate (parameters.map fun parameter =>
    web.encode parameter.1 ++ EQUALS :: web.encode parameter.2)

end Web

theorem serialize_cons_cons {web : Web} (parameter other : Units × Units) (parameters : List (Units × Units)) :
    web.serialize (parameter :: other :: parameters) =
      (web.encode parameter.1 ++ EQUALS :: web.encode parameter.2) ++ AMPERSAND :: web.serialize (other :: parameters) := by
  rw [Web.serialize, List.map_cons, List.map_cons, List.intercalate_cons_cons, List.append_assoc]
  rfl

theorem isEmpty_serialize (web : Web) (parameters : List (Units × Units)) :
    (web.serialize parameters).isEmpty = parameters.isEmpty := by
  cases parameters with
  | nil => rfl
  | cons parameter parameters =>
      have notEmpty (rest : Units) : web.encode parameter.1 ++ EQUALS :: web.encode parameter.2 ++ rest ≠ [] :=
        List.append_ne_nil_of_left_ne_nil (List.append_ne_nil_of_right_ne_nil _ (List.cons_ne_nil _ _)) rest
      refine List.isEmpty_eq_false_iff.mpr ?_
      cases parameters with
      | nil =>
          rw [Web.serialize, List.map_singleton, List.intercalate_singleton, <- List.append_nil (_ ++ _)]
          exact notEmpty []
      | cons other parameters =>
          rw [serialize_cons_cons]
          exact notEmpty _

/-! ## Writing -/

namespace Site

/-- `username = ''` and `password = ''`. -/
def withoutCredentials (site : Site) : Site := { site with username := [], password := [] }

def credentials (site : Site) : Units :=
  if site.username.isEmpty && site.password.isEmpty then []
  else site.username ++ (if site.password.isEmpty then [] else units ":" ++ site.password) ++ [AT]

def text (site : Site) : Units :=
  site.protocol ++
    (match site.host with
      | none => if (units "//").isPrefixOf site.pathname then units "/." else []
      | some host => units "//" ++ site.credentials ++ host) ++
    site.pathname

end Site

namespace Url

/-- `url.host`. -/
def host (url : Url) : Units := url.site.host.getD []

def withoutCredentials (url : Url) : Url := { url with site := url.site.withoutCredentials }

/-- `url.toString()`. -/
def href (url : Url) : Units :=
  url.site.text ++ marked QUESTION_MARK url.query ++ marked HASH url.fragment

/-- `searchParams.set(name, value)`, on the parameters: the first one of that name takes
the value, and the others go. -/
def setParameter (parameters : List (Units × Units)) (name value : Units) : List (Units × Units) :=
  match parameters with
  | [] => [(name, value)]
  | parameter :: rest =>
      if parameter.1 = name then (name, value) :: rest.filter fun other => !decide (other.1 = name)
      else parameter :: setParameter rest name value

/-- `url.searchParams.set(name, value)`. -/
def setSearchParam (web : Web) (url : Url) (name value : Units) : Url :=
  let parameters := setParameter url.parameters name value
  let query := web.serialize parameters
  { url with parameters := parameters, query := if query.isEmpty then none else some query }

end Url
end Http
end Telescope

namespace Telescope
namespace Http

/-!
# Runtime values

What a host passes to a hook need not have the declared type.  A value is looked at here
as the hooks do: by its properties, by the methods that they call on it and by its
conversions, any of which may throw.  An object without a prototype has no conversions,
and neither has a symbol; of a value that is thrown, only the text matters that a handler
can make of it.
-/

/-- A thrown value: its text, unless making it throws again. -/
structure Thrown where
  message : Option Units
  deriving DecidableEq

abbrev Attempt (α : Type) := Except Thrown α

/-- The error of a conversion or a call that the value has not. -/
def typeError : Thrown := { message := some (units "TypeError") }

/-- The methods that are called on values. -/
inductive Method
  | toUpperCase
  /-- `replace(/\/+$/, '')` -/
  | dropSlashesAtEnd
  /-- `replace(/^\/+/, '')` -/
  | dropSlashesAtStart
  /-- `includes('?')` -/
  | includesQuestionMark
  /-- `indexOf`, `slice` and `split`, in order to find the path of a URL -/
  | path
  deriving DecidableEq

/-- An object or a function: its properties, its conversions and its methods. -/
structure HostObject (ρ : Type) where
  identity : Nat
  callable : Bool
  /-- The prototype is that of object literals, or there is none. -/
  plain : Bool
  own : List (Units × ρ)
  inherited : List (Units × ρ)
  /-- The string that it converts to. -/
  text : Except Thrown Units
  /-- The string that is added when a string is added to it. -/
  summand : Except Thrown Units
  /-- What calling a method of it comes to. -/
  call : Method -> Except Thrown ρ

inductive Runtime
  | undefined
  | null
  | boolean (value : Bool)
  | number (value : Number)
  | bigint (value : Int)
  | string (value : Units)
  | symbol (description : Units)
  | object (shape : HostObject Runtime)

namespace Runtime

/-- `value === undefined || value === null`. -/
def nullish : Runtime -> Bool
  | .undefined => true
  | .null => true
  | _ => false

/-- `value ?? fallback`. -/
def orElse (value fallback : Runtime) : Runtime := if value.nullish then fallback else value

def truthy : Runtime -> Bool
  | .undefined => false
  | .null => false
  | .boolean value => value
  | .number value => !decide (value = .finite 0) && !decide (value = .nan)
  | .bigint value => !decide (value = 0)
  | .string value => !value.isEmpty
  | .symbol _description => true
  | .object _shape => true

/-- `value.name`, for a name that no primitive value has. -/
def get : Runtime -> Units -> Attempt Runtime
  | .undefined, _name => .error typeError
  | .null, _name => .error typeError
  | .object shape, name => .ok ((Fields.lookup (shape.own ++ shape.inherited) name).getD .undefined)
  | _, _name => .ok .undefined

/-- `typeof value === 'object' && value !== null`. -/
def isObject : Runtime -> Bool
  | .object shape => !shape.callable
  | _ => false

/-! ## Conversions -/

/-- `${value}`. -/
def text : Runtime -> Attempt Units
  | .undefined => .ok (units "undefined")
  | .null => .ok (units "null")
  | .boolean value => .ok (if value then units "true" else units "false")
  | .number value => .ok value.text
  | .bigint value => .ok (if value < 0 then units "-" ++ Number.digits value.natAbs else Number.digits value.natAbs)
  | .string value => .ok value
  | .symbol _description => .error typeError
  | .object shape => shape.text

/-- `String(value)`. -/
def stringOf : Runtime -> Attempt Units
  | .symbol description => .ok (units "Symbol(" ++ description ++ units ")")
  | value => value.text

/-- `value + addend`. -/
def plus (value : Runtime) (addend : Units) : Attempt Units :=
  match value with
  | .object shape => shape.summand.map (· ++ addend)
  | value => value.text.map (· ++ addend)

/-! ## Calls -/

def isSlash (unit : Text.CodeUnit) : Bool := decide (unit = SLASH)

/-- The methods of strings. -/
def callString (upperCase : Units -> Units) (value : Units) (method : Method) : Runtime :=
  match method with
  | .toUpperCase => .string (upperCase value)
  | .dropSlashesAtEnd => .string (value.rdropWhile isSlash)
  | .dropSlashesAtStart => .string (value.dropWhile isSlash)
  | .includesQuestionMark => .boolean (decide (QUESTION_MARK ∈ value))
  | .path => .string (value.takeWhile fun unit => !decide (unit = QUESTION_MARK))

/-- `value.method()`. -/
def call (upperCase : Units -> Units) (value : Runtime) (method : Method) : Attempt Runtime :=
  match value with
  | .string value => .ok (callString upperCase value method)
  | .object shape => shape.call method
  | _ => .error typeError

end Runtime

/-! ## Attempts that return -/

/-- The attempt does not throw. -/
def Returns {α : Type} (attempt : Attempt α) : Prop := Exists fun value => attempt = .ok value

namespace Returns

variable {α β : Type} {attempt : Attempt α}

theorem ok (value : α) : Returns (.ok value : Attempt α) := ⟨value, rfl⟩

theorem not_error (thrown : Thrown) : ¬ Returns (.error thrown : Attempt α) := fun returns => by
  rcases returns with ⟨value, isOk⟩
  cases isOk

theorem bind_iff {next : α -> Attempt β} :
    Returns (attempt >>= next) <-> Exists fun value => attempt = .ok value ∧ Returns (next value) := by
  cases attempt with
  | error thrown =>
      refine ⟨fun returns => (not_error thrown returns).elim, fun found => ?_⟩
      rcases found with ⟨value, isOk, _⟩
      cases isOk
  | ok value =>
      refine ⟨fun returns => ⟨value, rfl, returns⟩, fun found => ?_⟩
      rcases found with ⟨other, isOk, returns⟩
      cases isOk
      exact returns

theorem map_iff {change : α -> β} : Returns (attempt.map change) <-> Returns attempt := by
  cases attempt with
  | error thrown => exact ⟨fun returns => (not_error thrown returns).elim, fun returns => (not_error thrown returns).elim⟩
  | ok value => exact ⟨fun _ => ok value, fun _ => ok (change value)⟩

end Returns
end Http
end Telescope
