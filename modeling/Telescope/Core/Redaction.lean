import Telescope.Core.Value

namespace Telescope
namespace Redaction

/-!
# Redaction

Content is cloned within hard bounds before it is kept: what lies under a masked key or
at a masked path becomes the mask, and what exceeds a bound becomes a marker.  The
bounds are counts.  The walk carries two budgets, of nodes and of bytes, and a flag that
something was clipped.
-/

def DEFAULT_REDACT_KEYS : List Units :=
  [units "authorization", units "cookie", units "set-cookie", units "password", units "passwd",
    units "secret", units "token", units "access_token", units "refresh_token", units "api-key",
    units "api_key", units "apikey", units "x-api-key", units "client_secret", units "private_key"]

def DEFAULT_MAX_DEPTH : Nat := 8
def DEFAULT_MAX_STRING_LENGTH : Nat := 8192
def DEFAULT_MAX_ARRAY_LENGTH : Nat := 200
def DEFAULT_MAX_NODES : Nat := 5000
def DEFAULT_MAX_CONTENT_BYTES : Nat := 16384

/-- What every visited node costs, beside the length of a string. -/
def NODE_BYTE_OVERHEAD : Nat := 8

def DEPTH_MARKER : Units := units "[Truncated: depth]"
def STRING_TRUNCATION_SUFFIX : Units := units "…[truncated]"
def SIZE_MARKER : Units := units "[Truncated: size]"
def CIRCULAR_MARKER : Units := units "[Circular]"

/-! ## Options -/

structure RedactBounds where
  maxDepth : Option Nat := none
  maxStringLength : Option Nat := none
  maxArrayLength : Option Nat := none
  maxNodes : Option Nat := none
  maxContentBytes : Option Nat := none

structure RedactOptions extends RedactBounds where
  keys : List Units := []
  paths : List Units := []
  mask : Option Units := none
  perType : List (Units × RedactBounds) := []

/-- `{ ...redact, ...bounds }`. -/
def RedactBounds.merge (redact bounds : RedactBounds) : RedactBounds where
  maxDepth := bounds.maxDepth.orElse fun _absent => redact.maxDepth
  maxStringLength := bounds.maxStringLength.orElse fun _absent => redact.maxStringLength
  maxArrayLength := bounds.maxArrayLength.orElse fun _absent => redact.maxArrayLength
  maxNodes := bounds.maxNodes.orElse fun _absent => redact.maxNodes
  maxContentBytes := bounds.maxContentBytes.orElse fun _absent => redact.maxContentBytes

/-- The options for entries of one type. -/
def RedactOptions.forType (options : RedactOptions) (type : Units) : RedactOptions :=
  match Fields.lookup options.perType type with
  | none => options
  | some bounds => { options with toRedactBounds := options.toRedactBounds.merge bounds }

/-- The resolved bounds and the mask. -/
structure Limits where
  mask : Units
  maxDepth : Nat
  maxStringLength : Nat
  maxArrayLength : Nat
  maxNodes : Nat
  maxContentBytes : Nat

def RedactOptions.limits (options : RedactOptions) : Limits where
  mask := options.mask.getD (units "[REDACTED]")
  maxDepth := options.maxDepth.getD DEFAULT_MAX_DEPTH
  maxStringLength := options.maxStringLength.getD DEFAULT_MAX_STRING_LENGTH
  maxArrayLength := options.maxArrayLength.getD DEFAULT_MAX_ARRAY_LENGTH
  maxNodes := options.maxNodes.getD DEFAULT_MAX_NODES
  maxContentBytes := options.maxContentBytes.getD DEFAULT_MAX_CONTENT_BYTES

/-- What is masked: keys, at any depth and in any case, and paths. -/
structure CompiledRedactSpec where
  keyMasked : Units -> Bool
  paths : List Units

/-- The spec of the options, for what `toLowerCase` does. -/
def compileRedactSpec (toLowerCase : Units -> Units) (options : RedactOptions) : CompiledRedactSpec where
  keyMasked key := decide (toLowerCase key ∈ (DEFAULT_REDACT_KEYS ++ options.keys).map toLowerCase)
  paths := options.paths

/-! ## Budgets -/

/-- The state of the walk. -/
structure Budget where
  nodes : Int
  bytes : Int
  truncated : Bool

namespace Budget

def spent (budget : Budget) : Bool := decide (budget.nodes ≤ 0) || decide (budget.bytes ≤ 0)

def clip (budget : Budget) : Budget := { budget with truncated := true }

def charge (budget : Budget) (length : Nat) : Budget := { budget with bytes := budget.bytes - length }

def visit (budget : Budget) : Budget :=
  { budget with nodes := budget.nodes - 1, bytes := budget.bytes - NODE_BYTE_OVERHEAD }

theorem not_spent_iff {budget : Budget} :
    budget.spent = false <-> 0 < budget.nodes ∧ 0 < budget.bytes := by
  rw [spent, Bool.or_eq_false_iff, decide_eq_false_iff_not, decide_eq_false_iff_not]
  exact and_congr not_le not_le

end Budget

/-! ## The walk -/

/-- The location of a child. -/
def childPath (path name : Units) : Units := if path = [] then name else path ++ units "." ++ name

def binaryMarker (name : Units) (byteLength : Nat) : Units :=
  units "[" ++ name ++ units ": " ++ Number.digits byteLength ++ units " bytes]"

def itemsMarker (kept length : Nat) : Units :=
  units "[Truncated: " ++ Number.digits kept ++ units " of " ++ Number.digits length ++ units " items]"

section Walk

variable (limits : Limits) (spec : CompiledRedactSpec)

/-- The value of a field is not walked. -/
def masked (path key : Units) : Bool := spec.keyMasked key || decide (childPath path key ∈ spec.paths)

def walkString (text : Units) (budget : Budget) : Value × Budget :=
  if limits.maxStringLength < text.length then
    (.string (text.take limits.maxStringLength ++ STRING_TRUNCATION_SUFFIX),
      (budget.charge limits.maxStringLength).clip)
  else (.string text, budget.charge text.length)

mutual

/-- Clone a value at a location, at a depth, within a budget. -/
def walk (value : Value) (path : Units) (depth : Nat) (budget : Budget) : Value × Budget :=
  if budget.spent then (.string SIZE_MARKER, budget.clip)
  else
    match value with
    | .string text => walkString limits text budget.visit
    | .binary name byteLength => (.string (binaryMarker name byteLength), budget.visit.clip)
    | .circular => (.string CIRCULAR_MARKER, budget.visit)
    | .array elements =>
        if limits.maxDepth ≤ depth then (.string DEPTH_MARKER, budget.visit.clip)
        else
          let mapped := walkElements elements path 0 (depth + 1) budget.visit
          if limits.maxArrayLength < elements.length then
            (.array (mapped.1 ++ [.string (itemsMarker limits.maxArrayLength elements.length)]), mapped.2.clip)
          else (.array mapped.1, mapped.2)
    | .object fields =>
        if limits.maxDepth ≤ depth then (.string DEPTH_MARKER, budget.visit.clip)
        else
          let result := walkFields fields path (depth + 1) [] budget.visit
          (.object result.1, result.2)
    | value => (value, budget.visit)
termination_by structural value

/-- The loop over the elements of an array, up to `maxArrayLength` of them. -/
def walkElements (elements : List Value) (path : Units) (index depth : Nat) (budget : Budget) :
    List Value × Budget :=
  match elements with
  | [] => ([], budget)
  | element :: elements =>
      if limits.maxArrayLength ≤ index then ([], budget)
      else if budget.spent then ([.string SIZE_MARKER], budget.clip)
      else
        let first := walk element (childPath path (Number.digits index)) depth budget
        let rest := walkElements elements path (index + 1) depth first.2
        (first.1 :: rest.1, rest.2)
termination_by structural elements

/-- The loop over the keys of an object. -/
def walkFields (fields : List (Units × Value)) (path : Units) (depth : Nat)
    (result : List (Units × Value)) (budget : Budget) : List (Units × Value) × Budget :=
  match fields with
  | [] => (result, budget)
  | (key, value) :: fields =>
      if budget.spent then (Fields.assign result (units "…") (.string SIZE_MARKER), budget.clip)
      else if masked spec path key then
        walkFields fields path depth (Fields.assign result key (.string limits.mask)) (budget.charge key.length)
      else
        let child := walk value (childPath path key) depth (budget.charge key.length)
        walkFields fields path depth (Fields.assign result key child.1) child.2
termination_by structural fields

end

/-- The budget at the root. -/
def Limits.budget (limits : Limits) : Budget := ⟨limits.maxNodes, limits.maxContentBytes, false⟩

structure RedactBoundedResult where
  value : Value
  truncated : Bool

def redactBoundedWith (value : Value) : RedactBoundedResult :=
  let walked := walk limits spec value [] 0 limits.budget
  ⟨walked.1, walked.2.truncated⟩

end Walk

/-- `redactBounded`, for what `toLowerCase` does. -/
def redactBounded (toLowerCase : Units -> Units) (options : RedactOptions) (value : Value) : RedactBoundedResult :=
  redactBoundedWith options.limits (compileRedactSpec toLowerCase options) value

/-- The same masking within other bounds. -/
def RedactOptions.within (options : RedactOptions) (bounds : RedactBounds) : RedactOptions :=
  { options with toRedactBounds := bounds }

/-- Bounds that resolve to given limits. -/
def Limits.bounds (limits : Limits) : RedactBounds :=
  ⟨some limits.maxDepth, some limits.maxStringLength, some limits.maxArrayLength, some limits.maxNodes,
    some limits.maxContentBytes⟩

theorem redactBounded_within (toLowerCase : Units -> Units) (options : RedactOptions) (limits : Limits)
    (isMask : limits.mask = options.limits.mask) (value : Value) :
    redactBounded toLowerCase (options.within limits.bounds) value =
      redactBoundedWith limits (compileRedactSpec toLowerCase options) value := by
  have resolved : (options.within limits.bounds).limits = limits := by
    cases limits
    cases isMask
    rfl
  rw [redactBounded, resolved]
  rfl

end Redaction
end Telescope
