import Telescope.Nest.ClientErrors
import Telescope.Recorder.Enrich
import Telescope.Redaction.Fidelity

namespace Telescope
namespace Nest

/-!
# Client errors in storage

The fields that identify a client error come right behind the address of the client.
The validator bounds them, and so the default bounds of redaction cover them all, whatever
the user, the extra data and the stacks behind them are.
-/

/-! ## What the validator bounds -/

theorem length_capped (max : Nat) (text : Units) : (capped max text).length ≤ max := by
  rw [capped]
  split
  · exact List.length_take_le max text
  · rename_i short
    exact Nat.not_lt.mp short

/-- A string of at most so many code units, if there is one. -/
def AtMost (max : Nat) (text : Option Units) : Prop := forall units, text = some units -> units.length ≤ max

theorem optionalString_atMost {value : Value} {field : Units} {max : Nat} {text : Option Units}
    (valid : optionalString value field max = .ok text) : AtMost max text := by
  intro units isUnits
  cases value with
  | undefined | null =>
      cases valid
      cases isUnits
  | string source =>
      cases valid
      cases isUnits
      exact length_capped max source
  | boolean _ | number _ | bigint _ | symbol | function | binary _ _ | circular | array _ | object _ => cases valid

theorem requiredMessage_length {value : Value} {message : Units} (valid : requiredMessage value = .ok message) :
    message.length ≤ MESSAGE_MAX := by
  cases value with
  | string source =>
      cases source with
      | nil => cases valid
      | cons unit text =>
          cases valid
          exact length_capped MESSAGE_MAX (unit :: text)
  | undefined | null | boolean _ | number _ | bigint _ | symbol | function | binary _ _ | circular | array _
  | object _ => cases valid

/-- The bounds of the fields that identify an error. -/
structure Bounded (content : ClientExceptionContent) : Prop where
  message : content.message.length ≤ MESSAGE_MAX
  name : AtMost NAME_MAX content.name
  url : AtMost SHORT_FIELD_MAX content.url
  userAgent : AtMost SHORT_FIELD_MAX content.userAgent

theorem bind_ok {ε α β : Type} {first : Except ε α} {next : α -> Except ε β} {value : β}
    (ran : (first >>= next) = .ok value) : Exists fun middle => first = .ok middle ∧ next middle = .ok value := by
  cases first with
  | error error => cases ran
  | ok middle => exact ⟨middle, rfl, ran⟩

theorem bounded_of_accepted {body : Value} {content : ClientExceptionContent}
    (accepted : validateClientErrorBody body = .ok content) : Bounded content := by
  rw [validateClientErrorBody] at accepted
  split at accepted
  · rcases bind_ok accepted with ⟨message, isMessage, accepted⟩
    rcases bind_ok accepted with ⟨name, isName, accepted⟩
    rcases bind_ok accepted with ⟨stack, _, accepted⟩
    rcases bind_ok accepted with ⟨componentStack, _, accepted⟩
    rcases bind_ok accepted with ⟨url, isUrl, accepted⟩
    rcases bind_ok accepted with ⟨userAgent, isUserAgent, accepted⟩
    rcases bind_ok accepted with ⟨release, _, accepted⟩
    rcases bind_ok accepted with ⟨extra, _, accepted⟩
    cases accepted
    exact ⟨requiredMessage_length isMessage, optionalString_atMost isName, optionalString_atMost isUrl,
      optionalString_atMost isUserAgent⟩
  · cases accepted

/-! ## What redaction is charged -/

/-- The value is a string of at most so many code units, or `null`. -/
structure Short (max : Nat) (value : Value) : Prop where
  leaf : value.IsLeaf
  json : Redaction.IsJson value
  length : Redaction.stringLength value ≤ max

theorem short_text {max : Nat} {text : Option Units} (atMost : AtMost max text) : Short max (text? text) := by
  cases text with
  | none => exact ⟨trivial, trivial, Nat.zero_le max⟩
  | some text => exact ⟨trivial, trivial, atMost text rfl⟩

namespace ClientExceptionContent

variable {ip : Option Units} {content : ClientExceptionContent}

/-- The fields up to the last one that identifies the error. -/
def leading (ip : Option Units) (content : ClientExceptionContent) : List (Units × Value) :=
  (units "clientIp", text? ip) :: content.identifying

/-- The fields behind them. -/
def trailing (content : ClientExceptionContent) : List (Units × Value) :=
  [(units "user", content.user), (units "release", text? content.release),
    (units "extra", content.extra.getD .null), (units "stack", text? content.stack),
    (units "componentStack", text? content.componentStack)]

theorem names_leading (ip : Option Units) (content : ClientExceptionContent) :
    (content.leading ip).map Prod.fst =
      [units "clientIp", units "message", units "name", units "url", units "userAgent"] := rfl

theorem names_fields (ip : Option Units) (content : ClientExceptionContent) :
    (content.leading ip ++ content.trailing).map Prod.fst =
      [units "clientIp", units "message", units "name", units "url", units "userAgent", units "user", units "release",
        units "extra", units "stack", units "componentStack"] := rfl

theorem distinct_fields (ip : Option Units) (content : ClientExceptionContent) :
    ((content.leading ip ++ content.trailing).map Prod.fst).Nodup := by
  rw [names_fields]
  decide

/-- None of the names is that of the prototype or of the marker. -/
theorem ordinary_leading {ip : Option Units} {content : ClientExceptionContent} {field : Units × Value}
    (member : field ∈ content.leading ip) : field.1 ≠ units "__proto__" ∧ units "…" ≠ field.1 := by
  have ordinary : forall name, name ∈ (content.leading ip).map Prod.fst ->
      name ≠ units "__proto__" ∧ units "…" ≠ name := by
    rw [names_leading]
    decide
  exact ordinary field.1 (List.mem_map_of_mem member)

/-- Each leading field is short. -/
theorem short_leading (address : AtMost Redaction.DEFAULT_MAX_STRING_LENGTH ip) (bounded : Bounded content)
    {field : Units × Value} (member : field ∈ content.leading ip) :
    Short Redaction.DEFAULT_MAX_STRING_LENGTH field.2 := by
  have weaken {max : Nat} {text : Option Units} (atMost : AtMost max text)
      (le : max ≤ Redaction.DEFAULT_MAX_STRING_LENGTH) : Short Redaction.DEFAULT_MAX_STRING_LENGTH (text? text) :=
    short_text fun units isUnits => (atMost units isUnits).trans le
  rw [leading, identifying] at member
  simp only [List.mem_cons, List.not_mem_nil, or_false] at member
  rcases member with rfl | rfl | rfl | rfl | rfl
  · exact short_text address
  · exact ⟨trivial, trivial, bounded.message.trans (by decide)⟩
  · exact weaken bounded.name (by decide)
  · exact weaken bounded.url (by decide)
  · exact weaken bounded.userAgent (by decide)

/-- The leading fields together leave some of the default budget. -/
theorem bytes_leading (address : AtMost Redaction.DEFAULT_MAX_STRING_LENGTH ip) (bounded : Bounded content) :
    ((content.leading ip).map fun field => field.1.length + Redaction.byteCount field.2).sum + Redaction.NODE_BYTE_OVERHEAD ≤
      Redaction.DEFAULT_MAX_CONTENT_BYTES := by
  have charged (key : Units) {max : Nat} {value : Value} (short : Short max value) :
      key.length + Redaction.byteCount value ≤ key.length + (Redaction.NODE_BYTE_OVERHEAD + max) := by
    rw [Redaction.byteCount_leaf short.leaf]
    exact Nat.add_le_add_left (Nat.add_le_add_left short.length _) _
  have ofAddress := charged (units "clientIp") (short_text address)
  have isShort : Short _ (Value.string content.message) := ⟨trivial, trivial, bounded.message⟩
  have ofMessage := charged (units "message") isShort
  have ofName := charged (units "name") (short_text bounded.name)
  have ofUrl := charged (units "url") (short_text bounded.url)
  have ofUserAgent := charged (units "userAgent") (short_text bounded.userAgent)
  rw [leading, identifying]
  simp only [List.map_cons, List.map_nil, List.sum_cons, List.sum_nil]
  have covers : (units "clientIp").length + (Redaction.NODE_BYTE_OVERHEAD + Redaction.DEFAULT_MAX_STRING_LENGTH) +
      ((units "message").length + (Redaction.NODE_BYTE_OVERHEAD + MESSAGE_MAX) +
        ((units "name").length + (Redaction.NODE_BYTE_OVERHEAD + NAME_MAX) +
          ((units "url").length + (Redaction.NODE_BYTE_OVERHEAD + SHORT_FIELD_MAX) +
            ((units "userAgent").length + (Redaction.NODE_BYTE_OVERHEAD + SHORT_FIELD_MAX))))) +
      Redaction.NODE_BYTE_OVERHEAD ≤ Redaction.DEFAULT_MAX_CONTENT_BYTES := by decide
  omega

end ClientExceptionContent

/-! ## Survival -/

/-- The bounds for the entries of the endpoint are the default ones. -/
def DefaultBounds (redact : Redaction.RedactOptions) : Prop :=
  (redact.forType EntryType.clientException).limits =
    { mask := (redact.forType EntryType.clientException).limits.mask
      maxDepth := Redaction.DEFAULT_MAX_DEPTH
      maxStringLength := Redaction.DEFAULT_MAX_STRING_LENGTH
      maxArrayLength := Redaction.DEFAULT_MAX_ARRAY_LENGTH
      maxNodes := Redaction.DEFAULT_MAX_NODES
      maxContentBytes := Redaction.DEFAULT_MAX_CONTENT_BYTES }

/-- The default bounds cover the leading fields, once the object itself is paid for. -/
theorem covers_leading {redact : Redaction.RedactOptions} (defaults : DefaultBounds redact) {ip : Option Units}
    (address : AtMost Redaction.DEFAULT_MAX_STRING_LENGTH ip) {content : ClientExceptionContent}
    (bounded : Bounded content) :
    Redaction.Covers (redact.forType EntryType.clientException).limits
      (redact.forType EntryType.clientException).limits.budget.visit 1 (content.leading ip) := by
  have short {field : Units × Value} (member : field ∈ content.leading ip) :=
    ClientExceptionContent.short_leading address bounded member
  have bytes := ClientExceptionContent.bytes_leading address bounded
  rw [defaults]
  constructor
  · intro field member
    have flat : Redaction.height field.2 = 0 := Value.fold_leaf _ (short member).leaf
    rw [flat]
    exact Nat.le_add_left 1 7
  · intro field member
    rw [Redaction.longest_leaf (short member).leaf]
    exact (short member).length
  · intro field member
    have narrow : Redaction.widest field.2 = 0 := Value.fold_leaf _ (short member).leaf
    rw [narrow]
    exact Nat.zero_le _
  · have single : ((content.leading ip).map fun field => Redaction.nodeCount field.2) =
        (content.leading ip).map fun _field => 1 :=
      List.map_congr_left fun _ member => Redaction.nodeCount_leaf (short member).leaf
    rw [single, Redaction.Limits.budget, Redaction.Budget.visit]
    exact (by decide : (5 : Int) ≤ Redaction.DEFAULT_MAX_NODES - 1)
  · rw [Redaction.Limits.budget, Redaction.Budget.visit]
    dsimp only
    omega

/-- What the validator accepted is stored as it is, field by field, except under a masked
key: whatever the user, the extra data and the stacks hold. -/
theorem enrichment_survives (toLowerCase : Units -> Units) (options : Recorder.EnrichOptions)
    (surroundings : Recorder.Surroundings) (defaults : DefaultBounds options.redact) {body : Value}
    {content : ClientExceptionContent} (accepted : validateClientErrorBody body = .ok content) {ip : Option Units}
    (address : AtMost Redaction.DEFAULT_MAX_STRING_LENGTH ip) {field : Units × Value}
    (member : field ∈ content.identifying) :
    (Recorder.enrich toLowerCase options surroundings (clientErrorRecord ip content)).content.get field.1 =
      if Redaction.masked (Redaction.compileRedactSpec toLowerCase options.redact) [] field.1 then
        .string (options.redact.forType EntryType.clientException).limits.mask
      else field.2 := by
  have bounded := bounded_of_accepted accepted
  have isLeading : field ∈ content.leading ip := List.mem_cons_of_mem _ member
  have short := ClientExceptionContent.short_leading address bounded isLeading
  have shallow : 0 < (options.redact.forType EntryType.clientException).limits.maxDepth := by
    rw [defaults]
    exact Nat.zero_lt_succ 7
  have isLeft : (options.redact.forType EntryType.clientException).limits.budget.spent = false := by
    rw [defaults]
    rfl
  change (Redaction.redactBoundedWith _ _ (.object (content.leading ip ++ content.trailing))).value.get field.1 = _
  rw [<- Redaction.clone_leaf short.leaf short.json (Redaction.childPath [] field.1)]
  exact Redaction.get_redact_leading
    (fun _ isField => (ClientExceptionContent.short_leading address bounded isField).json)
    (fun _ isField => ClientExceptionContent.ordinary_leading isField) (ClientExceptionContent.distinct_fields ip content)
    shallow isLeft (covers_leading defaults address bounded) isLeading

/-- A page fails, and nothing else is known of it than where. -/
def failure : Value :=
  .object [(units "message", .string (units "boom")), (units "url", .string (units "/cart"))]

theorem failure_survives : Exists fun content => validateClientErrorBody failure = .ok content ∧
    (Recorder.enrich Units.toLowerAscii { instanceId := [] } { batchId := [], id := [], sequence := 0, now := none }
      (clientErrorRecord (some (units "::1")) content)).content.get (units "url") = .string (units "/cart") := by
  have address : AtMost Redaction.DEFAULT_MAX_STRING_LENGTH (some (units "::1")) := by
    intro address isAddress
    cases isAddress
    decide
  have survives (content : ClientExceptionContent) (accepted : validateClientErrorBody failure = .ok content) :=
    @enrichment_survives Units.toLowerAscii { instanceId := [] }
      { batchId := [], id := [], sequence := 0, now := none } rfl failure content accepted _ address
      (units "url", .string (units "/cart"))
  have identified := survives _ rfl (List.mem_cons_of_mem _ (List.mem_cons_of_mem _ (List.mem_cons_self ..)))
  exact ⟨_, rfl, identified.trans (if_neg (by decide))⟩

end Nest
end Telescope
