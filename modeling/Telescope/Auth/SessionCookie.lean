import Telescope.Core.Value

namespace Telescope
namespace Auth
namespace SessionCookie

/-!
# The session cookie, byte by byte

A cookie value is `base64url(payload).base64url(hmac)`.  What is presented may be any
string: it is cut at its first dot, the bytes of the two signatures are compared, and
the payload is parsed and checked field by field.  Whatever throws on the way is a
refusal.  The digest, `base64url` and JSON are those of the platform.
-/

/-- The validated dashboard session attached to a request once a cookie verifies. -/
structure Session where
  sub : Units
  name : Option Units
  roles : List Units
  iat : Rat
  exp : Rat
  deriving DecidableEq

/-- The session user a host hook returns to mint a cookie. -/
structure SessionUser where
  id : Units
  name : Option Units
  roles : Option (List Units)

/-- `base64url` of a string and of bytes and back, the HMAC of a payload under a
secret, and JSON, whose `parse` may throw. -/
structure Platform where
  encode : Units -> Units
  decode : Units -> Units
  encodeBytes : List UInt8 -> Units
  bytesOf : Units -> List UInt8
  digest : Units -> Units -> List UInt8
  stringify : Value -> Units
  parse : Units -> Option Value

/-- Clock-skew grace applied to `exp`. -/
def EXP_GRACE_MS : Rat := 30000

def dot : Text.CodeUnit := 46

/-! ## Signing -/

def sessionOf (user : SessionUser) (ttlMs issuedAt : Rat) : Session where
  sub := user.id
  name := user.name
  roles := user.roles.getD []
  iat := issuedAt
  exp := issuedAt + ttlMs

/-- The object that is signed; a name that is not there is no property. -/
def Session.value (session : Session) : Value :=
  .object ((units "sub", .string session.sub) ::
    ((session.name.map fun name => (units "name", Value.string name)).toList ++
      [(units "roles", .array (session.roles.map .string)), (units "iat", .number (.finite session.iat)),
        (units "exp", .number (.finite session.exp))]))

variable (platform : Platform)

def hmac (secret payload : Units) : Units := platform.encodeBytes (platform.digest secret payload)

def encodedPayload (session : Session) : Units := platform.encode (platform.stringify session.value)

def signSessionCookie (user : SessionUser) (secret : Units) (ttlMs issuedAt : Rat) : Units :=
  let payload := encodedPayload platform (sessionOf user ttlMs issuedAt)
  payload ++ dot :: hmac platform secret payload

/-! ## Verifying -/

/-- `isSessionPayload`, with the session it finds. -/
def sessionPayload? (decoded : Value) : Option Session := do
  let record <- decoded.record?
  let sub <- record.getString (units "sub")
  let name <-
    match record.get (units "name") with
    | .undefined => some none
    | .string name => some (some name)
    | _ => none
  let roles <-
    match record.get (units "roles") with
    | .array roles => roles.mapM Value.string?
    | _ => none
  match record.get (units "iat"), record.get (units "exp") with
  | .number (.finite iat), .number (.finite exp) => some ⟨sub, name, roles, iat, exp⟩
  | _, _ => none

/-- Throws on bytes of different lengths. -/
def timingSafeEqual (left right : List UInt8) : Option Bool :=
  if left.length ≠ right.length then none else some (decide (left = right))

/-- The body of the `try`; `none` is a throw. -/
def verifyOrThrow (value secret : Units) (now : Rat) : Option (Option Session) :=
  let index := value.idxOf dot
  if index = value.length ∨ index = 0 ∨ index + 1 = value.length then some none
  else
    let encodedPayload := value.take index
    let providedSignature := value.drop (index + 1)
    let provided := platform.bytesOf providedSignature
    let expected := platform.bytesOf (hmac platform secret encodedPayload)
    if provided.length ≠ expected.length then some none
    else do
      let equal <- timingSafeEqual provided expected
      if !equal then some none
      else
        let decoded <- platform.parse (platform.decode encodedPayload)
        some ((sessionPayload? decoded).filter fun session => !decide (session.exp + EXP_GRACE_MS < now))

def verifySessionCookie (value secret : Units) (now : Rat) : Option Session :=
  (verifyOrThrow platform value secret now).getD none

/-! ## Correctness -/

/-- `base64url` brings back the bytes of every digest under a secret. -/
def CarriesDigests (secret : Units) : Prop :=
  forall payload, platform.bytesOf (hmac platform secret payload) = platform.digest secret payload

/-- JSON and `base64url` bring back a session.  The alphabet of `base64url` has no dot,
and neither a payload nor a digest is empty. -/
structure Carries (secret : Units) (session : Session) : Prop where
  json : platform.parse (platform.stringify session.value) = some session.value
  base64url : platform.decode (encodedPayload platform session) = platform.stringify session.value
  dotless : dot ∉ encodedPayload platform session
  payload : encodedPayload platform session ≠ []
  signature : hmac platform secret (encodedPayload platform session) ≠ []

variable {platform}

/-- What is signed is a session. -/
theorem sessionPayload?_value (session : Session) : sessionPayload? session.value = some session := by
  rcases session with ⟨sub, name, roles, iat, exp⟩
  have strings : (roles.map Value.string).mapM Value.string? = some roles := by
    induction roles with
    | nil => rfl
    | cons role roles inductionHypothesis =>
        rw [List.map_cons, List.mapM_cons, inductionHypothesis]
        rfl
  cases name with
  | none =>
      change ((roles.map Value.string).mapM Value.string?).bind (fun found => some (Session.mk sub none found iat exp)) = _
      rw [strings]
      rfl
  | some name =>
      change ((roles.map Value.string).mapM Value.string?).bind
        (fun found => some (Session.mk sub (some name) found iat exp)) = _
      rw [strings]
      rfl

/-- Verification cuts a value at its first dot. -/
theorem verifyOrThrow_append {payload signature : Units} (dotless : dot ∉ payload) (secret : Units) (now : Rat)
    (payloadFilled : payload ≠ []) (signatureFilled : signature ≠ []) :
    verifyOrThrow platform (payload ++ dot :: signature) secret now =
      if (platform.bytesOf signature).length ≠ (platform.bytesOf (hmac platform secret payload)).length then
        some none
      else
        (timingSafeEqual (platform.bytesOf signature) (platform.bytesOf (hmac platform secret payload))).bind
          fun equal =>
            if !equal then some none
            else
              (platform.parse (platform.decode payload)).bind fun decoded =>
                some ((sessionPayload? decoded).filter fun session =>
                  !decide (session.exp + EXP_GRACE_MS < now)) := by
  have index : (payload ++ dot :: signature).idxOf dot = payload.length := by
    rw [List.idxOf_append_of_notMem dotless, List.idxOf_cons_self, Nat.add_zero]
  have first := List.length_pos_iff.mpr payloadFilled
  have second := List.length_pos_iff.mpr signatureFilled
  have inside : ¬ (payload.length = (payload ++ dot :: signature).length ∨ payload.length = 0 ∨
      payload.length + 1 = (payload ++ dot :: signature).length) := by
    rw [List.length_append, List.length_cons]
    omega
  have behind : (payload ++ dot :: signature).drop (payload.length + 1) = signature := by
    rw [← List.drop_drop, List.drop_left, List.drop_one, List.tail_cons]
  rw [verifyOrThrow]
  dsimp only
  rw [index, if_neg inside, List.take_left, behind]
  rfl

/-- A value with a dot that is neither its first nor its last unit is a payload without
dots, a dot and a signature. -/
theorem exists_parts {value : Units} (inside : ¬ (value.idxOf dot = value.length ∨ value.idxOf dot = 0 ∨
    value.idxOf dot + 1 = value.length)) :
    Exists fun payload => Exists fun signature => value = payload ++ dot :: signature ∧ dot ∉ payload ∧
      payload ≠ [] ∧ signature ≠ [] := by
  rcases not_or.mp inside with ⟨hasDot, rest⟩
  rcases not_or.mp rest with ⟨notFirst, notLast⟩
  have bound : value.idxOf dot < value.length := lt_of_le_of_ne List.idxOf_le_length hasDot
  have found : value.drop (value.idxOf dot) = dot :: value.drop (value.idxOf dot + 1) := by
    rw [List.drop_eq_getElem_cons bound, List.getElem_idxOf bound]
  refine ⟨value.take (value.idxOf dot), value.drop (value.idxOf dot + 1), ?_, ?_, ?_, ?_⟩
  · rw [← found, List.take_append_drop]
  · intro early
    have before := List.idxOf_lt_length_iff.mpr early
    have same : (value.take (value.idxOf dot)).idxOf dot = value.idxOf dot := by
      conv_rhs => rw [← List.take_append_drop (value.idxOf dot) value, List.idxOf_append_of_mem early]
    rw [same, List.length_take] at before
    omega
  · intro empty
    have length := congrArg List.length empty
    rw [List.length_take, List.length_nil] at length
    omega
  · intro empty
    have length := congrArg List.length empty
    rw [List.length_drop, List.length_nil] at length
    omega

/-- A freshly signed cookie verifies as its session until its expiry and the grace, and
no string verifies but one that carries the digest of its payload and a session whose
expiry and grace are not over. -/
theorem session_cookie (secret : Units) (digests : CarriesDigests platform secret) :
    (forall user ttlMs issuedAt now, Carries platform secret (sessionOf user ttlMs issuedAt) ->
      now ≤ issuedAt + ttlMs + EXP_GRACE_MS ->
      verifySessionCookie platform (signSessionCookie platform user secret ttlMs issuedAt) secret now =
        some (sessionOf user ttlMs issuedAt)) ∧
    (forall value now session, verifySessionCookie platform value secret now = some session ->
      Exists fun payload => Exists fun signature => value = payload ++ dot :: signature ∧ dot ∉ payload ∧
        platform.bytesOf signature = platform.digest secret payload ∧
        ((platform.parse (platform.decode payload)).bind sessionPayload?) = some session ∧
        now ≤ session.exp + EXP_GRACE_MS) := by
  constructor
  · intro user ttlMs issuedAt now carries live
    have alive : ¬ (sessionOf user ttlMs issuedAt).exp + EXP_GRACE_MS < now := not_lt.mpr live
    rw [signSessionCookie, verifySessionCookie, verifyOrThrow_append carries.dotless secret now carries.payload carries.signature,
      if_neg (not_not.mpr rfl), timingSafeEqual, if_neg (not_not.mpr rfl), decide_eq_true rfl, carries.base64url,
      carries.json]
    change ((sessionPayload? (sessionOf user ttlMs issuedAt).value).filter _) = _
    rw [sessionPayload?_value, Option.filter_some, decide_eq_false alive, Bool.not_false, if_pos rfl]
  · intro value now session verified
    by_cases malformed : value.idxOf dot = value.length ∨ value.idxOf dot = 0 ∨ value.idxOf dot + 1 = value.length
    · rw [verifySessionCookie, verifyOrThrow] at verified
      dsimp only at verified
      rw [if_pos malformed] at verified
      cases verified
    · rcases exists_parts malformed with ⟨payload, signature, rfl, dotless, payloadFilled, signatureFilled⟩
      rw [verifySessionCookie, verifyOrThrow_append dotless secret now payloadFilled signatureFilled] at verified
      by_cases sameLength : (platform.bytesOf signature).length =
          (platform.bytesOf (hmac platform secret payload)).length
      · rw [if_neg (not_not.mpr sameLength), timingSafeEqual, if_neg (not_not.mpr sameLength)] at verified
        by_cases same : platform.bytesOf signature = platform.bytesOf (hmac platform secret payload)
        · rw [decide_eq_true same] at verified
          refine ⟨payload, signature, rfl, dotless, same.trans (digests payload), ?_⟩
          cases parsed : platform.parse (platform.decode payload) with
          | none =>
              rw [parsed] at verified
              cases verified
          | some decoded =>
              rw [parsed] at verified
              rcases Option.filter_eq_some_iff.mp verified with ⟨isSession, alive⟩
              rw [Bool.not_eq_true', decide_eq_false_iff_not] at alive
              exact ⟨isSession, not_lt.mp alive⟩
        · rw [decide_eq_false same] at verified
          cases verified
      · rw [if_pos sameLength] at verified
        cases verified

/-! ## A cookie -/

def alice : SessionUser := ⟨units "alice", none, none⟩

def aliceJson : Units := units "\x7b\"sub\":\"alice\",\"roles\":[],\"iat\":0,\"exp\":100\x7d"

def alicePayload : Units := units "eyJzdWIiOiJhbGljZSIsInJvbGVzIjpbXSwiaWF0IjowLCJleHAiOjEwMH0"

def aliceSignature : Units := units "LP4jOtEsLN83RXdGbui17C3HaEWvUPwaKLwGPkCx5M4"

def aliceDigest : List UInt8 :=
  [44, 254, 35, 58, 209, 44, 44, 223, 55, 69, 119, 70, 110, 232, 181, 236, 45, 199, 104, 69, 175, 80, 252, 26,
    40, 188, 6, 62, 64, 177, 228, 206]

/-- The platform at one session. -/
def alicePlatform : Platform where
  encode _text := alicePayload
  decode _text := aliceJson
  encodeBytes _bytes := aliceSignature
  bytesOf _text := aliceDigest
  digest _secret _payload := aliceDigest
  stringify _value := aliceJson
  parse _text := some (sessionOf alice 100 0).value

theorem session_cookie_alice :
    verifySessionCookie alicePlatform (signSessionCookie alicePlatform alice (units "secret") 100 0)
      (units "secret") 50 = some (sessionOf alice 100 0) :=
  (session_cookie (units "secret") fun _ => rfl).1 alice 100 0 50
    ⟨rfl, rfl, by decide, by decide, by decide⟩ (by decide +kernel)

end SessionCookie
end Auth
end Telescope
