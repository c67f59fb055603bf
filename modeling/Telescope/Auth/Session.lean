import Telescope.Core.Text

namespace Telescope
namespace Auth

/-!
# Dashboard sessions

A session cookie carries its own session, signed; the server keeps none.  The guard
verifies the cookie, and in the second half of its life re-checks the user and
issues a fresh cookie.  The text encoding and the signature are parameters.  Readings
of the clock are passed in.
-/

/-- The validated session of a cookie. -/
structure TelescopeSession where
  sub : Text
  name : Option Text
  roles : List Text
  iat : Int
  exp : Int
  deriving DecidableEq

/-- The user a host hook returns to mint a cookie. -/
structure TelescopeSessionUser where
  id : Text
  name : Option Text
  roles : Option (List Text)

/-- `base64url(JSON.stringify(session))` and back, the signature of a text, and the
bytes a `base64url` text stands for.  The alphabet of `base64url` has no dot. -/
structure Codec where
  encode : TelescopeSession -> Text
  decode : Text -> Option TelescopeSession
  hmac : Text -> Text -> Text
  bytes : Text -> List Nat
  decode_encode : forall session, decode (encode session) = some session
  no_dot : forall session, '.' ∉ encode session

/-- The resolved dashboard auth.  Only whether there is a `revalidate` hook is kept of
it; what the hook answers is an event. -/
structure ResolvedDashboardAuth where
  secret : Text
  ttlMs : Nat
  revalidates : Bool

/-- The grace applied to `exp`. -/
def EXP_GRACE_MS : Int := 30000

variable (codec : Codec)

def sessionOf (user : TelescopeSessionUser) (ttlMs : Nat) (now : Int) : TelescopeSession where
  sub := user.id
  name := user.name
  roles := user.roles.getD []
  iat := now
  exp := now + ttlMs

/-- The cookie value `base64url(payload).base64url(hmac)`. -/
def signSessionCookie (user : TelescopeSessionUser) (secret : Text) (ttlMs : Nat) (now : Int) : Text :=
  let encodedPayload := codec.encode (sessionOf user ttlMs now)
  encodedPayload ++ '.' :: codec.hmac secret encodedPayload

/-- The session of a cookie value, unless it is malformed, tampered with or expired. -/
def verifySessionCookie (value secret : Text) (now : Int) : Option TelescopeSession :=
  let dot := value.idxOf '.'
  if dot = value.length ∨ dot = 0 ∨ dot + 1 = value.length then none
  else
    let encodedPayload := value.take dot
    let providedSignature := value.drop (dot + 1)
    if codec.bytes providedSignature ≠ codec.bytes (codec.hmac secret encodedPayload) then none
    else
      (codec.decode encodedPayload).filter fun session => !decide (session.exp + EXP_GRACE_MS < now)

variable {codec}

/-- A cookie that was issued verifies as the session it was signed for, if it does. -/
theorem verify_sign {user : TelescopeSessionUser} {secret verifier : Text} {ttlMs : Nat} {issued now : Int}
    {session : TelescopeSession}
    (verified : verifySessionCookie codec (signSessionCookie codec user secret ttlMs issued) verifier now =
      some session) : session = sessionOf user ttlMs issued := by
  have noDot := codec.no_dot (sessionOf user ttlMs issued)
  have dot : (signSessionCookie codec user secret ttlMs issued).idxOf '.' =
      (codec.encode (sessionOf user ttlMs issued)).length := by
    rw [signSessionCookie, List.idxOf_append_of_notMem noDot, List.idxOf_cons_self, Nat.add_zero]
  rw [verifySessionCookie] at verified
  dsimp only at verified
  rw [dot] at verified
  split at verified
  · cases verified
  · split at verified
    · cases verified
    · have payload : (signSessionCookie codec user secret ttlMs issued).take
          (codec.encode (sessionOf user ttlMs issued)).length =
            codec.encode (sessionOf user ttlMs issued) := List.take_left
      rw [payload, codec.decode_encode] at verified
      exact (Option.some.inj (Option.filter_eq_some_iff.mp verified).1).symm

/-- A cookie that was issued verifies until the grace behind its expiry is over. -/
theorem verify_sign_of_live {user : TelescopeSessionUser} {secret : Text} {ttlMs : Nat} {issued now : Int}
    (payload : codec.encode (sessionOf user ttlMs issued) ≠ [])
    (signature : codec.hmac secret (codec.encode (sessionOf user ttlMs issued)) ≠ [])
    (live : now ≤ issued + ttlMs + EXP_GRACE_MS) :
    verifySessionCookie codec (signSessionCookie codec user secret ttlMs issued) secret now =
      some (sessionOf user ttlMs issued) := by
  have noDot := codec.no_dot (sessionOf user ttlMs issued)
  have decoded := codec.decode_encode (sessionOf user ttlMs issued)
  rw [signSessionCookie]
  generalize codec.encode (sessionOf user ttlMs issued) = encodedPayload at *
  have dot : (encodedPayload ++ '.' :: codec.hmac secret encodedPayload).idxOf '.' =
      encodedPayload.length := by
    rw [List.idxOf_append_of_notMem noDot, List.idxOf_cons_self, Nat.add_zero]
  have inside : ¬ (encodedPayload.length =
        (encodedPayload ++ '.' :: codec.hmac secret encodedPayload).length ∨
      encodedPayload.length = 0 ∨ encodedPayload.length + 1 =
        (encodedPayload ++ '.' :: codec.hmac secret encodedPayload).length) := by
    have first := List.length_pos_iff.mpr payload
    have second := List.length_pos_iff.mpr signature
    rw [List.length_append, List.length_cons]
    omega
  have signed : (encodedPayload ++ '.' :: codec.hmac secret encodedPayload).drop
      (encodedPayload.length + 1) = codec.hmac secret encodedPayload := by
    rw [← List.drop_drop, List.drop_left, List.drop_one, List.tail_cons]
  rw [verifySessionCookie, dot, if_neg inside, List.take_left, signed, if_neg (not_not.mpr rfl), decoded]
  refine Option.filter_eq_some_iff.mpr ⟨rfl, ?_⟩
  rw [Bool.not_eq_true', decide_eq_false_iff_not]
  exact not_lt.mpr live

/-! ## The guard -/

/-- A request in `maybeRenew` that waits for the `revalidate` hook. -/
structure Renewal where
  session : TelescopeSession
  arrivedAt : Int
  now : Int

/-- A request that was let through. -/
structure Grant where
  session : TelescopeSession
  arrivedAt : Int

/-- Every cookie issued so far, the requests that wait for the hook, and the requests
granted. -/
structure System where
  issued : List Text
  waiting : List Renewal
  grants : List Grant
  clock : Int

/-- A request reads the clock when its cookie is verified and again in `maybeRenew`.
`authorized` is what the host's authorizer answers, if it comes to that. -/
inductive Event
  | login (user : TelescopeSessionUser) (now : Int)
  | request (cookie : Option Text) (authorized : Bool) (arrivedAt now : Int)
  | revalidated (index : Nat) (allowed authorized : Bool)

namespace System

variable (codec : Codec) (auth : ResolvedDashboardAuth)

def initial (clock : Int) : System := ⟨[], [], [], clock⟩

/-- The user a renewal re-checks and re-issues the cookie for. -/
def userOf (session : TelescopeSession) : TelescopeSessionUser :=
  ⟨session.sub, session.name, some session.roles⟩

def issueSessionCookie (system : System) (user : TelescopeSessionUser) (now : Int) : System :=
  { system with issued := system.issued ++ [signSessionCookie codec user auth.secret auth.ttlMs now] }

/-- `runAuthorizer`, once the session stands. -/
def runAuthorizer (system : System) (session : TelescopeSession) (arrivedAt : Int) (authorized : Bool) :
    System :=
  if authorized then { system with grants := system.grants ++ [⟨session, arrivedAt⟩] } else system

/-- `canActivate` up to the call of the hook.  `none` is a 401. -/
def canActivate (system : System) (cookie : Option Text) (authorized : Bool) (arrivedAt now : Int) :
    Option System :=
  (cookie.bind fun value => verifySessionCookie codec value auth.secret arrivedAt).map fun session =>
    if 2 * (now - session.iat) ≤ auth.ttlMs then system.runAuthorizer session arrivedAt authorized
    else if auth.revalidates then { system with waiting := system.waiting ++ [⟨session, arrivedAt, now⟩] }
    else
      (system.issueSessionCookie codec auth (userOf session) now).runAuthorizer session arrivedAt authorized

/-- The hook has answered; to throw is to refuse. -/
def resume (system : System) (renewal : Renewal) (allowed authorized : Bool) : System :=
  if allowed then
    (system.issueSessionCookie codec auth (userOf renewal.session) renewal.now).runAuthorizer
      renewal.session renewal.arrivedAt authorized
  else system

/-- Requests present no cookie, or one that was issued.  The clock does not go back. -/
def step (system : System) : Event -> Option System
  | .login user now =>
      if system.clock ≤ now then
        some ({ system with clock := now }.issueSessionCookie codec auth user now)
      else none
  | .request cookie authorized arrivedAt now =>
      if system.clock ≤ arrivedAt ∧ arrivedAt ≤ now ∧ (forall value, cookie = some value ->
          value ∈ system.issued) then
        some (({ system with clock := now }.canActivate codec auth cookie authorized arrivedAt now).getD
          { system with clock := now })
      else none
  | .revalidated index allowed authorized =>
      system.waiting[index]?.map fun renewal =>
        { system with waiting := system.waiting.eraseIdx index }.resume codec auth renewal allowed authorized

end System

end Auth
end Telescope
