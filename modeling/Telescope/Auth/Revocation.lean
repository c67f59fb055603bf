import Telescope.Auth.Session
import Telescope.Foundation.Transition
import Mathlib.Logic.Equiv.List

namespace Telescope
namespace Auth

/-!
# How long a revoked user gets in

A cookie is re-issued for the instant at which its renewal began, and only if the
hook was called before it started to refuse.  So no cookie of the user in circulation
is younger than the revocation, however often and in whatever order old ones are
presented again.
-/

variable {codec : Codec} {auth : ResolvedDashboardAuth} {system next : System}

namespace System

/-- From the instant on, no hook logs the user in, and the `revalidate` hook refuses
when it is called for the user. -/
def RejectsFrom (user : Text) (instant : Int) (system : System) : Event -> Prop
  | .login accepted now => accepted.id = user -> now ≤ instant
  | .request _ _ _ _ => True
  | .revalidated index allowed _ => forall renewal, system.waiting[index]? = some renewal ->
      renewal.session.sub = user -> instant ≤ renewal.now -> allowed = false

/-- No cookie of the user is younger than the revocation. -/
structure Revoked (codec : Codec) (auth : ResolvedDashboardAuth) (user : Text) (instant : Int)
    (system : System) : Prop where
  issued : forall value, value ∈ system.issued -> Exists fun holder => Exists fun secret =>
    Exists fun ttlMs => Exists fun now => value = signSessionCookie codec holder secret ttlMs now ∧
      (holder.id = user -> now ≤ instant)
  waiting : forall renewal, renewal ∈ system.waiting -> renewal.arrivedAt ≤ renewal.now
  grants : forall grant, grant ∈ system.grants -> grant.session.sub = user ->
    2 * (grant.arrivedAt - instant) ≤ auth.ttlMs

variable {user : Text} {instant : Int}

theorem Revoked.issueSessionCookie (revoked : Revoked codec auth user instant system)
    {holder : TelescopeSessionUser} {now : Int} (early : holder.id = user -> now ≤ instant) :
    Revoked codec auth user instant (system.issueSessionCookie codec auth holder now) := by
  refine ⟨fun value member => ?_, revoked.waiting, revoked.grants⟩
  rcases List.mem_append.mp member with before | isNew
  · exact revoked.issued value before
  · exact ⟨holder, auth.secret, auth.ttlMs, now, List.mem_singleton.mp isNew, early⟩

theorem Revoked.runAuthorizer (revoked : Revoked codec auth user instant system)
    {session : TelescopeSession} {arrivedAt : Int} (authorized : Bool)
    (early : session.sub = user -> 2 * (arrivedAt - instant) ≤ auth.ttlMs) :
    Revoked codec auth user instant (system.runAuthorizer session arrivedAt authorized) := by
  rw [System.runAuthorizer]
  split
  · refine ⟨revoked.issued, revoked.waiting, fun grant member => ?_⟩
    rcases List.mem_append.mp member with before | isNew
    · exact revoked.grants grant before
    · cases List.mem_singleton.mp isNew
      exact early
  · exact revoked

/-- A cookie in circulation stands for a session issued before the revocation. -/
theorem Revoked.verified (revoked : Revoked codec auth user instant system) {value : Text}
    (member : value ∈ system.issued) {secret : Text} {now : Int} {session : TelescopeSession}
    (verified : verifySessionCookie codec value secret now = some session)
    (same : session.sub = user) : session.iat ≤ instant := by
  rcases revoked.issued value member with ⟨holder, signer, ttlMs, issuedAt, rfl, early⟩
  cases verify_sign verified
  exact early same

theorem Revoked.canActivate (revoked : Revoked codec auth user instant system)
    (revalidates : auth.revalidates = true) {cookie : Option Text} {authorized : Bool}
    {arrivedAt now : Int} (ordered : arrivedAt ≤ now)
    (presented : forall value, cookie = some value -> value ∈ system.issued)
    (activated : system.canActivate codec auth cookie authorized arrivedAt now = some next) :
    Revoked codec auth user instant next := by
  rw [System.canActivate] at activated
  rcases Option.map_eq_some_iff.mp activated with ⟨session, found, rfl⟩
  rcases Option.bind_eq_some_iff.mp found with ⟨value, isCookie, verified⟩
  by_cases young : 2 * (now - session.iat) ≤ auth.ttlMs
  · rw [if_pos young]
    refine revoked.runAuthorizer authorized fun same => ?_
    have early := revoked.verified (presented value isCookie) verified same
    omega
  · rw [if_neg young, if_pos revalidates]
    refine ⟨revoked.issued, fun renewal member => ?_, revoked.grants⟩
    rcases List.mem_append.mp member with before | isNew
    · exact revoked.waiting renewal before
    · cases List.mem_singleton.mp isNew
      exact ordered

theorem Revoked.resume (revoked : Revoked codec auth user instant system) {renewal : Renewal}
    {allowed authorized : Bool} (ordered : renewal.arrivedAt ≤ renewal.now)
    (refuses : renewal.session.sub = user -> instant ≤ renewal.now -> allowed = false) :
    Revoked codec auth user instant (system.resume codec auth renewal allowed authorized) := by
  rw [System.resume]
  by_cases isAllowed : allowed = true
  · have early : renewal.session.sub = user -> renewal.now < instant := by
      intro same
      by_contra late
      exact Bool.false_ne_true ((refuses same (not_lt.mp late)).symm.trans isAllowed)
    rw [if_pos isAllowed]
    refine (revoked.issueSessionCookie fun same => ?_).runAuthorizer authorized fun same => ?_
    · exact Int.le_of_lt (early same)
    · have before := early same
      omega
  · rw [if_neg isAllowed]
    exact revoked

theorem revoked_step {event : Event} (revalidates : auth.revalidates = true)
    (revoked : Revoked codec auth user instant system) (rejects : RejectsFrom user instant system event)
    (stepped : step codec auth system event = some next) : Revoked codec auth user instant next := by
  cases event with
  | login holder now =>
      rw [step] at stepped
      split at stepped
      · cases stepped
        have early : holder.id = user -> now ≤ instant := rejects
        have ticked : Revoked codec auth user instant { system with clock := now } :=
          ⟨revoked.issued, revoked.waiting, revoked.grants⟩
        exact ticked.issueSessionCookie early
      · cases stepped
  | request cookie authorized arrivedAt now =>
      rw [step] at stepped
      split at stepped
      · rename_i enabled
        have ticked : Revoked codec auth user instant { system with clock := now } :=
          ⟨revoked.issued, revoked.waiting, revoked.grants⟩
        cases stepped
        cases activated : ({ system with clock := now } : System).canActivate codec auth cookie authorized
            arrivedAt now with
        | none => exact ticked
        | some granted => exact ticked.canActivate revalidates enabled.2.1 enabled.2.2 activated
      · cases stepped
  | revalidated index allowed authorized =>
      rcases Option.map_eq_some_iff.mp stepped with ⟨renewal, isWaiting, rfl⟩
      have remaining : Revoked codec auth user instant
          { system with waiting := system.waiting.eraseIdx index } :=
        ⟨revoked.issued, fun other member => revoked.waiting other (List.mem_of_mem_eraseIdx member),
          revoked.grants⟩
      exact remaining.resume (revoked.waiting renewal (List.mem_of_getElem? isWaiting))
        (rejects renewal isWaiting)

/-- With a `revalidate` hook that refuses the user from an instant on, and no login of
the user after it, no request with a session of the user is granted that arrives more
than half the lifetime of a cookie later. -/
theorem not_granted_after {start : Int} {events : List Event} (revalidates : auth.revalidates = true)
    (rejects : Transition.Along (step codec auth) (RejectsFrom user instant) (initial start) events)
    (ran : Transition.runFrom (step codec auth) (initial start) events = some system) {grant : Grant}
    (granted : grant ∈ system.grants) (same : grant.session.sub = user) :
    2 * (grant.arrivedAt - instant) ≤ auth.ttlMs := by
  have unissued : Revoked codec auth user instant (initial start) :=
    ⟨fun _ member => (List.not_mem_nil member).elim, fun _ member => (List.not_mem_nil member).elim,
      fun _ member => (List.not_mem_nil member).elim⟩
  have reached : Revoked codec auth user instant system :=
    Transition.invariant_along (fun _ _ _ => revoked_step revalidates) unissued rejects ran
  exact reached.grants grant granted same

/-! ## A run -/

/-- A session in natural numbers, and back. -/
def points (session : TelescopeSession) : List Nat × Option (List Nat) × List (List Nat) × Int × Int :=
  (session.sub.map Char.toNat, session.name.map (List.map Char.toNat),
    session.roles.map (List.map Char.toNat), session.iat, session.exp)

def ofPoints (numbers : List Nat × Option (List Nat) × List (List Nat) × Int × Int) : TelescopeSession :=
  ⟨numbers.1.map Char.ofNat, numbers.2.1.map (List.map Char.ofNat),
    numbers.2.2.1.map (List.map Char.ofNat), numbers.2.2.2.1, numbers.2.2.2.2⟩

theorem ofPoints_points (session : TelescopeSession) : ofPoints (points session) = session := by
  have text : forall text : Text, (text.map Char.toNat).map Char.ofNat = text := by
    intro text
    rw [List.map_map]
    refine (List.map_congr_left fun char _ => ?_).trans (List.map_id _)
    exact Char.ofNat_toNat char
  have texts : forall texts : List Text, (texts.map (List.map Char.toNat)).map (List.map Char.ofNat) = texts := by
    intro texts
    rw [List.map_map]
    exact (List.map_congr_left fun one _ => text one).trans (List.map_id _)
  rcases session with ⟨sub, name, roles, iat, exp⟩
  rw [points, ofPoints]
  dsimp only
  rw [text, texts]
  cases name with
  | none => rfl
  | some name => rw [Option.map_some, Option.map_some, text]

/-- A session as so many letters. -/
def letterCodec : Codec where
  encode session := List.replicate (Encodable.encode (points session) + 1) 'A'
  decode text := (Encodable.decode (text.length - 1)).map ofPoints
  hmac secret _ := 'S' :: secret
  bytes text := text.map Char.toNat
  decode_encode session := by
    rw [List.length_replicate, Nat.add_sub_cancel, Encodable.encodek, Option.map_some, ofPoints_points]
  no_dot session member := absurd (List.eq_of_mem_replicate member) (by decide)

def alice : TelescopeSessionUser := ⟨"alice".toList, none, none⟩

def letterAuth : ResolvedDashboardAuth := ⟨"secret".toList, 100, true⟩

/-- The cookie of a login at the origin of the clock. -/
def aliceCookie : Text := signSessionCookie letterCodec alice letterAuth.secret letterAuth.ttlMs 0

/-- A user revoked at 5 is let in at 10 with a cookie of the login at 0. -/
theorem not_granted_after_alice :
    Exists fun system => Transition.runFrom (step letterCodec letterAuth) (initial 0)
        [.login alice 0, .request (some aliceCookie) true 10 10] = some system ∧
      Exists fun grant => grant ∈ system.grants ∧ grant.session.sub = alice.id ∧
        2 * (grant.arrivedAt - 5) ≤ letterAuth.ttlMs := by
  have verified : verifySessionCookie letterCodec aliceCookie letterAuth.secret 10 =
      some (sessionOf alice letterAuth.ttlMs 0) :=
    verify_sign_of_live (List.cons_ne_nil _ _) (List.cons_ne_nil _ _) (by decide)
  have loggedIn : step letterCodec letterAuth (initial 0) (.login alice 0) =
      some ⟨[aliceCookie], [], [], 0⟩ := rfl
  have letIn : step letterCodec letterAuth ⟨[aliceCookie], [], [], 0⟩
      (.request (some aliceCookie) true 10 10) =
        some ⟨[aliceCookie], [], [⟨sessionOf alice letterAuth.ttlMs 0, 10⟩], 10⟩ := by
    have presented : forall value, some aliceCookie = some value -> value ∈ [aliceCookie] := by
      rintro value ⟨⟩
      exact List.mem_singleton_self _
    rw [step, if_pos ⟨by decide, by decide, presented⟩, canActivate, Option.bind_some, verified]
    rfl
  have rejects : Transition.Along (step letterCodec letterAuth) (RejectsFrom alice.id 5) (initial 0)
      [.login alice 0, .request (some aliceCookie) true 10 10] :=
    Transition.along_cons loggedIn (fun _ => by decide) (Transition.along_cons letIn trivial trivial)
  have ran : Transition.runFrom (step letterCodec letterAuth) (initial 0)
      [.login alice 0, .request (some aliceCookie) true 10 10] =
        some ⟨[aliceCookie], [], [⟨sessionOf alice letterAuth.ttlMs 0, 10⟩], 10⟩ :=
    Transition.runFrom_cons_eq_some.mpr
      ⟨_, loggedIn, Transition.runFrom_cons_eq_some.mpr ⟨_, letIn, rfl⟩⟩
  exact ⟨_, ran, _, List.mem_singleton_self _, rfl,
    not_granted_after rfl rejects ran (List.mem_singleton_self _) rfl⟩

end System

end Auth
end Telescope
