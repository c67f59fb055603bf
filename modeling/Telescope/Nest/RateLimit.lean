import Telescope.Foundation.TokenBucket
import Telescope.Nest.ClientErrors
import Mathlib.Data.List.Dedup

namespace Telescope
namespace Nest

/-!
# What the rate limiter grants

As long as there is room for all addresses, the bucket of an address depends on the
requests of this address alone.  From one request a minute on it is a token bucket; a
smaller allowance grants the first request without having a token for it, and never has
one again.
-/

namespace ClientErrorRateLimiter

open TokenBucket (Rule Level)

variable {limiter : ClientErrorRateLimiter} {ip key : Units} {nowMs : Rat} {requests : List Request}

/-! ## One address -/

/-- The answer to a request by the bucket of its address, and that bucket afterwards. -/
def answer (limiter : ClientErrorRateLimiter) (known : Option Bucket) (nowMs : Rat) : Bool × Bucket :=
  known.elim (true, ⟨Number.exactAdd limiter.perMinute (.finite (-1)), nowMs⟩)
    fun existing => limiter.spend existing nowMs

/-- The answers to the requests of one address. -/
def answers (limiter : ClientErrorRateLimiter) : Option Bucket -> List Request -> List (Request × Bool)
  | _known, [] => []
  | known, request :: requests =>
      (request, (limiter.answer known request.nowMs).1) ::
        answers limiter (some (limiter.answer known request.nowMs).2) requests

/-- The bucket of one address after its requests. -/
def bucketAfter (limiter : ClientErrorRateLimiter) (known : Option Bucket) (requests : List Request) : Option Bucket :=
  requests.foldl (fun known request => some (limiter.answer known request.nowMs).2) known

theorem tryConsume_fst (limiter : ClientErrorRateLimiter) (ip : Units) (nowMs : Rat) :
    (limiter.tryConsume ip nowMs).1 = (limiter.answer (limiter.buckets.lookup ip) nowMs).1 := by
  rw [tryConsume, answer]
  cases limiter.buckets.lookup ip <;> rfl

/-- The addresses with a bucket are among some that all have room. -/
structure Tracks (limiter : ClientErrorRateLimiter) (addresses : List Units) : Prop where
  room : addresses.length ≤ limiter.maxTrackedIps
  known : forall ip, ip ∈ limiter.buckets.groups.map Prod.fst -> ip ∈ addresses

variable {addresses : List Units}

theorem Tracks.evict_eq (tracks : limiter.Tracks addresses) (among : ip ∈ addresses)
    (unknown : limiter.buckets.lookup ip = none) : limiter.evict = limiter.buckets := by
  have absent : ip ∉ limiter.buckets.groups.map Prod.fst := by
    intro member
    rcases List.mem_map.mp member with ⟨⟨key, bucket⟩, isGroup, rfl⟩
    rw [Grouping.mem_iff_lookup.mp isGroup] at unknown
    cases unknown
  have distinct : (ip :: limiter.buckets.groups.map Prod.fst).Nodup :=
    List.nodup_cons.mpr ⟨absent, limiter.buckets.distinct⟩
  have fewer := (List.subperm_of_subset distinct (List.cons_subset.mpr ⟨among, tracks.known⟩)).length_le
  rw [List.length_cons, List.length_map] at fewer
  rw [evict, Grouping.mk.injEq, Recency.shed_eq_nil _ (not_le.mpr (fewer.trans tracks.room))]

/-- A request changes the bucket of its address only. -/
theorem Tracks.lookup_tryConsume (tracks : limiter.Tracks addresses) (among : ip ∈ addresses) (nowMs : Rat)
    (key : Units) :
    (limiter.tryConsume ip nowMs).2.buckets.lookup key =
      if key = ip then some (limiter.answer (limiter.buckets.lookup ip) nowMs).2 else limiter.buckets.lookup key := by
  cases found : limiter.buckets.lookup ip with
  | none =>
      rw [tryConsume, found]
      change (limiter.evict.upsert _ _ _).lookup key = _
      rw [tracks.evict_eq among found, Grouping.lookup_upsert, found]
      rfl
  | some existing =>
      rw [tryConsume, found]
      change (limiter.buckets.upsert _ _ _).lookup key = _
      rw [Grouping.lookup_upsert, found]
      rfl

theorem Tracks.tryConsume (tracks : limiter.Tracks addresses) (among : ip ∈ addresses) (nowMs : Rat) :
    (limiter.tryConsume ip nowMs).2.Tracks addresses := by
  have grown : forall bucket change, forall key,
      key ∈ (limiter.buckets.upsert ip bucket change).groups.map Prod.fst -> key ∈ addresses := by
    intro bucket change key member
    rcases (Grouping.keys_upsertGroups _ _ _ _ key).mp member with isNew | isKnown
    · exact isNew ▸ among
    · exact tracks.known key isKnown
  rw [ClientErrorRateLimiter.tryConsume]
  cases found : limiter.buckets.lookup ip with
  | none =>
      refine ⟨tracks.room, ?_⟩
      change forall key, key ∈ (limiter.evict.upsert _ _ _).groups.map Prod.fst -> key ∈ addresses
      rw [tracks.evict_eq among found]
      exact grown _ _
  | some existing => exact ⟨tracks.room, grown _ _⟩

/-- A request leaves the settings alone. -/
theorem answer_tryConsume (limiter : ClientErrorRateLimiter) (ip : Units) (nowMs : Rat) :
    (limiter.tryConsume ip nowMs).2.answer = limiter.answer := by
  rw [tryConsume]
  cases limiter.buckets.lookup ip <;> rfl

theorem answers_tryConsume (limiter : ClientErrorRateLimiter) (ip : Units) (nowMs : Rat) (known : Option Bucket)
    (requests : List Request) :
    (limiter.tryConsume ip nowMs).2.answers known requests = limiter.answers known requests := by
  induction requests generalizing known with
  | nil => rfl
  | cons request requests inductionHypothesis =>
      rw [answers, answers, answer_tryConsume, inductionHypothesis]

theorem bucketAfter_tryConsume (limiter : ClientErrorRateLimiter) (ip : Units) (nowMs : Rat) (known : Option Bucket)
    (requests : List Request) :
    (limiter.tryConsume ip nowMs).2.bucketAfter known requests = limiter.bucketAfter known requests := by
  rw [bucketAfter, bucketAfter, answer_tryConsume]

/-- What an address is answered depends on its own requests only. -/
theorem Tracks.filter_serve (tracks : limiter.Tracks addresses)
    (among : forall request, request ∈ requests -> request.ip ∈ addresses) (ip : Units) :
    (limiter.serve requests).filter (fun answer => decide (answer.1.ip = ip)) =
      limiter.answers (limiter.buckets.lookup ip) (requests.filter fun request => decide (request.ip = ip)) := by
  induction requests generalizing limiter with
  | nil => rfl
  | cons request requests inductionHypothesis =>
      rw [List.forall_mem_cons] at among
      have rest := inductionHypothesis (tracks.tryConsume among.1 request.nowMs) among.2
      rw [tracks.lookup_tryConsume among.1, answers_tryConsume] at rest
      rw [serve]
      by_cases own : request.ip = ip
      · rw [List.filter_cons, List.filter_cons, if_pos (decide_eq_true own), if_pos (decide_eq_true own), rest,
          if_pos own.symm, tryConsume_fst, own]
        rfl
      · rw [List.filter_cons, List.filter_cons, if_neg (by rwa [decide_eq_true_eq]), if_neg (by rwa [decide_eq_true_eq]),
          rest, if_neg (Ne.symm own)]

/-- And so does its bucket. -/
theorem Tracks.lookup_after (tracks : limiter.Tracks addresses)
    (among : forall request, request ∈ requests -> request.ip ∈ addresses) (ip : Units) :
    (limiter.after requests).buckets.lookup ip =
      limiter.bucketAfter (limiter.buckets.lookup ip) (requests.filter fun request => decide (request.ip = ip)) := by
  induction requests generalizing limiter with
  | nil => rfl
  | cons request requests inductionHypothesis =>
      rw [List.forall_mem_cons] at among
      have rest := inductionHypothesis (tracks.tryConsume among.1 request.nowMs) among.2
      rw [tracks.lookup_tryConsume among.1, bucketAfter_tryConsume] at rest
      rw [after, List.foldl_cons, ← after, rest]
      by_cases own : request.ip = ip
      · rw [List.filter_cons, if_pos (decide_eq_true own), if_pos own.symm, own]
        rfl
      · rw [List.filter_cons, if_neg (Ne.symm own), if_neg (by rwa [decide_eq_true_eq])]

theorem serve_map_fst (limiter : ClientErrorRateLimiter) (requests : List Request) :
    (limiter.serve requests).map Prod.fst = requests := by
  induction requests generalizing limiter with
  | nil => rfl
  | cons request requests inductionHypothesis =>
      rw [serve, List.map_cons, inductionHypothesis]

/-- The answers to an address are those of a run of its requests alone. -/
theorem Tracks.filter_serve_eq (tracks : limiter.Tracks addresses)
    (among : forall request, request ∈ requests -> request.ip ∈ addresses) (ip : Units) :
    (limiter.serve requests).filter (fun answer => decide (answer.1.ip = ip)) =
      limiter.serve (requests.filter fun request => decide (request.ip = ip)) := by
  have amongOwn : forall request, request ∈ requests.filter (fun request => decide (request.ip = ip)) ->
      request.ip ∈ addresses := fun request member => among request (List.mem_of_mem_filter member)
  have alone := tracks.filter_serve amongOwn ip
  rw [List.filter_filter] at alone
  simp only [Bool.and_self] at alone
  rw [tracks.filter_serve among, ← alone]
  refine List.filter_eq_self.mpr fun answer member => ?_
  have isRequest := List.mem_map_of_mem (f := Prod.fst) member
  rw [serve_map_fst] at isRequest
  exact (List.mem_filter.mp isRequest).2

/-! ## A finite allowance -/

variable {rate : Rat}

/-- The token bucket of an allowance. -/
def rule (rate : Rat) : Rule Rat := ⟨rate, rate / 60000⟩

def ofLevel (level : Level Rat) : Bucket := ⟨.finite level.tokens, level.filledAt⟩

/-- The limiter has a finite allowance. -/
def Allows (limiter : ClientErrorRateLimiter) (rate : Rat) : Prop :=
  limiter.perMinute = .finite rate ∧ limiter.refillPerMs = .finite (rate / 60000)

theorem allows_new (positive : 0 < rate) (maxTrackedIps : Option Nat) : (new (.finite rate) maxTrackedIps).Allows rate := by
  have isRate : guarded (.finite rate) = .finite rate := if_pos (decide_eq_true positive)
  refine ⟨isRate, ?_⟩
  change Number.exactMul (guarded (.finite rate)) _ = _
  rw [isRate]
  exact congrArg Number.finite (mul_one_div rate 60000)

theorem min_finite (left right : Rat) : Number.min (.finite left) (.finite right) = .finite (min left right) := by
  change (if decide (right < left) = true then Number.finite right else Number.finite left) = _
  by_cases smaller : right < left
  · rw [if_pos (decide_eq_true smaller), min_eq_right smaller.le]
  · rw [if_neg (by rwa [decide_eq_true_eq]), min_eq_left (not_lt.mp smaller)]

theorem Allows.refilled_eq (allows : limiter.Allows rate) (level : Level Rat) (nowMs : Rat) :
    limiter.refilled (ofLevel level) nowMs = .finite ((rule rate).available level nowMs) := by
  rw [refilled, allows.1, allows.2]
  exact min_finite _ _

theorem Allows.answer_eq (allows : limiter.Allows rate) (level : Option (Level Rat)) (nowMs : Rat) :
    limiter.answer (level.map ofLevel) nowMs =
      (((rule rate).spend level nowMs).1, ofLevel ((rule rate).spend level nowMs).2) := by
  cases level with
  | none =>
      change (true, Bucket.mk (Number.exactAdd limiter.perMinute (.finite (-1))) nowMs) = _
      rw [allows.1]
      change (true, Bucket.mk (.finite (rate + -1)) nowMs) = (true, Bucket.mk (.finite (rate - 1)) nowMs)
      rw [sub_eq_add_neg]
  | some level =>
      change limiter.spend (ofLevel level) nowMs = _
      rw [spend, allows.refilled_eq, Rule.spend, Number.lt]
      by_cases empty : (rule rate).available level nowMs < 1
      · rw [if_pos (decide_eq_true empty), if_pos empty]
        rfl
      · rw [if_neg (by rwa [decide_eq_true_eq]), if_neg empty, sub_eq_add_neg]
        rfl

theorem Allows.answers_eq (allows : limiter.Allows rate) (level : Option (Level Rat)) (requests : List Request) :
    (limiter.answers (level.map ofLevel) requests).map (fun answer => (answer.1.nowMs, answer.2)) =
      (rule rate).answers level (requests.map Request.nowMs) := by
  induction requests generalizing level with
  | nil => rfl
  | cons request requests inductionHypothesis =>
      rw [answers, List.map_cons, List.map_cons, Rule.answers, allows.answer_eq]
      exact congrArg _ (inductionHypothesis (some _))

theorem Allows.bucketAfter_eq (allows : limiter.Allows rate) (level : Option (Level Rat)) (requests : List Request) :
    limiter.bucketAfter (level.map ofLevel) requests =
      ((rule rate).after level (requests.map Request.nowMs)).map ofLevel := by
  induction requests generalizing level with
  | nil => rfl
  | cons request requests inductionHypothesis =>
      rw [bucketAfter, List.foldl_cons, ← bucketAfter, allows.answer_eq]
      exact inductionHypothesis (some _)

/-- What is allowed to an address is what its requests are granted by a token bucket. -/
theorem length_allowedBetween (allows : limiter.Allows rate) (fresh : limiter.buckets = .empty)
    (tracks : limiter.Tracks addresses) (among : forall request, request ∈ requests -> request.ip ∈ addresses)
    (ip : Units) (start stop : Rat) :
    (allowedBetween ip start stop (limiter.serve requests)).length =
      (TokenBucket.grantedBetween start stop ((rule rate).answers none
        ((requests.filter fun request => decide (request.ip = ip)).map Request.nowMs))).length := by
  have split : allowedBetween ip start stop (limiter.serve requests) =
      ((limiter.serve requests).filter fun answer => decide (answer.1.ip = ip)).filter fun answer =>
        decide (answer.2 = true ∧ start ≤ answer.1.nowMs ∧ answer.1.nowMs ≤ stop) := by
    rw [allowedBetween, List.filter_filter]
    refine List.filter_congr fun answer _ => ?_
    rw [← Bool.decide_and]
    exact decide_eq_decide.mpr and_comm.symm
  rw [split, tracks.filter_serve among, fresh, ← allows.answers_eq, TokenBucket.grantedBetween, List.filter_map,
    List.length_map]
  rfl

/-! ## An infinite allowance -/

/-- Infinitely many tokens, or what is left when infinitely many are refilled in no time. -/
def Unlimited (bucket : Bucket) : Prop := bucket.tokens = .infinity false ∨ bucket.tokens = .nan

theorem answer_unlimited (infinite : limiter.perMinute = .infinity false) {known : Option Bucket}
    (unlimited : forall bucket, known = some bucket -> Unlimited bucket) (nowMs : Rat) :
    (limiter.answer known nowMs).1 = true ∧ Unlimited (limiter.answer known nowMs).2 := by
  have spent : forall tokens : Number, tokens = .infinity false ∨ tokens = .nan ->
      tokens.lt (.finite 1) = false ∧ (tokens.exactAdd (.finite (-1)) = .infinity false ∨
        tokens.exactAdd (.finite (-1)) = .nan) := by
    rintro tokens (rfl | rfl)
    · exact ⟨rfl, .inl rfl⟩
    · exact ⟨rfl, .inr rfl⟩
  cases known with
  | none => exact ⟨rfl, (spent _ (.inl infinite)).2⟩
  | some bucket =>
      have refilled : limiter.refilled bucket nowMs = .infinity false ∨ limiter.refilled bucket nowMs = .nan := by
        rw [refilled, infinite]
        rcases unlimited bucket rfl with isInfinite | isNan
        · rw [isInfinite]
          rcases Number.exactMul _ limiter.refillPerMs with _ | ⟨_ | _⟩ | _
          · exact .inr rfl
          · exact .inl rfl
          · exact .inr rfl
          · exact .inl rfl
        · rw [isNan]
          exact .inr rfl
      change (limiter.spend bucket nowMs).1 = true ∧ Unlimited (limiter.spend bucket nowMs).2
      rw [spend, if_neg (by rw [(spent _ refilled).1]; exact Bool.false_ne_true)]
      exact ⟨rfl, (spent _ refilled).2⟩

theorem bucketAfter_unlimited (infinite : limiter.perMinute = .infinity false) {known : Option Bucket}
    (unlimited : forall bucket, known = some bucket -> Unlimited bucket) (requests : List Request) :
    forall bucket, limiter.bucketAfter known requests = some bucket -> Unlimited bucket := by
  induction requests generalizing known with
  | nil => exact unlimited
  | cons request requests inductionHypothesis =>
      refine inductionHypothesis fun bucket isBucket => ?_
      exact Option.some.inj isBucket ▸ (answer_unlimited infinite unlimited request.nowMs).2

/-! ## The contract -/

variable {perMinute : Number} {maxTrackedIps : Option Nat}

theorem tracks_new (perMinute : Number) (fits : Fits maxTrackedIps requests) :
    (new perMinute maxTrackedIps).Tracks (requests.map Request.ip).dedup where
  room := fits
  known _ip member := (List.not_mem_nil member).elim

theorem among_dedup (requests : List Request) :
    forall request, request ∈ requests -> request.ip ∈ (requests.map Request.ip).dedup :=
  fun _request member => List.mem_dedup.mpr (List.mem_map_of_mem member)

theorem answer_after (limiter : ClientErrorRateLimiter) (requests : List Request) :
    (limiter.after requests).answer = limiter.answer := by
  induction requests generalizing limiter with
  | nil => rfl
  | cons request requests inductionHypothesis =>
      rw [after, List.foldl_cons, ← after, inductionHypothesis, answer_tryConsume]

/-- The next answer to an address depends on its requests so far. -/
theorem tryConsume_after (perMinute : Number) (fits : Fits maxTrackedIps requests) (ip : Units) (nowMs : Rat) :
    (((new perMinute maxTrackedIps).after requests).tryConsume ip nowMs).1 =
      ((new perMinute maxTrackedIps).answer
        ((new perMinute maxTrackedIps).bucketAfter none (requests.filter fun request => decide (request.ip = ip)))
        nowMs).1 := by
  rw [tryConsume_fst, answer_after, (tracks_new perMinute fits).lookup_after (among_dedup requests)]
  rfl

theorem contract_infinite (fits : Fits maxTrackedIps requests) :
    Contract (.infinity false) maxTrackedIps requests where
  bounded _ip _start _stop _rate _stretch isRate := by cases isRate
  independent ip := (tracks_new _ fits).filter_serve_eq (among_dedup requests) ip
  allowedAgain := by
    refine ⟨0, fun ip nowMs _ _ => ?_⟩
    rw [tryConsume_after _ fits]
    exact (answer_unlimited rfl (bucketAfter_unlimited rfl (fun _ isNone => (Option.some_ne_none _ isNone.symm).elim) _) nowMs).1

theorem contract_whole (whole : 1 ≤ rate) (ordered : Ordered requests) (fits : Fits maxTrackedIps requests) :
    Contract (.finite rate) maxTrackedIps requests := by
  have positive : 0 < rate := zero_lt_one.trans_le whole
  have allows := allows_new positive maxTrackedIps
  have filling : 0 ≤ rate / 60000 := div_nonneg positive.le (by norm_num)
  have orderedOwn : forall ip : Units, ((requests.filter fun request => decide (request.ip = ip)).map
      Request.nowMs).Pairwise fun earlier later => earlier ≤ later :=
    fun ip => List.pairwise_map.mpr (List.Pairwise.sublist List.filter_sublist ordered)
  refine ⟨?_, fun ip => (tracks_new _ fits).filter_serve_eq (among_dedup requests) ip, 60000 / rate, ?_⟩
  · intro ip start stop other stretch isRate
    cases isRate
    rw [length_allowedBetween allows rfl (tracks_new _ fits) (among_dedup requests)]
    exact TokenBucket.grantedBetween_le (rule rate) whole filling stretch
      (fun _ isNone => (Option.some_ne_none _ isNone.symm).elim) (orderedOwn ip) fun _ isNone => (Option.some_ne_none _ isNone.symm).elim
  · intro ip nowMs _ waited
    rw [tryConsume_after _ fits]
    have isAfter := allows.bucketAfter_eq none (requests.filter fun request => decide (request.ip = ip))
    cases level : (rule rate).after none ((requests.filter fun request => decide (request.ip = ip)).map
        Request.nowMs) with
    | none =>
        rw [level] at isAfter
        rw [show (none : Option Bucket) = (none : Option (Level Rat)).map ofLevel from rfl, isAfter]
        rfl
    | some known =>
        rw [level] at isAfter
        rcases TokenBucket.within_after (rule rate) whole filling (orderedOwn ip) level with ⟨within, isTime⟩
        rcases List.mem_map.mp isTime with ⟨request, member, isFilled⟩
        rcases List.mem_filter.mp member with ⟨isRequest, isOwn⟩
        have longEnough := waited request isRequest (of_decide_eq_true isOwn)
        rw [isFilled] at longEnough
        rw [show (none : Option Bucket) = (none : Option (Level Rat)).map ofLevel from rfl, isAfter, allows.answer_eq]
        refine TokenBucket.granted_of_waited (rule rate) whole within ?_
        calc
          (1 : Rat) = 60000 / rate * (rate / 60000) := by field_simp
          _ ≤ (nowMs - known.filledAt) * (rate / 60000) :=
            mul_le_mul_of_nonneg_right (le_sub_iff_add_le'.mpr longEnough) filling

/-- With less than one request a minute, the first request has already got too much. -/
theorem not_contract_cons (fraction : rate < 1) (request : Request) (requests : List Request) :
    ¬ Contract (.finite rate) maxTrackedIps (request :: requests) := by
  intro contract
  have bound := contract.bounded request.ip request.nowMs request.nowMs rate le_rfl rfl
  rw [sub_self, zero_mul, add_zero, serve, tryConsume_fst, allowedBetween,
    List.filter_cons, if_pos (decide_eq_true ⟨rfl, rfl, le_rfl, le_rfl⟩), List.length_cons, Nat.cast_add_one] at bound
  exact absurd (bound.trans_lt fraction) (not_lt.mpr (le_add_of_nonneg_left (Nat.cast_nonneg _)))

/-- And never gets anything again. -/
theorem Allows.locked_out (allows : limiter.Allows rate) (fraction : rate < 1) (level : Level Rat) (nowMs : Rat) :
    (limiter.answer (some (ofLevel level)) nowMs).1 = false := by
  have isAnswer := allows.answer_eq (some level) nowMs
  rw [Option.map_some] at isAnswer
  have empty : (rule rate).available level nowMs < 1 := (min_le_left _ _).trans_lt fraction
  rw [isAnswer, Rule.spend, if_pos empty]

theorem contract_nil (positive : 0 < rate) : Contract (.finite rate) maxTrackedIps [] where
  bounded _ip start stop other stretch isRate := by
    cases isRate
    exact add_nonneg positive.le (mul_nonneg (sub_nonneg.mpr stretch) (div_nonneg positive.le (by norm_num)))
  independent _ip := rfl
  allowedAgain := ⟨0, fun _ip _nowMs _ _ => rfl⟩

/-- Two addresses, one of which asks again half a minute later. -/
def twoClients : List Request :=
  [⟨units "10.0.0.1", 0⟩, ⟨units "10.0.0.2", 1000⟩, ⟨units "10.0.0.1", 30000⟩]

end ClientErrorRateLimiter

end Nest
end Telescope
