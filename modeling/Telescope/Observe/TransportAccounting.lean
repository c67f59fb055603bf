import Telescope.Observe.Transport

namespace Telescope
namespace Observe

/-!
# What a send costs

Every send is counted once, as sent or as failed, whatever the collector answers.  A
method of the transport has a cost: what it adds to the counters, whether it opens the
breaker, and what its conversation shows.  Costs add up along a program, so the cost of a
send is read off its exits.
-/

variable {Batch Body : Type}

/-- A call and its answer. -/
abbrev Exchange (Batch Body : Type) := Sigma (@Awaited.Answer Batch Body)

namespace Exchange

/-- The exchange is a fetch. -/
def isFetch (exchange : Exchange Batch Body) : Bool :=
  match exchange with
  | ⟨⟨.fetch _url _init, _tally⟩, _answer⟩ => true
  | _ => false

/-- The collector has rejected the credentials. -/
def denies (exchange : Exchange Batch Body) : Bool :=
  match exchange with
  | ⟨⟨.fetch _url _init, _tally⟩, .ok response⟩ => isAuthStatus response.status
  | _ => false

/-- The failure of a fetch or of the encoding has no text. -/
def unreported (exchange : Exchange Batch Body) : Bool :=
  match exchange with
  | ⟨⟨.fetch _url _init, _tally⟩, .error failure⟩ => failure.describe.toBool = false
  | ⟨⟨.encode _batch, _tally⟩, .error failure⟩ => failure.describe.toBool = false
  | _ => false

end Exchange

/-- How many fetches a conversation has. -/
def fetches (said : List (Exchange Batch Body)) : Nat := said.countP Exchange.isFetch

/-- Of the failed sends that the counters show, some were dropped for good. -/
def ObserveTransportCounters.Consistent (tally : ObserveTransportCounters) : Prop :=
  tally.droppedPermanent ≤ tally.failed

/-! ## Costs -/

/-- What a method adds to the counters and does to the breaker, and what its
conversation shows. -/
structure Cost where
  fetches : Nat
  sent : Nat
  failed : Nat
  retried : Nat
  droppedPermanent : Nat
  disables : Bool
  denied : Bool
  unreported : Bool

namespace Cost

def none : Cost := ⟨0, 0, 0, 0, 0, false, false, false⟩

/-- One cost and then another. -/
def and (first second : Cost) : Cost where
  fetches := first.fetches + second.fetches
  sent := first.sent + second.sent
  failed := first.failed + second.failed
  retried := first.retried + second.retried
  droppedPermanent := first.droppedPermanent + second.droppedPermanent
  disables := first.disables || second.disables
  denied := first.denied || second.denied
  unreported := first.unreported || second.unreported

theorem none_and (cost : Cost) : none.and cost = cost := by
  cases cost
  simp only [none, and, Nat.zero_add, Bool.false_or]

theorem and_none (cost : Cost) : cost.and none = cost := by
  cases cost
  simp only [none, and, Nat.add_zero, Bool.or_false]

theorem and_assoc (first second third : Cost) : (first.and second).and third = first.and (second.and third) := by
  simp only [and, Nat.add_assoc, Bool.or_assoc]

/-- The cost of a conversation that led from one state to another. -/
structure Of (cost : Cost) (first : Transport) (said : List (Exchange Batch Body)) (last : Transport) :
    Prop where
  fetches : Observe.fetches said = cost.fetches
  sent : last.tally.sent = first.tally.sent + cost.sent
  failed : last.tally.failed = first.tally.failed + cost.failed
  retried : last.tally.retried = first.tally.retried + cost.retried
  droppedPermanent : last.tally.droppedPermanent = first.tally.droppedPermanent + cost.droppedPermanent
  disables : last.authDisabled = (first.authDisabled || cost.disables)
  denied : said.any Exchange.denies = cost.denied
  unreported : said.any Exchange.unreported = cost.unreported
  consistent : cost.droppedPermanent ≤ cost.failed
  observed : first.tally.Consistent -> forall exchange, exchange ∈ said -> exchange.1.tally.Consistent

variable {first middle last : Transport} {said more : List (Exchange Batch Body)} {cost rest : Cost}

theorem Of.keeps (paid : cost.Of first said last) (consistent : first.tally.Consistent) :
    last.tally.Consistent := by
  have gained := paid.consistent
  rw [ObserveTransportCounters.Consistent] at consistent ⊢
  rw [paid.failed, paid.droppedPermanent]
  omega

theorem Of.append (paid : cost.Of first said middle) (paidMore : rest.Of middle more last) :
    (cost.and rest).Of first (said ++ more) last where
  fetches := by rw [Observe.fetches, List.countP_append, and, ← paid.fetches, ← paidMore.fetches]; rfl
  sent := by rw [paidMore.sent, paid.sent, and, Nat.add_assoc]
  failed := by rw [paidMore.failed, paid.failed, and, Nat.add_assoc]
  retried := by rw [paidMore.retried, paid.retried, and, Nat.add_assoc]
  droppedPermanent := by rw [paidMore.droppedPermanent, paid.droppedPermanent, and, Nat.add_assoc]
  disables := by rw [paidMore.disables, paid.disables, and, Bool.or_assoc]
  denied := by rw [List.any_append, paid.denied, paidMore.denied, and]
  unreported := by rw [List.any_append, paid.unreported, paidMore.unreported, and]
  consistent := Nat.add_le_add paid.consistent paidMore.consistent
  observed consistent exchange member := by
    rcases List.mem_append.mp member with before | after
    · exact paid.observed consistent exchange before
    · exact paidMore.observed (paid.keeps consistent) exchange after

end Cost

/-- A method that ends with a value and has this cost. -/
def Costs {α : Type} (method : Method Batch Body α) (cost : Cost) : Prop :=
  forall state, method.Concludes state fun said result last =>
    (Exists fun value => result = .ok value) ∧ cost.Of state said last

/-- After a cost has been paid, the whole cost of a method and its result meet a
condition. -/
def EndsAfter {α : Type} (paid : Cost) (method : Method Batch Body α) (claim : Cost -> Except Failure α -> Prop) :
    Prop :=
  forall state, method.Concludes state fun said result last =>
    Exists fun cost => cost.Of state said last ∧ claim (paid.and cost) result

variable {paid : Cost}

theorem endsAfter_and {α : Type} {cost : Cost} {method : Method Batch Body α}
    {claim : Cost -> Except Failure α -> Prop} :
    EndsAfter (paid.and cost) method claim <-> EndsAfter cost method fun whole => claim (paid.and whole) := by
  simp only [EndsAfter, Cost.and_assoc]

theorem endsAfter_none {α : Type} {method : Method Batch Body α} {claim : Cost -> Except Failure α -> Prop} :
    EndsAfter .none method claim <-> forall state, method.Concludes state fun said result last =>
      Exists fun cost => cost.Of state said last ∧ claim cost result := by
  simp only [EndsAfter, Cost.none_and]

theorem Costs.bind {α β : Type} {first : Method Batch Body α} {next : α -> Method Batch Body β} {cost : Cost}
    {claim : Cost -> Except Failure β -> Prop} (costs : Costs first cost)
    (ends : forall value, EndsAfter (paid.and cost) (next value) claim) :
    EndsAfter paid (first >>= next) claim := by
  intro state
  refine Throwing.concludes_bind ((costs state).weaken ?_)
  rintro said result middle ⟨⟨value, rfl⟩, firstPaid⟩
  refine (ends value middle).weaken ?_
  rintro more result last ⟨rest, paidMore, claimed⟩
  rw [Cost.and_assoc] at claimed
  exact ⟨cost.and rest, firstPaid.append paidMore, claimed⟩

theorem Costs.andThen {α β : Type} {first : Method Batch Body α} {next : α -> Method Batch Body β}
    {cost rest : Cost} (costs : Costs first cost) (costsMore : forall value, Costs (next value) rest) :
    Costs (first >>= next) (cost.and rest) := by
  intro state
  refine Throwing.concludes_bind ((costs state).weaken ?_)
  rintro said result middle ⟨⟨value, rfl⟩, paid⟩
  refine (costsMore value middle).weaken ?_
  rintro more result last ⟨returned, paidMore⟩
  exact ⟨returned, paid.append paidMore⟩

theorem Cost.of_none (state : Transport) : none.Of state ([] : List (Exchange Batch Body)) state where
  fetches := rfl
  sent := rfl
  failed := rfl
  retried := rfl
  droppedPermanent := rfl
  disables := (Bool.or_false _).symm
  denied := rfl
  unreported := rfl
  consistent := Nat.le_refl 0
  observed _consistent _exchange member := (List.not_mem_nil member).elim

theorem costs_pure {α : Type} (value : α) : Costs (pure value : Method Batch Body α) .none :=
  fun state => ⟨⟨value, rfl⟩, Cost.of_none state⟩

theorem ends_pure {α : Type} {value : α} {claim : Cost -> Except Failure α -> Prop} (claimed : claim paid (.ok value)) :
    EndsAfter paid (pure value : Method Batch Body α) claim := by
  rw [<- paid.and_none] at claimed
  exact fun state => ⟨.none, Cost.of_none state, claimed⟩

/-! ## The methods -/

theorem costs_update {change : Transport -> Transport} {cost : Cost}
    (paid : forall state, cost.Of state ([] : List (Exchange Batch Body)) (change state)) :
    Costs (Throwing.update change : Method Batch Body Unit) cost :=
  fun state => ⟨⟨(), rfl⟩, paid state⟩

/-- The call is neither a fetch nor the encoding of a batch. -/
def WorldCall.IsQuiet : WorldCall Batch Body -> Prop
  | .encode _batch => False
  | .fetch _url _init => False
  | _ => True

/-- One call costs what its exchange shows. -/
theorem of_exchange (state : Transport) (call : WorldCall Batch Body) (answer : call.Answer) {cost : Cost}
    (fetched : fetches [(⟨⟨call, state.tally⟩, answer⟩ : Exchange Batch Body)] = cost.fetches)
    (free : cost = { Cost.none with
      fetches := cost.fetches, denied := cost.denied, unreported := cost.unreported })
    (denied : Exchange.denies (⟨⟨call, state.tally⟩, answer⟩ : Exchange Batch Body) = cost.denied)
    (unreported : Exchange.unreported (⟨⟨call, state.tally⟩, answer⟩ : Exchange Batch Body) = cost.unreported) :
    cost.Of state [(⟨⟨call, state.tally⟩, answer⟩ : Exchange Batch Body)] state := by
  rw [free]
  refine ⟨fetched, rfl, rfl, rfl, rfl, (Bool.or_false _).symm, ?_, ?_, Nat.le_refl 0, ?_⟩
  · exact (Bool.or_false _).trans denied
  · exact (Bool.or_false _).trans unreported
  · intro consistent exchange member
    rw [List.mem_singleton.mp member]
    exact consistent

theorem costs_await {call : WorldCall Batch Body} (quiet : call.IsQuiet) : Costs (await call) .none := by
  intro state answer
  refine ⟨⟨answer, rfl⟩, ?_⟩
  cases call with
  | encode _batch => exact quiet.elim
  | fetch _url _init => exact quiet.elim
  | _ => exact of_exchange state _ answer rfl rfl rfl rfl

theorem costs_clock : Costs (clock : Method Batch Body Number) .none := @costs_await _ _ .clock trivial

theorem costs_warn (message : Units) : Costs (warn message : Method Batch Body Unit) .none :=
  @costs_await _ _ (.warn message) trivial

/-- A change of the counters. -/
theorem costs_count {change : ObserveTransportCounters -> ObserveTransportCounters}
    {sent failed retried droppedPermanent : Nat}
    (counts : forall tally, (change tally).sent = tally.sent + sent ∧ (change tally).failed = tally.failed + failed ∧
      (change tally).retried = tally.retried + retried ∧
      (change tally).droppedPermanent = tally.droppedPermanent + droppedPermanent)
    (consistent : droppedPermanent ≤ failed) :
    Costs (count change : Method Batch Body Unit)
      ⟨0, sent, failed, retried, droppedPermanent, false, false, false⟩ := by
  refine costs_update fun state => ?_
  rcases counts state.tally with ⟨isSent, isFailed, isRetried, isDropped⟩
  exact ⟨rfl, isSent, isFailed, isRetried, isDropped, (Bool.or_false _).symm, rfl, rfl, consistent,
    fun _consistent _exchange member => (List.not_mem_nil member).elim⟩

theorem costs_giveUp (message : Units) :
    Costs (giveUp message : Method Batch Body Unit) { Cost.none with failed := 1 } := by
  have failed : Costs (count fun tally => { tally with failed := tally.failed + 1 } : Method Batch Body Unit)
      { Cost.none with failed := 1 } :=
    costs_count (fun _tally => ⟨rfl, rfl, rfl, rfl⟩) (Nat.zero_le 1)
  exact failed.andThen fun _value => costs_warn message

theorem costs_noteError : Costs (noteError : Method Batch Body Unit) .none := by
  have noted : forall now : Number,
      Costs (count fun tally => { tally with lastErrorAt := some now } : Method Batch Body Unit) .none :=
    fun now => costs_count (fun _tally => ⟨rfl, rfl, rfl, rfl⟩) (Nat.le_refl 0)
  exact costs_clock.andThen noted

/-- Reading the body of a response changes nothing. -/
theorem readBodySnippet_concludes (response : CollectorResponse) (state : Transport) :
    (readBodySnippet response : Method Batch Body Units).Concludes state fun said result last =>
      last = state ∧ (Exists fun detail => result = .ok detail) ∧ Cost.none.Of state said last := by
  intro text
  have read : Cost.none.Of state [(⟨⟨.text response, state.tally⟩, text⟩ : Exchange Batch Body)] state :=
    of_exchange state _ text rfl rfl rfl rfl
  cases text with
  | error _error => exact ⟨rfl, ⟨_, rfl⟩, read⟩
  | ok text => exact ⟨rfl, ⟨_, rfl⟩, read⟩

theorem costs_readBodySnippet (response : CollectorResponse) :
    Costs (readBodySnippet response : Method Batch Body Units) .none :=
  fun state => (readBodySnippet_concludes response state).weaken fun _said _result _last => And.right

theorem costs_backoffMs (attempt : Nat) (retryAfterMs : Option Number) :
    Costs (backoffMs attempt retryAfterMs : Method Batch Body Number) .none := by
  cases retryAfterMs with
  | some retryAfterMs => exact costs_pure _
  | none =>
      have drawn : Costs (random : Method Batch Body Rat) .none := @costs_await _ _ .random trivial
      exact drawn.andThen fun _random => costs_pure _

theorem costs_pause (ms : Number) : Costs (pause ms : Method Batch Body Unit) { Cost.none with retried := 1 } := by
  have retried : Costs (count fun tally => { tally with retried := tally.retried + 1 } : Method Batch Body Unit)
      { Cost.none with retried := 1 } :=
    costs_count (fun _tally => ⟨rfl, rfl, rfl, rfl⟩) (Nat.le_refl 0)
  exact retried.andThen fun _value => @costs_await _ _ (.timeout ms) trivial

/-- A change of what is not counted. -/
theorem costs_change {change : Transport -> Transport} (sameTally : forall state, (change state).tally = state.tally)
    (sameBreaker : forall state, (change state).authDisabled = state.authDisabled) :
    Costs (Throwing.update change : Method Batch Body Unit) .none := by
  refine costs_update fun state => ?_
  refine ⟨rfl, ?_, ?_, ?_, ?_, ?_, rfl, rfl, Nat.le_refl 0,
    fun _consistent _exchange member => (List.not_mem_nil member).elim⟩
  · rw [sameTally]; rfl
  · rw [sameTally]; rfl
  · rw [sameTally]; rfl
  · rw [sameTally]; rfl
  · rw [sameBreaker]; exact (Bool.or_false _).symm

/-- The logger is told about the breaker. -/
theorem costs_tell (now : Number) (message : Units) :
    Costs (do
        Throwing.update (Transport.logAt now)
        warn message : Method Batch Body Unit) .none :=
  (@costs_change _ _ (Transport.logAt now) (fun _state => rfl) fun _state => rfl).andThen
    fun _value => costs_warn message

/-- The breaker opens, and the logger is told. -/
theorem costs_opening (message : Units) :
    Costs (do
        Throwing.update Transport.disable
        let now <- clock
        Throwing.update (Transport.logAt now)
        warn message : Method Batch Body Unit)
      { Cost.none with disables := true } := by
  have opens : Costs (Throwing.update Transport.disable : Method Batch Body Unit)
      { Cost.none with disables := true } :=
    costs_update fun state => ⟨rfl, rfl, rfl, rfl, rfl, (Bool.or_true _).symm, rfl, rfl, Nat.le_refl 0,
      fun _consistent _exchange member => (List.not_mem_nil member).elim⟩
  exact opens.andThen fun _value => costs_clock.andThen fun now => costs_tell now message

/-- A rejection of the credentials opens the breaker. -/
theorem costs_noteAuthFailure (response : CollectorResponse) :
    Costs (noteAuthFailure response : Method Batch Body Unit)
      { Cost.none with failed := 1, droppedPermanent := 1, disables := true } := by
  intro state
  have opens : AUTH_FAILURES_BEFORE_DISABLE ≤ state.countRejection.consecutiveAuthFailures := Nat.le_add_left 1 _
  have counted : ({ Cost.none with failed := 1, droppedPermanent := 1 } : Cost).Of state
      ([] : List (Exchange Batch Body)) state.countRejection :=
    ⟨rfl, rfl, rfl, rfl, rfl, (Bool.or_false _).symm, rfl, rfl, Nat.le_refl 1,
      fun _consistent _exchange member => (List.not_mem_nil member).elim⟩
  refine Throwing.concludes_bind (Throwing.concludes_update ?_)
  refine Throwing.concludes_bind ((readBodySnippet_concludes _ _).weaken ?_)
  rintro said _ _ ⟨rfl, ⟨detail, rfl⟩, read⟩
  refine Throwing.concludes_bind (Throwing.concludes_current ?_)
  dsimp only
  rw [if_pos opens]
  refine (costs_opening _ _).weaken ?_
  rintro more result last ⟨returned, opened⟩
  exact ⟨returned, counted.append (read.append opened)⟩

/-- A send that the open breaker drops. -/
theorem costs_noteSuppressedDrop :
    Costs (noteSuppressedDrop : Method Batch Body Unit)
      { Cost.none with failed := 1, droppedPermanent := 1 } := by
  have counted : Costs (Throwing.update Transport.countSuppressed : Method Batch Body Unit)
      { Cost.none with failed := 1, droppedPermanent := 1 } :=
    costs_update fun state => ⟨rfl, rfl, rfl, rfl, rfl, (Bool.or_false _).symm, rfl, rfl, Nat.le_refl 1,
      fun _consistent _exchange member => (List.not_mem_nil member).elim⟩
  have read : Costs (Throwing.current : Method Batch Body Transport) .none :=
    fun state => ⟨⟨state, rfl⟩, Cost.of_none state⟩
  change Costs (_ >>= _) (({ Cost.none with failed := 1, droppedPermanent := 1 } : Cost).and
    (Cost.none.and (Cost.none.and .none)))
  refine counted.andThen fun _value => costs_clock.andThen fun now => read.andThen fun state => ?_
  split
  · exact costs_pure ()
  · exact costs_tell now _

/-! ## The attempts -/

/-- What a fetch that was answered costs. -/
def Cost.fetched (answer : Except Failure CollectorResponse) : Cost :=
  match answer with
  | .error failure => { Cost.none with fetches := 1, unreported := failure.describe.toBool = false }
  | .ok response => { Cost.none with fetches := 1, denied := isAuthStatus response.status }

/-- What an encoding that was answered costs. -/
def Cost.encoded (answer : Except Failure Body) : Cost :=
  match answer with
  | .error failure => { Cost.none with unreported := failure.describe.toBool = false }
  | .ok _body => .none

variable (options : TransportOptions)

theorem ends_post {β : Type} {body : Body} {next : Except Failure CollectorResponse -> Method Batch Body β}
    {claim : Cost -> Except Failure β -> Prop}
    (ends : forall answer, EndsAfter (paid.and (Cost.fetched answer)) (next answer) claim) :
    EndsAfter paid (post options body >>= next) claim := by
  refine fun state => Throwing.concludes_bind fun answer => ?_
  change Throwing.Concludes (next answer) state fun more result last =>
    Exists fun cost => cost.Of state ([⟨_, answer⟩] ++ more) last ∧ claim (paid.and cost) result
  refine (ends answer state).weaken ?_
  rintro more result last ⟨rest, paidMore, claimed⟩
  rw [Cost.and_assoc] at claimed
  refine ⟨_, Cost.Of.append ?_ paidMore, claimed⟩
  cases answer with
  | error failure => exact of_exchange state _ _ rfl rfl rfl rfl
  | ok response => exact of_exchange state _ _ rfl rfl rfl rfl

theorem ends_encode {β : Type} {batch : Batch} {next : Except Failure Body -> Method Batch Body β}
    {claim : Cost -> Except Failure β -> Prop}
    (ends : forall answer, EndsAfter (paid.and (Cost.encoded answer)) (next answer) claim) :
    EndsAfter paid (encode batch >>= next) claim := by
  refine fun state => Throwing.concludes_bind fun answer => ?_
  change Throwing.Concludes (next answer) state fun more result last =>
    Exists fun cost => cost.Of state ([⟨_, answer⟩] ++ more) last ∧ claim (paid.and cost) result
  refine (ends answer state).weaken ?_
  rintro more result last ⟨rest, paidMore, claimed⟩
  rw [Cost.and_assoc] at claimed
  refine ⟨_, Cost.Of.append ?_ paidMore, claimed⟩
  cases answer with
  | error failure => exact of_exchange state _ _ rfl rfl rfl rfl
  | ok body => exact of_exchange state _ _ rfl rfl rfl rfl

/-- The text of a failure, or the throw of a failure that has none. -/
theorem ends_described {β : Type} {failure : Failure} {next : Units -> Method Batch Body β}
    {claim : Cost -> Except Failure β -> Prop}
    (ends : forall text, failure.describe = .ok text -> EndsAfter paid (next text) claim)
    (throws : forall thrown, failure.describe = .error thrown -> claim paid (.error thrown)) :
    EndsAfter paid (Throwing.computed failure.describe >>= next) claim := by
  intro state
  cases described : failure.describe with
  | ok text => exact ends text described state
  | error thrown =>
      have claimed := throws thrown described
      rw [<- paid.and_none] at claimed
      exact ⟨.none, Cost.of_none state, claimed⟩

/-- The send is over: it counts as sent or as failed by its value, and throws only for a
failure that has no text. -/
structure Counted (cost : Cost) (result : Except Failure Bool) : Prop where
  accepted : forall accepted, result = .ok accepted ->
    cost.sent = accepted.toNat ∧ cost.failed = (!accepted).toNat
  rejected : forall thrown, result = .error thrown -> cost.unreported = true
  breaker : cost.denied = cost.disables

theorem counted_of_ok {cost : Cost} {accepted : Bool} (sent : cost.sent = accepted.toNat)
    (failed : cost.failed = (!accepted).toNat) (breaker : cost.denied = cost.disables) :
    Counted cost (.ok accepted) := by
  refine ⟨?_, fun _thrown threw => (by cases threw), breaker⟩
  rintro _ ⟨⟩
  exact ⟨sent, failed⟩

/-- A send that is given up on. -/
theorem ends_giveUp {claim : Cost -> Except Failure Bool -> Prop} (message : Units)
    (claimed : claim (paid.and { Cost.none with failed := 1 }) (.ok false)) :
    EndsAfter paid (do
        giveUp message
        pure false : Method Batch Body Bool) claim :=
  (costs_giveUp message).bind fun _value => ends_pure claimed

/-- A send that is given up on for good. -/
theorem ends_drop {claim : Cost -> Except Failure Bool -> Prop} (message : Units)
    (claimed : claim (paid.and { Cost.none with failed := 1, droppedPermanent := 1 }) (.ok false)) :
    EndsAfter paid (do
        count fun tally => { tally with droppedPermanent := tally.droppedPermanent + 1 }
        giveUp message
        pure false : Method Batch Body Bool) claim := by
  intro state answer
  refine ⟨{ Cost.none with failed := 1, droppedPermanent := 1 }, ?_, claimed⟩
  refine ⟨rfl, rfl, rfl, rfl, rfl, (Bool.or_false _).symm, rfl, rfl, Nat.le_refl 1, ?_⟩
  intro consistent exchange member
  rw [List.mem_singleton.mp member]
  exact Nat.succ_le_succ consistent

/-- The costs of attempts that were retried. -/
structure Retried (attempts : Nat) (paid : Cost) : Prop where
  fetches : paid.fetches = attempts
  retried : paid.retried = attempts
  sent : paid.sent = 0
  failed : paid.failed = 0
  denied : paid.denied = false
  disables : paid.disables = false

/-- The attempts are over. -/
structure Settles (attempts : Nat) (cost : Cost) (result : Except Failure Bool) : Prop where
  counted : Counted cost result
  fetches : cost.fetches ≤ attempts
  retried : cost.fetches = cost.retried + 1

/-- After some attempts, one more that ends the send. -/
theorem Retried.settles {done attempts : Nat} {cost : Cost} {accepted : Bool} (retried : Retried done paid)
    (left : done < attempts) (sent : cost.sent = accepted.toNat) (failed : cost.failed = (!accepted).toNat)
    (breaker : cost.denied = cost.disables) (fetches : cost.fetches = 1) (pauses : cost.retried = 0) :
    Settles attempts (paid.and cost) (.ok accepted) := by
  refine ⟨counted_of_ok ?_ ?_ ?_, ?_, ?_⟩
  · rw [Cost.and, retried.sent, Nat.zero_add, sent]
  · rw [Cost.and, retried.failed, Nat.zero_add, failed]
  · rw [Cost.and, retried.denied, retried.disables, breaker]
  · rw [Cost.and, retried.fetches, fetches]
    exact left
  · change paid.fetches + cost.fetches = paid.retried + cost.retried + 1
    rw [retried.fetches, fetches, retried.retried, pauses]

/-- After some attempts, one more that fails without a text. -/
theorem Retried.throws {done attempts : Nat} {cost : Cost} {thrown : Failure} (retried : Retried done paid)
    (left : done < attempts) (unreported : cost.unreported = true) (breaker : cost.denied = cost.disables)
    (fetches : cost.fetches = 1) (pauses : cost.retried = 0) :
    Settles attempts (paid.and cost) (.error thrown) := by
  refine ⟨⟨fun _accepted returned => (by cases returned), fun _thrown _threw => ?_, ?_⟩, ?_, ?_⟩
  · rw [Cost.and, unreported, Bool.or_true]
  · rw [Cost.and, retried.denied, retried.disables, breaker]
  · rw [Cost.and, retried.fetches, fetches]
    exact left
  · change paid.fetches + cost.fetches = paid.retried + cost.retried + 1
    rw [retried.fetches, fetches, retried.retried, pauses]

/-- After some attempts, one more that is retried. -/
theorem Retried.retry {done : Nat} {cost : Cost} (retried : Retried done paid) (sent : cost.sent = 0)
    (failed : cost.failed = 0) (denied : cost.denied = false) (disables : cost.disables = false)
    (fetches : cost.fetches = 1) (pauses : cost.retried = 1) : Retried (done + 1) (paid.and cost) where
  fetches := by rw [Cost.and, retried.fetches, fetches]
  retried := by rw [Cost.and, retried.retried, pauses]
  sent := by rw [Cost.and, retried.sent, sent]
  failed := by rw [Cost.and, retried.failed, failed]
  denied := by rw [Cost.and, retried.denied, denied]; rfl
  disables := by rw [Cost.and, retried.disables, disables]; rfl

theorem isAuthStatus_of_ok {response : CollectorResponse} (accepted : response.ok = true) :
    isAuthStatus response.status = false := by
  have range := response.ok_iff.mp accepted
  refine decide_eq_false fun isAuth => ?_
  omega

theorem unreported_of_throws {failure thrown : Failure} (threw : failure.describe = .error thrown) :
    decide (failure.describe.toBool = false) = true := by
  rw [threw]
  rfl

/-- A send that the collector accepts. -/
theorem ends_accept {claim : Cost -> Except Failure Bool -> Prop}
    (claimed : claim (paid.and { Cost.none with sent := 1 }) (.ok true)) :
    EndsAfter paid (do
        count fun tally => { tally with sent := tally.sent + 1 }
        Throwing.update fun state : Transport => { state with consecutiveAuthFailures := 0 }
        pure true : Method Batch Body Bool) claim := by
  have counted : Costs (count fun tally => { tally with sent := tally.sent + 1 } : Method Batch Body Unit)
      { Cost.none with sent := 1 } :=
    costs_count (fun _tally => ⟨rfl, rfl, rfl, rfl⟩) (Nat.le_refl 0)
  have reset : Costs (Throwing.update fun state : Transport => { state with consecutiveAuthFailures := 0 } :
      Method Batch Body Unit) .none :=
    costs_change (fun _state => rfl) fun _state => rfl
  refine counted.bind fun _value => reset.bind fun _value => ends_pure ?_
  rw [Cost.and_none]
  exact claimed

/-- One attempt: it settles the send, or what is left of the attempts does. -/
theorem attemptAll_step {body : Body} {attempts remaining done : Nat} (retried : Retried done paid)
    (left : done < attempts) (next : attempts ≤ attempts - remaining ∨ forall paid, Retried (done + 1) paid ->
      EndsAfter paid (attemptAll options body attempts remaining : Method Batch Body Bool) (Settles attempts)) :
    EndsAfter paid (attemptAll options body attempts (remaining + 1) : Method Batch Body Bool) (Settles attempts) := by
  rw [<- paid.and_none, endsAfter_and]
  refine ends_post options fun answer => ?_
  cases answer with
  | error failure =>
      refine costs_noteError.bind fun _value => ?_
      split
      · refine ends_described (fun text _described => ?_) fun thrown threw => ?_
        · exact ends_giveUp _ (retried.settles left rfl rfl rfl rfl rfl)
        · refine retried.throws left ?_ rfl rfl rfl
          change (false || decide (failure.describe.toBool = false) || false) = true
          rw [unreported_of_throws threw]
          rfl
      · rename_i more
        refine (costs_backoffMs _ _).bind fun ms => (costs_pause ms).bind fun _value => ?_
        rw [<- endsAfter_and]
        exact next.resolve_left more _ (retried.retry rfl rfl rfl rfl rfl rfl)
  | ok response =>
      have noted : Costs (count fun tally => { tally with lastStatus := some response.status } :
          Method Batch Body Unit) .none := costs_count (fun _tally => ⟨rfl, rfl, rfl, rfl⟩) (Nat.le_refl 0)
      refine noted.bind fun _value => ?_
      by_cases accepted : response.ok = true
      · rw [if_pos accepted]
        refine ends_accept (retried.settles left rfl rfl ?_ rfl rfl)
        rw [Cost.fetched, isAuthStatus_of_ok accepted]
        rfl
      · rw [if_neg accepted]
        refine costs_noteError.bind fun _value => ?_
        by_cases isAuth : isAuthStatus response.status = true
        · rw [if_pos isAuth]
          refine (costs_noteAuthFailure response).bind fun _value => ends_pure ?_
          refine retried.settles left rfl rfl ?_ rfl rfl
          rw [Cost.fetched, isAuth]
          rfl
        · rw [if_neg isAuth]
          have other : isAuthStatus response.status = false := Bool.eq_false_iff.mpr isAuth
          rw [Cost.fetched, other]
          split
          · refine (costs_readBodySnippet response).bind fun detail => ?_
            exact ends_drop _ (retried.settles left rfl rfl rfl rfl rfl)
          · split
            · exact ends_giveUp _ (retried.settles left rfl rfl rfl rfl rfl)
            · rename_i more
              refine costs_clock.bind fun now => ?_
              refine (costs_backoffMs _ _).bind fun ms => (costs_pause ms).bind fun _value => ?_
              rw [<- endsAfter_and]
              exact next.resolve_left more _ (retried.retry rfl rfl rfl rfl rfl rfl)

/-- The attempts that remain settle the send. -/
theorem attemptAll_ends {body : Body} {attempts remaining done : Nat} (retried : Retried done paid)
    (all : done + (remaining + 1) = attempts) :
    EndsAfter paid (attemptAll options body attempts (remaining + 1) : Method Batch Body Bool) (Settles attempts) := by
  induction remaining generalizing done paid with
  | zero => exact attemptAll_step options retried (by omega) (.inl (Nat.le_refl attempts))
  | succ remaining inductionHypothesis =>
      refine attemptAll_step options retried (by omega) (.inr fun paid retriedMore => ?_)
      exact inductionHypothesis retriedMore (by omega)

/-! ## A send -/

/-- The send is counted, and it made all its fetches but the first after a pause. -/
structure SendCost (limit : Nat) (disabled : Bool) (cost : Cost) (result : Except Failure Bool) : Prop where
  counted : Counted cost result
  fetches : cost.fetches ≤ limit
  retried : cost.retried = cost.fetches - 1
  shut : disabled = true -> cost.fetches = 0

theorem TransportOptions.attempts_pos : 0 < options.attempts :=
  Int.lt_toNat.mpr (lt_of_lt_of_le Int.one_pos (le_max_left 1 _))

theorem send_concludes (batch : Batch) (state : Transport) :
    (send options batch : Method Batch Body Bool).Concludes state fun said result last =>
      Exists fun cost => cost.Of state said last ∧ SendCost options.attempts state.authDisabled cost result := by
  refine Throwing.concludes_bind (Throwing.concludes_current ?_)
  by_cases disabled : state.authDisabled = true
  · have ends : EndsAfter .none (do
        noteSuppressedDrop
        pure false : Method Batch Body Bool) (SendCost options.attempts state.authDisabled) := by
      refine costs_noteSuppressedDrop.bind fun _value => ends_pure ?_
      exact ⟨counted_of_ok rfl rfl rfl, Nat.zero_le _, rfl, fun _disabled => rfl⟩
    rw [endsAfter_none] at ends
    dsimp only
    rw [if_pos disabled]
    exact ends state
  · have ends : EndsAfter .none (encode batch >>= fun encoded => (
        match encoded with
        | .error error => do
            noteError
            let described <- Throwing.computed error.describe
            giveUp (units "could not encode a batch: " ++ described)
            pure false
        | .ok body => attemptAll options body options.attempts options.attempts : Method Batch Body Bool))
        (SendCost options.attempts state.authDisabled) := by
      refine ends_encode fun answer => ?_
      cases answer with
      | error failure =>
          refine costs_noteError.bind fun _value => ends_described (fun text _described => ?_) fun thrown threw => ?_
          · exact ends_giveUp _ ⟨counted_of_ok rfl rfl rfl, Nat.zero_le _, rfl, fun _disabled => rfl⟩
          · refine ⟨⟨fun _accepted returned => (by cases returned), fun _thrown _threw => ?_, rfl⟩, Nat.zero_le _, rfl,
              fun _disabled => rfl⟩
            change (false || decide (failure.describe.toBool = false) || false) = true
            rw [unreported_of_throws threw]
            rfl
      | ok body =>
          rcases Nat.exists_eq_succ_of_ne_zero options.attempts_pos.ne' with ⟨remaining, isAttempts⟩
          have started : Retried 0 (Cost.none.and (Cost.encoded (.ok body))) := ⟨rfl, rfl, rfl, rfl, rfl, rfl⟩
          have settles : EndsAfter (Cost.none.and (Cost.encoded (.ok body)))
              (attemptAll options body options.attempts (remaining + 1) : Method Batch Body Bool)
              (Settles options.attempts) :=
            attemptAll_ends options started (by omega)
          rw [<- Nat.succ_eq_add_one, <- isAttempts] at settles
          refine fun state => (settles state).weaken ?_
          rintro said result last ⟨cost, paid, settled⟩
          refine ⟨cost, paid, settled.counted, settled.fetches, ?_, fun was => (disabled was).elim⟩
          exact (congrArg (· - 1) settled.retried).symm
    rw [endsAfter_none] at ends
    dsimp only
    rw [if_neg disabled]
    exact ends state

/-! ## Runs -/

/-- A send that is over: what was said, and how its promise settled. -/
structure Sent (Batch Body : Type) where
  batch : Batch
  said : List (Exchange Batch Body)
  result : Except Failure Bool

/-- One send after the other. -/
inductive Sends : Transport -> List (Sent Batch Body) -> Transport -> Prop
  | none (state : Transport) : Sends state [] state
  | more {first middle last : Transport} {sent : Sent Batch Body} {rest : List (Sent Batch Body)}
      (played : (send options sent.batch).Plays first sent.said sent.result middle)
      (others : Sends middle rest last) : Sends first (sent :: rest) last

/-- The collector has rejected the credentials in one of the sends. -/
def Denied (history : List (Sent Batch Body)) : Prop :=
  Exists fun sent => sent ∈ history ∧ Exists fun exchange => exchange ∈ sent.said ∧ exchange.denies = true

/-- Every failure of a fetch or of the encoding has a text, as every `Error` has. -/
def Reported (said : List (Exchange Batch Body)) : Prop :=
  forall exchange, exchange ∈ said -> exchange.unreported = false

variable {options}

theorem Sends.keeps {first last : Transport} {history : List (Sent Batch Body)}
    (sends : Sends options first history last) (consistent : first.tally.Consistent) :
    last.tally.Consistent ∧ (first.authDisabled = true ∨ Denied history -> last.authDisabled = true) := by
  induction sends with
  | none state =>
      refine ⟨consistent, ?_⟩
      rintro (disabled | ⟨_sent, member, _denied⟩)
      · exact disabled
      · exact (List.not_mem_nil member).elim
  | @more first middle last sent rest played others inductionHypothesis =>
      rcases (send_concludes options sent.batch first).plays played with ⟨cost, paid, sendCost⟩
      rcases inductionHypothesis (paid.keeps consistent) with ⟨kept, shut⟩
      refine ⟨kept, fun before => shut ?_⟩
      rcases before with disabled | ⟨other, member, exchange, inOther, denied⟩
      · refine .inl ?_
        rw [paid.disables, disabled, Bool.true_or]
      · rcases List.mem_cons.mp member with rfl | later
        · refine .inl ?_
          have shown : other.said.any Exchange.denies = true := List.any_eq_true.mpr ⟨exchange, inOther, denied⟩
          rw [paid.disables, <- sendCost.counted.breaker, <- paid.denied, shown, Bool.or_true]
        · exact .inr ⟨other, later, exchange, inOther, denied⟩

/-- Three attempts at a collector. -/
def threeAttempts : TransportOptions where
  endpoint := units "https://collector"
  appKey := units "key"
  appSecret := units "secret"
  maxRetries := 3
  readers := ⟨fun _text => .nan, fun _text => .nan⟩

/-- A collector that does not know the credentials answers, and its bodies are not read. -/
def answerUnauthorized (world : Unit) (awaited : Awaited Unit Unit) : awaited.Answer × Unit :=
  match awaited with
  | ⟨.encode _batch, _tally⟩ => (.ok (), world)
  | ⟨.fetch _url _init, _tally⟩ => (.ok ⟨401, false, .absent, by decide⟩, world)
  | ⟨.text _response, _tally⟩ => (.error (.error (units "TypeError") (units "terminated")), world)
  | ⟨.clock, _tally⟩ => (.finite 5, world)
  | ⟨.random, _tally⟩ => ((0 : Rat), world)
  | ⟨.timeout _ms, _tally⟩ => ((), world)
  | ⟨.warn _message, _tally⟩ => ((), world)

/-- A send to that collector. -/
def unauthorizedSend (state : Transport) : Sent Unit Unit × Transport :=
  let program : Program (Awaited Unit Unit) Awaited.Answer (Except Failure Bool × Transport) :=
    send threeAttempts () state
  (⟨(), program.transcript answerUnauthorized (), (program.run answerUnauthorized ()).1.1⟩,
    (program.run answerUnauthorized ()).1.2)

end Observe
end Telescope
