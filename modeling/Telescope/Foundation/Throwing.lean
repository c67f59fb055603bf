import Telescope.Foundation.Program

namespace Telescope

universe u v w

/-!
# Programs that throw

A program that keeps a state between its requests and ends with a value or with a
thrown one.  What it did to its state before a throw stays done.  One assertion
says which values a program lets escape while its requests are answered as
allowed; it has a rule for each way to build a program.
-/

/-- A stateful program that returns a value or throws one. -/
def Throwing (Request : Type u) (Reply : Request -> Type v) (State Thrown α : Type w) :=
  State -> Program Request Reply (Except Thrown α × State)

namespace Throwing

variable {Request : Type u} {Reply : Request -> Type w} {State Thrown α β : Type w}

/-- What follows an outcome: the rest of the program, or the throw. -/
def andThen (next : α -> Throwing Request Reply State Thrown β) :
    Except Thrown α × State -> Program Request Reply (Except Thrown β × State)
  | (.ok value, state) => next value state
  | (.error thrown, state) => .done (.error thrown, state)

/-- What follows an outcome in a `try` block: nothing, or the handler. -/
def orElse (handler : Thrown -> Throwing Request Reply State Thrown α) :
    Except Thrown α × State -> Program Request Reply (Except Thrown α × State)
  | (.ok value, state) => .done (.ok value, state)
  | (.error thrown, state) => handler thrown state

instance : Monad (Throwing Request Reply State Thrown) where
  pure value state := .done (.ok value, state)
  bind first next state := (first state).bind (andThen next)

instance : MonadExceptOf Thrown (Throwing Request Reply State Thrown) where
  throw thrown state := .done (.error thrown, state)
  tryCatch body handler state := (body state).bind (orElse handler)

/-- Make a request. -/
def ask (request : Request) : Throwing Request Reply State Thrown (Reply request) :=
  fun state => .ask request fun reply => .done (.ok reply, state)

/-- Return or throw what was computed. -/
def computed : Except Thrown α -> Throwing Request Reply State Thrown α
  | .ok value => pure value
  | .error thrown => throw thrown

/-- Read the state. -/
def current : Throwing Request Reply State Thrown State := fun state => .done (.ok state, state)

/-- Change the state. -/
def update (change : State -> State) : Throwing Request Reply State Thrown PUnit :=
  fun state => .done (.ok ⟨⟩, change state)

/-! ## What escapes -/

/-- The protocol of a program that is alone and answered as allowed. -/
def answering (allowed : (request : Request) -> Reply request -> Prop) :
    Protocol PUnit.{w + 1} Request Reply where
  interferes _ _ := True
  interferes_refl _ := trivial
  interferes_trans _ _ := trivial
  replies _ request reply _ := allowed request reply

/-- The values with which a program may end. -/
def Outcome (escapes : Thrown -> Prop) (outcome : Except Thrown α × State) : Prop :=
  forall thrown, outcome.1 = .error thrown -> escapes thrown

/-- Under the allowed replies a program started on this state throws only values
that may escape. -/
def Ends (allowed : (request : Request) -> Reply request -> Prop) (escapes : Thrown -> Prop)
    (program : Program Request Reply (Except Thrown α × State)) : Prop :=
  (answering allowed).Ensures (fun _ => True) (fun outcome _ => Outcome escapes outcome) program ⟨⟩

/-- So from every state. -/
structure ThrowsOnly (allowed : (request : Request) -> Reply request -> Prop)
    (escapes : Thrown -> Prop) (attempt : Throwing Request Reply State Thrown α) : Prop where
  ends : forall state, Ends allowed escapes (attempt state)

section Rules

variable {allowed : (request : Request) -> Reply request -> Prop} {escapes : Thrown -> Prop}

theorem ends_ok (value : α) (state : State) :
    Ends allowed escapes
      (.done (.ok value, state) : Program Request Reply (Except Thrown α × State)) :=
  fun _ _ _ failed => by cases failed

theorem ends_error {thrown : Thrown} (may : escapes thrown) (state : State) :
    Ends allowed escapes
      (.done (.error thrown, state) : Program Request Reply (Except Thrown α × State)) := by
  intro _ _ other isOther
  cases isOther
  exact may

/-- An allowed reply leads to a program that ends as well. -/
theorem Ends.answered {request : Request}
    {resume : Reply request -> Program Request Reply (Except Thrown α × State)}
    (ends : Ends allowed escapes (.ask request resume)) {reply : Reply request}
    (isAllowed : allowed request reply) : Ends allowed escapes (resume reply) :=
  (ends ⟨⟩ trivial trivial reply ⟨⟩ isAllowed).2

/-- A program that is over has thrown nothing but what may escape. -/
theorem Ends.outcome {outcome : Except Thrown α × State}
    (ends : Ends allowed escapes (.done outcome : Program Request Reply (Except Thrown α × State))) :
    Outcome escapes outcome := ends ⟨⟩ trivial

theorem throwsOnly_pure (value : α) :
    ThrowsOnly allowed escapes (pure value : Throwing Request Reply State Thrown α) :=
  ⟨ends_ok value⟩

theorem throwsOnly_throw {thrown : Thrown} (may : escapes thrown) :
    ThrowsOnly allowed escapes (throw thrown : Throwing Request Reply State Thrown α) :=
  ⟨ends_error may⟩

theorem throwsOnly_computed {result : Except Thrown α}
    (may : forall thrown, result = .error thrown -> escapes thrown) :
    ThrowsOnly allowed escapes (computed result : Throwing Request Reply State Thrown α) := by
  cases result with
  | ok value => exact throwsOnly_pure value
  | error thrown => exact throwsOnly_throw (may thrown rfl)

theorem throwsOnly_current :
    ThrowsOnly allowed escapes (current : Throwing Request Reply State Thrown State) :=
  ⟨fun state => ends_ok state state⟩

theorem throwsOnly_update (change : State -> State) :
    ThrowsOnly allowed escapes (update change : Throwing Request Reply State Thrown PUnit) :=
  ⟨fun state => ends_ok _ (change state)⟩

/-- The rule of sequencing. -/
theorem throwsOnly_bind {first : Throwing Request Reply State Thrown α}
    {next : α -> Throwing Request Reply State Thrown β} (firstOnly : ThrowsOnly allowed escapes first)
    (nextOnly : forall value, ThrowsOnly allowed escapes (next value)) :
    ThrowsOnly allowed escapes (first >>= next) := by
  refine ⟨fun state => Protocol.Ensures.bind ((firstOnly.ends state).weaken ?_)⟩
  rintro ⟨result, reached⟩ _ may
  cases result with
  | ok value => exact (nextOnly value).ends reached
  | error thrown => exact ends_error (may thrown rfl) reached

/-- The rule of requests. -/
theorem throwsOnly_ask {request : Request}
    {next : Reply request -> Throwing Request Reply State Thrown α}
    (nextOnly : forall reply, allowed request reply -> ThrowsOnly allowed escapes (next reply)) :
    ThrowsOnly allowed escapes (ask request >>= next) :=
  ⟨fun state _ _ _ reply _ isAllowed => ⟨trivial, (nextOnly reply isAllowed).ends state⟩⟩

/-- The rule of `try`: the handler answers for what its body lets escape. -/
theorem throwsOnly_tryCatch {body : Throwing Request Reply State Thrown α}
    {handler : Thrown -> Throwing Request Reply State Thrown α} {reaches : Thrown -> Prop}
    (bodyOnly : ThrowsOnly allowed reaches body)
    (handlerOnly : forall thrown, reaches thrown -> ThrowsOnly allowed escapes (handler thrown)) :
    ThrowsOnly allowed escapes (tryCatch body handler) := by
  refine ⟨fun state => Protocol.Ensures.bind ((bodyOnly.ends state).weaken ?_)⟩
  rintro ⟨result, reached⟩ _ may
  cases result with
  | ok value => exact ends_ok value reached
  | error thrown => exact (handlerOnly thrown (may thrown rfl)).ends reached

end Rules

/-! ## Against a server -/

section Served

variable {World : Type w} (handle : World -> (request : Request) -> Reply request × World)

/-- The run from a state against a server that answers every request at once. -/
def serve (attempt : Throwing Request Reply State Thrown α) (state : State) (world : World) :
    (Except Thrown α × State) × World := (attempt state).run handle world

variable {handle}

theorem serve_bind (first : Throwing Request Reply State Thrown α)
    (next : α -> Throwing Request Reply State Thrown β) (state : State) (world : World) :
    serve handle (first >>= next) state world =
      (andThen next (serve handle first state world).1).run handle
        (serve handle first state world).2 :=
  Program.run_bind handle (first state) (andThen next) world

theorem serve_bind_of_ok {first : Throwing Request Reply State Thrown α}
    (next : α -> Throwing Request Reply State Thrown β) {state middle : State} {world between : World}
    {value : α} (returned : serve handle first state world = ((.ok value, middle), between)) :
    serve handle (first >>= next) state world = serve handle (next value) middle between := by
  rw [serve_bind, returned]
  rfl

/-- A sequence returns where both of its parts do. -/
theorem serve_bind_eq_ok {first : Throwing Request Reply State Thrown α}
    {next : α -> Throwing Request Reply State Thrown β} {state last : State} {world after : World}
    {result : β} :
    serve handle (first >>= next) state world = ((.ok result, last), after) <->
      Exists fun value => Exists fun middle => Exists fun between =>
        serve handle first state world = ((.ok value, middle), between) ∧
          serve handle (next value) middle between = ((.ok result, last), after) := by
  rw [serve_bind]
  rcases serve handle first state world with ⟨⟨outcome, middle⟩, between⟩
  constructor
  · intro returned
    cases outcome with
    | ok value => exact ⟨value, middle, between, rfl, returned⟩
    | error thrown =>
        change ((Except.error thrown, middle), between) = _ at returned
        cases returned
  · rintro ⟨value, _, _, same, rest⟩
    cases same
    exact rest

theorem serve_tryCatch_of_ok {body : Throwing Request Reply State Thrown α}
    {handler : Thrown -> Throwing Request Reply State Thrown α} {state last : State}
    {world after : World} {value : α}
    (returned : serve handle body state world = ((.ok value, last), after)) :
    serve handle (tryCatch body handler) state world = ((.ok value, last), after) := by
  change ((body state).bind (orElse handler)).run handle world = _
  have sequenced := Program.run_bind handle (body state) (orElse handler) world
  rw [show (body state).run handle world = ((.ok value, last), after) from returned] at sequenced
  exact sequenced

/-- Served as allowed, an attempt ends as its assertion says. -/
theorem ThrowsOnly.serve {allowed : (request : Request) -> Reply request -> Prop}
    {escapes : Thrown -> Prop} {attempt : Throwing Request Reply State Thrown α}
    (only : ThrowsOnly allowed escapes attempt)
    (answered : forall world request, allowed request (handle world request).1) (state : State)
    (world : World) : Outcome escapes (serve handle attempt state world).1 := by
  have ends := only.ends state
  unfold Throwing.serve
  generalize attempt state = program at ends
  induction program generalizing world with
  | done outcome => exact ends.outcome
  | ask request resume inductionHypothesis =>
      exact inductionHypothesis _ _ (ends.answered (answered world request))

end Served

end Throwing
end Telescope

namespace Telescope

universe u v w

/-!
# Conversations

A program that is answered until it ends has had a conversation: its requests, each
with the reply it got.  A program is a finite tree, so it ends whatever the replies
are, and what holds of every conversation is computed along the tree.  There is one
rule for each way to build a program that throws.
-/

namespace Program

variable {Request : Type u} {Reply : Request -> Type v} {α : Type w} {β : Type w}

/-- A program ends with a value after a conversation. -/
inductive Plays : Program Request Reply α -> List (Sigma Reply) -> α -> Prop
  | done (value : α) : Plays (.done value) [] value
  | ask {request : Request} {resume : Reply request -> Program Request Reply α} {reply : Reply request}
      {rest : List (Sigma Reply)} {value : α} (resumed : Plays (resume reply) rest value) :
      Plays (.ask request resume) (⟨request, reply⟩ :: rest) value

/-- Every conversation of a program, and the value it ends with, meet a condition. -/
def Concludes : Program Request Reply α -> (List (Sigma Reply) -> α -> Prop) -> Prop
  | .done value, post => post [] value
  | .ask request resume, post =>
      forall reply, (resume reply).Concludes fun rest => post (⟨request, reply⟩ :: rest)

theorem Concludes.plays {program : Program Request Reply α} {post : List (Sigma Reply) -> α -> Prop}
    {said : List (Sigma Reply)} {value : α} (concludes : program.Concludes post)
    (played : program.Plays said value) : post said value := by
  induction played generalizing post with
  | done value => exact concludes
  | ask _resumed inductionHypothesis =>
      exact @inductionHypothesis (fun rest => post (_ :: rest)) (concludes _)

/-- The rule of consequence. -/
theorem Concludes.weaken {program : Program Request Reply α} {post weaker : List (Sigma Reply) -> α -> Prop}
    (concludes : program.Concludes post) (weaken : forall said value, post said value -> weaker said value) :
    program.Concludes weaker := by
  induction program generalizing post weaker with
  | done value => exact weaken [] value concludes
  | ask request resume inductionHypothesis =>
      exact fun reply => inductionHypothesis reply (concludes reply) fun rest value => weaken _ value

/-- The rule of sequencing. -/
theorem Concludes.bind {program : Program Request Reply α} {next : α -> Program Request Reply β}
    {post : List (Sigma Reply) -> β -> Prop}
    (concludes : program.Concludes fun said value => (next value).Concludes fun more => post (said ++ more)) :
    (program.bind next).Concludes post := by
  induction program generalizing post with
  | done value => exact concludes
  | ask request resume inductionHypothesis => exact fun reply => inductionHypothesis reply (concludes reply)

/-- The conversation with a server that answers every request at once. -/
def transcript {World : Type w} (handle : World -> (request : Request) -> Reply request × World) :
    Program Request Reply α -> World -> List (Sigma Reply)
  | .done _value, _world => []
  | .ask request resume, world =>
      ⟨request, (handle world request).1⟩ ::
        transcript handle (resume (handle world request).1) (handle world request).2

theorem plays_transcript {World : Type w}
    (handle : World -> (request : Request) -> Reply request × World)
    (program : Program Request Reply α) (world : World) :
    program.Plays (transcript handle program world) (run handle program world).1 := by
  induction program generalizing world with
  | done value => exact .done value
  | ask request resume inductionHypothesis => exact .ask (inductionHypothesis _ _)

end Program

namespace Throwing

variable {Request : Type u} {Reply : Request -> Type w} {State Thrown α β : Type w}

/-- The attempt ends in a state after a conversation, with a value or a throw. -/
def Plays (attempt : Throwing Request Reply State Thrown α) (state : State) (said : List (Sigma Reply))
    (result : Except Thrown α) (last : State) : Prop :=
  (attempt state).Plays said (result, last)

/-- Every conversation of the attempt, its result and its last state meet a condition. -/
def Concludes (attempt : Throwing Request Reply State Thrown α) (state : State)
    (post : List (Sigma Reply) -> Except Thrown α -> State -> Prop) : Prop :=
  (attempt state).Concludes fun said outcome => post said outcome.1 outcome.2

variable {state : State} {post : List (Sigma Reply) -> Except Thrown α -> State -> Prop}

theorem Concludes.plays {attempt : Throwing Request Reply State Thrown α}
    (concludes : attempt.Concludes state post) {said : List (Sigma Reply)} {result : Except Thrown α}
    {last : State} (played : attempt.Plays state said result last) : post said result last :=
  Program.Concludes.plays concludes played

theorem Concludes.weaken {attempt : Throwing Request Reply State Thrown α}
    {weaker : List (Sigma Reply) -> Except Thrown α -> State -> Prop}
    (concludes : attempt.Concludes state post)
    (weaken : forall said result last, post said result last -> weaker said result last) :
    attempt.Concludes state weaker :=
  Program.Concludes.weaken concludes fun said outcome => weaken said outcome.1 outcome.2

theorem concludes_current {post : List (Sigma Reply) -> Except Thrown State -> State -> Prop}
    (holds : post [] (.ok state) state) :
    (current : Throwing Request Reply State Thrown State).Concludes state post := holds

theorem concludes_update {change : State -> State}
    {post : List (Sigma Reply) -> Except Thrown PUnit -> State -> Prop}
    (holds : post [] (.ok ⟨⟩) (change state)) :
    (update change : Throwing Request Reply State Thrown PUnit).Concludes state post := holds

/-- The rule of sequencing: a throw skips the rest. -/
theorem concludes_bind {first : Throwing Request Reply State Thrown α}
    {next : α -> Throwing Request Reply State Thrown β}
    {post : List (Sigma Reply) -> Except Thrown β -> State -> Prop}
    (concludes : first.Concludes state fun said result middle =>
      match result with
      | .ok value => (next value).Concludes middle fun more => post (said ++ more)
      | .error thrown => post said (.error thrown) middle) :
    (first >>= next).Concludes state post := by
  refine Program.Concludes.bind (Program.Concludes.weaken concludes ?_)
  rintro said ⟨result, middle⟩ holds
  cases result with
  | ok value => exact holds
  | error thrown =>
      change post (said ++ []) (.error thrown) middle
      rw [List.append_nil]
      exact holds

end Throwing
end Telescope
