import Mathlib.Logic.Relation

namespace Telescope

universe u v w

/-!
# Interacting programs

A program that awaits other parties is a tree of requests and of what it does
with each reply.  While it waits, the world it shares with others changes.  A
protocol says how the world may change under interference and which replies a
request may receive; an assertion about a program is closed under both.  A
process keeps a memory and runs one program at a time; a pool runs any number of
programs, each of which may stop for good.  Their invariants follow from one
assertion for each program that may be started.
-/

/-- A program that ends with a value or waits for the reply to a request. -/
inductive Program (Request : Type u) (Reply : Request -> Type v) (α : Type w)
  | done (value : α)
  | ask (request : Request) (resume : Reply request -> Program Request Reply α)

namespace Program

variable {Request : Type u} {Reply : Request -> Type v} {α : Type w} {β : Type w}

def bind (program : Program Request Reply α) (next : α -> Program Request Reply β) :
    Program Request Reply β :=
  match program with
  | done value => next value
  | ask request resume => ask request fun reply => (resume reply).bind next

instance : Monad (Program Request Reply) where
  pure := done
  bind := bind

/-- The run of a program against a server that answers every request at once. -/
def run {World : Type w} (handle : World -> (request : Request) -> Reply request × World) :
    Program Request Reply α -> World -> α × World
  | done value, world => (value, world)
  | ask request resume, world =>
      run handle (resume (handle world request).1) (handle world request).2

theorem run_bind {World : Type w}
    (handle : World -> (request : Request) -> Reply request × World)
    (program : Program Request Reply α) (next : α -> Program Request Reply β) (world : World) :
    run handle (program >>= next) world =
      run handle (next (run handle program world).1) (run handle program world).2 := by
  induction program generalizing world with
  | done value => rfl
  | ask request resume inductionHypothesis => exact inductionHypothesis _ _

end Program

/-- How the world changes under a waiting program, and how it is answered. -/
structure Protocol (World : Type w) (Request : Type u) (Reply : Request -> Type v) where
  interferes : World -> World -> Prop
  interferes_refl : forall world, interferes world world
  interferes_trans : forall {first second third},
    interferes first second -> interferes second third -> interferes first third
  replies : World -> (request : Request) -> Reply request -> World -> Prop

namespace Protocol

variable {World : Type w} {Request : Type u} {Reply : Request -> Type v}

/-- The part of a protocol in which every request is made and answered under a
condition. -/
def meeting (protocol : Protocol World Request Reply)
    (condition : World -> (request : Request) -> Reply request -> Prop) :
    Protocol World Request Reply where
  interferes := protocol.interferes
  interferes_refl := protocol.interferes_refl
  interferes_trans := protocol.interferes_trans
  replies world request reply next :=
    condition world request reply ∧ protocol.replies world request reply next

/-- Interference keeps an assertion. -/
def Stable (protocol : Protocol World Request Reply) (assertion : World -> Prop) : Prop :=
  forall world now, protocol.interferes world now -> assertion world -> assertion now

/-- A request that is made where the precondition holds is answered so that the
invariant and the postcondition do. -/
def Answers (protocol : Protocol World Request Reply) (invariant pre : World -> Prop)
    (request : Request) (post : Reply request -> World -> Prop) : Prop :=
  forall world reply next, pre world -> invariant world ->
    protocol.replies world request reply next -> invariant next ∧ post reply next

/-! ## Assertions -/

section Assertions

variable {α : Type w} {β : Type w} (protocol : Protocol World Request Reply)
  (invariant : World -> Prop)

/-- From this world on, while the invariant holds, the program keeps it at every
reply and ends with a value and a world that meet the postcondition. -/
def Ensures (post : α -> World -> Prop) : Program Request Reply α -> World -> Prop
  | .done value, world => forall now, protocol.interferes world now -> post value now
  | .ask request resume, world =>
      forall now, protocol.interferes world now -> invariant now ->
        forall reply next, protocol.replies now request reply next ->
          invariant next ∧ Ensures post (resume reply) next

variable {protocol invariant}

/-- An assertion is closed under interference. -/
theorem Ensures.interfere {post : α -> World -> Prop} {program : Program Request Reply α}
    {world now : World} (ensures : protocol.Ensures invariant post program world)
    (changed : protocol.interferes world now) : protocol.Ensures invariant post program now := by
  cases program with
  | done value => exact fun later more => ensures later (protocol.interferes_trans changed more)
  | ask request resume => exact fun later more => ensures later (protocol.interferes_trans changed more)

/-- The rule of consequence. -/
theorem Ensures.weaken {post weaker : α -> World -> Prop} {program : Program Request Reply α}
    {world : World} (ensures : protocol.Ensures invariant post program world)
    (weaken : forall value world, post value world -> weaker value world) :
    protocol.Ensures invariant weaker program world := by
  induction program generalizing world with
  | done value => exact fun now changed => weaken value now (ensures now changed)
  | ask request resume inductionHypothesis =>
      intro now changed holds reply next replied
      rcases ensures now changed holds reply next replied with ⟨kept, rest⟩
      exact ⟨kept, inductionHypothesis reply rest⟩

/-- The rule of sequencing. -/
theorem Ensures.bind {post : β -> World -> Prop} {program : Program Request Reply α}
    {next : α -> Program Request Reply β} {world : World}
    (ensures : protocol.Ensures invariant
      (fun value now => protocol.Ensures invariant post (next value) now) program world) :
    protocol.Ensures invariant post (program >>= next) world := by
  induction program generalizing world with
  | done value => exact ensures world (protocol.interferes_refl world)
  | ask request resume inductionHypothesis =>
      intro now changed holds reply later replied
      rcases ensures now changed holds reply later replied with ⟨kept, rest⟩
      exact ⟨kept, inductionHypothesis reply rest⟩

/-- The rule of requests. -/
theorem Ensures.call {Reply : Request -> Type w} {protocol : Protocol World Request Reply}
    {post : α -> World -> Prop} {request : Request}
    {next : Reply request -> Program Request Reply α} {world : World}
    (answered : forall now, protocol.interferes world now -> invariant now ->
      forall reply later, protocol.replies now request reply later ->
        invariant later ∧ protocol.Ensures invariant post (next reply) later) :
    protocol.Ensures invariant post (Program.ask request Program.done >>= next) world :=
  answered

/-- The rule of requests, for what is known of their answers. -/
theorem Ensures.answered {Reply : Request -> Type w} {protocol : Protocol World Request Reply}
    {pre : World -> Prop} {post : α -> World -> Prop} {request : Request}
    {reached : Reply request -> World -> Prop}
    {next : Reply request -> Program Request Reply α} {world : World}
    (stable : protocol.Stable pre) (answers : protocol.Answers invariant pre request reached)
    (goOn : forall reply now, reached reply now -> protocol.Ensures invariant post (next reply) now)
    (holds : pre world) :
    protocol.Ensures invariant post (Program.ask request Program.done >>= next) world := by
  refine Ensures.call fun now changed kept reply later replied => ?_
  rcases answers now reply later (stable world now changed holds) kept replied with ⟨still, met⟩
  exact ⟨still, goOn reply later met⟩

/-- The frame rule: what every change and every reply keeps, a program keeps. -/
theorem Ensures.frame {post : α -> World -> Prop} {program : Program Request Reply α}
    {evolves : World -> World -> Prop} {first world : World}
    (transitive : forall {first second third}, evolves first second -> evolves second third ->
      evolves first third)
    (changes : forall {world now}, protocol.interferes world now -> evolves world now)
    (replies : forall {world request reply next}, protocol.replies world request reply next ->
      evolves world next)
    (ensures : protocol.Ensures invariant post program world) (reached : evolves first world) :
    protocol.Ensures invariant (fun value now => post value now ∧ evolves first now) program
      world := by
  induction program generalizing world with
  | done value =>
      exact fun now changed => ⟨ensures now changed, transitive reached (changes changed)⟩
  | ask request resume inductionHypothesis =>
      intro now changed holds reply next replied
      rcases ensures now changed holds reply next replied with ⟨kept, rest⟩
      exact ⟨kept, inductionHypothesis reply rest
        (transitive reached (transitive (changes changed) (replies replied)))⟩

/-- A program that ends at once ensures what interference keeps. -/
theorem Ensures.done {post : α -> World -> Prop} {value : α} {world : World}
    (stable : protocol.Stable (post value)) (holds : post value world) :
    protocol.Ensures invariant post (.done value) world :=
  fun now changed => stable world now changed holds

end Assertions

/-! ## Processes -/

/-- A process: the world, its memory and the program it is running, if any. -/
structure Process (World : Type w) (Request : Type u) (Reply : Request -> Type v)
    (Memory Result : Type w) where
  world : World
  memory : Memory
  running : Option (Program Request Reply (Memory × Result))

variable {Memory Result : Type w}

/-- A step of a process that may start some programs on its memory. -/
inductive Step (protocol : Protocol World Request Reply)
    (starts : Memory -> Program Request Reply (Memory × Result) -> Prop) :
    Process World Request Reply Memory Result -> Process World Request Reply Memory Result -> Prop
  | interfere {world now memory running} (changed : protocol.interferes world now) :
      Step protocol starts ⟨world, memory, running⟩ ⟨now, memory, running⟩
  | start {world memory program} (started : starts memory program) :
      Step protocol starts ⟨world, memory, none⟩ ⟨world, memory, some program⟩
  | reply {world memory request resume reply next}
      (replied : protocol.replies world request reply next) :
      Step protocol starts ⟨world, memory, some (.ask request resume)⟩
        ⟨next, memory, some (resume reply)⟩
  | finish {world memory ended result} :
      Step protocol starts ⟨world, memory, some (.done (ended, result))⟩ ⟨world, ended, none⟩

/-- Any number of steps. -/
def Run (protocol : Protocol World Request Reply)
    (starts : Memory -> Program Request Reply (Memory × Result) -> Prop) :
    Process World Request Reply Memory Result -> Process World Request Reply Memory Result -> Prop :=
  Relation.ReflTransGen (protocol.Step starts)

/-- What holds of a process between two steps: the invariant of the world, and
either the one of the memory or the assertion of the running program. -/
def Sound (protocol : Protocol World Request Reply) (invariant : World -> Prop)
    (remembers : Memory -> World -> Prop) (process : Process World Request Reply Memory Result) :
    Prop :=
  invariant process.world ∧
    match process.running with
    | none => remembers process.memory process.world
    | some program =>
        protocol.Ensures invariant (fun ended world => remembers ended.1 world) program process.world

/-- The rule of processes: where interference keeps the two invariants and every
program a process may start ensures them, they hold along every run. -/
theorem sound_of_run {protocol : Protocol World Request Reply} {invariant : World -> Prop}
    (remembers : Memory -> World -> Prop)
    {starts : Memory -> Program Request Reply (Memory × Result) -> Prop}
    (keeps : forall {world now}, protocol.interferes world now -> invariant world -> invariant now)
    (recalls : forall {memory world now}, protocol.interferes world now ->
      remembers memory world -> remembers memory now)
    (ensures : forall memory program world, starts memory program -> invariant world ->
      remembers memory world ->
      protocol.Ensures invariant (fun ended world => remembers ended.1 world) program world)
    {first last : Process World Request Reply Memory Result}
    (sound : Sound protocol invariant remembers first) (run : protocol.Run starts first last) :
    Sound protocol invariant remembers last := by
  induction run with
  | refl => exact sound
  | tail _ step inductionHypothesis =>
      rcases inductionHypothesis with ⟨kept, rest⟩
      cases step with
      | @interfere world now memory running changed =>
          refine ⟨keeps changed kept, ?_⟩
          cases running with
          | none => exact recalls changed rest
          | some program => exact Ensures.interfere rest changed
      | @start world memory program started => exact ⟨kept, ensures memory program world started kept rest⟩
      | @reply world memory request resume reply next replied =>
          exact rest world (protocol.interferes_refl world) kept reply next replied
      | @finish world memory ended result =>
          exact ⟨kept, rest world (protocol.interferes_refl world)⟩

/-! ## Rounds -/

/-- A program can end in a world with a value. -/
inductive Ends (protocol : Protocol World Request Reply) {α : Type w} :
    Program Request Reply α -> World -> α -> World -> Prop
  | done {value world now} (changed : protocol.interferes world now) :
      Ends protocol (.done value) world value now
  | ask {request resume world now reply next value last} (changed : protocol.interferes world now)
      (replied : protocol.replies now request reply next)
      (rest : Ends protocol (resume reply) next value last) :
      Ends protocol (.ask request resume) world value last

/-- What a program ensures holds where it ends. -/
theorem Ensures.of_ends {α : Type w} {protocol : Protocol World Request Reply}
    {invariant : World -> Prop} {post : α -> World -> Prop} {program : Program Request Reply α}
    {world last : World} {value : α}
    (keeps : forall {world now}, protocol.interferes world now -> invariant world -> invariant now)
    (ensures : protocol.Ensures invariant post program world) (holds : invariant world)
    (ends : protocol.Ends program world value last) : invariant last ∧ post value last := by
  induction ends with
  | done changed => exact ⟨keeps changed holds, ensures _ changed⟩
  | ask changed replied _ inductionHypothesis =>
      rcases ensures _ changed (keeps changed holds) _ _ replied with ⟨kept, rest⟩
      exact inductionHypothesis rest kept

/-- A server that answers as the protocol says runs programs to their end. -/
theorem ends_of_run {α : Type w} {protocol : Protocol World Request Reply}
    {handle : World -> (request : Request) -> Reply request × World}
    (answers : forall world request,
      protocol.replies world request (handle world request).1 (handle world request).2)
    (program : Program Request Reply α) (world : World) :
    protocol.Ends program world (program.run handle world).1 (program.run handle world).2 := by
  induction program generalizing world with
  | done value => exact Ends.done (protocol.interferes_refl world)
  | ask request resume inductionHypothesis =>
      exact Ends.ask (protocol.interferes_refl world) (answers world request) (inductionHypothesis _ _)

/-- A request and its reply, between the world before and the world after. -/
structure Exchange (World : Type w) (Request : Type u) (Reply : Request -> Type v) where
  before : World
  request : Request
  reply : Reply request
  after : World

/-- How a program came to its end: all that it asked on the way. -/
inductive Traced (protocol : Protocol World Request Reply) {α : Type w} :
    Program Request Reply α -> World -> List (Exchange World Request Reply) -> α -> World -> Prop
  | done {value world now} (changed : protocol.interferes world now) :
      Traced protocol (.done value) world [] value now
  | ask {request resume world now reply next trace value last} (changed : protocol.interferes world now)
      (replied : protocol.replies now request reply next)
      (rest : Traced protocol (resume reply) next trace value last) :
      Traced protocol (.ask request resume) world (⟨now, request, reply, next⟩ :: trace) value last

/-- The trace of a sequence is that of its first part and that of the second. -/
theorem Traced.of_bind {α β : Type w} {protocol : Protocol World Request Reply}
    {program : Program Request Reply α} {next : α -> Program Request Reply β} {world last : World}
    {trace : List (Exchange World Request Reply)} {value : β}
    (traced : protocol.Traced (program >>= next) world trace value last) :
    Exists fun first => Exists fun middle => Exists fun now => Exists fun second =>
      trace = first ++ second ∧ protocol.Traced program world first middle now ∧
        protocol.Traced (next middle) now second value last := by
  induction program generalizing world trace with
  | done middle => exact ⟨[], middle, world, trace, rfl, .done (protocol.interferes_refl world), traced⟩
  | ask request resume inductionHypothesis =>
      cases traced with
      | ask changed replied rest =>
          rcases inductionHypothesis _ rest with ⟨first, middle, now, second, rfl, before, after⟩
          exact ⟨_, middle, now, second, rfl, .ask changed replied before, after⟩

/-- The trace of a request that is awaited. -/
theorem Traced.of_call {α : Type w} {Reply : Request -> Type w} {protocol : Protocol World Request Reply}
    {request : Request} {next : Reply request -> Program Request Reply α} {world last : World}
    {trace : List (Exchange World Request Reply)} {value : α}
    (traced : protocol.Traced (Program.ask request Program.done >>= next) world trace value last) :
    Exists fun now => Exists fun reply => Exists fun after => Exists fun rest =>
      trace = ⟨now, request, reply, after⟩ :: rest ∧ protocol.interferes world now ∧
        protocol.replies now request reply after ∧ protocol.Traced (next reply) after rest value last := by
  cases traced with
  | ask changed replied rest => exact ⟨_, _, _, _, rfl, changed, replied, rest⟩

theorem Traced.of_done {α : Type w} {protocol : Protocol World Request Reply} {value result : α}
    {world last : World} {trace : List (Exchange World Request Reply)}
    (traced : protocol.Traced (.done value) world trace result last) : trace = [] ∧ result = value := by
  cases traced with
  | done changed => exact ⟨rfl, rfl⟩

theorem Traced.interferes_of_done {α : Type w} {protocol : Protocol World Request Reply} {value result : α}
    {world last : World} {trace : List (Exchange World Request Reply)}
    (traced : protocol.Traced (.done value) world trace result last) : protocol.interferes world last := by
  cases traced with
  | done changed => exact changed

/-- A number of programs run one after the other, each started on the memory that
the one before has left. -/
inductive Rounds (protocol : Protocol World Request Reply)
    (starts : Memory -> Program Request Reply (Memory × Result) -> Prop) :
    Nat -> World -> Memory -> World -> Memory -> Prop
  | zero {world memory} : Rounds protocol starts 0 world memory world memory
  | succ {rounds first initial world memory program ended result last}
      (earlier : Rounds protocol starts rounds first initial world memory)
      (started : starts memory program) (ends : protocol.Ends program world (ended, result) last) :
      Rounds protocol starts (rounds + 1) first initial last ended

/-- The rule of rounds: a bound that every round lowers is lowered by their
number. -/
theorem bound_of_rounds {protocol : Protocol World Request Reply} {invariant : World -> Prop}
    {starts : Memory -> Program Request Reply (Memory × Result) -> Prop}
    (within : Nat -> Memory -> World -> Prop)
    (keeps : forall {world now}, protocol.interferes world now -> invariant world -> invariant now)
    (lowers : forall bound memory program world, starts memory program ->
      within bound memory world -> protocol.Ensures invariant
        (fun ended now => within (bound - 1) ended.1 now) program world)
    {bound rounds : Nat} {world last : World} {memory ended : Memory} (holds : invariant world)
    (bounded : within bound memory world)
    (run : protocol.Rounds starts rounds world memory last ended) :
    invariant last ∧ within (bound - rounds) ended last := by
  induction run with
  | zero => exact ⟨holds, bounded⟩
  | succ _ started ends inductionHypothesis =>
      rcases inductionHypothesis holds bounded with ⟨kept, reached⟩
      have lowered := (lowers _ _ _ _ started reached).of_ends keeps kept ends
      exact lowered

/-! ## Pools -/

/-- A world and the programs that run in it. -/
structure Pool (World : Type w) (Request : Type u) (Reply : Request -> Type v) (Result : Type w) where
  world : World
  running : List (Program Request Reply Result)

/-- One step of one program of a pool: it is started, it is answered, or it stops
wherever it stands. -/
inductive PoolStep {Result : Type w} (protocol : Protocol World Request Reply)
    (starts : Program Request Reply Result -> Prop) :
    Pool World Request Reply Result -> Pool World Request Reply Result -> Prop
  | start {world running program} (started : starts program) :
      PoolStep protocol starts ⟨world, running⟩ ⟨world, program :: running⟩
  | reply {world request resume reply next} (before after)
      (replied : protocol.replies world request reply next) :
      PoolStep protocol starts ⟨world, before ++ .ask request resume :: after⟩
        ⟨next, before ++ resume reply :: after⟩
  | stop {world program} (before after) :
      PoolStep protocol starts ⟨world, before ++ program :: after⟩ ⟨world, before ++ after⟩

/-- Any number of steps of any programs, in any order. -/
def PoolRun {Result : Type w} (protocol : Protocol World Request Reply)
    (starts : Program Request Reply Result -> Prop) :
    Pool World Request Reply Result -> Pool World Request Reply Result -> Prop :=
  Relation.ReflTransGen (protocol.PoolStep starts)

/-- The rule of pools: where the programs interfere with each other no more than
the protocol says, and each keeps the invariant from wherever it is started, the
invariant holds along every run. -/
theorem invariant_of_poolRun {protocol : Protocol World Request Reply} {invariant : World -> Prop}
    {starts : Program Request Reply Result -> Prop}
    (noticed : forall {world request reply next}, protocol.replies world request reply next ->
      protocol.interferes world next)
    (ensures : forall program world, starts program -> invariant world ->
      protocol.Ensures invariant (fun _ _ => True) program world)
    {first : World} {last : Pool World Request Reply Result} (holds : invariant first)
    (run : protocol.PoolRun starts ⟨first, []⟩ last) : invariant last.world := by
  suffices sound : invariant last.world ∧ forall program, program ∈ last.running ->
      protocol.Ensures invariant (fun _ _ => True) program last.world from sound.1
  induction run with
  | refl => exact ⟨holds, fun _ member => (List.not_mem_nil member).elim⟩
  | tail _ step inductionHypothesis =>
      rcases inductionHypothesis with ⟨kept, running⟩
      cases step with
      | @start world running' program started =>
          refine ⟨kept, fun other member => ?_⟩
          rcases List.mem_cons.mp member with rfl | before
          · exact ensures other world started kept
          · exact running other before
      | @reply world request resume reply next before after replied =>
          have asked := running (.ask request resume) (List.mem_append_right _ (List.mem_cons_self ..))
          rcases asked world (protocol.interferes_refl world) kept reply next replied with ⟨still, rest⟩
          refine ⟨still, fun other member => ?_⟩
          have others : other ∈ before ++ Program.ask request resume :: after ->
              protocol.Ensures invariant (fun _ _ => True) other next :=
            fun isOther => (running other isOther).interfere (noticed replied)
          rcases List.mem_append.mp member with earlier | later
          · exact others (List.mem_append_left _ earlier)
          · rcases List.mem_cons.mp later with rfl | later
            · exact rest
            · exact others (List.mem_append_right _ (List.mem_cons_of_mem _ later))
      | @stop world program before after =>
          refine ⟨kept, fun other member => running other ?_⟩
          rcases List.mem_append.mp member with earlier | later
          · exact List.mem_append_left _ earlier
          · exact List.mem_append_right _ (List.mem_cons_of_mem _ later)

/-- Where steps are no more than interference, neither are runs. -/
theorem interferes_of_poolRun {protocol : Protocol World Request Reply}
    {starts : Program Request Reply Result -> Prop}
    (noticed : forall {world request reply next}, protocol.replies world request reply next ->
      protocol.interferes world next)
    {first last : Pool World Request Reply Result} (run : protocol.PoolRun starts first last) :
    protocol.interferes first.world last.world := by
  induction run with
  | refl => exact protocol.interferes_refl _
  | tail _ step inductionHypothesis =>
      refine protocol.interferes_trans inductionHypothesis ?_
      cases step with
      | start started => exact protocol.interferes_refl _
      | reply _ _ replied => exact noticed replied
      | stop _ _ => exact protocol.interferes_refl _

/-- A server that answers as the protocol says runs the programs of a pool. -/
theorem poolRun_of_run {protocol : Protocol World Request Reply}
    {starts : Program Request Reply Result -> Prop}
    {handle : World -> (request : Request) -> Reply request × World}
    (answers : forall world request,
      protocol.replies world request (handle world request).1 (handle world request).2)
    (program : Program Request Reply Result) (world : World)
    (before after : List (Program Request Reply Result)) :
    protocol.PoolRun starts ⟨world, before ++ program :: after⟩
      ⟨(program.run handle world).2, before ++ .done (program.run handle world).1 :: after⟩ := by
  induction program generalizing world with
  | done value => exact Relation.ReflTransGen.refl
  | ask request resume inductionHypothesis =>
      exact Relation.ReflTransGen.head (PoolStep.reply before after (answers world request))
        (inductionHypothesis _ _)

end Protocol
end Telescope
