import Telescope.Foundation.Transition
import Mathlib.Data.List.Pairwise

namespace Telescope
namespace ClickHouse

universe u

/-!
# The claim of an error family

Pods report a family through one row of a KeeperMap table: a new family is
claimed by inserting the row, an expired one by an update that stamps the token
of the call, and any other sighting only moves the row's instant forward.  In
strict mode an insert fails on an existing key and an update fails when the row
changed since the statement read it.  A run interleaves the reads and the writes
of any number of calls; a reply may be lost after its statement has taken effect.
-/

variable {τ : Type u} [DecidableEq τ]

/-- Attempts before a contended call gives up. -/
def SEEN_ATTEMPTS : Nat := 20

structure SeenRow (τ : Type u) where
  last_seen : Int
  claim : τ

/-- The row of a family, and how often it was written. -/
structure Keeper (τ : Type u) where
  row : Option (SeenRow τ)
  version : Nat

def Keeper.write (keeper : Keeper τ) (row : SeenRow τ) : Keeper τ := ⟨some row, keeper.version + 1⟩

/-- Where a call of `markSeen` stands.  An `ALTER` first reads the rows of its
condition and then writes them. -/
inductive Stage (τ : Type u)
  | reading
  | inserting
  | updating (last : Int)
  | altering (last : Int) (found : Option (SeenRow τ)) (version : Nat)
  | readingBack
  | returned (answer : Bool)
  | thrown

/-- A call, under its token. -/
structure Call (τ : Type u) where
  nowMs : Int
  attempt : Nat
  stage : Stage τ

structure System (τ : Type u) where
  keeper : Keeper τ
  calls : τ -> Option (Call τ)
  claimed : List (τ × Int)

namespace System

def initial : System τ := ⟨⟨none, 0⟩, fun _ => none, []⟩

def set (system : System τ) (claim : τ) (call : Call τ) : System τ :=
  { system with calls := Function.update system.calls claim (some call) }

end System

inductive Event (τ : Type u)
  | call (claim : τ) (nowMs : Int)
  | proceed (claim : τ) (replied : Bool)
  | fail (claim : τ)

/-- Behind a reply; a reply that is lost throws. -/
def Call.goes (call : Call τ) (replied : Bool) (stage : Stage τ) : Call τ :=
  { call with stage := if replied then stage else .thrown }

/-- Behind a conflict: the next attempt, or the end of the loop. -/
def Call.retries (call : Call τ) (replied : Bool) : Call τ :=
  if call.attempt + 1 < SEEN_ATTEMPTS then
    { call with attempt := call.attempt + 1, stage := if replied then .reading else .thrown }
  else call.goes replied (.returned false)

def expired (windowMs nowMs last : Int) : Bool := decide (nowMs - last ≥ windowMs)

/-- The row an `ALTER` writes in the place of the row it read. -/
def altered (windowMs nowMs last : Int) (claim : τ) (found : Option (SeenRow τ)) : Option (SeenRow τ) :=
  if expired windowMs nowMs last then
    match found with
    | none => none
    | some row => if row.last_seen = last then some ⟨nowMs, claim⟩ else none
  else found.map fun row => { row with last_seen := max row.last_seen nowMs }

/-- Behind an `ALTER` that did not fail. -/
def Call.alters (call : Call τ) (windowMs last : Int) (replied : Bool) : Call τ :=
  call.goes replied (if expired windowMs call.nowMs last then .readingBack else .returned false)

/-- The next step of a call. -/
def proceed (windowMs : Int) (system : System τ) (claim : τ) (call : Call τ) (replied : Bool) :
    Option (System τ) :=
  match call.stage with
  | .reading =>
      match system.keeper.row with
      | none => some (system.set claim (call.goes replied .inserting))
      | some row => some (system.set claim (call.goes replied (.updating row.last_seen)))
  | .inserting =>
      match system.keeper.row with
      | none =>
          some
            { system.set claim (call.goes replied (.returned true)) with
              keeper := system.keeper.write ⟨call.nowMs, claim⟩
              claimed := system.claimed ++ [(claim, call.nowMs)] }
      | some _ => some (system.set claim (call.retries replied))
  | .updating last =>
      some (system.set claim
        (call.goes replied (.altering last system.keeper.row system.keeper.version)))
  | .altering last found version =>
      match altered windowMs call.nowMs last claim found with
      | none => some (system.set claim (call.alters windowMs last replied))
      | some row =>
          if system.keeper.version = version then
            some
              { system.set claim (call.alters windowMs last replied) with
                keeper := system.keeper.write row
                claimed :=
                  if expired windowMs call.nowMs last then system.claimed ++ [(claim, call.nowMs)]
                  else system.claimed }
          else some (system.set claim (call.retries replied))
  | .readingBack =>
      some (system.set claim (call.goes replied
        (.returned (decide (system.keeper.row.map SeenRow.claim = some claim)))))
  | .returned _ => none
  | .thrown => none

def step (windowMs : Int) (system : System τ) : Event τ -> Option (System τ)
  | .call claim nowMs =>
      match system.calls claim with
      | none => some (system.set claim ⟨nowMs, 0, .reading⟩)
      | some _ => none
  | .proceed claim replied =>
      match system.calls claim with
      | none => none
      | some call => proceed windowMs system claim call replied
  | .fail claim =>
      match system.calls claim with
      | none => none
      | some call =>
          match call.stage with
          | .returned _ => none
          | .thrown => none
          | _ => some (system.set claim { call with stage := .thrown })

/-! ## Everything a step can do -/

/-- A call starts, moves on without a write, writes its claim, or moves the
instant of the row forward. -/
inductive Stepped (windowMs : Int) (system : System τ) : System τ -> Prop
  | starts (claim : τ) (nowMs : Int) (fresh : system.calls claim = none) :
      Stepped windowMs system (system.set claim ⟨nowMs, 0, .reading⟩)
  | moves (claim : τ) (call : Call τ) (attempt : Nat) (stage : Stage τ)
      (running : system.calls claim = some call)
      (unsettled : forall answer, call.stage ≠ .returned answer) (alive : call.stage ≠ .thrown)
      (snapshot : forall last found version, stage = .altering last found version ->
        found = system.keeper.row ∧ version = system.keeper.version)
      (won : stage = .returned true -> system.keeper.row.map SeenRow.claim = some claim)
      (readBack : call.stage = .readingBack ->
        stage = .returned (decide (system.keeper.row.map SeenRow.claim = some claim)) ∨
          stage = .thrown) :
      Stepped windowMs system (system.set claim { call with attempt := attempt, stage := stage })
  | claims (claim : τ) (call : Call τ) (stage : Stage τ) (running : system.calls claim = some call)
      (writing : call.stage = .inserting ∨
        Exists fun last => call.stage = .altering last system.keeper.row system.keeper.version)
      (overdue : forall row, system.keeper.row = some row -> row.last_seen + windowMs ≤ call.nowMs)
      (claiming : stage = .readingBack ∨ stage = .returned true ∨ stage = .thrown) :
      Stepped windowMs system
        { system.set claim { call with stage := stage } with
          keeper := system.keeper.write ⟨call.nowMs, claim⟩
          claimed := system.claimed ++ [(claim, call.nowMs)] }
  | touches (claim : τ) (call : Call τ) (row : SeenRow τ) (stage : Stage τ)
      (running : system.calls claim = some call)
      (writing : Exists fun last => Exists fun found => Exists fun version =>
        call.stage = .altering last found version)
      (current : system.keeper.row = some row)
      (touching : stage = .returned false ∨ stage = .thrown) :
      Stepped windowMs system
        { system.set claim { call with stage := stage } with
          keeper := system.keeper.write { row with last_seen := max row.last_seen call.nowMs } }

variable {windowMs : Int} {system next : System τ}

/-- A move to a stage that needs no account. -/
theorem Stepped.quiet {claim : τ} {call : Call τ} (attempt : Nat) (stage : Stage τ)
    (running : system.calls claim = some call) (unsettled : forall answer, call.stage ≠ .returned answer)
    (alive : call.stage ≠ .thrown) (notReadingBack : call.stage ≠ .readingBack)
    (notAltering : forall last found version, stage ≠ .altering last found version)
    (notWon : stage ≠ .returned true) :
    Stepped windowMs system (system.set claim { call with attempt := attempt, stage := stage }) :=
  .moves claim call attempt stage running unsettled alive
    (fun last found version isAltering => (notAltering last found version isAltering).elim)
    (fun isWon => (notWon isWon).elim) fun reading => (notReadingBack reading).elim

theorem Stepped.of_goes {claim : τ} {call : Call τ} (stage : Stage τ)
    (running : system.calls claim = some call) (unsettled : forall answer, call.stage ≠ .returned answer)
    (alive : call.stage ≠ .thrown) (notReadingBack : call.stage ≠ .readingBack)
    (notAltering : forall last found version, stage ≠ .altering last found version)
    (notWon : stage ≠ .returned true) (replied : Bool) :
    Stepped windowMs system (system.set claim (call.goes replied stage)) := by
  cases replied with
  | true => exact .quiet call.attempt stage running unsettled alive notReadingBack notAltering notWon
  | false => exact .quiet call.attempt .thrown running unsettled alive notReadingBack nofun nofun

theorem Stepped.of_retries {claim : τ} {call : Call τ} (running : system.calls claim = some call)
    (unsettled : forall answer, call.stage ≠ .returned answer) (alive : call.stage ≠ .thrown)
    (notReadingBack : call.stage ≠ .readingBack) (replied : Bool) :
    Stepped windowMs system (system.set claim (call.retries replied)) := by
  rw [Call.retries]
  split
  · cases replied with
    | true => exact .quiet _ .reading running unsettled alive notReadingBack nofun nofun
    | false => exact .quiet _ .thrown running unsettled alive notReadingBack nofun nofun
  · exact .of_goes (.returned false) running unsettled alive notReadingBack nofun nofun replied

/-- What an `ALTER` has read is the row as long as nothing is written. -/
def Snapshots (system : System τ) : Prop :=
  forall claim call last found version, system.calls claim = some call ->
    call.stage = .altering last found version ->
    version ≤ system.keeper.version ∧
      (version = system.keeper.version -> found = system.keeper.row)

/-- An `ALTER` that writes, behind its version check. -/
theorem Stepped.of_altered {claim : τ} {call : Call τ} {last : Int} {row : SeenRow τ}
    (running : system.calls claim = some call)
    (altering : call.stage = .altering last system.keeper.row system.keeper.version)
    (alters : altered windowMs call.nowMs last claim system.keeper.row = some row) (replied : Bool) :
    Stepped windowMs system
      { system.set claim (call.alters windowMs last replied) with
        keeper := system.keeper.write row
        claimed :=
          if expired windowMs call.nowMs last then system.claimed ++ [(claim, call.nowMs)]
          else system.claimed } := by
  unfold altered at alters
  rw [Call.alters]
  cases isExpired : expired windowMs call.nowMs last with
  | true =>
      rw [isExpired, if_pos rfl] at alters
      simp only [if_true]
      cases current : system.keeper.row with
      | none =>
          rw [current] at alters
          cases alters
      | some found =>
          rw [current] at alters
          dsimp only at alters
          split at alters
          · rename_i isLast
            cases alters
            refine .claims claim call _ running (.inr ⟨last, altering⟩) (fun other same => ?_) ?_
            · rw [current] at same
              cases same
              have far := of_decide_eq_true isExpired
              omega
            · cases replied with
              | true => exact .inl rfl
              | false => exact .inr (.inr rfl)
          · cases alters
  | false =>
      rw [isExpired, if_neg Bool.false_ne_true, Option.map_eq_some_iff] at alters
      rcases alters with ⟨found, current, rfl⟩
      simp only [Bool.false_eq_true, if_false]
      refine .touches claim call found _ running ⟨last, _, _, altering⟩ current ?_
      cases replied with
      | true => exact .inl rfl
      | false => exact .inr rfl

theorem stepped_of_proceed {claim : τ} {call : Call τ} {replied : Bool} (snapshots : Snapshots system)
    (running : system.calls claim = some call)
    (proceeded : proceed windowMs system claim call replied = some next) :
    Stepped windowMs system next := by
  unfold proceed at proceeded
  cases isStage : call.stage with
  | reading =>
      have unsettled : forall answer, call.stage ≠ .returned answer := by rw [isStage]; nofun
      have alive : call.stage ≠ .thrown := by rw [isStage]; nofun
      have notReadingBack : call.stage ≠ .readingBack := by rw [isStage]; nofun
      rw [isStage] at proceeded
      dsimp only at proceeded
      split at proceeded <;> cases proceeded
      · exact .of_goes .inserting running unsettled alive notReadingBack nofun nofun replied
      · exact .of_goes (.updating _) running unsettled alive notReadingBack nofun nofun replied
  | inserting =>
      have unsettled : forall answer, call.stage ≠ .returned answer := by rw [isStage]; nofun
      have alive : call.stage ≠ .thrown := by rw [isStage]; nofun
      have notReadingBack : call.stage ≠ .readingBack := by rw [isStage]; nofun
      rw [isStage] at proceeded
      dsimp only at proceeded
      split at proceeded
      · rename_i vacant
        cases proceeded
        refine .claims claim call _ running (.inl isStage) (fun row same => ?_) ?_
        · rw [vacant] at same
          cases same
        · cases replied with
          | true => exact .inr (.inl rfl)
          | false => exact .inr (.inr rfl)
      · cases proceeded
        exact .of_retries running unsettled alive notReadingBack replied
  | updating last =>
      have unsettled : forall answer, call.stage ≠ .returned answer := by rw [isStage]; nofun
      have alive : call.stage ≠ .thrown := by rw [isStage]; nofun
      have notReadingBack : call.stage ≠ .readingBack := by rw [isStage]; nofun
      rw [isStage] at proceeded
      cases proceeded
      cases replied with
      | true =>
          refine .moves claim call call.attempt _ running unsettled alive ?_ nofun
            fun reading => (notReadingBack reading).elim
          rintro _ _ _ ⟨⟩
          exact ⟨rfl, rfl⟩
      | false => exact .quiet call.attempt .thrown running unsettled alive notReadingBack nofun nofun
  | altering last found version =>
      have unsettled : forall answer, call.stage ≠ .returned answer := by rw [isStage]; nofun
      have alive : call.stage ≠ .thrown := by rw [isStage]; nofun
      have notReadingBack : call.stage ≠ .readingBack := by rw [isStage]; nofun
      rw [isStage] at proceeded
      dsimp only at proceeded
      split at proceeded
      · cases proceeded
        rw [Call.alters]
        split
        · exact .of_goes .readingBack running unsettled alive notReadingBack nofun nofun replied
        · exact .of_goes (.returned false) running unsettled alive notReadingBack nofun nofun replied
      · rename_i row alters
        split at proceeded
        · rename_i unchanged
          cases proceeded
          have current := (snapshots claim call last found version running isStage).2 unchanged.symm
          rw [current] at alters
          rw [current, ← unchanged] at isStage
          exact .of_altered running isStage alters replied
        · cases proceeded
          exact .of_retries running unsettled alive notReadingBack replied
  | readingBack =>
      have unsettled : forall answer, call.stage ≠ .returned answer := by rw [isStage]; nofun
      have alive : call.stage ≠ .thrown := by rw [isStage]; nofun
      rw [isStage] at proceeded
      cases proceeded
      cases replied with
      | true =>
          refine .moves claim call call.attempt _ running unsettled alive nofun (fun won => ?_)
            fun _ => .inl rfl
          exact of_decide_eq_true (Stage.returned.inj won)
      | false =>
          exact .moves claim call call.attempt .thrown running unsettled alive nofun nofun
            fun _ => .inr rfl
  | returned answer =>
      rw [isStage] at proceeded
      cases proceeded
  | thrown =>
      rw [isStage] at proceeded
      cases proceeded

theorem stepped_of_step {event : Event τ} (snapshots : Snapshots system)
    (stepped : step windowMs system event = some next) : Stepped windowMs system next := by
  cases event with
  | call claim nowMs =>
      simp only [step] at stepped
      split at stepped
      · rename_i fresh
        cases stepped
        exact .starts claim nowMs fresh
      · cases stepped
  | proceed claim replied =>
      simp only [step] at stepped
      split at stepped
      · cases stepped
      · rename_i call running
        exact stepped_of_proceed snapshots running stepped
  | fail claim =>
      simp only [step] at stepped
      split at stepped
      · cases stepped
      · rename_i call running
        split at stepped
        · cases stepped
        · cases stepped
        · rename_i unsettled alive
          cases stepped
          exact .moves claim call call.attempt .thrown running (fun answer => unsettled answer) alive
            nofun nofun fun _ => .inr rfl

end ClickHouse
end Telescope
