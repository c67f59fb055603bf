import Telescope.Parquet.LocalCache
import Mathlib.Algebra.Order.BigOperators.Group.List

namespace Telescope
namespace Parquet
namespace LocalCache

/-!
# Safety of the local cache

The cache is safe in every run in which no copy is evicted that a call relies on, no file
is written while its removal is under way, no copy is tracked twice, and what ends without
an eviction leaves the copies within the limit or another call running.  Nothing in the
engine sees to any of these.
-/

universe u

namespace Phase

variable {κ : Type u}

theorem running_receive (key : κ) (phase : Phase κ) : (phase.receive key).running = phase.running := by
  cases phase <;> rfl

theorem removing_of_receive {key other : κ} {phase : Phase κ} (isRemoving : phase.receive key = .removing other) :
    phase = .removing other := by
  cases phase with
  | gathering given => cases isRemoving
  | idle | querying _ | evicting | removing _ | ended => exact isRemoving

theorem removing_of_reject {other : κ} {phase : Phase κ} (isRemoving : phase.reject = .removing other) :
    phase = .removing other := by
  cases phase with
  | gathering given => cases isRemoving
  | idle | querying _ | evicting | removing _ | ended => exact isRemoving

theorem given_reject {key : κ} {phase : Phase κ} (isGiven : key ∈ phase.reject.given) : key ∈ phase.given := by
  cases phase with
  | gathering given => exact (List.not_mem_nil isGiven).elim
  | idle | querying _ | evicting | removing _ | ended => exact isGiven

end Phase

namespace Engine

variable {κ : Type u}

/-! ## The condition -/

/-- A call was given the copy, or has just written it. -/
def InUse (engine : Engine κ) (key : κ) : Prop :=
  (Exists fun call => key ∈ (engine.phase call).given) ∨
    Exists fun fetch => fetch ∈ engine.fetches ∧ fetch.key = key ∧ fetch.written.isSome = true

/-- The file of the copy is being removed. -/
def BeingRemoved (engine : Engine κ) (key : κ) : Prop := Exists fun call => engine.phase call = .removing key

/-- Besides this call another one runs, which will evict, or so many bytes more fit. -/
def Spares (engine : Engine κ) (call added : Nat) : Prop :=
  engine.trackedBytes + added ≤ engine.cacheBytes ∨
    Exists fun other => other ≠ call ∧ (engine.phase other).running = true

/-- The steps that the comment on `evict` takes for granted. -/
def Careful [DecidableEq κ] (engine : Engine κ) : Event κ -> Prop
  | .write fetch _size => ¬ engine.BeingRemoved fetch.key
  | .track fetch =>
      (forall size, engine.copies.lookup fetch.key = some size -> size = 0) ∧
        ((engine.phase fetch.call).running = true ∨
          forall size, fetch.written = some size -> engine.Spares fetch.call size)
  | .failFetch fetch => engine.Spares fetch.call 0
  | .abandon call => engine.Spares call 0
  | .pass _call => engine.cacheBytes < engine.copiedBytes ->
      forall key size rest, engine.copies.groups = (key, size) :: rest -> ¬ engine.InUse key
  | .failRemoval call => engine.Spares call 0
  | _ => True

/-! ## What is kept -/

/-- A copy whose file has to be there: it is in use or tracked. -/
def Relies (engine : Engine κ) (key : κ) : Prop := engine.InUse key ∨ key ∈ engine.copies.groups.map Prod.fst

/-- The file is there and is not being removed. -/
def Stays (engine : Engine κ) (key : κ) : Prop := key ∈ engine.disk ∧ ¬ engine.BeingRemoved key

structure Kept (engine : Engine κ) : Prop where
  files : forall key, engine.Relies key -> engine.Stays key
  bytes : engine.CountsBytes
  fits : engine.trackedBytes ≤ engine.cacheBytes ∨ Exists fun call => (engine.phase call).running = true
  fresh : engine.phase engine.calls = .idle ∧ forall call, engine.calls < call -> engine.phase call = .idle

theorem Kept.safe {engine : Engine κ} (kept : engine.Kept) : engine.Safe where
  given call key member := (kept.files key (.inl (.inl ⟨call, member⟩))).1
  bytes := kept.bytes
  fits allEnded := by
    rcases kept.fits with fits | ⟨call, running⟩
    · exact fits
    · exact (Bool.false_ne_true ((allEnded call).symm.trans running)).elim

theorem kept_initial (cacheBytes : Nat) : (initial cacheBytes : Engine κ).Kept where
  files key relies := by
    rcases relies with (⟨call, member⟩ | ⟨fetch, member, _⟩) | tracked
    · exact (List.not_mem_nil member).elim
    · exact (List.not_mem_nil member).elim
    · exact (List.not_mem_nil tracked).elim
  bytes := rfl
  fits := .inl (Int.natCast_nonneg cacheBytes)
  fresh := ⟨rfl, fun _ _ => rfl⟩

/-! ## Changing one phase -/

section Phases

variable {engine : Engine κ} {call : Nat} {phase : Phase κ}

theorem mem_given_setPhase {other : Nat} {key : κ} (member : key ∈ ((engine.setPhase call phase).phase other).given) :
    key ∈ phase.given ∨ key ∈ (engine.phase other).given := by
  rw [setPhase] at member
  dsimp only at member
  split at member
  · exact .inl member
  · exact .inr member

theorem beingRemoved_setPhase {key : κ} (removed : (engine.setPhase call phase).BeingRemoved key) :
    phase = .removing key ∨ engine.BeingRemoved key := by
  rcases removed with ⟨other, isRemoving⟩
  rw [setPhase] at isRemoving
  dsimp only at isRemoving
  split at isRemoving
  · exact .inl isRemoving
  · exact .inr ⟨other, isRemoving⟩

theorem running_setPhase (running : phase.running = true) :
    Exists fun other => ((engine.setPhase call phase).phase other).running = true := by
  refine ⟨call, ?_⟩
  rw [setPhase]
  dsimp only
  rwa [if_pos rfl]

theorem running_setPhase_of_other {other : Nat} (different : other ≠ call) (running : (engine.phase other).running = true) :
    Exists fun other => ((engine.setPhase call phase).phase other).running = true := by
  refine ⟨other, ?_⟩
  rw [setPhase]
  dsimp only
  rwa [if_neg different]

/-- A call that has begun is none of those to come. -/
theorem Kept.fresh_setPhase (kept : engine.Kept) (begun : engine.phase call = .idle -> phase = .idle) :
    (engine.setPhase call phase).phase engine.calls = .idle ∧
      forall other, engine.calls < other -> (engine.setPhase call phase).phase other = .idle := by
  have idle (other : Nat) (isIdle : engine.phase other = .idle) : (engine.setPhase call phase).phase other = .idle := by
    rw [setPhase]
    dsimp only
    split
    · rename_i same
      rw [same] at isIdle
      exact begun isIdle
    · exact isIdle
  exact ⟨idle _ kept.fresh.1, fun other later => idle other (kept.fresh.2 other later)⟩

/-- What is relied on is there, if nothing new is relied on, no file goes and no removal begins. -/
theorem Kept.files_of {next : Engine κ} (kept : engine.Kept) (relies : forall key, next.Relies key -> engine.Relies key)
    (disk : forall key, next.Relies key -> engine.Stays key -> key ∈ next.disk)
    (removals : forall key, next.Relies key -> next.BeingRemoved key -> engine.BeingRemoved key) :
    forall key, next.Relies key -> next.Stays key := by
  intro key isRelied
  have stays := kept.files key (relies key isRelied)
  exact ⟨disk key isRelied stays, fun removed => stays.2 (removals key isRelied removed)⟩

/-- A call goes on to a phase in which it holds no more than before. -/
theorem Kept.moved (kept : engine.Kept) (begun : engine.phase call ≠ .idle)
    (given : forall key, key ∈ phase.given -> key ∈ (engine.phase call).given)
    (noRemoval : forall key, phase ≠ .removing key)
    (fits : phase.running = true ∨ engine.trackedBytes ≤ engine.cacheBytes ∨
      Exists fun other => other ≠ call ∧ (engine.phase other).running = true) : (engine.setPhase call phase).Kept where
  files := by
    refine kept.files_of (fun key relies => ?_) (fun key _ stays => stays.1) fun key _ removed => ?_
    · rcases relies with (⟨other, member⟩ | fetched) | tracked
      · rcases mem_given_setPhase member with isGiven | isGiven
        · exact .inl (.inl ⟨call, given key isGiven⟩)
        · exact .inl (.inl ⟨other, isGiven⟩)
      · exact .inl (.inr fetched)
      · exact .inr tracked
    · exact (beingRemoved_setPhase removed).resolve_left (noRemoval key)
  bytes := kept.bytes
  fits := by
    rcases fits with running | fits | ⟨other, different, running⟩
    · exact .inr (running_setPhase running)
    · exact .inl fits
    · exact .inr (running_setPhase_of_other different running)
  fresh := kept.fresh_setPhase fun isIdle => (begun isIdle).elim

end Phases

/-! ## One step -/

theorem Spares.fits {engine : Engine κ} {call : Nat} (spares : engine.Spares call 0) : engine.trackedBytes ≤ engine.cacheBytes ∨
    Exists fun other => other ≠ call ∧ (engine.phase other).running = true := by
  rcases spares with fits | running
  · rw [Int.natCast_zero, Int.add_zero] at fits
    exact .inl fits
  · exact .inr running

section Turns

variable {engine : Engine κ}

/-- The oldest copy is no longer tracked, and its file is being removed. -/
theorem Kept.evict (kept : engine.Kept) {call : Nat} {key : κ} {size : Nat} {rest : List (κ × Nat)}
    (begun : engine.phase call = .evicting) (oldest : engine.copies.groups = (key, size) :: rest)
    (unused : ¬ engine.InUse key) :
    Kept
      { engine.setPhase call (.removing key) with
        copies := withoutOldest engine.copies
        copiedBytes := engine.copiedBytes - size } where
  files := by
    have distinct := engine.copies.distinct
    rw [oldest, List.map_cons, List.nodup_cons] at distinct
    have relies : forall other, Relies
        { engine.setPhase call (.removing key) with
          copies := withoutOldest engine.copies
          copiedBytes := engine.copiedBytes - size } other -> engine.Relies other ∧ other ≠ key := by
      intro other relies
      rcases relies with inUse | tracked
      · have before : engine.InUse other := by
          rcases inUse with ⟨holder, isGiven⟩ | fetched
          · exact .inl ⟨holder, (mem_given_setPhase isGiven).resolve_left fun inNil => List.not_mem_nil inNil⟩
          · exact .inr fetched
        exact ⟨.inl before, fun isKey => unused (isKey ▸ before)⟩
      · change other ∈ engine.copies.groups.tail.map Prod.fst at tracked
        rw [oldest, List.tail_cons] at tracked
        refine ⟨.inr ?_, fun isKey => distinct.1 (isKey ▸ tracked)⟩
        rw [oldest]
        exact List.mem_cons_of_mem _ tracked
    refine kept.files_of (fun other relied => (relies other relied).1) (fun other _ stays => stays.1)
      fun other relied removed => ?_
    rcases beingRemoved_setPhase removed with isRemoving | before
    · cases isRemoving
      exact ((relies _ relied).2 rfl).elim
    · exact before
  bytes := by
    have bytes : engine.copiedBytes = engine.trackedBytes := kept.bytes
    rw [trackedBytes, Grouping.total, Grouping.values, oldest, List.map_cons, List.map_cons, List.sum_cons] at bytes
    change engine.copiedBytes - size = ((engine.copies.groups.tail.map Prod.snd).map _).sum
    rw [oldest, List.tail_cons, bytes]
    exact add_sub_cancel_left _ _
  fits := .inr (running_setPhase rfl)
  fresh := kept.fresh_setPhase fun isIdle => by rw [begun] at isIdle; cases isIdle

theorem Kept.pass (kept : engine.Kept) {call : Nat} (begun : engine.phase call = .evicting)
    (unused : engine.cacheBytes < engine.copiedBytes ->
      forall key size rest, engine.copies.groups = (key, size) :: rest -> ¬ engine.InUse key) :
    (engine.pass call).Kept := by
  have busy : engine.phase call ≠ .idle := by
    rw [begun]
    exact fun isIdle => by cases isIdle
  have ends (fits : engine.trackedBytes ≤ engine.cacheBytes) : (engine.setPhase call .ended).Kept :=
    kept.moved busy (fun _ inNil => (List.not_mem_nil inNil).elim) (fun _ isRemoving => by cases isRemoving) (.inr (.inl fits))
  rw [Engine.pass]
  split
  · rename_i isEmpty
    refine ends ?_
    rw [trackedBytes, Grouping.total, Grouping.values, isEmpty]
    exact Int.natCast_nonneg _
  · rename_i key size rest oldest
    split
    · rename_i fits
      refine ends ?_
      rwa [<- kept.bytes]
    · rename_i exceeds
      exact kept.evict begun oldest (unused (Int.not_le.mp exceeds) key size rest oldest)

end Turns

section Steps

variable [DecidableEq κ] {engine : Engine κ}

/-- A hit is given a tracked copy, and a miss nothing yet. -/
theorem Kept.begin (kept : engine.Kept) (keys : List κ) : (engine.begin keys).Kept where
  files := by
    refine kept.files_of (fun key relies => ?_) (fun key _ stays => stays.1) fun key _ removed => ?_
    · rcases relies with (⟨other, member⟩ | ⟨fetch, member, isKey, written⟩) | tracked
      · rcases mem_given_setPhase member with isGiven | isGiven
        · have found := (List.mem_filter.mp isGiven).2
          rw [isTracked, Option.isSome_iff_exists] at found
          rcases found with ⟨size, isSize⟩
          exact .inr (List.mem_map_of_mem (Grouping.mem_iff_lookup.mpr isSize))
        · exact .inl (.inl ⟨other, isGiven⟩)
      · rcases List.mem_append.mp member with before | isNew
        · exact .inl (.inr ⟨fetch, before, isKey, written⟩)
        · rcases List.mem_map.mp isNew with ⟨other, _, rfl⟩
          cases written
      · exact .inr tracked
    · exact (beingRemoved_setPhase removed).resolve_left fun isRemoving => by cases isRemoving
  bytes := kept.bytes
  fits := .inr (running_setPhase rfl)
  fresh := by
    have idle (other : Nat) (later : engine.calls < other) : (engine.begin keys).phase other = .idle := by
      rw [Engine.begin, setPhase]
      dsimp only
      rw [if_neg (Nat.ne_of_gt later)]
      exact kept.fresh.2 other later
    exact ⟨idle _ (Nat.lt_succ_self _), fun other later => idle other (Nat.lt_of_succ_lt later)⟩

/-- A file that is not being removed is written. -/
theorem Kept.write (kept : engine.Kept) {fetch : Fetch κ} {size : Nat} (free : ¬ engine.BeingRemoved fetch.key) :
    Kept
      { engine with
        fetches := engine.fetches.erase fetch ++ [{ fetch with written := some size }]
        disk := fetch.key :: engine.disk } where
  files key relies := by
    have stays (before : engine.Relies key) : key ∈ fetch.key :: engine.disk ∧ ¬ engine.BeingRemoved key := by
      have known := kept.files key before
      exact ⟨List.mem_cons_of_mem _ known.1, known.2⟩
    rcases relies with (given | ⟨other, member, isKey, written⟩) | tracked
    · exact stays (.inl (.inl given))
    · rcases List.mem_append.mp member with before | isNew
      · exact stays (.inl (.inr ⟨other, List.mem_of_mem_erase before, isKey, written⟩))
      · rw [List.mem_singleton.mp isNew] at isKey
        rw [<- isKey]
        exact ⟨List.mem_cons_self .., free⟩
    · exact stays (.inr tracked)
  bytes := kept.bytes
  fits := kept.fits
  fresh := kept.fresh

/-- Tracking a copy once adds its bytes. -/
theorem trackedBytes_track {fetch : Fetch κ} {size : Nat}
    (once : forall size, engine.copies.lookup fetch.key = some size -> size = 0) :
    (engine.track fetch size).trackedBytes = engine.trackedBytes + size := by
  refine Grouping.sum_upsertGroups rfl fun value member => ?_
  rw [once value (Grouping.mem_iff_lookup.mp member), Int.natCast_zero, Int.zero_add]

/-- A written copy of a file that is not tracked, or tracked as empty. -/
theorem Kept.track (kept : engine.Kept) {fetch : Fetch κ} {size : Nat} (member : fetch ∈ engine.fetches)
    (written : fetch.written = some size)
    (once : forall size, engine.copies.lookup fetch.key = some size -> size = 0)
    (fits : (engine.phase fetch.call).running = true ∨ engine.Spares fetch.call size) : (engine.track fetch size).Kept where
  files := by
    have wasWritten : engine.InUse fetch.key := .inr ⟨fetch, member, rfl, by rw [written]; rfl⟩
    refine kept.files_of (fun key relies => ?_) (fun key _ stays => stays.1) fun key _ removed => ?_
    · rcases relies with (⟨other, isGiven⟩ | ⟨other, inFetches, isKey, isWritten⟩) | tracked
      · rcases mem_given_setPhase isGiven with received | before
        · cases phase : engine.phase fetch.call with
          | gathering given =>
              rw [phase] at received
              rcases List.mem_cons.mp received with isKey | before
              · rw [isKey]
                exact .inl wasWritten
              · refine .inl (.inl ⟨fetch.call, ?_⟩)
                rw [phase]
                exact before
          | querying given =>
              rw [phase] at received
              refine .inl (.inl ⟨fetch.call, ?_⟩)
              rw [phase]
              exact received
          | idle | evicting | removing _ | ended =>
              rw [phase] at received
              exact (List.not_mem_nil received).elim
        · exact .inl (.inl ⟨other, before⟩)
      · exact .inl (.inr ⟨other, List.mem_of_mem_erase inFetches, isKey, isWritten⟩)
      · rcases (Grouping.keys_upsertGroups _ _ _ _ key).mp tracked with isKey | before
        · rw [isKey]
          exact .inl wasWritten
        · exact .inr before
    · rcases beingRemoved_setPhase removed with isRemoving | before
      · exact ⟨fetch.call, Phase.removing_of_receive isRemoving⟩
      · exact before
  bytes := by
    rw [CountsBytes, trackedBytes_track once, <- kept.bytes]
    rfl
  fits := by
    rw [trackedBytes_track once]
    rcases fits with running | fits | ⟨other, different, running⟩
    · exact .inr (running_setPhase ((Phase.running_receive _ _).trans running))
    · exact .inl fits
    · exact .inr (running_setPhase_of_other different running)
  fresh := kept.fresh_setPhase fun isIdle => by rw [isIdle]; rfl

/-- A fetch fails, and with it a call that waits for it. -/
theorem Kept.failFetch (kept : engine.Kept) {fetch : Fetch κ} (spares : engine.Spares fetch.call 0) :
    Kept
      { engine.setPhase fetch.call (engine.phase fetch.call).reject with fetches := engine.fetches.erase fetch } where
  files := by
    refine kept.files_of (fun key relies => ?_) (fun key _ stays => stays.1) fun key _ removed => ?_
    · rcases relies with (⟨other, isGiven⟩ | ⟨other, inFetches, isKey, isWritten⟩) | tracked
      · rcases mem_given_setPhase isGiven with rejected | before
        · exact .inl (.inl ⟨fetch.call, Phase.given_reject rejected⟩)
        · exact .inl (.inl ⟨other, before⟩)
      · exact .inl (.inr ⟨other, List.mem_of_mem_erase inFetches, isKey, isWritten⟩)
      · exact .inr tracked
    · rcases beingRemoved_setPhase removed with isRemoving | before
      · exact ⟨fetch.call, Phase.removing_of_reject isRemoving⟩
      · exact before
  bytes := kept.bytes
  fits := by
    rcases spares.fits with fits | ⟨other, different, running⟩
    · exact .inl fits
    · exact .inr (running_setPhase_of_other different running)
  fresh := kept.fresh_setPhase fun isIdle => by rw [isIdle]; rfl

/-- The file of an evicted copy goes. -/
theorem Kept.removed (kept : engine.Kept) {call : Nat} {key : κ} (begun : engine.phase call = .removing key) :
    Kept { engine.setPhase call .evicting with disk := engine.disk.filter fun other => !decide (other = key) } where
  files := by
    refine kept.files_of (fun other relies => ?_) (fun other _ stays => ?_) fun other _ removed => ?_
    · rcases relies with (⟨holder, isGiven⟩ | fetched) | tracked
      · exact .inl (.inl ⟨holder, (mem_given_setPhase isGiven).resolve_left fun inNil => List.not_mem_nil inNil⟩)
      · exact .inl (.inr fetched)
      · exact .inr tracked
    · refine List.mem_filter.mpr ⟨stays.1, ?_⟩
      rw [Bool.not_eq_true', decide_eq_false_iff_not]
      rintro rfl
      exact stays.2 ⟨call, begun⟩
    · exact (beingRemoved_setPhase removed).resolve_left fun isRemoving => by cases isRemoving
  bytes := kept.bytes
  fits := .inr (running_setPhase rfl)
  fresh := kept.fresh_setPhase fun isIdle => by rw [begun] at isIdle; cases isIdle

/-- A careful step keeps what is kept. -/
theorem kept_step {event : Event κ} {next : Engine κ} (kept : engine.Kept) (careful : engine.Careful event)
    (stepped : engine.step event = some next) : next.Kept := by
  cases event with
  | start keys =>
      cases stepped
      split
      · exact kept
      · exact kept.begin keys
  | write fetch size =>
      rw [step] at stepped
      split at stepped
      · cases stepped
        exact kept.write careful
      · cases stepped
  | track fetch =>
      rw [step] at stepped
      split at stepped
      · cases stepped
      · rename_i size written
        split at stepped
        · rename_i member
          cases stepped
          exact kept.track member written careful.1 (careful.2.imp_right fun fits => fits size written)
        · cases stepped
  | failFetch fetch =>
      rw [step] at stepped
      split at stepped
      · cases stepped
        exact kept.failFetch careful
      · cases stepped
  | query call =>
      rw [step] at stepped
      split at stepped
      · rename_i given gathering
        split at stepped
        · cases stepped
        · cases stepped
          refine kept.moved (fun isIdle => ?_) (fun key isGiven => ?_) (fun _ isRemoving => by cases isRemoving) (.inl rfl)
          · rw [gathering] at isIdle
            cases isIdle
          · rw [gathering]
            exact isGiven
      · cases stepped
  | abandon call =>
      rw [step] at stepped
      split at stepped
      · rename_i given gathering
        split at stepped
        · cases stepped
        · cases stepped
          refine kept.moved (fun isIdle => ?_) (fun _ inNil => (List.not_mem_nil inNil).elim)
            (fun _ isRemoving => by cases isRemoving) (.inr (Spares.fits careful))
          rw [gathering] at isIdle
          cases isIdle
      · cases stepped
  | finish call =>
      rw [step] at stepped
      split at stepped
      · rename_i given querying
        cases stepped
        refine kept.moved (fun isIdle => ?_) (fun _ inNil => (List.not_mem_nil inNil).elim)
          (fun _ isRemoving => by cases isRemoving) (.inl rfl)
        rw [querying] at isIdle
        cases isIdle
      · cases stepped
  | pass call =>
      rw [step] at stepped
      split at stepped
      · rename_i evicting
        cases stepped
        exact kept.pass evicting careful
      · cases stepped
  | removed call =>
      rw [step] at stepped
      split at stepped
      · rename_i key removing
        cases stepped
        exact kept.removed removing
      · cases stepped
  | failRemoval call =>
      rw [step] at stepped
      split at stepped
      · rename_i key removing
        cases stepped
        refine kept.moved (fun isIdle => ?_) (fun _ inNil => (List.not_mem_nil inNil).elim)
          (fun _ isRemoving => by cases isRemoving) (.inr (Spares.fits careful))
        rw [removing] at isIdle
        cases isIdle
      · cases stepped

end Steps

/-! ## Runs -/

/-- The cache is safe in every state that careful steps reach, whatever calls are
interleaved. -/
theorem cache_safe [DecidableEq κ] (cacheBytes : Nat) {events : List (Event κ)} {final : Engine κ}
    (careful : Transition.Along step Careful (initial cacheBytes) events)
    (ran : Transition.runFrom step (initial cacheBytes) events = some final) : final.Safe :=
  (Transition.invariant_along (fun _ _ _ kept isCareful stepped => kept_step kept isCareful stepped)
    (kept_initial cacheBytes) careful ran).safe

/-- A call fetches the only file, runs its query and finds that the copy fits. -/
def alone : List (Event Nat) :=
  [.start [7], .write ⟨0, 7, none⟩ 60, .track ⟨0, 7, some 60⟩, .query 0, .finish 0, .pass 0]

theorem alone_safe : Exists fun final =>
    Transition.runFrom step (initial 100) alone = some final ∧ final.Safe := by
  have unremoved : ¬ BeingRemoved ((initial 100).begin [7]) 7 := by
    rintro ⟨call, isRemoving⟩
    change (if call = 0 then Phase.gathering [] else Phase.idle) = Phase.removing 7 at isRemoving
    split at isRemoving <;> cases isRemoving
  have careful : Transition.Along step Careful (initial 100) alone := by
    refine Transition.along_cons rfl trivial (Transition.along_cons rfl unremoved ?_)
    refine Transition.along_cons rfl ⟨fun size isSize => (by cases isSize), .inl rfl⟩ ?_
    refine Transition.along_cons rfl trivial (Transition.along_cons rfl trivial ?_)
    exact Transition.along_cons rfl (fun exceeds => absurd exceeds (by decide)) trivial
  exact ⟨_, rfl, cache_safe 100 careful rfl⟩

/-! ## Interleavings that are not safe -/

/-- The first query ends while the second one reads the same copy. -/
def evictedInUse : List (Event Nat) :=
  [.start [7], .write ⟨0, 7, none⟩ 60, .track ⟨0, 7, some 60⟩, .query 0, .start [7], .query 1, .finish 0, .pass 0,
    .removed 0]

/-- Both calls miss the file. -/
def missedTwice : List (Event Nat) :=
  [.start [7], .start [7], .write ⟨0, 7, none⟩ 60, .write ⟨1, 7, none⟩ 60, .track ⟨0, 7, some 60⟩,
    .track ⟨1, 7, some 60⟩]

/-- The second file cannot be fetched, so that nothing is evicted. -/
def rejected : List (Event Nat) :=
  [.start [7, 8], .write ⟨0, 7, none⟩ 60, .track ⟨0, 7, some 60⟩, .failFetch ⟨0, 8, none⟩]

/-- Each of the three parts of safety fails in some run. -/
theorem cache_not_safe :
    (Exists fun final => Transition.runFrom step (initial 0) evictedInUse = some final ∧ ¬ final.KeepsGiven) ∧
      (Exists fun final => Transition.runFrom step (initial 0) missedTwice = some final ∧ ¬ final.CountsBytes) ∧
      Exists fun final => Transition.runFrom step (initial 0) rejected = some final ∧ ¬ final.Fits := by
  refine ⟨⟨_, rfl, fun keeps => ?_⟩, ⟨_, rfl, fun counts => ?_⟩, ⟨_, rfl, fun fits => ?_⟩⟩
  · exact absurd (keeps 1 7 (by decide)) (by decide)
  · exact absurd counts (by unfold CountsBytes; decide)
  · refine absurd (fits fun call => ?_) (by unfold trackedBytes; decide)
    by_cases first : call = 0
    · rw [first]
      rfl
    · change (if call = 0 then _ else if call = 0 then _ else if call = 0 then _ else Phase.idle).running = false
      rw [if_neg first, if_neg first, if_neg first]
      rfl

end Engine
end LocalCache
end Parquet
end Telescope
