import Telescope.Recorder.Conservation

namespace Telescope
namespace Recorder

universe u v

/-!
# What a resolved flush has settled

A call of `flush()` stands for one drained batch.  A call that finds no flush in
flight drains the whole ring itself; a call that finds one joins it and shares
its promise, so that entries recorded since that flush began wait for the next
one.  When the promise resolves, every entry of the batch has been stored or
given up and counted.
-/

variable {Input : Type u} {α : Type v} {capacity : Nat}

/-- The strong reading of a flush: the whole ring found by the call is settled
by the time its promise resolves. -/
def FlushCall.SettlesRing (call : FlushCall α) : Prop :=
  forall snapshot, call.resolution = some snapshot ->
    forall entry, entry ∈ call.ring -> entry ∈ snapshot.stored ∨ entry ∈ snapshot.storeFailed

/-- What the code guarantees at that moment. -/
structure FlushCall.SettlesBatch (call : FlushCall α) (snapshot : Snapshot α) : Prop where
  settled : forall entry, entry ∈ call.batch ->
    entry ∈ snapshot.stored ∨ entry ∈ snapshot.storeFailed
  owned : call.joined = false -> call.ring = call.batch
  heldBack : call.joined = true -> forall entry, entry ∈ call.ring ->
    entry ∈ snapshot.ring ∨ entry ∈ snapshot.evicted

/-- The invariant of a run about its calls of `flush()`. -/
structure CallsInvariant (system : System α capacity) : Prop where
  landed : forall flight, system.recorder.flushing = some flight ->
    forall entry, entry ∈ flight.drained ->
      entry ∈ system.history.stored ∨ entry ∈ system.history.storeFailed ∨
        entry ∈ system.inFlight
  waiting : forall call, call ∈ system.history.calls -> call.resolution = none ->
    Exists fun flight =>
      system.recorder.flushing = some flight ∧ call.batch = flight.drained
  owned : forall call, call ∈ system.history.calls -> call.joined = false ->
    call.ring = call.batch
  heldBack : forall call, call ∈ system.history.calls -> call.resolution = none ->
    call.joined = true -> forall entry, entry ∈ call.ring ->
      entry ∈ system.recorder.ring.toList ∨ entry ∈ system.history.evicted
  resolved : forall call, call ∈ system.history.calls ->
    forall snapshot, call.resolution = some snapshot -> call.SettlesBatch snapshot

theorem initial_callsInvariant (options : Options) :
    CallsInvariant (initial options : System α options.bufferSize) where
  landed := fun _flight flying => by cases flying
  waiting := fun _call member => by cases member
  owned := fun _call member => by cases member
  heldBack := fun _call member => by cases member
  resolved := fun _call member => by cases member

/-- A step that leaves the calls, the batch in flight and the settled logs alone
keeps the invariant when no ring entry disappears uncounted. -/
theorem CallsInvariant.of_frame {system next : System α capacity} (kept : CallsInvariant system)
    (flushing : next.recorder.flushing = system.recorder.flushing)
    (calls : next.history.calls = system.history.calls)
    (stored : next.history.stored = system.history.stored)
    (storeFailed : next.history.storeFailed = system.history.storeFailed)
    (present : forall entry,
      entry ∈ system.recorder.ring.toList ∨ entry ∈ system.history.evicted ->
        entry ∈ next.recorder.ring.toList ∨ entry ∈ next.history.evicted) :
    CallsInvariant next where
  landed := by
    have inFlight : next.inFlight = system.inFlight := by
      rw [System.inFlight, System.inFlight, flushing]
    rw [flushing, stored, storeFailed, inFlight]
    exact kept.landed
  waiting := by rw [flushing, calls]; exact kept.waiting
  owned := by rw [calls]; exact kept.owned
  heldBack := by
    rw [calls]
    exact fun call member unresolved joined entry found =>
      present entry (kept.heldBack call member unresolved joined entry found)
  resolved := by rw [calls]; exact kept.resolved

/-! ## Recording -/

theorem record_callsInvariant {system : System α capacity} (kept : CallsInvariant system)
    (seams : Seams Input α) (input : Input) :
    CallsInvariant
      { recorder := system.recorder.record seams input
        history := system.history.record system.recorder seams input } := by
  by_cases paused : system.recorder.paused = true
  · simp only [record, History.record, if_pos paused]
    exact kept.of_frame rfl rfl rfl rfl fun _ found => found
  · simp only [record, History.record, if_neg paused]
    cases captured : (seams.capture input).1 with
    | excluded => exact kept.of_frame rfl rfl rfl rfl fun _ found => found
    | failed => exact kept.of_frame rfl rfl rfl rfl fun _ found => found
    | admitted entry =>
        rcases history_push_frame system.history system.recorder.ring entry with
          ⟨stored, storeFailed, _drained, _refused, calls⟩
        refine kept.of_frame rfl calls stored storeFailed fun held found => ?_
        have moved := system.recorder.ring.evicted_append_push entry
        change held ∈ (system.recorder.ring.push entry).toList ∨ _
        rw [history_push_evicted, List.mem_append]
        rcases found with inRing | evicted
        · have either : held ∈ system.recorder.ring.evictedByPush ++
              (system.recorder.ring.push entry).toList := by
            rw [moved]
            exact List.mem_append_left [entry] inRing
          rcases List.mem_append.mp either with out | stays
          · exact .inr (.inr out)
          · exact .inl stays
        · exact .inr (.inl evicted)

/-! ## Calling flush -/

theorem flush_callsInvariant {system : System α capacity} (kept : CallsInvariant system)
    (flushBatchSize : Option Int) (now : Int) :
    CallsInvariant
      { recorder := system.recorder.flush flushBatchSize now
        history := system.history.flush system } := by
  cases inFlight : system.recorder.flushing with
  | some flight =>
      simp only [flush, History.flush, inFlight]
      refine ⟨kept.landed, ?_, ?_, ?_, ?_⟩
      · intro call member unresolved
        rcases List.mem_append.mp member with earlier | joining
        · exact kept.waiting call earlier unresolved
        · cases List.mem_singleton.mp joining
          exact ⟨flight, inFlight, rfl⟩
      · intro call member owned
        rcases List.mem_append.mp member with earlier | joining
        · exact kept.owned call earlier owned
        · cases List.mem_singleton.mp joining
          cases owned
      · intro call member unresolved joined entry found
        rcases List.mem_append.mp member with earlier | joining
        · exact kept.heldBack call earlier unresolved joined entry found
        · cases List.mem_singleton.mp joining
          exact .inl found
      · intro call member snapshot resolution
        rcases List.mem_append.mp member with earlier | joining
        · exact kept.resolved call earlier snapshot resolution
        · cases List.mem_singleton.mp joining
          cases resolution
  | none =>
      have noneWaits : forall call, call ∈ system.history.calls -> call.resolution ≠ none := by
        intro call member unresolved
        rcases kept.waiting call member unresolved with ⟨flight, flying, _⟩
        rw [inFlight] at flying
        cases flying
      by_cases vacant : system.recorder.ring.count = 0
      · have nothing : system.recorder.ring.toList = [] :=
          List.length_eq_zero_iff.mp (system.recorder.ring.length_toList.trans vacant)
        simp only [flush, History.flush, inFlight, if_pos vacant]
        refine ⟨kept.landed, ?_, ?_, ?_, ?_⟩
        · intro call member unresolved
          rcases List.mem_append.mp member with earlier | returning
          · exact kept.waiting call earlier unresolved
          · cases List.mem_singleton.mp returning
            cases unresolved
        · intro call member owned
          rcases List.mem_append.mp member with earlier | returning
          · exact kept.owned call earlier owned
          · cases List.mem_singleton.mp returning
            exact nothing
        · intro call member unresolved joined entry found
          rcases List.mem_append.mp member with earlier | returning
          · exact kept.heldBack call earlier unresolved joined entry found
          · cases List.mem_singleton.mp returning
            cases joined
        · intro call member snapshot resolution
          rcases List.mem_append.mp member with earlier | returning
          · exact kept.resolved call earlier snapshot resolution
          · cases List.mem_singleton.mp returning
            exact ⟨fun entry found => (List.not_mem_nil found).elim, fun _ => nothing,
              fun joined => by cases joined⟩
      · have inAir : System.inFlight
            { recorder := system.recorder.flush flushBatchSize now
              history := system.history.flush system } = system.recorder.ring.toList :=
          flush_inFlight system flushBatchSize now inFlight vacant
        simp only [flush, History.flush, inFlight, if_neg vacant] at inAir ⊢
        refine ⟨?_, ?_, ?_, ?_, ?_⟩
        · intro flight flying entry found
          cases flying
          rw [RingBuffer.drain_fst] at found
          exact .inr (.inr (inAir ▸ found))
        · intro call member unresolved
          rcases List.mem_append.mp member with earlier | draining
          · exact (noneWaits call earlier unresolved).elim
          · cases List.mem_singleton.mp draining
            exact ⟨_, rfl, system.recorder.ring.drain_fst.symm⟩
        · intro call member owned
          rcases List.mem_append.mp member with earlier | draining
          · exact kept.owned call earlier owned
          · cases List.mem_singleton.mp draining
            rfl
        · intro call member unresolved joined
          rcases List.mem_append.mp member with earlier | draining
          · exact (noneWaits call earlier unresolved).elim
          · cases List.mem_singleton.mp draining
            cases joined
        · intro call member snapshot resolution
          rcases List.mem_append.mp member with earlier | draining
          · exact kept.resolved call earlier snapshot resolution
          · cases List.mem_singleton.mp draining
            cases resolution

/-! ## The flush in flight -/

/-- A resolved call stays as it is and a waiting one takes the snapshot. -/
theorem resolveCalls_member {history : History α} {snapshot : Snapshot α} {call : FlushCall α}
    (member : call ∈ (history.resolveCalls snapshot).calls) :
    Exists fun before =>
      before ∈ history.calls ∧
        ((Exists fun earlier => before.resolution = some earlier ∧ call = before) ∨
          (before.resolution = none ∧ call = { before with resolution := some snapshot })) := by
  rcases List.mem_map.mp member with ⟨before, inCalls, rfl⟩
  refine ⟨before, inCalls, ?_⟩
  cases resolution : before.resolution with
  | some earlier => exact .inl ⟨earlier, rfl, rfl⟩
  | none => exact .inr ⟨rfl, rfl⟩

theorem advanced_callsInvariant {system next : System α capacity} {flight : Flight α}
    (kept : CallsInvariant system) (flying : system.recorder.flushing = some flight)
    (advanced : Advanced system flight next) : CallsInvariant next := by
  have landed := kept.landed flight flying
  have pendingEq : system.inFlight = flight.progress.pending := by
    rw [System.inFlight, flying]
  rw [pendingEq] at landed
  have waits : forall progress call, call ∈ system.history.calls -> call.resolution = none ->
      Exists fun moved => some { flight with progress := progress } = some moved ∧
        call.batch = moved.drained := by
    intro progress call member unresolved
    rcases kept.waiting call member unresolved with ⟨found, same, batch⟩
    cases flying.symm.trans same
    exact ⟨_, rfl, batch⟩
  cases advanced with
  | waits progress retried pending =>
      refine ⟨?_, waits progress, kept.owned, kept.heldBack, kept.resolved⟩
      intro moved same entry found
      cases same
      change _ ∨ _ ∨ entry ∈ progress.pending
      rw [pending]
      exact landed entry found
  | stores chunk progress pending =>
      refine ⟨?_, waits progress, kept.owned, kept.heldBack, kept.resolved⟩
      intro moved same entry found
      cases same
      change entry ∈ system.history.stored ++ chunk ∨ _ ∨ entry ∈ progress.pending
      rcases landed entry found with stored | failed | inAir
      · exact .inl (List.mem_append_left chunk stored)
      · exact .inr (.inl failed)
      · rw [pending] at inAir
        rcases List.mem_append.mp inAir with inChunk | later
        · exact .inl (List.mem_append_right _ inChunk)
        · exact .inr (.inr later)
  | givesUp chunk progress pending =>
      refine ⟨?_, waits progress, kept.owned, kept.heldBack, kept.resolved⟩
      intro moved same entry found
      cases same
      change _ ∨ entry ∈ system.history.storeFailed ++ chunk ∨ entry ∈ progress.pending
      rcases landed entry found with stored | failed | inAir
      · exact .inl stored
      · exact .inr (.inl (List.mem_append_left chunk failed))
      · rw [pending] at inAir
        rcases List.mem_append.mp inAir with inChunk | later
        · exact .inr (.inl (List.mem_append_right _ inChunk))
        · exact .inr (.inr later)
  | ends now pending =>
      rw [pending] at landed
      -- Every call is either resolved already or awaits this very flush.
      have settles : forall call, call ∈ system.history.calls -> call.resolution = none ->
          call.SettlesBatch system.snapshot := by
        intro call member unresolved
        rcases kept.waiting call member unresolved with ⟨found, same, batch⟩
        cases flying.symm.trans same
        refine ⟨?_, kept.owned call member, kept.heldBack call member unresolved⟩
        intro entry inBatch
        rcases landed entry (batch ▸ inBatch) with stored | failed | inAir
        · exact .inl stored
        · exact .inr failed
        · exact (List.not_mem_nil inAir).elim
      have landedNone : (system.recorder.recordFlushMetrics flight now).flushing = none := rfl
      refine ⟨?_, ?_, ?_, ?_, ?_⟩
      · intro moved same
        rw [landedNone] at same
        cases same
      · intro call member unresolved
        rcases resolveCalls_member member with ⟨before, _, ⟨earlier, found, rfl⟩ | ⟨_, rfl⟩⟩
        · rw [found] at unresolved
          cases unresolved
        · cases unresolved
      · intro call member
        rcases resolveCalls_member member with ⟨before, inCalls, ⟨_, _, same⟩ | ⟨_, same⟩⟩
        · exact same ▸ kept.owned before inCalls
        · exact same ▸ kept.owned before inCalls
      · intro call member unresolved
        rcases resolveCalls_member member with ⟨before, _, ⟨earlier, found, rfl⟩ | ⟨_, rfl⟩⟩
        · rw [found] at unresolved
          cases unresolved
        · cases unresolved
      · intro call member snapshot resolution
        rcases resolveCalls_member member with ⟨before, inCalls, ⟨_, _, same⟩ | ⟨waiting, same⟩⟩
        · exact kept.resolved call (same ▸ inCalls) snapshot resolution
        · subst same
          cases resolution
          have settled := settles before inCalls waiting
          exact ⟨settled.settled, settled.owned, settled.heldBack⟩

/-! ## Every resolved call -/

theorem step_callsInvariant {options : Options} {system next : System α options.bufferSize}
    {event : Event Input α} (kept : CallsInvariant system)
    (stepped : step options system event = some next) : CallsInvariant next := by
  rcases step_cases stepped with ⟨seams, input, _, rfl⟩ | ⟨paused, rfl⟩ | ⟨now, _, rfl⟩ |
    ⟨flight, flying, advanced⟩
  · exact record_callsInvariant kept seams input
  · exact kept.of_frame rfl rfl rfl rfl fun _ found => found
  · exact flush_callsInvariant kept options.flushBatchSize now
  · exact advanced_callsInvariant kept flying advanced

/-- Entry 1 is being stored when entry 2 arrives and a second call joins. -/
def joiningRun : List (Event Nat Nat) :=
  [.record admitAll 1, .flush 0, .record admitAll 2, .flush 1, .storeResolved, .rollupsSettled,
    .hookSettled, .flushSettled 3]

end Recorder
end Telescope
