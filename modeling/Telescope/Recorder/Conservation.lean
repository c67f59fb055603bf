import Telescope.Recorder.Machine
import Mathlib.Algebra.Order.Group.Multiset
import Mathlib.Tactic.Abel

namespace Telescope
namespace Recorder

universe u v

/-!
# Conservation of entries

Every entry that reaches the ring is, from then on, in exactly one place: the
ring, the drained batch in flight, or one of the three logs of evicted, stored
and given-up entries.  The counters of the recorder are the lengths of those
logs, and the stored log is in push order.

The invariant carried through a run is slightly stronger than the published
one: it orders the stored entries, the batch in flight and the ring behind one
another, which is what makes storing the next chunk and draining the ring
preserve the order.
-/

variable {Input : Type u} {α : Type v} {capacity : Nat}

/-- The invariant of a run. -/
structure Invariant (system : System α capacity) : Prop where
  suffix : system.recorder.ring.toList <:+ system.history.pushed
  order : (system.history.stored ++ system.inFlight ++
    system.recorder.ring.toList).Sublist system.history.pushed
  placed : (system.recorder.ring.toList : Multiset α) + system.inFlight +
    system.history.evicted + system.history.stored + system.history.storeFailed =
      system.history.pushed
  drained : (system.history.stored : Multiset α) + system.history.storeFailed +
    system.inFlight = system.history.drained
  recorded : system.recorder.recordedCount = system.history.pushed.length
  overflow : system.recorder.overflowDrops =
    system.history.evicted.length + system.history.refused
  failed : system.recorder.storeFailedDrops = system.history.storeFailed.length
  flushed : system.recorder.flushedEntriesCount + system.batchInFlight.length =
    system.history.drained.length

theorem initial_invariant (options : Options) :
    Invariant (initial options : System α options.bufferSize) where
  suffix := List.suffix_refl []
  order := List.Sublist.refl []
  placed := rfl
  drained := rfl
  recorded := rfl
  overflow := rfl
  failed := rfl
  flushed := rfl

/-! ## Pushing an entry -/

@[simp] theorem push_inFlight (system : System α capacity) (entry : α) (history : History α) :
    System.inFlight { recorder := system.recorder.push entry, history := history } =
      system.inFlight := rfl

theorem history_push_pushed (history : History α) (ring : RingBuffer α capacity) (entry : α) :
    (history.push ring entry).pushed = history.pushed ++ [entry] := by
  unfold History.push
  split <;> rfl

theorem history_push_evicted (history : History α) (ring : RingBuffer α capacity) (entry : α) :
    (history.push ring entry).evicted = history.evicted ++ ring.evictedByPush := by
  unfold History.push
  split <;> rfl

theorem history_push_frame (history : History α) (ring : RingBuffer α capacity) (entry : α) :
    (history.push ring entry).stored = history.stored ∧
      (history.push ring entry).storeFailed = history.storeFailed ∧
      (history.push ring entry).drained = history.drained ∧
      (history.push ring entry).refused = history.refused ∧
      (history.push ring entry).calls = history.calls := by
  unfold History.push
  split <;> exact ⟨rfl, rfl, rfl, rfl, rfl⟩

/-- The ring after a push is a suffix of the ring before it and the new entry. -/
theorem push_suffix (ring : RingBuffer α capacity) (entry : α) :
    (ring.push entry).toList <:+ ring.toList ++ [entry] :=
  ⟨ring.evictedByPush, ring.evicted_append_push entry⟩

theorem push_overflowDrops (recorder : Recorder α capacity) (entry : α) :
    (recorder.push entry).overflowDrops =
      recorder.overflowDrops + recorder.ring.evictedByPush.length := by
  rw [RingBuffer.length_evictedByPush]
  simp only [push]
  split <;> rfl

variable {system : System α capacity}

theorem push_invariant (kept : Invariant system) (entry : α) :
    Invariant
      { recorder := system.recorder.push entry
        history := system.history.push system.recorder.ring entry } := by
  rcases history_push_frame system.history system.recorder.ring entry with
    ⟨stored, storeFailed, drained, refused, _calls⟩
  have moved := system.recorder.ring.evicted_append_push entry
  refine ⟨?_, ?_, ?_, ?_, ?_, ?_, ?_, ?_⟩
  · rcases kept.suffix with ⟨past, split⟩
    refine ⟨past ++ system.recorder.ring.evictedByPush, ?_⟩
    rw [history_push_pushed, ← split, List.append_assoc, List.append_assoc]
    exact congrArg (past ++ ·) moved
  · rw [history_push_pushed, stored, push_inFlight]
    have newest := (push_suffix system.recorder.ring entry).sublist
    refine (newest.append_left _).trans ?_
    rw [← List.append_assoc]
    exact kept.order.append_right [entry]
  · have added : (system.recorder.ring.evictedByPush : Multiset α) +
        (system.recorder.ring.push entry).toList = system.recorder.ring.toList + [entry] := by
      rw [Multiset.coe_add, Multiset.coe_add, moved]
    rw [history_push_pushed, history_push_evicted, stored, storeFailed, push_inFlight,
      ← Multiset.coe_add system.history.pushed, ← kept.placed, ← Multiset.coe_add]
    calc ((system.recorder.push entry).ring.toList : Multiset α) + system.inFlight +
          (system.history.evicted + system.recorder.ring.evictedByPush) +
          system.history.stored + system.history.storeFailed
        = (system.recorder.ring.evictedByPush + (system.recorder.ring.push entry).toList) +
            system.inFlight + system.history.evicted + system.history.stored +
            system.history.storeFailed := by
          change ((system.recorder.ring.push entry).toList : Multiset α) + _ + _ + _ + _ = _
          abel
      _ = system.recorder.ring.toList + system.inFlight + system.history.evicted +
            system.history.stored + system.history.storeFailed + [entry] := by
          rw [added]
          abel
  · rw [stored, storeFailed, drained, push_inFlight]
    exact kept.drained
  · rw [history_push_pushed, List.length_append, ← kept.recorded]
    rfl
  · rw [history_push_evicted, refused, push_overflowDrops, kept.overflow, List.length_append]
    omega
  · rw [storeFailed]
    exact kept.failed
  · rw [drained]
    exact kept.flushed

/-- Counters and logs outside the invariant may change freely. -/
theorem Invariant.of_frame {next : System α capacity} (kept : Invariant system)
    (ring : next.recorder.ring = system.recorder.ring) (inFlight : next.inFlight = system.inFlight)
    (recorded : next.recorder.recordedCount = system.recorder.recordedCount)
    (failed : next.recorder.storeFailedDrops = system.recorder.storeFailedDrops)
    (pushed : next.history.pushed = system.history.pushed) (evicted : next.history.evicted = system.history.evicted)
    (drained : next.history.drained = system.history.drained) (stored : next.history.stored = system.history.stored)
    (storeFailed : next.history.storeFailed = system.history.storeFailed)
    (overflow : next.recorder.overflowDrops = next.history.evicted.length + next.history.refused)
    (flushed : next.recorder.flushedEntriesCount + next.batchInFlight.length =
      next.history.drained.length) :
    Invariant next where
  suffix := by rw [ring, pushed]; exact kept.suffix
  order := by rw [ring, inFlight, stored, pushed]; exact kept.order
  placed := by rw [ring, inFlight, evicted, stored, storeFailed, pushed]; exact kept.placed
  drained := by rw [inFlight, stored, storeFailed, drained]; exact kept.drained
  recorded := by rw [recorded, pushed]; exact kept.recorded
  overflow := overflow
  failed := by rw [failed, storeFailed]; exact kept.failed
  flushed := flushed

theorem record_invariant (kept : Invariant system) (seams : Seams Input α) (input : Input) :
    Invariant
      { recorder := system.recorder.record seams input
        history := system.history.record system.recorder seams input } := by
  by_cases paused : system.recorder.paused = true
  · simp only [record, History.record, if_pos paused]
    refine kept.of_frame rfl rfl rfl rfl rfl rfl rfl rfl rfl ?_ kept.flushed
    change system.recorder.overflowDrops + 1 =
      system.history.evicted.length + (system.history.refused + 1)
    rw [kept.overflow]
    omega
  · simp only [record, History.record, if_neg paused]
    cases captured : (seams.capture input).1 with
    | excluded => exact kept.of_frame rfl rfl rfl rfl rfl rfl rfl rfl rfl kept.overflow kept.flushed
    | failed => exact kept.of_frame rfl rfl rfl rfl rfl rfl rfl rfl rfl kept.overflow kept.flushed
    | admitted entry =>
        have counted : Invariant
            { system with
              recorder :=
                { system.recorder with
                  truncatedEntryCount := system.recorder.truncatedEntryCount +
                    (seams.capture input).2.toNat } } :=
          kept.of_frame rfl rfl rfl rfl rfl rfl rfl rfl rfl kept.overflow kept.flushed
        exact push_invariant counted entry

/-! ## Draining the ring -/

/-- A flush that starts puts the whole ring in flight. -/
theorem flush_inFlight (system : System α capacity) (flushBatchSize : Option Int) (now : Int)
    (idle : system.recorder.flushing = none) (holding : system.recorder.ring.count ≠ 0) :
    System.inFlight
      { recorder := system.recorder.flush flushBatchSize now
        history := system.history.flush system } = system.recorder.ring.toList := by
  simp only [System.inFlight, flush, idle, if_neg holding, Progress.pending_next,
    chunks_flatten, RingBuffer.drain_fst]

theorem flush_invariant (kept : Invariant system) (flushBatchSize : Option Int) (now : Int) :
    Invariant
      { recorder := system.recorder.flush flushBatchSize now
        history := system.history.flush system } := by
  cases inFlight : system.recorder.flushing with
  | some flight =>
      simp only [flush, History.flush, inFlight]
      exact kept.of_frame rfl rfl rfl rfl rfl rfl rfl rfl rfl kept.overflow kept.flushed
  | none =>
      by_cases vacant : system.recorder.ring.count = 0
      · simp only [flush, History.flush, inFlight, if_pos vacant]
        exact kept.of_frame rfl rfl rfl rfl rfl rfl rfl rfl rfl kept.overflow kept.flushed
      · have nothing : system.inFlight = [] := by rw [System.inFlight, inFlight]
        have order := kept.order
        have placed := kept.placed
        have drained := kept.drained
        rw [nothing] at order placed drained
        simp only [flush, History.flush, inFlight, if_neg vacant]
        have inAir := flush_inFlight system flushBatchSize now inFlight vacant
        simp only [flush, History.flush, inFlight, if_neg vacant] at inAir
        have flushed := kept.flushed
        rw [System.batchInFlight, inFlight] at flushed
        refine ⟨List.nil_suffix, ?_, ?_, ?_, kept.recorded, kept.overflow, kept.failed, ?_⟩
        · rw [inAir]
          simpa only [List.append_nil, RingBuffer.drain_snd_toList] using order
        · rw [inAir, ← placed]
          simp only [RingBuffer.drain_snd_toList, Multiset.coe_nil]
          abel
        · rw [inAir, ← Multiset.coe_add, ← drained]
          simp only [Multiset.coe_nil]
          abel
        · change system.recorder.flushedEntriesCount + system.recorder.ring.drain.1.length =
            (system.history.drained ++ system.recorder.ring.toList).length
          rw [RingBuffer.drain_fst, List.length_append, ← flushed, List.length_nil, Nat.add_zero]

/-! ## The flush in flight -/

@[simp] theorem setProgress_ring (recorder : Recorder α capacity) (flight : Flight α)
    (progress : Progress α) : (recorder.setProgress flight progress).ring = recorder.ring := rfl

@[simp] theorem setProgress_inFlight (recorder : Recorder α capacity) (flight : Flight α)
    (progress : Progress α) (history : History α) :
    System.inFlight { recorder := recorder.setProgress flight progress, history := history } =
      progress.pending := rfl

theorem advanced_invariant {next : System α capacity} {flight : Flight α} (kept : Invariant system)
    (flying : system.recorder.flushing = some flight) (advanced : Advanced system flight next) : Invariant next := by
  have pendingEq : system.inFlight = flight.progress.pending := by
    rw [System.inFlight, flying]
  have flushed : system.recorder.flushedEntriesCount + flight.drained.length =
      system.history.drained.length := by
    rw [← kept.flushed, System.batchInFlight, flying]
  cases advanced with
  | waits progress retried pending =>
      refine kept.of_frame rfl ?_ rfl rfl rfl rfl rfl rfl rfl kept.overflow flushed
      exact pending.trans pendingEq.symm
  | stores chunk progress pending =>
      have order := kept.order
      have placed := kept.placed
      have drained := kept.drained
      rw [pendingEq, pending] at order placed drained
      refine ⟨kept.suffix, ?_, ?_, ?_, kept.recorded, kept.overflow, kept.failed, flushed⟩
      · rw [setProgress_inFlight, setProgress_ring]
        simpa only [List.append_assoc] using order
      · rw [setProgress_inFlight, setProgress_ring, ← placed, ← Multiset.coe_add,
          ← Multiset.coe_add]
        abel
      · rw [setProgress_inFlight, ← drained, ← Multiset.coe_add, ← Multiset.coe_add]
        abel
  | givesUp chunk progress pending =>
      have order := kept.order
      have placed := kept.placed
      have drained := kept.drained
      rw [pendingEq, pending] at order placed drained
      refine ⟨kept.suffix, ?_, ?_, ?_, kept.recorded, kept.overflow, ?_, flushed⟩
      · refine List.Sublist.trans ?_ order
        have shorter : (system.history.stored ++ progress.pending).Sublist
            (system.history.stored ++ (chunk ++ progress.pending)) :=
          (List.sublist_append_right chunk progress.pending).append_left _
        exact shorter.append_right _
      · change _ + (progress.pending : Multiset α) + _ + _ +
          ((system.history.storeFailed ++ chunk : List α) : Multiset α) = _
        rw [← Multiset.coe_add]
        refine Eq.trans ?_ placed
        rw [← Multiset.coe_add]
        change (system.recorder.ring.toList : Multiset α) + _ + system.history.evicted +
          system.history.stored + _ = _
        abel
      · change (system.history.stored : Multiset α) +
          ((system.history.storeFailed ++ chunk : List α) : Multiset α) +
          (progress.pending : Multiset α) = system.history.drained
        rw [← drained, ← Multiset.coe_add, ← Multiset.coe_add]
        abel
      · change system.recorder.storeFailedDrops + chunk.length =
          (system.history.storeFailed ++ chunk).length
        rw [kept.failed, List.length_append]
  | ends now pending =>
      refine kept.of_frame rfl ?_ rfl rfl rfl rfl rfl rfl rfl kept.overflow flushed
      exact (pendingEq.trans pending).symm

/-! ## Every reachable state -/

theorem step_invariant {options : Options} {system next : System α options.bufferSize}
    {event : Event Input α} (kept : Invariant system)
    (stepped : step options system event = some next) : Invariant next := by
  rcases step_cases stepped with ⟨seams, input, _, rfl⟩ | ⟨paused, rfl⟩ | ⟨now, _, rfl⟩ |
    ⟨flight, flying, advanced⟩
  · exact record_invariant kept seams input
  · exact kept.of_frame rfl rfl rfl rfl rfl rfl rfl rfl rfl kept.overflow kept.flushed
  · exact flush_invariant kept options.flushBatchSize now
  · exact advanced_invariant kept flying advanced

theorem reachable_invariant {options : Options} {system : System α options.bufferSize}
    (reachable : Transition.Reachable (@step Input α options) (initial options) system) :
    Invariant system :=
  Transition.invariant_of_reachable (fun _ _ _ kept stepped => step_invariant kept stepped)
    (initial_invariant options) reachable

/-- Every entry is in exactly one place, the ring is the most recent stretch of
the pushes and retains nothing else, and the counters are what they are named
after. -/
structure Conserved (system : System α capacity) : Prop where
  placed : (system.recorder.ring.toList ++ system.inFlight ++ system.history.evicted ++
    system.history.stored ++ system.history.storeFailed).Perm system.history.pushed
  drained : (system.inFlight ++ system.history.stored ++ system.history.storeFailed).Perm
    system.history.drained
  ring_recent : system.recorder.ring.toList =
    system.history.pushed.drop
      (system.history.pushed.length - system.recorder.ring.count)
  ring_count : system.recorder.ring.toList.length = system.recorder.ring.count
  ring_vacant : forall slot,
    (forall offset, offset < system.recorder.ring.count ->
      (system.recorder.ring.head + offset) % capacity ≠ slot) ->
    system.recorder.ring.slots slot = none
  recorded : system.recorder.recordedCount =
    system.recorder.ring.count + system.history.drained.length + system.history.evicted.length
  overflow : system.recorder.overflowDrops =
    system.history.evicted.length + system.history.refused
  failed : system.recorder.storeFailedDrops = system.history.storeFailed.length
  flushed : system.recorder.flushedEntriesCount + system.batchInFlight.length =
    system.history.drained.length
  stored_inOrder : system.history.stored.Sublist system.history.pushed

/-- Conservation in every reachable state, for every ring size, every flush
batch size and every interleaving of the calls with the store. -/
theorem recorder_conserves (options : Options) (system : System α options.bufferSize)
    (reachable : Transition.Reachable (@step Input α options) (initial options) system) :
    Conserved system := by
  have kept := reachable_invariant reachable
  have placed : (system.recorder.ring.toList ++ system.inFlight ++ system.history.evicted ++
      system.history.stored ++ system.history.storeFailed).Perm system.history.pushed := by
    rw [← Multiset.coe_eq_coe]
    simpa only [← Multiset.coe_add] using kept.placed
  have drained : (system.inFlight ++ system.history.stored ++ system.history.storeFailed).Perm
      system.history.drained := by
    rw [← Multiset.coe_eq_coe, ← kept.drained]
    simp only [← Multiset.coe_add]
    abel
  refine ⟨placed, drained, ?_, system.recorder.ring.length_toList, system.recorder.ring.vacant,
    ?_, kept.overflow, kept.failed, kept.flushed, ?_⟩
  · rw [← system.recorder.ring.length_toList]
    exact List.suffix_iff_eq_drop.mp kept.suffix
  · have total := placed.length_eq
    have taken := drained.length_eq
    simp only [List.length_append, RingBuffer.length_toList] at total taken
    rw [kept.recorded, ← total, ← taken]
    omega
  · refine List.Sublist.trans ?_ kept.order
    rw [List.append_assoc]
    exact List.sublist_append_left _ _

/-- Seams that admit every input as it is. -/
def admitAll : Seams α α where
  passesSampling := fun _ => some true
  enrich := fun entry => (some entry, false)
  filter := none

/-- A ring of two slots takes three entries, is flushed, and the flush succeeds
on its retry while a fourth entry arrives and a fifth is refused. -/
def overloadedRun : List (Event Nat Nat) :=
  [.record admitAll 1, .record admitAll 2, .record admitAll 3, .flush 0, .storeRejected,
    .record admitAll 4, .delayElapsed, .storeResolved, .pause, .record admitAll 5]

theorem recorder_conserves_overloadedRun :
    Exists fun system =>
      Transition.Reachable (@step Nat Nat ⟨2, by decide, some 500⟩)
        (initial ⟨2, by decide, some 500⟩) system ∧
      system.recorder.ring.toList = [4] ∧ system.history.evicted = [1] ∧
      system.history.stored = [2, 3] ∧ system.recorder.overflowDrops = 2 ∧ Conserved system :=
  ⟨_, ⟨overloadedRun, rfl⟩, rfl, rfl, rfl, rfl, recorder_conserves _ _ ⟨overloadedRun, rfl⟩⟩

end Recorder
end Telescope
