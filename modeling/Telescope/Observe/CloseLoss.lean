import Telescope.Observe.Exporter

namespace Telescope
namespace Observe

universe u v w x

/-!
# What `close()` loses

Between two events an accepted entry is in the assembler or in a batch that was
sampled out or encoded, and the records of the encoded batches are in a payload or
were dropped over a cap.  This survives every event but three: an entry that makes
the assembler throw, an encoder or a send that throws under a tick, and `close()`
while a send is in flight, whose `dispatch` returns at once and takes the drained
batches with it.
-/

variable {C : Type u} {Log : Type v} {Snapshot : Type w} {Job : Type x}

namespace System

variable (options : ExporterOptions C Log Snapshot Job)

/-- What the encoders make of the batch. -/
def recordsOf (batch : AssembledBatch C) : List (Record Log Snapshot Job) :=
  (encodeBatch options.included options.encoders batch).1

/-- No encoder throws at a batch that is exported. -/
def Encodes (batches : List (AssembledBatch C)) : Prop :=
  forall batch, batch ∈ batches -> options.encoders.shouldExportBatch batch = true ->
    (encodeBatch options.included options.encoders batch).2 = true

/-- The payloads behind the send in flight. -/
def waiting (system : System C Log Snapshot Job) : List (Sections Log Snapshot Job) :=
  system.exporter.sending.getD []

/-- Every accepted entry, with the batches just drained still at hand. -/
structure Accounts (drained : List (AssembledBatch C)) (system : System C Log Snapshot Job) : Prop where
  distinct : system.exporter.assembler.DistinctIds
  entries : system.accepted.Perm (system.exporter.assembler.held ++
    (drained ++ (system.sampledOut ++ system.encoded)).flatMap AssembledBatch.entries)
  sampled : forall batch, batch ∈ system.sampledOut -> options.encoders.shouldExportBatch batch = false
  empty : system.exporter.buffers = .empty
  records : (system.encoded.flatMap (recordsOf options)).Perm
    (system.waiting.flatMap Sections.records ++ (system.sent.flatMap Sections.records ++ system.dropped))
  counted : system.exporter.counters.recordsDroppedOverCap = system.dropped.length

/-- The promise of `close()` against the fields of the exporter. -/
structure Consistent (system : System C Log Snapshot Job) : Prop where
  closed : system.exporter.closed = true <-> system.closing ≠ .notCalled
  shut : system.closing ≠ .notCalled -> system.exporter.assembler.held = []
  idle : system.closing = .resolved -> system.exporter.sending = none

/-- Unless the transport has disabled itself, no exportable entry makes the
assembler throw, no encoder and no send throws under a tick, and `close()` is called
when no send is in flight. -/
def Admitted (system : System C Log Snapshot Job) (event : Event C) : Prop :=
  system.exporter.disabled = true ∨
    match event with
    | .observeFlush entries => forall entry, entry ∈ entries -> options.isExportable entry.1 = true ->
        (isRoot entry.1).isSome = true
    | .tick now _ => system.exporter.sending = none -> system.exporter.closed = false ->
        Encodes options (system.exporter.assembler.drain options.assembler now).2
    | .authRejected => True
    | .settle .rejected => system.closing = .pending
    | .settle _ => True
    | .close _ => system.exporter.closed = false -> system.exporter.sending = none

/-- What holds along the run. -/
def Holds (system : System C Log Snapshot Job) : Prop :=
  system.exporter.disabled = true ∨ (system.closing = .rejected ∧ system.exporter.closed = true) ∨
    Accounts options [] system ∧ Consistent system

variable {options} {system next : System C Log Snapshot Job}

variable {batches : List (AssembledBatch C)}

theorem collect_sampledOut {buffers : Sections Log Snapshot Job} {batch : AssembledBatch C} (member : batch ∈
      (collect options.included options.caps options.encoders buffers batches).sampledOut) :
    options.encoders.shouldExportBatch batch = false := by
  induction batches generalizing buffers with
  | nil => cases member
  | cons first batches inductionHypothesis =>
      rw [collect] at member
      by_cases exported : options.encoders.shouldExportBatch first = true
      · rw [if_pos exported] at member
        by_cases encodes : (encodeBatch options.included options.encoders first).2 = true
        · dsimp only at member
          rw [if_pos encodes] at member
          exact inductionHypothesis member
        · dsimp only at member
          rw [if_neg encodes] at member
          cases member
      · rw [if_neg exported] at member
        rcases List.mem_cons.mp member with rfl | later
        · exact Bool.eq_false_iff.mpr exported
        · exact inductionHypothesis later

/-! ## A dispatch -/

theorem Accounts.finish (accounts : Accounts options [] system)
    (last : system.exporter.sending = none ∨ system.exporter.sending = some []) (threw : Bool) :
    Accounts options [] (system.finish threw) := by
  have none_left : system.waiting = [] := by
    rw [waiting]
    rcases last with idle | idle <;> rw [idle] <;> rfl
  have records := accounts.records
  rw [none_left] at records
  exact ⟨accounts.distinct, accounts.entries, accounts.sampled, accounts.empty, records, accounts.counted⟩

/-- Sending the next of the payloads keeps the records together. -/
theorem Accounts.sendNext {payloads : List (Sections Log Snapshot Job)}
    (accounts : Accounts options []
      { system with exporter := { system.exporter with sending := some payloads } }) :
    Accounts options [] (system.sendNext payloads) := by
  cases payloads with
  | nil => exact Accounts.finish accounts (.inr rfl) false
  | cons payload payloads =>
      refine ⟨accounts.distinct, accounts.entries, accounts.sampled, accounts.empty, ?_, accounts.counted⟩
      refine accounts.records.trans ?_
      change (((payload :: payloads).flatMap Sections.records) ++ _).Perm
        (payloads.flatMap Sections.records ++ ((system.sent ++ [payload]).flatMap Sections.records ++ _))
      rw [List.flatMap_cons, List.flatMap_append, List.flatMap_singleton, List.append_assoc,
        List.append_assoc (system.sent.flatMap Sections.records)]
      refine List.perm_append_comm.trans ?_
      rw [List.append_assoc]
      refine List.Perm.append_left _ ?_
      rw [List.append_assoc]
      exact List.perm_append_comm.append_left _

/-- What `collect` and `buildPayloads` make of the drained batches. -/
theorem Accounts.dispatch (accounts : Accounts options batches system) (idle : system.exporter.sending = none)
    (encodes : Encodes options batches) (runtime : Bool) :
    Accounts options [] (system.dispatch options batches runtime) := by
  have notSending : ¬ system.exporter.sending.isSome = true := by
    rw [idle]
    exact Bool.false_ne_true
  let collection := collect options.included options.caps options.encoders system.exporter.buffers batches
  have returned : collection.returned = true := (collect_returned_iff _ batches).mpr encodes
  have isCollected : (collection.sampledOut ++ collection.encoded).Perm batches := collect_batches returned
  have records : (collection.buffers.records ++ collection.dropped).Perm
      (collection.encoded.flatMap (recordsOf options)) := by
    have all := @collect_records _ _ _ _ _ options.included options.caps options.encoders
      system.exporter.buffers batches
    have noneBefore : system.exporter.buffers.records = [] := congrArg Sections.records accounts.empty
    rwa [noneBefore, List.nil_append] at all
  have payloads := @buildPayloads_records _ _ _ options.caps (runtime && options.included.runtime)
    collection.buffers
  have before := accounts.records
  rw [waiting, idle, Option.getD_none, List.flatMap_nil, List.nil_append] at before
  rw [System.dispatch, if_neg notSending]
  dsimp only
  rw [if_pos returned]
  refine Accounts.sendNext ⟨accounts.distinct, ?_, ?_, rfl, ?_, ?_⟩
  · refine accounts.entries.trans (List.Perm.append_left _ (List.Perm.flatMap_right _ ?_))
    refine (isCollected.symm.append_right _).trans (List.perm_append_comm.trans ?_)
    rw [List.nil_append]
    exact perm_shuffle _ _ _ _
  · intro batch member
    rcases List.mem_append.mp member with earlier | isNew
    · exact accounts.sampled batch earlier
    · exact collect_sampledOut isNew
  · dsimp only [waiting]
    rw [Option.getD_some, List.flatMap_append]
    refine (before.append_right _).trans ?_
    refine ((records.symm.trans (payloads.symm.append_right _)).append_left _).trans ?_
    refine (perm_shuffle _ _ _ _).trans ?_
    refine (List.perm_append_comm.append_right _).trans (List.Perm.of_eq ?_)
    rw [List.append_assoc]
  · exact (congrArg (· + collection.dropped.length) accounts.counted).trans List.length_append.symm

/-- Entries move from the assembler into the drained batches. -/
theorem Accounts.drained (accounts : Accounts options [] system) {assembler : Assembler C}
    (distinct : assembler.DistinctIds) (moved : (assembler.held ++ batches.flatMap AssembledBatch.entries).Perm
      system.exporter.assembler.held) (closing : Closing) (closed : Bool) :
    Accounts options batches
      { system with
        closing := closing
        exporter := { system.exporter with closed := closed, assembler := assembler } } := by
  refine ⟨distinct, ?_, accounts.sampled, accounts.empty, accounts.records, accounts.counted⟩
  refine accounts.entries.trans ?_
  change (_ ++ ([] ++ (system.sampledOut ++ system.encoded)).flatMap AssembledBatch.entries).Perm
    (assembler.held ++ (batches ++ (system.sampledOut ++ system.encoded)).flatMap AssembledBatch.entries)
  rw [List.nil_append, @List.flatMap_append _ _ batches, ← List.append_assoc]
  exact moved.symm.append_right _

/-! ## One event -/

theorem sendNext_frame (payloads : List (Sections Log Snapshot Job)) :
    (system.sendNext payloads).exporter.disabled = system.exporter.disabled ∧
      (system.sendNext payloads).exporter.closed = system.exporter.closed ∧
      (system.closing = .rejected -> (system.sendNext payloads).closing = .rejected) := by
  cases payloads with
  | nil =>
      refine ⟨rfl, rfl, fun rejected => ?_⟩
      rw [System.sendNext, System.finish]
      dsimp only
      rw [rejected, if_neg Closing.noConfusion]
  | cons payload payloads => exact ⟨rfl, rfl, id⟩

theorem dispatch_frame (batches : List (AssembledBatch C)) (runtime : Bool) :
    (system.dispatch options batches runtime).exporter.disabled = system.exporter.disabled ∧
      (system.dispatch options batches runtime).exporter.closed = system.exporter.closed ∧
      (system.closing = .rejected -> (system.dispatch options batches runtime).closing = .rejected) := by
  rw [System.dispatch]
  split
  · refine ⟨rfl, rfl, fun rejected => ?_⟩
    dsimp only
    rw [rejected, if_neg Closing.noConfusion]
  · dsimp only
    split
    · exact sendNext_frame _
    · refine ⟨rfl, rfl, fun rejected => ?_⟩
      rw [System.finish]
      dsimp only
      rw [rejected, if_neg Closing.noConfusion]

theorem Consistent.sendNext (payloads : List (Sections Log Snapshot Job))
    (closed : system.exporter.closed = true <-> system.closing ≠ .notCalled)
    (shut : system.closing ≠ .notCalled -> system.exporter.assembler.held = [])
    (unsettled : system.closing ≠ .resolved) : Consistent (system.sendNext payloads) := by
  cases payloads with
  | nil =>
      rw [System.sendNext, System.finish]
      by_cases pending : system.closing = .pending
      · have called : system.closing ≠ .notCalled := by
          rw [pending]
          exact Closing.noConfusion
        rw [if_pos pending]
        exact ⟨iff_of_true (closed.mpr called) Closing.noConfusion, fun _ => shut called, fun _ => rfl⟩
      · rw [if_neg pending]
        exact ⟨closed, shut, fun _ => rfl⟩
  | cons payload payloads => exact ⟨closed, shut, fun resolved => (unsettled resolved).elim⟩

theorem Consistent.dispatch (closed : system.exporter.closed = true <-> system.closing ≠ .notCalled)
    (shut : system.closing ≠ .notCalled -> system.exporter.assembler.held = []) (unsettled : system.closing ≠ .resolved)
    (idle : system.exporter.sending = none) (encodes : Encodes options batches) (runtime : Bool) :
    Consistent (system.dispatch options batches runtime) := by
  have notSending : ¬ system.exporter.sending.isSome = true := by
    rw [idle]
    exact Bool.false_ne_true
  have returned := (@collect_returned_iff _ _ _ _ _ options.included options.caps options.encoders
    system.exporter.buffers batches).mpr encodes
  rw [System.dispatch, if_neg notSending]
  dsimp only
  rw [if_pos returned]
  exact Consistent.sendNext _ closed shut unsettled

/-- A dispatch for `close()` whose encoders throw rejects its promise. -/
theorem dispatch_rejects (idle : system.exporter.sending = none) (pending : system.closing = .pending)
    (throws : ¬ Encodes options batches) (runtime : Bool) :
    (system.dispatch options batches runtime).closing = .rejected := by
  have notSending : ¬ system.exporter.sending.isSome = true := by
    rw [idle]
    exact Bool.false_ne_true
  have threw := mt (@collect_returned_iff _ _ _ _ _ options.included options.caps options.encoders
    system.exporter.buffers batches).mp throws
  rw [System.dispatch, if_neg notSending]
  dsimp only
  rw [if_neg threw, System.finish]
  dsimp only
  rw [if_pos pending]
  rfl

theorem observeFlush_accounts {entries : List (Entry C × Rat)} (accounts : Accounts options [] system)
    (consistent : Consistent system)
    (ordinary : forall entry, entry ∈ entries -> options.isExportable entry.1 = true ->
      (isRoot entry.1).isSome = true) :
    Accounts options [] (system.observeFlush options entries) ∧
      Consistent (system.observeFlush options entries) := by
  rw [System.observeFlush]
  split
  · exact ⟨accounts, consistent⟩
  · rename_i opened
    rw [Bool.or_eq_true, not_or] at opened
    have notCalled : ¬ system.closing ≠ .notCalled := fun called => opened.1 (consistent.closed.mpr called)
    dsimp only
    rcases isAdded : system.exporter.assembler.add options.assembler
      (entries.filter fun entry => options.isExportable entry.1) with ⟨assembler, returned⟩
    rcases Assembler.add_held isAdded accounts.distinct with ⟨added, lost, parts, isHeld, isLost, isReturned⟩
    have noneLost : lost = [] := isLost.mpr (isReturned.mpr fun entry member =>
      ordinary entry (List.mem_filter.mp member).1 (List.mem_filter.mp member).2)
    rw [noneLost, List.append_nil] at parts
    refine ⟨⟨?_, ?_, accounts.sampled, accounts.empty, accounts.records, accounts.counted⟩,
      ⟨consistent.closed, fun called => (notCalled called).elim, consistent.idle⟩⟩
    · exact Assembler.add_distinct isAdded accounts.distinct
    · change (system.accepted ++ _).Perm (assembler.held ++ _)
      rw [parts]
      refine (accounts.entries.append_right _).trans ?_
      rw [List.append_assoc]
      refine (List.perm_append_comm.append_left _).trans ?_
      rw [← List.append_assoc]
      exact isHeld.symm.append_right _

theorem tick_accounts {now : Rat} {runtime : Bool} (accounts : Accounts options [] system)
    (consistent : Consistent system)
    (encodes : system.exporter.sending = none -> system.exporter.closed = false ->
      Encodes options (system.exporter.assembler.drain options.assembler now).2) :
    Accounts options [] (system.tick options now runtime) ∧
      Consistent (system.tick options now runtime) := by
  rw [System.tick]
  split
  · exact ⟨accounts, consistent⟩
  · rename_i proceeds
    rw [Bool.or_eq_true, Bool.or_eq_true, not_or, not_or, Bool.not_eq_true, Bool.not_eq_true] at proceeds
    have idle : system.exporter.sending = none :=
      Option.isNone_iff_eq_none.mp (Option.isSome_eq_false_iff.mp proceeds.1.1)
    have notCalled : ¬ system.closing ≠ .notCalled := fun called =>
      Bool.false_ne_true (proceeds.1.2.symm.trans (consistent.closed.mpr called))
    have unsettled : system.closing ≠ .resolved := fun resolved =>
      notCalled (by rw [resolved]; exact Closing.noConfusion)
    have isEncodable := encodes idle proceeds.1.2
    have drained := accounts.drained
      (accounts.distinct.sublist (List.filter_sublist.map _))
      (Assembler.drain_held options.assembler now system.exporter.assembler) system.closing
      system.exporter.closed
    refine ⟨drained.dispatch idle isEncodable runtime, ?_⟩
    refine Consistent.dispatch ?_ ?_ ?_ ?_ isEncodable runtime
    · exact consistent.closed
    · exact fun called => (notCalled called).elim
    · exact unsettled
    · exact idle

theorem close_accounts {runtime : Bool} (accounts : Accounts options [] system)
    (consistent : Consistent system)
    (idle : system.exporter.closed = false -> system.exporter.sending = none) :
    ((system.close options runtime).closing = .rejected ∧
        (system.close options runtime).exporter.closed = true) ∨
      Accounts options [] (system.close options runtime) ∧
        Consistent (system.close options runtime) := by
  rw [System.close]
  split
  · exact .inr ⟨accounts, consistent⟩
  · rename_i opened
    rw [Bool.not_eq_true] at opened
    have called : Closing.pending ≠ .notCalled := Closing.noConfusion
    dsimp only
    by_cases encodes : Encodes options system.exporter.assembler.drainAll.2
    · have drained := @Accounts.drained C Log Snapshot Job options system system.exporter.assembler.drainAll.2
        accounts system.exporter.assembler.drainAll.1 List.nodup_nil
        (Assembler.drainAll_held system.exporter.assembler) .pending true
      refine .inr ⟨drained.dispatch (idle opened) encodes runtime, ?_⟩
      refine Consistent.dispatch ?_ ?_ ?_ ?_ encodes runtime
      · exact iff_of_true rfl called
      · exact fun _ => rfl
      · exact Closing.noConfusion
      · exact idle opened
    · refine .inl ⟨dispatch_rejects ?_ rfl encodes runtime, ?_⟩
      · exact idle opened
      · exact (@dispatch_frame _ _ _ _ options _ _ runtime).2.1

theorem settle_accounts {payloads : List (Sections Log Snapshot Job)} {settlement : Settlement}
    (accounts : Accounts options [] system) (consistent : Consistent system)
    (sending : system.exporter.sending = some payloads)
    (returns : settlement = .rejected -> system.closing = .pending)
    (enabled : system.exporter.disabled = false) :
    ((system.settle payloads settlement).closing = .rejected ∧
        (system.settle payloads settlement).exporter.closed = true) ∨
      Accounts options [] (system.settle payloads settlement) ∧
        Consistent (system.settle payloads settlement) := by
  have unsettled : system.closing ≠ .resolved := fun resolved =>
    by cases (consistent.idle resolved).symm.trans sending
  have same : ({ system with exporter := { system.exporter with sending := some payloads } } :
      System C Log Snapshot Job) = system := by
    rw [← sending]
  have sent : Accounts options [] (system.sendNext payloads) ∧ Consistent (system.sendNext payloads) := by
    refine ⟨Accounts.sendNext ?_, Consistent.sendNext payloads consistent.closed consistent.shut unsettled⟩
    rw [same]
    exact accounts
  cases settlement with
  | accepted => exact .inr sent
  | givenUp =>
      rw [System.settle, if_neg (by rw [enabled]; exact Bool.false_ne_true)]
      exact .inr sent
  | rejected =>
      have called : system.closing ≠ .notCalled := by
        rw [returns rfl]
        exact Closing.noConfusion
      refine .inl ⟨?_, consistent.closed.mpr called⟩
      rw [System.settle, System.finish]
      dsimp only
      rw [if_pos (returns rfl)]
      rfl

/-! ## Runs -/

theorem settle_frame (payloads : List (Sections Log Snapshot Job)) (settlement : Settlement) :
    (system.settle payloads settlement).exporter.disabled = system.exporter.disabled ∧
      (system.settle payloads settlement).exporter.closed = system.exporter.closed ∧
      (system.closing = .rejected -> (system.settle payloads settlement).closing = .rejected) := by
  have finished : forall threw : Bool, system.closing = .rejected ->
      (system.finish threw).closing = .rejected := by
    intro threw rejected
    rw [System.finish]
    dsimp only
    rw [rejected, if_neg Closing.noConfusion]
  cases settlement with
  | accepted => exact sendNext_frame payloads
  | givenUp =>
      rw [System.settle]
      split
      · exact ⟨rfl, rfl, finished false⟩
      · exact sendNext_frame payloads
  | rejected => exact ⟨rfl, rfl, finished true⟩

/-- What is disabled stays so, and so does a rejected promise. -/
theorem step_permanent {event : Event C} (stepped : step options system event = some next) :
    (system.exporter.disabled = true -> next.exporter.disabled = true) ∧
      (system.exporter.closed = true -> next.exporter.closed = true ∧
        (system.closing = .rejected -> next.closing = .rejected)) := by
  cases event with
  | observeFlush entries =>
      cases stepped
      rw [System.observeFlush]
      split
      · exact ⟨id, fun closed => ⟨closed, id⟩⟩
      · exact ⟨id, fun closed => ⟨closed, id⟩⟩
  | tick now runtime =>
      cases stepped
      rw [System.tick]
      split
      · exact ⟨id, fun closed => ⟨closed, id⟩⟩
      · rcases @dispatch_frame _ _ _ _ options _ _ runtime with ⟨disabled, closed, rejected⟩
        exact ⟨fun was => disabled.trans was, fun was => ⟨closed.trans was, rejected⟩⟩
  | authRejected =>
      rcases Option.map_eq_some_iff.mp stepped with ⟨_, _, rfl⟩
      exact ⟨fun _ => rfl, fun closed => ⟨closed, id⟩⟩
  | settle settlement =>
      rcases Option.map_eq_some_iff.mp stepped with ⟨payloads, _, rfl⟩
      rcases @settle_frame _ _ _ _ system payloads settlement with ⟨disabled, closed, rejected⟩
      exact ⟨fun was => disabled.trans was, fun was => ⟨closed.trans was, rejected⟩⟩
  | close runtime =>
      cases stepped
      rw [System.close]
      split
      · exact ⟨id, fun closed => ⟨closed, id⟩⟩
      · rename_i opened
        rcases @dispatch_frame _ _ _ _ options _ _ runtime with ⟨disabled, _, _⟩
        exact ⟨fun was => disabled.trans was, fun was => (opened was).elim⟩

theorem holds_step {event : Event C} (holds : Holds options system) (admitted : Admitted options system event)
    (stepped : step options system event = some next) : Holds options next := by
  rcases step_permanent stepped with ⟨disabled, permanent⟩
  rcases holds with isDisabled | ⟨rejected, closed⟩ | ⟨accounts, consistent⟩
  · exact .inl (disabled isDisabled)
  · exact .inr (.inl ⟨(permanent closed).2 rejected, (permanent closed).1⟩)
  · rcases admitted with isDisabled | admitted
    · exact .inl (disabled isDisabled)
    · cases event with
      | observeFlush entries =>
          cases stepped
          exact .inr (.inr (observeFlush_accounts accounts consistent admitted))
      | tick now runtime =>
          cases stepped
          exact .inr (.inr (tick_accounts accounts consistent admitted))
      | authRejected =>
          rcases Option.map_eq_some_iff.mp stepped with ⟨_, _, rfl⟩
          exact .inl rfl
      | settle settlement =>
          rcases Option.map_eq_some_iff.mp stepped with ⟨payloads, sending, rfl⟩
          by_cases isDisabled : system.exporter.disabled = true
          · exact .inl (disabled isDisabled)
          · have returns : settlement = .rejected -> system.closing = .pending := by
              rintro rfl
              exact admitted
            exact .inr (settle_accounts accounts consistent sending returns
              (Bool.not_eq_true _ ▸ isDisabled))
      | close runtime =>
          cases stepped
          exact .inr (close_accounts accounts consistent admitted)

/-- In every run of admitted events, when the promise of `close()` resolves the
accepted entries are those of the batches sampled out and encoded, and the records
of the encoded batches are those passed to `transport.send` and those dropped over a
cap, which are counted; unless the transport has disabled itself. -/
theorem close_loses_nothing {events : List (Event C)}
    (along : Transition.Along (step options) (Admitted options) initial events)
    (ran : Transition.runFrom (step options) initial events = some system)
    (resolved : system.closing = .resolved) :
    system.exporter.disabled = true ∨
      system.accepted.Perm ((system.sampledOut ++ system.encoded).flatMap AssembledBatch.entries) ∧
        (forall batch, batch ∈ system.sampledOut -> options.encoders.shouldExportBatch batch = false) ∧
        (system.encoded.flatMap (recordsOf options)).Perm
          (system.sent.flatMap Sections.records ++ system.dropped) ∧
        system.exporter.counters.recordsDroppedOverCap = system.dropped.length := by
  have start : Holds options (initial : System C Log Snapshot Job) :=
    .inr (.inr ⟨⟨List.nodup_nil, List.Perm.refl _, fun _ member => (List.not_mem_nil member).elim, rfl,
        List.Perm.refl _, rfl⟩,
      ⟨iff_of_false Bool.false_ne_true fun called => called rfl, fun called => (called rfl).elim,
        Closing.noConfusion⟩⟩)
  have preserved : forall (system : System C Log Snapshot Job) (event : Event C)
      (next : System C Log Snapshot Job), Holds options system -> Admitted options system event ->
        step options system event = some next -> Holds options next :=
    fun _ _ _ => holds_step
  rcases Transition.invariant_along preserved start along ran with isDisabled | rejected | ⟨accounts, consistent⟩
  · exact .inl isDisabled
  · cases rejected.1.symm.trans resolved
  · refine .inr ⟨?_, accounts.sampled, ?_, accounts.counted⟩
    · have entries := accounts.entries
      rwa [consistent.shut (by rw [resolved]; exact Closing.noConfusion)] at entries
    · have records := accounts.records
      rwa [waiting, consistent.idle resolved] at records

/-- Encoders that put out the identifier of a log and of the root of a request or
job. -/
def plainEncoders : Encoders (AssembledBatch Text) (Entry Text) Text Text Text where
  shouldExportBatch _ := true
  children := AssembledBatch.children
  isLog entry := decide (entry.type = "log".toList)
  encodeLog entry := some (some entry.id)
  encodeSnapshot batch :=
    some ((batch.root.filter fun root => decide (root.type = "request".toList)).map Entry.id)
  encodeJob batch :=
    some ((batch.root.filter fun root => decide (root.type = "job".toList)).map Entry.id)

def plainExporter : ExporterOptions Text Text Text Text where
  assembler := ⟨5000, 1000, by decide, by decide⟩
  included := ⟨true, true, true, true, false, false⟩
  caps := ⟨1000, 250, by decide, by decide⟩
  filter _ := true
  encoders := plainEncoders

def requestOf (batchId : Text) : Entry Text :=
  { plainEntry ['r'] "request".toList 10 with batchId := batchId }

/-- A request is accepted, `close()` drains it, and its payload settles. -/
theorem close_loses_nothing_plainExporter :
    Exists fun system => Transition.runFrom (step plainExporter) initial
        [.observeFlush [(requestOf ['a'], 0)], .close false, .settle .accepted] = some system ∧
      system.closing = .resolved ∧
      (system.exporter.disabled = true ∨
        system.accepted.Perm ((system.sampledOut ++ system.encoded).flatMap AssembledBatch.entries) ∧
          (forall batch, batch ∈ system.sampledOut ->
            plainExporter.encoders.shouldExportBatch batch = false) ∧
          (system.encoded.flatMap (recordsOf plainExporter)).Perm
            (system.sent.flatMap Sections.records ++ system.dropped) ∧
          system.exporter.counters.recordsDroppedOverCap = system.dropped.length) := by
  have along : Transition.Along (step plainExporter) (Admitted plainExporter) initial
      [.observeFlush [(requestOf ['a'], 0)], .close false, .settle .accepted] :=
    Transition.along_cons rfl (.inr (by decide))
      (Transition.along_cons rfl (.inr fun _ => rfl)
        (Transition.along_cons rfl (.inr trivial) trivial))
  exact ⟨_, rfl, rfl, close_loses_nothing along rfl rfl⟩

/-- A tick has the first request in flight when `close()` is called: the promise
resolves, and the second request, which has a snapshot, is in no batch. -/
theorem close_loses_request :
    Exists fun system => Transition.runFrom (step plainExporter) initial
        [.observeFlush [(requestOf ['a'], 0)], .tick 5000 false, .observeFlush [(requestOf ['b'], 5001)],
          .close false] = some system ∧
      system.closing = .resolved ∧ system.exporter.disabled = false ∧
      requestOf ['b'] ∈ system.accepted ∧
      (recordsOf plainExporter ⟨['b'], .http, some (requestOf ['b']), []⟩).length = 1 ∧
      forall batch, batch ∈ system.sampledOut ++ system.encoded -> requestOf ['b'] ∉ batch.entries := by
  exact ⟨_, rfl, by decide +kernel, by decide +kernel, by decide +kernel, by decide, by decide +kernel⟩

end System

end Observe
end Telescope
