import Mathlib.Data.List.Perm.Basic

namespace Telescope
namespace Observe

universe u v w x y

/-!
# Collecting batches into wire sections

A ripe batch is sampled, encoded and pushed into three buffers with a cap each,
and the buffers are cut into payloads.  The encoders are parameters here: what a
batch encodes to, or `none` where its encoder throws.  No record is lost on the
way other than over a cap.
-/

/-- The `include` option. -/
structure Include where
  requests : Bool
  spans : Bool
  jobs : Bool
  logs : Bool
  runtime : Bool
  metrics : Bool

/-- A record of one of the three wire sections. -/
inductive Record (Log : Type u) (Snapshot : Type v) (Job : Type w)
  | log (record : Log)
  | snapshot (record : Snapshot)
  | job (record : Job)

/-- The buffers, and the sections of a payload. -/
structure Sections (Log : Type u) (Snapshot : Type v) (Job : Type w) where
  logs : List Log
  snapshots : List Snapshot
  jobs : List Job

/-- How batches are sampled and encoded. -/
structure Encoders (Batch : Type x) (Member : Type y) (Log : Type u) (Snapshot : Type v)
    (Job : Type w) where
  shouldExportBatch : Batch -> Bool
  children : Batch -> List Member
  isLog : Member -> Bool
  encodeLog : Member -> Option (Option Log)
  encodeSnapshot : Batch -> Option (Option Snapshot)
  encodeJob : Batch -> Option (Option Job)

/-- The sizes of a payload. -/
structure Caps where
  maxRecordsPerRequest : Nat
  maxLogsPerRequest : Nat
  maxRecordsPerRequest_positive : 0 < maxRecordsPerRequest
  maxLogsPerRequest_positive : 0 < maxLogsPerRequest

variable {Batch : Type x} {Member : Type y} {Log : Type u} {Snapshot : Type v} {Job : Type w}

namespace Sections

def empty : Sections Log Snapshot Job := ⟨[], [], []⟩

def records (sections : Sections Log Snapshot Job) : List (Record Log Snapshot Job) :=
  sections.logs.map .log ++ (sections.snapshots.map .snapshot ++ sections.jobs.map .job)

def size (sections : Sections Log Snapshot Job) : Nat :=
  sections.logs.length + (sections.snapshots.length + sections.jobs.length)

theorem length_records (sections : Sections Log Snapshot Job) : sections.records.length = sections.size := by
  rw [records, List.length_append, List.length_append, List.length_map, List.length_map,
    List.length_map, size]

/-- `push`: a bounded append, and whether the record is dropped. -/
def push (caps : Caps) (sections : Sections Log Snapshot Job) :
    Record Log Snapshot Job -> Sections Log Snapshot Job × Bool
  | .log record =>
      if caps.maxLogsPerRequest * 4 ≤ sections.logs.length then (sections, true)
      else ({ sections with logs := sections.logs ++ [record] }, false)
  | .snapshot record =>
      if caps.maxRecordsPerRequest * 4 ≤ sections.snapshots.length then (sections, true)
      else ({ sections with snapshots := sections.snapshots ++ [record] }, false)
  | .job record =>
      if caps.maxRecordsPerRequest * 4 ≤ sections.jobs.length then (sections, true)
      else ({ sections with jobs := sections.jobs ++ [record] }, false)

/-- Push records in order: the buffers, and the records dropped over a cap. -/
def pushAll (caps : Caps) (sections : Sections Log Snapshot Job) :
    List (Record Log Snapshot Job) -> Sections Log Snapshot Job × List (Record Log Snapshot Job)
  | [] => (sections, [])
  | record :: records =>
      let pushed := sections.push caps record
      let rest := pushed.1.pushAll caps records
      (rest.1, if pushed.2 then record :: rest.2 else rest.2)

end Sections

/-! ## Encoding -/

section Collecting

variable (included : Include) (caps : Caps) (encoders : Encoders Batch Member Log Snapshot Job)

/-- The records of the log children, up to the first that makes the encoder throw. -/
def encodeLogs : List Member -> List Log × Bool
  | [] => ([], true)
  | child :: children =>
      if encoders.isLog child then
        match encoders.encodeLog child with
        | none => ([], false)
        | some none => encodeLogs children
        | some (some log) => (log :: (encodeLogs children).1, (encodeLogs children).2)
      else encodeLogs children

/-- What a batch pushes, in order, and whether its encoders return. -/
def encodeBatch (batch : Batch) : List (Record Log Snapshot Job) × Bool :=
  let logs := if included.logs then encodeLogs encoders (encoders.children batch) else ([], true)
  if logs.2 then
    match if included.requests then encoders.encodeSnapshot batch else some none with
    | none => (logs.1.map .log, false)
    | some (some snapshot) => (logs.1.map .log ++ [.snapshot snapshot], true)
    | some none =>
        match if included.jobs then encoders.encodeJob batch else some none with
        | none => (logs.1.map .log, false)
        | some (some job) => (logs.1.map .log ++ [.job job], true)
        | some none => (logs.1.map .log, true)
  else (logs.1.map .log, false)

/-- What `collect` does: the buffers behind it, the records it drops, the batches it
samples out and those it encodes, and whether it returns. -/
structure Collection (Batch : Type x) (Log : Type u) (Snapshot : Type v) (Job : Type w) where
  buffers : Sections Log Snapshot Job
  dropped : List (Record Log Snapshot Job)
  sampledOut : List Batch
  encoded : List Batch
  returned : Bool

def collect (buffers : Sections Log Snapshot Job) : List Batch -> Collection Batch Log Snapshot Job
  | [] => ⟨buffers, [], [], [], true⟩
  | batch :: batches =>
      if encoders.shouldExportBatch batch then
        let pushed := buffers.pushAll caps (encodeBatch included encoders batch).1
        if (encodeBatch included encoders batch).2 then
          let rest := collect pushed.1 batches
          { rest with dropped := pushed.2 ++ rest.dropped, encoded := batch :: rest.encoded }
        else ⟨pushed.1, pushed.2, [], [batch], false⟩
      else
        let rest := collect buffers batches
        { rest with sampledOut := batch :: rest.sampledOut }

/-! ## Payloads -/

namespace Sections

def splice (sections : Sections Log Snapshot Job) : Sections Log Snapshot Job × Sections Log Snapshot Job :=
  (⟨sections.logs.take caps.maxLogsPerRequest, sections.snapshots.take caps.maxRecordsPerRequest,
      sections.jobs.take caps.maxRecordsPerRequest⟩,
    ⟨sections.logs.drop caps.maxLogsPerRequest, sections.snapshots.drop caps.maxRecordsPerRequest,
      sections.jobs.drop caps.maxRecordsPerRequest⟩)

/-- The loop of `buildPayloads`; each turn takes at least one record. -/
def slices : Nat -> Sections Log Snapshot Job -> List (Sections Log Snapshot Job)
  | 0, _ => []
  | turns + 1, sections =>
      if sections.size = 0 then []
      else (sections.splice caps).1 :: slices turns (sections.splice caps).2

/-- The payloads that empty the buffers.  Without any record a due runtime snapshot
makes a payload of its own. -/
def buildPayloads (runtime : Bool) (sections : Sections Log Snapshot Job) :
    List (Sections Log Snapshot Job) :=
  if sections.size = 0 then if runtime then [empty] else [] else slices caps sections.size sections

end Sections

end Collecting

/-! ## No record is lost -/

variable {included : Include} {caps : Caps} {encoders : Encoders Batch Member Log Snapshot Job}

theorem push_records (sections : Sections Log Snapshot Job) (record : Record Log Snapshot Job) :
    ((sections.push caps record).1.records ++ if (sections.push caps record).2 then [record] else []).Perm
      (sections.records ++ [record]) := by
  cases record with
  | log record =>
      rw [Sections.push]
      split
      · exact List.Perm.refl _
      · dsimp only [Sections.records]
        rw [if_neg Bool.false_ne_true, List.append_nil, List.map_append, List.append_assoc,
          List.append_assoc]
        exact List.perm_append_comm.append_left _
  | snapshot record =>
      rw [Sections.push]
      split
      · exact List.Perm.refl _
      · dsimp only [Sections.records]
        rw [if_neg Bool.false_ne_true, List.append_nil, List.map_append, List.append_assoc,
          List.append_assoc, List.append_assoc]
        exact (List.perm_append_comm.append_left _).append_left _
  | job record =>
      rw [Sections.push]
      split
      · exact List.Perm.refl _
      · dsimp only [Sections.records]
        rw [if_neg Bool.false_ne_true, List.append_nil, List.map_append, List.append_assoc,
          List.append_assoc]
        exact List.Perm.refl _

theorem pushAll_records (sections : Sections Log Snapshot Job) (records : List (Record Log Snapshot Job)) :
    ((sections.pushAll caps records).1.records ++ (sections.pushAll caps records).2).Perm
      (sections.records ++ records) := by
  induction records generalizing sections with
  | nil => exact List.Perm.refl _
  | cons record records inductionHypothesis =>
      have first := @push_records _ _ _ caps sections record
      have rest := inductionHypothesis (sections.push caps record).1
      rw [Sections.pushAll]
      dsimp only
      have moved : ((sections.push caps record).1.records ++ records ++
          if (sections.push caps record).2 then [record] else []).Perm
            (sections.records ++ record :: records) := by
        rw [List.append_assoc]
        refine (List.perm_append_comm.append_left _).trans ?_
        rw [← List.append_assoc]
        refine (first.append_right records).trans (List.Perm.of_eq ?_)
        rw [List.append_assoc, List.singleton_append]
      refine List.Perm.trans ?_ moved
      refine List.Perm.trans ?_ (rest.append_right _)
      rw [List.append_assoc]
      refine List.Perm.append_left _ ?_
      split
      · exact (List.perm_append_singleton _ _).symm
      · rw [List.append_nil]

/-- Each record of an encoded batch goes into a buffer or over its cap. -/
theorem collect_records (buffers : Sections Log Snapshot Job) (batches : List Batch) :
    ((collect included caps encoders buffers batches).buffers.records ++
        (collect included caps encoders buffers batches).dropped).Perm
      (buffers.records ++ (collect included caps encoders buffers batches).encoded.flatMap
        fun batch => (encodeBatch included encoders batch).1) := by
  induction batches generalizing buffers with
  | nil => exact List.Perm.refl _
  | cons batch batches inductionHypothesis =>
      rw [collect]
      split
      · have pushed := @pushAll_records _ _ _ caps buffers (encodeBatch included encoders batch).1
        split
        · dsimp only
          rw [List.flatMap_cons, ← List.append_assoc buffers.records]
          refine List.Perm.trans ?_ (pushed.append_right _)
          refine (List.perm_append_comm.append_left _).trans ?_
          rw [← List.append_assoc]
          refine ((inductionHypothesis _).append_right _).trans ?_
          rw [List.append_assoc, List.append_assoc]
          exact List.perm_append_comm.append_left _
        · dsimp only
          rw [List.flatMap_singleton]
          exact pushed
      · exact inductionHypothesis buffers

theorem collect_batches {buffers : Sections Log Snapshot Job} {batches : List Batch}
    (returned : (collect included caps encoders buffers batches).returned = true) :
    ((collect included caps encoders buffers batches).sampledOut ++
      (collect included caps encoders buffers batches).encoded).Perm batches := by
  induction batches generalizing buffers with
  | nil => exact List.Perm.refl _
  | cons batch batches inductionHypothesis =>
      rw [collect] at returned ⊢
      by_cases exported : encoders.shouldExportBatch batch = true
      · rw [if_pos exported] at returned ⊢
        by_cases encodes : (encodeBatch included encoders batch).2 = true
        · dsimp only at returned ⊢
          rw [if_pos encodes] at returned ⊢
          exact List.perm_middle.trans ((inductionHypothesis returned).cons batch)
        · dsimp only at returned
          rw [if_neg encodes] at returned
          cases returned
      · rw [if_neg exported] at returned ⊢
        exact (inductionHypothesis returned).cons batch

/-- `collect` returns when no encoder throws at a batch that is exported. -/
theorem collect_returned_iff (buffers : Sections Log Snapshot Job) (batches : List Batch) :
    (collect included caps encoders buffers batches).returned = true <->
      forall batch, batch ∈ batches -> encoders.shouldExportBatch batch = true ->
        (encodeBatch included encoders batch).2 = true := by
  induction batches generalizing buffers with
  | nil => exact iff_of_true rfl fun _ member => (List.not_mem_nil member).elim
  | cons batch batches inductionHypothesis =>
      rw [collect, List.forall_mem_cons]
      split
      · rename_i exported
        split
        · rename_i encodes
          exact (inductionHypothesis _).trans (and_iff_right fun _ => encodes).symm
        · rename_i throws
          exact iff_of_false Bool.false_ne_true fun all => throws (all.1 exported)
      · rename_i isSampledOut
        exact (inductionHypothesis _).trans
          (and_iff_right fun exported => (isSampledOut exported).elim).symm

theorem perm_shuffle {α : Type*} (first second third fourth : List α) :
    ((first ++ second) ++ (third ++ fourth)).Perm ((first ++ third) ++ (second ++ fourth)) := by
  rw [List.append_assoc, List.append_assoc, ← List.append_assoc second, ← List.append_assoc third]
  exact (List.perm_append_comm.append_right _).append_left _

theorem splice_records (sections : Sections Log Snapshot Job) :
    ((sections.splice caps).1.records ++ (sections.splice caps).2.records).Perm sections.records := by
  rw [Sections.records, Sections.records, Sections.records, Sections.splice]
  dsimp only
  refine (perm_shuffle _ _ _ _).trans ?_
  rw [← List.map_append, List.take_append_drop]
  refine List.Perm.append_left _ ((perm_shuffle _ _ _ _).trans (List.Perm.of_eq ?_))
  rw [← List.map_append, List.take_append_drop, ← List.map_append, List.take_append_drop]

theorem splice_size (sections : Sections Log Snapshot Job) (filled : sections.size ≠ 0) :
    (sections.splice caps).2.size < sections.size := by
  have logs := caps.maxLogsPerRequest_positive
  have records := caps.maxRecordsPerRequest_positive
  rw [Sections.size] at filled ⊢
  rw [Sections.size, Sections.splice]
  dsimp only
  rw [List.length_drop, List.length_drop, List.length_drop]
  omega

theorem slices_records {turns : Nat} {sections : Sections Log Snapshot Job}
    (enough : sections.size ≤ turns) :
    ((sections.slices caps turns).flatMap Sections.records).Perm sections.records := by
  induction turns generalizing sections with
  | zero =>
      rw [List.eq_nil_of_length_eq_zero (sections.length_records.trans (Nat.le_zero.mp enough))]
      exact List.Perm.refl _
  | succ turns inductionHypothesis =>
      rw [Sections.slices]
      by_cases drained : sections.size = 0
      · rw [if_pos drained, List.eq_nil_of_length_eq_zero (sections.length_records.trans drained)]
        exact List.Perm.refl _
      · rw [if_neg drained, List.flatMap_cons]
        have shorter := @splice_size _ _ _ caps sections drained
        exact ((inductionHypothesis (by omega)).append_left _).trans (splice_records sections)

/-- The payloads hold what the buffers held. -/
theorem buildPayloads_records (runtime : Bool) (sections : Sections Log Snapshot Job) :
    ((sections.buildPayloads caps runtime).flatMap Sections.records).Perm sections.records := by
  rw [Sections.buildPayloads]
  by_cases drained : sections.size = 0
  · rw [if_pos drained, List.eq_nil_of_length_eq_zero (sections.length_records.trans drained)]
    cases runtime <;> exact List.Perm.refl _
  · rw [if_neg drained]
    exact slices_records (Nat.le_refl _)

end Observe
end Telescope
