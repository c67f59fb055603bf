import Telescope.InMemory.Prune
import Telescope.Redis.KeepLast
import Telescope.Sqlite.Store

namespace Telescope
namespace Prune

universe u

/-!
# Scoped prunes of three providers

The providers agree on the entries in scope and differ in what `keepLast` spares:
each counts the newest in an order of its own, and the Redis provider counts the
excluded types too.
-/

variable {C : Type u} [JsonContent C]

/-- Each provider removes what a scope dooms, and returns its number, exactly when
each of the newest `keepLast` entries in scope is among the first it counts. -/
theorem pruneScoped_exact_iff (locale : Locale) (input : PruneScope)
    (nonneg : forall count, count ∈ input.keepLast -> 0 ≤ count) :
    (forall provider : InMemory.Provider C, Entry.DistinctIds provider.entries ->
      (InMemory.PrunesScope locale provider input <->
        input.KeepsNewest (InMemory.Precedes locale provider.entries)
          (fun entry => decide (input.InScope entry)) provider.entries)) ∧
    (forall table : EntryTable C,
      (Sqlite.PrunesScope table input <->
        input.KeepsNewest Sqlite.Newer (fun row => decide (input.InScope row)) table.rows)) ∧
    (forall (contents : List (Entry C)) (keyspace : Redis.Keyspace C),
      Redis.Represents contents keyspace ->
      (forall entry, entry ∈ contents -> Redis.InRange entry.createdAt) ->
      (Redis.PrunesScope keyspace contents input <->
        (1 ≤ input.before -> input.KeepsNewest Redis.Precedes
          (Redis.isCandidate input.toTypeScope) contents) ∧
        (input.before < 1 -> Redis.AllKept contents input.toTypeScope input.keepLast))) :=
  ⟨fun _ distinct => InMemory.prunesScope_iff locale distinct nonneg,
    fun table => Sqlite.prunesScope_iff table nonneg,
    fun _ _ represents inRange => Redis.prunesScope_iff represents inRange input⟩

/-- All but the logs, one of them kept. -/
def keepOneButLogs : PruneScope where
  before := 100
  excludeTypes := some [['l', 'o', 'g']]
  keepLast := some 1

/-- Two jobs of different age, and an older log. -/
def jobsAndLog : List (Entry Text) :=
  [plainEntry ['l'] ['l', 'o', 'g'] 10, plainEntry ['a'] ['j', 'o', 'b'] 20,
    plainEntry ['b'] ['j', 'o', 'b'] 30]

theorem pruneScoped_exact_jobsAndLog :
    InMemory.PrunesScope InMemory.foldedLocale ⟨jobsAndLog, fun _ => none, fun _ => none⟩
        keepOneButLogs ∧
      Sqlite.PrunesScope ⟨jobsAndLog, by decide⟩ keepOneButLogs ∧
      Redis.PrunesScope (Redis.storing jobsAndLog) jobsAndLog keepOneButLogs := by
  have agree := pruneScoped_exact_iff (C := Text) InMemory.foldedLocale keepOneButLogs
    (by rintro _ ⟨⟩; decide)
  refine ⟨(agree.1 _ (by decide)).mpr (by decide), (agree.2.1 _).mpr (by decide), ?_⟩
  exact (agree.2.2 jobsAndLog _ (Redis.storing_represents (by decide)) (by decide)).mpr
    ⟨fun _ => by decide, fun early => absurd early (by decide)⟩

/-- A job, and a log that is newer. -/
def jobBehindLog : List (Entry Text) :=
  [plainEntry ['a'] ['j', 'o', 'b'] 10, plainEntry ['l'] ['l', 'o', 'g'] 20]

/-- The log takes the place of the job among those that are kept. -/
theorem keepLast_spares_excluded :
    ¬ forall (input : PruneScope) (contents : List (Entry Text)) (keyspace : Redis.Keyspace Text),
      (forall count, count ∈ input.keepLast -> 0 ≤ count) -> 1 ≤ input.before ->
      Redis.Represents contents keyspace ->
      (forall entry, entry ∈ contents -> Redis.InRange entry.createdAt) ->
      Redis.PrunesScope keyspace contents input := by
  intro always
  have pruned := always keepOneButLogs jobBehindLog (Redis.storing jobBehindLog)
    (by rintro _ ⟨⟩; decide) (by decide) (Redis.storing_represents (by decide)) (by decide)
  rw [Redis.prunesScope_iff (Redis.storing_represents (by decide)) (by decide)] at pruned
  exact absurd (pruned.1 (by decide)) (by decide)

end Prune
end Telescope
