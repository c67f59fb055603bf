import Telescope.Core.StorageProvider

namespace Telescope
namespace Metrics

universe u v

/-!
# Reading the window of a query

The store is read page by page, newest first, up to a cap.  How a page is got (at once,
or from a store that may reject) is left to the monad.
-/

/-- Entries of one page of the scan. -/
def DEFAULT_PAGE_SIZE : Int := 5000

/-- Entries read by one scan. -/
def DEFAULT_SCAN_CAP : Nat := 50000

structure WindowReadOptions where
  pageSize : Option Int := none
  scanCap : Option Nat := none

structure WindowReadResult (C : Type u) where
  entries : List (Entry C)
  scanned : Nat
  truncated : Bool

variable {C : Type u} {M : Type u -> Type v} [Monad M] (get : EntryQuery -> M (Page C))

/-- The entries read when the loop ends. -/
def WindowReadResult.of (scanCap : Nat) (truncated : Bool) (entries : List (Entry C)) :
    WindowReadResult C :=
  ⟨entries.take scanCap, min entries.length scanCap, truncated⟩

/-- The loop over the pages.  Every page that is followed by another brings an entry, so
as many pages as the cap are enough. -/
def collectLoop (query : EntryQuery) (pageSize : Int) (scanCap : Nat) :
    Nat -> Option Text -> List (Entry C) -> M (WindowReadResult C)
  | 0, _cursor, entries => pure (.of scanCap false entries)
  | pages + 1, cursor, entries => do
      let page <- get { query with cursor := cursor, limit := some pageSize }
      if page.data = [] then pure (.of scanCap false entries)
      else if scanCap ≤ (entries ++ page.data).length then
        pure (.of scanCap true (entries ++ page.data))
      else if page.nextCursor = none ∨ page.nextCursor = cursor then
        pure (.of scanCap false (entries ++ page.data))
      else collectLoop query pageSize scanCap pages page.nextCursor (entries ++ page.data)

variable {query : EntryQuery} {entries : List (Entry C)}

/-- More pages than one over the cap change nothing. -/
theorem collectLoop_of_enough {pageSize : Int} {scanCap pages : Nat} (more : Nat) {cursor : Option Text}
    (enough : scanCap < pages + entries.length) (short : entries = [] ∨ entries.length < scanCap) :
    collectLoop get query pageSize scanCap (pages + more) cursor entries =
      collectLoop get query pageSize scanCap pages cursor entries := by
  induction pages generalizing cursor entries with
  | zero =>
      rcases short with rfl | short
      · exact absurd enough (Nat.not_lt_zero _)
      · omega
  | succ pages inductionHypothesis =>
      rw [Nat.succ_add, collectLoop, collectLoop]
      refine congrArg _ (funext fun page => ?_)
      by_cases empty : page.data = []
      · rw [if_pos empty, if_pos empty]
      · rw [if_neg empty, if_neg empty]
        have brought : 0 < page.data.length := List.length_pos_iff.mpr empty
        by_cases capped : scanCap ≤ (entries ++ page.data).length
        · rw [if_pos capped, if_pos capped]
        · rw [if_neg capped, if_neg capped]
          by_cases last : page.nextCursor = none ∨ page.nextCursor = cursor
          · rw [if_pos last, if_pos last]
          · rw [if_neg last, if_neg last]
            refine inductionHypothesis ?_ (Or.inr (Nat.lt_of_not_le capped))
            rw [List.length_append]
            omega

def collectEntriesInWindow (query : EntryQuery) (options : WindowReadOptions) :
    M (WindowReadResult C) :=
  let scanCap := options.scanCap.getD DEFAULT_SCAN_CAP
  collectLoop get query (options.pageSize.getD DEFAULT_PAGE_SIZE) scanCap (scanCap + 1) none []

/-! ## Scans of pages that are alike -/

section Pages

variable {pages other : EntryQuery -> Page C}

/-- A scan of pages that show something of the entries shows as much of what it reads. -/
theorem collectLoop_project (show' : Entry C -> Entry C) {otherQuery : EntryQuery} (alike : forall cursor limit,
      other { otherQuery with cursor := cursor, limit := limit } =
        { pages { query with cursor := cursor, limit := limit } with
          data := (pages { query with cursor := cursor, limit := limit }).data.map show' }) (pageSize : Int)
    (scanCap fuel : Nat) (cursor : Option Text) (entries : List (Entry C)) :
    Id.run (collectLoop (fun query => pure (other query)) otherQuery pageSize scanCap fuel cursor
        (entries.map show')) =
      { Id.run (collectLoop (fun query => pure (pages query)) query pageSize scanCap fuel cursor entries) with
        entries := (Id.run (collectLoop (fun query => pure (pages query)) query pageSize scanCap fuel cursor
          entries)).entries.map show' } := by
  have whole : forall truncated (read : List (Entry C)), WindowReadResult.of scanCap truncated (read.map show') =
      { WindowReadResult.of scanCap truncated read with
        entries := (WindowReadResult.of scanCap truncated read).entries.map show' } := by
    intro truncated read
    rw [WindowReadResult.of, WindowReadResult.of, List.map_take, List.length_map]
  induction fuel generalizing cursor entries with
  | zero => exact whole false entries
  | succ fuel inductionHypothesis =>
      rw [collectLoop, collectLoop, pure_bind, pure_bind, alike]
      generalize pages { query with cursor := cursor, limit := some pageSize } = page
      dsimp only
      simp only [List.map_eq_nil_iff, ← List.map_append, List.length_map]
      split
      · exact whole false entries
      · split
        · exact whole true _
        · split
          · exact whole false _
          · exact inductionHypothesis _ _

/-- What a scan reads is on its pages. -/
theorem mem_collectLoop {stored : List (Entry C)} (inStore : forall cursor limit entry,
      entry ∈ (pages { query with cursor := cursor, limit := limit }).data -> entry ∈ stored) (pageSize : Int)
    (scanCap fuel : Nat) (cursor : Option Text) (before : forall entry, entry ∈ entries -> entry ∈ stored) :
    forall entry,
      entry ∈ (Id.run (collectLoop (fun query => pure (pages query)) query pageSize scanCap fuel cursor
        entries)).entries -> entry ∈ stored := by
  induction fuel generalizing cursor entries with
  | zero => exact fun entry member => before entry (List.mem_of_mem_take member)
  | succ fuel inductionHypothesis =>
      rw [collectLoop, pure_bind]
      have read := inStore cursor (some pageSize)
      generalize pages { query with cursor := cursor, limit := some pageSize } = page at read ⊢
      have both : forall entry, entry ∈ entries ++ page.data -> entry ∈ stored := by
        intro entry member
        rcases List.mem_append.mp member with earlier | added
        · exact before entry earlier
        · exact read entry added
      split
      · exact fun entry member => before entry (List.mem_of_mem_take member)
      · split
        · exact fun entry member => both entry (List.mem_of_mem_take member)
        · split
          · exact fun entry member => both entry (List.mem_of_mem_take member)
          · exact inductionHypothesis _ both

end Pages

/-! ## Scans of a store that pages its entries -/

section Listing

variable [JsonContent C] {contents : List (Entry C)} (distinct : Entry.DistinctIds contents)

/-- The pages of a scan are those the interface describes, whatever number of entries
the provider makes of the page size. -/
def AnswersScan (reads : Text -> Option Position) (contents : List (Entry C)) (read : EntryQuery -> Page C)
    (query : EntryQuery) (pageSize : Int) : Prop :=
  forall cursor, Exists fun limit => 0 < limit ∧
    OpensPage reads contents { query with cursor := cursor, limit := some pageSize } limit
      (read { query with cursor := cursor, limit := some pageSize })

theorem answersScan_listingGet (contents : List (Entry C)) (query : EntryQuery) {pageSize : Int}
    (positive : 0 < pageSize) : AnswersScan decodeCursor contents (listingGet contents) query pageSize := by
  intro cursor
  have size : ((pageSize.toNat : Nat) : Int) = pageSize := Int.toNat_of_nonneg positive.le
  exact ⟨pageSize.toNat, by omega, opensPage_listingGet contents (congrArg some size.symm) (by omega)⟩

include distinct

theorem results_newestFirst (query : EntryQuery) : NewestFirst (query.results contents) := by
  have sorted := newestFirst_sort (Entry.distinctIds_sublist
    (List.filter_sublist (p := fun entry => decide (query.Matches entry))) distinct)
  rw [EntryQuery.results, NewestFirst, List.pairwise_map]
  refine sorted.imp fun {left right} newer => ?_
  rw [Entry.Newer, EntryQuery.position_project, EntryQuery.position_project]
  exact newer

/-- What lies behind the last of the entries already read is the rest. -/
theorem filter_behind_visited {visited remaining : List (Entry C)}
    (whole : query.results contents = visited ++ remaining) :
    (query.results contents).filter (behindCursor (visited.getLast?.map Entry.position)) = remaining := by
  have sorted := results_newestFirst distinct query
  rcases List.eq_nil_or_concat' visited with nothing | ⟨earlier, last, isConcat⟩
  · rw [whole, nothing]
    exact List.filter_eq_self.mpr fun _entry _member => rfl
  · rw [isConcat, List.append_assoc, List.singleton_append] at whole
    rw [whole] at sorted
    rw [whole, isConcat, List.getLast?_concat]
    exact Keyset.filter_after (fun _ _ => Position.newer_asymm) sorted

variable {reads : Text -> Option Position}

omit [JsonContent C] distinct in
/-- Entries in page order move the cursor. -/
theorem cursor_moves {visited data : List (Entry C)} (sorted : NewestFirst (visited ++ data)) {cursor : Option Text}
    {next : Text} {entry : Entry C} (behind : cursor.bind reads = visited.getLast?.map Entry.position)
    (isLast : data.getLast? = some entry) (position : reads next = some entry.position) :
    ¬ (some next = none ∨ some next = cursor) := by
  rintro (ended | same)
  · cases ended
  · rw [← same, Option.bind_some, position] at behind
    rcases Option.map_eq_some_iff.mp behind.symm with ⟨previous, isPrevious, samePosition⟩
    have newer := (List.pairwise_append.mp sorted).2.2 previous (List.mem_of_getLast? isPrevious)
      entry (List.mem_of_getLast? isLast)
    rw [Entry.Newer, samePosition] at newer
    exact Position.newer_asymm newer newer

/-- A scan returns the newest entries up to its cap, and says it was cut short where it
has reached the cap. -/
theorem collectLoop_pages {read : EntryQuery -> Page C} {pageSize : Int}
    (answers : AnswersScan reads contents read query pageSize) {scanCap : Nat} (pages : Nat) {cursor : Option Text}
    {visited remaining : List (Entry C)} (whole : query.results contents = visited ++ remaining)
    (behind : cursor.bind reads = visited.getLast?.map Entry.position) (short : visited = [] ∨ visited.length < scanCap)
    (enough : scanCap < pages + visited.length) :
    Id.run (collectLoop (fun query => pure (read query)) query pageSize scanCap pages cursor visited) =
      .of scanCap (decide (query.results contents ≠ [] ∧ scanCap ≤ (query.results contents).length))
        (query.results contents) := by
  induction pages generalizing cursor visited remaining with
  | zero =>
      rcases short with nothing | short
      · rw [nothing] at enough
        exact (Nat.not_lt_zero _ enough).elim
      · omega
  | succ pages inductionHypothesis =>
      rcases answers cursor with ⟨limit, positive, page⟩
      rw [collectLoop, pure_bind]
      generalize read { query with cursor := cursor, limit := some pageSize } = answer at page ⊢
      have rest : (query.results contents).filter (behindCursor (cursor.bind reads)) = remaining := by
        rw [behind]
        exact filter_behind_visited distinct whole
      have data : answer.data = remaining.take limit := page.data.trans (congrArg _ rest)
      by_cases ended : answer.data = []
      · have nothing : remaining = [] := by
          rw [data, List.take_eq_nil_iff] at ended
          exact ended.resolve_left positive.ne'
        rw [nothing, List.append_nil] at whole
        rw [if_pos ended, whole, decide_eq_false]
        · rfl
        · rintro ⟨some, reached⟩
          rcases short with none | short
          · exact some none
          · omega
      · have front : query.results contents = visited ++ answer.data ++ remaining.drop limit := by
          rw [data, List.append_assoc, List.take_append_drop, whole]
        have sizes := congrArg List.length front
        rw [List.length_append] at sizes
        have nonempty : query.results contents ≠ [] := by
          rw [front, List.append_assoc]
          exact List.append_ne_nil_of_right_ne_nil _ (List.append_ne_nil_of_left_ne_nil ended _)
        rw [if_neg ended]
        by_cases reached : scanCap ≤ (visited ++ answer.data).length
        · rw [if_pos reached, decide_eq_true ⟨nonempty, by omega⟩]
          change WindowReadResult.mk _ _ _ = WindowReadResult.mk _ _ _
          rw [front, List.take_append_of_le_length reached, ← front, Nat.min_eq_right reached,
            Nat.min_eq_right (by omega)]
        · rw [if_neg reached]
          cases next : answer.nextCursor with
          | none =>
              have all := page.last next
              change ((query.results contents).filter (behindCursor (cursor.bind reads))).length ≤ limit at all
              rw [rest] at all
              rw [List.drop_eq_nil_of_le all, List.append_nil] at front
              rw [if_pos (.inl rfl), front, decide_eq_false fun capped => reached capped.2]
              rfl
          | some next' =>
              rcases page.next next' next with ⟨entry, isLast, position⟩
              have sorted := results_newestFirst distinct query
              rw [front] at sorted
              rw [if_neg (cursor_moves (sorted.sublist (List.sublist_append_left _ _)) behind isLast position)]
              refine inductionHypothesis front ?_ (.inr (Nat.lt_of_not_le reached)) ?_
              · rw [Option.bind_some, position, List.getLast?_append, isLast]
                rfl
              · have brought := List.length_pos_iff.mpr ended
                rw [List.length_append]
                omega

theorem collectEntriesInWindow_pages {read : EntryQuery -> Page C} (options : WindowReadOptions)
    (answers : AnswersScan reads contents read query (options.pageSize.getD DEFAULT_PAGE_SIZE)) :
    Id.run (collectEntriesInWindow (fun query => pure (read query)) query options) =
      .of (options.scanCap.getD DEFAULT_SCAN_CAP)
        (decide (query.results contents ≠ [] ∧
          options.scanCap.getD DEFAULT_SCAN_CAP ≤ (query.results contents).length))
        (query.results contents) :=
  collectLoop_pages distinct answers _ (List.nil_append _).symm rfl (.inl rfl) (Nat.lt_succ_self _)

/-- A scan below its cap reads all that the query asks for. -/
theorem collectEntriesInWindow_listing (options : WindowReadOptions)
    (positive : 0 < options.pageSize.getD DEFAULT_PAGE_SIZE)
    (fits : (query.results contents).length < options.scanCap.getD DEFAULT_SCAN_CAP) :
    Id.run (collectEntriesInWindow (fun query => pure (listingGet contents query)) query options) =
      ⟨query.results contents, (query.results contents).length, false⟩ := by
  rw [collectEntriesInWindow_pages distinct options (answersScan_listingGet contents query positive),
    decide_eq_false fun capped => Nat.not_le.mpr fits capped.2, WindowReadResult.of,
    List.take_of_length_le fits.le, Nat.min_eq_left fits.le]

omit [JsonContent C] distinct in
theorem nodup_of_newestFirst (sorted : NewestFirst entries) : entries.Nodup :=
  List.Pairwise.imp (fun {_left _right} newer same => by
    rw [same] at newer
    exact Position.newer_asymm newer newer) sorted

/-- The newest entries of the window up to the cap, and whether an entry of the window was
left out. -/
structure CollectsWindow (contents : List (Entry C)) (query : EntryQuery) (scanCap : Nat)
    (result : WindowReadResult C) : Prop where
  entries : result.entries = (query.results contents).take scanCap
  newestFirst : NewestFirst result.entries
  scanned : result.scanned = result.entries.length
  truncated : result.truncated = true <->
    Exists fun entry => entry ∈ query.results contents ∧ entry ∉ result.entries

omit [JsonContent C] distinct in
/-- An entry is left out where there are more than the cap. -/
theorem left_out_iff (sorted : NewestFirst entries) (scanCap : Nat) :
    (Exists fun entry => entry ∈ entries ∧ entry ∉ entries.take scanCap) <-> scanCap < entries.length := by
  have nodup := nodup_of_newestFirst sorted
  constructor
  · rintro ⟨entry, member, leftOut⟩
    by_contra all
    rw [List.take_of_length_le (Nat.le_of_not_lt all)] at leftOut
    exact leftOut member
  · intro more
    refine ⟨entries.get ⟨scanCap, more⟩, List.get_mem .., fun kept => ?_⟩
    rcases List.mem_take_iff_getElem.mp kept with ⟨place, bound, same⟩
    have places := (List.Nodup.getElem_inj_iff nodup).mp same
    omega

/-- A scan of a window ends and returns the newest entries up to its cap; its flag is right
unless there are exactly as many entries as the cap. -/
theorem collectsWindow_iff {reads : Text -> Option Position} {read : EntryQuery -> Page C} {query : EntryQuery}
    (options : WindowReadOptions)
    (answers : AnswersScan reads contents read query (options.pageSize.getD DEFAULT_PAGE_SIZE)) :
    (forall more, Id.run (collectLoop (fun query => pure (read query)) query
        (options.pageSize.getD DEFAULT_PAGE_SIZE) (options.scanCap.getD DEFAULT_SCAN_CAP)
        (options.scanCap.getD DEFAULT_SCAN_CAP + 1 + more) none []) =
      Id.run (collectEntriesInWindow (fun query => pure (read query)) query options)) ∧
    (CollectsWindow contents query (options.scanCap.getD DEFAULT_SCAN_CAP)
        (Id.run (collectEntriesInWindow (fun query => pure (read query)) query options)) <->
      ((query.results contents).length = options.scanCap.getD DEFAULT_SCAN_CAP ->
        options.scanCap.getD DEFAULT_SCAN_CAP = 0)) := by
  refine ⟨fun more => congrArg Id.run (collectLoop_of_enough _ more (Nat.lt_succ_self _) (.inl rfl)), ?_⟩
  rw [collectEntriesInWindow_pages distinct options answers]
  generalize options.scanCap.getD DEFAULT_SCAN_CAP = scanCap
  have sorted := results_newestFirst distinct query
  have leftOut := left_out_iff sorted scanCap
  have some : query.results contents ≠ [] <-> 0 < (query.results contents).length := List.length_pos_iff.symm
  constructor
  · intro collects
    have flag := collects.truncated
    rw [WindowReadResult.of, leftOut, decide_eq_true_iff, some] at flag
    omega
  · intro differs
    refine ⟨rfl, sorted.sublist (List.take_sublist ..), ?_, ?_⟩
    · rw [WindowReadResult.of, List.length_take, Nat.min_comm]
    · rw [WindowReadResult.of, leftOut, decide_eq_true_iff, some]
      omega

end Listing

def loneEntry : Entry Text := plainEntry ['a'] "request".toList 0

/-- One entry and a cap of two. -/
theorem collectsWindow_belowCap :
    CollectsWindow [loneEntry] {} 2
      (Id.run (collectEntriesInWindow (fun query => pure (listingGet [loneEntry] query)) {}
        { scanCap := some 2 })) :=
  (collectsWindow_iff (by decide) { scanCap := some 2 }
    (answersScan_listingGet [loneEntry] {} (by decide))).2.mpr (by decide)

/-- One entry and a cap of one: the scan says that it was cut short. -/
theorem collectsWindow_atCap :
    ¬ CollectsWindow [loneEntry] {} 1
      (Id.run (collectEntriesInWindow (fun query => pure (listingGet [loneEntry] query)) {}
        { scanCap := some 1 })) := by
  intro collects
  rcases collects.truncated.mp (by decide) with ⟨entry, member, leftOut⟩
  exact leftOut member

end Metrics
end Telescope
