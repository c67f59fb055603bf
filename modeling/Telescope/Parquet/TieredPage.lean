import Telescope.Parquet.ColdScan
import Telescope.Parquet.Tiered

namespace Telescope
namespace Parquet
namespace Tiered

/-!
# One page of two tiers

A page of the tiers takes its front from each of them: the hot store's entries
behind the cursor, which a bounded number of hot pages must reach, and the cold
tier's, asked from the last hot one on.  Every copy of an entry has the entry's
position, so the merged fronts are the front of all that either tier holds.
-/

variable {C : Type} [JsonContent C]

/-! ## The hot pages -/

omit [JsonContent C] in
theorem newestFirst_map_project [JsonContent C] (query : EntryQuery) {entries : List (Entry C)}
    (sorted : NewestFirst entries) : NewestFirst (entries.map query.project) := by
  refine List.pairwise_map.mpr (sorted.imp fun {left right} newer => ?_)
  rwa [Entry.Newer, EntryQuery.position_project, EntryQuery.position_project]

theorem newestFirst_results (query : EntryQuery) {stored : List (Entry C)}
    (distinct : Entry.DistinctIds stored) : NewestFirst (query.results stored) :=
  newestFirst_map_project query
    (newestFirst_sort (Entry.distinctIds_sublist List.filter_sublist distinct))

/-- The hot entries of the cursor's millisecond that lie ahead of the cursor, and
as many behind it as are asked for, fit into the hot pages of one call. -/
def Reaches (query : EntryQuery) (hot : List (Entry C)) : Prop :=
  let count := pageLimit query + 1
  let asked := (hotQuery query count).results hot
  let position := query.cursor.bind decodeCursor
  asked.countP (returned position) + min count (asked.countP fun entry => !returned position entry) ≤
    MAX_HOT_PAGES * count

instance (query : EntryQuery) (hot : List (Entry C)) : Decidable (Reaches query hot) :=
  inferInstanceAs (Decidable (_ ≤ _))

variable {query : EntryQuery} {hot : List (Entry C)}

/-- Fewer entries of one millisecond than all but one of the hot pages hold are
within reach. -/
theorem reaches_of_few (few : forall instant, (hot.countP fun entry => decide (query.Matches entry) &&
      decide (entry.createdAt = instant)) ≤ (MAX_HOT_PAGES - 1) * (pageLimit query + 1)) :
    Reaches query hot := by
  have ahead : ((hotQuery query (pageLimit query + 1)).results hot).countP
      (returned (query.cursor.bind decodeCursor)) ≤ (MAX_HOT_PAGES - 1) * (pageLimit query + 1) := by
    cases isPosition : query.cursor.bind decodeCursor with
    | none =>
        have none : ((hotQuery query (pageLimit query + 1)).results hot).countP (returned none) = 0 :=
          List.countP_eq_zero.mpr fun _ _ => Bool.false_ne_true
        exact none ▸ Nat.zero_le _
    | some position =>
        rw [EntryQuery.results, List.countP_map, (sortNewestFirst_perm _).countP_eq,
          List.countP_filter]
        refine Nat.le_trans (List.countP_mono_left fun entry _ both => ?_) (few position.createdAt)
        rw [Bool.and_eq_true, decide_eq_true_eq] at both
        rcases both with ⟨returned, asks⟩
        rw [Function.comp_apply, returned_project] at returned
        rw [Bool.and_eq_true, decide_eq_true_eq]
        exact ⟨(matches_of_hotQuery none asks).1,
          decide_eq_true (of_decide_eq_true returned).1⟩
  have pages : (MAX_HOT_PAGES - 1) * (pageLimit query + 1) + (pageLimit query + 1) =
      MAX_HOT_PAGES * (pageLimit query + 1) := (Nat.succ_mul ..).symm
  rw [Reaches]
  omega

/-- The loop has read a front of the entries asked for when it stops: all of
them, enough of them, or as many as its pages hold. -/
theorem hotPages_reads {reads : Text -> Option Position} {hotGet : EntryQuery -> Page C}
    (answers : HotAnswers reads hot hotGet) (distinct : Entry.DistinctIds hot) (query : EntryQuery) {count : Nat}
    (positive : 0 < count) (position : Option Position) (pages : Nat) (cursor : Option Text) (read : Nat)
    (resumes : ((hotQuery query count).results hot).filter (behindCursor (cursor.bind reads)) =
      ((hotQuery query count).results hot).drop read) :
    Exists fun places =>
      hotPages hotGet position (hotQuery query count) count pages cursor
          ((((hotQuery query count).results hot).take read).filter fun entry =>
            !returned position entry) =
        (((hotQuery query count).results hot).take places).filter
          (fun entry => !returned position entry) ∧
      (((hotQuery query count).results hot).length ≤ places ∨
        count ≤ ((((hotQuery query count).results hot).take places).filter
          fun entry => !returned position entry).length ∨
        read + pages * count ≤ places) := by
  induction pages generalizing cursor read with
  | zero => exact ⟨read, rfl, .inr (.inr (by omega))⟩
  | succ pages inductionHypothesis =>
      have page := answers { hotQuery query count with cursor := cursor } count rfl positive
      have sorted := newestFirst_results (hotQuery query count) distinct
      have data : (hotGet { hotQuery query count with cursor := cursor }).data =
          (((hotQuery query count).results hot).drop read).take count := by
        rw [page.data, ← resumes]
        rfl
      have whole : (hotGet { hotQuery query count with cursor := cursor }).nextCursor = none ->
          (((hotQuery query count).results hot).drop read).length ≤ count := by
        rw [← resumes]
        exact page.last
      generalize (hotQuery query count).results hot = asked at *
      have gathered : ((asked.take read).filter fun entry => !returned position entry) ++
          ((hotGet { hotQuery query count with cursor := cursor }).data.filter
            fun entry => !returned position entry) =
          (asked.take (read + count)).filter fun entry => !returned position entry := by
        rw [data, List.take_add, List.filter_append]
      simp only [hotPages, gathered]
      split
      · rename_i last
        refine ⟨read + count, rfl, .inl ?_⟩
        have short := whole last
        rw [List.length_drop] at short
        omega
      · rename_i next isNext
        split
        · rename_i enough
          exact ⟨read + count, rfl, .inr (.inl enough)⟩
        · rcases page.next next isNext with ⟨last, isLast, readAs⟩
          rw [data] at isLast
          rcases List.getLast?_eq_some_iff.mp isLast with ⟨start, taken⟩
          have splits : asked = (asked.take read ++ start) ++ last :: asked.drop (read + count) := by
            rw [List.append_assoc, List.append_cons, ← taken, ← List.drop_drop, List.take_append_drop,
              List.take_append_drop]
          have behind : asked.filter (behindCursor ((some next).bind reads)) =
              asked.drop (read + count) := by
            rw [Option.bind_some, readAs]
            have later := Keyset.filter_after (fun _ _ => Position.newer_asymm) (splits ▸ sorted)
            rw [← splits] at later
            exact later
          rcases inductionHypothesis (some next) (read + count) behind with ⟨places, same, reached⟩
          refine ⟨places, same, reached.imp_right (Or.imp_right fun far => ?_)⟩
          rw [Nat.succ_mul]
          omega

/-- What the hot store is asked for and was not returned is what the query asks
for behind its cursor. -/
theorem hotQuery_fresh_iff (query : EntryQuery) (count : Nat) (entry : Entry C) :
    ((hotQuery query count).Matches entry ∧ returned (query.cursor.bind decodeCursor) entry = false) <->
      query.Matches entry ∧ behindCursor (query.cursor.bind decodeCursor) entry = true := by
  constructor
  · rintro ⟨asks, fresh⟩
    rcases matches_of_hotQuery none asks with ⟨matching, older⟩
    exact ⟨matching, behindCursor_of_not_returned older fresh⟩
  · rintro ⟨⟨type, tag, family, batch, trace, search, ids, before, after⟩, behind⟩
    have older : forall position, query.cursor.bind decodeCursor = some position ->
        position.Newer entry.position := by
      intro position isPosition
      rw [isPosition] at behind
      exact of_decide_eq_true behind
    refine ⟨⟨type, tag, family, batch, trace, search, ids, ?_, after⟩, ?_⟩
    · intro bound isBound
      rcases eq_or_eq_of_minBound isBound with isBefore | isCursor
      · exact before bound isBefore
      rcases Option.map_eq_some_iff.mp isCursor with ⟨position, isPosition, rfl⟩
      rcases older position isPosition with strictly | ⟨same, _⟩
      · exact strictly.trans (Int.lt_succ _)
      · exact Int.lt_add_one_iff.mpr same.ge
    · cases isPosition : query.cursor.bind decodeCursor with
      | none => rfl
      | some position =>
          refine decide_eq_false fun ⟨same, after⟩ => ?_
          rcases older position isPosition with strictly | ⟨_, tie⟩
          · exact strictly.ne same
          · exact after tie

theorem filter_results {stored : List (Entry C)} (distinct : Entry.DistinctIds stored) {keeps : Entry C -> Bool}
    (ofOriginal : forall entry, keeps (query.project entry) = keeps entry) :
    (query.results stored).filter keeps =
      (sortNewestFirst (stored.filter fun entry => decide (query.Matches entry) && keeps entry)).map
        query.project := by
  rw [EntryQuery.results, List.filter_map, ← sortNewestFirst_filter
    (Entry.distinctIds_sublist List.filter_sublist distinct), List.filter_filter]
  congr 3
  funext entry
  rw [Function.comp_apply, ofOriginal, Bool.and_comm]

theorem behindCursor_project (position : Option Position) (query : EntryQuery) (entry : Entry C) :
    behindCursor position (query.project entry) = behindCursor position entry := by
  rw [behindCursor, behindCursor, EntryQuery.position_project]

theorem filter_hotQuery (distinct : Entry.DistinctIds hot) (query : EntryQuery) (count : Nat) :
    ((hotQuery query count).results hot).filter
        (fun entry => !returned (query.cursor.bind decodeCursor) entry) =
      (query.results hot).filter (behindCursor (query.cursor.bind decodeCursor)) := by
  have same : (fun entry => decide ((hotQuery query count).Matches entry) &&
      !returned (query.cursor.bind decodeCursor) entry) = fun entry : Entry C =>
        decide (query.Matches entry) && behindCursor (query.cursor.bind decodeCursor) entry := by
    funext entry
    rw [Bool.eq_iff_iff, Bool.and_eq_true, Bool.and_eq_true, Bool.not_eq_true', decide_eq_true_eq,
      decide_eq_true_eq]
    exact hotQuery_fresh_iff query count entry
  rw [filter_results distinct (fun entry => by rw [returned_project]),
    filter_results distinct (behindCursor_project _ query), same]
  rfl

/-- The filtered front of a list is a front of the filtered list. -/
theorem filter_take {α : Type} (keeps : α -> Bool) (elements : List α) (places : Nat) :
    (elements.take places).filter keeps =
      (elements.filter keeps).take ((elements.take places).countP keeps) := by
  have whole : elements.filter keeps =
      (elements.take places).filter keeps ++ (elements.drop places).filter keeps := by
    rw [← List.filter_append, List.take_append_drop]
  rw [whole, List.countP_eq_length_filter, List.take_left]

omit [JsonContent C] in
theorem sortNewestFirst_eq_self {entries : List (Entry C)} (sorted : NewestFirst entries) :
    sortNewestFirst entries = entries :=
  (sorted.imp fun {_ _} newer => Position.newer_asymm newer).insertionSort_eq

/-- Where the hot pages reach, they hold the front of the hot entries behind the
cursor. -/
theorem hotPage_eq {reads : Text -> Option Position} {hotGet : EntryQuery -> Page C}
    (answers : HotAnswers reads hot hotGet) (distinct : Entry.DistinctIds hot) (reaches : Reaches query hot) :
    hotPage hotGet query (pageLimit query + 1) =
      ((query.results hot).filter (behindCursor (query.cursor.bind decodeCursor))).take
        (pageLimit query + 1) := by
  have positive : 0 < pageLimit query + 1 := Nat.succ_pos _
  have front := filter_hotQuery distinct query (pageLimit query + 1)
  have sorted : NewestFirst ((query.results hot).filter
      (behindCursor (query.cursor.bind decodeCursor))) :=
    (newestFirst_results query distinct).filter _
  rcases hotPages_reads answers distinct query positive (query.cursor.bind decodeCursor) MAX_HOT_PAGES
    none 0 (List.filter_eq_self.mpr fun _ _ => rfl) with ⟨places, gathered, reached⟩
  rw [List.take_zero, List.filter_nil] at gathered
  rw [Reaches] at reaches
  rw [hotPage, gathered, filter_take, front]
  rw [filter_take, front] at reached
  rw [List.countP_eq_length_filter (l := (hotQuery query (pageLimit query + 1)).results hot)
    (p := fun entry => !returned _ entry), front] at reaches
  have size : (((hotQuery query (pageLimit query + 1)).results hot).filter fun entry =>
      !returned (query.cursor.bind decodeCursor) entry).length =
        ((query.results hot).filter (behindCursor (query.cursor.bind decodeCursor))).length :=
    congrArg List.length front
  generalize (hotQuery query (pageLimit query + 1)).results hot = asked at *
  generalize (query.results hot).filter (behindCursor (query.cursor.bind decodeCursor)) = behind at *
  generalize query.cursor.bind decodeCursor = position at *
  have parts : forall entries : List (Entry C), entries.length = entries.countP (returned position) +
      entries.countP fun entry => !returned position entry := by
    intro entries
    rw [List.length_eq_countP_add_countP (returned position)]
    simp only [Bool.not_eq_true, Bool.decide_eq_false]
  have fewer : (asked.take places).countP (returned position) ≤ asked.countP (returned position) :=
    (List.take_sublist places asked).countP_le
  have gatheredAll := parts (asked.take places)
  have all := parts asked
  rw [← List.countP_eq_length_filter] at size
  rw [List.length_take] at gatheredAll reached
  generalize (asked.take places).countP (fun entry => !returned position entry) = held at *
  have enough : min (pageLimit query + 1) behind.length ≤ held := by
    rcases reached with whole | full | far
    · omega
    · omega
    · omega
  rw [sortNewestFirst_eq_self (sorted.sublist (List.take_sublist ..)), List.take_take,
    List.take_eq_take_iff]
  omega

/-! ## What the tiers hold -/

/-- A cold read finds the newest entries behind its cursor, in page order. -/
def ColdOpens (rows : List (Entry C)) (coldRead : EntryQuery -> Nat -> Option (List (Entry C))) :
    Prop :=
  forall query limit, 0 < limit -> Exists fun found => coldRead query limit = some found ∧
    (forall entry, entry ∈ found -> AnswersWith rows query entry) ∧
    found.map Entry.position = (ahead query rows).take limit

/-- A cold tier that answers from its rows. -/
def listingRead (rows : List (Entry C)) (query : EntryQuery) (limit : Nat) : Option (List (Entry C)) :=
  some ((((listing query rows).filter (behindCursor (query.cursor.bind decodeCursor))).take limit).map
    query.project)

theorem coldOpens_listingRead (rows : List (Entry C)) : ColdOpens rows (listingRead rows) := by
  intro query limit _
  refine ⟨_, rfl, fun entry member => ?_, ?_⟩
  · rcases List.mem_map.mp member with ⟨original, taken, rfl⟩
    rcases List.mem_filter.mp (List.mem_of_mem_take taken) with ⟨listed, behind⟩
    rcases List.mem_filter.mp (mem_of_mem_dedupe (mem_sortNewestFirst.mp listed)) with ⟨isRow, asks⟩
    exact ⟨original, isRow, of_decide_eq_true asks, behind, rfl⟩
  · rw [ahead, List.filter_map, List.map_map, ← List.map_take]
    exact List.map_congr_left fun entry _ => EntryQuery.position_project query entry

/-- What the tiers hold. -/
structure Contents (C : Type) where
  hot : List (Entry C)
  files : List (ColdFile C)

/-- All copies, of either tier. -/
def Contents.stored (contents : Contents C) : List (Entry C) := contents.hot ++ coldRows contents.files

/-- Both tiers as one page finds them, with the reads they answer it by. -/
structure Source (C : Type) extends Contents C where
  hotReads : Text -> Option Position
  hotGet : EntryQuery -> Page C
  coldRead : EntryQuery -> Nat -> Option (List (Entry C))

/-- Each tier pages by the keyset, newest first. -/
structure Source.Honours (source : Source C) : Prop where
  distinct : Entry.DistinctIds source.hot
  hot : HotAnswers source.hotReads source.hot source.hotGet
  cold : ColdOpens (coldRows source.files) source.coldRead

/-! ## One page -/

theorem pageLimit_pos (query : EntryQuery) : 0 < pageLimit query := by
  unfold pageLimit
  split
  · split
    · omega
    · decide
  · decide


variable {entry : Entry C}

/-- What a tier answers with is at the position of a copy that is behind the cursor. -/
theorem AnswersWith.mem_ahead {part stored : List (Entry C)} (answers : AnswersWith part query entry)
    (agrees : Agrees stored) (within : forall original, original ∈ part -> original ∈ stored) :
    entry.position ∈ ahead query stored := by
  rcases answers with ⟨original, isOriginal, asks, behind, rfl⟩
  exact (Parquet.mem_ahead agrees).mpr ⟨original, within original isOriginal, asks, behind,
    (EntryQuery.position_project query original).symm⟩

variable {source : Source C}

/-- The hot page holds the front of the page as far as it is hot. -/
theorem mem_hotPage (honours : source.Honours) (agrees : Agrees source.stored) (reaches : Reaches query source.hot)
    (isHot : entry ∈ source.hot) (asks : query.Matches entry)
    (front : entry.position ∈ (ahead query source.stored).take (pageLimit query + 1)) :
    entry.position ∈ (hotPage source.hotGet query (pageLimit query + 1)).map Entry.position := by
  have behind : behindCursor (query.cursor.bind decodeCursor) entry = true :=
    (List.mem_filter.mp (List.mem_of_mem_take front)).2
  rw [hotPage_eq honours.hot honours.distinct reaches, List.map_take]
  refine Keyset.mem_take_of_within (fun _ _ => Position.newer_asymm) (ahead_sorted query source.stored)
    (List.pairwise_map.mpr ((newestFirst_results query honours.distinct).filter _)) ?_ front ?_
  · intro position member
    rcases List.mem_map.mp member with ⟨found, isFound, rfl⟩
    rcases List.mem_filter.mp isFound with ⟨listed, isBehind⟩
    rcases List.mem_map.mp listed with ⟨original, isOriginal, rfl⟩
    rcases List.mem_filter.mp (mem_sortNewestFirst.mp isOriginal) with ⟨isStored, matching⟩
    rw [behindCursor_project] at isBehind
    exact AnswersWith.mem_ahead ⟨original, isStored, of_decide_eq_true matching, isBehind, rfl⟩ agrees
      fun _ => List.mem_append_left _
  · refine List.mem_map.mpr ⟨query.project entry, List.mem_filter.mpr ⟨?_, ?_⟩,
      EntryQuery.position_project query entry⟩
    · exact List.mem_map_of_mem (mem_sortNewestFirst.mpr
        (List.mem_filter.mpr ⟨isHot, decide_eq_true asks⟩))
    · rwa [behindCursor_project]

theorem hotPage_sorted (honours : source.Honours) (reaches : Reaches query source.hot) :
    NewestFirst (hotPage source.hotGet query (pageLimit query + 1)) := by
  rw [hotPage_eq honours.hot honours.distinct reaches]
  exact ((newestFirst_results query honours.distinct).filter _).sublist (List.take_sublist ..)

theorem hotPage_ahead (honours : source.Honours) (agrees : Agrees source.stored) (query : EntryQuery)
    (member : entry ∈ hotPage source.hotGet query (pageLimit query + 1)) :
    entry.position ∈ ahead query source.stored :=
  (hotPage_sound honours.hot query _ entry member).mem_ahead agrees fun _ => List.mem_append_left _

/-- What a full hot page does not hold of the front is as new as its last entry. -/
theorem floor_le (honours : source.Honours) (agrees : Agrees source.stored) (reaches : Reaches query source.hot)
    {position : Position} (front : position ∈ (ahead query source.stored).take (pageLimit query + 1))
    (missing : position.id ∉ (hotPage source.hotGet query (pageLimit query + 1)).map Entry.id) {lastHot : Entry C}
    (isLast : (hotPage source.hotGet query (pageLimit query + 1))[pageLimit query]? = some lastHot) :
    lastHot.createdAt ≤ position.createdAt := by
  have sorted := hotPage_sorted honours reaches
  have within : forall entry, entry ∈ hotPage source.hotGet query (pageLimit query + 1) ->
      entry.position ∈ ahead query source.stored := fun _ => hotPage_ahead honours agrees query
  have short : (hotPage source.hotGet query (pageLimit query + 1)).length ≤ pageLimit query + 1 :=
    List.length_take_le ..
  generalize hotPage source.hotGet query (pageLimit query + 1) = hot at *
  rcases List.getElem?_eq_some_iff.mp isLast with ⟨full, isElement⟩
  have splits : hot = hot.take (pageLimit query) ++ [lastHot] := by
    rw [← isElement, List.take_append_getElem, List.take_of_length_le short]
  by_contra older
  have newerThanIt : forall entry, entry ∈ hot -> entry.position.Newer position := by
    have below : lastHot.position.Newer position := .inl (not_le.mp older)
    intro entry member
    rw [splits] at member sorted
    rcases List.mem_append.mp member with earlier | last
    · exact Position.newer_trans
        ((List.pairwise_append.mp sorted).2.2 entry earlier lastHot (List.mem_singleton_self _)) below
    · exact List.mem_singleton.mp last ▸ below
  have extended : (hot.map Entry.position ++ [position]).Pairwise Position.Newer := by
    refine List.pairwise_append.mpr ⟨List.pairwise_map.mpr sorted, List.pairwise_singleton .., ?_⟩
    intro left isLeft right isRight
    rcases List.mem_map.mp isLeft with ⟨entry, member, rfl⟩
    rw [List.mem_singleton.mp isRight]
    exact newerThanIt entry member
  have inFront := Keyset.mem_take_of_within (fun _ _ => Position.newer_asymm)
    (ahead_sorted query source.stored) extended (fun other member => by
      rcases List.mem_append.mp member with inHot | isIt
      · rcases List.mem_map.mp inHot with ⟨entry, isEntry, rfl⟩
        exact within entry isEntry
      · exact List.mem_singleton.mp isIt ▸ List.mem_of_mem_take front)
    front (List.mem_append_right _ (List.mem_singleton_self _))
  rw [List.take_append_of_le_length (by rw [List.length_map]; omega)] at inFront
  rcases List.mem_map.mp (List.mem_of_mem_take inFront) with ⟨entry, member, rfl⟩
  exact missing (List.mem_map_of_mem member)

/-- The cold tier is asked for whatever the hot page does not hold and is no older
than its last entry. -/
theorem matches_coldQuery {limit : Nat} (asks : query.Matches entry) (missing : entry.id ∉ hot.map Entry.id)
    (floor : forall lastHot, hot[limit]? = some lastHot -> lastHot.createdAt - 1 < entry.createdAt) :
    (coldQuery query hot limit).Matches entry := by
  rcases asks with ⟨type, tag, family, batch, trace, search, ids, before, after⟩
  have asked : { query with ids := missingIds query hot }.Matches entry := by
    refine ⟨type, tag, family, batch, trace, search, fun left isLeft => ?_, before, after⟩
    rcases Option.map_eq_some_iff.mp isLeft with ⟨all, isAll, rfl⟩
    exact List.mem_filter.mpr ⟨ids all isAll, decide_eq_true missing⟩
  simp only [coldQuery]
  split
  · rename_i lastHot isLast
    split
    · rcases asked with ⟨type, tag, family, batch, trace, search, ids, before, _⟩
      refine ⟨type, tag, family, batch, trace, search, ids, before, fun bound isBound => ?_⟩
      cases isBound
      exact floor lastHot isLast
    · exact asked
  · exact asked

/-- The cold read holds the front of the page as far as the hot page does not. -/
theorem mem_cold (honours : source.Honours) (agrees : Agrees source.stored) (reaches : Reaches query source.hot)
    (isCold : entry ∈ coldRows source.files) (asks : query.Matches entry)
    (front : entry.position ∈ (ahead query source.stored).take (pageLimit query + 1))
    (missing : entry.id ∉ (hotPage source.hotGet query (pageLimit query + 1)).map Entry.id) :
    entry.position ∈ (ahead (coldQuery query (hotPage source.hotGet query (pageLimit query + 1))
      (pageLimit query)) (coldRows source.files)).take (pageLimit query + 1) := by
  have behind : behindCursor (query.cursor.bind decodeCursor) entry = true :=
    (List.mem_filter.mp (List.mem_of_mem_take front)).2
  have agreesCold : Agrees (coldRows source.files) := agrees.of_positions fun row isRow =>
    ⟨row, List.mem_append_right _ isRow, rfl⟩
  have asksCold : (coldQuery query (hotPage source.hotGet query (pageLimit query + 1))
      (pageLimit query)).Matches entry := by
    refine matches_coldQuery asks missing fun lastHot isLast => ?_
    have floor := floor_le honours agrees reaches front missing isLast
    change lastHot.createdAt ≤ entry.createdAt at floor
    omega
  refine Keyset.mem_take_of_within (fun _ _ => Position.newer_asymm) (ahead_sorted query source.stored)
    (ahead_sorted _ _) ?_ front ?_
  · intro position member
    rcases (mem_ahead agreesCold).mp member with ⟨row, isRow, rowAsks, rowBehind, rfl⟩
    rw [cursor_coldQuery] at rowBehind
    exact (mem_ahead agrees).mpr ⟨row, List.mem_append_right _ isRow, matches_of_coldQuery rowAsks,
      rowBehind, rfl⟩
  · exact (mem_ahead agreesCold).mpr ⟨entry, isCold, asksCold, by rwa [cursor_coldQuery], rfl⟩

/-- Merged answers hold the position of every stored entry whose identifier they hold. -/
theorem mem_merged (agrees : Agrees source.stored) {answers : List (Entry C)} (sound : forall entry, entry ∈ answers ->
      AnswersWith source.hot query entry ∨ AnswersWith (coldRows source.files) query entry)
    (isStored : entry ∈ source.stored) (found : entry.id ∈ answers.map Entry.id) :
    entry.position ∈ (sortNewestFirst (dedupe answers)).map Entry.position := by
  rcases List.mem_map.mp found with ⟨answer, isAnswer, sameId⟩
  rcases exists_mem_dedupe isAnswer with ⟨kept, isKept, same⟩
  have copy : Exists fun original => original ∈ source.stored ∧ original.position = kept.position := by
    rcases sound kept (mem_of_mem_dedupe isKept) with
      ⟨original, isHot, _, _, rfl⟩ | ⟨original, isCold, _, _, rfl⟩
    · exact ⟨original, List.mem_append_left _ isHot, (EntryQuery.position_project query original).symm⟩
    · exact ⟨original, List.mem_append_right _ isCold, (EntryQuery.position_project query original).symm⟩
  rcases copy with ⟨original, isOriginal, position⟩
  have id : original.id = entry.id := (congrArg Position.id position).trans (same.trans sameId)
  exact List.mem_map.mpr ⟨kept, mem_sortNewestFirst.mpr isKept,
    position.symm.trans (agrees.position isOriginal isStored id)⟩

/-- A page is cut from entries that are the front of what lies ahead. -/
theorem exists_front_get (honours : source.Honours) (agrees : Agrees source.stored)
    (reaches : Reaches query source.hot) :
    Exists fun merged =>
      Merges source.hot (coldRows source.files) query merged
        (get source.hotGet source.coldRead query) ∧
      forall position, position ∈ (ahead query source.stored).take (pageLimit query + 1) ->
        position ∈ merged.map Entry.position := by
  have hotSound := hotPage_sound honours.hot query (pageLimit query)
  simp only [get]
  split
  · rename_i noIds
    refine ⟨[], ⟨?_, List.nodup_nil, List.Pairwise.nil, fun _ member => ?_⟩, fun position front => ?_⟩
    · rw [Keyset.firstPage, List.take_nil, List.length_nil, if_neg (Nat.not_lt_zero _)]
    · exact (List.not_mem_nil member).elim
    · rcases (mem_ahead agrees).mp (List.mem_of_mem_take front) with ⟨entry, _, asks, _⟩
      rcases asks with ⟨_, _, _, _, _, _, ids, _⟩
      exact (List.not_mem_nil (ids [] (noIds ▸ rfl))).elim
  · split
    · rename_i allFound
      refine ⟨_, merges_page hotSound (fun _ none => (List.not_mem_nil none).elim) false,
        fun position front => ?_⟩
      rcases (mem_ahead agrees).mp (List.mem_of_mem_take front) with ⟨entry, isStored, asks, _, rfl⟩
      rcases Option.map_eq_some_iff.mp allFound with ⟨ids, isIds, nothing⟩
      have held := List.filter_eq_nil_iff.mp nothing entry.id (asks.2.2.2.2.2.2.1 ids isIds)
      rw [decide_eq_true_eq, not_not] at held
      refine mem_merged agrees (fun answer isAnswer => .inl (hotSound answer ?_)) isStored ?_
      · rwa [List.append_nil] at isAnswer
      · rwa [List.append_nil]
    · rcases honours.cold (coldQuery query (hotPage source.hotGet query (pageLimit query + 1))
        (pageLimit query)) (pageLimit query + 1) (Nat.succ_pos _) with ⟨cold, read, coldSound, found⟩
      rw [read]
      have merges := merges_page hotSound (fun entry member =>
        answersWith_coldQuery (coldSound entry member)) false
      refine ⟨_, merges, fun position front => ?_⟩
      rcases (mem_ahead agrees).mp (List.mem_of_mem_take front) with ⟨entry, isStored, asks, _, rfl⟩
      have sound : forall answer,
          answer ∈ hotPage source.hotGet query (pageLimit query + 1) ++ cold ->
            AnswersWith source.hot query answer ∨ AnswersWith (coldRows source.files) query answer := by
        intro answer isAnswer
        rcases List.mem_append.mp isAnswer with inHot | inCold
        · exact .inl (hotSound answer inHot)
        · exact .inr (answersWith_coldQuery (coldSound answer inCold))
      refine mem_merged agrees sound isStored ?_
      rw [List.map_append, List.mem_append]
      by_cases held : entry.id ∈ (hotPage source.hotGet query (pageLimit query + 1)).map Entry.id
      · exact .inl held
      · rcases List.mem_append.mp isStored with isHot | isCold
        · rcases List.mem_map.mp (mem_hotPage honours agrees reaches isHot asks front) with
            ⟨answer, isAnswer, position⟩
          exact .inl (List.mem_map.mpr ⟨answer, isAnswer, congrArg Position.id position⟩)
        · have inCold := mem_cold honours agrees reaches isCold asks front held
          rw [← found] at inCold
          rcases List.mem_map.mp inCold with ⟨answer, isAnswer, position⟩
          exact .inr (List.mem_map.mpr ⟨answer, isAnswer, congrArg Position.id position⟩)

/-- The cursor of the last position visited leaves the rest ahead. -/
theorem ahead_behind (query : EntryQuery) {stored : List (Entry C)} {visited remaining : List Position}
    (split : (listing query stored).map Entry.position = visited ++ remaining) :
    ahead { query with cursor := visited.getLast?.map encodeCursor } stored = remaining := by
  have sorted := listing_sorted query stored
  have reads : (visited.getLast?.map encodeCursor).bind decodeCursor = visited.getLast? := by
    cases visited.getLast? with
    | none => rfl
    | some position => exact decodeCursor_encodeCursor position
  have same : ahead { query with cursor := visited.getLast?.map encodeCursor } stored =
      (visited ++ remaining).filter (liesBehind visited.getLast?) := by
    rw [ahead, ← split]
    exact congrArg (fun cursor => List.filter (liesBehind cursor) _) reads
  rw [same]
  rw [split] at sorted
  rcases List.eq_nil_or_concat' visited with rfl | ⟨start, last, rfl⟩
  · exact List.filter_eq_self.mpr fun _ _ => rfl
  · rw [List.getLast?_concat, List.append_assoc, List.singleton_append]
    rw [List.append_assoc, List.singleton_append] at sorted
    exact Keyset.filter_after (fun _ _ => Position.newer_asymm) sorted

/-- A page opens the cursors of what lies ahead. -/
theorem opensKeys_get (honours : source.Honours) (agrees : Agrees source.stored) (reaches : Reaches query source.hot) :
    Keyset.OpensKeys cursorOf (pageLimit query) ((ahead query source.stored).map encodeCursor)
      (get source.hotGet source.coldRead query).toPage := by
  rcases exists_front_get honours agrees reaches with ⟨merged, merges, front⟩
  have within : forall position, position ∈ merged.map Entry.position ->
      position ∈ ahead query source.stored := by
    intro position member
    rcases List.mem_map.mp member with ⟨entry, isMerged, rfl⟩
    rcases merges.sound entry isMerged with inHot | inCold
    · exact inHot.mem_ahead agrees fun _ => List.mem_append_left _
    · exact inCold.mem_ahead agrees fun _ => List.mem_append_right _
  have fronts := Keyset.take_eq_of_front (fun _ _ => Position.newer_asymm)
    (ahead_sorted query source.stored) (List.pairwise_map.mpr merges.sorted) within front
  have data : (merged.take (pageLimit query)).map cursorOf =
      ((ahead query source.stored).map encodeCursor).take (pageLimit query) := by
    have shorter := congrArg (fun positions => (positions.take (pageLimit query)).map encodeCursor) fronts
    simp only [List.take_take, Nat.min_eq_left (Nat.le_succ _)] at shorter
    rw [← List.map_take] at shorter
    rw [← List.map_take, ← shorter, List.map_map]
    rfl
  have longer : pageLimit query < merged.length <->
      pageLimit query < ((ahead query source.stored).map encodeCursor).length := by
    have sizes := congrArg List.length fronts
    rw [List.length_take, List.length_take, List.length_map] at sizes
    rw [List.length_map]
    omega
  refine ⟨?_, ?_⟩
  · rw [merges.page]
    exact data
  · rw [merges.page, Keyset.firstPage, Keyset.cursorBehind, ← List.getLast?_map, data]
    by_cases more : pageLimit query < merged.length
    · rw [if_pos more, if_pos (longer.mp more)]
    · rw [if_neg more, if_neg (more ∘ longer.mpr)]

end Tiered
end Parquet
end Telescope
