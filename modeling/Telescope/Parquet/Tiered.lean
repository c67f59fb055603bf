import Telescope.Parquet.ColdStore

namespace Telescope
namespace Parquet
namespace Tiered

/-!
# Tiered storage

A read merges a page of the hot store with what the cold tier adds to it.  The
cursor is this provider's own, so a hot page behind it is asked for by instant,
and the entries of that instant which have been returned already are skipped.  A
cold read may fail; the page is then made of hot entries alone and flagged.
-/

variable {C : Type} [JsonContent C]

def DEFAULT_LIMIT : Nat := 50

def MAX_HOT_PAGES : Nat := 20

/-- An entry of the cursor's own millisecond that is not behind it. -/
def returned (position : Option Position) (entry : Entry C) : Bool :=
  position.any fun position =>
    decide (entry.createdAt = position.createdAt ∧ ¬ entry.id.Before position.id)

/-- The loop of `hotPage` for as many hot pages as are left. -/
def hotPages (hotGet : EntryQuery -> Page C) (position : Option Position) (asked : EntryQuery)
    (count : Nat) : Nat -> Option Text -> List (Entry C) -> List (Entry C)
  | 0, _, out => out
  | pages + 1, hotCursor, out =>
      let result := hotGet { asked with cursor := hotCursor }
      let out := out ++ result.data.filter fun entry => !returned position entry
      match result.nextCursor with
      | none => out
      | some next =>
          if count ≤ out.length then out else hotPages hotGet position asked count pages (some next) out

/-- A query of the hot store for what is at the cursor's instant or older. -/
def hotQuery (query : EntryQuery) (count : Nat) : EntryQuery :=
  { query with
    before := minBound query.before
      ((query.cursor.bind decodeCursor).map fun position => position.createdAt + 1)
    limit := some count
    cursor := none }

/-- Up to `count` hot entries strictly behind the cursor. -/
def hotPage (hotGet : EntryQuery -> Page C) (query : EntryQuery) (count : Nat) : List (Entry C) :=
  (sortNewestFirst (hotPages hotGet (query.cursor.bind decodeCursor) (hotQuery query count) count
    MAX_HOT_PAGES none [])).take count

/-- The hot copy of an entry that is in both comes first. -/
def page (hot cold : List (Entry C)) (limit : Nat) (partialRead : Bool) : Page C where
  toPage := Keyset.firstPage cursorOf limit (sortNewestFirst (dedupe (hot ++ cold)))
  partialRead := partialRead

def pageLimit (query : EntryQuery) : Nat :=
  match query.limit with
  | some limit => if 0 < limit then limit.toNat else DEFAULT_LIMIT
  | none => DEFAULT_LIMIT

/-- The identifiers that were asked for and not found in the hot store. -/
def missingIds (query : EntryQuery) (hot : List (Entry C)) : Option (List Text) :=
  query.ids.map fun ids => ids.filter fun id => decide (id ∉ hot.map Entry.id)

/-- A full hot page bounds what the cold tier can still contribute. -/
def coldQuery (query : EntryQuery) (hot : List (Entry C)) (limit : Nat) : EntryQuery :=
  let asked := { query with ids := missingIds query hot }
  match hot[limit]? with
  | some lastHot =>
      if query.after.all fun after => decide (after < lastHot.createdAt - 1) then
        { asked with after := some (lastHot.createdAt - 1) }
      else asked
  | none => asked

/-- `get`, over the hot store's and over a cold read that may fail. -/
def get (hotGet : EntryQuery -> Page C) (coldRead : EntryQuery -> Nat -> Option (List (Entry C)))
    (query : EntryQuery) : Page C :=
  let limit := pageLimit query
  if query.ids = some [] then { data := [], nextCursor := none }
  else
    let hot := hotPage hotGet query (limit + 1)
    if missingIds query hot = some [] then page hot [] limit false
    else
      match coldRead (coldQuery query hot limit) (limit + 1) with
      | some cold => page hot cold limit false
      | none => page hot [] limit true

/-! ## What a page is made of -/

/-- An entry is what a query returns of some stored one. -/
def AnswersWith (stored : List (Entry C)) (query : EntryQuery) (entry : Entry C) : Prop :=
  Exists fun original => original ∈ stored ∧ query.Matches original ∧
    behindCursor (query.cursor.bind decodeCursor) original = true ∧ entry = query.project original

/-- The hot store answers as the interface says, with cursors of its own. -/
def HotAnswers (reads : Text -> Option Position) (hot : List (Entry C))
    (hotGet : EntryQuery -> Page C) : Prop :=
  forall query, forall limit : Nat, query.limit = some (limit : Int) -> 0 < limit ->
    OpensPage reads hot query limit (hotGet query)

/-- A cold read that succeeds returns rows of the tier that it is asked for. -/
def ColdAnswers (rows : List (Entry C)) (coldRead : EntryQuery -> Nat -> Option (List (Entry C))) :
    Prop :=
  forall query limit found, coldRead query limit = some found ->
    forall entry, entry ∈ found -> AnswersWith rows query entry

/-- The reads of a cold store that does not fail. -/
theorem coldAnswers_query (engine : ColdEngine C) (files : List (ColdFile C)) :
    ColdAnswers (coldRows files)
      fun asked limit => some (query engine files (some limit) asked) := by
  rintro asked limit _ ⟨⟩ entry member
  exact mem_query member

omit [JsonContent C] in
/-- What is no newer than the cursor's instant and was not returned is behind it. -/
theorem behindCursor_of_not_returned {position : Option Position} {entry : Entry C}
    (older : forall position', position = some position' ->
      entry.createdAt < position'.createdAt + 1)
    (fresh : returned position entry = false) : behindCursor position entry = true := by
  cases position with
  | none => rfl
  | some position =>
      have tie := of_decide_eq_false fresh
      refine decide_eq_true ?_
      rcases (Int.lt_add_one_iff.mp (older position rfl)).lt_or_eq with strictly | same
      · exact .inl strictly
      · exact .inr ⟨same.symm, not_not.mp fun after => tie ⟨same, after⟩⟩

theorem lt_of_mem_minBound {first second : Option Int} {value bound : Int}
    (below : forall least, least ∈ minBound first second -> value < least)
    (isBound : first = some bound ∨ second = some bound) : value < bound := by
  cases first with
  | none =>
      rcases isBound with found | found
      · cases found
      · exact below bound (found ▸ rfl)
  | some first =>
      cases second with
      | none =>
          rcases isBound with found | found
          · exact below bound (found ▸ rfl)
          · cases found
      | some second =>
          have least := below (min first second) rfl
          rcases isBound with found | found
          · exact Option.some.inj found ▸ (lt_of_lt_of_le least (Int.min_le_left ..))
          · exact Option.some.inj found ▸ (lt_of_lt_of_le least (Int.min_le_right ..))

variable {query : EntryQuery}

theorem matches_of_hotQuery {count : Nat} (cursor : Option Text) {entry : Entry C}
    (asks : { hotQuery query count with cursor := cursor }.Matches entry) :
    query.Matches entry ∧ forall position, query.cursor.bind decodeCursor = some position ->
      entry.createdAt < position.createdAt + 1 := by
  rcases asks with ⟨type, tag, family, batch, trace, search, ids, before, after⟩
  refine ⟨⟨type, tag, family, batch, trace, search, ids, ?_, after⟩, ?_⟩
  · exact fun bound isBound => lt_of_mem_minBound before (.inl isBound)
  · intro position isPosition
    exact lt_of_mem_minBound before (.inr (congrArg (Option.map _) isPosition))

theorem project_hotQuery (query : EntryQuery) (count : Nat) (cursor : Option Text)
    (entry : Entry C) : { hotQuery query count with cursor := cursor }.project entry =
      query.project entry := rfl

omit [JsonContent C] in
theorem returned_project [JsonContent C] (position : Option Position) (query : EntryQuery)
    (entry : Entry C) : returned position (query.project entry) = returned position entry := by
  rw [EntryQuery.project]
  split <;> rfl

variable {reads : Text -> Option Position} {hot : List (Entry C)} {hotGet : EntryQuery -> Page C}

theorem hotPages_sound (answers : HotAnswers reads hot hotGet) (query : EntryQuery) {count : Nat} (positive : 0 < count)
    (pages : Nat) (cursor : Option Text) {out : List (Entry C)}
    (sound : forall entry, entry ∈ out -> AnswersWith hot query entry) :
    forall entry, entry ∈ hotPages hotGet (query.cursor.bind decodeCursor) (hotQuery query count)
      count pages cursor out -> AnswersWith hot query entry := by
  induction pages generalizing cursor out with
  | zero => exact sound
  | succ pages inductionHypothesis =>
      have read : forall entry, entry ∈ out ++
          (hotGet { hotQuery query count with cursor := cursor }).data.filter
            (fun entry => !returned (query.cursor.bind decodeCursor) entry) ->
          AnswersWith hot query entry := by
        intro entry member
        rcases List.mem_append.mp member with before | now
        · exact sound entry before
        · rcases List.mem_filter.mp now with ⟨listed, fresh⟩
          rw [(answers _ count rfl positive).data] at listed
          rcases List.mem_map.mp (List.mem_of_mem_filter (List.mem_of_mem_take listed)) with
            ⟨original, found, rfl⟩
          rcases List.mem_filter.mp (mem_sortNewestFirst.mp found) with ⟨stored, asks⟩
          rcases matches_of_hotQuery cursor (of_decide_eq_true asks) with ⟨matching, older⟩
          rw [project_hotQuery, returned_project, Bool.not_eq_true'] at fresh
          exact ⟨original, stored, matching, behindCursor_of_not_returned older fresh, rfl⟩
      simp only [hotPages]
      split
      · exact read
      · split
        · exact read
        · exact inductionHypothesis _ read

theorem hotPage_sound (answers : HotAnswers reads hot hotGet) (query : EntryQuery) (count : Nat) :
    forall entry, entry ∈ hotPage hotGet query (count + 1) ->
      AnswersWith hot query entry :=
  fun entry member => hotPages_sound answers query (Nat.succ_pos count) _ _
    (fun _ nothing => (List.not_mem_nil nothing).elim) entry
    (mem_sortNewestFirst.mp (List.mem_of_mem_take member))

omit [JsonContent C] in
theorem cursor_coldQuery (query : EntryQuery) (hot : List (Entry C)) (limit : Nat) :
    (coldQuery query hot limit).cursor = query.cursor := by
  simp only [coldQuery]
  split
  · split <;> rfl
  · rfl

theorem project_coldQuery (query : EntryQuery) (hot : List (Entry C)) (limit : Nat)
    (entry : Entry C) : (coldQuery query hot limit).project entry = query.project entry := by
  simp only [coldQuery]
  split
  · split <;> rfl
  · rfl

/-- The cold tier is asked for no more than the query asks for. -/
theorem matches_of_coldQuery {limit : Nat} {entry : Entry C} (asks : (coldQuery query hot limit).Matches entry) :
    query.Matches entry := by
  have missing : { query with ids := missingIds query hot }.Matches entry -> query.Matches entry := by
    rintro ⟨type, tag, family, batch, trace, search, ids, before, after⟩
    refine ⟨type, tag, family, batch, trace, search, fun asked isAsked => ?_, before, after⟩
    exact List.mem_of_mem_filter (ids _ (Option.mem_map_of_mem _ isAsked))
  simp only [coldQuery] at asks
  split at asks
  · split at asks
    · rename_i lastHot _ bounded
      rcases asks with ⟨type, tag, family, batch, trace, search, ids, before, after⟩
      refine missing ⟨type, tag, family, batch, trace, search, ids, before, fun asked isAsked => ?_⟩
      rw [isAsked] at bounded
      exact (of_decide_eq_true bounded).trans (after _ rfl)
    · exact missing asks
  · exact missing asks

variable {rows : List (Entry C)}

theorem answersWith_coldQuery {limit : Nat} {entry : Entry C}
    (answers : AnswersWith rows (coldQuery query hot limit) entry) :
    AnswersWith rows query entry := by
  rcases answers with ⟨original, stored, asks, behind, projected⟩
  rw [cursor_coldQuery] at behind
  rw [project_coldQuery] at projected
  exact ⟨original, stored, matches_of_coldQuery asks, behind, projected⟩

/-- A page opens a list of entries that a query asks of the tiers, in page
order, each once. -/
structure Merges (hot rows : List (Entry C)) (query : EntryQuery) (merged : List (Entry C))
    (page : Page C) : Prop where
  page : page.toPage = Keyset.firstPage cursorOf (pageLimit query) merged
  distinct : Entry.DistinctIds merged
  sorted : NewestFirst merged
  sound : forall entry, entry ∈ merged -> AnswersWith hot query entry ∨ AnswersWith rows query entry

theorem merges_page {hotPage cold : List (Entry C)}
    (hotSound : forall entry, entry ∈ hotPage -> AnswersWith hot query entry)
    (coldSound : forall entry, entry ∈ cold -> AnswersWith rows query entry) (partialRead : Bool) :
    Merges hot rows query (sortNewestFirst (dedupe (hotPage ++ cold)))
      (page hotPage cold (pageLimit query) partialRead) where
  page := rfl
  distinct := ((sortNewestFirst_perm _).map Entry.id).nodup_iff.mpr (distinctIds_dedupe _)
  sorted := newestFirst_sort (distinctIds_dedupe _)
  sound := by
    intro entry member
    rcases List.mem_append.mp (mem_of_mem_dedupe (mem_sortNewestFirst.mp member)) with inHot | inCold
    · exact .inl (hotSound entry inHot)
    · exact .inr (coldSound entry inCold)

/-- Every page of the tiers is of this kind. -/
theorem exists_merges_get {coldRead : EntryQuery -> Nat -> Option (List (Entry C))}
    (hotAnswers : HotAnswers reads hot hotGet) (coldAnswers : ColdAnswers rows coldRead) (query : EntryQuery) :
    Exists fun merged => Merges hot rows query merged (get hotGet coldRead query) := by
  have hotSound := hotPage_sound hotAnswers query (pageLimit query)
  have nothing : forall entry, entry ∈ ([] : List (Entry C)) -> AnswersWith rows query entry :=
    fun _ member => (List.not_mem_nil member).elim
  simp only [get]
  split
  · refine ⟨[], ?_, List.nodup_nil, List.Pairwise.nil, fun _ member => ?_⟩
    · rw [Keyset.firstPage, List.take_nil, List.length_nil, if_neg (Nat.not_lt_zero _)]
    · exact (List.not_mem_nil member).elim
  · split
    · exact ⟨_, merges_page hotSound nothing false⟩
    · split
      · rename_i cold found
        refine ⟨_, merges_page hotSound (fun entry member => ?_) false⟩
        exact answersWith_coldQuery (coldAnswers _ _ cold found entry member)
      · exact ⟨_, merges_page hotSound nothing true⟩

omit [JsonContent C] in
theorem Merges.sublist [JsonContent C] {merged : List (Entry C)} {page : Page C}
    (merges : Merges hot rows query merged page) :
    page.data.Sublist merged := by
  rw [merges.page]
  exact List.take_sublist ..

/-- The cursor of a page is that of its last entry. -/
theorem Merges.last {merged : List (Entry C)} {page : Page C} (merges : Merges hot rows query merged page)
    {cursor : Text} (next : page.nextCursor = some cursor) :
    Exists fun last => page.data.getLast? = some last ∧ decodeCursor cursor = some last.position := by
  rw [merges.page, Keyset.firstPage] at next
  rw [merges.page, Keyset.firstPage]
  by_cases more : pageLimit query < merged.length
  · rw [if_pos more] at next
    rcases Option.map_eq_some_iff.mp next with ⟨last, isLast, rfl⟩
    exact ⟨last, isLast, decodeCursor_encodeCursor last.position⟩
  · rw [if_neg more] at next
    cases next

end Tiered
end Parquet
end Telescope
