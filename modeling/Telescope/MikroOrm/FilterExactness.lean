import Telescope.MikroOrm.Store
import Telescope.Sqlite.Store

namespace Telescope

universe u

open Like

/-!
# What SQL filters select

A filter is exact when it selects what the interface says: the entries that hold the tag,
those whose content contains the searched text without regard to case, the tags that start
with the prefix.  The providers put the text of the filter into a pattern, where a percent
sign, an underscore and an escape are not themselves, and tags into one text, where a space
ends a tag.

Of texts without special characters it is known what they select: a tag, every entry with a
word of a tag that is the same in the collation; a searched text, every content with a part
that is the same; a prefix, every tag that starts the same.
-/

variable {C : Type u}

/-! ## Exactness -/

/-- A query that reaches every row returns exactly the entries that are asked for. -/
def ReturnsExactly (get : EntryQuery -> Page C) (query : EntryQuery) (table : EntryTable C)
    (wanted : Entry C -> Prop) : Prop :=
  forall limit : Int, table.rows.length ≤ limit -> 0 < limit -> forall entry,
    entry ∈ (get { query with limit := some limit }).data <-> entry ∈ table.rows ∧ wanted entry

/-- The tags that a prefix selects are those that start with it, with the number of times
they are held. -/
def CountsExactly (table : EntryTable C) (start : Text) : Prop :=
  forall tag count, (Exists fun row => row ∈ Sqlite.tags table (some start) ∧ row.tag = tag ∧ row.count = count) <->
    (start <+: tag ∧ count = (Sqlite.tagRows table).count tag ∧ 0 < count)

/-- Every filter of the two providers is exact on what they hold. -/
def FiltersExact [JsonContent C] (driver : MikroOrm.Driver C) (table : EntryTable C) (tag search start : Text) :
    Prop :=
  ReturnsExactly (MikroOrm.get driver table) { tag := some tag } table (fun entry => tag ∈ entry.tags) ∧
    ReturnsExactly (Sqlite.get table) { search := some search } table
      (fun entry => contentIncludes entry.content search = true) ∧
    ReturnsExactly (MikroOrm.get driver table) { search := some search } table
      (fun entry => contentIncludes entry.content search = true) ∧
    CountsExactly table start

/-! ## What a page holds -/

theorem mem_take_take {α : Type u} {rows : List α} {limit : Nat} (reaches : rows.length ≤ limit) {row : α} :
    row ∈ (rows.take (limit + 1)).take limit <-> row ∈ rows := by
  rw [List.take_take, Nat.min_eq_left (Nat.le_succ limit), List.take_of_length_le reaches]

theorem toNat_reaches {size : Nat} {limit : Int} (reaches : size ≤ limit) : size ≤ limit.toNat := by omega

theorem project_whole [JsonContent C] {query : EntryQuery} (whole : query.omitContent = false)
    (entries : List (Entry C)) : entries.map query.project = entries := by
  have same : (query.project : Entry C -> Entry C) = id := funext fun entry => by
    rw [EntryQuery.project, whole]
    exact if_neg Bool.false_ne_true
  rw [same, List.map_id]

theorem mem_get_sqlite [JsonContent C] {table : EntryTable C} {query : EntryQuery} (asked : query.ids = none)
    (whole : query.omitContent = false) {limit : Int} (reaches : table.rows.length ≤ limit) (positive : 0 < limit)
    (entry : Entry C) : entry ∈ (Sqlite.get table { query with limit := some limit }).data <->
      entry ∈ table.rows ∧ Sqlite.whereQuery query entry = true := by
  have notEmpty : ¬ query.ids = some [] := by
    rw [asked]
    exact fun impossible => by cases impossible
  have perm := Collation.bytes.orderByNewest_perm (table.rows.filter (Sqlite.whereQuery query))
  have within : (Collation.bytes.orderByNewest (table.rows.filter (Sqlite.whereQuery query))).length ≤ limit.toNat :=
    perm.length_eq.le.trans ((List.length_filter_le _ _).trans (toNat_reaches reaches))
  have limited : Sqlite.limitOf (some limit) = limit.toNat := if_pos positive
  rw [Sqlite.get, if_neg notEmpty]
  dsimp only
  rw [@project_whole _ _ { query with limit := some limit } whole, limited]
  exact (mem_take_take within).trans (perm.mem_iff.trans List.mem_filter)

theorem mem_get_mikroOrm [JsonContent C] {driver : MikroOrm.Driver C} {table : EntryTable C} {query : EntryQuery}
    (asked : query.ids = none) (whole : query.omitContent = false) {limit : Int}
    (reaches : table.rows.length ≤ limit) (positive : 0 < limit) (entry : Entry C) :
    entry ∈ (MikroOrm.get driver table { query with limit := some limit }).data <->
      entry ∈ table.rows ∧ MikroOrm.whereQuery driver query entry = true := by
  have notEmpty : ¬ query.ids = some [] := by
    rw [asked]
    exact fun impossible => by cases impossible
  have perm := driver.collation.orderByNewest_perm (table.rows.filter (MikroOrm.whereQuery driver query))
  have within : (driver.collation.orderByNewest
      (table.rows.filter (MikroOrm.whereQuery driver query))).length ≤ limit.toNat :=
    perm.length_eq.le.trans ((List.length_filter_le _ _).trans (toNat_reaches reaches))
  have limited : MikroOrm.resolveLimit (some limit) = limit.toNat := if_pos positive
  rw [MikroOrm.get, if_neg notEmpty]
  dsimp only
  rw [@project_whole _ _ { query with limit := some limit } whole, limited]
  exact (mem_take_take within).trans (perm.mem_iff.trans List.mem_filter)

/-- A query returns exactly what is asked for where its condition says so of every row. -/
theorem returnsExactly_iff {get : EntryQuery -> Page C} {query : EntryQuery} {table : EntryTable C}
    {wanted : Entry C -> Prop} {condition : Entry C -> Bool}
    (selects : forall limit : Int, table.rows.length ≤ limit -> 0 < limit -> forall entry,
      entry ∈ (get { query with limit := some limit }).data <-> entry ∈ table.rows ∧ condition entry = true) :
    ReturnsExactly get query table wanted <->
      forall entry, entry ∈ table.rows -> (condition entry = true <-> wanted entry) := by
  constructor
  · intro exact entry stored
    have reaches : (table.rows.length : Int) ≤ table.rows.length + 1 := by omega
    have positive : (0 : Int) < table.rows.length + 1 := by omega
    have both := (selects _ reaches positive entry).symm.trans (exact _ reaches positive entry)
    exact ⟨fun holds => (both.mp ⟨stored, holds⟩).2, fun holds => (both.mpr ⟨stored, holds⟩).2⟩
  · intro same limit reaches positive entry
    rw [selects limit reaches positive entry]
    exact and_congr_right (same entry)

/-! ## Single filters -/

theorem whereQuery_tag (driver : MikroOrm.Driver C) (tag : Text) (row : Entry C) :
    MikroOrm.whereQuery driver { tag := some tag } row =
      driver.tagsText.like (['%', ' '] ++ tag ++ [' ', '%']) (MikroOrm.padTags row.tags) := by
  simp only [MikroOrm.whereQuery, MikroOrm.behindPosition, Option.bind_none, Option.all_none, Option.all_some,
    Bool.true_and, Bool.and_true]

theorem whereQuery_search_mikroOrm (driver : MikroOrm.Driver C) (search : Text) (row : Entry C) :
    MikroOrm.whereQuery driver { search := some search } row =
      driver.content.like ('%' :: (search ++ ['%'])) (driver.contentText row.content) := by
  simp only [MikroOrm.whereQuery, MikroOrm.behindPosition, Option.bind_none, Option.all_none, Option.all_some,
    Bool.true_and]

theorem whereQuery_search_sqlite [JsonContent C] (search : Text) (row : Entry C) :
    Sqlite.whereQuery { search := some search } row =
      Sqlite.like.like ('%' :: (search ++ ['%'])) (JsonContent.stringify row.content) := by
  simp only [Sqlite.whereQuery, behindCursor, Option.bind_none, Option.all_none, Option.all_some, Bool.true_and,
    Bool.and_true]

/-! ## Tags -/

theorem padTags_eq (tags : List Text) : MikroOrm.padTags tags = Like.padded ' ' tags := by
  have joined : forall (tag : Text) (tags : List Text),
      ((tag :: tags).intersperse [' ']).flatten ++ [' '] = (tag :: tags).flatMap fun tag => tag ++ [' '] := by
    intro tag tags
    induction tags generalizing tag with
    | nil => simp
    | cons next tags inductionHypothesis =>
        rw [List.intersperse_cons_cons, List.flatten_cons, List.flatten_cons, List.flatMap_cons, ← inductionHypothesis]
        simp only [List.append_assoc]
  cases tags with
  | nil => rfl
  | cons tag tags =>
      refine (if_neg (List.cons_ne_nil tag tags ∘ List.length_eq_zero_iff.mp)).trans ?_
      rw [joined]
      rfl

/-- A tag without special characters is found where it is a word of a tag. -/
theorem like_padTags {dialect : Dialect} (space : dialect.escape ≠ some ' ') {tag : Text}
    (plain : forall character, character ∈ tag -> dialect.Literal character ∧ dialect.same ' ' character = false)
    (tags : List Text) : dialect.like (['%', ' '] ++ tag ++ [' ', '%']) (MikroOrm.padTags tags) = true <->
      Exists fun stored => stored ∈ tags ∧
        Exists fun word => word ∈ stored.splitOnP (dialect.same ' ') ∧ dialect.SameText tag word := by
  have literal : forall character, character ∈ ' ' :: (tag ++ [' ']) -> dialect.Literal character := by
    have spaceLiteral : dialect.Literal ' ' := ⟨by decide, by decide, space⟩
    rw [List.forall_mem_cons, List.forall_mem_append]
    exact ⟨spaceLiteral, fun character member => (plain character member).1,
      List.forall_mem_singleton.mpr spaceLiteral⟩
  have pattern : ['%', ' '] ++ tag ++ [' ', '%'] = '%' :: ((' ' :: (tag ++ [' '])) ++ ['%']) := by
    simp only [List.cons_append, List.nil_append, List.append_assoc]
  rw [pattern, Dialect.like_part literal, padTags_eq]
  have between : dialect.HasPart (' ' :: (tag ++ [' '])) (Like.padded ' ' tags) <->
      Exists fun word => dialect.SameText tag word ∧ Between (dialect.same ' ') word (Like.padded ' ' tags) := by
    constructor
    · rintro ⟨front, middle, back, split, same⟩
      rcases @Dialect.SameText.split dialect [' '] _ _ same with ⟨opening, rest, rfl, opens, sameRest⟩
      rcases sameRest.split with ⟨word, closing, rfl, sameWord, closes⟩
      cases opens with
      | cons opens none =>
          cases none
          cases closes with
          | cons closes none =>
              cases none
              refine ⟨word, sameWord, front, _, _, back, ?_, opens, closes⟩
              rw [split]
              simp only [List.cons_append, List.nil_append, List.append_assoc]
    · rintro ⟨word, sameWord, front, opening, closing, back, split, opens, closes⟩
      refine ⟨front, opening :: (word ++ [closing]), back, ?_, .cons opens (sameWord.append (.cons closes .nil))⟩
      rw [split]
      simp only [List.cons_append, List.nil_append, List.append_assoc]
  rw [between]
  constructor
  · rintro ⟨word, same, stands⟩
    have whole : Unseparated (dialect.same ' ') word := same.apart fun character member => (plain character member).2
    rcases (between_padded whole (dialect.equivalence.refl ' ') tags).mp stands with ⟨stored, member, isWord⟩
    exact ⟨stored, member, word, isWord, same⟩
  · rintro ⟨stored, member, word, isWord, same⟩
    have whole : Unseparated (dialect.same ' ') word := same.apart fun character member => (plain character member).2
    exact ⟨word, same, (between_padded whole (dialect.equivalence.refl ' ') tags).mpr ⟨stored, member, isWord⟩⟩

/-- A tag that is held is found, and so is one that is a word of another. -/
theorem tagsExact_iff [JsonContent C] {driver : MikroOrm.Driver C} (space : driver.tagsText.escape ≠ some ' ')
    {tag : Text} (plain : forall character, character ∈ tag ->
      driver.tagsText.Literal character ∧ driver.tagsText.same ' ' character = false) (table : EntryTable C) :
    ReturnsExactly (MikroOrm.get driver table) { tag := some tag } table (fun entry => tag ∈ entry.tags) <->
      forall entry, entry ∈ table.rows ->
        (Exists fun stored => stored ∈ entry.tags ∧ Exists fun word =>
          word ∈ stored.splitOnP (driver.tagsText.same ' ') ∧ driver.tagsText.SameText tag word) ->
        tag ∈ entry.tags := by
  rw [returnsExactly_iff fun limit reaches positive entry =>
    @mem_get_mikroOrm C _ driver table { tag := some tag } rfl rfl limit reaches positive entry]
  refine forall_congr' fun entry => forall_congr' fun _stored => ?_
  rw [whereQuery_tag, like_padTags space plain]
  refine ⟨Iff.mp, fun only => ⟨only, fun held => ⟨tag, held, tag, ?_, Dialect.SameText.refl tag⟩⟩⟩
  rw [List.splitOnP_eq_singleton fun character member => (plain character member).2]
  exact List.mem_singleton_self tag

/-! ## Searched texts -/

theorem searchExact_sqlite_iff [JsonContent C] {search : Text}
    (plain : forall character, character ∈ search -> Sqlite.like.Literal character) (table : EntryTable C) :
    ReturnsExactly (Sqlite.get table) { search := some search } table
        (fun entry => contentIncludes entry.content search = true) <->
      forall entry, entry ∈ table.rows ->
        (Sqlite.like.HasPart search (JsonContent.stringify entry.content) <->
          contentIncludes entry.content search = true) := by
  rw [returnsExactly_iff fun limit reaches positive entry =>
    @mem_get_sqlite C _ table { search := some search } rfl rfl limit reaches positive entry]
  refine forall_congr' fun entry => forall_congr' fun _stored => ?_
  rw [whereQuery_search_sqlite, Dialect.like_part plain]

theorem searchExact_mikroOrm_iff [JsonContent C] {driver : MikroOrm.Driver C} {search : Text}
    (plain : forall character, character ∈ search -> driver.content.Literal character) (table : EntryTable C) :
    ReturnsExactly (MikroOrm.get driver table) { search := some search } table
        (fun entry => contentIncludes entry.content search = true) <->
      forall entry, entry ∈ table.rows ->
        (driver.content.HasPart search (driver.contentText entry.content) <->
          contentIncludes entry.content search = true) := by
  rw [returnsExactly_iff fun limit reaches positive entry =>
    @mem_get_mikroOrm C _ driver table { search := some search } rfl rfl limit reaches positive entry]
  refine forall_congr' fun entry => forall_congr' fun _stored => ?_
  rw [whereQuery_search_mikroOrm, Dialect.like_part plain]

/-! ## Prefixes -/

theorem mem_tags_iff {table : EntryTable C} {start tag : Text} {count : Nat} :
    (Exists fun row => row ∈ Sqlite.tags table (some start) ∧ row.tag = tag ∧ row.count = count) <->
      Sqlite.like.like (start ++ ['%']) tag = true ∧ count = (Sqlite.tagRows table).count tag ∧ 0 < count := by
  have counted : Sqlite.like.like (start ++ ['%']) tag = true ->
      ((Sqlite.tagRows table).filter fun tag => Sqlite.like.like (start ++ ['%']) tag).count tag =
        (Sqlite.tagRows table).count tag := fun selected => List.count_filter selected
  have selectedRows : (fun tag => (some start).all fun start => Sqlite.like.like (start ++ ['%']) tag) =
      fun tag => Sqlite.like.like (start ++ ['%']) tag := funext fun tag => Option.all_some
  rw [Sqlite.tags, selectedRows]
  constructor
  · rintro ⟨row, member, rfl, rfl⟩
    rcases List.mem_map.mp ((List.mem_insertionSort _).mp member) with ⟨selected, isSelected, rfl⟩
    rcases List.mem_filter.mp (List.mem_dedup.mp isSelected) with ⟨held, selects⟩
    refine ⟨selects, counted selects, ?_⟩
    dsimp only
    rw [List.count_filter selects]
    exact List.count_pos_iff.mpr held
  · rintro ⟨selects, rfl, positive⟩
    refine ⟨_, (List.mem_insertionSort _).mpr (List.mem_map.mpr ⟨tag, ?_, rfl⟩), rfl, counted selects⟩
    exact List.mem_dedup.mpr (List.mem_filter.mpr ⟨List.count_pos_iff.mp positive, selects⟩)

/-- A prefix is counted exactly where what starts the same starts with it. -/
theorem countsExactly_iff {table : EntryTable C} {start : Text}
    (plain : forall character, character ∈ start -> Sqlite.like.Literal character) :
    CountsExactly table start <-> forall tag, tag ∈ Sqlite.tagRows table ->
      Sqlite.like.HasStart start tag -> start <+: tag := by
  simp only [CountsExactly, mem_tags_iff, Dialect.like_start plain]
  constructor
  · intro exact tag held starts
    exact ((exact tag _).mp ⟨starts, rfl, List.count_pos_iff.mpr held⟩).1
  · intro only tag count
    constructor
    · rintro ⟨starts, rfl, positive⟩
      exact ⟨only tag (List.count_pos_iff.mp positive) starts, rfl, positive⟩
    · rintro ⟨⟨back, rfl⟩, counted⟩
      exact ⟨⟨start, back, rfl, Dialect.SameText.refl start⟩, counted⟩

/-! ## All filters -/

/-- No character of a filter is special in the pattern it is put into, and the tag has no
space. -/
structure PlainFilters (driver : MikroOrm.Driver C) (tag search start : Text) : Prop where
  space : driver.tagsText.escape ≠ some ' '
  tag : forall character, character ∈ tag ->
    driver.tagsText.Literal character ∧ driver.tagsText.same ' ' character = false
  sqliteSearch : forall character, character ∈ search -> Sqlite.like.Literal character
  search : forall character, character ∈ search -> driver.content.Literal character
  start : forall character, character ∈ start -> Sqlite.like.Literal character

/-- What the collations cannot tell apart, the stored entries do not need told apart. -/
structure FiltersAgree [JsonContent C] (driver : MikroOrm.Driver C) (table : EntryTable C) (tag search start : Text) :
    Prop where
  tag : forall entry, entry ∈ table.rows ->
    (Exists fun stored => stored ∈ entry.tags ∧ Exists fun word =>
      word ∈ stored.splitOnP (driver.tagsText.same ' ') ∧ driver.tagsText.SameText tag word) -> tag ∈ entry.tags
  sqliteSearch : forall entry, entry ∈ table.rows ->
    (Sqlite.like.HasPart search (JsonContent.stringify entry.content) <-> contentIncludes entry.content search = true)
  search : forall entry, entry ∈ table.rows ->
    (driver.content.HasPart search (driver.contentText entry.content) <-> contentIncludes entry.content search = true)
  start : forall stored, stored ∈ Sqlite.tagRows table -> Sqlite.like.HasStart start stored -> start <+: stored

/-- Filters without special characters are exact where the stored entries agree with the
collations: a word of a tag that is the same as the tag comes with the tag, the searched
text is part of a content up to the collation where it is up to case, and a tag that starts
the same as the prefix starts with it. -/
theorem filtersExact_iff [JsonContent C] {driver : MikroOrm.Driver C} {tag search start : Text}
    (plain : PlainFilters driver tag search start) (table : EntryTable C) :
    FiltersExact driver table tag search start <-> FiltersAgree driver table tag search start := by
  rw [FiltersExact, tagsExact_iff plain.space plain.tag, searchExact_sqlite_iff plain.sqliteSearch,
    searchExact_mikroOrm_iff plain.search, countsExactly_iff plain.start]
  exact ⟨fun all => ⟨all.1, all.2.1, all.2.2.1, all.2.2.2⟩,
    fun agree => ⟨agree.tag, agree.sqliteSearch, agree.search, agree.start⟩⟩

/-- SQLite behind MikroORM. -/
def sqliteDriver : MikroOrm.Driver Text where
  collation := Collation.bytes
  tagsText := Sqlite.like
  content := Sqlite.like
  contentText := JsonContent.stringify

/-- A table of one entry with a tag. -/
def taggedTable (tag : Text) : EntryTable Text where
  rows := [{ plainEntry "1".toList "request".toList 0 with tags := [tag] }]
  distinct := List.nodup_singleton _

theorem forall_mem_of_all {property : Char -> Prop} [DecidablePred property] {text : Text}
    (all : (text.all fun character => decide (property character)) = true) :
    forall character, character ∈ text -> property character :=
  fun character member => of_decide_eq_true (List.all_eq_true.mp all character member)

theorem filtersExact_iff_tagged :
    PlainFilters sqliteDriver "user:1".toList "get".toList "user:".toList ∧
      (FiltersExact sqliteDriver (taggedTable "user:1".toList) "user:1".toList "get".toList "user:".toList <->
        FiltersAgree sqliteDriver (taggedTable "user:1".toList) "user:1".toList "get".toList "user:".toList) := by
  have plain : PlainFilters sqliteDriver "user:1".toList "get".toList "user:".toList :=
    { space := fun impossible => by cases impossible
      tag := forall_mem_of_all (by decide +kernel)
      sqliteSearch := forall_mem_of_all (by decide +kernel)
      search := forall_mem_of_all (by decide +kernel)
      start := forall_mem_of_all (by decide +kernel) }
  exact ⟨plain, filtersExact_iff plain _⟩

/-- An underscore in a tag stands for any character. -/
theorem underscore_not_exact : ¬ FiltersExact sqliteDriver (taggedTable "user:1".toList) "user_1".toList "get".toList
    "user:".toList := by
  intro exact
  rw [FiltersExact, returnsExactly_iff fun limit reaches positive entry =>
    @mem_get_mikroOrm Text _ sqliteDriver (taggedTable "user:1".toList) { tag := some "user_1".toList } rfl rfl limit
      reaches positive entry] at exact
  have found := (exact.1 _ List.mem_cons_self).mp (by decide +kernel)
  exact absurd found (by decide)

end Telescope
