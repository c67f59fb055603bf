import Telescope.Parquet.TieredPage

namespace Telescope
namespace Parquet
namespace Tiered

/-!
# Paging over two tiers

Between two pages entries may be archived, and deleted from the hot store once
they are in the cold tier.  What queries ask for has a copy in one tier or the
other all along, so the pages are cut from one list and following the cursors
visits it once.
-/

variable {C : Type} [JsonContent C]

/-! ## Entries that move -/

/-- Hot entries are written to the cold tier, and are deleted once they are there. -/
inductive Move (readBack : C -> C) : Contents C -> Contents C -> Prop
  | archive {contents : Contents C} {entries : List (Entry C)}
      (isHot : forall entry, entry ∈ entries -> entry ∈ contents.hot) :
      Move readBack contents { contents with files := write readBack contents.files entries }
  | delete {contents : Contents C} {stays : Entry C -> Bool}
      (archived : forall entry, entry ∈ contents.hot -> stays entry = false ->
        asRow readBack entry ∈ coldRows contents.files) :
      Move readBack contents { contents with hot := contents.hot.filter stays }

/-- Every entry has a copy that is asked for by the same queries. -/
def Covers (stored now : List (Entry C)) : Prop :=
  forall entry, entry ∈ stored -> Exists fun copy => copy ∈ now ∧ copy.position = entry.position ∧
    forall query : EntryQuery, query.Matches copy <-> query.Matches entry

theorem Covers.of_subset {stored now : List (Entry C)}
    (subset : forall entry, entry ∈ stored -> entry ∈ now) : Covers stored now :=
  fun entry member => ⟨entry, subset entry member, rfl, fun _ => Iff.rfl⟩

theorem Covers.trans {first second third : List (Entry C)} (earlier : Covers first second)
    (later : Covers second third) : Covers first third := by
  intro entry member
  rcases earlier entry member with ⟨copy, isCopy, position, asks⟩
  rcases later copy isCopy with ⟨last, isLast, again, asksAgain⟩
  exact ⟨last, isLast, again.trans position, fun query => (asksAgain query).trans (asks query)⟩

theorem Covers.lists {stored now : List (Entry C)} (covers : Covers stored now) {query : EntryQuery}
    {position : Position} (lists : Lists query stored position) : Lists query now position := by
  rcases lists with ⟨entry, isStored, asks, rfl⟩
  rcases covers entry isStored with ⟨copy, isCopy, same, asksSame⟩
  exact ⟨copy, isCopy, (asksSame query).mpr asks, same⟩

theorem Covers.agrees {stored now : List (Entry C)} (covers : Covers now stored)
    (agrees : Agrees stored) : Agrees now :=
  agrees.of_positions fun entry member => by
    rcases covers entry member with ⟨copy, isCopy, same, _⟩
    exact ⟨copy, isCopy, same⟩

/-- A query asks for a row where it asks for the entry, as JSON keeps its text. -/
theorem matches_asRow {readBack : C -> C}
    (keepsText : forall content, JsonContent.stringify (readBack content) = JsonContent.stringify content)
    (query : EntryQuery) (entry : Entry C) :
    query.Matches (asRow readBack entry) <-> query.Matches entry := by
  simp only [EntryQuery.Matches, asRow, contentIncludes, keepsText]

/-- What is stored before a move and after it are copies of each other. -/
theorem Move.covers {readBack : C -> C}
    (keepsText : forall content, JsonContent.stringify (readBack content) = JsonContent.stringify content)
    {contents now : Contents C} (move : Move readBack contents now) :
    Covers contents.stored now.stored ∧ Covers now.stored contents.stored := by
  cases move with
  | archive isHot =>
      constructor
      · refine Covers.of_subset fun entry isStored => ?_
        rcases List.mem_append.mp isStored with hot | cold
        · exact List.mem_append_left _ hot
        · rcases mem_coldRows.mp cold with ⟨file, isFile, inFile⟩
          exact List.mem_append_right _ (mem_coldRows.mpr ⟨file, List.mem_append_left _ isFile, inFile⟩)
      · intro entry isStored
        rcases List.mem_append.mp isStored with hot | cold
        · exact Covers.of_subset (fun _ => id) entry (List.mem_append_left _ hot)
        · rcases mem_coldRows_write cold with before | ⟨original, isOriginal, rfl⟩
          · exact Covers.of_subset (fun _ => id) entry (List.mem_append_right _ before)
          · exact ⟨original, List.mem_append_left _ (isHot original isOriginal), rfl,
              fun query => (matches_asRow keepsText query original).symm⟩
  | @delete stays archived =>
      constructor
      · intro entry isStored
        rcases List.mem_append.mp isStored with hot | cold
        · cases kept : stays entry with
          | true =>
              exact Covers.of_subset (fun _ => id) entry
                (List.mem_append_left _ (List.mem_filter.mpr ⟨hot, kept⟩))
          | false =>
              exact ⟨asRow readBack entry, List.mem_append_right _ (archived entry hot kept), rfl,
                fun query => matches_asRow keepsText query entry⟩
        · exact Covers.of_subset (fun _ => id) entry (List.mem_append_right _ cold)
      · refine Covers.of_subset fun entry isStored => ?_
        rcases List.mem_append.mp isStored with hot | cold
        · exact List.mem_append_left _ (List.mem_of_mem_filter hot)
        · exact List.mem_append_right _ cold

theorem covers_of_moves {readBack : C -> C}
    (keepsText : forall content, JsonContent.stringify (readBack content) = JsonContent.stringify content)
    {contents now : Contents C} (moves : Relation.ReflTransGen (Move readBack) contents now) :
    Covers contents.stored now.stored ∧ Covers now.stored contents.stored := by
  induction moves with
  | refl => exact ⟨Covers.of_subset fun _ => id, Covers.of_subset fun _ => id⟩
  | tail _ move inductionHypothesis =>
      have step := move.covers keepsText
      exact ⟨inductionHypothesis.1.trans step.1, step.2.trans inductionHypothesis.2⟩

/-- Contents that cover each other have the same listing. -/
theorem listing_eq_of_covers {stored now : List (Entry C)} (agrees : Agrees stored)
    (forward : Covers stored now) (backward : Covers now stored) (query : EntryQuery) :
    (listing query now).map Entry.position = (listing query stored).map Entry.position := by
  have distinct : forall stored : List (Entry C),
      ((listing query stored).map Entry.position).Nodup := fun stored =>
    (listing_sorted query stored).imp fun {first second} newer same => by
      subst same
      exact Position.newer_asymm newer newer
  refine List.Perm.eq_of_pairwise (fun _ _ _ _ newer older => (Position.newer_asymm newer older).elim)
    (listing_sorted query now) (listing_sorted query stored)
    ((List.perm_ext_iff_of_nodup (distinct now) (distinct stored)).mpr fun position => ?_)
  rw [mem_listing (backward.agrees agrees), mem_listing agrees]
  exact ⟨backward.lists, forward.lists⟩

/-- The page that the tiers answer at a step with. -/
def readAt (sources : Nat -> Source C) (query : EntryQuery) (step : Nat) (cursor : Option Text) :
    Keyset.Page (Entry C) Text :=
  (get (sources step).hotGet (sources step).coldRead { query with cursor := cursor }).toPage

/-- Following the cursors visits every distinct entry that either tier holds and
the query asks for once, in page order, also while entries move, as long as the
hot pages of each call reach. -/
theorem tiered_paging {C : Type} [JsonContent C] (readBack : C -> C)
    (keepsText : forall content, JsonContent.stringify (readBack content) = JsonContent.stringify content)
    (sources : Nat -> Source C) (honours : forall step, (sources step).Honours)
    (agrees : Agrees (sources 0).stored)
    (moves : forall step, Relation.ReflTransGen (Move readBack) (sources step).toContents
      (sources (step + 1)).toContents)
    (query : EntryQuery)
    (reaches : forall step cursor, Keyset.Asked (readAt sources query) step cursor ->
      Reaches { query with cursor := cursor } (sources step).hot) :
    Exists fun pages =>
      Keyset.followThrough (readAt sources query) ((listing query (sources 0).stored).length + 1) 0
        none = some pages ∧
      pages.flatten.map Entry.position = (listing query (sources 0).stored).map Entry.position ∧
      forall data, data ∈ pages -> data.length ≤ pageLimit query := by
  have covers : forall step, Covers (sources 0).stored (sources step).stored ∧
      Covers (sources step).stored (sources 0).stored := by
    intro step
    induction step with
    | zero => exact covers_of_moves keepsText .refl
    | succ step inductionHypothesis =>
        have moved := covers_of_moves keepsText (moves step)
        exact ⟨inductionHypothesis.1.trans moved.1, moved.2.trans inductionHypothesis.2⟩
  have opens : forall step visited remaining,
      Keyset.Asked (readAt sources query) step visited.getLast? ->
      ((listing query (sources 0).stored).map Entry.position).map encodeCursor = visited ++ remaining ->
        Keyset.OpensKeys cursorOf (pageLimit query) remaining
          (readAt sources query step visited.getLast?) := by
    intro step visited remaining asked split
    rcases List.map_eq_append_iff.mp split with ⟨before, after, positions, rfl, rfl⟩
    rw [List.getLast?_map] at asked ⊢
    have agreesNow := (covers step).2.agrees agrees
    rw [← listing_eq_of_covers agrees (covers step).1 (covers step).2 query] at positions
    have page := opensKeys_get (honours step) agreesNow (reaches step _ asked)
    rwa [ahead_behind query positions] at page
  rcases Keyset.followThrough_visits (pageLimit_pos query) opens with ⟨pages, followed, keys, short⟩
  rw [List.length_map, List.length_map] at followed
  refine ⟨pages, followed, ?_, short⟩
  refine List.map_injective_iff.mpr encodeCursor_injective ?_
  rw [← keys, List.map_map]
  rfl

/-! ## Runs -/

/-- Tiers that answer from what they hold. -/
def Contents.source (contents : Contents Text) : Source Text where
  toContents := contents
  hotReads := decodeCursor
  hotGet := listingGet contents.hot
  coldRead := listingRead (coldRows contents.files)

theorem Contents.source_honours {contents : Contents Text} (distinct : Entry.DistinctIds contents.hot) :
    contents.source.Honours where
  distinct := distinct
  hot := fun _ _ asked positive => opensPage_listingGet contents.hot asked positive
  cold := coldOpens_listingRead _

/-- Two entries that are hot for the first page and cold from then on. -/
def movedAway : Nat -> Contents Text
  | 0 => { hot := [plainEntry ['2'] ['q'] 2, plainEntry ['1'] ['q'] 1], files := [] }
  | _ + 1 =>
      { hot := []
        files := write id [] [plainEntry ['2'] ['q'] 2, plainEntry ['1'] ['q'] 1] }

/-- Two pages, of which the second is read from the cold tier. -/
theorem tiered_paging_movedAway :
    Exists fun pages =>
      Keyset.followThrough (readAt (fun step => (movedAway step).source) { limit := some 1 }) 3 0 none =
        some pages ∧
      pages.flatten.map Entry.position = [⟨2, ['2']⟩, ⟨1, ['1']⟩] := by
  have moves : forall step, Relation.ReflTransGen (Move id) (movedAway step).source.toContents
      (movedAway (step + 1)).source.toContents := by
    intro step
    cases step with
    | zero =>
        have written : forall entry, entry ∈ (movedAway 0).hot -> asRow id entry ∈
            coldRows (write id [] (movedAway 0).hot) := by decide
        exact (Relation.ReflTransGen.single (.archive fun _ => id)).tail
          (@Move.delete Text id ⟨(movedAway 0).hot, write id [] (movedAway 0).hot⟩ (fun _ => false)
            fun entry isHot _ => written entry isHot)
    | succ => exact .refl
  have honours : forall step, (movedAway step).source.Honours := by
    intro step
    cases step with
    | zero => exact Contents.source_honours (by decide)
    | succ => exact Contents.source_honours List.nodup_nil
  have agrees : Agrees (movedAway 0).source.stored := by
    unfold Agrees
    decide
  have reaches : forall step cursor,
      Keyset.Asked (readAt (fun step => (movedAway step).source) { limit := some 1 }) step cursor ->
        Reaches { limit := some 1, cursor := cursor } (movedAway step).source.hot := by
    intro step cursor _
    refine reaches_of_few fun instant => Nat.le_trans List.countP_le_length ?_
    cases step with
    | zero =>
        change 2 ≤ 19 * 2
        decide
    | succ => exact Nat.zero_le _
  rcases tiered_paging id (fun _ => rfl) (fun step => (movedAway step).source) honours agrees moves
    { limit := some 1 } reaches with ⟨pages, followed, positions, _⟩
  exact ⟨pages, followed, positions⟩

/-! ## A crowded millisecond -/

/-- Thirty-nine entries of one millisecond and three older ones. -/
def crowd : List (Entry Text) :=
  ((List.range 39).map fun place => plainEntry [Char.ofNat (120 - place)] ['q'] 1) ++
    [plainEntry ['3'] ['q'] 0, plainEntry ['2'] ['q'] 0, plainEntry ['1'] ['q'] 0]

/-- The cursors that following asks for. -/
def crowdCursor (place : Nat) : Option Text :=
  (((crowd.map Entry.position).take place).getLast?).map encodeCursor

theorem crowdCursor_succ {place : Nat} (inside : place < (crowd.map Entry.position).length) :
    crowdCursor (place + 1) = some (encodeCursor (crowd.map Entry.position)[place]) := by
  rw [crowdCursor, List.take_succ_eq_append_getElem inside, List.getLast?_concat]
  rfl

theorem crowd_distinct : Entry.DistinctIds crowd := by decide +kernel

theorem crowd_listing : (listing { limit := some 1 } crowd).map Entry.position =
    crowd.map Entry.position := by decide +kernel

theorem crowd_reaches : forall place, place < 39 ->
    Reaches { limit := some 1, cursor := crowdCursor place } crowd := by decide +kernel

/-- The hot store holds the crowd. -/
def crowded : Source Text := Contents.source ⟨crowd, []⟩

theorem crowded_stored : crowded.stored = crowd := List.append_nil crowd

theorem crowded_honours : crowded.Honours := Contents.source_honours crowd_distinct

theorem crowded_agrees : Agrees crowded.stored := Agrees.of_distinct (crowded_stored ▸ crowd_distinct)

/-- While the crowd lasts, a page has one entry and names the next. -/
theorem crowd_page {place : Nat} (early : place < 39) :
    (readAt (fun _ => crowded) { limit := some 1 } place (crowdCursor place)).data.length = 1 ∧
      (readAt (fun _ => crowded) { limit := some 1 } place (crowdCursor place)).nextCursor =
        crowdCursor (place + 1) := by
  have page : Keyset.OpensKeys cursorOf 1 _ _ :=
    opensKeys_get crowded_honours crowded_agrees (crowd_reaches place early)
  have size : (crowd.map Entry.position).length = 42 := rfl
  have inside : place < (crowd.map Entry.position).length := by omega
  have remaining : ahead { limit := some 1, cursor := crowdCursor place } crowded.stored =
      (crowd.map Entry.position)[place] :: (crowd.map Entry.position).drop (place + 1) := by
    rw [← List.drop_eq_getElem_cons]
    refine ahead_behind { limit := some 1 } ?_
    rw [crowded_stored, crowd_listing, List.take_append_drop]
  rw [remaining, List.map_cons] at page
  constructor
  · have data := congrArg List.length page.data
    rwa [List.length_map] at data
  · have more : 1 < (encodeCursor (crowd.map Entry.position)[place] ::
        ((crowd.map Entry.position).drop (place + 1)).map encodeCursor).length := by
      rw [List.length_cons, List.length_map, List.length_drop]
      omega
    have next := page.next
    rw [if_pos more] at next
    rw [crowdCursor_succ inside]
    exact next

/-- Behind the crowd there is one more entry, and then no cursor. -/
theorem crowd_end : (readAt (fun _ => crowded) { limit := some 1 } 39 (crowdCursor 39)).data.length = 1 ∧
    (readAt (fun _ => crowded) { limit := some 1 } 39 (crowdCursor 39)).nextCursor = none := by
  decide +kernel

theorem crowd_follow (places : Nat) (few : places ≤ 39) :
    Exists fun pages =>
      Keyset.followThrough (readAt (fun _ => crowded) { limit := some 1 }) (places + 4) (39 - places)
        (crowdCursor (39 - places)) = some pages ∧ pages.flatten.length = places + 1 := by
  induction places with
  | zero =>
      rw [Keyset.followThrough, crowd_end.2]
      exact ⟨_, rfl, by rw [List.flatten_singleton, crowd_end.1]⟩
  | succ places inductionHypothesis =>
      rcases inductionHypothesis (Nat.le_of_succ_le few) with ⟨pages, followed, size⟩
      have following : 39 - (places + 1) + 1 = 39 - places := by omega
      have early : 39 - (places + 1) < 39 := by omega
      have page := crowd_page early
      have inside : 39 - (places + 1) < (crowd.map Entry.position).length := by
        change 39 - (places + 1) < 42
        omega
      have next := crowdCursor_succ inside
      rw [Nat.add_right_comm, Keyset.followThrough, page.2, next]
      simp only
      rw [← next, following, followed]
      exact ⟨_, rfl, by rw [List.flatten_cons, List.length_append, page.1, size, Nat.add_comm]⟩

/-- With fewer entries in one millisecond than all of the hot pages hold, the two
oldest ones are never visited. -/
theorem tiered_paging_skips :
    ¬ forall (readBack : Text -> Text),
      (forall content : Text, JsonContent.stringify (readBack content) = JsonContent.stringify content) ->
      forall (sources : Nat -> Source Text), (forall step, (sources step).Honours) ->
      Agrees (sources 0).stored ->
      (forall step, Relation.ReflTransGen (Move readBack) (sources step).toContents
        (sources (step + 1)).toContents) ->
      forall (query : EntryQuery),
      (forall step instant, ((sources step).hot.countP fun entry => decide (entry.createdAt = instant)) <
        MAX_HOT_PAGES * (pageLimit query + 1)) ->
      Exists fun pages =>
        Keyset.followThrough (readAt sources query) ((listing query (sources 0).stored).length + 1) 0
          none = some pages ∧
        pages.flatten.map Entry.position =
          (listing query (sources 0).stored).map Entry.position := by
  intro visits
  have few : forall instant, (crowd.countP fun entry => decide (entry.createdAt = instant)) < 40 := by
    intro instant
    by_cases one : instant = 1
    · rw [one]
      decide +kernel
    · have none : ((List.range 39).map fun place =>
          plainEntry [Char.ofNat (120 - place)] ['q'] 1).countP
            (fun entry => decide (entry.createdAt = instant)) = 0 := by
        refine List.countP_eq_zero.mpr fun entry member => ?_
        rcases List.mem_map.mp member with ⟨place, _, rfl⟩
        rw [decide_eq_true_eq]
        exact Ne.symm one
      rw [crowd, List.countP_append, none]
      exact Nat.lt_of_le_of_lt (Nat.add_le_add_left List.countP_le_length 0) (by decide)
  rcases visits id (fun _ => rfl) (fun _ => crowded) (fun _ => crowded_honours) crowded_agrees
    (fun _ => .refl) { limit := some 1 } (fun _ => few) with ⟨pages, followed, positions⟩
  rcases crowd_follow 39 (Nat.le_refl _) with ⟨visited, stops, size⟩
  have all := congrArg List.length positions
  rw [crowded_stored, crowd_listing, List.length_map, List.length_map] at all
  have fuel : (listing { limit := some 1 } crowded.stored).length + 1 = 39 + 4 := by
    have listed := congrArg List.length crowd_listing
    rw [List.length_map, List.length_map] at listed
    rw [crowded_stored, listed]
    rfl
  rw [fuel] at followed
  have same : pages = visited := Option.some.inj (followed.symm.trans stops)
  rw [same, size] at all
  exact absurd all (by decide)

end Tiered
end Parquet
end Telescope
