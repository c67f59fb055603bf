import Telescope.InMemory.Order

namespace Telescope
namespace InMemory

universe u

/-!
# Following the cursors of an in-memory query

A page is read off the array from its newest end, so the pages of a query list
its entries in the order of the array.  Entries of one instant stand there by
`localeCompare`, while the cursor resumes behind an identifier by `<`: the pages
visit every matching entry once, in page order, exactly when the two orders
agree on the matching entries of each instant.
-/

variable {C : Type u} [JsonContent C]

theorem matchesQuery_eq (entry : Entry C) (query : EntryQuery) :
    matchesQuery entry query = decide (query.Matches entry) := by
  rw [Bool.eq_iff_iff, decide_eq_true_eq, matchesQuery, EntryQuery.Matches]
  simp only [Bool.and_eq_true, Option.all_eq_true, decide_eq_true_eq, Bool.not_eq_true',
    decide_eq_false_iff_not, Option.mem_def, ge_iff_le, not_le]
  tauto

/-- The tests the loop makes on an entry. -/
def selects (query : EntryQuery) (cursor : Option Position) (entry : Entry C) : Bool :=
  (!query.after.any fun after => decide (entry.createdAt ≤ after)) &&
    (!cursor.any fun cursor =>
      decide (entry.createdAt = cursor.createdAt) && !decide (entry.id.Before cursor.id)) &&
    matchesQuery entry query

variable {entries : List (Entry C)}

/-- One turn of the loop: an entry ends the page, is passed over, or is taken. -/
theorem walk_succ (query : EntryQuery) (cursor : Option Position) (limit : Nat) {index : Nat} {entry : Entry C}
    (found : entries[index]? = some entry) (page : List (Entry C)) :
    walk entries query cursor limit (index + 1) page =
      if query.after.any fun after => decide (entry.createdAt ≤ after) then page
      else if selects query cursor entry = true then
        if (page ++ [entry]).length > limit then page ++ [entry]
        else walk entries query cursor limit index (page ++ [entry])
      else walk entries query cursor limit index page := by
  rw [walk, found, selects]
  dsimp only
  cases query.after.any fun after => decide (entry.createdAt ≤ after) with
  | true => rfl
  | false =>
      cases cursor.any fun cursor =>
          decide (entry.createdAt = cursor.createdAt) && !decide (entry.id.Before cursor.id) with
      | true => rfl
      | false =>
          cases matchesQuery entry query with
          | true => rfl
          | false => rfl

/-- The loop collects what it selects below a count, up to one entry past the page. -/
theorem walk_eq (instants : entries.Pairwise fun earlier later => earlier.createdAt ≤ later.createdAt)
    (query : EntryQuery) (cursor : Option Position) {limit : Nat} (count : Nat) {page : List (Entry C)}
    (room : page.length ≤ limit) :
    walk entries query cursor limit count page =
      (page ++ (entries.take count).reverse.filter (selects query cursor)).take (limit + 1) := by
  have whole := List.take_of_length_le (Nat.le_succ_of_le room)
  induction count generalizing page with
  | zero =>
      rw [walk, List.take_zero, List.reverse_nil, List.filter_nil, List.append_nil]
      exact whole.symm
  | succ index inductionHypothesis =>
      cases found : entries[index]? with
      | none =>
          have same : entries.take (index + 1) = entries.take index := by
            rw [List.take_add_one, found, Option.toList_none, List.append_nil]
          rw [walk, found, same]
          exact inductionHypothesis room whole
      | some entry =>
          have newest : entries.take (index + 1) = entries.take index ++ [entry] := by
            rw [List.take_add_one, found, Option.toList_some]
          rw [walk_succ query cursor limit found, newest, List.reverse_append,
            List.reverse_singleton, List.singleton_append, List.filter_cons]
          by_cases stops : (query.after.any fun after => decide (entry.createdAt ≤ after)) = true
          · -- Everything below is at least as old, so the loop may end here.
            have front := instants.sublist (List.take_sublist (index + 1) entries)
            rw [newest] at front
            have none : forall other : Entry C, other.createdAt ≤ entry.createdAt ->
                ¬ selects query cursor other = true := by
              intro other older selected
              rcases (Option.any_eq_true _ _).mp stops with ⟨after, asked, atOrBefore⟩
              have bound := le_trans older (of_decide_eq_true atOrBefore)
              rw [selects, Bool.and_eq_true, Bool.and_eq_true, asked, Option.any_some,
                decide_eq_true bound] at selected
              exact Bool.false_ne_true selected.1.1
            have rest : (entries.take index).reverse.filter (selects query cursor) = [] := by
              refine List.filter_eq_nil_iff.mpr fun other member => none other ?_
              exact (List.pairwise_append.mp front).2.2 other (List.mem_reverse.mp member) entry
                (List.mem_singleton_self entry)
            rw [if_pos stops, if_neg (none entry le_rfl), rest, List.append_nil]
            exact whole.symm
          · rw [if_neg stops]
            by_cases selected : selects query cursor entry = true
            · rw [if_pos selected, if_pos selected, List.append_cons page entry
                ((entries.take index).reverse.filter (selects query cursor))]
              by_cases full : (page ++ [entry]).length > limit
              · have size : (page ++ [entry]).length = limit + 1 := by
                  rw [List.length_append, List.length_singleton] at full ⊢
                  omega
                rw [if_pos full, ← size, List.take_left]
              · have still := Nat.le_of_not_lt full
                rw [if_neg full]
                exact inductionHypothesis still (List.take_of_length_le (Nat.le_succ_of_le still))
            · rw [if_neg selected, if_neg selected]
              exact inductionHypothesis room whole

/-! ## Pages -/

/-- The bound on the index and the tests of the loop leave what matches behind
the cursor. -/
theorem selects_iff (query : EntryQuery) (cursor : Option Position) (entry : Entry C) :
    (((newestMs query cursor).all fun ms => decide (entry.createdAt ≤ ms)) &&
        selects query cursor entry) =
      (decide (query.Matches entry) && behindCursor cursor entry) := by
  rw [selects, matchesQuery_eq]
  by_cases matching : query.Matches entry
  · have inBefore := matching.2.2.2.2.2.2.2.1
    have inAfter : (query.after.any fun after => decide (entry.createdAt ≤ after)) = false := by
      rw [Bool.eq_false_iff]
      intro stops
      rcases (Option.any_eq_true _ _).mp stops with ⟨after, asked, atOrBefore⟩
      exact (of_decide_eq_true atOrBefore).not_gt (matching.2.2.2.2.2.2.2.2 after asked)
    rw [inAfter, decide_eq_true matching, Bool.true_and, Bool.not_false, Bool.true_and,
      Bool.and_true, newestMs]
    cases cursor with
    | none =>
        cases asked : query.before with
        | none => rfl
        | some before =>
            have earlier := inBefore before asked
            have bound : entry.createdAt ≤ before - 1 := by omega
            exact congrArg (· && _) (decide_eq_true bound)
    | some cursor =>
        have behind : (behindCursor (some cursor) entry) =
            (decide (entry.createdAt ≤ cursor.createdAt) &&
              !(decide (entry.createdAt = cursor.createdAt) && !decide (entry.id.Before cursor.id))) := by
          rw [behindCursor, Option.all_some, Bool.eq_iff_iff, decide_eq_true_eq, Bool.and_eq_true,
            decide_eq_true_eq, Bool.not_eq_true', Bool.and_eq_false_iff, decide_eq_false_iff_not,
            Bool.not_eq_false', decide_eq_true_eq]
          change (entry.createdAt < cursor.createdAt ∨
            (cursor.createdAt = entry.createdAt ∧ entry.id.Before cursor.id)) <-> _
          by_cases same : entry.createdAt = cursor.createdAt
          · simp only [same, lt_irrefl, false_or, true_and, le_refl, not_true_eq_false]
          · have other : cursor.createdAt ≠ entry.createdAt := Ne.symm same
            simp only [same, other, false_and, or_false, not_false_eq_true, true_or, and_true]
            exact (le_iff_lt_or_eq.trans (or_iff_left same)).symm
        rw [behind, Option.any_some]
        congr 1
        cases asked : query.before with
        | none => rfl
        | some before =>
            have earlier := inBefore before asked
            change decide (entry.createdAt ≤ min cursor.createdAt (before - 1)) = _
            rw [decide_eq_decide]
            omega
  · rw [decide_eq_false matching, Bool.and_false, Bool.and_false, Bool.false_and]

/-- What the pages of a query list: the matching entries in the order of the
array, from its newest end. -/
def listing (entries : List (Entry C)) (query : EntryQuery) : List (Entry C) :=
  (entries.reverse.filter fun entry => decide (query.Matches entry)).map query.project

/-- A page is the first of what is listed behind the cursor. -/
theorem get_toPage {provider : Provider C}
    (instants : provider.entries.Pairwise fun earlier later => earlier.createdAt ≤ later.createdAt)
    (query : EntryQuery) :
    (get provider query).toPage = Keyset.firstPage cursorOf (resolveLimit query)
      ((listing provider.entries query).filter (behindCursor (query.cursor.bind decodeCursor))) := by
  generalize cursorEq : query.cursor.bind decodeCursor = cursor
  have closed : provider.entries.Pairwise fun earlier later =>
      ((newestMs query cursor).all fun ms => decide (later.createdAt ≤ ms)) = true ->
        ((newestMs query cursor).all fun ms => decide (earlier.createdAt ≤ ms)) = true := by
    refine instants.imp fun {earlier later} notLater => ?_
    rw [Option.all_eq_true, Option.all_eq_true]
    exact fun within ms isNewest =>
      decide_eq_true (le_trans notLater (of_decide_eq_true (within ms isNewest)))
  have count : (lastIndexAtOrBefore provider.entries (newestMs query cursor) + 1).toNat =
      frontLength (fun entry => (newestMs query cursor).all fun ms => decide (entry.createdAt ≤ ms))
        provider.entries := by
    rw [lastIndexAtOrBefore, Int.sub_add_cancel, Int.toNat_natCast]
  have walked : walk provider.entries query cursor (resolveLimit query)
      (lastIndexAtOrBefore provider.entries (newestMs query cursor) + 1).toNat [] =
        (provider.entries.reverse.filter fun entry =>
          decide (query.Matches entry) && behindCursor cursor entry).take (resolveLimit query + 1) := by
    rw [walk_eq instants query cursor _ (Nat.zero_le _), List.nil_append, count,
      take_frontLength closed, ← List.filter_reverse, List.filter_filter]
    congr 1
    refine List.filter_congr fun entry _ => ?_
    rw [Bool.and_comm]
    exact selects_iff query cursor entry
  have listed : (listing provider.entries query).filter (behindCursor cursor) =
      (provider.entries.reverse.filter fun entry =>
        decide (query.Matches entry) && behindCursor cursor entry).map query.project := by
    have shown : (behindCursor cursor ∘ query.project : Entry C -> Bool) = behindCursor cursor := by
      refine funext fun entry => ?_
      rw [Function.comp, behindCursor, behindCursor, EntryQuery.position_project]
    rw [listing, List.filter_map, shown, List.filter_filter]
    congr 1
    exact List.filter_congr fun entry _ =>
      Bool.and_comm (behindCursor cursor entry) (decide (query.Matches entry))
  rw [listed, get]
  simp only [cursorEq, walked]
  generalize (provider.entries.reverse.filter fun entry =>
    decide (query.Matches entry) && behindCursor cursor entry) = rest
  have slice : (rest.take (resolveLimit query + 1)).take (resolveLimit query) =
      rest.take (resolveLimit query) := by
    rw [List.take_take, Nat.min_eq_left (Nat.le_succ _)]
  have more : (rest.take (resolveLimit query + 1)).length > resolveLimit query <->
      resolveLimit query < rest.length := by
    rw [List.length_take]
    omega
  rw [Keyset.firstPage, slice, List.length_map, ← List.map_take, cursorBehind_project]
  congr 1
  · unfold EntryQuery.project
    split
    · rfl
    · exact (List.map_id' _).symm
  · rw [decide_eq_decide.mpr more]
    by_cases longer : resolveLimit query < rest.length
    · rw [if_pos (decide_eq_true longer), if_pos longer]
    · rw [if_neg longer, if_neg (by rwa [decide_eq_true_eq])]

/-! ## Following the cursors -/

/-- The page of a query behind a cursor. -/
def pageBehind (provider : Provider C) (query : EntryQuery) (cursor : Option Text) :
    Keyset.Page (Entry C) Text :=
  (get provider { query with cursor := cursor }).toPage

/-- Following the cursors from the first page ends and lists some entries. -/
def Visits (provider : Provider C) (query : EntryQuery) (listed : List (Entry C)) : Prop :=
  Exists fun fuel => Exists fun pages =>
    Keyset.follow (fun cursor => some (pageBehind provider query cursor)) fuel none = some pages ∧
      pages.flatten = listed

/-- Matching entries of one instant stand in the array in code unit order. -/
def TiesInOrder (query : EntryQuery) (entries : List (Entry C)) : Prop :=
  entries.Pairwise fun earlier later => query.Matches earlier -> query.Matches later ->
    earlier.createdAt = later.createdAt -> earlier.id.Before later.id

/-- `localeCompare` puts matching entries of one instant in code unit order. -/
def LocaleAgrees (locale : Locale) (query : EntryQuery) (entries : List (Entry C)) : Prop :=
  forall left, left ∈ entries -> forall right, right ∈ entries ->
    query.Matches left -> query.Matches right -> left.createdAt = right.createdAt ->
      left.id.Before right.id -> locale.localeCompare left.id right.id < 0

theorem listing_perm (entries : List (Entry C)) (query : EntryQuery) :
    (listing entries query).Perm (query.results entries) := by
  refine List.Perm.map _ ?_
  exact (entries.reverse_perm.filter _).trans (sortNewestFirst_perm _).symm

theorem results_newestFirst (distinct : Entry.DistinctIds entries) (query : EntryQuery) :
    NewestFirst (query.results entries) := by
  have sorted := newestFirst_sort (Entry.distinctIds_sublist
    (List.filter_sublist (p := fun entry => decide (query.Matches entry))) distinct)
  refine List.pairwise_map.mpr (sorted.imp fun {left right} newer => ?_)
  rw [Entry.Newer, EntryQuery.position_project, EntryQuery.position_project]
  exact newer

/-- The listing is in page order when ties are in order. -/
theorem listing_newestFirst_iff (instants : entries.Pairwise fun earlier later => earlier.createdAt ≤ later.createdAt)
    (query : EntryQuery) :
    NewestFirst (listing entries query) <-> TiesInOrder query entries := by
  rw [NewestFirst, listing, List.pairwise_map, List.pairwise_filter, List.pairwise_reverse,
    TiesInOrder]
  constructor
  · intro sorted
    refine sorted.imp fun {earlier later} newer earlierMatches laterMatches sameInstant => ?_
    have after := newer (decide_eq_true laterMatches) (decide_eq_true earlierMatches)
    rw [Entry.Newer, EntryQuery.position_project, EntryQuery.position_project] at after
    rcases after with older | ⟨_, before⟩
    · exact (sameInstant.not_lt older).elim
    · exact before
  · intro ties
    refine (ties.and instants).imp fun {earlier later} both laterMatches earlierMatches => ?_
    rw [Entry.Newer, EntryQuery.position_project, EntryQuery.position_project]
    rcases both.2.lt_or_eq with older | sameInstant
    · exact .inl older
    · exact .inr ⟨sameInstant.symm, both.1 (of_decide_eq_true earlierMatches)
        (of_decide_eq_true laterMatches) sameInstant⟩

theorem visits_results_iff {provider : Provider C} (distinct : Entry.DistinctIds provider.entries)
    (instants : provider.entries.Pairwise fun earlier later => earlier.createdAt ≤ later.createdAt)
    (query : EntryQuery) :
    Visits provider query (query.results provider.entries) <->
      TiesInOrder query provider.entries := by
  have opens : forall cursor, some (pageBehind provider query cursor) =
      some (Keyset.firstPage cursorOf (resolveLimit query)
        ((listing provider.entries query).filter (behindCursor (cursor.bind decodeCursor)))) :=
    fun cursor => congrArg some (get_toPage instants { query with cursor := cursor })
  have positive : 0 < resolveLimit query := by
    unfold resolveLimit
    split
    · split
      · omega
      · decide
    · decide
  have visits := @Keyset.visits_sorted_iff (Entry C) Text Entry.Newer _ _ cursorOf
    (fun cursor => behindCursor (cursor.bind decodeCursor)) _
    (fun _ _ => Position.newer_asymm) (fun _ => rfl) behindCursor_cursorOf _ _ opens positive
    (results_newestFirst distinct query) (listing_perm provider.entries query)
  rw [Visits, visits, ← listing_newestFirst_iff instants query]
  constructor
  · intro same
    rw [same]
    exact results_newestFirst distinct query
  · intro sorted
    exact sorted.eq_of_perm (results_newestFirst distinct query) (listing_perm _ query)

theorem tiesInOrder_of_locale {locale : Locale} (distinct : Entry.DistinctIds entries)
    (ordered : Ordered locale entries) {query : EntryQuery} (agrees : LocaleAgrees locale query entries) :
    TiesInOrder query entries := by
  have separate : entries.Pairwise fun earlier later => earlier.id ≠ later.id :=
    List.pairwise_map.mp distinct
  have members : entries.Pairwise fun earlier later => earlier ∈ entries ∧ later ∈ entries :=
    List.pairwise_of_forall_mem_list fun earlier earlierMember later laterMember =>
      ⟨earlierMember, laterMember⟩
  refine ((List.pairwise_map.mp ordered).and (separate.and members)).imp ?_
  rintro earlier later ⟨notAfter, different, earlierMember, laterMember⟩ earlierMatches laterMatches
    sameInstant
  rcases Text.before_trichotomy earlier.id later.id with before | same | after
  · exact before
  · exact (different same).elim
  · have below := agrees later laterMember earlier earlierMember laterMatches earlierMatches
      sameInstant.symm after
    rcases notAfter with older | ⟨_, notAbove⟩
    · exact (sameInstant.not_lt older).elim
    · exact ((not_le.mpr below) ((locale.swap _ _).mpr notAbove)).elim

/-- Two identifiers of one millisecond which the collation and the code units
order alike, in the order of their arrival. -/
def lowerCaseIds : List (Operation Text) :=
  [.store [plainEntry ['b'] ['j', 'o', 'b'] 10, plainEntry ['a'] ['j', 'o', 'b'] 10]]

/-- Two identifiers of one millisecond which they order differently. -/
def mixedCaseIds : List (Operation Text) :=
  [.store [plainEntry ['B'] ['j', 'o', 'b'] 10, plainEntry ['a'] ['j', 'o', 'b'] 10]]

end InMemory
end Telescope
