import Telescope.Metrics.StatsService

namespace Telescope
namespace Metrics

open Rollup

/-!
# Hydrated statistics

The summary of entries that were scanned without content and hydrated is that of the
entries with their own content, but for two readings of the service: a family of
exceptions takes the content of its first row for all its rows, and a request takes the
status of its tag.
-/

/-! ## What the store answers -/

/-- The store holds these entries, and answers a query for identifiers with those it has. -/
structure ServesIds (get : EntryQuery -> Page Value) (stored : List (Entry Value)) : Prop where
  distinct : Entry.DistinctIds stored
  served : forall ids, ids ≠ [] -> ids.length ≤ HYDRATE_CHUNK ->
    (get { ids := some ids, limit := some ids.length }).data.Perm
      (stored.filter fun entry => decide (entry.id ∈ ids))

theorem mem_idChunks {ids : List Text} {id : Text} (member : id ∈ ids) :
    Exists fun chunk => chunk ∈ idChunks ids ∧ id ∈ chunk := by
  rcases List.mem_iff_getElem.mp member with ⟨place, bound, isId⟩
  have split := Nat.div_add_mod' place HYDRATE_CHUNK
  have inside : place % HYDRATE_CHUNK < HYDRATE_CHUNK := Nat.mod_lt _ (by decide)
  have inRange : place / HYDRATE_CHUNK < (ids.length + HYDRATE_CHUNK - 1) / HYDRATE_CHUNK := by
    rw [HYDRATE_CHUNK]
    omega
  refine ⟨_, List.mem_map_of_mem (List.mem_range.mpr inRange), ?_⟩
  rw [← isId, List.mem_iff_getElem]
  refine ⟨place % HYDRATE_CHUNK, ?_, ?_⟩
  · rw [List.length_take, List.length_drop]
    omega
  · rw [List.getElem_take, List.getElem_drop]
    congr 1

theorem of_mem_idChunks {ids chunk : List Text} (member : chunk ∈ idChunks ids) :
    chunk ≠ [] ∧ chunk.length ≤ HYDRATE_CHUNK ∧ forall id, id ∈ chunk -> id ∈ ids := by
  rcases List.mem_map.mp member with ⟨index, inRange, rfl⟩
  rw [List.mem_range, HYDRATE_CHUNK] at inRange
  refine ⟨?_, List.length_take_le .., fun id isIn => List.mem_of_mem_drop (List.mem_of_mem_take isIn)⟩
  rw [Ne, List.take_eq_nil_iff, List.drop_eq_nil_iff, HYDRATE_CHUNK]
  omega

variable {row : Entry Value} {familyHash : Text} {first : Entry Value}

section Contents

variable {get : EntryQuery -> Page Value} {stored : List (Entry Value)}

/-- Setting the contents of some stored entries sets those, and no other content. -/
theorem foldl_setContent (distinct : Entry.DistinctIds stored) {entries : List (Entry Value)}
    (inStore : forall entry, entry ∈ entries -> entry ∈ stored) (isStored : row ∈ stored) (contents : Contents) :
    entries.foldl setContent contents row.id =
      if row.id ∈ entries.map Entry.id then some row.content else contents row.id := by
  induction entries generalizing contents with
  | nil => rfl
  | cons entry entries inductionHypothesis =>
      rw [List.foldl_cons, inductionHypothesis fun other member => inStore other (List.mem_cons_of_mem _ member),
        List.map_cons]
      by_cases later : row.id ∈ entries.map Entry.id
      · rw [if_pos later, if_pos (List.mem_cons_of_mem _ later)]
      · rw [if_neg later, setContent]
        by_cases isEntry : row.id = entry.id
        · have same : row = entry :=
            Entry.eq_of_id distinct isStored (inStore entry (List.mem_cons_self ..)) isEntry
          rw [if_pos (isEntry ▸ List.mem_cons_self ..), same, Function.update_self]
        · rw [Function.update_of_ne isEntry, if_neg]
          rw [List.mem_cons]
          exact not_or.mpr ⟨isEntry, later⟩

theorem foldl_chunks (serves : ServesIds get stored) (isStored : row ∈ stored) {chunks : List (List Text)}
    (sized : forall chunk, chunk ∈ chunks -> chunk ≠ [] ∧ chunk.length ≤ HYDRATE_CHUNK) (contents : Contents) :
    chunks.foldl (fun contents chunk =>
        (get { ids := some chunk, limit := some chunk.length }).data.foldl setContent contents) contents row.id =
      if row.id ∈ chunks.flatten then some row.content else contents row.id := by
  induction chunks generalizing contents with
  | nil => rfl
  | cons chunk chunks inductionHypothesis =>
      have valid := sized chunk (List.mem_cons_self ..)
      have page := serves.served chunk valid.1 valid.2
      have inStore : forall entry,
          entry ∈ (get { ids := some chunk, limit := some chunk.length }).data -> entry ∈ stored :=
        fun entry member => (List.mem_filter.mp (page.mem_iff.mp member)).1
      have asked : row.id ∈ (get { ids := some chunk, limit := some chunk.length }).data.map Entry.id <->
          row.id ∈ chunk := by
        constructor
        · intro member
          rcases List.mem_map.mp member with ⟨entry, isIn, sameId⟩
          rw [← sameId]
          exact of_decide_eq_true (List.mem_filter.mp (page.mem_iff.mp isIn)).2
        · intro member
          exact List.mem_map_of_mem (page.mem_iff.mpr (List.mem_filter.mpr ⟨isStored, decide_eq_true member⟩))
      rw [List.foldl_cons, inductionHypothesis fun other member => sized other (List.mem_cons_of_mem _ member),
        foldl_setContent serves.distinct inStore isStored, List.flatten_cons]
      simp only [asked, List.mem_append]
      by_cases later : row.id ∈ chunks.flatten
      · rw [if_pos later, if_pos (.inr later)]
      · rw [if_neg later]
        exact if_congr (or_iff_left later).symm rfl rfl

/-- The content of a stored entry is fetched if it is asked for. -/
theorem contentFor_eq (serves : ServesIds get stored) (isStored : row ∈ stored) (ids : List Text) :
    contentFor get ids row.id = if row.id ∈ ids then some row.content else none := by
  rw [contentFor, foldl_chunks serves isStored fun chunk member =>
    ⟨(of_mem_idChunks member).1, (of_mem_idChunks member).2.1⟩]
  refine if_congr ?_ rfl rfl
  rw [List.mem_flatten]
  constructor
  · rintro ⟨chunk, member, isIn⟩
    exact (of_mem_idChunks member).2.2 _ isIn
  · exact mem_idChunks

/-! ## What hydration gives every row -/

/-- `{ ...entry, content: null }`. -/
def bare (entry : Entry Value) : Entry Value := { entry with content := .null }

def withContent (content : Entry Value -> Value) (entry : Entry Value) : Entry Value :=
  { entry with content := content entry }

variable {rows : List (Entry Value)} (serves : ServesIds get stored)
  (inStore : forall row, row ∈ rows -> row ∈ stored)

/-- The content of a request: the code of its tag, or its own. -/
def requestContent (row : Entry Value) : Value :=
  match statusFromTags row.tags with
  | some statusCode => .object [(units "statusCode", .number statusCode)]
  | none => orNull (some row.content)

include serves inStore in
theorem hydrateRequests_eq : hydrateRequests get (rows.map bare) = rows.map (withContent requestContent) := by
  rw [hydrateRequests, List.map_map]
  refine List.map_congr_left fun row member => ?_
  rw [Function.comp_apply, withContent, requestContent, bare]
  dsimp only
  cases tagged : statusFromTags row.tags with
  | some statusCode => rfl
  | none =>
      have asked : row.id ∈ ((rows.map bare).filter fun entry => (statusFromTags entry.tags).isNone).map Entry.id := by
        refine List.mem_map_of_mem (f := Entry.id) (a := bare row) (List.mem_filter.mpr ⟨List.mem_map_of_mem member, ?_⟩)
        exact Option.isNone_iff_eq_none.mpr tagged
      dsimp only
      rw [contentFor_eq serves (inStore row member), if_pos asked]

/-- The first entry of a family, among the entries with a family. -/
theorem find?_withFamily (entries : List (Entry Value)) (familyHash : Text) :
    ((entries.filterMap withFamily).find? fun row => decide (row.1 = familyHash)).map Prod.snd =
      entries.find? fun entry => decide (entry.familyHash = some familyHash) := by
  induction entries with
  | nil => rfl
  | cons entry entries inductionHypothesis =>
      cases keyed : entry.familyHash with
      | none =>
          rw [List.filterMap_cons_none (by rw [withFamily, keyed]; rfl), inductionHypothesis, List.find?_cons, keyed]
          rfl
      | some own =>
          rw [List.filterMap_cons_some (by rw [withFamily, keyed]; rfl), List.find?_cons, List.find?_cons, keyed]
          by_cases same : own = familyHash
          · rw [decide_eq_true same, decide_eq_true (congrArg some same)]
            rfl
          · rw [decide_eq_false same, decide_eq_false fun equal => same (Option.some_inj.mp equal)]
            exact inductionHypothesis

theorem lookup_firstOfFamily (entries : List (Entry Value)) (familyHash : Text) :
    (firstOfFamily entries).lookup familyHash =
      entries.find? fun entry => decide (entry.familyHash = some familyHash) := by
  rw [firstOfFamily, Grouping.lookup_gather_first fun _ _ => rfl, ← find?_withFamily]
  exact Option.none_or

/-- The first row of a family. -/
def firstRow (rows : List (Entry Value)) (familyHash : Text) : Option (Entry Value) :=
  rows.find? fun row => decide (row.familyHash = some familyHash)

theorem lookup_bare (familyHash : Text) :
    (firstOfFamily (rows.map bare)).lookup familyHash = (firstRow rows familyHash).map bare := by
  rw [lookup_firstOfFamily, List.find?_map]
  rfl

theorem firstRow_mem (isFirst : firstRow rows familyHash = some row) :
    row ∈ rows ∧ row.familyHash = some familyHash := by
  have holds := List.find?_some isFirst
  exact ⟨List.mem_of_find?_eq_some isFirst, of_decide_eq_true holds⟩

theorem firstRow_isSome (member : row ∈ rows) (keyed : row.familyHash = some familyHash) :
    Exists fun first => firstRow rows familyHash = some first :=
  Option.isSome_iff_exists.mp (List.find?_isSome.mpr ⟨row, member, decide_eq_true keyed⟩)

/-- The first row of its family is asked for. -/
theorem first_asked (isFirst : firstRow rows familyHash = some first) :
    first.id ∈ (firstOfFamily (rows.map bare)).values.map Entry.id := by
  have found : (firstOfFamily (rows.map bare)).lookup familyHash = some (bare first) := by
    rw [lookup_bare, isFirst]
    rfl
  have group := List.mem_map_of_mem (f := Prod.snd) (Grouping.mem_iff_lookup.mpr found)
  exact List.mem_map_of_mem (f := Entry.id) (a := bare first) group

/-- The content of an exception: that of the first row of its family if it is an object,
else its own. -/
def exceptionContent (rows : List (Entry Value)) (row : Entry Value) : Value :=
  match (row.familyHash.bind (firstRow rows)).map Entry.content with
  | some content => if content.isRecord then content else orNull (some row.content)
  | none => orNull (some row.content)

theorem orNull_record {content : Value} (isRecord : content.isRecord = true) : orNull (some content) = content := by
  cases content <;> first | rfl | cases isRecord

theorem mem_perRowFamilies {contents : Contents} (isFirst : firstRow rows familyHash = some first)
    (fetched : contents first.id = some first.content) :
    familyHash ∈ perRowFamilies contents (firstOfFamily (rows.map bare)) <-> first.content.isRecord = false := by
  have found : (firstOfFamily (rows.map bare)).lookup familyHash = some (bare first) := by
    rw [lookup_bare, isFirst]
    rfl
  have shown : (contents (bare first).id).elim false Value.isRecord = first.content.isRecord :=
    congrArg (fun content : Option Value => content.elim false Value.isRecord) fetched
  rw [perRowFamilies, List.mem_map]
  constructor
  · rintro ⟨⟨familyHash, own⟩, member, rfl⟩
    rcases List.mem_filter.mp member with ⟨there, plain⟩
    have isOwn := (Grouping.mem_iff_lookup.mp there).symm.trans found
    rw [Option.some_inj.mp isOwn, shown] at plain
    exact Bool.not_eq_true' _ |>.mp plain
  · intro plain
    refine ⟨(familyHash, bare first), List.mem_filter.mpr ⟨Grouping.mem_iff_lookup.mpr found, ?_⟩, rfl⟩
    rw [shown, plain]
    rfl

include serves inStore in
theorem hydrateExceptions_eq :
    hydrateExceptions get (rows.map bare) = rows.map (withContent (exceptionContent rows)) := by
  rw [hydrateExceptions, List.map_map]
  refine List.map_congr_left fun row member => ?_
  rw [Function.comp_apply, withContent, exceptionContent, bare]
  dsimp only
  generalize askedIds : (firstOfFamily (rows.map bare)).values.map Entry.id ++
    ((rows.map bare).filter fun entry => entry.familyHash.isNone).map Entry.id = asked
  have own : forall ids, (contentFor get ids row.id).or (some row.content) = some row.content := by
    intro ids
    rw [contentFor_eq serves (inStore row member)]
    split <;> rfl
  cases keyed : row.familyHash with
  | none =>
      have isAsked : row.id ∈ asked := by
        rw [← askedIds]
        refine List.mem_append_right _ (List.mem_map_of_mem (f := Entry.id) (a := bare row)
          (List.mem_filter.mpr ⟨List.mem_map_of_mem member, ?_⟩))
        exact Option.isNone_iff_eq_none.mpr keyed
      dsimp only
      rw [contentFor_eq serves (inStore row member) asked, if_pos isAsked, own]
      rfl
  | some familyHash =>
      rcases firstRow_isSome member keyed with ⟨first, isFirst⟩
      have isAsked : first.id ∈ asked := by
        rw [← askedIds]
        exact List.mem_append_left _ (first_asked isFirst)
      have fetched : contentFor get asked first.id = some first.content := by
        rw [contentFor_eq serves (inStore first (firstRow_mem isFirst).1), if_pos isAsked]
      have perRow := mem_perRowFamilies isFirst fetched
      dsimp only
      rw [Option.bind_some, isFirst, Option.map_some]
      dsimp only
      cases isRecord : first.content.isRecord with
      | false =>
          have inPerRow := perRow.mpr isRecord
          have extra : row.id ∈ ((rows.map bare).filter
              (inFamilies (perRowFamilies (contentFor get asked) (firstOfFamily (rows.map bare))))).map Entry.id := by
            refine List.mem_map_of_mem (f := Entry.id) (a := bare row)
              (List.mem_filter.mpr ⟨List.mem_map_of_mem member, ?_⟩)
            have isKeyed : (bare row).familyHash = some familyHash := keyed
            rw [inFamilies, isKeyed]
            exact decide_eq_true inPerRow
          rw [if_pos inPerRow, contentFor_eq serves (inStore row member), if_pos extra]
          rfl
      | true =>
          rw [if_neg fun inPerRow => Bool.false_ne_true ((perRow.mp inPerRow).symm.trans isRecord), lookup_bare, isFirst]
          have shown : ((some first).map bare).bind (fun row => contentFor get asked row.id) =
              some first.content := fetched
          rw [shown, orNull_record isRecord, if_pos rfl]

include serves inStore in
/-- The first row of every family of queries has its own content. -/
theorem hydrateQueries_eq :
    Exists fun content =>
      hydrateQueries get (rows.map bare) = rows.map (withContent content) ∧
        forall familyHash first, firstRow rows familyHash = some first -> content first = first.content := by
  refine ⟨fun row => (contentFor get ((firstOfFamily (rows.map bare)).values.map Entry.id) row.id).getD .null,
    ?_, fun familyHash first isFirst => ?_⟩
  · rw [hydrateQueries, List.map_map]
    refine List.map_congr_left fun row _ => ?_
    rw [Function.comp_apply, withContent, bare]
    dsimp only
    cases contentFor get ((firstOfFamily (rows.map bare)).values.map Entry.id) row.id <;> rfl
  · dsimp only
    rw [contentFor_eq serves (inStore first (firstRow_mem isFirst).1), if_pos (first_asked isFirst)]
    rfl

end Contents

/-! ## Summaries of other contents -/

section Summaries

variable (content : Entry Value -> Value) (rows : List (Entry Value))

/-- The first item of a key is found by that key. -/
theorem find?_first {α κ : Type*} [DecidableEq κ] (key : α -> κ) {before after : List α} {item : α}
    (fresh : key item ∉ before.map key) :
    (before ++ item :: after).find? (fun other => decide (key other = key item)) = some item := by
  have absent : before.find? (fun other => decide (key other = key item)) = none := by
    refine List.find?_eq_none.mpr fun other member same => fresh ?_
    rw [← of_decide_eq_true same]
    exact List.mem_map_of_mem member
  rw [List.find?_append, absent, Option.none_or, List.find?_cons, decide_eq_true rfl]

theorem filterMap_withFamily :
    (rows.map (withContent content)).filterMap withFamily =
      (rows.filterMap withFamily).map fun row => (row.1, withContent content row.2) := by
  rw [List.filterMap_map, List.map_filterMap]
  congr 1
  funext row
  rw [Function.comp_apply, withFamily, withFamily, Option.map_map]
  rfl

/-- Families read the content of their first row only. -/
theorem computeFamilies_withContent (locale : LocaleCompare) (topFamilies : Nat)
    (firsts : forall familyHash first, firstRow rows familyHash = some first -> content first = first.content) :
    computeFamilies locale (rows.map (withContent content)) topFamilies =
      computeFamilies locale rows topFamilies := by
  have groups : Grouping.empty.gather familyGroups ((rows.map (withContent content)).filterMap withFamily) =
      Grouping.empty.gather familyGroups (rows.filterMap withFamily) := by
    rw [filterMap_withFamily, Grouping.gather_map]
    refine @Grouping.gather_congr Text FamilyAccumulator (Text × Entry Value) _
      (familyGroups.comap fun row => (row.1, withContent content row.2)) familyGroups
      (rows.filterMap withFamily) (fun _ _ => rfl) (fun _ _ _ => rfl) Grouping.empty ?_
    rintro before ⟨familyHash, row⟩ after split _ fresh
    have found : (before ++ (familyHash, row) :: after).find? (fun other => decide (other.1 = familyHash)) =
        some (familyHash, row) :=
      @find?_first (Text × Entry Value) Text _ Prod.fst before after (familyHash, row) fresh
    have isFirst := find?_withFamily rows familyHash
    rw [split, found] at isFirst
    change FamilyAccumulator.mk _ (familyLabel (content row)) = FamilyAccumulator.mk _ (familyLabel row.content)
    rw [firsts familyHash row isFirst.symm]
    rfl
  rw [computeFamilies, computeFamilies, groups]

/-- Later rows of a family have an object for content where an earlier one has. -/
def SteadyFamilies (rows : List (Entry Value)) : Prop :=
  rows.Pairwise fun earlier later => earlier.familyHash.isSome = true ->
    earlier.familyHash = later.familyHash -> earlier.content.isRecord = true -> later.content.isRecord = true

variable {rows}

theorem steady_firstRow (steady : SteadyFamilies rows) (member : row ∈ rows) (keyed : row.familyHash = some familyHash)
    (isFirst : firstRow rows familyHash = some first) (isRecord : first.content.isRecord = true) :
    row.content.isRecord = true := by
  have ofFamily := (firstRow_mem isFirst).2
  rcases List.find?_eq_some_iff_append.mp isFirst with ⟨_, before, after, split, others⟩
  rw [split] at member
  rcases List.mem_append.mp member with earlier | later
  · have different := others row earlier
    rw [keyed, decide_eq_true rfl] at different
    cases different
  · rcases List.mem_cons.mp later with rfl | behind
    · exact isRecord
    · rw [SteadyFamilies, split, List.pairwise_append, List.pairwise_cons] at steady
      exact steady.2.1.1 row behind (by rw [ofFamily]; rfl) (ofFamily.trans keyed.symm) isRecord

theorem isRecord_orNull (content : Value) : (orNull (some content)).isRecord = content.isRecord := by
  cases content <;> rfl

theorem isRecord_exceptionContent (steady : SteadyFamilies rows) (member : row ∈ rows) :
    (exceptionContent rows row).isRecord = row.content.isRecord := by
  rw [exceptionContent]
  cases keyed : row.familyHash with
  | none => exact isRecord_orNull row.content
  | some familyHash =>
      rcases firstRow_isSome member keyed with ⟨first, isFirst⟩
      rw [Option.bind_some, isFirst, Option.map_some]
      dsimp only
      cases isRecord : first.content.isRecord with
      | false => exact isRecord_orNull row.content
      | true => rw [if_pos rfl, isRecord, steady_firstRow steady member keyed isFirst isRecord]

theorem filterMap_withFields (content : Entry Value -> Value) {rows : List (Entry Value)}
    (records : forall row, row ∈ rows -> (content row).isRecord = row.content.isRecord) :
    (rows.map (withContent content)).filterMap withFields =
      (rows.filter fun row => row.content.isRecord).map fun row =>
        (exceptionFields (content row), withContent content row) := by
  induction rows with
  | nil => rfl
  | cons row rows inductionHypothesis =>
      have rest := inductionHypothesis fun other member => records other (List.mem_cons_of_mem _ member)
      have applied : withFields (withContent content row) =
          if row.content.isRecord then some (exceptionFields (content row), withContent content row) else none := by
        rw [withFields, asExceptionContent, withContent, records row (List.mem_cons_self ..)]
        split <;> rfl
      rw [List.map_cons, List.filterMap_cons, List.filter_cons, rest, applied]
      cases row.content.isRecord <;> rfl

/-- The first row of a key has its own content. -/
theorem exceptionContent_first {before after : List (Entry Value)}
    (split : (rows.filter fun row => row.content.isRecord) = before ++ row :: after)
    (fresh : exceptionKey row (exceptionFields row.content) ∉
      before.map fun row => exceptionKey row (exceptionFields row.content)) :
    exceptionContent rows row = row.content := by
  have isRow : row ∈ rows.filter fun row => row.content.isRecord := by
    rw [split]
    exact List.mem_append_right _ (List.mem_cons_self ..)
  have isRecord := (List.mem_filter.mp isRow).2
  have own := orNull_record isRecord
  rw [exceptionContent]
  cases keyed : row.familyHash with
  | none => exact own
  | some familyHash =>
      rcases firstRow_isSome (List.mem_filter.mp isRow).1 keyed with ⟨first, isFirst⟩
      rw [Option.bind_some, isFirst, Option.map_some]
      dsimp only
      cases firstRecord : first.content.isRecord with
      | false => exact own
      | true =>
          rw [if_pos rfl]
          have ofFamily := firstRow_mem isFirst
          have isFound : (rows.filter fun row => row.content.isRecord).find?
              (fun row => decide (row.familyHash = some familyHash)) = some first := by
            rcases List.find?_eq_some_iff_append.mp isFirst with ⟨holds, earlier, later, whole, others⟩
            have absent : (earlier.filter fun row => row.content.isRecord).find?
                (fun row => decide (row.familyHash = some familyHash)) = none :=
              List.find?_eq_none.mpr fun other member same => by
                have different := others other (List.mem_filter.mp member).1
                rw [same] at different
                cases different
            rw [whole, List.filter_append, List.filter_cons, if_pos firstRecord, List.find?_append, absent,
              Option.none_or, List.find?_cons, holds]
          have absent : before.find? (fun row => decide (row.familyHash = some familyHash)) = none := by
            refine List.find?_eq_none.mpr fun other member same => fresh ?_
            have sameKey : exceptionKey row (exceptionFields row.content) =
                exceptionKey other (exceptionFields other.content) := by
              rw [exceptionKey, exceptionKey, keyed, of_decide_eq_true same]
            rw [sameKey]
            exact List.mem_map_of_mem (f := fun row => exceptionKey row (exceptionFields row.content)) member
          rw [split, List.find?_append, absent, Option.none_or, List.find?_cons, decide_eq_true keyed] at isFound
          exact congrArg Entry.content (Option.some_inj.mp isFound).symm

/-- Where families are steady, exceptions are grouped as by their own contents. -/
theorem computeExceptions_withContent (windowStart windowEnd : TimeValue) (buckets : Rat)
    (locale : LocaleCompare) (topExceptions : Nat) (steady : SteadyFamilies rows) :
    computeExceptions windowStart windowEnd buckets locale
        (rows.map (withContent (exceptionContent rows))) topExceptions =
      computeExceptions windowStart windowEnd buckets locale rows topExceptions := by
  have own : rows.filterMap withFields =
      (rows.filter fun row => row.content.isRecord).map fun row => (exceptionFields row.content, row) := by
    have same := filterMap_withFields Entry.content fun (row : Entry Value) (_ : row ∈ rows) => rfl
    exact (congrArg (List.filterMap withFields) (List.map_id rows).symm).trans same
  have groups : Grouping.empty.gather (exceptionGroups windowStart windowEnd buckets)
        ((rows.map (withContent (exceptionContent rows))).filterMap withFields) =
      Grouping.empty.gather (exceptionGroups windowStart windowEnd buckets) (rows.filterMap withFields) := by
    rw [filterMap_withFields _ fun row member => isRecord_exceptionContent steady member, own,
      Grouping.gather_map, Grouping.gather_map]
    refine (@Grouping.gather_congr Units ExceptionAccumulator (Entry Value) _
      ((exceptionGroups windowStart windowEnd buckets).comap fun row => (exceptionFields row.content, row))
      ((exceptionGroups windowStart windowEnd buckets).comap fun row =>
        (exceptionFields (exceptionContent rows row), withContent (exceptionContent rows) row))
      (rows.filter fun row => row.content.isRecord) ?_ (fun _ _ _ => rfl) Grouping.empty ?_).symm
    · intro row member
      have isRecord := (List.mem_filter.mp member).2
      change exceptionKey row _ = exceptionKey (withContent _ row) (exceptionFields (exceptionContent rows row))
      rw [exceptionKey, exceptionKey, withContent]
      cases keyed : row.familyHash with
      | some familyHash => rfl
      | none =>
          have isOwn : exceptionContent rows row = row.content := by
            rw [exceptionContent, keyed]
            exact orNull_record isRecord
          rw [isOwn]
    · intro before row after split _ fresh
      have isOwn := exceptionContent_first split fresh
      change ExceptionAccumulator.mk _ _ _ _ _ = ExceptionAccumulator.mk
        (exceptionFields (exceptionContent rows row)).class_ (exceptionFields (exceptionContent rows row)).message _ _ _
      rw [isOwn]
      rfl
  rw [computeExceptions, computeExceptions, groups]

theorem computeStatus_withContent
    (classes : forall row, row ∈ rows ->
      statusClass (requestStatus (content row)) = statusClass (requestStatus row.content)) :
    computeStatus (rows.map (withContent content)) = computeStatus rows := by
  funext status
  rw [computeStatus, computeStatus, List.countP_map]
  refine List.countP_congr fun row member => ?_
  change decide (statusClass (requestStatus (content row)) = status) = true <-> _
  rw [classes row member]

theorem requestStatus_requestContent (row : Entry Value) :
    requestStatus (requestContent row) = (statusFromTags row.tags).or
      (if (statusFromTags row.tags).isSome then none else requestStatus row.content) := by
  rw [requestContent]
  cases statusFromTags row.tags with
  | none =>
      change requestStatus (orNull (some row.content)) = requestStatus row.content
      cases row.content <;> rfl
  | some statusCode =>
      change requestStatus (.object [(units "statusCode", .number statusCode)]) = some statusCode
      rw [requestStatus, Value.getNumber, Value.get, Value.fields, List.find?_cons, decide_eq_true rfl]
      rfl

theorem whereSome_injective {α : Type*} : Function.Injective (whereSome (α := α)) := by
  intro first second same
  cases first with
  | nil =>
      cases second with
      | nil => rfl
      | cons => cases same
  | cons =>
      cases second with
      | nil => cases same
      | cons => exact Option.some_inj.mp same

/-- The summary of the rows with other contents, where what the type adds is the same. -/
theorem summarizeStats_withContent (locale : LocaleCompare) (input : SummarizeStatsInput)
    (content : Entry Value -> Value) (rows : List (Entry Value)) (notCache : input.type ≠ EntryType.Cache)
    (families : input.type = EntryType.Query -> forall topFamilies,
      computeFamilies locale (rows.map (withContent content)) topFamilies = computeFamilies locale rows topFamilies)
    (status : input.type = EntryType.Request ->
      computeStatus (rows.map (withContent content)) = computeStatus rows)
    (exceptions : input.type = EntryType.Exception -> forall topExceptions,
      computeExceptions input.windowStart input.windowEnd input.buckets locale (rows.map (withContent content))
          topExceptions =
        computeExceptions input.windowStart input.windowEnd input.buckets locale rows topExceptions) :
    summarizeStats locale input (rows.map (withContent content)) = summarizeStats locale input rows := by
  have report : bucketTimeseries input.windowStart input.windowEnd input.buckets (rows.map (withContent content)) =
      bucketTimeseries input.windowStart input.windowEnd input.buckets rows := by
    rw [bucketTimeseries, List.map_map]
    rfl
  have latency : input.latency (rows.map (withContent content)) = input.latency rows := by
    rw [SummarizeStatsInput.latency, computeLatency, List.filterMap_map]
    rfl
  rw [summarizeStats, summarizeStats, report, latency, List.length_map, if_neg notCache, if_neg notCache]
  have queries := fun isQuery => congrArg whereSome (families isQuery (input.topFamilies.getD DEFAULT_TOP_FAMILIES))
  have requests := fun isRequest => congrArg some (status isRequest)
  have errors := fun isException =>
    congrArg whereSome (exceptions isException (input.topExceptions.getD DEFAULT_TOP_EXCEPTIONS))
  rw [if_ctx_congr Iff.rfl queries fun _ => rfl, if_ctx_congr Iff.rfl requests fun _ => rfl,
    if_ctx_congr Iff.rfl errors fun _ => rfl]

end Summaries

/-! ## The statistics of the service -/

/-- What a scan for a type shows of the rows. -/
def scanOf (type : Text) (rows : List (Entry Value)) : List (Entry Value) :=
  if type = EntryType.Cache then rows else rows.map bare

/-- The status of a tag is of the class of the content's status, and families of exceptions
are steady. -/
structure Faithful (type : Text) (rows : List (Entry Value)) : Prop where
  tags : type = EntryType.Request -> forall row, row ∈ rows -> forall code,
    statusFromTags row.tags = some code -> statusClass (some code) = statusClass (requestStatus row.content)
  families : type = EntryType.Exception -> SteadyFamilies rows

theorem Faithful.sublist {type : Text} {rows scanned : List (Entry Value)} (faithful : Faithful type rows)
    (sublist : scanned.Sublist rows) : Faithful type scanned :=
  ⟨fun isRequest row member => faithful.tags isRequest row (sublist.subset member),
    fun isException => (faithful.families isException).sublist sublist⟩

section Service

variable {get : EntryQuery -> Page Value} {stored rows : List (Entry Value)} (serves : ServesIds get stored)
  (inStore : forall row, row ∈ rows -> row ∈ stored) (locale : LocaleCompare) (input : SummarizeStatsInput)

include serves inStore in
/-- Hydrated rows are summarised as the rows with their contents. -/
theorem scannedStats_of_faithful (faithful : Faithful input.type rows) :
    scannedStats locale get input (scanOf input.type rows) = summarizeStats locale input rows := by
  rw [scannedStats, scanOf]
  by_cases isCache : input.type = EntryType.Cache
  · rw [if_pos isCache, if_pos isCache]
  · rw [if_neg isCache, if_neg isCache, hydrateForStats]
    by_cases isRequest : input.type = EntryType.Request
    · rw [if_pos isRequest, hydrateRequests_eq serves inStore]
      refine summarizeStats_withContent locale input _ rows isCache
        (fun isQuery => (by decide : ¬ EntryType.Request = EntryType.Query) (isRequest.symm.trans isQuery) |>.elim)
        (fun _ => computeStatus_withContent _ fun row member => ?_)
        (fun isException =>
          (by decide : ¬ EntryType.Request = EntryType.Exception) (isRequest.symm.trans isException) |>.elim)
      rw [requestStatus_requestContent]
      cases tagged : statusFromTags row.tags with
      | none => rfl
      | some code => exact faithful.tags isRequest row member code tagged
    · rw [if_neg isRequest]
      by_cases isQuery : input.type = EntryType.Query
      · rcases hydrateQueries_eq serves inStore with ⟨content, hydrated, firsts⟩
        rw [if_pos isQuery, hydrated]
        exact summarizeStats_withContent locale input content rows isCache
          (fun _ topFamilies => computeFamilies_withContent content rows locale topFamilies firsts)
          (fun asked => (isRequest asked).elim)
          (fun isException =>
            (by decide : ¬ EntryType.Query = EntryType.Exception) (isQuery.symm.trans isException) |>.elim)
      · rw [if_neg isQuery]
        by_cases isException : input.type = EntryType.Exception
        · rw [if_pos isException, hydrateExceptions_eq serves inStore]
          exact summarizeStats_withContent locale input _ rows isCache (fun asked => (isQuery asked).elim)
            (fun asked => (isRequest asked).elim)
            (fun _ topExceptions => computeExceptions_withContent _ _ _ locale topExceptions
              (faithful.families isException))
        · rw [if_neg isException]
          exact summarizeStats_withContent locale input (fun _ => .null) rows isCache
            (fun asked => (isQuery asked).elim) (fun asked => (isRequest asked).elim)
            (fun asked => (isException asked).elim)

/-- A report is made where its dates are in range. -/
theorem bucketTimeseries_isSome {C : Type*} {windowStart windowEnd : TimeValue} {buckets : Rat}
    (inRange : reportStarts windowStart windowEnd buckets ≠ none) (entries : List (Entry C)) :
    Exists fun report => bucketTimeseries windowStart windowEnd buckets entries = some report := by
  rcases Option.ne_none_iff_exists'.mp inRange with ⟨starts, shown⟩
  rw [bucketTimeseries, assemble, shown]
  exact ⟨_, rfl⟩

variable {input}

/-- Equal summaries of requests have equal statuses. -/
theorem status_of_summary_eq (isRequest : input.type = EntryType.Request)
    (inRange : reportStarts input.windowStart input.windowEnd input.buckets ≠ none)
    {first second : List (Entry Value)}
    (same : summarizeStats locale input first = summarizeStats locale input second) :
    computeStatus first = computeStatus second := by
  rcases bucketTimeseries_isSome inRange first with ⟨firstReport, firstShown⟩
  rcases bucketTimeseries_isSome inRange second with ⟨secondReport, secondShown⟩
  rw [summarizeStats, summarizeStats, firstShown, secondShown] at same
  have statuses := congrArg StatsResult.status (Option.some_inj.mp same)
  dsimp only at statuses
  rw [if_pos isRequest, if_pos isRequest] at statuses
  exact Option.some_inj.mp statuses

theorem exceptions_of_summary_eq (isException : input.type = EntryType.Exception)
    (inRange : reportStarts input.windowStart input.windowEnd input.buckets ≠ none)
    {first second : List (Entry Value)}
    (same : summarizeStats locale input first = summarizeStats locale input second) :
    computeExceptions input.windowStart input.windowEnd input.buckets locale first
        (input.topExceptions.getD DEFAULT_TOP_EXCEPTIONS) =
      computeExceptions input.windowStart input.windowEnd input.buckets locale second
        (input.topExceptions.getD DEFAULT_TOP_EXCEPTIONS) := by
  rcases bucketTimeseries_isSome inRange first with ⟨firstReport, firstShown⟩
  rcases bucketTimeseries_isSome inRange second with ⟨secondReport, secondShown⟩
  rw [summarizeStats, summarizeStats, firstShown, secondShown] at same
  have exceptions := congrArg StatsResult.exceptions (Option.some_inj.mp same)
  dsimp only at exceptions
  rw [if_pos isException, if_pos isException] at exceptions
  exact whereSome_injective exceptions

/-- One request counts in the class of its status only. -/
theorem class_of_computeStatus_eq {second : Entry Value} (same : computeStatus [first] = computeStatus [second]) :
    statusClass (requestStatus first.content) = statusClass (requestStatus second.content) := by
  have counts := congrFun same (statusClass (requestStatus second.content))
  rw [computeStatus, computeStatus, List.countP_singleton, List.countP_singleton, decide_eq_true rfl, if_pos rfl] at counts
  refine Classical.byContradiction fun different => ?_
  rw [decide_eq_false different, if_neg Bool.false_ne_true] at counts
  cases counts

/-- The exceptions of a single group, if they are to be shown. -/
theorem counts_of_one_group {windowStart windowEnd : TimeValue} {buckets : Rat} {entries : List (Entry Value)}
    {key : Units} {group : ExceptionAccumulator} {topExceptions : Nat} (shown : 0 < topExceptions)
    (alone : (Grouping.empty.gather (exceptionGroups windowStart windowEnd buckets)
      (entries.filterMap withFields)).groups = [(key, group)]) :
    (computeExceptions windowStart windowEnd buckets locale entries topExceptions).map
        (fun group => group.count) = [group.count] := by
  rw [computeExceptions, alone, List.map_singleton, List.mergeSort_singleton,
    List.take_of_length_le (by rw [List.length_singleton]; exact shown)]
  rfl

/-- An object before a row of the family without one is counted twice after hydration. -/
theorem counts_differ {windowStart windowEnd : TimeValue} {buckets : Rat} {earlier later : Entry Value}
    {topExceptions : Nat} (shown : 0 < topExceptions) (keyed : earlier.familyHash.isSome = true)
    (family : earlier.familyHash = later.familyHash) (isRecord : earlier.content.isRecord = true)
    (plain : later.content.isRecord = false) :
    computeExceptions windowStart windowEnd buckets locale
        ([earlier, later].map (withContent (exceptionContent [earlier, later]))) topExceptions ≠
      computeExceptions windowStart windowEnd buckets locale [earlier, later] topExceptions := by
  rcases Option.isSome_iff_exists.mp keyed with ⟨familyHash, isHash⟩
  have first : firstRow [earlier, later] familyHash = some earlier := by
    rw [firstRow, List.find?_cons, decide_eq_true isHash]
  have hydrated : forall row : Entry Value, row.familyHash = some familyHash ->
      withFields (withContent (exceptionContent [earlier, later]) row) =
        some (exceptionFields earlier.content, { row with content := earlier.content }) := by
    intro row isFamily
    rw [withFields, withContent, exceptionContent, isFamily, Option.bind_some, first, Option.map_some]
    dsimp only
    rw [if_pos isRecord, asExceptionContent, if_pos isRecord]
    rfl
  have ofLater := family.symm.trans isHash
  have items : ([earlier, later].map (withContent (exceptionContent [earlier, later]))).filterMap withFields =
      [(exceptionFields earlier.content, { earlier with content := earlier.content }),
        (exceptionFields earlier.content, { later with content := earlier.content })] := by
    rw [List.map_cons, List.map_cons, List.map_nil, List.filterMap_cons_some (hydrated earlier isHash),
      List.filterMap_cons_some (hydrated later ofLater), List.filterMap_nil]
  have sameKey : (exceptionGroups windowStart windowEnd buckets).key
        (exceptionFields earlier.content, { later with content := earlier.content }) =
      (exceptionGroups windowStart windowEnd buckets).key
        (exceptionFields earlier.content, { earlier with content := earlier.content }) := by
    change exceptionKey _ _ = exceptionKey _ _
    rw [exceptionKey, exceptionKey, isHash, ofLater]
  have twice := Grouping.gather_pair (exceptionGroups windowStart windowEnd buckets) sameKey
  rw [← items] at twice
  have once : (Grouping.empty.gather (exceptionGroups windowStart windowEnd buckets)
      ([earlier, later].filterMap withFields)).groups =
        [(exceptionKey earlier (exceptionFields earlier.content),
          (exceptionGroups windowStart windowEnd buckets).first (exceptionFields earlier.content, earlier))] := by
    have counted : withFields earlier = some (exceptionFields earlier.content, earlier) := by
      rw [withFields, asExceptionContent, if_pos isRecord]
      rfl
    have skipped : withFields later = none := by
      rw [withFields, asExceptionContent, plain]
      rfl
    rw [List.filterMap_cons_some counted, List.filterMap_cons_none skipped]
    rfl
  intro same
  have counts := congrArg (List.map fun group => group.count) same
  rw [counts_of_one_group locale shown twice, counts_of_one_group locale shown once] at counts
  cases counts

/-- Out of the range of dates, there are no statistics. -/
theorem summarizeStats_outOfRange {input : SummarizeStatsInput}
    (outOfRange : reportStarts input.windowStart input.windowEnd input.buckets = none)
    (entries : List (Entry Value)) : summarizeStats locale input entries = none := by
  rw [summarizeStats, bucketTimeseries, assemble, outOfRange]
  rfl

include serves inStore in
theorem faithful_of_agreement (tops : input.topExceptions = none)
    (inRange : reportStarts input.windowStart input.windowEnd input.buckets ≠ none)
    (agree : forall scanned, scanned.Sublist rows ->
      scannedStats locale get input (scanOf input.type scanned) = summarizeStats locale input scanned) :
    Faithful input.type rows := by
  have hydrated : forall scanned : List (Entry Value), scanned.Sublist rows -> input.type ≠ EntryType.Cache ->
      summarizeStats locale input (hydrateForStats get input.type (scanned.map bare)) =
        summarizeStats locale input scanned := by
    intro scanned sublist notCache
    have same := agree scanned sublist
    rw [scannedStats, scanOf, if_neg notCache, if_neg notCache] at same
    exact same
  refine ⟨fun isRequest row member code tagged => ?_, fun isException => ?_⟩
  · have sublist := List.singleton_sublist.mpr member
    have alone := hydrated [row] sublist (by rw [isRequest]; decide)
    rw [hydrateForStats, if_pos isRequest,
      hydrateRequests_eq serves fun other isOther => inStore other (sublist.subset isOther)] at alone
    have classes := class_of_computeStatus_eq (status_of_summary_eq locale isRequest inRange alone)
    change statusClass (requestStatus (requestContent row)) = _ at classes
    rw [requestStatus_requestContent, tagged] at classes
    exact classes
  · rw [SteadyFamilies, List.pairwise_iff_forall_sublist]
    intro earlier later sublist keyed family isRecord
    refine Classical.byContradiction fun plain => ?_
    have both := hydrated [earlier, later] sublist (by rw [isException]; decide)
    rw [hydrateForStats, if_neg (by rw [isException]; decide), if_neg (by rw [isException]; decide),
      if_pos isException,
      hydrateExceptions_eq serves fun other isOther => inStore other (sublist.subset isOther)] at both
    have exceptions := exceptions_of_summary_eq locale isException inRange both
    rw [tops] at exceptions
    exact counts_differ locale (by decide) keyed family isRecord (Bool.eq_false_iff.mpr plain) exceptions

end Service

/-- A store that answers queries for identifiers only. -/
def idsGet (stored : List (Entry Value)) (query : EntryQuery) : Page Value where
  data := stored.filter fun entry => decide (entry.id ∈ query.ids.getD [])
  nextCursor := none

theorem servesIds_idsGet {stored : List (Entry Value)} (distinct : Entry.DistinctIds stored) :
    ServesIds (idsGet stored) stored :=
  ⟨distinct, fun _ids _some _few => List.Perm.refl _⟩

/-- An exception of the family `TypeError` in the first minute. -/
def familyEntry (id : Text) (content : Value) : Entry Value where
  id := id
  batchId := []
  type := EntryType.Exception
  familyHash := some "TypeError".toList
  content := content
  tags := []
  sequence := 0
  durationMs := none
  origin := .manual
  instanceId := []
  traceId := none
  spanId := none
  createdAt := 0

def exceptionStats : StatsQuery where
  type := EntryType.Exception
  windowMs := .finite 60000

def typeError : Value := .object [(units "class", .string (units "TypeError"))]

def describedFamily : List (Entry Value) :=
  [familyEntry "b".toList typeError, familyEntry "a".toList typeError]

/-- A family whose older row has no object for content. -/
def undescribedFamily : List (Entry Value) :=
  [familyEntry "b".toList typeError, familyEntry "a".toList .null]

/-- The scan of a query with the contents of its entries. -/
def fullScan (store : TimeseriesStore Value) (options : StatsServiceOptions) (query : StatsQuery)
    (windowStart : TimeValue) : WindowReadResult Value :=
  Id.run (collectEntriesInWindow (fun query => pure (store.get query))
    { query.baseQuery windowStart with omitContent := false } options.toWindowReadOptions)

/-- Leaving the content out changes a page in its contents only. -/
def OmitsContent (get : EntryQuery -> Page Value) : Prop :=
  forall query : EntryQuery,
    get { query with omitContent := true } =
      { get { query with omitContent := false } with
        data := (get { query with omitContent := false }).data.map bare }

theorem scan_eq_scanOf {store : TimeseriesStore Value} (omits : OmitsContent store.get)
    (options : StatsServiceOptions) (query : StatsQuery) (windowStart : TimeValue) :
    Id.run (collectEntriesInWindow (fun query => pure (store.get query)) (query.baseQuery windowStart)
        options.toWindowReadOptions) =
      { fullScan store options query windowStart with
        entries := scanOf query.type (fullScan store options query windowStart).entries } := by
  by_cases isCache : query.type = EntryType.Cache
  · rw [scanOf, if_pos isCache, fullScan, StatsQuery.baseQuery, decide_eq_false (not_not.mpr isCache)]
  · rw [scanOf, if_neg isCache, fullScan, collectEntriesInWindow, collectEntriesInWindow, StatsQuery.baseQuery,
      decide_eq_true isCache]
    exact collectLoop_project bare
      (fun cursor limit => omits { query.baseQuery windowStart with cursor := cursor, limit := limit })
      _ _ _ none []

/-- Where the scanned entries are faithful, the service answers with their summary. -/
theorem getStats_of_faithful {store : TimeseriesStore Value} {stored : List (Entry Value)}
    (serves : ServesIds store.get stored) (omits : OmitsContent store.get)
    (inStore : forall (query : EntryQuery) entry, query.omitContent = false ->
      entry ∈ (store.get query).data -> entry ∈ stored)
    (locale : LocaleCompare) (options : StatsServiceOptions) (query : StatsQuery) (windowEnd : TimeValue)
    (faithful : forall windowStart, Faithful query.type (fullScan store options query windowStart).entries) :
    getStats locale store options query windowEnd =
      (TimeseriesQuery.windowStart { windowMs := query.windowMs } windowEnd).bind fun windowStart =>
        summarizeStats locale
          (query.input options windowStart windowEnd (fullScan store options query windowStart).truncated
            (store.rollups.bind fun rollups => estimatePercentiles rollups query.type windowStart windowEnd))
          (fullScan store options query windowStart).entries := by
  rw [getStats]
  refine congrArg _ (funext fun windowStart => ?_)
  rw [scan_eq_scanOf omits]
  exact scannedStats_of_faithful serves
    (fun row member => mem_collectLoop (fun _cursor _limit entry => inStore _ entry rfl) _ _ _ none
      (fun _ absent => absurd absent List.not_mem_nil) row member)
    locale
    (query.input options windowStart windowEnd (fullScan store options query windowStart).truncated
      (store.rollups.bind fun rollups => estimatePercentiles rollups query.type windowStart windowEnd))
    (faithful windowStart)

/-- A store of one entry. -/
def singleGet (entry : Entry Value) (query : EntryQuery) : Page Value where
  data := if query.ids.all (fun ids => decide (entry.id ∈ ids)) then [if query.omitContent then bare entry else entry]
    else []
  nextCursor := none

theorem omits_singleGet (entry : Entry Value) : OmitsContent (singleGet entry) := by
  intro query
  rw [singleGet, singleGet]
  dsimp only
  split <;> rfl

theorem perm_singleGet (entry : Entry Value) (ids : List Text) :
    (singleGet entry { ids := some ids, limit := some ids.length }).data.Perm
      ([entry].filter fun entry => decide (entry.id ∈ ids)) := by
  rw [List.filter_singleton]
  change (if decide (entry.id ∈ ids) then [entry] else []).Perm _
  cases decide (entry.id ∈ ids) <;> exact List.Perm.refl _

theorem mem_singleGet {entry found : Entry Value} {query : EntryQuery} (complete : query.omitContent = false)
    (member : found ∈ (singleGet entry query).data) : found ∈ [entry] := by
  rw [singleGet, complete] at member
  dsimp only at member
  split at member
  · exact member
  · cases member

theorem getStats_of_faithful_single :
    (getStats compare ⟨singleGet (familyEntry ['a'] typeError), none⟩ {} exceptionStats epoch).isSome = true := by
  have steady (windowStart : TimeValue) : SteadyFamilies
      (fullScan ⟨singleGet (familyEntry ['a'] typeError), none⟩ {} exceptionStats windowStart).entries :=
    List.pairwise_singleton _ (familyEntry ['a'] typeError)
  rw [getStats_of_faithful ⟨by decide, fun ids _ _ => perm_singleGet _ ids⟩ (omits_singleGet _) (fun _ _ => mem_singleGet) compare {} _ epoch
    fun windowStart => ⟨fun isRequest => absurd isRequest (by decide), fun _ => steady windowStart⟩]
  decide +kernel

end Metrics
end Telescope
