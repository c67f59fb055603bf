import Mathlib.Data.List.Infix
import Telescope.Core.Value
import Telescope.Foundation.Grouping
import Telescope.Foundation.OffsetPages
import Mathlib.Data.List.Sort

namespace Telescope
namespace TagPages

/-!
# Pages of tags

The endpoint asks the provider for one page of tags, and cuts the answer itself when it is
longer than the page.  A provider may ignore the page that it is asked for, and then an
answer of exactly the page size looks like a full page at every offset.
-/

structure TagCount where
  tag : Units
  count : Nat

structure TagQuery where
  search : Option Units
  limit : Nat
  offset : Nat

/-! ## The endpoint -/

def DEFAULT_TAG_PAGE : Nat := 50

/-- `boundedCount`, on the number that a parameter reads as, if it is there and not empty. -/
def boundedCount : Option Number -> Option Nat
  | some (.finite value) => if value.den = 1 ∧ 0 ≤ value then some value.num.toNat else none
  | _ => none

/-- How texts are trimmed, put into lower case and ordered. -/
structure Collation where
  trim : Units -> Units
  lower : Units -> Units
  /-- `left.localeCompare(right) <= 0` -/
  alphabetical : Units -> Units -> Bool

/-- `search?.trim() ? search.trim() : undefined` -/
def narrowed (collation : Collation) (search : Option Units) : Option Units :=
  (search.map collation.trim).filter fun text => !text.isEmpty

/-- The storage's `tags`. -/
abbrev Provider := Option Units -> TagQuery -> List TagCount

structure TagRequest where
  prefixText : Option Units
  search : Option Units
  limit : Option Number
  offset : Option Number

/-- The page size of a request. -/
def pageSize (limit : Option Number) : Nat := (boundedCount limit).getD DEFAULT_TAG_PAGE

/-- `TelescopeController.tags` -/
def tags (collation : Collation) (provider : Provider) (request : TagRequest) : List TagCount :=
  let size := pageSize request.limit
  let start := (boundedCount request.offset).getD 0
  let rows := provider request.prefixText
    { search := narrowed collation request.search, limit := size, offset := start }
  if size < rows.length then (rows.drop start).take size else rows

/-! ## Providers -/

/-- The two kinds of providers that the contract allows. -/
inductive Kind
  | honours
  | ignores
  deriving DecidableEq

/-- The tag begins with the prefix and holds the search, if they are given. -/
def selects (collation : Collation) (prefixText search : Option Units) (tag : Units) : Bool :=
  (prefixText.all fun text => text.isPrefixOf tag) &&
    search.all fun text => decide (collation.lower (collation.trim text) <:+: collation.lower tag)

/-- A tag is counted once for each entry that has it. -/
def COUNT : Grouping.Gathering Units Units Nat where
  key tag := tag
  first _ := 1
  change count _ := count + 1

/-- Most used first, ties alphabetical. -/
def tagOrder (collation : Collation) (left right : TagCount) : Bool :=
  decide (right.count < left.count) || (decide (left.count = right.count) && collation.alphabetical left.tag right.tag)

/-- The counts of the selected ones among the tags of all entries. -/
def tagCounts (collation : Collation) (population : List Units) (prefixText search : Option Units) : List TagCount :=
  let counts := Grouping.gather COUNT .empty (population.filter (selects collation prefixText search))
  (counts.groups.map fun group => { tag := group.1, count := group.2 }).insertionSort
    fun left right => tagOrder collation left right = true

/-- A provider that ignores the query does not search either. -/
def Kind.search (kind : Kind) (search : Option Units) : Option Units :=
  match kind with
  | .honours => search
  | .ignores => none

def providerOf (kind : Kind) (collation : Collation) (population : List Units) : Provider := fun prefixText query =>
  match kind with
  | .honours => ((tagCounts collation population prefixText query.search).drop query.offset).take query.limit
  | .ignores => tagCounts collation population prefixText none

/-! ## The tags of a population -/

section Population

variable {collation : Collation} {population : List Units} {prefixText search : Option Units}

theorem tagCounts_tags : ((tagCounts collation population prefixText search).map TagCount.tag).Perm
    ((Grouping.gather COUNT .empty (population.filter (selects collation prefixText search))).groups.map Prod.fst) := by
  rw [tagCounts]
  refine ((List.perm_insertionSort _ _).map TagCount.tag).trans ?_
  rw [List.map_map]
  exact List.Perm.refl _

theorem nodup_tagCounts : ((tagCounts collation population prefixText search).map TagCount.tag).Nodup :=
  tagCounts_tags.nodup_iff.mpr (Grouping.distinct _)

theorem mem_tagCounts {tag : Units} : tag ∈ (tagCounts collation population prefixText search).map TagCount.tag <->
    tag ∈ population ∧ selects collation prefixText search tag = true := by
  rw [tagCounts_tags.mem_iff, Grouping.keys_gather, <- List.mem_filter]
  refine ⟨fun either => ?_, fun member => .inr ?_⟩
  · rcases either with inEmpty | isKey
    · exact (List.not_mem_nil inEmpty).elim
    · rcases List.mem_map.mp isKey with ⟨other, isOther, rfl⟩
      exact isOther
  · exact List.mem_map.mpr ⟨tag, member, rfl⟩

end Population

/-! ## Following the offsets -/

/-- The page at an offset. -/
def page (kind : Kind) (collation : Collation) (population : List Units) (prefixText search : Option Units)
    (limit : Option Number) (offset : Nat) : List TagCount :=
  tags collation (providerOf kind collation population)
    { prefixText := prefixText, search := search, limit := limit, offset := some (.finite offset) }

theorem boundedCount_offset (offset : Nat) : boundedCount (some (.finite offset)) = some offset := by
  rw [boundedCount, if_pos ⟨Rat.den_natCast offset, Nat.cast_nonneg offset⟩, Rat.num_natCast, Int.toNat_natCast]

variable {kind : Kind} {collation : Collation} {population : List Units} {prefixText search : Option Units}
  {limit : Option Number}

/-- What following the pages is to list. -/
def listed (kind : Kind) (collation : Collation) (population : List Units) (prefixText search : Option Units) :
    List TagCount :=
  tagCounts collation population prefixText (kind.search (narrowed collation search))

theorem page_honours (offset : Nat) :
    page .honours collation population prefixText search limit offset =
      ((listed .honours collation population prefixText search).drop offset).take (pageSize limit) := by
  rw [page, tags, boundedCount_offset]
  refine if_neg (Nat.not_lt.mpr ?_)
  exact (List.length_take_le ..)

theorem page_ignores (offset : Nat) :
    page .ignores collation population prefixText search limit offset =
      if pageSize limit < (listed .ignores collation population prefixText search).length then
        ((listed .ignores collation population prefixText search).drop offset).take (pageSize limit)
      else listed .ignores collation population prefixText search := by
  rw [page, tags, boundedCount_offset]
  rfl

/-- Following the pages ends, and shows every selected tag exactly once. -/
def ListsOnce (fetch : Nat -> List TagCount) (size : Nat) (selected : Units -> Prop) : Prop :=
  Exists fun pages => FollowsPages fetch size 0 pages ∧
    (pages.flatten.map TagCount.tag).Nodup ∧ forall tag, tag ∈ pages.flatten.map TagCount.tag <-> selected tag

theorem listsOnce_of_listed {fetch : Nat -> List TagCount} {size : Nat}
    (found : Exists fun pages => FollowsPages fetch size 0 pages ∧
      pages.flatten = listed kind collation population prefixText search) :
    ListsOnce fetch size fun tag =>
      tag ∈ population ∧ selects collation prefixText (kind.search (narrowed collation search)) tag = true := by
  rcases found with ⟨pages, follows, isListed⟩
  refine ⟨pages, follows, ?_, fun tag => ?_⟩
  · rw [isListed]
    exact nodup_tagCounts
  · rw [isListed]
    exact mem_tagCounts

/-- Following the pages of a size lists every tag exactly once just for a positive size,
and if the provider honours the page or has not exactly as many tags. -/
theorem tag_pages_iff (kind : Kind) (collation : Collation) (population : List Units) (prefixText search : Option Units)
    (limit : Option Number) :
    ListsOnce (page kind collation population prefixText search limit) (pageSize limit)
        (fun tag => tag ∈ population ∧ selects collation prefixText (kind.search (narrowed collation search)) tag = true) <->
      0 < pageSize limit ∧
        (kind = .honours ∨ (listed kind collation population prefixText search).length ≠ pageSize limit) := by
  constructor
  · intro once
    rcases once with ⟨pages, follows, _⟩
    have positive : 0 < pageSize limit := by
      refine Nat.pos_of_ne_zero fun zero => ?_
      rw [zero] at follows
      exact FollowsPages.not_of_full (fun _ => Nat.zero_le _) follows
    refine ⟨positive, ?_⟩
    cases kind with
    | honours => exact .inl rfl
    | ignores =>
        refine .inr fun same => ?_
        refine FollowsPages.not_of_full (fun offset => ?_) follows
        rw [page_ignores, if_neg (by omega)]
        omega
  · intro condition
    rcases condition with ⟨positive, isKind⟩
    refine listsOnce_of_listed ?_
    cases kind with
    | honours => exact FollowsPages.exists_of_slices positive page_honours 0
    | ignores =>
        have other := isKind.resolve_left (fun same => by cases same)
        by_cases longer : pageSize limit < (listed .ignores collation population prefixText search).length
        · refine FollowsPages.exists_of_slices positive (fun offset => ?_) 0
          rw [page_ignores, if_pos longer, listed]
        · have whole := (@page_ignores collation population prefixText search limit 0).trans (if_neg longer)
          refine ⟨[page .ignores collation population prefixText search limit 0], .last ?_, ?_⟩
          · rw [whole]
            omega
          · rw [List.flatten_singleton, whole]

/-! ## A full page of all tags -/

/-- Texts are taken as they are, and ties stay in their order. -/
def plainCollation : Collation where
  trim := id
  lower := id
  alphabetical _ _ := true

/-- Two tags, in pages of two, from a provider that ignores the page. -/
theorem full_page_never_ends :
    ¬ forall (kind : Kind) (collation : Collation) (population : List Units) (prefixText search : Option Units)
      (limit : Option Number),
      ListsOnce (page kind collation population prefixText search limit) (pageSize limit)
        (fun tag => tag ∈ population ∧ selects collation prefixText (kind.search (narrowed collation search)) tag = true) := by
  intro lists
  rcases lists .ignores plainCollation [units "failed", units "slow"] none none (some (.finite 2)) with ⟨pages, follows, _⟩
  have size : pageSize (some (.finite 2)) = 2 := rfl
  have tagCount : (listed .ignores plainCollation [units "failed", units "slow"] none none).length = 2 := by decide +kernel
  refine FollowsPages.not_of_full (fun offset => ?_) follows
  rw [page_ignores, if_neg (by omega)]
  omega

end TagPages
end Telescope
