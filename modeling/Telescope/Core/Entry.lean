import Telescope.Core.Text
import Mathlib.Data.List.Sort
import Mathlib.Data.Rat.Defs

namespace Telescope

universe u

/-!
# Entries and their page order

Instants are integers of milliseconds since the epoch.  The content of an entry
is a parameter: providers pass it through, null it, or search its JSON text.
Pages list entries newest first with ties broken by identifier; on entries with
distinct identifiers this is a strict total order, so a sorted list is
determined by its members.
-/

inductive BatchOrigin
  | http
  | queue
  | schedule
  | cli
  | manual
  deriving DecidableEq

/-- A captured, persisted record. -/
structure Entry (C : Type u) where
  id : Text
  batchId : Text
  type : Text
  familyHash : Option Text
  content : C
  tags : List Text
  sequence : Int
  durationMs : Option Rat
  origin : BatchOrigin
  instanceId : Text
  traceId : Option Text
  spanId : Option Text
  createdAt : Int
  deriving DecidableEq

/-- A `Partial<Entry>`.  The identifier is immutable, so a patch carries none. -/
structure Patch (C : Type u) where
  batchId : Option Text := none
  type : Option Text := none
  familyHash : Option (Option Text) := none
  content : Option C := none
  tags : Option (List Text) := none
  sequence : Option Int := none
  durationMs : Option (Option Rat) := none
  origin : Option BatchOrigin := none
  instanceId : Option Text := none
  traceId : Option (Option Text) := none
  spanId : Option (Option Text) := none
  createdAt : Option Int := none

/-- `{ ...existing, ...patch, id: existing.id }`. -/
def Patch.apply {C : Type u} (patch : Patch C) (existing : Entry C) : Entry C where
  id := existing.id
  batchId := patch.batchId.getD existing.batchId
  type := patch.type.getD existing.type
  familyHash := patch.familyHash.getD existing.familyHash
  content := patch.content.getD existing.content
  tags := patch.tags.getD existing.tags
  sequence := patch.sequence.getD existing.sequence
  durationMs := patch.durationMs.getD existing.durationMs
  origin := patch.origin.getD existing.origin
  instanceId := patch.instanceId.getD existing.instanceId
  traceId := patch.traceId.getD existing.traceId
  spanId := patch.spanId.getD existing.spanId
  createdAt := patch.createdAt.getD existing.createdAt

/-- What providers know of a content: its null, its JSON text, and the host's
`toLowerCase`. -/
class JsonContent (C : Type u) where
  null : C
  stringify : C -> Text
  toLowerCase : Text -> Text

/-- Contents given by their JSON text, with the ASCII part of `toLowerCase`. -/
instance : JsonContent Text where
  null := ['n', 'u', 'l', 'l']
  stringify := id
  toLowerCase := List.map Char.toLower

/-- A plain entry. -/
def plainEntry (id type : Text) (createdAt : Int) : Entry Text where
  id := id
  batchId := ['b']
  type := type
  familyHash := none
  content := ['{', '}']
  tags := []
  sequence := 0
  durationMs := none
  origin := .http
  instanceId := ['p']
  traceId := none
  spanId := none
  createdAt := createdAt

/-! ## Page order -/

/-- A place in the page order. -/
structure Position where
  createdAt : Int
  id : Text
  deriving DecidableEq

/-- `createdAt` descending, then `id` descending by code units. -/
def Position.Newer (left right : Position) : Prop :=
  right.createdAt < left.createdAt ∨
    (left.createdAt = right.createdAt ∧ right.id.Before left.id)

namespace Position

instance (left right : Position) : Decidable (left.Newer right) :=
  inferInstanceAs (Decidable (_ ∨ _))

theorem newer_asymm {left right : Position} (newer : left.Newer right) : ¬ right.Newer left := by
  rcases newer with older | ⟨same, before⟩
  · rintro (newer | ⟨same, _⟩)
    · exact lt_asymm older newer
    · exact older.ne same
  · rintro (newer | ⟨_, after⟩)
    · exact newer.ne same
    · exact Text.before_asymm before after

theorem newer_trans {first second third : Position} (left : first.Newer second)
    (right : second.Newer third) : first.Newer third := by
  rcases left with left | ⟨leftSame, leftBefore⟩
  · rcases right with right | ⟨rightSame, _⟩
    · exact .inl (lt_trans right left)
    · exact .inl (rightSame ▸ left)
  · rcases right with right | ⟨rightSame, rightBefore⟩
    · exact .inl (leftSame.symm ▸ right)
    · exact .inr ⟨leftSame.trans rightSame, Text.before_trans rightBefore leftBefore⟩

theorem newer_trichotomy (left right : Position) :
    left.Newer right ∨ left = right ∨ right.Newer left := by
  rcases lt_trichotomy left.createdAt right.createdAt with older | same | newer
  · exact .inr (.inr (.inl older))
  · rcases Text.before_trichotomy left.id right.id with before | sameId | after
    · exact .inr (.inr (.inr ⟨same.symm, before⟩))
    · cases left
      cases right
      cases same
      cases sameId
      exact .inr (.inl rfl)
    · exact .inl (.inr ⟨same, after⟩)
  · exact .inl (.inl newer)

/-- The page order: what comes first on a page is least. -/
instance : LinearOrder Position where
  le left right := ¬ right.Newer left
  lt := Newer
  le_refl position newer := newer_asymm newer newer
  le_trans first second third left right newer := by
    rcases newer_trichotomy first second with before | same | after
    · exact right (newer_trans newer before)
    · exact right (same ▸ newer)
    · exact left after
  lt_iff_le_not_ge left right :=
    ⟨fun newer => ⟨newer_asymm newer, not_not.mpr newer⟩, fun both => not_not.mp both.2⟩
  le_antisymm left right notAfter notBefore := by
    rcases newer_trichotomy left right with before | same | after
    · exact (notBefore before).elim
    · exact same
    · exact (notAfter after).elim
  le_total left right := by
    by_cases newer : right.Newer left
    · exact .inr (newer_asymm newer)
    · exact .inl newer
  toDecidableLE left right := inferInstanceAs (Decidable (¬ right.Newer left))
  toDecidableLT left right := inferInstanceAs (Decidable (left.Newer right))
  toDecidableEq left right := inferInstanceAs (Decidable (left = right))

end Position

variable {C : Type u}

variable {entries : List (Entry C)}

namespace Entry

def position (entry : Entry C) : Position := ⟨entry.createdAt, entry.id⟩

def Newer (left right : Entry C) : Prop := left.position.Newer right.position

instance (left right : Entry C) : Decidable (left.Newer right) :=
  inferInstanceAs (Decidable (Position.Newer _ _))

/-- Entries whose identifiers are distinct. -/
def DistinctIds (entries : List (Entry C)) : Prop :=
  (entries.map Entry.id).Nodup

/-- `{ ...entry, content: null }`. -/
def withoutContent [JsonContent C] (entry : Entry C) : Entry C :=
  { entry with content := JsonContent.null }

instance (entries : List (Entry C)) : Decidable (DistinctIds entries) :=
  inferInstanceAs (Decidable (List.Nodup _))

theorem distinctIds_sublist {rest : List (Entry C)} (sublist : rest.Sublist entries) (distinct : DistinctIds entries) :
    DistinctIds rest :=
  List.Nodup.sublist (sublist.map Entry.id) distinct

theorem eq_of_id (distinct : DistinctIds entries) {left right : Entry C} (leftMember : left ∈ entries)
    (rightMember : right ∈ entries) (same : left.id = right.id) : left = right :=
  List.inj_on_of_nodup_map distinct leftMember rightMember same

end Entry

/-- `[...new Set(elements)]` holds nothing twice. -/
theorem nodup_eraseDups {α : Type} [BEq α] [LawfulBEq α] (elements : List α) : elements.eraseDups.Nodup := by
  induction size : elements.length using Nat.strong_induction_on generalizing elements with
  | _ size inductionHypothesis =>
      cases elements with
      | nil => exact List.nodup_nil
      | cons first elements =>
          rw [List.eraseDups_cons]
          refine List.nodup_cons.mpr ⟨fun again => ?_, inductionHypothesis _ ?_ _ rfl⟩
          · have different := (List.mem_filter.mp (List.mem_eraseDups.mp again)).2
            rw [beq_self_eq_true] at different
            cases different
          · rw [← size]
            exact Nat.lt_succ_of_le (List.length_filter_le _ _)

/-- `sort(newestFirst)`. -/
def sortNewestFirst (entries : List (Entry C)) : List (Entry C) :=
  entries.insertionSort fun left right => ¬ right.Newer left

/-- A list in strict page order. -/
def NewestFirst (entries : List (Entry C)) : Prop := entries.Pairwise Entry.Newer

private instance : Std.Total fun left right : Entry C => ¬ right.Newer left where
  total left right := by
    by_cases newer : right.Newer left
    · exact .inr (Position.newer_asymm newer)
    · exact .inl newer

private instance : IsTrans (Entry C) fun left right : Entry C => ¬ right.Newer left where
  trans first second third left right := by
    intro newer
    rcases Position.newer_trichotomy first.position second.position with before | same | after
    · exact right (Position.newer_trans newer before)
    · rw [Entry.Newer, same] at newer
      exact right newer
    · exact left after

theorem sortNewestFirst_perm (entries : List (Entry C)) :
    (sortNewestFirst entries).Perm entries :=
  List.perm_insertionSort _ entries

@[simp] theorem mem_sortNewestFirst {entry : Entry C} :
    entry ∈ sortNewestFirst entries <-> entry ∈ entries :=
  (sortNewestFirst_perm entries).mem_iff

@[simp] theorem length_sortNewestFirst (entries : List (Entry C)) :
    (sortNewestFirst entries).length = entries.length :=
  (sortNewestFirst_perm entries).length_eq

theorem newestFirst_sort (distinct : Entry.DistinctIds entries) :
    NewestFirst (sortNewestFirst entries) := by
  have ordered : (sortNewestFirst entries).Pairwise fun left right => ¬ right.Newer left :=
    List.pairwise_insertionSort _ entries
  have separate : (sortNewestFirst entries).Pairwise fun left right => left.id ≠ right.id :=
    List.pairwise_map.mp (((sortNewestFirst_perm entries).map Entry.id).nodup_iff.mpr distinct)
  refine (ordered.and separate).imp fun {left right} both => ?_
  rcases Position.newer_trichotomy left.position right.position with newer | same | older
  · exact newer
  · exact (both.2 (congrArg Position.id same)).elim
  · exact (both.1 older).elim

/-- Two lists in page order with the same entries are equal. -/
theorem NewestFirst.eq_of_perm {left right : List (Entry C)} (leftSorted : NewestFirst left)
    (rightSorted : NewestFirst right) (perm : left.Perm right) : left = right :=
  perm.eq_of_pairwise
    (fun _ _ _ _ newer older => (Position.newer_asymm newer older).elim) leftSorted rightSorted

theorem sortNewestFirst_congr {left right : List (Entry C)} (distinct : Entry.DistinctIds left)
    (perm : left.Perm right) : sortNewestFirst left = sortNewestFirst right := by
  have distinctRight : Entry.DistinctIds right := (perm.map Entry.id).nodup_iff.mp distinct
  exact (newestFirst_sort distinct).eq_of_perm (newestFirst_sort distinctRight)
    ((sortNewestFirst_perm left).trans (perm.trans (sortNewestFirst_perm right).symm))

theorem sortNewestFirst_filter (distinct : Entry.DistinctIds entries) (keeps : Entry C -> Bool) :
    sortNewestFirst (entries.filter keeps) = (sortNewestFirst entries).filter keeps := by
  have distinctKept := Entry.distinctIds_sublist (List.filter_sublist (p := keeps)) distinct
  exact (newestFirst_sort distinctKept).eq_of_perm ((newestFirst_sort distinct).filter keeps)
    ((sortNewestFirst_perm _).trans ((sortNewestFirst_perm entries).symm.filter keeps))

/-- Sorting two stretches of which the first is newer throughout. -/
theorem sortNewestFirst_append {newer older : List (Entry C)}
    (distinct : Entry.DistinctIds (newer ++ older))
    (across : forall left, left ∈ newer -> forall right, right ∈ older -> left.Newer right) :
    sortNewestFirst (newer ++ older) = sortNewestFirst newer ++ sortNewestFirst older := by
  have distinctNewer := Entry.distinctIds_sublist (List.sublist_append_left newer older) distinct
  have distinctOlder := Entry.distinctIds_sublist (List.sublist_append_right newer older) distinct
  refine (newestFirst_sort distinct).eq_of_perm ?_ ?_
  · refine List.pairwise_append.mpr
      ⟨newestFirst_sort distinctNewer, newestFirst_sort distinctOlder, ?_⟩
    intro left leftMember right rightMember
    exact across left (mem_sortNewestFirst.mp leftMember) right (mem_sortNewestFirst.mp rightMember)
  · exact (sortNewestFirst_perm _).trans
      ((sortNewestFirst_perm newer).append (sortNewestFirst_perm older)).symm

/-! ## The entries that stay -/

/-- The contents without some entries. -/
def without (contents gone : List (Entry C)) : List (Entry C) :=
  contents.filter fun entry => decide (entry.id ∉ gone.map Entry.id)

variable {contents gone : List (Entry C)}

theorem mem_without {entry : Entry C} :
    entry ∈ without contents gone <-> entry ∈ contents ∧ entry.id ∉ gone.map Entry.id := by
  rw [without, List.mem_filter, decide_eq_true_eq]

theorem without_without (contents first second : List (Entry C)) :
    without (without contents first) second = without contents (first ++ second) := by
  rw [without, without, without, List.filter_filter]
  refine List.filter_congr fun entry _ => ?_
  rw [← Bool.decide_and]
  refine decide_eq_decide.mpr ?_
  rw [List.map_append, List.mem_append, not_or]
  exact and_comm

/-- Some of the stored entries, each at most once. -/
structure Selection (contents gone : List (Entry C)) : Prop where
  subset : forall entry, entry ∈ gone -> entry ∈ contents
  distinct : Entry.DistinctIds gone

theorem Selection.mem_of_id (distinct : Entry.DistinctIds contents) (selection : Selection contents gone)
    {entry : Entry C} (member : entry ∈ contents) (id : entry.id ∈ gone.map Entry.id) :
    entry ∈ gone := by
  rcases List.mem_map.mp id with ⟨other, otherGone, same⟩
  rwa [← Entry.eq_of_id distinct (selection.subset other otherGone) member same]

theorem Selection.filter (selection : Selection contents gone) (keeps : Entry C -> Bool) :
    Selection contents (gone.filter keeps) where
  subset := fun entry member => selection.subset entry (List.mem_of_mem_filter member)
  distinct := Entry.distinctIds_sublist List.filter_sublist selection.distinct

/-- The contents are the entries that stay and the entries that go. -/
theorem perm_without_append (distinct : Entry.DistinctIds contents) (selection : Selection contents gone) :
    contents.Perm (without contents gone ++ gone) := by
  have parts := List.filter_append_perm
    (fun entry : Entry C => decide (entry.id ∉ gone.map Entry.id)) contents
  refine parts.symm.trans (List.Perm.append_left _ ?_)
  refine (List.perm_ext_iff_of_nodup ?_ ?_).mpr fun entry => ?_
  · exact (List.Nodup.of_map _ distinct).filter _
  · exact List.Nodup.of_map _ selection.distinct
  · rw [List.mem_filter, Bool.not_eq_true', decide_eq_false_iff_not, not_not]
    constructor
    · rintro ⟨member, id⟩
      exact selection.mem_of_id distinct member id
    · intro member
      exact ⟨selection.subset entry member, List.mem_map_of_mem member⟩

end Telescope
