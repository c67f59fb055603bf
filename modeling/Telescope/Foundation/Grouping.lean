import Mathlib.Algebra.BigOperators.Group.List.Basic
import Mathlib.Data.List.Nodup

namespace Telescope

/-!
# Grouping

A map that keeps its keys in the order of their first use.  Items are gathered into it
one after another: the first item of a key makes the value of its group, the others
change it.  What is additive over the items is then the sum over the groups, however
the items are spread over them.
-/

universe u v w

/-- Groups under distinct keys. -/
structure Grouping (κ : Type u) (ν : Type v) where
  groups : List (κ × ν)
  distinct : (groups.map Prod.fst).Nodup

namespace Grouping

variable {κ : Type u} {ν : Type v} {α : Type w} [DecidableEq κ]

def empty : Grouping κ ν := ⟨[], List.nodup_nil⟩

/-- Change the group of the key, or append one. -/
def upsertGroups (key : κ) (first : ν) (change : ν -> ν) : List (κ × ν) -> List (κ × ν)
  | [] => [(key, first)]
  | (other, value) :: groups =>
      if other = key then (other, change value) :: groups
      else (other, value) :: upsertGroups key first change groups

variable {key : κ} {first : ν} {change : ν -> ν} {groups : List (κ × ν)}

theorem mem_upsertGroups {group : κ × ν} (member : group ∈ upsertGroups key first change groups) :
    group ∈ groups ∨ group = (key, first) ∨ Exists fun value => (key, value) ∈ groups ∧ group = (key, change value) := by
  induction groups with
  | nil => exact .inr (.inl (List.mem_singleton.mp member))
  | cons head groups inductionHypothesis =>
      rcases head with ⟨other, value⟩
      rw [upsertGroups] at member
      split at member
      · rename_i same
        cases same
        rcases List.mem_cons.mp member with changed | unchanged
        · exact .inr (.inr ⟨value, List.mem_cons_self .., changed⟩)
        · exact .inl (List.mem_cons_of_mem _ unchanged)
      · rcases List.mem_cons.mp member with isHead | later
        · exact .inl (isHead ▸ List.mem_cons_self ..)
        · rcases inductionHypothesis later with kept | isFirst | ⟨previous, there, changed⟩
          · exact .inl (List.mem_cons_of_mem _ kept)
          · exact .inr (.inl isFirst)
          · exact .inr (.inr ⟨previous, List.mem_cons_of_mem _ there, changed⟩)

theorem mem_keys_upsertGroups {other : κ} (member : other ∈ (upsertGroups key first change groups).map Prod.fst) :
    other = key ∨ other ∈ groups.map Prod.fst := by
  rcases List.mem_map.mp member with ⟨group, isGroup, rfl⟩
  rcases mem_upsertGroups isGroup with kept | isFirst | ⟨value, there, changed⟩
  · exact .inr (List.mem_map_of_mem kept)
  · exact .inl (congrArg Prod.fst isFirst)
  · exact .inl (congrArg Prod.fst changed)

theorem nodup_upsertGroups (key : κ) (first : ν) (change : ν -> ν) (distinct : (groups.map Prod.fst).Nodup) :
    ((upsertGroups key first change groups).map Prod.fst).Nodup := by
  induction groups with
  | nil => exact List.nodup_singleton key
  | cons head groups inductionHypothesis =>
      rcases head with ⟨other, value⟩
      rw [upsertGroups]
      split
      · exact distinct
      · rename_i different
        rw [List.map_cons, List.nodup_cons] at distinct ⊢
        refine ⟨fun again => ?_, inductionHypothesis distinct.2⟩
        rcases mem_keys_upsertGroups again with same | there
        · exact different same
        · exact distinct.1 there

def upsert (grouping : Grouping κ ν) (key : κ) (first : ν) (change : ν -> ν) : Grouping κ ν where
  groups := upsertGroups key first change grouping.groups
  distinct := nodup_upsertGroups key first change grouping.distinct

def values (grouping : Grouping κ ν) : List ν := grouping.groups.map Prod.snd

/-- Change every value. -/
def mapValues {μ : Type w} (change : ν -> μ) (grouping : Grouping κ ν) : Grouping κ μ where
  groups := grouping.groups.map fun group => (group.1, change group.2)
  distinct := by
    rw [List.map_map]
    exact grouping.distinct

/-- What the items of a gathering are put under, and what they do to their group. -/
structure Gathering (α : Type w) (κ : Type u) (ν : Type v) where
  key : α -> κ
  first : α -> ν
  change : ν -> α -> ν

/-- Put items into their groups. -/
def gather (gathering : Gathering α κ ν) (grouping : Grouping κ ν) (items : List α) : Grouping κ ν :=
  items.foldl (fun grouping item =>
    grouping.upsert (gathering.key item) (gathering.first item) fun value => gathering.change value item) grouping

/-! ## Lookups -/

/-- The value of a key. -/
def lookup (grouping : Grouping κ ν) (key : κ) : Option ν :=
  (grouping.groups.find? fun group => decide (group.1 = key)).map Prod.snd

/-- Put an item into its group; no group is opened when there are as many as the cap. -/
def upsertCapped (cap : Nat) (grouping : Grouping κ ν) (key : κ) (first : ν) (change : ν -> ν) : Grouping κ ν :=
  if (grouping.lookup key).isNone ∧ cap ≤ grouping.groups.length then grouping else grouping.upsert key first change

theorem find?_upsertGroups (key other : κ) (first : ν) (change : ν -> ν) (groups : List (κ × ν)) :
    ((upsertGroups key first change groups).find? fun group => decide (group.1 = other)).map Prod.snd =
      if other = key then
        some (((groups.find? fun group => decide (group.1 = key)).map Prod.snd).elim first change)
      else (groups.find? fun group => decide (group.1 = other)).map Prod.snd := by
  induction groups with
  | nil =>
      rw [upsertGroups, List.find?_singleton]
      simp only [decide_eq_true_eq, eq_comm (a := key)]
      split <;> rfl
  | cons head groups inductionHypothesis =>
      rcases head with ⟨present, value⟩
      rw [upsertGroups]
      by_cases isKey : present = key
      · rw [if_pos isKey, List.find?_cons, List.find?_cons, List.find?_cons, isKey, decide_eq_true rfl]
        by_cases same : other = key
        · rw [if_pos same, same, decide_eq_true rfl]
          rfl
        · rw [if_neg same, decide_eq_false (Ne.symm same)]
      · rw [if_neg isKey, List.find?_cons, List.find?_cons, List.find?_cons, decide_eq_false isKey]
        by_cases same : present = other
        · have different : other ≠ key := fun equal => isKey (same.trans equal)
          rw [if_neg different, decide_eq_true same]
        · rw [decide_eq_false same]
          exact inductionHypothesis

theorem lookup_upsert (grouping : Grouping κ ν) (key other : κ) (first : ν) (change : ν -> ν) :
    (grouping.upsert key first change).lookup other =
      if other = key then some ((grouping.lookup key).elim first change) else grouping.lookup other :=
  find?_upsertGroups key other first change grouping.groups

/-- There is one more group where the key had none. -/
theorem length_upsert (grouping : Grouping κ ν) (key : κ) (first : ν) (change : ν -> ν) :
    (grouping.upsert key first change).groups.length =
      grouping.groups.length + if (grouping.lookup key).isSome then 0 else 1 := by
  rcases grouping with ⟨groups, distinct⟩
  change (upsertGroups key first change groups).length =
    groups.length + if ((groups.find? fun group => decide (group.1 = key)).map Prod.snd).isSome then 0 else 1
  clear distinct
  induction groups with
  | nil => rfl
  | cons head groups inductionHypothesis =>
      rcases head with ⟨present, value⟩
      rw [upsertGroups, List.find?_cons]
      by_cases isKey : present = key
      · rw [if_pos isKey, decide_eq_true isKey]
        rfl
      · rw [if_neg isKey, decide_eq_false isKey, List.length_cons, inductionHypothesis, List.length_cons,
          Nat.add_right_comm]

/-- Where items do not change their group, it holds the first item of its key. -/
theorem lookup_gather_first {gathering : Gathering α κ ν} (keeps : forall value item, gathering.change value item = value)
    (grouping : Grouping κ ν) (items : List α) (key : κ) :
    (grouping.gather gathering items).lookup key =
      (grouping.lookup key).or ((items.find? fun item => decide (gathering.key item = key)).map gathering.first) := by
  induction items generalizing grouping with
  | nil => exact (Option.or_none).symm
  | cons item items inductionHypothesis =>
      change (gather gathering (grouping.upsert _ _ _) items).lookup key = _
      rw [inductionHypothesis, lookup_upsert, List.find?_cons]
      by_cases isKey : gathering.key item = key
      · rw [if_pos isKey.symm, isKey, decide_eq_true rfl]
        cases grouping.lookup key with
        | none => rfl
        | some value => exact congrArg some (keeps value item)
      · rw [if_neg (Ne.symm isKey), decide_eq_false isKey]

theorem lookup_mapValues {μ : Type w} (change : ν -> μ) (grouping : Grouping κ ν) (key : κ) :
    (grouping.mapValues change).lookup key = (grouping.lookup key).map change := by
  change (((grouping.groups.map fun group => (group.1, change group.2)).find? fun group =>
    decide (group.1 = key)).map Prod.snd) = _
  rw [List.find?_map, Option.map_map, lookup, Option.map_map]
  rfl

variable {grouping : Grouping κ ν}

theorem mem_iff_lookup {value : ν} :
    (key, value) ∈ grouping.groups <-> grouping.lookup key = some value := by
  rcases grouping with ⟨groups, distinct⟩
  change (key, value) ∈ groups <-> (groups.find? fun group => decide (group.1 = key)).map Prod.snd = some value
  induction groups with
  | nil => exact iff_of_false List.not_mem_nil (fun found => by cases found)
  | cons head groups inductionHypothesis =>
      rcases head with ⟨other, present⟩
      rw [List.map_cons, List.nodup_cons] at distinct
      rw [List.mem_cons, List.find?_cons]
      by_cases isKey : other = key
      · rw [isKey, decide_eq_true rfl, Option.map_some, Option.some_inj]
        constructor
        · rintro (isHead | later)
          · exact (congrArg Prod.snd isHead).symm
          · have again := List.mem_map_of_mem (f := Prod.fst) later
            rw [← isKey] at again
            exact (distinct.1 again).elim
        · rintro rfl
          exact .inl rfl
      · rw [decide_eq_false isKey]
        rw [← inductionHypothesis distinct.2]
        exact or_iff_right fun isHead => isKey (congrArg Prod.fst isHead).symm

/-! ## Gatherings alike -/

theorem upsertGroups_congr {other : ν} (same : key ∉ groups.map Prod.fst -> first = other) :
    upsertGroups key first change groups = upsertGroups key other change groups := by
  induction groups with
  | nil => rw [upsertGroups, upsertGroups, same List.not_mem_nil]
  | cons head groups inductionHypothesis =>
      rcases head with ⟨present, value⟩
      rw [upsertGroups, upsertGroups]
      by_cases isKey : present = key
      · rw [if_pos isKey, if_pos isKey]
      · rw [if_neg isKey, if_neg isKey, inductionHypothesis]
        intro absent
        refine same ?_
        rw [List.map_cons, List.mem_cons]
        rintro (isHead | later)
        · exact isKey isHead.symm
        · exact absent later

theorem keys_upsertGroups (key : κ) (first : ν) (change : ν -> ν) (groups : List (κ × ν)) :
    forall other, other ∈ (upsertGroups key first change groups).map Prod.fst <->
      other = key ∨ other ∈ groups.map Prod.fst := by
  intro other
  refine ⟨mem_keys_upsertGroups, fun member => ?_⟩
  induction groups with
  | nil =>
      rcases member with isKey | absent
      · rw [isKey]
        exact List.mem_singleton_self key
      · exact (List.not_mem_nil absent).elim
  | cons head groups inductionHypothesis =>
      rcases head with ⟨present, value⟩
      rw [upsertGroups]
      by_cases isKey : present = key
      · rw [if_pos isKey]
        rw [List.map_cons, List.mem_cons]
        rcases member with same | there
        · exact .inl (same.trans isKey.symm)
        · exact List.mem_cons.mp there
      · rw [if_neg isKey, List.map_cons, List.mem_cons]
        rw [List.map_cons, List.mem_cons] at member
        rcases member with same | isHead | later
        · exact .inr (inductionHypothesis (.inl same))
        · exact .inl isHead
        · exact .inr (inductionHypothesis (.inr later))

/-- Gathered items are found under their keys, and nothing else is. -/
theorem keys_gather (gathering : Gathering α κ ν) (grouping : Grouping κ ν) (items : List α) (other : κ) :
    other ∈ (gather gathering grouping items).groups.map Prod.fst <->
      other ∈ grouping.groups.map Prod.fst ∨ other ∈ items.map gathering.key := by
  induction items generalizing grouping with
  | nil => exact ⟨.inl, fun member => member.resolve_right fun absent => List.not_mem_nil absent⟩
  | cons item items inductionHypothesis =>
      rw [gather, List.foldl_cons, <- gather, inductionHypothesis, upsert, keys_upsertGroups, List.map_cons, List.mem_cons]
      exact ⟨fun member => member.elim (fun first => first.elim (fun isKey => .inr (.inl isKey)) .inl) fun later =>
          .inr (.inr later),
        fun member => member.elim (fun before => .inl (.inr before)) fun later =>
          later.elim (fun isKey => .inl (.inl isKey)) .inr⟩

/-- Two gatherings under the same keys agree where their changes do and the first item of
every key makes the same value. -/
theorem gather_congr {left right : Gathering α κ ν} {items : List α}
    (keys : forall item, item ∈ items -> left.key item = right.key item)
    (changes : forall item, item ∈ items -> forall value, left.change value item = right.change value item)
    (grouping : Grouping κ ν)
    (firsts : forall before item after, items = before ++ item :: after ->
      left.key item ∉ grouping.groups.map Prod.fst -> left.key item ∉ before.map left.key ->
        left.first item = right.first item) :
    grouping.gather left items = grouping.gather right items := by
  induction items generalizing grouping with
  | nil => rfl
  | cons item items inductionHypothesis =>
      have isItem : item ∈ item :: items := List.mem_cons_self ..
      have step : grouping.upsert (left.key item) (left.first item) (fun value => left.change value item) =
          grouping.upsert (right.key item) (right.first item) (fun value => right.change value item) := by
        rw [← keys item isItem, funext (changes item isItem)]
        unfold upsert
        congr 1
        exact upsertGroups_congr fun absent => firsts [] item items rfl absent List.not_mem_nil
      change gather left (grouping.upsert _ _ _) items = gather right (grouping.upsert _ _ _) items
      rw [← step]
      refine inductionHypothesis (fun later member => keys later (List.mem_cons_of_mem _ member))
        (fun later member => changes later (List.mem_cons_of_mem _ member)) _ ?_
      intro before next after split absent fresh
      rw [upsert] at absent
      simp only [keys_upsertGroups, not_or] at absent
      refine firsts (item :: before) next after (by rw [split, List.cons_append]) absent.2 ?_
      rw [List.map_cons, List.mem_cons]
      rintro (same | earlier)
      · exact absent.1 same
      · exact fresh earlier

/-- The gathering of other items, by what they stand for. -/
def Gathering.comap {β : Type*} (gathering : Gathering α κ ν) (item : β -> α) : Gathering β κ ν where
  key source := gathering.key (item source)
  first source := gathering.first (item source)
  change value source := gathering.change value (item source)

theorem gather_map {β : Type*} (gathering : Gathering α κ ν) (grouping : Grouping κ ν) (item : β -> α)
    (sources : List β) :
    grouping.gather gathering (sources.map item) = grouping.gather (gathering.comap item) sources :=
  List.foldl_map

theorem map_upsertGroups {μ : Type*} {convert : ν -> μ} {other : μ -> μ}
    (changes : forall value, convert (change value) = other (convert value)) (groups : List (κ × ν)) :
    (upsertGroups key first change groups).map (fun group => (group.1, convert group.2)) =
      upsertGroups key (convert first) other (groups.map fun group => (group.1, convert group.2)) := by
  induction groups with
  | nil => rfl
  | cons head groups inductionHypothesis =>
      rcases head with ⟨present, value⟩
      rw [upsertGroups, List.map_cons, upsertGroups]
      by_cases isKey : present = key
      · rw [if_pos isKey, if_pos isKey, List.map_cons, changes]
      · rw [if_neg isKey, if_neg isKey, List.map_cons, inductionHypothesis]

/-- What is shown of the groups is gathered of what is shown. -/
theorem mapValues_gather {μ : Type w} {convert : ν -> μ} {left : Gathering α κ ν} {right : Gathering α κ μ}
    (keys : forall item, left.key item = right.key item)
    (firsts : forall item, convert (left.first item) = right.first item)
    (changes : forall value item, convert (left.change value item) = right.change (convert value) item)
    (grouping : Grouping κ ν) (items : List α) :
    (grouping.gather left items).mapValues convert = (grouping.mapValues convert).gather right items := by
  induction items generalizing grouping with
  | nil => rfl
  | cons item items inductionHypothesis =>
      have groups : (upsertGroups (left.key item) (left.first item) (fun value => left.change value item)
            grouping.groups).map (fun group => (group.1, convert group.2)) =
          upsertGroups (left.key item) (convert (left.first item)) (fun value => right.change value item)
            (grouping.groups.map fun group => (group.1, convert group.2)) :=
        map_upsertGroups (fun value => changes value item) grouping.groups
      have step : (grouping.upsert (left.key item) (left.first item)
            fun value => left.change value item).mapValues convert =
          (grouping.mapValues convert).upsert (right.key item) (right.first item)
            fun value => right.change value item := by
        rw [keys, firsts] at groups
        unfold mapValues upsert
        congr 1
        rw [keys]
        exact groups
      change (gather left (grouping.upsert _ _ _) items).mapValues convert = gather right (upsert _ _ _ _) items
      rw [inductionHypothesis, step]

/-- Two items of one key. -/
theorem gather_pair (gathering : Gathering α κ ν) {first second : α}
    (same : gathering.key second = gathering.key first) :
    ((empty : Grouping κ ν).gather gathering [first, second]).groups =
      [(gathering.key first, gathering.change (gathering.first first) second)] := by
  change upsertGroups (gathering.key second) (gathering.first second) (fun value => gathering.change value second)
    [(gathering.key first, gathering.first first)] = _
  rw [upsertGroups, if_pos same.symm]

/-! ## Invariants of groups -/

/-- Every group satisfies an assertion. -/
def Holds (kept : κ -> ν -> Prop) (grouping : Grouping κ ν) : Prop :=
  forall group, group ∈ grouping.groups -> kept group.1 group.2

omit [DecidableEq κ] in
theorem holds_empty (kept : κ -> ν -> Prop) : Holds kept (empty : Grouping κ ν) :=
  fun _ member => (List.not_mem_nil member).elim

/-- Items make and keep the assertion. -/
structure Keeps (gathering : Gathering α κ ν) (kept : κ -> ν -> Prop) (items : List α) : Prop where
  first : forall item, item ∈ items -> kept (gathering.key item) (gathering.first item)
  change : forall item, item ∈ items -> forall value, kept (gathering.key item) value ->
    kept (gathering.key item) (gathering.change value item)

variable {gathering : Gathering α κ ν} {kept : κ -> ν -> Prop}

theorem holds_upsert (holds : Holds kept grouping) (isFirst : kept key first)
    (changes : forall value, kept key value -> kept key (change value)) :
    Holds kept (grouping.upsert key first change) := by
  intro group member
  rcases mem_upsertGroups member with still | rfl | ⟨value, there, rfl⟩
  · exact holds group still
  · exact isFirst
  · exact changes value (holds _ there)

theorem holds_gather {items : List α} (keeps : Keeps gathering kept items) (holds : Holds kept grouping) :
    Holds kept (gather gathering grouping items) := by
  induction items generalizing grouping with
  | nil => exact holds
  | cons item items inductionHypothesis =>
      have isItem : item ∈ item :: items := List.mem_cons_self ..
      exact inductionHypothesis
        ⟨fun later member => keeps.first later (List.mem_cons_of_mem _ member),
          fun later member => keeps.change later (List.mem_cons_of_mem _ member)⟩
        (holds_upsert holds (keeps.first item isItem) (keeps.change item isItem))

/-! ## Sums over groups -/

section Sums

variable {M : Type*} [AddCommMonoid M]

/-- The sum of a measure over the groups. -/
def total (measure : ν -> M) (grouping : Grouping κ ν) : M := (grouping.values.map measure).sum

theorem sum_upsertGroups {measure : ν -> M} {added : M} (isFirst : measure first = added)
    (changes : forall value, (key, value) ∈ groups -> measure (change value) = measure value + added) :
    (((upsertGroups key first change groups).map Prod.snd).map measure).sum =
      ((groups.map Prod.snd).map measure).sum + added := by
  induction groups with
  | nil =>
      change measure first + 0 = 0 + added
      rw [isFirst, add_zero, zero_add]
  | cons head groups inductionHypothesis =>
      rcases head with ⟨other, value⟩
      rw [upsertGroups]
      split
      · rename_i same
        cases same
        simp only [List.map_cons, List.sum_cons]
        rw [changes value (List.mem_cons_self ..), add_right_comm]
      · have rest := inductionHypothesis fun value there => changes value (List.mem_cons_of_mem _ there)
        simp only [List.map_cons, List.sum_cons]
        rw [rest, add_assoc]

/-- A measure to which the value of the key adds an amount, whether it is new or not. -/
theorem total_upsert {measure : ν -> M} {added : M} (grouping : Grouping κ ν) (isFirst : measure first = added)
    (changes : forall value, measure (change value) = measure value + added) :
    (grouping.upsert key first change).total measure = grouping.total measure + added :=
  sum_upsertGroups isFirst fun value _ => changes value

/-- A measure to which every item adds its own amount. -/
theorem total_gather (measure : ν -> M) (amount : α -> M) {items : List α} (keeps : Keeps gathering kept items)
    (firsts : forall item, item ∈ items -> measure (gathering.first item) = amount item)
    (changes : forall item, item ∈ items -> forall value, kept (gathering.key item) value ->
      measure (gathering.change value item) = measure value + amount item) (holds : Holds kept grouping) :
    (gather gathering grouping items).total measure = grouping.total measure + (items.map amount).sum := by
  induction items generalizing grouping with
  | nil => rw [List.map_nil, List.sum_nil, add_zero]; rfl
  | cons item items inductionHypothesis =>
      have isItem : item ∈ item :: items := List.mem_cons_self ..
      have one : (grouping.upsert (gathering.key item) (gathering.first item)
          fun value => gathering.change value item).total measure = grouping.total measure + amount item :=
        sum_upsertGroups (firsts item isItem) fun value there =>
          changes item isItem value (holds _ there)
      have rest := inductionHypothesis
        ⟨fun later member => keeps.first later (List.mem_cons_of_mem _ member),
          fun later member => keeps.change later (List.mem_cons_of_mem _ member)⟩
        (fun later member => firsts later (List.mem_cons_of_mem _ member))
        (fun later member => changes later (List.mem_cons_of_mem _ member))
        (holds_upsert holds (keeps.first item isItem) (keeps.change item isItem))
      rw [List.map_cons, List.sum_cons, ← add_assoc, ← one]
      exact rest

end Sums

end Grouping
end Telescope
