import Mathlib.Data.List.Perm.Subperm

namespace Telescope
namespace Keyset

universe u v

/-!
# Keyset pagination

A keyset cursor is the key of the last element a page returned; the next page
holds what comes after that key.  Over a list in strict order this visits every
element once, in order, and ends: the first section says what lies after an
element of such a list, the second follows the cursors of any page function
that answers from it.
-/

variable {α : Type u} {κ : Type v}

variable {before : α -> α -> Prop}

/-- In a list in strict order, what comes after an element is the list behind it. -/
theorem filter_after [forall first second, Decidable (before first second)]
    (asymmetric : forall first second, before first second -> ¬ before second first) {earlier later : List α} {last : α}
    (sorted : (earlier ++ last :: later).Pairwise before) :
    (earlier ++ last :: later).filter (fun element => decide (before last element)) = later := by
  rcases List.pairwise_append.mp sorted with ⟨_, tail, across⟩
  have behind := (List.pairwise_cons.mp tail).1
  have noneEarlier : earlier.filter (fun element => decide (before last element)) = [] := by
    refine List.filter_eq_nil_iff.mpr fun element member => ?_
    rw [decide_eq_true_eq]
    exact asymmetric element last (across element member last (List.mem_cons_self ..))
  have allLater : later.filter (fun element => decide (before last element)) = later := by
    refine List.filter_eq_self.mpr fun element member => ?_
    rw [decide_eq_true_eq]
    exact behind element member
  have notItself : ¬ before last last := fun reflexive => asymmetric last last reflexive reflexive
  rw [List.filter_append, noneEarlier, List.nil_append, List.filter_cons,
    if_neg (by rwa [decide_eq_true_eq]), allLater]

variable {elements : List α}

/-- The elements past a number of places are those with as many before them. -/
theorem mem_drop_iff [forall first second, Decidable (before first second)]
    (asymmetric : forall first second, before first second -> ¬ before second first) (sorted : elements.Pairwise before)
    {element : α} (member : element ∈ elements) {places : Nat} :
    element ∈ elements.drop places <->
      places ≤ elements.countP fun other => decide (before other element) := by
  rcases List.append_of_mem member with ⟨earlier, later, rfl⟩
  rcases List.pairwise_append.mp sorted with ⟨_, tail, across⟩
  have behind := (List.pairwise_cons.mp tail).1
  have notItself : ¬ before element element := fun reflexive =>
    asymmetric element element reflexive reflexive
  have rank : ((earlier ++ element :: later).countP fun other => decide (before other element)) =
      earlier.length := by
    have allEarlier : (earlier.countP fun other => decide (before other element)) =
        earlier.length :=
      List.countP_eq_length.mpr fun other found =>
        decide_eq_true (across other found element (List.mem_cons_self ..))
    have noneLater : ((element :: later).countP fun other => decide (before other element)) = 0 := by
      refine List.countP_eq_zero.mpr fun other found => ?_
      rw [decide_eq_true_eq]
      rcases List.mem_cons.mp found with rfl | inLater
      · exact notItself
      · exact asymmetric element other (behind other inLater)
    rw [List.countP_append, allEarlier, noneLater, Nat.add_zero]
  rw [rank]
  constructor
  · intro dropped
    by_contra beyond
    have past := List.drop_subset_drop_left (earlier ++ element :: later)
      (Nat.lt_of_not_le beyond) dropped
    rw [Nat.succ_eq_add_one, List.drop_length_add_append, List.drop_one, List.tail_cons] at past
    exact notItself (behind element past)
  · intro reached
    rw [List.drop_append_of_le_length reached]
    exact List.mem_append_right _ (List.mem_cons_self ..)

/-- A predicate that implies another and misses one of its elements counts fewer. -/
theorem countP_lt_of_imp {fewer more : α -> Bool} {missed : α}
    (implies : forall element, fewer element = true -> more element = true) (member : missed ∈ elements)
    (counted : more missed = true) (uncounted : fewer missed = false) :
    elements.countP fewer < elements.countP more := by
  rcases List.append_of_mem member with ⟨earlier, later, rfl⟩
  have front : earlier.countP fewer ≤ earlier.countP more :=
    List.countP_mono_left fun element _ => implies element
  have back : later.countP fewer ≤ later.countP more :=
    List.countP_mono_left fun element _ => implies element
  rw [List.countP_append, List.countP_append, List.countP_cons, List.countP_cons, counted, uncounted]
  simp only [if_true, if_neg Bool.false_ne_true]
  omega

/-! ## Following the cursors -/

structure Page (α : Type u) (κ : Type v) where
  data : List α
  nextCursor : Option κ

/-- Read pages from a cursor on until one names no successor; `none` when a read
does not return or the fuel runs out before. -/
def follow (read : Option κ -> Option (Page α κ)) : Nat -> Option κ -> Option (List (List α))
  | 0, _ => none
  | fuel + 1, cursor =>
      match read cursor with
      | none => none
      | some page =>
          match page.nextCursor with
          | none => some [page.data]
          | some next => (follow read fuel (some next)).map (page.data :: ·)

/-- The cursor that resumes behind the elements already visited. -/
def cursorBehind (key : α -> κ) (visited : List α) : Option κ :=
  visited.getLast?.map key

/-- The page of at most `limit` elements that opens a list. -/
def firstPage (key : α -> κ) (limit : Nat) (remaining : List α) : Page α κ where
  data := remaining.take limit
  nextCursor :=
    if limit < remaining.length then cursorBehind key (remaining.take limit) else none

variable {limit : Nat}

/-- A front longer than the page decides it. -/
theorem firstPage_append (key : α -> κ) {front : List α} (full : limit < front.length) (back : List α) :
    firstPage key limit (front ++ back) = firstPage key limit front := by
  have longer : limit < (front ++ back).length := by
    rw [List.length_append]
    omega
  rw [firstPage, firstPage, if_pos full, if_pos longer,
    List.take_append_of_le_length (Nat.le_of_lt full)]

/-- The reads answer from the list: behind whatever has been visited they open
the rest. -/
def Answers (read : Option κ -> Option (Page α κ)) (key : α -> κ) (limit : Nat)
    (elements : List α) : Prop :=
  forall visited remaining, elements = visited ++ remaining ->
    read (cursorBehind key visited) = some (firstPage key limit remaining)

variable {read : Option κ -> Option (Page α κ)} {key : α -> κ}

theorem follow_remaining (positive : 0 < limit) (answers : Answers read key limit elements) (fuel : Nat)
    (visited remaining : List α) (split : elements = visited ++ remaining) (enough : remaining.length < fuel) :
    Exists fun pages =>
      follow read fuel (cursorBehind key visited) = some pages ∧ pages.flatten = remaining ∧
        forall data, data ∈ pages -> data.length ≤ limit := by
  induction fuel generalizing visited remaining with
  | zero => exact (Nat.not_lt_zero _ enough).elim
  | succ fuel inductionHypothesis =>
      have answer := answers visited remaining split
      rw [follow, answer]
      by_cases more : limit < remaining.length
      · rcases List.eq_nil_or_concat' (remaining.take limit) with nothing | ⟨start, last, taken⟩
        · have size := congrArg List.length nothing
          rw [List.length_take, List.length_nil] at size
          omega
        · have next : (firstPage key limit remaining).nextCursor = some (key last) := by
            rw [firstPage, if_pos more, cursorBehind, taken, List.getLast?_append]
            rfl
          have resumed : some (key last) = cursorBehind key (visited ++ remaining.take limit) := by
            rw [taken, ← List.append_assoc, cursorBehind, List.getLast?_append]
            rfl
          have shorter : (remaining.drop limit).length < fuel := by
            rw [List.length_drop]
            omega
          have splits : elements = (visited ++ remaining.take limit) ++ remaining.drop limit := by
            rw [List.append_assoc, List.take_append_drop, split]
          rcases inductionHypothesis _ _ splits shorter with ⟨pages, followed, flat, bounded⟩
          simp only [next]
          rw [resumed, followed]
          refine ⟨_, rfl, ?_, ?_⟩
          · rw [List.flatten_cons, flat]
            exact List.take_append_drop limit remaining
          · intro data member
            rcases List.mem_cons.mp member with rfl | later
            · exact List.length_take_le limit remaining
            · exact bounded data later
      · have next : (firstPage key limit remaining).nextCursor = none := if_neg more
        have whole : (firstPage key limit remaining).data = remaining :=
          List.take_of_length_le (Nat.not_lt.mp more)
        simp only [next]
        rw [whole]
        refine ⟨_, rfl, List.append_nil remaining, ?_⟩
        intro data member
        cases List.mem_singleton.mp member
        exact Nat.not_lt.mp more

/-- Following the cursors from the first page ends and visits every element
exactly once, in order. -/
theorem follow_visits (positive : 0 < limit) (answers : Answers read key limit elements) :
    Exists fun pages =>
      follow read (elements.length + 1) none = some pages ∧ pages.flatten = elements ∧
        forall data, data ∈ pages -> data.length ≤ limit :=
  follow_remaining positive answers (elements.length + 1) [] elements rfl (Nat.lt_succ_self _)

/-! ## Lists that may be out of order -/

variable {behind : Option κ -> α -> Bool}

/-- Behind the last visited element of a list in strict order lies the rest. -/
theorem filter_behind [forall first second, Decidable (before first second)]
    (asymmetric : forall first second, before first second -> ¬ before second first)
    (everything : forall element, behind none element = true)
    (resumes : forall last element, behind (some (key last)) element = decide (before last element))
    {visited remaining : List α} (sorted : (visited ++ remaining).Pairwise before) :
    (visited ++ remaining).filter (behind (cursorBehind key visited)) = remaining := by
  rcases List.eq_nil_or_concat' visited with rfl | ⟨earlier, last, rfl⟩
  · exact List.filter_eq_self.mpr fun element _ => everything element
  · have isLast : cursorBehind key (earlier ++ [last]) = some (key last) := by
      rw [cursorBehind, List.getLast?_concat, Option.map_some]
    rw [isLast, List.append_assoc]
    rw [List.append_assoc] at sorted
    rw [List.filter_congr fun element _ => resumes last element]
    exact filter_after asymmetric sorted

/-- What passes a test is the rest of a list when its front fails it and its rest does not. -/
theorem filter_eq_drop {passes : α -> Bool} {places : Nat}
    (fails : forall element, element ∈ elements.take places -> ¬ passes element = true)
    (pass : forall element, element ∈ elements.drop places -> passes element = true) :
    elements.filter passes = elements.drop places := by
  nth_rewrite 1 [← List.take_append_drop places elements]
  rw [List.filter_append, List.filter_eq_nil_iff.mpr fails, List.filter_eq_self.mpr pass,
    List.nil_append]

/-- Pages that follow a list in strict order, each the first of what the listed
elements hold behind the cursor: what is listed behind the visited elements is
in that order too. -/
theorem follow_sorted [forall first second, Decidable (before first second)]
    (asymmetric : forall first second, before first second -> ¬ before second first)
    (everything : forall element, behind none element = true)
    (resumes : forall last element, behind (some (key last)) element = decide (before last element))
    {listed target : List α}
    (opens : forall cursor, read cursor = some (firstPage key limit (listed.filter (behind cursor))))
    (positive : 0 < limit) (sorted : target.Pairwise before) (perm : listed.Perm target) (fuel : Nat)
    (visited remaining : List α) (split : target = visited ++ remaining) (pages : List (List α))
    (followed : follow read fuel (cursorBehind key visited) = some pages) (flat : pages.flatten = remaining) :
    listed.filter (behind (cursorBehind key visited)) = remaining := by
  induction fuel generalizing visited remaining pages with
  | zero => cases followed
  | succ fuel inductionHypothesis =>
      have rest : target.filter (behind (cursorBehind key visited)) = remaining := by
        rw [split] at sorted ⊢
        exact filter_behind asymmetric everything resumes sorted
      have unreadPerm : (listed.filter (behind (cursorBehind key visited))).Perm remaining :=
        rest ▸ perm.filter _
      generalize unreadEq : listed.filter (behind (cursorBehind key visited)) = unread at unreadPerm ⊢
      rw [follow, opens, unreadEq] at followed
      by_cases more : limit < unread.length
      · rcases List.eq_nil_or_concat' (unread.take limit) with nothing | ⟨start, last, taken⟩
        · have size := congrArg List.length nothing
          rw [List.length_take, List.length_nil] at size
          omega
        · have next : (firstPage key limit unread).nextCursor = some (key last) := by
            rw [firstPage, if_pos more, cursorBehind, taken, List.getLast?_concat, Option.map_some]
          simp only [next] at followed
          rcases Option.map_eq_some_iff.mp followed with ⟨laterPages, laterFollowed, rfl⟩
          change unread.take limit ++ laterPages.flatten = remaining at flat
          have resumed : cursorBehind key (visited ++ unread.take limit) = some (key last) := by
            rw [taken, ← List.append_assoc, cursorBehind, List.getLast?_concat, Option.map_some]
          have splits : target = (visited ++ unread.take limit) ++ laterPages.flatten := by
            rw [List.append_assoc, flat, split]
          have later := inductionHypothesis _ _ splits laterPages (resumed ▸ laterFollowed) rfl
          have laterRest : target.filter (behind (some (key last))) = laterPages.flatten := by
            rw [← resumed]
            rw [splits] at sorted ⊢
            exact filter_behind asymmetric everything resumes sorted
          have dropPerm : (unread.drop limit).Perm laterPages.flatten := by
            refine (List.perm_append_left_iff (unread.take limit)).mp ?_
            rw [List.take_append_drop, flat]
            exact unreadPerm
          have past : unread.filter (behind (some (key last))) = unread.drop limit := by
            refine filter_eq_drop (fun element member isBehind => ?_) fun element member => ?_
            · have inTarget : element ∈ target.filter (behind (some (key last))) := by
                refine List.mem_filter.mpr ⟨?_, isBehind⟩
                rw [splits]
                exact List.mem_append_left _ (List.mem_append_right _ member)
              rw [laterRest] at inTarget
              rw [splits] at sorted
              have precedes := (List.pairwise_append.mp sorted).2.2 element
                (List.mem_append_right _ member) element inTarget
              exact asymmetric element element precedes precedes
            · exact (List.mem_filter.mp (laterRest.symm ▸ dropPerm.mem_iff.mp member)).2
          have within : unread.filter (behind (some (key last))) =
              listed.filter (behind (some (key last))) := by
            rw [← unreadEq, List.filter_filter]
            refine List.filter_congr fun element member => ?_
            by_cases isBehind : behind (some (key last)) element = true
            · have inLater : element ∈ laterPages.flatten := by
                rw [← laterRest]
                exact List.mem_filter.mpr ⟨perm.mem_iff.mp member, isBehind⟩
              have inRest : element ∈ target.filter (behind (cursorBehind key visited)) := by
                rw [rest, ← flat]
                exact List.mem_append_right _ inLater
              rw [(List.mem_filter.mp inRest).2, Bool.and_true]
            · rw [Bool.eq_false_iff.mpr isBehind, Bool.false_and]
          rw [← flat, ← later, resumed, ← within, past, List.take_append_drop]
      · have next : (firstPage key limit unread).nextCursor = none := if_neg more
        simp only [next, Option.some.injEq] at followed
        rw [← flat, ← followed, List.flatten_singleton]
        exact (List.take_of_length_le (Nat.not_lt.mp more)).symm

/-- Following the cursors through listed elements visits them in strict order
exactly when they are listed in it. -/
theorem visits_sorted_iff [forall first second, Decidable (before first second)]
    (asymmetric : forall first second, before first second -> ¬ before second first)
    (everything : forall element, behind none element = true)
    (resumes : forall last element, behind (some (key last)) element = decide (before last element))
    {listed target : List α}
    (opens : forall cursor, read cursor = some (firstPage key limit (listed.filter (behind cursor))))
    (positive : 0 < limit) (sorted : target.Pairwise before) (perm : listed.Perm target) :
    (Exists fun fuel => Exists fun pages =>
        follow read fuel none = some pages ∧ pages.flatten = target) <->
      listed = target := by
  constructor
  · rintro ⟨fuel, pages, followed, flat⟩
    have unread := follow_sorted asymmetric everything resumes opens positive sorted perm fuel []
      target rfl pages followed flat
    exact (List.filter_eq_self.mpr fun element _ => everything element).symm.trans unread
  · rintro rfl
    have answers : Answers read key limit listed := by
      intro visited remaining split
      rw [opens]
      rw [split] at sorted ⊢
      rw [filter_behind asymmetric everything resumes sorted]
    rcases follow_visits positive answers with ⟨pages, followed, flat, _⟩
    exact ⟨_, pages, followed, flat⟩

/-! ## Sources that change between pages -/

/-- Of two lists in strict order, one that is within the other and has its front
begins with that front. -/
theorem take_eq_of_front (asymmetric : forall first second, before first second -> ¬ before second first)
    {whole part : List α} (wholeSorted : whole.Pairwise before) (partSorted : part.Pairwise before)
    (within : forall element, element ∈ part -> element ∈ whole) {places : Nat}
    (front : forall element, element ∈ whole.take places -> element ∈ part) :
    part.take places = whole.take places := by
  induction places generalizing whole part with
  | zero => rfl
  | succ places inductionHypothesis =>
      cases whole with
      | nil =>
          cases part with
          | nil => rfl
          | cons first part => exact (List.not_mem_nil (within first (List.mem_cons_self ..))).elim
      | cons leader whole =>
          have leads := (List.pairwise_cons.mp wholeSorted).1
          cases part with
          | nil => exact (List.not_mem_nil (front leader (List.mem_cons_self ..))).elim
          | cons first part =>
              have follows := (List.pairwise_cons.mp partSorted).1
              have same : first = leader := by
                rcases List.mem_cons.mp (within first (List.mem_cons_self ..)) with same | later
                · exact same
                · rcases List.mem_cons.mp (front leader (List.mem_cons_self ..)) with same | after
                  · exact same.symm
                  · exact (asymmetric _ _ (leads first later) (follows leader after)).elim
              subst same
              have notItself : ¬ before first first := fun reflexive =>
                asymmetric first first reflexive reflexive
              rw [List.take_succ_cons, List.take_succ_cons]
              congr 1
              refine inductionHypothesis (List.pairwise_cons.mp wholeSorted).2
                (List.pairwise_cons.mp partSorted).2 (fun element member => ?_) fun element member => ?_
              · rcases List.mem_cons.mp (within element (List.mem_cons_of_mem _ member)) with rfl | later
                · exact (notItself (follows _ member)).elim
                · exact later
              · rcases List.mem_cons.mp (front element (List.mem_cons_of_mem _ member)) with rfl | later
                · exact (notItself (leads _ (List.mem_of_mem_take member))).elim
                · exact later

/-- An element of a front is in the same front of any part of the list it belongs to. -/
theorem mem_take_of_within [forall first second, Decidable (before first second)]
    (asymmetric : forall first second, before first second -> ¬ before second first) {whole part : List α}
    (wholeSorted : whole.Pairwise before) (partSorted : part.Pairwise before)
    (within : forall element, element ∈ part -> element ∈ whole) {places : Nat} {element : α}
    (front : element ∈ whole.take places) (member : element ∈ part) :
    element ∈ part.take places := by
  have distinct : forall {elements : List α}, elements.Pairwise before -> elements.Nodup :=
    fun sorted => sorted.imp fun {first second} precedes same => by
      subst same
      exact asymmetric first first precedes precedes
  rcases List.mem_append.mp ((List.take_append_drop places part).symm ▸ member) with early | late
  · exact early
  · have rank := (mem_drop_iff asymmetric partSorted member).mp late
    have more := ((distinct partSorted).subperm fun other found =>
      within other found).countP_le (fun other => decide (before other element))
    have beyond := (mem_drop_iff asymmetric wholeSorted (List.mem_of_mem_take front)).mpr
      (Nat.le_trans rank more)
    exact (List.disjoint_take_drop (distinct wholeSorted) (Nat.le_refl places) front beyond).elim

/-- Read pages one after the other, each from the source of its step. -/
def followThrough (read : Nat -> Option κ -> Page α κ) :
    Nat -> Nat -> Option κ -> Option (List (List α))
  | 0, _, _ => none
  | fuel + 1, step, cursor =>
      match (read step cursor).nextCursor with
      | none => some [(read step cursor).data]
      | some next =>
          (followThrough read fuel (step + 1) (some next)).map ((read step cursor).data :: ·)

/-- The cursors that following the pages asks for, with their steps. -/
inductive Asked (read : Nat -> Option κ -> Page α κ) : Nat -> Option κ -> Prop
  | first : Asked read 0 none
  | next {step cursor next} (asked : Asked read step cursor)
      (isNext : (read step cursor).nextCursor = some next) : Asked read (step + 1) (some next)

/-- A page that opens a list of keys, whatever carries them. -/
structure OpensKeys (key : α -> κ) (limit : Nat) (remaining : List κ) (page : Page α κ) : Prop where
  data : page.data.map key = remaining.take limit
  next : page.nextCursor =
    if limit < remaining.length then (remaining.take limit).getLast? else none

theorem followThrough_remaining {read : Nat -> Option κ -> Page α κ} {keys : List κ} (positive : 0 < limit)
    (opens : forall step visited remaining, Asked read step visited.getLast? ->
      keys = visited ++ remaining -> OpensKeys key limit remaining (read step visited.getLast?)) (fuel step : Nat)
    (visited remaining : List κ) (asked : Asked read step visited.getLast?) (split : keys = visited ++ remaining)
    (enough : remaining.length < fuel) :
    Exists fun pages =>
      followThrough read fuel step visited.getLast? = some pages ∧
        pages.flatten.map key = remaining ∧ forall data, data ∈ pages -> data.length ≤ limit := by
  induction fuel generalizing step visited remaining with
  | zero => exact (Nat.not_lt_zero _ enough).elim
  | succ fuel inductionHypothesis =>
      have page := opens step visited remaining asked split
      have short : (read step visited.getLast?).data.length ≤ limit := by
        rw [← List.length_map key, page.data]
        exact List.length_take_le limit remaining
      rw [followThrough]
      by_cases more : limit < remaining.length
      · rcases List.eq_nil_or_concat' (remaining.take limit) with nothing | ⟨start, last, taken⟩
        · have size := congrArg List.length nothing
          rw [List.length_take, List.length_nil] at size
          omega
        · have resumed : (visited ++ remaining.take limit).getLast? = some last := by
            rw [taken, ← List.append_assoc, List.getLast?_concat]
          have next : (read step visited.getLast?).nextCursor = some last := by
            rw [page.next, if_pos more, taken, List.getLast?_concat]
          have shorter : (remaining.drop limit).length < fuel := by
            rw [List.length_drop]
            omega
          have splits : keys = (visited ++ remaining.take limit) ++ remaining.drop limit := by
            rw [List.append_assoc, List.take_append_drop, split]
          rcases inductionHypothesis (step + 1) _ _ (resumed ▸ .next asked next) splits shorter with
            ⟨pages, followed, flat, bounded⟩
          rw [resumed] at followed
          simp only [next]
          rw [followed]
          refine ⟨_, rfl, ?_, ?_⟩
          · rw [List.flatten_cons, List.map_append, page.data, flat]
            exact List.take_append_drop limit remaining
          · intro data member
            rcases List.mem_cons.mp member with rfl | later
            · exact short
            · exact bounded data later
      · have next : (read step visited.getLast?).nextCursor = none := by rw [page.next, if_neg more]
        simp only [next]
        refine ⟨_, rfl, ?_, ?_⟩
        · rw [List.flatten_cons, List.flatten_nil, List.append_nil, page.data,
            List.take_of_length_le (Nat.not_lt.mp more)]
        · intro data member
          cases List.mem_singleton.mp member
          exact short

/-- Following the cursors ends and visits every key exactly once, in order, where
each page that is asked for opens the keys behind its cursor. -/
theorem followThrough_visits {read : Nat -> Option κ -> Page α κ} {keys : List κ} (positive : 0 < limit)
    (opens : forall step visited remaining, Asked read step visited.getLast? ->
      keys = visited ++ remaining -> OpensKeys key limit remaining (read step visited.getLast?)) :
    Exists fun pages =>
      followThrough read (keys.length + 1) 0 none = some pages ∧ pages.flatten.map key = keys ∧
        forall data, data ∈ pages -> data.length ≤ limit :=
  followThrough_remaining positive opens (keys.length + 1) 0 [] keys .first rfl (Nat.lt_succ_self _)

end Keyset
end Telescope
