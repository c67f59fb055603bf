import Telescope.Alerts.Alerter
import Mathlib.Data.Finset.Card

namespace Telescope
namespace Alerts

/-!
# What the tracker of new exceptions forgets

The tracker keeps the families that were observed last, and no more of them than its
cap.  A family that it gave up was, at that instant, the least recent of more families
than the cap.  Where no window holds so many, the family was out of its window by then
already, and the tracker answers as a map that forgets nothing.
-/

/-- One call of `observe`. -/
structure Observation where
  familyHash : Text
  nowMs : Int
  windowMs : Nat

/-- The calls of a tracker in order: the answers, and the families behind them. -/
def track (maxFamilies : Nat) (seen : List (Text × Int)) : List Observation -> List Bool × List (Text × Int)
  | [] => ([], seen)
  | observation :: observations =>
      let observed := observe maxFamilies observation.familyHash observation.nowMs observation.windowMs seen
      let rest := track maxFamilies observed.2 observations
      (observed.1 :: rest.1, rest.2)

/-- The answers of an unbounded map from each family to the instant it was last seen. -/
def trackUnbounded (lastSeen : Text -> Option Int) : List Observation -> List Bool
  | [] => []
  | observation :: observations =>
      (lastSeen observation.familyHash).all
          (fun instant => decide (observation.nowMs - instant ≥ observation.windowMs)) ::
        trackUnbounded (Function.update lastSeen observation.familyHash (some observation.nowMs)) observations

/-- The distinct families observed from one instant to another. -/
def familiesBetween (observations : List Observation) (first last : Int) : Finset Text :=
  ((observations.filter fun observation =>
    decide (first ≤ observation.nowMs ∧ observation.nowMs ≤ last)).map Observation.familyHash).toFinset

/-- In no window up to any instant are more distinct families seen than the cap. -/
def FitsWindows (maxFamilies : Nat) (observations : List Observation) : Prop :=
  forall observation, observation ∈ observations -> forall instant : Int,
    (familiesBetween observations (instant - observation.windowMs + 1) instant).card ≤ maxFamilies

def InTimeOrder (observations : List Observation) : Prop :=
  observations.Pairwise fun earlier later => earlier.nowMs ≤ later.nowMs

theorem mem_familiesBetween {observations : List Observation} {first last : Int} {family : Text} :
    family ∈ familiesBetween observations first last <->
      Exists fun observation => observation ∈ observations ∧ observation.familyHash = family ∧
        first ≤ observation.nowMs ∧ observation.nowMs ≤ last := by
  rw [familiesBetween, List.mem_toFinset, List.mem_map]
  constructor
  · rintro ⟨observation, member, rfl⟩
    rcases List.mem_filter.mp member with ⟨isObserved, within⟩
    exact ⟨observation, isObserved, rfl, of_decide_eq_true within⟩
  · rintro ⟨observation, member, same, within⟩
    exact ⟨observation, List.mem_filter.mpr ⟨member, decide_eq_true within⟩, same⟩

theorem card_familiesBetween_le {fewer more : List Observation} {first last earlier later : Int}
    (subset : fewer ⊆ more) (lower : earlier ≤ first) (upper : last ≤ later) :
    (familiesBetween fewer first last).card ≤ (familiesBetween more earlier later).card := by
  refine Finset.card_le_card fun family member => ?_
  rcases mem_familiesBetween.mp member with ⟨observation, isObserved, same, low, high⟩
  exact mem_familiesBetween.mpr
    ⟨observation, subset isObserved, same, lower.trans low, high.trans upper⟩

/-! ## The tracker beside the unbounded map -/

/-- What the tracker and the map hold behind some calls, the last of them at the clock:
what the tracker keeps is in the map, and what the map keeps beyond it was followed by
more distinct families than the cap. -/
structure Tracks (maxFamilies : Nat) (past : List Observation) (clock : Int) (seen : List (Text × Int))
    (lastSeen : Text -> Option Int) : Prop where
  distinct : (seen.map Prod.fst).Nodup
  ordered : seen.Pairwise fun earlier later => earlier.2 ≤ later.2
  recorded : forall family instant, lastSeen family = some instant ->
    instant ≤ clock ∧ Exists fun observation => observation ∈ past ∧ observation.familyHash = family ∧
      observation.nowMs = instant
  kept : forall mark, mark ∈ seen -> lastSeen mark.1 = some mark.2
  forgotten : forall family instant, lastSeen family = some instant ->
    (forall mark, mark ∈ seen -> mark.1 ≠ family) ->
      maxFamilies < (familiesBetween past instant clock).card

variable {maxFamilies : Nat} {past : List Observation} {clock : Int} {seen : List (Text × Int)}
  {lastSeen : Text -> Option Int} {observation : Observation}

/-- The tracker answers as the map does. -/
theorem Tracks.answer (tracks : Tracks maxFamilies past clock seen lastSeen)
    (later : clock ≤ observation.nowMs)
    (fits : (familiesBetween past (observation.nowMs - observation.windowMs + 1) observation.nowMs).card ≤
      maxFamilies) :
    (observe maxFamilies observation.familyHash observation.nowMs observation.windowMs seen).1 =
      (lastSeen observation.familyHash).all
        fun instant => decide (observation.nowMs - instant ≥ observation.windowMs) := by
  cases found : Recency.get Prod.fst seen observation.familyHash with
  | some mark =>
      have isLast := tracks.kept mark (Recency.mem_of_get found)
      rw [Recency.key_of_get found] at isLast
      rw [observe, found, isLast]
      rfl
  | none =>
      have absent : forall mark, mark ∈ seen -> mark.1 ≠ observation.familyHash :=
        fun mark member => Recency.ne_of_get_eq_none found member
      rw [observe, found]
      cases isLast : lastSeen observation.familyHash with
      | none => rfl
      | some instant =>
          have many := tracks.forgotten observation.familyHash instant isLast absent
          refine (decide_eq_true ?_).symm
          by_contra inWindow
          have fewer : (familiesBetween past instant clock).card ≤
              (familiesBetween past (observation.nowMs - observation.windowMs + 1) observation.nowMs).card :=
            card_familiesBetween_le (List.Subset.refl past) (by omega) later
          omega

/-- Marks in order of time, of distinct families and recorded since an instant, are as
many families. -/
theorem length_le_card {marks : List (Text × Int)} {first last : Int}
    (distinct : (marks.map Prod.fst).Nodup)
    (observed : forall mark, mark ∈ marks -> mark.1 ∈ familiesBetween past first last) :
    marks.length ≤ (familiesBetween past first last).card := by
  have subset : (marks.map Prod.fst).toFinset ⊆ familiesBetween past first last := by
    intro family member
    rcases List.mem_map.mp (List.mem_toFinset.mp member) with ⟨mark, isMark, rfl⟩
    exact observed mark isMark
  calc
    marks.length = (marks.map Prod.fst).length := (List.length_map _).symm
    _ = (marks.map Prod.fst).toFinset.card := (List.toFinset_card_of_nodup distinct).symm
    _ ≤ (familiesBetween past first last).card := Finset.card_le_card subset

/-- The map and its list of touches, before the bound on the size is enforced. -/
theorem Tracks.touch (tracks : Tracks maxFamilies past clock seen lastSeen)
    (later : clock ≤ observation.nowMs) :
    Tracks maxFamilies (past ++ [observation]) observation.nowMs
      (Recency.touch Prod.fst seen (observation.familyHash, observation.nowMs))
      (Function.update lastSeen observation.familyHash (some observation.nowMs)) where
  distinct := Recency.nodup_touch tracks.distinct
  ordered := by
    refine Recency.pairwise_touch tracks.ordered fun mark member => ?_
    exact ((tracks.recorded mark.1 mark.2 (tracks.kept mark member)).1).trans later
  recorded := by
    intro family instant isLast
    by_cases same : family = observation.familyHash
    · rw [same, Function.update_self] at isLast
      cases isLast
      exact ⟨Int.le_refl _, observation, List.mem_append_right past (List.mem_singleton_self _), same.symm, rfl⟩
    · rw [Function.update_of_ne same] at isLast
      rcases tracks.recorded family instant isLast with ⟨before, earlier, member, isFamily, isInstant⟩
      exact ⟨before.trans later, earlier, List.mem_append_left _ member, isFamily, isInstant⟩
  kept := by
    intro mark member
    rcases Recency.mem_touch member with ⟨before, different⟩ | isNew
    · rw [Function.update_of_ne different]
      exact tracks.kept mark before
    · rw [isNew, Function.update_self]
  forgotten := by
    intro family instant isLast absent
    have different : family ≠ observation.familyHash := fun same =>
      absent _ (List.mem_append_right _ (List.mem_singleton_self _)) same.symm
    rw [Function.update_of_ne different] at isLast
    have absentBefore : forall mark, mark ∈ seen -> mark.1 ≠ family := by
      intro mark member same
      refine absent mark (List.mem_append_left _ (Recency.mem_remove.mpr ⟨member, ?_⟩)) same
      exact fun isNew => different (same.symm.trans isNew)
    exact lt_of_lt_of_le (tracks.forgotten family instant isLast absentBefore)
      (card_familiesBetween_le (List.subset_append_left past [observation]) (Int.le_refl _) later)

/-- What is shed was the least recent of more distinct families than the cap. -/
theorem Tracks.shed (tracks : Tracks maxFamilies past clock seen lastSeen) :
    Tracks maxFamilies past clock (Recency.shed (maxFamilies < ·) seen).2 lastSeen := by
  have parts := Recency.shed_append (maxFamilies < ·) seen
  have suffix : List.Sublist (Recency.shed (maxFamilies < ·) seen).2 seen := by
    conv_rhs => rw [← parts]
    exact List.sublist_append_right _ _
  refine ⟨tracks.distinct.sublist (suffix.map _), tracks.ordered.sublist suffix, tracks.recorded,
    fun mark member => tracks.kept mark (suffix.subset member), ?_⟩
  intro family instant isLast absent
  by_cases before : forall mark, mark ∈ seen -> mark.1 ≠ family
  · exact tracks.forgotten family instant isLast before
  · push Not at before
    rcases before with ⟨mark, member, rfl⟩
    have isInstant := tracks.kept mark member
    rw [isLast] at isInstant
    have isShed : mark ∈ (Recency.shed (maxFamilies < ·) seen).1 := by
      rw [← parts] at member
      exact (List.mem_append.mp member).resolve_right fun isKept => absent mark isKept rfl
    rcases List.append_of_mem isShed with ⟨front, back, split⟩
    have exceeded := Recency.exceeds_of_shed (maxFamilies < ·) split
    have isTail : List.Sublist (mark :: (back ++ (Recency.shed (maxFamilies < ·) seen).2)) seen := by
      conv_rhs => rw [← parts, split, List.append_assoc]
      exact List.sublist_append_right _ _
    refine exceeded.trans_le (length_le_card (tracks.distinct.sublist (isTail.map _)) ?_)
    have sorted := List.pairwise_cons.mp (tracks.ordered.sublist isTail)
    intro other isOther
    have notBefore : instant ≤ other.2 := by
      rw [Option.some.inj isInstant]
      rcases List.mem_cons.mp isOther with rfl | behind
      · exact Int.le_refl _
      · exact sorted.1 other behind
    rcases tracks.recorded other.1 other.2 (tracks.kept other (isTail.subset isOther)) with
      ⟨notAfter, earlier, isEarlier, same, isNow⟩
    exact mem_familiesBetween.mpr ⟨earlier, isEarlier, same, isNow ▸ notBefore, isNow ▸ notAfter⟩

theorem Tracks.observe (tracks : Tracks maxFamilies past clock seen lastSeen)
    (later : clock ≤ observation.nowMs) :
    Tracks maxFamilies (past ++ [observation]) observation.nowMs
      (observe maxFamilies observation.familyHash observation.nowMs observation.windowMs seen).2
      (Function.update lastSeen observation.familyHash (some observation.nowMs)) :=
  (tracks.touch later).shed

/-- From a state that tracks the map, calls that come in time order and fit their
windows are answered as by the map. -/
theorem Tracks.answers {observations : List Observation}
    (tracks : Tracks maxFamilies past clock seen lastSeen)
    (ordered : InTimeOrder observations)
    (later : forall observation, observation ∈ observations -> clock ≤ observation.nowMs)
    (fits : forall observation, observation ∈ observations -> forall instant : Int,
      (familiesBetween (past ++ observations) (instant - observation.windowMs + 1) instant).card ≤
        maxFamilies) :
    (track maxFamilies seen observations).1 = trackUnbounded lastSeen observations := by
  induction observations generalizing past clock seen lastSeen with
  | nil => rfl
  | cons observation observations inductionHypothesis =>
      have first := List.mem_cons_self (a := observation) (l := observations)
      have sorted := List.pairwise_cons.mp ordered
      have fitsNow := (card_familiesBetween_le (List.subset_append_left past (observation :: observations))
        (Int.le_refl _) (Int.le_refl _)).trans (fits observation first observation.nowMs)
      have rest := inductionHypothesis (tracks.observe (later observation first)) sorted.2 sorted.1
        fun other member instant => by
          rw [List.append_assoc, List.singleton_append]
          exact fits other (List.mem_cons_of_mem _ member) instant
      rw [track, trackUnbounded, ← rest, ← tracks.answer (later observation first) fitsNow]

theorem length_observe_le (familyHash : Text) (nowMs : Int) (windowMs : Nat) (seen : List (Text × Int)) :
    (observe maxFamilies familyHash nowMs windowMs seen).2.length ≤ maxFamilies :=
  not_lt.mp (Recency.not_exceeds_kept (maxFamilies < ·) (Nat.not_lt_zero maxFamilies) _)

theorem length_track_le {observations : List Observation} (within : seen.length ≤ maxFamilies) :
    (track maxFamilies seen observations).2.length ≤ maxFamilies := by
  induction observations generalizing seen with
  | nil => exact within
  | cons observation observations inductionHypothesis => exact inductionHypothesis (length_observe_le _ _ _ _)

/-- A new tracker stays within its cap, and answers as an unbounded map where calls come
in time order and no window holds more distinct families than the cap. -/
theorem tracker_refines_unbounded (maxFamilies : Nat) (observations : List Observation) :
    (InTimeOrder observations -> FitsWindows maxFamilies observations ->
      (track maxFamilies [] observations).1 = trackUnbounded (fun _ => none) observations) ∧
    (track maxFamilies [] observations).2.length ≤ maxFamilies := by
  refine ⟨fun ordered fits => ?_, length_track_le (Nat.zero_le _)⟩
  cases observations with
  | nil => rfl
  | cons observation observations =>
      have start : Tracks maxFamilies [] observation.nowMs [] (fun _ => none) :=
        ⟨List.nodup_nil, List.Pairwise.nil, nofun, nofun, nofun⟩
      refine start.answers ordered ?_ fits
      intro other member
      rcases List.mem_cons.mp member with rfl | behind
      · exact Int.le_refl _
      · exact (List.pairwise_cons.mp ordered).1 other behind

/-- Two families a window apart. -/
def alternating : List Observation :=
  [⟨['a'], 0, 10⟩, ⟨['b'], 10, 10⟩, ⟨['a'], 20, 10⟩]

/-- The tracker has forgotten the first family when it is seen again. -/
theorem tracker_refines_unbounded_alternating :
    (track 1 [] alternating).1 = trackUnbounded (fun _ => none) alternating := by
  refine (tracker_refines_unbounded 1 alternating).1 ?_ ?_
  · unfold InTimeOrder alternating
    decide
  · intro observation member instant
    have window : observation.windowMs = 10 := by
      rcases List.mem_cons.mp member with rfl | member
      · rfl
      · rcases List.mem_cons.mp member with rfl | member
        · rfl
        · cases List.mem_singleton.mp member
          rfl
    rw [window]
    refine Finset.card_le_one.mpr fun first isFirst second isSecond => ?_
    rcases mem_familiesBetween.mp isFirst with ⟨left, leftMember, rfl, low, high⟩
    rcases mem_familiesBetween.mp isSecond with ⟨right, rightMember, rfl, rightLow, rightHigh⟩
    simp only [alternating, List.mem_cons, List.not_mem_nil, or_false] at leftMember rightMember
    rcases leftMember with rfl | rfl | rfl <;> rcases rightMember with rfl | rfl | rfl <;>
      first | rfl | (dsimp only at low high rightLow rightHigh; omega)

end Alerts
end Telescope
