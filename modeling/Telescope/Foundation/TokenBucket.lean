import Mathlib.Algebra.Order.Field.Basic
import Mathlib.Data.List.Induction
import Mathlib.Tactic.Linarith

namespace Telescope

universe u

/-!
# Token buckets

A bucket holds tokens up to its size and is filled at a steady rate.  A request takes a
token if there is a whole one.  Over any stretch of time no more requests are granted than
a full bucket and the filling of that stretch pay for.
-/

namespace TokenBucket

/-- The size of a bucket, and how fast it is filled. -/
structure Rule (R : Type u) where
  size : R
  rate : R

/-- The tokens left, and the time up to which the bucket was filled. -/
structure Level (R : Type u) where
  tokens : R
  filledAt : R

variable {R : Type u} [Field R] [LinearOrder R]

namespace Rule

variable (rule : Rule R)

/-- The tokens at a time. -/
def available (level : Level R) (time : R) : R :=
  min rule.size (level.tokens + (time - level.filledAt) * rule.rate)

/-- A request at a time: whether it is granted, and what is left.  A bucket that was never
used is full, and the first request takes a token of it in any case. -/
def spend : Option (Level R) -> R -> Bool × Level R
  | none, time => (true, ⟨rule.size - 1, time⟩)
  | some level, time =>
      if rule.available level time < 1 then (false, ⟨rule.available level time, time⟩)
      else (true, ⟨rule.available level time - 1, time⟩)

/-- The requests at some times, and whether they are granted. -/
def answers : Option (Level R) -> List R -> List (R × Bool)
  | _level, [] => []
  | level, time :: times => (time, (rule.spend level time).1) :: answers (some (rule.spend level time).2) times

/-- The level after some requests. -/
def after (level : Option (Level R)) (times : List R) : Option (Level R) :=
  times.foldl (fun level time => some (rule.spend level time).2) level

/-- A level that a bucket can have. -/
structure Within (level : Level R) : Prop where
  nonnegative : 0 ≤ level.tokens
  bounded : level.tokens ≤ rule.size

end Rule

/-- The requests that were granted in a stretch of time. -/
def grantedBetween (start stop : R) (answers : List (R × Bool)) : List (R × Bool) :=
  answers.filter fun answer => decide (answer.2 = true ∧ start ≤ answer.1 ∧ answer.1 ≤ stop)

variable {rule : Rule R} {start stop : R}

theorem filledAt_spend (level : Option (Level R)) (time : R) : (rule.spend level time).2.filledAt = time := by
  cases level with
  | none => rfl
  | some level =>
      rw [Rule.spend]
      split <;> rfl

/-- What a request costs is what is missing after it. -/
theorem cost_spend (rule : Rule R) (level : Level R) (time : R) :
    (if (rule.spend (some level) time).1 = true then 1 else 0) + (rule.spend (some level) time).2.tokens =
      rule.available level time := by
  rw [Rule.spend]
  split
  · exact zero_add _
  · exact add_sub_cancel _ _

theorem grantedBetween_nil (start stop : R) : ((grantedBetween start stop []).length : R) = 0 := Nat.cast_zero

theorem grantedBetween_cons (start stop time : R) (granted : Bool) (answers : List (R × Bool)) :
    ((grantedBetween start stop ((time, granted) :: answers)).length : R) =
      (if granted = true ∧ start ≤ time ∧ time ≤ stop then 1 else 0) + (grantedBetween start stop answers).length := by
  rw [grantedBetween, grantedBetween, List.filter_cons]
  by_cases counted : granted = true ∧ start ≤ time ∧ time ≤ stop
  · rw [if_pos (decide_eq_true counted), if_pos counted, List.length_cons, Nat.cast_add_one, add_comm]
  · rw [if_neg (by rw [decide_eq_true_eq]; exact counted), if_neg counted, zero_add]

/-- After the stretch nothing is counted any more. -/
theorem grantedBetween_after (level : Option (Level R)) {times : List R}
    (after : forall time, time ∈ times -> stop < time) :
    grantedBetween start stop (rule.answers level times) = [] := by
  induction times generalizing level with
  | nil => rfl
  | cons time times inductionHypothesis =>
      rw [List.forall_mem_cons] at after
      rw [Rule.answers, grantedBetween, List.filter_cons_of_neg]
      · exact inductionHypothesis _ after.2
      · rw [decide_eq_true_eq]
        exact fun counted => absurd counted.2.2 (not_le.mpr after.1)

variable [IsStrictOrderedRing R]

/-! ## Levels in their bounds -/

theorem within_spend_none (whole : 1 ≤ rule.size) (time : R) : rule.Within (rule.spend none time).2 where
  nonnegative := sub_nonneg.mpr whole
  bounded := sub_le_self _ zero_le_one

/-- Filling keeps a level in its bounds. -/
theorem available_nonneg (whole : 1 ≤ rule.size) (filling : 0 ≤ rule.rate) {level : Level R}
    (within : rule.Within level) {time : R} (later : level.filledAt ≤ time) : 0 ≤ rule.available level time :=
  le_min (zero_le_one.trans whole)
    (add_nonneg within.nonnegative (mul_nonneg (sub_nonneg.mpr later) filling))

theorem within_spend (whole : 1 ≤ rule.size) (filling : 0 ≤ rule.rate) {level : Level R} (within : rule.Within level)
    {time : R} (later : level.filledAt ≤ time) : rule.Within (rule.spend (some level) time).2 := by
  have atMost : rule.available level time ≤ rule.size := min_le_left _ _
  rw [Rule.spend]
  split
  · exact ⟨available_nonneg whole filling within later, atMost⟩
  · rename_i enough
    exact ⟨sub_nonneg.mpr (not_lt.mp enough), (sub_le_self _ zero_le_one).trans atMost⟩

/-- After some requests the level is in its bounds, and filled up to the time of one of them. -/
theorem within_after (rule : Rule R) (whole : 1 ≤ rule.size) (filling : 0 ≤ rule.rate) {times : List R} {known : Level R}
    (ordered : times.Pairwise fun left right => left ≤ right) (isKnown : rule.after none times = some known) :
    rule.Within known ∧ known.filledAt ∈ times := by
  induction times using List.reverseRecOn generalizing known with
  | nil => cases isKnown
  | append_singleton times time inductionHypothesis =>
      rw [Rule.after, List.foldl_append, List.foldl_cons, List.foldl_nil, ← Rule.after] at isKnown
      cases Option.some.inj isKnown
      rw [List.pairwise_append] at ordered
      refine ⟨?_, List.mem_append_right _ (List.mem_singleton.mpr (filledAt_spend _ time))⟩
      cases before : rule.after none times with
      | none => exact within_spend_none whole time
      | some earlier =>
          have kept := inductionHypothesis ordered.1 before
          exact within_spend whole filling kept.1 (ordered.2.2 _ kept.2 time (List.mem_singleton_self time))

/-- A bucket whose filling makes a whole token grants a request. -/
theorem granted_of_waited (rule : Rule R) (whole : 1 ≤ rule.size) {level : Level R} (within : rule.Within level) {time : R}
    (waited : 1 ≤ (time - level.filledAt) * rule.rate) : (rule.spend (some level) time).1 = true := by
  have enough : ¬ rule.available level time < 1 :=
    not_lt.mpr (le_min whole (waited.trans (le_add_of_nonneg_left within.nonnegative)))
  rw [Rule.spend, if_neg enough]

/-! ## A stretch of time -/

/-- Within the stretch, the tokens left and what is still filled in pay for what is granted. -/
theorem grantedBetween_le_of_within (start : R) (whole : 1 ≤ rule.size) (filling : 0 ≤ rule.rate) {level : Level R}
    (within : rule.Within level) {times : List R} (ordered : (level.filledAt :: times).Pairwise fun left right => left ≤ right)
    (before : level.filledAt ≤ stop) :
    ((grantedBetween start stop (rule.answers (some level) times)).length : R) ≤
      level.tokens + (stop - level.filledAt) * rule.rate := by
  induction times generalizing level with
  | nil =>
      rw [Rule.answers, grantedBetween_nil]
      exact add_nonneg within.nonnegative (mul_nonneg (sub_nonneg.mpr before) filling)
  | cons time times inductionHypothesis =>
      have later := (List.pairwise_cons.mp ordered).1 time List.mem_cons_self
      by_cases inTime : time ≤ stop
      · have rest := inductionHypothesis (within_spend whole filling within later)
          (by rw [filledAt_spend]; exact (List.pairwise_cons.mp ordered).2) (by rw [filledAt_spend]; exact inTime)
        have cost := cost_spend rule level time
        have filled : rule.available level time ≤ level.tokens + (time - level.filledAt) * rule.rate := min_le_right _ _
        have counted : (if (rule.spend (some level) time).1 = true ∧ start ≤ time ∧ time ≤ stop then (1 : R) else 0) ≤
            if (rule.spend (some level) time).1 = true then 1 else 0 := by
          split
          · rename_i both
            rw [if_pos both.1]
          · split
            · exact zero_le_one
            · exact le_rfl
        rw [filledAt_spend] at rest
        rw [Rule.answers, grantedBetween_cons]
        linarith
      · rw [grantedBetween_after, List.length_nil, Nat.cast_zero]
        · exact add_nonneg within.nonnegative (mul_nonneg (sub_nonneg.mpr before) filling)
        · intro other member
          rcases List.mem_cons.mp member with rfl | isLater
          · exact not_le.mp inTime
          · exact (not_le.mp inTime).trans_le
              ((List.pairwise_cons.mp (List.pairwise_cons.mp ordered).2).1 other isLater)

/-- Over a stretch of time no more is granted than a full bucket and the filling of the
stretch pay for, whatever was spent before. -/
theorem grantedBetween_le (rule : Rule R) (whole : 1 ≤ rule.size) (filling : 0 ≤ rule.rate) (stretch : start ≤ stop)
    {level : Option (Level R)} (within : forall known, level = some known -> rule.Within known)
    {times : List R} (ordered : times.Pairwise fun left right => left ≤ right)
    (later : forall known, level = some known -> forall time, time ∈ times -> known.filledAt ≤ time) :
    ((grantedBetween start stop (rule.answers level times)).length : R) ≤
      rule.size + (stop - start) * rule.rate := by
  have atLeast : 0 ≤ rule.size + (stop - start) * rule.rate :=
    add_nonneg (zero_le_one.trans whole) (mul_nonneg (sub_nonneg.mpr stretch) filling)
  induction times generalizing level with
  | nil =>
      rw [Rule.answers, grantedBetween_nil]
      exact atLeast
  | cons time times inductionHypothesis =>
      rw [List.pairwise_cons] at ordered
      have spent : rule.Within (rule.spend level time).2 := by
        cases level with
        | none => exact within_spend_none whole time
        | some known => exact within_spend whole filling (within known rfl) (later known rfl time List.mem_cons_self)
      by_cases early : time < start
      · rw [Rule.answers, grantedBetween_cons, if_neg fun counted => absurd counted.2.1 (not_le.mpr early), zero_add]
        refine inductionHypothesis (fun known isKnown => Option.some.inj isKnown ▸ spent) ordered.2 ?_
        intro known isKnown other member
        rw [← Option.some.inj isKnown, filledAt_spend]
        exact ordered.1 other member
      · by_cases inTime : time ≤ stop
        · have inStretch : (rule.spend level time).2.filledAt ≤ stop := (filledAt_spend level time).trans_le inTime
          have rest := grantedBetween_le_of_within start whole filling spent
            (by rw [filledAt_spend]; exact List.pairwise_cons.mpr ordered) inStretch
          have paid : (if (rule.spend level time).1 = true ∧ start ≤ time ∧ time ≤ stop then (1 : R) else 0) +
              (rule.spend level time).2.tokens ≤ rule.size := by
            cases level with
            | none =>
                rw [Rule.spend]
                split <;> linarith
            | some known =>
                have cost := cost_spend rule known time
                have full : rule.available known time ≤ rule.size := min_le_left _ _
                by_cases granted : (rule.spend (some known) time).1 = true
                · rw [if_pos granted] at cost
                  rw [if_pos ⟨granted, not_lt.mp early, inTime⟩]
                  linarith
                · rw [if_neg granted] at cost
                  rw [if_neg fun counted => granted counted.1]
                  linarith
          have shorter : (stop - time) * rule.rate ≤ (stop - start) * rule.rate :=
            mul_le_mul_of_nonneg_right (sub_le_sub_left (not_lt.mp early) stop) filling
          rw [filledAt_spend] at rest
          rw [Rule.answers, grantedBetween_cons]
          linarith
        · rw [grantedBetween_after, List.length_nil, Nat.cast_zero]
          · exact atLeast
          · intro other member
            rcases List.mem_cons.mp member with rfl | isLater
            · exact not_le.mp inTime
            · exact (not_le.mp inTime).trans_le (ordered.1 other isLater)

end TokenBucket
end Telescope
