import Mathlib.Data.List.DropRight

namespace Telescope
namespace Spacing

universe u

/-!
# White space in a text

Runs of white space are replaced by one blank each, and the white space at both ends is
cut off.
-/

variable {Unit : Type u} (isSpace : Unit -> Bool) (blank : Unit)

/-- Replace the runs of white space; within a run its blank is written already. -/
def collapseFrom : Bool -> List Unit -> List Unit
  | _, [] => []
  | inRun, unit :: rest =>
      if isSpace unit then
        if inRun then collapseFrom true rest else blank :: collapseFrom true rest
      else unit :: collapseFrom false rest

def collapse (text : List Unit) : List Unit := collapseFrom isSpace blank false text

def trim (text : List Unit) : List Unit := (text.dropWhile isSpace).rdropWhile isSpace

/-! ## What collapsing and trimming leave -/

/-- White space stands alone, and is the blank. -/
def Collapsed : Bool -> List Unit -> Prop
  | _, [] => True
  | inRun, unit :: rest =>
      if isSpace unit then (inRun = false ∧ unit = blank) ∧ Collapsed true rest else Collapsed false rest

variable {isSpace blank} {inRun : Bool} {text : List Unit}

theorem collapseFrom_collapsed (collapsed : Collapsed isSpace blank inRun text) :
    collapseFrom isSpace blank inRun text = text := by
  induction text generalizing inRun with
  | nil => rfl
  | cons unit rest inductionHypothesis =>
      rw [Collapsed] at collapsed
      rw [collapseFrom]
      split at collapsed
      · rename_i space
        rw [if_pos space, collapsed.1.1, if_neg Bool.false_ne_true, inductionHypothesis collapsed.2, collapsed.1.2]
      · rename_i other
        rw [if_neg other, inductionHypothesis collapsed]

theorem collapsed_collapseFrom (blankSpace : isSpace blank = true) (inRun : Bool) (text : List Unit) :
    Collapsed isSpace blank inRun (collapseFrom isSpace blank inRun text) := by
  induction text generalizing inRun with
  | nil => trivial
  | cons unit rest inductionHypothesis =>
      rw [collapseFrom]
      split
      · cases inRun with
        | true => exact inductionHypothesis true
        | false =>
            rw [if_neg Bool.false_ne_true, Collapsed, if_pos blankSpace]
            exact ⟨⟨rfl, rfl⟩, inductionHypothesis true⟩
      · rename_i other
        rw [Collapsed, if_neg other]
        exact inductionHypothesis false

theorem Collapsed.dropWhile (collapsed : Collapsed isSpace blank inRun text) :
    Collapsed isSpace blank false (text.dropWhile isSpace) := by
  induction text generalizing inRun with
  | nil => trivial
  | cons unit rest inductionHypothesis =>
      rw [Collapsed] at collapsed
      split at collapsed
      · rename_i space
        rw [List.dropWhile_cons_of_pos space]
        exact inductionHypothesis collapsed.2
      · rename_i other
        rw [List.dropWhile_cons_of_neg other, Collapsed, if_neg other]
        exact collapsed

theorem Collapsed.front {unit : Unit} (collapsed : Collapsed isSpace blank inRun (text ++ [unit])) :
    Collapsed isSpace blank inRun text := by
  induction text generalizing inRun with
  | nil => trivial
  | cons first rest inductionHypothesis =>
      rw [List.cons_append, Collapsed] at collapsed
      rw [Collapsed]
      split at collapsed
      · rename_i space
        rw [if_pos space]
        exact ⟨collapsed.1, inductionHypothesis collapsed.2⟩
      · rename_i other
        rw [if_neg other]
        exact inductionHypothesis collapsed

/-- A property that survives the loss of the last unit survives trimming at the end. -/
theorem rdropWhile_induction {motive : List Unit -> Prop}
    (front : forall text unit, isSpace unit = true -> motive (text ++ [unit]) -> motive text) {text : List Unit}
    (holds : motive text) : motive (text.rdropWhile isSpace) := by
  induction text using List.reverseRecOn with
  | nil => exact holds
  | append_singleton text unit inductionHypothesis =>
      rw [List.rdropWhile_concat]
      split
      · rename_i space
        exact inductionHypothesis (front text unit space holds)
      · exact holds

theorem Collapsed.trim (collapsed : Collapsed isSpace blank inRun text) :
    Collapsed isSpace blank false (trim isSpace text) :=
  rdropWhile_induction (fun _text _unit _space => Collapsed.front) collapsed.dropWhile

theorem trim_trim (text : List Unit) : trim isSpace (trim isSpace text) = trim isSpace text := by
  have noLead : (trim isSpace text).dropWhile isSpace = trim isSpace text := by
    rcases List.rdropWhile_prefix isSpace (text.dropWhile isSpace) with ⟨back, whole⟩
    have stopped := List.head?_dropWhile_not isSpace text
    rw [← whole] at stopped
    change (trim isSpace text).dropWhile isSpace = trim isSpace text
    cases isTrimmed : trim isSpace text with
    | nil => rfl
    | cons unit rest =>
        rw [trim] at isTrimmed
        rw [isTrimmed] at stopped
        exact List.dropWhile_cons_of_neg (Bool.eq_false_iff.mp stopped)
  rw [trim, noLead, trim, List.rdropWhile_idempotent]

/-- Collapsing and trimming what is collapsed and trimmed changes nothing. -/
theorem trim_collapse_trim_collapse (blankSpace : isSpace blank = true) (text : List Unit) :
    trim isSpace (collapse isSpace blank (trim isSpace (collapse isSpace blank text))) =
      trim isSpace (collapse isSpace blank text) := by
  have collapsed := (collapsed_collapseFrom blankSpace false text).trim
  rw [collapse, collapse, collapseFrom_collapsed collapsed, trim_trim]

/-! ## Around a unit that is no white space -/

theorem collapseFrom_append_cons {unit : Unit} (other : isSpace unit = false) (inRun : Bool) (left right : List Unit) :
    collapseFrom isSpace blank inRun (left ++ unit :: right) =
      collapseFrom isSpace blank inRun left ++ unit :: collapseFrom isSpace blank false right := by
  induction left generalizing inRun with
  | nil => exact if_neg (Bool.eq_false_iff.mp other)
  | cons first rest inductionHypothesis =>
      rw [List.cons_append, collapseFrom, collapseFrom, inductionHypothesis, inductionHypothesis]
      split
      · split <;> rfl
      · rfl

theorem dropWhile_append_cons {unit : Unit} (other : isSpace unit = false) (left right : List Unit) :
    (left ++ unit :: right).dropWhile isSpace = left.dropWhile isSpace ++ unit :: right := by
  induction left with
  | nil => exact List.dropWhile_cons_of_neg (Bool.eq_false_iff.mp other)
  | cons first rest inductionHypothesis =>
      rw [List.cons_append, List.dropWhile_cons, List.dropWhile_cons, inductionHypothesis]
      split <;> rfl

theorem trim_append_cons {unit : Unit} (other : isSpace unit = false) (left right : List Unit) :
    trim isSpace (left ++ unit :: right) = left.dropWhile isSpace ++ unit :: right.rdropWhile isSpace := by
  rw [trim, dropWhile_append_cons other, List.rdropWhile, List.reverse_append, List.reverse_cons, List.append_assoc,
    List.singleton_append, dropWhile_append_cons other, List.reverse_append, List.reverse_cons, List.reverse_reverse,
    List.append_assoc, List.singleton_append, List.rdropWhile]

theorem mem_collapseFrom {unit : Unit} {inRun : Bool} {text : List Unit}
    (member : unit ∈ collapseFrom isSpace blank inRun text) : unit = blank ∨ unit ∈ text := by
  induction text generalizing inRun with
  | nil => exact .inr member
  | cons first rest inductionHypothesis =>
      rw [collapseFrom] at member
      split at member
      · split at member
        · exact (inductionHypothesis member).imp_right (List.mem_cons_of_mem _)
        · rcases List.mem_cons.mp member with isBlank | inRest
          · exact .inl isBlank
          · exact (inductionHypothesis inRest).imp_right (List.mem_cons_of_mem _)
      · rcases List.mem_cons.mp member with isFirst | inRest
        · exact .inr (List.mem_cons.mpr (.inl isFirst))
        · exact (inductionHypothesis inRest).imp_right (List.mem_cons_of_mem _)

theorem trim_sublist (text : List Unit) : (trim isSpace text).Sublist text :=
  (List.rdropWhile_prefix isSpace _).sublist.trans (List.dropWhile_sublist _)

end Spacing
end Telescope
