import Mathlib.Data.List.Basic

namespace Telescope

universe u v

/-!
# Prefix codes

A text that is put together from code words can be taken apart again when no word is the
beginning of another one.  A unit with which no word begins ends the text, so that it can
also be told from what follows it.
-/

variable {α : Type u} {β : Type v}

/-- No code word is the beginning of another one, and none begins with the unit that
ends a text. -/
structure PrefixCode (code : α -> List β) (stop : β) : Prop where
  separates : forall {first second : α} {rest more : List β},
    code first ++ rest = code second ++ more -> first = second
  continues : forall {first : α} {rest more : List β}, code first ++ rest ≠ stop :: more

namespace PrefixCode

variable {code : α -> List β} {stop : β}

/-- A text and what follows its end are told apart. -/
theorem flatMap_stop_inj (prefixCode : PrefixCode code stop) {first second : List α} {rest more : List β}
    (same : first.flatMap code ++ stop :: rest = second.flatMap code ++ stop :: more) :
    first = second ∧ rest = more := by
  induction first generalizing second with
  | nil =>
      cases second with
      | nil => exact ⟨rfl, (List.cons.inj same).2⟩
      | cons symbol symbols =>
          rw [List.flatMap_cons, List.append_assoc] at same
          exact (prefixCode.continues same.symm).elim
  | cons symbol symbols inductionHypothesis =>
      rw [List.flatMap_cons, List.append_assoc] at same
      cases second with
      | nil => exact (prefixCode.continues same).elim
      | cons other others =>
          rw [List.flatMap_cons, List.append_assoc] at same
          have isOther := prefixCode.separates same
          subst isOther
          rcases inductionHypothesis (List.append_cancel_left same) with ⟨rfl, rests⟩
          exact ⟨rfl, rests⟩

end PrefixCode
end Telescope

namespace Telescope

universe u

/-!
# Cutting lists

A list is cut at the first place where a unit stands: into what is in front of it, and
what follows it if it stands there at all.
-/

variable {α : Type u} [DecidableEq α]

/-- The list up to the first `stop`, and what follows that, if there is one. -/
def cutAt (stop : α) : List α -> List α × Option (List α)
  | [] => ([], none)
  | unit :: rest =>
      if unit = stop then ([], some rest) else (unit :: (cutAt stop rest).1, (cutAt stop rest).2)

/-- A part behind its mark, or nothing. -/
def marked (mark : α) : Option (List α) -> List α
  | none => []
  | some part => mark :: part

variable {stop : α} {front : List α}

theorem cutAt_of_not_mem (absent : stop ∉ front) : cutAt stop front = (front, none) := by
  induction front with
  | nil => rfl
  | cons unit front inductionHypothesis =>
      rw [List.mem_cons, not_or] at absent
      rw [cutAt, if_neg (Ne.symm absent.1), inductionHypothesis absent.2]

theorem cutAt_append_cons (absent : stop ∉ front) (rest : List α) : cutAt stop (front ++ stop :: rest) = (front, some rest) := by
  induction front with
  | nil => rw [List.nil_append, cutAt, if_pos rfl]
  | cons unit front inductionHypothesis =>
      rw [List.mem_cons, not_or] at absent
      rw [List.cons_append, cutAt, if_neg (Ne.symm absent.1), inductionHypothesis absent.2]

/-- What is put together from two parts is cut into them again. -/
theorem cutAt_append_marked (absent : stop ∉ front) (part : Option (List α)) :
    cutAt stop (front ++ marked stop part) = (front, part) := by
  cases part with
  | none => rw [marked, List.append_nil, cutAt_of_not_mem absent]
  | some part => exact cutAt_append_cons absent part

/-! ## Cells -/

/-- A list is determined by its cells between the separators. -/
theorem splitOn_inj {stop : α} {left right : List α} (same : left.splitOn stop = right.splitOn stop) : left = right := by
  calc
    left = [stop].intercalate (left.splitOn stop) := (List.intercalate_splitOn stop).symm
    _ = [stop].intercalate (right.splitOn stop) := by rw [same]
    _ = right := List.intercalate_splitOn stop

theorem Cut.length_splitOn {stop : α} (text : List α) : (text.splitOn stop).length = text.count stop + 1 := by
  induction text with
  | nil => rfl
  | cons unit text inductionHypothesis =>
      rw [List.splitOn_cons_eq_if_modifyHead]
      split
      · rename_i isStop
        rw [List.length_cons, inductionHypothesis, eq_of_beq isStop, List.count_cons_self]
      · rename_i other
        rw [List.length_modifyHead, inductionHypothesis, List.count_cons_of_ne fun isStop => other (beq_iff_eq.mpr isStop)]

/-- Lists that are joined by a separator show their cells, but not whose they are. -/
theorem append_cons_eq_iff {stop : α} {left right rest more : List α} :
    left ++ stop :: rest = right ++ stop :: more <->
      left.splitOn stop ++ rest.splitOn stop = right.splitOn stop ++ more.splitOn stop := by
  rw [<- List.splitOn_append_cons_self, <- List.splitOn_append_cons_self]
  exact ⟨congrArg (List.splitOn stop), splitOn_inj⟩

end Telescope
