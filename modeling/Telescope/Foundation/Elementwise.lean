import Mathlib.Data.List.Forall2

namespace Telescope

universe u v w

/-!
# Lists element by element

A conversion of a list that may fail fails with any element, and else converts each of them.
-/

namespace Elementwise

variable {α : Type u} {β : Type v} {γ : Type w} {left : List α} {right : List β}

theorem mapM_eq_some_iff {convert : α -> Option β} :
    left.mapM convert = some right <-> List.Forall₂ (fun item result => convert item = some result) left right := by
  induction left generalizing right with
  | nil =>
      rw [List.mapM_nil, List.forall₂_nil_left_iff]
      exact ⟨fun same => (Option.some_inj.mp same).symm, fun same => congrArg some same.symm⟩
  | cons item left inductionHypothesis =>
      rw [List.mapM_cons, List.forall₂_cons_left_iff]
      constructor
      · intro converted
        rcases Option.bind_eq_some_iff.mp converted with ⟨result, isResult, rest⟩
        rcases Option.bind_eq_some_iff.mp rest with ⟨results, areResults, same⟩
        exact ⟨result, results, isResult, inductionHypothesis.mp areResults, (Option.some_inj.mp same).symm⟩
      · rintro ⟨result, results, isResult, areResults, rfl⟩
        rw [isResult, inductionHypothesis.mpr areResults]
        rfl

theorem bind_eq_ok_iff {ε : Type u} {γ δ : Type v} {first : Except ε γ} {next : γ -> Except ε δ} {result : δ} :
    first >>= next = .ok result <-> Exists fun middle => first = .ok middle ∧ next middle = .ok result := by
  cases first with
  | error failure => exact iff_of_false (fun same => by cases same) fun found => by cases found.choose_spec.1
  | ok middle =>
      constructor
      · intro same
        exact ⟨middle, rfl, same⟩
      · rintro ⟨other, same, isResult⟩
        cases same
        exact isResult

theorem mapM_eq_ok_iff {ε : Type w} {convert : α -> Except ε β} :
    left.mapM convert = .ok right <-> List.Forall₂ (fun item result => convert item = .ok result) left right := by
  induction left generalizing right with
  | nil =>
      rw [List.mapM_nil, List.forall₂_nil_left_iff]
      exact ⟨fun same => (Except.ok.inj same).symm, fun same => congrArg Except.ok same.symm⟩
  | cons item left inductionHypothesis =>
      rw [List.mapM_cons, List.forall₂_cons_left_iff]
      constructor
      · intro converted
        rcases bind_eq_ok_iff.mp converted with ⟨result, isResult, rest⟩
        rcases bind_eq_ok_iff.mp rest with ⟨results, areResults, same⟩
        exact ⟨result, results, isResult, inductionHypothesis.mp areResults, (Except.ok.inj same).symm⟩
      · rintro ⟨result, results, isResult, areResults, rfl⟩
        rw [isResult, inductionHypothesis.mpr areResults]
        rfl

theorem exists_forall₂ {related : α -> β -> Prop} (all : forall item, item ∈ left -> Exists (related item)) :
    Exists (List.Forall₂ related left) := by
  induction left with
  | nil => exact ⟨[], .nil⟩
  | cons item left inductionHypothesis =>
      rw [List.forall_mem_cons] at all
      rcases all.1 with ⟨result, isResult⟩
      rcases inductionHypothesis all.2 with ⟨results, areResults⟩
      exact ⟨result :: results, .cons isResult areResults⟩

theorem exists_of_mem_left {related : α -> β -> Prop} (all : List.Forall₂ related left right) {item : α}
    (member : item ∈ left) : Exists fun result => result ∈ right ∧ related item result := by
  induction all with
  | nil => exact (List.not_mem_nil member).elim
  | cons isFirst _ inductionHypothesis =>
      rcases List.mem_cons.mp member with rfl | later
      · exact ⟨_, List.mem_cons_self .., isFirst⟩
      · rcases inductionHypothesis later with ⟨result, isIn, isResult⟩
        exact ⟨result, List.mem_cons_of_mem _ isIn, isResult⟩

theorem exists_of_mem_right {related : α -> β -> Prop} (all : List.Forall₂ related left right) {result : β}
    (member : result ∈ right) : Exists fun item => item ∈ left ∧ related item result := by
  have flipped : List.Forall₂ (fun result item => related item result) right left := all.flip
  exact exists_of_mem_left flipped member

theorem forall₂_comp {first : α -> β -> Prop} {second : β -> γ -> Prop} {last : List γ}
    (begins : List.Forall₂ first left right) (ends : List.Forall₂ second right last) :
    List.Forall₂ (fun item result => Exists fun middle => first item middle ∧ second middle result) left last := by
  induction begins generalizing last with
  | nil =>
      cases ends
      exact .nil
  | cons isFirst _ inductionHypothesis =>
      cases ends with
      | cons isSecond rest => exact .cons ⟨_, isFirst, isSecond⟩ (inductionHypothesis rest)

end Elementwise
end Telescope
