import Mathlib.Data.List.Lex
import Mathlib.Data.Char
import Mathlib.Order.Fin.Basic

namespace Telescope

/-!
# Strings

A well-formed JavaScript string is the list of its code points.  Two orders on
strings matter here.  Redis compares bytes of UTF-8, which is the order of the
code points and hence the order of `Text` itself.  JavaScript's `<` compares
UTF-16 code units; the two differ where a surrogate pair meets a code point
above the surrogates.
-/

/-- A well-formed string. -/
abbrev Text := List Char

namespace Text

abbrev CodeUnit := Fin 65536

/-! These instances are named, so that definitions refer to them alike. -/

instance codeUnits_nonempty : @NeZero Nat Zero.ofOfNat0 65536 := ⟨by decide⟩

instance lawful_text : LawfulBEq (List Char) := inferInstance

instance lawful_codeUnit : LawfulBEq CodeUnit := inferInstance

instance lawful_codeUnits : LawfulBEq (List CodeUnit) := inferInstance

/-- The UTF-16 code units of one code point. -/
def charUnits (character : Char) : List CodeUnit :=
  if small : character.toNat < 65536 then [⟨character.toNat, small⟩]
  else
    [Fin.ofNat 65536 (55296 + (character.toNat - 65536) / 1024),
      Fin.ofNat 65536 (56320 + (character.toNat - 65536) % 1024)]

def codeUnits (text : Text) : List CodeUnit :=
  text.flatMap charUnits

/-- JavaScript's `left < right`. -/
def Before (left right : Text) : Prop := left.codeUnits < right.codeUnits

instance (left right : Text) : Decidable (left.Before right) :=
  inferInstanceAs (Decidable (left.codeUnits < right.codeUnits))

theorem not_surrogate (character : Char) :
    character.toNat < 55296 ∨ (57343 < character.toNat ∧ character.toNat < 1114112) :=
  character.valid

/-- The first code unit tells one-unit and two-unit characters apart. -/
theorem charUnits_append_inj {left right : Char} {leftRest rightRest : List CodeUnit}
    (same : charUnits left ++ leftRest = charUnits right ++ rightRest) :
    left = right ∧ leftRest = rightRest := by
  have leftValid := not_surrogate left
  have rightValid := not_surrogate right
  unfold charUnits at same
  split at same
  · split at same
    · simp only [List.singleton_append, List.cons.injEq, Fin.mk.injEq] at same
      exact ⟨Char.toNat_inj.mp same.1, same.2⟩
    · simp only [List.cons_append, List.nil_append, List.cons.injEq, Fin.ext_iff,
        Fin.val_ofNat] at same
      omega
  · split at same
    · simp only [List.cons_append, List.nil_append, List.cons.injEq, Fin.ext_iff,
        Fin.val_ofNat] at same
      omega
    · simp only [List.cons_append, List.nil_append, List.cons.injEq, Fin.ext_iff,
        Fin.val_ofNat] at same
      exact ⟨Char.toNat_inj.mp (by omega), same.2.2⟩

theorem charUnits_ne_nil (character : Char) : charUnits character ≠ [] := by
  unfold charUnits
  split <;> exact List.cons_ne_nil _ _

/-- A string is determined by its code units. -/
theorem codeUnits_injective {left right : Text} (same : left.codeUnits = right.codeUnits) :
    left = right := by
  induction left generalizing right with
  | nil =>
      cases right with
      | nil => rfl
      | cons character right =>
          rw [codeUnits, codeUnits, List.flatMap_nil, List.flatMap_cons] at same
          exact (charUnits_ne_nil character (List.append_eq_nil_iff.mp same.symm).1).elim
  | cons first left inductionHypothesis =>
      cases right with
      | nil =>
          rw [codeUnits, codeUnits, List.flatMap_nil, List.flatMap_cons] at same
          exact (charUnits_ne_nil first (List.append_eq_nil_iff.mp same).1).elim
      | cons second right =>
          rw [codeUnits, codeUnits, List.flatMap_cons, List.flatMap_cons] at same
          rcases charUnits_append_inj same with ⟨rfl, rest⟩
          rw [inductionHypothesis rest]

theorem before_trans {first second third : Text} (left : first.Before second)
    (right : second.Before third) : first.Before third :=
  List.lt_trans left right

theorem before_asymm {left right : Text} (before : left.Before right) : ¬ right.Before left :=
  List.lt_asymm before

theorem before_trichotomy (left right : Text) :
    left.Before right ∨ left = right ∨ right.Before left := by
  rcases lt_trichotomy left.codeUnits right.codeUnits with before | same | after
  · exact .inl before
  · exact .inr (.inl (codeUnits_injective same))
  · exact .inr (.inr after)

end Text
end Telescope
