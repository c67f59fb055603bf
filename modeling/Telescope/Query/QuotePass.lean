import Telescope.Query.NormalizeSql

namespace Telescope
namespace Query

/-!
# What the pass over string literals pairs

The pass pairs the quotes of a text from left to right, whatever they quote.  Behind an
even number of quotes a literal is replaced as a whole and nothing else changes; behind
an odd number its opening quote closes a pair, and what it quotes is left in the text.
-/

def quotes (text : Sql) : Nat := text.count QUOTE

/-- Where one text ends in a quote, the next does not begin with one. -/
def Seam (left right : Sql) : Prop := forall front, left = front ++ [QUOTE] -> right.head? ≠ some QUOTE

theorem quotes_append (left right : Sql) : quotes (left ++ right) = quotes left + quotes right :=
  List.count_append

theorem quotes_cons_quote (rest : Sql) : quotes (QUOTE :: rest) = quotes rest + 1 := List.count_cons_self

variable {point : CodePoint}

theorem quotes_cons_of_ne (isPlain : point ≠ QUOTE) (rest : Sql) :
    quotes (point :: rest) = quotes rest := List.count_cons_of_ne isPlain

theorem quotes_eq_zero {text : Sql} : quotes text = 0 <-> QUOTE ∉ text := List.count_eq_zero

variable {left right : Sql}

theorem Seam.tail (seam : Seam (point :: left) right) : Seam left right :=
  fun front isLeft => seam (point :: front) (by rw [isLeft, List.cons_append])

theorem seam_of_head (plain : right.head? ≠ some QUOTE) : Seam left right :=
  fun _front _isLeft => plain

theorem replaceStrings_nil : replaceStrings [] = [] := by rw [replaceStrings]

theorem replaceStrings_plain (isPlain : point ≠ QUOTE) (rest : Sql) :
    replaceStrings (point :: rest) = point :: replaceStrings rest := by
  rw [replaceStrings, if_neg isPlain]

theorem replaceStrings_closed {rest tail : Sql} (closed : closing rest = some tail) :
    replaceStrings (QUOTE :: rest) = QUESTION :: replaceStrings tail := by
  rw [replaceStrings, if_pos rfl]
  split
  · rename_i other isOther
    rw [isOther] at closed
    rw [Option.some.inj closed]
  · rename_i none
    rw [none] at closed
    cases closed

theorem replaceStrings_open {rest : Sql} (unclosed : closing rest = none) :
    replaceStrings (QUOTE :: rest) = QUOTE :: replaceStrings rest := by
  rw [replaceStrings, if_pos rfl]
  split
  · rename_i other isOther
    rw [isOther] at unclosed
    cases unclosed
  · rfl

theorem closing_plain (isPlain : point ≠ QUOTE) (rest : Sql) :
    closing (point :: rest) = closing rest := by
  cases rest with
  | nil => rw [closing, closing, if_neg isPlain]
  | cons next rest => rw [closing, if_neg isPlain]

theorem closing_pair (rest : Sql) :
    closing (QUOTE :: QUOTE :: rest) = (closing rest).orElse fun _unclosed => some (QUOTE :: rest) := by
  rw [closing, if_pos rfl, if_pos rfl]

theorem closing_single {rest : Sql} (isSingle : rest.head? ≠ some QUOTE) : closing (QUOTE :: rest) = some rest := by
  cases rest with
  | nil => rw [closing, if_pos rfl]
  | cons next rest => rw [closing, if_pos rfl, if_neg fun same => isSingle (congrArg some same)]

/-- Induction on a text by its plain characters, its doubled quotes and its single
quotes. -/
theorem quoted_induction {motive : Sql -> Prop} (nil : motive [])
    (plain : forall point rest, point ≠ QUOTE -> motive rest -> motive (point :: rest))
    (pair : forall rest, motive rest -> motive (QUOTE :: QUOTE :: rest))
    (single : forall rest, rest.head? ≠ some QUOTE -> motive (QUOTE :: rest)) (text : Sql) : motive text := by
  induction text using closing.induct with
  | case1 => exact nil
  | case2 => exact single [] (fun same => by cases same)
  | case3 point isPlain => exact plain point [] isPlain nil
  | case4 rest inductionHypothesis => exact pair rest inductionHypothesis
  | case5 next rest isSingle => exact single (next :: rest) fun same => isSingle (Option.some.inj same)
  | case6 point next rest isPlain inductionHypothesis => exact plain point (next :: rest) isPlain inductionHypothesis

/-- Induction along the pass. -/
theorem replaceStrings_induction {motive : Sql -> Prop} (nil : motive [])
    (plain : forall point rest, point ≠ QUOTE -> motive rest -> motive (point :: rest))
    (quote : forall rest, (forall shorter : Sql, shorter.length ≤ rest.length -> motive shorter) ->
      motive (QUOTE :: rest)) (text : Sql) : motive text := by
  induction size : text.length using Nat.strong_induction_on generalizing text with
  | _ size' inductionHypothesis =>
      cases text with
      | nil => exact nil
      | cons point rest =>
          rw [List.length_cons] at size
          by_cases isQuote : point = QUOTE
          · rw [isQuote]
            exact quote rest fun shorter fits => inductionHypothesis shorter.length (by omega) shorter rfl
          · exact plain point rest isQuote (inductionHypothesis rest.length (by omega) rest rfl)

/-! ## Behind an even number of quotes -/

/-- An opened text is closed in itself. -/
theorem closing_within (odd : quotes left % 2 = 1) (right : Sql) (seam : Seam left right) :
    Exists fun tail => (closing left = some tail ∧ closing (left ++ right) = some (tail ++ right)) ∧
      quotes tail % 2 = 0 ∧ Seam tail right := by
  induction left using quoted_induction with
  | nil => exact absurd odd (by decide)
  | plain point rest isPlain inductionHypothesis =>
      rw [quotes_cons_of_ne isPlain] at odd
      rcases inductionHypothesis odd seam.tail with ⟨tail, closed, even⟩
      rw [List.cons_append, closing_plain isPlain, closing_plain isPlain]
      exact ⟨tail, closed, even⟩
  | pair rest inductionHypothesis =>
      rw [quotes_cons_quote, quotes_cons_quote] at odd
      rcases inductionHypothesis (by omega) seam.tail.tail with ⟨tail, closed, even⟩
      rw [List.cons_append, List.cons_append, closing_pair, closing_pair, closed.1, closed.2]
      exact ⟨tail, ⟨rfl, rfl⟩, even⟩
  | single rest isSingle =>
      rw [quotes_cons_quote] at odd
      have isSingle' : (rest ++ right).head? ≠ some QUOTE := by
        cases rest with
        | nil => exact seam [] rfl
        | cons next rest => exact isSingle
      rw [List.cons_append, closing_single isSingle, closing_single isSingle']
      exact ⟨rest, ⟨rfl, rfl⟩, by omega, seam.tail⟩

/-- Behind an even number of quotes the pass starts anew. -/
theorem replaceStrings_append (even : quotes left % 2 = 0) (seam : Seam left right) :
    replaceStrings (left ++ right) = replaceStrings left ++ replaceStrings right := by
  induction left using replaceStrings_induction with
  | nil => rw [replaceStrings_nil, List.nil_append, List.nil_append]
  | plain point rest isPlain inductionHypothesis =>
      rw [quotes_cons_of_ne isPlain] at even
      rw [List.cons_append, replaceStrings_plain isPlain, replaceStrings_plain isPlain,
        inductionHypothesis even seam.tail, List.cons_append]
  | quote rest inductionHypothesis =>
      rw [quotes_cons_quote] at even
      rcases closing_within (by omega) right seam.tail with ⟨tail, closed, evenTail, seamTail⟩
      rw [List.cons_append, replaceStrings_closed closed.1, replaceStrings_closed closed.2, List.cons_append,
        inductionHypothesis tail (length_closing closed.1).le evenTail seamTail]

theorem closing_quoted {content : Sql} (isQuoted : IsQuoted content) {after : Sql} (ends : after.head? ≠ some QUOTE) :
    closing (content ++ QUOTE :: after) = some after := by
  induction isQuoted with
  | nil => exact closing_single ends
  | plain point rest isPlain _isQuoted inductionHypothesis =>
      rw [List.cons_append, closing_plain isPlain, inductionHypothesis]
  | doubled rest _isQuoted inductionHypothesis =>
      rw [List.cons_append, List.cons_append, closing_pair, inductionHypothesis]
      rfl

/-- A string literal behind an even number of quotes is replaced, whatever it holds. -/
theorem replaceStrings_literal {before content after : Sql} (even : quotes before % 2 = 0)
    (notDoubled : forall front, before ≠ front ++ [QUOTE]) (isQuoted : IsQuoted content)
    (ends : after.head? ≠ some QUOTE) :
    replaceStrings (before ++ QUOTE :: (content ++ QUOTE :: after)) =
      replaceStrings before ++ QUESTION :: replaceStrings after := by
  rw [replaceStrings_append even fun front isBefore => (notDoubled front isBefore).elim,
    replaceStrings_closed (closing_quoted isQuoted ends)]

/-! ## Behind the last quote -/

theorem closing_free {text : Sql} (free : QUOTE ∉ text) : closing text = none := by
  induction text with
  | nil => rw [closing]
  | cons point rest inductionHypothesis =>
      rw [List.mem_cons, not_or] at free
      rw [closing_plain (Ne.symm free.1), inductionHypothesis free.2]

theorem closing_append_free (free : QUOTE ∉ right) (left : Sql) :
    closing (left ++ right) = (closing left).map (· ++ right) := by
  induction left using quoted_induction with
  | nil =>
      rw [List.nil_append, closing_free free, closing]
      rfl
  | plain point rest isPlain inductionHypothesis =>
      rw [List.cons_append, closing_plain isPlain, closing_plain isPlain, inductionHypothesis]
  | pair rest inductionHypothesis =>
      rw [List.cons_append, List.cons_append, closing_pair, closing_pair, inductionHypothesis]
      cases closing rest <;> rfl
  | single rest isSingle =>
      have isSingle' : (rest ++ right).head? ≠ some QUOTE := by
        cases rest with
        | nil => exact fun same => free (List.mem_of_mem_head? same)
        | cons next rest => exact isSingle
      rw [List.cons_append, closing_single isSingle, closing_single isSingle']
      rfl

theorem replaceStrings_free {text : Sql} (free : QUOTE ∉ text) : replaceStrings text = text := by
  induction text with
  | nil => exact replaceStrings_nil
  | cons point rest inductionHypothesis =>
      rw [List.mem_cons, not_or] at free
      rw [replaceStrings_plain (Ne.symm free.1), inductionHypothesis free.2]

/-- What stands behind the last quote of a text stays as it is. -/
theorem replaceStrings_append_free (free : QUOTE ∉ right) (left : Sql) :
    replaceStrings (left ++ right) = replaceStrings left ++ right := by
  induction left using replaceStrings_induction with
  | nil => rw [replaceStrings_nil, List.nil_append, replaceStrings_free free]
  | plain point rest isPlain inductionHypothesis =>
      rw [List.cons_append, replaceStrings_plain isPlain, replaceStrings_plain isPlain, inductionHypothesis,
        List.cons_append]
  | quote rest inductionHypothesis =>
      rw [List.cons_append]
      cases closed : closing rest with
      | none =>
          have unclosed : closing (rest ++ right) = none := by
            rw [closing_append_free free, closed]
            rfl
          rw [replaceStrings_open closed, replaceStrings_open unclosed, inductionHypothesis rest (Nat.le_refl _),
            List.cons_append]
      | some tail =>
          have closed' : closing (rest ++ right) = some (tail ++ right) := by
            rw [closing_append_free free, closed]
            rfl
          rw [replaceStrings_closed closed, replaceStrings_closed closed',
            inductionHypothesis tail (length_closing closed).le, List.cons_append]

/-! ## Between two quotes of a pair -/

theorem closing_free_append (free : QUOTE ∉ left) (right : Sql) :
    closing (left ++ right) = closing right := by
  induction left with
  | nil => rfl
  | cons point rest inductionHypothesis =>
      rw [List.mem_cons, not_or] at free
      rw [List.cons_append, closing_plain (Ne.symm free.1), inductionHypothesis free.2]

theorem isSome_closing {text : Sql} (member : QUOTE ∈ text) : (closing text).isSome = true := by
  induction text using quoted_induction with
  | nil => exact (List.not_mem_nil member).elim
  | plain point rest isPlain inductionHypothesis =>
      rw [closing_plain isPlain]
      exact inductionHypothesis ((List.mem_cons.mp member).resolve_left (Ne.symm isPlain))
  | pair rest _inductionHypothesis =>
      rw [closing_pair]
      cases closing rest <;> rfl
  | single rest isSingle =>
      rw [closing_single isSingle]
      rfl

/-- What a pair quotes is not looked at: the pair of an opened text either closes before
it, or behind it. -/
theorem closing_around (even : quotes left % 2 = 0) (closes : QUOTE ∈ right) :
    (Exists fun tail => (tail.length < left.length ∧ quotes tail % 2 = 1) ∧
      forall inside : Sql, inside ≠ [] -> QUOTE ∉ inside ->
        closing (left ++ (inside ++ right)) = some (tail ++ (inside ++ right))) ∨
    Exists fun tail => forall inside : Sql, inside ≠ [] -> QUOTE ∉ inside ->
      closing (left ++ (inside ++ right)) = some tail := by
  induction left using quoted_induction with
  | nil =>
      rcases Option.isSome_iff_exists.mp (isSome_closing closes) with ⟨tail, isTail⟩
      refine .inr ⟨tail, fun inside _filled free => ?_⟩
      rw [List.nil_append, closing_free_append free, isTail]
  | plain point rest isPlain inductionHypothesis =>
      rw [quotes_cons_of_ne isPlain] at even
      rcases inductionHypothesis even with ⟨tail, shape, closed⟩ | ⟨tail, closed⟩
      · refine .inl ⟨tail, ⟨shape.1.trans (Nat.lt_succ_self _), shape.2⟩, fun inside filled free => ?_⟩
        rw [List.cons_append, closing_plain isPlain, closed inside filled free]
      · refine .inr ⟨tail, fun inside filled free => ?_⟩
        rw [List.cons_append, closing_plain isPlain, closed inside filled free]
  | pair rest inductionHypothesis =>
      rw [quotes_cons_quote, quotes_cons_quote] at even
      rcases inductionHypothesis (by omega) with ⟨tail, shape, closed⟩ | ⟨tail, closed⟩
      · refine .inl ⟨tail, ⟨shape.1.trans (Nat.lt_succ_of_lt (Nat.lt_succ_self _)), shape.2⟩, ?_⟩
        intro inside filled free
        rw [List.cons_append, List.cons_append, closing_pair, closed inside filled free]
        rfl
      · refine .inr ⟨tail, fun inside filled free => ?_⟩
        rw [List.cons_append, List.cons_append, closing_pair, closed inside filled free]
        rfl
  | single rest isSingle =>
      rw [quotes_cons_quote] at even
      refine .inl ⟨rest, ⟨Nat.lt_succ_self _, by omega⟩, fun inside filled free => ?_⟩
      have isSingle' : (rest ++ (inside ++ right)).head? ≠ some QUOTE := by
        cases rest with
        | nil =>
            cases inside with
            | nil => exact (filled rfl).elim
            | cons point inside => exact fun same => free (Option.some.inj same ▸ List.mem_cons_self ..)
        | cons next rest => exact isSingle
      rw [List.cons_append, closing_single isSingle']

/-- What stands between the quotes of a pair does not matter. -/
theorem replaceStrings_around {first second : Sql} (odd : quotes left % 2 = 1) (closes : QUOTE ∈ right)
    (firstFilled : first ≠ []) (firstFree : QUOTE ∉ first) (secondFilled : second ≠ []) (secondFree : QUOTE ∉ second) :
    replaceStrings (left ++ (first ++ right)) = replaceStrings (left ++ (second ++ right)) := by
  induction left using replaceStrings_induction with
  | nil => exact absurd odd (by decide)
  | plain point rest isPlain inductionHypothesis =>
      rw [quotes_cons_of_ne isPlain] at odd
      rw [List.cons_append, List.cons_append, replaceStrings_plain isPlain, replaceStrings_plain isPlain,
        inductionHypothesis odd]
  | quote rest inductionHypothesis =>
      rw [quotes_cons_quote] at odd
      rw [List.cons_append, List.cons_append]
      rcases @closing_around rest right (by omega) closes with ⟨tail, shape, closed⟩ | ⟨tail, closed⟩
      · rw [replaceStrings_closed (closed first firstFilled firstFree),
          replaceStrings_closed (closed second secondFilled secondFree),
          inductionHypothesis tail shape.1.le shape.2]
      · rw [replaceStrings_closed (closed first firstFilled firstFree),
          replaceStrings_closed (closed second secondFilled secondFree)]

end Query
end Telescope
