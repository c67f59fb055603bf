import Telescope.Query.NumberPass
import Telescope.Query.QuotePass

namespace Telescope
namespace Query

/-!
# Lower case in pieces

The lower case of a part of a statement depends on the text around it only through the
capital sigmas of the part, and on that only through whether a cased letter is the next
thing to the one side and to the other.
-/

variable (table : CaseTable)

/-- The lower case of a text between what stands before it, in reverse, and behind it. -/
def lowerWithin (before : Sql) : Sql -> Sql -> Sql
  | [], _after => []
  | point :: text, after => lowerAt table before point (text ++ after) ++ lowerWithin (point :: before) text after

/-- All of the text is passed over in search for a cased letter. -/
def Through (text : Sql) : Prop :=
  forall point, point ∈ text -> table.isCased point = false ∧ table.isIgnorable point = true

/-- The lower case of a capital sigma, by whether it ends a word. -/
def sigma (final : Bool) : CodePoint := if final then FINAL_SIGMA else SMALL_SIGMA

variable {table}

theorem lowerFrom_append (before text rest : Sql) :
    lowerFrom table before (text ++ rest) =
      lowerWithin table before text rest ++ lowerFrom table (text.reverse ++ before) rest := by
  induction text generalizing before with
  | nil => rfl
  | cons point text inductionHypothesis =>
      rw [List.cons_append, lowerFrom, lowerWithin, inductionHypothesis, List.append_assoc, List.reverse_cons,
        List.append_assoc, List.singleton_append]

theorem lowerFrom_eq (before text : Sql) : lowerFrom table before text = lowerWithin table before text [] := by
  have whole := @lowerFrom_append table before text []
  rw [List.append_nil, lowerFrom, List.append_nil] at whole
  exact whole

theorem lowerWithin_append (before front back after : Sql) :
    lowerWithin table before (front ++ back) after =
      lowerWithin table before front (back ++ after) ++ lowerWithin table (front.reverse ++ before) back after := by
  induction front generalizing before with
  | nil => rfl
  | cons point front inductionHypothesis =>
      rw [List.cons_append, lowerWithin, lowerWithin, inductionHypothesis, List.append_assoc, List.append_assoc,
        List.reverse_cons, List.append_assoc, List.singleton_append]

theorem sigma_ne_quote (final : Bool) : sigma final ≠ QUOTE := by cases final <;> decide

theorem lowerAt_sigma (before rest : Sql) :
    lowerAt table before SIGMA rest = [sigma (reachesCased table before && !reachesCased table rest)] := by
  rw [lowerAt, if_pos rfl, sigma]
  split <;> rfl

variable {point : CodePoint}

theorem lowerAt_other (other : point ≠ SIGMA) (before rest : Sql) :
    lowerAt table before point rest = table.lower point := if_neg other

/-! ## What a sigma reads -/

theorem reachesCased_sigma (rest : Sql) : reachesCased table (SIGMA :: rest) = true := by
  rw [reachesCased, table.sigma_cased, Bool.true_or]

theorem reachesCased_append_congr {left right : Sql} (same : reachesCased table left = reachesCased table right)
    (text : Sql) : reachesCased table (text ++ left) = reachesCased table (text ++ right) := by
  induction text with
  | nil => exact same
  | cons point text inductionHypothesis =>
      rw [List.cons_append, List.cons_append, reachesCased, reachesCased, inductionHypothesis]

variable {text : Sql}

theorem reachesCased_through (through : Through table text) (rest : Sql) :
    reachesCased table (text ++ rest) = reachesCased table rest := by
  induction text with
  | nil => rfl
  | cons point text inductionHypothesis =>
      rcases List.forall_mem_cons.mp through with ⟨first, others⟩
      rw [List.cons_append, reachesCased, first.1, first.2, Bool.false_or, Bool.true_and, inductionHypothesis others]

/-- A text that is not passed over settles what is reached. -/
theorem reachesCased_blocked (blocked : ¬ Through table text) (left right : Sql) :
    reachesCased table (text ++ left) = reachesCased table (text ++ right) := by
  induction text with
  | nil => exact (blocked fun _point member => (List.not_mem_nil member).elim).elim
  | cons point text inductionHypothesis =>
      rw [List.cons_append, List.cons_append, reachesCased, reachesCased]
      cases cased : table.isCased point with
      | true => rfl
      | false =>
          cases ignorable : table.isIgnorable point with
          | false => rfl
          | true =>
              rw [inductionHypothesis fun through => blocked (List.forall_mem_cons.mpr ⟨⟨cased, ignorable⟩, through⟩)]

/-- Only the next cased letters to both sides matter. -/
theorem lowerWithin_congr {before before' after after' : Sql}
    (sameBefore : reachesCased table before = reachesCased table before')
    (sameAfter : reachesCased table after = reachesCased table after') (text : Sql) :
    lowerWithin table before text after = lowerWithin table before' text after' := by
  induction text generalizing before before' with
  | nil => rfl
  | cons point text inductionHypothesis =>
      have next : reachesCased table (point :: before) = reachesCased table (point :: before') := by
        rw [reachesCased, reachesCased, sameBefore]
      rw [lowerWithin, lowerWithin, inductionHypothesis next, lowerAt, lowerAt, sameBefore,
        reachesCased_append_congr sameAfter]

theorem lowerWithin_free (free : SIGMA ∉ text) (before after : Sql) :
    lowerWithin table before text after = text.flatMap table.lower := by
  induction text generalizing before with
  | nil => rfl
  | cons point text inductionHypothesis =>
      rw [List.mem_cons, not_or] at free
      rw [lowerWithin, lowerAt_other (Ne.symm free.1), inductionHypothesis free.2, List.flatMap_cons]

theorem sigma_not_through (through : Through table text) : SIGMA ∉ text := by
  intro member
  have plain := (through SIGMA member).1
  rw [table.sigma_cased] at plain
  cases plain

/-- A sigma that reads what stands behind the text. -/
theorem lowerWithin_sigma_front {gap : Sql} (through : Through table gap) (before front after : Sql) :
    lowerWithin table before (front ++ SIGMA :: gap) after =
      lowerWithin table before front [SIGMA] ++
        sigma (reachesCased table (front.reverse ++ before) && !reachesCased table after) ::
          gap.flatMap table.lower := by
  have settled : reachesCased table (SIGMA :: (gap ++ after)) = reachesCased table [SIGMA] := by
    rw [reachesCased_sigma, reachesCased_sigma]
  rw [lowerWithin_append, List.cons_append, lowerWithin_congr rfl settled, lowerWithin, lowerAt_sigma,
    reachesCased_through through, lowerWithin_free (sigma_not_through through)]
  rfl

/-- A sigma that reads what stands before the text. -/
theorem lowerWithin_sigma_back {gap : Sql} (through : Through table gap) (before rest after : Sql) :
    lowerWithin table before (gap ++ SIGMA :: rest) after =
      gap.flatMap table.lower ++ sigma (reachesCased table before && !reachesCased table (rest ++ after)) ::
        lowerWithin table [SIGMA] rest after := by
  have reversed : Through table gap.reverse := fun point member => through point (List.mem_reverse.mp member)
  have settled : reachesCased table (SIGMA :: (gap.reverse ++ before)) = reachesCased table [SIGMA] := by
    rw [reachesCased_sigma, reachesCased_sigma]
  rw [lowerWithin_append, lowerWithin_free (sigma_not_through through), lowerWithin, lowerAt_sigma,
    reachesCased_through reversed, lowerWithin_congr settled rfl]
  rfl

/-- Without a sigma that reads so far, what stands behind the text does not matter. -/
theorem lowerWithin_unread_front (before after after' : Sql)
    (unread : forall front gap, text = front ++ SIGMA :: gap -> Through table gap ->
      reachesCased table (front.reverse ++ before) = false) :
    lowerWithin table before text after = lowerWithin table before text after' := by
  induction text generalizing before with
  | nil => rfl
  | cons point text inductionHypothesis =>
      have sameRest := inductionHypothesis (point :: before) fun front gap isText through => by
        have next := unread (point :: front) gap (by rw [isText, List.cons_append]) through
        rw [List.reverse_cons, List.append_assoc, List.singleton_append] at next
        exact next
      rw [lowerWithin, lowerWithin, sameRest]
      congr 1
      by_cases isSigma : point = SIGMA
      · rw [isSigma, lowerAt_sigma, lowerAt_sigma]
        by_cases through : Through table text
        · have nothing := unread [] text (by rw [isSigma, List.nil_append]) through
          rw [List.reverse_nil, List.nil_append] at nothing
          rw [nothing, Bool.false_and, Bool.false_and]
        · rw [reachesCased_blocked through after after']
      · rw [lowerAt_other isSigma, lowerAt_other isSigma]

/-- Without a sigma that reads so far, what stands before the text does not matter. -/
theorem lowerWithin_unread_back (before before' after : Sql)
    (unread : forall gap rest, text = gap ++ SIGMA :: rest -> Through table gap ->
      reachesCased table (rest ++ after) = true) :
    lowerWithin table before text after = lowerWithin table before' text after := by
  induction text generalizing before before' with
  | nil => rfl
  | cons point text inductionHypothesis =>
      rw [lowerWithin, lowerWithin]
      by_cases isSigma : point = SIGMA
      · have reached := unread [] text (by rw [isSigma, List.nil_append]) fun _point member =>
          (List.not_mem_nil member).elim
        have settled : reachesCased table (SIGMA :: before) = reachesCased table (SIGMA :: before') := by
          rw [reachesCased_sigma, reachesCased_sigma]
        rw [isSigma, lowerAt_sigma, lowerAt_sigma, reached, Bool.not_true, Bool.and_false, Bool.and_false,
          lowerWithin_congr settled rfl]
      · rw [lowerAt_other isSigma, lowerAt_other isSigma]
        congr 1
        by_cases passed : table.isCased point = false ∧ table.isIgnorable point = true
        · refine inductionHypothesis (point :: before) (point :: before') fun gap rest isText through => ?_
          exact unread (point :: gap) rest (by rw [isText, List.cons_append])
            (List.forall_mem_cons.mpr ⟨passed, through⟩)
        · have blocked : ¬ Through table [point] := fun through => passed (through point (List.mem_singleton_self point))
          exact lowerWithin_congr (reachesCased_blocked blocked before before') rfl text

/-! ## Quotes and other ASCII -/

theorem lower_quote : table.lower QUOTE = [QUOTE] := by
  rw [table.ascii QUOTE (by decide), if_neg (by decide)]

theorem quote_mem_lowerAt {before rest : Sql} (member : QUOTE ∈ lowerAt table before point rest) :
    point = QUOTE := by
  by_cases isSigma : point = SIGMA
  · rw [isSigma, lowerAt_sigma] at member
    exact (sigma_ne_quote _ (List.mem_singleton.mp member).symm).elim
  · rw [lowerAt_other isSigma] at member
    exact table.quote_lower point member

theorem quotes_lowerAt (before rest : Sql) (point : CodePoint) :
    quotes (lowerAt table before point rest) = quotes [point] := by
  by_cases isQuote : point = QUOTE
  · rw [isQuote, lowerAt_other (by decide), lower_quote]
  · rw [quotes_cons_of_ne isQuote]
    exact quotes_eq_zero.mpr fun member => isQuote (quote_mem_lowerAt member)

theorem quotes_lowerWithin (before text after : Sql) : quotes (lowerWithin table before text after) = quotes text := by
  induction text generalizing before with
  | nil => rfl
  | cons point text inductionHypothesis =>
      rw [lowerWithin, quotes_append, inductionHypothesis, quotes_lowerAt, ← quotes_append]
      rfl

theorem quotes_flatMap_lower (text : Sql) (free : SIGMA ∉ text) : quotes (text.flatMap table.lower) = quotes text := by
  rw [← lowerWithin_free free [] [], quotes_lowerWithin]

theorem lowerAt_ne_nil (before rest : Sql) (point : CodePoint) : lowerAt table before point rest ≠ [] := by
  by_cases isSigma : point = SIGMA
  · rw [isSigma, lowerAt_sigma]
    exact List.cons_ne_nil _ _
  · rw [lowerAt_other isSigma]
    exact table.nonempty point

/-- A text in lower case ends in a quote where the text does. -/
theorem lowerWithin_front_quote {before after front : Sql}
    (isFront : lowerWithin table before text after = front ++ [QUOTE]) :
    Exists fun origin => text = origin ++ [QUOTE] := by
  induction text using List.reverseRecOn with
  | nil =>
      rw [lowerWithin] at isFront
      exact (List.append_ne_nil_of_right_ne_nil _ (List.cons_ne_nil _ _) isFront.symm).elim
  | append_singleton text point _inductionHypothesis =>
      refine ⟨text, ?_⟩
      rw [lowerWithin_append, lowerWithin, lowerWithin, List.append_nil] at isFront
      have last := congrArg List.getLast? isFront
      rw [List.getLast?_append_of_ne_nil _ (lowerAt_ne_nil _ _ point), List.getLast?_concat] at last
      rw [quote_mem_lowerAt (List.mem_of_getLast? last)]

theorem head_lowerWithin_quote {before after : Sql}
    (isQuote : (lowerWithin table before text after).head? = some QUOTE) : text.head? = some QUOTE := by
  cases text with
  | nil => cases isQuote
  | cons point text =>
      rw [lowerWithin, List.head?_append_of_ne_nil _ (lowerAt_ne_nil _ _ point)] at isQuote
      rw [quote_mem_lowerAt (List.mem_of_mem_head? isQuote)]
      rfl

/-! ## Texts without upper case -/

/-- Lower case leaves the text alone, whatever stands around it. -/
def Stable (table : CaseTable) (text : Sql) : Prop :=
  forall point, point ∈ text -> point ≠ SIGMA ∧ table.lower point = [point]

theorem lowerWithin_stable (stable : Stable table text) (before after : Sql) :
    lowerWithin table before text after = text := by
  induction text generalizing before with
  | nil => rfl
  | cons point rest inductionHypothesis =>
      rcases List.forall_mem_cons.mp stable with ⟨first, others⟩
      rw [lowerWithin, lowerAt_other first.1, first.2, inductionHypothesis others]
      rfl

theorem stable_ascii (table : CaseTable) (small : point.val < 128) (notUpper : ¬ (65 ≤ point.val ∧ point.val ≤ 90)) :
    point ≠ SIGMA ∧ table.lower point = [point] := by
  refine ⟨?_, ?_⟩
  · rintro rfl
    exact absurd small (by decide)
  · rw [table.ascii point small, if_neg notUpper]

theorem stable_digit (digit : isDigit point = true) :
    point ≠ SIGMA ∧ table.lower point = [point] := by
  have bounds := of_decide_eq_true digit
  exact stable_ascii table (by omega) (by omega)

/-- Digits and the point have no case. -/
theorem lowerWithin_number {literal : Literal} (isNumber : literal.isNumber = true) (before after : Sql) :
    lowerWithin table before literal.text after = literal.text := by
  refine lowerWithin_stable ?_ before after
  intro point member
  cases literal with
  | quoted content isQuoted => cases isNumber
  | integer whole => exact stable_digit (whole.digits point member)
  | decimal whole fraction =>
      rcases List.mem_append.mp member with inWhole | inFraction
      · exact stable_digit (whole.digits point inWhole)
      · rcases List.mem_cons.mp inFraction with isDot | inDigits
        · rw [isDot]
          exact stable_ascii table (by decide) (by decide)
        · exact stable_digit (fraction.digits point inDigits)

theorem IsQuoted.append_free {front rest : Sql} (free : QUOTE ∉ front) (isQuoted : IsQuoted rest) :
    IsQuoted (front ++ rest) := by
  induction front with
  | nil => exact isQuoted
  | cons point front inductionHypothesis =>
      rw [List.mem_cons, not_or] at free
      exact .plain point _ (Ne.symm free.1) (inductionHypothesis free.2)

theorem IsQuoted.lowerWithin {content : Sql} (isQuoted : IsQuoted content) (before after : Sql) :
    IsQuoted (lowerWithin table before content after) := by
  induction isQuoted generalizing before with
  | nil => exact .nil
  | plain point rest isPlain _isQuoted inductionHypothesis =>
      exact .append_free (fun member => isPlain (quote_mem_lowerAt member)) (inductionHypothesis _)
  | doubled rest _isQuoted inductionHypothesis =>
      rw [Query.lowerWithin, Query.lowerWithin, lowerAt_other (by decide), lowerAt_other (by decide), lower_quote]
      exact .doubled _ (inductionHypothesis _)

end Query
end Telescope
