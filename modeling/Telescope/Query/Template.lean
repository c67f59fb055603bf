import Telescope.Query.Casing

namespace Telescope
namespace Query

/-!
# The template of a template

A template has no number that the pass would replace, at most one quote, single blanks
and no upper case, so that every pass leaves it alone.
-/

/-! ## Numbers -/

variable {point : CodePoint}

theorem isWord_of_space (space : isSpace point = true) : isWord point = false := by
  rw [isSpace] at space
  split at space
  · simp only [Units.isSpace, Bool.or_eq_true, decide_eq_true_eq, List.mem_cons, List.not_mem_nil, or_false] at space
    simp only [isWord, isDigit, Bool.or_eq_false_iff, decide_eq_false_iff_not]
    omega
  · cases space

theorem collapseFrom_digits {digits : Sql} (all : forall point, point ∈ digits -> isDigit point = true) (right : Sql) :
    Spacing.collapseFrom isSpace 32 false (digits ++ right) =
      digits ++ Spacing.collapseFrom isSpace 32 false right := by
  induction digits with
  | nil => rfl
  | cons point rest inductionHypothesis =>
      rcases List.forall_mem_cons.mp all with ⟨digit, restDigits⟩
      have other : ¬ isSpace point = true := by
        intro space
        have word := isWord_of_digit digit
        rw [isWord_of_space space] at word
        cases word
      rw [List.cons_append, Spacing.collapseFrom, if_neg other, inductionHypothesis restDigits, List.cons_append]

variable {text : Sql}

/-- A run of digits in front of a letter stays one. -/
theorem numberEnd_collapseFrom (endless : numberEnd text = none) :
    numberEnd (Spacing.collapseFrom isSpace 32 false text) = none := by
  rcases letter_of_endless endless with ⟨digits, letter, rest, isText, all, other, isLetter⟩
  have notSpace : ¬ isSpace letter = true := by
    intro space
    rw [isWord_of_space space] at isLetter
    cases isLetter
  rw [isText, collapseFrom_digits all, Spacing.collapseFrom, if_neg notSpace]
  exact numberEnd_letter all other isLetter _

theorem Numberless.collapseFrom {behindWord inRun : Bool} (numberless : Numberless behindWord text)
    (behindBlank : inRun = true -> behindWord = false) :
    Numberless behindWord (Spacing.collapseFrom isSpace 32 inRun text) := by
  induction text generalizing behindWord inRun with
  | nil => trivial
  | cons point rest inductionHypothesis =>
      rw [Spacing.collapseFrom]
      by_cases space : isSpace point = true
      · have restless := numberless.2
        rw [isWord_of_space space] at restless
        rw [if_pos space]
        cases inRun with
        | true =>
            rw [if_pos rfl, behindBlank rfl]
            exact inductionHypothesis restless fun _inRun => rfl
        | false =>
            rw [if_neg Bool.false_ne_true]
            exact ⟨fun _behind digit => absurd digit (by decide), inductionHypothesis restless fun _inRun => rfl⟩
      · rw [if_neg space]
        exact ⟨fun behind digit => numberEnd_collapseFrom (numberless.1 behind digit),
          inductionHypothesis numberless.2 fun inRun => (Bool.false_ne_true inRun).elim⟩

theorem Numberless.dropWhile (numberless : Numberless false text) :
    Numberless false (text.dropWhile isSpace) := by
  induction text with
  | nil => trivial
  | cons point rest inductionHypothesis =>
      rw [List.dropWhile_cons]
      split
      · rename_i space
        have restless := numberless.2
        rw [isWord_of_space space] at restless
        exact inductionHypothesis restless
      · exact numberless

theorem Numberless.front {behindWord : Bool} (breaks : Breaks point)
    (numberless : Numberless behindWord (text ++ [point])) : Numberless behindWord text := by
  induction text generalizing behindWord with
  | nil => trivial
  | cons first rest inductionHypothesis =>
      refine ⟨fun behind digit => ?_, inductionHypothesis numberless.2⟩
      have endless : numberEnd (rest ++ [point]) = none := numberless.1 behind digit
      rw [numberEnd_append_cons (isDigit_of_not_word breaks.1) breaks.2, breaks.1, numberEndBefore_false] at endless
      exact Option.map_eq_none_iff.mp endless

theorem breaks_of_space (space : isSpace point = true) : Breaks point := by
  refine ⟨isWord_of_space space, ?_⟩
  rintro rfl
  exact absurd space (by decide)

theorem Numberless.trim (numberless : Numberless false text) :
    Numberless false (Spacing.trim isSpace text) :=
  Spacing.rdropWhile_induction (fun _text _unit space => Numberless.front (breaks_of_space space)) numberless.dropWhile

/-! ## Quotes -/

theorem closing_suffix {tail : Sql} (closed : closing text = some tail) : tail <:+ text := by
  induction text using quoted_induction generalizing tail with
  | nil => cases closed
  | plain point rest isPlain inductionHypothesis =>
      rw [closing_plain isPlain] at closed
      exact (inductionHypothesis closed).trans (List.suffix_cons _ _)
  | pair rest inductionHypothesis =>
      rw [closing_pair] at closed
      cases later : closing rest with
      | none =>
          rw [later] at closed
          cases closed
          exact List.suffix_cons _ _
      | some other =>
          rw [later] at closed
          cases closed
          exact ((inductionHypothesis later).trans (List.suffix_cons _ _)).trans (List.suffix_cons _ _)
  | single rest isSingle =>
      rw [closing_single isSingle] at closed
      cases closed
      exact List.suffix_cons _ _

theorem numberEnd_suffix {tail : Sql} (ends : numberEnd text = some tail) : tail <:+ text := by
  rw [numberEnd] at ends
  cases fraction : (decimals (text.dropWhile isDigit)).filter atBoundary with
  | none =>
      rw [fraction] at ends
      change (if _ then _ else _) = _ at ends
      split at ends
      · cases ends
        exact List.dropWhile_suffix _
      · cases ends
  | some rest =>
      rw [fraction] at ends
      cases ends
      refine List.IsSuffix.trans ?_ (List.dropWhile_suffix isDigit)
      have isDecimal := (Option.filter_eq_some_iff.mp fraction).1
      generalize text.dropWhile isDigit = behind at isDecimal
      cases behind with
      | nil => cases isDecimal
      | cons point more =>
          rw [decimals] at isDecimal
          split at isDecimal
          · cases isDecimal
            exact (List.dropWhile_suffix _).trans (List.suffix_cons _ _)
          · cases isDecimal

/-- At most one quote is left. -/
theorem quotes_replaceStrings (text : Sql) : quotes (replaceStrings text) ≤ 1 := by
  induction text using replaceStrings_induction with
  | nil =>
      rw [replaceStrings_nil]
      decide
  | plain point rest isPlain inductionHypothesis =>
      rw [replaceStrings_plain isPlain, quotes_cons_of_ne isPlain]
      exact inductionHypothesis
  | quote rest inductionHypothesis =>
      cases closed : closing rest with
      | some tail =>
          rw [replaceStrings_closed closed, quotes_cons_of_ne (by decide)]
          exact inductionHypothesis tail (length_closing closed).le
      | none =>
          have free : QUOTE ∉ rest := by
            intro member
            have isSome := isSome_closing member
            rw [closed] at isSome
            cases isSome
          rw [replaceStrings_open closed, replaceStrings_free free, quotes_cons_quote, quotes_eq_zero.mpr free]

theorem replaceStrings_of_quotes (few : quotes text ≤ 1) : replaceStrings text = text := by
  induction text with
  | nil => exact replaceStrings_nil
  | cons point rest inductionHypothesis =>
      by_cases isQuote : point = QUOTE
      · rw [isQuote] at few ⊢
        rw [quotes_cons_quote] at few
        have free : QUOTE ∉ rest := quotes_eq_zero.mp (by omega)
        rw [replaceStrings_open (closing_free free), replaceStrings_free free]
      · rw [quotes_cons_of_ne isQuote] at few
        rw [replaceStrings_plain isQuote, inductionHypothesis few]

theorem quotes_replaceNumbers_le (behindWord : Bool) (text : Sql) :
    quotes (replaceNumbers behindWord text) ≤ quotes text := by
  have within : forall (point : CodePoint) (rest : Sql), quotes rest ≤ quotes (point :: rest) :=
    fun point rest => (List.sublist_cons_self point rest).count_le QUOTE
  have same : forall (point : CodePoint) (out rest : Sql), quotes out ≤ quotes rest ->
      quotes (point :: out) ≤ quotes (point :: rest) := by
    intro point out rest fewer
    rw [quotes, quotes, List.count_cons, List.count_cons]
    exact Nat.add_le_add_right fewer _
  induction behindWord, text using replaceNumbers_induction with
  | nil behindWord => rw [replaceNumbers_nil]
  | plain behindWord point rest isPlain inductionHypothesis =>
      rw [replaceNumbers_plain isPlain]
      exact same point _ _ inductionHypothesis
  | matched point rest tail digit ends inductionHypothesis =>
      rw [replaceNumbers_matched digit ends, quotes_cons_of_ne (by decide)]
      exact (inductionHypothesis.trans ((numberEnd_suffix ends).sublist.count_le QUOTE)).trans (within point rest)
  | unmatched point rest digit endless inductionHypothesis =>
      rw [replaceNumbers_unmatched digit endless]
      exact same point _ _ inductionHypothesis

theorem quotes_collapseFrom_le (inRun : Bool) (text : Sql) :
    quotes (Spacing.collapseFrom isSpace 32 inRun text) ≤ quotes text := by
  induction text generalizing inRun with
  | nil => exact Nat.le_refl _
  | cons point rest inductionHypothesis =>
      have within : quotes rest ≤ quotes (point :: rest) := (List.sublist_cons_self point rest).count_le QUOTE
      rw [Spacing.collapseFrom]
      split
      · split
        · exact (inductionHypothesis true).trans within
        · rw [quotes_cons_of_ne (by decide)]
          exact (inductionHypothesis true).trans within
      · rw [quotes, quotes, List.count_cons, List.count_cons]
        exact Nat.add_le_add_right (inductionHypothesis false) _

/-! ## Lower case -/

variable {table : CaseTable}

theorem stable_lowerFrom (before text : Sql) : Stable table (lowerFrom table before text) := by
  induction text generalizing before with
  | nil => exact fun _point member => (List.not_mem_nil member).elim
  | cons first rest inductionHypothesis =>
      intro point member
      rw [lowerFrom] at member
      rcases List.mem_append.mp member with inFirst | inRest
      · rw [lowerAt] at inFirst
        split at inFirst
        · split at inFirst
          · rw [List.mem_singleton.mp inFirst]
            exact ⟨by decide, table.final_sigma⟩
          · rw [List.mem_singleton.mp inFirst]
            exact ⟨by decide, table.small_sigma⟩
        · rename_i other
          exact table.stable first other point inFirst
      · exact inductionHypothesis (first :: before) point inRest

theorem mem_replaceStrings (member : point ∈ replaceStrings text) :
    point = QUESTION ∨ point ∈ text := by
  induction text using replaceStrings_induction with
  | nil =>
      rw [replaceStrings_nil] at member
      exact .inr member
  | plain first rest isPlain inductionHypothesis =>
      rw [replaceStrings_plain isPlain] at member
      rcases List.mem_cons.mp member with isFirst | inRest
      · exact .inr (List.mem_cons.mpr (.inl isFirst))
      · exact (inductionHypothesis inRest).imp_right (List.mem_cons_of_mem _)
  | quote rest inductionHypothesis =>
      cases closed : closing rest with
      | some tail =>
          rw [replaceStrings_closed closed] at member
          rcases List.mem_cons.mp member with isQuestion | inTail
          · exact .inl isQuestion
          · refine (inductionHypothesis tail (length_closing closed).le inTail).imp_right fun isMember => ?_
            exact List.mem_cons_of_mem _ ((closing_suffix closed).mem isMember)
      | none =>
          rw [replaceStrings_open closed] at member
          rcases List.mem_cons.mp member with isFirst | inRest
          · exact .inr (List.mem_cons.mpr (.inl isFirst))
          · exact (inductionHypothesis rest (Nat.le_refl _) inRest).imp_right (List.mem_cons_of_mem _)

theorem mem_replaceNumbers {behindWord : Bool} (member : point ∈ replaceNumbers behindWord text) :
    point = QUESTION ∨ point ∈ text := by
  induction behindWord, text using replaceNumbers_induction with
  | nil behindWord =>
      rw [replaceNumbers_nil] at member
      exact .inr member
  | plain behindWord first rest isPlain inductionHypothesis =>
      rw [replaceNumbers_plain isPlain] at member
      rcases List.mem_cons.mp member with isFirst | inRest
      · exact .inr (List.mem_cons.mpr (.inl isFirst))
      · exact (inductionHypothesis inRest).imp_right (List.mem_cons_of_mem _)
  | matched first rest tail digit ends inductionHypothesis =>
      rw [replaceNumbers_matched digit ends] at member
      rcases List.mem_cons.mp member with isQuestion | inTail
      · exact .inl isQuestion
      · refine (inductionHypothesis inTail).imp_right fun isMember => ?_
        exact List.mem_cons_of_mem _ ((numberEnd_suffix ends).mem isMember)
  | unmatched first rest digit endless inductionHypothesis =>
      rw [replaceNumbers_unmatched digit endless] at member
      rcases List.mem_cons.mp member with isFirst | inRest
      · exact .inr (List.mem_cons.mpr (.inl isFirst))
      · exact (inductionHypothesis inRest).imp_right (List.mem_cons_of_mem _)

/-! ## Idempotence -/

theorem replacePlaceholders_eq (text : Sql) : replacePlaceholders text = text := by
  have same : (fun point : CodePoint => if point = QUESTION then QUESTION else point) = id := by
    funext point
    split
    · rename_i isQuestion
      exact isQuestion.symm
    · rfl
  rw [replacePlaceholders, same, List.map_id]

/-- What a template is like. -/
structure IsTemplate (table : CaseTable) (text : Sql) : Prop where
  stable : Stable table text
  few : quotes text ≤ 1
  numberless : Numberless false text

theorem isTemplate_normalizeSql (table : CaseTable) (sql : Sql) : IsTemplate table (normalizeSql table sql) := by
  rw [normalizeSql, replacePlaceholders_eq]
  refine ⟨?_, ?_, ?_⟩
  · intro point member
    have question := stable_ascii table (show QUESTION.val < 128 by decide) (by decide)
    have blank := stable_ascii table (show (32 : CodePoint).val < 128 by decide) (by decide)
    rcases Spacing.mem_collapseFrom ((Spacing.trim_sublist _).mem member) with isBlank | inNumbers
    · rw [isBlank]
      exact blank
    · rcases mem_replaceNumbers inNumbers with isQuestion | inStrings
      · rw [isQuestion]
        exact question
      · rcases mem_replaceStrings inStrings with isQuestion | inLower
        · rw [isQuestion]
          exact question
        · exact stable_lowerFrom [] sql point inLower
  · refine ((Spacing.trim_sublist _).count_le QUOTE).trans ((quotes_collapseFrom_le false _).trans ?_)
    exact (quotes_replaceNumbers_le false _).trans (quotes_replaceStrings _)
  · exact ((numberless_replaceNumbers false _).collapseFrom fun _inRun => rfl).trim

/-- Normalising a normalised statement changes nothing. -/
theorem normalizeSql_normalizeSql (table : CaseTable) (sql : Sql) :
    normalizeSql table (normalizeSql table sql) = normalizeSql table sql := by
  have template := isTemplate_normalizeSql table sql
  rw [normalizeSql, toLowerCase, lowerFrom_eq, lowerWithin_stable template.stable, replaceStrings_of_quotes template.few,
    replaceNumbers_numberless template.numberless, replacePlaceholders_eq, normalizeSql]
  exact Spacing.trim_collapse_trim_collapse (by decide) _

end Query
end Telescope
