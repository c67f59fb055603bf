import Telescope.Query.Template

namespace Telescope
namespace Query

/-!
# The family of a query and its literals

A number can be replaced by any other without a change of the family.  So can a string,
unless an odd number of quotes stands before it, in comments and quoted identifiers, or
a capital sigma next to it is put into lower case by the letters that it holds.
-/

/-- A capital sigma that stays in the template has no other letter between itself and
the literal. -/
def SigmaReads (table : CaseTable) (occurrence : Occurrence) : Prop :=
  (Exists fun front => Exists fun gap => (occurrence.before = front ++ SIGMA :: gap ∧ Through table gap) ∧
    reachesCased table front.reverse = true ∧ quotes front % 2 = 0) ∨
  Exists fun gap => Exists fun rest => (occurrence.after = gap ++ SIGMA :: rest ∧ Through table gap) ∧
    reachesCased table rest = false ∧ (quotes gap % 2 = 0 ∨ QUOTE ∉ rest)

/-- The literal is a number, or it is a string behind an even number of quotes that no
sigma reads. -/
def Isolated (table : CaseTable) (occurrence : Occurrence) : Prop :=
  occurrence.literal.isNumber = true ∨
    quotes occurrence.before % 2 = 0 ∧ ¬ SigmaReads table occurrence

variable {table : CaseTable}

/-! ## The statement in lower case -/

/-- A text in which a cased letter is reached, or none. -/
def context (cased : Bool) : Sql := if cased then [97] else []

theorem reachesCased_context (cased : Bool) : reachesCased table (context cased) = cased := by
  cases cased with
  | false => rfl
  | true =>
      change reachesCased table [97] = true
      rw [reachesCased, table.letter_cased 97 (by decide), Bool.true_or]

theorem reachesCased_digit {digit : CodePoint} (isDigit : isDigit digit = true) (rest : Sql) :
    reachesCased table (digit :: rest) = false := by
  rcases table.digit_plain digit isDigit with ⟨plain, solid⟩
  rw [reachesCased, plain, solid]
  rfl

theorem reachesCased_letter {letter : CodePoint} (isLetter : 97 ≤ letter.val ∧ letter.val ≤ 122) (rest : Sql) :
    reachesCased table (letter :: rest) = true := by
  rw [reachesCased, table.letter_cased letter isLetter, Bool.true_or]

theorem reachesCased_quote (rest : Sql) : reachesCased table (QUOTE :: rest) = reachesCased table rest := by
  rcases table.quote_ignorable with ⟨plain, ignored⟩
  rw [reachesCased, plain, ignored, Bool.false_or, Bool.true_and]

/-- The text before a literal and behind it in lower case, by whether a cased letter is
next to it. -/
def loweredBefore (table : CaseTable) (before : Sql) (cased : Bool) : Sql := lowerWithin table [] before (context cased)

def loweredAfter (table : CaseTable) (after : Sql) (cased : Bool) : Sql := lowerWithin table (context cased) after []

theorem toLowerCase_around (before text after : Sql) :
    toLowerCase table (before ++ (text ++ after)) =
      loweredBefore table before (reachesCased table (text ++ after)) ++
        (lowerWithin table before.reverse text after ++
          loweredAfter table after (reachesCased table (text.reverse ++ before.reverse))) := by
  have front : loweredBefore table before (reachesCased table (text ++ after)) =
      lowerWithin table [] before (text ++ after) :=
    lowerWithin_congr rfl (reachesCased_context _) before
  have back : loweredAfter table after (reachesCased table (text.reverse ++ before.reverse)) =
      lowerWithin table (text.reverse ++ before.reverse) after [] :=
    lowerWithin_congr (reachesCased_context _) rfl after
  rw [toLowerCase, lowerFrom_append, lowerFrom_append, lowerFrom_eq, front, back, List.append_nil]

/-! ## The template of a text without strings -/

/-- The passes behind the one over strings. -/
def template (text : Sql) : Sql :=
  Spacing.trim isSpace (Spacing.collapse isSpace 32 (replaceNumbers false text))

theorem normalizeSql_eq (sql : Sql) :
    normalizeSql table sql = template (replaceStrings (toLowerCase table sql)) := by
  rw [normalizeSql, replacePlaceholders_eq, template]

variable {point : CodePoint}

theorem codeUnits_small (small : point.val < 65536) :
    ((codeUnits point).map Fin.val) = [point.val] := by
  rw [codeUnits, dif_pos small]
  rfl

/-- Texts whose numbers were replaced and that differ in one visible character have
different hashes. -/
theorem eq_of_hash {out rest : Sql} {left right : CodePoint} (leftSmall : left.val < 65536)
    (rightSmall : right.val < 65536) (leftVisible : isSpace left = false) (rightVisible : isSpace right = false)
    (same : fnv1a ((Spacing.trim isSpace (Spacing.collapse isSpace 32 (out ++ left :: rest))).flatMap codeUnits) =
      fnv1a ((Spacing.trim isSpace (Spacing.collapse isSpace 32 (out ++ right :: rest))).flatMap codeUnits)) :
    left = right := by
  have hashes := Fnv.text_injective same
  rw [Spacing.collapse, Spacing.collapse, Spacing.collapseFrom_append_cons leftVisible,
    Spacing.collapseFrom_append_cons rightVisible, Spacing.trim_append_cons leftVisible,
    Spacing.trim_append_cons rightVisible, List.flatMap_append, List.flatMap_append, List.flatMap_cons,
    List.flatMap_cons, List.map_append, List.map_append, List.map_append, List.map_append, codeUnits_small leftSmall,
    codeUnits_small rightSmall] at hashes
  exact Fin.ext (Fnv.hash_injective_at (by omega) (by omega) hashes)

/-- Two letters, or two characters that break words, that the template shows. -/
inductive Alike (left right : CodePoint) : Prop
  | letters : isDigit left = false ∧ isWord left = true -> isDigit right = false ∧ isWord right = true ->
      Alike left right
  | breaks : Breaks left -> Breaks right -> Alike left right

variable {front : Sql}

theorem eq_of_template {back : Sql} {left right : CodePoint} (alike : Alike left right) (leftSmall : left.val < 65536)
    (rightSmall : right.val < 65536) (leftVisible : isSpace left = false) (rightVisible : isSpace right = false)
    (same : fnv1a ((template (front ++ left :: back)).flatMap codeUnits) =
      fnv1a ((template (front ++ right :: back)).flatMap codeUnits)) : left = right := by
  cases alike with
  | letters leftLetter rightLetter =>
      rcases exists_replaceNumbers_letter false front with ⟨out, isOut⟩
      rw [template, template, isOut left back leftLetter.1 leftLetter.2,
        isOut right back rightLetter.1 rightLetter.2] at same
      exact eq_of_hash leftSmall rightSmall leftVisible rightVisible same
  | breaks leftBreaks rightBreaks =>
      rw [template, template, replaceNumbers_append_break leftBreaks, replaceNumbers_append_break rightBreaks] at same
      exact eq_of_hash leftSmall rightSmall leftVisible rightVisible same

/-! ## Numbers -/

variable {literal : Literal}

theorem number_filled (isNumber : literal.isNumber = true) : literal.text ≠ [] := by
  cases literal with
  | quoted content isQuoted => cases isNumber
  | integer whole => exact whole.filled
  | decimal whole fraction => exact List.append_ne_nil_of_left_ne_nil whole.filled _

theorem number_point (isNumber : literal.isNumber = true) (member : point ∈ literal.text) :
    isDigit point = true ∨ point = DOT := by
  cases literal with
  | quoted content isQuoted => cases isNumber
  | integer whole => exact .inl (whole.digits point member)
  | decimal whole fraction =>
      rcases List.mem_append.mp member with inWhole | inFraction
      · exact .inl (whole.digits point inWhole)
      · rcases List.mem_cons.mp inFraction with isDot | inDigits
        · exact .inr isDot
        · exact .inl (fraction.digits point inDigits)

theorem number_free (isNumber : literal.isNumber = true) : QUOTE ∉ literal.text := by
  intro member
  rcases number_point isNumber member with digit | isDot
  · exact absurd digit (by decide)
  · exact absurd isDot (by decide)

/-- A number begins and ends with a digit. -/
theorem number_ends (isNumber : literal.isNumber = true) :
    Exists fun first => Exists fun last => Exists fun rest => Exists fun front =>
      (isDigit first = true ∧ isDigit last = true) ∧ literal.text = first :: rest ∧ literal.text.reverse = last :: front := by
  have ofDigits : forall digits : Digits, Exists fun last => Exists fun front =>
      isDigit last = true ∧ digits.text.reverse = last :: front := by
    intro digits
    cases isReverse : digits.text.reverse with
    | nil => exact (digits.filled (List.reverse_eq_nil_iff.mp isReverse)).elim
    | cons last front =>
        refine ⟨last, front, digits.digits last (List.mem_reverse.mp ?_), rfl⟩
        rw [isReverse]
        exact List.mem_cons_self ..
  cases literal with
  | quoted content isQuoted => cases isNumber
  | integer whole =>
      rcases ofDigits whole with ⟨last, front, lastDigit, isReverse⟩
      cases isText : whole.text with
      | nil => exact (whole.filled isText).elim
      | cons first rest =>
          refine ⟨first, last, rest, front, ⟨whole.digits first ?_, lastDigit⟩, isText, isReverse⟩
          rw [isText]
          exact List.mem_cons_self ..
  | decimal whole fraction =>
      rcases ofDigits fraction with ⟨last, front, lastDigit, isReverse⟩
      cases isText : whole.text with
      | nil => exact (whole.filled isText).elim
      | cons first rest =>
          refine ⟨first, last, rest ++ DOT :: fraction.text, front ++ DOT :: whole.text.reverse,
            ⟨whole.digits first ?_, lastDigit⟩, ?_, ?_⟩
          · rw [isText]
            exact List.mem_cons_self ..
          · rw [Literal.text, isText, List.cons_append]
          · rw [Literal.text, List.reverse_append, List.reverse_cons, isReverse, List.append_assoc,
              List.singleton_append, List.cons_append]

/-- Neither end of a number is read as a cased letter. -/
theorem toLowerCase_number (isNumber : literal.isNumber = true) (before after : Sql) :
    toLowerCase table (before ++ (literal.text ++ after)) =
      loweredBefore table before false ++ (literal.text ++ loweredAfter table after false) := by
  rcases number_ends isNumber with ⟨first, last, rest, front, digits, isText, isReverse⟩
  have next : reachesCased table (literal.text ++ after) = false := by
    rw [isText, List.cons_append]
    exact reachesCased_digit digits.1 _
  have previous : reachesCased table (literal.text.reverse ++ before.reverse) = false := by
    rw [isReverse, List.cons_append]
    exact reachesCased_digit digits.2 _
  rw [toLowerCase_around, next, previous, lowerWithin_number isNumber]

/-- No word and no number goes on over the end of the text. -/
def EndsBroken (text : Sql) : Prop := forall point, text.getLast? = some point -> Breaks point

def BeginsBroken (text : Sql) : Prop := forall point, text.head? = some point -> Breaks point

theorem replaceNumbers_between {back : Sql} (ends : EndsBroken front) (begins : BeginsBroken back)
    (isNumber : literal.isNumber = true) :
    replaceNumbers false (front ++ (literal.text ++ back)) =
      replaceNumbers false front ++ QUESTION :: replaceNumbers false back := by
  have boundary : atBoundary back = true := by
    cases back with
    | nil => rfl
    | cons point rest =>
        have breaks := begins point rfl
        change (!isWord point) = true
        rw [breaks.1]
        rfl
  have notDot : back.head? ≠ some DOT := fun isDot => (begins DOT isDot).2 rfl
  induction front using List.reverseRecOn with
  | nil =>
      rw [List.nil_append, replaceNumbers_nil, List.nil_append]
      exact replaceNumbers_literal isNumber boundary notDot
  | append_singleton front point _inductionHypothesis =>
      have breaks := ends point List.getLast?_concat
      rw [List.append_assoc, List.singleton_append, replaceNumbers_append_break breaks,
        replaceNumbers_literal isNumber boundary notDot, replaceNumbers_append_break breaks, List.append_assoc,
        replaceNumbers_nil]
      rfl

/-- The pass over strings leaves the last character, or its placeholder is the last. -/
theorem last_replaceStrings {text : Sql} (filled : text ≠ []) :
    Exists fun last => (replaceStrings text).getLast? = some last ∧ (last = QUESTION ∨ text.getLast? = some last) := by
  induction text using replaceStrings_induction with
  | nil => exact (filled rfl).elim
  | plain point rest isPlain inductionHypothesis =>
      rw [replaceStrings_plain isPlain]
      cases rest with
      | nil =>
          rw [replaceStrings_nil]
          exact ⟨point, rfl, .inr rfl⟩
      | cons next rest =>
          rcases inductionHypothesis (List.cons_ne_nil _ _) with ⟨last, isLast, origin⟩
          refine ⟨last, ?_, origin.imp_right fun same => ?_⟩
          · rw [List.getLast?_cons, isLast]
            rfl
          · rw [List.getLast?_cons, same]
            rfl
  | quote rest inductionHypothesis =>
      cases closed : closing rest with
      | some tail =>
          rw [replaceStrings_closed closed]
          by_cases empty : tail = []
          · rw [empty, replaceStrings_nil]
            exact ⟨QUESTION, rfl, .inl rfl⟩
          · rcases inductionHypothesis tail (length_closing closed).le empty with ⟨last, isLast, origin⟩
            refine ⟨last, ?_, origin.imp_right fun same => ?_⟩
            · rw [List.getLast?_cons, isLast]
              rfl
            · rcases closing_suffix closed with ⟨front, isRest⟩
              rw [List.getLast?_cons, ← isRest, List.getLast?_append_of_ne_nil _ empty, same]
              rfl
      | none =>
          rw [replaceStrings_open closed]
          by_cases empty : rest = []
          · rw [empty, replaceStrings_nil]
            exact ⟨QUOTE, rfl, .inr rfl⟩
          · rcases inductionHypothesis rest (Nat.le_refl _) empty with ⟨last, isLast, origin⟩
            refine ⟨last, ?_, origin.imp_right fun same => ?_⟩
            · rw [List.getLast?_cons, isLast]
              rfl
            · rw [List.getLast?_cons, same]
              rfl

theorem breaks_question : Breaks QUESTION := ⟨by decide, by decide⟩

theorem endsBroken_replaceStrings {text : Sql} (ends : EndsBroken text) : EndsBroken (replaceStrings text) := by
  intro point isPoint
  by_cases empty : text = []
  · rw [empty, replaceStrings_nil] at isPoint
    cases isPoint
  · rcases last_replaceStrings empty with ⟨last, isLast, isQuestion | origin⟩
    · rw [← Option.some.inj (isLast.symm.trans isPoint), isQuestion]
      exact breaks_question
    · rw [← Option.some.inj (isLast.symm.trans isPoint)]
      exact ends last origin

theorem beginsBroken_replaceStrings {text : Sql} (begins : BeginsBroken text) : BeginsBroken (replaceStrings text) := by
  intro point isPoint
  cases text with
  | nil =>
      rw [replaceStrings_nil] at isPoint
      cases isPoint
  | cons first rest =>
      by_cases isQuote : first = QUOTE
      · rw [isQuote] at isPoint begins
        cases closed : closing rest with
        | some tail =>
            rw [replaceStrings_closed closed] at isPoint
            rw [← Option.some.inj isPoint]
            exact breaks_question
        | none =>
            rw [replaceStrings_open closed] at isPoint
            exact begins point isPoint
      · rw [replaceStrings_plain isQuote] at isPoint
        exact begins point isPoint

theorem breaks_of_separates (separates : Separates point) : Breaks point :=
  ⟨(Bool.or_eq_false_iff.mp separates.1).1, separates.2⟩

theorem stable_of_separates (separates : Separates point) :
    point ≠ SIGMA ∧ table.lower point = [point] := by
  rcases Bool.or_eq_false_iff.mp separates.1 with ⟨notWord, small⟩
  have notUpper : ¬ (65 ≤ point.val ∧ point.val ≤ 90) := by
    intro upper
    rw [isWord, decide_eq_true (.inl upper), Bool.or_true] at notWord
    cases notWord
  exact stable_ascii table (Nat.lt_of_not_le (of_decide_eq_false small)) notUpper

theorem endsBroken_lowered {before : Sql} (separated : forall point, before.getLast? = some point -> Separates point)
    (cased : Bool) : EndsBroken (loweredBefore table before cased) := by
  intro point isPoint
  rw [loweredBefore] at isPoint
  induction before using List.reverseRecOn with
  | nil => cases isPoint
  | append_singleton front last _inductionHypothesis =>
      have separates := separated last List.getLast?_concat
      rcases @stable_of_separates table last separates with ⟨other, same⟩
      rw [lowerWithin_append, lowerWithin, lowerWithin, List.append_nil, lowerAt_other other, same,
        List.getLast?_concat] at isPoint
      rw [← Option.some.inj isPoint]
      exact breaks_of_separates separates

theorem beginsBroken_lowered {after : Sql} (separated : forall point, after.head? = some point -> Separates point)
    (cased : Bool) : BeginsBroken (loweredAfter table after cased) := by
  intro point isPoint
  cases after with
  | nil => cases isPoint
  | cons first rest =>
      have separates := separated first rfl
      rcases @stable_of_separates table first separates with ⟨other, same⟩
      rw [loweredAfter, lowerWithin, lowerAt_other other, same] at isPoint
      rw [← Option.some.inj isPoint]
      exact breaks_of_separates separates

/-- Between what breaks words, one number is as good as another, in a pair of quotes or
outside. -/
theorem replaceNumbers_replaceStrings {back : Sql} (ends : EndsBroken front) (begins : BeginsBroken back)
    {left right : Literal} (isLeft : left.isNumber = true) (isRight : right.isNumber = true) :
    replaceNumbers false (replaceStrings (front ++ (left.text ++ back))) =
      replaceNumbers false (replaceStrings (front ++ (right.text ++ back))) := by
  rcases Nat.mod_two_eq_zero_or_one (quotes front) with even | odd
  · have outside : forall {literal : Literal}, literal.isNumber = true ->
        replaceNumbers false (replaceStrings (front ++ (literal.text ++ back))) =
          replaceNumbers false (replaceStrings front) ++ QUESTION :: replaceNumbers false (replaceStrings back) := by
      intro literal isNumber
      have notQuote : (literal.text ++ back).head? ≠ some QUOTE := by
        intro isQuote
        rw [List.head?_append_of_ne_nil _ (number_filled isNumber)] at isQuote
        exact number_free isNumber (List.mem_of_mem_head? isQuote)
      have inside : replaceStrings (literal.text ++ back) = literal.text ++ replaceStrings back := by
        rw [replaceStrings_append (by rw [quotes_eq_zero.mpr (number_free isNumber)]) fun start isText => ?_,
          replaceStrings_free (number_free isNumber)]
        exact (number_free isNumber (by rw [isText]; exact List.mem_append_right _ (List.mem_singleton_self _))).elim
      rw [replaceStrings_append even (seam_of_head notQuote), inside]
      exact replaceNumbers_between (endsBroken_replaceStrings ends) (beginsBroken_replaceStrings begins) isNumber
    rw [outside isLeft, outside isRight]
  · by_cases closes : QUOTE ∈ back
    · rw [replaceStrings_around odd closes (number_filled isLeft) (number_free isLeft) (number_filled isRight)
        (number_free isRight)]
    · have behind : forall {literal : Literal}, literal.isNumber = true ->
          replaceNumbers false (replaceStrings (front ++ (literal.text ++ back))) =
            replaceNumbers false (replaceStrings front) ++ QUESTION :: replaceNumbers false back := by
        intro literal isNumber
        have free : QUOTE ∉ literal.text ++ back := fun member =>
          (List.mem_append.mp member).elim (number_free isNumber) closes
        rw [replaceStrings_append_free free]
        exact replaceNumbers_between (endsBroken_replaceStrings ends) begins isNumber
      rw [behind isLeft, behind isRight]

variable {occurrence : Occurrence}

/-- A number can be replaced by any other. -/
theorem keepsFamily_number (isNumber : occurrence.literal.isNumber = true) :
    KeepsFamily table occurrence := by
  intro literal sameKind
  rw [isNumber] at sameKind
  rcases occurrence.separated isNumber with ⟨separatedBefore, separatedAfter⟩
  have passes := replaceNumbers_replaceStrings (@endsBroken_lowered table _ separatedBefore false)
    (@beginsBroken_lowered table _ separatedAfter false) sameKind isNumber
  rw [queryFamilyHash, queryFamilyHash, normalizeSql_eq, normalizeSql_eq, Occurrence.statement, Occurrence.replace,
    Occurrence.replace, toLowerCase_number sameKind, toLowerCase_number isNumber, template, template, passes]

/-! ## Strings -/

theorem loweredBefore_front {before : Sql} {cased : Bool}
    (isFront : loweredBefore table before cased = front ++ [QUOTE]) :
    Exists fun origin => before = origin ++ [QUOTE] :=
  lowerWithin_front_quote isFront

theorem lowered_sigma_front {before gap : Sql} (isBefore : before = front ++ SIGMA :: gap) (through : Through table gap)
    (cased : Bool) :
    loweredBefore table before cased = lowerWithin table [] front [SIGMA] ++
      sigma (reachesCased table front.reverse && !cased) :: gap.flatMap table.lower := by
  rw [loweredBefore, isBefore, lowerWithin_sigma_front through, reachesCased_context, List.append_nil]

theorem lowered_sigma_back {after gap rest : Sql} (isAfter : after = gap ++ SIGMA :: rest)
    (through : Through table gap) (cased : Bool) :
    loweredAfter table after cased = gap.flatMap table.lower ++
      sigma (cased && !reachesCased table rest) :: lowerWithin table [SIGMA] rest [] := by
  rw [loweredAfter, isAfter, lowerWithin_sigma_back through, reachesCased_context, List.append_nil]

theorem quote_of_odd {text : Sql} (odd : quotes text % 2 = 1) : QUOTE ∈ text := by
  by_contra free
  rw [quotes_eq_zero.mpr free] at odd
  exact absurd odd (by decide)

theorem sigma_free (final : Bool) : QUOTE ∉ [sigma final] :=
  fun member => sigma_ne_quote final (List.mem_singleton.mp member).symm

/-- In front of a string that no sigma reads, the pass over strings leaves the same
whatever the string holds. -/
theorem replaceStrings_front {before : Sql} (even : quotes before % 2 = 0)
    (unread : forall front gap, before = front ++ SIGMA :: gap -> Through table gap ->
      reachesCased table front.reverse = true -> quotes front % 2 = 1) (left right : Bool) :
    replaceStrings (loweredBefore table before left) = replaceStrings (loweredBefore table before right) := by
  by_cases reads : Exists fun front => Exists fun gap => (before = front ++ SIGMA :: gap ∧ Through table gap) ∧
      reachesCased table front.reverse = true
  · rcases reads with ⟨front, gap, ⟨isBefore, through⟩, reached⟩
    have odd := unread front gap isBefore through reached
    have gapOdd : quotes (gap.flatMap table.lower) % 2 = 1 := by
      rw [isBefore, quotes_append, quotes_cons_of_ne (by decide)] at even
      rw [quotes_flatMap_lower gap (sigma_not_through through)]
      omega
    have frontOdd : quotes (lowerWithin table [] front [SIGMA]) % 2 = 1 := by rw [quotes_lowerWithin, odd]
    rw [lowered_sigma_front isBefore through, lowered_sigma_front isBefore through, ← List.singleton_append,
      ← List.singleton_append (x := sigma _)]
    exact replaceStrings_around frontOdd (quote_of_odd gapOdd) (List.cons_ne_nil _ _) (sigma_free _)
      (List.cons_ne_nil _ _) (sigma_free _)
  · refine congrArg replaceStrings (lowerWithin_unread_front [] _ _ fun front gap isBefore through => ?_)
    rw [List.append_nil]
    exact Bool.eq_false_iff.mpr fun reached => reads ⟨front, gap, ⟨isBefore, through⟩, reached⟩

/-- Behind a string that no sigma reads likewise. -/
theorem replaceStrings_back {after : Sql}
    (unread : forall gap rest, after = gap ++ SIGMA :: rest -> Through table gap ->
      reachesCased table rest = false -> quotes gap % 2 = 1 ∧ QUOTE ∈ rest) (left right : Bool) :
    replaceStrings (loweredAfter table after left) = replaceStrings (loweredAfter table after right) := by
  by_cases reads : Exists fun gap => Exists fun rest => (after = gap ++ SIGMA :: rest ∧ Through table gap) ∧
      reachesCased table rest = false
  · rcases reads with ⟨gap, rest, ⟨isAfter, through⟩, unreached⟩
    rcases unread gap rest isAfter through unreached with ⟨odd, closes⟩
    have gapOdd : quotes (gap.flatMap table.lower) % 2 = 1 := by
      rw [quotes_flatMap_lower gap (sigma_not_through through), odd]
    have restCloses : QUOTE ∈ lowerWithin table [SIGMA] rest [] := by
      by_contra free
      have none := quotes_eq_zero.mpr free
      rw [quotes_lowerWithin] at none
      exact quotes_eq_zero.mp none closes
    rw [lowered_sigma_back isAfter through, lowered_sigma_back isAfter through, ← List.singleton_append,
      ← List.singleton_append (x := sigma _)]
    exact replaceStrings_around gapOdd restCloses (List.cons_ne_nil _ _) (sigma_free _) (List.cons_ne_nil _ _)
      (sigma_free _)
  · refine congrArg replaceStrings (lowerWithin_unread_back _ _ _ fun gap rest isAfter through => ?_)
    rw [List.append_nil]
    exact Bool.not_eq_false _ |>.mp fun unreached => reads ⟨gap, rest, ⟨isAfter, through⟩, unreached⟩

theorem before_not_quote (isQuoted : occurrence.literal.isNumber = false) (front : Sql) :
    occurrence.before ≠ front ++ [QUOTE] := by
  intro isBefore
  rcases occurrence.inCode with inCode | isNumber
  · rw [isBefore] at inCode
    exact not_isCode_behind_quote front inCode
  · rw [isQuoted] at isNumber
    cases isNumber.1

/-- A string literal in lower case. -/
theorem toLowerCase_quoted {content : Sql} (isQuoted : IsQuoted content) (before after : Sql) :
    toLowerCase table (before ++ ((Literal.quoted content isQuoted).text ++ after)) =
      loweredBefore table before (reachesCased table (content ++ QUOTE :: after)) ++
        QUOTE :: (lowerWithin table (QUOTE :: before.reverse) content (QUOTE :: after) ++
          QUOTE :: loweredAfter table after (reachesCased table (content.reverse ++ QUOTE :: before.reverse))) := by
  have next : reachesCased table ((Literal.quoted content isQuoted).text ++ after) =
      reachesCased table (content ++ QUOTE :: after) := by
    rw [Literal.text, List.cons_append, List.append_assoc, List.singleton_append, reachesCased_quote]
  have previous : reachesCased table ((Literal.quoted content isQuoted).text.reverse ++ before.reverse) =
      reachesCased table (content.reverse ++ QUOTE :: before.reverse) := by
    rw [Literal.text, List.reverse_cons, List.reverse_append, List.reverse_singleton, List.singleton_append,
      List.cons_append, List.cons_append, reachesCased_quote, List.append_assoc, List.singleton_append]
  rw [toLowerCase_around, next, previous, Literal.text, lowerWithin, lowerAt_other (by decide), lower_quote,
    lowerWithin_append, lowerWithin, lowerWithin, lowerAt_other (by decide), lower_quote, List.append_nil,
    List.singleton_append, List.singleton_append, List.cons_append, List.append_assoc, List.singleton_append]

/-- A string that stands alone can be replaced by any other. -/
theorem keepsFamily_quoted (isQuoted : occurrence.literal.isNumber = false) (even : quotes occurrence.before % 2 = 0)
    (unread : ¬ SigmaReads table occurrence) :
    KeepsFamily table occurrence := by
  have outside : forall {literal : Literal}, literal.isNumber = false ->
      replaceStrings (toLowerCase table (occurrence.replace literal)) =
        replaceStrings (loweredBefore table occurrence.before false) ++
          QUESTION :: replaceStrings (loweredAfter table occurrence.after false) := by
    intro literal sameKind
    cases literal with
    | integer whole => cases sameKind
    | decimal whole fraction => cases sameKind
    | quoted content contentQuoted =>
        have front := replaceStrings_front even (fun front gap isBefore through reached => by
          by_contra notOdd
          exact unread (.inl ⟨front, gap, ⟨isBefore, through⟩, reached, by omega⟩))
        have back := replaceStrings_back (fun gap rest isAfter through unreached => by
          by_contra shown
          refine unread (.inr ⟨gap, rest, ⟨isAfter, through⟩, unreached, ?_⟩)
          by_cases closes : QUOTE ∈ rest
          · refine .inl ?_
            have notOdd : ¬ quotes gap % 2 = 1 := fun odd => shown ⟨odd, closes⟩
            omega
          · exact .inr closes)
        rw [Occurrence.replace, toLowerCase_quoted, replaceStrings_literal, front _ false, back _ false]
        · rw [loweredBefore, quotes_lowerWithin, even]
        · intro start isStart
          rcases loweredBefore_front isStart with ⟨origin, isBefore⟩
          exact before_not_quote isQuoted origin isBefore
        · exact contentQuoted.lowerWithin _ _
        · exact fun isQuote => occurrence.ends isQuoted (head_lowerWithin_quote isQuote)
  intro literal sameKind
  rw [isQuoted] at sameKind
  rw [queryFamilyHash, queryFamilyHash, normalizeSql_eq, normalizeSql_eq, Occurrence.statement, outside sameKind,
    outside isQuoted]

/-! ## Strings that the template shows -/

/-- Letters and digits without upper case. -/
def IsPlain (content : Sql) : Prop :=
  forall point, point ∈ content -> isDigit point = true ∨ 97 ≤ point.val ∧ point.val ≤ 122

theorem IsPlain.free {content : Sql} (isPlain : IsPlain content) : QUOTE ∉ content :=
  fun member => absurd (isPlain QUOTE member) (by decide)

theorem IsPlain.isQuoted {content : Sql} (isPlain : IsPlain content) : IsQuoted content := by
  rw [← List.append_nil content]
  exact .append_free isPlain.free .nil

theorem IsPlain.lower {content : Sql} (isPlain : IsPlain content) (before after : Sql) :
    lowerWithin table before content after = content := by
  refine lowerWithin_stable (fun point member => ?_) before after
  rcases isPlain point member with digit | letter
  · exact stable_digit digit
  · exact stable_ascii table (by omega) (by omega)

/-- Two strings in place of the literal have the same family. -/
theorem same_of_keepsFamily (keeps : KeepsFamily table occurrence) (isQuoted : occurrence.literal.isNumber = false)
    {left right : Sql} (leftPlain : IsPlain left) (rightPlain : IsPlain right) :
    fnv1a ((template (replaceStrings (toLowerCase table
        (occurrence.before ++ ((Literal.quoted left leftPlain.isQuoted).text ++ occurrence.after))))).flatMap codeUnits) =
      fnv1a ((template (replaceStrings (toLowerCase table
        (occurrence.before ++ ((Literal.quoted right rightPlain.isQuoted).text ++ occurrence.after))))).flatMap codeUnits) := by
  have leftSame := keeps (.quoted left leftPlain.isQuoted) isQuoted.symm
  have rightSame := keeps (.quoted right rightPlain.isQuoted) isQuoted.symm
  rw [← rightSame, queryFamilyHash, queryFamilyHash, normalizeSql_eq, normalizeSql_eq] at leftSame
  exact leftSame

/-- Behind an odd number of quotes the template shows what the string holds. -/
theorem not_keepsFamily_of_odd (isQuoted : occurrence.literal.isNumber = false)
    (odd : quotes occurrence.before % 2 = 1) : ¬ KeepsFamily table occurrence := by
  intro keeps
  have plain : forall letter : CodePoint, 97 ≤ letter.val ∧ letter.val ≤ 122 -> IsPlain [letter] := by
    intro letter isLetter point member
    rw [List.mem_singleton.mp member]
    exact .inr isLetter
  have shown : forall (letter : CodePoint) (isLetter : 97 ≤ letter.val ∧ letter.val ≤ 122),
      replaceStrings (toLowerCase table (occurrence.before ++
          ((Literal.quoted [letter] (plain letter isLetter).isQuoted).text ++ occurrence.after))) =
        replaceStrings (loweredBefore table occurrence.before true ++ [QUOTE]) ++
          letter :: replaceStrings (QUOTE :: loweredAfter table occurrence.after true) := by
    intro letter isLetter
    have notQuote : letter ≠ QUOTE := by
      rintro rfl
      exact absurd isLetter (by decide)
    have even : quotes (loweredBefore table occurrence.before true ++ [QUOTE]) % 2 = 0 := by
      rw [quotes_append, loweredBefore, quotes_lowerWithin, quotes_cons_quote]
      change (quotes occurrence.before + (0 + 1)) % 2 = 0
      omega
    rw [toLowerCase_quoted, (plain letter isLetter).lower]
    simp only [List.singleton_append, List.reverse_singleton, reachesCased_letter isLetter]
    rw [List.append_cons, replaceStrings_append even, replaceStrings_plain notQuote]
    exact seam_of_head fun same => notQuote (Option.some.inj same)
  have same := same_of_keepsFamily keeps isQuoted (plain 97 (by decide)) (plain 98 (by decide))
  rw [shown 97 (by decide), shown 98 (by decide)] at same
  have equal := eq_of_template (.letters (by decide) (by decide)) (by decide) (by decide) (by decide) (by decide) same
  exact absurd equal (by decide)

theorem seam_sigma (left : Sql) (final : Bool) (rest : Sql) : Seam left (sigma final :: rest) :=
  fun _front _isLeft same => sigma_ne_quote final (Option.some.inj same)

theorem breaks_sigma (final : Bool) : Breaks (sigma final) := by
  cases final <;> exact ⟨by decide, by decide⟩

/-- The two small sigmas make different families. -/
theorem sigma_of_template {back : Sql} {left right : Bool}
    (same : fnv1a ((template (front ++ sigma left :: back)).flatMap codeUnits) =
      fnv1a ((template (front ++ sigma right :: back)).flatMap codeUnits)) : left = right := by
  have small : forall final, (sigma final).val < 65536 ∧ isSpace (sigma final) = false := by
    intro final
    cases final <;> decide
  have equal := eq_of_template (.breaks (breaks_sigma left) (breaks_sigma right)) (small left).1 (small right).1
    (small left).2 (small right).2 same
  cases left <;> cases right <;> first | rfl | exact absurd equal (by decide)

theorem isPlain_pair {first second : CodePoint} (isFirst : isDigit first = true ∨ 97 ≤ first.val ∧ first.val ≤ 122)
    (isSecond : isDigit second = true ∨ 97 ≤ second.val ∧ second.val ≤ 122) : IsPlain [first, second] := by
  intro point member
  rcases List.mem_cons.mp member with same | inRest
  · rw [same]
    exact isFirst
  · rw [List.mem_singleton.mp inRest]
    exact isSecond

/-- A sigma before the string that the template shows reads its first letter. -/
theorem not_keepsFamily_of_front (isQuoted : occurrence.literal.isNumber = false)
    (even : quotes occurrence.before % 2 = 0) {gap : Sql} (isBefore : occurrence.before = front ++ SIGMA :: gap)
    (through : Through table gap) (reached : reachesCased table front.reverse = true)
    (frontEven : quotes front % 2 = 0) : ¬ KeepsFamily table occurrence := by
  intro keeps
  have loweredEven : quotes (lowerWithin table [] front [SIGMA]) % 2 = 0 := by rw [quotes_lowerWithin, frontEven]
  have gapEven : quotes (gap.flatMap table.lower) % 2 = 0 := by
    rw [isBefore, quotes_append, quotes_cons_of_ne (by decide)] at even
    rw [quotes_flatMap_lower gap (sigma_not_through through)]
    omega
  have gapOpen : forall start, gap.flatMap table.lower ≠ start ++ [QUOTE] := by
    intro start isGap
    rw [← lowerWithin_free (sigma_not_through through) [] []] at isGap
    rcases lowerWithin_front_quote isGap with ⟨origin, isOrigin⟩
    refine before_not_quote isQuoted (front ++ SIGMA :: origin) ?_
    rw [isBefore, isOrigin, List.append_assoc, List.cons_append]
  have shown : forall (first : CodePoint) (isFirst : isDigit first = true ∨ 97 ≤ first.val ∧ first.val ≤ 122)
      (cased : Bool), (forall rest, reachesCased table (first :: rest) = cased) ->
      replaceStrings (toLowerCase table (occurrence.before ++
          ((Literal.quoted [first, 49] (isPlain_pair isFirst (.inl rfl)).isQuoted).text ++ occurrence.after))) =
        replaceStrings (lowerWithin table [] front [SIGMA]) ++ sigma (!cased) ::
          (replaceStrings (gap.flatMap table.lower) ++
            QUESTION :: replaceStrings (loweredAfter table occurrence.after false)) := by
    intro first isFirst cased isCased
    have plain := isPlain_pair isFirst (show isDigit 49 = true ∨ _ from .inl rfl)
    have previous : reachesCased table ([first, 49].reverse ++ QUOTE :: occurrence.before.reverse) = false :=
      reachesCased_digit rfl _
    rw [toLowerCase_quoted, plain.lower, previous, List.cons_append, isCased, lowered_sigma_front isBefore through,
      reached, Bool.true_and, List.append_assoc, List.cons_append,
      replaceStrings_append loweredEven (seam_sigma _ _ _),
      replaceStrings_plain (sigma_ne_quote _), replaceStrings_literal gapEven gapOpen plain.isQuoted]
    exact fun isQuote => occurrence.ends isQuoted (head_lowerWithin_quote isQuote)
  have same := same_of_keepsFamily keeps isQuoted
    (isPlain_pair (show isDigit 97 = true ∨ _ from .inr (by decide)) (show isDigit 49 = true ∨ _ from .inl rfl))
    (isPlain_pair (show isDigit 49 = true ∨ _ from .inl rfl) (show isDigit 49 = true ∨ _ from .inl rfl))
  rw [shown 97 (.inr (by decide)) true fun rest => reachesCased_letter (by decide) rest,
    shown 49 (.inl rfl) false fun rest => reachesCased_digit rfl rest] at same
  exact Bool.false_ne_true (sigma_of_template same)

/-- A sigma behind the string that the template shows reads its last letter. -/
theorem not_keepsFamily_of_back (isQuoted : occurrence.literal.isNumber = false)
    (even : quotes occurrence.before % 2 = 0) {gap rest : Sql} (isAfter : occurrence.after = gap ++ SIGMA :: rest)
    (through : Through table gap) (unreached : reachesCased table rest = false)
    (isShown : quotes gap % 2 = 0 ∨ QUOTE ∉ rest) : ¬ KeepsFamily table occurrence := by
  intro keeps
  have afterSigma : Exists fun out => forall final,
      replaceStrings (gap.flatMap table.lower ++ sigma final :: lowerWithin table [SIGMA] rest []) =
        replaceStrings (gap.flatMap table.lower) ++ sigma final :: out := by
    rcases isShown with gapEven | free
    · rw [← quotes_flatMap_lower gap (sigma_not_through through)] at gapEven
      refine ⟨replaceStrings (lowerWithin table [SIGMA] rest []), fun final => ?_⟩
      rw [replaceStrings_append gapEven (seam_sigma _ _ _),
        replaceStrings_plain (sigma_ne_quote _)]
    · refine ⟨lowerWithin table [SIGMA] rest [], fun final => replaceStrings_append_free ?_ _⟩
      rw [← quotes_eq_zero, quotes_cons_of_ne (sigma_ne_quote _), quotes_lowerWithin, quotes_eq_zero]
      exact free
  rcases afterSigma with ⟨out, isOut⟩
  have shown : forall (last : CodePoint) (isLast : isDigit last = true ∨ 97 ≤ last.val ∧ last.val ≤ 122)
      (cased : Bool), (forall rest, reachesCased table (last :: rest) = cased) ->
      replaceStrings (toLowerCase table (occurrence.before ++
          ((Literal.quoted [49, last] (isPlain_pair (.inl rfl) isLast).isQuoted).text ++ occurrence.after))) =
        (replaceStrings (loweredBefore table occurrence.before false) ++
          QUESTION :: replaceStrings (gap.flatMap table.lower)) ++ sigma cased :: out := by
    intro last isLast cased isCased
    have plain := isPlain_pair (show isDigit 49 = true ∨ _ from .inl rfl) isLast
    have next : reachesCased table ([49, last] ++ QUOTE :: occurrence.after) = false := reachesCased_digit rfl _
    have previous : reachesCased table ([49, last].reverse ++ QUOTE :: occurrence.before.reverse) = cased := isCased _
    rw [toLowerCase_quoted, plain.lower, next, previous, replaceStrings_literal,
      lowered_sigma_back isAfter through, unreached, Bool.not_false, Bool.and_true, isOut, List.append_assoc,
      List.cons_append]
    · rw [loweredBefore, quotes_lowerWithin, even]
    · intro start isStart
      rcases loweredBefore_front isStart with ⟨origin, isBefore⟩
      exact before_not_quote isQuoted origin isBefore
    · exact plain.isQuoted
    · exact fun isQuote => occurrence.ends isQuoted (head_lowerWithin_quote isQuote)
  have same := same_of_keepsFamily keeps isQuoted
    (isPlain_pair (show isDigit 49 = true ∨ _ from .inl rfl) (show isDigit 97 = true ∨ _ from .inr (by decide)))
    (isPlain_pair (show isDigit 49 = true ∨ _ from .inl rfl) (show isDigit 49 = true ∨ _ from .inl rfl))
  rw [shown 97 (.inr (by decide)) true fun rest => reachesCased_letter (by decide) rest,
    shown 49 (.inl rfl) false fun rest => reachesCased_digit rfl rest] at same
  exact Bool.false_ne_true (sigma_of_template same).symm

/-! ## The exact condition -/

/-- A literal can be replaced by every other of its kind when it is isolated, and only
then; and a template is its own template. -/
theorem keepsFamily_iff_isolated (table : CaseTable) (occurrence : Occurrence) :
    (KeepsFamily table occurrence <-> Isolated table occurrence) ∧
      forall sql, normalizeSql table (normalizeSql table sql) = normalizeSql table sql := by
  refine ⟨⟨fun keeps => ?_, ?_⟩, normalizeSql_normalizeSql table⟩
  · cases isNumber : occurrence.literal.isNumber with
    | true => exact .inl isNumber
    | false =>
        rcases Nat.mod_two_eq_zero_or_one (quotes occurrence.before) with even | odd
        · refine .inr ⟨even, ?_⟩
          rintro (⟨front, gap, ⟨isBefore, through⟩, reached, frontEven⟩ | ⟨gap, rest, ⟨isAfter, through⟩, unreached, isShown⟩)
          · exact not_keepsFamily_of_front isNumber even isBefore through reached frontEven keeps
          · exact not_keepsFamily_of_back isNumber even isAfter through unreached isShown keeps
        · exact (not_keepsFamily_of_odd isNumber odd keeps).elim
  · rintro (isNumber | ⟨even, unread⟩)
    · exact keepsFamily_number isNumber
    · cases isNumber : occurrence.literal.isNumber with
      | true => exact keepsFamily_number isNumber
      | false => exact keepsFamily_quoted isNumber even unread

/-! ## A quote in a comment -/

/-- The tables as far as ASCII and the sigmas go. -/
def asciiCase : CaseTable where
  lower point := [if 65 ≤ point.val ∧ point.val ≤ 90 then point + 32 else point]
  isCased point := decide (97 ≤ point.val ∧ point.val ≤ 122 ∨ 65 ≤ point.val ∧ point.val ≤ 90) ||
    decide (point ∈ [SIGMA, SMALL_SIGMA, FINAL_SIGMA])
  isIgnorable point := decide (point.val ∈ [39, 46, 58, 94, 96])
  nonempty _point := List.cons_ne_nil _ _
  stable point other result member := by
    rw [List.mem_singleton.mp member]
    by_cases upper : 65 ≤ point.val ∧ point.val ≤ 90
    · have value : (point + 32).val = point.val + 32 := by
        rw [Fin.val_add]
        exact Nat.mod_eq_of_lt (by change point.val + 32 < 1114112; omega)
      rw [if_pos upper, if_neg (by omega)]
      refine ⟨?_, rfl⟩
      intro same
      rw [same] at value
      change 931 = point.val + 32 at value
      omega
    · rw [if_neg upper, if_neg upper]
      exact ⟨other, rfl⟩
  ascii _point _small := rfl
  quote_lower point member := by
    have isQuote := List.mem_singleton.mp member
    split at isQuote
    · rename_i upper
      have value : (point + 32).val = point.val + 32 := by
        rw [Fin.val_add]
        exact Nat.mod_eq_of_lt (by change point.val + 32 < 1114112; omega)
      rw [← isQuote] at value
      change 39 = point.val + 32 at value
      omega
    · exact isQuote.symm
  small_sigma := by decide
  final_sigma := by decide
  sigma_cased := by decide
  letter_cased point isLetter := by rw [decide_eq_true (.inl isLetter), Bool.true_or]
  digit_plain point digit := by
    have bounds := of_decide_eq_true digit
    refine ⟨?_, ?_⟩
    · rw [Bool.or_eq_false_iff, decide_eq_false_iff_not, decide_eq_false_iff_not]
      refine ⟨by omega, fun member => ?_⟩
      simp only [List.mem_cons, List.not_mem_nil, or_false] at member
      rcases member with isSigma | isSmall | isFinal
      · rw [isSigma] at bounds
        exact absurd bounds (by decide)
      · rw [isSmall] at bounds
        exact absurd bounds (by decide)
      · rw [isFinal] at bounds
        exact absurd bounds (by decide)
    · refine decide_eq_false fun member => ?_
      simp only [List.mem_cons, List.not_mem_nil, or_false] at member
      omega
  quote_ignorable := by decide

/-- `select 'a'` below the comment `-- it's`. -/
def commentedQuery : Occurrence where
  before := codePoints "-- it's" ++ 10 :: codePoints "select "
  literal := .quoted (codePoints "a") (.plain _ _ (by decide) .nil)
  after := []
  inCode := .inl (.inl (by decide))
  ends _isQuoted := by decide
  separated isNumber := (Bool.false_ne_true isNumber).elim

/-- The quote in the comment closes in front of the string, which the template shows. -/
theorem not_keepsFamily_commentedQuery : ¬ KeepsFamily asciiCase commentedQuery := by
  intro keeps
  have same := keeps (.quoted (codePoints "b") (.plain _ _ (by decide) .nil)) rfl
  exact absurd same (by decide +kernel)

end Query
end Telescope
