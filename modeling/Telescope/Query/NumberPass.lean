import Telescope.Query.NormalizeSql

namespace Telescope
namespace Query

/-!
# What the pass over number literals replaces

A number between characters that neither words nor numbers go on through is replaced as
a whole, whatever its digits are.  The pass looks at no other character but through its
class, and leaves no number behind that it would replace.
-/

/-- Neither a word nor a number goes on through the character. -/
def Breaks (point : CodePoint) : Prop := isWord point = false ∧ point ≠ DOT

variable {point : CodePoint}

theorem isDigit_of_not_word (isBreak : isWord point = false) : isDigit point = false :=
  (Bool.or_eq_false_iff.mp isBreak).1

theorem isWord_of_digit (digit : isDigit point = true) : isWord point = true := by
  rw [isWord, digit, Bool.true_or]

theorem dot_not_word : isWord DOT = false := by decide

theorem replaceNumbers_nil (behindWord : Bool) : replaceNumbers behindWord [] = [] := by rw [replaceNumbers]

theorem replaceNumbers_plain {behindWord : Bool} (isPlain : ¬ (behindWord = false ∧ isDigit point = true))
    (rest : Sql) :
    replaceNumbers behindWord (point :: rest) = point :: replaceNumbers (isWord point) rest := by
  rw [replaceNumbers, if_neg isPlain]

theorem replaceNumbers_matched (digit : isDigit point = true) {rest tail : Sql} (ends : numberEnd rest = some tail) :
    replaceNumbers false (point :: rest) = QUESTION :: replaceNumbers true tail := by
  rw [replaceNumbers, if_pos ⟨rfl, digit⟩]
  split
  · rename_i other isOther
    rw [isOther] at ends
    rw [Option.some.inj ends]
  · rename_i none
    rw [none] at ends
    cases ends

theorem replaceNumbers_unmatched (digit : isDigit point = true) {rest : Sql} (endless : numberEnd rest = none) :
    replaceNumbers false (point :: rest) = point :: replaceNumbers true rest := by
  rw [replaceNumbers, if_pos ⟨rfl, digit⟩]
  split
  · rename_i other isOther
    rw [isOther] at endless
    cases endless
  · rw [isWord_of_digit digit]

/-- Induction along the pass. -/
theorem replaceNumbers_induction {motive : Bool -> Sql -> Prop} (nil : forall behindWord, motive behindWord [])
    (plain : forall behindWord point rest, ¬ (behindWord = false ∧ isDigit point = true) ->
      motive (isWord point) rest -> motive behindWord (point :: rest))
    (matched : forall point rest tail, isDigit point = true -> numberEnd rest = some tail ->
      motive true tail -> motive false (point :: rest))
    (unmatched : forall point rest, isDigit point = true -> numberEnd rest = none ->
      motive true rest -> motive false (point :: rest))
    (behindWord : Bool) (text : Sql) : motive behindWord text := by
  induction size : text.length using Nat.strong_induction_on generalizing behindWord text with
  | _ size' inductionHypothesis =>
      cases text with
      | nil => exact nil behindWord
      | cons point rest =>
          rw [List.length_cons] at size
          by_cases begins : behindWord = false ∧ isDigit point = true
          · rw [begins.1]
            cases ends : numberEnd rest with
            | none => exact unmatched point rest begins.2 ends (inductionHypothesis rest.length (by omega) _ rest rfl)
            | some tail =>
                have shorter := length_numberEnd ends
                exact matched point rest tail begins.2 ends (inductionHypothesis tail.length (by omega) _ tail rfl)
          · exact plain behindWord point rest begins (inductionHypothesis rest.length (by omega) _ rest rfl)

/-! ## In front of a character -/

theorem dropWhile_append_cons (other : isDigit point = false) (left right : Sql) :
    (left ++ point :: right).dropWhile isDigit = left.dropWhile isDigit ++ point :: right := by
  induction left with
  | nil => exact List.dropWhile_cons_of_neg (Bool.eq_false_iff.mp other)
  | cons first rest inductionHypothesis =>
      rw [List.cons_append, List.dropWhile_cons, List.dropWhile_cons, inductionHypothesis]
      split <;> rfl

theorem decimals_append_cons (other : isDigit point = false) (notDot : point ≠ DOT) (left right : Sql) :
    decimals (left ++ point :: right) = (decimals left).map (· ++ point :: right) := by
  cases left with
  | nil => exact if_neg fun both => notDot both.1
  | cons first rest =>
      have same : startsWith isDigit (rest ++ point :: right) = startsWith isDigit rest := by
        cases rest with
        | nil => exact other
        | cons next rest => rfl
      rw [List.cons_append, decimals, decimals, same, dropWhile_append_cons other]
      split <;> rfl

/-- The boundary behind a digit, in front of a text that a character follows. -/
def atBoundaryBefore (isWordNext : Bool) (text : Sql) : Bool :=
  match text with
  | [] => !isWordNext
  | _ => atBoundary text

theorem atBoundary_append_cons (left : Sql) (point : CodePoint) (right : Sql) :
    atBoundary (left ++ point :: right) = atBoundaryBefore (isWord point) left := by
  cases left <;> rfl

/-- The end of a number in front of a character, by the class of that character. -/
def numberEndBefore (isWordNext : Bool) (text : Sql) : Option Sql :=
  let whole := text.dropWhile isDigit
  ((decimals whole).filter (atBoundaryBefore isWordNext)).orElse fun _noFraction =>
    if atBoundaryBefore isWordNext whole then some whole else none

theorem numberEnd_append_cons (other : isDigit point = false) (notDot : point ≠ DOT) (left right : Sql) :
    numberEnd (left ++ point :: right) = (numberEndBefore (isWord point) left).map (· ++ point :: right) := by
  have filtered : forall whole : Option Sql, (whole.map (· ++ point :: right)).filter atBoundary =
      (whole.filter (atBoundaryBefore (isWord point))).map (· ++ point :: right) := by
    intro whole
    cases whole with
    | none => rfl
    | some text =>
        rw [Option.map_some, Option.filter_some, Option.filter_some, atBoundary_append_cons]
        split <;> rfl
  rw [numberEnd, numberEndBefore, dropWhile_append_cons other, decimals_append_cons other notDot, filtered,
    atBoundary_append_cons]
  cases (decimals (left.dropWhile isDigit)).filter (atBoundaryBefore (isWord point)) with
  | some tail => rfl
  | none =>
      change (if _ then _ else _) = Option.map _ (if _ then _ else _)
      split <;> rfl

theorem numberEndBefore_false (text : Sql) : numberEndBefore false text = numberEnd text := by
  have same : atBoundaryBefore false = atBoundary := by
    funext text
    cases text <;> rfl
  rw [numberEndBefore, numberEnd, same]

/-- The pass starts anew behind a character that breaks words and numbers. -/
theorem replaceNumbers_append_break (breaks : Breaks point) (behindWord : Bool) (left right : Sql) :
    replaceNumbers behindWord (left ++ point :: right) =
      replaceNumbers behindWord left ++ point :: replaceNumbers false right := by
  have other := isDigit_of_not_word breaks.1
  have sameEnd : forall text, numberEnd (text ++ point :: right) = (numberEnd text).map (· ++ point :: right) := by
    intro text
    rw [numberEnd_append_cons other breaks.2, breaks.1, numberEndBefore_false]
  induction behindWord, left using replaceNumbers_induction with
  | nil behindWord =>
      rw [List.nil_append, replaceNumbers_nil, List.nil_append, replaceNumbers_plain, breaks.1]
      exact fun both => Bool.false_ne_true (other.symm.trans both.2)
  | plain behindWord first rest isPlain inductionHypothesis =>
      rw [List.cons_append, replaceNumbers_plain isPlain, replaceNumbers_plain isPlain, inductionHypothesis,
        List.cons_append]
  | matched first rest tail digit ends inductionHypothesis =>
      rw [List.cons_append, replaceNumbers_matched digit ends, replaceNumbers_matched digit (by rw [sameEnd, ends]; rfl),
        inductionHypothesis, List.cons_append]
  | unmatched first rest digit endless inductionHypothesis =>
      rw [List.cons_append, replaceNumbers_unmatched digit endless,
        replaceNumbers_unmatched digit (by rw [sameEnd, endless]; rfl), inductionHypothesis, List.cons_append]

/-- In front of a letter the pass sees nothing of it but that it is one. -/
theorem exists_replaceNumbers_letter (behindWord : Bool) (left : Sql) :
    Exists fun out => forall (point : CodePoint) (right : Sql), isDigit point = false -> isWord point = true ->
      replaceNumbers behindWord (left ++ point :: right) = out ++ point :: replaceNumbers true right := by
  have notDot : forall point, isWord point = true -> point ≠ DOT := by
    rintro point isLetter rfl
    exact Bool.false_ne_true (dot_not_word.symm.trans isLetter)
  induction size : left.length using Nat.strong_induction_on generalizing behindWord left with
  | _ size' inductionHypothesis =>
      cases left with
      | nil =>
          refine ⟨[], fun point right other isLetter => ?_⟩
          rw [List.nil_append, List.nil_append, replaceNumbers_plain, isLetter]
          exact fun both => Bool.false_ne_true (other.symm.trans both.2)
      | cons first rest =>
          rw [List.length_cons] at size
          by_cases begins : behindWord = false ∧ isDigit first = true
          · rw [begins.1]
            cases ends : numberEndBefore true rest with
            | none =>
                rcases inductionHypothesis rest.length (by omega) true rest rfl with ⟨out, isOut⟩
                refine ⟨first :: out, fun point right other isLetter => ?_⟩
                have endless : numberEnd (rest ++ point :: right) = none := by
                  rw [numberEnd_append_cons other (notDot point isLetter), isLetter, ends]
                  rfl
                rw [List.cons_append, replaceNumbers_unmatched begins.2 endless, isOut point right other isLetter,
                  List.cons_append]
            | some tail =>
                have sameEnd : forall (point : CodePoint) (right : Sql), isDigit point = false ->
                    isWord point = true -> numberEnd (rest ++ point :: right) = some (tail ++ point :: right) := by
                  intro point right other isLetter
                  rw [numberEnd_append_cons other (notDot point isLetter), isLetter, ends]
                  rfl
                have shorter := length_numberEnd (sameEnd 97 [] (by decide) (by decide))
                rw [List.length_append, List.length_append] at shorter
                rcases inductionHypothesis tail.length (by omega) true tail rfl with ⟨out, isOut⟩
                refine ⟨QUESTION :: out, fun point right other isLetter => ?_⟩
                rw [List.cons_append, replaceNumbers_matched begins.2 (sameEnd point right other isLetter),
                  isOut point right other isLetter, List.cons_append]
          · rcases inductionHypothesis rest.length (by omega) (isWord first) rest rfl with ⟨out, isOut⟩
            refine ⟨first :: out, fun point right other isLetter => ?_⟩
            rw [List.cons_append, replaceNumbers_plain begins, isOut point right other isLetter, List.cons_append]

/-! ## A number -/

variable {text : Sql}

/-- Behind a word and behind nothing, the pass does the same with what is no word. -/
theorem replaceNumbers_boundary (boundary : atBoundary text = true) (behindWord : Bool) :
    replaceNumbers behindWord text = replaceNumbers false text := by
  cases text with
  | nil => rw [replaceNumbers_nil, replaceNumbers_nil]
  | cons point rest =>
      have isBreak : isWord point = false := Bool.not_eq_true' _ |>.mp boundary
      have isPlain : forall behindWord, ¬ (behindWord = false ∧ isDigit point = true) :=
        fun _behindWord both => Bool.false_ne_true ((isDigit_of_not_word isBreak).symm.trans both.2)
      rw [replaceNumbers_plain (isPlain behindWord), replaceNumbers_plain (isPlain false)]

variable {digits : Sql}

theorem dropWhile_digits (all : forall point, point ∈ digits -> isDigit point = true) (right : Sql) :
    (digits ++ right).dropWhile isDigit = right.dropWhile isDigit := by
  rw [List.dropWhile_append_of_pos all]

theorem dropWhile_boundary (boundary : atBoundary text = true) : text.dropWhile isDigit = text := by
  cases text with
  | nil => rfl
  | cons point rest =>
      have isBreak : isWord point = false := Bool.not_eq_true' _ |>.mp boundary
      exact List.dropWhile_cons_of_neg (Bool.eq_false_iff.mp (isDigit_of_not_word isBreak))

theorem decimals_of_not_dot (notDot : text.head? ≠ some DOT) : decimals text = none := by
  cases text with
  | nil => rfl
  | cons point rest => exact if_neg fun both => notDot (congrArg some both.1)

/-- An integer ends in front of what no number goes on through. -/
theorem numberEnd_integer {right : Sql} (all : forall point, point ∈ digits -> isDigit point = true)
    (boundary : atBoundary right = true) (notDot : right.head? ≠ some DOT) :
    numberEnd (digits ++ right) = some right := by
  rw [numberEnd, dropWhile_digits all, dropWhile_boundary boundary, decimals_of_not_dot notDot]
  exact if_pos boundary

theorem numberEnd_decimal {right : Sql} (all : forall point, point ∈ digits -> isDigit point = true) {fraction : Digits}
    (boundary : atBoundary right = true) :
    numberEnd (digits ++ DOT :: (fraction.text ++ right)) = some right := by
  have isDecimal : decimals (DOT :: (fraction.text ++ right)) = some right := by
    rcases fraction with ⟨fractionText, filled, fractionDigits⟩
    have begins : startsWith isDigit (fractionText ++ right) = true := by
      cases fractionText with
      | nil => exact (filled rfl).elim
      | cons point rest => exact fractionDigits point (List.mem_cons_self ..)
    rw [decimals, if_pos ⟨rfl, begins⟩, dropWhile_digits fractionDigits, dropWhile_boundary boundary]
  have whole : (DOT :: (fraction.text ++ right)).dropWhile isDigit = DOT :: (fraction.text ++ right) :=
    dropWhile_boundary (congrArg not dot_not_word)
  rw [numberEnd, dropWhile_digits all, whole, isDecimal, Option.filter_some, if_pos boundary]
  rfl

/-- A number is replaced as a whole. -/
theorem replaceNumbers_literal {literal : Literal} (isNumber : literal.isNumber = true) {right : Sql}
    (boundary : atBoundary right = true) (notDot : right.head? ≠ some DOT) :
    replaceNumbers false (literal.text ++ right) = QUESTION :: replaceNumbers false right := by
  cases literal with
  | quoted content isQuoted => cases isNumber
  | integer whole =>
      rcases whole with ⟨text, filled, digits⟩
      cases text with
      | nil => exact (filled rfl).elim
      | cons first rest =>
          rcases List.forall_mem_cons.mp digits with ⟨firstDigit, restDigits⟩
          change replaceNumbers false (first :: (rest ++ right)) = _
          rw [replaceNumbers_matched firstDigit (numberEnd_integer restDigits boundary notDot),
            replaceNumbers_boundary boundary]
  | decimal whole fraction =>
      rcases whole with ⟨text, filled, digits⟩
      cases text with
      | nil => exact (filled rfl).elim
      | cons first rest =>
          rcases List.forall_mem_cons.mp digits with ⟨firstDigit, restDigits⟩
          have ends := @numberEnd_decimal rest right restDigits fraction boundary
          change replaceNumbers false (first :: ((rest ++ DOT :: fraction.text) ++ right)) = _
          rw [List.append_assoc, List.cons_append, replaceNumbers_matched firstDigit ends,
            replaceNumbers_boundary boundary]

/-! ## No number is left -/

/-- The pass finds nothing to replace. -/
def Numberless : Bool -> Sql -> Prop
  | _, [] => True
  | behindWord, point :: rest =>
      (behindWord = false -> isDigit point = true -> numberEnd rest = none) ∧ Numberless (isWord point) rest

theorem replaceNumbers_numberless {behindWord : Bool} (numberless : Numberless behindWord text) :
    replaceNumbers behindWord text = text := by
  induction text generalizing behindWord with
  | nil => exact replaceNumbers_nil behindWord
  | cons point rest inductionHypothesis =>
      have restless := inductionHypothesis numberless.2
      by_cases begins : behindWord = false ∧ isDigit point = true
      · rw [begins.1, replaceNumbers_unmatched begins.2 (numberless.1 begins.1 begins.2)]
        rw [isWord_of_digit begins.2] at restless
        rw [restless]
      · rw [replaceNumbers_plain begins, restless]

/-- A run of digits that no number ends behind is followed by a letter. -/
theorem letter_of_endless (endless : numberEnd text = none) :
    Exists fun digits => Exists fun letter => Exists fun rest => text = digits ++ letter :: rest ∧
      (forall point, point ∈ digits -> isDigit point = true) ∧ isDigit letter = false ∧ isWord letter = true := by
  have whole : ¬ atBoundary (text.dropWhile isDigit) = true := by
    intro boundary
    rw [numberEnd] at endless
    cases fraction : (decimals (text.dropWhile isDigit)).filter atBoundary with
    | none =>
        rw [fraction] at endless
        change (if _ then _ else _) = _ at endless
        rw [if_pos boundary] at endless
        cases endless
    | some tail =>
        rw [fraction] at endless
        cases endless
  have parts : text.takeWhile isDigit ++ text.dropWhile isDigit = text := List.takeWhile_append_dropWhile
  cases behind : text.dropWhile isDigit with
  | nil =>
      rw [behind] at whole
      exact (whole rfl).elim
  | cons letter rest =>
      rw [behind] at whole parts
      refine ⟨text.takeWhile isDigit, letter, rest, parts.symm, fun point member => List.mem_takeWhile_imp member, ?_, ?_⟩
      · have stopped := List.head?_dropWhile_not isDigit text
        rw [behind] at stopped
        exact stopped
      · rw [atBoundary, Bool.not_eq_true', Bool.not_eq_false] at whole
        exact whole

theorem numberEnd_letter (all : forall point, point ∈ digits -> isDigit point = true) {letter : CodePoint}
    (other : isDigit letter = false) (isLetter : isWord letter = true) (rest : Sql) :
    numberEnd (digits ++ letter :: rest) = none := by
  have notDot : (letter :: rest).head? ≠ some DOT := by
    intro same
    rw [Option.some.inj same, dot_not_word] at isLetter
    cases isLetter
  rw [numberEnd, dropWhile_digits all, List.dropWhile_cons_of_neg (Bool.eq_false_iff.mp other),
    decimals_of_not_dot notDot]
  refine if_neg fun boundary => ?_
  rw [atBoundary, Bool.not_eq_true'] at boundary
  exact Bool.false_ne_true (boundary.symm.trans isLetter)

theorem replaceNumbers_digits (all : forall point, point ∈ digits -> isDigit point = true) (right : Sql) :
    replaceNumbers true (digits ++ right) = digits ++ replaceNumbers true right := by
  induction digits with
  | nil => rfl
  | cons point rest inductionHypothesis =>
      rcases List.forall_mem_cons.mp all with ⟨digit, restDigits⟩
      rw [List.cons_append, replaceNumbers_plain (fun both => Bool.false_ne_true both.1.symm), isWord_of_digit digit,
        inductionHypothesis restDigits, List.cons_append]

theorem boundary_numberEnd {tail : Sql} (ends : numberEnd text = some tail) : atBoundary tail = true := by
  rw [numberEnd] at ends
  cases fraction : (decimals (text.dropWhile isDigit)).filter atBoundary with
  | none =>
      rw [fraction] at ends
      change (if _ then _ else _) = _ at ends
      split at ends
      · rename_i boundary
        cases ends
        exact boundary
      · cases ends
  | some rest =>
      rw [fraction] at ends
      cases ends
      exact (Option.filter_eq_some_iff.mp fraction).2

theorem numberless_of_boundary (boundary : atBoundary text = true)
    (numberless : Numberless true (replaceNumbers true text)) : Numberless false (replaceNumbers true text) := by
  cases text with
  | nil =>
      rw [replaceNumbers_nil]
      trivial
  | cons point rest =>
      have isBreak : isWord point = false := Bool.not_eq_true' _ |>.mp boundary
      rw [replaceNumbers_plain (fun both => Bool.false_ne_true both.1.symm)] at numberless ⊢
      exact ⟨fun _behind digit => absurd digit (Bool.eq_false_iff.mp (isDigit_of_not_word isBreak)), numberless.2⟩

/-- Behind the pass no number is left. -/
theorem numberless_replaceNumbers (behindWord : Bool) (text : Sql) :
    Numberless behindWord (replaceNumbers behindWord text) := by
  induction behindWord, text using replaceNumbers_induction with
  | nil behindWord =>
      rw [replaceNumbers_nil]
      trivial
  | plain behindWord point rest isPlain inductionHypothesis =>
      rw [replaceNumbers_plain isPlain]
      exact ⟨fun behind digit => (isPlain ⟨behind, digit⟩).elim, inductionHypothesis⟩
  | matched point rest tail digit ends inductionHypothesis =>
      rw [replaceNumbers_matched digit ends]
      refine ⟨fun _behind isDigit => absurd isDigit (by decide), ?_⟩
      exact numberless_of_boundary (boundary_numberEnd ends) inductionHypothesis
  | unmatched point rest digit endless inductionHypothesis =>
      rw [replaceNumbers_unmatched digit endless]
      refine ⟨fun _behind _digit => ?_, ?_⟩
      · rcases letter_of_endless endless with ⟨digits, letter, more, isRest, all, other, isLetter⟩
        rw [isRest, replaceNumbers_digits all, replaceNumbers_plain (fun both => Bool.false_ne_true both.1.symm)]
        exact numberEnd_letter all other isLetter _
      · rw [isWord_of_digit digit]
        exact inductionHypothesis

end Query
end Telescope
