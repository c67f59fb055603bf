import Telescope.Core.Value
import Telescope.Foundation.Fnv
import Telescope.Foundation.Spacing

namespace Telescope
namespace Query

/-!
# The family of a query

Queries of one template share a family: the statement is put into lower case, its string
and number literals are replaced by `?`, its white space is collapsed, and the rest is
hashed.  A statement is the list of its code points.  Lower case is Unicode's, with the
tables as a parameter: a code point has its own lower case, but the capital sigma looks
at the letters around it.
-/

abbrev CodePoint := Fin 1114112

instance codePoints_nonempty : NeZero 1114112 := ⟨by decide⟩

abbrev Sql := List CodePoint

def codePoints (literal : String) : Sql := literal.toList.map fun character => Fin.ofNat 1114112 character.toNat

def QUOTE : CodePoint := 39

def DOT : CodePoint := 46

def QUESTION : CodePoint := 63

/-- `\d`. -/
def isDigit (point : CodePoint) : Bool := decide (48 ≤ point.val ∧ point.val ≤ 57)

/-- `\w`. -/
def isWord (point : CodePoint) : Bool :=
  isDigit point || decide (65 ≤ point.val ∧ point.val ≤ 90 ∨ 97 ≤ point.val ∧ point.val ≤ 122 ∨ point.val = 95)

/-- `\s`. -/
def isSpace (point : CodePoint) : Bool :=
  if small : point.val < 65536 then Units.isSpace ⟨point.val, small⟩ else false

/-! ## Lower case -/

def SIGMA : CodePoint := 931

def SMALL_SIGMA : CodePoint := 963

def FINAL_SIGMA : CodePoint := 962

/-- The tables of Unicode: the lower case of a code point, and what the rule of the
final sigma asks of its neighbours. -/
structure CaseTable where
  lower : CodePoint -> Sql
  isCased : CodePoint -> Bool
  isIgnorable : CodePoint -> Bool
  nonempty : forall point, lower point ≠ []
  stable : forall point, point ≠ SIGMA -> forall result, result ∈ lower point ->
    result ≠ SIGMA ∧ lower result = [result]
  ascii : forall point : CodePoint, point.val < 128 ->
    lower point = [if 65 ≤ point.val ∧ point.val ≤ 90 then point + 32 else point]
  quote_lower : forall point, QUOTE ∈ lower point -> point = QUOTE
  small_sigma : lower SMALL_SIGMA = [SMALL_SIGMA]
  final_sigma : lower FINAL_SIGMA = [FINAL_SIGMA]
  sigma_cased : isCased SIGMA = true
  letter_cased : forall point : CodePoint, 97 ≤ point.val ∧ point.val ≤ 122 -> isCased point = true
  digit_plain : forall point, isDigit point = true -> isCased point = false ∧ isIgnorable point = false
  quote_ignorable : isCased QUOTE = false ∧ isIgnorable QUOTE = true

variable (table : CaseTable)

/-- A cased letter stands here, or behind characters that are ignored. -/
def reachesCased : Sql -> Bool
  | [] => false
  | point :: rest => table.isCased point || (table.isIgnorable point && reachesCased rest)

/-- The lower case of a code point between what stands before it, in reverse, and behind
it. -/
def lowerAt (before : Sql) (point : CodePoint) (rest : Sql) : Sql :=
  if point = SIGMA then
    if reachesCased table before && !reachesCased table rest then [FINAL_SIGMA] else [SMALL_SIGMA]
  else table.lower point

def lowerFrom (before : Sql) : Sql -> Sql
  | [] => []
  | point :: rest => lowerAt table before point rest ++ lowerFrom (point :: before) rest

def toLowerCase (sql : Sql) : Sql := lowerFrom table [] sql

/-! ## String literals -/

/-- The rest behind a match of `(?:[^']|'')*'`: it takes doubled quotes as long as the
match can still end, and falls back to the last of them that ends it. -/
def closing : Sql -> Option Sql
  | [] => none
  | [point] => if point = QUOTE then some [] else none
  | point :: next :: rest =>
      if point = QUOTE then
        if next = QUOTE then (closing rest).orElse fun _unclosed => some (next :: rest)
        else some (next :: rest)
      else closing (next :: rest)

theorem length_closing {text rest : Sql} (found : closing text = some rest) : rest.length < text.length := by
  induction text using closing.induct generalizing rest with
  | case1 => cases found
  | case2 =>
      cases found
      exact Nat.one_pos
  | case3 point isPlain =>
      rw [closing, if_neg isPlain] at found
      cases found
  | case4 more inductionHypothesis =>
      rw [closing, if_pos rfl, if_pos rfl] at found
      cases later : closing more with
      | none =>
          rw [later] at found
          cases found
          exact Nat.lt_succ_self _
      | some tail =>
          rw [later] at found
          cases found
          exact (inductionHypothesis later).trans (Nat.lt_succ_of_lt (Nat.lt_succ_self _))
  | case5 next more isSingle =>
      rw [closing, if_pos rfl, if_neg isSingle] at found
      cases found
      exact Nat.lt_succ_self _
  | case6 point next more isPlain inductionHypothesis =>
      rw [closing, if_neg isPlain] at found
      exact (inductionHypothesis found).trans (Nat.lt_succ_self _)

/-- `text.replace(/'(?:[^']|'')*'/g, '?')`. -/
def replaceStrings : Sql -> Sql
  | [] => []
  | point :: rest =>
      if point = QUOTE then
        match _found : closing rest with
        | some tail => QUESTION :: replaceStrings tail
        | none => point :: replaceStrings rest
      else point :: replaceStrings rest
termination_by text => text.length
decreasing_by
  · exact (length_closing _found).trans (Nat.lt_succ_self _)
  · exact Nat.lt_succ_self _
  · exact Nat.lt_succ_self _

/-! ## Number literals -/

def startsWith (test : CodePoint -> Bool) (text : Sql) : Bool := text.head?.any test

/-- The word boundary behind a digit. -/
def atBoundary (text : Sql) : Bool := !startsWith isWord text

/-- The rest behind a match of `\.\d+`. -/
def decimals : Sql -> Option Sql
  | [] => none
  | point :: rest => if point = DOT ∧ startsWith isDigit rest = true then some (rest.dropWhile isDigit) else none

/-- The rest behind a match of `\d*(?:\.\d+)?\b` that follows a digit.  Giving digits
back does not help, as none of them stands before a word boundary. -/
def numberEnd (text : Sql) : Option Sql :=
  let whole := text.dropWhile isDigit
  ((decimals whole).filter atBoundary).orElse fun _noFraction => if atBoundary whole then some whole else none

theorem length_numberEnd {text rest : Sql} (found : numberEnd text = some rest) : rest.length ≤ text.length := by
  have whole : (text.dropWhile isDigit).length ≤ text.length := (List.dropWhile_sublist _).length_le
  rw [numberEnd] at found
  cases fraction : (decimals (text.dropWhile isDigit)).filter atBoundary with
  | none =>
      rw [fraction] at found
      change (if atBoundary (text.dropWhile isDigit) then _ else _) = _ at found
      split at found
      · cases found
        exact whole
      · cases found
  | some tail =>
      rw [fraction] at found
      cases found
      refine le_trans ?_ whole
      have isDecimal := (Option.filter_eq_some_iff.mp fraction).1
      generalize text.dropWhile isDigit = behind at isDecimal
      cases behind with
      | nil => cases isDecimal
      | cons point more =>
          rw [decimals] at isDecimal
          split at isDecimal
          · cases isDecimal
            exact (List.dropWhile_sublist _).length_le.trans (Nat.le_succ _)
          · cases isDecimal

/-- `text.replace(/\b\d+(?:\.\d+)?\b/g, '?')`, behind a word character or not. -/
def replaceNumbers (behindWord : Bool) : Sql -> Sql
  | [] => []
  | point :: rest =>
      if behindWord = false ∧ isDigit point = true then
        match _found : numberEnd rest with
        | some tail => QUESTION :: replaceNumbers true tail
        | none => point :: replaceNumbers (isWord point) rest
      else point :: replaceNumbers (isWord point) rest
termination_by text => text.length
decreasing_by
  · exact Nat.lt_succ_of_le (length_numberEnd _found)
  · exact Nat.lt_succ_self _
  · exact Nat.lt_succ_self _

/-! ## The template and its hash -/

/-- `text.replace(/\?/g, '?')`. -/
def replacePlaceholders (text : Sql) : Sql := text.map fun point => if point = QUESTION then QUESTION else point

/-- The template of a statement. -/
def normalizeSql (sql : Sql) : Sql :=
  Spacing.trim isSpace (Spacing.collapse isSpace 32
    (replacePlaceholders (replaceNumbers false (replaceStrings (toLowerCase table sql)))))

/-- The UTF-16 code units of a code point. -/
def codeUnits (point : CodePoint) : Units :=
  if small : point.val < 65536 then [⟨point.val, small⟩]
  else [Fin.ofNat 65536 (55296 + (point.val - 65536) / 1024), Fin.ofNat 65536 (56320 + (point.val - 65536) % 1024)]

/-- The hash in eight hexadecimal digits. -/
def fnv1a (input : Units) : Text := Fnv.text (Fnv.hash (input.map Fin.val))

def queryFamilyHash (sql : Sql) : Text := fnv1a ((normalizeSql table sql).flatMap codeUnits)

end Query
end Telescope

namespace Telescope
namespace Query

/-!
# The literals of a statement

Where the literals of a statement are, by the lexical rules of SQL: a string literal is
quoted, with doubled quotes inside, a number is a run of digits with an optional
fraction, and neither stands in a comment or in a quoted identifier.  Nothing here is
taken from the normaliser.
-/

/-! ## Lexical structure -/

/-- What a lexer is in the middle of. -/
inductive Mode
  | code
  | dash
  | slash
  | string
  | stringQuote
  | identifier
  | lineComment
  | blockComment
  | blockStar
  deriving DecidableEq

namespace Mode

/-- A character of code. -/
def ofCode (point : CodePoint) : Mode :=
  if point = QUOTE then .string
  else if point = 34 then .identifier
  else if point = 45 then .dash
  else if point = 47 then .slash
  else .code

/-- Two dashes begin a comment that ends with the line, `/*` one that ends with `*/`.  A
quote in a string ends it unless it is doubled. -/
def step : Mode -> CodePoint -> Mode
  | .code, point => ofCode point
  | .dash, point => if point = 45 then .lineComment else ofCode point
  | .slash, point => if point = 42 then .blockComment else ofCode point
  | .string, point => if point = QUOTE then .stringQuote else .string
  | .stringQuote, point => if point = QUOTE then .string else ofCode point
  | .identifier, point => if point = 34 then .code else .identifier
  | .lineComment, point => if point = 10 then .code else .lineComment
  | .blockComment, point => if point = 42 then .blockStar else .blockComment
  | .blockStar, point =>
      if point = 47 then .code else if point = 42 then .blockStar else .blockComment

/-- The mode behind a text. -/
def behind (text : Sql) : Mode := text.foldl step .code

/-- A token of code can begin here. -/
def IsCode (mode : Mode) : Prop := mode = .code ∨ mode = .dash ∨ mode = .slash

end Mode

/-- A character that identifiers are written with. -/
def isIdentifier (point : CodePoint) : Bool := isWord point || decide (128 ≤ point.val)

/-- Neither an identifier nor a number goes on through the character. -/
def Separates (point : CodePoint) : Prop := isIdentifier point = false ∧ point ≠ DOT

/-! ## Literals -/

/-- The content of a string literal, with its quotes doubled. -/
inductive IsQuoted : Sql -> Prop
  | nil : IsQuoted []
  | plain (point : CodePoint) (rest : Sql) : point ≠ QUOTE -> IsQuoted rest -> IsQuoted (point :: rest)
  | doubled (rest : Sql) : IsQuoted rest -> IsQuoted (QUOTE :: QUOTE :: rest)

/-- A run of digits. -/
structure Digits where
  text : Sql
  filled : text ≠ []
  digits : forall point, point ∈ text -> isDigit point = true

/-- A quoted string, or an integer or decimal number. -/
inductive Literal
  | quoted (content : Sql) (isQuoted : IsQuoted content)
  | integer (whole : Digits)
  | decimal (whole fraction : Digits)

namespace Literal

def text : Literal -> Sql
  | .quoted content _isQuoted => QUOTE :: (content ++ [QUOTE])
  | .integer whole => whole.text
  | .decimal whole fraction => whole.text ++ DOT :: fraction.text

def isNumber : Literal -> Bool
  | .quoted _content _isQuoted => false
  | _ => true

end Literal

/-- A literal of a statement: it begins in code and goes on as far as it can. -/
structure Occurrence where
  before : Sql
  literal : Literal
  after : Sql
  inCode : (Mode.behind before).IsCode ∨ literal.isNumber = true ∧ Mode.behind before = .stringQuote
  ends : literal.isNumber = false -> after.head? ≠ some QUOTE
  separated : literal.isNumber = true ->
    (forall point, before.getLast? = some point -> Separates point) ∧
      forall point, after.head? = some point -> Separates point

namespace Occurrence

/-- The statement with another literal in place of this one. -/
def replace (occurrence : Occurrence) (literal : Literal) : Sql :=
  occurrence.before ++ (literal.text ++ occurrence.after)

def statement (occurrence : Occurrence) : Sql := occurrence.replace occurrence.literal

end Occurrence

/-- Every literal of the same kind in this place leaves the family as it is. -/
def KeepsFamily (table : CaseTable) (occurrence : Occurrence) : Prop :=
  forall literal, literal.isNumber = occurrence.literal.isNumber ->
    queryFamilyHash table (occurrence.replace literal) = queryFamilyHash table occurrence.statement

/-! ## Facts about the lexical structure -/

theorem behind_append_singleton (text : Sql) (point : CodePoint) :
    Mode.behind (text ++ [point]) = (Mode.behind text).step point := by
  rw [Mode.behind, List.foldl_append, Mode.behind]
  rfl

/-- Code does not go on behind a quote. -/
theorem not_isCode_behind_quote (text : Sql) : ¬ (Mode.behind (text ++ [QUOTE])).IsCode := by
  rw [behind_append_singleton]
  generalize Mode.behind text = mode
  rintro (isCode | isDash | isSlash)
  · cases mode <;> cases isCode
  · cases mode <;> cases isDash
  · cases mode <;> cases isSlash

end Query
end Telescope
