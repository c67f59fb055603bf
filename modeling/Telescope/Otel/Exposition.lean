import Telescope.Core.Value
import Telescope.Foundation.Cut

namespace Telescope
namespace Exposition

/-!
# The text exposition format

Metrics are shown line by line.  Two comments tell the help and the type of a metric, and its
samples follow: a name, labels in braces and a value.  Label values may hold anything; a
backslash, a quote and a line break are escaped in them.
-/

/-! ## The grammar -/

def LINE_BREAK : Text.CodeUnit := 10
def SPACE : Text.CodeUnit := 32
def QUOTE : Text.CodeUnit := 34
def HASH : Text.CodeUnit := 35
def COMMA : Text.CodeUnit := 44
def COLON : Text.CodeUnit := 58
def EQUALS : Text.CodeUnit := 61
def BACKSLASH : Text.CodeUnit := 92
def LETTER_N : Text.CodeUnit := 110
def OPEN : Text.CodeUnit := 123
def CLOSE : Text.CodeUnit := 125

/-- A letter or an underscore. -/
def isLetter (unit : Text.CodeUnit) : Bool :=
  decide (65 ≤ unit.val ∧ unit.val ≤ 90) || decide (97 ≤ unit.val ∧ unit.val ≤ 122) || decide (unit.val = 95)

def isDigit (unit : Text.CodeUnit) : Bool := decide (48 ≤ unit.val ∧ unit.val ≤ 57)

/-- Label names are made of these. -/
def isLabelUnit (unit : Text.CodeUnit) : Bool := isLetter unit || isDigit unit

/-- Metric names may have colons too. -/
def isMetricUnit (unit : Text.CodeUnit) : Bool := isLabelUnit unit || decide (unit = COLON)

/-- A name begins with no digit. -/
def isName (accepts : Text.CodeUnit -> Bool) : Units -> Bool
  | [] => false
  | first :: rest => accepts first && !isDigit first && rest.all accepts

structure Sample where
  name : Units
  labels : List (Units × Units)
  value : Units
  deriving DecidableEq

inductive Line
  | help (name text : Units)
  | type (name kind : Units)
  | sample (sample : Sample)
  deriving DecidableEq

/-! ## Writing -/

def escapeUnit (unit : Text.CodeUnit) : Units :=
  if unit = BACKSLASH then [BACKSLASH, BACKSLASH]
  else if unit = QUOTE then [BACKSLASH, QUOTE]
  else if unit = LINE_BREAK then [BACKSLASH, LETTER_N]
  else [unit]

def writePair (pair : Units × Units) : Units :=
  pair.1 ++ EQUALS :: QUOTE :: (pair.2.flatMap escapeUnit ++ [QUOTE])

def writePairs (pairs : List (Units × Units)) : Units := List.intercalate [COMMA] (pairs.map writePair)

/-- Without labels there are no braces. -/
def writeLabels (labels : List (Units × Units)) : Units :=
  if labels = [] then [] else OPEN :: (writePairs labels ++ [CLOSE])

def writeSample (sample : Sample) : Units := sample.name ++ writeLabels sample.labels ++ SPACE :: sample.value

def writeComment (keyword name text : Units) : Units := keyword ++ name ++ SPACE :: text

def HELP : Units := units "# HELP "
def TYPE : Units := units "# TYPE "

def writeLine : Line -> Units
  | .help name text => writeComment HELP name text
  | .type name kind => writeComment TYPE name kind
  | .sample sample => writeSample sample

def writeLines (lines : List Units) : Units := lines.flatMap fun line => line ++ [LINE_BREAK]

def write (lines : List Line) : Units := writeLines (lines.map writeLine)

/-! ## Reading -/

/-- What stands behind a backslash. -/
def unescape (letter : Text.CodeUnit) : Option Text.CodeUnit :=
  if letter = BACKSLASH then some BACKSLASH
  else if letter = QUOTE then some QUOTE
  else if letter = LETTER_N then some LINE_BREAK
  else none

/-- A label value up to its closing quote, and what follows that. -/
def readValue : Units -> Option (Units × Units)
  | [] => none
  | unit :: rest =>
      if unit = QUOTE then some ([], rest)
      else if unit = BACKSLASH then
        match rest with
        | [] => none
        | letter :: rest =>
            (unescape letter).bind fun unit => (readValue rest).map fun read => (unit :: read.1, read.2)
      else (readValue rest).map fun read => (unit :: read.1, read.2)

/-- A name and what follows it. -/
def readName (accepts : Text.CodeUnit -> Bool) (text : Units) : Option (Units × Units) :=
  if isName accepts (text.takeWhile accepts) then some (text.takeWhile accepts, text.dropWhile accepts) else none

def readPair (text : Units) : Option ((Units × Units) × Units) :=
  (readName isLabelUnit text).bind fun name =>
    match name.2 with
    | equals :: quote :: rest =>
        if equals = EQUALS ∧ quote = QUOTE then (readValue rest).map fun value => ((name.1, value.1), value.2) else none
    | _ => none

/-- Pairs up to the closing brace.  There are fewer pairs than units. -/
def readPairs : Nat -> Units -> Option (List (Units × Units) × Units)
  | 0, _text => none
  | fuel + 1, text =>
      (readPair text).bind fun pair =>
        match pair.2 with
        | [] => none
        | unit :: rest =>
            if unit = CLOSE then some ([pair.1], rest)
            else if unit = COMMA then (readPairs fuel rest).map fun pairs => (pair.1 :: pairs.1, pairs.2)
            else none

def readLabels (text : Units) : Option (List (Units × Units) × Units) :=
  match text with
  | [] => some ([], [])
  | unit :: rest => if unit = OPEN then readPairs rest.length rest else some ([], unit :: rest)

/-- A value is no longer than up to a blank. -/
def readSample (line : Units) : Option Sample :=
  (readName isMetricUnit line).bind fun name =>
    (readLabels name.2).bind fun labels =>
      match labels.2 with
      | [] => none
      | unit :: value =>
          if unit = SPACE ∧ value ≠ [] ∧ SPACE ∉ value then some ⟨name.1, labels.1, value⟩ else none

/-- The name and the text behind the keyword of a comment. -/
def readComment (keyword line : Units) : Units × Units :=
  let parts := cutAt SPACE (line.drop keyword.length)
  (parts.1, parts.2.getD [])

def readLine (line : Units) : Option Line :=
  if HELP.isPrefixOf line then
    let comment := readComment HELP line
    some (.help comment.1 comment.2)
  else if TYPE.isPrefixOf line then
    let comment := readComment TYPE line
    some (.type comment.1 comment.2)
  else (readSample line).map Line.sample

/-- The lines of a text that ends each of them. -/
def readLines (text : Units) : Option (List Units) :=
  let cells := text.splitOn LINE_BREAK
  if cells.getLast? = some [] then some cells.dropLast else none

def read (text : Units) : Option (List Line) := (readLines text).bind fun lines => lines.mapM readLine

end Exposition
end Telescope
