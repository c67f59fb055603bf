import Telescope.Otel.Exposition

namespace Telescope
namespace Exposition

/-!
# Exposed metrics are read back

What is written of lines is read as the same lines, whatever the label values are.  Names are
names of the format, and values are tokens without blanks.
-/

/-! ## Label values -/

variable {unit : Text.CodeUnit}

theorem readValue_of_ordinary (notQuote : unit ≠ QUOTE) (notBackslash : unit ≠ BACKSLASH) (rest : Units) :
    readValue (unit :: rest) = (readValue rest).map fun read => (unit :: read.1, read.2) := by
  rw [readValue.eq_def]
  dsimp only
  rw [if_neg notQuote, if_neg notBackslash]

theorem readValue_of_escaped {letter : Text.CodeUnit} (unescapes : unescape letter = some unit) (rest : Units) :
    readValue (BACKSLASH :: letter :: rest) = (readValue rest).map fun read => (unit :: read.1, read.2) := by
  rw [readValue, if_neg (by decide), if_pos rfl, unescapes]
  rfl

theorem readValue_escapeUnit (unit : Text.CodeUnit) (rest : Units) :
    readValue (escapeUnit unit ++ rest) = (readValue rest).map fun read => (unit :: read.1, read.2) := by
  rw [escapeUnit]
  by_cases isBackslash : unit = BACKSLASH
  · rw [if_pos isBackslash, isBackslash]
    exact readValue_of_escaped rfl rest
  · rw [if_neg isBackslash]
    by_cases isQuote : unit = QUOTE
    · rw [if_pos isQuote, isQuote]
      exact readValue_of_escaped rfl rest
    · rw [if_neg isQuote]
      by_cases isBreak : unit = LINE_BREAK
      · rw [if_pos isBreak, isBreak]
        exact readValue_of_escaped rfl rest
      · rw [if_neg isBreak]
        exact readValue_of_ordinary isQuote isBackslash rest

/-- An escaped value is read up to its quote. -/
theorem readValue_escape (value rest : Units) :
    readValue (value.flatMap escapeUnit ++ QUOTE :: rest) = some (value, rest) := by
  induction value with
  | nil =>
      rw [List.flatMap_nil, List.nil_append, readValue.eq_def]
      exact if_pos rfl
  | cons unit value inductionHypothesis =>
      rw [List.flatMap_cons, List.append_assoc, readValue_escapeUnit, inductionHypothesis]
      rfl

/-! ## Names -/

/-- The name is followed by nothing that could belong to it. -/
def Ends (accepts : Text.CodeUnit -> Bool) (rest : Units) : Prop := forall unit, rest.head? = some unit -> accepts unit = false

variable {accepts : Text.CodeUnit -> Bool}

theorem all_of_isName {name : Units} (isName : isName accepts name = true) :
    forall unit, unit ∈ name -> accepts unit = true := by
  cases name with
  | nil => cases isName
  | cons first rest =>
      rw [Exposition.isName, Bool.and_eq_true, Bool.and_eq_true] at isName
      exact List.forall_mem_cons.mpr ⟨isName.1.1, List.all_eq_true.mp isName.2⟩

theorem readName_append {name rest : Units} (isName : isName accepts name = true) (ends : Ends accepts rest) :
    readName accepts (name ++ rest) = some (name, rest) := by
  have all := all_of_isName isName
  have taken : rest.takeWhile accepts = [] ∧ rest.dropWhile accepts = rest := by
    cases rest with
    | nil => exact ⟨rfl, rfl⟩
    | cons unit rest => rw [List.takeWhile_cons, List.dropWhile_cons, ends unit rfl]; exact ⟨rfl, rfl⟩
  rw [readName, List.takeWhile_append_of_pos all, List.dropWhile_append_of_pos all, taken.1, taken.2, List.append_nil,
    if_pos isName]

theorem ends_cons (stops : accepts unit = false) (rest : Units) :
    Ends accepts (unit :: rest) := by
  intro other isOther
  rw [<- Option.some_inj.mp isOther]
  exact stops

/-! ## Labels -/

def NamedPairs (pairs : List (Units × Units)) : Prop := forall pair, pair ∈ pairs -> isName isLabelUnit pair.1 = true

theorem readPair_writePair {pair : Units × Units} (named : isName isLabelUnit pair.1 = true) (rest : Units) :
    readPair (writePair pair ++ rest) = some (pair, rest) := by
  have shape : writePair pair ++ rest = pair.1 ++ (EQUALS :: QUOTE :: (pair.2.flatMap escapeUnit ++ QUOTE :: rest)) := by
    rw [writePair]
    simp only [List.append_assoc, List.cons_append, List.nil_append]
  rw [readPair, shape, readName_append named (ends_cons (by decide) _), Option.bind_some]
  dsimp only
  rw [if_pos ⟨rfl, rfl⟩, readValue_escape]
  rfl

variable {pairs : List (Units × Units)}

theorem writePairs_cons (pair : Units × Units) (more : pairs ≠ []) :
    writePairs (pair :: pairs) = writePair pair ++ COMMA :: writePairs pairs := by
  cases pairs with
  | nil => exact (more rfl).elim
  | cons other pairs =>
      rw [writePairs, List.map_cons, List.map_cons, List.intercalate_cons_cons, writePairs, List.map_cons]
      rw [List.append_assoc]
      rfl

/-- Pairs are read up to the brace, with fuel for each. -/
theorem readPairs_writePairs (named : NamedPairs pairs) (some : pairs ≠ []) {fuel : Nat} (enough : pairs.length ≤ fuel)
    (rest : Units) :
    readPairs fuel (writePairs pairs ++ CLOSE :: rest) = .some (pairs, rest) := by
  induction pairs generalizing fuel with
  | nil => exact (some rfl).elim
  | cons pair pairs inductionHypothesis =>
      rw [NamedPairs, List.forall_mem_cons] at named
      cases fuel with
      | zero => cases enough
      | succ fuel =>
          by_cases more : pairs = []
          · rw [more, writePairs, List.map_cons, List.map_nil, List.intercalate_singleton, readPairs,
              readPair_writePair named.1, Option.bind_some]
            dsimp only
            rw [if_pos rfl]
          · rw [writePairs_cons pair more, List.append_assoc, readPairs, readPair_writePair named.1, Option.bind_some]
            dsimp only
            rw [List.cons_append]
            dsimp only
            rw [if_neg (by decide), if_pos rfl, inductionHypothesis named.2 more (Nat.le_of_succ_le_succ enough)]
            rfl

theorem length_le_writePairs (pairs : List (Units × Units)) : pairs.length ≤ (writePairs pairs).length := by
  induction pairs with
  | nil => exact Nat.zero_le _
  | cons pair pairs inductionHypothesis =>
      have pairLength : 1 ≤ (writePair pair).length := by
        rw [writePair, List.length_append, List.length_cons]
        omega
      by_cases more : pairs = []
      · rw [more, writePairs, List.map_cons, List.map_nil, List.intercalate_singleton]
        exact pairLength
      · rw [writePairs_cons pair more, List.length_append, List.length_cons, List.length_cons]
        omega

/-- Labels are read up to what follows them. -/
theorem readLabels_writeLabels {labels : List (Units × Units)} (named : NamedPairs labels) (value : Units) :
    readLabels (writeLabels labels ++ SPACE :: value) = some (labels, SPACE :: value) := by
  rw [writeLabels]
  by_cases none : labels = []
  · rw [if_pos none, none, List.nil_append, readLabels, if_neg (by decide)]
  · rw [if_neg none, List.cons_append, readLabels, if_pos rfl, List.append_assoc]
    refine readPairs_writePairs named none ?_ (SPACE :: value)
    rw [List.length_append]
    exact Nat.le_add_right_of_le (length_le_writePairs labels)

/-! ## Samples -/

/-- What stands at the end of a line. -/
structure IsToken (text : Units) : Prop where
  some : text ≠ []
  blanks : SPACE ∉ text
  breaks : LINE_BREAK ∉ text

structure Sample.WellFormed (sample : Sample) : Prop where
  name : isName isMetricUnit sample.name = true
  labels : NamedPairs sample.labels
  value : IsToken sample.value

theorem readSample_writeSample {sample : Sample} (wellFormed : sample.WellFormed) :
    readSample (writeSample sample) = some sample := by
  have shape : writeSample sample = sample.name ++ (writeLabels sample.labels ++ SPACE :: sample.value) :=
    List.append_assoc ..
  have ends : Ends isMetricUnit (writeLabels sample.labels ++ SPACE :: sample.value) := by
    rw [writeLabels]
    split
    · exact ends_cons (by decide) _
    · exact ends_cons (by decide) _
  rw [readSample, shape, readName_append wellFormed.name ends, Option.bind_some]
  dsimp only
  rw [readLabels_writeLabels wellFormed.labels, Option.bind_some]
  dsimp only
  rw [if_pos ⟨rfl, wellFormed.value.some, wellFormed.value.blanks⟩]

theorem not_mem_of_isName {name : Units} (isName : isName accepts name = true) (stops : accepts unit = false) :
    unit ∉ name := by
  intro member
  rw [all_of_isName isName unit member] at stops
  cases stops

theorem not_mem_escape (value : Units) : LINE_BREAK ∉ value.flatMap escapeUnit := by
  intro member
  rcases List.mem_flatMap.mp member with ⟨unit, _isUnit, within⟩
  rw [escapeUnit] at within
  split at within
  · exact absurd within (by decide)
  · split at within
    · exact absurd within (by decide)
    · split at within
      · exact absurd within (by decide)
      · rename_i notBreak
        exact notBreak (List.mem_singleton.mp within).symm

theorem not_mem_writePair {pair : Units × Units} (named : isName isLabelUnit pair.1 = true) :
    LINE_BREAK ∉ writePair pair := by
  rw [writePair]
  simp only [List.mem_append, List.mem_cons, not_or]
  exact ⟨not_mem_of_isName named (by decide), by decide, by decide, not_mem_escape pair.2, by decide, List.not_mem_nil⟩

theorem not_mem_writePairs (named : NamedPairs pairs) : LINE_BREAK ∉ writePairs pairs := by
  induction pairs with
  | nil => exact List.not_mem_nil
  | cons pair pairs inductionHypothesis =>
      rw [NamedPairs, List.forall_mem_cons] at named
      by_cases more : pairs = []
      · rw [more, writePairs, List.map_cons, List.map_nil, List.intercalate_singleton]
        exact not_mem_writePair named.1
      · rw [writePairs_cons pair more, List.mem_append, List.mem_cons, not_or, not_or]
        exact ⟨not_mem_writePair named.1, by decide, inductionHypothesis named.2⟩

theorem not_mem_writeSample {sample : Sample} (wellFormed : sample.WellFormed) : LINE_BREAK ∉ writeSample sample := by
  have labels : LINE_BREAK ∉ writeLabels sample.labels := by
    rw [writeLabels]
    split
    · exact List.not_mem_nil
    · rw [List.mem_cons, List.mem_append, not_or, not_or]
      exact ⟨by decide, not_mem_writePairs wellFormed.labels, by decide⟩
  rw [writeSample, List.mem_append, List.mem_append, List.mem_cons, not_or, not_or, not_or]
  exact ⟨⟨not_mem_of_isName wellFormed.name (by decide), labels⟩, by decide, wellFormed.value.breaks⟩

/-! ## Lines -/

def Line.WellFormed : Line -> Prop
  | .help name text => isName isMetricUnit name = true ∧ LINE_BREAK ∉ text
  | .type name kind => isName isMetricUnit name = true ∧ LINE_BREAK ∉ kind
  | .sample shown => shown.WellFormed

theorem readComment_writeComment (keyword : Units) {name : Units} (named : isName isMetricUnit name = true)
    (text : Units) : readComment keyword (writeComment keyword name text) = (name, text) := by
  rw [readComment, writeComment, List.append_assoc, List.drop_left,
    cutAt_append_cons (not_mem_of_isName named (by decide))]
  rfl

/-- A sample begins with a name, and a comment does not. -/
theorem not_comment {sample : Sample} (wellFormed : sample.WellFormed) (keyword : Units) :
    (HASH :: keyword).isPrefixOf (writeSample sample) = false := by
  rcases sample with ⟨name, labels, value⟩
  cases name with
  | nil => exact absurd wellFormed.name Bool.false_ne_true
  | cons first rest =>
      have notHash : HASH ≠ first := by
        intro isHash
        exact @not_mem_of_isName HASH _ _ wellFormed.name (by decide) (isHash ▸ List.mem_cons_self ..)
      change ((HASH == first) && keyword.isPrefixOf (rest ++ writeLabels labels ++ SPACE :: value)) = false
      rw [beq_eq_false_iff_ne.mpr notHash, Bool.false_and]

/-- Every line is read as what it was written of. -/
theorem readLine_writeLine {line : Line} (wellFormed : line.WellFormed) : readLine (writeLine line) = some line := by
  cases line with
  | help name text =>
      have isHelp : HELP.isPrefixOf (writeComment HELP name text) = true :=
        List.isPrefixOf_iff_prefix.mpr (by rw [writeComment, List.append_assoc]; exact List.prefix_append ..)
      rw [writeLine, readLine, if_pos isHelp]
      dsimp only
      rw [readComment_writeComment HELP wellFormed.1]
  | type name kind =>
      have notHelp : HELP.isPrefixOf (writeComment TYPE name kind) = false := rfl
      have isType : TYPE.isPrefixOf (writeComment TYPE name kind) = true :=
        List.isPrefixOf_iff_prefix.mpr (by rw [writeComment, List.append_assoc]; exact List.prefix_append ..)
      rw [writeLine, readLine, notHelp, if_neg Bool.false_ne_true, if_pos isType]
      dsimp only
      rw [readComment_writeComment TYPE wellFormed.1]
  | sample sample =>
      have notHelp : HELP.isPrefixOf (writeSample sample) = false := not_comment wellFormed _
      have notType : TYPE.isPrefixOf (writeSample sample) = false := not_comment wellFormed _
      rw [writeLine, readLine, notHelp, notType, if_neg Bool.false_ne_true, if_neg Bool.false_ne_true,
        readSample_writeSample wellFormed]
      rfl

theorem not_mem_writeLine {line : Line} (wellFormed : line.WellFormed) : LINE_BREAK ∉ writeLine line := by
  have comment : forall {keyword name text : Units}, LINE_BREAK ∉ keyword -> isName isMetricUnit name = true ->
      LINE_BREAK ∉ text -> LINE_BREAK ∉ writeComment keyword name text := by
    intro keyword name text plainKeyword named plainText
    rw [writeComment, List.mem_append, List.mem_append, List.mem_cons, not_or, not_or, not_or]
    exact ⟨⟨plainKeyword, not_mem_of_isName named (by decide)⟩, by decide, plainText⟩
  cases line with
  | help name text => exact comment (by decide) wellFormed.1 wellFormed.2
  | type name kind => exact comment (by decide) wellFormed.1 wellFormed.2
  | sample sample => exact not_mem_writeSample wellFormed

theorem splitOn_writeLines {lines : List Units} (plain : forall line, line ∈ lines -> LINE_BREAK ∉ line) :
    (writeLines lines).splitOn LINE_BREAK = lines ++ [[]] := by
  induction lines with
  | nil => exact List.splitOn_nil LINE_BREAK
  | cons line lines inductionHypothesis =>
      rw [List.forall_mem_cons] at plain
      have shape : writeLines (line :: lines) = line ++ LINE_BREAK :: writeLines lines := by
        rw [writeLines, List.flatMap_cons, List.append_assoc]
        rfl
      rw [shape, List.splitOn_append_cons_self_of_not_mem plain.1, inductionHypothesis plain.2]
      rfl

theorem readLines_writeLines {lines : List Units} (plain : forall line, line ∈ lines -> LINE_BREAK ∉ line) :
    readLines (writeLines lines) = some lines := by
  rw [readLines, splitOn_writeLines plain, List.getLast?_concat, if_pos rfl, List.dropLast_concat]

theorem mapM_readLine {lines : List Line} (wellFormed : forall line, line ∈ lines -> line.WellFormed) :
    (lines.map writeLine).mapM readLine = some lines := by
  induction lines with
  | nil => rfl
  | cons line lines inductionHypothesis =>
      rw [List.forall_mem_cons] at wellFormed
      rw [List.map_cons, List.mapM_cons, readLine_writeLine wellFormed.1, inductionHypothesis wellFormed.2]
      rfl

/-- What is written of lines is read as the same lines. -/
theorem read_write {lines : List Line} (wellFormed : forall line, line ∈ lines -> line.WellFormed) :
    read (write lines) = some lines := by
  have plain : forall line, line ∈ lines.map writeLine -> LINE_BREAK ∉ line := by
    intro line member
    rcases List.mem_map.mp member with ⟨entry, isEntry, rfl⟩
    exact not_mem_writeLine (wellFormed entry isEntry)
  rw [read, write, readLines_writeLines plain, Option.bind_some, mapM_readLine wellFormed]

end Exposition
end Telescope
