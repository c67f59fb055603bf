import Telescope.Core.Value
import Telescope.Foundation.Cut
import Telescope.Foundation.Spacing

namespace Telescope
namespace ExceptionFamily

/-!
# Families of exceptions

The family of an exception is its name, its message and the line of its stack that is
taken for the first frame, joined by colons.  The stack begins with a header that holds
the message, so that a line of the message may be taken for the frame; and all three
parts may hold colons themselves.
-/

/-! ## The hash -/

structure ExceptionFamilyParts where
  name : Units
  message : Units
  stack : Option Units

def LINE_BREAK : Text.CodeUnit := 10

def COLON : Text.CodeUnit := 58

/-- `line.startsWith('at ') || line.includes('@')` -/
def looksLikeFrame (line : Units) : Bool := (units "at ").isPrefixOf line || decide (64 ∈ line)

/-- `text.split('\n')`, each line trimmed. -/
def trimmedLines (text : Units) : List Units := (text.splitOn LINE_BREAK).map (Spacing.trim Units.isSpace)

def topStackFrame (stack : Option Units) : Units :=
  match stack with
  | none => []
  | some stack => ((trimmedLines stack).find? looksLikeFrame).getD []

def exceptionFamilyHash (parts : ExceptionFamilyParts) : Units :=
  parts.name ++ COLON :: (parts.message ++ COLON :: topStackFrame parts.stack)

/-! ## Stacks -/

/-- What follows `at` in a line of a stack. -/
structure Frame where
  location : Units
  oneLine : LINE_BREAK ∉ location
  notEmpty : location ≠ []
  /-- No white space stands at its end. -/
  ended : Units.isSpace (location.getLast notEmpty) = false

namespace Frame

def text (frame : Frame) : Units := units "at " ++ frame.location

/-- The line with its indentation. -/
def line (frame : Frame) : Units := units "    " ++ frame.text

end Frame

/-- An exception with its frames, the first one first. -/
structure Thrown where
  name : Units
  message : Units
  frames : List Frame

namespace Thrown

/-- The stack under a header that shows the name and the message. -/
def stack (header : Units -> Units -> Units) (thrown : Thrown) : Units :=
  header thrown.name thrown.message ++ thrown.frames.flatMap fun frame => LINE_BREAK :: frame.line

def parts (header : Units -> Units -> Units) (thrown : Thrown) : ExceptionFamilyParts where
  name := thrown.name
  message := thrown.message
  stack := some (thrown.stack header)

end Thrown

/-- `Name: message`; an empty part is left out. -/
def v8Header (name message : Units) : Units :=
  if message.isEmpty then name else if name.isEmpty then message else name ++ units ": " ++ message

/-! ## The line that is taken for the first frame -/

theorem Frame.trim_line (frame : Frame) : Spacing.trim Units.isSpace frame.line = frame.text := by
  have indented : frame.line.dropWhile Units.isSpace = frame.text := rfl
  rw [Spacing.trim, indented]
  refine List.rdropWhile_eq_self_iff.mpr fun notEmpty space => ?_
  have last : frame.text.getLast notEmpty = frame.location.getLast frame.notEmpty :=
    List.getLast_append_of_ne_nil notEmpty frame.notEmpty
  rw [last, frame.ended] at space
  cases space

theorem Frame.looksLikeFrame_text (frame : Frame) : looksLikeFrame frame.text = true := by
  have begins : (units "at ").isPrefixOf frame.text = true := List.isPrefixOf_iff_prefix.mpr ⟨frame.location, rfl⟩
  rw [looksLikeFrame, begins, Bool.true_or]

theorem Frame.lineBreak_not_mem_line (frame : Frame) : LINE_BREAK ∉ frame.line := by
  intro member
  rw [Frame.line, Frame.text, List.mem_append, List.mem_append] at member
  rcases member with inIndent | inAt | inLocation
  · exact absurd inIndent (by decide)
  · exact absurd inAt (by decide)
  · exact frame.oneLine inLocation

theorem splitOn_stack (header : Units) (frames : List Frame) :
    (header ++ frames.flatMap fun frame => LINE_BREAK :: frame.line).splitOn LINE_BREAK =
      header.splitOn LINE_BREAK ++ frames.map Frame.line := by
  induction frames generalizing header with
  | nil => rw [List.flatMap_nil, List.append_nil, List.map_nil, List.append_nil]
  | cons frame frames inductionHypothesis =>
      rw [List.flatMap_cons, List.cons_append, List.splitOn_append_cons_self, inductionHypothesis,
        List.splitOn_eq_singleton frame.lineBreak_not_mem_line, List.map_cons, List.singleton_append]

/-- A line of the header comes first, and then the first frame. -/
theorem topStackFrame_stack (header : Units -> Units -> Units) (thrown : Thrown) :
    topStackFrame (some (thrown.stack header)) =
      (((trimmedLines (header thrown.name thrown.message)).find? looksLikeFrame).or
        (thrown.frames.head?.map Frame.text)).getD [] := by
  rw [topStackFrame, trimmedLines, Thrown.stack, splitOn_stack, List.map_append, List.find?_append, List.map_map,
    <- trimmedLines]
  cases thrown.frames with
  | nil => rfl
  | cons frame frames =>
      have first : ((frame :: frames).map (Spacing.trim Units.isSpace ∘ Frame.line)).find? looksLikeFrame =
          some frame.text := by
        rw [List.map_cons, Function.comp_apply, frame.trim_line, List.find?_cons, frame.looksLikeFrame_text]
      rw [first]
      rfl

/-! ## Identity of families -/

variable {header : Units -> Units -> Units} {first second : Thrown}

/-- Name, message and first frame agree. -/
def SameOrigin (first second : Thrown) : Prop :=
  first.name = second.name ∧ first.message = second.message ∧
    first.frames.head? = second.frames.head?

/-- A line of the message is taken for the frame of both, and their first frames differ. -/
structure Masked (header : Units -> Units -> Units) (first second : Thrown) : Prop where
  name : first.name = second.name
  message : first.message = second.message
  line : (trimmedLines (header first.name first.message)).any looksLikeFrame = true
  frame : first.frames.head? ≠ second.frames.head?

/-- The line of the header that looks like a frame, else the first frame. -/
def shownFrame (header : Units -> Units -> Units) (thrown : Thrown) : Units :=
  (((trimmedLines (header thrown.name thrown.message)).find? looksLikeFrame).or
    (thrown.frames.head?.map Frame.text)).getD []

/-- The texts between the colons of name, message and frame. -/
def cells (header : Units -> Units -> Units) (thrown : Thrown) : List Units :=
  thrown.name.splitOn COLON ++ (thrown.message.splitOn COLON ++ (shownFrame header thrown).splitOn COLON)

/-- The same texts stand between the colons, and fall otherwise on names and messages. -/
structure Regrouped (header : Units -> Units -> Units) (first second : Thrown) : Prop where
  cells : cells header first = cells header second
  groups : first.name.count COLON ≠ second.name.count COLON ∨ first.message.count COLON ≠ second.message.count COLON

theorem hash_eq_iff_cells :
    exceptionFamilyHash (first.parts header) = exceptionFamilyHash (second.parts header) <->
      cells header first = cells header second := by
  rw [exceptionFamilyHash, exceptionFamilyHash]
  dsimp only [Thrown.parts]
  rw [topStackFrame_stack, topStackFrame_stack, append_cons_eq_iff, List.splitOn_append_cons_self,
    List.splitOn_append_cons_self]
  rfl

/-- Equal hashes with equally many colons in the parts have equal parts. -/
theorem parts_of_cells (same : cells header first = cells header second)
    (names : first.name.count COLON = second.name.count COLON)
    (messages : first.message.count COLON = second.message.count COLON) :
    first.name = second.name ∧ first.message = second.message ∧ shownFrame header first = shownFrame header second := by
  have nameLengths : (first.name.splitOn COLON).length = (second.name.splitOn COLON).length := by
    rw [Cut.length_splitOn, Cut.length_splitOn, names]
  have messageLengths : (first.message.splitOn COLON).length = (second.message.splitOn COLON).length := by
    rw [Cut.length_splitOn, Cut.length_splitOn, messages]
  rcases List.append_inj same nameLengths with ⟨nameCells, rest⟩
  rcases List.append_inj rest messageLengths with ⟨messageCells, frameCells⟩
  exact ⟨splitOn_inj nameCells, splitOn_inj messageCells, splitOn_inj frameCells⟩

theorem shownFrame_of_ordinary {thrown : Thrown}
    (ordinary : (trimmedLines (header thrown.name thrown.message)).any looksLikeFrame = false) :
    shownFrame header thrown = (thrown.frames.head?.map Frame.text).getD [] := by
  have absent : (trimmedLines (header thrown.name thrown.message)).find? looksLikeFrame = none := by
    rw [List.find?_eq_none]
    exact List.any_eq_false.mp ordinary
  rw [shownFrame, absent, Option.none_or]

theorem shownFrame_of_line (name : first.name = second.name) (message : first.message = second.message)
    (line : (trimmedLines (header first.name first.message)).any looksLikeFrame = true) :
    shownFrame header first = shownFrame header second := by
  rcases List.any_eq_true.mp line with ⟨text, member, looks⟩
  have found : ((trimmedLines (header first.name first.message)).find? looksLikeFrame).isSome = true :=
    List.find?_isSome.mpr ⟨text, member, looks⟩
  rcases Option.isSome_iff_exists.mp found with ⟨shown, isShown⟩
  rw [shownFrame, shownFrame, <- name, <- message, isShown, Option.some_or, Option.some_or]

/-- The line of the first frame shows which one it is, and that there is one. -/
theorem head?_of_text (same : (first.frames.head?.map Frame.text).getD [] = (second.frames.head?.map Frame.text).getD []) :
    first.frames.head? = second.frames.head? := by
  have notEmpty (frame : Frame) : frame.text ≠ [] := List.append_ne_nil_of_left_ne_nil (List.cons_ne_nil _ _) _
  cases isFirst : first.frames.head? with
  | none =>
      cases isSecond : second.frames.head? with
      | none => rfl
      | some frame =>
          rw [isFirst, isSecond] at same
          exact (notEmpty frame same.symm).elim
  | some frame =>
      cases isSecond : second.frames.head? with
      | none =>
          rw [isFirst, isSecond] at same
          exact (notEmpty frame same).elim
      | some other =>
          rw [isFirst, isSecond] at same
          have locations : frame.location = other.location := List.append_cancel_left same
          cases frame
          cases other
          cases locations
          rfl

theorem hash_eq_of_sameOrigin (same : SameOrigin first second) :
    exceptionFamilyHash (first.parts header) = exceptionFamilyHash (second.parts header) := by
  rw [hash_eq_iff_cells, cells, cells, shownFrame, shownFrame, same.1, same.2.1, same.2.2]

/-- Of unmasked exceptions the hash shows the origin, up to regrouping. -/
theorem sameOrigin_of_hash (same : exceptionFamilyHash (first.parts header) = exceptionFamilyHash (second.parts header))
    (notMasked : ¬ Masked header first second) (notRegrouped : ¬ Regrouped header first second) :
    SameOrigin first second := by
  have sameCells := hash_eq_iff_cells.mp same
  have counts : first.name.count COLON = second.name.count COLON ∧
      first.message.count COLON = second.message.count COLON := by
    by_contra differ
    exact notRegrouped ⟨sameCells, not_and_or.mp differ⟩
  rcases parts_of_cells sameCells counts.1 counts.2 with ⟨names, messages, shown⟩
  refine ⟨names, messages, ?_⟩
  by_contra frames
  cases line : (trimmedLines (header first.name first.message)).any looksLikeFrame with
  | true => exact notMasked ⟨names, messages, line, frames⟩
  | false =>
      have otherLine : (trimmedLines (header second.name second.message)).any looksLikeFrame = false := by
        rw [<- names, <- messages]
        exact line
      rw [shownFrame_of_ordinary line, shownFrame_of_ordinary otherLine] at shown
      exact frames (head?_of_text shown)

/-- The hashes of two exceptions agree just when their origins do, unless a line of the
message is taken for the frame of exceptions with different first frames, or the texts
between the colons fall otherwise on their parts. -/
theorem family_identity_iff (header : Units -> Units -> Units) (first second : Thrown) :
    (exceptionFamilyHash (first.parts header) = exceptionFamilyHash (second.parts header) <-> SameOrigin first second) <->
      ¬ Masked header first second ∧ ¬ Regrouped header first second := by
  constructor
  · intro exact
    refine ⟨fun masked => ?_, fun regrouped => ?_⟩
    · have shown := shownFrame_of_line masked.name masked.message masked.line
      have same : cells header first = cells header second := by
        rw [cells, cells, masked.name, masked.message, shown]
      exact masked.frame (exact.mp (hash_eq_iff_cells.mpr same)).2.2
    · have origin := exact.mp (hash_eq_iff_cells.mpr regrouped.cells)
      rcases regrouped.groups with names | messages
      · exact names (congrArg (List.count COLON) origin.1)
      · exact messages (congrArg (List.count COLON) origin.2.1)
  · intro conditions
    exact ⟨fun same => sameOrigin_of_hash same conditions.1 conditions.2, hash_eq_of_sameOrigin⟩

/-! ## Two call sites -/

def frameA : Frame where
  location := units "a (a.js:1:1)"
  oneLine := by decide
  notEmpty := by decide
  ended := rfl

def frameB : Frame where
  location := units "b (b.js:9:9)"
  oneLine := by decide
  notEmpty := by decide
  ended := rfl

/-- The message is thrown from two places. -/
def unknownUser (frame : Frame) : Thrown where
  name := units "Error"
  message := units "no user ann@example.com"
  frames := [frame]

/-- An address in the message is taken for the frame of both. -/
theorem unknownUser_one_family :
    exceptionFamilyHash ((unknownUser frameA).parts v8Header) = exceptionFamilyHash ((unknownUser frameB).parts v8Header) ∧
      ¬ SameOrigin (unknownUser frameA) (unknownUser frameB) := by
  refine ⟨by decide +kernel, fun same => ?_⟩
  have frames : frameA = frameB := Option.some.inj same.2.2
  exact absurd (congrArg Frame.location frames) (by decide)

end ExceptionFamily
end Telescope
