import Mathlib.Data.List.Forall2
import Mathlib.Data.List.Infix

namespace Telescope
namespace Like

/-!
# Patterns of SQL

`LIKE` reads a percent sign as any text, an underscore as any character and every other
character as itself, up to the collation of the column; some databases have a character
that escapes the next one.  A text without special characters stands for itself, so it is
found where a part of the other text is the same up to the collation.

The second half is about words: what stands between two separators of a padded text is a
word of one of the texts it was made from.
-/

/-- How a column compares characters, and which character escapes the next. -/
structure Dialect where
  same : Char -> Char -> Bool
  equivalence : Equivalence fun left right => same left right = true
  escape : Option Char
  unescaped : escape ≠ some '%'

inductive Item
  | any
  | one
  | literal (character : Char)

def item (character : Char) : Item :=
  if character = '%' then .any else if character = '_' then .one else .literal character

namespace Dialect

variable (dialect : Dialect)

/-- The items of a pattern; an escape at its end stands for itself. -/
def parse : List Char -> List Item
  | [] => []
  | [character] => [item character]
  | character :: next :: rest =>
      if dialect.escape = some character then .literal next :: parse rest
      else item character :: parse (next :: rest)

def accepts : List Item -> List Char -> Bool
  | [], text => text.isEmpty
  | .any :: items, text => text.tails.any (accepts items)
  | .one :: items, text =>
      match text with
      | [] => false
      | _character :: rest => accepts items rest
  | .literal expected :: items, text =>
      match text with
      | [] => false
      | character :: rest => dialect.same expected character && accepts items rest

/-- `text like pattern`. -/
def like (pattern text : List Char) : Bool := dialect.accepts (dialect.parse pattern) text

/-- A character that stands for itself. -/
def Literal (character : Char) : Prop := character ≠ '%' ∧ character ≠ '_' ∧ dialect.escape ≠ some character

instance (character : Char) : Decidable (dialect.Literal character) := inferInstanceAs (Decidable (_ ∧ _ ∧ _))

/-- Two texts are the same up to the collation. -/
def SameText (left right : List Char) : Prop := List.Forall₂ (fun left right => dialect.same left right = true) left right

/-- A part of the text is the same. -/
def HasPart (part text : List Char) : Prop :=
  Exists fun front => Exists fun middle => Exists fun back =>
    text = front ++ (middle ++ back) ∧ dialect.SameText part middle

/-- The text starts the same. -/
def HasStart (start text : List Char) : Prop :=
  Exists fun front => Exists fun back => text = front ++ back ∧ dialect.SameText start front

variable {dialect}

theorem SameText.refl (text : List Char) : dialect.SameText text text :=
  List.forall₂_same.mpr fun character _member => dialect.equivalence.refl character

theorem SameText.append {left right otherLeft otherRight : List Char} (same : dialect.SameText left otherLeft)
    (others : dialect.SameText right otherRight) : dialect.SameText (left ++ right) (otherLeft ++ otherRight) :=
  List.rel_append same others

/-- What is the same as two texts after one another is two texts after one another. -/
theorem SameText.split {left right text : List Char} (same : dialect.SameText (left ++ right) text) :
    Exists fun front => Exists fun back =>
      text = front ++ back ∧ dialect.SameText left front ∧ dialect.SameText right back := by
  refine ⟨text.take left.length, text.drop left.length, (List.take_append_drop _ _).symm, ?_, ?_⟩
  · have taken := List.forall₂_take left.length same
    rwa [List.take_left] at taken
  · have dropped := List.forall₂_drop left.length same
    rwa [List.drop_left] at dropped

/-- A text that is the same as one without separators has none, where separators are what
is the same as one character. -/
theorem SameText.apart {space : Char} {left right : List Char} (same : dialect.SameText left right)
    (apart : forall character, character ∈ left -> dialect.same space character = false) :
    forall character, character ∈ right -> dialect.same space character = false := by
  induction same with
  | nil => exact List.forall_mem_nil _
  | cons first _rest inductionHypothesis =>
      rcases List.forall_mem_cons.mp apart with ⟨firstApart, restApart⟩
      refine List.forall_mem_cons.mpr ⟨Bool.eq_false_iff.mpr fun separates => ?_, inductionHypothesis restApart⟩
      have back := dialect.equivalence.trans separates (dialect.equivalence.symm first)
      exact Bool.false_ne_true (firstApart ▸ back)

/-! ## Patterns without special characters -/

theorem parse_cons {character : Char} (unescaped : dialect.escape ≠ some character) (rest : List Char) :
    dialect.parse (character :: rest) = item character :: dialect.parse rest := by
  cases rest with
  | nil => rw [parse, parse]
  | cons next rest => rw [parse, if_neg unescaped]

theorem parse_literal {text : List Char} (literal : forall character, character ∈ text -> dialect.Literal character)
    (rest : List Char) : dialect.parse (text ++ rest) = text.map .literal ++ dialect.parse rest := by
  induction text with
  | nil => rfl
  | cons character text inductionHypothesis =>
      rcases List.forall_mem_cons.mp literal with ⟨⟨notPercent, notUnderscore, unescaped⟩, others⟩
      rw [List.cons_append, parse_cons unescaped, inductionHypothesis others, item, if_neg notPercent,
        if_neg notUnderscore]
      rfl

theorem accepts_any {items : List Item} {text : List Char} : dialect.accepts (.any :: items) text = true <->
    Exists fun front => Exists fun back => text = front ++ back ∧ dialect.accepts items back = true := by
  rw [accepts, List.any_eq_true]
  constructor
  · rintro ⟨back, member, accepted⟩
    rcases (List.mem_tails _ _).mp member with ⟨front, rfl⟩
    exact ⟨front, back, rfl, accepted⟩
  · rintro ⟨front, back, rfl, accepted⟩
    exact ⟨back, (List.mem_tails _ _).mpr ⟨front, rfl⟩, accepted⟩

theorem accepts_percent (text : List Char) : dialect.accepts [.any] text = true :=
  accepts_any.mpr ⟨text, [], (List.append_nil text).symm, rfl⟩

theorem accepts_literals {part : List Char} {items : List Item} {text : List Char} :
    dialect.accepts (part.map .literal ++ items) text = true <->
      Exists fun front => Exists fun back =>
        text = front ++ back ∧ dialect.SameText part front ∧ dialect.accepts items back = true := by
  induction part generalizing text with
  | nil =>
      constructor
      · exact fun accepted => ⟨[], text, rfl, .nil, accepted⟩
      · rintro ⟨front, back, rfl, same, accepted⟩
        cases same
        exact accepted
  | cons expected part inductionHypothesis =>
      rw [List.map_cons, List.cons_append]
      cases text with
      | nil =>
          refine iff_of_false Bool.false_ne_true ?_
          rintro ⟨front, back, split, same, _⟩
          rw [(List.append_eq_nil_iff.mp split.symm).1] at same
          cases same
      | cons character text =>
          rw [accepts, Bool.and_eq_true, inductionHypothesis]
          constructor
          · rintro ⟨first, front, back, rfl, same, accepted⟩
            exact ⟨character :: front, back, rfl, .cons first same, accepted⟩
          · rintro ⟨front, back, split, same, accepted⟩
            cases same with
            | cons first rest =>
                rcases List.cons.inj split with ⟨rfl, rfl⟩
                exact ⟨first, _, back, rfl, rest, accepted⟩

/-- A text between percent signs is found as a part. -/
theorem like_part {part text : List Char} (literal : forall character, character ∈ part -> dialect.Literal character) :
    dialect.like ('%' :: (part ++ ['%'])) text = true <-> dialect.HasPart part text := by
  rw [like, parse_cons dialect.unescaped, parse_literal literal]
  change dialect.accepts (.any :: (part.map .literal ++ [.any])) text = true <-> _
  rw [accepts_any]
  constructor
  · rintro ⟨front, rest, rfl, accepted⟩
    rcases accepts_literals.mp accepted with ⟨middle, back, rfl, same, _⟩
    exact ⟨front, middle, back, rfl, same⟩
  · rintro ⟨front, middle, back, rfl, same⟩
    exact ⟨front, middle ++ back, rfl, accepts_literals.mpr ⟨middle, back, rfl, same, accepts_percent back⟩⟩

/-- A text before a percent sign is found at the start. -/
theorem like_start {start text : List Char}
    (literal : forall character, character ∈ start -> dialect.Literal character) :
    dialect.like (start ++ ['%']) text = true <-> dialect.HasStart start text := by
  rw [like, parse_literal literal]
  change dialect.accepts (start.map .literal ++ [.any]) text = true <-> _
  rw [accepts_literals]
  constructor
  · rintro ⟨front, back, split, same, _⟩
    exact ⟨front, back, split, same⟩
  · rintro ⟨front, back, split, same⟩
    exact ⟨front, back, split, same, accepts_percent back⟩

end Dialect

/-! ## Words -/

section Words

variable {separates : Char -> Bool}

/-- The word stands between two separators. -/
def Between (separates : Char -> Bool) (word text : List Char) : Prop :=
  Exists fun front => Exists fun left => Exists fun right => Exists fun back =>
    text = front ++ left :: (word ++ right :: back) ∧ separates left = true ∧ separates right = true

/-- The text has no separator. -/
def Unseparated (separates : Char -> Bool) (word : List Char) : Prop :=
  forall character, character ∈ word -> separates character = false

/-- What stands between separators lies on one side of a separator in the middle. -/
theorem between_append {word : List Char} (whole : Unseparated separates word) {middle : Char}
    (separator : separates middle = true) (left right : List Char) :
    Between separates word (left ++ middle :: right) <->
      Between separates word (left ++ [middle]) ∨ Between separates word (middle :: right) := by
  constructor
  · rintro ⟨front, opening, closing, back, split, opens, closes⟩
    rcases List.append_eq_append_iff.mp split with ⟨between, rfl, rest⟩ | ⟨between, rfl, rest⟩
    · exact .inr ⟨between, opening, closing, back, rest, opens, closes⟩
    · rcases List.cons_eq_append_iff.mp rest with ⟨rfl, same⟩ | ⟨later, rfl, inner⟩
      · exact .inr ⟨[], opening, closing, back, same, opens, closes⟩
      · rcases List.append_eq_append_iff.mp inner with ⟨gap, rfl, tail⟩ | ⟨gap, rfl, tail⟩
        · rcases List.cons_eq_append_iff.mp tail with ⟨rfl, same⟩ | ⟨deeper, rfl, _⟩
          · refine .inl ⟨front, opening, middle, [], ?_, opens, separator⟩
            simp only [List.append_nil, List.append_assoc, List.cons_append]
          · refine .inl ⟨front, opening, closing, deeper ++ [middle], ?_, opens, closes⟩
            simp only [List.append_assoc, List.cons_append]
        · rcases List.cons_eq_append_iff.mp tail with ⟨rfl, same⟩ | ⟨deeper, rfl, _⟩
          · refine .inl ⟨front, opening, middle, [], ?_, opens, separator⟩
            simp only [List.append_nil, List.append_assoc, List.cons_append]
          · have inWord := whole middle (List.mem_append_right _ List.mem_cons_self)
            rw [separator] at inWord
            cases inWord
  · rintro (⟨front, opening, closing, back, split, opens, closes⟩ | ⟨front, opening, closing, back, split, opens, closes⟩)
    · refine ⟨front, opening, closing, back ++ right, ?_, opens, closes⟩
      have extended := congrArg (· ++ right) split
      simpa only [List.append_assoc, List.cons_append, List.nil_append] using extended
    · exact ⟨left ++ front, opening, closing, back, by rw [split, List.append_assoc], opens, closes⟩

/-- Which separators stand at the ends does not matter. -/
theorem between_ends {word text : List Char} {first last otherFirst otherLast : Char}
    (firstSeparates : separates otherFirst = true) (lastSeparates : separates otherLast = true)
    (between : Between separates word (first :: (text ++ [last]))) :
    Between separates word (otherFirst :: (text ++ [otherLast])) := by
  rcases between with ⟨front, opening, closing, back, split, opens, closes⟩
  rcases List.eq_nil_or_concat' back with rfl | ⟨back, final, rfl⟩
  · have regrouped : (first :: text) ++ [last] = (front ++ opening :: word) ++ [closing] := by
      rw [List.cons_append, split, List.append_assoc, List.cons_append]
    rcases List.append_inj' regrouped rfl with ⟨sameFront, _⟩
    cases front with
    | nil =>
        rcases List.cons.inj sameFront with ⟨_, rfl⟩
        exact ⟨[], otherFirst, otherLast, [], rfl, firstSeparates, lastSeparates⟩
    | cons head front =>
        rcases List.cons.inj sameFront with ⟨_, rfl⟩
        refine ⟨otherFirst :: front, opening, otherLast, [], ?_, opens, lastSeparates⟩
        exact congrArg (otherFirst :: ·) (List.append_assoc front (opening :: word) [otherLast])
  · have regrouped : (first :: text) ++ [last] = (front ++ opening :: (word ++ closing :: back)) ++ [final] := by
      rw [List.cons_append, split, List.append_assoc, List.cons_append, List.append_assoc, List.cons_append]
    rcases List.append_inj' regrouped rfl with ⟨sameFront, _⟩
    cases front with
    | nil =>
        rcases List.cons.inj sameFront with ⟨_, rfl⟩
        refine ⟨[], otherFirst, closing, back ++ [otherLast], ?_, firstSeparates, closes⟩
        simp only [List.append_assoc, List.cons_append, List.nil_append]
    | cons head front =>
        rcases List.cons.inj sameFront with ⟨_, rfl⟩
        refine ⟨otherFirst :: front, opening, closing, back ++ [otherLast], ?_, opens, closes⟩
        refine congrArg (otherFirst :: ·) ((List.append_assoc front _ [otherLast]).trans ?_)
        rw [List.cons_append, List.append_assoc, List.cons_append]
        rfl

/-- The words of a text are what stands between separators once it is padded. -/
theorem mem_words_iff {word : List Char} (whole : Unseparated separates word) {space : Char}
    (separator : separates space = true) (text : List Char) :
    word ∈ text.splitOnP separates <-> Between separates word (space :: (text ++ [space])) := by
  constructor
  · intro member
    induction size : text.length using Nat.strongRecOn generalizing text with
    | ind length inductionHypothesis =>
        by_cases separated : Exists fun character => character ∈ text ∧ separates character = true
        · rcases separated with ⟨middle, inText, splits⟩
          rcases List.append_of_mem inText with ⟨left, right, rfl⟩
          rw [List.length_append, List.length_cons] at size
          rw [List.splitOnP_append_cons left right splits] at member
          have regrouped : space :: (left ++ middle :: right ++ [space]) =
              (space :: left) ++ middle :: (right ++ [space]) := by
            rw [List.append_assoc, List.cons_append, List.cons_append]
          rw [regrouped, between_append whole splits]
          rcases List.mem_append.mp member with inLeft | inRight
          · exact .inl (between_ends separator splits (inductionHypothesis left.length (by omega) left inLeft rfl))
          · exact .inr (between_ends splits separator (inductionHypothesis right.length (by omega) right inRight rfl))
        · have unseparated : Unseparated separates text := fun character inText =>
            Bool.eq_false_iff.mpr fun splits => separated ⟨character, inText, splits⟩
          rw [List.splitOnP_eq_singleton unseparated, List.mem_singleton] at member
          exact ⟨[], space, space, [], by rw [member]; rfl, separator, separator⟩
  · rintro ⟨front, opening, closing, back, split, opens, closes⟩
    rcases List.eq_nil_or_concat' back with rfl | ⟨back, final, rfl⟩
    · have regrouped : (space :: text) ++ [space] = (front ++ opening :: word) ++ [closing] := by
        rw [List.cons_append, split, List.append_assoc, List.cons_append]
      rcases List.append_inj' regrouped rfl with ⟨sameFront, _⟩
      cases front with
      | nil =>
          rcases List.cons.inj sameFront with ⟨_, rfl⟩
          rw [List.splitOnP_eq_singleton whole]
          exact List.mem_singleton_self _
      | cons head front =>
          rcases List.cons.inj sameFront with ⟨_, rfl⟩
          rw [List.append_eq, List.splitOnP_append_cons _ _ opens, List.splitOnP_eq_singleton whole]
          exact List.mem_append_right _ (List.mem_singleton_self _)
    · have regrouped : (space :: text) ++ [space] = (front ++ opening :: (word ++ closing :: back)) ++ [final] := by
        rw [List.cons_append, split, List.append_assoc, List.cons_append, List.append_assoc, List.cons_append]
      rcases List.append_inj' regrouped rfl with ⟨sameFront, _⟩
      cases front with
      | nil =>
          rcases List.cons.inj sameFront with ⟨_, rfl⟩
          rw [List.splitOnP_append_cons_of_forall_mem whole closing closes]
          exact List.mem_cons_self
      | cons head front =>
          rcases List.cons.inj sameFront with ⟨_, rfl⟩
          rw [List.append_eq, List.splitOnP_append_cons _ _ opens,
            List.splitOnP_append_cons_of_forall_mem whole closing closes]
          exact List.mem_append_right _ List.mem_cons_self

/-- Texts with a space around each. -/
def padded (space : Char) (texts : List (List Char)) : List Char :=
  space :: texts.flatMap fun text => text ++ [space]

/-- What stands between the separators of padded texts is a word of one of them. -/
theorem between_padded {word : List Char} (whole : Unseparated separates word) {space : Char}
    (separator : separates space = true) (texts : List (List Char)) :
    Between separates word (padded space texts) <->
      Exists fun text => text ∈ texts ∧ word ∈ text.splitOnP separates := by
  induction texts with
  | nil =>
      refine iff_of_false ?_ (fun found => List.not_mem_nil found.choose_spec.1)
      rintro ⟨front, opening, closing, back, split, _, _⟩
      have sizes := congrArg List.length split
      rw [padded, List.flatMap_nil] at sizes
      simp only [List.length_append, List.length_cons, List.length_nil] at sizes
      omega
  | cons text texts inductionHypothesis =>
      have regrouped : padded space (text :: texts) =
          (space :: text) ++ space :: texts.flatMap fun text => text ++ [space] := by
        rw [padded, List.flatMap_cons, List.append_assoc, List.cons_append]
        rfl
      rw [regrouped, between_append whole separator]
      change Between separates word (space :: (text ++ [space])) ∨ Between separates word (padded space texts) <-> _
      rw [← mem_words_iff whole separator, inductionHypothesis, List.exists_mem_cons_iff]

end Words

end Like
end Telescope
