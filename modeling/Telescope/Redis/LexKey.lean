import Telescope.Core.StorageProvider
import Telescope.Foundation.SortedIndex

namespace Telescope
namespace Redis

/-!
# Lexicographic keys

An index member is `inv(createdAt):id`, where `inv` is the distance to `MAX_MS`
padded to fifteen digits, so that the newest entry sorts first.  The padding
covers the instants from the epoch to `MAX_MS`.  A bound beyond `MAX_MS` meets a
minus sign, which sorts below every digit and keeps the order.  A bound before
the epoch is too long; only its first fifteen digits count, and they denote an
instant far in the future.
-/

def WIDTH : Nat := 15

def MAX_MS : Int := 999999999999999

/-- An integer as a double: exact up to `2^53`, then rounded to a multiple of two
with ties to even.  This covers all differences of two dates. -/
def toDouble (number : Int) : Int :=
  if number.natAbs ≤ 9007199254740992 then number
  else number + (number % 4 - 2) * (number % 2)

/-- The padded inverse of an instant, the text before the colon of its members. -/
def invBound (createdAtMs : Int) : Text :=
  Decimal.padStart WIDTH '0' (Decimal.ofInt (toDouble (MAX_MS - createdAtMs)))

def lexMember (createdAtMs : Int) (id : Text) : Text :=
  invBound createdAtMs ++ ':' :: id

/-- `member.slice(0, member.indexOf(':'))`; without a colon the index is `-1`,
which drops the last character. -/
def groupOf (member : Text) : Text :=
  if ':' ∈ member then member.take (member.idxOf ':') else member.dropLast

/-- Everything after the first colon, or all of a member that has none. -/
def idFromMember (member : Text) : Text :=
  if ':' ∈ member then member.drop (member.idxOf ':' + 1) else member

/-- The instants the padding covers. -/
def InRange (createdAt : Int) : Prop := 0 ≤ createdAt ∧ createdAt ≤ MAX_MS

instance (createdAt : Int) : Decidable (InRange createdAt) :=
  inferInstanceAs (Decidable (_ ∧ _))

/-! ## Taking a member apart -/

theorem colon_notMem_invBound (createdAt : Int) : ':' ∉ invBound createdAt := by
  intro member
  rcases List.mem_append.mp member with padding | digits
  · cases List.eq_of_mem_replicate padding
  · exact Decimal.ofInt_not_mem rfl (by decide) _ digits

theorem colon_mem_lexMember (createdAt : Int) (id : Text) : ':' ∈ lexMember createdAt id :=
  List.mem_append_right _ (List.mem_cons_self ..)

theorem idxOf_lexMember (createdAt : Int) (id : Text) :
    (lexMember createdAt id).idxOf ':' = (invBound createdAt).length :=
  idxOf_colon (colon_notMem_invBound createdAt) id

@[simp] theorem idFromMember_lexMember (createdAt : Int) (id : Text) :
    idFromMember (lexMember createdAt id) = id := by
  rw [idFromMember, if_pos (colon_mem_lexMember createdAt id), idxOf_lexMember, lexMember,
    ← List.drop_drop, List.drop_left]
  rfl

@[simp] theorem groupOf_lexMember (createdAt : Int) (id : Text) :
    groupOf (lexMember createdAt id) = invBound createdAt := by
  rw [groupOf, if_pos (colon_mem_lexMember createdAt id), idxOf_lexMember, lexMember,
    List.take_left]

theorem lexMember_injective_id {leftAt rightAt : Int} {left right : Text}
    (same : lexMember leftAt left = lexMember rightAt right) : left = right := by
  have ids := congrArg idFromMember same
  rwa [idFromMember_lexMember, idFromMember_lexMember] at ids

/-! ## The three kinds of bounds -/

theorem toDouble_of_small {number : Int} (small : number.natAbs ≤ 9007199254740992) :
    toDouble number = number := if_pos small

theorem toDouble_close (number : Int) :
    number - 1 ≤ toDouble number ∧ toDouble number ≤ number + 1 := by
  unfold toDouble
  split
  · omega
  · rcases Int.emod_two_eq number with even | odd
    · rw [even]
      omega
    · rw [odd]
      omega

/-- Within the range the bound has the full width and denotes the distance. -/
theorem invBound_inRange {createdAt : Int} (inRange : InRange createdAt) :
    Decimal.IsNumeral (invBound createdAt) ∧ (invBound createdAt).length = WIDTH ∧
      (Decimal.value (invBound createdAt) : Int) = MAX_MS - createdAt := by
  have lower : 0 ≤ createdAt := inRange.1
  have upper : createdAt ≤ 999999999999999 := inRange.2
  have exact : toDouble (MAX_MS - createdAt) = MAX_MS - createdAt :=
    toDouble_of_small (by rw [MAX_MS]; omega)
  have nonneg : 0 ≤ MAX_MS - createdAt := by rw [MAX_MS]; omega
  have fits : (MAX_MS - createdAt).toNat < 10 ^ WIDTH := by rw [MAX_MS, WIDTH]; omega
  rw [invBound, exact, Decimal.ofInt_of_nonneg nonneg]
  refine ⟨Decimal.isNumeral_padded _ _, Decimal.padded_length (by decide) fits, ?_⟩
  rw [Decimal.value_padded, Int.toNat_of_nonneg nonneg]

/-- Before the epoch the bound is a numeral too, though a longer one. -/
theorem invBound_beforeEpoch {instant : Int} (before : instant < 0) :
    Decimal.IsNumeral (invBound instant) := by
  have close := toDouble_close (MAX_MS - instant)
  have nonneg : 0 ≤ toDouble (MAX_MS - instant) := by rw [MAX_MS] at close ⊢; omega
  rw [invBound, Decimal.ofInt_of_nonneg nonneg]
  exact Decimal.isNumeral_padded _ _

/-- Beyond `MAX_MS` the padding meets a minus sign. -/
theorem invBound_beyondMax {instant : Int} (beyond : MAX_MS < instant) :
    Exists fun zeros => Exists fun rest =>
      zeros < WIDTH ∧ invBound instant = List.replicate zeros '0' ++ '-' :: rest := by
  have negative : toDouble (MAX_MS - instant) < 0 := by
    by_cases adjacent : MAX_MS - instant = -1
    · rw [adjacent]
      decide
    · have close := toDouble_close (MAX_MS - instant)
      omega
  rw [invBound, Decimal.ofInt_of_neg negative]
  refine ⟨_, _, ?_, rfl⟩
  rw [List.length_cons, WIDTH]
  omega

theorem beyondMax_lt_member {instant createdAt : Int} (beyond : MAX_MS < instant)
    (inRange : InRange createdAt) (id : Text) : invBound instant < lexMember createdAt id := by
  rcases invBound_beyondMax beyond with ⟨zeros, rest, fewer, same⟩
  have covered := invBound_inRange inRange
  rw [same]
  exact Decimal.signed_lt_numeral covered.1 (covered.2.1.symm ▸ fewer) (by decide) rest _

/-! ## The order of bounds and members -/

theorem invBound_lt_of_newer {older newer : Int} (olderInRange : InRange older)
    (newerInRange : InRange newer) (before : older < newer) (newerRest olderRest : Text) :
    invBound newer ++ newerRest < invBound older ++ olderRest := by
  have left := invBound_inRange newerInRange
  have right := invBound_inRange olderInRange
  refine Decimal.append_lt_append_of_value_lt left.1 right.1 (left.2.1.trans right.2.1.symm) ?_ _ _
  have leftValue := left.2.2
  have rightValue := right.2.2
  omega

theorem lexMember_lt_of_newer {older newer : Int} (olderInRange : InRange older)
    (newerInRange : InRange newer) (before : older < newer) (newerId olderId : Text) :
    lexMember newer newerId < lexMember older olderId :=
  invBound_lt_of_newer olderInRange newerInRange before _ _

theorem invBound_lt_lexMember (createdAt : Int) (id : Text) :
    invBound createdAt < lexMember createdAt id := by
  have appended : forall text : Text, text < text ++ ':' :: id := by
    intro text
    induction text with
    | nil => exact List.nil_lt_cons ..
    | cons character text inductionHypothesis =>
        exact List.cons_lt_cons_iff.mpr (.inr ⟨rfl, inductionHypothesis⟩)
  exact appended _

/-- The instant a bound is read as: before the epoch, the one that its first
fifteen digits denote. -/
def readAs (instant : Int) : Int :=
  if instant < 0 then MAX_MS - Decimal.value ((invBound instant).take WIDTH) else instant

theorem readAs_fromEpoch {instant : Int} (fromEpoch : 0 ≤ instant) : readAs instant = instant :=
  if_neg (not_lt.mpr fromEpoch)

/-- A bound splits the members by the instant it is read as. -/
theorem lexMember_lt_invBound_iff (instant : Int) {createdAt : Int}
    (inRange : InRange createdAt) (id : Text) :
    lexMember createdAt id < invBound instant <-> readAs instant < createdAt := by
  by_cases before : instant < 0
  · have covered := invBound_inRange inRange
    have wide : (invBound createdAt).length ≤ (invBound instant).length := by
      rw [covered.2.1, invBound, Decimal.padStart, List.length_append, List.length_replicate]
      omega
    have value := covered.2.2
    rw [lexMember, Decimal.closed_lt_iff covered.1 (invBound_beforeEpoch before) wide (by decide),
      covered.2.1, readAs, if_pos before]
    omega
  · have fromEpoch := not_lt.mp before
    rw [readAs_fromEpoch fromEpoch]
    by_cases beyond : MAX_MS < instant
    · have later : createdAt ≤ instant := le_of_lt (lt_of_le_of_lt inRange.2 beyond)
      exact iff_of_false (lt_asymm (beyondMax_lt_member beyond inRange id)) (not_lt.mpr later)
    · have covered : InRange instant := ⟨fromEpoch, not_lt.mp beyond⟩
      rcases lt_trichotomy createdAt instant with older | same | newer
      · have below := invBound_lt_of_newer inRange covered older [] (':' :: id)
        rw [List.append_nil] at below
        exact iff_of_false (lt_asymm below) (lt_asymm older)
      · rw [same]
        exact iff_of_false (lt_asymm (invBound_lt_lexMember instant id)) (lt_irrefl _)
      · have above := invBound_lt_of_newer covered inRange newer (':' :: id) []
        rw [List.append_nil] at above
        exact iff_of_true above newer

open SortedIndex (Bound)

/-- The members above a closed bound are those at or before its instant. -/
theorem closed_below_iff (instant : Int) {createdAt : Int} (inRange : InRange createdAt)
    (id : Text) :
    (Bound.closed (invBound instant)).below (lexMember createdAt id) = true <->
      createdAt ≤ readAs instant := by
  rw [SortedIndex.below_closed, ← not_lt, ← not_lt]
  exact not_congr (lexMember_lt_invBound_iff instant inRange id)

/-- The members under a strict bound are those after its instant. -/
theorem strict_above_iff (instant : Int) {createdAt : Int} (inRange : InRange createdAt)
    (id : Text) :
    (Bound.strict (invBound instant)).above (lexMember createdAt id) = true <->
      readAs instant < createdAt :=
  SortedIndex.above_strict.trans (lexMember_lt_invBound_iff instant inRange id)

end Redis
end Telescope
