import Mathlib.Order.Lattice

namespace Telescope
namespace Leasing

universe u v w

/-!
# Leases

A lease of a key belongs to one owner until a time.  Beside the leases there is what every
owner was told last, namely until when it holds a key, and the clock.  A grant replaces no
lease but an expired one or one of the owner itself, and a release removes a lease of
the owner that asks for it.  Whatever is granted and released in whatever order, no two owners
hold a key at one time.
-/

variable {Key : Type u} {Owner : Type v} {Time : Type w}

structure Lease (Owner : Type v) (Time : Type w) where
  owner : Owner
  expiresAt : Time

structure State (Key : Type u) (Owner : Type v) (Time : Type w) where
  leases : Key -> Option (Lease Owner Time)
  told : Key -> Owner -> Option Time
  now : Time

/-- An owner has the lease of a key, be it expired or not. -/
def HeldBy (state : State Key Owner Time) (key : Key) (owner : Owner) : Prop :=
  (state.leases key).map Lease.owner = some owner

section Updates

variable [DecidableEq Key] [DecidableEq Owner]

/-- The leases after a release. -/
def released (leases : Key -> Option (Lease Owner Time)) (key : Key) (owner : Owner) :
    Key -> Option (Lease Owner Time) :=
  if (leases key).map Lease.owner = some owner then Function.update leases key none else leases

/-- What the owners were told, and now this one of this key. -/
def tell (told : Key -> Owner -> Option Time) (key : Key) (owner : Owner) (expiry : Option Time) :
    Key -> Owner -> Option Time :=
  Function.update told key (Function.update (told key) owner expiry)

theorem tell_eq_some {told : Key -> Owner -> Option Time} {key asked : Key} {owner other : Owner}
    {expiry : Option Time} {time : Time} (isTold : tell told key owner expiry asked other = some time) :
    (asked = key ∧ other = owner ∧ expiry = some time) ∨
      (¬ (asked = key ∧ other = owner) ∧ told asked other = some time) := by
  by_cases sameKey : asked = key
  · subst sameKey
    rw [tell, Function.update_self] at isTold
    by_cases sameOwner : other = owner
    · subst sameOwner
      rw [Function.update_self] at isTold
      exact .inl ⟨rfl, rfl, isTold⟩
    · rw [Function.update_of_ne sameOwner] at isTold
      exact .inr ⟨fun both => sameOwner both.2, isTold⟩
  · rw [tell, Function.update_of_ne sameKey] at isTold
    exact .inr ⟨fun both => sameKey both.1, isTold⟩

end Updates

variable [LinearOrder Time]

/-- Nobody else has the lease, or it is expired. -/
def Free (held : Option (Lease Owner Time)) (owner : Owner) (time : Time) : Prop :=
  forall lease, held = some lease -> lease.owner ≠ owner -> lease.expiresAt ≤ time

theorem Free.later {held : Option (Lease Owner Time)} {owner : Owner} {time later : Time}
    (free : Free held owner time) (notEarlier : time ≤ later) : Free held owner later :=
  fun lease isHeld different => (free lease isHeld different).trans notEarlier

variable [DecidableEq Key] [DecidableEq Owner]

inductive Move : State Key Owner Time -> State Key Owner Time -> Prop
  | wait {state : State Key Owner Time} {later : Time} (notEarlier : state.now ≤ later) :
      Move state { state with now := later }
  | grant {state : State Key Owner Time} {key : Key} {owner : Owner} (expiry : Time)
      (free : Free (state.leases key) owner state.now) :
      Move state { state with
        leases := Function.update state.leases key (some ⟨owner, expiry⟩)
        told := tell state.told key owner (some expiry) }
  | release (state : State Key Owner Time) (key : Key) (owner : Owner) :
      Move state { state with
        leases := released state.leases key owner
        told := tell state.told key owner none }

/-- An owner has what it was told, until it expires. -/
def Sound (state : State Key Owner Time) : Prop :=
  forall key owner expiry, state.told key owner = some expiry -> state.now < expiry ->
    state.leases key = some ⟨owner, expiry⟩

/-- No two owners hold a key now, by what they were told. -/
def Exclusive (state : State Key Owner Time) : Prop :=
  forall key first second firstExpiry secondExpiry,
    state.told key first = some firstExpiry -> state.told key second = some secondExpiry ->
    state.now < firstExpiry -> state.now < secondExpiry -> first = second

variable {state next : State Key Owner Time}

omit [DecidableEq Key] [DecidableEq Owner] in
theorem Sound.exclusive (sound : Sound state) : Exclusive state := by
  intro key first second firstExpiry secondExpiry isFirst isSecond firstLasts secondLasts
  have ofFirst := sound key first firstExpiry isFirst firstLasts
  have ofSecond := sound key second secondExpiry isSecond secondLasts
  exact congrArg Lease.owner (Option.some.inj (ofFirst.symm.trans ofSecond))

theorem Sound.move (sound : Sound state) (move : Move state next) : Sound next := by
  cases move with
  | wait notEarlier =>
      intro key owner expiry isTold lasts
      exact sound key owner expiry isTold (notEarlier.trans_lt lasts)
  | @grant granted grantee _ free =>
      intro key owner expiry isTold lasts
      change Function.update state.leases granted _ key = _
      rcases tell_eq_some isTold with ⟨rfl, rfl, isExpiry⟩ | ⟨apart, before⟩
      · rw [Function.update_self, Option.some.inj isExpiry]
      · have held := sound key owner expiry before lasts
        by_cases sameKey : key = granted
        · subst sameKey
          have expired := free _ held fun sameOwner => apart ⟨rfl, sameOwner⟩
          exact absurd lasts (not_lt.mpr expired)
        · rw [Function.update_of_ne sameKey, held]
  | release given giver =>
      intro key owner expiry isTold lasts
      change released state.leases given giver key = _
      rcases tell_eq_some isTold with ⟨_, _, isExpiry⟩ | ⟨apart, before⟩
      · cases isExpiry
      · have held := sound key owner expiry before lasts
        rw [released]
        split
        · rename_i isHolder
          have sameKey : key ≠ given := by
            rintro rfl
            rw [held] at isHolder
            exact apart ⟨rfl, Option.some.inj isHolder⟩
          rw [Function.update_of_ne sameKey, held]
        · exact held

theorem Sound.moves (sound : Sound state) (moves : Relation.ReflTransGen Move state next) : Sound next := by
  induction moves with
  | refl => exact sound
  | tail _ move inductionHypothesis => exact inductionHypothesis.move move

end Leasing
end Telescope
