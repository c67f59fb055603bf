import Telescope.Foundation.Leasing
import Telescope.Foundation.Transition
import Telescope.MikroOrm.Store

namespace Telescope
namespace MikroOrm
namespace Leases

/-!
# Leases in a database

Callers in any number of processes acquire leases and release them.  An acquisition is a
transaction of up to three statements, between which the other processes go on; a row that a
transaction has written is locked until it commits or is rolled back.  A caller reads the shared
clock before its call, so that the transaction may act on a time that has passed.
-/

open Leasing

abbrev Lease := Leasing.Lease Text Int

abbrev State := Leasing.State Text Text Int

def leaseOf (row : LeaseRow) : Lease := ⟨row.owner, row.expiresAt⟩

inductive Event
  | wait (now : Int)
  | tryAcquireLease (number : Nat) (key owner : Text) (ttlMs nowMs : Int)
  | advance (number : Nat)
  | rollback (number : Nat)
  | releaseLease (key owner : Text)

/-- The statement that is next; the last one is the commit. -/
inductive Phase
  | updating
  | finding
  | inserting
  | wrote
  deriving DecidableEq

structure Call where
  key : Text
  owner : Text
  ttlMs : Int
  nowMs : Int
  phase : Phase

/-- What is committed, the open transactions and which of them has written a row. -/
structure Database where
  rows : Text -> Option LeaseRow
  calls : Nat -> Option Call
  writer : Text -> Option Nat
  told : Text -> Text -> Option Int
  now : Int

namespace Database

def leases (database : Database) (key : Text) : Option Lease := (database.rows key).map leaseOf

def view (database : Database) : State := ⟨database.leases, database.told, database.now⟩

def finish (database : Database) (number : Nat) : Database :=
  { database with calls := Function.update database.calls number none }

def proceed (database : Database) (number : Nat) (call : Call) (phase : Phase) : Database :=
  { database with calls := Function.update database.calls number (some { call with phase := phase }) }

def write (database : Database) (number : Nat) (call : Call) : Database :=
  { database.proceed number call .wrote with
    writer := Function.update database.writer call.key (some number) }

def commit (database : Database) (number : Nat) (call : Call) : Database :=
  { database.finish number with
    rows := Function.update database.rows call.key (some ⟨call.owner, call.nowMs + call.ttlMs⟩)
    writer := Function.update database.writer call.key none
    told := tell database.told call.key call.owner (some (call.nowMs + call.ttlMs)) }

/-- The next statement of a call.  A statement that would write a row which another transaction has
written waits for its end, and one that finds its key taken when it inserts is answered with `false`. -/
def advance (database : Database) (number : Nat) (call : Call) : Option Database :=
  match call.phase, database.rows call.key with
  | .updating, none => some (database.proceed number call .finding)
  | .updating, some row =>
      if row.expiresAt ≤ call.nowMs ∨ row.owner = call.owner then
        if database.writer call.key = none then some (database.write number call) else none
      else some (database.proceed number call .finding)
  | .finding, none => some (database.proceed number call .inserting)
  | .finding, some _row => some (database.finish number)
  | .inserting, none => if database.writer call.key = none then some (database.write number call) else none
  | .inserting, some _row => some (database.finish number)
  | .wrote, _ => some (database.commit number call)

def rollback (database : Database) (number : Nat) (call : Call) : Database :=
  if call.phase = .wrote then
    { database.finish number with writer := Function.update database.writer call.key none }
  else database.finish number

/-- `delete from telescope_leases where lease_key = ? and owner = ?`. -/
def releaseLease (database : Database) (key owner : Text) : Option Database :=
  if (database.rows key).map LeaseRow.owner = some owner then
    if database.writer key = none then
      some { database with
        rows := Function.update database.rows key none
        told := tell database.told key owner none }
    else none
  else some { database with told := tell database.told key owner none }

def step (database : Database) : Event -> Option Database
  | .wait now => if database.now ≤ now then some { database with now := now } else none
  | .tryAcquireLease number key owner ttlMs nowMs =>
      if database.calls number = none ∧ nowMs ≤ database.now then
        some { database with
          calls := Function.update database.calls number (some ⟨key, owner, ttlMs, nowMs, .updating⟩) }
      else none
  | .advance number => (database.calls number).bind (database.advance number)
  | .rollback number => (database.calls number).map (database.rollback number)
  | .releaseLease key owner => database.releaseLease key owner

end Database

/-- A call that has written a row holds its lock, and could acquire the lease when it was begun. -/
def Holds (database : Database) (number : Nat) (call : Call) : Prop :=
  call.nowMs ≤ database.now ∧
    (call.phase = .wrote -> database.writer call.key = some number ∧
      Free (database.leases call.key) call.owner call.nowMs)

def Tracks (database : Database) : Prop :=
  forall number call, database.calls number = some call -> Holds database number call

variable {database next : Database} {number : Nat} {call : Call}

theorem Holds.of_eq {call : Call} (holds : Holds database number call) (later : database.now ≤ next.now)
    (sameWriter : call.phase = .wrote -> next.writer call.key = database.writer call.key)
    (sameRow : call.phase = .wrote -> next.rows call.key = database.rows call.key) : Holds next number call := by
  refine ⟨holds.1.trans later, fun wrote => ?_⟩
  rw [sameWriter wrote, Database.leases, sameRow wrote]
  exact holds.2 wrote

theorem Tracks.update (entry : Option Call)
    (isCalls : next.calls = Function.update database.calls number entry)
    (own : forall call, entry = some call -> Holds next number call)
    (others : forall other call, other ≠ number -> database.calls other = some call -> Holds next other call) :
    Tracks next := by
  intro other call isCall
  rw [isCalls] at isCall
  by_cases same : other = number
  · subst same
    rw [Function.update_self] at isCall
    exact own call isCall
  · rw [Function.update_of_ne same] at isCall
    exact others other call same isCall

variable (tracks : Tracks database)

include tracks

/-- The row of a call that has written is not the one of another call. -/
theorem Tracks.apart {other : Call} {key : Text} (isCall : database.calls number = some other)
    (wrote : other.phase = .wrote) (notWriter : database.writer key ≠ some number) : other.key ≠ key := by
  rintro rfl
  exact notWriter ((tracks number other isCall).2 wrote).1

theorem Tracks.proceed (isCall : database.calls number = some call) {phase : Phase} (unwritten : phase ≠ .wrote) :
    Tracks (database.proceed number call phase) := by
  refine Tracks.update _ rfl ?_ fun other call _ isOther => tracks other call isOther
  rintro _ ⟨⟩
  exact ⟨(tracks number call isCall).1, fun wrote => absurd wrote unwritten⟩

theorem Tracks.finish (number : Nat) : Tracks (database.finish number) :=
  Tracks.update none rfl (fun _ isNone => by cases isNone) fun other call _ isOther => tracks other call isOther

theorem Tracks.write (isCall : database.calls number = some call) (unlocked : database.writer call.key = none)
    (free : Free (database.leases call.key) call.owner call.nowMs) : Tracks (database.write number call) := by
  refine Tracks.update _ rfl ?_ fun other call' _ isOther => ?_
  · rintro _ ⟨⟩
    exact ⟨(tracks number call isCall).1, fun _ => ⟨Function.update_self .., free⟩⟩
  · refine (tracks other call' isOther).of_eq le_rfl (fun wrote => ?_) fun _ => rfl
    exact Function.update_of_ne (tracks.apart isOther wrote (by rw [unlocked]; exact Option.some_ne_none _ |>.symm)) ..

theorem Tracks.unlock (isCall : database.calls number = some call) (wrote : call.phase = .wrote)
    (isNow : next.now = database.now)
    (isCalls : next.calls = Function.update database.calls number none)
    (isWriter : next.writer = Function.update database.writer call.key none)
    (others : forall key, key ≠ call.key -> next.rows key = database.rows key) : Tracks next := by
  refine Tracks.update none isCalls (fun _ isNone => by cases isNone) fun other call' different isOther => ?_
  have apart (wroteToo : call'.phase = .wrote) : call'.key ≠ call.key := by
    refine tracks.apart isOther wroteToo ?_
    rw [((tracks number call isCall).2 wrote).1]
    exact fun same => different (Option.some.inj same).symm
  refine (tracks other call' isOther).of_eq isNow.ge (fun wroteToo => ?_) fun wroteToo => others _ (apart wroteToo)
  rw [isWriter, Function.update_of_ne (apart wroteToo)]

omit tracks

theorem free_of_row {row : LeaseRow} {key owner : Text} {nowMs : Int} (isRow : database.rows key = some row)
    (matched : row.expiresAt ≤ nowMs ∨ row.owner = owner) : Free (database.leases key) owner nowMs := by
  intro lease isLease different
  rw [Database.leases, isRow] at isLease
  cases isLease
  exact matched.resolve_right different

theorem free_of_absent {key owner : Text} {nowMs : Int} (absent : database.rows key = none) :
    Free (database.leases key) owner nowMs := by
  intro lease isLease
  rw [Database.leases, absent] at isLease
  cases isLease

/-- The leases move along with the statement, and the open calls are still tracked. -/
def Follows (database next : Database) : Prop :=
  Tracks next ∧ Relation.ReflTransGen Move database.view next.view

theorem commit_leases (database : Database) (number : Nat) (call : Call) :
    (database.commit number call).leases =
      Function.update database.leases call.key (some ⟨call.owner, call.nowMs + call.ttlMs⟩) :=
  Function.comp_update (Option.map leaseOf) database.rows call.key _

theorem commit_follows (tracks : Tracks database) (isCall : database.calls number = some call)
    (wrote : call.phase = .wrote) : Follows database (database.commit number call) := by
  constructor
  · refine tracks.unlock isCall wrote rfl rfl rfl fun key different => ?_
    exact Function.update_of_ne different ..
  · have isView : (database.commit number call).view =
        { database.view with
          leases := Function.update database.view.leases call.key (some ⟨call.owner, call.nowMs + call.ttlMs⟩)
          told := tell database.view.told call.key call.owner (some (call.nowMs + call.ttlMs)) } := by
      rw [Database.view, commit_leases]
      rfl
    have holds := tracks number call isCall
    rw [isView]
    exact .single (Move.grant _ ((holds.2 wrote).2.later holds.1))

theorem advance_follows (tracks : Tracks database) (isCall : database.calls number = some call)
    (advanced : database.advance number call = some next) : Follows database next := by
  rw [Database.advance.eq_def] at advanced
  split at advanced
  · cases advanced
    exact ⟨tracks.proceed isCall (by decide), .refl⟩
  · rename_i isRow
    split at advanced
    · rename_i matched
      split at advanced
      · rename_i unlocked
        cases advanced
        exact ⟨tracks.write isCall unlocked (free_of_row isRow matched), .refl⟩
      · cases advanced
    · cases advanced
      exact ⟨tracks.proceed isCall (by decide), .refl⟩
  · cases advanced
    exact ⟨tracks.proceed isCall (by decide), .refl⟩
  · cases advanced
    exact ⟨tracks.finish number, .refl⟩
  · rename_i absent
    split at advanced
    · rename_i unlocked
      cases advanced
      exact ⟨tracks.write isCall unlocked (free_of_absent absent), .refl⟩
    · cases advanced
  · cases advanced
    exact ⟨tracks.finish number, .refl⟩
  · rename_i wrote
    cases advanced
    exact commit_follows tracks isCall wrote

theorem rollback_follows (tracks : Tracks database) (isCall : database.calls number = some call) :
    Follows database (database.rollback number call) := by
  rw [Database.rollback]
  split
  · rename_i wrote
    exact ⟨tracks.unlock isCall wrote rfl rfl rfl fun _ _ => rfl, .refl⟩
  · exact ⟨tracks.finish number, .refl⟩

theorem releaseLease_leases {key owner : Text} (answered : database.releaseLease key owner = some next) :
    next.leases = released database.leases key owner := by
  have sameOwner : (database.leases key).map Lease.owner = (database.rows key).map LeaseRow.owner := Option.map_map ..
  rw [released, sameOwner]
  rw [Database.releaseLease] at answered
  split at answered
  · rename_i isHolder
    split at answered
    · cases answered
      rw [if_pos isHolder]
      exact Function.comp_update (Option.map leaseOf) database.rows key none
    · cases answered
  · rename_i notHolder
    cases answered
    rw [if_neg notHolder]
    rfl

theorem releaseLease_follows {key owner : Text} (tracks : Tracks database)
    (answered : database.releaseLease key owner = some next) : Follows database next := by
  have isView : next.view = { database.view with
      leases := released database.view.leases key owner
      told := tell database.view.told key owner none } := by
    rw [Database.view, releaseLease_leases answered]
    rw [Database.releaseLease] at answered
    split at answered
    · split at answered <;> cases answered
      rfl
    · cases answered
      rfl
  constructor
  · rw [Database.releaseLease] at answered
    split at answered
    · split at answered
      · rename_i unlocked
        cases answered
        intro number call isCall
        refine (tracks number call isCall).of_eq le_rfl (fun _ => rfl) fun wrote => ?_
        exact Function.update_of_ne (tracks.apart isCall wrote (by rw [unlocked]; exact (Option.some_ne_none number).symm)) ..
      · cases answered
    · cases answered
      exact tracks
  · rw [isView]
    exact .single (Move.release _ key owner)

theorem step_follows {event : Event} (tracks : Tracks database) (stepped : database.step event = some next) :
    Follows database next := by
  cases event with
  | wait now =>
      rw [Database.step] at stepped
      split at stepped
      · rename_i notEarlier
        cases stepped
        exact ⟨fun number call isCall => (tracks number call isCall).of_eq notEarlier (fun _ => rfl) fun _ => rfl,
          .single (Move.wait notEarlier)⟩
      · cases stepped
  | tryAcquireLease number key owner ttlMs nowMs =>
      rw [Database.step] at stepped
      split at stepped
      · rename_i begins
        cases stepped
        refine ⟨Tracks.update _ rfl ?_ fun other call _ isOther => tracks other call isOther, .refl⟩
        rintro _ ⟨⟩
        exact ⟨begins.2, fun wrote => by cases wrote⟩
      · cases stepped
  | advance number =>
      rcases Option.bind_eq_some_iff.mp stepped with ⟨call, isCall, advanced⟩
      exact advance_follows tracks isCall advanced
  | rollback number =>
      rcases Option.map_eq_some_iff.mp stepped with ⟨call, isCall, rfl⟩
      exact rollback_follows tracks isCall
  | releaseLease key owner => exact releaseLease_follows tracks stepped

/-- No transaction is open, and nobody has been told anything. -/
structure Fresh (database : Database) : Prop where
  calls : forall number, database.calls number = none
  writer : forall key, database.writer key = none
  told : forall key owner, database.told key owner = none

theorem follows_of_reachable {start final : Database} (tracks : Tracks start)
    (reached : Transition.Reachable Database.step start final) : Follows start final := by
  refine Transition.invariant_of_reachable (fun before event after follows stepped => ?_) ⟨tracks, .refl⟩ reached
  have onward := step_follows follows.1 stepped
  exact ⟨onward.1, follows.2.trans onward.2⟩

/-- In whatever order the statements of all transactions are executed, an owner has the lease it
was told of until that expires, no two owners hold a key at one time, and a release by another
owner than the one of the lease changes no row. -/
theorem leases_exclusive {start final : Database} (fresh : Fresh start)
    (reached : Transition.Reachable Database.step start final) :
    Sound final.view ∧ Exclusive final.view ∧
      forall key owner next, ¬ HeldBy final.view key owner -> final.releaseLease key owner = some next ->
        next.leases = final.leases := by
  have tracks : Tracks start := fun number call isCall => by
    rw [fresh.calls number] at isCall
    cases isCall
  have untold : Sound start.view := fun key owner expiry isTold => by
    cases (fresh.told key owner).symm.trans isTold
  have sound := untold.moves (follows_of_reachable tracks reached).2
  refine ⟨sound, sound.exclusive, fun key owner next notHeld answered => ?_⟩
  rw [releaseLease_leases answered]
  exact if_neg notHeld

/-- Two processes insert the first lease of a key. -/
def raced : List Event :=
  [.tryAcquireLease 0 [] ['a'] 100 0, .tryAcquireLease 1 [] ['b'] 100 0, .advance 0, .advance 1, .advance 0,
    .advance 1, .advance 0, .advance 0, .advance 1]

def idle : Database := ⟨fun _ => none, fun _ => none, fun _ => none, fun _ _ => none, 0⟩

theorem leases_exclusive_raced :
    Exists fun final => Transition.runFrom Database.step idle raced = some final ∧
      final.told [] ['a'] = some 100 ∧ final.told [] ['b'] = none ∧ Exclusive final.view :=
  ⟨_, rfl, rfl, rfl, (@leases_exclusive idle _ ⟨fun _ => rfl, fun _ => rfl, fun _ _ => rfl⟩ ⟨raced, rfl⟩).2.1⟩

end Leases
end MikroOrm
end Telescope
