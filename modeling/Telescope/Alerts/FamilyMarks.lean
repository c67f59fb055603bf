import Telescope.Foundation.Transition
import Telescope.InMemory.Store
import Telescope.Sqlite.Store

namespace Telescope
namespace Alerts

universe u

/-!
# Marks of error families

Replicas share one mark for each error family, the instant it was last seen, and
a new exception is reported by the call that finds no mark inside the window.  A
call that arrives with an older instant takes the mark back, so that reports of
one family stay a window apart in every run whose calls arrive in order, and not
in others.
-/

variable {State : Type u}

/-- A provider's shared marks. -/
structure FamilyMarks (State : Type u) where
  lastSeen : State -> Text -> Option Int
  markFamilySeen : State -> Text -> Int -> Int -> State × Bool

/-- What the interface asks of a call: the answer tells whether the family is new
to the window, and the sighting is recorded.  What becomes of a mark that is newer
than the sighting is left open. -/
structure FamilyMarks.FollowsContract (marks : FamilyMarks State) : Prop where
  answer : forall state family nowMs windowMs,
    (marks.markFamilySeen state family nowMs windowMs).2 = true <->
      forall last, marks.lastSeen state family = some last -> windowMs ≤ nowMs - last
  recorded : forall state family nowMs windowMs,
    (forall last, marks.lastSeen state family = some last -> last ≤ nowMs) ->
    marks.lastSeen (marks.markFamilySeen state family nowMs windowMs).1 family = some nowMs
  others : forall state family nowMs windowMs other, other ≠ family ->
    marks.lastSeen (marks.markFamilySeen state family nowMs windowMs).1 other =
      marks.lastSeen state other

/-! ## Runs -/

/-- One call of a replica. -/
structure Sighting where
  familyHash : Text
  nowMs : Int

/-- The shared state, and the sightings that were reported as new. -/
structure Sightings (State : Type u) where
  shared : State
  reported : List Sighting

/-- One atomic call of whichever replica comes next. -/
def sight (marks : FamilyMarks State) (windowMs : Int) (system : Sightings State)
    (sighting : Sighting) : Option (Sightings State) :=
  let outcome := marks.markFamilySeen system.shared sighting.familyHash sighting.nowMs windowMs
  some ⟨outcome.1, if outcome.2 then system.reported ++ [sighting] else system.reported⟩

/-- The call is not older than the mark it finds. -/
def InOrder (marks : FamilyMarks State) (system : Sightings State) (sighting : Sighting) : Prop :=
  forall last, marks.lastSeen system.shared sighting.familyHash = some last -> last ≤ sighting.nowMs

/-- Reports of one family are a window apart. -/
def Apart (windowMs : Int) (reported : List Sighting) : Prop :=
  reported.Pairwise fun first second =>
    first.familyHash = second.familyHash ->
      windowMs ≤ second.nowMs - first.nowMs ∨ windowMs ≤ first.nowMs - second.nowMs

/-- Apart in every run whose calls are in order. -/
def ReportsApart (marks : FamilyMarks State) (windowMs : Int) : Prop :=
  forall (shared : State) (sightings : List Sighting) (final : Sightings State),
    Transition.Along (sight marks windowMs) (InOrder marks) ⟨shared, []⟩ sightings ->
    Transition.runFrom (sight marks windowMs) ⟨shared, []⟩ sightings = some final ->
    Apart windowMs final.reported

/-- The invariant: no report is newer than the mark of its family. -/
structure Marked (marks : FamilyMarks State) (windowMs : Int) (system : Sightings State) : Prop where
  apart : Apart windowMs system.reported
  covered : forall sighting, sighting ∈ system.reported ->
    Exists fun last => marks.lastSeen system.shared sighting.familyHash = some last ∧
      sighting.nowMs ≤ last

theorem sight_marked {marks : FamilyMarks State} (follows : marks.FollowsContract) {windowMs : Int}
    {system next : Sightings State} {sighting : Sighting} (marked : Marked marks windowMs system)
    (inOrder : InOrder marks system sighting)
    (stepped : sight marks windowMs system sighting = some next) : Marked marks windowMs next := by
  cases stepped
  have recorded := follows.recorded system.shared sighting.familyHash sighting.nowMs windowMs inOrder
  have covered : forall other, other ∈ system.reported ->
      Exists fun last => marks.lastSeen (marks.markFamilySeen system.shared sighting.familyHash
        sighting.nowMs windowMs).1 other.familyHash = some last ∧ other.nowMs ≤ last := by
    intro other member
    rcases marked.covered other member with ⟨last, isLast, older⟩
    by_cases same : other.familyHash = sighting.familyHash
    · rw [same] at isLast ⊢
      exact ⟨sighting.nowMs, recorded, le_trans older (inOrder last isLast)⟩
    · rw [follows.others _ _ _ _ _ same]
      exact ⟨last, isLast, older⟩
  cases isNew : (marks.markFamilySeen system.shared sighting.familyHash sighting.nowMs windowMs).2 with
  | false =>
      simp only [Bool.false_eq_true, if_false]
      exact ⟨marked.apart, covered⟩
  | true =>
      simp only [if_true]
      refine ⟨List.pairwise_append.mpr ⟨marked.apart, List.pairwise_singleton _ _, ?_⟩, ?_⟩
      · intro earlier member new isSighting same
        cases List.mem_singleton.mp isSighting
        rcases marked.covered earlier member with ⟨last, isLast, older⟩
        rw [same] at isLast
        have distance := (follows.answer _ _ _ _).mp isNew last isLast
        exact .inl (by omega)
      · intro other member
        rcases List.mem_append.mp member with earlier | new
        · exact covered other earlier
        · cases List.mem_singleton.mp new
          exact ⟨sighting.nowMs, recorded, Int.le_refl _⟩

theorem reportsApart_of_followsContract {marks : FamilyMarks State} (follows : marks.FollowsContract)
    (windowMs : Int) : ReportsApart marks windowMs := by
  intro shared sightings final inOrder ran
  have start : Marked marks windowMs ⟨shared, []⟩ :=
    ⟨List.Pairwise.nil, fun _ member => by cases member⟩
  exact (Transition.invariant_along
    (fun _ _ _ marked inOrder stepped => sight_marked follows marked inOrder stepped)
    start inOrder ran).apart

/-! ## The providers -/

def inMemoryMarks (C : Type u) : FamilyMarks (InMemory.Provider C) where
  lastSeen := InMemory.Provider.seenFamilies
  markFamilySeen := InMemory.markFamilySeen

def sqliteMarks (C : Type u) : FamilyMarks (Sqlite.Database C) where
  lastSeen := Sqlite.Database.seenFamilies
  markFamilySeen := Sqlite.Database.markFamilySeen

theorem isNew_iff {mark : Option Int} {nowMs windowMs : Int} :
    (match mark with
      | none => true
      | some last => decide (nowMs - last ≥ windowMs)) = true <->
      forall last, mark = some last -> windowMs ≤ nowMs - last := by
  cases mark with
  | none => exact iff_of_true rfl fun _ found => by cases found
  | some last =>
      refine decide_eq_true_iff.trans ⟨fun far other same => ?_, fun far => far last rfl⟩
      cases same
      exact far

theorem inMemory_followsContract (C : Type u) : (inMemoryMarks C).FollowsContract where
  answer := fun _ _ _ _ => isNew_iff
  recorded := fun _ _ _ _ _ => Function.update_self ..
  others := fun _ _ _ _ _ different => Function.update_of_ne different ..

theorem sqlite_followsContract (C : Type u) : (sqliteMarks C).FollowsContract where
  answer := fun _ _ _ _ => isNew_iff
  recorded := fun _ _ _ _ _ => Function.update_self ..
  others := fun _ _ _ _ _ different => Function.update_of_ne different ..

/-- Reports of a family stay a window apart as long as no call is older than the
mark it finds: in memory, in SQLite and with any provider that follows the
contract. -/
theorem markFamilySeen_apart (C : Type u) (windowMs : Int) :
    ReportsApart (inMemoryMarks C) windowMs ∧ ReportsApart (sqliteMarks C) windowMs ∧
      forall (State : Type u) (marks : FamilyMarks State), marks.FollowsContract ->
        ReportsApart marks windowMs :=
  ⟨reportsApart_of_followsContract (inMemory_followsContract C) windowMs,
    reportsApart_of_followsContract (sqlite_followsContract C) windowMs,
    fun _ _ follows => reportsApart_of_followsContract follows windowMs⟩

/-- Three sightings in order, of which the second is no news. -/
theorem markFamilySeen_apart_inOrder :
    Exists fun final =>
      Transition.runFrom (sight (inMemoryMarks Text) 60) ⟨InMemory.empty, []⟩
          [⟨['f'], 0⟩, ⟨['f'], 30⟩, ⟨['f'], 100⟩] = some final ∧
        final.reported = [⟨['f'], 0⟩, ⟨['f'], 100⟩] ∧ Apart 60 final.reported := by
  refine ⟨_, rfl, rfl, ?_⟩
  refine (markFamilySeen_apart Text 60).1 InMemory.empty [⟨['f'], 0⟩, ⟨['f'], 30⟩, ⟨['f'], 100⟩] _ ?_ rfl
  refine ⟨fun last isLast => ?_, fun _ first => ?_⟩
  · cases isLast
  · cases first
    refine ⟨fun last isLast => ?_, fun _ second => ?_⟩
    · cases isLast
      decide
    · cases second
      refine ⟨fun last isLast => ?_, fun _ _ => trivial⟩
      cases isLast
      decide

/-- A sighting at 100, a late one from the instant 0, and one at 60. -/
def lateSighting : List Sighting := [⟨['f'], 100⟩, ⟨['f'], 0⟩, ⟨['f'], 60⟩]

/-- The late sighting takes the mark back, and the third is reported 40 before
the first. -/
theorem lateSighting_reportsTwice :
    ¬ (forall windowMs : Int, 0 < windowMs -> forall (sightings : List Sighting) final,
        Transition.runFrom (sight (inMemoryMarks Text) windowMs) ⟨InMemory.empty, []⟩ sightings =
          some final -> Apart windowMs final.reported) ∧
      ¬ (forall windowMs : Int, 0 < windowMs -> forall (sightings : List Sighting) final,
        Transition.runFrom (sight (sqliteMarks Text) windowMs) ⟨Sqlite.Database.empty, []⟩ sightings =
          some final -> Apart windowMs final.reported) := by
  constructor
  · intro always
    have apart := always 60 (by decide) lateSighting _ rfl
    exact absurd ((List.pairwise_cons.mp apart).1 ⟨['f'], 60⟩ (List.mem_singleton_self _) rfl) (by decide)
  · intro always
    have apart := always 60 (by decide) lateSighting _ rfl
    exact absurd ((List.pairwise_cons.mp apart).1 ⟨['f'], 60⟩ (List.mem_singleton_self _) rfl) (by decide)

end Alerts
end Telescope
