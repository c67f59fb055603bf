import Telescope.Foundation.Grouping
import Telescope.Foundation.Transition

namespace Telescope
namespace Parquet
namespace LocalCache

/-!
# The local cache of the DuckDB engine

A call of `read` or `countTags` first finds a local path for each of its files: that of a
tracked copy, or that of a copy which it fetches and tracks.  Then it runs its query, and
after the query it evicts copies from the oldest on.  Between its awaits other calls go on.
The path of a copy is a digest of the key of its file; here the key stands for it.
-/

universe u

/-- Where a call is.  While it gathers paths and while its query runs it was given the
copies of these files. -/
inductive Phase (κ : Type u)
  | idle
  | gathering (given : List κ)
  | querying (given : List κ)
  | evicting
  | removing (key : κ)
  | ended

namespace Phase

variable {κ : Type u}

def given : Phase κ -> List κ
  | .gathering given => given
  | .querying given => given
  | _ => []

/-- The promise of the call is pending. -/
def running : Phase κ -> Bool
  | .idle => false
  | .ended => false
  | _ => true

/-- Where a call is when a fetch of it has got a copy: only a call that gathers waits for it. -/
def receive (key : κ) : Phase κ -> Phase κ
  | .gathering given => .gathering (key :: given)
  | phase => phase

/-- Where a call is when a fetch of it has failed. -/
def reject : Phase κ -> Phase κ
  | .gathering _given => .ended
  | phase => phase

end Phase

/-- A copy that is being fetched for a call, with its size once its file is written. -/
structure Fetch (κ : Type u) where
  call : Nat
  key : κ
  written : Option Nat
  deriving DecidableEq

structure Engine (κ : Type u) where
  cacheBytes : Nat
  /-- The number of calls so far. -/
  calls : Nat
  phase : Nat -> Phase κ
  fetches : List (Fetch κ)
  copies : Grouping κ Nat
  copiedBytes : Int
  /-- The files in the directory of the cache. -/
  disk : List κ

namespace Engine

variable {κ : Type u} [DecidableEq κ]

def initial (cacheBytes : Nat) : Engine κ where
  cacheBytes := cacheBytes
  calls := 0
  phase _ := .idle
  fetches := []
  copies := .empty
  copiedBytes := 0
  disk := []

def setPhase (engine : Engine κ) (call : Nat) (phase : Phase κ) : Engine κ :=
  { engine with phase := fun other => if other = call then phase else engine.phase other }

def isTracked (engine : Engine κ) (key : κ) : Bool := (engine.copies.lookup key).isSome

/-- Some fetch of the call is pending. -/
def awaits (engine : Engine κ) (call : Nat) : Bool := engine.fetches.any fun fetch => decide (fetch.call = call)

/-- `pathFor` for every file, up to the first await. -/
def begin (engine : Engine κ) (keys : List κ) : Engine κ :=
  { engine.setPhase engine.calls (.gathering (keys.filter engine.isTracked)) with
    calls := engine.calls + 1
    fetches := engine.fetches ++
      (keys.filter fun key => !engine.isTracked key).map fun key =>
        { call := engine.calls, key := key, written := none } }

/-- `copies.set` and the bytes, after the file is written. -/
def track (engine : Engine κ) (fetch : Fetch κ) (size : Nat) : Engine κ :=
  { engine.setPhase fetch.call ((engine.phase fetch.call).receive fetch.key) with
    fetches := engine.fetches.erase fetch
    copies := engine.copies.upsert fetch.key size fun _ => size
    copiedBytes := engine.copiedBytes + size }

/-- The copies without the oldest one. -/
def withoutOldest (copies : Grouping κ Nat) : Grouping κ Nat where
  groups := copies.groups.tail
  distinct := by
    rw [List.map_tail]
    exact copies.distinct.tail

/-- One turn of the loop of `evict`, up to its await. -/
def pass (engine : Engine κ) (call : Nat) : Engine κ :=
  match engine.copies.groups with
  | [] => engine.setPhase call .ended
  | (key, size) :: _rest =>
      if engine.copiedBytes ≤ engine.cacheBytes then engine.setPhase call .ended
      else
        { engine.setPhase call (.removing key) with
          copies := withoutOldest engine.copies
          copiedBytes := engine.copiedBytes - size }

end Engine

/-- What happens next: a call begins, a file is fetched and written, a written copy is
tracked, a fetch fails; a query runs, cannot be put together, ends; a turn of `evict`; a
file is removed, or cannot be removed. -/
inductive Event (κ : Type u)
  | start (keys : List κ)
  | write (fetch : Fetch κ) (size : Nat)
  | track (fetch : Fetch κ)
  | failFetch (fetch : Fetch κ)
  | query (call : Nat)
  | abandon (call : Nat)
  | finish (call : Nat)
  | pass (call : Nat)
  | removed (call : Nat)
  | failRemoval (call : Nat)

namespace Engine

variable {κ : Type u} [DecidableEq κ]

def step (engine : Engine κ) : Event κ -> Option (Engine κ)
  | .start keys => some (if keys.isEmpty then engine else engine.begin keys)
  | .write fetch size =>
      if fetch ∈ engine.fetches ∧ fetch.written = none then
        some
          { engine with
            fetches := engine.fetches.erase fetch ++ [{ fetch with written := some size }]
            disk := fetch.key :: engine.disk }
      else none
  | .track fetch =>
      match fetch.written with
      | none => none
      | some size => if fetch ∈ engine.fetches then some (engine.track fetch size) else none
  | .failFetch fetch =>
      if fetch ∈ engine.fetches then
        some
          { engine.setPhase fetch.call (engine.phase fetch.call).reject with fetches := engine.fetches.erase fetch }
      else none
  | .query call =>
      match engine.phase call with
      | .gathering given => if engine.awaits call then none else some (engine.setPhase call (.querying given))
      | _ => none
  | .abandon call =>
      match engine.phase call with
      | .gathering _given => if engine.awaits call then none else some (engine.setPhase call .ended)
      | _ => none
  | .finish call =>
      match engine.phase call with
      | .querying _given => some (engine.setPhase call .evicting)
      | _ => none
  | .pass call =>
      match engine.phase call with
      | .evicting => some (engine.pass call)
      | _ => none
  | .removed call =>
      match engine.phase call with
      | .removing key =>
          some { engine.setPhase call .evicting with disk := engine.disk.filter fun other => !decide (other = key) }
      | _ => none
  | .failRemoval call =>
      match engine.phase call with
      | .removing _key => some (engine.setPhase call .ended)
      | _ => none

/-! ## Safety -/

/-- The bytes of the tracked copies. -/
def trackedBytes (engine : Engine κ) : Int := engine.copies.total fun size : Nat => (size : Int)

/-- The copies that calls were given are there until their queries end. -/
def KeepsGiven (engine : Engine κ) : Prop :=
  forall call key, key ∈ (engine.phase call).given -> key ∈ engine.disk

def CountsBytes (engine : Engine κ) : Prop := engine.copiedBytes = engine.trackedBytes

/-- With no call running the tracked copies fit the limit. -/
def Fits (engine : Engine κ) : Prop :=
  (forall call, (engine.phase call).running = false) -> engine.trackedBytes ≤ engine.cacheBytes

structure Safe (engine : Engine κ) : Prop where
  given : engine.KeepsGiven
  bytes : engine.CountsBytes
  fits : engine.Fits

end Engine
end LocalCache
end Parquet
end Telescope
