import Mathlib.Order.Lattice
import Mathlib.Data.List.Induction

namespace Telescope

universe u v

/-!
# Merging sorted sources

A merge takes a first element of least key from one of its sources, again and
again, and gives it out unless the one before it had the same key.  What it has
given out and what is left of the sources have the keys of the sources between
them.  Where the sources are sorted, what is given out ascends strictly.
-/

namespace KWayMerge

variable {α : Type u} {κ : Type v} [LinearOrder κ] (key : α -> κ)

def Sorted (elements : List α) : Prop := elements.Pairwise fun left right => key left ≤ key right

def StrictlySorted (elements : List α) : Prop :=
  elements.Pairwise fun left right => key left < key right

/-- An element is taken from the front of a source, and no source begins before it. -/
inductive Takes : List (List α) -> α -> List (List α) -> Prop
  | front {before after : List (List α)} {element : α} {rest : List α}
      (least : forall source, source ∈ before ++ (element :: rest) :: after ->
        forall head, head ∈ source.head? -> key element ≤ key head) :
      Takes (before ++ (element :: rest) :: after) element (before ++ rest :: after)

/-- How far a merge of sorted sources is. -/
structure InOrder (emitted : List α) (sources : List (List α)) : Prop where
  ascending : StrictlySorted key emitted
  sorted : forall source, source ∈ sources -> Sorted key source
  ahead : forall earlier, earlier ∈ emitted -> forall later, later ∈ sources.flatten ->
    key earlier ≤ key later

/-- How far a merge is: what it has given out, and what is left of the sources. -/
structure Merging (inputs : List (List α)) (emitted : List α) (sources : List (List α)) : Prop where
  keys : forall place, place ∈ inputs.flatten.map key <->
    place ∈ emitted.map key ∨ place ∈ sources.flatten.map key
  inOrder : (forall input, input ∈ inputs -> Sorted key input) -> InOrder key emitted sources

variable {key} {sources rest : List (List α)} {element : α}

theorem Takes.perm (takes : Takes key sources element rest) :
    sources.flatten.Perm (element :: rest.flatten) := by
  cases takes with
  | @front before after element rest least =>
      simp only [List.flatten_append, List.flatten_cons, List.cons_append]
      exact List.perm_middle

theorem Takes.sorted (takes : Takes key sources element rest)
    (sorted : forall source, source ∈ sources -> Sorted key source) :
    forall source, source ∈ rest -> Sorted key source := by
  cases takes with
  | @front before after element rest least =>
      intro source member
      rcases List.mem_append.mp member with earlier | later
      · exact sorted source (List.mem_append_left _ earlier)
      · rcases List.mem_cons.mp later with rfl | later
        · exact (List.pairwise_cons.mp
            (sorted _ (List.mem_append_right _ (List.mem_cons_self ..)))).2
        · exact sorted source (List.mem_append_right _ (List.mem_cons_of_mem _ later))

/-- What is taken from sorted sources comes before all that is left of them. -/
theorem Takes.le (takes : Takes key sources element rest)
    (sorted : forall source, source ∈ sources -> Sorted key source) {other : α}
    (member : other ∈ rest.flatten) : key element ≤ key other := by
  have isSource : other ∈ sources.flatten := takes.perm.mem_iff.mpr (List.mem_cons_of_mem _ member)
  rcases List.mem_flatten.mp isSource with ⟨source, inSources, inSource⟩
  cases takes with
  | @front before after element rest least =>
      cases source with
      | nil => exact (List.not_mem_nil inSource).elim
      | cons head tail =>
          have begins := least (head :: tail) inSources head rfl
          rcases List.mem_cons.mp inSource with rfl | inTail
          · exact begins
          · exact begins.trans ((List.pairwise_cons.mp (sorted _ inSources)).1 other inTail)

variable {inputs : List (List α)} {emitted : List α}

theorem Merging.start (inputs : List (List α)) : Merging key inputs [] inputs where
  keys place := by
    rw [List.map_nil]
    exact ⟨.inr, fun either => either.resolve_left (List.not_mem_nil)⟩
  inOrder sorted :=
    { ascending := List.Pairwise.nil
      sorted := sorted
      ahead := fun _ member => (List.not_mem_nil member).elim }

/-- The key of what is taken is one of those left before. -/
theorem Takes.keys (takes : Takes key sources element rest) (place : κ) :
    place ∈ sources.flatten.map key <-> place = key element ∨ place ∈ rest.flatten.map key := by
  rw [(takes.perm.map key).mem_iff, List.map_cons, List.mem_cons]

/-- An element that differs from the last one is given out. -/
theorem Merging.emit (merging : Merging key inputs emitted sources)
    (takes : Takes key sources element rest)
    (differs : emitted.getLast?.map key ≠ some (key element)) :
    Merging key inputs (emitted ++ [element]) rest where
  keys place := by
    rw [merging.keys, takes.keys, List.map_append, List.mem_append, List.map_singleton,
      List.mem_singleton, or_assoc]
  inOrder sorted := by
    have inOrder := merging.inOrder sorted
    have taken : element ∈ sources.flatten := takes.perm.mem_iff.mpr (List.mem_cons_self ..)
    refine ⟨List.pairwise_append.mpr ⟨inOrder.ascending, List.pairwise_singleton _ _, ?_⟩,
      takes.sorted inOrder.sorted, ?_⟩
    · intro earlier member other isElement
      cases List.mem_singleton.mp isElement
      rcases emitted.eq_nil_or_concat with rfl | ⟨before, last, rfl⟩
      · exact (List.not_mem_nil member).elim
      · rw [List.concat_eq_append] at *
        rw [List.getLast?_concat] at differs
        have lastBefore : key last < key element :=
          lt_of_le_of_ne (inOrder.ahead last (List.mem_append_right _ (List.mem_singleton_self _))
            element taken) fun same => differs (congrArg some same)
        rcases List.mem_append.mp member with earlier' | isLast
        · have ascends := (List.pairwise_append.mp inOrder.ascending).2.2 earlier earlier' last
            (List.mem_singleton_self _)
          exact ascends.trans lastBefore
        · cases List.mem_singleton.mp isLast
          exact lastBefore
    · intro earlier member later isLeft
      rcases List.mem_append.mp member with before | isElement
      · exact inOrder.ahead earlier before later
          (takes.perm.mem_iff.mpr (List.mem_cons_of_mem _ isLeft))
      · cases List.mem_singleton.mp isElement
        exact takes.le inOrder.sorted isLeft

/-- An element with the key of the last one is left out. -/
theorem Merging.skip (merging : Merging key inputs emitted sources)
    (takes : Takes key sources element rest)
    (same : emitted.getLast?.map key = some (key element)) :
    Merging key inputs emitted rest where
  keys place := by
    have given : key element ∈ emitted.map key := by
      rcases Option.map_eq_some_iff.mp same with ⟨last, isLast, sameKey⟩
      exact List.mem_map.mpr ⟨last, List.mem_of_getLast? isLast, sameKey⟩
    rw [merging.keys, takes.keys]
    refine ⟨?_, Or.imp_right .inr⟩
    rintro (earlier | rfl | later)
    · exact .inl earlier
    · exact .inl given
    · exact .inr later
  inOrder sorted :=
    { ascending := (merging.inOrder sorted).ascending
      sorted := takes.sorted (merging.inOrder sorted).sorted
      ahead := fun earlier member later isLeft =>
        (merging.inOrder sorted).ahead earlier member later
          (takes.perm.mem_iff.mpr (List.mem_cons_of_mem _ isLeft)) }

/-- A merge that has used up its sources has given out all their keys. -/
theorem Merging.finish (merging : Merging key inputs emitted sources)
    (usedUp : sources.flatten = []) (place : κ) :
    place ∈ emitted.map key <-> place ∈ inputs.flatten.map key := by
  rw [merging.keys, usedUp, List.map_nil]
  exact ⟨.inl, fun either => either.resolve_right List.not_mem_nil⟩

end KWayMerge
end Telescope
