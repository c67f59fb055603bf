import Telescope.AgentMetrics.Registry

namespace Telescope
namespace AgentMetrics

/-!
# Series and their labels

A series is found by the text of its labels.  All points of a metric have labels of the
same names and kinds, so that two texts without the separator in them are the same only
for the same labels.
-/

/-! ## Joined parts -/

def NulFree (text : Units) : Prop := (0 : Text.CodeUnit) ∉ text

theorem append_nul_inj {left right leftRest rightRest : Units} (leftFree : NulFree left) (rightFree : NulFree right)
    (same : left ++ 0 :: leftRest = right ++ 0 :: rightRest) : left = right ∧ leftRest = rightRest := by
  induction left generalizing right with
  | nil =>
      cases right with
      | nil => exact ⟨rfl, (List.cons.inj same).2⟩
      | cons unit right =>
          rcases List.cons.inj same with ⟨isNul, _⟩
          exact (rightFree (isNul ▸ List.mem_cons_self)).elim
  | cons unit left inductionHypothesis =>
      cases right with
      | nil =>
          rcases List.cons.inj same with ⟨isNul, _⟩
          exact (leftFree (isNul ▸ List.mem_cons_self)).elim
      | cons other right =>
          rcases List.cons.inj same with ⟨rfl, rest⟩
          rcases inductionHypothesis (fun member => leftFree (List.mem_cons_of_mem _ member))
            (fun member => rightFree (List.mem_cons_of_mem _ member)) rest with ⟨rfl, tails⟩
          exact ⟨rfl, tails⟩

/-- As many parts without the separator are told apart by their joined text. -/
theorem joinNul_inj {left right : List Units} (leftFree : forall part, part ∈ left -> NulFree part)
    (rightFree : forall part, part ∈ right -> NulFree part) (length : left.length = right.length)
    (same : joinNul left = joinNul right) : left = right := by
  induction left generalizing right with
  | nil => exact (List.eq_nil_of_length_eq_zero length.symm).symm
  | cons part parts inductionHypothesis =>
      cases right with
      | nil => cases length
      | cons other others =>
          rw [List.forall_mem_cons] at leftFree rightFree
          cases parts with
          | nil =>
              cases others with
              | nil => exact congrArg (· :: []) same
              | cons _ _ => cases length
          | cons second rest =>
              cases others with
              | nil => cases length
              | cons _ _ =>
                  rcases append_nul_inj leftFree.1 rightFree.1 same with ⟨rfl, tails⟩
                  rw [inductionHypothesis leftFree.2 rightFree.2 (Nat.succ.inj length) tails]

/-! ## Labels of the same names and kinds -/

/-- The names of some labels, and which of them are booleans. -/
def signature (labels : MetricAttributes) : List (Units × Bool) :=
  labels.map fun field => (field.1, field.2.isBoolean)

def LabelsFree (labels : MetricAttributes) : Prop := forall field, field ∈ labels -> NulFree (labelPart field)

theorem text_inj {left right : AttributeValue} (kind : left.isBoolean = right.isBoolean)
    (same : left.text = right.text) : left = right := by
  cases left with
  | string text =>
      cases right with
      | string other => exact congrArg AttributeValue.string same
      | boolean value => cases kind
  | boolean value =>
      cases right with
      | string text => cases kind
      | boolean other =>
          cases value with
          | false =>
              cases other with
              | false => rfl
              | true => exact absurd same (by decide)
          | true =>
              cases other with
              | false => exact absurd same (by decide)
              | true => rfl

/-- Reordered values under the same distinct keys are in the same order. -/
theorem eq_of_perm_of_keys {κ ν : Type*} {left right : List (κ × ν)} (distinct : (left.map Prod.fst).Nodup)
    (keys : left.map Prod.fst = right.map Prod.fst) (perm : left.Perm right) : left = right := by
  refine List.ext_getElem perm.length_eq fun index isLeft isRight => ?_
  have rightDistinct : (right.map Prod.fst).Nodup := keys ▸ distinct
  have sameKey : left[index].1 = right[index].1 := by
    have here := congrArg (fun keys => keys[index]?) keys
    simp only [List.getElem?_map, List.getElem?_eq_getElem isLeft, List.getElem?_eq_getElem isRight,
      Option.map_some, Option.some.injEq] at here
    exact here
  exact List.inj_on_of_nodup_map rightDistinct (perm.subset (List.getElem_mem isLeft)) (List.getElem_mem isRight)
    sameKey

theorem keys_sortedLabels (labels : MetricAttributes) :
    (sortedLabels labels).map Prod.fst =
      (labels.map Prod.fst).insertionSort fun left right : Units => ¬ right < left :=
  List.map_insertionSort _ _ Prod.fst labels fun _ _ _ _ => Iff.rfl

theorem labelPart_inj {left right : Units × AttributeValue} (name : left.1 = right.1)
    (same : labelPart left = labelPart right) : left.2.text = right.2.text := by
  rw [labelPart, labelPart, name] at same
  exact List.append_cancel_left same

/-- The key of a series tells its labels. -/
theorem labelKey_inj {left right : MetricAttributes} (distinct : (left.map Prod.fst).Nodup)
    (alike : signature left = signature right) (leftFree : LabelsFree left) (rightFree : LabelsFree right)
    (same : labelKey left = labelKey right) : left = right := by
  have names : left.map Prod.fst = right.map Prod.fst := by
    have firsts := congrArg (List.map Prod.fst) alike
    rw [signature, signature, List.map_map, List.map_map] at firsts
    exact firsts
  have leftPerm : (sortedLabels left).Perm left := List.perm_insertionSort _ left
  have rightPerm : (sortedLabels right).Perm right := List.perm_insertionSort _ right
  have sortedNames : (sortedLabels left).map Prod.fst = (sortedLabels right).map Prod.fst := by
    rw [keys_sortedLabels, keys_sortedLabels, names]
  have parts : (sortedLabels left).map labelPart = (sortedLabels right).map labelPart := by
    refine joinNul_inj ?_ ?_ ?_ same
    · intro part member
      rcases List.mem_map.mp member with ⟨field, isField, rfl⟩
      exact leftFree field (leftPerm.subset isField)
    · intro part member
      rcases List.mem_map.mp member with ⟨field, isField, rfl⟩
      exact rightFree field (rightPerm.subset isField)
    · have lengths := congrArg List.length sortedNames
      rwa [List.length_map, List.length_map] at lengths ⊢
  let textual (field : Units × AttributeValue) : Units × Units := (field.1, field.2.text)
  have sortedTexts : (sortedLabels left).map textual = (sortedLabels right).map textual := by
    refine List.ext_getElem ?_ fun index isLeft isRight => ?_
    · have lengths := congrArg List.length parts
      rwa [List.length_map, List.length_map] at lengths ⊢
    · rw [List.length_map] at isLeft isRight
      have nameHere := congrArg (fun names => names[index]?) sortedNames
      have partHere := congrArg (fun parts => parts[index]?) parts
      simp only [List.getElem?_map, List.getElem?_eq_getElem isLeft, List.getElem?_eq_getElem isRight,
        Option.map_some, Option.some.injEq] at nameHere partHere
      rw [List.getElem_map, List.getElem_map]
      exact Prod.ext nameHere (labelPart_inj nameHere partHere)
  have texts : left.map textual = right.map textual := by
    refine eq_of_perm_of_keys ?_ ?_ ?_
    · rw [List.map_map]
      exact distinct
    · rw [List.map_map, List.map_map]
      exact names
    · exact ((leftPerm.map textual).symm.trans (List.Perm.of_eq sortedTexts)).trans (rightPerm.map textual)
  refine List.ext_getElem ?_ fun index isLeft isRight => ?_
  · have lengths := congrArg List.length texts
    rwa [List.length_map, List.length_map] at lengths
  · have kindHere := congrArg (fun kinds => kinds[index]?) alike
    have textHere := congrArg (fun texts => texts[index]?) texts
    simp only [signature, List.getElem?_map, List.getElem?_eq_getElem isLeft, List.getElem?_eq_getElem isRight,
      Option.map_some, Option.some.injEq] at kindHere textHere
    have sameText := Prod.ext_iff.mp textHere
    exact Prod.ext sameText.1 (text_inj (congrArg Prod.snd kindHere) sameText.2)

/-! ## The points of observations -/

/-- The names and models of an observation do not hold the separator. -/
def AgentObservation.NulFree : AgentObservation -> Prop
  | .usage u => AgentMetrics.NulFree u.feature ∧ AgentMetrics.NulFree u.model ∧ AgentMetrics.NulFree u.provider
  | .run r => AgentMetrics.NulFree r.agent ∧
      forall step, step ∈ r.stepTimings -> forall tool, tool ∈ step.tools -> AgentMetrics.NulFree tool.toolName

/-- The names and kinds of the labels of a metric. -/
def AgentMetricKey.signature : AgentMetricKey -> List (Units × Bool)
  | .costUsd | .audioSeconds | .requests =>
      [(units "feature", false), (units "model", false), (units "provider", false), (units "cost_source", false),
        (units "platform", true)]
  | .tokens => [(units "direction", false), (units "feature", false), (units "model", false)]
  | .toolDurationMs => [(units "tool", false)]
  | .runDurationMs | .runQueueMs | .runModelMs | .runToolsMs => [(units "agent", false), (units "status", false)]

theorem AgentMetricKey.signature_nodup (metric : AgentMetricKey) : (metric.signature.map Prod.fst).Nodup := by
  cases metric <;> decide

/-- The labels of a point are those of its metric. -/
structure MetricPoint.Labelled (point : MetricPoint) : Prop where
  alike : AgentMetrics.signature point.attributes = point.metric.signature
  free : LabelsFree point.attributes

theorem nulFree_append {left right : Units} (leftFree : NulFree left) (rightFree : NulFree right) :
    NulFree (left ++ right) :=
  fun member => (List.mem_append.mp member).elim leftFree rightFree

theorem labelsFree_cons {name : String} {value : AttributeValue} {labels : MetricAttributes}
    (nameFree : NulFree (units name)) (valueFree : NulFree value.text) (rest : LabelsFree labels) :
    LabelsFree ((units name, value) :: labels) :=
  List.forall_mem_cons.mpr
    ⟨nulFree_append (nulFree_append nameFree (by unfold NulFree; decide)) valueFree, rest⟩

theorem labelsFree_nil : LabelsFree [] := fun _ member => (List.not_mem_nil member).elim

theorem labelsFree_usageAttributes {u : UsageObservation} (free : AgentObservation.NulFree (.usage u)) :
    LabelsFree (usageAttributes u) := by
  refine labelsFree_cons (by unfold NulFree; decide) free.1 (labelsFree_cons (by unfold NulFree; decide) free.2.1
    (labelsFree_cons (by unfold NulFree; decide) free.2.2 (labelsFree_cons (by unfold NulFree; decide) ?_
      (labelsFree_cons (by unfold NulFree; decide) ?_ labelsFree_nil))))
  · cases u.costSource <;> (unfold NulFree; decide)
  · cases u.platform <;> (unfold NulFree; decide)

theorem labelled_usagePoints {u : UsageObservation} (free : AgentObservation.NulFree (.usage u)) {point : MetricPoint}
    (member : point ∈ usagePoints u) : point.Labelled := by
  have attributesFree := labelsFree_usageAttributes free
  rw [usagePoints, List.mem_append, List.mem_append, List.mem_append] at member
  rcases member with ((isRequests | isCost) | isAudio) | isTokens
  · cases List.mem_singleton.mp isRequests
    exact ⟨rfl, attributesFree⟩
  · rcases Option.map_eq_some_iff.mp (Option.mem_toList.mp isCost) with ⟨costUsd, _, rfl⟩
    exact ⟨rfl, attributesFree⟩
  · split at isAudio
    · cases List.mem_singleton.mp isAudio
      exact ⟨rfl, attributesFree⟩
    · cases isAudio
  · rcases List.mem_map.mp isTokens with ⟨tokens, isKept, rfl⟩
    have direction : NulFree tokens.1 := by
      have isListed := (List.mem_filter.mp isKept).1
      simp only [List.mem_cons, List.not_mem_nil, or_false] at isListed
      rcases isListed with rfl | rfl | rfl | rfl <;> (change (0 : Text.CodeUnit) ∉ units _; decide)
    exact ⟨rfl, labelsFree_cons (by unfold NulFree; decide) direction
      (labelsFree_cons (by unfold NulFree; decide) free.1
        (labelsFree_cons (by unfold NulFree; decide) free.2.1 labelsFree_nil))⟩

theorem labelsFree_runAttributes {r : RunObservation} (free : AgentObservation.NulFree (.run r)) :
    LabelsFree (runAttributes r) := by
  refine labelsFree_cons (by unfold NulFree; decide) free.1
    (labelsFree_cons (by unfold NulFree; decide) ?_ labelsFree_nil)
  cases r.status <;> (unfold NulFree; decide)

theorem mem_timedPoint {r : RunObservation} {metric : AgentMetricKey} {value : Option Rat} {point : MetricPoint}
    (member : point ∈ timedPoint r metric value) : point.metric = metric ∧ point.attributes = runAttributes r := by
  cases value with
  | none => cases member
  | some value =>
      rw [timedPoint] at member
      split at member
      · cases List.mem_singleton.mp member
        exact ⟨rfl, rfl⟩
      · cases member

theorem labelled_runPoints {r : RunObservation} (free : AgentObservation.NulFree (.run r)) {point : MetricPoint}
    (member : point ∈ runPoints r) : point.Labelled := by
  have timed : forall metric value, metric.signature = signature (runAttributes r) ->
      point ∈ timedPoint r metric value -> point.Labelled := by
    intro metric value alike isTimed
    rcases mem_timedPoint isTimed with ⟨isMetric, isLabels⟩
    refine ⟨?_, ?_⟩
    · rw [isMetric, isLabels, alike]
    · rw [isLabels]
      exact labelsFree_runAttributes free
  rw [runPoints, List.mem_append, List.mem_append, List.mem_append, List.mem_append] at member
  rcases member with (((isDuration | isQueue) | isModel) | isTools) | isTool
  · exact timed _ _ rfl isDuration
  · exact timed _ _ rfl isQueue
  · exact timed _ _ rfl isModel
  · exact timed _ _ rfl isTools
  · rcases List.mem_flatMap.mp isTool with ⟨step, isStep, isPoint⟩
    rcases List.mem_map.mp isPoint with ⟨tool, isKept, rfl⟩
    exact ⟨rfl, labelsFree_cons (by unfold NulFree; decide) (free.2 step isStep tool (List.mem_filter.mp isKept).1)
      labelsFree_nil⟩

/-- Every point of a clean observation has the labels of its metric. -/
theorem labelled_of_mem {observation : AgentObservation} (free : observation.NulFree) {point : MetricPoint}
    (member : point ∈ agentMetricPoints observation) : point.Labelled := by
  cases observation with
  | usage u => exact labelled_usagePoints free member
  | run r => exact labelled_runPoints free member

/-- Two points of one metric under one key have the same labels. -/
theorem MetricPoint.Labelled.eq_of_key {left right : MetricPoint} (leftLabelled : left.Labelled)
    (rightLabelled : right.Labelled) (metric : left.metric = right.metric)
    (key : labelKey left.attributes = labelKey right.attributes) : left.attributes = right.attributes := by
  refine labelKey_inj ?_ ?_ leftLabelled.free rightLabelled.free key
  · have names : left.attributes.map Prod.fst = (signature left.attributes).map Prod.fst := by
      rw [signature, List.map_map]
      rfl
    rw [names, leftLabelled.alike]
    exact left.metric.signature_nodup
  · rw [leftLabelled.alike, rightLabelled.alike, metric]

end AgentMetrics
end Telescope
