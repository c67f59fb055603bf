import Telescope.Config.ResolveConfig
import Telescope.Foundation.Elementwise

namespace Telescope
namespace Config

/-!
# What durations retain

A cutoff is so many milliseconds before the current time.  A duration retains entries when
its cutoff is a date before the current time, whenever that is.  The schema lets some
durations pass whose cutoff is the current time itself, and some whose cutoff is no date.
-/

/-- The duration is positive, and at every current time, which is counted from the epoch on,
its cutoff is a date before that. -/
def Retains (ms : Number) : Prop :=
  Number.lt (.finite 0) ms = true ∧ forall now : TimeValue, 0 ≤ now.ms ->
    Exists fun cutoff => newDate (Number.sub (.finite now.ms) ms) = some cutoff ∧ cutoff.ms < now.ms

/-! ## Numbers that retain -/

theorem truncate_le {value : Rat} {bound : Int} (atMost : value ≤ bound) : truncate value ≤ bound := by
  rw [truncate]
  split
  · exact Int.ceil_le.mpr atMost
  · exact Int.cast_le.mp ((Int.floor_le value).trans atMost)

theorem MAX_TIME_small : |-MAX_TIME| < 2 ^ 53 := by decide

theorem retains_of_range {ms : Rat} (atLeast : 1 ≤ ms) (atMost : ms ≤ MAX_TIME) : Retains (.finite ms) := by
  refine ⟨decide_eq_true (zero_lt_one.trans_le atLeast), fun now sinceEpoch => ?_⟩
  have inRange := now.inRange
  have nowNonneg : (0 : Rat) ≤ now.ms := by exact_mod_cast sinceEpoch
  have small : |now.ms - 1| < 2 ^ 53 := by
    rw [MAX_TIME] at inRange
    rw [abs_lt]
    omega
  rcases @Number.exists_round_between (now.ms - ms) _ _ MAX_TIME_small small
    (by push_cast; linarith) (by push_cast; linarith) with ⟨result, rounded, lower, upper⟩
  have upperBound : result ≤ MAX_TIME := by
    refine upper.trans ?_
    exact_mod_cast (by omega : now.ms - 1 ≤ MAX_TIME)
  have isDate : |result| ≤ MAX_TIME := abs_le.mpr ⟨by push_cast at lower; exact lower, upperBound⟩
  have cutoff := truncate_le upper
  refine ⟨⟨truncate result, truncate_inRange isDate⟩, ?_, by dsimp only; omega⟩
  rw [Number.sub, rounded, newDate, dif_pos isDate]

/-- The epoch as the current time. -/
def epoch : TimeValue := ⟨0, inRange_zero⟩

theorem newDate_of_early {number : Number} (early : number.place ≤ (Number.finite (-MAX_TIME - 1 : Int)).place) :
    newDate number = none := by
  cases number with
  | nan => rfl
  | infinity negative => rfl
  | finite value =>
      have bound := Number.place_finite_le.mp early
      refine dif_neg fun small => ?_
      have lower := (abs_le.mp small).1
      push_cast at bound
      linarith

/-- A duration beyond all dates has no cutoff. -/
theorem not_retains_of_late {ms : Number} (late : (Number.finite (MAX_TIME + 1 : Int)).place ≤ ms.place) :
    ¬ Retains ms := by
  intro retains
  rcases retains.2 epoch (le_refl 0) with ⟨cutoff, isCutoff, _before⟩
  have early : (Number.sub (.finite epoch.ms) ms).place ≤ (Number.finite (-MAX_TIME - 1 : Int)).place := by
    cases ms with
    | nan => exact bot_le
    | infinity negative =>
        cases negative with
        | true => exact absurd late (not_le.mpr (Number.bot_lt_place_finite _))
        | false => exact bot_le
    | finite value =>
        have bound := Number.place_finite_le.mp late
        refine Number.round_place_le (by decide) ?_
        push_cast at bound ⊢
        rw [epoch]
        push_cast
        linarith
  rw [newDate_of_early early] at isCutoff
  cases isCutoff

theorem not_retains_zero : ¬ Retains (.finite 0) :=
  fun retains => absurd retains.1 (by decide)

/-- A double that retains is a whole millisecond at least. -/
theorem range_of_retains {ms : Rat} (isDouble : Number.round ms = .finite ms) (retains : Retains (.finite ms)) :
    1 ≤ ms ∧ ms ≤ MAX_TIME := by
  rcases retains.2 epoch (le_refl 0) with ⟨cutoff, isCutoff, before⟩
  have difference : Number.sub (.finite epoch.ms) (.finite ms) = .finite (-ms) := by
    rw [Number.round_eq] at isDouble
    rw [Number.sub, epoch]
    dsimp only
    rw [Int.cast_zero, zero_sub, Number.round_eq, Number.nearest_neg, abs_neg]
    split at isDouble
    · cases isDouble
    · rename_i inRange
      rw [if_neg inRange, Number.finite.inj isDouble]
  rw [difference] at isCutoff
  by_cases isDate : |-ms| ≤ MAX_TIME
  · rw [newDate, dif_pos isDate] at isCutoff
    rw [<- Option.some_inj.mp isCutoff, epoch] at before
    have bounds := abs_le.mp isDate
    refine ⟨?_, by linarith [bounds.1]⟩
    change truncate (-ms) < 0 at before
    rw [truncate] at before
    split at before
    · have whole := (Int.le_ceil (-ms)).trans (Int.cast_le.mpr (by omega : ⌈-ms⌉ ≤ -1))
      push_cast at whole
      linarith
    · rename_i notNegative
      exact absurd (Int.floor_nonneg.mpr (not_lt.mp notNegative)) (not_le.mpr before)
  · rw [newDate, dif_neg isDate] at isCutoff
    cases isCutoff

/-! ## Texts that retain -/

/-- What so many units come to. -/
def textMs (digits : Units) (unit : Nat) : Number := (Number.round (Number.numeral digits)).mul (.finite unit)

theorem place_le_infinity (number : Number) : number.place ≤ (Number.infinity false).place := le_top

/-- The product is late when the exact one is. -/
theorem textMs_late {digits : Units} {unit : Nat} (late : MAX_TIME + 1 ≤ Number.numeral digits * unit) :
    (Number.finite (MAX_TIME + 1 : Int)).place ≤ (textMs digits unit).place := by
  have unitPositive : 0 < unit := by
    rcases Nat.eq_zero_or_pos unit with none | some
    · rw [none] at late
      exact absurd late (by simp [MAX_TIME])
    · exact some
  have unitLeast : (1 : Rat) ≤ unit := by exact_mod_cast unitPositive
  rw [textMs]
  by_cases small : (Number.numeral digits : Int) < 2 ^ 53
  · have exact : Number.round (Number.numeral digits) = .finite (Number.numeral digits) := by
      have whole := @Number.round_intCast (Number.numeral digits) (by rw [abs_of_nonneg (Int.natCast_nonneg _)]; exact small)
      rw [Int.cast_natCast] at whole
      exact whole
    rw [exact]
    refine Number.le_round_place (by decide) ?_
    exact_mod_cast late
  · have large : ((2 ^ 53 - 1 : Int) : Rat) ≤ Number.numeral digits := by
      have := not_lt.mp small
      exact_mod_cast (by omega : (2 ^ 53 - 1 : Int) ≤ Number.numeral digits)
    have place := Number.le_round_place (by decide) large
    cases rounded : Number.round (Number.numeral digits) with
    | nan => exact (Number.round_ne_nan _ rounded).elim
    | infinity negative =>
        rw [rounded] at place
        cases negative with
        | true => exact absurd place (not_le.mpr (Number.bot_lt_place_finite _))
        | false =>
            have nonzero : (unit : Rat) ≠ 0 := (zero_lt_one.trans_le unitLeast).ne'
            rw [Number.mul, if_neg nonzero, decide_eq_false (not_lt.mpr (zero_le_one.trans unitLeast))]
            exact place_le_infinity _
    | finite result =>
        rw [rounded] at place
        have bound := Number.place_finite_le.mp place
        refine Number.le_round_place (by decide) ?_
        have positive : (0 : Rat) ≤ result := le_trans (by norm_num) bound
        have scaled : result ≤ result * unit := le_mul_of_one_le_right positive unitLeast
        refine le_trans ?_ (bound.trans scaled)
        exact_mod_cast (by decide : MAX_TIME + 1 ≤ 2 ^ 53 - 1)

theorem textMs_exact {digits : Units} {unit : Nat} (positive : 0 < unit)
    (early : (Number.numeral digits * unit : Int) ≤ MAX_TIME) :
    textMs digits unit = .finite (Number.numeral digits * unit : Int) := by
  have factor : (Number.numeral digits : Int) ≤ Number.numeral digits * unit := by
    exact_mod_cast Nat.le_mul_of_pos_right _ positive
  have product : (0 : Int) ≤ Number.numeral digits * unit := by positivity
  rw [MAX_TIME] at early
  have whole := @Number.round_intCast (Number.numeral digits) (by rw [abs_lt]; omega)
  have scaled := @Number.round_intCast (Number.numeral digits * unit) (by rw [abs_lt]; omega)
  rw [Int.cast_natCast] at whole
  rw [textMs, whole, Number.mul, <- scaled]
  push_cast
  rfl

/-- A text retains just when it denotes a whole millisecond at least, and no more than dates
hold. -/
theorem retains_textMs_iff (digits : Units) {unit : Nat} (positive : 0 < unit) :
    Retains (textMs digits unit) <->
      1 ≤ Number.numeral digits * unit ∧ (Number.numeral digits * unit : Int) ≤ MAX_TIME := by
  by_cases early : (Number.numeral digits * unit : Int) ≤ MAX_TIME
  · rw [textMs_exact positive early]
    constructor
    · intro retains
      refine ⟨?_, early⟩
      by_contra none
      have zero : (Number.numeral digits * unit : Int) = 0 := by exact_mod_cast (by omega : Number.numeral digits * unit = 0)
      rw [zero] at retains
      exact not_retains_zero (by exact_mod_cast retains)
    · intro range
      exact retains_of_range (by exact_mod_cast range.1) (by exact_mod_cast range.2)
  · exact iff_of_false (not_retains_of_late (textMs_late (by omega))) fun range => early range.2

/-! ## Durations of options -/

/-- The values that are given as durations. -/
def durationValues (options : Value) : List Value :=
  match options.get (units "prune") with
  | .undefined => []
  | prune => prune.get (units "after") ::
      ((prune.get (units "perType")).fields.filter fun field => decide (field.1 ≠ units "__proto__")).map Prod.snd

/-- The exact number of milliseconds that a value denotes, as a number or in the string form. -/
def exactMs : Value -> Option Rat
  | .number (.finite ms) => some ms
  | .string text => (matchDuration (trim text)).map fun parts => (Number.numeral parts.1 * parts.2 : Nat)
  | _ => none

/-- A value passes the schema as a duration and is resolved to so many milliseconds. -/
def Resolves (value : Value) (ms : Number) : Prop :=
  Exists fun given => duration value = some given ∧ durationToMs given = .ok ms

theorem positive_of_matchDuration {text digits : Units} {unit : Nat} (found : matchDuration text = some (digits, unit)) :
    0 < unit := by
  rw [matchDuration] at found
  split at found
  · cases found
  · rcases Option.map_eq_some_iff.mp found with ⟨factor, isFactor, same⟩
    cases same
    have member := Fields.mem_of_lookup isFactor
    rw [DURATION_UNITS] at member
    simp only [List.mem_cons, Prod.mk.injEq, List.not_mem_nil, or_false] at member
    omega

/-- A number is a double. -/
def IsDouble : Value -> Prop
  | .number (.finite ms) => Number.round ms = .finite ms
  | _ => True

variable {value : Value}

/-- What is resolved retains just when the exact duration is a whole millisecond at least, and
no more than dates hold. -/
theorem retains_iff_exactMs {ms : Number} (resolves : Resolves value ms) (isDouble : IsDouble value) :
    Retains ms <-> Exists fun exact => exactMs value = some exact ∧ 1 ≤ exact ∧ exact ≤ MAX_TIME := by
  rcases resolves with ⟨given, passes, resolved⟩
  rw [duration, Option.or_eq_some_iff] at passes
  rcases passes with isNumber | ⟨_notPositive, isText⟩
  · rcases Option.map_eq_some_iff.mp isNumber with ⟨number, isPositive, rfl⟩
    cases resolved
    have isFinite : finite value = some number := (Option.filter_eq_some_iff.mp isPositive).1
    rw [finite.eq_def] at isFinite
    split at isFinite
    · cases isFinite
      constructor
      · intro retains
        exact ⟨number, rfl, range_of_retains isDouble retains⟩
      · rintro ⟨exact, isExact, range⟩
        cases isExact
        exact retains_of_range range.1 range.2
    · cases isFinite
  · rcases Option.map_eq_some_iff.mp isText with ⟨text, isString, rfl⟩
    have shape : value = .string text := by
      rw [Value.string?.eq_def] at isString
      split at isString
      · cases isString
        rfl
      · cases isString
    rw [shape, exactMs]
    rw [durationToMs] at resolved
    cases found : matchDuration (trim text) with
    | none =>
        rw [found] at resolved
        cases resolved
    | some parts =>
        rcases parts with ⟨digits, unit⟩
        rw [found] at resolved
        cases resolved
        refine (retains_textMs_iff digits (positive_of_matchDuration found)).trans ?_
        rw [Option.map_some]
        constructor
        · intro range
          exact ⟨_, rfl, by exact_mod_cast range.1, by exact_mod_cast range.2⟩
        · rintro ⟨exact, isExact, atLeast, atMost⟩
          cases isExact
          exact ⟨by exact_mod_cast atLeast, by exact_mod_cast atMost⟩

/-! ## Resolved durations -/

/-- The durations of a pruner, the one for all types first. -/
def ParsedPrune.durations (parsed : ParsedPrune) : List Duration :=
  parsed.after :: (parsed.perType.getD []).map Prod.snd

def ResolvedPrune.durations (prune : ResolvedPrune) : List Number := prune.afterMs :: prune.perTypeMs.map Prod.snd

def pruneValues (prune : Value) : List Value :=
  prune.get (units "after") ::
    ((prune.get (units "perType")).fields.filter fun field => decide (field.1 ≠ units "__proto__")).map Prod.snd

variable {options : Value}

theorem durationValues_eq (given : options.get (units "prune") ≠ .undefined) :
    durationValues options = pruneValues (options.get (units "prune")) := by
  rw [durationValues.eq_def]
  split
  · rename_i absent
    exact (given absent).elim
  · rfl

theorem optional_eq_some_iff {α : Type} {schema : Value -> Option α} {parsed : Option α} :
    optional schema value = some parsed <->
      (value = .undefined ∧ parsed = none) ∨
        (value ≠ .undefined ∧ Exists fun result => schema value = some result ∧ parsed = some result) := by
  by_cases absent : value = .undefined
  · rw [absent, optional]
    constructor
    · intro same
      exact .inl ⟨rfl, (Option.some_inj.mp same).symm⟩
    · rintro (⟨_, rfl⟩ | ⟨present, _⟩)
      · rfl
      · exact (present rfl).elim
  · have shape : optional schema value = (schema value).map some := by
      rw [optional.eq_def]
      split
      · exact (absent rfl).elim
      · rfl
    rw [shape, Option.map_eq_some_iff]
    constructor
    · rintro ⟨result, isResult, same⟩
      exact .inr ⟨absent, result, isResult, same.symm⟩
    · rintro (⟨isAbsent, _⟩ | ⟨_, result, isResult, same⟩)
      · exact (absent isAbsent).elim
      · exact ⟨result, isResult, same.symm⟩

theorem record_duration {entries : List (Units × Duration)} (parsed : record duration value = some entries) :
    List.Forall₂ (fun value given => duration value = some given)
      ((value.fields.filter fun field => decide (field.1 ≠ units "__proto__")).map Prod.snd) (entries.map Prod.snd) := by
  rw [record.eq_def] at parsed
  split at parsed
  · rw [List.forall₂_map_left_iff, List.forall₂_map_right_iff]
    refine (Elementwise.mapM_eq_some_iff.mp parsed).imp fun field entry converted => ?_
    rcases Option.map_eq_some_iff.mp converted with ⟨given, isGiven, rfl⟩
    exact isGiven
  · cases parsed

/-- The values of durations are parsed one by one. -/
theorem pruneSchema_durations {parsed : ParsedPrune} (accepted : pruneSchema value = some parsed) :
    List.Forall₂ (fun value given => duration value = some given) (pruneValues value) parsed.durations := by
  simp only [pruneSchema, bind, Option.bind_eq_some_iff] at accepted
  rcases accepted with ⟨same, isObject, after, isAfter, perType, arePerType, settings, _areSettings, isParsed⟩
  have unchanged : same = value := by
    rw [object.eq_def] at isObject
    split at isObject
    · exact (Option.some_inj.mp isObject).symm
    · exact (Option.some_inj.mp isObject).symm
    · cases isObject
  rw [unchanged] at isAfter arePerType
  cases isParsed
  refine .cons isAfter ?_
  rcases optional_eq_some_iff.mp arePerType with ⟨absent, rfl⟩ | ⟨_present, entries, areEntries, rfl⟩
  · rw [absent]
    exact .nil
  · exact record_duration areEntries

/-- Parsed durations are resolved one by one. -/
theorem resolvePrune_durations {lockOption : Value} {parsed : ParsedPrune} {prune : ResolvedPrune}
    (resolved : resolvePrune lockOption parsed = .ok prune) :
    List.Forall₂ (fun given ms => durationToMs given = .ok ms) parsed.durations prune.durations := by
  rcases Elementwise.bind_eq_ok_iff.mp resolved with ⟨perTypeMs, arePerType, rest⟩
  rcases Elementwise.bind_eq_ok_iff.mp rest with ⟨afterMs, isAfter, same⟩
  cases same
  refine .cons isAfter ?_
  rw [List.forall₂_map_left_iff, List.forall₂_map_right_iff]
  refine (Elementwise.mapM_eq_ok_iff.mp arePerType).imp fun entry result converted => ?_
  rw [perTypeEntry] at converted
  cases resolvedMs : durationToMs entry.2 with
  | error failure =>
      rw [resolvedMs] at converted
      cases converted
  | ok ms =>
      rw [resolvedMs] at converted
      cases converted
      rfl

theorem exists_resolvePrune (lockOption : Value) {parsed : ParsedPrune}
    (readable : forall given, given ∈ parsed.durations -> Exists fun ms => durationToMs given = .ok ms) :
    Exists fun prune => resolvePrune lockOption parsed = .ok prune := by
  rw [ParsedPrune.durations, List.forall_mem_cons] at readable
  rcases readable.1 with ⟨afterMs, isAfter⟩
  have entries : forall entry, entry ∈ parsed.perType.getD [] -> Exists fun result => perTypeEntry entry = .ok result := by
    intro entry member
    rcases readable.2 entry.2 (List.mem_map_of_mem member) with ⟨ms, isMs⟩
    exact ⟨(entry.1, ms), by rw [perTypeEntry, isMs]; rfl⟩
  rcases Elementwise.exists_forall₂ entries with ⟨perTypeMs, arePerType⟩
  exact ⟨_, Elementwise.bind_eq_ok_iff.mpr ⟨perTypeMs, Elementwise.mapM_eq_ok_iff.mpr arePerType,
    Elementwise.bind_eq_ok_iff.mpr ⟨afterMs, isAfter, rfl⟩⟩⟩

/-! ## Accepted options -/

def ResolvedCoreConfig.durations (config : ResolvedCoreConfig) : List Number :=
  config.prune.elim [] ResolvedPrune.durations

/-- The options pass the schema, and their path is one. -/
def Admissible (options : Value) : Prop :=
  (optionsSchema options).isSome ∧ Exists fun path => normalizeTelescopePath (options.get (units "path")) = .ok path

theorem object_eq {same : Value} (isObject : object value = some same) : same = value := by
  rw [object.eq_def] at isObject
  split at isObject
  · exact (Option.some_inj.mp isObject).symm
  · exact (Option.some_inj.mp isObject).symm
  · cases isObject

theorem optionsSchema_prune {parsed : ParsedOptions} (accepted : optionsSchema options = some parsed) :
    optional pruneSchema (options.get (units "prune")) = some parsed.prune := by
  simp only [optionsSchema, bind, Option.bind_eq_some_iff] at accepted
  rcases accepted with ⟨same, isObject, _, _, _, _, _, _, prune, isPrune, _, _, _, _, isParsed⟩
  rw [object_eq isObject] at isPrune
  cases isParsed
  exact isPrune

/-- Options are accepted when their durations can be resolved, and these are what is resolved. -/
theorem resolveConfig_durations {hostname : Units} {config : ResolvedCoreConfig}
    (accepted : resolveConfig hostname options = .ok config) :
    Admissible options ∧ List.Forall₂ Resolves (durationValues options) config.durations := by
  rcases Elementwise.bind_eq_ok_iff.mp accepted with ⟨parsed, isParsed, rest⟩
  rcases Elementwise.bind_eq_ok_iff.mp rest with ⟨path, isPath, rest⟩
  rcases Elementwise.bind_eq_ok_iff.mp rest with ⟨prune, isPrune, same⟩
  cases same
  cases schema : optionsSchema options with
  | none => rw [schema] at isParsed; cases isParsed
  | some passed =>
      rw [schema] at isParsed
      cases isParsed
      refine ⟨⟨by rw [schema]; rfl, path, isPath⟩, ?_⟩
      rcases optional_eq_some_iff.mp (optionsSchema_prune schema) with ⟨absent, none⟩ | ⟨present, given, isGiven, some⟩
      · rw [none] at isPrune
        cases isPrune
        rw [durationValues, absent]
        exact .nil
      · rw [some] at isPrune
        rw [resolveGivenPrune] at isPrune
        cases resolved : resolvePrune ((options.get (units "prune")).get (units "lock")) given with
        | error failure => rw [resolved] at isPrune; cases isPrune
        | ok result =>
            rw [resolved] at isPrune
            cases isPrune
            rw [durationValues_eq present]
            exact Elementwise.forall₂_comp (pruneSchema_durations isGiven) (resolvePrune_durations resolved)

theorem exists_resolveConfig {hostname : Units} (admissible : Admissible options)
    (readable : forall value, value ∈ durationValues options -> forall given, duration value = some given ->
      Exists fun ms => durationToMs given = .ok ms) :
    Exists fun config => resolveConfig hostname options = .ok config := by
  rcases admissible with ⟨passes, path, isPath⟩
  rcases Option.isSome_iff_exists.mp passes with ⟨parsed, isParsed⟩
  have schema : (optionsSchema options).elim (.error .schema) .ok = (.ok parsed : Except ConfigError ParsedOptions) := by
    rw [isParsed]
    rfl
  have resolved : Exists fun prune => resolveGivenPrune options parsed.prune = .ok prune := by
    rcases optional_eq_some_iff.mp (optionsSchema_prune isParsed) with ⟨_absent, none⟩ | ⟨present, given, isGiven, some⟩
    · rw [none]
      exact ⟨.none, rfl⟩
    · rw [durationValues_eq present] at readable
      have all : forall duration, duration ∈ given.durations -> Exists fun ms => durationToMs duration = .ok ms := by
        intro duration member
        rcases Elementwise.exists_of_mem_right (pruneSchema_durations isGiven) member with ⟨value, isValue, passes⟩
        exact readable value isValue duration passes
      rcases exists_resolvePrune ((options.get (units "prune")).get (units "lock")) all with ⟨prune, isPrune⟩
      rw [some]
      exact ⟨.some prune, by rw [resolveGivenPrune, isPrune]; rfl⟩
  rcases resolved with ⟨prune, isPrune⟩
  exact ⟨_, Elementwise.bind_eq_ok_iff.mpr ⟨parsed, schema, Elementwise.bind_eq_ok_iff.mpr ⟨path, isPath,
    Elementwise.bind_eq_ok_iff.mpr ⟨prune, isPrune, rfl⟩⟩⟩⟩

/-- A duration can be read just when it denotes one. -/
theorem exists_durationToMs_iff {given : Duration} (passes : duration value = some given) :
    (Exists fun ms => durationToMs given = .ok ms) <-> (exactMs value).isSome := by
  rw [duration, Option.or_eq_some_iff] at passes
  rcases passes with isNumber | ⟨_notPositive, isText⟩
  · rcases Option.map_eq_some_iff.mp isNumber with ⟨number, isPositive, rfl⟩
    have isFinite : finite value = some number := (Option.filter_eq_some_iff.mp isPositive).1
    rw [finite.eq_def] at isFinite
    split at isFinite
    · exact iff_of_true ⟨_, rfl⟩ rfl
    · cases isFinite
  · rcases Option.map_eq_some_iff.mp isText with ⟨text, isString, rfl⟩
    rw [Value.string?.eq_def] at isString
    split at isString
    · cases isString
      rw [exactMs, durationToMs]
      cases matchDuration (trim text) with
      | none => exact iff_of_false (fun found => by cases found.choose_spec) Bool.false_ne_true
      | some parts => exact iff_of_true ⟨_, rfl⟩ rfl
    · cases isString

/-! ## Options without their durations -/

/-- Change a property, if it is there. -/
def mapField (name : Units) (change : Value -> Value) : Value -> Value
  | .object fields => .object (fields.map fun field => if field.1 = name then (field.1, change field.2) else field)
  | value => value

def plainDuration : Value -> Value
  | .undefined => .undefined
  | _ => .number (.finite 1)

def plainRecord : Value -> Value
  | .object fields => .object (fields.map fun field => (field.1, plainDuration field.2))
  | value => value

def plainPrune (prune : Value) : Value :=
  mapField (units "after") plainDuration (mapField (units "perType") plainRecord prune)

/-- The same options, with a millisecond for every duration. -/
def plainOptions (options : Value) : Value := mapField (units "prune") plainPrune options

theorem get_mapField_of_ne {name other : Units} (different : other ≠ name) (change : Value -> Value) (value : Value) :
    (mapField name change value).get other = value.get other := by
  cases value with
  | object fields =>
      rw [mapField, Value.get_eq, Value.get_eq, Value.fields, Value.fields]
      congr 1
      induction fields with
      | nil => rfl
      | cons field fields inductionHypothesis =>
          rw [Fields.lookup, Fields.lookup] at inductionHypothesis ⊢
          rw [List.map_cons, List.find?_cons, List.find?_cons]
          by_cases isName : field.1 = name
          · rw [if_pos isName]
            dsimp only
            rw [decide_eq_false fun isOther => different (isOther.symm.trans isName)]
            exact inductionHypothesis
          · rw [if_neg isName]
            by_cases isOther : field.1 = other
            · rw [decide_eq_true isOther]
            · rw [decide_eq_false isOther]
              exact inductionHypothesis
  | _ => rfl

theorem get_mapField {name : Units} {change : Value -> Value} (keeps : change .undefined = .undefined) (value : Value) :
    (mapField name change value).get name = change (value.get name) := by
  cases value with
  | object fields =>
      rw [mapField, Value.get_eq, Value.get_eq, Value.fields, Value.fields]
      induction fields with
      | nil => exact keeps.symm
      | cons field fields inductionHypothesis =>
          rw [Fields.lookup, Fields.lookup] at inductionHypothesis ⊢
          rw [List.map_cons, List.find?_cons, List.find?_cons]
          by_cases isName : field.1 = name
          · rw [if_pos isName]
            dsimp only
            rw [decide_eq_true isName]
            rfl
          · rw [if_neg isName, decide_eq_false isName]
            exact inductionHypothesis
  | _ => exact keeps.symm

theorem object_mapField {name : Units} {change : Value -> Value} {same : Value}
    (isObject : object (mapField name change value) = some same) : object value = some value := by
  cases value with
  | object fields => rfl
  | binary name byteLength => rfl
  | _ => cases isObject

/-- Every value passes the schema as a duration. -/
def AllPass (values : List Value) : Prop := forall value, value ∈ values -> (duration value).isSome

theorem record_plain {entries : List (Units × Duration)} (plain : record duration (plainRecord value) = some entries)
    (pass : AllPass ((value.fields.filter fun field => decide (field.1 ≠ units "__proto__")).map Prod.snd)) :
    Exists fun entries => record duration value = some entries := by
  cases value with
  | object fields =>
      have each : forall field, field ∈ fields.filter (fun field => decide (field.1 ≠ units "__proto__")) ->
          Exists fun entry => recordField duration field = some entry := by
        intro field member
        rcases Option.isSome_iff_exists.mp (pass field.2 (List.mem_map_of_mem member)) with ⟨given, isGiven⟩
        exact ⟨(field.1, given), by rw [recordField, isGiven]; rfl⟩
      rcases Elementwise.exists_forall₂ each with ⟨entries, areEntries⟩
      exact ⟨entries, Elementwise.mapM_eq_some_iff.mpr areEntries⟩
  | _ => cases plain

theorem pruneSettings_plain (prune : Value) : pruneSettings (plainPrune prune) = pruneSettings prune := by
  have same : forall name, name ≠ units "after" -> name ≠ units "perType" -> (plainPrune prune).get name = prune.get name := by
    intro name notAfter notPerType
    rw [plainPrune, get_mapField_of_ne notAfter, get_mapField_of_ne notPerType]
  rw [pruneSettings, same _ (by decide) (by decide), same _ (by decide) (by decide), same _ (by decide) (by decide),
    same _ (by decide) (by decide), same _ (by decide) (by decide), same _ (by decide) (by decide)]
  rfl

theorem pruneSchema_plain {prune : Value} {plain : ParsedPrune} (accepted : pruneSchema (plainPrune prune) = some plain)
    (pass : AllPass (pruneValues prune)) : Exists fun parsed => pruneSchema prune = some parsed := by
  rw [AllPass, pruneValues, List.forall_mem_cons] at pass
  rcases Option.isSome_iff_exists.mp pass.1 with ⟨after, isAfter⟩
  simp only [pruneSchema, bind, Option.bind_eq_some_iff] at accepted
  rcases accepted with ⟨same, isObject, _, _, perType, arePerType, settings, areSettings, _⟩
  rw [object_eq isObject, pruneSettings_plain] at areSettings
  rw [object_eq isObject, plainPrune, get_mapField_of_ne (by decide), get_mapField rfl] at arePerType
  have entries : Exists fun entries => optional (record duration) (prune.get (units "perType")) = some entries := by
    rcases optional_eq_some_iff.mp arePerType with ⟨absent, _⟩ | ⟨_present, entries, areEntries, _⟩
    · refine ⟨none, optional_eq_some_iff.mpr (.inl ⟨?_, rfl⟩)⟩
      generalize prune.get (units "perType") = value at absent
      cases value with
      | undefined => rfl
      | _ => cases absent
    · rcases record_plain areEntries pass.2 with ⟨entries, areEntries⟩
      refine ⟨some entries, optional_eq_some_iff.mpr (.inr ⟨fun absent => ?_, entries, areEntries, rfl⟩)⟩
      rw [absent] at areEntries
      cases areEntries
  rcases entries with ⟨entries, areEntries⟩
  refine ⟨⟨after, entries, settings⟩, ?_⟩
  simp only [pruneSchema, bind, Option.bind_eq_some_iff]
  exact ⟨prune, object_mapField (object_mapField isObject), after, isAfter, entries, areEntries, settings, areSettings, rfl⟩

/-- Options are admissible like those without their durations. -/
theorem admissible_plain (plain : Admissible (plainOptions options)) (pass : AllPass (durationValues options)) :
    Admissible options := by
  rcases plain with ⟨passes, path, isPath⟩
  have same : forall name, name ≠ units "prune" -> (plainOptions options).get name = options.get name :=
    fun name different => get_mapField_of_ne different plainPrune options
  rw [same _ (by decide)] at isPath
  refine ⟨?_, path, isPath⟩
  rcases Option.isSome_iff_exists.mp passes with ⟨parsed, accepted⟩
  simp only [optionsSchema, bind, Option.bind_eq_some_iff] at accepted
  rcases accepted with ⟨value, isObject, enabled, isEnabled, sampling, isSampling, recorder, isRecorder, prune, isPrune,
    archive, isArchive, instanceId, isInstance, _⟩
  rw [object_eq isObject] at isEnabled isSampling isRecorder isPrune isArchive isInstance
  rw [same _ (by decide)] at isEnabled isSampling isRecorder isArchive isInstance
  rw [plainOptions, get_mapField rfl] at isPrune
  have prunes : Exists fun prune => optional pruneSchema (options.get (units "prune")) = some prune := by
    by_cases absent : options.get (units "prune") = .undefined
    · exact ⟨none, optional_eq_some_iff.mpr (.inl ⟨absent, rfl⟩)⟩
    · rw [durationValues_eq absent] at pass
      rcases optional_eq_some_iff.mp isPrune with ⟨isUndefined, _⟩ | ⟨_present, plain, isPlain, _⟩
      · generalize options.get (units "prune") = value at absent isUndefined
        cases value with
        | undefined => exact (absent rfl).elim
        | _ => cases isUndefined
      · rcases pruneSchema_plain isPlain pass with ⟨parsed, isParsed⟩
        exact ⟨some parsed, optional_eq_some_iff.mpr (.inr ⟨absent, parsed, isParsed, rfl⟩)⟩
  rcases prunes with ⟨prune, isPrune⟩
  refine Option.isSome_iff_exists.mpr ⟨⟨enabled, sampling, recorder, prune, archive, instanceId⟩, ?_⟩
  simp only [optionsSchema, bind, Option.bind_eq_some_iff]
  exact ⟨options, object_mapField isObject, enabled, isEnabled, sampling, isSampling, recorder, isRecorder, prune, isPrune,
    archive, isArchive, instanceId, isInstance, rfl⟩

/-! ## Validity -/

/-- What a value denotes, as a number or in the string form. -/
def Denotes : Value -> Number -> Prop
  | .number number, ms => ms = number
  | .string text, ms => Exists fun parts => matchDuration (trim text) = some parts ∧ ms = textMs parts.1 parts.2
  | _, _ => False

/-- Every duration of accepted options retains. -/
def Sound (hostname : Units) (options : Value) : Prop :=
  forall config, resolveConfig hostname options = .ok config -> forall ms, ms ∈ config.durations -> Retains ms

/-- Options whose durations all retain are not rejected on their account: they are accepted
like the same options with a millisecond for every duration. -/
def Welcomed (hostname : Units) (options : Value) : Prop :=
  (forall value, value ∈ durationValues options -> Exists fun ms => Denotes value ms ∧ Retains ms) ->
    (Exists fun config => resolveConfig hostname (plainOptions options) = .ok config) ->
      Exists fun config => resolveConfig hostname options = .ok config

/-- When the options pass the schema and all durations can be read, all of them are at least a
millisecond and no more than dates hold. -/
def Bounded (options : Value) : Prop :=
  Admissible options -> (forall value, value ∈ durationValues options -> (exactMs value).isSome) ->
    forall value, value ∈ durationValues options -> forall ms, exactMs value = some ms -> 1 ≤ ms ∧ ms ≤ MAX_TIME

theorem finite_of_retains {number : Number} (retains : Retains number) :
    Exists fun ms => number = .finite ms ∧ 0 < ms := by
  cases number with
  | nan => exact absurd retains.1 Bool.false_ne_true
  | infinity negative =>
      cases negative with
      | true => exact absurd retains.1 Bool.false_ne_true
      | false => exact (not_retains_of_late (place_le_infinity _) retains).elim
  | finite ms => exact ⟨ms, rfl, of_decide_eq_true retains.1⟩

/-- What denotes a duration that retains passes the schema and is resolved. -/
theorem resolves_of_denotes {ms : Number} (denotes : Denotes value ms) (retains : Retains ms) :
    Resolves value ms := by
  cases value with
  | number number =>
      rcases finite_of_retains retains with ⟨exact, rfl, isPositive⟩
      rw [<- (denotes : Number.finite exact = number)]
      have passes : positive (.number (.finite exact)) = some exact :=
        Option.filter_eq_some_iff.mpr ⟨rfl, decide_eq_true isPositive⟩
      exact ⟨.number exact, by rw [duration, passes]; rfl, rfl⟩
  | string text =>
      rcases denotes with ⟨⟨digits, unit⟩, found, rfl⟩
      refine ⟨.text text, rfl, ?_⟩
      rw [durationToMs, found]
      rfl
  | _ => cases denotes

theorem welcomed (hostname : Units) (options : Value) : Welcomed hostname options := by
  rintro retain ⟨plain, isPlain⟩
  have resolve : forall value, value ∈ durationValues options -> Exists fun ms => Resolves value ms := by
    intro value member
    rcases retain value member with ⟨ms, denotes, retains⟩
    exact ⟨ms, resolves_of_denotes denotes retains⟩
  have pass : AllPass (durationValues options) := by
    intro value member
    rcases resolve value member with ⟨ms, given, passes, _resolved⟩
    rw [passes]
    rfl
  refine exists_resolveConfig (admissible_plain (resolveConfig_durations isPlain).1 pass) ?_
  intro value member given passes
  rcases resolve value member with ⟨ms, same, passesToo, resolved⟩
  rw [passes] at passesToo
  cases passesToo
  exact ⟨ms, resolved⟩

theorem sound_iff (hostname : Units) (doubles : forall value, value ∈ durationValues options -> IsDouble value) :
    Sound hostname options <-> Bounded options := by
  constructor
  · intro sound admissible readable value member exact isExact
    have resolvable : forall value, value ∈ durationValues options -> forall given, duration value = some given ->
        Exists fun ms => durationToMs given = .ok ms :=
      fun value member given passes => (exists_durationToMs_iff passes).mpr (readable value member)
    rcases @exists_resolveConfig _ hostname admissible resolvable with ⟨config, accepted⟩
    rcases Elementwise.exists_of_mem_left (resolveConfig_durations accepted).2 member with ⟨ms, isMs, resolves⟩
    rcases (retains_iff_exactMs resolves (doubles value member)).mp (sound config accepted ms isMs) with ⟨same, isSame, range⟩
    rw [isExact] at isSame
    cases isSame
    exact range
  · intro bounded config accepted ms isMs
    rcases resolveConfig_durations accepted with ⟨admissible, resolved⟩
    have readable : forall value, value ∈ durationValues options -> (exactMs value).isSome := by
      intro value member
      rcases Elementwise.exists_of_mem_left resolved member with ⟨ms, _isMs, given, passes, isResolved⟩
      exact (exists_durationToMs_iff passes).mp ⟨ms, isResolved⟩
    rcases Elementwise.exists_of_mem_right resolved isMs with ⟨value, member, resolves⟩
    rcases Option.isSome_iff_exists.mp (readable value member) with ⟨exact, isExact⟩
    exact (retains_iff_exactMs resolves (doubles value member)).mpr
      ⟨exact, isExact, bounded admissible readable value member exact isExact⟩

/-- The durations of accepted options retain, and options whose durations retain are accepted,
just when those that can be read are at least a millisecond and no more than dates hold. -/
theorem retention_valid_iff (hostname : Units) {options : Value}
    (doubles : forall value, value ∈ durationValues options -> IsDouble value) :
    (Sound hostname options ∧ Welcomed hostname options) <-> Bounded options :=
  (and_iff_left (welcomed hostname options)).trans (sound_iff hostname doubles)

/-- Options with one duration for all types. -/
def prunedAfter (after : Value) : Value :=
  .object [(units "prune", .object [(units "after", after)])]

theorem retention_valid_day :
    Sound (units "host") (prunedAfter (.string (units "1d"))) ∧ Welcomed (units "host") (prunedAfter (.string (units "1d"))) := by
  refine (retention_valid_iff (units "host") ?_).mpr ?_
  · intro value member
    rw [show durationValues (prunedAfter (.string (units "1d"))) = [.string (units "1d")] from rfl,
      List.mem_singleton] at member
    rw [member]
    trivial
  · intro _admissible _readable value member ms isExact
    rw [show durationValues (prunedAfter (.string (units "1d"))) = [.string (units "1d")] from rfl,
      List.mem_singleton] at member
    rw [member, show exactMs (.string (units "1d")) = some 86400000 by decide +kernel] at isExact
    cases isExact
    exact ⟨by norm_num, by norm_num [MAX_TIME]⟩

/-- A text of no days is accepted, and its cutoff is the current time. -/
theorem no_days_not_valid : ¬ (Sound (units "host") (prunedAfter (.string (units "0d"))) ∧
    Welcomed (units "host") (prunedAfter (.string (units "0d")))) := by
  rintro ⟨sound, _welcomed⟩
  have accepted : Exists fun config => resolveConfig (units "host") (prunedAfter (.string (units "0d"))) = .ok config ∧
      config.durations = [.finite 0] := ⟨_, rfl, by decide +kernel⟩
  rcases accepted with ⟨config, accepted, durations⟩
  exact not_retains_zero (sound config accepted _ (durations ▸ List.mem_singleton_self _))

end Config
end Telescope
