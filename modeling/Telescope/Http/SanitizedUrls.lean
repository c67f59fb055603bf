import Telescope.Http.AlikeUrls

namespace Telescope
namespace Http

/-!
# Redacting parameters

Lists of parameters agree outside the hidden names.  Setting a name to one value in both
makes them agree on that name as well, so that once every sensitive name is set, lists
that agreed on the others are the same.
-/

/-- The same names, and the same values but for the hidden names. -/
def Agree (hidden : Units -> Prop) (parameters others : List (Units × Units)) : Prop :=
  List.Forall₂ (fun parameter other => parameter.1 = other.1 ∧ (parameter.2 = other.2 ∨ hidden parameter.1))
    parameters others

namespace Agree

variable {hidden : Units -> Prop} {parameters others : List (Units × Units)}

theorem names (agree : Agree hidden parameters others) : parameters.map Prod.fst = others.map Prod.fst := by
  induction agree with
  | nil => rfl
  | cons both _ inductionHypothesis => rw [List.map_cons, List.map_cons, both.1, inductionHypothesis]

theorem eq_of_shown (agree : Agree hidden parameters others)
    (shown : forall parameter, parameter ∈ parameters -> ¬ hidden parameter.1) : parameters = others := by
  induction agree with
  | nil => rfl
  | cons both _ inductionHypothesis =>
      rw [List.forall_mem_cons] at shown
      rw [inductionHypothesis shown.2, Prod.ext both.1 (both.2.resolve_right shown.1)]

/-- Only the hidden names that occur matter. -/
theorem occurring (agree : Agree hidden parameters others) :
    Agree (fun name => hidden name ∧ name ∈ parameters.map Prod.fst) parameters others := by
  induction agree with
  | nil => exact .nil
  | cons both _ inductionHypothesis =>
      refine .cons ⟨both.1, both.2.imp_right fun isHidden => ⟨isHidden, List.mem_cons_self ..⟩⟩ ?_
      exact inductionHypothesis.imp fun _ _ both =>
        ⟨both.1, both.2.imp_right fun isHidden => ⟨isHidden.1, List.mem_cons_of_mem _ isHidden.2⟩⟩

theorem filter (agree : Agree hidden parameters others) (name : Units) :
    Agree (fun other => hidden other ∧ other ≠ name) (parameters.filter fun parameter => !decide (parameter.1 = name))
      (others.filter fun parameter => !decide (parameter.1 = name)) := by
  induction agree with
  | nil => exact .nil
  | @cons parameter other _ _ both _ inductionHypothesis =>
      by_cases isName : parameter.1 = name
      · have isOther : other.1 = name := both.1 ▸ isName
        rw [List.filter_cons_of_neg (by rw [decide_eq_true isName]; exact Bool.false_ne_true),
          List.filter_cons_of_neg (by rw [decide_eq_true isOther]; exact Bool.false_ne_true)]
        exact inductionHypothesis
      · have notOther : other.1 ≠ name := fun isOther => isName (both.1.trans isOther)
        rw [List.filter_cons_of_pos (by rw [decide_eq_false isName]; rfl),
          List.filter_cons_of_pos (by rw [decide_eq_false notOther]; rfl)]
        exact .cons ⟨both.1, both.2.imp_right fun isHidden => ⟨isHidden, isName⟩⟩ inductionHypothesis

theorem setParameter (agree : Agree hidden parameters others) (name value : Units) :
    Agree (fun other => hidden other ∧ other ≠ name) (Url.setParameter parameters name value)
      (Url.setParameter others name value) := by
  induction agree with
  | nil => exact .cons ⟨rfl, .inl rfl⟩ .nil
  | @cons parameter other _ _ both rest inductionHypothesis =>
      rw [Url.setParameter, Url.setParameter]
      by_cases isName : parameter.1 = name
      · have isOther : other.1 = name := both.1 ▸ isName
        rw [if_pos isName, if_pos isOther]
        exact .cons ⟨rfl, .inl rfl⟩ (filter rest name)
      · have notOther : other.1 ≠ name := fun isOther => isName (both.1.trans isOther)
        rw [if_neg isName, if_neg notOther]
        exact .cons ⟨both.1, both.2.imp_right fun isHidden => ⟨isHidden, isName⟩⟩ inductionHypothesis

end Agree

/-! ## The loop -/

/-- The parameters after the loop over these names. -/
def redactedParameters (keys : List Units) (parameters : List (Units × Units)) : List (Units × Units) :=
  keys.foldl (fun parameters key => if isSensitive key then Url.setParameter parameters key REDACTED else parameters)
    parameters

/-- The query that is written for parameters. -/
def queryOf (web : Web) (parameters : List (Units × Units)) : Option Units :=
  if (web.serialize parameters).isEmpty then none else some (web.serialize parameters)

theorem redactedParameters_of_none {keys : List Units} (ordinary : keys.any isSensitive = false)
    (parameters : List (Units × Units)) : redactedParameters keys parameters = parameters := by
  induction keys with
  | nil => rfl
  | cons key keys inductionHypothesis =>
      rw [List.any_cons, Bool.or_eq_false_iff] at ordinary
      rw [redactedParameters, List.foldl_cons, ordinary.1, if_neg Bool.false_ne_true]
      exact inductionHypothesis ordinary.2

/-- The loop changes the parameters, and the query if any name is sensitive. -/
theorem foldl_setSearchParam (web : Web) (keys : List Units) (url : Url) :
    keys.foldl (fun url key => if isSensitive key then url.setSearchParam web key REDACTED else url) url =
      { url with
        parameters := redactedParameters keys url.parameters
        query := if keys.any isSensitive then queryOf web (redactedParameters keys url.parameters) else url.query } := by
  induction keys generalizing url with
  | nil => rfl
  | cons key keys inductionHypothesis =>
      rw [List.foldl_cons, inductionHypothesis, redactedParameters, redactedParameters, List.foldl_cons, List.any_cons]
      cases isSensitive key with
      | false => rfl
      | true =>
          rw [if_pos rfl, Bool.true_or, if_pos rfl]
          cases anyLater : keys.any isSensitive with
          | true => rfl
          | false =>
              have unchanged := redactedParameters_of_none anyLater
              change { url.setSearchParam web key REDACTED with
                parameters := redactedParameters keys (Url.setParameter url.parameters key REDACTED)
                query := queryOf web (Url.setParameter url.parameters key REDACTED) } =
                { url with
                  parameters := redactedParameters keys (Url.setParameter url.parameters key REDACTED)
                  query := queryOf web (redactedParameters keys (Url.setParameter url.parameters key REDACTED)) }
              rw [unchanged]
              rfl

theorem Agree.redacted {hidden : Units -> Prop} {parameters others : List (Units × Units)}
    (agree : Agree hidden parameters others) (keys : List Units) :
    Agree (fun name => hidden name ∧ ¬ (name ∈ keys ∧ isSensitive name = true)) (redactedParameters keys parameters)
      (redactedParameters keys others) := by
  induction keys generalizing hidden parameters others with
  | nil =>
      refine agree.imp fun _ _ both => ⟨both.1, both.2.imp_right fun isHidden => ⟨isHidden, fun found => ?_⟩⟩
      exact List.not_mem_nil found.1
  | cons key keys inductionHypothesis =>
      rw [redactedParameters, redactedParameters, List.foldl_cons, List.foldl_cons]
      cases sensitive : isSensitive key with
      | false =>
          rw [if_neg Bool.false_ne_true, if_neg Bool.false_ne_true]
          refine (inductionHypothesis agree).imp fun _ _ both =>
            ⟨both.1, both.2.imp_right fun isHidden => ⟨isHidden.1, fun found => ?_⟩⟩
          rcases List.mem_cons.mp found.1 with isKey | later
          · exact Bool.false_ne_true (sensitive.symm.trans (isKey ▸ found.2))
          · exact isHidden.2 ⟨later, found.2⟩
      | true =>
          rw [if_pos rfl, if_pos rfl]
          refine (inductionHypothesis (agree.setParameter key REDACTED)).imp fun _ _ both =>
            ⟨both.1, both.2.imp_right fun isHidden => ⟨isHidden.1.1, fun found => ?_⟩⟩
          rcases List.mem_cons.mp found.1 with isKey | later
          · exact isHidden.1.2 isKey
          · exact isHidden.2 ⟨later, found.2⟩

/-- Once the sensitive names are set, no value of them shows. -/
theorem Agree.redacted_eq {parameters others : List (Units × Units)}
    (agree : Agree (fun name => isSensitive name = true) parameters others) :
    redactedParameters (parameters.map Prod.fst) parameters = redactedParameters (others.map Prod.fst) others := by
  rw [<- agree.names]
  refine (agree.occurring.redacted (parameters.map Prod.fst)).eq_of_shown fun parameter _ isHidden => ?_
  exact isHidden.2 ⟨isHidden.1.2, isHidden.1.1⟩

end Http
end Telescope

namespace Telescope
namespace Http

/-!
# Sanitizing alike URLs

URLs that differ in secrets only parse alike, and where they parse they are sanitized to the
same text but for their fragments.  A URL that does not parse is kept as it is.
-/

/-! ## The platform -/

/-- The units that a name or a value in a query is written with. -/
def isFormUnit (unit : Text.CodeUnit) : Bool :=
  decide (48 ≤ unit.val ∧ unit.val ≤ 57 ∨ 65 ≤ unit.val ∧ unit.val ≤ 90 ∨ 97 ≤ unit.val ∧ unit.val ≤ 122) ||
    decide (unit.val ∈ [37, 42, 43, 45, 46, 95])

/-- These, and the units between them. -/
def isQueryUnit (unit : Text.CodeUnit) : Bool :=
  isFormUnit unit || decide (unit ∈ [QUESTION_MARK, AMPERSAND, EQUALS])

/-- What is relied on of a platform. -/
structure Web.Lawful (web : Web) : Prop where
  /-- A userinfo shows in the credentials only. -/
  credentials : forall scheme userinfo host path, IsScheme scheme -> scheme ≠ [] -> IsUserinfo userinfo ->
    IsHost host -> IsPath path ->
      (web.site (siteText scheme userinfo host path)).map Site.withoutCredentials =
        (web.site (siteText scheme none host path)).map Site.withoutCredentials
  /-- Without a scheme and a base there is no URL. -/
  schemeless : forall rest, web.site (units "//" ++ rest) = none
  encode_plain : forall text unit, unit ∈ web.encode text -> isFormUnit unit = true
  /-- The units of a query stand for themselves in a fragment. -/
  encodeFragment_append : forall front rest, (forall unit, unit ∈ rest -> isQueryUnit unit = true) ->
    web.encodeFragment (front ++ rest) = web.encodeFragment front ++ rest

variable {web : Web}

/-! ## Alike URLs parse alike -/

theorem parse_compose {front : Units} {query : Option Units} (fragment : Option Units)
    (noQuery : QUESTION_MARK ∉ front) (noHash : HASH ∉ front)
    (queries : forall text, query = some text -> HASH ∉ text) :
    web.parse (compose front query fragment) =
      (web.site (cleanFront (query.isNone && fragment.isNone) front)).map fun site =>
        { site := site
          query := (query.map (cleanPart fragment.isNone)).map (web.encodeQuery site.protocol)
          parameters := (query.map (cleanPart fragment.isNone)).elim [] web.readParameters
          fragment := (fragment.map (cleanPart true)).map web.encodeFragment } := by
  have beforeHash : HASH ∉ cleanFront (query.isNone && fragment.isNone) front ++
      marked QUESTION_MARK (query.map (cleanPart fragment.isNone)) := by
    intro member
    rcases List.mem_append.mp member with inFront | inQuery
    · exact not_mem_cleanFront noHash _ inFront
    · cases query with
      | none => exact List.not_mem_nil inQuery
      | some text =>
          refine not_mem_cleanPart (queries text rfl) fragment.isNone ?_
          exact List.mem_of_ne_of_mem (by decide) inQuery
  rw [Web.parse, clean_compose, compose, cutAt_append_marked beforeHash]
  dsimp only
  rw [cutAt_append_marked (not_mem_cleanFront noQuery _)]

/-- Alike fronts are sites but for the credentials. -/
theorem Web.Lawful.site_of_alike (lawful : web.Lawful) {front other : Units} (alike : AlikeFront front other) :
    (web.site front).map Site.withoutCredentials = (web.site other).map Site.withoutCredentials := by
  cases alike with
  | same _ _ => rfl
  | @site scheme host path userinfo other isScheme isUserinfo isOther isHost isPath =>
      by_cases relative : scheme = []
      · rw [relative, siteText, siteText, List.nil_append, List.append_assoc, List.append_assoc, lawful.schemeless,
          List.append_assoc, List.append_assoc, lawful.schemeless]
      · rw [lawful.credentials scheme userinfo host path isScheme relative isUserinfo isHost isPath,
          lawful.credentials scheme other host path isScheme relative isOther isHost isPath]

/-! ## The parameters of alike queries -/

theorem readParameters_more {part rest : Units} (noAmpersand : AMPERSAND ∉ part) :
    web.readParameters (part ++ AMPERSAND :: rest) = web.readParameters part ++ web.readParameters rest := by
  rw [Web.readParameters, Web.readParameters, Web.readParameters,
    List.splitOn_append_cons_self_of_not_mem noAmpersand, List.splitOn_eq_singleton noAmpersand,
    <- List.map_append, <- List.filter_append, List.singleton_append]

/-- The name of a parameter as it is read. -/
def DecodesSensitive (web : Web) (name : Units) : Prop := isSensitive (web.decode name) = true

theorem readParameters_value {name value : Units} (noEquals : EQUALS ∉ name) (names : AMPERSAND ∉ name)
    (values : AMPERSAND ∉ value) :
    web.readParameters (name ++ EQUALS :: value) = [(web.decode name, web.decode value)] := by
  have noAmpersand : AMPERSAND ∉ name ++ EQUALS :: value := not_mem_append_cons (by decide) names values
  have whole := List.splitOn_eq_singleton noAmpersand
  have notEmpty : (!(name ++ EQUALS :: value).isEmpty) = true := by
    rw [List.isEmpty_eq_false_iff.mpr (List.append_ne_nil_of_right_ne_nil name (List.cons_ne_nil _ _))]
    rfl
  have kept : [name ++ EQUALS :: value].filter (fun part => !part.isEmpty) = [name ++ EQUALS :: value] :=
    List.filter_cons_of_pos notEmpty
  rw [Web.readParameters, whole, kept, List.map_singleton, cutAt_append_cons noEquals]
  rfl

theorem AlikePart.agree {part other : Units} (alike : AlikePart (DecodesSensitive web) part other) :
    Agree (fun name => isSensitive name = true) (web.readParameters part) (web.readParameters other) := by
  cases alike with
  | same _ _ => exact List.forall₂_same.mpr fun _ _ => ⟨rfl, .inl rfl⟩
  | value isSecret noEquals names values others =>
      rw [readParameters_value noEquals names.1 values.1, readParameters_value noEquals names.1 others.1]
      exact .cons ⟨rfl, .inr isSecret⟩ .nil

theorem AlikeQuery.agree {query other : Units} (alike : AlikeQuery (DecodesSensitive web) query other) :
    Agree (fun name => isSensitive name = true) (web.readParameters query) (web.readParameters other) := by
  induction alike with
  | last alike => exact alike.agree
  | more alike _ inductionHypothesis =>
      rw [readParameters_more alike.noAmpersand.1, readParameters_more alike.noAmpersand.2]
      exact List.rel_append alike.agree inductionHypothesis

/-- Queries without a sensitive name are the same. -/
theorem AlikeQuery.eq_of_ordinary {query other : Units} (alike : AlikeQuery (DecodesSensitive web) query other)
    (ordinary : forall parameter, parameter ∈ web.readParameters query -> isSensitive parameter.1 = false) :
    query = other := by
  induction alike with
  | last alike =>
      cases alike with
      | same _ _ => rfl
      | value isSecret noEquals names values _ =>
          rw [readParameters_value noEquals names.1 values.1] at ordinary
          exact (Bool.false_ne_true ((ordinary _ (List.mem_singleton_self _)).symm.trans isSecret)).elim
  | more alike _ inductionHypothesis =>
      rw [readParameters_more alike.noAmpersand.1] at ordinary
      have rests := inductionHypothesis fun parameter member => ordinary parameter (List.mem_append_right _ member)
      cases alike with
      | same _ _ => rw [rests]
      | value isSecret noEquals names values _ =>
          rw [readParameters_value noEquals names.1 values.1] at ordinary
          exact (Bool.false_ne_true ((ordinary _ (List.mem_append_left _ (List.mem_singleton_self _))).symm.trans
            isSecret)).elim

/-! ## Alike URLs are sanitized alike -/

/-- Parsed URLs that are the same but for secrets and the fragment. -/
structure AlikeParsed (url other : Url) : Prop where
  site : url.site.withoutCredentials = other.site.withoutCredentials
  parameters : Agree (fun name => isSensitive name = true) url.parameters other.parameters
  query : (forall parameter, parameter ∈ url.parameters -> isSensitive parameter.1 = false) -> url.query = other.query

theorem AlikeParsed.host_eq {url other : Url} (alike : AlikeParsed url other) : url.host = other.host := by
  have hosts := congrArg Site.host alike.site
  exact congrArg (fun host : Option Units => host.getD []) hosts

/-- After redaction only the fragment may differ. -/
theorem AlikeParsed.redacted {url other : Url} (alike : AlikeParsed url other) :
    redactParameters web other.withoutCredentials =
      { redactParameters web url.withoutCredentials with fragment := other.fragment } := by
  rw [redactParameters, redactParameters, foldl_setSearchParam, foldl_setSearchParam]
  have parameters := alike.parameters.redacted_eq
  have names := alike.parameters.names
  have queries : (if (other.parameters.map Prod.fst).any isSensitive then
        queryOf web (redactedParameters (other.parameters.map Prod.fst) other.parameters) else other.query) =
      if (url.parameters.map Prod.fst).any isSensitive then
        queryOf web (redactedParameters (url.parameters.map Prod.fst) url.parameters) else url.query := by
    rw [<- parameters, <- names]
    cases found : (url.parameters.map Prod.fst).any isSensitive with
    | true => rfl
    | false =>
        refine (alike.query fun parameter member => ?_).symm
        rw [List.any_eq_false] at found
        exact Bool.eq_false_iff.mpr (found parameter.1 (List.mem_map_of_mem member))
  change Url.mk _ _ _ _ = Url.mk _ _ _ _
  rw [Url.mk.injEq]
  exact ⟨alike.site.symm, queries, parameters.symm, rfl⟩

/-- Alike URLs both fail to parse, or parse alike, with the fragments that they have. -/
theorem Web.Lawful.parse_of_alike (lawful : web.Lawful) {front other : Units} {query otherQuery : Option Units}
    (alikeFront : AlikeFront front other) (alikeQuery : Option.Rel (AlikeQuery (IsSecret web)) query otherQuery)
    {fragment otherFragment : Option Units} (fragments : fragment.isNone = otherFragment.isNone) :
    (web.parse (compose front query fragment) = none ∧ web.parse (compose other otherQuery otherFragment) = none) ∨
      Exists fun url => Exists fun otherUrl =>
        web.parse (compose front query fragment) = some url ∧
          web.parse (compose other otherQuery otherFragment) = some otherUrl ∧ AlikeParsed url otherUrl ∧
          url.fragment = (fragment.map (cleanPart true)).map web.encodeFragment ∧
          otherUrl.fragment = (otherFragment.map (cleanPart true)).map web.encodeFragment := by
  have noMark := alikeFront.noMark
  have queries : (forall text, query = some text -> HASH ∉ text) ∧
      (forall text, otherQuery = some text -> HASH ∉ text) ∧ query.isNone = otherQuery.isNone := by
    cases alikeQuery with
    | none => exact ⟨fun _ isSome => (by cases isSome), fun _ isSome => (by cases isSome), rfl⟩
    | some alike =>
        refine ⟨fun text isSome => ?_, fun text isSome => ?_, rfl⟩
        · cases isSome
          exact alike.noHash.1
        · cases isSome
          exact alike.noHash.2
  rw [parse_compose fragment noMark.1.1 noMark.1.2 queries.1, parse_compose otherFragment noMark.2.1 noMark.2.2 queries.2.1,
    <- queries.2.2, <- fragments]
  have sites := lawful.site_of_alike (alikeFront.clean (query.isNone && fragment.isNone))
  cases isSite : web.site (cleanFront (query.isNone && fragment.isNone) front) with
  | none =>
      rw [isSite, Option.map_none] at sites
      rw [Option.map_eq_none_iff.mp sites.symm]
      exact .inl ⟨rfl, rfl⟩
  | some site =>
      rw [isSite, Option.map_some] at sites
      rcases Option.map_eq_some_iff.mp sites.symm with ⟨otherSite, isOther, bare⟩
      rw [isOther]
      refine .inr ⟨_, _, rfl, rfl, ?_, rfl, rfl⟩
      have protocols : site.protocol = otherSite.protocol := (congrArg Site.protocol bare).symm
      cases alikeQuery with
      | none => exact ⟨bare.symm, .nil, fun _ => rfl⟩
      | some alike =>
          have cleaned : AlikeQuery (DecodesSensitive web) (cleanPart fragment.isNone _) (cleanPart fragment.isNone _) :=
            alike.clean fragment.isNone
          refine ⟨bare.symm, cleaned.agree, fun ordinary => ?_⟩
          dsimp only [Option.map_some]
          rw [cleaned.eq_of_ordinary ordinary, protocols]

/-! ## What is recorded -/

/-- The recorded URL, the tag of the host and the family. -/
structure Identity where
  url : Runtime
  hostTags : List Units
  familyHash : Attempt Units

def identity (web : Web) (described : Described) : Identity where
  url := described.url
  hostTags := hostTags described.host
  familyHash := normalizeHttpTarget web described.method described.url

/-- A described method with a URL. -/
def describedAs (web : Web) (method : Runtime) (rawUrl : Units) : Described where
  method := method
  url := (sanitizeUrl web (.string rawUrl)).url
  host := (sanitizeUrl web (.string rawUrl)).host

theorem sanitizeUrl_of_parsed {text : Units} {url : Url} (parsed : web.parse text = some url) :
    sanitizeUrl web (.string text) =
      { url := .string (redactParameters web url.withoutCredentials).href, host := some url.host } := by
  rw [sanitizeUrl, Runtime.text]
  dsimp only
  rw [parsed]

theorem sanitizeUrl_of_unparsed {text : Units} (unparsed : web.parse text = none) :
    sanitizeUrl web (.string text) = { url := .string text, host := none } := by
  rw [sanitizeUrl, Runtime.text]
  dsimp only
  rw [unparsed]

theorem fragment_of_href {url : Url} {fragment : Option Units} (fragments : url.fragment.isNone = fragment.isNone)
    (same : url.href = { url with fragment := fragment }.href) : url.fragment = fragment := by
  have marks := List.append_cancel_left same
  cases isFragment : url.fragment with
  | none =>
      rw [isFragment, Option.isNone_none] at fragments
      exact (Option.isNone_iff_eq_none.mp fragments.symm).symm
  | some text =>
      cases fragment with
      | none =>
          rw [isFragment] at fragments
          cases fragments
      | some other =>
          rw [isFragment, marked, marked] at marks
          rw [(List.cons.inj marks).2]

theorem fragment_redacted (url : Url) : (redactParameters web url.withoutCredentials).fragment = url.fragment := by
  rw [redactParameters, foldl_setSearchParam]
  rfl

/-- Alike URLs are recorded alike if they parse and have one fragment, or are the same. -/
theorem Web.Lawful.identity_iff (lawful : web.Lawful) {method : Runtime} {front other : Units}
    {query otherQuery : Option Units} (alikeFront : AlikeFront front other)
    (alikeQuery : Option.Rel (AlikeQuery (IsSecret web)) query otherQuery) {fragment otherFragment : Option Units}
    (fragments : fragment.isNone = otherFragment.isNone) :
    identity web (describedAs web method (compose front query fragment)) =
        identity web (describedAs web method (compose other otherQuery otherFragment)) <->
      (web.parse (compose front query fragment) ≠ none ∧
        (fragment.map (cleanPart true)).map web.encodeFragment =
          (otherFragment.map (cleanPart true)).map web.encodeFragment) ∨
      compose front query fragment = compose other otherQuery otherFragment := by
  rcases lawful.parse_of_alike alikeFront alikeQuery fragments with
    ⟨unparsed, otherUnparsed⟩ | ⟨url, otherUrl, parsed, otherParsed, alike, isFragment, isOtherFragment⟩
  · constructor
    · intro same
      have urls := congrArg Identity.url same
      rw [identity, identity, describedAs, describedAs, sanitizeUrl_of_unparsed unparsed,
        sanitizeUrl_of_unparsed otherUnparsed] at urls
      exact .inr (Runtime.string.inj urls)
    · intro condition
      rcases condition with parses | same
      · exact (parses.1 unparsed).elim
      · rw [same]
  · constructor
    · intro same
      have urls := congrArg Identity.url same
      rw [identity, identity, describedAs, describedAs, sanitizeUrl_of_parsed parsed, sanitizeUrl_of_parsed otherParsed,
        alike.redacted] at urls
      refine .inl ⟨fun unparsed => ?_, ?_⟩
      · rw [parsed] at unparsed
        cases unparsed
      · rw [<- isFragment, <- isOtherFragment, <- fragment_redacted]
        refine fragment_of_href ?_ (Runtime.string.inj urls)
        rw [fragment_redacted, isFragment, isOtherFragment, Option.isNone_map, Option.isNone_map, Option.isNone_map,
          Option.isNone_map, fragments]
    · intro condition
      rcases condition with parses | same
      · have redacted := @AlikeParsed.redacted web _ _ alike
        rw [isOtherFragment, <- parses.2, <- isFragment, <- fragment_redacted] at redacted
        rw [identity, identity, describedAs, describedAs, sanitizeUrl_of_parsed parsed, sanitizeUrl_of_parsed otherParsed,
          redacted, alike.host_eq]
      · rw [same]

end Http
end Telescope
