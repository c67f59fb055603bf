import Telescope.Http.HttpClientWatcher

namespace Telescope
namespace Http

/-!
# URLs that differ in secrets

Two URLs are alike when they differ at most in the userinfo and in the values of
parameters with sensitive names.  Cleaning a URL, which may remove units from everywhere
in it, keeps them alike, and so does cutting it.
-/

/-! ## Alike texts -/

/-- Parts of a query: the same one, or one secret parameter with two values. -/
inductive AlikePart (secret : Units -> Prop) : Units -> Units -> Prop
  | same {part : Units} (noAmpersand : AMPERSAND ∉ part) (noHash : HASH ∉ part) : AlikePart secret part part
  | value {name value other : Units} (isSecret : secret name) (noEquals : EQUALS ∉ name)
      (names : AMPERSAND ∉ name ∧ HASH ∉ name) (values : AMPERSAND ∉ value ∧ HASH ∉ value)
      (others : AMPERSAND ∉ other ∧ HASH ∉ other) :
      AlikePart secret (name ++ EQUALS :: value) (name ++ EQUALS :: other)

inductive AlikeQuery (secret : Units -> Prop) : Units -> Units -> Prop
  | last {part other : Units} (alike : AlikePart secret part other) : AlikeQuery secret part other
  | more {part other rest others : Units} (alike : AlikePart secret part other)
      (alikeRest : AlikeQuery secret rest others) :
      AlikeQuery secret (part ++ AMPERSAND :: rest) (other ++ AMPERSAND :: others)

/-- `http:` or `https:` in letters of either case, or nothing in front of a URL that is
relative to the protocol. -/
def IsScheme (scheme : Units) : Prop :=
  scheme = [] ∨ Units.toLowerAscii scheme = units "http:" ∨ Units.toLowerAscii scheme = units "https:"

def userinfoText (userinfo : Option Units) : Units := userinfo.elim [] (· ++ [AT])

/-- An authority with its path. -/
def siteText (scheme : Units) (userinfo : Option Units) (host path : Units) : Units :=
  scheme ++ units "//" ++ userinfoText userinfo ++ host ++ path

/-- The units at which an authority ends. -/
def AUTHORITY_ENDS : List Text.CodeUnit := [SLASH, BACKSLASH, QUESTION_MARK, HASH]

structure IsUserinfo (userinfo : Option Units) : Prop where
  inside : forall text, userinfo = some text -> forall unit, unit ∈ text -> unit ∉ AUTHORITY_ENDS

structure IsHost (host : Units) : Prop where
  notEmpty : host ≠ []
  visible : forall unit, unit ∈ host -> isControl unit = false
  inside : forall unit, unit ∈ host -> unit ∉ AUTHORITY_ENDS
  noAt : AT ∉ host

structure IsPath (path : Units) : Prop where
  begins : forall unit rest, path = unit :: rest -> unit = SLASH ∨ unit = BACKSLASH
  noQuery : QUESTION_MARK ∉ path
  noHash : HASH ∉ path

/-- What stands in front of the query: the same text, or one site with two userinfos. -/
inductive AlikeFront : Units -> Units -> Prop
  | same {front : Units} (noQuery : QUESTION_MARK ∉ front) (noHash : HASH ∉ front) : AlikeFront front front
  | site {scheme host path : Units} {userinfo other : Option Units} (isScheme : IsScheme scheme)
      (isUserinfo : IsUserinfo userinfo) (isOther : IsUserinfo other) (isHost : IsHost host) (isPath : IsPath path) :
      AlikeFront (siteText scheme userinfo host path) (siteText scheme other host path)

/-- A URL of its parts. -/
def compose (front : Units) (query fragment : Option Units) : Units :=
  front ++ marked QUESTION_MARK query ++ marked HASH fragment

/-- The name stands, once the breaks in it are removed, for a sensitive one. -/
def IsSecret (web : Web) (name : Units) : Prop := isSensitive (web.decode (name.filter stays)) = true

inductive AlikeUrl (web : Web) : Units -> Units -> Prop
  | intro {front other : Units} {query otherQuery : Option Units} (alikeFront : AlikeFront front other)
      (alikeQuery : Option.Rel (AlikeQuery (IsSecret web)) query otherQuery) (fragment : Option Units) :
      AlikeUrl web (compose front query fragment) (compose other otherQuery fragment)

/-! ## Units that are removed -/

variable {unit : Text.CodeUnit}

theorem stays_of_visible (visible : isControl unit = false) : stays unit = true := by
  have above : ¬ unit.val ≤ 32 := of_decide_eq_false visible
  have other : unit.val ∉ [9, 10, 13] := by
    intro member
    simp only [List.mem_cons, List.not_mem_nil, or_false] at member
    omega
  rw [stays, decide_eq_false other]
  rfl

variable {text : Units}

theorem filter_of_visible (visible : forall unit, unit ∈ text -> isControl unit = false) :
    text.filter stays = text :=
  List.filter_eq_self.mpr fun unit member => stays_of_visible (visible unit member)

theorem not_mem_filter (absent : unit ∉ text) : unit ∉ text.filter stays :=
  fun member => absent (List.mem_of_mem_filter member)

theorem not_mem_rdropWhile (absent : unit ∉ text) :
    unit ∉ text.rdropWhile isControl :=
  fun member => absent ((List.rdropWhile_prefix isControl text).subset member)

theorem not_mem_dropWhile (absent : unit ∉ text) :
    unit ∉ text.dropWhile isControl :=
  fun member => absent ((List.dropWhile_suffix isControl).subset member)

theorem rdropWhile_append_cons (visible : isControl unit = false) (left right : Units) :
    (left ++ unit :: right).rdropWhile isControl = left ++ unit :: right.rdropWhile isControl := by
  rw [List.rdropWhile, List.reverse_append, List.reverse_cons, List.append_assoc, List.singleton_append,
    Spacing.dropWhile_append_cons visible, List.reverse_append, List.reverse_cons, List.reverse_reverse,
    List.append_assoc, List.singleton_append, List.rdropWhile]

/-- Cleaning a part that ends the text, or does not. -/
def cleanPart (last : Bool) (part : Units) : Units :=
  (if last then part.rdropWhile isControl else part).filter stays

theorem not_mem_cleanPart {part : Units} (absent : unit ∉ part) (last : Bool) :
    unit ∉ cleanPart last part := by
  rw [cleanPart]
  cases last with
  | false => exact not_mem_filter absent
  | true => exact not_mem_filter (not_mem_rdropWhile absent)

theorem cleanPart_append_cons (visible : isControl unit = false) (last : Bool) (left right : Units) :
    cleanPart last (left ++ unit :: right) = left.filter stays ++ unit :: cleanPart last right := by
  have kept := stays_of_visible visible
  cases last with
  | false => exact (List.filter_append ..).trans (congrArg _ (List.filter_cons_of_pos kept))
  | true =>
      rw [cleanPart, cleanPart, if_pos rfl, if_pos rfl, rdropWhile_append_cons visible, List.filter_append,
        List.filter_cons_of_pos kept]

/-- Cleaning what begins the text. -/
def cleanFront (last : Bool) (front : Units) : Units := cleanPart last (front.dropWhile isControl)

theorem cleanFront_append_cons (visible : isControl unit = false) (left right : Units) :
    cleanFront false (left ++ unit :: right) = cleanFront false left ++ unit :: cleanPart false right := by
  rw [cleanFront, Spacing.dropWhile_append_cons visible, cleanPart_append_cons visible]
  rfl

theorem clean_append_cons (visible : isControl unit = false) (left right : Units) :
    clean (left ++ unit :: right) = cleanFront false left ++ unit :: cleanPart true right := by
  rw [clean, Spacing.trim_append_cons visible, List.filter_append, List.filter_cons_of_pos (stays_of_visible visible)]
  rfl

theorem clean_compose (front : Units) (query fragment : Option Units) :
    clean (compose front query fragment) =
      compose (cleanFront (query.isNone && fragment.isNone) front) (query.map (cleanPart fragment.isNone))
        (fragment.map (cleanPart true)) := by
  cases fragment with
  | none =>
      cases query with
      | none =>
          rw [compose, marked, marked, List.append_nil, List.append_nil, Option.map_none, Option.map_none, compose, marked,
            marked, List.append_nil, List.append_nil]
          rfl
      | some query =>
          rw [compose, marked, marked, List.append_nil, clean_append_cons rfl, Option.map_some, Option.map_none, compose,
            marked, marked, List.append_nil]
          rfl
  | some fragment =>
      cases query with
      | none =>
          rw [compose, marked, marked, List.append_nil, clean_append_cons rfl, Option.map_some, Option.map_none, compose,
            marked, marked, List.append_nil]
          rfl
      | some query =>
          rw [compose, marked, marked, clean_append_cons rfl, cleanFront_append_cons rfl, Option.map_some,
            Option.map_some, compose, marked, marked]
          rfl

/-! ## Cleaning alike texts -/

variable {secret : Units -> Prop} {other : Units}

theorem AlikePart.clean {part : Units} (alike : AlikePart (fun name => secret (name.filter stays)) part other)
    (last : Bool) :
    AlikePart secret (cleanPart last part) (cleanPart last other) := by
  cases alike with
  | same noAmpersand noHash => exact .same (not_mem_cleanPart noAmpersand last) (not_mem_cleanPart noHash last)
  | value isSecret noEquals names values others =>
      rw [cleanPart_append_cons rfl, cleanPart_append_cons rfl]
      exact .value isSecret (not_mem_filter noEquals) ⟨not_mem_filter names.1, not_mem_filter names.2⟩
        ⟨not_mem_cleanPart values.1 last, not_mem_cleanPart values.2 last⟩
        ⟨not_mem_cleanPart others.1 last, not_mem_cleanPart others.2 last⟩

theorem AlikeQuery.clean {query : Units} (alike : AlikeQuery (fun name => secret (name.filter stays)) query other)
    (last : Bool) :
    AlikeQuery secret (cleanPart last query) (cleanPart last other) := by
  induction alike with
  | last alike => exact .last (alike.clean last)
  | more alike _ inductionHypothesis =>
      rw [cleanPart_append_cons rfl, cleanPart_append_cons rfl]
      exact .more (alike.clean false) inductionHypothesis

theorem not_mem_append_cons {mark : Text.CodeUnit} (other : mark ≠ unit) {left right : Units} (inLeft : mark ∉ left)
    (inRight : mark ∉ right) : mark ∉ left ++ unit :: right := by
  intro member
  rcases List.mem_append.mp member with isInLeft | isInRight
  · exact inLeft isInLeft
  · exact inRight (List.mem_of_ne_of_mem other isInRight)

theorem AlikePart.noHash {part : Units} (alike : AlikePart secret part other) :
    HASH ∉ part ∧ HASH ∉ other := by
  cases alike with
  | same noAmpersand noHash => exact ⟨noHash, noHash⟩
  | value _ _ names values others =>
      exact ⟨not_mem_append_cons (by decide) names.2 values.2, not_mem_append_cons (by decide) names.2 others.2⟩

theorem AlikePart.noAmpersand {part : Units} (alike : AlikePart secret part other) :
    AMPERSAND ∉ part ∧ AMPERSAND ∉ other := by
  cases alike with
  | same noAmpersand noHash => exact ⟨noAmpersand, noAmpersand⟩
  | value _ _ names values others =>
      exact ⟨not_mem_append_cons (by decide) names.1 values.1, not_mem_append_cons (by decide) names.1 others.1⟩

theorem AlikeQuery.noHash {query : Units} (alike : AlikeQuery secret query other) :
    HASH ∉ query ∧ HASH ∉ other := by
  induction alike with
  | last alike => exact alike.noHash
  | more alike _ inductionHypothesis =>
      exact ⟨not_mem_append_cons (by decide) alike.noHash.1 inductionHypothesis.1,
        not_mem_append_cons (by decide) alike.noHash.2 inductionHypothesis.2⟩

/-! ## Cleaning a site -/

theorem visible_of_all (visible : (text.all fun unit => !isControl unit) = true) :
    forall unit, unit ∈ text -> isControl unit = false := by
  intro unit member
  have isVisible := List.all_eq_true.mp visible unit member
  rwa [Bool.not_eq_true'] at isVisible

/-- The units of a scheme are, in lower case, those of one of two words. -/
theorem IsScheme.mem {scheme : Units} (isScheme : IsScheme scheme) (member : unit ∈ scheme) :
    Exists fun letter => letter ∈ units "https:" ∧ (65 ≤ unit.val ∧ unit.val ≤ 90 ∨ unit = letter) := by
  have lowered : forall word : Units, (word.all fun letter => decide (letter ∈ units "https:")) = true ->
      Units.toLowerAscii scheme = word ->
        Exists fun letter => letter ∈ units "https:" ∧ (65 ≤ unit.val ∧ unit.val ≤ 90 ∨ unit = letter) := by
    intro word within isWord
    have inWord := List.mem_map_of_mem (f := fun unit : Text.CodeUnit =>
      if 65 ≤ unit.val ∧ unit.val ≤ 90 then Fin.ofNat 65536 (unit.val + 32) else unit) member
    rw [<- Units.toLowerAscii, isWord] at inWord
    refine ⟨_, of_decide_eq_true (List.all_eq_true.mp within _ inWord), ?_⟩
    split
    · rename_i capital
      exact .inl capital
    · exact .inr rfl
  rcases isScheme with isEmpty | isHttp | isHttps
  · rw [isEmpty] at member
    exact (List.not_mem_nil member).elim
  · exact lowered _ (by decide) isHttp
  · exact lowered _ (by decide) isHttps

theorem IsScheme.visible {scheme : Units} (isScheme : IsScheme scheme) :
    forall unit, unit ∈ scheme -> isControl unit = false := by
  intro unit member
  rcases isScheme.mem member with ⟨letter, inWord, capital | isLetter⟩
  · refine decide_eq_false ?_
    omega
  · rw [isLetter]
    exact visible_of_all (by decide) letter inWord

/-- No unit at which an authority ends stands in a site but in front of it and in its path. -/
theorem not_mem_siteText {mark : Text.CodeUnit} (isMark : mark = QUESTION_MARK ∨ mark = HASH) {scheme host path : Units}
    {userinfo : Option Units} (isScheme : IsScheme scheme) (isUserinfo : IsUserinfo userinfo) (isHost : IsHost host)
    (absent : mark ∉ path) : mark ∉ siteText scheme userinfo host path := by
  have ends : mark ∈ AUTHORITY_ENDS := by rcases isMark with rfl | rfl <;> decide
  intro member
  rw [siteText, List.mem_append, List.mem_append, List.mem_append, List.mem_append] at member
  rcases member with (((inScheme | inSlashes) | inUserinfo) | inHost) | inPath
  · rcases isScheme.mem inScheme with ⟨letter, inWord, capital | isLetter⟩
    · rcases isMark with rfl | rfl
      · exact absurd capital (by decide)
      · exact absurd capital (by decide)
    · rw [<- isLetter] at inWord
      rcases isMark with rfl | rfl
      · exact absurd inWord (by decide)
      · exact absurd inWord (by decide)
  · rcases isMark with rfl | rfl
    · exact absurd inSlashes (by decide)
    · exact absurd inSlashes (by decide)
  · cases userinfo with
    | none => exact List.not_mem_nil inUserinfo
    | some text =>
        rcases List.mem_append.mp inUserinfo with inText | isAt
        · exact isUserinfo.inside text rfl mark inText ends
        · rcases isMark with rfl | rfl
          · exact absurd isAt (by decide)
          · exact absurd isAt (by decide)
  · exact isHost.inside mark inHost ends
  · exact absent inPath

theorem AlikeFront.noMark {front : Units} (alike : AlikeFront front other) :
    (QUESTION_MARK ∉ front ∧ HASH ∉ front) ∧ QUESTION_MARK ∉ other ∧ HASH ∉ other := by
  cases alike with
  | same noQuery noHash => exact ⟨⟨noQuery, noHash⟩, noQuery, noHash⟩
  | site isScheme isUserinfo isOther isHost isPath =>
      exact ⟨⟨not_mem_siteText (.inl rfl) isScheme isUserinfo isHost isPath.noQuery,
          not_mem_siteText (.inr rfl) isScheme isUserinfo isHost isPath.noHash⟩,
        not_mem_siteText (.inl rfl) isScheme isOther isHost isPath.noQuery,
        not_mem_siteText (.inr rfl) isScheme isOther isHost isPath.noHash⟩

/-- Cleaning a site leaves its scheme and its host as they are. -/
theorem cleanFront_siteText {scheme host path : Units} (userinfo : Option Units) (isScheme : IsScheme scheme)
    (isHost : IsHost host) (last : Bool) :
    cleanFront last (siteText scheme userinfo host path) =
      siteText scheme (userinfo.map fun text => text.filter stays) host (cleanPart last path) := by
  have leadVisible : forall unit, unit ∈ scheme ++ units "//" -> isControl unit = false := by
    intro unit member
    rcases List.mem_append.mp member with inScheme | inSlashes
    · exact isScheme.visible unit inScheme
    · exact visible_of_all (by decide) unit inSlashes
  have leads (rest : Units) : (scheme ++ units "//" ++ rest).dropWhile isControl = scheme ++ units "//" ++ rest := by
    cases lead : scheme ++ units "//" with
    | nil => exact (List.append_ne_nil_of_right_ne_nil scheme (List.cons_ne_nil _ _) lead).elim
    | cons first lead' =>
        have visible := leadVisible first (lead ▸ List.mem_cons_self ..)
        exact List.dropWhile_cons_of_neg (Bool.eq_false_iff.mp visible)
  have credentials : (userinfoText userinfo).filter stays =
      userinfoText (userinfo.map fun text => text.filter stays) := by
    cases userinfo with
    | none => rfl
    | some text => exact List.filter_append ..
  rcases List.eq_nil_or_concat host with isEmpty | ⟨front, unit, isLast⟩
  · exact (isHost.notEmpty isEmpty).elim
  · rw [List.concat_eq_append] at isLast
    have frontVisible : front.filter stays = front :=
      filter_of_visible fun other member => isHost.visible other (by rw [isLast]; exact List.mem_append_left _ member)
    have unitVisible : isControl unit = false :=
      isHost.visible unit (by rw [isLast]; exact List.mem_append_right _ (List.mem_singleton_self unit))
    have shape (userinfo : Option Units) (path : Units) : siteText scheme userinfo host path =
        scheme ++ units "//" ++ (userinfoText userinfo ++ front) ++ unit :: path := by
      rw [siteText, isLast, <- List.append_assoc _ front, List.append_assoc _ [unit], List.singleton_append,
        <- List.append_assoc _ _ front]
    rw [cleanFront, shape, List.append_assoc, leads, <- List.append_assoc, cleanPart_append_cons unitVisible,
      List.filter_append, filter_of_visible leadVisible, List.filter_append, credentials, frontVisible, shape]

theorem IsUserinfo.clean {userinfo : Option Units} (isUserinfo : IsUserinfo userinfo) :
    IsUserinfo (userinfo.map fun text => text.filter stays) where
  inside text isText unit member := by
    rcases Option.map_eq_some_iff.mp isText with ⟨raw, isRaw, isFiltered⟩
    rw [<- isFiltered] at member
    exact isUserinfo.inside raw isRaw unit (List.mem_of_mem_filter member)

theorem IsPath.clean {path : Units} (isPath : IsPath path) (last : Bool) : IsPath (cleanPart last path) where
  begins unit rest isCons := by
    cases path with
    | nil => cases last <;> cases isCons
    | cons first path =>
        have slash := isPath.begins first path rfl
        have visible : isControl first = false := by
          rcases slash with rfl | rfl
          · rfl
          · rfl
        have cleaned := cleanPart_append_cons visible last [] path
        rw [List.nil_append] at cleaned
        rw [cleaned] at isCons
        cases isCons
        exact slash
  noQuery := not_mem_cleanPart isPath.noQuery last
  noHash := not_mem_cleanPart isPath.noHash last

theorem not_mem_cleanFront {front : Units} (absent : unit ∉ front) (last : Bool) :
    unit ∉ cleanFront last front :=
  not_mem_cleanPart (not_mem_dropWhile absent) last

theorem AlikeFront.clean {front : Units} (alike : AlikeFront front other) (last : Bool) :
    AlikeFront (cleanFront last front) (cleanFront last other) := by
  cases alike with
  | same noQuery noHash => exact .same (not_mem_cleanFront noQuery last) (not_mem_cleanFront noHash last)
  | site isScheme isUserinfo isOther isHost isPath =>
      rw [cleanFront_siteText _ isScheme isHost, cleanFront_siteText _ isScheme isHost]
      exact .site isScheme isUserinfo.clean isOther.clean isHost (isPath.clean last)

end Http
end Telescope
