import Gittensory.RegistryCandidate

/-!
What acceptance of a registry candidate is meant to guarantee, and when the gate keeps to it.
The gate reads each field through a conversion: one that throws ends the run without a
verdict, and one that turns a value of another type into a good text lets it pass. Both are
followed stage by stage to the exact condition on the document.
-/
namespace Gittensory.CandidateSoundness

open CodeUnits JsValue JsonRecord StoredJson JsCoercion SafeUrl RegistryCandidate
open DuplicateSignals (UrlApi)

/-! ## What acceptance means -/

/-- Every entry of a document, wherever it stands. -/
def entries (document : JsonValue) : List JsonValue :=
  (match field document "candidates" with
    | some (.array candidates) => candidates
    | _ => []) ++
  (field document "candidate").toList.filter fun candidate => isTruthy (some candidate)

/-- An integer, as a number or written out. -/
def SpellsInteger : JsonValue → Prop
  | .number value => isInteger value = true
  | .string text => trim text ≠ [] ∧ isInteger (stringToNumber text) = true
  | _ => False

/-- What the field of several source URLs holds. -/
def listedSources (candidate : JsonValue) : List JsonValue :=
  match field candidate "source_urls" with
  | some (.array items) => items
  | some value => [value]
  | none => []

/-- The values given as source URLs. -/
def carriedSources (candidate : JsonValue) : List JsonValue :=
  ((field candidate "source_url").toList ++ listedSources candidate).filter
    fun source => isTruthy (some source)

section Guarantee

variable {URL : Type} (api : UrlApi URL)

/-- A kind the reviewer takes. -/
def Supported (kind : Units) : Prop := kind ∈ REVIEWER_SAFE_KINDS ∨ isBaseLayerKind kind = true

structure SoundCandidate (candidate : JsonValue) : Prop where
  is_object : ∃ fields, candidate = .object fields
  netuid : ∃ value, field candidate "netuid" = some value ∧ SpellsInteger value
  urls : ∃ kind url, field candidate "kind" = some (.string kind) ∧ Supported kind ∧
    field candidate "url" = some (.string url) ∧ isSafeForKind api kind url = true ∧
    ∀ source ∈ carriedSources candidate, ∃ text, source = .string text ∧
      isSafeForKind api kind text = true
  no_observed : ∀ keys, objectKeys candidate = some keys →
    ∀ key ∈ keys, toLowerCase key ∉ OBSERVED_STATE_KEYS
  public_safe : field candidate "public_safe" = some (.bool true)
  no_auth : field candidate "auth_required" ≠ some (.bool true)

def Sound (document : JsonValue) : Prop :=
  ∃ candidate, entries document = [candidate] ∧ SoundCandidate api candidate

/-- A run that ends, and merges only where the property holds. -/
def Merges (result : Option Assessment) (property : Prop) : Prop :=
  ∃ assessment, result = some assessment ∧ (assessment.verdict = .merged → property)

/-- The gate never throws and accepts sound documents only. -/
def SafeOn (document : JsonValue) : Prop :=
  Merges (assessCandidateDocument api defaultOptions document) (Sound api document)

end Guarantee

/-! ## When the gate keeps to it -/

/-- A number, or a text with something to read in it. -/
def NumberOrText : Option JsonValue → Prop
  | some (.number _) => True
  | some (.string text) => trim text ≠ []
  | _ => False

/-- The source URLs besides the one that is looked at. -/
def uncheckedSources (candidate : JsonValue) : List JsonValue :=
  (match field candidate "source_urls" with
    | some (.array items) =>
        if isTruthy (field candidate "source_url") then items else items.tail
    | some value => [value]
    | none => []).filter fun source => isTruthy (some source)

section Condition

variable {URL : Type} (api : UrlApi URL)

/-- The fields have the types they are meant to have, and the source URLs that are not looked
at would pass. -/
structure WellTyped (candidate : JsonValue) : Prop where
  netuid : NumberOrText (field candidate "netuid")
  urls : ∃ kind url, field candidate "kind" = some (.string kind) ∧
    field candidate "url" = some (.string url) ∧
    ∀ text, .string text ∈ uncheckedSources candidate → isSafeForKind api kind text = true
  sources : ∀ source ∈ carriedSources candidate, ∃ text, source = .string text

/-- The last checks refuse the candidate. -/
def NotPublic (candidate : JsonValue) : Prop :=
  field candidate "public_safe" ≠ some (.bool true) ∨
    field candidate "auth_required" = some (.bool true)

/-- The URLs can be read as far as they are, and one is refused, or else the rest holds. -/
def UrlsHold (candidate : JsonValue) (kind : Units) (rest : Prop) : Prop :=
  ∃ url, textOrEmpty (field candidate "url") = some url ∧
    (isSafeForKind api kind url = false ∨
      ∃ source, textOrEmpty (checkedSource candidate) = some source ∧
        (isSafeHttpUrl api source = false ∨ rest))

def FieldsHold (candidate : JsonValue) (rest : Prop) : Prop :=
  ∃ netuid, numberOf (field candidate "netuid") = some netuid ∧
    (isInteger netuid = false ∨
      ∃ kind, textOf (field candidate "kind") = some kind ∧
        (¬ Supported kind ∨ UrlsHold api candidate kind (NotPublic candidate ∨ rest)))

def HasSecret (candidate : JsonValue) : Prop :=
  containsSecretLikeText (stringify candidate) = true

def HasObserved (candidate : JsonValue) : Prop :=
  ∃ keys, objectKeys candidate = some keys ∧
    ∃ key ∈ keys, toLowerCase key ∈ OBSERVED_STATE_KEYS

def CandidateHolds (candidate : JsonValue) (rest : Prop) : Prop :=
  HasSecret candidate ∨
    (candidate ≠ .null ∧ (HasObserved candidate ∨ FieldsHold api candidate rest))

/-- A single candidate is refused before a conversion throws, or it is well typed and no other
entry stands beside it. -/
def DocumentHolds (document : JsonValue) : Prop :=
  ∀ candidate, documentCandidates document = [candidate] →
    CandidateHolds api candidate (entries document = [candidate] ∧ WellTyped api candidate)

end Condition

/-! ## Runs -/

theorem merges_bind {α : Type} {value : Option α} {next : α → Option Assessment} {property : Prop} :
    Merges (value.bind next) property ↔ ∃ x, value = some x ∧ Merges (next x) property := by
  unfold Merges
  cases value with
  | none => simp
  | some x => simp

theorem merges_fail {reason summary : String} {candidate : JsonValue} {property : Prop}
    (h : reason ∈ REVIEWER_CLOSE_REASONS) :
    Merges (some (fail reason summary candidate)) property := by
  refine ⟨_, rfl, fun hmerged => ?_⟩
  rw [fail, if_pos h] at hmerged
  nomatch hmerged

/-- A check that closes the candidate. -/
theorem merges_check {refused : Prop} [Decidable refused] {reason summary : String}
    {candidate : JsonValue} {next : Option Assessment} {property : Prop}
    (h : reason ∈ REVIEWER_CLOSE_REASONS) :
    Merges (if refused then some (fail reason summary candidate) else next) property ↔
      refused ∨ Merges next property := by
  by_cases hrefused : refused
  · rw [if_pos hrefused]
    exact iff_of_true (merges_fail h) (Or.inl hrefused)
  · rw [if_neg hrefused]
    simp [hrefused]

theorem merges_publicVerdict {candidate : JsonValue} {property : Prop} :
    Merges (some (publicVerdict candidate)) property ↔ NotPublic candidate ∨ property := by
  unfold Merges NotPublic publicVerdict
  split
  · rename_i hpublic
    split
    · rename_i hauth
      simp [hpublic, hauth]
    · rename_i hauth
      have hopen : field candidate "auth_required" ≠ some (.bool true) := hauth
      simp [hpublic, hopen]
  · rename_i hpublic
    have hmarked : field candidate "public_safe" ≠ some (.bool true) := hpublic
    simp [hmarked]

section Stages

variable {URL : Type} {api : UrlApi URL}

theorem merges_urlFailure {candidate : JsonValue} {kind : Units} {property : Prop} :
    Merges ((urlFailure api candidate kind).map fun failure =>
        failure.getD (publicVerdict candidate)) property ↔
      UrlsHold api candidate kind (NotPublic candidate ∨ property) := by
  unfold urlFailure UrlsHold
  rw [Option.map_bind, merges_bind]
  refine exists_congr fun url => and_congr_right fun _ => ?_
  rw [Function.comp_apply]
  cases hsafe : isSafeForKind api kind url with
  | false =>
    simp only [Bool.false_eq_true, not_false_eq_true, if_true, Option.map_some, Option.getD_some,
      true_or, iff_true]
    exact merges_fail (by decide)
  | true =>
    simp only [not_true_eq_false, if_false, reduceCtorEq, false_or]
    rw [Option.map_bind, merges_bind]
    refine exists_congr fun source => and_congr_right fun _ => ?_
    rw [Function.comp_apply]
    cases hsource : isSafeHttpUrl api source with
    | false =>
      simp only [Bool.false_eq_true, not_false_eq_true, if_true, Option.map_some,
        Option.getD_some, true_or, iff_true]
      exact merges_fail (by decide)
    | true =>
      simp only [not_true_eq_false, if_false, reduceCtorEq, false_or, Option.map_some,
        Option.getD_none]
      exact merges_publicVerdict

theorem merges_assessFields {candidate : JsonValue} {property : Prop} :
    Merges (assessFields api defaultOptions candidate) property ↔
      FieldsHold api candidate property := by
  unfold assessFields FieldsHold
  rw [merges_bind]
  refine exists_congr fun netuid => and_congr_right fun _ => ?_
  rw [merges_check (by decide), Bool.not_eq_true]
  refine or_congr_right ?_
  rw [merges_bind]
  refine exists_congr fun kind => and_congr_right fun _ => ?_
  rw [merges_check (by decide), if_pos (show defaultOptions.sourceUrlValidation = true from rfl),
    merges_urlFailure]
  refine or_congr_left ?_
  rw [Supported, not_or]

theorem objectKeys_eq_none_iff {candidate : JsonValue} :
    objectKeys candidate = none ↔ candidate = .null := by
  cases candidate <;> simp [objectKeys]

theorem merges_assessCandidate {candidate : JsonValue} {property : Prop} :
    Merges (assessCandidate api defaultOptions candidate) property ↔
      CandidateHolds api candidate property := by
  unfold assessCandidate CandidateHolds
  rw [merges_check (by decide)]
  refine or_congr (and_iff_right rfl) ?_
  rw [merges_bind, ne_eq, ← objectKeys_eq_none_iff]
  cases hkeys : objectKeys candidate with
  | none => simp
  | some keys =>
    have hobserved : HasObserved candidate ↔ ∃ key ∈ keys, toLowerCase key ∈ OBSERVED_STATE_KEYS := by
      simp [HasObserved, hkeys]
    simp only [Option.some.injEq, exists_eq_left', reduceCtorEq, not_false_eq_true, true_and]
    rw [hobserved]
    split
    · rename_i key hkey
      have hlower : toLowerCase key ∈ OBSERVED_STATE_KEYS := by
        simpa using List.find?_some hkey
      exact iff_of_true (merges_fail (by decide))
        (Or.inl ⟨key, List.mem_of_find?_eq_some hkey, hlower⟩)
    · rename_i hnone
      rw [List.find?_eq_none] at hnone
      rw [merges_assessFields]
      refine (or_iff_right ?_).symm
      rintro ⟨key, hmem, hkey⟩
      exact hnone key hmem (decide_eq_true hkey)

theorem merges_assessCandidateDocument {document : JsonValue} {property : Prop} :
    Merges (assessCandidateDocument api defaultOptions document) property ↔
      ∀ candidate, documentCandidates document = [candidate] →
        CandidateHolds api candidate property := by
  unfold assessCandidateDocument
  split
  · rename_i candidate hcandidate
    rw [merges_assessCandidate, hcandidate]
    simp
  · rename_i hcandidates
    refine iff_of_true (merges_fail (by decide)) fun candidate hcandidate => ?_
    exact absurd hcandidate (hcandidates candidate)

/-- What is known of a candidate that no check refuses. -/
structure Reached (api : UrlApi URL) (candidate : JsonValue) : Prop where
  no_observed : ¬ HasObserved candidate
  integer : ∃ netuid, numberOf (field candidate "netuid") = some netuid ∧ isInteger netuid = true
  urls : ∃ kind url source, textOf (field candidate "kind") = some kind ∧ Supported kind ∧
    textOrEmpty (field candidate "url") = some url ∧ isSafeForKind api kind url = true ∧
    textOrEmpty (checkedSource candidate) = some source ∧ isSafeHttpUrl api source = true
  is_public : ¬ NotPublic candidate

/-- The condition at the end matters where it is reached only. -/
theorem candidateHolds_congr {candidate : JsonValue} {left right : Prop}
    (h : Reached api candidate → (left ↔ right)) :
    CandidateHolds api candidate left ↔ CandidateHolds api candidate right := by
  unfold CandidateHolds FieldsHold UrlsHold
  refine or_congr_right (and_congr_right fun _ => or_congr_right' fun hobserved => ?_)
  refine exists_congr fun netuid => and_congr_right fun hnetuid => or_congr_right' fun hinteger => ?_
  refine exists_congr fun kind => and_congr_right fun hkind => or_congr_right' fun hsupported => ?_
  refine exists_congr fun url => and_congr_right fun hurl => or_congr_right' fun hsafe => ?_
  refine exists_congr fun source => and_congr_right fun hsource => or_congr_right' fun hhttp => ?_
  refine or_congr_right' fun hpublic => h ?_
  exact {
    no_observed := hobserved
    integer := ⟨netuid, hnetuid, by simpa using hinteger⟩
    urls := ⟨kind, url, source, hkind, not_not.mp hsupported, hurl, by simpa using hsafe, hsource,
      by simpa using hhttp⟩
    is_public := hpublic }

/-! ## Source URLs -/

/-- Where the candidates of a document stand. -/
theorem mem_documentCandidates {document candidate : JsonValue}
    (h : candidate ∈ documentCandidates document) :
    (∃ candidates, field document "candidates" = some (.array candidates) ∧
      candidate ∈ candidates) ∨
    (field document "candidate" = some candidate ∧ isTruthy (some candidate) = true) := by
  unfold documentCandidates at h
  split at h
  · rename_i candidates hcandidates
    exact Or.inl ⟨candidates, hcandidates, h⟩
  · right
    split at h
    · rename_i single hsingle
      split_ifs at h with htruthy
      · rw [List.mem_singleton] at h
        rw [h]
        exact ⟨hsingle, htruthy⟩
      · nomatch h
    · nomatch h

theorem mem_entries {document candidate : JsonValue}
    (h : documentCandidates document = [candidate]) : candidate ∈ entries document := by
  have hmem : candidate ∈ documentCandidates document := by
    rw [h]
    exact List.mem_singleton_self _
  unfold entries
  rcases mem_documentCandidates hmem with ⟨candidates, hcandidates, hmem⟩ | ⟨hsingle, htruthy⟩
  · simp only [hcandidates]
    exact List.mem_append_left _ hmem
  · apply List.mem_append_right
    rw [hsingle]
    exact List.mem_filter.mpr ⟨List.mem_singleton_self _, htruthy⟩

theorem mem_carriedSources_of_unchecked {candidate source : JsonValue}
    (h : source ∈ uncheckedSources candidate) : source ∈ carriedSources candidate := by
  unfold uncheckedSources at h
  obtain ⟨hmem, htruthy⟩ := List.mem_filter.mp h
  refine List.mem_filter.mpr ⟨List.mem_append_right _ ?_, htruthy⟩
  unfold listedSources
  split at hmem
  · split_ifs at hmem
    · exact hmem
    · exact List.mem_of_mem_tail hmem
  · exact hmem
  · nomatch hmem

/-- Every source URL is looked at or counted among the others. -/
theorem mem_uncheckedSources_or {candidate source : JsonValue}
    (h : source ∈ carriedSources candidate) :
    source ∈ uncheckedSources candidate ∨ checkedSource candidate = some source := by
  obtain ⟨hmem, htruthy⟩ := List.mem_filter.mp h
  unfold uncheckedSources checkedSource
  rcases List.mem_append.mp hmem with hsingle | hlisted
  · right
    rw [Option.mem_toList] at hsingle
    rw [hsingle]
    exact if_pos htruthy
  · unfold listedSources at hlisted
    split at hlisted
    · rename_i items hitems
      rw [hitems]
      by_cases hsource : isTruthy (field candidate "source_url") = true
      · left
        simp only [hsource, if_true]
        exact List.mem_filter.mpr ⟨hlisted, htruthy⟩
      · cases items with
        | nil => nomatch hlisted
        | cons first rest =>
          simp only [hsource, List.tail_cons]
          rcases List.mem_cons.mp hlisted with rfl | hrest
          · right
            rfl
          · exact Or.inl (List.mem_filter.mpr ⟨hrest, htruthy⟩)
    · left
      exact List.mem_filter.mpr ⟨hlisted, htruthy⟩
    · nomatch hlisted

theorem isSafeForKind_of_isSafeHttpUrl {kind url : Units} (h : isSafeHttpUrl api url = true) :
    isSafeForKind api kind url = true := by
  unfold isSafeForKind
  split_ifs
  · unfold isSafeHttpUrl at h
    unfold isSafeEndpointUrl
    cases hparse : api.parse url with
    | none => simp [hparse] at h
    | some parsed =>
      simp only [hparse] at h ⊢
      split_ifs at h with hprotocol
      rw [not_not] at hprotocol
      rw [if_neg (by simp [hprotocol])]
      exact h
  · exact h

/-! ## The condition -/

theorem wellTyped_of_sound {candidate : JsonValue} (h : SoundCandidate api candidate) :
    WellTyped api candidate := by
  obtain ⟨value, hvalue, hspells⟩ := h.netuid
  obtain ⟨kind, url, hkind, _, hurl, _, hsources⟩ := h.urls
  constructor
  · rw [hvalue]
    cases value with
    | number _ => trivial
    | string text => exact hspells.1
    | _ => exact hspells.elim
  · refine ⟨kind, url, hkind, hurl, fun text htext => ?_⟩
    obtain ⟨_, heq, hsafe⟩ := hsources _ (mem_carriedSources_of_unchecked htext)
    rw [JsonValue.string.injEq] at heq
    rwa [heq]
  · intro source hsource
    obtain ⟨text, heq, _⟩ := hsources source hsource
    exact ⟨text, heq⟩

theorem spellsInteger_of_numberOrText {value : Option JsonValue} {number : JsNumber}
    (htyped : NumberOrText value) (hnumber : numberOf value = some number)
    (hinteger : isInteger number = true) : ∃ given, value = some given ∧ SpellsInteger given := by
  cases value with
  | none => exact htyped.elim
  | some given =>
    refine ⟨given, rfl, ?_⟩
    cases given with
    | number value =>
      rw [numberOf, toNumber, Option.some.injEq] at hnumber
      rw [SpellsInteger, hnumber]
      exact hinteger
    | string text =>
      rw [numberOf, toNumber, Option.some.injEq] at hnumber
      refine ⟨htyped, ?_⟩
      rw [hnumber]
      exact hinteger
    | _ => exact htyped.elim

theorem jsString_string (text : Units) : jsString (.string text) = some text := by
  simp [jsString, isPrintable, JsonValue.toText]

theorem textOrEmpty_string (text : Units) : textOrEmpty (some (.string text)) = some text :=
  jsString_string text

theorem sound_of_wellTyped {candidate : JsonValue} (hreached : Reached api candidate)
    (h : WellTyped api candidate) : SoundCandidate api candidate := by
  obtain ⟨netuid, hnetuid, hinteger⟩ := hreached.integer
  obtain ⟨kind, url, source, hkind, hsupported, hurl, hsafe, hsource, hhttp⟩ := hreached.urls
  obtain ⟨kindText, urlText, hkindText, hurlText, hunchecked⟩ := h.urls
  have hpublic := hreached.is_public
  rw [NotPublic, not_or, not_not] at hpublic
  have hsameKind : kindText = kind := by
    rw [hkindText, textOf, jsString_string] at hkind
    exact Option.some.inj hkind
  have hsameUrl : urlText = url := by
    rw [hurlText, textOrEmpty_string] at hurl
    exact Option.some.inj hurl
  rw [hsameKind] at hkindText hunchecked
  rw [hsameUrl] at hurlText
  constructor
  · cases candidate with
    | object fields => exact ⟨fields, rfl⟩
    | _ => nomatch hkindText
  · exact spellsInteger_of_numberOrText h.netuid hnetuid hinteger
  · refine ⟨kind, url, hkindText, hsupported, hurlText, hsafe, fun given hgiven => ?_⟩
    obtain ⟨text, rfl⟩ := h.sources given hgiven
    refine ⟨text, rfl, ?_⟩
    rcases mem_uncheckedSources_or hgiven with hother | hchecked
    · exact hunchecked text hother
    · rw [hchecked, textOrEmpty_string, Option.some.injEq] at hsource
      rw [hsource]
      exact isSafeForKind_of_isSafeHttpUrl hhttp
  · intro keys hkeys key hmem hobserved
    exact hreached.no_observed ⟨keys, hkeys, key, hmem, hobserved⟩
  · exact hpublic.1
  · exact hpublic.2

theorem sound_iff_of_reached {document candidate : JsonValue}
    (hcandidate : documentCandidates document = [candidate]) (hreached : Reached api candidate) :
    Sound api document ↔ entries document = [candidate] ∧ WellTyped api candidate := by
  constructor
  · rintro ⟨only, honly, hsound⟩
    have hmem := mem_entries hcandidate
    rw [honly, List.mem_singleton] at hmem
    rw [hmem]
    exact ⟨honly, wellTyped_of_sound hsound⟩
  · rintro ⟨hentries, htyped⟩
    exact ⟨candidate, hentries, sound_of_wellTyped hreached htyped⟩

end Stages

/-- The gate neither throws nor accepts an unsound document exactly when the single candidate
is refused in time or well typed. -/
theorem safeOn_iff {URL : Type} (api : UrlApi URL) (document : JsonValue) :
    SafeOn api document ↔ DocumentHolds api document := by
  unfold SafeOn DocumentHolds
  rw [merges_assessCandidateDocument]
  exact forall_congr' fun candidate => imp_congr_right fun hcandidate =>
    candidateHolds_congr fun hreached => sound_iff_of_reached hcandidate hreached

/-- A candidate for the documentation of subnet zero, with the given netuid. -/
def docsCandidate (netuid : JsonValue) : JsonValue := .object [
  ("netuid", netuid),
  ("kind", .string (units "docs")),
  ("url", .string (units "https://a.io/")),
  ("source_url", .string (units "https://b.io/")),
  ("public_safe", .bool true)]

/-- A list with `null` for its candidate throws, and a netuid of `null` is accepted. -/
theorem unsafe_documents :
    ¬ SafeOn plainUrls (.object [("candidates", .array [.null])]) ∧
      ¬ SafeOn plainUrls (.object [("candidate", docsCandidate .null)]) := by
  constructor
  · rintro ⟨assessment, hrun, _⟩
    have hthrow : (assessCandidateDocument plainUrls defaultOptions
        (.object [("candidates", .array [.null])])).isNone = true := by decide +kernel
    rw [hrun] at hthrow
    nomatch hthrow
  · rintro ⟨assessment, hrun, hmerges⟩
    have hmerged : (assessCandidateDocument plainUrls defaultOptions
        (.object [("candidate", docsCandidate .null)])).map Assessment.verdict = some .merged := by
      decide +kernel
    rw [hrun, Option.map_some, Option.some.injEq] at hmerged
    obtain ⟨only, honly, hsound⟩ := hmerges hmerged
    have hentries : entries (.object [("candidate", docsCandidate .null)]) =
        [docsCandidate .null] := rfl
    rw [hentries, List.singleton_inj] at honly
    rw [← honly] at hsound
    obtain ⟨value, hvalue, hspells⟩ := hsound.netuid
    have hnull : value = .null := (Option.some.inj hvalue).symm
    rw [hnull] at hspells
    exact hspells

end Gittensory.CandidateSoundness
