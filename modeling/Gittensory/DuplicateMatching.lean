import Gittensory.DuplicateSignals
import Gittensory.FirstMatch

/-!
The two duplicate classifiers. The legacy one is advisory; the gate closes on the strict
one only. Each goes through the existing items in order and stops at the first it has
reasons for.
-/
namespace Gittensory.DuplicateMatching

open CodeUnits DuplicateSignals FirstMatch

/-- Generic ecosystem hosts, never a match by themselves. -/
def DOMAIN_ONLY_EXCLUSIONS : List Units := [
  units "github.com",
  units "npmjs.com",
  units "pypi.org",
  units "raw.githubusercontent.com",
  units "registry.npmjs.org"]

structure ContentDuplicateMatch where
  existing : ContentDuplicateSignals
  reasons : List Units
  deriving DecidableEq

def intersection (left right : List Units) : List Units := left.filter fun value => value ∈ right

def strictDuplicateUrls (sharedUrls : List Units) : List Units :=
  sharedUrls.filter fun url => url ∉ MULTI_ENTRY_CATALOG_URLS

def multiEntryCatalogRoot (url : Units) : Option Units :=
  MULTI_ENTRY_CATALOG_URLS.find? fun catalogUrl =>
    url = catalogUrl || (catalogUrl ++ [slash]).isPrefixOf url

def multiEntryCatalogSubpathUrls (sharedUrls : List Units) : List Units :=
  sharedUrls.filter fun url =>
    match multiEntryCatalogRoot url with
    | none => false
    | some catalogUrl => url ≠ catalogUrl

/-- `if (condition) reasons.push(text)` -/
def pushIf (condition : Prop) [Decidable condition] (text : Units) : List Units :=
  if condition then [text] else []

/-- `texts[0]` -/
def first (texts : List Units) : Units := texts.head?.getD []

def quoted (text : Units) : Units := units "`" ++ text ++ units "`"

variable (candidate existing : ContentDuplicateSignals)

def pathReason : List Units :=
  pushIf (candidate.filePath = existing.filePath)
    (units "same content path " ++ quoted existing.filePath)

def slugReason : List Units :=
  pushIf (candidate.category ≠ [] ∧ candidate.slug ≠ [] ∧ candidate.category = existing.category ∧
      candidate.slug = existing.slug)
    (units "same " ++ candidate.category ++ units " slug " ++ quoted candidate.slug)

def legacyReasons : List Units :=
  let sharedUrls := intersection candidate.urls existing.urls
  let sharedDomains := intersection candidate.domains existing.domains
  let aggressiveDomainMatch :=
    (sharedDomains.find? fun domain => domain ∉ DOMAIN_ONLY_EXCLUSIONS).getD []
  pathReason candidate existing ++ slugReason candidate existing ++
  pushIf (sharedUrls ≠ []) (units "same canonical source URL " ++ first sharedUrls) ++
  pushIf (candidate.category ≠ [] ∧ candidate.normalizedTitle ≠ [] ∧
      candidate.category = existing.category ∧
      candidate.normalizedTitle = existing.normalizedTitle)
    (units "same normalized title in " ++ candidate.category) ++
  pushIf (candidate.category ≠ [] ∧ candidate.normalizedDescription ≠ [] ∧
      candidate.category = existing.category ∧
      candidate.normalizedDescription = existing.normalizedDescription)
    (units "same normalized description in " ++ candidate.category) ++
  pushIf (sharedDomains ≠ [] ∧ candidate.normalizedTitle ≠ [] ∧
      candidate.normalizedTitle = existing.normalizedTitle)
    (units "same source domain " ++ first sharedDomains ++ units " and title") ++
  pushIf (aggressiveDomainMatch ≠ [] ∧ candidate.category ≠ [] ∧
      candidate.category = existing.category)
    (units "same non-generic source domain " ++ aggressiveDomainMatch ++ units " in " ++
      candidate.category)

def strictReasons : List Units :=
  let sharedUrls := intersection candidate.urls existing.urls
  let blockingSharedUrls := strictDuplicateUrls sharedUrls
  let catalogSubpathUrls := multiEntryCatalogSubpathUrls blockingSharedUrls
  pathReason candidate existing ++ slugReason candidate existing ++
  pushIf (catalogSubpathUrls ≠ [] ∧ candidate.category ≠ [] ∧
      candidate.category = existing.category)
    (units "same multi-entry catalog subpath URL " ++ first catalogSubpathUrls) ++
  pushIf (blockingSharedUrls ≠ [] ∧ candidate.category ≠ [] ∧
      candidate.category = existing.category ∧ candidate.normalizedDescription ≠ [] ∧
      candidate.normalizedDescription = existing.normalizedDescription)
    (units "same canonical source URL " ++ first blockingSharedUrls ++
      units " and same normalized description") ++
  pushIf (2 ≤ blockingSharedUrls.length ∧ candidate.category = units "collections" ∧
      existing.category = units "collections")
    (units "same collection source set including " ++ first blockingSharedUrls)

def matchBy (reasonsFor : ContentDuplicateSignals → List Units)
    (existingItems : List ContentDuplicateSignals) : Option ContentDuplicateMatch :=
  (firstMatch reasonsFor existingItems).map fun found => ⟨found.1, found.2⟩

def findContentDuplicateMatch (existingItems : List ContentDuplicateSignals) :
    Option ContentDuplicateMatch :=
  matchBy (legacyReasons candidate) existingItems

def findStrictContentDuplicateMatch (existingItems : List ContentDuplicateSignals) :
    Option ContentDuplicateMatch :=
  matchBy (strictReasons candidate) existingItems

/-! ## The strict rules -/

/-- A URL both name that is not a catalog root. -/
def SharedSource (url : Units) : Prop :=
  url ∈ candidate.urls ∧ url ∈ existing.urls ∧ url ∉ MULTI_ENTRY_CATALOG_URLS

instance (url : Units) : Decidable (SharedSource candidate existing url) :=
  inferInstanceAs (Decidable (_ ∧ _))

/-- A path below the root of a catalog of many entries. -/
def IsCatalogSubpath (url : Units) : Prop :=
  ∃ catalogUrl ∈ MULTI_ENTRY_CATALOG_URLS, catalogUrl ++ [slash] <+: url

/-- The five rules of a strict duplicate, where `given` says which texts count as given. -/
inductive StrictRule (given : Units → Prop) : Prop
  | samePath (hpath : candidate.filePath = existing.filePath)
  | sameSlug (hcategory : given candidate.category) (hslug : given candidate.slug)
      (hsame : candidate.category = existing.category)
      (hslugs : candidate.slug = existing.slug)
  | catalogSubpath (hcategory : given candidate.category)
      (hsame : candidate.category = existing.category)
      (hurl : ∃ url, SharedSource candidate existing url ∧ IsCatalogSubpath url)
  | samePurpose (hcategory : given candidate.category)
      (hsame : candidate.category = existing.category)
      (hurl : ∃ url, SharedSource candidate existing url)
      (hdescription : given candidate.normalizedDescription)
      (hdescriptions : candidate.normalizedDescription = existing.normalizedDescription)
  | sameCollection (hcategory : candidate.category = units "collections")
      (hexisting : existing.category = units "collections")
      (hurls : 2 ≤ candidate.urls.countP fun url => SharedSource candidate existing url)

variable {candidate existing}

theorem pushIf_ne_nil {condition : Prop} [Decidable condition] {text : Units} :
    pushIf condition text ≠ [] ↔ condition := by
  rw [pushIf]
  split_ifs with h
  · exact ⟨fun _ => h, fun _ => List.cons_ne_nil _ _⟩
  · exact ⟨fun hne => absurd rfl hne, fun hc => absurd hc h⟩

theorem append_ne_nil_iff {left right : List Units} :
    left ++ right ≠ [] ↔ left ≠ [] ∨ right ≠ [] := by
  rw [Ne, List.append_eq_nil_iff, not_and_or]

theorem strictDuplicateUrls_intersection : strictDuplicateUrls
    (intersection candidate.urls existing.urls) =
      candidate.urls.filter fun url => SharedSource candidate existing url := by
  rw [strictDuplicateUrls, intersection, List.filter_filter]
  apply List.filter_congr
  intro url hurl
  simp only [SharedSource, hurl, true_and, ← Bool.decide_and]
  exact decide_eq_decide.mpr and_comm

theorem isCatalogSubpath_iff {url : Units} (h : url ∉ MULTI_ENTRY_CATALOG_URLS) :
    (match multiEntryCatalogRoot url with
      | none => false
      | some catalogUrl => decide (url ≠ catalogUrl)) = true ↔ IsCatalogSubpath url := by
  cases hroot : multiEntryCatalogRoot url with
  | none =>
    rw [multiEntryCatalogRoot, List.find?_eq_none] at hroot
    refine iff_of_false Bool.false_ne_true ?_
    rintro ⟨catalogUrl, hmem, hinitial⟩
    apply hroot catalogUrl hmem
    rw [Bool.or_eq_true]
    exact Or.inr (List.isPrefixOf_iff_prefix.mpr hinitial)
  | some catalogUrl =>
    have hmem := List.mem_of_find?_eq_some hroot
    have hfound := List.find?_some hroot
    have hne : url ≠ catalogUrl := fun heq => h (heq ▸ hmem)
    rw [Bool.or_eq_true, decide_eq_true_eq] at hfound
    refine iff_of_true (decide_eq_true hne) ⟨catalogUrl, hmem, ?_⟩
    exact List.isPrefixOf_iff_prefix.mp (hfound.resolve_left hne)

theorem sharedSources_ne_nil : (candidate.urls.filter fun url =>
    SharedSource candidate existing url) ≠ [] ↔ ∃ url, SharedSource candidate existing url := by
  constructor
  · intro h
    obtain ⟨url, hurl⟩ := List.exists_mem_of_ne_nil _ h
    exact ⟨url, by simpa using (List.mem_filter.mp hurl).2⟩
  · rintro ⟨url, hurl⟩
    exact List.ne_nil_of_mem (List.mem_filter.mpr ⟨hurl.1, decide_eq_true hurl⟩)

theorem catalogSubpathUrls_ne_nil : multiEntryCatalogSubpathUrls (candidate.urls.filter fun url =>
    SharedSource candidate existing url) ≠ [] ↔
      ∃ url, SharedSource candidate existing url ∧ IsCatalogSubpath url := by
  constructor
  · intro h
    obtain ⟨url, hurl⟩ := List.exists_mem_of_ne_nil _ h
    obtain ⟨hmem, hsub⟩ := List.mem_filter.mp hurl
    have hshared : SharedSource candidate existing url := by simpa using (List.mem_filter.mp hmem).2
    exact ⟨url, hshared, (isCatalogSubpath_iff hshared.2.2).mp hsub⟩
  · rintro ⟨url, hshared, hsub⟩
    have hmem : url ∈ candidate.urls.filter fun url => SharedSource candidate existing url :=
      List.mem_filter.mpr ⟨hshared.1, decide_eq_true hshared⟩
    exact List.ne_nil_of_mem
      (List.mem_filter.mpr ⟨hmem, (isCatalogSubpath_iff hshared.2.2).mpr hsub⟩)

/-- The cascade has a reason exactly where one of the five rules applies to given texts. -/
theorem strictReasons_ne_nil_iff : strictReasons candidate existing ≠ [] ↔
    StrictRule candidate existing (fun text => text ≠ []) := by
  simp only [strictReasons, strictDuplicateUrls_intersection, append_ne_nil_iff, pathReason,
    slugReason, pushIf_ne_nil, sharedSources_ne_nil, catalogSubpathUrls_ne_nil,
    ← List.countP_eq_length_filter]
  constructor
  · rintro ((((hpath | ⟨hcategory, hslug, hsame, hslugs⟩) | ⟨hurl, hcategory, hsame⟩) |
      ⟨hurl, hcategory, hsame, hdescription, hdescriptions⟩) | ⟨hurls, hcategory, hexisting⟩)
    · exact .samePath hpath
    · exact .sameSlug hcategory hslug hsame hslugs
    · exact .catalogSubpath hcategory hsame hurl
    · exact .samePurpose hcategory hsame hurl hdescription hdescriptions
    · exact .sameCollection hcategory hexisting hurls
  · intro h
    cases h with
    | samePath hpath => exact Or.inl (Or.inl (Or.inl (Or.inl hpath)))
    | sameSlug hcategory hslug hsame hslugs =>
      exact Or.inl (Or.inl (Or.inl (Or.inr ⟨hcategory, hslug, hsame, hslugs⟩)))
    | catalogSubpath hcategory hsame hurl =>
      exact Or.inl (Or.inl (Or.inr ⟨hurl, hcategory, hsame⟩))
    | samePurpose hcategory hsame hurl hdescription hdescriptions =>
      exact Or.inl (Or.inr ⟨hurl, hcategory, hsame, hdescription, hdescriptions⟩)
    | sameCollection hcategory hexisting hurls => exact Or.inr ⟨hurls, hcategory, hexisting⟩

theorem exists_sharedSource_of_countP
    (h : 2 ≤ candidate.urls.countP fun url => SharedSource candidate existing url) :
    ∃ url, SharedSource candidate existing url := by
  have hpos : 0 < candidate.urls.countP fun url => SharedSource candidate existing url := by omega
  obtain ⟨url, _, hurl⟩ := List.countP_pos_iff.mp hpos
  exact ⟨url, of_decide_eq_true hurl⟩

/-- Rule by rule, what is strictly a duplicate has a legacy reason too. -/
theorem legacyReasons_ne_nil (h : strictReasons candidate existing ≠ []) :
    legacyReasons candidate existing ≠ [] := by
  have hsource : (∃ url, SharedSource candidate existing url) →
      intersection candidate.urls existing.urls ≠ [] := by
    rintro ⟨url, hcandidate, hexisting, _⟩
    exact List.ne_nil_of_mem (List.mem_filter.mpr ⟨hcandidate, decide_eq_true hexisting⟩)
  have hurls : intersection candidate.urls existing.urls ≠ [] →
      legacyReasons candidate existing ≠ [] := by
    intro hshared
    simp only [legacyReasons, append_ne_nil_iff, pushIf_ne_nil]
    exact Or.inl (Or.inl (Or.inl (Or.inl (Or.inr hshared))))
  cases strictReasons_ne_nil_iff.mp h with
  | samePath hpath =>
    simp only [legacyReasons, append_ne_nil_iff, pathReason, pushIf_ne_nil]
    exact Or.inl (Or.inl (Or.inl (Or.inl (Or.inl (Or.inl hpath)))))
  | sameSlug hcategory hslug hsame hslugs =>
    simp only [legacyReasons, append_ne_nil_iff, slugReason, pushIf_ne_nil]
    exact Or.inl (Or.inl (Or.inl (Or.inl (Or.inl (Or.inr ⟨hcategory, hslug, hsame, hslugs⟩)))))
  | catalogSubpath hcategory hsame hurl =>
    obtain ⟨url, hshared, _⟩ := hurl
    exact hurls (hsource ⟨url, hshared⟩)
  | samePurpose hcategory hsame hurl hdescription hdescriptions => exact hurls (hsource hurl)
  | sameCollection hcategory hexisting hcount =>
    exact hurls (hsource (exists_sharedSource_of_countP hcount))

/-! ## Both searches -/

theorem matchBy_eq_some_iff {reasonsFor : ContentDuplicateSignals → List Units}
    {items : List ContentDuplicateSignals} {found : ContentDuplicateMatch} :
    matchBy reasonsFor items = some found ↔ found.reasons = reasonsFor found.existing ∧
      ∃ pre, FirstAt reasonsFor items pre found.existing := by
  rw [matchBy, Option.map_eq_some_iff]
  constructor
  · rintro ⟨pair, hpair, rfl⟩
    exact firstMatch_eq_some_iff.mp hpair
  · intro h
    exact ⟨(found.existing, found.reasons), firstMatch_eq_some_iff.mpr h, rfl⟩

theorem matchBy_eq_none_iff {reasonsFor : ContentDuplicateSignals → List Units}
    {items : List ContentDuplicateSignals} :
    matchBy reasonsFor items = none ↔ ∀ existing ∈ items, reasonsFor existing = [] := by
  rw [matchBy, Option.map_eq_none_iff, firstMatch_eq_none_iff]

theorem strictReasons_eq_nil_iff : strictReasons candidate existing = [] ↔
    ¬ StrictRule candidate existing (fun text => text ≠ []) := by
  rw [← strictReasons_ne_nil_iff, not_not]

/-- What both have in common at most: a host, or URLs of catalog roots. -/
structure OnlyRootsShared (candidate existing : ContentDuplicateSignals) : Prop where
  path : candidate.filePath ≠ existing.filePath
  slug : candidate.slug ≠ existing.slug
  urls : ∀ url ∈ candidate.urls, url ∈ existing.urls → url ∈ MULTI_ENTRY_CATALOG_URLS

theorem not_strictRule_of_onlyRootsShared {given : Units → Prop}
    (h : OnlyRootsShared candidate existing) : ¬ StrictRule candidate existing given := by
  have hnone : ∀ url, ¬ SharedSource candidate existing url :=
    fun url hurl => hurl.2.2 (h.urls url hurl.1 hurl.2.1)
  intro hrule
  cases hrule with
  | samePath hpath => exact h.path hpath
  | sameSlug hcategory hslug hsame hslugs => exact h.slug hslugs
  | catalogSubpath hcategory hsame hurl =>
    obtain ⟨url, hshared, _⟩ := hurl
    exact hnone url hshared
  | samePurpose hcategory hsame hurl hdescription hdescriptions =>
    obtain ⟨url, hshared⟩ := hurl
    exact hnone url hshared
  | sameCollection hcategory hexisting hcount =>
    obtain ⟨url, hshared⟩ := exists_sharedSource_of_countP hcount
    exact hnone url hshared

/-- The strict search finds the first item a strict rule applies to, if there is one; the
legacy search has by then stopped at that item or before; and items that share no more than
hosts and catalog roots are never found. -/
theorem strict_match_sound (candidate : ContentDuplicateSignals)
    (items : List ContentDuplicateSignals) :
    ((findStrictContentDuplicateMatch candidate items).isSome = true ↔
      ∃ existing ∈ items, StrictRule candidate existing (fun text => text ≠ [])) ∧
    (∀ found, findStrictContentDuplicateMatch candidate items = some found →
      ∃ pre post, items = pre ++ found.existing :: post ∧
        StrictRule candidate found.existing (fun text => text ≠ []) ∧
        (∀ earlier ∈ pre, ¬ StrictRule candidate earlier (fun text => text ≠ [])) ∧
        ∃ legacy pre' post', findContentDuplicateMatch candidate items = some legacy ∧
          items = pre' ++ legacy.existing :: post' ∧
          (∀ earlier ∈ pre', legacyReasons candidate earlier = []) ∧
          pre'.length ≤ pre.length) ∧
    ((∀ existing ∈ items, OnlyRootsShared candidate existing) →
      findStrictContentDuplicateMatch candidate items = none) := by
  refine ⟨?_, ?_, ?_⟩
  · rw [Option.isSome_iff_ne_none, Ne, findStrictContentDuplicateMatch, matchBy_eq_none_iff]
    simp only [strictReasons_eq_nil_iff]
    push Not
    exact Iff.rfl
  · intro found hfound
    obtain ⟨_, pre, hfirst⟩ := matchBy_eq_some_iff.mp hfound
    obtain ⟨pre', item, hlegacy, hlength⟩ :=
      firstAt_of_imp (fun _ h => legacyReasons_ne_nil h) hfirst
    obtain ⟨post, hsplit⟩ := hfirst.split
    obtain ⟨post', hsplit'⟩ := hlegacy.split
    refine ⟨pre, post, hsplit, strictReasons_ne_nil_iff.mp hfirst.speaks,
      fun earlier hearlier => strictReasons_eq_nil_iff.mp (hfirst.silent earlier hearlier),
      ⟨item, legacyReasons candidate item⟩, pre', post', ?_, hsplit', hlegacy.silent, hlength⟩
    exact matchBy_eq_some_iff.mpr ⟨rfl, pre', hlegacy⟩
  · intro h
    refine matchBy_eq_none_iff.mpr fun existing hexisting => ?_
    exact strictReasons_eq_nil_iff.mpr (not_strictRule_of_onlyRootsShared (h existing hexisting))

def listedTool (slug : Units) : ContentDuplicateSignals where
  filePath := units "content/tools/" ++ slug ++ units ".mdx"
  category := units "tools"
  slug := slug
  title := slug
  normalizedTitle := slug
  normalizedDescription := []
  urls := [units "https://example.com/tool"]
  domains := [units "example.com"]
  label := none
  url := none

/-- Two entries of a category with one source and no description: their descriptions are the
same, and the strict search passes over them. -/
theorem undescribed_not_strict :
    StrictRule (listedTool (units "left")) (listedTool (units "right")) (fun _ => True) ∧
    findStrictContentDuplicateMatch (listedTool (units "left")) [listedTool (units "right")] =
      none := by
  refine ⟨.samePurpose trivial rfl ⟨units "https://example.com/tool", ?_⟩ trivial rfl,
    by decide +kernel⟩
  exact ⟨by decide, by decide, by decide⟩

end Gittensory.DuplicateMatching
