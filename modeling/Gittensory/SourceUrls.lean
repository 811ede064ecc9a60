import Gittensory.SafeUrl

/-!
The source URLs that a submitted entry declares. A reader of its own takes the scalar source
fields from the frontmatter, a second pass over the same lines collects the fields that hold
lists, and of the URLs found the site's own artifacts and the repetitions are dropped.
-/
namespace Gittensory.SourceUrls

open CodeUnits Frontmatter DuplicateSignals
open SafeUrl (openBracket closeBracket)

structure SubmittedSourceUrl where
  field : Units
  url : Units
  deriving DecidableEq

def SOURCE_URL_FIELDS : List Units := [
  units "documentationUrl",
  units "docsUrl",
  units "downloadUrl",
  units "githubUrl",
  units "packageUrl",
  units "repoUrl",
  units "repositoryUrl",
  units "sourceUrl",
  units "websiteUrl"]

/-- Array-valued source fields. -/
def SOURCE_URL_LIST_FIELDS : List Units := [units "sourceUrls", units "retrievalSources"]

def DISTRIBUTION_SOURCE_FIELDS : List Units := [units "downloadUrl", units "packageUrl"]

def DISTRIBUTION_SOURCE_HOSTS : List Units := [
  units "crates.io",
  units "files.pythonhosted.org",
  units "hub.docker.com",
  units "marketplace.visualstudio.com",
  units "mvnrepository.com",
  units "npmjs.com",
  units "packagist.org",
  units "pkg.go.dev",
  units "plugins.gradle.org",
  units "pypi.org",
  units "registry.npmjs.org",
  units "repo1.maven.org",
  units "rubygems.org",
  units "www.npmjs.com"]

def PRIMARY_CANONICAL_SOURCE_FIELDS : List Units := [
  units "githubUrl",
  units "repoUrl",
  units "repositoryUrl",
  units "sourceUrl"]

/-! ## Values -/

def stripYamlComment (value : Units) : Units := trim (cutComment value)

/-- Unlike `unquoteYamlScalar`, this one looks for a comment before it looks for quotes. -/
def unquoteYamlValue (value : Units) : Units :=
  let trimmed := stripYamlComment value
  if enclosedBy doubleQuote trimmed || enclosedBy singleQuote trimmed then
    trim (trimmed.drop 1).dropLast
  else trim trimmed

def comma : ℕ := 44

def isFlowList (text : Units) : Bool :=
  text.head? = some openBracket && text.getLast? = some closeBracket

def scalarSourceUrlValues (value : Units) : List Units :=
  let trimmed := trim value
  if trimmed = [] then []
  else if isFlowList trimmed then
    (((trimmed.drop 1).dropLast.splitOn comma).map unquoteYamlValue).filter fun url => url ≠ []
  else [unquoteYamlValue trimmed].filter fun url => url ≠ []

/-! ## Scalar fields -/

/-- The assignments `fields[key] = ...` of this reader's loop. A field without a value on its
own line is passed over, and the lines below it are read like all others. -/
def sourceAssignments : List Units → List (Units × Units)
  | [] => []
  | line :: rest =>
      match headOf line with
      | none => sourceAssignments rest
      | some (key, tail) =>
          let inline := trim tail
          if isBlockIndicator inline then
            (key, blockValue inline (rest.takeWhile inBlock)) ::
              sourceAssignments (rest.dropWhile inBlock)
          else if inline ≠ [] then (key, unquoteYamlScalar inline) :: sourceAssignments rest
          else sourceAssignments rest
termination_by lines => lines.length
decreasing_by
  all_goals first
    | exact length_dropWhile_lt
    | exact Nat.lt_succ_self _

def parseSourceFrontmatter (source : Units) : List (Units × Units) :=
  match frontmatterLines source with
  | none => []
  | some lines => (sourceAssignments lines).foldl setField []

def scalarUrls (source : Units) : List SubmittedSourceUrl :=
  SOURCE_URL_FIELDS.flatMap fun field =>
    (scalarSourceUrlValues ((fieldOf (parseSourceFrontmatter source) field).getD [])).map
      fun url => ⟨field, url⟩

/-! ## List fields -/

/-- The groups of `/^([A-Za-z][A-Za-z0-9_]*):\s*(.*?)\s*$/`. -/
def topLevelOf (line : Units) : Option (Units × Units) :=
  if line.head?.any isLetter then
    match line.dropWhile isKeyUnit with
    | [] => none
    | unit :: tail =>
        if unit = colon ∧ (trim tail).all isDot then some (line.takeWhile isKeyUnit, trim tail)
        else none
  else none

/-- The group of `/^\s*-\s*(.*?)\s*$/`. -/
def itemOf (line : Units) : Option Units :=
  match line.dropWhile isSpace with
  | [] => none
  | unit :: rest => if unit = dash ∧ (trim rest).all isDot then some (trim rest) else none

/-- The URLs on the line that opens a list field. -/
def openingUrls (activeField value : Units) : List SubmittedSourceUrl :=
  if activeField ≠ [] ∧ value ≠ [] ∧ value ≠ [bar] ∧ value ≠ [greaterSign] then
    (scalarSourceUrlValues value).map fun url => ⟨activeField, url⟩
  else []

/-- The URL on a line below it. -/
def itemUrls (activeField line : Units) : List SubmittedSourceUrl :=
  match itemOf line with
  | none => []
  | some item =>
      let url := unquoteYamlValue item
      if url = [] then [] else [⟨activeField, url⟩]

def listUrlsFrom (activeField : Units) : List Units → List SubmittedSourceUrl
  | [] => []
  | line :: rest =>
      match topLevelOf line with
      | some (key, value) =>
          let activeField := if key ∈ SOURCE_URL_LIST_FIELDS then key else []
          openingUrls activeField value ++ listUrlsFrom activeField rest
      | none =>
          if activeField = [] then listUrlsFrom activeField rest
          else itemUrls activeField line ++ listUrlsFrom activeField rest

def listSourceUrlValues (source : Units) : List SubmittedSourceUrl :=
  listUrlsFrom [] ((frontmatterLines source).getD [[]])

/-! ## What is submitted -/

variable {URL : Type} (api : UrlApi URL)

def isAbsoluteHttpUrl (url : Units) : Bool :=
  match api.parse url with
  | none => false
  | some parsed => api.protocol parsed = units "http:" ∨ api.protocol parsed = units "https:"

/-- A distribution field with a site-relative value names the build's own artifact. -/
def isOwnArtifact (item : SubmittedSourceUrl) : Bool :=
  item.field ∈ DISTRIBUTION_SOURCE_FIELDS && !isAbsoluteHttpUrl api item.url

def itemKey (item : SubmittedSourceUrl) : Units := item.field ++ newline :: item.url

/-- `urls.filter(...)` with the set of keys it carries along. -/
def keepNew (seen : List Units) : List SubmittedSourceUrl → List SubmittedSourceUrl
  | [] => []
  | item :: rest =>
      if isOwnArtifact api item then keepNew seen rest
      else if itemKey item ∈ seen then keepNew seen rest
      else item :: keepNew (itemKey item :: seen) rest

def declaredUrls (source : Units) : List SubmittedSourceUrl :=
  scalarUrls source ++ listSourceUrlValues source

def extractSubmittedSourceUrls (source : Units) : List SubmittedSourceUrl :=
  keepNew api [] (declaredUrls source)

inductive SourceEvidenceRole
  | canonical
  | distribution
  deriving DecidableEq

def sourceRole (item : SubmittedSourceUrl) : SourceEvidenceRole :=
  if item.field ∈ DISTRIBUTION_SOURCE_FIELDS then .distribution
  else
    match api.parse item.url with
    | none => .canonical
    | some parsed =>
        if toLowerCase (api.hostname parsed) ∈ DISTRIBUTION_SOURCE_HOSTS then .distribution
        else .canonical

/-! ## Repetitions -/

theorem keepNew_subset (seen : List Units) (items : List SubmittedSourceUrl) :
    keepNew api seen items ⊆ items := by
  induction items generalizing seen with
  | nil => exact List.Subset.refl _
  | cons item rest ih =>
    rw [keepNew]
    split_ifs with hartifact hseen
    · exact List.subset_cons_of_subset _ (ih seen)
    · exact List.subset_cons_of_subset _ (ih seen)
    · exact List.cons_subset_cons _ (ih _)

theorem field_of_mem_openingUrls {activeField value : Units} {item : SubmittedSourceUrl}
    (h : item ∈ openingUrls activeField value) : item.field = activeField ∧ activeField ≠ [] := by
  unfold openingUrls at h
  by_cases hopens : activeField ≠ [] ∧ value ≠ [] ∧ value ≠ [bar] ∧ value ≠ [greaterSign]
  · rw [if_pos hopens] at h
    obtain ⟨url, -, rfl⟩ := List.mem_map.mp h
    exact ⟨rfl, hopens.1⟩
  · rw [if_neg hopens] at h
    nomatch h

theorem field_of_mem_itemUrls {activeField line : Units} {item : SubmittedSourceUrl}
    (h : item ∈ itemUrls activeField line) : item.field = activeField := by
  unfold itemUrls at h
  split at h
  · nomatch h
  · dsimp only at h
    split_ifs at h
    · nomatch h
    · rw [List.mem_singleton.mp h]

theorem field_mem_of_mem_listUrlsFrom {activeField : Units}
    (hactive : activeField ≠ [] → activeField ∈ SOURCE_URL_LIST_FIELDS) {lines : List Units}
    {item : SubmittedSourceUrl} (h : item ∈ listUrlsFrom activeField lines) :
    item.field ∈ SOURCE_URL_LIST_FIELDS := by
  induction lines generalizing activeField with
  | nil => nomatch h
  | cons line rest ih =>
    rw [listUrlsFrom] at h
    split at h
    · rename_i key value hline
      have hopened : ∀ field : Units,
          (field = if key ∈ SOURCE_URL_LIST_FIELDS then key else []) → field ≠ [] →
            field ∈ SOURCE_URL_LIST_FIELDS := by
        rintro field hfield hne
        split_ifs at hfield with hkey
        · rwa [hfield]
        · exact absurd hfield hne
      rcases List.mem_append.mp h with hopen | hrest
      · obtain ⟨hfield, hne⟩ := field_of_mem_openingUrls hopen
        exact hfield ▸ hopened _ rfl hne
      · exact ih (hopened _ rfl) hrest
    · split_ifs at h with hempty
      · exact ih hactive h
      · rcases List.mem_append.mp h with hitem | hrest
        · exact field_of_mem_itemUrls hitem ▸ hactive hempty
        · exact ih hactive hrest

/-- A URL is declared under one of the known fields. -/
theorem field_mem_of_mem_declaredUrls {source : Units} {item : SubmittedSourceUrl}
    (h : item ∈ declaredUrls source) :
    item.field ∈ SOURCE_URL_FIELDS ++ SOURCE_URL_LIST_FIELDS := by
  rcases List.mem_append.mp h with hscalar | hlist
  · obtain ⟨field, hfield, hurl⟩ := List.mem_flatMap.mp hscalar
    obtain ⟨url, -, rfl⟩ := List.mem_map.mp hurl
    exact List.mem_append_left _ hfield
  · exact List.mem_append_right _
      (field_mem_of_mem_listUrlsFrom (fun hne => absurd rfl hne) hlist)

theorem newline_not_mem_field {source : Units} {item : SubmittedSourceUrl}
    (h : item ∈ declaredUrls source) : newline ∉ item.field := by
  have hall : ∀ field ∈ SOURCE_URL_FIELDS ++ SOURCE_URL_LIST_FIELDS, newline ∉ field := by
    decide +kernel
  exact hall _ (field_mem_of_mem_declaredUrls h)

/-- A text is read off up to the first unit that is not in it. -/
theorem takeWhile_ne_append {text : Units} {unit : ℕ} (h : unit ∉ text) (rest : Units) :
    (text ++ unit :: rest).takeWhile (fun other => other ≠ unit) = text := by
  rw [List.takeWhile_append_of_pos, List.takeWhile_cons_of_neg, List.append_nil]
  · simp
  · intro other hother
    rw [decide_eq_true_eq]
    exact fun heq => h (heq ▸ hother)

theorem eq_of_itemKey_eq {item other : SubmittedSourceUrl} (hitem : newline ∉ item.field)
    (hother : newline ∉ other.field) (h : itemKey item = itemKey other) : item = other := by
  have hsame : item.field = other.field := by
    rw [← takeWhile_ne_append hitem item.url, ← takeWhile_ne_append hother other.url]
    exact congrArg (List.takeWhile fun unit => unit ≠ newline) h
  rw [itemKey, itemKey, hsame, List.append_cancel_left_eq, List.cons.injEq] at h
  cases item
  cases other
  cases hsame
  cases h.2
  rfl

theorem mem_keepNew {seen : List Units} {items : List SubmittedSourceUrl}
    (hfields : ∀ item ∈ items, newline ∉ item.field) {item : SubmittedSourceUrl}
    (hmem : item ∈ items) (hown : isOwnArtifact api item = false) (hseen : itemKey item ∉ seen) :
    item ∈ keepNew api seen items := by
  induction items generalizing seen with
  | nil => nomatch hmem
  | cons first rest ih =>
    have hrest : ∀ item ∈ rest, newline ∉ item.field := fun item hitem =>
      hfields item (List.mem_cons_of_mem _ hitem)
    rw [keepNew]
    rcases List.mem_cons.mp hmem with rfl | hmem'
    · rw [if_neg (by rw [hown]; exact Bool.false_ne_true), if_neg hseen]
      exact List.mem_cons_self ..
    · split_ifs with hartifact hfirst
      · exact ih hrest hmem' hseen
      · exact ih hrest hmem' hseen
      · by_cases hkey : itemKey item = itemKey first
        · rw [eq_of_itemKey_eq (hfields _ hmem) (hfields _ (List.mem_cons_self ..)) hkey]
          exact List.mem_cons_self ..
        · refine List.mem_cons_of_mem _ (ih hrest hmem' ?_)
          rw [List.mem_cons, not_or]
          exact ⟨hkey, hseen⟩

/-- A declared URL is submitted unless it is the build's own artifact. -/
theorem mem_extractSubmittedSourceUrls_iff {source : Units} {item : SubmittedSourceUrl} :
    item ∈ extractSubmittedSourceUrls api source ↔
      item ∈ declaredUrls source ∧ isOwnArtifact api item = false := by
  constructor
  · intro h
    refine ⟨keepNew_subset api _ _ h, ?_⟩
    have hkept : ∀ (seen : List Units) (items : List SubmittedSourceUrl),
        item ∈ keepNew api seen items → isOwnArtifact api item = false := by
      intro seen items
      induction items generalizing seen with
      | nil => nofun
      | cons first rest ih =>
        intro hmem
        rw [keepNew] at hmem
        split_ifs at hmem with hartifact hfirst
        · exact ih seen hmem
        · exact ih seen hmem
        · rcases List.mem_cons.mp hmem with rfl | hmem
          · exact Bool.eq_false_iff.mpr hartifact
          · exact ih _ hmem
    exact hkept _ _ h
  · rintro ⟨hmem, hown⟩
    exact mem_keepNew api (fun other hother => newline_not_mem_field hother) hmem hown
      List.not_mem_nil

end Gittensory.SourceUrls
