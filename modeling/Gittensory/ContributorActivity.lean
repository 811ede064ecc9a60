import Gittensory.Capturing
import Gittensory.IsoTimestamp
import Gittensory.RecommendationOutcomes

/-!
The contributor activity refresh (`github/backfill.ts`, `refreshContributorActivity`). Four
searches for each of up to four repositories travel as the fields of one query, each under
an alias that the repository's name and the kind of search are squeezed into, and the answer
holds one bucket for each alias. Every repository is given its own buckets exactly when the
squeezed names of the repositories of a batch differ.
-/
namespace Gittensory.ContributorActivity

open Capturing IsoTimestamp JsValue RecommendationOutcomes TextPattern Pattern

/-! ## The query -/

structure RepositoryRecord where
  fullName : String
  isRegistered : Bool
  deriving DecidableEq, Repr

inductive ActivityKind where
  | all
  | merged
  | open
  | issues
  deriving DecidableEq, Repr

def ActivityKind.text : ActivityKind → Text
  | .all => "all".toList
  | .merged => "merged".toList
  | .open => "open".toList
  | .issues => "issues".toList

/-- `type:pr` or `type:issue` and the state that is asked for. -/
def ActivityKind.terms : ActivityKind → Text
  | .all => "type:pr".toList
  | .merged => "type:pr is:merged".toList
  | .open => "type:pr is:open".toList
  | .issues => "type:issue".toList

/-- `replace(/[^A-Za-z0-9_]/g, "_")`, which works on code units. -/
def squeezed (repoFullName : String) : Text :=
  repoFullName.toList.flatMap fun c =>
    if isWordChar c then [c] else List.replicate (unitsOf c) '_'

def activityAlias (repoFullName : String) (kind : ActivityKind) : Text :=
  "r_".toList ++ squeezed repoFullName ++ ['_'] ++ kind.text

def searchTerms (login : String) (kind : ActivityKind) : Text :=
  " author:".toList ++ login.toList ++ [' '] ++ kind.terms ++ " sort:updated-desc".toList

def activityQuery (login repoFullName : String) (kind : ActivityKind) : Text :=
  "repo:".toList ++ (repoFullName.toList ++ searchTerms login kind)

structure ActivityField where
  aliasText : Text
  query : Text
  deriving DecidableEq, Repr

def kinds : List ActivityKind := [.all, .merged, .open, .issues]

def buildContributorActivityAliases (login : String) (repositories : List RepositoryRecord) :
    List ActivityField :=
  repositories.flatMap fun repo => kinds.map fun kind =>
    ⟨activityAlias repo.fullName kind, activityQuery login repo.fullName kind⟩

/-! ## The answer -/

/-- `labels` are the names of `labels.nodes`; a missing label has none. -/
structure GitHubGraphQlSearchNode where
  url : Option String
  body : Option String
  updatedAt : Option String
  mergedAt : Option String
  labels : List (Option String)
  deriving DecidableEq, Repr

structure GitHubGraphQlSearchBucket where
  issueCount : Option ℕ
  nodes : List (Option GitHubGraphQlSearchNode)
  deriving DecidableEq, Repr

/-- The search service: whether the request that asks for these fields is answered, and the
bucket of a query. -/
structure SearchService where
  answers : List ActivityField → Bool
  search : Text → GitHubGraphQlSearchBucket

/-- `data[alias]`: of several fields with one alias, the last. -/
def bucketAt (service : SearchService) (fields : List ActivityField) (aliasText : Text) :
    Option GitHubGraphQlSearchBucket :=
  ((fields.filter fun field => field.aliasText = aliasText).getLast?).map
    fun field => service.search field.query

/-! ## The statistics of one repository -/

structure ContributorRepoStatRecord where
  login : String
  repoFullName : String
  pullRequests : ℕ
  mergedPullRequests : ℕ
  openPullRequests : ℕ
  issues : ℕ
  stalePullRequests : ℕ
  unlinkedPullRequests : ℕ
  dominantLabels : List String
  lastActivityAt : Option String
  deriving DecidableEq, Repr

def chunkArray {α : Type*} (items : List α) (size : ℕ) : List (List α) :=
  (List.range ((items.length + size - 1) / size)).map fun i => (items.drop (i * size)).take size

def compactNodes (bucket : Option GitHubGraphQlSearchBucket) : List GitHubGraphQlSearchNode :=
  (bucket.elim [] GitHubGraphQlSearchBucket.nodes).filterMap id

/-- The nodes with an address that no earlier one has. -/
def uniqueByUrl (seenUrls : List String) :
    List GitHubGraphQlSearchNode → List GitHubGraphQlSearchNode
  | [] => []
  | node :: rest =>
      match present node.url with
      | none => uniqueByUrl seenUrls rest
      | some url =>
          if url ∈ seenUrls then uniqueByUrl seenUrls rest
          else node :: uniqueByUrl (url :: seenUrls) rest

def labelsOf (node : GitHubGraphQlSearchNode) : List String :=
  node.labels.filterMap fun label => present label

/-- `/\b(?:close[sd]?|fix(?:e[sd])?|resolve[sd]?)\s+#(\d+)\b/gi` -/
def closingReference : Capture where
  lead := .seqs [.wordBoundary,
    .alts [.seq (literalNoCase "close") (.opt (.alt (eitherCase 's') (eitherCase 'd'))),
      .seq (literalNoCase "fix")
        (.opt (.seq (eitherCase 'e') (.alt (eitherCase 's') (eitherCase 'd')))),
      .seq (literalNoCase "resolve") (.opt (.alt (eitherCase 's') (eitherCase 'd')))],
    .plus (.char spaceSet), exactly '#']
  group := .plus (.char ⟨false, [('0', '9')]⟩)
  trail := .wordBoundary

def decimalValue (digits : Text) : ℕ :=
  digits.foldl (fun value digit => 10 * value + (digit.toNat - '0'.toNat)) 0

/-- The issues of the matches; from `2 ^ 1024 - 2 ^ 970` on, `Number` is infinite. -/
def extractLinkedIssueNumbers (text : String) : List ℕ :=
  (((closingReference.found text.toList).map decimalValue).filter fun value =>
    0 < value ∧ value < 2 ^ 1024 - 2 ^ 970).eraseDups

def latestDate (values : List (Option String)) : Option String :=
  ((values.filterMap present).mergeSort textLe).getLast?

section Refresh

-- `left.localeCompare(right)` and the two readings of the clock's time.
variable (localeCompare : String → String → Ordering) (dates : DateParser) (now : ℤ)

def topItems (values : List String) (limit : ℕ) : List String :=
  (values.eraseDups.mergeSort fun left right =>
    if values.count left ≠ values.count right then values.count right < values.count left
    else (localeCompare left right).isLE).take limit

def daysSince (value : String) : ℤ :=
  match dates.parse value with
  | none => 0
  | some time => (now - time) / 86400000

/-- What is stored of one repository, whose buckets are `bucketOf`. -/
def contributorRepoStat (login repoFullName : String)
    (bucketOf : ActivityKind → Option GitHubGraphQlSearchBucket) :
    Option ContributorRepoStatRecord :=
  let count kind := ((bucketOf kind).bind GitHubGraphQlSearchBucket.issueCount).getD 0
  let nodes kind := compactNodes (bucketOf kind)
  if count .all + count .issues = 0 then none
  else
    some {
      login := login
      repoFullName := repoFullName
      pullRequests := count .all
      mergedPullRequests := count .merged
      openPullRequests := count .open
      issues := count .issues
      stalePullRequests := (nodes .open).countP fun node =>
        (present node.updatedAt).any fun updatedAt => 14 ≤ daysSince dates now updatedAt
      unlinkedPullRequests := (nodes .open).countP fun node =>
        (extractLinkedIssueNumbers (node.body.getD "")).isEmpty
      dominantLabels := topItems localeCompare
        ((uniqueByUrl [] (nodes .all ++ nodes .merged ++ nodes .open)).flatMap labelsOf ++
          (nodes .issues).flatMap labelsOf) 8
      lastActivityAt := latestDate
        ((nodes .all).map (fun node => node.updatedAt.or node.mergedAt) ++
          (nodes .merged).map (fun node => node.mergedAt.or node.updatedAt) ++
          (nodes .open).map GitHubGraphQlSearchNode.updatedAt ++
          (nodes .issues).map GitHubGraphQlSearchNode.updatedAt)
    }

def registeredRepositories (repositories : List RepositoryRecord)
    (repoFullName : Option String) : List RepositoryRecord :=
  repositories.filter fun repo =>
    repo.isRegistered && (present repoFullName).all fun name => repo.fullName = name

/-- What is stored of a batch; a request that fails is passed over. -/
def refreshChunk (service : SearchService) (login : String) (chunk : List RepositoryRecord) :
    List ContributorRepoStatRecord :=
  let fields := buildContributorActivityAliases login chunk
  if service.answers fields then
    chunk.filterMap fun repo =>
      contributorRepoStat localeCompare dates now login repo.fullName fun kind =>
        bucketAt service fields (activityAlias repo.fullName kind)
  else []

/-- The rows that are stored, in the order of their writes. -/
def refreshContributorActivity (service : SearchService) (login : String)
    (repositories : List RepositoryRecord) (repoFullName : Option String) :
    List ContributorRepoStatRecord :=
  (chunkArray (registeredRepositories repositories repoFullName) 4).flatMap
    (refreshChunk localeCompare dates now service login)

/-- The row of a repository's own four buckets. -/
def ownStat (service : SearchService) (login repoFullName : String) :
    Option ContributorRepoStatRecord :=
  contributorRepoStat localeCompare dates now login repoFullName fun kind =>
    some (service.search (activityQuery login repoFullName kind))

end Refresh

/-! ## One alias for two names -/

theorem text_injective {kind other : ActivityKind}
    (h : kind.text.getLast? = other.text.getLast?) : kind = other := by
  revert h
  cases kind <;> cases other <;> decide

theorem text_ne_nil (kind : ActivityKind) : kind.text ≠ [] := by
  cases kind <;> decide

/-- The kinds end in different letters, so an alias tells its kind, and nothing else of the
name than its squeezed form. -/
theorem activityAlias_eq_iff {name other : String} {kind kind' : ActivityKind} :
    activityAlias name kind = activityAlias other kind' ↔
      squeezed name = squeezed other ∧ kind = kind' := by
  constructor
  · intro h
    have hlast := congrArg List.getLast? h
    rw [activityAlias, activityAlias, List.getLast?_append_of_ne_nil _ (text_ne_nil kind),
      List.getLast?_append_of_ne_nil _ (text_ne_nil kind')] at hlast
    obtain rfl := text_injective hlast
    rw [activityAlias, activityAlias] at h
    exact ⟨List.append_cancel_left (List.append_cancel_right (List.append_cancel_right h)), rfl⟩
  · rintro ⟨hname, rfl⟩
    rw [activityAlias, activityAlias, hname]

theorem activityQuery_injective {login name other : String} {kind : ActivityKind}
    (h : activityQuery login name kind = activityQuery login other kind) : name = other := by
  have hrest := List.append_cancel_left h
  exact String.toList_inj.mp (List.append_cancel_right hrest)

theorem mem_aliases_iff {login : String} {chunk : List RepositoryRecord} {field : ActivityField} :
    field ∈ buildContributorActivityAliases login chunk ↔
      ∃ repo ∈ chunk, ∃ kind, field =
        ⟨activityAlias repo.fullName kind, activityQuery login repo.fullName kind⟩ := by
  have hkinds : ∀ kind, kind ∈ kinds := by intro kind; cases kind <;> decide
  simp only [buildContributorActivityAliases, List.mem_flatMap, List.mem_map]
  constructor
  · rintro ⟨repo, hrepo, kind, -, rfl⟩
    exact ⟨repo, hrepo, kind, rfl⟩
  · rintro ⟨repo, hrepo, kind, rfl⟩
    exact ⟨repo, hrepo, kind, hkinds kind, rfl⟩

/-- A repository of a batch is given the buckets of one with the same squeezed name. -/
theorem exists_bucketAt {chunk : List RepositoryRecord} {repo : RepositoryRecord}
    (hrepo : repo ∈ chunk) (login : String) (kind : ActivityKind) :
    ∃ last ∈ chunk, squeezed last.fullName = squeezed repo.fullName ∧
      ∀ service, ∀ other : String, squeezed other = squeezed repo.fullName →
        bucketAt service (buildContributorActivityAliases login chunk)
            (activityAlias other kind) =
          some (service.search (activityQuery login last.fullName kind)) := by
  let same := (buildContributorActivityAliases login chunk).filter
    fun field => field.aliasText = activityAlias repo.fullName kind
  have hown : (⟨activityAlias repo.fullName kind, activityQuery login repo.fullName kind⟩ :
      ActivityField) ∈ same :=
    List.mem_filter.mpr ⟨mem_aliases_iff.mpr ⟨repo, hrepo, kind, rfl⟩, decide_eq_true rfl⟩
  have hne : same ≠ [] := List.ne_nil_of_mem hown
  obtain ⟨hfield, halias⟩ := List.mem_filter.mp (List.getLast_mem hne)
  obtain ⟨last, hlast, kind', hfield⟩ := mem_aliases_iff.mp hfield
  rw [hfield, decide_eq_true_iff, activityAlias_eq_iff] at halias
  obtain ⟨hsqueezed, rfl⟩ := halias
  refine ⟨last, hlast, hsqueezed, ?_⟩
  intro service other hother
  have hsame : activityAlias other kind' = activityAlias repo.fullName kind' :=
    activityAlias_eq_iff.mpr ⟨hother, rfl⟩
  rw [bucketAt, hsame, List.getLast?_eq_some_getLast hne, Option.map_some, hfield]

section Attribution

variable (localeCompare : String → String → Ordering) (dates : DateParser) (now : ℤ)

theorem repoFullName_of_stat {login name : String}
    {bucketOf : ActivityKind → Option GitHubGraphQlSearchBucket} {row : ContributorRepoStatRecord}
    (h : contributorRepoStat localeCompare dates now login name bucketOf = some row) :
    row.repoFullName = name := by
  rw [contributorRepoStat] at h
  split_ifs at h
  obtain rfl := Option.some.inj h
  rfl

theorem pullRequests_of_stat {login name : String}
    {bucketOf : ActivityKind → Option GitHubGraphQlSearchBucket} {row : ContributorRepoStatRecord}
    (h : contributorRepoStat localeCompare dates now login name bucketOf = some row) :
    row.pullRequests = ((bucketOf .all).bind GitHubGraphQlSearchBucket.issueCount).getD 0 := by
  rw [contributorRepoStat] at h
  split_ifs at h
  obtain rfl := Option.some.inj h
  rfl

theorem exists_stat {login name : String}
    {bucketOf : ActivityKind → Option GitHubGraphQlSearchBucket}
    (h : ((bucketOf .all).bind GitHubGraphQlSearchBucket.issueCount).getD 0 ≠ 0) :
    ∃ row, contributorRepoStat localeCompare dates now login name bucketOf = some row := by
  rw [contributorRepoStat]
  dsimp only
  split_ifs with hnothing
  · exact absurd (Nat.eq_zero_of_add_eq_zero_right hnothing) h
  · exact ⟨_, rfl⟩

/-- No two repositories of a batch are squeezed into one name. -/
def Distinguished (repositories : List RepositoryRecord) : Prop :=
  ∀ chunk ∈ chunkArray repositories 4, ∀ repo ∈ chunk, ∀ other ∈ chunk,
    squeezed repo.fullName = squeezed other.fullName → repo.fullName = other.fullName

theorem mem_refresh_iff {service : SearchService} {login : String}
    {repositories : List RepositoryRecord} {repoFullName : Option String}
    {row : ContributorRepoStatRecord} :
    row ∈ refreshContributorActivity localeCompare dates now service login repositories
        repoFullName ↔
      ∃ chunk ∈ chunkArray (registeredRepositories repositories repoFullName) 4,
        service.answers (buildContributorActivityAliases login chunk) = true ∧
        ∃ repo ∈ chunk, contributorRepoStat localeCompare dates now login repo.fullName
          (fun kind => bucketAt service (buildContributorActivityAliases login chunk)
            (activityAlias repo.fullName kind)) = some row := by
  simp only [refreshContributorActivity, List.mem_flatMap]
  refine exists_congr fun chunk => and_congr_right fun _ => ?_
  rw [refreshChunk]
  split_ifs with hanswers
  · simp [hanswers]
  · simp [hanswers]

/-- The bucket with one hit for one query, and none for the others. -/
def onlyHit (query : Text) : SearchService where
  answers := fun _ => true
  search := fun asked => ⟨some (if asked = query then 1 else 0), []⟩

/-- A repository whose alias is that of another one, later in its batch, is given a hit of
the other's. -/
theorem misattributed {login : String} {repositories : List RepositoryRecord}
    {repoFullName : Option String} {chunk : List RepositoryRecord}
    (hchunk : chunk ∈ chunkArray (registeredRepositories repositories repoFullName) 4)
    {repo last : RepositoryRecord} (hrepo : repo ∈ chunk) (hne : last.fullName ≠ repo.fullName)
    {service : SearchService}
    (hservice : service = onlyHit (activityQuery login last.fullName .all))
    (hbucket : bucketAt service (buildContributorActivityAliases login chunk)
      (activityAlias repo.fullName .all) =
        some (service.search (activityQuery login last.fullName .all))) :
    ∃ row ∈ refreshContributorActivity localeCompare dates now service login
        repositories repoFullName,
      ownStat localeCompare dates now service login row.repoFullName ≠ some row := by
  subst hservice
  have hhit : ((bucketAt (onlyHit (activityQuery login last.fullName .all))
      (buildContributorActivityAliases login chunk) (activityAlias repo.fullName .all)).bind
        GitHubGraphQlSearchBucket.issueCount).getD 0 = 1 := by
    rw [hbucket, Option.bind_some]
    exact if_pos rfl
  have hstored : ∃ row, contributorRepoStat localeCompare dates now login repo.fullName
      (fun kind => bucketAt (onlyHit (activityQuery login last.fullName .all))
        (buildContributorActivityAliases login chunk) (activityAlias repo.fullName kind)) =
          some row :=
    exists_stat localeCompare dates now (by rw [hhit]; decide)
  obtain ⟨row, hrow⟩ := hstored
  refine ⟨row, (mem_refresh_iff localeCompare dates now).mpr
    ⟨chunk, hchunk, rfl, repo, hrepo, hrow⟩, ?_⟩
  intro hown
  rw [repoFullName_of_stat localeCompare dates now hrow] at hown
  have hone := (pullRequests_of_stat localeCompare dates now hrow).trans hhit
  have hzero := pullRequests_of_stat localeCompare dates now hown
  have hother : activityQuery login repo.fullName .all ≠ activityQuery login last.fullName .all :=
    fun h => hne (activityQuery_injective h).symm
  rw [hone, Option.bind_some] at hzero
  exact absurd hzero (by simp [onlyHit, hother])

/-- Whatever the searches find, only rows of a repository's own buckets are stored, if and
only if no two repositories of a batch are squeezed into one name. -/
theorem own_buckets_iff (login : String) (repositories : List RepositoryRecord)
    (repoFullName : Option String) :
    (∀ service, ∀ row ∈ refreshContributorActivity localeCompare dates now service login
        repositories repoFullName,
      ownStat localeCompare dates now service login row.repoFullName = some row) ↔
    Distinguished (registeredRepositories repositories repoFullName) := by
  constructor
  · intro h chunk hchunk repo hrepo other hother hsqueezed
    by_contra hne
    obtain ⟨last, -, hlast, hbucket⟩ := exists_bucketAt hrepo login .all
    have hwrong : ∃ wrong ∈ chunk, squeezed wrong.fullName = squeezed repo.fullName ∧
        last.fullName ≠ wrong.fullName := by
      by_cases heq : last.fullName = repo.fullName
      · exact ⟨other, hother, hsqueezed.symm, fun h => hne (heq.symm.trans h)⟩
      · exact ⟨repo, hrepo, rfl, heq⟩
    obtain ⟨wrong, hmem, hwrong, hdiffer⟩ := hwrong
    obtain ⟨row, hrow, hown⟩ := misattributed localeCompare dates now hchunk hmem hdiffer rfl
      (hbucket _ _ hwrong)
    exact hown (h _ row hrow)
  · intro h service row hrow
    obtain ⟨chunk, hchunk, -, repo, hrepo, hstat⟩ :=
      (mem_refresh_iff localeCompare dates now).mp hrow
    have hbuckets : (fun kind => bucketAt service (buildContributorActivityAliases login chunk)
        (activityAlias repo.fullName kind)) =
          fun kind => some (service.search (activityQuery login repo.fullName kind)) := by
      funext kind
      obtain ⟨last, hmem, hlast, hbucket⟩ := exists_bucketAt hrepo login kind
      rw [hbucket service repo.fullName rfl, h chunk hchunk last hmem repo hrepo hlast]
    rw [hbuckets] at hstat
    rw [repoFullName_of_stat localeCompare dates now hstat]
    exact hstat

end Attribution

/-- Two names that differ in a sign other than a letter, a digit or an underscore. -/
def widgetRepositories : List RepositoryRecord := [⟨"acme/a-b", true⟩, ⟨"acme/a.b", true⟩]

def noDates : DateParser := ⟨fun _ => none, rfl⟩

theorem widgets_misattributed :
    ¬ ∀ (localeCompare : String → String → Ordering) (dates : DateParser) (now : ℤ)
      (service : SearchService) (login : String) (repositories : List RepositoryRecord)
      (repoFullName : Option String), (repositories.map RepositoryRecord.fullName).Nodup →
      ∀ row ∈ refreshContributorActivity localeCompare dates now service login
          repositories repoFullName,
        ownStat localeCompare dates now service login row.repoFullName = some row := by
  intro h
  have hbucket : bucketAt (onlyHit (activityQuery "dev" "acme/a.b" .all))
      (buildContributorActivityAliases "dev" widgetRepositories) (activityAlias "acme/a-b" .all) =
        some ((onlyHit (activityQuery "dev" "acme/a.b" .all)).search
          (activityQuery "dev" "acme/a.b" .all)) := by
    decide +kernel
  have hchunk : widgetRepositories ∈
      chunkArray (registeredRepositories widgetRepositories none) 4 := by
    decide
  have hrepo : (⟨"acme/a-b", true⟩ : RepositoryRecord) ∈ widgetRepositories := by
    decide
  have hne : (⟨"acme/a.b", true⟩ : RepositoryRecord).fullName ≠ "acme/a-b" := by
    decide
  obtain ⟨row, hrow, hown⟩ :=
    misattributed (fun _ _ => .eq) noDates 0 hchunk hrepo hne rfl hbucket
  exact hown (h (fun _ _ => .eq) noDates 0 _ "dev" widgetRepositories none (by decide) row hrow)

end Gittensory.ContributorActivity
