import Gittensory.KeyedTable
import Gittensory.PullRequestAdvisory
import Gittensory.UnorderedPairs
import Gittensory.WordRuns
import Mathlib.Data.Rat.Defs

/-!
The collision report of a repository's queue (`signals/engine.ts`). The first pass makes a
cluster of each open issue with the open pull requests that link it; the second one of each
two items that share a linked issue, or else enough terms. Clusters are kept under their
ids, and no id is met twice where the numbers of each kind of item are distinct.
-/
namespace Gittensory.DuplicateClusters

open JsValue KeyedTable PullRequestAdvisory TextPattern UnorderedPairs WordRuns

section Model

def MAX_COLLISION_PAIRWISE_ISSUES : ℕ := 80

def MAX_COLLISION_PAIRWISE_PULL_REQUESTS : ℕ := 120

def MAX_COLLISION_PAIRWISE_RECENT_MERGES : ℕ := 40

def PREFLIGHT_LIMITS_titleChars : ℕ := 300

def PREFLIGHT_LIMITS_labels : ℕ := 50

def PREFLIGHT_LIMITS_labelChars : ℕ := 100

def PREFLIGHT_LIMITS_changedFiles : ℕ := 200

def PREFLIGHT_LIMITS_changedFileChars : ℕ := 300

def STOPWORDS : List Text :=
  ["the", "and", "for", "with", "from", "this", "that", "when", "into", "issue", "pull",
    "request", "add", "fix", "update", "improve"].map String.toList

/-- The columns of an issue that the report reads. -/
structure IssueRecord where
  number : ℕ
  title : String
  state : String
  labels : List String := []
  linkedPrs : List ℕ := []
  deriving DecidableEq, Repr

structure RecentMergedPullRequestRecord where
  number : ℕ
  title : String
  labels : List String := []
  linkedIssues : List ℕ := []
  changedFiles : List String := []
  deriving DecidableEq, Repr

inductive CollisionItemType where
  | issue
  | pullRequest
  | recentMergedPullRequest
  deriving DecidableEq, Repr

def CollisionItemType.text : CollisionItemType → String
  | .issue => "issue"
  | .pullRequest => "pull_request"
  | .recentMergedPullRequest => "recent_merged_pull_request"

structure CollisionItem where
  type : CollisionItemType
  number : ℕ
  title : String
  labels : List String
  linkedIssues : List ℕ
  changedFiles : List String := []
  deriving DecidableEq, Repr

def issueItem (issue : IssueRecord) : CollisionItem where
  type := .issue
  number := issue.number
  title := issue.title
  labels := issue.labels
  linkedIssues := [issue.number]

def prItem (pr : PullRequestRecord) : CollisionItem where
  type := .pullRequest
  number := pr.number
  title := pr.title
  labels := pr.labels
  linkedIssues := pr.linkedIssues

def recentMergedItem (pr : RecentMergedPullRequestRecord) : CollisionItem where
  type := .recentMergedPullRequest
  number := pr.number
  title := pr.title
  labels := pr.labels
  linkedIssues := pr.linkedIssues
  changedFiles := pr.changedFiles

def itemKey (item : CollisionItem) : String := item.type.text ++ "-" ++ toString item.number

/-! ## Terms -/

def truncateText (value : String) (maxChars : ℕ) : String := sliceTo maxChars value

def boundedTextItems (values : List String) (maxItems maxChars : ℕ) : List String :=
  (values.take maxItems).map fun value => truncateText value maxChars

def collisionItemText (item : CollisionItem) : String :=
  " ".intercalate ((truncateText item.title PREFLIGHT_LIMITS_titleChars ::
    (boundedTextItems item.labels PREFLIGHT_LIMITS_labels PREFLIGHT_LIMITS_labelChars ++
      boundedTextItems item.changedFiles PREFLIGHT_LIMITS_changedFiles
        PREFLIGHT_LIMITS_changedFileChars)).filter fun text => text ≠ "")

/-- `[a-z0-9]` -/
def isTermChar (c : Char) : Bool := ('a' ≤ c && c ≤ 'z') || ('0' ≤ c && c ≤ '9')

/-- What `split(/[^a-z0-9]+/g)` leaves beside the terms is empty and too short. -/
def tokenize (value : String) : List Text :=
  (words isTermChar (value.toList.flatMap lowerChar)).filter fun term =>
    2 < term.length && !STOPWORDS.contains term

/-- A set of terms; their order is never read. -/
structure CollisionTerms where
  terms : List Text
  nodup : terms.Nodup

def collisionTerms (item : CollisionItem) : CollisionTerms where
  terms := (tokenize (collisionItemText item)).dedup
  nodup := List.nodup_dedup _

def CollisionTerms.size (terms : CollisionTerms) : ℕ := terms.terms.length

structure TermOverlap where
  score : ℚ
  shared : ℕ
  deriving DecidableEq

/-- The quotient is exact: those of sizes this small are told apart, and compared with the
two thresholds, by doubles as well. -/
def termOverlap (left right : CollisionTerms) : TermOverlap :=
  if left.size = 0 ∨ right.size = 0 then ⟨0, 0⟩
  else
    let (smaller, larger) := if left.size ≤ right.size then (left, right) else (right, left)
    let shared := (smaller.terms.filter fun term => larger.terms.contains term).length
    ⟨(shared : ℚ) / (min left.size right.size : ℕ), shared⟩

/-! ## Clusters -/

inductive CollisionRisk where
  | low
  | medium
  | high
  deriving DecidableEq, Repr

def riskRank : CollisionRisk → ℕ
  | .high => 3
  | .medium => 2
  | .low => 1

structure CollisionCluster where
  id : String
  risk : CollisionRisk
  reason : String
  items : List CollisionItem
  deriving DecidableEq, Repr

structure CollisionSummary where
  clusterCount : ℕ
  highRiskCount : ℕ
  itemsReviewed : ℕ
  deriving DecidableEq, Repr

structure CollisionReport where
  repoFullName : String
  summary : CollisionSummary
  clusters : List CollisionCluster
  deriving DecidableEq, Repr

def openOnes (pullRequests : List PullRequestRecord) : List PullRequestRecord :=
  pullRequests.filter fun pr => pr.state = "open"

def openIssuesOf (issues : List IssueRecord) : List IssueRecord :=
  issues.filter fun issue => issue.state = "open"

/-- A pull request is pushed once for each time that it links the issue. -/
def pullRequestsByLinkedIssue (openPullRequests : List PullRequestRecord) (issueNumber : ℕ) :
    List PullRequestRecord :=
  openPullRequests.flatMap fun pr => List.replicate (pr.linkedIssues.count issueNumber) pr

def issueCluster (openPullRequests : List PullRequestRecord) (issue : IssueRecord) :
    Option CollisionCluster :=
  let linkedPrs := pullRequestsByLinkedIssue openPullRequests issue.number
  if linkedPrs.length = 0 then none
  else some
    { id := "issue-" ++ toString issue.number
      risk := if linkedPrs.length > 1 ∨ issue.linkedPrs.length > 1 then .high else .medium
      reason := "Open PR work references issue #" ++ toString issue.number ++ "."
      items := issueItem issue :: linkedPrs.map prItem }

def issueClusters (openIssues : List IssueRecord) (openPullRequests : List PullRequestRecord) :
    List CollisionCluster :=
  (openIssues.filterMap (issueCluster openPullRequests)).foldl (upsert CollisionCluster.id) []

/-- One pass of `boundedCollisionIssues`, which stops when enough are selected. -/
def selectIssues (wanted : IssueRecord → Bool) :
    List IssueRecord → List IssueRecord → List IssueRecord
  | [], selected => selected
  | issue :: rest, selected =>
      let chosen := if wanted issue then upsert IssueRecord.number selected issue else selected
      if MAX_COLLISION_PAIRWISE_ISSUES ≤ chosen.length then chosen
      else selectIssues wanted rest chosen

def boundedCollisionIssues (openIssues : List IssueRecord)
    (openPullRequests : List PullRequestRecord) : List IssueRecord :=
  if openIssues.length ≤ MAX_COLLISION_PAIRWISE_ISSUES then openIssues
  else
    let linkedIssueNumbers := openPullRequests.flatMap PullRequestRecord.linkedIssues
    let selected := selectIssues (fun issue => linkedIssueNumbers.contains issue.number)
      openIssues []
    if MAX_COLLISION_PAIRWISE_ISSUES ≤ selected.length then selected
    else selectIssues (fun _ => true) openIssues selected

/-- The terms stored under an item's key: those of the last item with it. -/
def itemTerms (items : List CollisionItem) (item : CollisionItem) : CollisionTerms :=
  ((items.reverse.find? fun other => itemKey other = itemKey item).map collisionTerms).getD
    (collisionTerms item)

/-- `[itemKey(left), itemKey(right)].sort().join("--")` -/
def pairKey (left right : CollisionItem) : String :=
  if itemKey right < itemKey left then itemKey right ++ "--" ++ itemKey left
  else itemKey left ++ "--" ++ itemKey right

def sharedIssue (left right : CollisionItem) : Option ℕ :=
  left.linkedIssues.find? fun issue => right.linkedIssues.contains issue

def isRecentMerge (item : CollisionItem) : Bool := item.type = .recentMergedPullRequest

/-- The cluster of two items; issue 0 would be falsy. -/
def pairCluster (terms : CollisionItem → CollisionTerms) (left right : CollisionItem) :
    Option CollisionCluster :=
  match (sharedIssue left right).filter fun issue => issue ≠ 0 with
  | some issue => some
      { id := pairKey left right
        risk := if isRecentMerge right || isRecentMerge left then .medium else .high
        reason := "Items reference the same linked issue #" ++ toString issue ++ "."
        items := [left, right] }
  | none =>
      let overlap := termOverlap (terms left) (terms right)
      if overlap.score < 58 / 100 ∨ overlap.shared < 2 then none
      else some
        { id := pairKey left right
          risk := if 3 / 4 ≤ overlap.score then .high else .medium
          reason := "Titles/paths share " ++ toString overlap.shared ++ " meaningful terms."
          items := [left, right] }

/-- A cluster is set unless its key is taken. -/
def addPair (terms : CollisionItem → CollisionTerms) (clusters : List CollisionCluster)
    (pair : CollisionItem × CollisionItem) : List CollisionCluster :=
  match pairCluster terms pair.1 pair.2 with
  | none => clusters
  | some cluster =>
      if clusters.any fun stored => stored.id = cluster.id then clusters
      else clusters ++ [cluster]

def reportItems (openIssues : List IssueRecord) (openPullRequests : List PullRequestRecord)
    (recentMergedPullRequests : List RecentMergedPullRequestRecord) : List CollisionItem :=
  (boundedCollisionIssues openIssues openPullRequests).map issueItem ++
    (openPullRequests.take MAX_COLLISION_PAIRWISE_PULL_REQUESTS).map prItem ++
    (recentMergedPullRequests.take MAX_COLLISION_PAIRWISE_RECENT_MERGES).map recentMergedItem

def allClusters (openIssues : List IssueRecord) (openPullRequests : List PullRequestRecord)
    (recentMergedPullRequests : List RecentMergedPullRequestRecord) : List CollisionCluster :=
  let items := reportItems openIssues openPullRequests recentMergedPullRequests
  (pairs items).foldl (addPair (itemTerms items)) (issueClusters openIssues openPullRequests)

def buildCollisionReport (repoFullName : String) (issues : List IssueRecord)
    (pullRequests : List PullRequestRecord)
    (recentMergedPullRequests : List RecentMergedPullRequestRecord) : CollisionReport :=
  let openIssues := openIssuesOf issues
  let openPullRequests := openOnes pullRequests
  let clusterList := (allClusters openIssues openPullRequests recentMergedPullRequests).mergeSort
    fun left right => riskRank right.risk ≤ riskRank left.risk
  { repoFullName
    summary :=
      { clusterCount := clusterList.length
        highRiskCount := (clusterList.filter fun cluster => cluster.risk = .high).length
        itemsReviewed :=
          openIssues.length + openPullRequests.length + recentMergedPullRequests.length }
    clusters := clusterList }

def isPullRequestInDuplicateCluster (collisions : CollisionReport) (pullNumber : ℕ) : Bool :=
  collisions.clusters.any fun cluster =>
    cluster.risk = .high &&
      (2 ≤ (cluster.items.filter fun item => item.type = .pullRequest).length &&
        cluster.items.any fun item => item.type = .pullRequest && item.number = pullNumber)

end Model

/-! ## Keys -/

section Keys

theorem text_injective {type other : CollisionItemType} (h : type.text = other.text) :
    type = other := by
  cases type <;> cases other <;> first | rfl | exact absurd h (by decide)

theorem toString_injective {m n : ℕ} (h : toString m = toString n) : m = n := by
  have hdigits : (toString m).toList = (toString n).toList := congrArg String.toList h
  have hvalue := congrArg (fun digits => Nat.ofDigitChars 10 digits 0) hdigits
  simpa using hvalue

/-- What stands between the hyphens of an item's key. -/
def fields (item : CollisionItem) : List Text :=
  [item.type.text.toList, (toString item.number).toList]

theorem toList_itemKey (item : CollisionItem) :
    (itemKey item).toList = ['-'].intercalate (fields item) := by
  simp [itemKey, fields]

theorem hyphen_not_mem_toString (n : ℕ) : '-' ∉ (toString n).toList := by
  have hdigits : (toString n).toList = Nat.toDigits 10 n := by simp
  rw [hdigits]
  intro hmem
  exact absurd (Nat.isDigit_of_mem_toDigits (by decide) (by decide) hmem) (by decide)

theorem hyphen_not_mem_fields (item : CollisionItem) : ∀ field ∈ fields item, '-' ∉ field := by
  refine List.forall_mem_cons.mpr ⟨?_, List.forall_mem_singleton.mpr ?_⟩
  · cases item.type <;> decide
  · exact hyphen_not_mem_toString item.number

/-- The fields are read back from the text between them. -/
theorem fields_inj {fields fields' : List Text} (h : ∀ field ∈ fields, '-' ∉ field)
    (h' : ∀ field ∈ fields', '-' ∉ field) (hne : fields ≠ []) (hne' : fields' ≠ [])
    (heq : ['-'].intercalate fields = ['-'].intercalate fields') : fields = fields' := by
  rw [← List.splitOn_intercalate '-' h hne, heq, List.splitOn_intercalate '-' h' hne']

theorem itemKey_inj {item other : CollisionItem} (h : itemKey item = itemKey other) :
    item.type = other.type ∧ item.number = other.number := by
  have hlist := congrArg String.toList h
  rw [toList_itemKey, toList_itemKey] at hlist
  have hfields := fields_inj (hyphen_not_mem_fields item) (hyphen_not_mem_fields other)
    (List.cons_ne_nil _ _) (List.cons_ne_nil _ _) hlist
  obtain ⟨htype, hrest⟩ := List.cons.inj hfields
  exact ⟨text_injective (String.toList_inj.mp htype),
    toString_injective (String.toList_inj.mp (List.cons.inj hrest).1)⟩

theorem toList_joined (left right : CollisionItem) :
    (itemKey left ++ "--" ++ itemKey right).toList =
      ['-'].intercalate (fields left ++ [] :: fields right) := by
  simp [itemKey, fields]

theorem hyphen_not_mem_joined (left right : CollisionItem) :
    ∀ field ∈ fields left ++ [] :: fields right, '-' ∉ field :=
  List.forall_mem_append.mpr ⟨hyphen_not_mem_fields left,
    List.forall_mem_cons.mpr ⟨List.not_mem_nil, hyphen_not_mem_fields right⟩⟩

theorem joined_inj {a b c d : CollisionItem}
    (h : itemKey a ++ "--" ++ itemKey b = itemKey c ++ "--" ++ itemKey d) :
    itemKey a = itemKey c ∧ itemKey b = itemKey d := by
  have hlist := congrArg String.toList h
  rw [toList_joined, toList_joined] at hlist
  have hfields := fields_inj (hyphen_not_mem_joined a b) (hyphen_not_mem_joined c d)
    (List.cons_ne_nil _ _) (List.cons_ne_nil _ _) hlist
  obtain ⟨hleft, hright⟩ := List.append_inj hfields rfl
  refine ⟨String.toList_inj.mp ?_, String.toList_inj.mp ?_⟩
  · rw [toList_itemKey, toList_itemKey, hleft]
  · rw [toList_itemKey, toList_itemKey, (List.cons.inj hright).2]

theorem pairKey_eq_or (left right : CollisionItem) :
    pairKey left right = itemKey left ++ "--" ++ itemKey right ∨
      pairKey left right = itemKey right ++ "--" ++ itemKey left := by
  unfold pairKey
  split
  · exact Or.inr rfl
  · exact Or.inl rfl

theorem pairKey_inj (a b c d : CollisionItem) (h : pairKey a b = pairKey c d) :
    (itemKey a = itemKey c ∧ itemKey b = itemKey d) ∨
      (itemKey a = itemKey d ∧ itemKey b = itemKey c) := by
  rcases pairKey_eq_or a b with hab | hab <;> rcases pairKey_eq_or c d with hcd | hcd <;>
    rw [hab, hcd] at h
  · exact Or.inl (joined_inj h)
  · exact Or.inr (joined_inj h)
  · exact Or.inr (joined_inj h).symm
  · exact Or.inl (joined_inj h).symm

theorem toList_issueId (n : ℕ) :
    ("issue-" ++ toString n).toList = ['-'].intercalate ["issue".toList, (toString n).toList] := by
  simp

/-- A pair's key has five fields, an issue's id has two. -/
theorem pairKey_ne_issueId (left right : CollisionItem) (n : ℕ) :
    pairKey left right ≠ "issue-" ++ toString n := by
  have hissue : ∀ field ∈ ["issue".toList, (toString n).toList], '-' ∉ field :=
    List.forall_mem_cons.mpr
      ⟨by decide, List.forall_mem_singleton.mpr (hyphen_not_mem_toString n)⟩
  have hjoined : ∀ left right : CollisionItem,
      itemKey left ++ "--" ++ itemKey right ≠ "issue-" ++ toString n := by
    intro left right heq
    have hlist := congrArg String.toList heq
    rw [toList_joined, toList_issueId] at hlist
    have hfields := fields_inj (hyphen_not_mem_joined left right) hissue
      (List.cons_ne_nil _ _) (List.cons_ne_nil _ _) hlist
    cases congrArg List.length hfields
  rcases pairKey_eq_or left right with h | h
  · exact h ▸ hjoined left right
  · exact h ▸ hjoined right left

end Keys

/-! ## What the two passes collect -/

section Passes

theorem pullRequestsByLinkedIssue_eq {prs : List PullRequestRecord}
    (hnodup : ∀ pr ∈ prs, pr.linkedIssues.Nodup) (issueNumber : ℕ) :
    pullRequestsByLinkedIssue prs issueNumber =
      prs.filter fun pr => pr.linkedIssues.contains issueNumber := by
  induction prs with
  | nil => rfl
  | cons pr rest ih =>
    obtain ⟨hpr, hrest⟩ := List.forall_mem_cons.mp hnodup
    have hih := ih hrest
    rw [pullRequestsByLinkedIssue] at hih ⊢
    rw [List.flatMap_cons, hih]
    by_cases hmem : issueNumber ∈ pr.linkedIssues
    · rw [List.count_eq_one_of_mem hpr hmem, List.filter_cons_of_pos (by simpa using hmem)]
      rfl
    · rw [List.count_eq_zero_of_not_mem hmem, List.filter_cons_of_neg (by simpa using hmem)]
      rfl

theorem id_of_issueCluster {prs : List PullRequestRecord} {issue : IssueRecord}
    {cluster : CollisionCluster} (h : issueCluster prs issue = some cluster) :
    cluster.id = "issue-" ++ toString issue.number := by
  unfold issueCluster at h
  dsimp only at h
  split at h
  · cases h
  · rw [← Option.some.inj h]

theorem id_of_pairCluster {terms : CollisionItem → CollisionTerms} {left right : CollisionItem}
    {cluster : CollisionCluster} (h : pairCluster terms left right = some cluster) :
    cluster.id = pairKey left right ∧ cluster.items = [left, right] := by
  unfold pairCluster at h
  split at h
  · rw [← Option.some.inj h]
    exact ⟨rfl, rfl⟩
  · dsimp only at h
    split at h
    · cases h
    · rw [← Option.some.inj h]
      exact ⟨rfl, rfl⟩

/-- Under distinct numbers no id of the first pass is met twice. -/
theorem issueClusters_eq {openIssues : List IssueRecord} {prs : List PullRequestRecord}
    (hnumbers : (openIssues.map IssueRecord.number).Nodup) :
    issueClusters openIssues prs = openIssues.filterMap (issueCluster prs) := by
  have hids : ((openIssues.filterMap (issueCluster prs)).map CollisionCluster.id).Nodup := by
    induction openIssues with
    | nil => exact List.nodup_nil
    | cons issue rest ih =>
      rw [List.map_cons, List.nodup_cons] at hnumbers
      cases hcluster : issueCluster prs issue with
      | none => rw [List.filterMap_cons_none hcluster]; exact ih hnumbers.2
      | some cluster =>
        rw [List.filterMap_cons_some hcluster, List.map_cons, List.nodup_cons]
        refine ⟨fun hmem => ?_, ih hnumbers.2⟩
        obtain ⟨other, hother, hid⟩ := List.mem_map.mp hmem
        obtain ⟨later, hlater, hlatercluster⟩ := List.mem_filterMap.mp hother
        rw [id_of_issueCluster hlatercluster, id_of_issueCluster hcluster] at hid
        have hnumber := toString_injective (String.append_right_inj _ |>.mp hid)
        exact hnumbers.1 (hnumber ▸ List.mem_map_of_mem hlater)
  rw [issueClusters, foldl_upsert_of_fresh CollisionCluster.id _ _ hids (by simp),
    List.nil_append]

/-- The pairs with fresh ids are appended one after the other. -/
theorem foldl_addPair (terms : CollisionItem → CollisionTerms)
    (list : List (CollisionItem × CollisionItem)) (clusters : List CollisionCluster)
    (hkeys : (list.map fun pair => pairKey pair.1 pair.2).Nodup)
    (hfresh : ∀ pair ∈ list, ∀ cluster ∈ clusters, cluster.id ≠ pairKey pair.1 pair.2) :
    list.foldl (addPair terms) clusters =
      clusters ++ list.filterMap fun pair => pairCluster terms pair.1 pair.2 := by
  induction list generalizing clusters with
  | nil => simp
  | cons pair rest ih =>
    rw [List.map_cons, List.nodup_cons] at hkeys
    obtain ⟨hpair, hrest⟩ := List.forall_mem_cons.mp hfresh
    rw [List.foldl_cons, addPair]
    cases hcluster : pairCluster terms pair.1 pair.2 with
    | none => rw [ih clusters hkeys.2 hrest, List.filterMap_cons, hcluster]
    | some cluster =>
      have hid := (id_of_pairCluster hcluster).1
      have hnew : (clusters.any fun stored => stored.id = cluster.id) = false := by
        rw [List.any_eq_false]
        intro stored hstored
        rw [hid, decide_eq_true_eq]
        exact hpair stored hstored
      dsimp only
      rw [if_neg (by rw [hnew]; exact Bool.false_ne_true), ih _ hkeys.2 ?_,
        List.filterMap_cons, hcluster, List.append_assoc, List.singleton_append]
      intro later hlater stored hstored
      rcases List.mem_append.mp hstored with h | h
      · exact hrest later hlater stored h
      · rw [List.mem_singleton.mp h, hid]
        exact fun heq => hkeys.1 (heq ▸ List.mem_map_of_mem hlater)

/-- The terms under an item's own key are its own. -/
theorem itemTerms_of_mem {items : List CollisionItem} (hkeys : (items.map itemKey).Nodup)
    {item : CollisionItem} (hitem : item ∈ items) : itemTerms items item = collisionTerms item := by
  have hfound : (items.reverse.find? fun other => itemKey other = itemKey item) = some item := by
    cases hfind : items.reverse.find? fun other => itemKey other = itemKey item with
    | none =>
      have hno := List.find?_eq_none.mp hfind item (List.mem_reverse.mpr hitem)
      exact absurd (decide_eq_true rfl) hno
    | some other =>
      have hother := List.mem_reverse.mp (List.mem_of_find?_eq_some hfind)
      have hsame : itemKey other = itemKey item := by simpa using List.find?_some hfind
      rw [List.inj_on_of_nodup_map hkeys hother hitem hsame]
  rw [itemTerms, hfound]
  rfl

/-- Within the caps every item is compared, and the two passes collect these clusters. -/
theorem allClusters_eq {openIssues : List IssueRecord} {prs : List PullRequestRecord}
    {merges : List RecentMergedPullRequestRecord}
    (hnumbers : (openIssues.map IssueRecord.number).Nodup)
    (hkeys : ((reportItems openIssues prs merges).map itemKey).Nodup) :
    allClusters openIssues prs merges =
      openIssues.filterMap (issueCluster prs) ++
        (pairs (reportItems openIssues prs merges)).filterMap fun pair =>
          pairCluster collisionTerms pair.1 pair.2 := by
  have hterms : ∀ pair ∈ pairs (reportItems openIssues prs merges),
      pairCluster (itemTerms (reportItems openIssues prs merges)) pair.1 pair.2 =
        pairCluster collisionTerms pair.1 pair.2 := by
    intro pair hpair
    obtain ⟨hleft, hright⟩ := mem_of_mem_pairs hpair
    unfold pairCluster
    rw [itemTerms_of_mem hkeys hleft, itemTerms_of_mem hkeys hright]
  unfold allClusters
  dsimp only
  rw [foldl_addPair, issueClusters_eq hnumbers, List.filterMap_congr hterms]
  · exact nodup_map_pairs itemKey _ hkeys fun a b c d => pairKey_inj a b c d
  · rw [issueClusters_eq hnumbers]
    intro pair _ cluster hcluster
    obtain ⟨issue, -, hissue⟩ := List.mem_filterMap.mp hcluster
    rw [id_of_issueCluster hissue]
    exact (pairKey_ne_issueId _ _ _).symm

end Passes

/-! ## The order of the lists -/

section Order

theorem shared_comm {left right : CollisionTerms} :
    (left.terms.filter fun term => right.terms.contains term).length =
      (right.terms.filter fun term => left.terms.contains term).length := by
  refine List.Perm.length_eq ?_
  rw [List.perm_ext_iff_of_nodup (left.nodup.filter _) (right.nodup.filter _)]
  intro term
  simp only [List.mem_filter, List.contains_iff_mem]
  exact and_comm

theorem termOverlap_comm (left right : CollisionTerms) :
    termOverlap left right = termOverlap right left := by
  have hshared : ∀ first second : CollisionTerms, first.size ≤ second.size →
      ¬ (first.size = 0 ∨ second.size = 0) → termOverlap first second =
        ⟨((first.terms.filter fun term => second.terms.contains term).length : ℚ) / first.size,
          (first.terms.filter fun term => second.terms.contains term).length⟩ ∧
      termOverlap second first =
        ⟨((first.terms.filter fun term => second.terms.contains term).length : ℚ) / first.size,
          (first.terms.filter fun term => second.terms.contains term).length⟩ := by
    intro first second hle hne
    have hne' : ¬ (second.size = 0 ∨ first.size = 0) := fun h => hne h.symm
    unfold termOverlap
    rw [if_neg hne, if_neg hne', if_pos hle]
    refine ⟨by simp [hle], ?_⟩
    by_cases hge : second.size ≤ first.size
    · rw [if_pos hge]
      dsimp only
      rw [shared_comm, min_eq_right hle]
    · rw [if_neg hge]
      simp [hle]
  by_cases hzero : left.size = 0 ∨ right.size = 0
  · rw [termOverlap, termOverlap, if_pos hzero, if_pos hzero.symm]
  · rcases le_total left.size right.size with hle | hle
    · obtain ⟨hfirst, hsecond⟩ := hshared left right hle hzero
      rw [hfirst, hsecond]
    · obtain ⟨hfirst, hsecond⟩ := hshared right left hle fun h => hzero h.symm
      rw [hfirst, hsecond]

theorem sharedIssue_eq_none_iff {left right : CollisionItem}
    (hzero : 0 ∉ left.linkedIssues ∨ 0 ∉ right.linkedIssues) :
    ((sharedIssue left right).filter fun issue => issue ≠ 0) = none ↔
      ∀ issue ∈ left.linkedIssues, issue ∉ right.linkedIssues := by
  cases hfind : sharedIssue left right with
  | none =>
    refine ⟨fun _ issue hissue => ?_, fun _ => rfl⟩
    simpa using List.find?_eq_none.mp hfind issue hissue
  | some issue =>
    have hleft : issue ∈ left.linkedIssues := List.mem_of_find?_eq_some hfind
    have hright : issue ∈ right.linkedIssues := by simpa using List.find?_some hfind
    have hpositive : issue ≠ 0 := by
      rintro rfl
      exact hzero.elim (absurd hleft) (absurd hright)
    have hkept : (some issue).filter (fun issue : ℕ => issue ≠ 0) = some issue := by
      simp [hpositive]
    rw [hkept]
    exact ⟨fun h => absurd h (Option.some_ne_none issue), fun h => absurd hright (h issue hleft)⟩

def pairRisk (left right : CollisionItem) : Option CollisionRisk :=
  (pairCluster collisionTerms left right).map CollisionCluster.risk

/-- The risk of a pair, by what the two items share. -/
theorem pairRisk_eq {left right : CollisionItem}
    (hzero : 0 ∉ left.linkedIssues ∨ 0 ∉ right.linkedIssues) :
    pairRisk left right =
      if ∀ issue ∈ left.linkedIssues, issue ∉ right.linkedIssues then
        let overlap := termOverlap (collisionTerms left) (collisionTerms right)
        if overlap.score < 58 / 100 ∨ overlap.shared < 2 then none
        else some (if 3 / 4 ≤ overlap.score then .high else .medium)
      else some (if isRecentMerge right || isRecentMerge left then .medium else .high) := by
  rw [pairRisk, pairCluster]
  by_cases hnone : ∀ issue ∈ left.linkedIssues, issue ∉ right.linkedIssues
  · rw [(sharedIssue_eq_none_iff hzero).mpr hnone, if_pos hnone]
    dsimp only
    by_cases hlow : (termOverlap (collisionTerms left) (collisionTerms right)).score < 58 / 100 ∨
        (termOverlap (collisionTerms left) (collisionTerms right)).shared < 2
    · rw [if_pos hlow, if_pos hlow, Option.map_none]
    · rw [if_neg hlow, if_neg hlow, Option.map_some]
  · rw [if_neg hnone]
    cases hshared : (sharedIssue left right).filter fun issue => issue ≠ 0 with
    | none => exact absurd ((sharedIssue_eq_none_iff hzero).mp hshared) hnone
    | some issue => rfl

theorem pairRisk_comm {left right : CollisionItem}
    (hzero : 0 ∉ left.linkedIssues ∨ 0 ∉ right.linkedIssues) :
    pairRisk left right = pairRisk right left := by
  have hdisjoint : (∀ issue ∈ left.linkedIssues, issue ∉ right.linkedIssues) ↔
      ∀ issue ∈ right.linkedIssues, issue ∉ left.linkedIssues :=
    ⟨fun h issue hright hleft => h issue hleft hright,
      fun h issue hleft hright => h issue hright hleft⟩
  rw [pairRisk_eq hzero, pairRisk_eq hzero.symm, termOverlap_comm, Bool.or_comm]
  simp only [hdisjoint]

def issueRisk (prs : List PullRequestRecord) (issue : IssueRecord) : Option CollisionRisk :=
  (issueCluster prs issue).map CollisionCluster.risk

theorem issueRisk_eq (prs : List PullRequestRecord) (issue : IssueRecord) :
    issueRisk prs issue =
      let count := (pullRequestsByLinkedIssue prs issue.number).length
      if count = 0 then none
      else some (if count > 1 ∨ issue.linkedPrs.length > 1 then .high else .medium) := by
  rw [issueRisk, issueCluster]
  dsimp only
  split
  · rfl
  · rfl

theorem issueRisk_perm {prs prs' : List PullRequestRecord} (h : prs.Perm prs')
    (issue : IssueRecord) : issueRisk prs issue = issueRisk prs' issue := by
  have hlength : (pullRequestsByLinkedIssue prs issue.number).length =
      (pullRequestsByLinkedIssue prs' issue.number).length :=
    (h.flatMap_right _).length_eq
  rw [issueRisk_eq, issueRisk_eq, hlength]

/-- Distinct numbers in each list, distinct positive links, and no list over its cap. -/
structure Bounded (issues : List IssueRecord) (prs : List PullRequestRecord)
    (merges : List RecentMergedPullRequestRecord) : Prop where
  issueNumbers : (issues.map IssueRecord.number).Nodup
  prNumbers : (prs.map PullRequestRecord.number).Nodup
  mergeNumbers : (merges.map RecentMergedPullRequestRecord.number).Nodup
  prLinks : ∀ pr ∈ prs, pr.linkedIssues.Nodup ∧ 0 ∉ pr.linkedIssues
  mergeLinks : ∀ pr ∈ merges, pr.linkedIssues.Nodup ∧ 0 ∉ pr.linkedIssues
  issueCap : (openIssuesOf issues).length ≤ MAX_COLLISION_PAIRWISE_ISSUES
  prCap : (openOnes prs).length ≤ MAX_COLLISION_PAIRWISE_PULL_REQUESTS
  mergeCap : merges.length ≤ MAX_COLLISION_PAIRWISE_RECENT_MERGES

variable {issues issues' : List IssueRecord} {prs prs' : List PullRequestRecord}
  {merges merges' : List RecentMergedPullRequestRecord}

theorem Bounded.perm (h : Bounded issues prs merges) (hissues : issues.Perm issues')
    (hprs : prs.Perm prs') (hmerges : merges.Perm merges') : Bounded issues' prs' merges' where
  issueNumbers := (hissues.map _).nodup_iff.mp h.issueNumbers
  prNumbers := (hprs.map _).nodup_iff.mp h.prNumbers
  mergeNumbers := (hmerges.map _).nodup_iff.mp h.mergeNumbers
  prLinks := fun pr hpr => h.prLinks pr (hprs.mem_iff.mpr hpr)
  mergeLinks := fun pr hpr => h.mergeLinks pr (hmerges.mem_iff.mpr hpr)
  issueCap := (hissues.filter _).length_eq ▸ h.issueCap
  prCap := (hprs.filter _).length_eq ▸ h.prCap
  mergeCap := hmerges.length_eq ▸ h.mergeCap

def everyItem (issues : List IssueRecord) (prs : List PullRequestRecord)
    (merges : List RecentMergedPullRequestRecord) : List CollisionItem :=
  (openIssuesOf issues).map issueItem ++ (openOnes prs).map prItem ++ merges.map recentMergedItem

theorem Bounded.reportItems_eq (h : Bounded issues prs merges) :
    reportItems (openIssuesOf issues) (openOnes prs) merges = everyItem issues prs merges := by
  rw [reportItems, boundedCollisionIssues, if_pos h.issueCap, List.take_of_length_le h.prCap,
    List.take_of_length_le h.mergeCap, everyItem]

theorem nodup_keys_map {α : Type} {list : List α} {number : α → ℕ} {item : α → CollisionItem}
    (hnumber : ∀ a, (item a).number = number a) (hnodup : (list.map number).Nodup) :
    ((list.map item).map itemKey).Nodup := by
  rw [List.map_map]
  refine (hnodup.of_map number).map_on fun a ha b hb heq => ?_
  have hsame := (itemKey_inj heq).2
  rw [hnumber, hnumber] at hsame
  exact List.inj_on_of_nodup_map hnodup ha hb hsame

theorem disjoint_keys {left right : List CollisionItem}
    (htypes : ∀ a ∈ left, ∀ b ∈ right, a.type ≠ b.type) :
    List.Disjoint (left.map itemKey) (right.map itemKey) := by
  intro key hleft hright
  obtain ⟨a, ha, rfl⟩ := List.mem_map.mp hleft
  obtain ⟨b, hb, heq⟩ := List.mem_map.mp hright
  exact htypes a ha b hb (itemKey_inj heq).1.symm

theorem Bounded.nodup_keys (h : Bounded issues prs merges) :
    ((everyItem issues prs merges).map itemKey).Nodup := by
  have hissues : (((openIssuesOf issues).map issueItem).map itemKey).Nodup :=
    nodup_keys_map (fun _ => rfl) (h.issueNumbers.sublist (List.filter_sublist.map _))
  have hprs : (((openOnes prs).map prItem).map itemKey).Nodup :=
    nodup_keys_map (fun _ => rfl) (h.prNumbers.sublist (List.filter_sublist.map _))
  have hmerges : ((merges.map recentMergedItem).map itemKey).Nodup :=
    nodup_keys_map (fun _ => rfl) h.mergeNumbers
  rw [everyItem, List.map_append, List.map_append, List.append_assoc]
  refine hissues.append (hprs.append hmerges (disjoint_keys ?_)) ?_
  · intro a ha b hb
    obtain ⟨_, _, rfl⟩ := List.mem_map.mp ha
    obtain ⟨_, _, rfl⟩ := List.mem_map.mp hb
    exact fun heq => by cases heq
  · rw [← List.map_append]
    refine disjoint_keys fun a ha b hb => ?_
    obtain ⟨_, _, rfl⟩ := List.mem_map.mp ha
    rcases List.mem_append.mp hb with hb | hb
    · obtain ⟨_, _, rfl⟩ := List.mem_map.mp hb
      exact fun heq => by cases heq
    · obtain ⟨_, _, rfl⟩ := List.mem_map.mp hb
      exact fun heq => by cases heq

/-- Issue 0 could only be shared with itself. -/
theorem Bounded.zero_not_shared (h : Bounded issues prs merges) {left right : CollisionItem}
    (hleft : left ∈ everyItem issues prs merges) (hright : right ∈ everyItem issues prs merges)
    (hne : left ≠ right) : 0 ∉ left.linkedIssues ∨ 0 ∉ right.linkedIssues := by
  have hlinks : ∀ item ∈ everyItem issues prs merges,
      0 ∉ item.linkedIssues ∨ (item.type = .issue ∧ item.linkedIssues = [item.number]) := by
    intro item hitem
    rcases List.mem_append.mp hitem with hitem | hitem
    · rcases List.mem_append.mp hitem with hitem | hitem
      · obtain ⟨issue, -, rfl⟩ := List.mem_map.mp hitem
        exact Or.inr ⟨rfl, rfl⟩
      · obtain ⟨pr, hpr, rfl⟩ := List.mem_map.mp hitem
        exact Or.inl (h.prLinks pr (List.mem_of_mem_filter hpr)).2
    · obtain ⟨pr, hpr, rfl⟩ := List.mem_map.mp hitem
      exact Or.inl (h.mergeLinks pr hpr).2
  rcases hlinks left hleft with hzero | ⟨htype, hnumber⟩
  · exact Or.inl hzero
  · rcases hlinks right hright with hzero | ⟨htype', hnumber'⟩
    · exact Or.inr hzero
    · by_contra hboth
      rw [hnumber, hnumber', not_or, not_not, not_not, List.mem_singleton,
        List.mem_singleton] at hboth
      have hsame : itemKey left = itemKey right := by
        rw [itemKey, itemKey, htype, htype', ← hboth.1, ← hboth.2]
      exact hne (List.inj_on_of_nodup_map h.nodup_keys hleft hright hsame)

theorem Bounded.allClusters_eq (h : Bounded issues prs merges) :
    allClusters (openIssuesOf issues) (openOnes prs) merges =
      (openIssuesOf issues).filterMap (issueCluster (openOnes prs)) ++
        (pairs (everyItem issues prs merges)).filterMap fun pair =>
          pairCluster collisionTerms pair.1 pair.2 := by
  have hkeys := h.nodup_keys
  rw [← h.reportItems_eq] at hkeys ⊢
  exact DuplicateClusters.allClusters_eq
    (h.issueNumbers.sublist (List.filter_sublist.map _)) hkeys

theorem Bounded.map_risk_perm (h : Bounded issues prs merges) (hissues : issues.Perm issues')
    (hprs : prs.Perm prs') (hmerges : merges.Perm merges') :
    ((allClusters (openIssuesOf issues) (openOnes prs) merges).map CollisionCluster.risk).Perm
      ((allClusters (openIssuesOf issues') (openOnes prs') merges').map
        CollisionCluster.risk) := by
  have hopenIssues : (openIssuesOf issues).Perm (openIssuesOf issues') := hissues.filter _
  have hopen : (openOnes prs).Perm (openOnes prs') := hprs.filter _
  have hitems : (everyItem issues prs merges).Perm (everyItem issues' prs' merges') :=
    ((hopenIssues.map _).append (hopen.map _)).append (hmerges.map _)
  have hsymm : ∀ a ∈ everyItem issues prs merges, ∀ b ∈ everyItem issues prs merges,
      pairRisk a b = pairRisk b a := by
    intro a ha b hb
    by_cases heq : a = b
    · rw [heq]
    · exact pairRisk_comm (h.zero_not_shared ha hb heq)
  rw [h.allClusters_eq, (h.perm hissues hprs hmerges).allClusters_eq, List.map_append,
    List.map_append, List.map_filterMap, List.map_filterMap, List.map_filterMap,
    List.map_filterMap]
  refine List.Perm.append ?_ (filterMap_pairs_perm hitems pairRisk hsymm)
  have hsame : (fun issue => (issueCluster (openOnes prs) issue).map CollisionCluster.risk) =
      fun issue => (issueCluster (openOnes prs') issue).map CollisionCluster.risk :=
    funext fun issue => issueRisk_perm hopen issue
  rw [hsame]
  exact hopenIssues.filterMap _

end Order

/-! ## Membership -/

section Membership

def SharesIssue (pr other : PullRequestRecord) : Prop :=
  ∃ issue ∈ pr.linkedIssues, issue ∈ other.linkedIssues

def prOverlap (pr other : PullRequestRecord) : TermOverlap :=
  termOverlap (collisionTerms (prItem pr)) (collisionTerms (prItem other))

/-- Another pull request is the same work: it links an issue in common, or none and its
terms overlap strongly. -/
def Duplicates (pr other : PullRequestRecord) : Prop :=
  SharesIssue pr other ∨
    (¬ SharesIssue pr other ∧ 3 / 4 ≤ (prOverlap pr other).score ∧ 2 ≤ (prOverlap pr other).shared)

theorem SharesIssue.symm {pr other : PullRequestRecord} (h : SharesIssue pr other) :
    SharesIssue other pr := by
  obtain ⟨issue, hpr, hother⟩ := h
  exact ⟨issue, hother, hpr⟩

theorem Duplicates.symm {pr other : PullRequestRecord} (h : Duplicates pr other) :
    Duplicates other pr := by
  rcases h with hshares | ⟨hnot, hscore, hshared⟩
  · exact Or.inl hshares.symm
  · rw [prOverlap, termOverlap_comm] at hscore hshared
    exact Or.inr ⟨fun hshares => hnot hshares.symm, hscore, hshared⟩

/-- A pair of pull requests is a high risk exactly where they are duplicates. -/
theorem pairRisk_eq_high_iff {pr other : PullRequestRecord} (hzero : 0 ∉ pr.linkedIssues) :
    pairRisk (prItem pr) (prItem other) = some .high ↔ Duplicates pr other := by
  have hnone : (∀ issue ∈ (prItem pr).linkedIssues, issue ∉ (prItem other).linkedIssues) ↔
      ¬ SharesIssue pr other :=
    ⟨fun h hshares => hshares.elim fun issue hboth => h issue hboth.1 hboth.2,
      fun h issue hpr hother => h ⟨issue, hpr, hother⟩⟩
  rw [pairRisk_eq (Or.inl hzero)]
  by_cases hshares : SharesIssue pr other
  · rw [if_neg (fun h => hnone.mp h hshares)]
    exact ⟨fun _ => Or.inl hshares, fun _ => rfl⟩
  · rw [if_pos (hnone.mpr hshares)]
    change (if (prOverlap pr other).score < 58 / 100 ∨ (prOverlap pr other).shared < 2 then none
      else some (if 3 / 4 ≤ (prOverlap pr other).score then CollisionRisk.high
        else .medium)) = some .high ↔ _
    constructor
    · intro h
      split at h
      · cases h
      · rename_i hhigh
        have hscore : 3 / 4 ≤ (prOverlap pr other).score := by
          by_contra hlow
          rw [if_neg hlow] at h
          cases h
        exact Or.inr ⟨hshares, hscore, Nat.le_of_not_lt fun h => hhigh (Or.inr h)⟩
    · rintro (h | ⟨-, hscore, hshared⟩)
      · exact absurd h hshares
      · have hhigh : ¬ ((prOverlap pr other).score < 58 / 100 ∨ (prOverlap pr other).shared < 2) := by
          rintro (hlow | hfew)
          · exact absurd (lt_of_lt_of_le hlow (by norm_num)) (not_lt.mpr hscore)
          · exact absurd hfew (Nat.not_lt.mpr hshared)
        rw [if_neg hhigh, if_pos hscore]

variable {issues issues' : List IssueRecord} {prs prs' : List PullRequestRecord}
  {merges merges' : List RecentMergedPullRequestRecord}

/-- An open pull request with this number has an open duplicate. -/
def HasDuplicate (prs : List PullRequestRecord) (number : ℕ) : Prop :=
  ∃ pr ∈ openOnes prs, pr.number = number ∧
    ∃ other ∈ openOnes prs, other.number ≠ number ∧ Duplicates pr other

theorem HasDuplicate.perm {number : ℕ} (h : HasDuplicate prs number) (hprs : prs.Perm prs') :
    HasDuplicate prs' number := by
  have hopen : (openOnes prs).Perm (openOnes prs') := hprs.filter _
  obtain ⟨pr, hpr, hnumber, other, hother, hne, hduplicates⟩ := h
  exact ⟨pr, hopen.mem_iff.mp hpr, hnumber, other, hopen.mem_iff.mp hother, hne, hduplicates⟩

/-- The duplicates among the members of a cluster that the check asks for. -/
def Names (cluster : CollisionCluster) (number : ℕ) : Prop :=
  cluster.risk = .high ∧
    2 ≤ (cluster.items.filter fun item => item.type = .pullRequest).length ∧
    ∃ item ∈ cluster.items, item.type = .pullRequest ∧ item.number = number

theorem isPullRequestInDuplicateCluster_iff (repoFullName : String) (number : ℕ) :
    isPullRequestInDuplicateCluster (buildCollisionReport repoFullName issues prs merges) number =
        true ↔
      ∃ cluster ∈ allClusters (openIssuesOf issues) (openOnes prs) merges,
        Names cluster number := by
  simp only [isPullRequestInDuplicateCluster, buildCollisionReport, List.any_eq_true,
    List.mem_mergeSort, Bool.and_eq_true, decide_eq_true_eq, Names]

/-- An issue linked by two pull requests or more names their duplicates. -/
theorem hasDuplicate_of_issueCluster (h : Bounded issues prs merges) {issue : IssueRecord}
    {cluster : CollisionCluster} (hcluster : issueCluster (openOnes prs) issue = some cluster)
    {number : ℕ} (hnames : Names cluster number) : HasDuplicate prs number := by
  have hlinks : ∀ pr ∈ openOnes prs, pr.linkedIssues.Nodup := fun pr hpr =>
    (h.prLinks pr (List.mem_of_mem_filter hpr)).1
  have hlinked := pullRequestsByLinkedIssue_eq hlinks issue.number
  generalize hlist : pullRequestsByLinkedIssue (openOnes prs) issue.number = linked at hlinked
  have hitems : cluster.items = issueItem issue :: linked.map prItem := by
    rw [issueCluster, hlist] at hcluster
    split at hcluster
    · cases hcluster
    · rw [← Option.some.inj hcluster]
  obtain ⟨-, hcount, item, hitem, htype, hnumber⟩ := hnames
  have hprs : (linked.map prItem).filter (fun item => item.type = .pullRequest) =
      linked.map prItem := by
    rw [List.filter_eq_self]
    intro other hother
    obtain ⟨pr, -, rfl⟩ := List.mem_map.mp hother
    rfl
  rw [hitems, List.filter_cons_of_neg (by simp [issueItem]), hprs, List.length_map] at hcount
  rw [hitems] at hitem
  rcases List.mem_cons.mp hitem with rfl | hitem
  · cases htype
  obtain ⟨pr, hpr, rfl⟩ := List.mem_map.mp hitem
  have hnumbers : ((openOnes prs).map PullRequestRecord.number).Nodup :=
    h.prNumbers.sublist (List.filter_sublist.map _)
  have hnodup : linked.Nodup := by
    rw [hlinked]
    exact (hnumbers.of_map _).filter _
  have hmember : ∀ {other}, other ∈ linked →
      other ∈ openOnes prs ∧ issue.number ∈ other.linkedIssues := by
    intro other hother
    rw [hlinked] at hother
    obtain ⟨hopen, hlinks⟩ := List.mem_filter.mp hother
    exact ⟨hopen, by simpa using hlinks⟩
  obtain ⟨other, hother, hne⟩ : ∃ other ∈ linked, other ≠ pr := by
    by_contra hall
    have hsame : ∀ other ∈ linked, other = pr := by
      intro other hother
      by_contra hne
      exact hall ⟨other, hother, hne⟩
    have hone := List.eq_replicate_of_mem hsame
    rw [hone] at hnodup
    exact absurd (List.nodup_replicate.mp hnodup) (Nat.not_le.mpr hcount)
  refine ⟨pr, (hmember hpr).1, hnumber, other, (hmember hother).1, fun heq => hne ?_,
    Or.inl ⟨issue.number, (hmember hpr).2, (hmember hother).2⟩⟩
  exact List.inj_on_of_nodup_map hnumbers (hmember hother).1 (hmember hpr).1
    (heq.trans hnumber.symm)

theorem pr_of_type {item : CollisionItem} (hitem : item ∈ everyItem issues prs merges)
    (htype : item.type = .pullRequest) : ∃ pr ∈ openOnes prs, item = prItem pr := by
  rcases List.mem_append.mp hitem with hitem | hitem
  · rcases List.mem_append.mp hitem with hitem | hitem
    · obtain ⟨issue, -, rfl⟩ := List.mem_map.mp hitem
      cases htype
    · obtain ⟨pr, hpr, rfl⟩ := List.mem_map.mp hitem
      exact ⟨pr, hpr, rfl⟩
  · obtain ⟨pr, -, rfl⟩ := List.mem_map.mp hitem
    cases htype

theorem types_of_count {left right : CollisionItem}
    (h : 2 ≤ ([left, right].filter fun item => item.type = .pullRequest).length) :
    left.type = .pullRequest ∧ right.type = .pullRequest := by
  have hall : ([left, right].filter fun item => item.type = .pullRequest) = [left, right] :=
    List.filter_sublist.eq_of_length (le_antisymm (List.length_filter_le _ _) h)
  have htypes := List.filter_eq_self.mp hall
  simpa using htypes

/-- Two pull requests in one cluster are duplicates, and so names each other. -/
theorem hasDuplicate_of_pairCluster (h : Bounded issues prs merges) {left right : CollisionItem}
    (hpair : (left, right) ∈ pairs (everyItem issues prs merges)) {cluster : CollisionCluster}
    (hcluster : pairCluster collisionTerms left right = some cluster) {number : ℕ}
    (hnames : Names cluster number) : HasDuplicate prs number := by
  obtain ⟨hhigh, hcount, item, hitem, -, hnumber⟩ := hnames
  rw [(id_of_pairCluster hcluster).2] at hcount hitem
  obtain ⟨hleft, hright⟩ := mem_of_mem_pairs hpair
  obtain ⟨htype, htype'⟩ := types_of_count hcount
  obtain ⟨pr, hpr, rfl⟩ := pr_of_type hleft htype
  obtain ⟨other, hother, rfl⟩ := pr_of_type hright htype'
  have hne : pr.number ≠ other.number := fun heq =>
    key_ne_of_mem_pairs itemKey _ h.nodup_keys hpair (by rw [itemKey, itemKey]; simp [prItem, heq])
  have hrisk : pairRisk (prItem pr) (prItem other) = some .high := by
    rw [pairRisk, hcluster, Option.map_some, hhigh]
  have hzero := (h.prLinks pr (List.mem_of_mem_filter hpr)).2
  have hduplicates := (pairRisk_eq_high_iff hzero).mp hrisk
  rcases List.mem_cons.mp hitem with rfl | hitem
  · exact ⟨pr, hpr, hnumber, other, hother, fun heq => hne (hnumber.trans heq.symm), hduplicates⟩
  · obtain rfl := List.mem_singleton.mp hitem
    exact ⟨other, hother, hnumber, pr, hpr, fun heq => hne (heq.trans hnumber.symm),
      hduplicates.symm⟩

theorem names_of_pair {left right : PullRequestRecord} {cluster : CollisionCluster}
    (hcluster : pairCluster collisionTerms (prItem left) (prItem right) = some cluster)
    (hhigh : cluster.risk = .high) {number : ℕ}
    (hnumber : left.number = number ∨ right.number = number) : Names cluster number := by
  have hitems := (id_of_pairCluster hcluster).2
  refine ⟨hhigh, by rw [hitems]; exact Nat.le_refl 2, ?_⟩
  rw [hitems]
  rcases hnumber with hnumber | hnumber
  · exact ⟨prItem left, List.mem_cons_self, rfl, hnumber⟩
  · exact ⟨prItem right, List.mem_cons_of_mem _ List.mem_cons_self, rfl, hnumber⟩

/-- A duplicate is found by the second pass. -/
theorem exists_names_of_hasDuplicate (h : Bounded issues prs merges) {number : ℕ}
    (hduplicate : HasDuplicate prs number) :
    ∃ cluster ∈ allClusters (openIssuesOf issues) (openOnes prs) merges,
      Names cluster number := by
  obtain ⟨pr, hpr, hnumber, other, hother, hne, hduplicates⟩ := hduplicate
  have hitem : ∀ {pr}, pr ∈ openOnes prs → prItem pr ∈ everyItem issues prs merges := fun hpr =>
    List.mem_append_left _ (List.mem_append_right _ (List.mem_map_of_mem hpr))
  have hfound : ∀ {left right : PullRequestRecord},
      (prItem left, prItem right) ∈ pairs (everyItem issues prs merges) →
      pairRisk (prItem left) (prItem right) = some .high →
      left.number = number ∨ right.number = number →
      ∃ cluster ∈ allClusters (openIssuesOf issues) (openOnes prs) merges,
        Names cluster number := by
    intro left right hpair hrisk hside
    obtain ⟨cluster, hcluster, hhigh⟩ := Option.map_eq_some_iff.mp hrisk
    refine ⟨cluster, ?_, names_of_pair hcluster hhigh hside⟩
    rw [h.allClusters_eq]
    exact List.mem_append_right _ (List.mem_filterMap.mpr ⟨_, hpair, hcluster⟩)
  have hdifferent : prItem pr ≠ prItem other := fun heq =>
    hne (hnumber ▸ (congrArg CollisionItem.number heq).symm)
  have hzero : ∀ {pr}, pr ∈ openOnes prs → 0 ∉ pr.linkedIssues := fun hpr =>
    (h.prLinks _ (List.mem_of_mem_filter hpr)).2
  rcases mem_pairs_or (hitem hpr) (hitem hother) hdifferent with hpair | hpair
  · exact hfound hpair ((pairRisk_eq_high_iff (hzero hpr)).mpr hduplicates) (Or.inl hnumber)
  · exact hfound hpair ((pairRisk_eq_high_iff (hzero hother)).mpr hduplicates.symm)
      (Or.inr hnumber)

/-- The check names a number exactly where its open pull request has an open duplicate. -/
theorem duplicateCluster_iff (h : Bounded issues prs merges) (repoFullName : String)
    (number : ℕ) :
    isPullRequestInDuplicateCluster (buildCollisionReport repoFullName issues prs merges) number =
      true ↔ HasDuplicate prs number := by
  rw [isPullRequestInDuplicateCluster_iff]
  refine ⟨fun hex => ?_, exists_names_of_hasDuplicate h⟩
  obtain ⟨cluster, hcluster, hnames⟩ := hex
  rw [h.allClusters_eq] at hcluster
  rcases List.mem_append.mp hcluster with hcluster | hcluster
  · obtain ⟨issue, -, hissue⟩ := List.mem_filterMap.mp hcluster
    exact hasDuplicate_of_issueCluster h hissue hnames
  · obtain ⟨⟨left, right⟩, hpair, hmade⟩ := List.mem_filterMap.mp hcluster
    exact hasDuplicate_of_pairCluster h hpair hmade hnames

theorem summary_of_risks (repoFullName : String) {risks : List CollisionRisk}
    (h : ((allClusters (openIssuesOf issues) (openOnes prs) merges).map
      CollisionCluster.risk).Perm risks) :
    (buildCollisionReport repoFullName issues prs merges).summary.clusterCount = risks.length ∧
    (buildCollisionReport repoFullName issues prs merges).summary.highRiskCount =
      risks.count .high := by
  constructor
  · calc _ = (allClusters (openIssuesOf issues) (openOnes prs) merges).length :=
          List.length_mergeSort _
      _ = risks.length := by rw [← h.length_eq, List.length_map]
  · calc _ = ((allClusters (openIssuesOf issues) (openOnes prs) merges).filter
            fun cluster => cluster.risk = .high).length :=
          ((List.mergeSort_perm _ _).filter _).length_eq
      _ = risks.count .high := by
          rw [← h.count_eq, List.count_eq_countP, List.countP_map, List.countP_eq_length_filter]
          rfl

/-- Membership in a duplicate cluster is exact, and neither it nor the counts of the report
depend on the order of the lists. -/
theorem duplicateClusters_exact (h : Bounded issues prs merges) (repoFullName : String) :
    (∀ pr ∈ prs, pr.state = "open" →
      (isPullRequestInDuplicateCluster (buildCollisionReport repoFullName issues prs merges)
          pr.number = true ↔
        ∃ other ∈ prs, other.state = "open" ∧ other.number ≠ pr.number ∧ Duplicates pr other)) ∧
    ∀ issues' prs' merges', issues.Perm issues' → prs.Perm prs' → merges.Perm merges' →
      (∀ number,
        isPullRequestInDuplicateCluster (buildCollisionReport repoFullName issues' prs' merges')
            number =
          isPullRequestInDuplicateCluster (buildCollisionReport repoFullName issues prs merges)
            number) ∧
      (buildCollisionReport repoFullName issues' prs' merges').summary.clusterCount =
        (buildCollisionReport repoFullName issues prs merges).summary.clusterCount ∧
      (buildCollisionReport repoFullName issues' prs' merges').summary.highRiskCount =
        (buildCollisionReport repoFullName issues prs merges).summary.highRiskCount := by
  have hopen : ∀ {pr}, pr ∈ openOnes prs ↔ pr ∈ prs ∧ pr.state = "open" := by
    intro pr
    rw [openOnes, List.mem_filter, decide_eq_true_eq]
  constructor
  · intro pr hpr hstate
    rw [duplicateCluster_iff h]
    constructor
    · rintro ⟨same, hsame, hnumber, other, hother, hne, hduplicates⟩
      obtain rfl := List.inj_on_of_nodup_map h.prNumbers (hopen.mp hsame).1 hpr hnumber
      exact ⟨other, (hopen.mp hother).1, (hopen.mp hother).2, hne, hduplicates⟩
    · rintro ⟨other, hother, hopenother, hne, hduplicates⟩
      exact ⟨pr, hopen.mpr ⟨hpr, hstate⟩, rfl, other, hopen.mpr ⟨hother, hopenother⟩, hne,
        hduplicates⟩
  · intro issues' prs' merges' hissues hprs hmerges
    have hrisks := h.map_risk_perm hissues hprs hmerges
    obtain ⟨hcount, hhigh⟩ := summary_of_risks repoFullName hrisks
    obtain ⟨hcount', hhigh'⟩ := @summary_of_risks issues' prs' merges' repoFullName _
      (List.Perm.refl _)
    refine ⟨fun number => ?_, hcount'.trans hcount.symm, hhigh'.trans hhigh.symm⟩
    rw [Bool.eq_iff_iff, duplicateCluster_iff h,
      duplicateCluster_iff (h.perm hissues hprs hmerges)]
    exact ⟨fun hdup => hdup.perm hprs.symm, fun hdup => hdup.perm hprs⟩

def sampleIssues : List IssueRecord := [⟨1, "Crash on start", "open", [], []⟩]

def samplePr (number : ℕ) (links : List ℕ) : PullRequestRecord where
  repoFullName := "o/r"
  number := number
  state := "open"
  authorLogin := none
  linkedIssues := links

/-- Two pull requests for one issue, whichever comes first. -/
theorem both_in_duplicateCluster :
    isPullRequestInDuplicateCluster
        (buildCollisionReport "o/r" sampleIssues [samplePr 2 [1], samplePr 3 [1]] []) 2 = true ∧
      isPullRequestInDuplicateCluster
        (buildCollisionReport "o/r" sampleIssues [samplePr 3 [1], samplePr 2 [1]] []) 2 = true := by
  have hbounded : Bounded sampleIssues [samplePr 2 [1], samplePr 3 [1]] [] :=
    ⟨by decide, by decide, by decide, by decide, by decide, by decide, by decide, by decide⟩
  obtain ⟨hexact, horder⟩ := duplicateClusters_exact hbounded "o/r"
  have hfirst := (hexact (samplePr 2 [1]) (by decide) rfl).mpr
    ⟨samplePr 3 [1], by decide, rfl, by decide, Or.inl ⟨1, by decide, by decide⟩⟩
  refine ⟨hfirst, ?_⟩
  have hswapped := (horder sampleIssues [samplePr 3 [1], samplePr 2 [1]] [] (List.Perm.refl _)
    (List.Perm.swap _ _ _) (List.Perm.refl _)).1 2
  exact hswapped.trans hfirst

end Membership

end Gittensory.DuplicateClusters
