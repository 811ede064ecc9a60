import Gittensory.KeyedTable
import Gittensory.PagedRead

/-!
The crawl of the open issues or pull requests of a repository (`github/backfill.ts`,
`db/repositories.ts`), one run of `fetchPagedSegment` after another: the stored segment
record and when a run resumes its scan, the page loop, the status it ends with, the
GraphQL supplement, and the reconcile step that closes the rows the scan has not seen.
-/
namespace Gittensory.OpenDataCrawl

open KeyedTable PagedRead

inductive BackfillMode where
  | light
  | full
  | resume
  deriving DecidableEq, Repr

/-- How many pages a run of each mode may request. -/
structure PageBudget where
  pages : BackfillMode → ℕ
  positive : ∀ mode, 0 < pages mode

/-- `SEGMENT_PAGE_BUDGET`. -/
def segmentPageBudget : PageBudget where
  pages
    | .light => 2
    | .full => 10
    | .resume => 10
  positive := by
    intro mode
    cases mode <;> decide

/-- `CURRENT_OPEN_SCAN_MARKER`. -/
def currentOpenScanMarker : String := "gittensory-current-open-scan-v1"

inductive SegmentStatus where
  | neverSynced
  | running
  | refreshing
  | complete
  | partialScan
  | capped
  | sampled
  | stale
  | rateLimited
  | waitingRateLimit
  | error
  | skipped
  | notModified
  deriving DecidableEq, Repr

/-- The row of an issue or pull request, with the columns the crawl reads and writes. -/
structure StoredItem where
  number : ℕ
  isOpen : Bool
  lastSeenOpenAt : Option ℕ
  deriving DecidableEq, Repr

structure RepoSyncSegmentRecord where
  status : SegmentStatus
  mode : BackfillMode
  lastCursor : Option ℕ
  nextCursor : Option ℕ
  fetchedCount : ℕ
  expectedCount : Option ℕ
  pageCount : ℕ
  startedAt : Option ℕ
  rateLimitResetAt : Option ℕ
  etag : Option String
  warnings : List String
  errorSummary : Option String
  deriving DecidableEq, Repr

/-- The rows of one segment of one repository, and its segment record. -/
structure CrawlStore where
  rows : List StoredItem
  segment : Option RepoSyncSegmentRecord
  deriving DecidableEq, Repr

/-- An entry of a listing of open items; the issue listing has pull requests among them. -/
structure GitHubItem where
  number : ℕ
  isPullRequest : Bool
  deriving DecidableEq, Repr

structure GitHubApiError where
  rateLimited : Bool
  rateLimitResetAt : Option ℕ
  message : String
  deriving DecidableEq, Repr

/-- The numbers a GraphQL supplement lists, up to its end or to the request that failed. -/
structure GraphQlReply where
  nodes : List ℕ
  failure : Option String
  deriving DecidableEq, Repr

/-- Where a run that never records its result is cut off. -/
inductive Interruption where
  | duringScan (pages : ℕ)
  | beforeReconcile
  | beforeRecording
  deriving DecidableEq, Repr

/-- One run and everything it meets: the listing as it is when each page is requested, the
failing pages, and the replies of the two supplements, which need a token. -/
structure CrawlRun where
  mode : BackfillMode
  cursor : Option ℕ
  now : ℕ
  expectedCount : Option ℕ
  listing : ℕ → List GitHubItem
  failure : ℕ → Option GitHubApiError
  supplements : Option (GraphQlReply × GraphQlReply)
  interruption : Option Interruption

inductive BackfillSegmentName where
  | openIssues
  | openPullRequests
  deriving DecidableEq, Repr

/-- What the two open-data segments pass to `fetchPagedSegment`. -/
structure SegmentOptions where
  segmentName : String
  path : String
  persists : GitHubItem → Bool
  supplementDescription : String

def segmentOptions : BackfillSegmentName → SegmentOptions
  | .openIssues =>
      { segmentName := "open_issues"
        path := "/issues?state=open&sort=created&direction=asc"
        persists := fun item => !item.isPullRequest
        supplementDescription := "open issue row(s)" }
  | .openPullRequests =>
      { segmentName := "open_pull_requests"
        path := "/pulls?state=open&sort=created&direction=asc"
        persists := fun _ => true
        supplementDescription := "open pull request row(s)" }

/-- `errorMessage`. -/
def errorMessage (message : String) : String :=
  if message = "" then "unknown error" else message

/-! The rows. -/

/-- The row that `upsertIssueFromGitHub` and `upsertPullRequestFromGitHub` write. -/
def rowFromGitHub (seenOpenAt : ℕ) (isOpen : Bool) (number : ℕ) : StoredItem where
  number := number
  isOpen := isOpen
  lastSeenOpenAt := if isOpen then some seenOpenAt else none

def upsertOpenItems (seenOpenAt : ℕ) (rows : List StoredItem) (numbers : List ℕ) :
    List StoredItem :=
  (numbers.map (rowFromGitHub seenOpenAt true)).foldl (upsert StoredItem.number) rows

/-- `countOpenIssues`, `countOpenPullRequests`. -/
def countOpen (rows : List StoredItem) : ℕ := rows.countP StoredItem.isOpen

/-- `last_seen_open_at IS NULL OR last_seen_open_at < seenOpenAt`. -/
def unseenSince (seenOpenAt : ℕ) (row : StoredItem) : Bool :=
  match row.lastSeenOpenAt with
  | none => true
  | some seenAt => decide (seenAt < seenOpenAt)

/-- `markUnseenOpenIssuesClosed`, `markUnseenOpenPullRequestsClosed`. -/
def markUnseenOpenClosed (seenOpenAt : ℕ) (rows : List StoredItem) : List StoredItem :=
  rows.map (fun row =>
    if row.isOpen ∧ unseenSince seenOpenAt row then { row with isOpen := false } else row)

/-- The number of rows it changes. -/
def countUnseenOpen (seenOpenAt : ℕ) (rows : List StoredItem) : ℕ :=
  rows.countP (fun row => row.isOpen && unseenSince seenOpenAt row)

def persistedNumbers (options : SegmentOptions) (items : List GitHubItem) : List ℕ :=
  (items.filter options.persists).map GitHubItem.number

/-- `persistPage`. -/
def persistPage (options : SegmentOptions) (scanStartedAt : ℕ) (rows : List StoredItem)
    (items : List GitHubItem) : List StoredItem :=
  upsertOpenItems scanStartedAt rows (persistedNumbers options items)

/-- The numbers of a supplement that are not stored as open yet, each once. -/
def freshNodes (existingNumbers : List ℕ) : List ℕ → List ℕ
  | [] => []
  | number :: rest =>
      if number = 0 ∨ number ∈ existingNumbers then freshNodes existingNumbers rest
      else number :: freshNodes (number :: existingNumbers) rest

/-- `listOpenIssueNumbers`, `listOpenPullRequests`. -/
def listOpenNumbers (rows : List StoredItem) : List ℕ :=
  ((rows.filter StoredItem.isOpen).take 10000).map StoredItem.number

/-! The segment record. -/

/-- The condition on the previous record under which a resuming run goes on with its scan. -/
def isResumable (previous : RepoSyncSegmentRecord) : Bool :=
  decide (previous.etag = some currentOpenScanMarker ∧ previous.startedAt.isSome ∧
    (previous.status = .running ∨ previous.status = .partialScan ∨
      previous.status = .waitingRateLimit))

/-- `previous`, where `canResumePreviousScan` holds. -/
def resumedScan (store : CrawlStore) (crawl : CrawlRun) : Option RepoSyncSegmentRecord :=
  if crawl.mode = .resume then store.segment.filter isResumable else none

/-- `startedAt`: of the resumed scan, else now. -/
def scanStartedAt (store : CrawlStore) (crawl : CrawlRun) : ℕ :=
  ((resumedScan store crawl).bind RepoSyncSegmentRecord.startedAt).getD crawl.now

def startPage (store : CrawlStore) (crawl : CrawlRun) : ℕ :=
  match resumedScan store crawl with
  | some previous => (crawl.cursor.or previous.nextCursor).getD 1
  | none => 1

/-- Everything but the mode and the start is taken over from the previous record. -/
def markSegmentRunning (previous : Option RepoSyncSegmentRecord) (mode : BackfillMode)
    (startedAt : ℕ) : RepoSyncSegmentRecord where
  status := .running
  mode := mode
  lastCursor := previous.bind RepoSyncSegmentRecord.lastCursor
  nextCursor := previous.bind RepoSyncSegmentRecord.nextCursor
  fetchedCount := (previous.map RepoSyncSegmentRecord.fetchedCount).getD 0
  expectedCount := previous.bind RepoSyncSegmentRecord.expectedCount
  pageCount := (previous.map RepoSyncSegmentRecord.pageCount).getD 0
  startedAt := some startedAt
  rateLimitResetAt := previous.bind RepoSyncSegmentRecord.rateLimitResetAt
  etag := previous.bind RepoSyncSegmentRecord.etag
  warnings := []
  errorSummary := none

/-! The page loop. -/

structure Scan where
  rows : List StoredItem
  fetchedThisRun : ℕ
  pageCount : ℕ
  lastCursor : Option ℕ
  nextCursor : Option ℕ
  hasMore : Bool
  failure : Option GitHubApiError
  deriving DecidableEq, Repr

def emptyScan (rows : List StoredItem) : Scan where
  rows := rows
  fetchedThisRun := 0
  pageCount := 0
  lastCursor := none
  nextCursor := none
  hasMore := false
  failure := none

def pageReply (crawl : CrawlRun) (page : ℕ) : Page GitHubItem :=
  pageOf 100 (crawl.listing page) page

def readPage (options : SegmentOptions) (startedAt page : ℕ) (scan : Scan)
    (reply : Page GitHubItem) : Scan :=
  { scan with
    rows := persistPage options startedAt scan.rows reply.data
    fetchedThisRun := scan.fetchedThisRun + (persistedNumbers options reply.data).length
    pageCount := scan.pageCount + 1
    lastCursor := some page
    nextCursor := if reply.hasNext then some (page + 1) else scan.nextCursor
    hasMore := reply.hasNext }

def scanPages (options : SegmentOptions) (crawl : CrawlRun) (startedAt : ℕ) :
    ℕ → ℕ → Scan → Scan
  | 0, _, scan => scan
  | budget + 1, page, scan =>
      match crawl.failure page with
      | some failure => { scan with failure := some failure }
      | none =>
          let read := readPage options startedAt page scan (pageReply crawl page)
          if (pageReply crawl page).hasNext then
            scanPages options crawl startedAt budget (page + 1) read
          else read

/-- The pages the run gets to request before its budget or an interruption ends it. -/
def requestBudget (budget : PageBudget) (crawl : CrawlRun) : ℕ :=
  match crawl.interruption with
  | some (.duringScan pages) => min pages (budget.pages crawl.mode)
  | _ => budget.pages crawl.mode

def crawlScan (options : SegmentOptions) (budget : PageBudget) (store : CrawlStore)
    (crawl : CrawlRun) : Scan :=
  scanPages options crawl (scanStartedAt store crawl) (requestBudget budget crawl)
    (startPage store crawl) (emptyScan store.rows)

/-! From the page loop to the recorded result. -/

structure Outcome where
  status : SegmentStatus
  rows : List StoredItem
  fetchedCount : ℕ
  hasMore : Bool
  nextCursor : Option ℕ
  warnings : List String
  deriving DecidableEq, Repr

def scanStatus (scan : Scan) : SegmentStatus :=
  match scan.failure with
  | none => .complete
  | some failure =>
      if failure.rateLimited then .waitingRateLimit
      else if 0 < scan.fetchedThisRun then .partialScan else .error

def scanWarnings (options : SegmentOptions) (scan : Scan) : List String :=
  match scan.failure with
  | none => []
  | some failure =>
      if failure.rateLimited then
        ["GitHub sync is waiting for rate-limit recovery for " ++ options.path ++ ": " ++
          failure.message]
      else ["GitHub sync failed for " ++ options.path ++ ": " ++ errorMessage failure.message]

/-- After the loop and its `catch`. -/
def outcomeOfScan (options : SegmentOptions) (scan : Scan) : Outcome where
  status := scanStatus scan
  rows := scan.rows
  fetchedCount := countOpen scan.rows
  hasMore := scan.hasMore
  nextCursor := scan.nextCursor
  warnings := scanWarnings options scan

/-- A failed scan whose open rows reach the expected total counts as complete. -/
def upgradeLateError (options : SegmentOptions) (expectedCount : Option ℕ) (outcome : Outcome) :
    Outcome :=
  match expectedCount with
  | none => outcome
  | some expected =>
      if (outcome.status = .error ∨ outcome.status = .partialScan) ∧
          expected ≤ outcome.fetchedCount then
        { outcome with
          status := .complete
          hasMore := false
          nextCursor := none
          warnings := outcome.warnings ++
            ["GitHub segment " ++ options.segmentName ++ " met the expected total after " ++
              "a late page error; preserving complete persisted coverage."] }
      else outcome

def supplementWarning (options : SegmentOptions) (supplemented : ℕ) : String :=
  "Supplemented " ++ toString supplemented ++ " " ++ options.supplementDescription ++
    " from GitHub GraphQL because REST pagination undercounted the authoritative total."

/-- `supplementOpenIssuesFromGraphQl`, `supplementOpenPullRequestsFromGraphQl`: the rows they
write and how many these are. -/
def supplementOpenFromGraphQl (reply : GraphQlReply) (seenOpenAt : ℕ) (rows : List StoredItem) :
    List StoredItem × ℕ :=
  let fresh := freshNodes (listOpenNumbers rows) reply.nodes
  (upsertOpenItems seenOpenAt rows fresh, fresh.length)

/-- A failing supplement keeps the rows it wrote, and the count from before. -/
def runSupplement (options : SegmentOptions) (startedAt : ℕ) (reply : GraphQlReply)
    (outcome : Outcome) : Outcome :=
  let written := supplementOpenFromGraphQl reply startedAt outcome.rows
  match reply.failure with
  | some message =>
      { outcome with
        rows := written.1
        warnings := outcome.warnings ++
          ["GitHub GraphQL supplement failed after REST undercount: " ++ errorMessage message] }
  | none =>
      { outcome with
        rows := written.1
        fetchedCount := countOpen written.1
        warnings := if 0 < written.2 then outcome.warnings ++ [supplementWarning options written.2]
          else outcome.warnings }

def supplementUnderCountIfNeeded (options : SegmentOptions) (startedAt : ℕ)
    (expectedCount : Option ℕ) (supplement : Option GraphQlReply) (outcome : Outcome) : Outcome :=
  match expectedCount, supplement with
  | some expected, some reply =>
      if expected ≤ outcome.fetchedCount then outcome
      else runSupplement options startedAt reply outcome
  | _, _ => outcome

def checkExpectedTotal (options : SegmentOptions) (expectedCount : Option ℕ) (outcome : Outcome) :
    Outcome :=
  match expectedCount with
  | none => outcome
  | some expected =>
      if outcome.fetchedCount < expected then
        { outcome with
          status := .partialScan
          warnings := outcome.warnings ++
            ["GitHub segment " ++ options.segmentName ++ " fetched " ++
              toString outcome.fetchedCount ++ " item(s), below expected total " ++
              toString expected ++ "."] }
      else outcome

/-- `running` while pages are left, else the supplement and the check of the total. -/
def finishPages (options : SegmentOptions) (startedAt : ℕ) (expectedCount : Option ℕ)
    (supplement : Option GraphQlReply) (outcome : Outcome) : Outcome :=
  if outcome.status = .complete then
    if outcome.hasMore then { outcome with status := .running }
    else checkExpectedTotal options expectedCount
      (supplementUnderCountIfNeeded options startedAt expectedCount supplement outcome)
  else outcome

def itemNoun (options : SegmentOptions) : String :=
  if options.segmentName = "open_issues" then "issue" else "pull request"

def closeUnseen (options : SegmentOptions) (startedAt : ℕ) (outcome : Outcome) : Outcome :=
  let reconciled := countUnseenOpen startedAt outcome.rows
  let rows := markUnseenOpenClosed startedAt outcome.rows
  { outcome with
    rows := rows
    fetchedCount := countOpen rows
    warnings :=
      if 0 < reconciled then
        outcome.warnings ++
          ["Marked " ++ toString reconciled ++ " stale open " ++ itemNoun options ++
            " row(s) closed after a complete GitHub open-data crawl."]
      else outcome.warnings }

/-- Whether the run reaches the reconcile step. -/
def Outcome.finished (outcome : Outcome) : Bool :=
  decide (outcome.status = .complete ∧ outcome.hasMore = false)

def reconcileOnComplete (options : SegmentOptions) (startedAt : ℕ) (expectedCount : Option ℕ)
    (supplement : Option GraphQlReply) (outcome : Outcome) : Outcome :=
  if outcome.finished then
    checkExpectedTotal options expectedCount
      (supplementUnderCountIfNeeded options startedAt expectedCount supplement
        (closeUnseen options startedAt outcome))
  else outcome

/-- The run up to the reconcile step. -/
def scannedOutcome (options : SegmentOptions) (budget : PageBudget) (store : CrawlStore)
    (crawl : CrawlRun) : Outcome :=
  finishPages options (scanStartedAt store crawl) crawl.expectedCount
    (crawl.supplements.map Prod.fst)
    (upgradeLateError options crawl.expectedCount
      (outcomeOfScan options (crawlScan options budget store crawl)))

def reconciledOutcome (options : SegmentOptions) (budget : PageBudget) (store : CrawlStore)
    (crawl : CrawlRun) : Outcome :=
  reconcileOnComplete options (scanStartedAt store crawl) crawl.expectedCount
    (crawl.supplements.map Prod.snd) (scannedOutcome options budget store crawl)

def completeSegment (mode : BackfillMode) (startedAt : ℕ) (expectedCount : Option ℕ)
    (scan : Scan) (outcome : Outcome) : RepoSyncSegmentRecord where
  status := outcome.status
  mode := mode
  lastCursor := scan.lastCursor
  nextCursor := outcome.nextCursor
  fetchedCount := outcome.fetchedCount
  expectedCount := expectedCount
  pageCount := scan.pageCount
  startedAt := some startedAt
  rateLimitResetAt := (scan.failure.filter GitHubApiError.rateLimited).bind
    GitHubApiError.rateLimitResetAt
  etag := some currentOpenScanMarker
  warnings := outcome.warnings
  errorSummary :=
    if outcome.status = .error ∨ outcome.status = .waitingRateLimit ∨
        outcome.status = .partialScan then
      outcome.warnings.getLast?
    else none

/-- The store a run leaves: interrupted, its rows so far under the record it started with. -/
def fetchPagedSegment (options : SegmentOptions) (budget : PageBudget) (store : CrawlStore)
    (crawl : CrawlRun) : CrawlStore :=
  let startedAt := scanStartedAt store crawl
  let scan := crawlScan options budget store crawl
  let outcome := reconciledOutcome options budget store crawl
  let running := some (markSegmentRunning store.segment crawl.mode startedAt)
  match crawl.interruption with
  | some (.duringScan _) => ⟨scan.rows, running⟩
  | some .beforeReconcile => ⟨(scannedOutcome options budget store crawl).rows, running⟩
  | some .beforeRecording => ⟨outcome.rows, running⟩
  | none =>
      ⟨outcome.rows,
        some (completeSegment crawl.mode startedAt crawl.expectedCount scan outcome)⟩

def backfillOpenIssuesSegment (budget : PageBudget) (store : CrawlStore) (crawl : CrawlRun) :
    CrawlStore :=
  fetchPagedSegment (segmentOptions .openIssues) budget store crawl

def backfillOpenPullRequestsSegment (budget : PageBudget) (store : CrawlStore)
    (crawl : CrawlRun) : CrawlStore :=
  fetchPagedSegment (segmentOptions .openPullRequests) budget store crawl

/-- `backfillRepositorySegment` while the rate limit is low: a record without the marker. -/
def postponeSegment (mode : BackfillMode) (cursor : Option ℕ) (now resetAt : ℕ)
    (store : CrawlStore) : CrawlStore :=
  { store with
    segment := some
      { status := .waitingRateLimit
        mode := mode
        lastCursor := store.segment.bind RepoSyncSegmentRecord.lastCursor
        nextCursor := (store.segment.bind RepoSyncSegmentRecord.nextCursor).or cursor
        fetchedCount := (store.segment.map RepoSyncSegmentRecord.fetchedCount).getD 0
        expectedCount := store.segment.bind RepoSyncSegmentRecord.expectedCount
        pageCount := (store.segment.map RepoSyncSegmentRecord.pageCount).getD 0
        startedAt := some now
        rateLimitResetAt := some resetAt
        etag := none
        warnings := ["GitHub REST rate limit is low; retry after " ++ toString resetAt ++ "."]
        errorSummary :=
          some ("Waiting for GitHub rate limit reset at " ++ toString resetAt ++ ".") } }

inductive CrawlEvent where
  | backfill (crawl : CrawlRun)
  | postpone (mode : BackfillMode) (cursor : Option ℕ) (now resetAt : ℕ)
  /-- An issue or pull request webhook stores the item between two runs. -/
  | webhook (number : ℕ) (isOpen : Bool) (now : ℕ)

def step (segment : BackfillSegmentName) (budget : PageBudget) (store : CrawlStore)
    (event : CrawlEvent) : CrawlStore :=
  match event, segment with
  | .backfill crawl, .openIssues => backfillOpenIssuesSegment budget store crawl
  | .backfill crawl, .openPullRequests => backfillOpenPullRequestsSegment budget store crawl
  | .postpone mode cursor now resetAt, _ => postponeSegment mode cursor now resetAt store
  | .webhook number isOpen now, _ =>
      { store with
        rows := upsert StoredItem.number store.rows (rowFromGitHub now isOpen number) }

end Gittensory.OpenDataCrawl
