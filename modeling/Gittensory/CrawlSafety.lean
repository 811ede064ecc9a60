import Gittensory.CrawlScan
import Gittensory.GuardedRun

/-!
Which crawls close no live item. A run that reaches the reconcile step closes every open
row its scan has not seen, so each live item must have been seen since the scan started
or be listed at or behind the page the scan resumes at. That is kept from run to run,
as long as no late page error is taken for a complete scan, no run jumps ahead of the
stored resume page, and no fresh scan breaks off over the resume page of an older one.
-/
namespace Gittensory.CrawlSafety

open CrawlScan GuardedRun KeyedTable OpenDataCrawl PagedRead

/-- The run gets as far as the reconcile step, if its scan is complete. -/
def ReachesReconcile (crawl : CrawlRun) : Prop :=
  crawl.interruption = none ∨ crawl.interruption = some .beforeRecording

/-- The rows once the pages that the run reads are stored. -/
def rowsRead (options : SegmentOptions) (budget : PageBudget) (store : CrawlStore)
    (crawl : CrawlRun) : List StoredItem :=
  persistPage options (scanStartedAt store crawl) store.rows
    (readPages (request crawl) (requestBudget budget crawl) (startPage store crawl))

/-- The runs that close no live item; `home` is the page of an item during a scan. -/
structure Undisturbed (options : SegmentOptions) (budget : PageBudget) (live : Set ℕ)
    (home : ℕ → ℕ → ℕ) (store : CrawlStore) (crawl : CrawlRun) : Prop where
  /-- The listing does not shift under the scan. -/
  listed : ∀ number ∈ live,
    ListedOn options crawl number (home (scanStartedAt store crawl) number)
  /-- An explicit cursor does not skip pages of the resumed scan. -/
  inOrder : ∀ previous, resumedScan store crawl = some previous →
    ∀ cursor, crawl.cursor = some cursor → cursor ≤ previous.nextCursor.getD 1
  /-- After a page error the open rows stay below the expected total. -/
  noLateError : ReachesReconcile crawl → ∀ page failure expected,
    StopsAt crawl (startPage store crawl) (requestBudget budget crawl) page failure →
    failure.rateLimited = false → crawl.expectedCount = some expected →
    countOpen (rowsRead options budget store crawl) < expected
  /-- A fresh scan that breaks off has read up to the resume page of the older scan. -/
  unbroken : crawl.interruption ≠ none → resumedScan store crawl = none →
    ∀ previous, store.segment = some previous → previous.etag = some currentOpenScanMarker →
    previous.nextCursor.getD 1 ≤ 1 + servedPages (fails crawl) (requestBudget budget crawl) 1

/-- The invariant between runs: a scan that can be resumed has seen every live item that is
not listed at or behind its resume page. -/
def ScanSound (live : Set ℕ) (home : ℕ → ℕ → ℕ) (store : CrawlStore) : Prop :=
  ∀ previous startedAt, store.segment = some previous → isResumable previous = true →
    previous.startedAt = some startedAt → ∀ number ∈ live,
    SeenOrAhead startedAt store.rows number (home startedAt number) (previous.nextCursor.getD 1)

theorem resumedScan_eq_some {store : CrawlStore} {crawl : CrawlRun}
    {previous : RepoSyncSegmentRecord} (h : resumedScan store crawl = some previous) :
    store.segment = some previous ∧ isResumable previous = true := by
  unfold resumedScan at h
  split_ifs at h
  exact Option.filter_eq_some_iff.mp h

theorem startedAt_of_isResumable {previous : RepoSyncSegmentRecord}
    (h : isResumable previous = true) : ∃ startedAt, previous.startedAt = some startedAt := by
  unfold isResumable at h
  exact Option.isSome_iff_exists.mp (of_decide_eq_true h).2.1

theorem scanStartedAt_of_resumed {store : CrawlStore} {crawl : CrawlRun}
    {previous : RepoSyncSegmentRecord} {startedAt : ℕ}
    (h : resumedScan store crawl = some previous) (hstarted : previous.startedAt = some startedAt) :
    scanStartedAt store crawl = startedAt := by
  simp [scanStartedAt, h, hstarted]

variable {options : SegmentOptions} {budget : PageBudget} {live : Set ℕ} {home : ℕ → ℕ → ℕ}
  {store : CrawlStore} {crawl : CrawlRun}

/-- Where a run starts, every live item is seen or still ahead. -/
theorem seenOrAhead_startPage (hsound : ScanSound live home store)
    (h : Undisturbed options budget live home store crawl) {number : ℕ} (hlive : number ∈ live) :
    SeenOrAhead (scanStartedAt store crawl) store.rows number
      (home (scanStartedAt store crawl) number) (startPage store crawl) := by
  cases hresumed : resumedScan store crawl with
  | none =>
    right
    have hcounted := (h.listed number hlive).counted
    simp only [startPage, hresumed]
    omega
  | some previous =>
    obtain ⟨hsegment, hresumable⟩ := resumedScan_eq_some hresumed
    obtain ⟨startedAt, hstarted⟩ := startedAt_of_isResumable hresumable
    have hstart := hsound previous startedAt hsegment hresumable hstarted number hlive
    rw [scanStartedAt_of_resumed hresumed hstarted]
    apply hstart.of_le
    simp only [startPage, hresumed]
    cases hcursor : crawl.cursor with
    | none => simp
    | some cursor => simpa using h.inOrder previous hresumed cursor hcursor

theorem seenOrAhead_crawlScan (hsound : ScanSound live home store)
    (h : Undisturbed options budget live home store crawl) {number : ℕ} (hlive : number ∈ live) :
    SeenOrAhead (scanStartedAt store crawl) (crawlScan options budget store crawl).rows number
      (home (scanStartedAt store crawl) number)
      (startPage store crawl +
        servedPages (fails crawl) (requestBudget budget crawl) (startPage store crawl)) :=
  scanPages_seenOrAhead (h.listed number hlive) (seenOrAhead_startPage hsound h hlive)

theorem crawlScan_rows (options : SegmentOptions) (budget : PageBudget) (store : CrawlStore)
    (crawl : CrawlRun) :
    (crawlScan options budget store crawl).rows = rowsRead options budget store crawl :=
  scanPages_rows options crawl _ _ _ _

theorem scannedOutcome_onlyOpened (options : SegmentOptions) (budget : PageBudget)
    (store : CrawlStore) (crawl : CrawlRun) :
    OnlyOpened (scanStartedAt store crawl) (crawlScan options budget store crawl).rows
      (scannedOutcome options budget store crawl).rows := by
  have hscan : (upgradeLateError options crawl.expectedCount
      (outcomeOfScan options (crawlScan options budget store crawl))).rows =
      (crawlScan options budget store crawl).rows := upgradeLateError_rows _ _
  rw [← hscan]
  exact finishPages_onlyOpened _ _ _ _

theorem requestBudget_pos (hreaches : ReachesReconcile crawl) : 0 < requestBudget budget crawl := by
  unfold requestBudget
  rcases hreaches with h | h <;> rw [h] <;> exact budget.positive crawl.mode

/-- A run that is about to reconcile has seen every live item. -/
theorem seenSince_of_finished (hsound : ScanSound live home store)
    (h : Undisturbed options budget live home store crawl) (hreaches : ReachesReconcile crawl)
    (hfinished : (scannedOutcome options budget store crawl).finished = true) {number : ℕ}
    (hlive : number ∈ live) :
    SeenSince (scanStartedAt store crawl) (crawlScan options budget store crawl).rows number := by
  have hend : (crawlScan options budget store crawl).failure = none ∧
      (crawlScan options budget store crawl).hasMore = false := by
    apply finished_of_upgradeLateError _ (finished_of_finishPages hfinished)
    intro failure expected hfailure hlimited hexpected
    obtain ⟨page, hstop⟩ := scanPages_stopsAt options crawl _ _ _ (emptyScan store.rows) rfl
      failure hfailure
    rw [crawlScan_rows]
    exact h.noLateError hreaches page failure expected hstop hlimited hexpected
  obtain ⟨last, _, hlast, hnext⟩ := scanPages_last options crawl _ _ _ (emptyScan store.rows)
    (requestBudget_pos hreaches) hend.1 hend.2
  -- the page of a live item is not behind the last one, so it has been read
  have hhome : home (scanStartedAt store crawl) number ≤ last := by
    by_contra hbehind
    have hmore := (h.listed number hlive).behind last (by omega)
    rw [hnext] at hmore
    cases hmore
  rcases seenOrAhead_crawlScan hsound h hlive with hseen | hahead
  · exact hseen
  · omega

/-- The rows a run leaves are the scanned ones with more items opened, or every live item
has been seen by the scan. -/
theorem fetchPagedSegment_rows (hsound : ScanSound live home store)
    (h : Undisturbed options budget live home store crawl) :
    OnlyOpened (scanStartedAt store crawl) (crawlScan options budget store crawl).rows
        (fetchPagedSegment options budget store crawl).rows ∨
      ∀ number ∈ live, SeenSince (scanStartedAt store crawl)
        (fetchPagedSegment options budget store crawl).rows number := by
  have hscanned := scannedOutcome_onlyOpened options budget store crawl
  have hreconciled : ReachesReconcile crawl →
      OnlyOpened (scanStartedAt store crawl) (crawlScan options budget store crawl).rows
          (reconciledOutcome options budget store crawl).rows ∨
        ∀ number ∈ live, SeenSince (scanStartedAt store crawl)
          (reconciledOutcome options budget store crawl).rows number := by
    intro hreaches
    unfold reconciledOutcome
    cases hfinished : (scannedOutcome options budget store crawl).finished with
    | false =>
      rw [reconcileOnComplete_of_unfinished hfinished]
      exact Or.inl hscanned
    | true =>
      right
      intro number hlive
      exact seenSince_reconcileOnComplete
        (hscanned.seenSince (seenSince_of_finished hsound h hreaches hfinished hlive))
  unfold fetchPagedSegment
  dsimp only
  cases hinterruption : crawl.interruption with
  | none => exact hreconciled (Or.inl hinterruption)
  | some interruption =>
    cases interruption with
    | duringScan pages => exact Or.inl (OnlyOpened.refl _ _)
    | beforeReconcile => exact Or.inl hscanned
    | beforeRecording => exact hreconciled (Or.inr hinterruption)

theorem crawlScan_onlyOpened (options : SegmentOptions) (budget : PageBudget)
    (store : CrawlStore) (crawl : CrawlRun) :
    OnlyOpened (scanStartedAt store crawl) store.rows
      (crawlScan options budget store crawl).rows := by
  rw [crawlScan_rows]
  exact ⟨_, rfl⟩

/-- What holds of the scanned rows holds of the rows the run leaves. -/
theorem seenOrAhead_fetchPagedSegment (hsound : ScanSound live home store)
    (h : Undisturbed options budget live home store crawl) {number page : ℕ}
    (hlive : number ∈ live)
    (hscan : SeenOrAhead (scanStartedAt store crawl) (crawlScan options budget store crawl).rows
      number (home (scanStartedAt store crawl) number) page) :
    SeenOrAhead (scanStartedAt store crawl) (fetchPagedSegment options budget store crawl).rows
      number (home (scanStartedAt store crawl) number) page := by
  rcases fetchPagedSegment_rows hsound h with hopened | hseen
  · exact hscan.onlyOpened hopened
  · exact Or.inl (hseen number hlive)

/-- The recorded resume page is not behind the pages that were answered. -/
theorem nextCursor_reconciledOutcome {cursor : ℕ}
    (h : (reconciledOutcome options budget store crawl).nextCursor = some cursor) :
    cursor ≤ startPage store crawl +
      servedPages (fails crawl) (requestBudget budget crawl) (startPage store crawl) := by
  unfold reconciledOutcome scannedOutcome at h
  rw [reconcileOnComplete_nextCursor, finishPages_nextCursor] at h
  have hscan : (crawlScan options budget store crawl).nextCursor = some cursor :=
    nextCursor_of_upgradeLateError h
  refine scanPages_nextCursor_le options crawl _ _ _ (emptyScan store.rows) ?_ cursor hscan
  intro first hfirst
  cases hfirst

theorem segment_of_recorded (hrecorded : crawl.interruption = none) :
    (fetchPagedSegment options budget store crawl).segment =
      some (completeSegment crawl.mode (scanStartedAt store crawl) crawl.expectedCount
        (crawlScan options budget store crawl) (reconciledOutcome options budget store crawl)) := by
  unfold fetchPagedSegment
  rw [hrecorded]

theorem segment_of_interrupted (hinterrupted : crawl.interruption ≠ none) :
    (fetchPagedSegment options budget store crawl).segment =
      some (markSegmentRunning store.segment crawl.mode (scanStartedAt store crawl)) := by
  unfold fetchPagedSegment
  dsimp only
  cases hinterruption : crawl.interruption with
  | none => exact absurd hinterruption hinterrupted
  | some interruption => cases interruption <;> rfl

/-- The step lemma of the invariant for a run that records its result. -/
theorem scanSound_recorded (hsound : ScanSound live home store)
    (h : Undisturbed options budget live home store crawl)
    (hrecorded : crawl.interruption = none) :
    ScanSound live home (fetchPagedSegment options budget store crawl) := by
  intro previous startedAt hsegment _ hstarted number hlive
  rw [segment_of_recorded hrecorded] at hsegment
  obtain rfl := Option.some.inj hsegment
  obtain rfl : scanStartedAt store crawl = startedAt := Option.some.inj hstarted
  apply seenOrAhead_fetchPagedSegment hsound h hlive
  simp only [completeSegment]
  cases hcursor : (reconciledOutcome options budget store crawl).nextCursor with
  | none => exact Or.inr (h.listed number hlive).counted
  | some cursor =>
    exact (seenOrAhead_crawlScan hsound h hlive).of_le (nextCursor_reconciledOutcome hcursor)

/-- And for one that is cut off: the record it leaves still names the older resume page. -/
theorem scanSound_interrupted (hsound : ScanSound live home store)
    (h : Undisturbed options budget live home store crawl)
    (hinterrupted : crawl.interruption ≠ none) :
    ScanSound live home (fetchPagedSegment options budget store crawl) := by
  intro record startedAt hsegment hresumable hstarted number hlive
  rw [segment_of_interrupted hinterrupted] at hsegment
  obtain rfl := Option.some.inj hsegment
  obtain rfl : scanStartedAt store crawl = startedAt := Option.some.inj hstarted
  apply seenOrAhead_fetchPagedSegment hsound h hlive
  have hmarked : (markSegmentRunning store.segment crawl.mode
      (scanStartedAt store crawl)).etag = some currentOpenScanMarker := by
    unfold isResumable at hresumable
    exact (of_decide_eq_true hresumable).1
  simp only [markSegmentRunning] at hmarked ⊢
  cases hprevious : store.segment with
  | none =>
    rw [hprevious] at hmarked
    cases hmarked
  | some previous =>
    rw [hprevious] at hmarked
    change previous.etag = some currentOpenScanMarker at hmarked
    change SeenOrAhead _ _ _ _ (previous.nextCursor.getD 1)
    cases hresumed : resumedScan store crawl with
    | none =>
      have hread := h.unbroken hinterrupted hresumed previous hprevious hmarked
      apply (seenOrAhead_crawlScan hsound h hlive).of_le
      simpa only [startPage, hresumed] using hread
    | some resumed =>
      obtain ⟨hstored, hgoesOn⟩ := resumedScan_eq_some hresumed
      obtain rfl : previous = resumed := Option.some.inj (hprevious.symm.trans hstored)
      obtain ⟨startedAt, hstart⟩ := startedAt_of_isResumable hgoesOn
      rw [scanStartedAt_of_resumed hresumed hstart]
      have hopened := crawlScan_onlyOpened options budget store crawl
      rw [scanStartedAt_of_resumed hresumed hstart] at hopened
      exact (hsound previous startedAt hprevious hgoesOn hstart number hlive).onlyOpened hopened

theorem scanSound_fetchPagedSegment (hsound : ScanSound live home store)
    (h : Undisturbed options budget live home store crawl) :
    ScanSound live home (fetchPagedSegment options budget store crawl) := by
  by_cases hrecorded : crawl.interruption = none
  · exact scanSound_recorded hsound h hrecorded
  · exact scanSound_interrupted hsound h hrecorded

theorem mem_upsert_rowFromGitHub {rows : List StoredItem} {now item : ℕ} {isOpen : Bool}
    {row : StoredItem}
    (h : row ∈ upsert StoredItem.number rows (rowFromGitHub now isOpen item)) :
    row = rowFromGitHub now isOpen item ∨ row ∈ rows := by
  rcases (mem_upsert_iff StoredItem.number rows _ row).mp h with heq | ⟨hold, _⟩
  · exact Or.inl heq
  · exact Or.inr hold

theorem notClosed_webhook {rows : List StoredItem} {number now item : ℕ} {isOpen : Bool}
    (hitem : item = number → isOpen = true) (h : NotClosed rows number) :
    NotClosed (upsert StoredItem.number rows (rowFromGitHub now isOpen item)) number := by
  intro row hrow hnumber
  rcases mem_upsert_rowFromGitHub hrow with heq | hold
  · rw [heq] at hnumber ⊢
    exact hitem hnumber
  · exact h row hold hnumber

theorem seenSince_webhook {rows : List StoredItem} {seenOpenAt number now item : ℕ}
    {isOpen : Bool} (hitem : item = number → isOpen = true ∧ seenOpenAt ≤ now)
    (h : SeenSince seenOpenAt rows number) :
    SeenSince seenOpenAt (upsert StoredItem.number rows (rowFromGitHub now isOpen item))
      number := by
  refine ⟨exists_key_upsert StoredItem.number (Or.inl h.stored), ?_⟩
  intro row hrow hnumber
  rcases mem_upsert_rowFromGitHub hrow with heq | hold
  · rw [heq] at hnumber ⊢
    obtain ⟨hopen, hnow⟩ := hitem hnumber
    refine ⟨hopen, ?_⟩
    simp [unseenSince, rowFromGitHub, hopen, hnow]
  · exact h.seen row hold hnumber

variable (segment : BackfillSegmentName)

/-- The events of a crawl that closes no live item: undisturbed runs, and webhooks that
report a live item as open, no earlier than the stored scan started. -/
def Admitted (budget : PageBudget) (live : Set ℕ) (home : ℕ → ℕ → ℕ) (store : CrawlStore)
    (event : CrawlEvent) : Prop :=
  match event with
  | .backfill crawl => Undisturbed (segmentOptions segment) budget live home store crawl
  | .postpone _ _ _ _ => True
  | .webhook number isOpen now => number ∈ live → isOpen = true ∧
      ∀ previous startedAt, store.segment = some previous →
        previous.startedAt = some startedAt → startedAt ≤ now

/-- The step closes no live item; and when a run closes a row at all, its scan has seen
every live item, on whatever page. -/
structure CrawlSafe (budget : PageBudget) (live : Set ℕ) (store : CrawlStore)
    (event : CrawlEvent) : Prop where
  keepsLive : ∀ number ∈ live, NotClosed store.rows number →
    NotClosed (step segment budget store event).rows number
  closesAfterScan : ∀ crawl, event = .backfill crawl → ∀ closed, NotClosed store.rows closed →
    ¬ NotClosed (step segment budget store event).rows closed → ∀ number ∈ live,
      SeenSince (scanStartedAt store crawl) (step segment budget store event).rows number

variable {segment}

theorem step_backfill (segment : BackfillSegmentName) (budget : PageBudget) (store : CrawlStore)
    (crawl : CrawlRun) :
    step segment budget store (.backfill crawl) =
      fetchPagedSegment (segmentOptions segment) budget store crawl := by
  cases segment <;> rfl

theorem scanSound_step (store : CrawlStore) (event : CrawlEvent)
    (hsound : ScanSound live home store) (h : Admitted segment budget live home store event) :
    ScanSound live home (step segment budget store event) := by
  cases event with
  | backfill crawl =>
    rw [step_backfill]
    exact scanSound_fetchPagedSegment hsound h
  | postpone mode cursor now resetAt =>
    -- the record of a postponed run lacks the marker
    intro previous startedAt hsegment hresumable
    obtain rfl := Option.some.inj hsegment
    simp [isResumable] at hresumable
  | webhook item isOpen now =>
    intro previous startedAt hsegment hresumable hstarted number hlive
    rcases hsound previous startedAt hsegment hresumable hstarted number hlive with hseen | hahead
    · left
      apply seenSince_webhook _ hseen
      intro hitem
      obtain ⟨hopen, hclock⟩ := h (hitem ▸ hlive)
      exact ⟨hopen, hclock previous startedAt hsegment hstarted⟩
    · exact Or.inr hahead

theorem crawlSafe_backfill (store : CrawlStore) (crawl : CrawlRun)
    (hsound : ScanSound live home store)
    (h : Undisturbed (segmentOptions segment) budget live home store crawl) :
    CrawlSafe segment budget live store (.backfill crawl) := by
  have hscan := crawlScan_onlyOpened (segmentOptions segment) budget store crawl
  constructor
  · intro number hlive hopen
    rw [step_backfill]
    rcases fetchPagedSegment_rows hsound h with hopened | hseen
    · exact (hscan.trans hopened).notClosed hopen
    · exact (hseen number hlive).notClosed
  · intro run hrun closed hopen hclosed number hlive
    obtain rfl : crawl = run := CrawlEvent.backfill.inj hrun
    rw [step_backfill] at hclosed ⊢
    rcases fetchPagedSegment_rows hsound h with hopened | hseen
    · exact absurd ((hscan.trans hopened).notClosed hopen) hclosed
    · exact hseen number hlive

theorem crawlSafe_of_admitted (store : CrawlStore) (event : CrawlEvent)
    (hsound : ScanSound live home store) (h : Admitted segment budget live home store event) :
    CrawlSafe segment budget live store event := by
  cases event with
  | backfill crawl => exact crawlSafe_backfill store crawl hsound h
  | postpone mode cursor now resetAt =>
    refine ⟨fun _ _ hopen => hopen, ?_⟩
    intro crawl hcrawl
    cases hcrawl
  | webhook item isOpen now =>
    constructor
    · intro number hlive hopen
      exact notClosed_webhook (fun hitem => (h (hitem ▸ hlive)).1) hopen
    · intro crawl hcrawl
      cases hcrawl

/-- From any rows and any record that no run can resume, a crawl of admitted events closes
no live item at any step, however its runs page, fail, break off and resume. -/
theorem crawlSafe_of_guarded (segment : BackfillSegmentName) (budget : PageBudget)
    (live : Set ℕ) (home : ℕ → ℕ → ℕ) (store : CrawlStore) (events : List CrawlEvent)
    (hfresh : ∀ previous, store.segment = some previous → isResumable previous = false)
    (hadmitted : Guarded (step segment budget) (Admitted segment budget live home) store events) :
    Guarded (step segment budget) (CrawlSafe segment budget live) store events := by
  have hstart : ScanSound live home store := by
    intro previous startedAt hsegment hresumable
    rw [hfresh previous hsegment] at hresumable
    cases hresumable
  exact guarded_of_invariant (step segment budget) (Admitted segment budget live home)
    scanSound_step crawlSafe_of_admitted store events hstart hadmitted

/-- Two live items and a third that has been closed on GitHub, all stored as open. -/
def staleStore : CrawlStore :=
  ⟨[⟨1, true, some 0⟩, ⟨2, true, none⟩, ⟨3, true, some 0⟩], none⟩

/-- A run over the live items that meets the given failure on its first page. -/
def openDataRun (mode : BackfillMode) (now : ℕ) (failure : Option GitHubApiError) : CrawlRun where
  mode := mode
  cursor := none
  now := now
  expectedCount := some 2
  listing := fun _ => [⟨1, false⟩, ⟨2, false⟩]
  failure := fun page => if page = 1 then failure else none
  supplements := none
  interruption := none

theorem listedOn_openDataRun (segment : BackfillSegmentName) (mode : BackfillMode) (now : ℕ)
    (failure : Option GitHubApiError) {number : ℕ} (h : number ∈ ({1, 2} : Set ℕ)) :
    ListedOn (segmentOptions segment) (openDataRun mode now failure) number 1 := by
  refine ⟨Nat.one_pos, ?_, ?_⟩
  · have hdata : (pageReply (openDataRun mode now failure) 1).data = [⟨1, false⟩, ⟨2, false⟩] :=
      rfl
    rw [hdata]
    rcases h with rfl | rfl <;> cases segment <;> decide
  · intro page hpage
    obtain rfl : page = 0 := by omega
    rfl

theorem undisturbed_openDataRun (segment : BackfillSegmentName) (budget : PageBudget)
    (store : CrawlStore) (mode : BackfillMode) (now : ℕ) (failure : Option GitHubApiError)
    (hlimited : ∀ error, failure = some error → error.rateLimited = true) :
    Undisturbed (segmentOptions segment) budget ({1, 2} : Set ℕ) (fun _ _ => 1) store
      (openDataRun mode now failure) := by
  refine ⟨fun number hlive => listedOn_openDataRun segment mode now failure hlive, ?_, ?_, ?_⟩
  · intro previous _ cursor hcursor
    cases hcursor
  · intro _ page error expected hstop hother _
    have hfailing : (if page = 1 then failure else none) = some error := hstop.failing
    split_ifs at hfailing
    rw [hlimited error hfailing] at hother
    cases hother
  · intro hinterrupted
    exact absurd rfl hinterrupted

/-- A full run meets the rate limit; the run that resumes its scan closes the third item. -/
def waitingCrawl : List CrawlEvent :=
  [.backfill (openDataRun .full 10 (some ⟨true, some 20, "API rate limit exceeded"⟩)),
    .backfill (openDataRun .resume 30 none)]

theorem crawlSafe_waitingCrawl :
    (run (step .openIssues segmentPageBudget) staleStore waitingCrawl).rows =
        [⟨1, true, some 10⟩, ⟨2, true, some 10⟩, ⟨3, false, some 0⟩] ∧
      Guarded (step .openIssues segmentPageBudget)
        (CrawlSafe .openIssues segmentPageBudget ({1, 2} : Set ℕ)) staleStore waitingCrawl := by
  refine ⟨by decide, ?_⟩
  apply crawlSafe_of_guarded .openIssues segmentPageBudget _ (fun _ _ => 1) staleStore waitingCrawl
  · intro previous hsegment
    cases hsegment
  · refine ⟨undisturbed_openDataRun _ _ _ _ _ _ ?_, undisturbed_openDataRun _ _ _ _ _ _ ?_, trivial⟩
    · intro error herror
      obtain rfl := Option.some.inj herror
      rfl
    · intro error herror
      cases herror

/-- A full run whose first page fails with a server error. -/
def failedFirstPage : CrawlRun := openDataRun .full 10 (some ⟨false, none, "Bad gateway"⟩)

/-- Three open rows reach the expected total of two, so the scan that read nothing counts
as complete and closes all three, the two live ones included. -/
theorem failedFirstPage_closes_live :
    (∀ number ∈ ({1, 2} : Set ℕ),
        ListedOn (segmentOptions .openPullRequests) failedFirstPage number 1) ∧
      (step .openPullRequests segmentPageBudget staleStore (.backfill failedFirstPage)).rows =
        [⟨1, false, some 0⟩, ⟨2, false, none⟩, ⟨3, false, some 0⟩] ∧
      ¬ CrawlSafe .openPullRequests segmentPageBudget ({1, 2} : Set ℕ) staleStore
        (.backfill failedFirstPage) := by
  have hrows : (step .openPullRequests segmentPageBudget staleStore
      (.backfill failedFirstPage)).rows =
      [⟨1, false, some 0⟩, ⟨2, false, none⟩, ⟨3, false, some 0⟩] := by decide
  refine ⟨fun number h => listedOn_openDataRun _ _ _ _ h, hrows, ?_⟩
  intro hsafe
  have hopen : NotClosed staleStore.rows 1 := by
    unfold NotClosed
    decide
  have hkept := hsafe.keepsLive 1 (Or.inl rfl) hopen
  rw [hrows] at hkept
  have hfalse := hkept ⟨1, false, some 0⟩ (List.mem_cons_self ..) rfl
  cases hfalse

end Gittensory.CrawlSafety
