import Gittensory.OpenDataCrawl

/-!
One run of the open-data crawl, step by step: what upserts and the reconcile step do to
the rows of an item, what the page loop has read and where it stopped, and which rows,
status and resume page the steps from the loop to the recorded result leave.
-/
namespace Gittensory.CrawlScan

open KeyedTable OpenDataCrawl PagedRead

/-! What the scan leaves in the rows. -/

/-- No row of the item is marked closed. -/
def NotClosed (rows : List StoredItem) (number : ℕ) : Prop :=
  ∀ row ∈ rows, row.number = number → row.isOpen = true

/-- The item is stored as open and was seen at or after the given time. -/
structure SeenSince (seenOpenAt : ℕ) (rows : List StoredItem) (number : ℕ) : Prop where
  stored : ∃ row ∈ rows, row.number = number
  seen : ∀ row ∈ rows, row.number = number →
    row.isOpen = true ∧ unseenSince seenOpenAt row = false

theorem SeenSince.notClosed {seenOpenAt number : ℕ} {rows : List StoredItem}
    (h : SeenSince seenOpenAt rows number) : NotClosed rows number := by
  intro row hrow hnumber
  exact (h.seen row hrow hnumber).1

theorem mem_upsertOpenItems {seenOpenAt : ℕ} {rows : List StoredItem} {numbers : List ℕ}
    {row : StoredItem} (h : row ∈ upsertOpenItems seenOpenAt rows numbers) :
    row = rowFromGitHub seenOpenAt true row.number ∨ (row ∈ rows ∧ row.number ∉ numbers) := by
  rcases mem_foldl_upsert StoredItem.number _ rows row h with hnew | ⟨hold, hother⟩
  · left
    obtain ⟨number, _, heq⟩ := List.mem_map.mp hnew
    rw [← heq]
    rfl
  · right
    refine ⟨hold, ?_⟩
    intro hmem
    exact hother _ (List.mem_map_of_mem hmem) rfl

theorem unseenSince_rowFromGitHub (seenOpenAt number : ℕ) :
    unseenSince seenOpenAt (rowFromGitHub seenOpenAt true number) = false := by
  simp [unseenSince, rowFromGitHub]

theorem notClosed_upsertOpenItems {seenOpenAt number : ℕ} {rows : List StoredItem}
    (numbers : List ℕ) (h : NotClosed rows number) :
    NotClosed (upsertOpenItems seenOpenAt rows numbers) number := by
  intro row hrow hnumber
  rcases mem_upsertOpenItems hrow with heq | ⟨hold, _⟩
  · rw [heq]
    rfl
  · exact h row hold hnumber

theorem exists_upsertOpenItems {seenOpenAt number : ℕ} {rows : List StoredItem}
    {numbers : List ℕ} (h : (∃ row ∈ rows, row.number = number) ∨ number ∈ numbers) :
    ∃ row ∈ upsertOpenItems seenOpenAt rows numbers, row.number = number := by
  apply exists_key_foldl_upsert
  rcases h with h | h
  · exact Or.inl h
  · exact Or.inr ⟨_, List.mem_map_of_mem h, rfl⟩

theorem seenSince_upsertOpenItems {seenOpenAt number : ℕ} {rows : List StoredItem}
    (numbers : List ℕ) (h : SeenSince seenOpenAt rows number) :
    SeenSince seenOpenAt (upsertOpenItems seenOpenAt rows numbers) number := by
  refine ⟨exists_upsertOpenItems (Or.inl h.stored), ?_⟩
  intro row hrow hnumber
  rcases mem_upsertOpenItems hrow with heq | ⟨hold, _⟩
  · rw [heq]
    exact ⟨rfl, unseenSince_rowFromGitHub seenOpenAt row.number⟩
  · exact h.seen row hold hnumber

theorem seenSince_of_mem {seenOpenAt number : ℕ} (rows : List StoredItem) {numbers : List ℕ}
    (h : number ∈ numbers) :
    SeenSince seenOpenAt (upsertOpenItems seenOpenAt rows numbers) number := by
  refine ⟨exists_upsertOpenItems (Or.inr h), ?_⟩
  intro row hrow hnumber
  rcases mem_upsertOpenItems hrow with heq | ⟨_, hother⟩
  · rw [heq]
    exact ⟨rfl, unseenSince_rowFromGitHub seenOpenAt row.number⟩
  · exact absurd (hnumber ▸ h) hother

/-- The reconcile step leaves the rows that the scan has seen. -/
theorem seenSince_markUnseenOpenClosed {seenOpenAt number : ℕ} {rows : List StoredItem}
    (h : SeenSince seenOpenAt rows number) :
    SeenSince seenOpenAt (markUnseenOpenClosed seenOpenAt rows) number := by
  have hkept : ∀ row ∈ rows, row.number = number →
      (if row.isOpen ∧ unseenSince seenOpenAt row then { row with isOpen := false } else row) =
        row := by
    intro row hrow hnumber
    apply if_neg
    rw [(h.seen row hrow hnumber).2]
    simp
  constructor
  · obtain ⟨row, hrow, hnumber⟩ := h.stored
    refine ⟨row, List.mem_map.mpr ⟨row, hrow, hkept row hrow hnumber⟩, hnumber⟩
  · intro row hrow hnumber
    obtain ⟨old, hold, heq⟩ := List.mem_map.mp hrow
    have hsame : old.number = row.number := by
      rw [← heq]
      split_ifs <;> rfl
    rw [hkept old hold (hsame.trans hnumber)] at heq
    rw [← heq]
    exact h.seen old hold (hsame.trans hnumber)

/-- The rows changed by upserts of open items only. -/
def OnlyOpened (seenOpenAt : ℕ) (rows rows' : List StoredItem) : Prop :=
  ∃ numbers, rows' = upsertOpenItems seenOpenAt rows numbers

theorem upsertOpenItems_append (seenOpenAt : ℕ) (rows : List StoredItem)
    (numbers later : List ℕ) :
    upsertOpenItems seenOpenAt rows (numbers ++ later) =
      upsertOpenItems seenOpenAt (upsertOpenItems seenOpenAt rows numbers) later := by
  unfold upsertOpenItems
  rw [List.map_append, List.foldl_append]

theorem OnlyOpened.refl (seenOpenAt : ℕ) (rows : List StoredItem) :
    OnlyOpened seenOpenAt rows rows := ⟨[], rfl⟩

theorem OnlyOpened.trans {seenOpenAt : ℕ} {first second third : List StoredItem}
    (h : OnlyOpened seenOpenAt first second) (h' : OnlyOpened seenOpenAt second third) :
    OnlyOpened seenOpenAt first third := by
  obtain ⟨numbers, hnumbers⟩ := h
  obtain ⟨later, hlater⟩ := h'
  refine ⟨numbers ++ later, ?_⟩
  rw [hlater, hnumbers, upsertOpenItems_append]

theorem OnlyOpened.notClosed {seenOpenAt number : ℕ} {rows rows' : List StoredItem}
    (h : OnlyOpened seenOpenAt rows rows') (hopen : NotClosed rows number) :
    NotClosed rows' number := by
  obtain ⟨numbers, hnumbers⟩ := h
  rw [hnumbers]
  exact notClosed_upsertOpenItems numbers hopen

theorem OnlyOpened.seenSince {seenOpenAt number : ℕ} {rows rows' : List StoredItem}
    (h : OnlyOpened seenOpenAt rows rows') (hseen : SeenSince seenOpenAt rows number) :
    SeenSince seenOpenAt rows' number := by
  obtain ⟨numbers, hnumbers⟩ := h
  rw [hnumbers]
  exact seenSince_upsertOpenItems numbers hseen

/-! The page loop. -/

/-- The reply to a page request, if it is answered. -/
def request (crawl : CrawlRun) (page : ℕ) : Option (Page GitHubItem) :=
  match crawl.failure page with
  | some _ => none
  | none => some (pageReply crawl page)

def fails (crawl : CrawlRun) (page : ℕ) : Bool := (crawl.failure page).isSome

/-- The loop from `first` stops at a failing request for `page`. -/
structure StopsAt (crawl : CrawlRun) (first budget page : ℕ) (failure : GitHubApiError) :
    Prop where
  reached : first ≤ page
  withinBudget : page < first + budget
  failing : crawl.failure page = some failure
  before : ∀ q, first ≤ q → q < page → fails crawl q = false ∧ (pageReply crawl q).hasNext = true

variable (options : SegmentOptions)

theorem persistPage_append (startedAt : ℕ) (rows : List StoredItem)
    (items later : List GitHubItem) :
    persistPage options startedAt rows (items ++ later) =
      persistPage options startedAt (persistPage options startedAt rows items) later := by
  unfold persistPage persistedNumbers
  rw [List.filter_append, List.map_append, upsertOpenItems_append]

/-- The loop stores the items of the pages it reads. -/
theorem scanPages_rows (crawl : CrawlRun) (startedAt budget page : ℕ) (scan : Scan) :
    (scanPages options crawl startedAt budget page scan).rows =
      persistPage options startedAt scan.rows (readPages (request crawl) budget page) := by
  induction budget generalizing page scan with
  | zero => rfl
  | succ budget ih =>
    cases hfailure : crawl.failure page with
    | some failure =>
      have hnone : request crawl page = none := by simp [request, hfailure]
      rw [readPages_of_none hnone]
      simp [scanPages, hfailure, persistPage, persistedNumbers, upsertOpenItems]
    | none =>
      have hsome : request crawl page = some (pageReply crawl page) := by
        simp [request, hfailure]
      rw [readPages_of_some hsome]
      simp only [scanPages, hfailure]
      by_cases hnext : (pageReply crawl page).hasNext = true
      · rw [if_pos hnext, if_pos hnext, ih, persistPage_append]
        rfl
      · rw [if_neg hnext, if_neg hnext, List.append_nil]
        rfl

/-- The resume page is at most one behind the last page that was answered. -/
theorem scanPages_nextCursor_le (crawl : CrawlRun) (startedAt budget page : ℕ) (scan : Scan)
    (hscan : ∀ cursor, scan.nextCursor = some cursor → cursor ≤ page) (cursor : ℕ)
    (h : (scanPages options crawl startedAt budget page scan).nextCursor = some cursor) :
    cursor ≤ page + servedPages (fails crawl) budget page := by
  induction budget generalizing page scan with
  | zero =>
    have := hscan cursor h
    omega
  | succ budget ih =>
    simp only [scanPages] at h
    cases hfailure : crawl.failure page with
    | some failure =>
      rw [hfailure] at h
      have := hscan cursor h
      omega
    | none =>
      have hserved : servedPages (fails crawl) (budget + 1) page =
          servedPages (fails crawl) budget (page + 1) + 1 := by
        simp [servedPages, fails, hfailure]
      rw [hfailure] at h
      dsimp only at h
      by_cases hnext : (pageReply crawl page).hasNext = true
      · rw [if_pos hnext] at h
        have := ih (page + 1) _ (by simp [readPage, hnext]) h
        omega
      · rw [if_neg hnext] at h
        simp only [readPage, if_neg hnext] at h
        have := hscan cursor h
        omega

/-- A loop that ends neither by a failure nor by its budget has read the last page. -/
theorem scanPages_last (crawl : CrawlRun) (startedAt budget page : ℕ) (scan : Scan)
    (hbudget : 0 < budget)
    (hfailure : (scanPages options crawl startedAt budget page scan).failure = none)
    (hmore : (scanPages options crawl startedAt budget page scan).hasMore = false) :
    ∃ last, page ≤ last ∧ last < page + servedPages (fails crawl) budget page ∧
      (pageReply crawl last).hasNext = false := by
  induction budget generalizing page scan with
  | zero => omega
  | succ budget ih =>
    simp only [scanPages] at hfailure hmore
    cases hpage : crawl.failure page with
    | some failure =>
      rw [hpage] at hfailure
      cases hfailure
    | none =>
      have hserved : servedPages (fails crawl) (budget + 1) page =
          servedPages (fails crawl) budget (page + 1) + 1 := by
        simp [servedPages, fails, hpage]
      rw [hpage] at hfailure hmore
      dsimp only at hfailure hmore
      by_cases hnext : (pageReply crawl page).hasNext = true
      · rw [if_pos hnext] at hfailure hmore
        cases budget with
        | zero => simp [scanPages, readPage, hnext] at hmore
        | succ budget =>
          obtain ⟨last, hfirst, hlast, hend⟩ := ih (page + 1) _ (by omega) hfailure hmore
          exact ⟨last, by omega, by omega, hend⟩
      · exact ⟨page, Nat.le_refl page, by omega, by simpa using hnext⟩

theorem scanPages_stopsAt (crawl : CrawlRun) (startedAt budget page : ℕ) (scan : Scan)
    (hscan : scan.failure = none) (failure : GitHubApiError)
    (h : (scanPages options crawl startedAt budget page scan).failure = some failure) :
    ∃ stop, StopsAt crawl page budget stop failure := by
  induction budget generalizing page scan with
  | zero =>
    rw [scanPages, hscan] at h
    cases h
  | succ budget ih =>
    simp only [scanPages] at h
    cases hpage : crawl.failure page with
    | some first =>
      rw [hpage] at h
      obtain rfl : first = failure := Option.some.inj h
      refine ⟨page, Nat.le_refl page, by omega, hpage, ?_⟩
      intro q hfirst hq
      omega
    | none =>
      rw [hpage] at h
      dsimp only at h
      by_cases hnext : (pageReply crawl page).hasNext = true
      · rw [if_pos hnext] at h
        have hread : (readPage options startedAt page scan (pageReply crawl page)).failure = none :=
          hscan
        obtain ⟨stop, hstop⟩ := ih (page + 1) _ hread h
        refine ⟨stop, ?_, ?_, hstop.failing, ?_⟩
        · have := hstop.reached
          omega
        · have := hstop.withinBudget
          omega
        · intro q hfirst hq
          by_cases heq : q = page
          · rw [heq]
            exact ⟨by simp [fails, hpage], hnext⟩
          · exact hstop.before q (by omega) hq
      · rw [if_neg hnext] at h
        simp only [readPage, hscan] at h
        cases h

/-! One run. -/

/-- The item stays on its page of the listing: that page lists it when it is requested, and
no page before it is the last one. -/
structure ListedOn (crawl : CrawlRun) (number home : ℕ) : Prop where
  counted : 0 < home
  listed : number ∈ persistedNumbers options (pageReply crawl home).data
  behind : ∀ page, page < home → (pageReply crawl page).hasNext = true

/-- The item has been seen by the scan, or its page is still to come. -/
def SeenOrAhead (startedAt : ℕ) (rows : List StoredItem) (number home page : ℕ) : Prop :=
  SeenSince startedAt rows number ∨ page ≤ home

variable {options}

theorem SeenOrAhead.of_le {startedAt number home page page' : ℕ} {rows : List StoredItem}
    (h : SeenOrAhead startedAt rows number home page) (hle : page' ≤ page) :
    SeenOrAhead startedAt rows number home page' := by
  rcases h with h | h
  · exact Or.inl h
  · exact Or.inr (by omega)

theorem SeenOrAhead.onlyOpened {startedAt number home page : ℕ} {rows rows' : List StoredItem}
    (h : SeenOrAhead startedAt rows number home page) (hopened : OnlyOpened startedAt rows rows') :
    SeenOrAhead startedAt rows' number home page := by
  rcases h with h | h
  · exact Or.inl (hopened.seenSince h)
  · exact Or.inr h

/-- An item on a page that was answered is among the items read. -/
theorem ListedOn.read {crawl : CrawlRun} {number home budget page : ℕ}
    (h : ListedOn options crawl number home) (hpage : page ≤ home)
    (hserved : home < page + servedPages (fails crawl) budget page) :
    number ∈ persistedNumbers options (readPages (request crawl) budget page) := by
  have hanswered : ∀ q, page ≤ q → q ≤ home → request crawl q = some (pageReply crawl q) := by
    intro q hq hhome
    have hlt : q < page + servedPages (fails crawl) budget page := by omega
    have hfails : fails crawl q = false := served_of_lt hq hlt
    have hnone : crawl.failure q = none := by simpa [fails] using hfails
    simp [request, hnone]
  obtain ⟨item, hitem, hnumber⟩ := List.mem_map.mp h.listed
  obtain ⟨hdata, hpersists⟩ := List.mem_filter.mp hitem
  have hbudget := servedPages_le (fails crawl) budget page
  have hread : item ∈ readPages (request crawl) budget page := by
    apply mem_readPages hpage (by omega)
    · intro q hq hbefore
      exact ⟨_, hanswered q hq (by omega), h.behind q hbefore⟩
    · exact ⟨_, hanswered home hpage (Nat.le_refl home), hdata⟩
  exact List.mem_map.mpr ⟨item, List.mem_filter.mpr ⟨hread, hpersists⟩, hnumber⟩

/-- The loop invariant: reading on, every item is seen or ahead of the pages read. -/
theorem scanPages_seenOrAhead {crawl : CrawlRun} {startedAt number home budget page : ℕ}
    {scan : Scan} (hlisted : ListedOn options crawl number home)
    (h : SeenOrAhead startedAt scan.rows number home page) :
    SeenOrAhead startedAt (scanPages options crawl startedAt budget page scan).rows number home
      (page + servedPages (fails crawl) budget page) := by
  rw [scanPages_rows]
  by_cases hahead : page + servedPages (fails crawl) budget page ≤ home
  · exact Or.inr hahead
  · left
    rcases h with hseen | hpage
    · exact seenSince_upsertOpenItems _ hseen
    · exact seenSince_of_mem _ (hlisted.read hpage (by omega))

theorem supplementUnderCountIfNeeded_onlyOpened (startedAt : ℕ) (expectedCount : Option ℕ)
    (supplement : Option GraphQlReply) (outcome : Outcome) :
    OnlyOpened startedAt outcome.rows
      (supplementUnderCountIfNeeded options startedAt expectedCount supplement outcome).rows := by
  cases expectedCount with
  | none => exact OnlyOpened.refl startedAt outcome.rows
  | some expected =>
    cases supplement with
    | none => exact OnlyOpened.refl startedAt outcome.rows
    | some reply =>
      unfold supplementUnderCountIfNeeded
      dsimp only
      split_ifs
      · exact OnlyOpened.refl startedAt outcome.rows
      · unfold runSupplement supplementOpenFromGraphQl
        dsimp only
        cases reply.failure <;> exact ⟨_, rfl⟩

@[simp] theorem checkExpectedTotal_rows (expectedCount : Option ℕ) (outcome : Outcome) :
    (checkExpectedTotal options expectedCount outcome).rows = outcome.rows := by
  unfold checkExpectedTotal
  cases expectedCount with
  | none => rfl
  | some expected => dsimp only; split_ifs <;> rfl

@[simp] theorem upgradeLateError_rows (expectedCount : Option ℕ) (outcome : Outcome) :
    (upgradeLateError options expectedCount outcome).rows = outcome.rows := by
  unfold upgradeLateError
  cases expectedCount with
  | none => rfl
  | some expected => dsimp only; split_ifs <;> rfl

theorem finishPages_onlyOpened (startedAt : ℕ) (expectedCount : Option ℕ)
    (supplement : Option GraphQlReply) (outcome : Outcome) :
    OnlyOpened startedAt outcome.rows
      (finishPages options startedAt expectedCount supplement outcome).rows := by
  unfold finishPages
  split_ifs
  · exact OnlyOpened.refl startedAt outcome.rows
  · rw [checkExpectedTotal_rows]
    exact supplementUnderCountIfNeeded_onlyOpened startedAt expectedCount supplement outcome
  · exact OnlyOpened.refl startedAt outcome.rows

/-- A run that reaches the reconcile step did so with the status of its upgraded scan. -/
theorem finished_of_finishPages {startedAt : ℕ} {expectedCount : Option ℕ}
    {supplement : Option GraphQlReply} {outcome : Outcome}
    (h : (finishPages options startedAt expectedCount supplement outcome).finished = true) :
    outcome.status = .complete ∧ outcome.hasMore = false := by
  unfold finishPages at h
  by_cases hstatus : outcome.status = .complete
  · rw [if_pos hstatus] at h
    refine ⟨hstatus, ?_⟩
    by_cases hmore : outcome.hasMore = true
    · simp [hmore, Outcome.finished] at h
    · simpa using hmore
  · rw [if_neg hstatus] at h
    simp [Outcome.finished, hstatus] at h

/-- Only a scan that read its last page counts as complete, unless a late error is upgraded. -/
theorem finished_of_upgradeLateError {expectedCount : Option ℕ} {scan : Scan}
    (hlate : ∀ failure expected, scan.failure = some failure → failure.rateLimited = false →
      expectedCount = some expected → countOpen scan.rows < expected)
    (h : (upgradeLateError options expectedCount (outcomeOfScan options scan)).status = .complete ∧
      (upgradeLateError options expectedCount (outcomeOfScan options scan)).hasMore = false) :
    scan.failure = none ∧ scan.hasMore = false := by
  have hkept : upgradeLateError options expectedCount (outcomeOfScan options scan) =
      outcomeOfScan options scan := by
    unfold upgradeLateError
    cases expectedCount with
    | none => rfl
    | some expected =>
      apply if_neg
      intro hupgrade
      obtain ⟨hstatus, hreached⟩ := hupgrade
      have hfailed : ∃ failure, scan.failure = some failure ∧ failure.rateLimited = false := by
        unfold outcomeOfScan scanStatus at hstatus
        cases hfailure : scan.failure with
        | none => simp [hfailure] at hstatus
        | some failure =>
          refine ⟨failure, rfl, ?_⟩
          cases hlimited : failure.rateLimited with
          | false => rfl
          | true => simp [hfailure, hlimited] at hstatus
      obtain ⟨failure, hfailure, hlimited⟩ := hfailed
      have hbelow := hlate failure expected hfailure hlimited rfl
      unfold outcomeOfScan at hreached
      dsimp only at hreached
      omega
  rw [hkept] at h
  refine ⟨?_, h.2⟩
  have hstatus := h.1
  unfold outcomeOfScan scanStatus at hstatus
  cases hfailure : scan.failure with
  | none => rfl
  | some failure =>
    rw [hfailure] at hstatus
    dsimp only at hstatus
    split_ifs at hstatus

@[simp] theorem supplementUnderCountIfNeeded_nextCursor (startedAt : ℕ)
    (expectedCount : Option ℕ) (supplement : Option GraphQlReply) (outcome : Outcome) :
    (supplementUnderCountIfNeeded options startedAt expectedCount supplement outcome).nextCursor =
      outcome.nextCursor := by
  cases expectedCount with
  | none => rfl
  | some expected =>
    cases supplement with
    | none => rfl
    | some reply =>
      unfold supplementUnderCountIfNeeded runSupplement
      dsimp only
      by_cases hcount : expected ≤ outcome.fetchedCount
      · rw [if_pos hcount]
      · rw [if_neg hcount]
        cases reply.failure <;> rfl

@[simp] theorem checkExpectedTotal_nextCursor (expectedCount : Option ℕ) (outcome : Outcome) :
    (checkExpectedTotal options expectedCount outcome).nextCursor = outcome.nextCursor := by
  unfold checkExpectedTotal
  cases expectedCount with
  | none => rfl
  | some expected => dsimp only; split_ifs <;> rfl

@[simp] theorem finishPages_nextCursor (startedAt : ℕ) (expectedCount : Option ℕ)
    (supplement : Option GraphQlReply) (outcome : Outcome) :
    (finishPages options startedAt expectedCount supplement outcome).nextCursor =
      outcome.nextCursor := by
  unfold finishPages
  split_ifs
  · rfl
  · simp
  · rfl

@[simp] theorem reconcileOnComplete_nextCursor (startedAt : ℕ) (expectedCount : Option ℕ)
    (supplement : Option GraphQlReply) (outcome : Outcome) :
    (reconcileOnComplete options startedAt expectedCount supplement outcome).nextCursor =
      outcome.nextCursor := by
  unfold reconcileOnComplete
  split_ifs
  · simp [closeUnseen]
  · rfl

theorem nextCursor_of_upgradeLateError {expectedCount : Option ℕ} {outcome : Outcome}
    {cursor : ℕ}
    (h : (upgradeLateError options expectedCount outcome).nextCursor = some cursor) :
    outcome.nextCursor = some cursor := by
  unfold upgradeLateError at h
  cases expectedCount with
  | none => exact h
  | some expected =>
    dsimp only at h
    split_ifs at h
    exact h

theorem reconcileOnComplete_of_unfinished {startedAt : ℕ} {expectedCount : Option ℕ}
    {supplement : Option GraphQlReply} {outcome : Outcome} (h : outcome.finished = false) :
    reconcileOnComplete options startedAt expectedCount supplement outcome = outcome := by
  unfold reconcileOnComplete
  rw [h]
  rfl

/-- What the scan has seen is open after the reconcile step as well. -/
theorem seenSince_reconcileOnComplete {startedAt number : ℕ} {expectedCount : Option ℕ}
    {supplement : Option GraphQlReply} {outcome : Outcome}
    (h : SeenSince startedAt outcome.rows number) :
    SeenSince startedAt
      (reconcileOnComplete options startedAt expectedCount supplement outcome).rows number := by
  unfold reconcileOnComplete
  split_ifs
  · rw [checkExpectedTotal_rows]
    have hclosed : SeenSince startedAt (closeUnseen options startedAt outcome).rows number :=
      seenSince_markUnseenOpenClosed h
    exact (supplementUnderCountIfNeeded_onlyOpened startedAt expectedCount supplement _).seenSince
      hclosed
  · exact h

end Gittensory.CrawlScan
