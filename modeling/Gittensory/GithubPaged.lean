import Gittensory.OpenDataCrawl

/-!
The capped crawl of a listing, `githubPaged` of `github/backfill.ts`. The last request asks
for a smaller page, but the page number goes on counting in pages of the old size. So a limit
above one page that ends inside a page reads items again, and its cursor skips some; every
other crawl reads the first items of the listing and can be resumed.
-/
namespace Gittensory.GithubPaged

open OpenDataCrawl PagedRead

variable {α : Type}

/-- The answer to one request. -/
structure Reply (α : Type) where
  data : List α
  hasNext : Bool
  etag : Option String
  lastModified : Option String

/-- What the loop keeps. -/
structure Progress (α : Type) where
  items : List α := []
  warnings : List String := []
  pageCount : ℕ := 0
  nextCursor : Option ℕ := none
  lastCursor : Option ℕ := none
  etag : Option String := none
  lastModified : Option String := none
  rateLimitResetAt : Option ℕ := none
  status : SegmentStatus := .complete

structure SegmentResult where
  status : SegmentStatus
  fetchedCount : ℕ
  expectedCount : Option ℕ
  pageCount : ℕ
  lastCursor : Option ℕ
  nextCursor : Option ℕ
  etag : Option String
  lastModified : Option String
  warnings : List String
  errorSummary : Option String
  rateLimitResetAt : Option ℕ

structure PagedResult (α : Type) where
  items : List α
  warnings : List String
  segment : SegmentResult
  fetchedCount : ℕ

/-- A page size and a page number, answered or failed. An error that is no `GitHubApiError`
is one without a rate limit. -/
abbrev Request (α : Type) := ℕ → ℕ → Except GitHubApiError (Reply α)

section Crawl

variable (request : Request α) (path : String) (limit : ℕ)

def cappedAt (cursor : ℕ) : String :=
  "GitHub sync reached local cap of " ++ toString limit ++ " item(s) for " ++ path ++
    "; next page cursor is " ++ toString cursor ++ "."

def failedWith (progress : Progress α) (error : GitHubApiError) : Progress α :=
  { progress with
    status := if error.rateLimited then .rateLimited
      else if progress.items.length > 0 then .partialScan
      else .error
    rateLimitResetAt := error.rateLimitResetAt
    warnings := progress.warnings ++
      ["GitHub sync failed for " ++ path ++ ": " ++ errorMessage error.message] }

/-- What a page adds. -/
def Progress.read (progress : Progress α) (page : ℕ) (result : Reply α) : Progress α :=
  { progress with
    etag := result.etag.or progress.etag
    lastModified := result.lastModified.or progress.lastModified
    lastCursor := some page
    pageCount := progress.pageCount + 1
    items := progress.items ++ result.data }

/-- The step to the next page. -/
def Progress.turn (progress : Progress α) (page : ℕ) : Progress α :=
  let turned := { progress with nextCursor := some (page + 1) }
  if turned.items.length ≥ limit then
    { turned with status := .capped, warnings := turned.warnings ++ [cappedAt path limit (page + 1)] }
  else turned

theorem items_turn (progress : Progress α) (page : ℕ) :
    (progress.turn path limit page).items = progress.items := by
  unfold Progress.turn
  dsimp only
  split_ifs <;> rfl

theorem nextCursor_turn (progress : Progress α) (page : ℕ) :
    (progress.turn path limit page).nextCursor = some (page + 1) := by
  unfold Progress.turn
  dsimp only
  split_ifs <;> rfl

/-- A page that does not end the loop is full, so that every round brings the limit nearer. -/
def crawlPages (page : ℕ) (progress : Progress α) : Progress α :=
  if _ : progress.items.length < limit then
    let pageLimit := min 100 (limit - progress.items.length)
    match request pageLimit page with
    | .error error => failedWith path progress error
    | .ok result =>
        let read := progress.read page result
        if _ : result.data.length < pageLimit ∨ result.hasNext = false then read
        else crawlPages (page + 1) (read.turn path limit page)
  else progress
termination_by limit - progress.items.length
decreasing_by
  rw [items_turn]
  simp only [Progress.read, List.length_append]
  omega

def startPage (mode : BackfillMode) (previous : Option RepoSyncSegmentRecord) : ℕ :=
  if mode = .resume then (previous.bind (·.nextCursor)).getD 1 else 1

/-- `previous` is what `getRepoSyncSegment` finds. -/
def githubPaged (mode : BackfillMode) (previous : Option RepoSyncSegmentRecord) : PagedResult α :=
  let priorFetched := if mode = .resume then (previous.map (·.fetchedCount)).getD 0 else 0
  let crawled := crawlPages request path limit (startPage mode previous) {}
  let ended :=
    if crawled.status = .complete ∧ crawled.items.length ≥ limit ∧ limit > 0 then
      { crawled with
        status := .capped
        nextCursor := crawled.nextCursor.or
          (some (startPage mode previous + max crawled.pageCount 1))
        warnings := crawled.warnings ++
          ["GitHub sync reached local cap of " ++ toString limit ++ " item(s) for " ++ path ++ "."] }
    else crawled
  let fetchedCount := priorFetched + ended.items.length
  { items := ended.items
    warnings := ended.warnings
    segment :=
      { status := ended.status
        fetchedCount
        expectedCount := if ended.status = .complete then some fetchedCount else none
        pageCount := ended.pageCount
        lastCursor := ended.lastCursor
        nextCursor := ended.nextCursor
        etag := ended.etag
        lastModified := ended.lastModified
        warnings := ended.warnings
        errorSummary := if ended.status = .error ∨ ended.status = .rateLimited
          then ended.warnings.getLast? else none
        rateLimitResetAt := ended.rateLimitResetAt }
    fetchedCount }

end Crawl

/-! ## A listing that does not change -/

section Unchanged

variable (listing : List α) (headers : Option String × Option String)

/-- A page of the size asked for. -/
def servedPage (pageLimit page : ℕ) : Reply α where
  data := (pageOf pageLimit listing page).data
  hasNext := (pageOf pageLimit listing page).hasNext
  etag := headers.1
  lastModified := headers.2

def serveListing : Request α := fun pageLimit page => .ok (servedPage listing headers pageLimit page)

theorem data_servedPage (pageLimit page : ℕ) :
    (servedPage listing headers pageLimit (page + 1)).data =
      (listing.drop (pageLimit * page)).take pageLimit := rfl

variable {listing headers} {path : String} {limit size : ℕ} {progress : Progress α}

/-- A page with a next one is full. -/
theorem last_servedPage_iff {pageLimit page : ℕ} :
    (servedPage listing headers pageLimit (page + 1)).data.length < pageLimit ∨
        (servedPage listing headers pageLimit (page + 1)).hasNext = false ↔
      ¬ pageLimit * (page + 1) < listing.length := by
  have hnext : (servedPage listing headers pageLimit (page + 1)).hasNext =
      decide (pageLimit * (page + 1) < listing.length) := rfl
  rw [data_servedPage, hnext, List.length_take, List.length_drop, decide_eq_false_iff_not]
  constructor
  · rintro (hshort | hlast)
    · rw [Nat.mul_add_one]
      omega
    · exact hlast
  · exact Or.inr

/-- A round of the loop: a page is read, and another one asked for if there is one. -/
theorem crawlPages_serve {pageLimit page : ℕ} (hroom : progress.items.length < limit)
    (hpage : min 100 (limit - progress.items.length) = pageLimit) :
    crawlPages (serveListing listing headers) path limit (page + 1) progress =
      if pageLimit * (page + 1) < listing.length then
        crawlPages (serveListing listing headers) path limit (page + 2)
          ((progress.read (page + 1)
            (servedPage listing headers pageLimit (page + 1))).turn path limit (page + 1))
      else progress.read (page + 1) (servedPage listing headers pageLimit (page + 1)) := by
  rw [crawlPages, dif_pos hroom, hpage]
  dsimp only [serveListing]
  by_cases hnext : pageLimit * (page + 1) < listing.length
  · rw [dif_neg (not_not.mpr hnext ∘ last_servedPage_iff.mp), if_pos hnext]
  · rw [dif_pos (last_servedPage_iff.mpr hnext), if_neg hnext]

theorem crawlPages_full {request : Request α} (h : limit ≤ progress.items.length) (page : ℕ) :
    crawlPages request path limit page progress = progress := by
  rw [crawlPages, dif_neg (Nat.not_lt.mpr h)]

/-- After so many pages of one size. -/
structure Aligned (listing : List α) (size pages : ℕ) (progress : Progress α) : Prop where
  items : progress.items = listing.take (size * pages)
  nextCursor : 0 < pages → progress.nextCursor = some (pages + 1)

theorem Aligned.length {pages : ℕ} (h : Aligned listing size pages progress)
    (hread : size * pages ≤ listing.length) : progress.items.length = size * pages := by
  rw [h.items, List.length_take_of_le hread]

theorem take_append_servedPage (pages : ℕ) :
    listing.take (size * pages) ++ (servedPage listing headers size (pages + 1)).data =
      listing.take (size * (pages + 1)) := by
  rw [data_servedPage, Nat.mul_add_one, List.take_add]

variable (headers path)

/-- A page that has a next one. -/
theorem Aligned.step {pages : ℕ} (h : Aligned listing size pages progress)
    (hroom : size * pages < limit) (hsize : min 100 (limit - size * pages) = size)
    (hnext : size * (pages + 1) < listing.length) :
    ∃ next, Aligned listing size (pages + 1) next ∧
      crawlPages (serveListing listing headers) path limit (pages + 1) progress =
        crawlPages (serveListing listing headers) path limit (pages + 2) next := by
  have hlength := h.length (by rw [Nat.mul_add_one] at hnext; omega)
  rw [← hlength] at hroom hsize
  refine ⟨_, ⟨?_, fun _ => nextCursor_turn path limit _ _⟩,
    (crawlPages_serve hroom hsize).trans (if_pos hnext)⟩
  rw [items_turn, Progress.read, h.items, take_append_servedPage]

/-- The last page of the listing. -/
theorem Aligned.last {pages : ℕ} (h : Aligned listing size pages progress)
    (hroom : size * pages < limit) (hsize : min 100 (limit - size * pages) = size)
    (hread : size * pages ≤ listing.length) (hlast : listing.length ≤ size * (pages + 1)) :
    (crawlPages (serveListing listing headers) path limit (pages + 1) progress).items =
      listing := by
  rw [← h.length hread] at hroom hsize
  rw [crawlPages_serve hroom hsize, if_neg (Nat.not_lt.mpr hlast), Progress.read, h.items,
    take_append_servedPage, List.take_of_length_le hlast]

/-- The crawl after so many pages of one size. -/
theorem exists_aligned {pages : ℕ} (hfirst : size * pages < listing.length ∨ pages = 0)
    (hsize : ∀ page < pages, size * page < limit ∧ min 100 (limit - size * page) = size) :
    ∃ progress, Aligned listing size pages progress ∧
      crawlPages (serveListing listing headers) path limit 1 {} =
        crawlPages (serveListing listing headers) path limit (pages + 1) progress := by
  induction pages with
  | zero => exact ⟨{}, ⟨rfl, fun h => absurd h (Nat.lt_irrefl 0)⟩, rfl⟩
  | succ pages ih =>
    have hnext := hfirst.resolve_right (Nat.succ_ne_zero pages)
    have hbefore : size * pages < listing.length ∨ pages = 0 := by
      rw [Nat.mul_add_one] at hnext
      omega
    obtain ⟨progress, haligned, hcrawl⟩ :=
      ih hbefore fun page hpage => hsize page (Nat.lt_succ_of_lt hpage)
    obtain ⟨hroom, hpage⟩ := hsize pages (Nat.lt_succ_self pages)
    obtain ⟨next, hstep, hnextCrawl⟩ := haligned.step headers path hroom hpage hnext
    exact ⟨next, hstep, hcrawl.trans hnextCrawl⟩

/-! ## The result -/

variable {headers path} {mode : BackfillMode} {previous : Option RepoSyncSegmentRecord}

theorem items_githubPaged (request : Request α) :
    (githubPaged request path limit mode previous).items =
      (crawlPages request path limit (startPage mode previous) {}).items := by
  unfold githubPaged
  dsimp only
  split_ifs <;> rfl

theorem nextCursor_githubPaged {request : Request α} {cursor : ℕ}
    (h : (crawlPages request path limit (startPage mode previous) {}).nextCursor = some cursor) :
    (githubPaged request path limit mode previous).segment.nextCursor = some cursor := by
  unfold githubPaged
  dsimp only
  split_ifs
  · dsimp only
    rw [h]
    rfl
  · exact h

/-- The first items of the listing are read, and the page that the cursor names holds the
items after them. -/
structure ReadsPrefix (listing : List α) (limit : ℕ) (result : PagedResult α) : Prop where
  items : result.items = listing.take limit
  resumes : limit < listing.length → ∃ cursor, result.segment.nextCursor = some cursor ∧
    (pageOf (min 100 limit) listing cursor).data = (listing.drop limit).take (min 100 limit)

/-- A listing that ends before the limit, in a page of full size. -/
theorem items_of_short (hfirst : startPage mode previous = 1) (hpositive : 0 < size)
    (hsize : ∀ page, size * page < listing.length ∨ page = 0 →
      size * page < limit ∧ min 100 (limit - size * page) = size) :
    (githubPaged (serveListing listing headers) path limit mode previous).items = listing := by
  have hbefore : size * ((listing.length - 1) / size) ≤ listing.length - 1 := Nat.mul_div_le _ _
  have hafter : listing.length - 1 < size * ((listing.length - 1) / size + 1) :=
    Nat.lt_mul_div_succ _ hpositive
  have hlast : size * ((listing.length - 1) / size) < listing.length ∨
      (listing.length - 1) / size = 0 := by
    rcases Nat.eq_zero_or_pos listing.length with hempty | hsome
    · right
      rw [hempty, Nat.zero_sub, Nat.zero_div]
    · omega
  generalize (listing.length - 1) / size = pages at hbefore hafter hlast
  obtain ⟨progress, haligned, hcrawl⟩ := exists_aligned headers path hlast fun page hpage =>
    hsize page (Or.inl (by
      have hmono : size * page < size * pages := (Nat.mul_lt_mul_left hpositive).mpr hpage
      omega))
  obtain ⟨hroom, hpage⟩ := hsize pages hlast
  rw [items_githubPaged, hfirst, hcrawl]
  exact haligned.last headers path hroom hpage (by omega) (by omega)

/-- A listing that goes on after the limit, which is a number of whole pages. -/
theorem readsPrefix_of_long {pages : ℕ} (hfirst : startPage mode previous = 1)
    (hpages : 0 < pages) (hlimit : size * pages = limit) (hlong : limit < listing.length)
    (hsize : ∀ page < pages, size * page < limit ∧ min 100 (limit - size * page) = size) :
    ReadsPrefix listing limit
      (githubPaged (serveListing listing headers) path limit mode previous) := by
  have hmore : size * pages < listing.length ∨ pages = 0 := Or.inl (by omega)
  obtain ⟨progress, haligned, hcrawl⟩ := exists_aligned headers path hmore hsize
  have hlength := haligned.length (by omega)
  have hfull : limit ≤ progress.items.length := by omega
  rw [crawlPages_full hfull, ← hfirst] at hcrawl
  refine ⟨?_, fun _ => ⟨pages + 1, ?_, ?_⟩⟩
  · rw [items_githubPaged, hcrawl, haligned.items, hlimit]
  · exact nextCursor_githubPaged (by rw [hcrawl, haligned.nextCursor hpages])
  · have hpage := (hsize 0 hpages).2
    rw [Nat.mul_zero, Nat.sub_zero] at hpage
    rw [hpage, pageOf, Nat.add_sub_cancel, hlimit]

/-- A smaller page behind full ones is counted in its own size, and reads items again. -/
theorem not_nodup_of_uneven (hfirst : startPage mode previous = 1) (hlarge : 100 < limit)
    (huneven : ¬ 100 ∣ limit) (hlong : 100 * (limit / 100) < listing.length) :
    ¬ (githubPaged (serveListing listing headers) path limit mode previous).items.Nodup := by
  have hrest : 0 < limit % 100 :=
    Nat.pos_of_ne_zero fun hzero => huneven (Nat.dvd_of_mod_eq_zero hzero)
  have hsplit := Nat.div_add_mod limit 100
  have hsmall := Nat.mod_lt limit (show 0 < 100 by omega)
  generalize limit / 100 = pages at hsplit hlong
  generalize limit % 100 = rest at hsplit hsmall hrest
  have hsize : ∀ page < pages, 100 * page < limit ∧ min 100 (limit - 100 * page) = 100 :=
    fun page hpage => by omega
  obtain ⟨progress, haligned, hcrawl⟩ := exists_aligned headers path (Or.inl hlong) hsize
  have hlength := haligned.length (Nat.le_of_lt hlong)
  have hround := @crawlPages_serve _ listing headers path limit progress rest pages (by omega)
    (by omega)
  have hitems : (githubPaged (serveListing listing headers) path limit mode previous).items =
      listing.take (100 * pages) ++ (listing.drop (rest * pages)).take rest := by
    rw [items_githubPaged, hfirst, hcrawl, hround, ← haligned.items]
    split_ifs with hnext
    · rw [crawlPages_full, items_turn]
      · rfl
      · rw [items_turn, Progress.read, List.length_append, data_servedPage, List.length_take,
          List.length_drop]
        rw [Nat.mul_add_one] at hnext
        omega
    · rfl
  have hagain : rest * pages < 100 * pages :=
    (Nat.mul_lt_mul_right (by omega)).mpr hsmall
  have htwice : ∀ item, listing[rest * pages]? = some item →
      item ∈ listing.take (100 * pages) ∧ item ∈ (listing.drop (rest * pages)).take rest := by
    intro item hitem
    constructor
    · exact List.mem_of_getElem? ((List.getElem?_take_of_lt hagain).trans hitem)
    · apply List.mem_of_getElem? (i := 0)
      rw [List.getElem?_take_of_lt hrest, List.getElem?_drop, Nat.add_zero, hitem]
  rw [hitems, List.nodup_append]
  intro hnodup
  obtain ⟨hone, htwo⟩ := htwice _ (List.getElem?_eq_getElem (by omega))
  exact hnodup.2.2 _ hone _ htwo rfl

/-- The crawl reads the first items just where its last page is no smaller page behind
others. -/
theorem readsPrefix_iff (hdistinct : listing.Nodup) (hlimit : 0 < limit)
    (hfirst : startPage mode previous = 1) :
    ReadsPrefix listing limit
        (githubPaged (serveListing listing headers) path limit mode previous) ↔
      limit ≤ 100 ∨ 100 ∣ limit ∨ listing.length ≤ 100 * (limit / 100) := by
  constructor
  · intro h
    by_contra hnot
    rw [not_or, not_or, Nat.not_le, Nat.not_le] at hnot
    obtain ⟨hlarge, huneven, hlong⟩ := hnot
    apply not_nodup_of_uneven hfirst hlarge huneven hlong
    rw [h.items]
    exact hdistinct.sublist (List.take_sublist _ _)
  · intro h
    have hshort : listing.length ≤ limit →
        (githubPaged (serveListing listing headers) path limit mode previous).items = listing →
        ReadsPrefix listing limit
          (githubPaged (serveListing listing headers) path limit mode previous) :=
      fun hle hitems => ⟨hitems.trans (List.take_of_length_le hle).symm, fun hlong => by omega⟩
    rcases h with hsmall | ⟨pages, rfl⟩ | hend
    · rcases Nat.lt_or_ge limit listing.length with hlong | hle
      · exact readsPrefix_of_long hfirst Nat.one_pos (Nat.mul_one limit) hlong
          fun page hpage => by
            rw [Nat.lt_one_iff.mp hpage]
            omega
      · apply hshort hle
        apply items_of_short hfirst hlimit
        intro page hpage
        have hzero : page = 0 := by
          by_contra hne
          have hfar := Nat.le_mul_of_pos_right limit (Nat.pos_of_ne_zero hne)
          omega
        rw [hzero]
        omega
    · rcases Nat.lt_or_ge (100 * pages) listing.length with hlong | hle
      · exact readsPrefix_of_long hfirst (by omega) rfl hlong fun page hpage => by omega
      · apply hshort hle
        apply items_of_short hfirst (show 0 < 100 by omega)
        intro page hpage
        omega
    · rcases Nat.lt_or_ge limit 100 with hsmall | hlarge
      · have hempty : listing.length = 0 := by
          rw [Nat.div_eq_of_lt hsmall] at hend
          omega
        apply hshort (by omega)
        apply items_of_short hfirst hlimit
        intro page hpage
        have hzero : page = 0 := by omega
        rw [hzero]
        omega
      · have hmod := Nat.mul_div_le limit 100
        apply hshort (by omega)
        apply items_of_short hfirst (show 0 < 100 by omega)
        intro page hpage
        omega

end Unchanged

theorem three_read_in_part : ReadsPrefix [4, 7, 9] 2
    (githubPaged (serveListing [4, 7, 9] (none, none)) "/pulls?state=open" 2 .light none) :=
  (readsPrefix_iff (by decide) (by decide) rfl).mpr (Or.inl (by decide))

/-- The second page of a crawl of 150 items is the page of 50 items after the first 50. -/
theorem hundred_fifty_not_prefix : ¬ ReadsPrefix (List.range 160) 150
    (githubPaged (serveListing (List.range 160) (none, none)) "/pulls?state=open" 150 .full
      none) := by
  intro h
  have hdistinct : (List.range 160).Nodup := List.nodup_range
  have hagain := @not_nodup_of_uneven _ (List.range 160) (none, none) "/pulls?state=open" 150
    .full none rfl (by decide) (by decide) (by rw [List.length_range]; decide)
  rw [h.items] at hagain
  exact hagain (hdistinct.sublist (List.take_sublist _ _))

end Gittensory.GithubPaged
