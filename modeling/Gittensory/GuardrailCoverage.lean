import Gittensory.PlanSafety
import Gittensory.PullRequestFiles

/-!
Which changed paths the guardrail is shown. The rows a review finds were written by an
earlier detail sync or review, or are fetched inline; over any history of syncs they are
the answer of one fetch, of the diff as it was then. The guardrail sees every path exactly
when that fetch read every path of the diff as it is now, and the planner's fail-safe covers
the case that no fetch was answered.
-/
namespace Gittensory.GuardrailCoverage

open AgentActions Autonomy ChangeGuardrail JsValue KeyedTable PagedRead PlanSafety
  PullRequestFiles

/-- A fetch reads the diff as it is then. -/
structure Fetch where
  diff : PullRequestDiff
  requests : FileRequests

/-- The two places that write the file rows of a pull request. -/
inductive FileSync where
  | details (fetch : Fetch)
  | review (fetch : Fetch)

section Runs

variable (repoFullName : String) (pullNumber : ℕ)

def fileSyncStep (table : FileTable) : FileSync → FileTable
  | .details fetch =>
      fetchAndStorePullRequestDetails table repoFullName pullNumber fetch.diff fetch.requests
  | .review fetch =>
      (resolvePullRequestFilesForReview table repoFullName pullNumber fetch.diff
        fetch.requests).2

/-- The rows after a history of syncs, from none. -/
def rowsAfter (history : List FileSync) : FileTable :=
  history.foldl (fileSyncStep repoFullName pullNumber) []

/-- The changed paths a review hands to the planner after a history of syncs. -/
def plannerPaths (history : List FileSync) (review : Fetch) : List String :=
  changedPathsForGuardrail (resolvePullRequestFilesForReview
    (rowsAfter repoFullName pullNumber history) repoFullName pullNumber review.diff
      review.requests).1

/-- What a review stores when it finds no rows. -/
def answeredFetch (fetch : Fetch) : Option Fetch :=
  if Answered fetch.requests then some fetch else none

/-- Which fetch the stored rows come from: an answered detail sync replaces them, a
review fetches only when there are none. -/
def noteFetch (stored : Option Fetch) : FileSync → Option Fetch
  | .details fetch => if Answered fetch.requests then some fetch else stored
  | .review fetch =>
      match stored with
      | some earlier => if earlier.diff.files ≠ [] then some earlier else answeredFetch fetch
      | none => answeredFetch fetch

def storedFetch (history : List FileSync) : Option Fetch := history.foldl noteFetch none

/-- The rows a fetch leaves. -/
def recordsOf (stored : Option Fetch) : List PullRequestFileRecord :=
  match stored with
  | none => []
  | some fetch =>
      (fetchedFiles fetch.diff fetch.requests).map
        (toPullRequestFileRecordFromGitHub repoFullName pullNumber)

end Runs

/-! ## Rows and fetches -/

theorem fetchedFiles_filenames_nodup (diff : PullRequestDiff) (requests : FileRequests) :
    ((fetchedFiles diff requests).map GitHubFilePayload.filename).Nodup := by
  have hall : ((listedFiles diff).map GitHubFilePayload.filename).Nodup := by
    rw [listedFiles, List.map_map]
    exact diff.distinct
  unfold fetchedFiles
  split_ifs
  · exact hall.sublist ((List.take_sublist _ _).map _)
  · rw [List.map_map]
    have hsub := (List.take_sublist 100 diff.files).map (fun file => file.payload.filename)
    exact diff.distinct.sublist hsub
  · exact List.nodup_nil

theorem fetchedFiles_of_not_answered {diff : PullRequestDiff} {requests : FileRequests}
    (h : ¬ Answered requests) : fetchedFiles diff requests = [] := by
  rw [Answered, not_or] at h
  unfold fetchedFiles
  rw [if_neg h.1, if_neg h.2]

theorem servedPages_pos {fails : ℕ → Bool} (h : fails 1 = false) :
    0 < servedPages fails prDetailMaxPages 1 := by
  apply Nat.pos_of_ne_zero
  intro hzero
  have hfails := (servedPages_eq_zero_iff fails 9 1).mp hzero
  simp [h] at hfails

/-- An answered fetch is empty only for an empty diff. -/
theorem fetchedFiles_eq_nil_iff {diff : PullRequestDiff} {requests : FileRequests}
    (h : Answered requests) : fetchedFiles diff requests = [] ↔ diff.files = [] := by
  unfold fetchedFiles
  by_cases hfirst : requests.pageFails 1 = false
  · have hpos := servedPages_pos hfirst
    rw [if_pos hfirst, List.take_eq_nil_iff, listedFiles, List.map_eq_nil_iff]
    constructor
    · intro h
      rcases h with hzero | hempty
      · omega
      · exact hempty
    · exact Or.inr
  · rw [if_neg hfirst, if_pos (h.resolve_left hfirst), List.map_eq_nil_iff, List.take_eq_nil_iff]
    simp

theorem fileKey_record (repoFullName : String) (pullNumber : ℕ) (file : GitHubFilePayload) :
    fileKey (toPullRequestFileRecordFromGitHub repoFullName pullNumber file) =
      (repoFullName, pullNumber, file.filename) := rfl

theorem records_keys_nodup (repoFullName : String) (pullNumber : ℕ) (diff : PullRequestDiff)
    (requests : FileRequests) :
    (((fetchedFiles diff requests).map
      (toPullRequestFileRecordFromGitHub repoFullName pullNumber)).map fileKey).Nodup := by
  have h := (fetchedFiles_filenames_nodup diff requests).map
    (f := fun path => (repoFullName, pullNumber, path)) (fun _ _ heq => by simpa using heq)
  rw [List.map_map] at h ⊢
  exact h

/-- Storing a fetch where the pull request has no rows leaves exactly its rows. -/
theorem list_stored (repoFullName : String) (pullNumber : ℕ) (diff : PullRequestDiff)
    (requests : FileRequests) (table : FileTable)
    (hnone : listPullRequestFiles table repoFullName pullNumber = []) :
    listPullRequestFiles (((fetchedFiles diff requests).map
      (toPullRequestFileRecordFromGitHub repoFullName pullNumber)).foldl
        upsertPullRequestFile table) repoFullName pullNumber =
      (fetchedFiles diff requests).map
        (toPullRequestFileRecordFromGitHub repoFullName pullNumber) := by
  have hfresh : ∀ row ∈ (fetchedFiles diff requests).map
      (toPullRequestFileRecordFromGitHub repoFullName pullNumber),
      ∀ stored ∈ table, fileKey stored ≠ fileKey row := by
    intro row hrow stored hstored hkey
    obtain ⟨file, _, rfl⟩ := List.mem_map.mp hrow
    rw [fileKey_record, fileKey, Prod.mk.injEq, Prod.mk.injEq] at hkey
    have hmem : stored ∈ listPullRequestFiles table repoFullName pullNumber :=
      List.mem_filter.mpr ⟨hstored, by simp [hkey.1, hkey.2.1]⟩
    simp [hnone] at hmem
  have hfold := foldl_upsert_of_fresh fileKey _ table
    (records_keys_nodup repoFullName pullNumber diff requests) hfresh
  unfold listPullRequestFiles at hnone ⊢
  unfold upsertPullRequestFile
  rw [hfold, List.filter_append, hnone, List.nil_append, List.filter_eq_self]
  intro row hrow
  obtain ⟨file, _, rfl⟩ := List.mem_map.mp hrow
  simp [toPullRequestFileRecordFromGitHub]

theorem list_deleted (table : FileTable) (repoFullName : String) (pullNumber : ℕ) :
    listPullRequestFiles (deletePullRequestFiles table repoFullName pullNumber) repoFullName
      pullNumber = [] := by
  unfold listPullRequestFiles deletePullRequestFiles
  rw [List.filter_filter, List.filter_eq_nil_iff]
  intro row _
  simp

/-- The rows in the table are those of the noted fetch, which was answered. -/
structure RowsOf (repoFullName : String) (pullNumber : ℕ) (table : FileTable)
    (stored : Option Fetch) : Prop where
  rows : listPullRequestFiles table repoFullName pullNumber =
    recordsOf repoFullName pullNumber stored
  answered : ∀ fetch, stored = some fetch → Answered fetch.requests

section Steps

variable {repoFullName : String} {pullNumber : ℕ} {table : FileTable} {stored : Option Fetch}

theorem rowsOf_details (h : RowsOf repoFullName pullNumber table stored) (fetch : Fetch) :
    RowsOf repoFullName pullNumber
      (fetchAndStorePullRequestDetails table repoFullName pullNumber fetch.diff fetch.requests)
      (noteFetch stored (.details fetch)) := by
  unfold fetchAndStorePullRequestDetails noteFetch
  simp only [fetchPullRequestFiles_warned_iff, fetchPullRequestFiles_files]
  by_cases hanswered : Answered fetch.requests
  · rw [if_neg (not_not.mpr hanswered), if_pos hanswered]
    refine ⟨?_, ?_⟩
    · exact list_stored repoFullName pullNumber fetch.diff fetch.requests _
        (list_deleted table repoFullName pullNumber)
    · intro other hother
      cases hother
      exact hanswered
  · rw [if_pos hanswered, if_neg hanswered]
    exact h

/-- Stored rows are taken as they are. -/
theorem resolve_of_rows (hrows : listPullRequestFiles table repoFullName pullNumber ≠ [])
    (fetch : Fetch) :
    resolvePullRequestFilesForReview table repoFullName pullNumber fetch.diff fetch.requests =
      (listPullRequestFiles table repoFullName pullNumber, table) := by
  have hpos := List.length_pos_iff.mpr hrows
  unfold resolvePullRequestFilesForReview
  rw [if_pos hpos]

/-- Without stored rows a review is given what it fetches, and stores that. -/
theorem resolve_of_no_rows (hrows : listPullRequestFiles table repoFullName pullNumber = [])
    (fetch : Fetch) :
    resolvePullRequestFilesForReview table repoFullName pullNumber fetch.diff fetch.requests =
      (recordsOf repoFullName pullNumber (some fetch),
        (recordsOf repoFullName pullNumber (some fetch)).foldl upsertPullRequestFile table) := by
  unfold resolvePullRequestFilesForReview fetchAndStorePullRequestFilesForReview recordsOf
  simp only [hrows, fetchPullRequestFiles_files, List.length_nil, Nat.lt_irrefl, if_false]
  cases hfetched : fetchedFiles fetch.diff fetch.requests with
  | nil => rfl
  | cons file rest => rfl

/-- A fetch that no source answers brings no rows. -/
theorem recordsOf_answeredFetch (fetch : Fetch) :
    recordsOf repoFullName pullNumber (answeredFetch fetch) =
      recordsOf repoFullName pullNumber (some fetch) := by
  unfold answeredFetch
  split_ifs with hanswered
  · rfl
  · simp [recordsOf, fetchedFiles_of_not_answered hanswered]

/-- Without rows a review is given those of its own fetch, if that is answered, and leaves
them. -/
theorem rowsOf_answeredFetch (hrows : listPullRequestFiles table repoFullName pullNumber = [])
    (fetch : Fetch) :
    (resolvePullRequestFilesForReview table repoFullName pullNumber fetch.diff
        fetch.requests).1 = recordsOf repoFullName pullNumber (answeredFetch fetch) ∧
      RowsOf repoFullName pullNumber
        (resolvePullRequestFilesForReview table repoFullName pullNumber fetch.diff
          fetch.requests).2 (answeredFetch fetch) := by
  rw [resolve_of_no_rows hrows, recordsOf_answeredFetch]
  refine ⟨rfl, ?_, ?_⟩
  · rw [recordsOf_answeredFetch]
    exact list_stored repoFullName pullNumber fetch.diff fetch.requests table hrows
  · intro other hother
    unfold answeredFetch at hother
    split_ifs at hother with hanswered
    cases hother
    exact hanswered

/-- Rows of an answered fetch are missing only if its diff was empty. -/
theorem rows_eq_nil_iff {earlier : Fetch}
    (h : RowsOf repoFullName pullNumber table (some earlier)) :
    listPullRequestFiles table repoFullName pullNumber = [] ↔ earlier.diff.files = [] := by
  rw [h.rows, recordsOf, List.map_eq_nil_iff]
  exact fetchedFiles_eq_nil_iff (h.answered earlier rfl)

/-- A review is given the rows of the fetch it leaves noted, and leaves those rows. -/
theorem rowsOf_review (h : RowsOf repoFullName pullNumber table stored) (fetch : Fetch) :
    (resolvePullRequestFilesForReview table repoFullName pullNumber fetch.diff
        fetch.requests).1 =
        recordsOf repoFullName pullNumber (noteFetch stored (.review fetch)) ∧
      RowsOf repoFullName pullNumber
        (resolvePullRequestFilesForReview table repoFullName pullNumber fetch.diff
          fetch.requests).2 (noteFetch stored (.review fetch)) := by
  cases stored with
  | none => exact rowsOf_answeredFetch h.rows fetch
  | some earlier =>
    by_cases hempty : earlier.diff.files = []
    · have hnoted : noteFetch (some earlier) (.review fetch) = answeredFetch fetch :=
        if_neg (not_not.mpr hempty)
      rw [hnoted]
      exact rowsOf_answeredFetch ((rows_eq_nil_iff h).mpr hempty) fetch
    · have hnoted : noteFetch (some earlier) (.review fetch) = some earlier := if_pos hempty
      rw [hnoted, resolve_of_rows (fun hrows => hempty ((rows_eq_nil_iff h).mp hrows))]
      exact ⟨h.rows, h⟩

theorem rowsOf_step (h : RowsOf repoFullName pullNumber table stored) (sync : FileSync) :
    RowsOf repoFullName pullNumber (fileSyncStep repoFullName pullNumber table sync)
      (noteFetch stored sync) := by
  cases sync with
  | details fetch => exact rowsOf_details h fetch
  | review fetch => exact (rowsOf_review h fetch).2

theorem rowsOf_foldl (h : RowsOf repoFullName pullNumber table stored)
    (history : List FileSync) :
    RowsOf repoFullName pullNumber
      (history.foldl (fileSyncStep repoFullName pullNumber) table)
      (history.foldl noteFetch stored) := by
  induction history generalizing table stored with
  | nil => exact h
  | cons sync rest ih => exact ih (rowsOf_step h sync)

end Steps

/-- Over any history the rows are those of the noted fetch. -/
theorem rowsOf_rowsAfter (repoFullName : String) (pullNumber : ℕ) (history : List FileSync) :
    RowsOf repoFullName pullNumber (rowsAfter repoFullName pullNumber history)
      (storedFetch history) :=
  rowsOf_foldl ⟨rfl, fun _ h => by cases h⟩ history

/-! ## Paths -/

/-- The current path of a file and its previous one, if it was renamed or copied. -/
def pathsOf (file : ChangedFile) : List String :=
  file.payload.filename :: (present file.payload.previousFilename).toList

/-- The answer of the fetch names every path of the diff under review: over REST each is a
path of a file on the pages read in a row, over GraphQL the current path of one of the
first hundred files. -/
structure ReadsEveryPath (live : PullRequestDiff) (fetch : Fetch) : Prop where
  rest : fetch.requests.pageFails 1 = false → ∀ file ∈ live.files, ∀ path ∈ pathsOf file,
    ∃ read ∈ fetch.diff.files.take
        (100 * servedPages fetch.requests.pageFails prDetailMaxPages 1), path ∈ pathsOf read
  graphQl : fetch.requests.pageFails 1 = true → ∀ file ∈ live.files, ∀ path ∈ pathsOf file,
    ∃ read ∈ fetch.diff.files.take 100, read.payload.filename = path

/-- Every path of the diff, or nothing, which the planner takes for a hit. -/
def SeesEveryPath (diff : PullRequestDiff) (paths : List String) : Prop :=
  paths = [] ∨ ∀ file ∈ diff.files, ∀ path ∈ pathsOf file, path ∈ paths

/-- The pull request changes a guarded file, or moves one away. -/
def ChangesGuarded (diff : PullRequestDiff) (globs : List String) : Prop :=
  ∃ file ∈ diff.files, ∃ path ∈ pathsOf file, HitsGuardrail path globs

/-- The guardrail sees every path, so whatever else holds of the pull request the plan
keeps to labels once a guarded file is changed. -/
def GuardrailHolds (diff : PullRequestDiff) (paths : List String) : Prop :=
  SeesEveryPath diff paths ∧ ∀ input : AgentActionPlanInput, input.changedPaths = paths →
    ChangesGuarded diff input.hardGuardrailGlobs →
      ¬ Plans (planAgentMaintenanceActions input) .merge ∧
        ¬ Plans (planAgentMaintenanceActions input) .approve ∧
        ¬ Plans (planAgentMaintenanceActions input) .close

theorem ne_empty_of_mem_pathsOf {diff : PullRequestDiff} {file : ChangedFile} {path : String}
    (hfile : file ∈ diff.files) (hpath : path ∈ pathsOf file) : path ≠ "" := by
  rcases List.mem_cons.mp hpath with rfl | hprevious
  · exact diff.named file hfile
  · exact ((mem_present_iff _ _).mp hprevious).2

theorem mem_pathsOf_iff (file : ChangedFile) (path : String) (hne : path ≠ "") :
    path ∈ pathsOf file ↔
      path = file.payload.filename ∨ file.payload.previousFilename = some path := by
  unfold pathsOf
  rw [List.mem_cons, mem_present_iff]
  constructor
  · exact Or.imp_right And.left
  · exact Or.imp_right (fun h => ⟨h, hne⟩)

/-- The paths a fetch shows to the guardrail. -/
theorem mem_paths_recordsOf (repoFullName : String) (pullNumber : ℕ) (fetch : Fetch)
    (path : String) :
    path ∈ changedPathsForGuardrail (recordsOf repoFullName pullNumber (some fetch)) ↔
      path ≠ "" ∧ ∃ file ∈ fetchedFiles fetch.diff fetch.requests,
        path = file.filename ∨ file.previousFilename = some path := by
  rw [mem_changedPathsForGuardrail]
  apply and_congr_right
  intro _
  constructor
  · intro h
    obtain ⟨record, hrecord, hpath⟩ := h
    obtain ⟨file, hfile, rfl⟩ := List.mem_map.mp hrecord
    exact ⟨file, hfile, hpath⟩
  · intro h
    obtain ⟨file, hfile, hpath⟩ := h
    exact ⟨_, List.mem_map_of_mem hfile, hpath⟩

theorem mem_fetched_rest {diff : PullRequestDiff} {requests : FileRequests} {path : String}
    (hfirst : requests.pageFails 1 = false) (hne : path ≠ "") :
    (∃ file ∈ fetchedFiles diff requests,
        path = file.filename ∨ file.previousFilename = some path) ↔
      ∃ read ∈ diff.files.take (100 * servedPages requests.pageFails prDetailMaxPages 1),
        path ∈ pathsOf read := by
  unfold fetchedFiles listedFiles
  rw [if_pos hfirst, ← List.map_take]
  constructor
  · intro h
    obtain ⟨payload, hpayload, hpath⟩ := h
    obtain ⟨read, hread, rfl⟩ := List.mem_map.mp hpayload
    exact ⟨read, hread, (mem_pathsOf_iff read path hne).mpr hpath⟩
  · intro h
    obtain ⟨read, hread, hpath⟩ := h
    exact ⟨read.payload, List.mem_map_of_mem hread, (mem_pathsOf_iff read path hne).mp hpath⟩

theorem mem_fetched_graphQl {diff : PullRequestDiff} {requests : FileRequests} {path : String}
    (hanswered : Answered requests) (hfirst : requests.pageFails 1 = true) :
    (∃ file ∈ fetchedFiles diff requests,
        path = file.filename ∨ file.previousFilename = some path) ↔
      ∃ read ∈ diff.files.take 100, read.payload.filename = path := by
  have hno : ¬ requests.pageFails 1 = false := by simp [hfirst]
  unfold fetchedFiles
  rw [if_neg hno, if_pos (hanswered.resolve_left hno)]
  constructor
  · intro h
    obtain ⟨payload, hpayload, hpath⟩ := h
    obtain ⟨read, hread, rfl⟩ := List.mem_map.mp hpayload
    rcases hpath with rfl | hprevious
    · exact ⟨read, hread, rfl⟩
    · simp [withoutHistory] at hprevious
  · intro h
    obtain ⟨read, hread, rfl⟩ := h
    exact ⟨_, List.mem_map_of_mem hread, Or.inl rfl⟩

/-- An answered fetch shows nothing only for an empty diff. -/
theorem files_eq_nil_of_paths {repoFullName : String} {pullNumber : ℕ} {fetch : Fetch}
    (hanswered : Answered fetch.requests)
    (h : changedPathsForGuardrail (recordsOf repoFullName pullNumber (some fetch)) = []) :
    fetch.diff.files = [] := by
  by_contra hfiles
  obtain ⟨file, hfile⟩ := List.exists_mem_of_ne_nil _
    (fun hnil => hfiles ((fetchedFiles_eq_nil_iff hanswered).mp hnil))
  have hnamed : file.filename ≠ "" := by
    unfold fetchedFiles at hfile
    split_ifs at hfile
    · obtain ⟨changed, hchanged, rfl⟩ := List.mem_map.mp (List.mem_of_mem_take hfile)
      exact fetch.diff.named changed hchanged
    · obtain ⟨changed, hchanged, rfl⟩ := List.mem_map.mp hfile
      exact fetch.diff.named changed (List.mem_of_mem_take hchanged)
    · simp at hfile
  have hshown := (mem_paths_recordsOf repoFullName pullNumber fetch file.filename).mpr
    ⟨hnamed, file, hfile, Or.inl rfl⟩
  simp [h] at hshown

/-- Every path under review is shown exactly when the fetch read it. -/
theorem forall_mem_paths_iff {repoFullName : String} {pullNumber : ℕ} (live : PullRequestDiff)
    {fetch : Fetch} (hanswered : Answered fetch.requests) :
    (∀ file ∈ live.files, ∀ path ∈ pathsOf file,
        path ∈ changedPathsForGuardrail (recordsOf repoFullName pullNumber (some fetch))) ↔
      ReadsEveryPath live fetch := by
  constructor
  · intro hall
    constructor
    · intro hfirst file hfile path hpath
      exact (mem_fetched_rest hfirst (ne_empty_of_mem_pathsOf hfile hpath)).mp
        ((mem_paths_recordsOf _ _ _ _).mp (hall file hfile path hpath)).2
    · intro hfirst file hfile path hpath
      exact (mem_fetched_graphQl hanswered hfirst).mp
        ((mem_paths_recordsOf _ _ _ _).mp (hall file hfile path hpath)).2
  · intro hreads file hfile path hpath
    have hne := ne_empty_of_mem_pathsOf hfile hpath
    refine (mem_paths_recordsOf _ _ _ _).mpr ⟨hne, ?_⟩
    cases hfirst : fetch.requests.pageFails 1 with
    | false => exact (mem_fetched_rest hfirst hne).mpr (hreads.rest hfirst file hfile path hpath)
    | true =>
      exact (mem_fetched_graphQl hanswered hfirst).mpr (hreads.graphQl hfirst file hfile path hpath)

/-- A review that is given rows of an empty diff has fetched them itself. -/
theorem files_eq_nil_of_given {stored : Option Fetch} {review given : Fetch}
    (hgiven : noteFetch stored (.review review) = some given) (hempty : given.diff.files = []) :
    review.diff.files = [] := by
  have hown : answeredFetch review = some given → review.diff.files = [] := by
    intro h
    unfold answeredFetch at h
    split_ifs at h
    cases h
    exact hempty
  cases stored with
  | none => exact hown hgiven
  | some earlier =>
    simp only [noteFetch] at hgiven
    split_ifs at hgiven with hrows
    · cases hgiven
      exact absurd hempty hrows
    · exact hown hgiven

/-- What the guardrail is shown decides whether it holds. -/
theorem guardrailHolds_iff_seesEveryPath (diff : PullRequestDiff) (paths : List String) :
    GuardrailHolds diff paths ↔ SeesEveryPath diff paths := by
  constructor
  · exact And.left
  · intro hsees
    refine ⟨hsees, ?_⟩
    rintro input rfl ⟨file, hfile, path, hpath, hhits⟩
    have hno : ¬ GuardrailClear input := by
      intro h
      rcases h with hnone | ⟨hknown, hclear⟩
      · rw [hnone] at hhits
        exact absurd hhits.2 (by simp [matchesAny])
      · rcases hsees with hnil | hsees
        · exact hknown hnil
        · exact hclear path (hsees file hfile path hpath) hhits
    exact ⟨fun h => hno (guardrailClear_of_plans h (Or.inr (Or.inl rfl))),
      fun h => hno (guardrailClear_of_plans h (Or.inl rfl)),
      fun h => hno (guardrailClear_of_plans h (Or.inr (Or.inr rfl)))⟩

/-- After any history of syncs the guardrail holds exactly when no fetch was answered or
the fetch whose files the review is given read every path of the diff under review. -/
theorem guardrailHolds_iff (repoFullName : String) (pullNumber : ℕ) (history : List FileSync)
    (review : Fetch) :
    GuardrailHolds review.diff (plannerPaths repoFullName pullNumber history review) ↔
      ∀ given, noteFetch (storedFetch history) (.review review) = some given →
        ReadsEveryPath review.diff given := by
  have hrows := rowsOf_rowsAfter repoFullName pullNumber history
  obtain ⟨hgiven, hleft⟩ := rowsOf_review hrows review
  rw [guardrailHolds_iff_seesEveryPath]
  unfold plannerPaths
  rw [hgiven]
  cases hnoted : noteFetch (storedFetch history) (.review review) with
  | none =>
    constructor
    · intro _ given hnone
      cases hnone
    · intro _
      exact Or.inl rfl
  | some given =>
    have hanswered := hleft.answered given hnoted
    constructor
    · rintro hsees other hother
      cases hother
      rcases hsees with hnil | hall
      · -- nothing is shown only of an empty diff, and then the review's own is empty
        have hempty := files_eq_nil_of_given hnoted (files_eq_nil_of_paths hanswered hnil)
        constructor <;> simp [hempty]
      · exact (forall_mem_paths_iff review.diff hanswered).mp hall
    · intro hreads
      exact Or.inr ((forall_mem_paths_iff review.diff hanswered).mpr (hreads given rfl))

/-- A pull request that moves a workflow file to an unguarded place. -/
def movedWorkflow : PullRequestDiff where
  files := [⟨⟨"docs/ci.yml", some "renamed", some 0, some 0, some 0,
    some ".github/workflows/ci.yml", none⟩, some "RENAMED"⟩]
  distinct := by decide
  named := by decide

/-- Before a push brought the workflow file. -/
def sourceOnly : PullRequestDiff where
  files := [⟨⟨"src/a.ts", some "modified", some 1, some 0, some 1, none, none⟩, some "MODIFIED"⟩]
  distinct := by decide
  named := by decide

/-- Through the GraphQL fallback the guardrail is shown the new path only, and after a sync
that failed behind a push the paths of the head before it. -/
theorem movedWorkflow_not_guarded :
    plannerPaths "acme/widgets" 7 [] ⟨movedWorkflow, ⟨fun _ => true, true, false⟩⟩ =
        ["docs/ci.yml"] ∧
      ¬ GuardrailHolds movedWorkflow
        (plannerPaths "acme/widgets" 7 [] ⟨movedWorkflow, ⟨fun _ => true, true, false⟩⟩) ∧
      ¬ GuardrailHolds movedWorkflow
        (plannerPaths "acme/widgets" 7
          [.details ⟨sourceOnly, ⟨fun _ => false, true, false⟩⟩,
            .details ⟨movedWorkflow, ⟨fun _ => true, true, true⟩⟩]
          ⟨movedWorkflow, ⟨fun _ => false, true, false⟩⟩) := by
  have hpaths : plannerPaths "acme/widgets" 7 [] ⟨movedWorkflow, ⟨fun _ => true, true, false⟩⟩ =
      ["docs/ci.yml"] := by decide
  have hstale : plannerPaths "acme/widgets" 7
      [.details ⟨sourceOnly, ⟨fun _ => false, true, false⟩⟩,
        .details ⟨movedWorkflow, ⟨fun _ => true, true, true⟩⟩]
      ⟨movedWorkflow, ⟨fun _ => false, true, false⟩⟩ = ["src/a.ts"] := by decide
  have hhidden : ∀ path ∈ ["docs/ci.yml", "src/a.ts"],
      ¬ GuardrailHolds movedWorkflow [path] := by
    rintro path hpath ⟨hnil | hsees, -⟩
    · cases hnil
    · have hold := hsees _ List.mem_cons_self ".github/workflows/ci.yml" (by decide)
      rw [List.mem_singleton] at hold
      subst hold
      exact absurd hpath (by decide)
  rw [hpaths, hstale]
  exact ⟨rfl, hhidden _ (by decide), hhidden _ (by decide)⟩

end Gittensory.GuardrailCoverage
