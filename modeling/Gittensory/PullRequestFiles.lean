import Gittensory.ChangeGuardrail
import Gittensory.JsValue
import Gittensory.KeyedTable
import Gittensory.PagedRead

/-!
The changed files of a pull request on their way to the review (`github/backfill.ts`,
`queue/processors.ts`): a capped page loop over the REST listing, a GraphQL fallback with
fewer fields and a smaller limit, the stored rows that both the detail sync and the
review write, and the paths the guardrail is shown.
-/
namespace Gittensory.PullRequestFiles

open JsValue KeyedTable PagedRead

structure GitHubFilePayload where
  filename : String
  status : Option String
  additions : Option ℤ
  deletions : Option ℤ
  changes : Option ℤ
  previousFilename : Option String
  patch : Option String
  deriving DecidableEq, Repr

/-- A node of the GraphQL file connection. -/
structure GitHubFileNode where
  path : Option String
  additions : Option ℤ
  deletions : Option ℤ
  changeType : Option String
  deriving DecidableEq, Repr

/-- A changed file as GitHub knows it: the REST payload and the GraphQL change type. -/
structure ChangedFile where
  payload : GitHubFilePayload
  changeType : Option String
  deriving DecidableEq, Repr

/-- The diff of a pull request names every file once. -/
structure PullRequestDiff where
  files : List ChangedFile
  distinct : (files.map (fun file => file.payload.filename)).Nodup
  named : ∀ file ∈ files, file.payload.filename ≠ ""

/-- The row of a file; of its payload only the patch is read. -/
structure PullRequestFileRecord where
  repoFullName : String
  pullNumber : ℕ
  path : String
  status : Option String
  additions : ℤ
  deletions : ℤ
  changes : ℤ
  previousFilename : Option String
  patch : Option String
  deriving DecidableEq, Repr

/-- Which requests of one fetch fail, and whether there is a token for the fallback. -/
structure FileRequests where
  pageFails : ℕ → Bool
  token : Bool
  graphQlFails : Bool

def prDetailMaxPages : ℕ := 10

def listedFiles (diff : PullRequestDiff) : List GitHubFilePayload :=
  diff.files.map ChangedFile.payload

/-- A failing first page gives nothing; a failing later page keeps what was read. -/
def githubPaginatedList {α : Type*} (request : ℕ → Option (Page α)) : Option (List α) :=
  if (request 1).isNone then none else some (readPages request prDetailMaxPages 1)

/-- `files(first: 100)`. -/
def fileNodes (diff : PullRequestDiff) : List (Option GitHubFileNode) :=
  (diff.files.take 100).map (fun file => some
    { path := some file.payload.filename
      additions := file.payload.additions
      deletions := file.payload.deletions
      changeType := file.changeType })

def fileOfNode (node : Option GitHubFileNode) : Option GitHubFilePayload :=
  match node with
  | none => none
  | some file =>
      if truthy file.path then
        let additions := file.additions.getD 0
        let deletions := file.deletions.getD 0
        some
          { filename := file.path.getD ""
            status := some (toLowerCase (file.changeType.getD "modified"))
            additions := some additions
            deletions := some deletions
            changes := some (additions + deletions)
            previousFilename := none
            patch := none }
      else none

/-- The GraphQL query has neither the previous name of a file nor its patch. -/
def fetchPullRequestDetailsFromGraphQl (nodes : List (Option GitHubFileNode)) :
    List GitHubFilePayload :=
  nodes.filterMap fileOfNode

structure FetchedFiles where
  files : List GitHubFilePayload
  warnings : List String
  deriving DecidableEq, Repr

def fileSyncFailed (pullNumber : ℕ) : String := "File sync failed for #" ++ toString pullNumber ++ ":"

def fetchPullRequestFiles (pullNumber : ℕ) (diff : PullRequestDiff) (requests : FileRequests) :
    FetchedFiles :=
  match githubPaginatedList (serve 100 (listedFiles diff) requests.pageFails) with
  | some files => ⟨files, []⟩
  | none =>
      if requests.token = true ∧ requests.graphQlFails = false then
        ⟨fetchPullRequestDetailsFromGraphQl (fileNodes diff), []⟩
      else ⟨[], [fileSyncFailed pullNumber ++ " GitHub REST and GraphQL detail fetches failed."]⟩

def toPullRequestFileRecordFromGitHub (repoFullName : String) (pullNumber : ℕ)
    (file : GitHubFilePayload) : PullRequestFileRecord where
  repoFullName := repoFullName
  pullNumber := pullNumber
  path := file.filename
  status := file.status
  additions := file.additions.getD 0
  deletions := file.deletions.getD 0
  changes := file.changes.getD 0
  previousFilename := file.previousFilename
  patch := file.patch

/-! ## The stored rows -/

abbrev FileTable := List PullRequestFileRecord

def fileKey (file : PullRequestFileRecord) : String × ℕ × String :=
  (file.repoFullName, file.pullNumber, file.path)

def upsertPullRequestFile (table : FileTable) (file : PullRequestFileRecord) : FileTable :=
  upsert fileKey table file

def deletePullRequestFiles (table : FileTable) (repoFullName : String) (pullNumber : ℕ) :
    FileTable :=
  table.filter (fun file => ¬ (file.repoFullName = repoFullName ∧ file.pullNumber = pullNumber))

def listPullRequestFiles (table : FileTable) (repoFullName : String) (pullNumber : ℕ) :
    List PullRequestFileRecord :=
  table.filter (fun file => file.repoFullName = repoFullName ∧ file.pullNumber = pullNumber)

def fetchAndStorePullRequestFilesForReview (table : FileTable) (repoFullName : String)
    (pullNumber : ℕ) (diff : PullRequestDiff) (requests : FileRequests) :
    List PullRequestFileRecord × FileTable :=
  let files := (fetchPullRequestFiles pullNumber diff requests).files
  if files.length = 0 then ([], table)
  else
    let records := files.map (toPullRequestFileRecordFromGitHub repoFullName pullNumber)
    (records, records.foldl upsertPullRequestFile table)

/-- The file part of the detail sync: rows are replaced unless the file sync failed. -/
def fetchAndStorePullRequestDetails (table : FileTable) (repoFullName : String)
    (pullNumber : ℕ) (diff : PullRequestDiff) (requests : FileRequests) : FileTable :=
  let fetched := fetchPullRequestFiles pullNumber diff requests
  if fetched.warnings.any (fun warning =>
      (fileSyncFailed pullNumber).toList.isPrefixOf warning.toList) then table
  else
    (fetched.files.map (toPullRequestFileRecordFromGitHub repoFullName pullNumber)).foldl
      upsertPullRequestFile (deletePullRequestFiles table repoFullName pullNumber)

/-- Stored rows win; only an empty list is fetched inline, and then stored. -/
def resolvePullRequestFilesForReview (table : FileTable) (repoFullName : String)
    (pullNumber : ℕ) (diff : PullRequestDiff) (requests : FileRequests) :
    List PullRequestFileRecord × FileTable :=
  let stored := listPullRequestFiles table repoFullName pullNumber
  if 0 < stored.length then (stored, table)
  else
    let fetched :=
      fetchAndStorePullRequestFilesForReview table repoFullName pullNumber diff requests
    if 0 < fetched.1.length then fetched else (stored, fetched.2)

/-- `paths.add(path)`. -/
def addPath (paths : List String) (path : String) : List String :=
  if path ∈ paths then paths else paths ++ [path]

def addFilePaths (paths : List String) (file : PullRequestFileRecord) : List String :=
  let current := if 0 < file.path.length then addPath paths file.path else paths
  if truthy file.previousFilename then addPath current (file.previousFilename.getD "") else current

def changedPathsForGuardrail (files : List PullRequestFileRecord) : List String :=
  files.foldl addFilePaths []

/-! ## What a fetch brings -/

/-- The first page, or else the GraphQL query, is answered. -/
def Answered (requests : FileRequests) : Prop :=
  requests.pageFails 1 = false ∨ (requests.token = true ∧ requests.graphQlFails = false)

instance (requests : FileRequests) : Decidable (Answered requests) :=
  inferInstanceAs (Decidable (_ ∨ (_ ∧ _)))

/-- A payload as the GraphQL fallback reports it. -/
def withoutHistory (file : ChangedFile) : GitHubFilePayload where
  filename := file.payload.filename
  status := some (toLowerCase (file.changeType.getD "modified"))
  additions := some (file.payload.additions.getD 0)
  deletions := some (file.payload.deletions.getD 0)
  changes := some (file.payload.additions.getD 0 + file.payload.deletions.getD 0)
  previousFilename := none
  patch := none

theorem fetchPullRequestDetailsFromGraphQl_fileNodes (diff : PullRequestDiff) :
    fetchPullRequestDetailsFromGraphQl (fileNodes diff) =
      (diff.files.take 100).map withoutHistory := by
  unfold fetchPullRequestDetailsFromGraphQl fileNodes
  rw [List.filterMap_map]
  apply List.filterMap_eq_map_iff_forall_eq_some.mpr
  intro file hmem
  have hnamed := diff.named file (List.mem_of_mem_take hmem)
  simp [fileOfNode, truthy, hnamed, withoutHistory]

/-- The files one fetch brings, case by case. -/
def fetchedFiles (diff : PullRequestDiff) (requests : FileRequests) : List GitHubFilePayload :=
  if requests.pageFails 1 = false then
    (listedFiles diff).take (100 * servedPages requests.pageFails prDetailMaxPages 1)
  else if requests.token = true ∧ requests.graphQlFails = false then
    (diff.files.take 100).map withoutHistory
  else []

theorem githubPaginatedList_serve {α : Type*} (items : List α) (fails : ℕ → Bool) :
    githubPaginatedList (serve 100 items fails) =
      if fails 1 = false then some (items.take (100 * servedPages fails prDetailMaxPages 1))
      else none := by
  unfold githubPaginatedList
  rw [readPages_serve_one]
  cases hfails : fails 1 <;> simp [serve, hfails]

theorem fetchPullRequestFiles_files (pullNumber : ℕ) (diff : PullRequestDiff)
    (requests : FileRequests) :
    (fetchPullRequestFiles pullNumber diff requests).files = fetchedFiles diff requests := by
  unfold fetchPullRequestFiles fetchedFiles
  rw [githubPaginatedList_serve, fetchPullRequestDetailsFromGraphQl_fileNodes]
  by_cases hfirst : requests.pageFails 1 = false
  · simp [hfirst]
  · simp only [if_neg hfirst]
    split_ifs <;> rfl

theorem fetchPullRequestFiles_warnings (pullNumber : ℕ) (diff : PullRequestDiff)
    (requests : FileRequests) :
    (fetchPullRequestFiles pullNumber diff requests).warnings =
      if Answered requests then []
      else [fileSyncFailed pullNumber ++ " GitHub REST and GraphQL detail fetches failed."] := by
  unfold fetchPullRequestFiles
  rw [githubPaginatedList_serve]
  by_cases hfirst : requests.pageFails 1 = false
  · have hanswered : Answered requests := Or.inl hfirst
    rw [if_pos hfirst, if_pos hanswered]
  · rw [if_neg hfirst]
    dsimp only
    by_cases hgraph : requests.token = true ∧ requests.graphQlFails = false
    · have hanswered : Answered requests := Or.inr hgraph
      rw [if_pos hgraph, if_pos hanswered]
    · have hanswered : ¬ Answered requests := not_or.mpr ⟨hfirst, hgraph⟩
      rw [if_neg hgraph, if_neg hanswered]

/-- The sync is reported as failed exactly when neither source answered. -/
theorem fetchPullRequestFiles_warned_iff (pullNumber : ℕ) (diff : PullRequestDiff)
    (requests : FileRequests) :
    (fetchPullRequestFiles pullNumber diff requests).warnings.any (fun warning =>
        (fileSyncFailed pullNumber).toList.isPrefixOf warning.toList) = true ↔
      ¬ Answered requests := by
  rw [fetchPullRequestFiles_warnings]
  split_ifs with hanswered
  · simp [hanswered]
  · simp [hanswered]

theorem mem_addPath (paths : List String) (path other : String) :
    other ∈ addPath paths path ↔ other ∈ paths ∨ other = path := by
  unfold addPath
  split_ifs with h
  · constructor
    · exact Or.inl
    · intro h
      rcases h with hmem | rfl
      · exact hmem
      · exact h
  · simp

/-- Both paths of a file are added under a check that they are not empty. -/
theorem mem_addPath_if {named : Prop} [Decidable named] {added : String}
    (hnamed : named ↔ added ≠ "") (paths : List String) (path : String) :
    path ∈ (if named then addPath paths added else paths) ↔
      path ∈ paths ∨ (path ≠ "" ∧ path = added) := by
  by_cases h : added = ""
  · have hskip : ¬ named := fun hn => hnamed.mp hn h
    rw [if_neg hskip]
    constructor
    · exact Or.inl
    · intro hpath
      rcases hpath with hmem | ⟨hne, heq⟩
      · exact hmem
      · exact absurd (heq.trans h) hne
  · rw [if_pos (hnamed.mpr h), mem_addPath]
    apply or_congr_right
    constructor
    · intro heq
      exact ⟨heq ▸ h, heq⟩
    · exact And.right

theorem mem_addFilePaths (paths : List String) (file : PullRequestFileRecord) (path : String) :
    path ∈ addFilePaths paths file ↔ path ∈ paths ∨
      (path ≠ "" ∧ (path = file.path ∨ file.previousFilename = some path)) := by
  have hcurrent : 0 < file.path.length ↔ file.path ≠ "" := by simp [Nat.pos_iff_ne_zero]
  have hprevious : truthy file.previousFilename = true ↔ file.previousFilename.getD "" ≠ "" := by
    cases file.previousFilename <;> simp [truthy]
  have hfrom : path ≠ "" → (path = file.previousFilename.getD "" ↔
      file.previousFilename = some path) := by
    intro hne
    cases file.previousFilename with
    | none => simpa using hne
    | some previous => simp [eq_comm]
  unfold addFilePaths
  dsimp only
  rw [mem_addPath_if hprevious, mem_addPath_if hcurrent, or_assoc, ← and_or_left]
  apply or_congr_right
  apply and_congr_right
  intro hne
  rw [hfrom hne]

/-- The guardrail is shown the current and previous path of every given file. -/
theorem mem_changedPathsForGuardrail (files : List PullRequestFileRecord) (path : String) :
    path ∈ changedPathsForGuardrail files ↔ path ≠ "" ∧
      ∃ file ∈ files, path = file.path ∨ file.previousFilename = some path := by
  have hfold : ∀ (paths : List String), path ∈ files.foldl addFilePaths paths ↔
      path ∈ paths ∨ (path ≠ "" ∧
        ∃ file ∈ files, path = file.path ∨ file.previousFilename = some path) := by
    induction files with
    | nil => simp
    | cons file rest ih =>
      intro paths
      rw [List.foldl_cons, ih, mem_addFilePaths, List.exists_mem_cons_iff]
      constructor
      · intro h
        rcases h with (h | ⟨hpath, h⟩) | ⟨hpath, h⟩
        · exact Or.inl h
        · exact Or.inr ⟨hpath, Or.inl h⟩
        · exact Or.inr ⟨hpath, Or.inr h⟩
      · intro h
        rcases h with h | ⟨hpath, h | h⟩
        · exact Or.inl (Or.inl h)
        · exact Or.inl (Or.inr ⟨hpath, h⟩)
        · exact Or.inr ⟨hpath, h⟩
  unfold changedPathsForGuardrail
  rw [hfold]
  simp

end Gittensory.PullRequestFiles
