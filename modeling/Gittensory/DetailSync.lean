import Gittensory.GuardedRun
import Gittensory.OpenDataCrawl
import Gittensory.PullRequestFiles
import Mathlib.Logic.Function.Basic

/-!
The detail sync of open pull requests (`backfillOpenPullRequestDetails` of
`github/backfill.ts`). Two workers take the pull requests of a batch in turn and share one
list of warnings; each calls a pull request complete when the list has not grown since it
began to fetch. So a failure that one worker meets marks the pull request of the other one
too; and a failure that leaves no warning, that of a page behind the first one, marks nobody.
The job sends itself again only when it shrank the list of incomplete pull requests.
-/
namespace Gittensory.DetailSync

open GuardedRun JsValue KeyedTable OpenDataCrawl PagedRead PullRequestFiles

section Model

inductive Detail where
  | files
  | reviews
  | checks
  deriving DecidableEq, Repr

def details : List Detail := [.files, .reviews, .checks]

theorem mem_details (detail : Detail) : detail ∈ details := by
  cases detail <;> decide

/-- The warning of a failed fetch. -/
def syncFailed (pullNumber : ℕ) : Detail → String
  | .files => fileSyncFailed pullNumber ++ " GitHub REST and GraphQL detail fetches failed."
  | .reviews => "Review sync failed for #" ++ toString pullNumber ++
      ": GitHub REST and GraphQL detail fetches failed."
  | .checks => "Check sync failed for #" ++ toString pullNumber ++
      ": GitHub REST check-run fetch failed."

/-- Its other fields are only stored. -/
structure GitHubReviewPayload where
  id : ℕ
  deriving DecidableEq, Repr

/-- Its other fields are only stored. -/
structure GitHubCheckRunPayload where
  name : String
  deriving DecidableEq, Repr

/-- What GitHub lists of one pull request, and which requests for it fail. -/
structure DetailSource where
  headSha : Option String
  diff : PullRequestDiff
  reviews : List GitHubReviewPayload
  checkRuns : List GitHubCheckRunPayload
  token : Bool
  filePageFails : ℕ → Bool
  fileGraphQlFails : Bool
  reviewPageFails : ℕ → Bool
  reviewGraphQlFails : Bool
  checkPageFails : ℕ → Bool

def DetailSource.fileRequests (source : DetailSource) : FileRequests :=
  ⟨source.filePageFails, source.token, source.fileGraphQlFails⟩

/-- The reviews and the warnings pushed; the fallback asks for `reviews(first: 100)` and skips
those without an id. -/
def fetchPullRequestReviews (pullNumber : ℕ) (source : DetailSource) :
    List GitHubReviewPayload × List String :=
  match githubPaginatedList (serve 100 source.reviews source.reviewPageFails) with
  | some reviews => (reviews, [])
  | none =>
      if source.token = true ∧ source.reviewGraphQlFails = false then
        ((source.reviews.take 100).filter (fun review => review.id ≠ 0), [])
      else ([], [syncFailed pullNumber .reviews])

/-- Without a head nothing is asked for, and there is no fallback. -/
def fetchPullRequestChecks (pullNumber : ℕ) (source : DetailSource) :
    List GitHubCheckRunPayload × List String :=
  if truthy source.headSha = false then ([], [])
  else
    match githubPaginatedList (serve 100 source.checkRuns source.checkPageFails) with
    | some checkRuns => (checkRuns, [])
    | none => ([], [syncFailed pullNumber .checks])

/-- The warnings one of the three fetches pushes when it comes back. -/
def fetchDetail (pullNumber : ℕ) (source : DetailSource) : Detail → List String
  | .files => (fetchPullRequestFiles pullNumber source.diff source.fileRequests).warnings
  | .reviews => (fetchPullRequestReviews pullNumber source).2
  | .checks => (fetchPullRequestChecks pullNumber source).2

inductive DetailStatus where
  | neverSynced
  | running
  | complete
  | partialSync
  | waitingRateLimit
  | error
  deriving DecidableEq, Repr

structure DetailSyncState where
  pullNumber : ℕ
  status : DetailStatus
  errorSummary : Option String
  deriving DecidableEq, Repr

/-- An absent error summary leaves the stored one. -/
def upsertPullRequestDetailSyncState (table : List DetailSyncState) (pullNumber : ℕ)
    (status : DetailStatus) (errorSummary : Option String) : List DetailSyncState :=
  upsertWith DetailSyncState.pullNumber
    (fun stored => { stored with status, errorSummary := errorSummary.or stored.errorSummary })
    table ⟨pullNumber, status, errorSummary⟩

/-- `limit(2000)` -/
def listPullRequestDetailSyncStates (table : List DetailSyncState) : List DetailSyncState :=
  table.take 2000

def statusOf (table : List DetailSyncState) (pullNumber : ℕ) : Option DetailStatus :=
  (lookup DetailSyncState.pullNumber table pullNumber).map DetailSyncState.status

/-- Where a worker is. `before` is the length of the list of warnings when it began to fetch;
`pending` are the fetches that have not come back. -/
inductive WorkerPhase where
  | idle
  | opening (pullNumber : ℕ)
  | fetching (pullNumber before : ℕ) (pending : List Detail)
  | storing (pullNumber before : ℕ)
  deriving DecidableEq

structure Sync where
  table : List DetailSyncState
  warnings : List String
  nextIndex : ℕ
  workers : ℕ → WorkerPhase
  /-- The pull requests whose stored files are replaced. -/
  replaced : List ℕ
  /-- Not in the program: the final states written so far. -/
  settled : List (ℕ × DetailStatus)

def Sync.setWorker (sync : Sync) (worker : ℕ) (phase : WorkerPhase) : Sync :=
  { sync with workers := Function.update sync.workers worker phase }

/-- What a worker does between two of its awaits, or a fetch of it that comes back. -/
inductive Event where
  | take (worker : ℕ)
  | begin (worker : ℕ)
  | fetched (worker : ℕ) (detail : Detail)
  | store (worker : ℕ)
  | settle (worker : ℕ)

def workerCount (items : ℕ) : ℕ := max 1 (min 2 (if items = 0 then 1 else items))

variable (batch : List ℕ) (sources : ℕ → DetailSource)

def take (sync : Sync) (worker : ℕ) : Sync :=
  match sync.workers worker, batch[sync.nextIndex]? with
  | .idle, some pullNumber =>
      if worker < workerCount batch.length then
        { sync.setWorker worker (.opening pullNumber) with
          nextIndex := sync.nextIndex + 1
          table := upsertPullRequestDetailSyncState sync.table pullNumber .running none }
      else sync
  | _, _ => sync

def begin (sync : Sync) (worker : ℕ) : Sync :=
  match sync.workers worker with
  | .opening pullNumber =>
      sync.setWorker worker (.fetching pullNumber sync.warnings.length details)
  | _ => sync

def fetched (sync : Sync) (worker : ℕ) (detail : Detail) : Sync :=
  match sync.workers worker with
  | .fetching pullNumber before pending =>
      if detail ∈ pending then
        { sync.setWorker worker (.fetching pullNumber before (pending.erase detail)) with
          warnings := sync.warnings ++ fetchDetail pullNumber (sources pullNumber) detail }
      else sync
  | _ => sync

/-- Once all three fetches are back: unless one of the warnings since is about its own files,
the stored files are replaced. -/
def store (sync : Sync) (worker : ℕ) : Sync :=
  match sync.workers worker with
  | .fetching pullNumber before [] =>
      { sync.setWorker worker (.storing pullNumber before) with
        replaced :=
          if (sync.warnings.drop before).any fun warning =>
              (fileSyncFailed pullNumber).toList.isPrefixOf warning.toList then sync.replaced
          else sync.replaced ++ [pullNumber] }
  | _ => sync

def statusFrom (newWarnings : List String) : DetailStatus :=
  if newWarnings.length > 0 then .partialSync else .complete

def settle (sync : Sync) (worker : ℕ) : Sync :=
  match sync.workers worker with
  | .storing pullNumber before =>
      let newWarnings := sync.warnings.drop before
      { sync.setWorker worker .idle with
        table := upsertPullRequestDetailSyncState sync.table pullNumber (statusFrom newWarnings)
          newWarnings.getLast?
        settled := sync.settled ++ [(pullNumber, statusFrom newWarnings)] }
  | _ => sync

def step (sync : Sync) : Event → Sync
  | .take worker => take batch sync worker
  | .begin worker => begin sync worker
  | .fetched worker detail => fetched sources sync worker detail
  | .store worker => store sync worker
  | .settle worker => settle sync worker

def startSync (table : List DetailSyncState) : Sync where
  table := table
  warnings := []
  nextIndex := 0
  workers := fun _ => .idle
  replaced := []
  settled := []

/-- `mapWithConcurrency` returns: nothing is left to take, and every worker has stopped. -/
structure Finished (sync : Sync) : Prop where
  taken : batch.length ≤ sync.nextIndex
  stopped : ∀ worker < workerCount batch.length, sync.workers worker = .idle

instance (sync : Sync) : Decidable (Finished batch sync) :=
  decidable_of_iff (batch.length ≤ sync.nextIndex ∧
    ∀ worker < workerCount batch.length, sync.workers worker = .idle)
    ⟨fun h => ⟨h.1, h.2⟩, fun h => ⟨h.taken, h.stopped⟩⟩

end Model

/-! ## What a step can do -/

section Steps

variable (batch : List ℕ) (sources : ℕ → DetailSource)

/-- The steps that change something. -/
inductive Moves (sync : Sync) : Event → Sync → Prop
  | take {worker pullNumber : ℕ} (hidle : sync.workers worker = .idle)
      (hnext : batch[sync.nextIndex]? = some pullNumber)
      (hworker : worker < workerCount batch.length) : Moves sync (.take worker)
      { sync.setWorker worker (.opening pullNumber) with
        nextIndex := sync.nextIndex + 1
        table := upsertPullRequestDetailSyncState sync.table pullNumber .running none }
  | begin {worker pullNumber : ℕ} (hopening : sync.workers worker = .opening pullNumber) :
      Moves sync (.begin worker)
        (sync.setWorker worker (.fetching pullNumber sync.warnings.length details))
  | fetched {worker pullNumber before : ℕ} {pending : List Detail} {detail : Detail}
      (hfetching : sync.workers worker = .fetching pullNumber before pending)
      (hpending : detail ∈ pending) : Moves sync (.fetched worker detail)
      { sync.setWorker worker (.fetching pullNumber before (pending.erase detail)) with
        warnings := sync.warnings ++ fetchDetail pullNumber (sources pullNumber) detail }
  | store {worker pullNumber before : ℕ} {replaced : List ℕ}
      (hfetching : sync.workers worker = .fetching pullNumber before []) :
      Moves sync (.store worker)
        { sync.setWorker worker (.storing pullNumber before) with replaced }
  | settle {worker pullNumber before : ℕ}
      (hstoring : sync.workers worker = .storing pullNumber before) : Moves sync (.settle worker)
      { sync.setWorker worker .idle with
        table := upsertPullRequestDetailSyncState sync.table pullNumber
          (statusFrom (sync.warnings.drop before)) (sync.warnings.drop before).getLast?
        settled := sync.settled ++ [(pullNumber, statusFrom (sync.warnings.drop before))] }

theorem step_eq_or_moves (sync : Sync) (event : Event) :
    step batch sources sync event = sync ∨
      Moves batch sources sync event (step batch sources sync event) := by
  cases event with
  | take worker =>
    unfold step DetailSync.take
    dsimp only
    split
    · rename_i pullNumber hidle hnext
      split_ifs with hworker
      · exact Or.inr (Moves.take hidle hnext hworker)
      · exact Or.inl rfl
    · exact Or.inl rfl
  | begin worker =>
    unfold step DetailSync.begin
    dsimp only
    split
    · rename_i pullNumber hopening
      exact Or.inr (Moves.begin hopening)
    · exact Or.inl rfl
  | fetched worker detail =>
    unfold step DetailSync.fetched
    dsimp only
    split
    · rename_i pullNumber before pending hfetching
      by_cases hpending : detail ∈ pending
      · rw [if_pos hpending]
        exact Or.inr (Moves.fetched hfetching hpending)
      · rw [if_neg hpending]
        exact Or.inl rfl
    · exact Or.inl rfl
  | store worker =>
    unfold step DetailSync.store
    dsimp only
    split
    · rename_i pullNumber before hfetching
      exact Or.inr (Moves.store hfetching)
    · exact Or.inl rfl
  | settle worker =>
    unfold step DetailSync.settle
    dsimp only
    split
    · rename_i pullNumber before hstoring
      exact Or.inr (Moves.settle hstoring)
    · exact Or.inl rfl

/-- What every change keeps, every step keeps. -/
theorem step_keeps {invariant : Sync → Prop} {sync : Sync} (h : invariant sync)
    (hmoves : ∀ event next, Moves batch sources sync event next → invariant next) (event : Event) :
    invariant (step batch sources sync event) := by
  rcases step_eq_or_moves batch sources sync event with hsame | hmove
  · rw [hsame]
    exact h
  · exact hmoves event _ hmove

variable {batch sources} {sync next : Sync} {event : Event}

theorem workers_setWorker (sync : Sync) (worker other : ℕ) (phase : WorkerPhase) :
    (sync.setWorker worker phase).workers other =
      if other = worker then phase else sync.workers other :=
  Function.update_apply ..

/-- The pull request that a worker holds. -/
def WorkerPhase.holds : WorkerPhase → Option ℕ
  | .idle => none
  | .opening pullNumber => some pullNumber
  | .fetching pullNumber _ _ => some pullNumber
  | .storing pullNumber _ => some pullNumber

/-- The pull request whose warnings a worker is collecting, and since when. -/
def WorkerPhase.window : WorkerPhase → Option (ℕ × ℕ)
  | .fetching pullNumber before _ => some (pullNumber, before)
  | .storing pullNumber before => some (pullNumber, before)
  | _ => none

/-! ## Who holds what -/

theorem statusOf_upsert (table : List DetailSyncState) (pullNumber other : ℕ)
    (status : DetailStatus) (errorSummary : Option String) :
    statusOf (upsertPullRequestDetailSyncState table pullNumber status errorSummary) other =
      if other = pullNumber then some status else statusOf table other := by
  unfold statusOf upsertPullRequestDetailSyncState
  rw [lookup_upsertWith]
  · split_ifs with hsame
    · rw [Option.map_some]
      cases lookup DetailSyncState.pullNumber table other <;> rfl
    · rfl
  · exact fun _ => rfl

/-- Every pull request taken so far is held by one worker or settled, and the table has the
states that were settled. -/
structure Tracked (batch : List ℕ) (sync : Sync) : Prop where
  limited : ∀ worker n, (sync.workers worker).holds = some n → worker < workerCount batch.length
  taken : ∀ n, n ∈ batch.take sync.nextIndex ↔
    (∃ worker, (sync.workers worker).holds = some n) ∨ n ∈ sync.settled.map Prod.fst
  apart : ∀ worker other n, (sync.workers worker).holds = some n →
    (sync.workers other).holds = some n → worker = other
  free : ∀ worker n, (sync.workers worker).holds = some n → n ∉ sync.settled.map Prod.fst
  stored : ∀ n status, (n, status) ∈ sync.settled → statusOf sync.table n = some status

theorem tracked_startSync (batch : List ℕ) (table : List DetailSyncState) :
    Tracked batch (startSync table) where
  limited _ _ h := by cases h
  taken n := by simp [startSync, WorkerPhase.holds]
  apart _ _ _ h := by cases h
  free _ _ h := by cases h
  stored _ _ h := by cases h

/-- A change of one worker's phase that leaves it what it holds. -/
theorem Tracked.setWorker (h : Tracked batch sync) {worker : ℕ} {phase : WorkerPhase}
    (hsame : phase.holds = (sync.workers worker).holds) :
    Tracked batch (sync.setWorker worker phase) := by
  have hholds : ∀ other, ((sync.setWorker worker phase).workers other).holds =
      (sync.workers other).holds := by
    intro other
    rw [workers_setWorker]
    split_ifs with hother
    · rw [hsame, hother]
    · rfl
  refine ⟨?_, ?_, ?_, ?_, h.stored⟩
  · intro other n hother
    rw [hholds] at hother
    exact h.limited other n hother
  · intro n
    simp only [hholds]
    exact h.taken n
  · intro first second n hfirst hsecond
    rw [hholds] at hfirst hsecond
    exact h.apart first second n hfirst hsecond
  · intro other n hother
    rw [hholds] at hother
    exact h.free other n hother

theorem Tracked.take (hbatch : batch.Nodup) (h : Tracked batch sync) {worker pullNumber : ℕ}
    (hidle : sync.workers worker = .idle) (hnext : batch[sync.nextIndex]? = some pullNumber)
    (hworker : worker < workerCount batch.length) :
    Tracked batch { sync.setWorker worker (.opening pullNumber) with
      nextIndex := sync.nextIndex + 1
      table := upsertPullRequestDetailSyncState sync.table pullNumber .running none } := by
  have htake : batch.take (sync.nextIndex + 1) = batch.take sync.nextIndex ++ [pullNumber] := by
    rw [List.take_add_one, hnext, Option.toList_some]
  have hfresh : pullNumber ∉ batch.take sync.nextIndex := by
    have hnodup := hbatch.sublist (List.take_sublist (sync.nextIndex + 1) batch)
    rw [htake, List.nodup_append] at hnodup
    exact fun hmem => hnodup.2.2 _ hmem _ (List.mem_singleton_self _) rfl
  have hnot := mt (h.taken pullNumber).mpr hfresh
  rw [not_or, not_exists] at hnot
  have hholds : ∀ other n, ((sync.setWorker worker (.opening pullNumber)).workers other).holds =
      some n ↔ (other = worker ∧ n = pullNumber) ∨ (sync.workers other).holds = some n := by
    intro other n
    rw [workers_setWorker]
    split_ifs with hother
    · rw [hother, hidle]
      simp [WorkerPhase.holds, eq_comm]
    · simp [hother]
  refine ⟨?_, ?_, ?_, ?_, ?_⟩
  · intro other n hother
    rcases (hholds other n).mp hother with ⟨rfl, rfl⟩ | hold
    · exact hworker
    · exact h.limited other n hold
  · intro n
    dsimp only
    simp only [hholds, htake, List.mem_append, List.mem_singleton, h.taken n, exists_or,
      exists_eq_left]
    exact or_comm.trans or_assoc.symm
  · intro first second n hfirst hsecond
    rcases (hholds first n).mp hfirst with ⟨rfl, rfl⟩ | hold
    · rcases (hholds second n).mp hsecond with ⟨rfl, -⟩ | hold
      · rfl
      · exact absurd hold (hnot.1 second)
    · rcases (hholds second n).mp hsecond with ⟨rfl, rfl⟩ | hold'
      · exact absurd hold (hnot.1 first)
      · exact h.apart first second n hold hold'
  · intro other n hother
    rcases (hholds other n).mp hother with ⟨rfl, rfl⟩ | hold
    · exact hnot.2
    · exact h.free other n hold
  · intro n status hsettled
    dsimp only at hsettled ⊢
    rw [statusOf_upsert, if_neg]
    · exact h.stored n status hsettled
    · rintro rfl
      exact hnot.2 (List.mem_map_of_mem hsettled)

theorem Tracked.settle (h : Tracked batch sync) {worker pullNumber before : ℕ}
    (hstoring : sync.workers worker = .storing pullNumber before) (status : DetailStatus)
    (errorSummary : Option String) :
    Tracked batch { sync.setWorker worker .idle with
      table := upsertPullRequestDetailSyncState sync.table pullNumber status errorSummary
      settled := sync.settled ++ [(pullNumber, status)] } := by
  have hheld : (sync.workers worker).holds = some pullNumber := by
    rw [hstoring]
    rfl
  have hholds : ∀ other n, ((sync.setWorker worker .idle).workers other).holds = some n ↔
      other ≠ worker ∧ (sync.workers other).holds = some n := by
    intro other n
    rw [workers_setWorker]
    split_ifs with hother
    · simp [WorkerPhase.holds, hother]
    · simp [hother]
  have hsettled : ∀ n, n ∈ (sync.settled ++ [(pullNumber, status)]).map Prod.fst ↔
      n ∈ sync.settled.map Prod.fst ∨ n = pullNumber := by
    intro n
    rw [List.map_append, List.mem_append, List.map_singleton, List.mem_singleton]
  refine ⟨?_, ?_, ?_, ?_, ?_⟩
  · exact fun other n hother => h.limited other n ((hholds other n).mp hother).2
  · intro n
    dsimp only
    rw [show (sync.setWorker worker .idle).nextIndex = sync.nextIndex from rfl, h.taken n, hsettled]
    simp only [hholds]
    constructor
    · rintro (⟨other, hother⟩ | hbefore)
      · by_cases hsame : other = worker
        · rw [hsame, hheld] at hother
          exact Or.inr (Or.inr (Option.some.inj hother).symm)
        · exact Or.inl ⟨other, hsame, hother⟩
      · exact Or.inr (Or.inl hbefore)
    · rintro (⟨other, -, hother⟩ | hbefore | rfl)
      · exact Or.inl ⟨other, hother⟩
      · exact Or.inr hbefore
      · exact Or.inl ⟨worker, hheld⟩
  · intro first second n hfirst hsecond
    exact h.apart first second n ((hholds first n).mp hfirst).2 ((hholds second n).mp hsecond).2
  · intro other n hother
    obtain ⟨hne, hold⟩ := (hholds other n).mp hother
    dsimp only
    rw [hsettled, not_or]
    refine ⟨h.free other n hold, ?_⟩
    rintro rfl
    exact hne (h.apart other worker n hold hheld)
  · intro n other hother
    dsimp only at hother ⊢
    rw [statusOf_upsert]
    rcases List.mem_append.mp hother with hbefore | hnew
    · rw [if_neg]
      · exact h.stored n other hbefore
      · rintro rfl
        exact h.free worker n hheld (List.mem_map_of_mem hbefore)
    · rw [List.mem_singleton, Prod.mk.injEq] at hnew
      rw [if_pos hnew.1, hnew.2]

theorem Tracked.moves (hbatch : batch.Nodup) (h : Tracked batch sync)
    (hmove : Moves batch sources sync event next) : Tracked batch next := by
  cases hmove with
  | take hidle hnext hworker => exact h.take hbatch hidle hnext hworker
  | begin hopening => exact h.setWorker (by rw [hopening]; rfl)
  | @fetched worker pullNumber before pending detail hfetching hpending =>
    have hset := @Tracked.setWorker _ _ h worker
      (.fetching pullNumber before (pending.erase detail)) (by rw [hfetching]; rfl)
    exact ⟨hset.limited, hset.taken, hset.apart, hset.free, hset.stored⟩
  | @store worker pullNumber before replaced hfetching =>
    have hset := @Tracked.setWorker _ _ h worker (.storing pullNumber before)
      (by rw [hfetching]; rfl)
    exact ⟨hset.limited, hset.taken, hset.apart, hset.free, hset.stored⟩
  | settle hstoring => exact h.settle hstoring _ _

/-! ## Whose failures a worker sees -/

/-- The fetch is not answered, over REST nor by a fallback, and says so. -/
def warns (source : DetailSource) : Detail → Bool
  | .files => source.filePageFails 1 && !(source.token && !source.fileGraphQlFails)
  | .reviews => source.reviewPageFails 1 && !(source.token && !source.reviewGraphQlFails)
  | .checks => truthy source.headSha && source.checkPageFails 1

theorem warns_files_iff (source : DetailSource) :
    warns source .files = true ↔ ¬ Answered source.fileRequests := by
  simp only [warns, Answered, DetailSource.fileRequests]
  cases source.filePageFails 1 <;> cases source.token <;> cases source.fileGraphQlFails <;> decide

theorem fetchPullRequestReviews_warnings (pullNumber : ℕ) (source : DetailSource) :
    (fetchPullRequestReviews pullNumber source).2 =
      if warns source .reviews then [syncFailed pullNumber .reviews] else [] := by
  unfold fetchPullRequestReviews
  rw [githubPaginatedList_serve]
  simp only [warns]
  by_cases hfirst : source.reviewPageFails 1 = false
  · simp [hfirst]
  · by_cases hgraph : source.token = true ∧ source.reviewGraphQlFails = false
    · simp [hfirst, hgraph]
    · simp [hfirst, hgraph]

theorem fetchPullRequestChecks_warnings (pullNumber : ℕ) (source : DetailSource) :
    (fetchPullRequestChecks pullNumber source).2 =
      if warns source .checks then [syncFailed pullNumber .checks] else [] := by
  unfold fetchPullRequestChecks
  rw [githubPaginatedList_serve]
  simp only [warns]
  by_cases hhead : truthy source.headSha = false
  · simp [hhead]
  · by_cases hfirst : source.checkPageFails 1 = false
    · simp [hhead, hfirst]
    · simp [hhead, hfirst]

theorem fetchDetail_eq (pullNumber : ℕ) (source : DetailSource) (detail : Detail) :
    fetchDetail pullNumber source detail =
      if warns source detail then [syncFailed pullNumber detail] else [] := by
  cases detail with
  | files =>
    rw [fetchDetail, fetchPullRequestFiles_warnings]
    simp only [warns_files_iff, ite_not]
    rfl
  | reviews => exact fetchPullRequestReviews_warnings pullNumber source
  | checks => exact fetchPullRequestChecks_warnings pullNumber source

def Warned (sources : ℕ → DetailSource) (pullNumber : ℕ) : Prop :=
  ∃ detail, warns (sources pullNumber) detail = true

/-- Its own failures a worker always sees. -/
structure Sound (sources : ℕ → DetailSource) (sync : Sync) : Prop where
  before_le : ∀ worker n before, (sync.workers worker).window = some (n, before) →
    before ≤ sync.warnings.length
  pending : ∀ worker n before pending detail,
    sync.workers worker = .fetching n before pending → warns (sources n) detail = true →
    detail ∈ pending ∨ before < sync.warnings.length
  storing : ∀ worker n before, sync.workers worker = .storing n before → Warned sources n →
    before < sync.warnings.length
  settled : ∀ n, (n, .complete) ∈ sync.settled → ¬ Warned sources n

theorem sound_startSync (sources : ℕ → DetailSource) (table : List DetailSyncState) :
    Sound sources (startSync table) where
  before_le _ _ _ h := by cases h
  pending _ _ _ _ _ h := by cases h
  storing _ _ _ h := by cases h
  settled _ h := by cases h

/-- What one worker collects is wrong when another's failure is among it. -/
structure Clean (sources : ℕ → DetailSource) (sync : Sync) : Prop where
  windows : ∀ worker n before, (sync.workers worker).window = some (n, before) →
    before < sync.warnings.length → Warned sources n
  settled : ∀ n status, (n, status) ∈ sync.settled → ¬ Warned sources n → status = .complete

theorem statusFrom_drop_iff (warnings : List String) (before : ℕ) :
    statusFrom (warnings.drop before) = .complete ↔ warnings.length ≤ before := by
  unfold statusFrom
  rw [List.length_drop]
  split_ifs with hsome
  · exact iff_of_false (by decide) (by omega)
  · exact iff_of_true rfl (by omega)

/-- The event pushes no warning while another worker collects for a pull request that has no
failure of its own. -/
def Undisturbed (sources : ℕ → DetailSource) (sync : Sync) : Event → Prop
  | .fetched worker detail => ∀ n before pending,
      sync.workers worker = .fetching n before pending → detail ∈ pending →
      warns (sources n) detail = true → ∀ other, other ≠ worker → ∀ m since,
        (sync.workers other).window = some (m, since) → Warned sources m
  | _ => True

theorem setWorker_eq_iff {worker other : ℕ} {phase found : WorkerPhase} :
    (sync.setWorker worker phase).workers other = found ↔
      (other = worker ∧ phase = found) ∨ (other ≠ worker ∧ sync.workers other = found) := by
  rw [workers_setWorker]
  split_ifs with hother
  · simp [hother]
  · simp [hother]

theorem window_setWorker_iff {worker other : ℕ} {phase : WorkerPhase} {found : ℕ × ℕ} :
    ((sync.setWorker worker phase).workers other).window = some found ↔
      (other = worker ∧ phase.window = some found) ∨
        (other ≠ worker ∧ (sync.workers other).window = some found) := by
  rw [workers_setWorker]
  split_ifs with hother
  · simp [hother]
  · simp [hother]

/-- A change of one worker's phase, and of the list of warnings at its end. -/
theorem Sound.setWorker (h : Sound sources sync) {worker : ℕ} {phase : WorkerPhase}
    {warnings : List String} (hlonger : sync.warnings.length ≤ warnings.length)
    (hwindow : ∀ n before, phase.window = some (n, before) → before ≤ warnings.length)
    (hpending : ∀ n before pending detail, phase = .fetching n before pending →
      warns (sources n) detail = true → detail ∈ pending ∨ before < warnings.length)
    (hstoring : ∀ n before, phase = .storing n before → Warned sources n →
      before < warnings.length) :
    Sound sources { sync.setWorker worker phase with warnings } where
  before_le other n before hfound := by
    rcases window_setWorker_iff.mp hfound with ⟨-, hnew⟩ | ⟨-, hold⟩
    · exact hwindow n before hnew
    · exact Nat.le_trans (h.before_le other n before hold) hlonger
  pending other n before pending detail hphase hwarns := by
    rcases setWorker_eq_iff.mp hphase with ⟨-, hnew⟩ | ⟨-, hold⟩
    · exact hpending n before pending detail hnew hwarns
    · exact (h.pending other n before pending detail hold hwarns).imp_right fun hlt =>
        Nat.lt_of_lt_of_le hlt hlonger
  storing other n before hphase hwarned := by
    rcases setWorker_eq_iff.mp hphase with ⟨-, hnew⟩ | ⟨-, hold⟩
    · exact hstoring n before hnew hwarned
    · exact Nat.lt_of_lt_of_le (h.storing other n before hold hwarned) hlonger
  settled := h.settled

theorem Sound.fetched (h : Sound sources sync) {worker pullNumber start : ℕ}
    {waiting : List Detail} {detail : Detail}
    (hfetching : sync.workers worker = .fetching pullNumber start waiting) :
    Sound sources { sync.setWorker worker (.fetching pullNumber start (waiting.erase detail)) with
      warnings := sync.warnings ++ fetchDetail pullNumber (sources pullNumber) detail } := by
  have hlonger : sync.warnings.length ≤
      (sync.warnings ++ fetchDetail pullNumber (sources pullNumber) detail).length := by
    rw [List.length_append]
    omega
  have hbefore := h.before_le worker pullNumber start (by rw [hfetching]; rfl)
  refine h.setWorker hlonger ?_ ?_ nofun
  · intro n before hnew
    cases hnew
    exact Nat.le_trans hbefore hlonger
  · intro n before pending own hnew hwarns
    cases hnew
    by_cases hsame : own = detail
    · right
      rw [← hsame, fetchDetail_eq, if_pos hwarns, List.length_append]
      exact Nat.lt_succ_of_le hbefore
    · exact (h.pending worker pullNumber start waiting own hfetching hwarns).imp
        (List.mem_erase_of_ne hsame).mpr fun hlt => Nat.lt_of_lt_of_le hlt hlonger

theorem Sound.settle (h : Sound sources sync) {worker pullNumber start : ℕ}
    (hstoring : sync.workers worker = .storing pullNumber start) (table : List DetailSyncState) :
    Sound sources { sync.setWorker worker .idle with
      table
      settled := sync.settled ++ [(pullNumber, statusFrom (sync.warnings.drop start))] } := by
  have hset := @Sound.setWorker _ _ h worker .idle sync.warnings (Nat.le_refl _) nofun nofun nofun
  refine ⟨hset.before_le, hset.pending, hset.storing, ?_⟩
  intro n hsettled hwarned
  rcases List.mem_append.mp hsettled with hbefore | hnew
  · exact h.settled n hbefore hwarned
  · rw [List.mem_singleton, Prod.mk.injEq] at hnew
    obtain ⟨rfl, hcomplete⟩ := hnew
    have hquiet := (statusFrom_drop_iff sync.warnings start).mp hcomplete.symm
    exact absurd (h.storing worker n start hstoring hwarned) (Nat.not_lt.mpr hquiet)

theorem Sound.moves (h : Sound sources sync) (hmove : Moves batch sources sync event next) :
    Sound sources next := by
  cases hmove with
  | @take worker pullNumber hidle hnext hworker =>
    have hset := @Sound.setWorker _ _ h worker (.opening pullNumber) sync.warnings (Nat.le_refl _)
      nofun nofun nofun
    exact ⟨hset.before_le, hset.pending, hset.storing, hset.settled⟩
  | begin hopening =>
    refine h.setWorker (Nat.le_refl _) ?_ ?_ nofun
    · intro n before hnew
      cases hnew
      exact Nat.le_refl _
    · intro n before pending detail hnew _
      cases hnew
      exact Or.inl (mem_details detail)
  | fetched hfetching hpending => exact h.fetched hfetching
  | @store worker pullNumber start replaced hfetching =>
    have hset := @Sound.setWorker _ _ h worker (.storing pullNumber start) sync.warnings
      (Nat.le_refl _) ?_ nofun ?_
    · exact ⟨hset.before_le, hset.pending, hset.storing, hset.settled⟩
    · intro n before hnew
      exact h.before_le worker n before (by rw [hfetching]; exact hnew)
    · intro n before hnew hwarned
      cases hnew
      obtain ⟨detail, hwarns⟩ := hwarned
      exact (h.pending worker pullNumber start [] detail hfetching hwarns).resolve_left
        List.not_mem_nil
  | settle hstoring => exact h.settle hstoring _

theorem clean_congr {other : Sync}
    (hwindows : ∀ worker, (other.workers worker).window = (sync.workers worker).window)
    (hwarnings : other.warnings = sync.warnings) (hsettled : other.settled = sync.settled) :
    Clean sources other ↔ Clean sources sync := by
  constructor
  · rintro ⟨hclean, hright⟩
    rw [hsettled] at hright
    refine ⟨fun worker n before hwindow => ?_, hright⟩
    rw [← hwindows] at hwindow
    rw [← hwarnings]
    exact hclean worker n before hwindow
  · rintro ⟨hclean, hright⟩
    rw [← hsettled] at hright
    refine ⟨fun worker n before hwindow => ?_, hright⟩
    rw [hwindows] at hwindow
    rw [hwarnings]
    exact hclean worker n before hwindow

theorem window_setWorker_of_same {worker : ℕ} {phase : WorkerPhase}
    (hsame : phase.window = (sync.workers worker).window) (other : ℕ) :
    ((sync.setWorker worker phase).workers other).window = (sync.workers other).window := by
  rw [workers_setWorker]
  split_ifs with hother
  · rw [hsame, hother]
  · rfl

/-- A failed fetch that comes back. -/
theorem clean_fetched_iff (hsound : Sound sources sync) {worker pullNumber start : ℕ}
    {pending : List Detail} {detail : Detail}
    (hfetching : sync.workers worker = .fetching pullNumber start pending)
    (hpending : detail ∈ pending) (hfails : warns (sources pullNumber) detail = true)
    (warning : String) {left : List Detail} :
    Clean sources { sync.setWorker worker (.fetching pullNumber start left) with
        warnings := sync.warnings ++ [warning] } ↔
      Clean sources sync ∧ Undisturbed sources sync (.fetched worker detail) := by
  have hwindow := @window_setWorker_of_same sync worker (.fetching pullNumber start left)
    (by rw [hfetching]; rfl)
  have hlonger : ∀ other n before, (sync.workers other).window = some (n, before) →
      before < (sync.warnings ++ [warning]).length := by
    intro other n before hfound
    rw [List.length_append]
    exact Nat.lt_succ_of_le (hsound.before_le other n before hfound)
  constructor
  · rintro ⟨hclean, hright⟩
    have hall : ∀ other n before, (sync.workers other).window = some (n, before) →
        Warned sources n := fun other n before hfound =>
      hclean other n before ((hwindow other).trans hfound) (hlonger other n before hfound)
    exact ⟨⟨fun other n before hfound _ => hall other n before hfound, hright⟩,
      fun _ _ _ _ _ _ other _ m since hfound => hall other m since hfound⟩
  · rintro ⟨hclean, hundisturbed⟩
    refine ⟨fun other n before hfound _ => ?_, hclean.settled⟩
    have hold := (hwindow other).symm.trans hfound
    by_cases hother : other = worker
    · rw [hother, hfetching] at hold
      cases hold
      exact ⟨detail, hfails⟩
    · exact hundisturbed pullNumber start pending hfetching hpending hfails other hother n before
        hold

theorem clean_settle_iff {worker pullNumber start : ℕ}
    (hstoring : sync.workers worker = .storing pullNumber start) (table : List DetailSyncState) :
    Clean sources { sync.setWorker worker .idle with
        table
        settled := sync.settled ++ [(pullNumber, statusFrom (sync.warnings.drop start))] } ↔
      Clean sources sync := by
  have hown : (sync.workers worker).window = some (pullNumber, start) := by
    rw [hstoring]
    rfl
  constructor
  · rintro ⟨hclean, hright⟩
    refine ⟨fun other n before hfound hlt => ?_, fun n status hsettled =>
      hright n status (List.mem_append_left _ hsettled)⟩
    by_cases hother : other = worker
    · rw [hother, hown] at hfound
      cases hfound
      by_contra hnone
      have hcomplete := hright pullNumber _
        (List.mem_append_right _ (List.mem_singleton_self _)) hnone
      exact absurd hlt (Nat.not_lt.mpr ((statusFrom_drop_iff _ _).mp hcomplete))
    · exact hclean other n before (window_setWorker_iff.mpr (Or.inr ⟨hother, hfound⟩)) hlt
  · rintro ⟨hclean, hright⟩
    refine ⟨fun other n before hfound hlt => ?_, fun n status hsettled hnone => ?_⟩
    · rcases window_setWorker_iff.mp hfound with ⟨-, hidle⟩ | ⟨-, hold⟩
      · cases hidle
      · exact hclean other n before hold hlt
    · rcases List.mem_append.mp hsettled with hbefore | hnew
      · exact hright n status hbefore hnone
      · rw [List.mem_singleton, Prod.mk.injEq] at hnew
        obtain ⟨rfl, rfl⟩ := hnew
        rw [statusFrom_drop_iff]
        by_contra hmore
        exact hnone (hclean worker n start hown (Nat.not_le.mp hmore))

/-- A change keeps the windows clean exactly when it disturbs none, and what one of them has
collected wrongly is settled wrongly. -/
theorem clean_moves_iff (hsound : Sound sources sync)
    (hmove : Moves batch sources sync event next) :
    Clean sources next ↔ Clean sources sync ∧ Undisturbed sources sync event := by
  cases hmove with
  | take hidle hnext hworker =>
    rw [and_iff_left (show Undisturbed sources sync (.take _) from trivial)]
    exact clean_congr (window_setWorker_of_same (by rw [hidle]; rfl)) rfl rfl
  | @begin worker pullNumber hopening =>
    rw [and_iff_left (show Undisturbed sources sync (.begin _) from trivial)]
    constructor
    · rintro ⟨hclean, hright⟩
      refine ⟨fun other n before hfound hlt => ?_, hright⟩
      have hother : other ≠ worker := by
        rintro rfl
        rw [hopening] at hfound
        cases hfound
      exact hclean other n before (window_setWorker_iff.mpr (Or.inr ⟨hother, hfound⟩)) hlt
    · rintro ⟨hclean, hright⟩
      refine ⟨fun other n before hfound hlt => ?_, hright⟩
      rcases window_setWorker_iff.mp hfound with ⟨-, hnew⟩ | ⟨-, hold⟩
      · cases hnew
        exact absurd hlt (Nat.lt_irrefl _)
      · exact hclean other n before hold hlt
  | @fetched worker pullNumber start pending detail hfetching hpending =>
    by_cases hfails : warns (sources pullNumber) detail = true
    · rw [fetchDetail_eq, if_pos hfails]
      exact clean_fetched_iff hsound hfetching hpending hfails _
    · have hquiet : Undisturbed sources sync (.fetched worker detail) := by
        intro n before waiting hphase _ hown
        rw [hfetching, WorkerPhase.fetching.injEq] at hphase
        rw [← hphase.1] at hown
        exact absurd hown hfails
      rw [fetchDetail_eq, if_neg hfails, and_iff_left hquiet]
      exact clean_congr (window_setWorker_of_same (by rw [hfetching]; rfl))
        (List.append_nil _) rfl
  | @store worker pullNumber start replaced hfetching =>
    rw [and_iff_left (show Undisturbed sources sync (.store _) from trivial)]
    exact clean_congr (window_setWorker_of_same (by rw [hfetching]; rfl)) rfl rfl
  | settle hstoring =>
    rw [and_iff_left (show Undisturbed sources sync (.settle _) from trivial)]
    exact clean_settle_iff hstoring _

theorem undisturbed_of_unmoved (hsame : step batch sources sync event = sync) :
    Undisturbed sources sync event := by
  cases event with
  | fetched worker detail =>
    intro n before pending hphase hpending hfails
    have hmoved : (step batch sources sync (.fetched worker detail)).warnings =
        sync.warnings ++ [syncFailed n detail] := by
      unfold step DetailSync.fetched
      dsimp only
      rw [hphase]
      dsimp only
      rw [if_pos hpending]
      dsimp only
      rw [fetchDetail_eq, if_pos hfails]
    have hlength := congrArg List.length hmoved
    rw [hsame, List.length_append, List.length_singleton] at hlength
    omega
  | _ => trivial

theorem clean_step_iff (hsound : Sound sources sync) (event : Event) :
    Clean sources (step batch sources sync event) ↔
      Clean sources sync ∧ Undisturbed sources sync event := by
  rcases step_eq_or_moves batch sources sync event with hsame | hmove
  · rw [hsame, and_iff_left (undisturbed_of_unmoved hsame)]
  · exact clean_moves_iff hsound hmove

end Steps

/-! ## A whole batch -/

section Batch

variable (batch : List ℕ) (sources : ℕ → DetailSource) (table : List DetailSyncState)

/-- The batch under one interleaving of its two workers. -/
def syncBatch (events : List Event) : Sync := run (step batch sources) (startSync table) events

variable {batch}

theorem tracked_syncBatch (hbatch : batch.Nodup) (events : List Event) :
    Tracked batch (syncBatch batch sources table events) := by
  have hstep : ∀ sync event, Tracked batch sync →
      Tracked batch (step batch sources sync event) := fun _ event h =>
    step_keeps batch sources h (fun _ _ hmove => h.moves hbatch hmove) event
  exact run_keeps (step batch sources) hstep (startSync table) events
    (tracked_startSync batch table)

theorem sound_step {sync : Sync} (h : Sound sources sync) (event : Event) :
    Sound sources (step batch sources sync event) :=
  step_keeps batch sources h (fun _ _ hmove => h.moves hmove) event

theorem sound_syncBatch (events : List Event) :
    Sound sources (syncBatch batch sources table events) := by
  have hstep : ∀ sync event, Sound sources sync → Sound sources (step batch sources sync event) :=
    fun _ event h => sound_step sources h event
  exact run_keeps (step batch sources) hstep (startSync table) events
    (sound_startSync sources table)

theorem clean_syncBatch_iff (events : List Event) :
    Clean sources (syncBatch batch sources table events) ↔
      Guarded (step batch sources) (Undisturbed sources) (startSync table) events := by
  have hstart : Clean sources (startSync table) := by
    constructor
    · intro _ _ _ h
      cases h
    · intro _ _ h
      cases h
  have hafter := holds_after_iff (step batch sources) (Undisturbed sources)
    (fun _ event h => sound_step sources h event) (fun _ event h => clean_step_iff h event)
    (startSync table) events (sound_startSync sources table)
  rw [syncBatch, hafter, and_iff_right hstart]

/-- A page that the fetch asks for fails, and no fallback answers in its place. -/
def fetchFails (source : DetailSource) : Detail → Bool
  | .files =>
      pageLost (serve 100 (listedFiles source.diff) source.filePageFails) prDetailMaxPages 1 &&
        !(source.filePageFails 1 && source.token && !source.fileGraphQlFails)
  | .reviews =>
      pageLost (serve 100 source.reviews source.reviewPageFails) prDetailMaxPages 1 &&
        !(source.reviewPageFails 1 && source.token && !source.reviewGraphQlFails)
  | .checks => truthy source.headSha &&
      pageLost (serve 100 source.checkRuns source.checkPageFails) prDetailMaxPages 1

/-- The state of a pull request is complete just when none of its own fetches failed. -/
def Attributed (batch : List ℕ) (sources : ℕ → DetailSource) (table : List DetailSyncState) :
    Prop :=
  ∀ n ∈ batch, statusOf table n = some .complete ↔ ∀ detail, fetchFails (sources n) detail = false

/-- A pull request that loses a page behind the first one also has a fetch that is not answered
at all. -/
def Reported (source : DetailSource) : Prop :=
  (∃ detail, fetchFails source detail = true) → ∃ detail, warns source detail = true

theorem pageLost_of_first {α : Type*} (items : List α) {fails : ℕ → Bool} (h : fails 1 = true) :
    pageLost (serve 100 items fails) prDetailMaxPages 1 = true :=
  pageLost_of_none (by rw [serve, if_pos h]) 9

theorem fetchFails_of_warns {source : DetailSource} {detail : Detail}
    (h : warns source detail = true) : fetchFails source detail = true := by
  cases detail with
  | files =>
    simp only [warns, Bool.and_eq_true] at h
    simp [fetchFails, pageLost_of_first _ h.1, h.1]
    simpa using h.2
  | reviews =>
    simp only [warns, Bool.and_eq_true] at h
    simp [fetchFails, pageLost_of_first _ h.1, h.1]
    simpa using h.2
  | checks =>
    simp only [warns, Bool.and_eq_true] at h
    simp [fetchFails, pageLost_of_first _ h.2, h.1]

theorem not_warned_iff {n : ℕ} (hreported : Reported (sources n)) :
    ¬ Warned sources n ↔ ∀ detail, fetchFails (sources n) detail = false := by
  have hwarned : Warned sources n ↔ ∃ detail, fetchFails (sources n) detail = true :=
    ⟨fun ⟨detail, h⟩ => ⟨detail, fetchFails_of_warns h⟩, hreported⟩
  rw [hwarned]
  simp only [not_exists, Bool.not_eq_true]

theorem attributed_iff_clean (hreported : ∀ n ∈ batch, Reported (sources n)) {sync : Sync}
    (htracked : Tracked batch sync) (hsound : Sound sources sync)
    (hfinished : Finished batch sync) :
    Attributed batch sources sync.table ↔ Clean sources sync := by
  have hbatch : ∀ n, n ∈ batch ↔ n ∈ sync.settled.map Prod.fst := by
    intro n
    have htaken := htracked.taken n
    rw [List.take_of_length_le hfinished.taken] at htaken
    rw [htaken]
    refine or_iff_right ?_
    rintro ⟨worker, hworker⟩
    rw [hfinished.stopped worker (htracked.limited worker n hworker)] at hworker
    cases hworker
  constructor
  · intro h
    refine ⟨fun worker n before hwindow => ?_, fun n status hsettled hquiet => ?_⟩
    · have hidle : sync.workers worker = .idle := by
        rcases Nat.lt_or_ge worker (workerCount batch.length) with hlt | hge
        · exact hfinished.stopped worker hlt
        · cases hphase : sync.workers worker with
          | idle => rfl
          | _ =>
            have hlt := htracked.limited worker _ (by rw [hphase]; rfl)
            exact absurd hlt (Nat.not_lt.mpr hge)
      rw [hidle] at hwindow
      cases hwindow
    · have hn := (hbatch n).mpr (List.mem_map_of_mem hsettled)
      have hcomplete := (h n hn).mpr ((not_warned_iff _ (hreported n hn)).mp hquiet)
      rw [htracked.stored n status hsettled] at hcomplete
      exact Option.some.inj hcomplete
  · intro h n hn
    obtain ⟨⟨_, status⟩, hsettled, rfl⟩ := List.mem_map.mp ((hbatch n).mp hn)
    rw [htracked.stored _ _ hsettled, Option.some.injEq, ← not_warned_iff _ (hreported _ hn)]
    constructor
    · rintro rfl
      exact hsound.settled _ hsettled
    · exact h.settled _ _ hsettled

theorem attributed_syncBatch_iff (hbatch : batch.Nodup)
    (hreported : ∀ n ∈ batch, Reported (sources n)) {events : List Event}
    (hfinished : Finished batch (syncBatch batch sources table events)) :
    Attributed batch sources (syncBatch batch sources table events).table ↔
      Guarded (step batch sources) (Undisturbed sources) (startSync table) events := by
  rw [← clean_syncBatch_iff]
  exact attributed_iff_clean sources hreported (tracked_syncBatch sources table hbatch events)
    (sound_syncBatch sources table events) hfinished

end Batch

/-! ## The job and the jobs it sends -/

section Jobs

def prDetailBatchSize : BackfillMode → ℕ
  | .light => 12
  | .full => 40
  | .resume => 40

/-- One delivery of the job: whether the rate limit is low, what the requests for each pull
request find, and how its two workers interleave. -/
structure Attempt where
  rateLimitLow : Bool
  sources : ℕ → DetailSource
  events : List Event

variable (openPulls : List ℕ)

/-- `openPulls` are the numbers of the open pull requests, in order. -/
def incompletePulls (table : List DetailSyncState) : List ℕ :=
  openPulls.filter fun n =>
    statusOf (listPullRequestDetailSyncStates table) n ≠ some .complete

def nextBatch (mode : BackfillMode) (table : List DetailSyncState) : List ℕ :=
  (incompletePulls openPulls table).take (prDetailBatchSize mode)

structure JobResult where
  status : SegmentStatus
  processed : ℕ
  nextCursor : Option ℕ
  warnings : List String
  table : List DetailSyncState
  /-- The mode of the job that is sent. -/
  sent : Option BackfillMode

def madeProgress (before after : List DetailSyncState) : Bool :=
  (incompletePulls openPulls after).length < (incompletePulls openPulls before).length

def completedCount (table : List DetailSyncState) : ℕ :=
  ((listPullRequestDetailSyncStates table).filter fun state =>
    state.pullNumber ∈ openPulls ∧ state.status = .complete).length

/-- What is left to do when the batch is done. -/
def finishJob (mode : BackfillMode) (table : List DetailSyncState) (sync : Sync) : JobResult :=
  let batch := nextBatch openPulls mode table
  let nextCursor : Option ℕ :=
    if batch.length < (incompletePulls openPulls table).length ∧
        madeProgress openPulls table sync.table then some 0
    else none
  { status := if nextCursor.isSome then .running
      else if completedCount openPulls sync.table ≥ openPulls.length then .complete
      else .partialScan
    processed := batch.length
    nextCursor
    warnings := sync.warnings
    table := sync.table
    sent := nextCursor.map fun _ => .resume }

/-- One delivery; `none` when the workers have not stopped. -/
def backfillOpenPullRequestDetails (mode : BackfillMode) (table : List DetailSyncState)
    (attempt : Attempt) : Option JobResult :=
  if attempt.rateLimitLow then
    some
      { status := .waitingRateLimit
        processed := 0
        nextCursor := none
        warnings := []
        table
        sent := some mode }
  else
    let batch := nextBatch openPulls mode table
    let sync := syncBatch batch attempt.sources table attempt.events
    if Finished batch sync then some (finishJob openPulls mode table sync) else none

/-- The job that waits after so many deliveries, with the table it finds. -/
def chain (mode : BackfillMode) (table : List DetailSyncState) (attempts : ℕ → Attempt) :
    ℕ → Option (BackfillMode × List DetailSyncState)
  | 0 => some (mode, table)
  | delivery + 1 => do
      let (mode, table) ← chain mode table attempts delivery
      let result ← backfillOpenPullRequestDetails openPulls mode table (attempts delivery)
      let sent ← result.sent
      return (sent, result.table)

section Chain

variable {openPulls}

/-- A delivery that syncs a batch and is followed by another left fewer incomplete. -/
theorem length_incompletePulls_lt {mode next : BackfillMode} {table : List DetailSyncState}
    {attempt : Attempt} {result : JobResult} (hlow : attempt.rateLimitLow = false)
    (hresult : backfillOpenPullRequestDetails openPulls mode table attempt = some result)
    (hsent : result.sent = some next) :
    (incompletePulls openPulls result.table).length < (incompletePulls openPulls table).length := by
  unfold backfillOpenPullRequestDetails at hresult
  rw [hlow, if_neg Bool.false_ne_true] at hresult
  dsimp only at hresult
  split_ifs at hresult with hfinished
  cases hresult
  unfold finishJob at hsent ⊢
  dsimp only at hsent ⊢
  split_ifs at hsent with hmore
  · exact of_decide_eq_true hmore.2
  · cases hsent

theorem eq_of_rateLimitLow {mode : BackfillMode} {table : List DetailSyncState}
    {attempt : Attempt} {result : JobResult} (hlow : attempt.rateLimitLow = true)
    (hresult : backfillOpenPullRequestDetails openPulls mode table attempt = some result) :
    result.sent = some mode ∧ result.table = table := by
  unfold backfillOpenPullRequestDetails at hresult
  rw [if_pos hlow] at hresult
  cases hresult
  exact ⟨rfl, rfl⟩

variable {mode : BackfillMode} {table : List DetailSyncState} {attempts : ℕ → Attempt}

/-- How many of the first deliveries were not put off. -/
def worked (attempts : ℕ → Attempt) (deliveries : ℕ) : ℕ :=
  (List.range deliveries).countP fun delivery => !(attempts delivery).rateLimitLow

theorem worked_succ (attempts : ℕ → Attempt) (delivery : ℕ) :
    worked attempts (delivery + 1) =
      worked attempts delivery + if (attempts delivery).rateLimitLow then 0 else 1 := by
  unfold worked
  rw [List.range_succ, List.countP_append, List.countP_singleton]
  cases (attempts delivery).rateLimitLow <;> rfl

theorem chain_succ_eq_some {delivery : ℕ} {job : BackfillMode × List DetailSyncState}
    (h : chain openPulls mode table attempts (delivery + 1) = some job) :
    ∃ before result, chain openPulls mode table attempts delivery = some before ∧
      backfillOpenPullRequestDetails openPulls before.1 before.2 (attempts delivery) =
        some result ∧ result.sent = some job.1 ∧ result.table = job.2 := by
  unfold chain at h
  obtain ⟨before, hbefore, h⟩ := Option.bind_eq_some_iff.mp h
  obtain ⟨result, hresult, h⟩ := Option.bind_eq_some_iff.mp h
  obtain ⟨sent, hsent, h⟩ := Option.bind_eq_some_iff.mp h
  cases h
  exact ⟨before, result, hbefore, hresult, hsent, rfl⟩

/-- Every delivery that is not put off, the last one apart, leaves one pull request less. -/
theorem worked_add_length_le {delivery : ℕ} {job : BackfillMode × List DetailSyncState}
    (h : chain openPulls mode table attempts delivery = some job) :
    worked attempts delivery + (incompletePulls openPulls job.2).length ≤
      (incompletePulls openPulls table).length := by
  induction delivery generalizing job with
  | zero =>
    cases h
    exact Nat.le_of_eq (Nat.zero_add _)
  | succ delivery ih =>
    obtain ⟨before, result, hbefore, hresult, hsent, htable⟩ := chain_succ_eq_some h
    have hbound := ih hbefore
    rw [worked_succ, ← htable]
    cases hlow : (attempts delivery).rateLimitLow with
    | true =>
      rw [(eq_of_rateLimitLow hlow hresult).2, if_pos rfl]
      exact hbound
    | false =>
      have hless := length_incompletePulls_lt hlow hresult hsent
      rw [if_neg Bool.false_ne_true]
      omega

theorem exists_le_worked
    (hreset : ∀ delivery, ∃ later ≥ delivery, (attempts later).rateLimitLow = false) (n : ℕ) :
    ∃ delivery, n ≤ worked attempts delivery := by
  induction n with
  | zero => exact ⟨0, Nat.zero_le _⟩
  | succ n ih =>
    obtain ⟨delivery, hdelivery⟩ := ih
    obtain ⟨later, hlater, hlow⟩ := hreset delivery
    have hmore : worked attempts delivery ≤ worked attempts later :=
      (List.range_sublist.mpr hlater).countP_le
    refine ⟨later + 1, ?_⟩
    rw [worked_succ, hlow, if_neg Bool.false_ne_true]
    omega

theorem chain_succ_of_rateLimitLow {delivery : ℕ} {job : BackfillMode × List DetailSyncState}
    (h : chain openPulls mode table attempts delivery = some job)
    (hlow : (attempts delivery).rateLimitLow = true) :
    chain openPulls mode table attempts (delivery + 1) = some job := by
  unfold chain backfillOpenPullRequestDetails
  rw [h, hlow]
  rfl

theorem chain_none_of_le {delivery later : ℕ} (hle : delivery ≤ later)
    (h : chain openPulls mode table attempts delivery = none) :
    chain openPulls mode table attempts later = none := by
  induction later, hle using Nat.le_induction with
  | base => exact h
  | succ later _ ih =>
    unfold chain
    rw [ih]
    rfl

/-- The chain ends unless it is put off for good. -/
theorem chain_ends_iff :
    (∃ delivery, chain openPulls mode table attempts delivery = none) ↔
      ∀ delivery, chain openPulls mode table attempts delivery ≠ none →
        ∃ later ≥ delivery, (attempts later).rateLimitLow = false := by
  constructor
  · rintro ⟨last, hlast⟩ delivery halive
    by_contra hnone
    have hlow : ∀ later ≥ delivery, (attempts later).rateLimitLow = true := by
      intro later hlater
      by_contra hhigh
      exact hnone ⟨later, hlater, Bool.not_eq_true _ ▸ hhigh⟩
    obtain ⟨job, hjob⟩ := Option.ne_none_iff_exists'.mp halive
    have hforever : ∀ later ≥ delivery, chain openPulls mode table attempts later = some job := by
      intro later hlater
      induction later, hlater using Nat.le_induction with
      | base => exact hjob
      | succ later hlater ih => exact chain_succ_of_rateLimitLow ih (hlow later hlater)
    rcases Nat.le_total delivery last with hle | hle
    · rw [hforever last hle] at hlast
      cases hlast
    · exact halive (chain_none_of_le hle hlast)
  · intro hreset
    by_contra hnone
    have halive : ∀ delivery, chain openPulls mode table attempts delivery ≠ none :=
      fun delivery h => hnone ⟨delivery, h⟩
    obtain ⟨delivery, hworked⟩ := exists_le_worked (fun delivery =>
      hreset delivery (halive delivery)) ((incompletePulls openPulls table).length + 1)
    obtain ⟨job, hjob⟩ := Option.ne_none_iff_exists'.mp (halive delivery)
    have hbound := worked_add_length_le hjob
    omega

end Chain

theorem nodup_nextBatch {openPulls : List ℕ} (hopen : openPulls.Nodup) (mode : BackfillMode)
    (table : List DetailSyncState) : (nextBatch openPulls mode table).Nodup :=
  (hopen.filter _).sublist (List.take_sublist _ _)

/-- Where no page is lost without a warning, the states that a delivery writes are right just
when no failed fetch disturbs the other worker; and the chain of deliveries ends just when the
rate limit does not put it off for good. -/
theorem detailSync_settles_iff {openPulls : List ℕ} (hopen : openPulls.Nodup)
    (mode : BackfillMode) (table : List DetailSyncState) :
    (∀ sources events,
      Finished (nextBatch openPulls mode table)
        (syncBatch (nextBatch openPulls mode table) sources table events) →
      (∀ n ∈ nextBatch openPulls mode table, Reported (sources n)) →
      (Attributed (nextBatch openPulls mode table) sources
          (syncBatch (nextBatch openPulls mode table) sources table events).table ↔
        Guarded (step (nextBatch openPulls mode table) sources) (Undisturbed sources)
          (startSync table) events)) ∧
    ∀ attempts, (∃ delivery, chain openPulls mode table attempts delivery = none) ↔
      ∀ delivery, chain openPulls mode table attempts delivery ≠ none →
        ∃ later ≥ delivery, (attempts later).rateLimitLow = false := by
  refine ⟨fun sources events hfinished hreported => ?_, fun attempts => chain_ends_iff⟩
  exact attributed_syncBatch_iff sources table (nodup_nextBatch hopen mode table) hreported
    hfinished

/-- A pull request without files and checks, whose requests are answered but for those given. -/
def sourceWith (filePageFails reviewPageFails : ℕ → Bool) (reviews : ℕ) : DetailSource where
  headSha := some "h1"
  diff := ⟨[], List.nodup_nil, nofun⟩
  reviews := (List.range reviews).map fun n => ⟨n + 1⟩
  checkRuns := []
  token := false
  filePageFails := filePageFails
  fileGraphQlFails := false
  reviewPageFails := reviewPageFails
  reviewGraphQlFails := false
  checkPageFails := fun _ => false

/-- The second of two pull requests has no file list to fetch; its failure comes back while the
first one's is fetched. -/
def secondFilesFail (pullNumber : ℕ) : DetailSource :=
  sourceWith (fun _ => pullNumber = 2) (fun _ => false) 0

def overlapping : List Event :=
  [.take 0, .take 1, .begin 0, .begin 1, .fetched 1 .files, .fetched 1 .reviews,
    .fetched 1 .checks, .fetched 0 .files, .fetched 0 .reviews, .fetched 0 .checks,
    .store 0, .store 1, .settle 0, .settle 1]

/-- The second page of a pull request's reviews is not answered. -/
def secondPageLost (_ : ℕ) : DetailSource :=
  sourceWith (fun _ => false) (fun page => page = 2) 101

def onlyOne : List Event :=
  [.take 0, .begin 0, .fetched 0 .files, .fetched 0 .reviews, .fetched 0 .checks, .store 0,
    .settle 0]

/-- The first of two is called partial for the second one's failure, and a pull request whose
second page of reviews is lost is called complete. -/
theorem first_not_attributed :
    ¬ Attributed [1, 2] secondFilesFail (syncBatch [1, 2] secondFilesFail [] overlapping).table ∧
      Finished [1, 2] (syncBatch [1, 2] secondFilesFail [] overlapping) ∧
      ¬ Attributed [1] secondPageLost (syncBatch [1] secondPageLost [] onlyOne).table ∧
      Finished [1] (syncBatch [1] secondPageLost [] onlyOne) := by
  have hfirst : statusOf (syncBatch [1, 2] secondFilesFail [] overlapping).table 1 =
      some .partialSync := by decide +kernel
  have hlost : statusOf (syncBatch [1] secondPageLost [] onlyOne).table 1 = some .complete := by
    decide +kernel
  refine ⟨fun hright => ?_, by decide +kernel, fun hright => ?_, by decide +kernel⟩
  · have hcomplete := (hright 1 (by decide)).mpr fun detail => by cases detail <;> decide +kernel
    rw [hfirst] at hcomplete
    cases hcomplete
  · have hnone := (hright 1 (by decide)).mp hlost .reviews
    exact absurd hnone (by decide +kernel)

/-- One worker after the other syncs both, and no third delivery follows. -/
def oneAfterTheOther : List Event :=
  [.take 0, .begin 0, .fetched 0 .files, .fetched 0 .reviews, .fetched 0 .checks, .store 0,
    .settle 0, .take 1, .begin 1, .fetched 1 .files, .fetched 1 .reviews, .fetched 1 .checks,
    .store 1, .settle 1]

theorem one_after_the_other_attributed :
    Attributed [1, 2] secondFilesFail (syncBatch [1, 2] secondFilesFail [] oneAfterTheOther).table ∧
      ∃ delivery, chain [1, 2] .full [] (fun _ => ⟨false, secondFilesFail, oneAfterTheOther⟩)
        delivery = none := by
  have hboth := @detailSync_settles_iff [1, 2] (by decide) .full []
  constructor
  · refine (hboth.1 secondFilesFail oneAfterTheOther (by decide +kernel) ?_).mpr ?_
    · rintro n hn ⟨detail, hfails⟩
      refine ⟨detail, ?_⟩
      revert n
      cases detail <;> decide +kernel
    · refine ⟨trivial, trivial, ?_, ?_, ?_, trivial, trivial, trivial, trivial, ?_, ?_, ?_, trivial,
        trivial, trivial⟩
      · intro n before pending hphase _ hwarns
        cases hphase
        exact absurd hwarns (by decide)
      · intro n before pending hphase _ hwarns
        cases hphase
        exact absurd hwarns (by decide)
      · intro n before pending hphase _ hwarns
        cases hphase
        exact absurd hwarns (by decide)
      · intro n before pending _ _ _ other hother m since hwindow
        rcases other with _ | _ | other
        · cases hwindow
        · exact absurd rfl hother
        · cases hwindow
      · intro n before pending hphase _ hwarns
        cases hphase
        exact absurd hwarns (by decide)
      · intro n before pending hphase _ hwarns
        cases hphase
        exact absurd hwarns (by decide)
  · exact (hboth.2 fun _ => ⟨false, secondFilesFail, oneAfterTheOther⟩).mpr
      fun delivery _ => ⟨delivery, Nat.le_refl _, rfl⟩

end Jobs

end Gittensory.DetailSync
