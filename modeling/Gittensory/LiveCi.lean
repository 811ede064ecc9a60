import Gittensory.AgentActions
import Gittensory.PagedRead

/-!
The live CI verdict of a head commit (`github/backfill.ts`): check-runs, read page by
page, and classic commit statuses, of which one page is read, are folded into one
tally under the required contexts of the base branch. The verdict of what was read is
characterised first; the theorems about a green verdict then compare what was read with
all that the commit has.
-/
namespace Gittensory.LiveCi

open AgentActions JsValue PagedRead

def ciFailingConclusions : List String :=
  ["failure", "timed_out", "cancelled", "action_required", "startup_failure"]

def ciPassingConclusions : List String := ["success", "neutral", "skipped"]

def prDetailMaxPages : ℕ := 10

/-- Titles and summaries that are not strings read like absent ones. -/
structure GitHubCheckRun where
  name : String
  status : Option String
  conclusion : Option String
  detailsUrl : Option String
  outputTitle : Option String
  outputSummary : Option String
  deriving DecidableEq, Repr

structure GitHubCommitStatus where
  context : Option String
  state : Option String
  description : Option String
  targetUrl : Option String
  deriving DecidableEq, Repr

/-- Everything GitHub has reported for one commit. -/
structure CommitChecks where
  checkRuns : List GitHubCheckRun
  statuses : List GitHubCommitStatus
  deriving DecidableEq, Repr

structure FailingDetail where
  name : String
  summary : Option String
  detailsUrl : Option String
  deriving DecidableEq, Repr

structure LiveCiAggregate where
  ciState : CiState
  failingDetails : List FailingDetail
  nonRequiredFailingDetails : List FailingDetail
  deriving DecidableEq, Repr

/-- The reply of `/branches/{base}/protection/required_status_checks`. -/
structure RequiredStatusChecks where
  contexts : Option (List (Option String))
  checks : Option (List (Option String))
  deriving DecidableEq, Repr

/-- The names with a letter that is no space; only membership and emptiness of the
set matter. -/
def presentNames (names : List (Option String)) : List String :=
  (names.filterMap id).filter (fun name => 0 < jsLength (trim name))

/-- `none` is `null`: no base branch, or the request failed. -/
def fetchRequiredStatusContexts (baseRef : Option String)
    (reply : Option RequiredStatusChecks) : Option (List String) :=
  if truthy baseRef = false then none
  else reply.map (fun result =>
    presentNames (result.contexts.getD []) ++ presentNames (result.checks.getD []))

/-- An unknown or empty set of required contexts lets every check gate. -/
def isRequired (requiredContexts : Option (List String)) (name : String) : Bool :=
  match requiredContexts with
  | none => true
  | some names => names = [] ∨ name ∈ names

inductive CheckVerdict where
  | failing
  | passing
  | pending
  deriving DecidableEq, Repr

/-- One check as the tally sees it. -/
structure CheckReport where
  name : String
  verdict : CheckVerdict
  detail : FailingDetail
  deriving DecidableEq, Repr

def checkRunVerdict (run : GitHubCheckRun) : CheckVerdict :=
  let conclusion := toLowerCase (run.conclusion.getD "")
  let status := toLowerCase (run.status.getD "")
  if conclusion ≠ "" ∧ conclusion ∈ ciFailingConclusions then .failing
  else if (if conclusion ≠ "" then conclusion ∈ ciPassingConclusions else status = "completed")
    then .passing
  else .pending

/-- The first of title and summary that is not blank, trimmed and cut. -/
def checkRunSummary (run : GitHubCheckRun) : Option String :=
  (([run.outputTitle, run.outputSummary].filterMap id).find?
    (fun value => 0 < jsLength (trim value))).map (fun value => sliceTo 200 (trim value))

def checkRunReport (run : GitHubCheckRun) : CheckReport where
  name := run.name
  verdict := checkRunVerdict run
  detail := ⟨run.name, present (checkRunSummary run), present run.detailsUrl⟩

def commitStatusVerdict (status : GitHubCommitStatus) : CheckVerdict :=
  let state := toLowerCase (status.state.getD "")
  if state = "failure" ∨ state = "error" then .failing
  else if state = "success" then .passing
  else .pending

def commitStatusReport (status : GitHubCommitStatus) : CheckReport where
  name := status.context.getD "status"
  verdict := commitStatusVerdict status
  detail := ⟨status.context.getD "status",
    present (status.description.map (fun text => sliceTo 200 (trim text))),
    present status.targetUrl⟩

/-- The variables of the aggregate while the checks are read. -/
structure CiTally where
  failingDetails : List FailingDetail
  nonRequiredFailingDetails : List FailingDetail
  total : ℕ
  anyPending : Bool
  deriving DecidableEq, Repr

def emptyTally : CiTally := ⟨[], [], 0, false⟩

/-- Both loops handle a check alike once its name and verdict are known. -/
def tallyReport (requiredContexts : Option (List String)) (tally : CiTally)
    (report : CheckReport) : CiTally :=
  let counted := { tally with total := tally.total + 1 }
  match report.verdict with
  | .failing =>
      if isRequired requiredContexts report.name then
        { counted with failingDetails := counted.failingDetails ++ [report.detail] }
      else
        { counted with nonRequiredFailingDetails :=
            counted.nonRequiredFailingDetails ++ [report.detail] }
  | .passing => counted
  | .pending =>
      if isRequired requiredContexts report.name then { counted with anyPending := true }
      else counted

def tallyCheckRun (requiredContexts : Option (List String)) (tally : CiTally)
    (run : GitHubCheckRun) : CiTally :=
  tallyReport requiredContexts tally (checkRunReport run)

def tallyCommitStatus (requiredContexts : Option (List String)) (tally : CiTally)
    (status : GitHubCommitStatus) : CiTally :=
  tallyReport requiredContexts tally (commitStatusReport status)

def aggregateOfTally (tally : CiTally) : LiveCiAggregate where
  ciState := if 0 < tally.failingDetails.length then .failed
    else if tally.anyPending then .pending
    else if 0 < tally.total then .passed
    else .unverified
  failingDetails := tally.failingDetails
  nonRequiredFailingDetails := tally.nonRequiredFailingDetails

/-- The aggregate of the given checks, none left out. -/
def aggregateOf (requiredContexts : Option (List String)) (commit : CommitChecks) :
    LiveCiAggregate :=
  aggregateOfTally (commit.statuses.foldl (tallyCommitStatus requiredContexts)
    (commit.checkRuns.foldl (tallyCheckRun requiredContexts) emptyTally))

/-- Which requests fail: the check-run pages, the status page, the protection request. -/
structure FailingRequests where
  checkRuns : ℕ → Bool
  statuses : ℕ → Bool
  requiredContexts : Bool

def noFailingRequests : FailingRequests := ⟨fun _ => false, fun _ => false, false⟩

/-- What the two loops get to see of the commit's checks. -/
def fetchChecks (commit : CommitChecks) (fails : FailingRequests) : CommitChecks where
  checkRuns := readPages (serve 100 commit.checkRuns fails.checkRuns) prDetailMaxPages 1
  statuses := readPages (serve 100 commit.statuses fails.statuses) 1 1

def fetchLiveCiAggregate (commit : CommitChecks) (fails : FailingRequests)
    (headSha : Option String) (requiredContexts : Option (List String)) : LiveCiAggregate :=
  if truthy headSha = false then ⟨.unverified, [], []⟩
  else aggregateOf requiredContexts (fetchChecks commit fails)

/-! ## The verdict of what was read -/

def reportsOf (commit : CommitChecks) : List CheckReport :=
  commit.checkRuns.map checkRunReport ++ commit.statuses.map commitStatusReport

/-- The check has authority over the gate. -/
def Gates (requiredContexts : Option (List String)) (report : CheckReport) : Prop :=
  isRequired requiredContexts report.name = true

instance (requiredContexts : Option (List String)) (report : CheckReport) :
    Decidable (Gates requiredContexts report) :=
  inferInstanceAs (Decidable (isRequired requiredContexts report.name = true))

theorem foldl_tallyReport (requiredContexts : Option (List String))
    (reports : List CheckReport) (tally : CiTally) :
    reports.foldl (tallyReport requiredContexts) tally =
      { failingDetails := tally.failingDetails ++ (reports.filter (fun report =>
          report.verdict = .failing ∧ Gates requiredContexts report)).map CheckReport.detail
        nonRequiredFailingDetails := tally.nonRequiredFailingDetails ++
          (reports.filter (fun report => report.verdict = .failing ∧
            ¬ Gates requiredContexts report)).map CheckReport.detail
        total := tally.total + reports.length
        anyPending := tally.anyPending || reports.any (fun report =>
          report.verdict = .pending ∧ Gates requiredContexts report) } := by
  induction reports generalizing tally with
  | nil => simp
  | cons report rest ih =>
    rw [List.foldl_cons, ih]
    have hlength : tally.total + 1 + rest.length = tally.total + (rest.length + 1) := by omega
    unfold tallyReport
    by_cases hgates : isRequired requiredContexts report.name = true
    · cases hverdict : report.verdict <;>
        simp [hverdict, hgates, Gates, hlength]
    · cases hverdict : report.verdict <;>
        simp [hverdict, hgates, Gates, hlength]

theorem aggregateOf_eq (requiredContexts : Option (List String)) (commit : CommitChecks) :
    aggregateOf requiredContexts commit =
      aggregateOfTally ((reportsOf commit).foldl (tallyReport requiredContexts) emptyTally) := by
  unfold aggregateOf reportsOf
  rw [List.foldl_append, List.foldl_map, List.foldl_map]
  rfl

def AnyFailing (requiredContexts : Option (List String)) (commit : CommitChecks) : Prop :=
  ∃ report ∈ reportsOf commit, Gates requiredContexts report ∧ report.verdict = .failing

def AnyPending (requiredContexts : Option (List String)) (commit : CommitChecks) : Prop :=
  ∃ report ∈ reportsOf commit, Gates requiredContexts report ∧ report.verdict = .pending

instance (requiredContexts : Option (List String)) (commit : CommitChecks) :
    Decidable (AnyFailing requiredContexts commit) :=
  inferInstanceAs (Decidable (∃ report ∈ reportsOf commit,
    Gates requiredContexts report ∧ report.verdict = .failing))

instance (requiredContexts : Option (List String)) (commit : CommitChecks) :
    Decidable (AnyPending requiredContexts commit) :=
  inferInstanceAs (Decidable (∃ report ∈ reportsOf commit,
    Gates requiredContexts report ∧ report.verdict = .pending))

/-- Failing goes before pending, pending before passed, and no check at all is no
verdict. -/
theorem aggregateOf_ciState (requiredContexts : Option (List String)) (commit : CommitChecks) :
    (aggregateOf requiredContexts commit).ciState =
      if AnyFailing requiredContexts commit then .failed
      else if AnyPending requiredContexts commit then .pending
      else if reportsOf commit ≠ [] then .passed
      else .unverified := by
  rw [aggregateOf_eq, foldl_tallyReport]
  have hfailing : 0 < (emptyTally.failingDetails ++ ((reportsOf commit).filter (fun report =>
      report.verdict = .failing ∧ Gates requiredContexts report)).map
        CheckReport.detail).length ↔ AnyFailing requiredContexts commit := by
    simp only [emptyTally, List.nil_append, List.length_map, List.length_pos_iff_exists_mem,
      List.mem_filter, decide_eq_true_eq]
    constructor
    · intro h
      obtain ⟨report, hmem, hverdict, hgates⟩ := h
      exact ⟨report, hmem, hgates, hverdict⟩
    · intro h
      obtain ⟨report, hmem, hgates, hverdict⟩ := h
      exact ⟨report, hmem, hverdict, hgates⟩
  have hpending : (emptyTally.anyPending || (reportsOf commit).any (fun report =>
      report.verdict = .pending ∧ Gates requiredContexts report)) = true ↔
        AnyPending requiredContexts commit := by
    simp only [emptyTally, Bool.false_or, List.any_eq_true, decide_eq_true_eq]
    constructor
    · intro h
      obtain ⟨report, hmem, hverdict, hgates⟩ := h
      exact ⟨report, hmem, hgates, hverdict⟩
    · intro h
      obtain ⟨report, hmem, hgates, hverdict⟩ := h
      exact ⟨report, hmem, hverdict, hgates⟩
  have htotal : 0 < emptyTally.total + (reportsOf commit).length ↔ reportsOf commit ≠ [] := by
    simp [emptyTally, List.length_pos_iff]
  unfold aggregateOfTally
  simp only [hfailing, hpending, htotal]

/-- A verdict is green when something was reported and nothing that gates is red or
still running. -/
theorem aggregateOf_passed_iff (requiredContexts : Option (List String))
    (commit : CommitChecks) :
    (aggregateOf requiredContexts commit).ciState = .passed ↔ reportsOf commit ≠ [] ∧
      ∀ report ∈ reportsOf commit, Gates requiredContexts report → report.verdict = .passing := by
  rw [aggregateOf_ciState]
  split_ifs with hfailing hpending hreported
  · obtain ⟨report, hmem, hgates, hverdict⟩ := hfailing
    simp only [false_iff, not_and, not_forall]
    intro _
    exact ⟨report, hmem, hgates, by simp [hverdict]⟩
  · obtain ⟨report, hmem, hgates, hverdict⟩ := hpending
    simp only [false_iff, not_and, not_forall]
    intro _
    exact ⟨report, hmem, hgates, by simp [hverdict]⟩
  · simp only [true_iff]
    refine ⟨hreported, ?_⟩
    intro report hmem hgates
    cases hverdict : report.verdict with
    | failing => exact absurd ⟨report, hmem, hgates, hverdict⟩ hfailing
    | passing => rfl
    | pending => exact absurd ⟨report, hmem, hgates, hverdict⟩ hpending
  · simp only [false_iff, not_and]
    exact fun h => absurd h hreported

theorem aggregateOf_failed_iff (requiredContexts : Option (List String))
    (commit : CommitChecks) :
    (aggregateOf requiredContexts commit).ciState = .failed ↔
      AnyFailing requiredContexts commit := by
  rw [aggregateOf_ciState]
  split_ifs <;> simp_all

end Gittensory.LiveCi
