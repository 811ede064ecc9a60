import Gittensory.LiveCi

/-!
How far the live CI verdict answers for the whole commit. A run reads the first pages
of the check-runs and one page of statuses, so it can miss a gating check behind them,
and it never asks whether every required context has reported. Both comparisons with
the whole commit are decided exactly by what was read and what was left unread.
-/
namespace Gittensory.CiVerdict

open AgentActions JsValue LiveCi PagedRead

/-- What one run reads: check-runs up to the first failing page and at most ten pages,
and the first page of statuses. -/
def readChecks (commit : CommitChecks) (fails : FailingRequests) (headSha : Option String) :
    CommitChecks :=
  if truthy headSha = false then ⟨[], []⟩
  else
    { checkRuns := commit.checkRuns.take (100 * servedPages fails.checkRuns prDetailMaxPages 1)
      statuses := commit.statuses.take (100 * servedPages fails.statuses 1 1) }

/-- The checks behind them. -/
def unreadChecks (commit : CommitChecks) (fails : FailingRequests) (headSha : Option String) :
    CommitChecks :=
  if truthy headSha = false then commit
  else
    { checkRuns := commit.checkRuns.drop (100 * servedPages fails.checkRuns prDetailMaxPages 1)
      statuses := commit.statuses.drop (100 * servedPages fails.statuses 1 1) }

theorem mem_reportsOf_iff (commit : CommitChecks) (report : CheckReport) :
    report ∈ reportsOf commit ↔ (∃ run ∈ commit.checkRuns, checkRunReport run = report) ∨
      ∃ status ∈ commit.statuses, commitStatusReport status = report := by
  simp [reportsOf]

theorem mem_take_or_mem_drop {α : Type*} (n : ℕ) (items : List α) (item : α) :
    item ∈ items ↔ item ∈ items.take n ∨ item ∈ items.drop n := by
  rw [← List.mem_append, List.take_append_drop]

/-- Every check of the commit is read or left unread. -/
theorem mem_reportsOf_read_or_unread (commit : CommitChecks) (fails : FailingRequests)
    (headSha : Option String) (report : CheckReport) :
    report ∈ reportsOf commit ↔ report ∈ reportsOf (readChecks commit fails headSha) ∨
      report ∈ reportsOf (unreadChecks commit fails headSha) := by
  unfold readChecks unreadChecks
  split_ifs
  · simp [reportsOf]
  · simp only [mem_reportsOf_iff]
    constructor
    · intro h
      rcases h with ⟨run, hmem, hreport⟩ | ⟨status, hmem, hreport⟩
      · rcases (mem_take_or_mem_drop _ _ run).mp hmem with h | h
        · exact Or.inl (Or.inl ⟨run, h, hreport⟩)
        · exact Or.inr (Or.inl ⟨run, h, hreport⟩)
      · rcases (mem_take_or_mem_drop _ _ status).mp hmem with h | h
        · exact Or.inl (Or.inr ⟨status, h, hreport⟩)
        · exact Or.inr (Or.inr ⟨status, h, hreport⟩)
    · rintro ((⟨run, hmem, hreport⟩ | ⟨status, hmem, hreport⟩) |
        ⟨run, hmem, hreport⟩ | ⟨status, hmem, hreport⟩)
      · exact Or.inl ⟨run, List.mem_of_mem_take hmem, hreport⟩
      · exact Or.inr ⟨status, List.mem_of_mem_take hmem, hreport⟩
      · exact Or.inl ⟨run, List.mem_of_mem_drop hmem, hreport⟩
      · exact Or.inr ⟨status, List.mem_of_mem_drop hmem, hreport⟩

theorem fetchChecks_eq_readChecks {headSha : Option String} (h : truthy headSha = true)
    (commit : CommitChecks) (fails : FailingRequests) :
    fetchChecks commit fails = readChecks commit fails headSha := by
  unfold fetchChecks readChecks
  rw [if_neg (by simp [h]), readPages_serve_one, readPages_serve_one]

/-- A run answers for what it read, whether or not there is a head commit. -/
theorem fetchLiveCiAggregate_ciState (commit : CommitChecks) (fails : FailingRequests)
    (headSha : Option String) (requiredContexts : Option (List String)) :
    (fetchLiveCiAggregate commit fails headSha requiredContexts).ciState =
      (aggregateOf requiredContexts (readChecks commit fails headSha)).ciState := by
  unfold fetchLiveCiAggregate
  by_cases h : truthy headSha = true
  · rw [if_neg (by simp [h]), fetchChecks_eq_readChecks h]
  · have hfalse : truthy headSha = false := by simpa using h
    rw [if_pos hfalse]
    simp only [readChecks, hfalse, if_true]
    rfl

/-- What a green verdict stands for: every required context has reported, every check
that gates has concluded without failing, and without known required contexts at least
one check was reported. -/
structure GreenCi (requiredContexts : Option (List String)) (commit : CommitChecks) : Prop where
  reported : requiredContexts.getD [] = [] → reportsOf commit ≠ []
  covered : ∀ name ∈ requiredContexts.getD [], ∃ report ∈ reportsOf commit, report.name = name
  green : ∀ report ∈ reportsOf commit, Gates requiredContexts report → report.verdict = .passing

/-- The verdict passes only a green commit and fails exactly one with a red gating check. -/
def FaithfulVerdict (requiredContexts : Option (List String)) (commit : CommitChecks)
    (ciState : CiState) : Prop :=
  (ciState = .passed → GreenCi requiredContexts commit) ∧
    (ciState = .failed ↔ AnyFailing requiredContexts commit)

/-- What was read settles a failing verdict, or nothing unread fails and the verdict is
not green, or nothing unread is pending either and every required context reported. -/
def VerdictSettled (requiredContexts : Option (List String)) (read unread : CommitChecks) : Prop :=
  AnyFailing requiredContexts read ∨
    (¬ AnyFailing requiredContexts unread ∧
      (AnyPending requiredContexts read ∨ reportsOf read = [] ∨
        (¬ AnyPending requiredContexts unread ∧
          ∀ name ∈ requiredContexts.getD [],
            ∃ report ∈ reportsOf read ++ reportsOf unread, report.name = name)))

theorem passing_of_not_any {requiredContexts : Option (List String)} {commit : CommitChecks}
    (hfailing : ¬ AnyFailing requiredContexts commit)
    (hpending : ¬ AnyPending requiredContexts commit) (report : CheckReport)
    (hmem : report ∈ reportsOf commit) (hgates : Gates requiredContexts report) :
    report.verdict = .passing := by
  cases hverdict : report.verdict with
  | failing => exact absurd ⟨report, hmem, hgates, hverdict⟩ hfailing
  | passing => rfl
  | pending => exact absurd ⟨report, hmem, hgates, hverdict⟩ hpending

theorem not_any_of_passing {requiredContexts : Option (List String)} {commit : CommitChecks}
    (hpassing : ∀ report ∈ reportsOf commit, Gates requiredContexts report →
      report.verdict = .passing) :
    ¬ AnyFailing requiredContexts commit ∧ ¬ AnyPending requiredContexts commit := by
  constructor
  · intro hfailing
    obtain ⟨report, hmem, hgates, hverdict⟩ := hfailing
    have h := hpassing report hmem hgates
    simp [hverdict] at h
  · intro hpending
    obtain ⟨report, hmem, hgates, hverdict⟩ := hpending
    have h := hpassing report hmem hgates
    simp [hverdict] at h

/-- Once what was read is green, the commit is green exactly when nothing unread that gates
is red or running and every required context is reported somewhere. -/
theorem greenCi_iff {requiredContexts : Option (List String)} {commit read unread : CommitChecks}
    (hsplit : ∀ report, report ∈ reportsOf commit ↔
      report ∈ reportsOf read ∨ report ∈ reportsOf unread)
    (hreported : reportsOf read ≠ [])
    (hpassing : ∀ report ∈ reportsOf read, Gates requiredContexts report →
      report.verdict = .passing) :
    GreenCi requiredContexts commit ↔ ¬ AnyFailing requiredContexts unread ∧
      ¬ AnyPending requiredContexts unread ∧ ∀ name ∈ requiredContexts.getD [],
        ∃ report ∈ reportsOf read ++ reportsOf unread, report.name = name := by
  constructor
  · intro h
    have hunread : ∀ report ∈ reportsOf unread, Gates requiredContexts report →
        report.verdict = .passing := by
      intro report hmem hgates
      exact h.green report ((hsplit report).mpr (Or.inr hmem)) hgates
    have hnone := not_any_of_passing hunread
    refine ⟨hnone.1, hnone.2, ?_⟩
    intro name hname
    obtain ⟨report, hmem, hreport⟩ := h.covered name hname
    exact ⟨report, List.mem_append.mpr ((hsplit report).mp hmem), hreport⟩
  · intro h
    obtain ⟨hfailing, hpending, hcovered⟩ := h
    refine ⟨?_, ?_, ?_⟩
    · intro _ hnone
      obtain ⟨report, hmem⟩ := List.exists_mem_of_ne_nil _ hreported
      have h := (hsplit report).mpr (Or.inl hmem)
      simp [hnone] at h
    · intro name hname
      obtain ⟨report, hmem, hreport⟩ := hcovered name hname
      exact ⟨report, (hsplit report).mpr (List.mem_append.mp hmem), hreport⟩
    · intro report hmem hgates
      rcases (hsplit report).mp hmem with h | h
      · exact hpassing report h hgates
      · exact passing_of_not_any hfailing hpending report h hgates

/-- With every request answered, the verdict is faithful to the commit exactly when the
first thousand check-runs and hundred statuses settle it. -/
theorem faithfulVerdict_iff (commit : CommitChecks) (headSha : Option String)
    (requiredContexts : Option (List String)) :
    FaithfulVerdict requiredContexts commit
        (fetchLiveCiAggregate commit noFailingRequests headSha requiredContexts).ciState ↔
      VerdictSettled requiredContexts (readChecks commit noFailingRequests headSha)
        (unreadChecks commit noFailingRequests headSha) := by
  have hsplit := mem_reportsOf_read_or_unread commit noFailingRequests headSha
  rw [fetchLiveCiAggregate_ciState]
  generalize readChecks commit noFailingRequests headSha = read at hsplit ⊢
  generalize unreadChecks commit noFailingRequests headSha = unread at hsplit ⊢
  have hfailing : AnyFailing requiredContexts commit ↔
      AnyFailing requiredContexts read ∨ AnyFailing requiredContexts unread := by
    simp only [AnyFailing, hsplit, or_and_right, exists_or]
  unfold FaithfulVerdict VerdictSettled
  rw [aggregateOf_failed_iff, aggregateOf_passed_iff, hfailing]
  by_cases hread : AnyFailing requiredContexts read
  · have hred : ¬ ∀ report ∈ reportsOf read, Gates requiredContexts report →
        report.verdict = .passing := fun h => (not_any_of_passing h).1 hread
    exact ⟨fun _ => Or.inl hread,
      fun _ => ⟨fun h => absurd h.2 hred, fun _ => Or.inl hread, fun _ => hread⟩⟩
  · by_cases hwaits : AnyPending requiredContexts read ∨ reportsOf read = []
    · -- neither green nor red: only an unread failure would be missed
      have hnotGreen : ¬ (reportsOf read ≠ [] ∧ ∀ report ∈ reportsOf read,
          Gates requiredContexts report → report.verdict = .passing) := by
        intro hgreen
        rcases hwaits with hpending | hempty
        · exact (not_any_of_passing hgreen.2).2 hpending
        · exact hgreen.1 hempty
      constructor
      · intro h
        exact Or.inr ⟨fun hunread => hread (h.2.mpr (Or.inr hunread)), or_assoc.mp (Or.inl hwaits)⟩
      · intro h
        obtain ⟨hunread, _⟩ := h.resolve_left hread
        exact ⟨fun hgreen => absurd hgreen hnotGreen, Or.inl, fun h => h.resolve_right hunread⟩
    · rw [not_or] at hwaits
      have hpassing := passing_of_not_any hread hwaits.1
      have hgreen := greenCi_iff hsplit hwaits.2 hpassing
      constructor
      · intro h
        obtain ⟨hunread, hrest⟩ := hgreen.mp (h.1 ⟨hwaits.2, hpassing⟩)
        exact Or.inr ⟨hunread, Or.inr (Or.inr hrest)⟩
      · intro h
        obtain ⟨hunread, hrest⟩ := h.resolve_left hread
        have hcovered := (hrest.resolve_left hwaits.1).resolve_left hwaits.2
        exact ⟨fun _ => hgreen.mpr ⟨hunread, hcovered⟩, Or.inl, fun h => h.resolve_right hunread⟩

/-- A commit on which only an unrelated check has reported so far. -/
def lintOnly : CommitChecks where
  checkRuns := [⟨"lint", some "completed", some "success", none, none, none⟩]
  statuses := []

/-- The verdict is green although the required check has not reported. -/
theorem lintOnly_not_faithful :
    (fetchLiveCiAggregate lintOnly noFailingRequests (some "c0ffee") (some ["build"])).ciState =
        .passed ∧
      ¬ FaithfulVerdict (some ["build"]) lintOnly
        (fetchLiveCiAggregate lintOnly noFailingRequests (some "c0ffee")
          (some ["build"])).ciState := by
  have hpassed : (fetchLiveCiAggregate lintOnly noFailingRequests (some "c0ffee")
      (some ["build"])).ciState = .passed := by decide
  refine ⟨hpassed, ?_⟩
  intro hfaithful
  exact absurd ((hfaithful.1 hpassed).covered "build" (by decide)) (by decide)

/-! ## Failing requests -/

/-- The run's own view of the required contexts, under its failing requests. -/
def seenContexts (baseRef : Option String) (protection : Option RequiredStatusChecks)
    (fails : FailingRequests) : Option (List String) :=
  fetchRequiredStatusContexts baseRef (if fails.requiredContexts then none else protection)

/-- A check that gates under the true required contexts gates under those seen: a failed
protection request lets every check gate. -/
theorem gates_seen {baseRef : Option String} {protection : Option RequiredStatusChecks}
    {fails : FailingRequests} {report : CheckReport}
    (h : Gates (fetchRequiredStatusContexts baseRef protection) report) :
    Gates (seenContexts baseRef protection fails) report := by
  unfold seenContexts
  cases fails.requiredContexts with
  | false => exact h
  | true =>
    have hunknown : fetchRequiredStatusContexts baseRef none = none := by
      unfold fetchRequiredStatusContexts
      split_ifs <;> rfl
    rw [if_pos rfl, hunknown]
    rfl

/-- A green verdict under failing requests stands for a green commit exactly when what
was read is not green, or nothing was read, or everything unread that gates is green. -/
theorem passed_survives_iff (commit : CommitChecks) (fails : FailingRequests)
    (headSha baseRef : Option String) (protection : Option RequiredStatusChecks) :
    ((fetchLiveCiAggregate commit fails headSha
          (seenContexts baseRef protection fails)).ciState = .passed →
        (aggregateOf (fetchRequiredStatusContexts baseRef protection) commit).ciState =
          .passed) ↔
      (∃ report ∈ reportsOf (readChecks commit fails headSha),
          Gates (seenContexts baseRef protection fails) report ∧ report.verdict ≠ .passing) ∨
        reportsOf (readChecks commit fails headSha) = [] ∨
        ∀ report ∈ reportsOf (unreadChecks commit fails headSha),
          Gates (fetchRequiredStatusContexts baseRef protection) report →
            report.verdict = .passing := by
  have hsplit := mem_reportsOf_read_or_unread commit fails headSha
  rw [fetchLiveCiAggregate_ciState, aggregateOf_passed_iff, aggregateOf_passed_iff]
  constructor
  · intro hsurvives
    by_cases hempty : reportsOf (readChecks commit fails headSha) = []
    · exact Or.inr (Or.inl hempty)
    · by_cases hgreen : ∀ report ∈ reportsOf (readChecks commit fails headSha),
          Gates (seenContexts baseRef protection fails) report → report.verdict = .passing
      · obtain ⟨_, hall⟩ := hsurvives ⟨hempty, hgreen⟩
        exact Or.inr (Or.inr (fun report hmem => hall report ((hsplit report).mpr (Or.inr hmem))))
      · left
        simp only [not_forall] at hgreen
        obtain ⟨report, hmem, hgates, hverdict⟩ := hgreen
        exact ⟨report, hmem, hgates, hverdict⟩
  · rintro hcondition ⟨hreported, hgreen⟩
    rcases hcondition with ⟨report, hmem, hgates, hverdict⟩ | hempty | hunread
    · exact absurd (hgreen report hmem hgates) hverdict
    · exact absurd hempty hreported
    · constructor
      · obtain ⟨report, hmem⟩ := List.exists_mem_of_ne_nil _ hreported
        exact List.ne_nil_of_mem ((hsplit report).mpr (Or.inl hmem))
      · intro report hmem hgates
        rcases (hsplit report).mp hmem with h | h
        · exact hgreen report h (gates_seen hgates)
        · exact hunread report h hgates

/-- A green check-run next to a red commit status. -/
def redStatus : CommitChecks where
  checkRuns := [⟨"lint", some "completed", some "success", none, none, none⟩]
  statuses := [⟨some "build", some "failure", none, none⟩]

/-- The verdict is green when the status request fails and red when it does not. -/
theorem redStatus_turned_green :
    (fetchLiveCiAggregate redStatus ⟨fun _ => false, fun _ => true, false⟩ (some "c0ffee")
        (seenContexts (some "main") (some ⟨some [some "build"], none⟩)
          ⟨fun _ => false, fun _ => true, false⟩)).ciState = .passed ∧
      (aggregateOf (fetchRequiredStatusContexts (some "main")
        (some ⟨some [some "build"], none⟩)) redStatus).ciState = .failed := by
  decide

end Gittensory.CiVerdict
