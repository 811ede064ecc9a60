import Gittensory.GuardedRun
import Gittensory.JsValue

/-!
Failed merges (`services/merge-failure.ts` and `handleMergeFailure`). A failure is
terminal by its status or its text; any other one counts on the row of the pull request,
and the fifth count holds the pull request for a human. The count is bumped only on a row
that still has the failed head, but it is read from whatever row there is, and a webhook
that moves the head leaves it standing. So the budget is one of the row, not of the
commit, unless the head moves only while nothing has been counted.
-/
namespace Gittensory.MergeRetry

open GuardedRun JsValue TextPattern

/-- A thrown value: an `Error` or not, and the HTTP status Octokit puts on it. -/
structure Thrown where
  isError : Bool := true
  message : String
  status : Option JsNumber := none
  deriving DecidableEq, Repr

def errorMessage (error : Thrown) : String :=
  if error.isError ∧ error.message ≠ "" then error.message else "unknown error"

def MERGE_RETRY_CAP : ℕ := 5

def terminalMergeStatuses : List JsNumber := [.finite 403, .finite 405, .finite 409]

/-- `/merge conflict|not mergeable|cannot be merged|has conflicts|conflicts? with the base/i` -/
def mergeConflictPattern : Pattern :=
  .alts [.literalNoCase "merge conflict", .literalNoCase "not mergeable",
    .literalNoCase "cannot be merged", .literalNoCase "has conflicts",
    .seqs [.literalNoCase "conflict", .opt (.literalNoCase "s"), .literalNoCase " with the base"]]

def isMergeConflictMessage (message : String) : Bool := test mergeConflictPattern message.toList

structure MergeFailure where
  terminal : Bool
  reason : String
  deriving DecidableEq, Repr

def classifyMergeFailure (error : Thrown) : MergeFailure :=
  let message := errorMessage error
  let status := error.status
  if status = some (.finite 403) then
    ⟨true, "merge forbidden (403 — pull_requests:write or branch protection): " ++ message⟩
  else if status = some (.finite 405) then
    ⟨true, "merge not allowed (405 — repo merge policy forbids an automated merge): " ++ message⟩
  else if status = some (.finite 409) then
    ⟨true, "merge conflict / required check absent (409): " ++ message⟩
  else if status.any (fun code => code ∈ terminalMergeStatuses) then
    ⟨true, "merge rejected (" ++ (status.map JsNumber.toText).getD "" ++ "): " ++ message⟩
  else if isMergeConflictMessage message then
    ⟨true, "branch conflicts with base — contributor must rebase: " ++ message⟩
  else ⟨false, message⟩

/-- The columns of a stored pull request that the bookkeeping reads and writes. -/
structure PullRequestRow where
  headSha : Option String
  mergeAttemptCount : ℕ := 0
  mergeBlockedSha : Option String := none
  mergeBlockedReason : Option String := none
  deriving DecidableEq, Repr

/-- A new row has the columns' defaults. An undefined head leaves a stored one as it is,
and no upsert touches the merge columns. -/
def upsertPullRequestFromGitHub (row : Option PullRequestRow) (headSha : Option String) :
    PullRequestRow :=
  match row with
  | none => { headSha := headSha }
  | some row => { row with headSha := headSha.or row.headSha }

/-- `UPDATE ... WHERE head_sha = headSha` on the row of the pull request. -/
def updateWhereHead (row : Option PullRequestRow) (headSha : String)
    (update : PullRequestRow → PullRequestRow) : Option PullRequestRow :=
  row.map fun row => if row.headSha = some headSha then update row else row

def bumpAttemptCount (row : Option PullRequestRow) (headSha : String) : Option PullRequestRow :=
  updateWhereHead row headSha fun row =>
    { row with mergeAttemptCount := row.mergeAttemptCount + 1 }

/-- The `SELECT` after the bump, which asks for no head. -/
def readAttemptCount (row : Option PullRequestRow) : ℕ :=
  match row with
  | none => 0
  | some row => row.mergeAttemptCount

def bumpPullRequestMergeAttempt (row : Option PullRequestRow) (headSha : String) :
    Option PullRequestRow × ℕ :=
  let bumped := bumpAttemptCount row headSha
  (bumped, readAttemptCount bumped)

def markPullRequestMergeBlocked (row : Option PullRequestRow) (headSha reason : String) :
    Option PullRequestRow :=
  updateWhereHead row headSha fun row =>
    { row with
      mergeBlockedSha := some headSha
      mergeBlockedReason := some (sliceTo 280 reason) }

def capReason (attempts : ℕ) (message : String) : String :=
  "merge could not complete after " ++ toString attempts ++ " attempt(s): " ++ message

/-- The row after a failed merge. Its audit record is written best-effort. -/
def handleMergeFailure (row : Option PullRequestRow) (headSha : String) (error : Thrown) :
    Option PullRequestRow :=
  let classified := classifyMergeFailure error
  if classified.terminal then markPullRequestMergeBlocked row headSha classified.reason
  else
    let (bumped, attempts) := bumpPullRequestMergeAttempt row headSha
    if attempts ≥ MERGE_RETRY_CAP then
      markPullRequestMergeBlocked bumped headSha (capReason attempts (errorMessage error))
    else bumped

/-- Where one failed merge is between its database calls. -/
inductive Phase where
  | idle
  | bumped (headSha : String) (error : Thrown)
  | counted (headSha : String) (error : Thrown) (attempts : ℕ)

/-- The stored row, the failed merges under way, and what has happened: the heads on
which a retryable failure was counted and those blocked for reaching the cap. -/
structure System where
  row : Option PullRequestRow
  phase : ℕ → Phase
  recorded : List String
  capBlocked : List String

def initial : System := ⟨none, fun _ => .idle, [], []⟩

inductive Event where
  | upsert (headSha : Option String)
  | fail (merge : ℕ) (headSha : String) (error : Thrown)
  | count (merge : ℕ)
  | escalate (merge : ℕ)

def hasHead (row : Option PullRequestRow) (headSha : String) : Bool :=
  row.any fun row => row.headSha = some headSha

def System.setPhase (system : System) (merge : ℕ) (phase : Phase) : System :=
  { system with phase := Function.update system.phase merge phase }

/-- One database call. Each of many failed merges makes its calls in order, with calls
of the others and webhooks at any point between. -/
def step (system : System) : Event → System
  | .upsert headSha =>
      { system with row := some (upsertPullRequestFromGitHub system.row headSha) }
  | .fail merge headSha error =>
      match system.phase merge with
      | .idle =>
          let classified := classifyMergeFailure error
          if headSha = "" then system
          else if classified.terminal then
            { system with row := markPullRequestMergeBlocked system.row headSha classified.reason }
          else
            { system.setPhase merge (.bumped headSha error) with
              row := bumpAttemptCount system.row headSha
              recorded := system.recorded ++
                (if hasHead system.row headSha then [headSha] else []) }
      | _ => system
  | .count merge =>
      match system.phase merge with
      | .bumped headSha error =>
          system.setPhase merge (.counted headSha error (readAttemptCount system.row))
      | _ => system
  | .escalate merge =>
      match system.phase merge with
      | .counted headSha error attempts =>
          if attempts ≥ MERGE_RETRY_CAP then
            { system.setPhase merge .idle with
              row := markPullRequestMergeBlocked system.row headSha
                (capReason attempts (errorMessage error))
              capBlocked := system.capBlocked ++
                (if hasHead system.row headSha then [headSha] else []) }
          else system.setPhase merge .idle
      | _ => system

/-- A head moves only on a row with nothing counted. -/
def MovesUncounted (system : System) : Event → Prop
  | .upsert headSha => ∀ row, system.row = some row →
      (headSha.or row.headSha) = row.headSha ∨ row.mergeAttemptCount = 0
  | _ => True

/-- The first call of a retryable failure. -/
theorem step_fail_retryable {system : System} {merge : ℕ} {headSha : String} {error : Thrown}
    (hidle : system.phase merge = .idle) (hhead : headSha ≠ "")
    (hretry : (classifyMergeFailure error).terminal = false) :
    step system (.fail merge headSha error) =
      { system.setPhase merge (.bumped headSha error) with
        row := bumpAttemptCount system.row headSha
        recorded := system.recorded ++
          (if hasHead system.row headSha then [headSha] else []) } := by
  simp only [step, hidle, if_neg hhead, hretry, Bool.false_eq_true, if_false]

theorem step_fail_terminal {system : System} {merge : ℕ} {headSha : String} {error : Thrown}
    (hidle : system.phase merge = .idle) (hhead : headSha ≠ "")
    (hterminal : (classifyMergeFailure error).terminal = true) :
    step system (.fail merge headSha error) =
      { system with row :=
          markPullRequestMergeBlocked system.row headSha (classifyMergeFailure error).reason } := by
  simp only [step, hidle, if_neg hhead, hterminal, if_true]

/-- Everything counted was counted on the head the row has, as often as the row says. -/
structure Budgeted (system : System) : Prop where
  total : readAttemptCount system.row = system.recorded.length
  onHead : ∀ headSha ∈ system.recorded, hasHead system.row headSha = true
  counted : ∀ merge headSha error attempts,
    system.phase merge = .counted headSha error attempts → attempts ≤ system.recorded.length
  capped : ∀ headSha ∈ system.capBlocked, MERGE_RETRY_CAP ≤ system.recorded.count headSha

theorem readAttemptCount_updateWhereHead_of_count {row : Option PullRequestRow} {headSha : String}
    {update : PullRequestRow → PullRequestRow}
    (h : ∀ row, (update row).mergeAttemptCount = row.mergeAttemptCount) :
    readAttemptCount (updateWhereHead row headSha update) = readAttemptCount row := by
  cases row with
  | none => rfl
  | some row =>
    by_cases hhead : row.headSha = some headSha
    · simp only [updateWhereHead, Option.map_some, if_pos hhead, readAttemptCount, h]
    · simp only [updateWhereHead, Option.map_some, if_neg hhead]

theorem hasHead_updateWhereHead {row : Option PullRequestRow} {headSha : String}
    {update : PullRequestRow → PullRequestRow} (h : ∀ row, (update row).headSha = row.headSha)
    (other : String) : hasHead (updateWhereHead row headSha update) other = hasHead row other := by
  cases row with
  | none => rfl
  | some row =>
    by_cases hhead : row.headSha = some headSha
    · simp only [updateWhereHead, Option.map_some, if_pos hhead, hasHead, Option.any_some, h]
    · simp only [updateWhereHead, Option.map_some, if_neg hhead]

theorem readAttemptCount_mark (row : Option PullRequestRow) (headSha reason : String) :
    readAttemptCount (markPullRequestMergeBlocked row headSha reason) = readAttemptCount row :=
  readAttemptCount_updateWhereHead_of_count fun _ => rfl

theorem hasHead_mark (row : Option PullRequestRow) (headSha reason other : String) :
    hasHead (markPullRequestMergeBlocked row headSha reason) other = hasHead row other := by
  unfold markPullRequestMergeBlocked
  apply hasHead_updateWhereHead
  intro stored
  rfl

theorem hasHead_bump (row : Option PullRequestRow) (headSha other : String) :
    hasHead (bumpAttemptCount row headSha) other = hasHead row other := by
  unfold bumpAttemptCount
  apply hasHead_updateWhereHead
  intro stored
  rfl

/-- A failure is counted exactly when the row still has the failed head. -/
theorem readAttemptCount_bump (row : Option PullRequestRow) (headSha : String) :
    readAttemptCount (bumpAttemptCount row headSha) =
      readAttemptCount row + (if hasHead row headSha then [headSha] else []).length := by
  cases row with
  | none => rfl
  | some row =>
    by_cases hhead : row.headSha = some headSha
    · simp [bumpAttemptCount, updateWhereHead, hhead, readAttemptCount, hasHead]
    · simp [bumpAttemptCount, updateWhereHead, hhead, readAttemptCount, hasHead]

theorem headSha_unique {row : Option PullRequestRow} {headSha other : String}
    (h : hasHead row headSha = true) (h' : hasHead row other = true) : headSha = other := by
  cases row with
  | none => cases h
  | some row =>
    simp only [hasHead, Option.any_some, decide_eq_true_eq] at h h'
    exact Option.some.inj (h.symm.trans h')

/-- All failures were counted on the one head, so the row's count is that head's own. -/
theorem Budgeted.count_eq {system : System} (h : Budgeted system) {headSha : String}
    (hhead : hasHead system.row headSha = true) :
    system.recorded.count headSha = system.recorded.length := by
  rw [List.count_eq_length]
  intro other hother
  exact headSha_unique hhead (h.onHead other hother)

theorem step_upsert_budgeted {system : System} (h : Budgeted system) (headSha : Option String)
    (hmoves : MovesUncounted system (.upsert headSha)) :
    Budgeted (step system (.upsert headSha)) := by
  have hsame : readAttemptCount (some (upsertPullRequestFromGitHub system.row headSha)) =
      readAttemptCount system.row := by
    cases system.row <;> rfl
  refine ⟨hsame.trans h.total, fun other hother => ?_, h.counted, h.capped⟩
  have hhead := h.onHead other hother
  cases hrow : system.row with
  | none =>
    rw [hrow] at hhead
    cases hhead
  | some row =>
    change hasHead (some (upsertPullRequestFromGitHub system.row headSha)) other = true
    rw [hrow] at hhead ⊢
    rcases hmoves row hrow with hstays | hzero
    · simp only [hasHead, Option.any_some, upsertPullRequestFromGitHub, hstays] at hhead ⊢
      exact hhead
    · -- with nothing counted no head has been recorded
      have htotal := h.total
      rw [hrow, readAttemptCount, hzero] at htotal
      have hnone : system.recorded = [] := List.length_eq_zero_iff.mp htotal.symm
      change other ∈ system.recorded at hother
      rw [hnone] at hother
      cases hother

theorem phase_setPhase_counted {system : System} {merge other : ℕ} {phase : Phase}
    {headSha : String} {error : Thrown} {attempts : ℕ}
    (h : (system.setPhase merge phase).phase other = .counted headSha error attempts) :
    system.phase other = .counted headSha error attempts ∨
      phase = .counted headSha error attempts := by
  change Function.update system.phase merge phase other = _ at h
  by_cases hother : other = merge
  · rw [hother, Function.update_self] at h
    exact Or.inr h
  · rw [Function.update_of_ne hother] at h
    exact Or.inl h

theorem step_fail_budgeted {system : System} (h : Budgeted system) (merge : ℕ) (headSha : String)
    (error : Thrown) : Budgeted (step system (.fail merge headSha error)) := by
  cases hphase : system.phase merge with
  | bumped _ _ => simpa only [step, hphase] using h
  | counted _ _ _ => simpa only [step, hphase] using h
  | idle =>
    by_cases hempty : headSha = ""
    · simpa only [step, hphase, if_pos hempty] using h
    cases hterminal : (classifyMergeFailure error).terminal with
    | true =>
      rw [step_fail_terminal hphase hempty hterminal]
      refine ⟨?_, fun other hother => ?_, h.counted, h.capped⟩
      · exact (readAttemptCount_mark ..).trans h.total
      · exact (hasHead_mark ..).trans (h.onHead other hother)
    | false =>
      rw [step_fail_retryable hphase hempty hterminal]
      refine ⟨?_, fun other hother => ?_, fun other head error attempts hcounted => ?_,
        fun other hother => ?_⟩
      · dsimp only
        rw [readAttemptCount_bump, h.total, List.length_append]
      · dsimp only at hother ⊢
        rw [hasHead_bump]
        rcases List.mem_append.mp hother with hold | hnew
        · exact h.onHead other hold
        · by_cases hhead : hasHead system.row headSha = true
          · rw [if_pos hhead, List.mem_singleton] at hnew
            rw [hnew]
            exact hhead
          · rw [if_neg hhead] at hnew
            cases hnew
      · dsimp only at hcounted ⊢
        rw [List.length_append]
        rcases phase_setPhase_counted hcounted with hold | hnew
        · have := h.counted other head error attempts hold
          omega
        · cases hnew
      · dsimp only
        rw [List.count_append]
        have := h.capped other hother
        omega

theorem step_count_budgeted {system : System} (h : Budgeted system) (merge : ℕ) :
    Budgeted (step system (.count merge)) := by
  cases hphase : system.phase merge with
  | idle => simpa only [step, hphase] using h
  | counted _ _ _ => simpa only [step, hphase] using h
  | bumped headSha error =>
    simp only [step, hphase]
    refine ⟨h.total, h.onHead, fun other head error' attempts hcounted => ?_, h.capped⟩
    rcases phase_setPhase_counted hcounted with hold | hnew
    · exact h.counted other head error' attempts hold
    · cases hnew
      exact h.total.le

theorem step_escalate_budgeted {system : System} (h : Budgeted system) (merge : ℕ) :
    Budgeted (step system (.escalate merge)) := by
  cases hphase : system.phase merge with
  | idle => simpa only [step, hphase] using h
  | bumped _ _ => simpa only [step, hphase] using h
  | counted headSha error attempts =>
    have hidle : Budgeted (system.setPhase merge .idle) := by
      refine ⟨h.total, h.onHead, fun other head error' attempts' hcounted => ?_, h.capped⟩
      rcases phase_setPhase_counted hcounted with hold | hnew
      · exact h.counted other head error' attempts' hold
      · cases hnew
    simp only [step, hphase]
    by_cases hcap : attempts ≥ MERGE_RETRY_CAP
    · rw [if_pos hcap]
      refine ⟨?_, fun other hother => ?_, hidle.counted, fun other hother => ?_⟩
      · exact (readAttemptCount_mark ..).trans h.total
      · exact (hasHead_mark ..).trans (h.onHead other hother)
      · dsimp only at hother ⊢
        rcases List.mem_append.mp hother with hold | hnew
        · exact h.capped other hold
        · by_cases hhead : hasHead system.row headSha = true
          · rw [if_pos hhead, List.mem_singleton] at hnew
            have hread := h.counted merge headSha error attempts hphase
            have hcount := h.count_eq hhead
            change MERGE_RETRY_CAP ≤ system.recorded.count other
            rw [hnew, hcount]
            omega
          · rw [if_neg hhead] at hnew
            cases hnew
    · rw [if_neg hcap]
      exact hidle

theorem step_budgeted (system : System) (event : Event) (h : Budgeted system)
    (hmoves : MovesUncounted system event) : Budgeted (step system event) := by
  cases event with
  | upsert headSha => exact step_upsert_budgeted h headSha hmoves
  | fail merge headSha error => exact step_fail_budgeted h merge headSha error
  | count merge => exact step_count_budgeted h merge
  | escalate merge => exact step_escalate_budgeted h merge

theorem initial_budgeted : Budgeted initial := ⟨rfl, nofun, nofun, nofun⟩

/-- While heads move only on rows with nothing counted, a head is blocked for reaching
the cap only after that many failures were counted on this very head. -/
theorem budget_per_commit (events : List Event)
    (hmoves : Guarded step MovesUncounted initial events) :
    ∀ headSha ∈ (run step initial events).capBlocked,
      MERGE_RETRY_CAP ≤ (run step initial events).recorded.count headSha :=
  (run_invariant step MovesUncounted step_budgeted initial events initial_budgeted hmoves).capped

def serverError : Thrown := { message := "Server Error", status := some (.finite 502) }

/-- One failed merge of a head, its calls uninterrupted. -/
def failedMerge (headSha : String) : List Event :=
  [.fail 0 headSha serverError, .count 0, .escalate 0]

theorem budget_per_commit_one_head :
    MERGE_RETRY_CAP ≤ (run step initial (.upsert (some "h1") ::
      (List.replicate 5 (failedMerge "h1")).flatten)).recorded.count "h1" :=
  budget_per_commit _ (by
    simp only [Guarded, List.replicate, List.flatten_cons, List.flatten_nil, failedMerge,
      List.cons_append, List.nil_append, MovesUncounted, and_true]
    intro row hrow
    cases hrow) "h1" (by decide +kernel)

/-- Four failures on one commit leave the next commit a single attempt. -/
theorem budget_shared_by_commits :
    ¬ ∀ (events : List Event), ∀ headSha ∈ (run step initial events).capBlocked,
      MERGE_RETRY_CAP ≤ (run step initial events).recorded.count headSha := by
  intro h
  have hblocked := h (.upsert (some "h1") :: (List.replicate 4 (failedMerge "h1")).flatten ++
    .upsert (some "h2") :: failedMerge "h2") "h2" (by decide +kernel)
  revert hblocked
  decide +kernel

end Gittensory.MergeRetry
