import Gittensory.AwaitedCalls
import Gittensory.LiveGate

/-!
The calls of one review (`maybePublishPrPublicSurface`). The pending gate check is posted
before the evaluation, whose calls may throw at any point; the completing call is issued in
a handler of its own, and a second handler finalizes the check to neutral where the first
was never reached. A check whose completion was neither published nor replaced by the
neutral conclusion is left in no run.
-/
namespace Gittensory.GateFinalization

open AdvisoryGate AwaitedCalls GatePolicy JsValue LiveGate PullRequestAdvisory SecretScan

section Model

inductive CheckRunOutcome where
  | published (id : ℕ)
  | permissionMissing (warning : String)
  deriving DecidableEq, Repr

/-- The awaited calls, and the computations between them that could throw as well. `output`
is a call of the public outputs that follow the gate. -/
inductive Call where
  | auditPrVisibilitySkip (reason : String)
  | getCachedOfficialMinerDetection
  | createOrUpdateSkippedGateCheckRun (reason : String)
  | createOrUpdatePendingGateCheckRun
  | auditGateCheckPermissionMissing (warning : String)
  | listIssues
  | listPullRequests
  | listBountiesByRepo
  | buildReadiness
  | resolvePullRequestFilesForReview
  | buildSlopAssessment
  | updatePullRequestSlopAssessment
  | runAiSlopForAdvisory
  | loadRepoFocusManifest
  | buildFocusManifestGuidance
  | runAiReviewForAdvisory
  | maybeAddSecretLeakFinding
  | loadGateAuthorHistory
  | evaluateGateCheck
  | recordGateBlockOutcome
  | recordGithubProductUsage (eventName : String)
  | recordNativeGateDecision
  | createOrUpdateGateCheckRun (checkRunId : Option ℕ)
  | createOrUpdateErroredGateCheckRun (checkRunId : Option ℕ)
  | recordAuditEvent (eventType detail : String)
  | output (name : String)
  deriving DecidableEq, Repr

/-- The check runs answer with an outcome. -/
def Call.Answer : Call → Type
  | .getCachedOfficialMinerDetection => MinerStatus
  | .createOrUpdateSkippedGateCheckRun _ | .createOrUpdatePendingGateCheckRun
  | .createOrUpdateGateCheckRun _ | .createOrUpdateErroredGateCheckRun _ => CheckRunOutcome
  | .evaluateGateCheck => GateCheckEvaluation
  | _ => Unit

/-- What the source reassigns. -/
structure Locals where
  publicSurfaceSkipped : Bool := false
  official : Option MinerStatus := none
  reviewFiles : Bool := false
  gateFinalized : Bool := false
  deriving DecidableEq, Repr

/-- An exception is its message. -/
abbrev Publishing (α : Type) := Program Call.Answer String Locals α

/-- What the function is called with. -/
structure Review where
  pr : PullRequestRecord
  settings : RepositorySettings
  advisory : Advisory
  authorType : Option String := none
  action : Option String := none
  safetyEnv : SafetyEnv := ⟨none, none⟩
  /-- The calls that publish the outputs, each with whether its exception is caught. -/
  outputs : List (String × Bool) := []

variable (world : World Call.Answer String) (review : Review)

def Review.gateEnabled : Bool := isGateEnabled review.settings review.advisory

def Review.author : Bool := truthy review.pr.authorLogin

def Review.surface (minerStatus : MinerStatus) : PublicSurfaceDecision :=
  decidePublicSurface review.settings
    ⟨review.pr.authorLogin, review.authorType, review.pr.authorAssociation, minerStatus⟩

def Review.prelim : PublicSurfaceDecision := review.surface .notChecked

def Review.needsMinerCheck : Bool :=
  needsMinerCheckForDetectedComment review.settings review.prelim

def Review.prelimHasPublicOutput : Bool :=
  review.prelim.skipReason.isNone && (review.needsMinerCheck || review.prelim.actions ≠ [])

/-- The one action is `none`. -/
def isIdle (decision : PublicSurfaceDecision) : Bool :=
  decision.skipReason.isNone && decision.actions = []

/-- Without a head there is no check run to write. -/
def createOrUpdateNamedCheckRun (check : Publishing CheckRunOutcome) :
    Publishing (Option CheckRunOutcome) :=
  if truthy review.advisory.headSha = false then pure none else do return some (← check)

def createOrUpdateSkippedGateCheckRun : Publishing (Option CheckRunOutcome) :=
  createOrUpdateNamedCheckRun review
    (await world (.createOrUpdateSkippedGateCheckRun "PR closed before full evaluation."))

def createOrUpdatePendingGateCheckRun : Publishing (Option CheckRunOutcome) :=
  createOrUpdateNamedCheckRun review (await world .createOrUpdatePendingGateCheckRun)

def createOrUpdateGateCheckRun (checkRunId : Option ℕ) : Publishing (Option CheckRunOutcome) :=
  createOrUpdateNamedCheckRun review (await world (.createOrUpdateGateCheckRun checkRunId))

def createOrUpdateErroredGateCheckRun (checkRunId : Option ℕ) :
    Publishing (Option CheckRunOutcome) :=
  createOrUpdateNamedCheckRun review (await world (.createOrUpdateErroredGateCheckRun checkRunId))

def auditPermissionMissing : Option CheckRunOutcome → Publishing Unit
  | some (.permissionMissing warning) => await world (.auditGateCheckPermissionMissing warning)
  | _ => pure ()

/-! ## Before the pending check -/

def skipReasonText : PublicSurfaceSkipReason → String
  | .surfaceOff => "surface_off"
  | .missingAuthor => "missing_author"
  | .botAuthor => "bot_author"
  | .maintainerAuthor => "maintainer_author"
  | .minerDetectionUnavailable => "miner_detection_unavailable"
  | .notOfficialGittensorMiner => "not_official_gittensor_miner"

def auditSkip (reason : PublicSurfaceSkipReason) : Publishing Unit := do
  await world (.auditPrVisibilitySkip (skipReasonText reason))
  assign fun locals => { locals with publicSurfaceSkipped := true }

/-- The lookup of the author ahead of the gate; `false` where the function returns. -/
def detectOfficialMiner : Publishing Bool := do
  if (review.prelimHasPublicOutput && review.author) = false then return true
  let status : MinerStatus ← await world .getCachedOfficialMinerDetection
  assign fun locals => { locals with official := some status }
  if review.settings.publicAudienceMode = .gittensorOnly ∧ status ≠ .confirmed then
    auditSkip world (if status = .unavailable then .minerDetectionUnavailable
      else .notOfficialGittensorMiner)
    if review.gateEnabled = false then return false
  return review.gateEnabled || !isIdle (review.surface status)

def publishPending : Publishing (Option ℕ) := do
  if review.gateEnabled = false then return none
  let pendingGateResult ← createOrUpdatePendingGateCheckRun world review
  auditPermissionMissing world pendingGateResult
  match pendingGateResult with
  | some (.published id) => return some id
  | _ => return none

/-! ## The evaluation -/

def getReviewFiles : Publishing Unit := do
  let current ← locals
  when (!current.reviewFiles) do
    await world .resolvePullRequestFilesForReview
    assign fun locals => { locals with reviewFiles := true }

def detectForGate : Publishing Unit := do
  let current ← locals
  when (review.gateEnabled && review.author && !current.publicSurfaceSkipped &&
      current.official.isNone) do
    let status ← await world .getCachedOfficialMinerDetection
    assign fun locals => { locals with official := some status }

def Review.hasManifestPolicy : Bool := review.settings.manifestPolicyGateMode ≠ .off

def collectSlop : Publishing Unit :=
  when (shouldCollectSlopEvidence review.settings) do
    await world .buildSlopAssessment
    settled (await world .updatePullRequestSlopAssessment)
    when (shouldRunSlopAiAdvisory review.settings) (await world .runAiSlopForAdvisory)

def collectManifestPolicy : Publishing Unit :=
  when review.hasManifestPolicy do
    await world .loadRepoFocusManifest
    await world .buildFocusManifestGuidance

def reviewWithAi : Publishing Unit := do
  when (review.settings.aiReviewMode ≠ .off && truthy review.advisory.headSha)
    (getReviewFiles world)
  await world .runAiReviewForAdvisory

def scanForSecrets : Publishing Unit := do
  when (isSafetyEnabled review.safetyEnv &&
    isConvergenceRepoAllowed review.safetyEnv review.pr.repoFullName) (getReviewFiles world)
  await world .maybeAddSecretLeakFinding

def evaluate : Publishing (Option GateCheckEvaluation) :=
  if review.gateEnabled = false then pure none else do return some (← await world .evaluateGateCheck)

def recordEvaluation : Option GateCheckEvaluation → Publishing Unit
  | none => pure ()
  | some evaluation => do
      when (evaluation.conclusion = .failure) do
        settled (await world .recordGateBlockOutcome)
        await world (.recordGithubProductUsage "gate_blocked")
      await world .recordNativeGateDecision

/-- The body of the outer `try` up to the completing call. -/
def evaluateGate : Publishing (Option GateCheckEvaluation) := do
  together [await world .listIssues, await world .listPullRequests,
    await world .listBountiesByRepo]
  await world .buildReadiness
  detectForGate world review
  when (shouldCollectSlopEvidence review.settings || review.hasManifestPolicy)
    (getReviewFiles world)
  collectSlop world review
  collectManifestPolicy world review
  reviewWithAi world review
  scanForSecrets world review
  await world .loadGateAuthorHistory
  let gateEvaluation ← evaluate world review
  recordEvaluation world gateEvaluation
  return gateEvaluation

/-! ## The completion -/

def finalizeErrored (pendingGateCheckRunId : Option ℕ) : Publishing Unit := do
  let current ← locals
  when (pendingGateCheckRunId.isSome && !current.gateFinalized) do
    settled (createOrUpdateErroredGateCheckRun world review pendingGateCheckRunId)
    assign fun locals => { locals with gateFinalized := true }

def issueCompletion (pendingGateCheckRunId : Option ℕ) : Publishing Unit := do
  let gateCheckResult ← createOrUpdateGateCheckRun world review pendingGateCheckRunId
  match gateCheckResult with
  | some (.published _) => assign fun locals => { locals with gateFinalized := true }
  | some (.permissionMissing warning) => do
      await world (.auditGateCheckPermissionMissing warning)
      finalizeErrored world review pendingGateCheckRunId
  | none => pure ()

def completeGate (pendingGateCheckRunId : Option ℕ) : Publishing Unit :=
  tryCatch (issueCompletion world review pendingGateCheckRunId) fun checkError => do
    finalizeErrored world review pendingGateCheckRunId
    settled (await world (.recordAuditEvent "github_app.gate_check_failed_nonfatal" checkError))

/-- The outer handler, which throws again. -/
def finalizeOnError (pendingGateCheckRunId : Option ℕ) (error : String) :
    Publishing (Option GateCheckEvaluation) := do
  let current ← locals
  when (review.gateEnabled && pendingGateCheckRunId.isSome && !current.gateFinalized) do
    settled (createOrUpdateErroredGateCheckRun world review pendingGateCheckRunId)
    settled (await world (.recordAuditEvent "github_app.gate_finalized_on_error" error))
  throw error

def runGate (pendingGateCheckRunId : Option ℕ) : Publishing (Option GateCheckEvaluation) :=
  tryCatch (do
      let gateEvaluation ← evaluateGate world review
      when review.gateEnabled (completeGate world review pendingGateCheckRunId)
      return gateEvaluation)
    (finalizeOnError world review pendingGateCheckRunId)

def publishOutput (output : String × Bool) : Publishing Unit :=
  if output.2 then settled (await world (.output output.1)) else await world (.output output.1)

def publishOutputs : List (String × Bool) → Publishing Unit
  | [] => pure ()
  | output :: rest => do
      publishOutput world output
      publishOutputs rest

/-- From the pending check on. -/
def publishGate : Publishing (Option GateCheckEvaluation) := do
  let pendingGateCheckRunId ← publishPending world review
  let gateEvaluation ← runGate world review pendingGateCheckRunId
  let current ← locals
  when (review.prelimHasPublicOutput && !current.publicSurfaceSkipped &&
    current.official.isSome && review.author) (publishOutputs world review.outputs)
  return gateEvaluation

def auditPrelimSkip : Publishing Unit :=
  match review.prelim.skipReason with
  | some reason => auditSkip world reason
  | none => pure ()

def maybePublishPrPublicSurface : Publishing (Option GateCheckEvaluation) := do
  auditPrelimSkip world review
  if (!review.gateEnabled && (review.prelim.skipReason.isSome ||
      (isIdle review.prelim && !review.needsMinerCheck))) = true then return none
  if (!review.author && !review.gateEnabled) = true then return none
  if review.gateEnabled = true ∧ (review.pr.state ≠ "open" ∨ review.action = some "closed") then
    let gateCheckResult ← createOrUpdateSkippedGateCheckRun world review
    auditPermissionMissing world gateCheckResult
    return none
  if (← detectOfficialMiner world review) = false then return none
  publishGate world review

end Model

section Runs

abbrev ReviewFrame := Frame Call.Answer String Locals

/-- The pending check was posted under this id. -/
def Posted (id : ℕ) (frame : ReviewFrame) : Prop :=
  ⟨.createOrUpdatePendingGateCheckRun, .ok (.published id)⟩ ∈ frame.made

/-- The real conclusion went out, or a call that finalizes the check to neutral. -/
def Completes (id : ℕ) (made : Made Call.Answer String) : Prop :=
  (∃ id', made = ⟨.createOrUpdateGateCheckRun (some id), .ok (.published id')⟩) ∨
    made.call = .createOrUpdateErroredGateCheckRun (some id)

def Completed (id : ℕ) (frame : ReviewFrame) : Prop := ∃ made ∈ frame.made, Completes id made

/-- Nothing has been posted yet. -/
def Unposted (frame : ReviewFrame) : Prop :=
  (∀ id, ¬ Posted id frame) ∧ frame.locals.gateFinalized = false

/-- The check that was posted is the pending one, and it is not finalized yet. -/
def Pending (pendingGateCheckRunId : Option ℕ) (frame : ReviewFrame) : Prop :=
  (∀ id, Posted id frame → pendingGateCheckRunId = some id) ∧ frame.locals.gateFinalized = false

def Settled (frame : ReviewFrame) : Prop := ∀ id, Posted id frame → Completed id frame

/-- Only the call that posts the check, or the flag, could end it. -/
structure Stable (kept : ReviewFrame → Prop) : Prop where
  call : ∀ frame made, kept frame → made.call ≠ .createOrUpdatePendingGateCheckRun →
    kept { frame with made := made :: frame.made }
  assign : ∀ frame locals, kept frame → locals.gateFinalized = frame.locals.gateFinalized →
    kept { frame with locals := locals }

theorem posted_of_cons {id : ℕ} {frame : ReviewFrame} {made : Made Call.Answer String}
    (hcall : made.call ≠ .createOrUpdatePendingGateCheckRun)
    (h : Posted id { frame with made := made :: frame.made }) : Posted id frame := by
  rcases List.mem_cons.mp h with heq | hold
  · exact absurd (congrArg Made.call heq).symm hcall
  · exact hold

theorem stable_unposted : Stable Unposted where
  call := fun _ _ h hcall => ⟨fun id hposted => h.1 id (posted_of_cons hcall hposted), h.2⟩
  assign := fun _ _ h hflag => ⟨h.1, hflag.trans h.2⟩

theorem stable_pending (pendingGateCheckRunId : Option ℕ) :
    Stable (Pending pendingGateCheckRunId) where
  call := fun _ _ h hcall => ⟨fun id hposted => h.1 id (posted_of_cons hcall hposted), h.2⟩
  assign := fun _ _ h hflag => ⟨h.1, hflag.trans h.2⟩

theorem Settled.cons {frame : ReviewFrame} (h : Settled frame) {made : Made Call.Answer String}
    (hcall : made.call ≠ .createOrUpdatePendingGateCheckRun) :
    Settled { frame with made := made :: frame.made } := by
  intro id hposted
  obtain ⟨completing, hmem, hcompletes⟩ := h id (posted_of_cons hcall hposted)
  exact ⟨completing, List.mem_cons_of_mem _ hmem, hcompletes⟩

theorem stable_settled : Stable Settled where
  call := fun _ _ h hcall => h.cons hcall
  assign := fun _ _ h _ => h

theorem keeps_createOrUpdateNamedCheckRun {kept : ReviewFrame → Prop} (review : Review)
    {check : Publishing CheckRunOutcome}
    (hcheck : Keeps kept check) : Keeps kept (createOrUpdateNamedCheckRun review check) :=
  triple_ite (fun _ => keeps_pure _) fun _ => keeps_bind hcheck fun _ => keeps_pure _

section Kept

variable {kept : ReviewFrame → Prop} (hkept : Stable kept) (world : World Call.Answer String)
  (review : Review)

include hkept

theorem keeps_await {call : Call} (hcall : call ≠ .createOrUpdatePendingGateCheckRun) :
    Keeps kept (await world call : Publishing _) :=
  triple_await world call (fun frame _ h _ => hkept.call frame _ h hcall)
    fun frame _ h _ => hkept.call frame _ h hcall

theorem keeps_assign {update : Locals → Locals}
    (hupdate : ∀ locals, (update locals).gateFinalized = locals.gateFinalized) :
    Keeps kept (assign update : Publishing Unit) :=
  triple_assign update fun frame h => hkept.assign frame _ h (hupdate _)

theorem keeps_auditPermissionMissing (outcome : Option CheckRunOutcome) :
    Keeps kept (auditPermissionMissing world outcome) := by
  rcases outcome with _ | ⟨id⟩ | ⟨warning⟩
  · exact keeps_pure _
  · exact keeps_pure _
  · exact keeps_await hkept world (by simp)

theorem keeps_auditSkip (reason : PublicSurfaceSkipReason) :
    Keeps kept (auditSkip world reason) :=
  keeps_bind (keeps_await hkept world (by simp)) fun _ => keeps_assign hkept fun _ => rfl

theorem keeps_auditPrelimSkip : Keeps kept (auditPrelimSkip world review) := by
  unfold auditPrelimSkip
  cases review.prelim.skipReason with
  | none => exact keeps_pure _
  | some reason => exact keeps_auditSkip hkept world reason

theorem keeps_detectOfficialMiner : Keeps kept (detectOfficialMiner world review) := by
  refine triple_ite (fun _ => keeps_pure _) fun _ => ?_
  refine keeps_bind (keeps_await hkept world (by simp)) fun status => ?_
  refine keeps_bind (keeps_assign hkept fun _ => rfl) fun _ => ?_
  refine triple_ite (fun _ => ?_) fun _ => keeps_pure _
  refine keeps_bind (keeps_auditSkip hkept world _) fun _ => ?_
  exact triple_ite (fun _ => keeps_pure _) fun _ => keeps_pure _

theorem keeps_getReviewFiles : Keeps kept (getReviewFiles world) := by
  refine keeps_bind keeps_locals fun current => keeps_when _ ?_
  exact keeps_bind (keeps_await hkept world (by simp)) fun _ => keeps_assign hkept fun _ => rfl

theorem keeps_detectForGate : Keeps kept (detectForGate world review) := by
  refine keeps_bind keeps_locals fun current => keeps_when _ ?_
  exact keeps_bind (keeps_await hkept world (by simp)) fun _ => keeps_assign hkept fun _ => rfl

theorem keeps_collectSlop : Keeps kept (collectSlop world review) := by
  refine keeps_when _ (keeps_bind (keeps_await hkept world (by simp)) fun _ => ?_)
  refine keeps_bind (keeps_settled (keeps_await hkept world (by simp))) fun _ => ?_
  exact keeps_when _ (keeps_await hkept world (by simp))

theorem keeps_collectManifestPolicy : Keeps kept (collectManifestPolicy world review) :=
  keeps_when _ (keeps_bind (keeps_await hkept world (by simp)) fun _ =>
    keeps_await hkept world (by simp))

theorem keeps_reviewWithAi : Keeps kept (reviewWithAi world review) :=
  keeps_bind (keeps_when _ (keeps_getReviewFiles hkept world)) fun _ =>
    keeps_await hkept world (by simp)

theorem keeps_scanForSecrets : Keeps kept (scanForSecrets world review) :=
  keeps_bind (keeps_when _ (keeps_getReviewFiles hkept world)) fun _ =>
    keeps_await hkept world (by simp)

theorem keeps_evaluate : Keeps kept (evaluate world review) :=
  triple_ite (fun _ => keeps_pure _) fun _ =>
    keeps_bind (keeps_await hkept world (by simp)) fun _ => keeps_pure _

theorem keeps_recordEvaluation (evaluation : Option GateCheckEvaluation) :
    Keeps kept (recordEvaluation world evaluation) := by
  cases evaluation with
  | none => exact keeps_pure _
  | some evaluation =>
    refine keeps_bind (keeps_when _ ?_) fun _ => keeps_await hkept world (by simp)
    exact keeps_bind (keeps_settled (keeps_await hkept world (by simp))) fun _ =>
      keeps_await hkept world (by simp)

/-- Whatever throws in the evaluation, no check is posted and none is finalized. -/
theorem keeps_evaluateGate : Keeps kept (evaluateGate world review) := by
  have hrepository : Keeps kept (together [await world .listIssues,
      await world .listPullRequests, await world .listBountiesByRepo] : Publishing Unit) := by
    refine keeps_together (List.forall_mem_cons.mpr ⟨keeps_await hkept world (by simp), ?_⟩)
    refine List.forall_mem_cons.mpr ⟨keeps_await hkept world (by simp), ?_⟩
    exact List.forall_mem_singleton.mpr (keeps_await hkept world (by simp))
  refine keeps_bind hrepository fun _ => ?_
  refine keeps_bind (keeps_await hkept world (by simp)) fun _ => ?_
  refine keeps_bind (keeps_detectForGate hkept world review) fun _ => ?_
  refine keeps_bind (keeps_when _ (keeps_getReviewFiles hkept world)) fun _ => ?_
  refine keeps_bind (keeps_collectSlop hkept world review) fun _ => ?_
  refine keeps_bind (keeps_collectManifestPolicy hkept world review) fun _ => ?_
  refine keeps_bind (keeps_reviewWithAi hkept world review) fun _ => ?_
  refine keeps_bind (keeps_scanForSecrets hkept world review) fun _ => ?_
  refine keeps_bind (keeps_await hkept world (by simp)) fun _ => ?_
  refine keeps_bind (keeps_evaluate hkept world review) fun evaluation => ?_
  exact keeps_bind (keeps_recordEvaluation hkept world evaluation) fun _ => keeps_pure _

theorem keeps_publishOutput (output : String × Bool) :
    Keeps kept (publishOutput world output) :=
  triple_ite (fun _ => keeps_settled (keeps_await hkept world (by simp))) fun _ =>
    keeps_await hkept world (by simp)

theorem keeps_publishOutputs (outputs : List (String × Bool)) :
    Keeps kept (publishOutputs world outputs) := by
  induction outputs with
  | nil => exact keeps_pure _
  | cons output rest ih => exact keeps_bind (keeps_publishOutput hkept world output) fun _ => ih

end Kept

/-! ## The check is finalized -/

theorem Unposted.pending {frame : ReviewFrame} (h : Unposted frame)
    (pendingGateCheckRunId : Option ℕ) : Pending pendingGateCheckRunId frame :=
  ⟨fun id hposted => absurd hposted (h.1 id), h.2⟩

theorem Unposted.settled {frame : ReviewFrame} (h : Unposted frame) : Settled frame :=
  fun id hposted => absurd hposted (h.1 id)

theorem Pending.settled_of_none {frame : ReviewFrame} (h : Pending none frame) : Settled frame :=
  fun id hposted => absurd (h.1 id hposted) (Option.some_ne_none id).symm

/-- A call that completes the pending check settles it. -/
theorem Pending.settled_cons {frame : ReviewFrame} {pendingGateCheckRunId : Option ℕ}
    (h : Pending pendingGateCheckRunId frame) {made : Made Call.Answer String}
    (hcall : made.call ≠ .createOrUpdatePendingGateCheckRun)
    (hcompletes : ∀ id, pendingGateCheckRunId = some id → Completes id made) :
    Settled { frame with made := made :: frame.made } := fun id hposted =>
  ⟨made, List.mem_cons_self, hcompletes id (h.1 id (posted_of_cons hcall hposted))⟩

theorem posted_cons_iff {id : ℕ} {frame : ReviewFrame} {outcome : Except String CheckRunOutcome} :
    Posted id { frame with made := ⟨.createOrUpdatePendingGateCheckRun, outcome⟩ :: frame.made } ↔
      outcome = .ok (.published id) ∨ Posted id frame := by
  constructor
  · intro h
    rcases List.mem_cons.mp h with heq | hold
    · injection heq with _ houtcome
      exact Or.inl houtcome.symm
    · exact Or.inr hold
  · rintro (rfl | hold)
    · exact List.mem_cons_self
    · exact List.mem_cons_of_mem _ hold

section Completion

variable (world : World Call.Answer String) (review : Review)

theorem truthy_headSha {review : Review} (h : review.gateEnabled = true) :
    truthy review.advisory.headSha = true := (Bool.and_eq_true_iff.mp h).2

theorem triple_createOrUpdateNamedCheckRun {before thrown : ReviewFrame → Prop}
    {after : Option CheckRunOutcome → ReviewFrame → Prop} {check : Publishing CheckRunOutcome}
    (henabled : review.gateEnabled = true)
    (hcheck : Triple before check (fun outcome => after (some outcome)) thrown) :
    Triple before (createOrUpdateNamedCheckRun review check) after thrown := by
  refine triple_ite (fun hnone => ?_) fun _ => triple_bind _ hcheck fun _ =>
    triple_pure _ fun _ h => h
  rw [truthy_headSha henabled] at hnone
  cases hnone

/-- The neutral conclusion settles the check, whatever the call comes to. -/
theorem triple_errored (henabled : review.gateEnabled = true) (id : ℕ)
    {thrown : ReviewFrame → Prop} :
    Triple (Pending (some id)) (settled (createOrUpdateErroredGateCheckRun world review (some id)))
      (fun _ => Settled) thrown := by
  have hcompletes : ∀ outcome, ∀ id', some id = some id' →
      Completes id' ⟨.createOrUpdateErroredGateCheckRun (some id), outcome⟩ := fun _ id' hid =>
    Or.inr (congrArg Call.createOrUpdateErroredGateCheckRun hid)
  refine triple_settled (triple_createOrUpdateNamedCheckRun review henabled ?_)
  exact triple_await world _ (fun _ _ h _ => h.settled_cons (by simp) (hcompletes _))
    fun _ _ h _ => h.settled_cons (by simp) (hcompletes _)

theorem triple_finalizeErrored (henabled : review.gateEnabled = true)
    (pendingGateCheckRunId : Option ℕ) {thrown : ReviewFrame → Prop} :
    Triple (Pending pendingGateCheckRunId) (finalizeErrored world review pendingGateCheckRunId)
      (fun _ => Settled) thrown := by
  refine triple_bind (fun current frame =>
    Pending pendingGateCheckRunId frame ∧ current.gateFinalized = false)
    (triple_locals fun _ h => ⟨h, h.2⟩) fun current => ?_
  cases pendingGateCheckRunId with
  | none => exact triple_pure _ fun _ h => h.1.settled_of_none
  | some id =>
    refine triple_ite (fun _ => ?_) fun hnot => triple_pure _ fun _ h => ?_
    · exact triple_bind _ ((triple_errored world review henabled id).weaken (fun _ h => h.1)
        (fun _ _ h => h) fun _ h => h) fun _ => triple_assign _ fun _ h => h
    · rw [h.2] at hnot
      exact absurd rfl hnot

/-- What the completing call leaves, by its answer. -/
def Answered (pendingGateCheckRunId : Option ℕ) (frame : ReviewFrame) :
    Option CheckRunOutcome → Prop
  | some (.published _) => Settled frame
  | some (.permissionMissing _) => Pending pendingGateCheckRunId frame
  | none => False

theorem triple_issueCompletion (henabled : review.gateEnabled = true)
    (pendingGateCheckRunId : Option ℕ) :
    Triple (Pending pendingGateCheckRunId) (issueCompletion world review pendingGateCheckRunId)
      (fun _ => Settled) (Pending pendingGateCheckRunId) := by
  have hstable := stable_pending pendingGateCheckRunId
  refine triple_bind (fun outcome frame => Answered pendingGateCheckRunId frame outcome)
    (triple_createOrUpdateNamedCheckRun review henabled (triple_await world _
      (fun frame outcome h _ => ?_) fun frame _ h _ => hstable.call frame _ h (by simp)))
    fun outcome => ?_
  · cases outcome with
    | published id' =>
      refine h.settled_cons (by simp) fun id hid => Or.inl ⟨id', ?_⟩
      rw [hid]
    | permissionMissing warning => exact hstable.call frame _ h (by simp)
  · rcases outcome with _ | ⟨id'⟩ | ⟨warning⟩
    · exact triple_pure _ fun _ h => h.elim
    · exact triple_assign _ fun _ h => h
    · exact triple_bind _ (keeps_await hstable world (by simp)) fun _ =>
        triple_finalizeErrored world review henabled pendingGateCheckRunId

theorem triple_completeGate (henabled : review.gateEnabled = true)
    (pendingGateCheckRunId : Option ℕ) {thrown : ReviewFrame → Prop} :
    Triple (Pending pendingGateCheckRunId) (completeGate world review pendingGateCheckRunId)
      (fun _ => Settled) thrown := by
  refine triple_tryCatch _ (triple_issueCompletion world review henabled pendingGateCheckRunId)
    fun error => ?_
  refine triple_bind _ (triple_finalizeErrored world review henabled pendingGateCheckRunId)
    fun _ => ?_
  exact triple_settled (keeps_await stable_settled world (by simp))

theorem triple_finalizeOnError (pendingGateCheckRunId : Option ℕ)
    (hnone : review.gateEnabled = false → pendingGateCheckRunId = none) (error : String)
    {after : Option GateCheckEvaluation → ReviewFrame → Prop} :
    Triple (Pending pendingGateCheckRunId)
      (finalizeOnError world review pendingGateCheckRunId error) after Settled := by
  refine triple_bind (fun current frame =>
    Pending pendingGateCheckRunId frame ∧ current.gateFinalized = false)
    (triple_locals fun _ h => ⟨h, h.2⟩) fun current => ?_
  refine triple_bind (fun _ => Settled) ?_ fun _ => triple_throw error fun _ h => h
  cases pendingGateCheckRunId with
  | none =>
    refine triple_ite (fun hcondition => ?_) fun _ => triple_pure _ fun _ h => h.1.settled_of_none
    simp at hcondition
  | some id =>
    have henabled : review.gateEnabled = true := by
      by_contra hnot
      cases hnone (Bool.eq_false_of_not_eq_true hnot)
    refine triple_ite (fun _ => ?_) fun hnot => triple_pure _ fun _ h => ?_
    · exact triple_bind _ ((triple_errored world review henabled id).weaken (fun _ h => h.1)
        (fun _ _ h => h) fun _ h => h) fun _ =>
          triple_settled (keeps_await stable_settled world (by simp))
    · rw [h.2, henabled] at hnot
      exact absurd rfl hnot

theorem triple_runGate (pendingGateCheckRunId : Option ℕ)
    (hnone : review.gateEnabled = false → pendingGateCheckRunId = none) :
    Triple (Pending pendingGateCheckRunId) (runGate world review pendingGateCheckRunId)
      (fun _ => Settled) Settled := by
  refine triple_tryCatch (Pending pendingGateCheckRunId) ?_ fun error =>
    triple_finalizeOnError world review pendingGateCheckRunId hnone error
  refine triple_bind _ (keeps_evaluateGate (stable_pending pendingGateCheckRunId) world review)
    fun evaluation => ?_
  refine triple_bind (fun _ => Settled) (triple_ite (fun henabled => ?_) fun hnot => ?_)
    fun _ => triple_pure _ fun _ h => h
  · exact triple_completeGate world review henabled pendingGateCheckRunId
  · rw [hnone (Bool.eq_false_of_not_eq_true hnot)]
    exact triple_pure _ fun _ h => h.settled_of_none

/-- The check that is posted is the one whose id is kept. -/
theorem triple_publishPending :
    Triple Unposted (publishPending world review)
      (fun pendingGateCheckRunId frame => Pending pendingGateCheckRunId frame ∧
        (review.gateEnabled = false → pendingGateCheckRunId = none)) Settled := by
  refine triple_ite (fun _ => triple_pure _ fun _ h => ⟨h.pending none, fun _ => rfl⟩)
    fun hnot => ?_
  have henabled : review.gateEnabled = true := by simpa using hnot
  refine triple_bind (fun outcome frame => match outcome with
    | some (.published id) => Pending (some id) frame
    | _ => Unposted frame) (triple_createOrUpdateNamedCheckRun review henabled
      (triple_await world _ (fun frame outcome h _ => ?_) fun frame error h _ => ?_))
    fun outcome => ?_
  · cases outcome with
    | published id =>
      refine ⟨fun id' hposted => ?_, h.2⟩
      rcases posted_cons_iff.mp hposted with heq | hold
      · obtain rfl := CheckRunOutcome.published.inj (Except.ok.inj heq)
        rfl
      · exact absurd hold (h.1 id')
    | permissionMissing warning =>
      refine ⟨fun id' hposted => ?_, h.2⟩
      rcases posted_cons_iff.mp hposted with heq | hold
      · cases heq
      · exact h.1 id' hold
  · intro id' hposted
    rcases posted_cons_iff.mp hposted with heq | hold
    · cases heq
    · exact absurd hold (h.1 id')
  · have hfalse : ∀ {p : Option ℕ}, review.gateEnabled = false → p = none := fun hno => by
      rw [henabled] at hno
      cases hno
    rcases outcome with _ | ⟨id⟩ | ⟨warning⟩
    · exact triple_pure _ fun _ h => ⟨h.pending none, hfalse⟩
    · exact triple_pure _ fun _ h => ⟨h, hfalse⟩
    · refine triple_bind (fun _ => Unposted) ?_ fun _ =>
        triple_pure _ fun _ h => ⟨h.pending none, hfalse⟩
      exact (keeps_await stable_unposted world (by simp)).weaken (fun _ h => h)
        (fun _ _ h => h) fun _ h => h.settled

theorem triple_publishGate :
    Triple Unposted (publishGate world review) (fun _ => Settled) Settled := by
  refine triple_bind _ (triple_publishPending world review) fun pendingGateCheckRunId => ?_
  refine triple_bind (fun _ => Settled) (fun frame h =>
    triple_runGate world review pendingGateCheckRunId h.2 frame h.1) fun evaluation => ?_
  refine keeps_bind keeps_locals fun current => keeps_bind (keeps_when _ ?_) fun _ => keeps_pure _
  exact keeps_publishOutputs stable_settled world review.outputs

theorem triple_maybePublishPrPublicSurface :
    Triple Unposted (maybePublishPrPublicSurface world review) (fun _ => Settled) Settled := by
  have hkeeps : ∀ {α : Type} {program : Publishing α}, Keeps Unposted program →
      Triple Unposted program (fun _ => Unposted) Settled := fun h =>
    h.weaken (fun _ h => h) (fun _ _ h => h) fun _ h => h.settled
  have hreturn : Triple Unposted (pure none : Publishing (Option GateCheckEvaluation))
      (fun _ => Settled) Settled := triple_pure _ fun _ h => h.settled
  have hstable := stable_unposted
  refine triple_bind _ (hkeeps (keeps_auditPrelimSkip hstable world review)) fun _ => ?_
  refine triple_ite (fun _ => hreturn) fun _ => ?_
  refine triple_ite (fun _ => hreturn) fun _ => ?_
  refine triple_ite (fun _ => ?_) fun _ => ?_
  · refine triple_bind _ (hkeeps (keeps_createOrUpdateNamedCheckRun review
      (keeps_await hstable world (by simp)))) fun outcome => ?_
    exact triple_bind _ (hkeeps (keeps_auditPermissionMissing hstable world outcome)) fun _ => hreturn
  · refine triple_bind _ (hkeeps (keeps_detectOfficialMiner hstable world review)) fun goesOn => ?_
    exact triple_ite (fun _ => hreturn) fun _ => triple_publishGate world review

/-- However the calls of a review come out, a gate check that was posted as pending has been
completed when the function returns or throws. -/
theorem posted_check_completed (id : ℕ)
    (h : Posted id (maybePublishPrPublicSurface world review ⟨{}, []⟩).2) :
    Completed id (maybePublishPrPublicSurface world review ⟨{}, []⟩).2 := by
  have hstart : Unposted ⟨{}, []⟩ := ⟨fun _ hposted => absurd hposted List.not_mem_nil, rfl⟩
  obtain ⟨hok, herror⟩ := triple_maybePublishPrPublicSurface world review _ hstart
  rcases hrun : maybePublishPrPublicSurface world review ⟨{}, []⟩ with ⟨error | value, frame⟩
  · rw [hrun] at h
    exact herror error frame hrun id h
  · rw [hrun] at h
    exact hok value frame hrun id h

end Completion

/-- Check 7 is posted, and the one call that throws is the given one. -/
def throwingAt (call : Call) : World Call.Answer String := fun _ other =>
  if other = call then .error "unavailable"
  else match other with
    | .getCachedOfficialMinerDetection => .ok MinerStatus.confirmed
    | .createOrUpdateSkippedGateCheckRun _ => .ok (CheckRunOutcome.published 7)
    | .createOrUpdatePendingGateCheckRun => .ok (CheckRunOutcome.published 7)
    | .createOrUpdateGateCheckRun _ => .ok (CheckRunOutcome.published 7)
    | .createOrUpdateErroredGateCheckRun _ => .ok (CheckRunOutcome.published 7)
    | .evaluateGateCheck =>
        .ok (⟨true, .success, "Gittensory Gate passed", "", [], []⟩ : GateCheckEvaluation)
    | .auditPrVisibilitySkip _ | .auditGateCheckPermissionMissing _ | .listIssues
    | .listPullRequests | .listBountiesByRepo | .buildReadiness
    | .resolvePullRequestFilesForReview | .buildSlopAssessment
    | .updatePullRequestSlopAssessment | .runAiSlopForAdvisory | .loadRepoFocusManifest
    | .buildFocusManifestGuidance | .runAiReviewForAdvisory | .maybeAddSecretLeakFinding
    | .loadGateAuthorHistory | .recordGateBlockOutcome | .recordGithubProductUsage _
    | .recordNativeGateDecision | .recordAuditEvent _ _ | .output _ => .ok ()

def gatedReview : Review where
  pr :=
    { repoFullName := "o/r"
      number := 1
      state := "open"
      authorLogin := some "mona"
      headSha := some "abc"
      linkedIssues := [] }
  settings := { defaultRepositorySettings with gateCheckMode := .enabled }
  advisory := ⟨.pullRequest, "o/r#1", "o/r", some 1, none, some "abc", .success, .info, "", "", []⟩

/-- The author's history cannot be read after the check was posted. -/
theorem check_completed_without_history :
    Posted 7 (maybePublishPrPublicSurface (throwingAt .loadGateAuthorHistory) gatedReview
      ⟨{}, []⟩).2 ∧
    Completed 7 (maybePublishPrPublicSurface (throwingAt .loadGateAuthorHistory) gatedReview
      ⟨{}, []⟩).2 := by
  have hposted : Posted 7 (maybePublishPrPublicSurface (throwingAt .loadGateAuthorHistory)
      gatedReview ⟨{}, []⟩).2 := @List.mem_of_getElem? _ _ 9 _ (by rfl)
  exact ⟨hposted, posted_check_completed _ gatedReview 7 hposted⟩

end Runs

end Gittensory.GateFinalization
