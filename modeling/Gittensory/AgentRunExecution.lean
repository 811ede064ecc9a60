import Gittensory.AwaitedCalls
import Gittensory.DuplicateSignals
import Gittensory.JsonRecord

/-!
The attempts on an agent run (`executeAgentRun`). Every statement on the storage is a call of
its own, and what the storage holds is read off the calls made so far; the queue may deliver a
run again, so one attempt follows another. `Phase` says which calls may come next, and the
histories it admits carry the results. Completion is written inside of the `try`, ahead of
the summary, the bundle and the audit: what throws behind it goes to the handler that writes
`failed`.
-/
namespace Gittensory.AgentRunExecution

open AwaitedCalls CodeUnits JsonRecord

section Model

inductive AgentRunStatus where
  | queued
  | running
  | completed
  | failed
  | needsSnapshotRefresh
  deriving DecidableEq, Repr

def AgentRunStatus.name : AgentRunStatus → String
  | .queued => "queued"
  | .running => "running"
  | .completed => "completed"
  | .failed => "failed"
  | .needsSnapshotRefresh => "needs_snapshot_refresh"

inductive AgentSurface where
  | mcp
  | githubComment
  | api
  deriving DecidableEq, Repr

inductive DataQualityStatus where
  | complete
  | degraded
  | blocked
  | unknown
  deriving DecidableEq, Repr

inductive DecisionPackFreshness where
  | fresh
  | stale
  | rebuilding
  | missing
  deriving DecidableEq, Repr

def DecisionPackFreshness.name : DecisionPackFreshness → String
  | .fresh => "fresh"
  | .stale => "stale"
  | .rebuilding => "rebuilding"
  | .missing => "missing"

structure AgentRunRecord where
  id : String
  actorLogin : Units
  surface : AgentSurface
  status : AgentRunStatus
  dataQualityStatus : DataQualityStatus
  errorSummary : Option String
  payload : Record

structure AgentRunPatch where
  status : Option AgentRunStatus := none
  dataQualityStatus : Option DataQualityStatus := none
  errorSummary : Option String := none
  payload : Option Record := none

structure RepoDecision where
  repoFullName : Units
  deriving DecidableEq, Repr

structure ContributorDecisionPack where
  generatedAt : Units
  freshness : DecisionPackFreshness
  rebuildEnqueued : Bool
  repoDecisions : List RepoDecision
  signalFidelityStatus : DataQualityStatus
  openPrMonitor : Option JsonValue

structure DecisionPackRefreshNeeded where
  freshness : DecisionPackFreshness
  rebuildEnqueued : Bool

inductive ContributorDecisionPackServing where
  | ready (pack : ContributorDecisionPack)
  | needsRefresh (refresh : DecisionPackRefreshNeeded)

structure LocalBranchAnalysis where
  generatedAt : Units
  repoFullName : Units
  baseFreshness : Record
  baseFreshnessWarnings : List Units
  branchEligibility : JsonValue
  scoreabilityStatus : Units
  scoringModelSnapshotId : Units
  dataQuality : Option (DataQualityStatus × List Units)
  /-- The data quality as it is written to a payload. -/
  dataQualityJson : JsonValue

structure AgentContextSnapshotRecord where
  runId : String
  decisionPackVersion : Units
  scoringModelId : Units
  repoSignalSnapshotIds : List Units
  freshnessWarnings : List Units
  payload : Record

inductive AiSummaryStatus where
  | disabled
  | unavailable
  | quotaExceeded
  | unsafeText
  | error
  | ok
  deriving DecidableEq, Repr

structure AiSummaryResult where
  status : AiSummaryStatus
  json : JsonValue

structure AuditEventRecord where
  eventType : String
  actor : Units
  targetKey : Option Units := none
  outcome : String
  detail : Option String := none
  metadata : Record

variable (Action : Type)

structure AgentRunBundle where
  run : AgentRunRecord
  actions : List Action
  summary : String

/-- The awaited calls, one for each statement on the storage, and the computations that could
throw as well. A bundle is read in one call. -/
inductive Call where
  | getAgentRun
  | updateAgentRun (patch : AgentRunPatch)
  | loadContributorDecisionPackForServing (login : Units)
  | buildContributorOpenPrMonitor (login : Units)
  | buildBlockerActions (pack : ContributorDecisionPack) (decisions : List RepoDecision)
      (allowFallback : Bool)
  | buildDecisionActions (pack : ContributorDecisionPack) (decisions : List RepoDecision)
  | contextSnapshotFromPack (pack : ContributorDecisionPack) (decisions : List RepoDecision)
  | analyzeLocalBranch (input : Option JsonValue)
  | localPrPacketAction (analysis : LocalBranchAnalysis)
  | buildLocalBlockerActions (analysis : LocalBranchAnalysis)
  | buildLocalBranchActions (analysis : LocalBranchAnalysis)
  | attachRecommendationSnapshots (actions : List Action) (context : AgentContextSnapshotRecord)
  | deleteAgentActions
  | insertAgentAction (action : Action)
  | persistAgentContextSnapshot (context : AgentContextSnapshotRecord)
  | getAgentRunBundle
  | summarizeAgentBundleWithAi (bundle : Option (AgentRunBundle Action))
  | recordAuditEvent (event : AuditEventRecord)

variable {Action}

def Call.Answer : Call Action → Type
  | .loadContributorDecisionPackForServing _ => ContributorDecisionPackServing
  | .buildContributorOpenPrMonitor _ => JsonValue
  | .buildBlockerActions _ _ _ | .buildDecisionActions _ _ | .buildLocalBlockerActions _
  | .buildLocalBranchActions _ | .attachRecommendationSnapshots _ _ => List Action
  | .localPrPacketAction _ => Action
  | .contextSnapshotFromPack _ _ => AgentContextSnapshotRecord
  | .analyzeLocalBranch _ => LocalBranchAnalysis
  | .summarizeAgentBundleWithAi _ => AiSummaryResult
  | _ => Unit

/-- The message of an `Error`; anything else that is thrown has none. -/
abbrev Thrown := Option String

variable (Action) in
/-- The calls made on a run so far, the latest first. -/
abbrev History := List (Made (@Call.Answer Action) Thrown)

abbrev Executing (Action α : Type) := Program (@Call.Answer Action) Thrown Unit α

/-! ## The storage -/

variable (Action) in
structure Storage where
  run : Option AgentRunRecord
  actions : List Action
  contextSnapshots : List AgentContextSnapshotRecord

def AgentRunRecord.update (run : AgentRunRecord) (patch : AgentRunPatch) : AgentRunRecord :=
  { run with
    status := patch.status.getD run.status
    dataQualityStatus := patch.dataQualityStatus.getD run.dataQualityStatus
    errorSummary := patch.errorSummary.or run.errorSummary
    payload := patch.payload.getD run.payload }

/-- What a statement does to the storage. -/
def Call.perform : Call Action → Storage Action → Storage Action
  | .updateAgentRun patch, storage => { storage with run := storage.run.map (·.update patch) }
  | .deleteAgentActions, storage => { storage with actions := [] }
  | .insertAgentAction action, storage => { storage with actions := storage.actions ++ [action] }
  | .persistAgentContextSnapshot context, storage =>
      { storage with contextSnapshots := context :: storage.contextSnapshots }
  | _, storage => storage

/-- A run as it is put into the table, before the first attempt on it. -/
structure CreatedRun where
  run : AgentRunRecord
  unfinished : run.status = .queued ∨ run.status = .running

variable (world : World (@Call.Answer Action) Thrown) (created : CreatedRun)

/-- A statement that throws does nothing. -/
def storage : History Action → Storage Action
  | [] => ⟨some created.run, [], []⟩
  | ⟨call, .ok _⟩ :: earlier => call.perform (storage earlier)
  | ⟨_, .error _⟩ :: earlier => storage earlier

def stored : Executing Action (Storage Action) := fun frame =>
  (.ok (storage created frame.made), frame)

def getAgentRun : Executing Action (Option AgentRunRecord) := do
  await world .getAgentRun
  return (← stored created).run

def updateAgentRun (patch : AgentRunPatch) : Executing Action Unit :=
  await world (.updateAgentRun patch)

def insertAgentActions : List Action → Executing Action Unit
  | [] => pure ()
  | action :: rest => do
      await world (.insertAgentAction action)
      insertAgentActions rest

def replaceAgentActions (actions : List Action) : Executing Action Unit := do
  await world .deleteAgentActions
  insertAgentActions world actions

def summarizeRun (run : AgentRunRecord) (actions : List Action) : String :=
  if run.status = .needsSnapshotRefresh then
    "Agent run " ++ run.id ++ " needs a contributor decision-pack refresh."
  else if run.status = .failed then
    "Agent run " ++ run.id ++ " failed: " ++ run.errorSummary.getD "unknown error" ++ "."
  else "Agent run " ++ run.id ++ " has " ++ toString actions.length ++ " ranked action(s)."

/-- The actions are listed up to a hundred. -/
def bundleOf (storage : Storage Action) : Option (AgentRunBundle Action) :=
  storage.run.map fun run =>
    ⟨run, storage.actions.take 100, summarizeRun run (storage.actions.take 100)⟩

def getAgentRunBundle : Executing Action (Option (AgentRunBundle Action)) := do
  await world .getAgentRunBundle
  return bundleOf (← stored created)

/-! ## Payloads -/

/-- `{ ...record, [key]: value }` -/
def withMember (record : Record) (entry : String × JsonValue) : Record :=
  if record.any (·.1 = entry.1) then
    record.map fun other => if other.1 = entry.1 then entry else other
  else record ++ [entry]

def spread (record entries : Record) : Record := entries.foldl withMember record

/-- `value ?? undefined` -/
def present : Option JsonValue → Option JsonValue
  | some .null => none
  | value => value

def truthyText : Option JsonValue → Bool
  | none | some .null | some (.bool false) | some (.string []) => false
  | some (.number value) => value.toText ≠ "0" && value.toText ≠ "NaN"
  | _ => true

def AgentRunRecord.kind (run : AgentRunRecord) : Units :=
  ((present (run.payload.lookup "kind")).map JsonValue.toText).getD (units "plan_next_work")

def AgentRunRecord.login (run : AgentRunRecord) : Units :=
  ((present (run.payload.lookup "login")).map JsonValue.toText).getD run.actorLogin

def AgentRunRecord.repoFullName (run : AgentRunRecord) : Option Units :=
  match run.payload.lookup "repoFullName" with
  | some (.string text) => some text
  | _ => none

def AgentRunRecord.targetKey (run : AgentRunRecord) : Units :=
  ((present (run.payload.lookup "repoFullName")).map JsonValue.toText).getD []

/-! ## The two kinds of run -/

def sameRepo (left right : Units) : Bool :=
  DuplicateSignals.toLowerCase left = DuplicateSignals.toLowerCase right

def decisionsFor (pack : ContributorDecisionPack) : Option Units → List RepoDecision
  | some (unit :: rest) =>
      pack.repoDecisions.filter fun decision => sameRepo decision.repoFullName (unit :: rest)
  | _ => pack.repoDecisions

def AgentRunRecord.allowCrossRepoFallback (run : AgentRunRecord) : Bool :=
  (run.repoFullName.getD []).isEmpty || run.surface ≠ .githubComment

def scopedDecisionActions (run : AgentRunRecord) (pack : ContributorDecisionPack)
    (decisions : List RepoDecision) : List RepoDecision :=
  if decisions ≠ [] then decisions
  else if run.allowCrossRepoFallback then pack.repoDecisions else []

def refreshPatch (run : AgentRunRecord) (refresh : DecisionPackRefreshNeeded) : AgentRunPatch where
  status := some .needsSnapshotRefresh
  dataQualityStatus := some .unknown
  payload := some (spread run.payload
    [("rebuildEnqueued", .bool refresh.rebuildEnqueued),
      ("refreshReason", .string (units
        (if refresh.rebuildEnqueued then "missing_decision_pack" else "queue_unavailable"))),
      ("freshness", .string (units refresh.freshness.name))])

def isStale (pack : ContributorDecisionPack) : Bool := pack.freshness ≠ .fresh

def completedPackPatch (run : AgentRunRecord) (pack : ContributorDecisionPack)
    (actions : List Action) (context : AgentContextSnapshotRecord) : AgentRunPatch where
  status := some .completed
  dataQualityStatus := some (if isStale pack then .degraded else pack.signalFidelityStatus)
  payload := some (spread run.payload (recordOf
    [("generatedAt", some (.string pack.generatedAt)),
      ("actionCount", some (.number (.finite actions.length))),
      ("freshness", some (.string (units pack.freshness.name))),
      ("rebuildEnqueued", some (.bool pack.rebuildEnqueued)),
      ("actionPortfolio", some ((context.payload.lookup "actionPortfolio").getD .null)),
      ("refreshReason", if isStale pack then
        some (.string (units (if pack.rebuildEnqueued then "stale_decision_pack"
          else "stale_decision_pack_queue_unavailable"))) else none)]))

/-- The monitor of the pack, else one that is built. -/
def monitored (login : Units) (pack : ContributorDecisionPack) :
    Executing Action ContributorDecisionPack :=
  match pack.openPrMonitor with
  | some _ => pure pack
  | none => do
      let monitor : JsonValue ← await world (.buildContributorOpenPrMonitor login)
      return { pack with openPrMonitor := some monitor }

def buildPackActions (run : AgentRunRecord) (kind : Units) (pack : ContributorDecisionPack)
    (decisions : List RepoDecision) : Executing Action (List Action) :=
  if kind = units "explain_blockers" then
    await world (.buildBlockerActions pack decisions run.allowCrossRepoFallback)
  else await world (.buildDecisionActions pack (scopedDecisionActions run pack decisions))

def executeDecisionPackRun (run : AgentRunRecord) (kind : Units) :
    Executing Action (Option (AgentRunBundle Action)) := do
  let serving : ContributorDecisionPackServing ←
    await world (.loadContributorDecisionPackForServing run.login)
  match serving with
  | .needsRefresh refresh => do
      updateAgentRun world (refreshPatch run refresh)
      getAgentRunBundle world created
  | .ready served => do
      let pack ← monitored world run.login served
      let decisions := decisionsFor pack run.repoFullName
      let actions ← buildPackActions world run kind pack decisions
      let context : AgentContextSnapshotRecord ←
        await world (.contextSnapshotFromPack pack decisions)
      let actionsWithSnapshots : List Action ←
        await world (.attachRecommendationSnapshots actions context)
      replaceAgentActions world actionsWithSnapshots
      await world (.persistAgentContextSnapshot context)
      updateAgentRun world (completedPackPatch run pack actions context)
      getAgentRunBundle world created

def buildLocalActions (kind : Units) (analysis : LocalBranchAnalysis) :
    Executing Action (List Action) :=
  if kind = units "prepare_pr_packet" then do
    let action : Action ← await world (.localPrPacketAction analysis)
    return [action]
  else if kind = units "explain_branch_blockers" then
    await world (.buildLocalBlockerActions analysis)
  else await world (.buildLocalBranchActions analysis)

def contextSnapshotFromAnalysis (run : AgentRunRecord) (analysis : LocalBranchAnalysis) :
    AgentContextSnapshotRecord where
  runId := run.id
  decisionPackVersion := analysis.generatedAt
  scoringModelId := analysis.scoringModelSnapshotId
  repoSignalSnapshotIds := []
  freshnessWarnings := analysis.baseFreshnessWarnings ++
    (analysis.dataQuality.map Prod.snd).getD []
  payload :=
    [("repoFullName", .string analysis.repoFullName),
      ("baseFreshness", .object analysis.baseFreshness),
      ("branchEligibility", analysis.branchEligibility),
      ("scoreabilityStatus", .string analysis.scoreabilityStatus),
      ("dataQuality", analysis.dataQualityJson)]

def completedAnalysisPatch (run : AgentRunRecord) (analysis : LocalBranchAnalysis)
    (actions : List Action) : AgentRunPatch where
  status := some .completed
  dataQualityStatus := some ((analysis.dataQuality.map Prod.fst).getD .unknown)
  payload := some (spread run.payload
    [("generatedAt", .string analysis.generatedAt),
      ("actionCount", .number (.finite actions.length))])

def executeLocalBranchRun (run : AgentRunRecord) (kind : Units) :
    Executing Action (Option (AgentRunBundle Action)) := do
  let input := run.payload.lookup "input"
  if (truthyText (member input "login") && truthyText (member input "repoFullName")) = false then
    throw (some "agent_local_branch_input_missing")
  let analysis : LocalBranchAnalysis ← await world (.analyzeLocalBranch input)
  let actions ← buildLocalActions world kind analysis
  let context := contextSnapshotFromAnalysis run analysis
  let actionsWithSnapshots : List Action ←
    await world (.attachRecommendationSnapshots actions context)
  replaceAgentActions world actionsWithSnapshots
  await world (.persistAgentContextSnapshot context)
  updateAgentRun world (completedAnalysisPatch run analysis actions)
  getAgentRunBundle world created

/-! ## One attempt -/

/-- A property of a bundle that is not there is not read. -/
def readBundle (property : String) :
    Option (AgentRunBundle Action) → Executing Action (AgentRunBundle Action)
  | none => throw (some ("Cannot read properties of null (reading '" ++ property ++ "')"))
  | some bundle => pure bundle

def attachPrivateAiSummary (bundle : Option (AgentRunBundle Action)) :
    Executing Action (Option (AgentRunBundle Action)) := do
  let summary : AiSummaryResult ← await world (.summarizeAgentBundleWithAi bundle)
  if summary.status = .disabled ∨ summary.status = .unavailable then return bundle
  let summarized ← readBundle "run" bundle
  updateAgentRun world
    { payload := some (spread summarized.run.payload [("aiSummary", summary.json)]) }
  return (← getAgentRunBundle world created).or bundle

def completedEvent (run : AgentRunRecord) (kind : Units) (actionCount : ℕ) : AuditEventRecord where
  eventType := "agent.run_completed"
  actor := run.actorLogin
  targetKey := some run.targetKey
  outcome := "completed"
  metadata := [("runId", .string (units run.id)), ("kind", .string kind),
    ("actionCount", .number (.finite actionCount))]

def failedEvent (run : AgentRunRecord) (message : String) : AuditEventRecord where
  eventType := "agent.run_failed"
  actor := run.actorLogin
  outcome := "error"
  detail := some message
  metadata := [("runId", .string (units run.id))]

def executeKind (run : AgentRunRecord) : Executing Action (Option (AgentRunBundle Action)) :=
  if run.kind = units "preflight_branch" ∨ run.kind = units "prepare_pr_packet" ∨
      run.kind = units "explain_branch_blockers" then
    executeLocalBranchRun world created run run.kind
  else executeDecisionPackRun world created run run.kind

/-- The body of the `try`. -/
def completeRun (run : AgentRunRecord) : Executing Action (AgentRunBundle Action) := do
  let bundle ← executeKind world created run
  let summarized ← readBundle "actions" (← attachPrivateAiSummary world created bundle)
  await world (.recordAuditEvent (completedEvent run run.kind summarized.actions.length))
  return summarized

/-- The handler. -/
def failRun (run : AgentRunRecord) (error : Thrown) : Executing Action (AgentRunBundle Action) := do
  let message := error.getD "agent_run_failed"
  updateAgentRun world { status := some .failed, errorSummary := some message }
  await world (.recordAuditEvent (failedEvent run message))
  match ← getAgentRunBundle world created with
  | none => throw error
  | some failed => return failed

def executeAgentRun : Executing Action (AgentRunBundle Action) := do
  match ← getAgentRun world created with
  | none => throw (some ("Agent run not found: " ++ created.run.id))
  | some run => do
      updateAgentRun world { status := some .running }
      tryCatch (completeRun world created run) (failRun world created run)

/-- The calls of the attempts on a run, one attempt after the other. -/
def attempts : ℕ → History Action
  | 0 => []
  | count + 1 => (executeAgentRun world created ⟨(), attempts count⟩).2.made

/-- A history at some point of some attempt. -/
def Reached (made : History Action) : Prop := ∃ count, made <:+ attempts world created count

end Model

section Runs

variable {Action : Type} (created : CreatedRun)

/-! ## What a history says -/

def newStatus : Made (@Call.Answer Action) Thrown → Option AgentRunStatus
  | ⟨.updateAgentRun patch, .ok _⟩ => patch.status
  | _ => none

/-- The status that was set last, and the calls before it was set. -/
def setting : History Action → Option (AgentRunStatus × History Action)
  | [] => none
  | made :: earlier =>
      match newStatus made with
      | some status => some (status, earlier)
      | none => setting earlier

/-- The run has been completed before. -/
def Completed (made : History Action) : Prop :=
  ∃ one ∈ made, newStatus one = some .completed

/-- The call that every attempt begins with. -/
def isStart : Made (@Call.Answer Action) Thrown → Bool
  | ⟨.getAgentRun, _⟩ => true
  | _ => false

def attachedBy : Made (@Call.Answer Action) Thrown → Option (List Action)
  | ⟨.attachRecommendationSnapshots _ _, .ok actions⟩ => some actions
  | _ => none

/-- The actions of the attempt under way. -/
def ownActions : History Action → Option (List Action)
  | [] => none
  | made :: earlier => if isStart made then none else (attachedBy made).or (ownActions earlier)

def writes : Made (@Call.Answer Action) Thrown → Option (List Action) → Option (List Action)
  | ⟨.deleteAgentActions, .ok _⟩, _ => some []
  | ⟨.insertAgentAction action, .ok _⟩, written => written.map (· ++ [action])
  | _, written => written

/-- What the attempt under way has written to the table that it has emptied. -/
def writtenActions : History Action → Option (List Action)
  | [] => none
  | made :: earlier => if isStart made then none else writes made (writtenActions earlier)

/-- The attempt under way has stored its own actions. -/
def StoresOwn (made : History Action) : Prop :=
  ∃ actions, ownActions made = some actions ∧ writtenActions made = some actions

def throws (made : Made (@Call.Answer Action) Thrown) : Bool :=
  match made.outcome with
  | .ok _ => false
  | .error _ => true

/-- No call of the attempt under way has thrown. -/
def unthrown : History Action → Bool
  | [] => true
  | made :: earlier => isStart made || (!throws made && unthrown earlier)

/-- A run that was completed is turned into a failed one only by an attempt that has not stored
its own actions, and the actions of a completed run are those of the attempt that set it. -/
structure Lawful (made : History Action) : Prop where
  failed : ∀ run, (storage created made).run = some run → run.status = .failed →
    ∃ earlier, setting made = some (.failed, earlier) ∧ (Completed earlier → ¬StoresOwn earlier)
  completed : ∀ run, (storage created made).run = some run → run.status = .completed →
    ∃ earlier, setting made = some (.completed, earlier) ∧
      ownActions earlier = some (storage created made).actions

/-- Where the first call of an attempt to throw comes after it has stored its actions, on a run
that has been completed, the next call throws as well. -/
def Spares (made : History Action) : Prop :=
  ∀ later next call error earlier, made = later ++ next :: ⟨call, .error error⟩ :: earlier →
    call ≠ .getAgentRun → unthrown earlier = true → StoresOwn earlier → Completed earlier →
      throws next = true

/-! ## The order of the calls -/

variable (Action) in
/-- Where an attempt stands; `storing` has the actions that are not written yet. -/
inductive Phase where
  | waiting
  | reading
  | working
  | attached (actions : List Action)
  | storing (left : List Action)
  | failing
  | failed

/-- A call that neither begins an attempt nor touches its actions, nor the status of the run. -/
def Quiet : Call Action → Prop
  | .getAgentRun | .attachRecommendationSnapshots _ _ | .deleteAgentActions
  | .insertAgentAction _ => False
  | .updateAgentRun patch => patch.status = none
  | _ => True

def Phase.InTry : Phase Action → Prop
  | .working | .attached _ | .storing _ => True
  | _ => False

/-- The histories in which every call comes in its order. -/
inductive Admitted : Phase Action → History Action → Prop
  | fresh : Admitted .waiting []
  | start {phase made} : Admitted phase made → phase ≠ .failing →
      Admitted .reading (⟨.getAgentRun, .ok ()⟩ :: made)
  | unread {phase made error} : Admitted phase made → phase ≠ .failing →
      Admitted .waiting (⟨.getAgentRun, .error error⟩ :: made)
  | run {patch made} : Admitted .reading made → patch.status = some .running →
      Admitted .working (⟨.updateAgentRun patch, .ok ()⟩ :: made)
  | unrun {patch made error} : Admitted .reading made →
      Admitted .waiting (⟨.updateAgentRun patch, .error error⟩ :: made)
  | quiet {phase call answer made} : Admitted phase made → phase ≠ .failing → Quiet call →
      Admitted phase (⟨call, .ok answer⟩ :: made)
  | attach {actions context own made} : Admitted .working made →
      Admitted (.attached own) (⟨.attachRecommendationSnapshots actions context, .ok own⟩ :: made)
  | delete {own made} : Admitted (.attached own) made →
      Admitted (.storing own) (⟨.deleteAgentActions, .ok ()⟩ :: made)
  | insert {action left made} : Admitted (.storing (action :: left)) made →
      Admitted (.storing left) (⟨.insertAgentAction action, .ok ()⟩ :: made)
  | refresh {patch made} : Admitted .working made → patch.status = some .needsSnapshotRefresh →
      Admitted .working (⟨.updateAgentRun patch, .ok ()⟩ :: made)
  | complete {patch made} : Admitted (.storing []) made → patch.status = some .completed →
      Admitted (.storing []) (⟨.updateAgentRun patch, .ok ()⟩ :: made)
  | throw {phase call error made} : Admitted phase made → phase.InTry → call ≠ .getAgentRun →
      Admitted .failing (⟨call, .error error⟩ :: made)
  | fail {phase patch made} : Admitted phase made → phase = .failing ∨ phase = .working →
      patch.status = some .failed → Admitted .failed (⟨.updateAgentRun patch, .ok ()⟩ :: made)
  | unfail {phase patch made error} : Admitted phase made →
      phase = .failing ∨ phase = .working →
      Admitted .waiting (⟨.updateAgentRun patch, .error error⟩ :: made)
  | report {call error made} : Admitted .failed made → call ≠ .getAgentRun →
      Admitted .failed (⟨call, .error error⟩ :: made)

/-! ## The attempts keep the order -/

abbrev RunFrame (Action : Type) := Frame (@Call.Answer Action) Thrown Unit

/-- Between two calls of an attempt, or behind its last one. -/
def Ended (frame : RunFrame Action) : Prop := ∃ phase, phase ≠ .failing ∧ Admitted phase frame.made

/-- The body of the `try` has thrown. -/
def Throws (frame : RunFrame Action) : Prop :=
  ∃ phase, (phase = .failing ∨ phase = .working) ∧ Admitted phase frame.made

def In (phase : Phase Action) (frame : RunFrame Action) : Prop := Admitted phase frame.made

theorem In.throws {frame : RunFrame Action} (h : In .failing frame) : Throws frame :=
  ⟨.failing, .inl rfl, h⟩

variable (world : World (@Call.Answer Action) Thrown)

theorem Phase.InTry.ne_failing {phase : Phase Action} (h : phase.InTry) : phase ≠ .failing := by
  rintro rfl
  exact h

theorem Phase.inTry_working : (Phase.working : Phase Action).InTry := trivial

/-- The run stays in the table. -/
theorem storage_run (made : History Action) : (storage created made).run ≠ none := by
  induction made with
  | nil => exact Option.some_ne_none _
  | cons one earlier ih =>
    obtain ⟨call, outcome⟩ := one
    cases outcome with
    | error error => exact ih
    | ok answer =>
      cases call with
      | updateAgentRun patch => exact fun h => ih (Option.map_eq_none_iff.mp h)
      | _ => exact ih

theorem triple_quiet {phase : Phase Action} (hphase : phase.InTry) {call : Call Action}
    (hcall : Quiet call) :
    Triple (In phase) (await world call : Executing Action _) (fun _ => In phase)
      (In .failing) := by
  refine triple_await world call (fun frame answer h _ => ?_) fun frame error h _ => ?_
  · exact h.quiet hphase.ne_failing hcall
  · refine h.throw hphase ?_
    rintro rfl
    exact hcall

theorem triple_getAgentRunBundle {phase : Phase Action} (hphase : phase.InTry) :
    Triple (In phase) (getAgentRunBundle world created)
      (fun bundle frame => bundle ≠ none ∧ In phase frame) (In .failing) := by
  refine triple_bind _ (triple_quiet world hphase trivial) fun _ => ?_
  intro frame h
  refine ⟨fun bundle frame' hrun => ?_, fun _ _ hrun => ?_⟩
  · obtain ⟨hbundle, rfl⟩ := Prod.mk.inj hrun
    obtain rfl := Except.ok.inj hbundle
    exact ⟨fun hnone => storage_run created _ (Option.map_eq_none_iff.mp hnone), h⟩
  · cases (Prod.mk.inj hrun).1

theorem triple_insertAgentActions (actions : List Action) :
    Triple (In (.storing actions)) (insertAgentActions world actions) (fun _ => In (.storing []))
      (In .failing) := by
  induction actions with
  | nil => exact triple_pure () fun _ h => h
  | cons action rest ih =>
    refine triple_bind (fun _ => In (.storing rest)) ?_ fun _ => ih
    exact triple_await world _ (fun _ _ h _ => h.insert) fun _ _ h _ => h.throw trivial nofun

theorem triple_replaceAgentActions (actions : List Action) :
    Triple (In (.attached actions)) (replaceAgentActions world actions)
      (fun _ => In (.storing [])) (In .failing) := by
  refine triple_bind (fun _ => In (.storing actions)) ?_ fun _ =>
    triple_insertAgentActions world actions
  exact triple_await world _ (fun _ _ h _ => h.delete) fun _ _ h _ => h.throw trivial nofun

/-- The end of an execution, from the actions to the bundle. -/
theorem triple_storeActions (actions : List Action)
    (context context' : AgentContextSnapshotRecord) {patch : AgentRunPatch} (hpatch : patch.status = some .completed) :
    Triple (In .working)
      (do
        let actionsWithSnapshots : List Action ←
          await world (.attachRecommendationSnapshots actions context)
        replaceAgentActions world actionsWithSnapshots
        await world (.persistAgentContextSnapshot context')
        updateAgentRun world patch
        getAgentRunBundle world created)
      (fun bundle frame => bundle ≠ none ∧ In (.storing []) frame) (In .failing) := by
  have hattach : Triple (In .working)
      (await world (.attachRecommendationSnapshots actions context) : Executing Action _)
      (fun (own : List Action) => In (.attached own)) (In .failing) :=
    triple_await world _ (fun _ _ h _ => h.attach) fun _ _ h _ => h.throw trivial nofun
  refine triple_bind _ hattach fun own => ?_
  refine triple_bind _ (triple_replaceAgentActions world own) fun _ => ?_
  have hstored : (Phase.storing ([] : List Action)).InTry := trivial
  refine triple_bind _ (triple_quiet world hstored trivial) fun _ => ?_
  refine triple_bind (fun _ => In (.storing [])) ?_ fun _ =>
    triple_getAgentRunBundle created world hstored
  exact triple_await world _ (fun _ _ h _ => h.complete hpatch) fun _ _ h _ =>
    h.throw trivial nofun

/-- A computation ahead of the actions. -/
theorem triple_working {call : Call Action} (hcall : Quiet call) :
    Triple (In .working) (await world call : Executing Action _) (fun _ => In .working) Throws :=
  (triple_quiet world Phase.inTry_working hcall).weaken (fun _ h => h) (fun _ _ h => h)
    fun _ h => h.throws

/-- What the body has when it returns a bundle. -/
def Closes (bundle : Option (AgentRunBundle Action)) (frame : RunFrame Action) : Prop :=
  bundle ≠ none ∧ (In .working frame ∨ In (.storing []) frame)

theorem triple_executeDecisionPackRun (run : AgentRunRecord) (kind : Units) :
    Triple (In .working) (executeDecisionPackRun world created run kind) Closes Throws := by
  refine triple_bind _ (triple_working world trivial) fun serving => ?_
  rcases (serving : ContributorDecisionPackServing) with served | refresh
  · have hmonitored : Triple (In .working) (monitored world run.login served)
        (fun _ => In .working) Throws := by
      unfold monitored
      cases served.openPrMonitor with
      | some monitor => exact triple_pure _ fun _ h => h
      | none =>
        exact triple_bind _ (triple_working world trivial) fun _ => triple_pure _ fun _ h => h
    refine triple_bind _ hmonitored fun pack => ?_
    refine triple_bind (fun _ => In .working) (triple_ite (fun _ => triple_working world trivial)
      fun _ => triple_working world trivial) fun actions => ?_
    refine triple_bind _ (triple_working world trivial) fun context => ?_
    exact (triple_storeActions created world actions context context rfl).weaken (fun _ h => h)
      (fun _ _ h => ⟨h.1, .inr h.2⟩) fun _ h => h.throws
  · refine triple_bind (fun _ => In .working) ?_ fun _ =>
      (triple_getAgentRunBundle created world Phase.inTry_working).weaken (fun _ h => h)
        (fun _ _ h => ⟨h.1, .inl h.2⟩) fun _ h => h.throws
    exact triple_await world _ (fun _ _ h _ => h.refresh rfl) fun _ _ h _ =>
      ⟨.failing, .inl rfl, h.throw trivial nofun⟩

theorem triple_executeLocalBranchRun (run : AgentRunRecord) (kind : Units) :
    Triple (In .working) (executeLocalBranchRun world created run kind) Closes Throws := by
  refine triple_ite (fun _ => triple_throw _ fun _ h => ⟨.working, .inr rfl, h⟩) fun _ => ?_
  refine triple_bind _ (triple_working world trivial) fun analysis => ?_
  have hactions : Triple (In .working) (buildLocalActions world kind analysis)
      (fun _ => In .working) Throws :=
    triple_ite (fun _ => triple_bind _ (triple_working world trivial) fun _ =>
      triple_pure _ fun _ h => h) fun _ => triple_ite (fun _ => triple_working world trivial)
        fun _ => triple_working world trivial
  refine triple_bind _ hactions fun actions => ?_
  exact (triple_storeActions created world actions _ _ rfl).weaken (fun _ h => h)
    (fun _ _ h => ⟨h.1, .inr h.2⟩) fun _ h => h.throws

theorem triple_readBundle (property : String) (bundle : Option (AgentRunBundle Action))
    {before : RunFrame Action → Prop} :
    Triple (fun frame => bundle ≠ none ∧ before frame) (readBundle property bundle)
      (fun _ => before) Throws := by
  cases bundle with
  | none => exact fun frame h => absurd rfl h.1
  | some bundle => exact triple_pure _ fun _ h => h.2

theorem triple_attachPrivateAiSummary {phase : Phase Action} (hphase : phase.InTry)
    (bundle : Option (AgentRunBundle Action)) :
    Triple (fun frame => bundle ≠ none ∧ In phase frame)
      (attachPrivateAiSummary world created bundle)
      (fun bundle frame => bundle ≠ none ∧ In phase frame) Throws := by
  by_cases hbundle : bundle = none
  · exact fun frame h => absurd hbundle h.1
  have hthrows : ∀ frame : RunFrame Action, In .failing frame → Throws frame := fun _ h => h.throws
  have hsummary : Quiet (.summarizeAgentBundleWithAi bundle) := trivial
  have hpayload : ∀ payload, Quiet (.updateAgentRun { payload := some payload } : Call Action) :=
    fun _ => rfl
  refine triple_bind _ ((triple_quiet world hphase hsummary).weaken (fun _ h => h.2)
    (fun _ _ h => h) hthrows) fun summary => ?_
  refine triple_ite (fun _ => triple_pure _ fun _ h => ⟨hbundle, h⟩) fun _ => ?_
  refine triple_bind _ ((triple_readBundle "run" bundle).weaken (fun _ h => ⟨hbundle, h⟩)
    (fun _ _ h => h) fun _ h => h) fun summarized => ?_
  refine triple_bind (fun _ => In phase) ?_ fun _ => ?_
  · exact (triple_quiet world hphase (hpayload _)).weaken (fun _ h => h) (fun _ _ h => h) hthrows
  · refine triple_bind _ ((triple_getAgentRunBundle created world hphase).weaken (fun _ h => h)
      (fun _ _ h => h) hthrows) fun read => triple_pure _ fun _ h => ⟨?_, h.2⟩
    exact fun hnone => h.1 (Option.or_eq_none_iff.mp hnone).1

theorem triple_completeRun (run : AgentRunRecord) :
    Triple (In .working) (completeRun world created run) (fun _ => Ended) Throws := by
  refine triple_bind Closes ?_ fun bundle => ?_
  · exact triple_ite (fun _ => triple_executeLocalBranchRun created world run _) fun _ =>
      triple_executeDecisionPackRun created world run _
  have hclose : ∀ {phase : Phase Action}, phase.InTry →
      Triple (fun frame => bundle ≠ none ∧ In phase frame)
        (do
          let summarized ← readBundle "actions" (← attachPrivateAiSummary world created bundle)
          await world (.recordAuditEvent (completedEvent run run.kind summarized.actions.length))
          return summarized)
        (fun _ => Ended) Throws := fun {phase} hphase => by
    refine triple_bind _ (triple_attachPrivateAiSummary created world hphase bundle)
      fun summarized => ?_
    refine triple_bind _ (triple_readBundle "actions" summarized) fun summarized => ?_
    refine triple_bind (fun _ => Ended) ?_ fun _ => triple_pure _ fun _ h => h
    have haudit : ∀ event, Quiet (.recordAuditEvent event : Call Action) := fun _ => trivial
    exact (triple_quiet world hphase (haudit _)).weaken (fun _ h => h)
      (fun _ _ h => ⟨phase, hphase.ne_failing, h⟩) fun _ h => h.throws
  rintro frame ⟨hbundle, hworking | hstored⟩
  · exact hclose Phase.inTry_working frame ⟨hbundle, hworking⟩
  · have hphase : (Phase.storing ([] : List Action)).InTry := trivial
    exact hclose hphase frame ⟨hbundle, hstored⟩

theorem keeps_report {call : Call Action} (hcall : Quiet call) :
    Triple (In .failed) (await world call : Executing Action _) (fun _ => In .failed) Ended := by
  refine triple_await world call (fun _ _ h _ => h.quiet nofun hcall) fun _ error h _ => ?_
  refine ⟨.failed, nofun, h.report ?_⟩
  rintro rfl
  exact hcall

theorem triple_failRun (run : AgentRunRecord) (error : Thrown) :
    Triple Throws (failRun world created run error) (fun _ => Ended) Ended := by
  have hended : ∀ frame : RunFrame Action, In .failed frame → Ended frame := fun _ h =>
    ⟨.failed, nofun, h⟩
  refine triple_bind (fun _ => In .failed) ?_ fun _ => ?_
  · refine triple_await world _ (fun _ _ h _ => ?_) fun _ _ h _ => ?_
    · obtain ⟨phase, hphase, hadmitted⟩ := h
      exact hadmitted.fail hphase rfl
    · obtain ⟨phase, hphase, hadmitted⟩ := h
      exact ⟨.waiting, nofun, hadmitted.unfail hphase⟩
  refine triple_bind _ (keeps_report world trivial) fun _ => ?_
  refine triple_bind (fun _ => In .failed) (triple_bind _ (keeps_report world trivial) fun _ => ?_)
    fun failed => ?_
  · intro frame h
    refine ⟨fun _ _ hrun => ?_, fun _ _ hrun => ?_⟩
    · obtain ⟨-, rfl⟩ := Prod.mk.inj hrun
      exact h
    · cases (Prod.mk.inj hrun).1
  · cases failed with
    | none => exact triple_throw error hended
    | some failed => exact triple_pure failed hended

theorem triple_executeAgentRun :
    Triple Ended (executeAgentRun world created) (fun _ => Ended) Ended := by
  have hread : Triple Ended (getAgentRun world created) (fun _ => In .reading) Ended := by
    refine triple_bind (fun _ => In .reading) ?_ fun _ frame h => ⟨fun _ _ hrun => ?_,
      fun _ _ hrun => ?_⟩
    · refine triple_await world _ (fun _ _ h _ => ?_) fun _ _ h _ => ?_
      · obtain ⟨phase, hphase, hadmitted⟩ := h
        exact hadmitted.start hphase
      · obtain ⟨phase, hphase, hadmitted⟩ := h
        exact ⟨.waiting, nofun, hadmitted.unread hphase⟩
    · obtain ⟨-, rfl⟩ := Prod.mk.inj hrun
      exact h
    · cases (Prod.mk.inj hrun).1
  refine triple_bind _ hread fun run => ?_
  cases run with
  | none => exact triple_throw _ fun _ h => ⟨.reading, nofun, h⟩
  | some run =>
    refine triple_bind (fun _ => In .working) ?_ fun _ => triple_tryCatch Throws
      (triple_completeRun created world run) (triple_failRun created world run)
    exact triple_await world _ (fun _ _ h _ => h.run rfl) fun _ _ h _ =>
      ⟨.waiting, nofun, h.unrun⟩

/-- However many attempts there are, their calls come in order. -/
theorem admitted_attempts (count : ℕ) :
    ∃ phase, phase ≠ .failing ∧ Admitted phase (attempts world created count) := by
  induction count with
  | zero => exact ⟨.waiting, nofun, .fresh⟩
  | succ count ih =>
    obtain ⟨hok, herror⟩ := triple_executeAgentRun created world
      ⟨(), attempts world created count⟩ ih
    unfold attempts
    rcases hrun : executeAgentRun world created ⟨(), attempts world created count⟩ with
      ⟨error | value, frame⟩
    · exact herror error frame hrun
    · exact hok value frame hrun

theorem Admitted.tail {phase : Phase Action} {one : Made (@Call.Answer Action) Thrown}
    {made : History Action} (h : Admitted phase (one :: made)) :
    ∃ phase, Admitted phase made := by
  cases h <;> exact ⟨_, ‹_›⟩

theorem Admitted.suffix {later made : History Action} {phase : Phase Action}
    (h : Admitted phase (later ++ made)) : ∃ phase, Admitted phase made := by
  induction later generalizing phase with
  | nil => exact ⟨phase, h⟩
  | cons one later ih =>
    obtain ⟨phase, htail⟩ := h.tail
    exact ih htail

theorem Reached.admitted {made : History Action} (h : Reached world created made) :
    ∃ phase, Admitted phase made := by
  obtain ⟨count, later, hcut⟩ := h
  obtain ⟨phase, -, hadmitted⟩ := admitted_attempts created world count
  rw [← hcut] at hadmitted
  exact hadmitted.suffix

theorem Reached.suffix {later made : History Action} (h : Reached world created (later ++ made)) :
    Reached world created made := by
  obtain ⟨count, hsuffix⟩ := h
  exact ⟨count, (List.suffix_append later made).trans hsuffix⟩

/-! ## What the order keeps -/

/-- What is known of a history by where its attempt stands. -/
def Facts : Phase Action → History Action → Prop
  | .waiting, made | .failed, made => unthrown made = true → ¬StoresOwn made
  | .reading, made => ownActions made = none ∧ unthrown made = true
  | .working, made => ownActions made = none ∧ unthrown made = true ∧
      ∀ earlier, setting made ≠ some (.completed, earlier)
  | .attached actions, made => ownActions made = some actions ∧ unthrown made = true ∧
      ∀ earlier, setting made ≠ some (.completed, earlier)
  | .storing left, made => unthrown made = true ∧ (∃ done, ownActions made = some (done ++ left) ∧
      writtenActions made = some done ∧ (storage created made).actions = done) ∧
      (left ≠ [] → ∀ earlier, setting made ≠ some (.completed, earlier))
  | .failing, made => ∃ call error earlier, made = ⟨call, .error error⟩ :: earlier ∧
      call ≠ .getAgentRun ∧ unthrown earlier = true

theorem setting_update {patch : AgentRunPatch} {status : AgentRunStatus}
    (h : patch.status = some status) (made : History Action) :
    setting (⟨.updateAgentRun patch, .ok ()⟩ :: made) = some (status, made) := by
  have hstatus : newStatus (⟨.updateAgentRun patch, .ok ()⟩ : Made (@Call.Answer Action) Thrown) =
      some status := h
  rw [setting, hstatus]

theorem not_storesOwn_of_none {made : History Action} (h : ownActions made = none) :
    ¬StoresOwn made := by
  rintro ⟨actions, hown, -⟩
  rw [h] at hown
  cases hown

/-- Nothing changes for the attempt at a call that throws, or that is quiet. -/
structure Still (one : Made (@Call.Answer Action) Thrown) : Prop where
  start : isStart one = false
  attached : attachedBy one = none
  writes : ∀ written, writes one written = written
  status : newStatus one = none

theorem still_of_error {call : Call Action} (error : Thrown) (h : call ≠ .getAgentRun) :
    Still (⟨call, .error error⟩ : Made (@Call.Answer Action) Thrown) := by
  cases call <;> first | exact absurd rfl h | exact ⟨rfl, rfl, fun _ => rfl, rfl⟩

theorem still_of_quiet {call : Call Action} (answer : call.Answer) (h : Quiet call) :
    Still (⟨call, .ok answer⟩ : Made (@Call.Answer Action) Thrown) := by
  cases call <;> first | exact h.elim | exact ⟨rfl, rfl, fun _ => rfl, rfl⟩ |
    exact ⟨rfl, rfl, fun _ => rfl, h⟩

section Still

variable {one : Made (@Call.Answer Action) Thrown} (h : Still one) (made : History Action)
include h

theorem Still.setting : setting (one :: made) = setting made := by
  rw [AgentRunExecution.setting, h.status]

theorem Still.ownActions : ownActions (one :: made) = ownActions made := by
  rw [AgentRunExecution.ownActions, h.start, h.attached]
  rfl

theorem Still.writtenActions : writtenActions (one :: made) = writtenActions made := by
  rw [AgentRunExecution.writtenActions, h.start, h.writes]
  rfl

theorem Still.storesOwn_iff : StoresOwn (one :: made) ↔ StoresOwn made := by
  unfold StoresOwn
  rw [h.ownActions, h.writtenActions]

theorem Still.completed_iff : Completed (one :: made) ↔ Completed made := by
  constructor
  · rintro ⟨other, hmem, hstatus⟩
    rcases List.mem_cons.mp hmem with rfl | hmem
    · rw [h.status] at hstatus
      cases hstatus
    · exact ⟨other, hmem, hstatus⟩
  · rintro ⟨other, hmem, hstatus⟩
    exact ⟨other, List.mem_cons_of_mem _ hmem, hstatus⟩

end Still

theorem storage_of_quiet {call : Call Action} (answer : call.Answer) (h : Quiet call)
    (made : History Action) :
    (storage created (⟨call, .ok answer⟩ :: made)).actions = (storage created made).actions := by
  cases call <;> first | exact h.elim | rfl

theorem unthrown_of_quiet {call : Call Action} (answer : call.Answer) (h : Quiet call)
    (made : History Action) :
    unthrown (⟨call, .ok answer⟩ :: made) = unthrown made := by
  rw [unthrown, (still_of_quiet answer h).start]
  rfl

/-- A quiet call leaves what is known. -/
theorem facts_of_quiet {phase : Phase Action} {call : Call Action} (answer : call.Answer)
    (hcall : Quiet call) {made : History Action} (hphase : phase ≠ .failing)
    (h : Facts created phase made) : Facts created phase (⟨call, .ok answer⟩ :: made) := by
  have hstill := still_of_quiet answer hcall
  have hthrown := unthrown_of_quiet answer hcall made
  have hstorage := storage_of_quiet created answer hcall made
  cases phase with
  | waiting | failed =>
    dsimp only [Facts] at h ⊢
    rwa [hthrown, hstill.storesOwn_iff]
  | reading =>
    dsimp only [Facts] at h ⊢
    rwa [hthrown, hstill.ownActions]
  | working | attached =>
    dsimp only [Facts] at h ⊢
    rwa [hthrown, hstill.ownActions, hstill.setting]
  | storing left =>
    dsimp only [Facts] at h ⊢
    rwa [hthrown, hstill.ownActions, hstill.writtenActions, hstorage, hstill.setting]
  | failing => exact absurd rfl hphase

theorem Facts.unthrown {phase : Phase Action} {made : History Action} (hphase : phase.InTry)
    (h : Facts created phase made) : unthrown made = true := by
  cases phase with
  | waiting | reading | failing | failed => exact hphase.elim
  | working | attached => exact h.2.1
  | storing => exact h.1

/-- Where an attempt may still write `failed`, an attempt without a throw has stored nothing. -/
theorem Facts.not_storesOwn {phase : Phase Action} {made : History Action}
    (hphase : phase = .failing ∨ phase = .working) (h : Facts created phase made)
    (hthrown : AgentRunExecution.unthrown made = true) : ¬StoresOwn made := by
  rcases hphase with rfl | rfl
  · obtain ⟨call, error, earlier, rfl, hcall, -⟩ := h
    rw [AgentRunExecution.unthrown, (still_of_error error hcall).start] at hthrown
    cases hthrown
  · exact not_storesOwn_of_none h.1

theorem Admitted.facts {phase : Phase Action} {made : History Action} (h : Admitted phase made) :
    Facts created phase made := by
  induction h with
  | fresh => exact fun _ => not_storesOwn_of_none rfl
  | start _ _ _ => exact ⟨rfl, rfl⟩
  | unread _ _ _ => exact fun _ => not_storesOwn_of_none rfl
  | @run patch made _ hstatus ih =>
    refine ⟨ih.1, ih.2, fun earlier hset => ?_⟩
    rw [setting_update hstatus] at hset
    cases hset
  | unrun _ ih =>
    exact fun _ => not_storesOwn_of_none ih.1
  | quiet _ hphase hcall ih => exact facts_of_quiet created _ hcall hphase ih
  | attach _ ih => exact ⟨rfl, ih.2⟩
  | @delete own made _ ih =>
    exact ⟨ih.2.1, ⟨[], ih.1, rfl, rfl⟩, fun _ => ih.2.2⟩
  | @insert action left made _ ih =>
    obtain ⟨hthrown, ⟨done, hown, hwritten, hactions⟩, hset⟩ := ih
    refine ⟨hthrown, ⟨done ++ [action], ?_, ?_, ?_⟩, fun _ => hset (List.cons_ne_nil _ _)⟩
    · rw [List.append_assoc]
      exact hown
    · have hcons : writtenActions (⟨.insertAgentAction action, .ok ()⟩ :: made) =
          (writtenActions made).map (· ++ [action]) := rfl
      rw [hcons, hwritten]
      rfl
    · have hcons : (storage created (⟨.insertAgentAction action, .ok ()⟩ :: made)).actions =
          (storage created made).actions ++ [action] := rfl
      rw [hcons, hactions]
  | @refresh patch made _ hstatus ih =>
    refine ⟨ih.1, ih.2.1, fun earlier hset => ?_⟩
    rw [setting_update hstatus] at hset
    cases hset
  | complete _ _ ih => exact ⟨ih.1, ih.2.1, fun hleft => absurd rfl hleft⟩
  | @throw phase call error made _ hphase hcall ih =>
    exact ⟨call, error, made, rfl, hcall, ih.unthrown created hphase⟩
  | fail _ hphase _ ih =>
    have hnot := ih.not_storesOwn created hphase
    exact hnot
  | unfail _ _ _ => exact fun hthrown => by cases hthrown
  | @report call error made _ hcall _ =>
    intro hthrown
    rw [AgentRunExecution.unthrown, (still_of_error error hcall).start] at hthrown
    cases hthrown

/-! ## The status and the actions -/

theorem newStatus_of_error {call : Call Action} (error : Thrown) :
    newStatus (⟨call, .error error⟩ : Made (@Call.Answer Action) Thrown) = none := by
  cases call <;> rfl

theorem setting_of_none {one : Made (@Call.Answer Action) Thrown} (h : newStatus one = none)
    (made : History Action) : setting (one :: made) = setting made := by
  rw [setting, h]

/-- The status in the table is the one that was set last. -/
theorem storage_status (made : History Action) :
    (storage created made).run.map AgentRunRecord.status =
      some (((setting made).map Prod.fst).getD created.run.status) := by
  induction made with
  | nil => rfl
  | cons one earlier ih =>
    obtain ⟨call, outcome⟩ := one
    cases outcome with
    | error error =>
      rw [setting_of_none (newStatus_of_error error)]
      exact ih
    | ok answer =>
      cases call with
      | updateAgentRun patch =>
        have hrun : (storage created (⟨.updateAgentRun patch, .ok answer⟩ :: earlier)).run =
            (storage created earlier).run.map (·.update patch) := rfl
        obtain ⟨run, hsome⟩ := Option.ne_none_iff_exists'.mp (storage_run created earlier)
        rw [hsome, Option.map_some, Option.some.injEq] at ih
        rw [hrun, hsome, Option.map_some, Option.map_some, Option.some.injEq]
        have hstatus : (run.update patch).status = patch.status.getD run.status := rfl
        rw [hstatus, ih]
        cases hpatch : patch.status with
        | none =>
          have hnone : newStatus (⟨.updateAgentRun patch, .ok answer⟩ :
              Made (@Call.Answer Action) Thrown) = none := hpatch
          rw [setting_of_none hnone]
          rfl
        | some status =>
          have hset : setting (⟨.updateAgentRun patch, .ok answer⟩ :: earlier) =
              some (status, earlier) := setting_update hpatch earlier
          rw [hset]
          rfl
      | _ => exact ih

/-- A run that is completed has the actions of the attempt that set it. -/
theorem Admitted.own_of_completed {phase : Phase Action} {made earlier : History Action}
    (h : Admitted phase made) (hset : setting made = some (.completed, earlier)) :
    ownActions earlier = some (storage created made).actions := by
  induction h with
  | fresh => cases hset
  | start _ _ ih | unread _ _ ih | attach _ ih => exact ih hset
  | run _ hstatus _ | refresh _ hstatus _ | fail _ _ hstatus _ =>
    rw [setting_update hstatus] at hset
    cases hset
  | unrun _ ih | unfail _ _ ih => exact ih hset
  | quiet _ _ hcall ih =>
    rw [(still_of_quiet _ hcall).setting] at hset
    rw [storage_of_quiet created _ hcall]
    exact ih hset
  | delete hbefore _ => exact absurd hset ((hbefore.facts created).2.2 earlier)
  | insert hbefore _ =>
    exact absurd hset ((hbefore.facts created).2.2 (List.cons_ne_nil _ _) earlier)
  | complete hbefore hstatus _ =>
    rw [setting_update hstatus] at hset
    obtain ⟨-, rfl⟩ := Prod.mk.inj (Option.some.inj hset)
    obtain ⟨-, ⟨done, hown, -, hactions⟩, -⟩ := hbefore.facts created
    rw [List.append_nil, ← hactions] at hown
    exact hown
  | throw _ _ _ ih | report _ _ ih =>
    rw [setting_of_none (newStatus_of_error _)] at hset
    exact ih hset

theorem exists_of_setting {made earlier : History Action} {status : AgentRunStatus}
    (h : setting made = some (status, earlier)) :
    ∃ later one, made = later ++ one :: earlier ∧ newStatus one = some status := by
  induction made with
  | nil => cases h
  | cons one made ih =>
    cases hstatus : newStatus one with
    | none =>
      rw [setting_of_none hstatus] at h
      obtain ⟨later, other, rfl, hother⟩ := ih h
      exact ⟨one :: later, other, rfl, hother⟩
    | some set =>
      rw [setting, hstatus] at h
      obtain ⟨rfl, rfl⟩ := Prod.mk.inj (Option.some.inj h)
      exact ⟨[], one, rfl, hstatus⟩

/-- Only behind a throw, or ahead of the actions, is a run turned into a failed one. -/
theorem Admitted.phase_of_failed {phase : Phase Action} {one : Made (@Call.Answer Action) Thrown}
    {earlier : History Action} (h : Admitted phase (one :: earlier))
    (hstatus : newStatus one = some .failed) :
    ∃ before, (before = .failing ∨ before = .working) ∧ Admitted before earlier := by
  cases h with
  | start _ _ | attach _ | delete _ | insert _ => cases hstatus
  | unread _ _ | unrun _ | unfail _ _ => cases hstatus
  | run _ hset | refresh _ hset | complete _ hset =>
    have hsame := hset.symm.trans hstatus
    cases hsame
  | quiet _ _ hcall =>
    rw [(still_of_quiet _ hcall).status] at hstatus
    cases hstatus
  | throw _ _ _ | report _ _ =>
    rw [newStatus_of_error] at hstatus
    cases hstatus
  | fail hbefore hphase _ => exact ⟨_, hphase, hbefore⟩

/-- Behind the throw of an attempt that has stored its actions comes the call that writes
`failed`. -/
theorem Admitted.next_of_throw (created : CreatedRun) {phase : Phase Action}
    {next : Made (@Call.Answer Action) Thrown}
    {call : Call Action} {error : Thrown} {earlier : History Action}
    (h : Admitted phase (next :: ⟨call, .error error⟩ :: earlier)) (hcall : call ≠ .getAgentRun)
    (hthrown : unthrown earlier = true) (hstores : StoresOwn earlier)
    (hok : throws next = false) : newStatus next = some .failed := by
  have hfailing : ∀ {before : Phase Action}, Admitted before (⟨call, .error error⟩ :: earlier) →
      before = .failing := fun {before} hbefore => by
    cases hbefore with
    | unread _ _ => exact absurd rfl hcall
    | unrun hreading => exact absurd hstores (not_storesOwn_of_none (hreading.facts created).1)
    | throw _ _ _ => rfl
    | unfail hhandled hphase =>
      exact absurd hstores ((hhandled.facts created).not_storesOwn created hphase hthrown)
    | report hfailed _ => exact absurd hstores (hfailed.facts created hthrown)
  cases h with
  | start hbefore hne | quiet hbefore hne _ => exact absurd (hfailing hbefore) hne
  | unread _ _ | unrun _ | throw _ _ _ | unfail _ _ | report _ _ => cases hok
  | run hbefore _ | attach hbefore | delete hbefore | insert hbefore | refresh hbefore _
  | complete hbefore _ => cases hfailing hbefore
  | fail _ _ hstatus => exact hstatus

theorem status_eq {made : History Action} {run : AgentRunRecord}
    (h : (storage created made).run = some run) :
    run.status = ((setting made).map Prod.fst).getD created.run.status := by
  have hmap := storage_status created made
  rw [h] at hmap
  exact Option.some.inj hmap

/-- A final status has been set by an attempt. -/
theorem setting_of_final {made : History Action} {run : AgentRunRecord} {status : AgentRunStatus}
    (hrun : (storage created made).run = some run) (hstatus : run.status = status)
    (hqueued : status ≠ .queued) (hrunning : status ≠ .running) :
    ∃ earlier, setting made = some (status, earlier) := by
  have hmade := status_eq created hrun
  cases hsetting : setting made with
  | none =>
    rw [hsetting, hstatus] at hmade
    rcases created.unfinished with hcreated | hcreated
    · exact absurd (hmade.trans hcreated) hqueued
    · exact absurd (hmade.trans hcreated) hrunning
  | some set =>
    rw [hsetting, hstatus] at hmade
    exact ⟨set.2, by rw [hmade]; rfl⟩

theorem throws_of_newStatus {one : Made (@Call.Answer Action) Thrown} {status : AgentRunStatus}
    (h : newStatus one = some status) : throws one = false := by
  obtain ⟨call, outcome⟩ := one
  cases outcome with
  | ok answer => rfl
  | error error =>
    rw [newStatus_of_error] at h
    cases h

/-- In every state of every run of attempts, a completed run is turned into a failed one only by
an attempt that has not stored its actions, exactly when every throw behind the actions keeps
`failed` from being written. -/
theorem lawful_iff :
    (∀ made, Reached world created made → Lawful created made) ↔
      ∀ made, Reached world created made → Spares made := by
  constructor
  · rintro hlawful made hreached later next call error earlier rfl hcall hthrown hstores hcompleted
    by_contra hok
    have hcut : Reached world created (next :: ⟨call, .error error⟩ :: earlier) := hreached.suffix
    obtain ⟨phase, hadmitted⟩ := hcut.admitted
    have hnext := hadmitted.next_of_throw created hcall hthrown hstores
      (Bool.eq_false_of_not_eq_true hok)
    have hset : setting (next :: ⟨call, .error error⟩ :: earlier) =
        some (.failed, ⟨call, .error error⟩ :: earlier) := by
      rw [setting, hnext]
    obtain ⟨run, hrun⟩ := Option.ne_none_iff_exists'.mp
      (storage_run created (next :: ⟨call, .error error⟩ :: earlier))
    have hfailed : run.status = .failed := by
      rw [status_eq created hrun, hset]
      rfl
    obtain ⟨before, hbefore, hnot⟩ := (hlawful _ hcut).failed run hrun hfailed
    rw [hset] at hbefore
    obtain ⟨-, rfl⟩ := Prod.mk.inj (Option.some.inj hbefore)
    have hstill := still_of_error error hcall
    exact hnot ((hstill.completed_iff earlier).mpr hcompleted)
      ((hstill.storesOwn_iff earlier).mpr hstores)
  · intro hspares made hreached
    obtain ⟨phase, hadmitted⟩ := hreached.admitted
    refine ⟨fun run hrun hstatus => ?_, fun run hrun hstatus => ?_⟩
    · obtain ⟨earlier, hset⟩ := setting_of_final created hrun hstatus nofun nofun
      refine ⟨earlier, hset, fun hcompleted hstores => ?_⟩
      obtain ⟨later, one, rfl, hone⟩ := exists_of_setting hset
      obtain ⟨phase, hfails⟩ := hadmitted.suffix
      obtain ⟨before, hphase | hphase, hbefore⟩ := hfails.phase_of_failed hone
      · subst hphase
        obtain ⟨call, error, earlier, rfl, hcall, hthrown⟩ := hbefore.facts created
        have hstill := still_of_error error hcall
        have hthrows := hspares _ hreached later one call error earlier rfl hcall hthrown
          ((hstill.storesOwn_iff earlier).mp hstores) ((hstill.completed_iff earlier).mp hcompleted)
        rw [throws_of_newStatus hone] at hthrows
        cases hthrows
      · subst hphase
        exact not_storesOwn_of_none (hbefore.facts created).1 hstores
    · obtain ⟨earlier, hset⟩ := setting_of_final created hrun hstatus nofun nofun
      exact ⟨earlier, hset, hadmitted.own_of_completed created hset⟩

/-- A fresh pack is served and nothing throws but the audit of the completion. -/
def unaudited : World (@Call.Answer String) Thrown := fun _ call =>
  match call with
  | .recordAuditEvent event =>
      if event.eventType = "agent.run_completed" then .error (some "D1_ERROR") else .ok ()
  | .loadContributorDecisionPackForServing _ => .ok (.ready
      { generatedAt := units "2026-01-01"
        freshness := .fresh
        rebuildEnqueued := false
        repoDecisions := [⟨units "o/r"⟩]
        signalFidelityStatus := .complete
        openPrMonitor := some .null })
  | .buildContributorOpenPrMonitor _ => .ok .null
  | .buildBlockerActions _ _ _ | .buildDecisionActions _ _ | .buildLocalBlockerActions _
  | .buildLocalBranchActions _ => .ok ["choose_next_work"]
  | .attachRecommendationSnapshots actions _ => .ok actions
  | .localPrPacketAction _ => .ok "prepare_pr_packet"
  | .contextSnapshotFromPack pack _ =>
      .ok ⟨"run-1", pack.generatedAt, units "model-1", [], [], []⟩
  | .analyzeLocalBranch _ => .ok
      { generatedAt := units "2026-01-01"
        repoFullName := units "o/r"
        baseFreshness := []
        baseFreshnessWarnings := []
        branchEligibility := .null
        scoreabilityStatus := units "blocked"
        scoringModelSnapshotId := units "model-1"
        dataQuality := none
        dataQualityJson := .null }
  | .summarizeAgentBundleWithAi _ => .ok ⟨.disabled, .null⟩
  | .getAgentRun | .updateAgentRun _ | .deleteAgentActions | .insertAgentAction _
  | .persistAgentContextSnapshot _ | .getAgentRunBundle => .ok ()

def queuedRun : CreatedRun where
  run :=
    { id := "run-1"
      actorLogin := units "mona"
      surface := .api
      status := .queued
      dataQualityStatus := .unknown
      errorSummary := none
      payload := [("kind", .string (units "plan_next_work"))] }
  unfinished := .inl rfl

/-- The one attempt stores its actions and completes the run; the audit of that fails, and the
run ends as failed. -/
theorem completed_run_turns_failed :
    ¬∀ made, Reached unaudited queuedRun made → Lawful queuedRun made := by
  intro h
  have hrun : ∃ run, (storage queuedRun (attempts unaudited queuedRun 1)).run = some run ∧
      run.status = .failed := ⟨_, rfl, rfl⟩
  obtain ⟨run, hrun, hstatus⟩ := hrun
  obtain ⟨earlier, hset, hnot⟩ := (h _ ⟨1, List.suffix_rfl⟩).failed run hrun hstatus
  have hfailed : setting (attempts unaudited queuedRun 1) =
      some (.failed, (attempts unaudited queuedRun 1).drop 3) := rfl
  rw [hfailed] at hset
  obtain ⟨-, rfl⟩ := Prod.mk.inj (Option.some.inj hset)
  refine hnot ⟨_, @List.mem_of_getElem? _ _ 3 _ rfl, rfl⟩ ⟨["choose_next_work"], rfl, rfl⟩

end Runs

end Gittensory.AgentRunExecution
