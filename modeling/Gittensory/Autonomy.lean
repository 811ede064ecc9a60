import Mathlib.Data.Int.Notation
import Mathlib.Data.List.Basic

/-!
The graduated autonomy dial (`settings/autonomy.ts`) and the action modes
(`settings/agent-execution.ts`). Every write action of the agent layer reads
the level of its own action class first; an unset class is only observed.
-/
namespace Gittensory.Autonomy

inductive AgentActionClass where
  | review
  | requestChanges
  | approve
  | merge
  | close
  | label
  deriving DecidableEq, Repr

inductive AutonomyLevel where
  | observe
  | suggest
  | propose
  | autoWithApproval
  | auto
  deriving DecidableEq, Repr

/-- `Partial<Record<AgentActionClass, AutonomyLevel>>`. -/
abbrev AutonomyPolicy := AgentActionClass → Option AutonomyLevel

def agentActionClasses : List AgentActionClass :=
  [.review, .requestChanges, .approve, .merge, .close, .label]

def defaultAutonomyLevel : AutonomyLevel := .observe

def resolveAutonomy (autonomy : Option AutonomyPolicy) (actionClass : AgentActionClass) :
    AutonomyLevel :=
  (autonomy.bind (fun policy => policy actionClass)).getD defaultAutonomyLevel

def isActingAutonomyLevel (level : AutonomyLevel) : Bool :=
  level = .auto ∨ level = .autoWithApproval

def isAgentConfigured (autonomy : Option AutonomyPolicy) : Bool :=
  agentActionClasses.any (fun actionClass =>
    isActingAutonomyLevel (resolveAutonomy autonomy actionClass))

def autonomyRequiresApproval (level : AutonomyLevel) : Bool := level = .autoWithApproval

inductive AutoMergeMethod where
  | merge
  | squash
  | rebase
  deriving DecidableEq, Repr

structure AutoMaintainPolicy where
  requireApprovals : ℤ
  mergeMethod : AutoMergeMethod
  deriving DecidableEq, Repr

def defaultAutoMaintainPolicy : AutoMaintainPolicy where
  requireApprovals := 1
  mergeMethod := .squash

/-- A repository that never touched the dial has opted into nothing. -/
theorem not_acting_of_unset (actionClass : AgentActionClass) :
    isActingAutonomyLevel (resolveAutonomy none actionClass) = false := rfl

inductive AgentActionMode where
  | paused
  | dryRun
  | live
  deriving DecidableEq, Repr

/-- Precedence, safest first: a global or per-repository pause, then dry run. -/
def resolveAgentActionMode (globalPaused : Bool) (agentPaused agentDryRun : Option Bool) :
    AgentActionMode :=
  if globalPaused = true ∨ agentPaused = some true then .paused
  else if agentDryRun = some true then .dryRun
  else .live

def prWriteActionClasses : List AgentActionClass :=
  [.review, .requestChanges, .approve, .merge, .close]

def agentRequiresPrWrite (autonomy : Option AutonomyPolicy) : Bool :=
  prWriteActionClasses.any (fun actionClass =>
    isActingAutonomyLevel (resolveAutonomy autonomy actionClass))

inductive AgentPermissionReadiness where
  | notRequired
  | ready
  | reconsentRequired
  deriving DecidableEq, Repr

/-- `pullRequests` is the `pull_requests` entry of the installation permissions. -/
def resolveAgentPermissionReadiness (autonomy : Option AutonomyPolicy)
    (pullRequests : Option String) : AgentPermissionReadiness :=
  if agentRequiresPrWrite autonomy = false then .notRequired
  else if pullRequests = some "write" then .ready
  else .reconsentRequired

end Gittensory.Autonomy
