import Gittensory.AgentRunExecution
import Gittensory.FeedbackMarker

/-!
The answer to a command as a public comment (`buildPublicAgentCommandComment` of
`github/commands.ts`): the header with the command, the card with its texts, each redacted, the
marker for feedback and the footer; the comment is redacted once more as a whole. The lines that
`commandSections` lists for a command and the sources that a run's snapshots and actions cite
come in as they are.
-/
namespace Gittensory.AnswerCard

open FeedbackMarker JsValue PublicComment Redaction TextPattern
open AgentRunExecution (AgentRunStatus)

/-! ## Texts -/

def joinLines : List Text → Text
  | [] => []
  | [line] => line
  | line :: rest => line ++ '\n' :: joinLines rest

/-- `value.replace(/^\*\*/, "").replace(/\*\*$/, "").trim()` -/
def stripEmphasis (value : Text) : Text :=
  let opened := if "**".toList.isPrefixOf value then value.drop 2 else value
  let closed := if "**".toList.isSuffixOf opened then opened.take (opened.length - 2) else opened
  trimText closed

/-- `stripEmphasis(value).replace(/^-\s+/, "").trim()` -/
def stripBulletPrefix (value : Text) : Text :=
  let bare := match stripEmphasis value with
    | '-' :: c :: rest =>
        if spaceSet.accepts c then rest.dropWhile spaceSet.accepts else '-' :: c :: rest
    | other => other
  trimText bare

def controlSet : CharSet where
  negated := false
  ranges := [('\u0000', '\u001F'), ('\u007F', '\u007F')]

/-- `[A-Za-z0-9_-]` -/
def loginSet : CharSet where
  negated := false
  ranges := [('A', 'Z'), ('a', 'z'), ('0', '9'), ('_', '_'), ('-', '-')]

/-- `value.replace(/@(?=[A-Za-z0-9_-])/g, "@\u200B")` -/
def separateMentions : Text → Text
  | '@' :: c :: rest =>
      if loginSet.accepts c then '@' :: '\u200B' :: separateMentions (c :: rest)
      else '@' :: separateMentions (c :: rest)
  | c :: rest => c :: separateMentions rest
  | [] => []

/-- What Markdown gives a meaning. -/
def escapedLetters : Text := "\\\u0060*_\x7b\x7d[]()#+>|".toList

def escapeMarkdown (value : Text) : Text :=
  value.flatMap fun c => if c ∈ escapedLetters then ['\\', c] else [c]

def sanitizePublicInlineDetail (value : Text) : Text :=
  trimText (replaceAll spaces [' '] (escapeMarkdown (separateMentions
    (replaceAll (.plus (.char controlSet)) [' '] value))))

def publicBlockerDetail (value : Text) : Text :=
  sanitizePublicInlineDetail (sanitizePublicComment
    (replaceAll blockerCodes "private readiness context".toList
      (replaceAll (word (.literalNoCase "check_duplicate_risk")) "duplicate-risk review".toList
        (replaceAll likelyDuplicate overlapNote value))))

/-! ## What an answer is made of -/

inductive ActorKind where
  | maintainer
  | author
  deriving DecidableEq, Repr

def ActorKind.name : ActorKind → String
  | .maintainer => "maintainer"
  | .author => "author"

structure AgentAction where
  targetRepoFullName : Option Text
  publicSafeSummary : Text
  deriving DecidableEq, Repr

structure AskContributingSource where
  label : Text
  origin : Text
  generatedAt : Option Text
  freshness : Text
  detail : Text
  deriving DecidableEq, Repr

/-- A run with its actions and the sources that `collectAskContributingSources` lists. -/
structure AgentRunBundle where
  status : AgentRunStatus
  actions : List AgentAction
  contributingSources : List AskContributingSource
  deriving DecidableEq, Repr

def AgentRunBundle.refreshing (bundle : AgentRunBundle) : Bool :=
  bundle.status = .needsSnapshotRefresh

structure PublicAnswerCard where
  title : Text
  summary : Text
  findings : List Text
  evidence : List Text
  nextActions : List Text
  sourceNotes : List Text
  safeDetails : List Text
  deriving DecidableEq, Repr

def isMaintainerQueueDigestCommand : MentionCommand → Bool
  | .queueSummary | .confirmedMiners | .reviewNow | .needsAuthor | .duplicateClusters
  | .burdenForecast | .intakeHealth | .outcomePatterns | .noiseReport => true
  | _ => false

/-- `COMMAND_TITLES` -/
def commandTitle : MentionCommand → String
  | .help => "Gittensory command help"
  | .ask => "Gittensory contribution context Q&A"
  | .preflight => "Gittensory preflight"
  | .blockers => "Gittensory readiness blockers"
  | .duplicateCheck => "Gittensory duplicate & WIP check"
  | .minerContext => "Gittensory miner context"
  | .nextAction => "Gittensory next step"
  | .reviewability => "Gittensory PR readiness"
  | .repoFit => "Gittensory repository fit"
  | .packet => "Gittensory public packet"
  | .queueSummary => "Gittensory maintainer queue summary"
  | .confirmedMiners => "Gittensory confirmed-miner PRs"
  | .reviewNow => "Gittensory review-now queue"
  | .needsAuthor => "Gittensory needs-author queue"
  | .duplicateClusters => "Gittensory duplicate clusters"
  | .burdenForecast => "Gittensory burden forecast"
  | .intakeHealth => "Gittensory intake health"
  | .outcomePatterns => "Gittensory outcome patterns"
  | .noiseReport => "Gittensory noise report"

def commandSummary : MentionCommand → String
  | .help => "Available public commands and their safest use on a PR thread."
  | .ask => "Contribution-context Q&A from connected cached sources, scoped to contribution quality and repository policy."
  | .minerContext => "Public miner context from official Gittensor data when available."
  | .preflight => "Public PR hygiene and validation readiness for this thread."
  | .blockers => "Public readiness blockers that are safe to show in a PR comment."
  | .duplicateCheck => "Public duplicate, WIP, and queue-overlap caution."
  | .nextAction => "One public-safe next step for the contributor or maintainer."
  | .reviewability => "Maintainer-friendly PR readiness without private review internals."
  | .repoFit => "Public-safe repository fit signals from cached context."
  | .packet => "Public-safe PR packet guidance for the current thread."
  | .queueSummary => "Maintainer-only queue-level digest from cached GitHub metadata."
  | .confirmedMiners => "Maintainer-only confirmed-miner PR list from cached queue metadata."
  | .reviewNow => "Maintainer-only review-now queue candidates from cached PR state."
  | .needsAuthor => "Maintainer-only author-cleanup queue candidates from cached PR state."
  | .duplicateClusters => "Maintainer-only duplicate and WIP cluster summary from cached metadata."
  | .burdenForecast => "Maintainer-only review-load and queue-growth forecast from cached metadata."
  | .intakeHealth => "Maintainer-only contributor-intake health summary from cached queue and config signals."
  | .outcomePatterns => "Maintainer-only summary of what this repo merges vs closes from cached PR outcomes."
  | .noiseReport => "Maintainer-only queue-noise summary highlighting what to triage first."

/-- `status.replace(/_/g, " ")` -/
def publicStatus (status : AgentRunStatus) : Text :=
  status.name.toList.map fun c => if c = '_' then ' ' else c

section Parts

variable (command : MentionCommand) (bundle : Option AgentRunBundle) (officialMiner : Bool)

def commandEvidence (actorKind : ActorKind) : List Text :=
  ["Invocation authorized for ".toList ++ actorKind.name.toList ++ " command use.".toList,
    "Output is sanitized before posting to GitHub.".toList] ++
  (if command = .ask then
    ["Answer scope is limited to contribution quality and repository policy.".toList,
      "Sources are cited with freshness and public-boundary redaction.".toList] else []) ++
  (if command = .minerContext then
    [if officialMiner then "Official Gittensor miner context was available.".toList
      else "Official Gittensor miner context was unavailable.".toList] else []) ++
  (if isMaintainerQueueDigestCommand command then
    ["Maintainer-only queue digest command was authorized from GitHub author association.".toList,
      "Digest uses cached public GitHub queue metadata plus official-miner cache.".toList]
    else []) ++
  (bundle.toList.map fun bundle =>
    "Agent response status: ".toList ++ publicStatus bundle.status ++ ".".toList)

def commandNextActions : List Text :=
  if bundle.any AgentRunBundle.refreshing then
    [if command = .ask then
      "Retry @gittensory ask after the contribution context snapshot refresh completes.".toList
      else "Retry after the contributor decision snapshot refresh completes.".toList]
  else
    let action : String := match command with
      | .help => "Comment one listed command on the PR thread when more context is needed."
      | .ask => "Ask one concrete contribution-quality question per command for clearer cited guidance."
      | .minerContext => "Use MCP or the authenticated control panel for private contributor planning."
      | .preflight => "Run local validation and rerun before asking for maintainer review."
      | .blockers => "Resolve visible blockers before requesting detailed review."
      | .duplicateCheck => "Compare linked issues, open PRs, and recent merges before expanding the branch."
      | .nextAction => "Follow the recommended public-safe action, then rerun if PR state changes."
      | .reviewability => "Use this as public readiness guidance, then rerun after validation or maintainer state changes."
      | .repoFit => "Use MCP or the authenticated control panel for deeper private repository-fit planning."
      | .packet => "Use this as public PR-thread guidance only; keep private scoring and planning details out of comments."
      | .queueSummary => "Use the authenticated maintainer dashboard for private evidence and full queue detail."
      | .confirmedMiners => "Review confirmed-miner PRs alongside linked issues before prioritizing maintainer attention."
      | .reviewNow => "Use this list to prioritize detailed review, then rerun after checks or queue state changes."
      | .needsAuthor => "Ask authors to clear visible cleanup items before detailed review."
      | .duplicateClusters => "Triage duplicate or WIP overlap before requesting deeper review."
      | .burdenForecast => "Use this forecast to plan review capacity; rerun after the queue changes."
      | .intakeHealth => "Address the lowest intake-health signals before inviting more contributions."
      | .outcomePatterns => "Steer contributors toward the patterns this repo actually merges."
      | .noiseReport => "Clear the listed noise sources before deeper review to reduce queue drag."
    [action.toList]

def askCommandSourceSummary : Text :=
  match bundle.elim [] AgentRunBundle.contributingSources with
  | [] => "cached Gittensory agent context (no connected-source metadata in this run)".toList
  | sources => List.intercalate "; ".toList ((sources.take 4).map AskContributingSource.label)

def publicFreshness : Text :=
  if command = .help then "shipped command list".toList
  else if isMaintainerQueueDigestCommand command then
    "cached queue digest generated at invocation time".toList
  else match bundle with
    | none => "no agent run was required or available".toList
    | some bundle =>
        if bundle.refreshing then
          if command = .ask then "contribution context snapshot refresh in progress".toList
          else "snapshot refresh in progress".toList
        else "agent run status ".toList ++ publicStatus bundle.status

def commandSourceNotes : List Text :=
  let source :=
    if command = .help then "static command catalog".toList
    else if command = .ask then askCommandSourceSummary bundle
    else if command = .minerContext then
      if officialMiner then "official Gittensor miner API".toList
      else "official miner check fallback".toList
    else if isMaintainerQueueDigestCommand command then
      "cached GitHub queue metadata and official-miner cache".toList
    else "cached Gittensory agent context".toList
  ["Source: ".toList ++ source ++ ".".toList,
    "Freshness: ".toList ++ publicFreshness command bundle ++ ".".toList,
    "Boundary: public GitHub comment; non-public scoring and planning context is omitted.".toList]

end Parts

/-! ## The cards -/

/-- `value || fallback` after a trim. -/
def trimmedOr (value : Option Text) (fallback : String) : Text :=
  match value.map trimText with
  | none | some [] => fallback.toList
  | some text => text

def asOf (generatedAt : Option Text) : Text :=
  match generatedAt with
  | none | some [] => []
  | some text => " as of ".toList ++ text

def formatAskCitation (source : AskContributingSource) : Text :=
  let detail := if source.detail = [] then [] else
    " — ".toList ++ publicBlockerDetail source.detail
  "- Source: ".toList ++ source.label ++ "; freshness: ".toList ++ source.freshness ++
    asOf source.generatedAt ++ detail ++ ".".toList

def askSourceDisplayPriority : List String :=
  ["contributor_decision_pack", "open_pr_monitor", "repo_decision", "github_cache",
    "official_gittensor", "repo_focus_manifest", "upstream_ruleset", "issue_quality", "computed",
    "mirror", "metadata_only", "cached_signals"]

/-- Its place in the list, or the length of the list. -/
def sourceRank (origin : Text) : ℕ :=
  askSourceDisplayPriority.findIdx fun name => name.toList == origin

section Comment

-- `left.localeCompare(right)`, which the language leaves to the locale.
variable (localeCompare : Text → Text → Ordering)

def prioritizeAskSources (sources : List AskContributingSource) : List AskContributingSource :=
  sources.mergeSort fun left right =>
    ((compare (sourceRank left.origin) (sourceRank right.origin)).then
      (localeCompare left.label right.label)).isLE

/-- `action.targetRepoFullName ? "<repo>: <summary>" : <summary>` -/
def actionLine (action : AgentAction) : Text :=
  match action.targetRepoFullName with
  | none | some [] => action.publicSafeSummary
  | some repo => repo ++ ": ".toList ++ action.publicSafeSummary

/-- `list.length > 0 ? list : [fallback]` -/
def orFallback (list : List Text) (fallback : String) : List Text :=
  if list = [] then [fallback.toList] else list

def buildAskPublicAnswerCard (bundle : Option AgentRunBundle) (officialMiner : Bool)
    (actorKind : ActorKind) (question : Option Text) : PublicAnswerCard :=
  let title := "Contribution context Q&A".toList
  let evidence := commandEvidence .ask bundle officialMiner actorKind
  if bundle.any AgentRunBundle.refreshing then
    { title
      summary := (commandSummary .ask).toList
      findings := [stripEmphasis "Contribution context snapshot refresh".toList,
        "Gittensory is refreshing connected contribution-context snapshots (cached issues, PRs, signals, and decision packs). Try @gittensory ask again shortly.".toList]
      evidence
      nextActions := commandNextActions .ask bundle
      sourceNotes := commandSourceNotes .ask bundle officialMiner
      safeDetails := [] }
  else
    let contributingSources :=
      prioritizeAskSources localeCompare (bundle.elim [] AgentRunBundle.contributingSources)
    let citationLines :=
      (contributingSources.take 8).map fun source => stripBulletPrefix (formatAskCitation source)
    let answerLines :=
      ((((bundle.elim [] AgentRunBundle.actions).take 3).map actionLine).filter fun line =>
        trimText line ≠ []).map publicBlockerDetail
    let questionText := sanitizePublicComment (trimmedOr question
      "No specific question was provided; this response summarizes the closest cached contribution context.")
    let sourceEvidence := (contributingSources.take 3).map fun source =>
      "Connected source ".toList ++ source.label ++ ": freshness ".toList ++ source.freshness ++
        asOf source.generatedAt ++ ".".toList
    { title
      summary := (commandSummary .ask).toList
      findings := ("Question: ".toList ++ questionText) ::
        (orFallback answerLines "No matching contribution-quality context is available in the current cached sources." ++
        orFallback citationLines "No concrete cached source reference is available for this response.")
      evidence := evidence ++ sourceEvidence
      nextActions := commandNextActions .ask bundle
      sourceNotes := commandSourceNotes .ask bundle officialMiner
      safeDetails := citationLines.drop 4 ++
        ["README/docs context is included only when connected repo sources and app permissions allow it.".toList,
          "Source contents are not sent to optional AI unless explicitly enabled.".toList] }

def buildPublicAnswerCard (command : MentionCommand) (sections : List Text)
    (bundle : Option AgentRunBundle) (officialMiner : Bool) (actorKind : ActorKind)
    (question : Option Text) : PublicAnswerCard :=
  if command = .ask then
    buildAskPublicAnswerCard localeCompare bundle officialMiner actorKind question
  else
    let safeContent := (sections.tail.map stripBulletPrefix).filter (· ≠ [])
    { title := stripEmphasis (sections.head?.getD "Answer".toList)
      summary := (commandSummary command).toList
      findings := orFallback (safeContent.take 5)
        "No public-safe findings are available from the current cached context."
      evidence := commandEvidence command bundle officialMiner actorKind
      nextActions := commandNextActions command bundle
      sourceNotes := commandSourceNotes command bundle officialMiner
      safeDetails := safeContent.drop 5 }

/-! ## The comment -/

/-- A line of a list, redacted. -/
def bullet (line : Text) : Text := "- ".toList ++ sanitizePublicComment line

def renderPublicAnswerCard (card : PublicAnswerCard) : List Text :=
  ["**".toList ++ sanitizePublicComment card.title ++ "**".toList, [], bullet card.summary, [],
    "**Findings**".toList, []] ++ card.findings.map bullet ++
  [[], "**Evidence**".toList, []] ++ card.evidence.map bullet ++
  [[], "**Next actions**".toList, []] ++ card.nextActions.map bullet ++
  [[], "<details>".toList, "<summary>Source and freshness</summary>".toList, []] ++
  card.sourceNotes.map bullet ++ [[], "</details>".toList] ++
  if card.safeDetails = [] then [] else
    [[], "<details>".toList, "<summary>Additional safe details</summary>".toList, []] ++
      card.safeDetails.map bullet ++ [[], "</details>".toList]

def feedbackPromptSections (answerId : Option Text) : List Text :=
  match answerId with
  | none | some [] => []
  | some answerId =>
      [[], buildAgentCommandFeedbackMarker answerId, "**Feedback**".toList, [],
        "- Use a thumbs-up or thumbs-down reaction to mark whether this answer helped. Feedback is aggregate-only and never changes deterministic results.".toList]

def gittensoryFooter : Text :=
  joinLines ["💰 **Earn for open-source contributions like this.** [Gittensor](https://gittensor.io) lets GitHub contributors earn for the work they already do — [register to start earning →](https://gittensor.io).".toList, [],
    "Checked by [Gittensory](https://gittensory.aethereal.dev), a quiet PR intelligence layer for OSS maintainers.".toList]

/-- Letters, digits, a dash and the three of "_./". -/
def repoNameSet : CharSet where
  negated := false
  ranges := [('A', 'Z'), ('a', 'z'), ('0', '9'), ('_', '_'), ('.', '/'), ('-', '-')]

/-- "owner/name", in the letters that GitHub allows. -/
structure RepoFullName where
  text : Text
  letters : ∀ c ∈ text, repoNameSet.accepts c = true

/-- What a comment is built for. The sections are those that `commandSections` lists. -/
structure CommandRequest where
  command : MentionCommand
  question : Option Text
  repo : Option RepoFullName
  pullRequestRepo : Option RepoFullName
  issueNumber : ℕ
  actorKind : ActorKind
  officialMiner : Bool
  bundle : Option AgentRunBundle
  sections : List Text

namespace CommandRequest

variable (request : CommandRequest)

def repoFullName : Text :=
  ((request.repo <|> request.pullRequestRepo).map RepoFullName.text).getD "this repository".toList

def card : PublicAnswerCard :=
  buildPublicAnswerCard localeCompare request.command request.sections request.bundle
    request.officialMiner request.actorKind
    (if request.command = .ask then request.question else none)

def commandText : Text := "@gittensory ".toList ++ request.command.name.toList

/-- The lines in front of the card. -/
def header : List Text :=
  ["<!-- gittensory-pr-panel:v1 -->".toList, [], "> [!NOTE]".toList,
    "> **".toList ++ (commandTitle request.command).toList ++ "**".toList,
    "> Gittensory updated this command response in place from cached public-safe context.".toList,
    [], "| Signal | State |".toList, "| --- | --- |".toList,
    "| Command | \u0060".toList ++ request.commandText ++ "\u0060 |".toList,
    "| Scope | ".toList ++ request.repoFullName ++ "#".toList ++
      (toString request.issueNumber).toList ++ " |".toList,
    "| Actor | ".toList ++ request.actorKind.name.toList ++ " |".toList, [],
    "Command: \u0060".toList ++ request.commandText ++ "\u0060".toList, [],
    "<details>".toList, "<summary>Command result</summary>".toList, []]

end CommandRequest

def buildPublicAgentCommandComment (request : CommandRequest) (answerId : Option Text) : Text :=
  sanitizePublicComment (joinLines (request.header ++
    renderPublicAnswerCard (request.card localeCompare) ++ [[], "</details>".toList] ++
    feedbackPromptSections answerId ++ [[], "---".toList, gittensoryFooter]))

end Comment

end Gittensory.AnswerCard
