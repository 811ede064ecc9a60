import Gittensory.DuplicateSignals
import Gittensory.MarkupLines
import Gittensory.RadixNumerals

/-!
The unified review comment (`review/unified-comment.ts`, `renderUnifiedReviewComment`): texts of
reviewers, checks and the host are put together to one quoted block. Every angle bracket of a
text is escaped, so the tags of the comment are those of its renderer. The quoting knows line
feeds only: a line that a text ends with a carriage return alone leaves the block.
-/
namespace Gittensory.UnifiedComment

open CodeUnits MarkupLines RadixNumerals
open JsValue (JsNumber)

/-- The code units of a text, with two for each letter beyond the basic plane. -/
def utf16 (text : String) : Units :=
  text.toList.flatMap fun letter =>
    if letter.toNat < 0x10000 then [letter.toNat]
    else [0xD800 + (letter.toNat - 0x10000) / 0x400, 0xDC00 + (letter.toNat - 0x10000) % 0x400]

/-- Digits, signs, the point and letters. -/
def isNumberUnit (unit : ℕ) : Bool :=
  (48 ≤ unit && unit ≤ 57) || (65 ≤ unit && unit ≤ 90) || (97 ≤ unit && unit ≤ 122) ||
    unit = 43 || unit = 45 || unit = 46

/-- `String(number)` and `toLowerCase`. -/
structure Platform where
  numberText : JsNumber → Units
  toLowerCase : Units → Units
  letters : ∀ value, ∀ unit ∈ numberText value, isNumberUnit unit = true

/-! ## What the comment is made from -/

section Input

inductive CommentStatus where
  | ready
  | advisory
  | held
  | blocked
  deriving DecidableEq

inductive ReviewRecommendation where
  | merge
  | request_changes
  | close
  | manual_review
  deriving DecidableEq

inductive Verdict where
  | merge
  | close
  | manual
  | comment
  | ignore
  deriving DecidableEq

inductive CiState where
  | passed
  | failed
  | unverified
  deriving DecidableEq

structure CheckFailureDetail where
  name : Units
  summary : Option Units

structure MergeReadiness where
  mergeStateLabel : Option Units
  ciState : CiState
  failingChecks : Option (List Units)
  failingDetails : Option (List CheckFailureDetail)

structure UnifiedReviewInput where
  changedFiles : JsNumber
  reviewerCount : JsNumber
  recommendations : List ReviewRecommendation
  summary : Units
  blockers : Option (List Units)
  nits : Option (List Units)
  readiness : Option MergeReadiness
  decision : Option Verdict
  merged : Bool
  verdictReason : Option Units
  consensusBlocker : Option Bool
  failedCount : Option JsNumber

inductive SignalState where
  | ok
  | warn
  | fail
  deriving DecidableEq

structure UnifiedSignalRow where
  label : Units
  state : SignalState
  result : Option Units
  evidence : Option Units

structure UnifiedCollapsible where
  title : Units
  body : Units
  rawHtml : Bool

structure UnifiedCommentContext where
  brand : Option Units
  readinessScore : Option JsNumber
  signals : Option (List UnifiedSignalRow)
  extraCollapsibles : Option (List UnifiedCollapsible)
  reRunLabel : Option Units
  footerMarkdown : Option Units
  statusOverride : Option CommentStatus

end Input

/-! ## The renderer -/

section Renderer

def STATUS_ALERT : CommentStatus → Units
  | .ready => units "TIP"
  | .advisory => units "NOTE"
  | .held => units "WARNING"
  | .blocked => units "CAUTION"

def STATUS_SQUARE : CommentStatus → Units
  | .ready => utf16 "🟩"
  | .advisory => utf16 "🟦"
  | .held => utf16 "🟨"
  | .blocked => utf16 "🟥"

def STATUS_ICON : CommentStatus → Units
  | .ready => utf16 "✅"
  | .advisory => utf16 "💡"
  | .held => utf16 "⏸️"
  | .blocked => utf16 "🛑"

def SIGNAL_ICON : SignalState → Units
  | .ok => utf16 "✅"
  | .warn => utf16 "⚠️"
  | .fail => utf16 "❌"

/-- A comparison with zero; one with `NaN` is false. -/
def positive : JsNumber → Bool
  | .finite value => 0 < value
  | .infinity => true
  | _ => false

/-- The status before the checks of the pull request are looked at. -/
def reviewedStatus (input : UnifiedReviewInput) : CommentStatus :=
  match input.decision with
  | some .merge => .ready
  | some .close => .blocked
  | some .manual => .held
  | some .comment | some .ignore => .advisory
  | none =>
      let hasConsensusBlocker :=
        input.consensusBlocker.getD (0 < (input.blockers.getD []).length)
      if input.recommendations.contains .close || hasConsensusBlocker then .blocked
      else if input.recommendations.length = 0 then .advisory
      else if positive (input.failedCount.getD (.finite 0)) ||
          input.recommendations.any (· ≠ .merge) then .held
      else .ready

def deriveUnifiedStatus (input : UnifiedReviewInput) (ctx : UnifiedCommentContext) :
    CommentStatus :=
  match ctx.statusOverride with
  | some status => status
  | none =>
      match reviewedStatus input, input.readiness with
      | .ready, some readiness =>
          match readiness.ciState with
          | .passed => .ready
          | .failed => .blocked
          | .unverified => .held
      | status, _ => status

def verb (status : CommentStatus) (input : UnifiedReviewInput) : Units :=
  match status with
  | .ready => units "safe to merge"
  | .advisory => units "advisory only"
  | .held => units "held for maintainer review"
  | .blocked => if input.decision = some .close then units "closed" else units "blocked"

/-- `text.replace(/[<>]/g, …)` -/
def escapePublicHtmlAngles (text : Units) : Units :=
  text.flatMap fun unit =>
    if unit = lessThan then units "&lt;" else if unit = greaterThan then units "&gt;" else [unit]

def roundNumber : JsNumber → JsNumber
  | .finite value => .finite ⌊value + 1 / 2⌋
  | value => value

variable (platform : Platform)

def plural (n : JsNumber) (one : Units) : Units :=
  platform.numberText n ++ units " " ++ one ++ (if n = .finite 1 then [] else units "s")

def count (n : ℕ) : JsNumber := .finite n

/-- A text in backticks. -/
def chip (text : Units) : Units := 96 :: text ++ [96]

def statusChips (input : UnifiedReviewInput) (ctx : UnifiedCommentContext) : Units :=
  let blockerCount := (input.blockers.getD []).length
  let files := [chip (plural platform input.changedFiles (units "file"))]
  let reviewers :=
    if positive input.reviewerCount then
      [chip (platform.numberText input.reviewerCount ++ units " AI reviewers")]
    else []
  let blockers :=
    [chip (if blockerCount ≠ 0 then plural platform (count blockerCount) (units "blocker")
      else units "no blockers")]
  let score := match ctx.readinessScore with
    | some score =>
        [chip (units "readiness " ++ platform.numberText (roundNumber score) ++ units "/100")]
    | none => []
  let checks := match input.readiness with
    | some readiness =>
        let ci := match readiness.ciState with
          | .passed => units "CI green"
          | .failed => units "CI failing"
          | .unverified => units "CI pending"
        let label := readiness.mergeStateLabel.getD []
        [chip ci] ++ (if label ≠ [] then [chip (escapePublicHtmlAngles label)] else [])
    | none => []
  (utf16 " · ").intercalate (files ++ reviewers ++ blockers ++ score ++ checks)

def verdictLine (status : CommentStatus) (input : UnifiedReviewInput) : Units :=
  let icon := STATUS_ICON status
  let reasonText := input.verdictReason.getD []
  let reason := if reasonText ≠ [] then utf16 " — " ++ escapePublicHtmlAngles reasonText else []
  let reasonOr (fallback : Units) := if reasonText ≠ [] then reason else fallback
  match status with
  | .ready =>
      if input.merged then
        units "**" ++ icon ++ units " Approved & auto-merged**" ++
          reasonOr (utf16 " — all checks passed")
      else units "**" ++ icon ++ units " Approved**" ++ reasonOr (utf16 " — safe to merge")
  | .advisory =>
      units "**" ++ icon ++ units " Advisory only**" ++ reasonOr (utf16 " — no action taken")
  | .held => units "**" ++ icon ++ units " Held for maintainer review**" ++ reason
  | .blocked =>
      units "**" ++ icon ++ units " " ++
        (if input.decision = some .close then units "Closed" else units "Blocked") ++
        units "**" ++ reason

/-- The loop of `dedupeLines`: `room` lines may still be kept, and a line is not kept twice. -/
def dedupeFrom (seen : List Units) : ℕ → List Units → List Units
  | 0, _ => []
  | _ + 1, [] => []
  | room + 1, raw :: rest =>
      let line := trim raw
      let key := platform.toLowerCase line
      if line = [] ∨ key ∈ seen then dedupeFrom seen (room + 1) rest
      else line :: dedupeFrom (key :: seen) room rest

def dedupeLines (items : List Units) : List Units := dedupeFrom platform [] 12 items

/-- `- ` before a line. -/
def bullet (line : Units) : Units := units "- " ++ line

def bullets (items : List Units) : Units :=
  [newline].intercalate
    ((dedupeLines platform items).map fun item => bullet (escapePublicHtmlAngles item))

def failingLine (detail : CheckFailureDetail) : Units :=
  let name := escapePublicHtmlAngles (trim detail.name)
  if name = [] then []
  else
    let summary := trim (detail.summary.getD [])
    let reason := if summary ≠ [] then utf16 " — " ++ escapePublicHtmlAngles summary else []
    bullet (name ++ reason)

def failingChecksBlock (readiness : Option MergeReadiness) : Units :=
  match readiness with
  | none => []
  | some readiness =>
      if readiness.ciState ≠ .failed then []
      else
        let lines := ((readiness.failingDetails.getD []).map failingLine).filter (· ≠ [])
        if lines ≠ [] then [newline].intercalate lines
        else
          let names := ((readiness.failingChecks.getD []).map trim).filter (· ≠ [])
          if names = [] then []
          else [newline].intercalate
            (names.eraseDups.map fun name => bullet (escapePublicHtmlAngles name))

def signalLine (first : Bool) (row : UnifiedSignalRow) : Units :=
  let labelText := escapePublicHtmlAngles row.label
  let label := if first then units "**" ++ labelText ++ units "**" else labelText
  let resultText :=
    if row.result.getD [] ≠ [] then units " " ++ escapePublicHtmlAngles (row.result.getD [])
    else []
  let result := SIGNAL_ICON row.state ++ resultText
  units "| " ++ label ++ units " | " ++ result ++ units " | " ++
    escapePublicHtmlAngles (row.evidence.getD []) ++ units " |"

def codeRow (input : UnifiedReviewInput) : UnifiedSignalRow :=
  let blockerCount := (input.blockers.getD []).length
  { label := units "Code review"
    state := if blockerCount ≠ 0 then .fail else .ok
    result := some (if blockerCount ≠ 0 then plural platform (count blockerCount) (units "blocker")
      else units "No blockers")
    evidence := some (if positive input.reviewerCount then
        platform.numberText input.reviewerCount ++ units " reviewers, synthesized"
      else units "synthesized") }

def signalTable (input : UnifiedReviewInput) (ctx : UnifiedCommentContext) : Units :=
  [newline].intercalate (
    units "| Signal | Result | Evidence |" :: units "|---|---|---|" ::
      signalLine true (codeRow platform input) :: (ctx.signals.getD []).map (signalLine false))

def details (title body sub : Units) : Units :=
  let safeSub := if sub ≠ [] then utf16 " — " ++ escapePublicHtmlAngles sub else []
  units "<details><summary><b>" ++ escapePublicHtmlAngles title ++ units "</b>" ++ safeSub ++
    units "</summary>\n\n" ++ escapePublicHtmlAngles body ++ units "\n</details>"

def detailsRaw (title body : Units) : Units :=
  units "<details><summary><b>" ++ escapePublicHtmlAngles title ++ units "</b></summary>\n\n" ++
    body ++ units "\n</details>"

/-- Every row behind the sign of a quote, under the title of an alert. -/
def asAlert (alert inner : Units) : Units :=
  let quoted := (inner.splitOn newline).map fun row =>
    if row.length ≠ 0 then units "> " ++ row else units ">"
  units "> [!" ++ alert ++ units "]\n" ++ [newline].intercalate quoted

def shownCollapsibles (ctx : UnifiedCommentContext) : List UnifiedCollapsible :=
  (ctx.extraCollapsibles.getD []).filter fun part => trim part.body ≠ []

def collapsible (part : UnifiedCollapsible) : Units :=
  if part.rawHtml then detailsRaw part.title (trim part.body)
  else details part.title (trim part.body) []

def legend : Units :=
  units "<sub>" ++ STATUS_SQUARE .ready ++ utf16 " Safe / merged · " ++ STATUS_SQUARE .advisory ++
    utf16 " Advisory · " ++ STATUS_SQUARE .held ++ utf16 " Held for review · " ++
    STATUS_SQUARE .blocked ++ utf16 " Blocked / closed</sub>"

def summaryBlock (input : UnifiedReviewInput) : List Units :=
  if trim input.summary ≠ [] then
    [units "**Review summary**\n" ++ escapePublicHtmlAngles (trim input.summary)]
  else []

def blockerBlock (status : CommentStatus) (input : UnifiedReviewInput) : List Units :=
  let blockers := dedupeLines platform (input.blockers.getD [])
  let heading := if status = .blocked then utf16 "Why this is blocked"
    else utf16 "Concerns raised — review before merging"
  if blockers ≠ [] then [units "**" ++ heading ++ units "**\n" ++ bullets platform blockers] else []

def failingBlock (input : UnifiedReviewInput) : List Units :=
  let failingChecks := failingChecksBlock input.readiness
  if failingChecks ≠ [] then [units "**CI checks failing**\n" ++ failingChecks] else []

def nitBlock (input : UnifiedReviewInput) : List Units :=
  let nits := dedupeLines platform (input.nits.getD [])
  if nits ≠ [] then
    [details (units "Nits") (bullets platform nits)
      (platform.numberText (count nits.length) ++ units " non-blocking")]
  else []

def footerBlock (ctx : UnifiedCommentContext) : List Units :=
  let footer := trim (ctx.footerMarkdown.getD [])
  if footer ≠ [] then [units "---\n" ++ footer] else []

def headline (status : CommentStatus) (input : UnifiedReviewInput) (ctx : UnifiedCommentContext) :
    Units :=
  units "### " ++ STATUS_ICON status ++ units " " ++
    escapePublicHtmlAngles (ctx.brand.getD (units "Gittensory review")) ++ utf16 " — " ++
    verb status input ++
    (if status = .ready ∧ input.merged then utf16 " · auto-merged" else [])

def blocks (input : UnifiedReviewInput) (ctx : UnifiedCommentContext) : List Units :=
  let status := deriveUnifiedStatus input ctx
  [(List.replicate 12 (STATUS_SQUARE status)).flatten, headline status input ctx,
      statusChips platform input ctx, verdictLine status input] ++
    summaryBlock input ++ blockerBlock platform status input ++ failingBlock input ++
    [signalTable platform input ctx] ++ nitBlock platform input ++
    (shownCollapsibles ctx).map collapsible ++
    [legend] ++ footerBlock ctx

def renderUnifiedReviewComment (input : UnifiedReviewInput) (ctx : UnifiedCommentContext) :
    Units :=
  let alerted := asAlert (STATUS_ALERT (deriveUnifiedStatus input ctx))
    ([newline, newline].intercalate (blocks platform input ctx))
  if ctx.reRunLabel.getD [] ≠ [] then alerted ++ units "\n\n- [ ] " ++ ctx.reRunLabel.getD []
  else alerted

end Renderer

/-! ## The tags of the renderer -/

section OwnTags

inductive OwnTag where
  | openDetails
  | closeDetails
  | openSummary
  | closeSummary
  | openBold
  | closeBold
  | openSub
  | closeSub
  deriving DecidableEq

def ownTexts : TagTexts OwnTag where
  text
    | .openDetails => units "<details>"
    | .closeDetails => units "</details>"
    | .openSummary => units "<summary>"
    | .closeSummary => units "</summary>"
    | .openBold => units "<b>"
    | .closeBold => units "</b>"
    | .openSub => units "<sub>"
    | .closeSub => units "</sub>"
  head tag := by cases tag <;> decide
  breakless tag := by cases tag <;> decide

/-- The tags of one collapsed part. -/
def detailsTags : List OwnTag :=
  [.openDetails, .openSummary, .openBold, .closeBold, .closeSummary, .closeDetails]

/-- The parts that are collapsed: the nits, if there are any, and those of the host with a body. -/
def collapsedParts (platform : Platform) (input : UnifiedReviewInput)
    (ctx : UnifiedCommentContext) : ℕ :=
  (if dedupeLines platform (input.nits.getD []) ≠ [] then 1 else 0) + (shownCollapsibles ctx).length

def ownTags (platform : Platform) (input : UnifiedReviewInput) (ctx : UnifiedCommentContext) :
    List OwnTag :=
  (List.replicate (collapsedParts platform input ctx) detailsTags).flatten ++
    [.openSub, .closeSub]

/-- Nothing of the host is trusted. -/
structure Untrusted (ctx : UnifiedCommentContext) : Prop where
  collapsibles : ∀ part ∈ ctx.extraCollapsibles.getD [], part.rawHtml = false
  footer : ctx.footerMarkdown = none
  reRun : ctx.reRunLabel = none

/-- Every line of the comment is quoted, and its angle brackets are the signs of the quote and
those of the renderer's own tags, in their order. -/
structure Contained (platform : Platform) (input : UnifiedReviewInput)
    (ctx : UnifiedCommentContext) : Prop where
  quoted : ∀ line ∈ markdownLines (renderUnifiedReviewComment platform input ctx), IsQuoted line
  tags : ∃ rows, renderUnifiedReviewComment platform input ctx = quoteRows rows ∧
    Tagged ownTexts ([newline].intercalate rows) (ownTags platform input ctx)

/-- The names and reasons of the checks that are listed as failing. -/
def failingTexts (readiness : Option MergeReadiness) : List Units :=
  match readiness with
  | none => []
  | some readiness =>
      if readiness.ciState ≠ .failed then []
      else
        let details := (readiness.failingDetails.getD []).filter fun detail => trim detail.name ≠ []
        if details ≠ [] then
          details.flatMap fun detail => [trim detail.name, trim (detail.summary.getD [])]
        else (readiness.failingChecks.getD []).map trim

/-- The texts of the input as they are shown: chosen, trimmed and without their repetitions. -/
def shownTexts (platform : Platform) (input : UnifiedReviewInput) (ctx : UnifiedCommentContext) :
    List Units :=
  ctx.brand.toList ++ (input.readiness.bind (·.mergeStateLabel)).toList ++
    input.verdictReason.toList.map (· ++ [newline]) ++ [trim input.summary] ++
    dedupeLines platform (input.blockers.getD []) ++ failingTexts input.readiness ++
    (ctx.signals.getD []).flatMap
      (fun row => [row.label] ++ row.result.toList ++ row.evidence.toList) ++
    dedupeLines platform (input.nits.getD []) ++
    (shownCollapsibles ctx).flatMap fun part => [part.title, trim part.body]

end OwnTags

/-! ## Carriage returns -/

section Returns

variable {platform : Platform}

/-- Texts without a carriage return and an angle bracket. -/
def Harmless (text : Units) : Prop := carriageReturn ∉ text ∧ Plain text

instance decidableHarmless (text : Units) : Decidable (Harmless text) :=
  inferInstanceAs (Decidable (_ ∧ _))

theorem Harmless.append {left right : Units} (hleft : Harmless left) (hright : Harmless right) :
    Harmless (left ++ right) :=
  ⟨fun h => (List.mem_append.mp h).elim hleft.1 hright.1, hleft.2.append hright.2⟩

theorem harmless_numberText (value : JsNumber) : Harmless (platform.numberText value) := by
  have hunit : ∀ unit, isNumberUnit unit = true → 43 ≤ unit ∧ unit ≠ 60 ∧ unit ≠ 62 := by
    intro unit h
    simp only [isNumberUnit, Bool.or_eq_true, Bool.and_eq_true, decide_eq_true_eq] at h
    omega
  refine ⟨fun hmem => ?_, fun unit hmem => (hunit unit (platform.letters value unit hmem)).2⟩
  exact absurd (hunit _ (platform.letters value _ hmem)).1 (by decide)

theorem harmless_plural (n : JsNumber) {one : Units} (hone : Harmless one) :
    Harmless (plural platform n one) := by
  unfold plural
  refine (((harmless_numberText n).append (by decide)).append hone).append ?_
  split_ifs <;> decide

theorem harmless_icon (status : CommentStatus) : Harmless (STATUS_ICON status) := by
  cases status <;> decide

theorem harmless_verb (status : CommentStatus) (input : UnifiedReviewInput) :
    Harmless (verb status input) := by
  cases status
  · exact (by decide : Harmless (units "safe to merge"))
  · exact (by decide : Harmless (units "advisory only"))
  · exact (by decide : Harmless (units "held for maintainer review"))
  · unfold verb
    dsimp only
    split_ifs <;> decide

theorem plain_escape (text : Units) : Plain (escapePublicHtmlAngles text) := by
  intro unit hunit
  obtain ⟨original, -, hmem⟩ := List.mem_flatMap.mp hunit
  have hplain : Plain (units "&lt;") ∧ Plain (units "&gt;") := by decide
  split_ifs at hmem with hless hgreater
  · exact hplain.1 unit hmem
  · exact hplain.2 unit hmem
  · rw [List.mem_singleton.mp hmem]
    exact ⟨hless, hgreater⟩

/-- Escaping touches no carriage return and no line feed. -/
theorem loneReturn_escape (next : Option ℕ) (text : Units) :
    loneReturn next (escapePublicHtmlAngles text) = loneReturn next text := by
  have hhead : ∀ rest : Units, ((escapePublicHtmlAngles rest).head?.or next ≠ some newline ↔
      rest.head?.or next ≠ some newline) := fun rest => by
    cases rest with
    | nil => exact Iff.rfl
    | cons unit rest =>
      rw [escapePublicHtmlAngles, List.flatMap_cons]
      split_ifs with hless hgreater
      · rw [hless]
        exact iff_of_true (by simp [units, newline]) (by simp [lessThan, newline])
      · rw [hgreater]
        exact iff_of_true (by simp [units, newline]) (by simp [greaterThan, newline])
      · exact Iff.rfl
  induction text with
  | nil => rfl
  | cons unit rest ih =>
    have hcut : escapePublicHtmlAngles (unit :: rest) =
        (if unit = lessThan then units "&lt;" else if unit = greaterThan then units "&gt;"
          else [unit]) ++ escapePublicHtmlAngles rest := List.flatMap_cons ..
    rw [hcut]
    split_ifs with hless hgreater
    · rw [loneReturn_behind (by decide), ih, loneReturn_cons (hless ▸ by decide)]
    · rw [loneReturn_behind (by decide), ih, loneReturn_cons (hgreater ▸ by decide)]
    · rw [List.singleton_append, loneReturn.eq_2, loneReturn.eq_2, ih]
      congr 2
      exact decide_eq_decide.mpr (hhead rest)

theorem loneReturn_harmless {text : Units} (h : Harmless text) (next : Option ℕ) :
    loneReturn next text = false := loneReturn_of_not_mem h.1 next

/-- The brand is the only text of the headline. -/
theorem loneReturn_headline (status : CommentStatus) (input : UnifiedReviewInput)
    (ctx : UnifiedCommentContext) :
    loneReturn (some newline) (headline status input ctx) =
      ctx.brand.toList.any (loneReturn none) := by
  have hbehind : Harmless (utf16 " — " ++ (verb status input ++
      if status = .ready ∧ input.merged = true then utf16 " · auto-merged" else [])) := by
    refine Harmless.append (by decide) ((harmless_verb status input).append ?_)
    split_ifs <;> decide
  have hbefore : Harmless (units "### " ++ STATUS_ICON status ++ units " ") :=
    Harmless.append (Harmless.append (by decide) (harmless_icon status)) (by decide)
  have hcut := loneReturn_enclosed hbefore.1 hbehind.1 (show _ = some 32 from rfl) (by decide)
    (some newline) (escapePublicHtmlAngles (ctx.brand.getD (units "Gittensory review")))
  have hheadline : headline status input ctx = units "### " ++ STATUS_ICON status ++ units " " ++
      (escapePublicHtmlAngles (ctx.brand.getD (units "Gittensory review")) ++
        (utf16 " — " ++ (verb status input ++
          if status = .ready ∧ input.merged = true then utf16 " · auto-merged" else []))) := by
    simp only [headline, List.append_assoc]
  rw [hheadline, hcut, loneReturn_escape]
  cases ctx.brand with
  | none => decide
  | some brand => exact (Bool.or_false _).symm

theorem getLast?_chip (text : Units) : (chip text).getLast? ≠ some carriageReturn := by
  rw [chip, List.getLast?_concat]
  decide

theorem loneReturn_chip (text : Units) : loneReturn none (chip text) = loneReturn none text :=
  loneReturn_enclosed (by decide : carriageReturn ∉ [96]) (by decide : carriageReturn ∉ [96]) rfl
    (by decide : 96 ≠ newline) none text

theorem any_harmless {rows : List Units} (h : ∀ row ∈ rows, Harmless row) (next : Option ℕ) :
    rows.any (loneReturn next) = false :=
  List.any_eq_false.mpr fun row hrow => by
    rw [loneReturn_harmless (h row hrow)]
    exact Bool.false_ne_true

/-- What the chips say, but for the state of the merge. -/
def chipTexts (platform : Platform) (input : UnifiedReviewInput) (ctx : UnifiedCommentContext) :
    List Units :=
  let blockerCount := (input.blockers.getD []).length
  [plural platform input.changedFiles (units "file")] ++
    (if positive input.reviewerCount then
      [platform.numberText input.reviewerCount ++ units " AI reviewers"] else []) ++
    [if blockerCount ≠ 0 then plural platform (count blockerCount) (units "blocker")
      else units "no blockers"] ++
    (ctx.readinessScore.map fun score =>
      units "readiness " ++ platform.numberText (roundNumber score) ++ units "/100").toList ++
    (input.readiness.map fun readiness =>
      match readiness.ciState with
      | .passed => units "CI green"
      | .failed => units "CI failing"
      | .unverified => units "CI pending").toList

theorem harmless_chipTexts (input : UnifiedReviewInput) (ctx : UnifiedCommentContext) :
    ∀ text ∈ chipTexts platform input ctx, Harmless text := by
  intro text htext
  simp only [chipTexts, List.mem_append, List.mem_singleton, Option.mem_toList,
    Option.map_eq_some_iff] at htext
  rcases htext with (((rfl | hreviewers) | rfl) | ⟨score, -, rfl⟩) | ⟨readiness, -, rfl⟩
  · exact harmless_plural _ (by decide)
  · split_ifs at hreviewers
    · rw [List.mem_singleton.mp hreviewers]
      exact (harmless_numberText _).append (by decide)
    · exact absurd hreviewers List.not_mem_nil
  · split_ifs
    · exact harmless_plural _ (by decide)
    · decide
  · exact ((by decide : Harmless (units "readiness ")).append (harmless_numberText _)).append
      (by decide)
  · cases readiness.ciState <;> decide

theorem statusChips_eq (input : UnifiedReviewInput) (ctx : UnifiedCommentContext) :
    statusChips platform input ctx = (utf16 " · ").intercalate ((chipTexts platform input ctx ++
      ((input.readiness.bind (·.mergeStateLabel)).toList.filter (· ≠ [])).map
        escapePublicHtmlAngles).map chip) := by
  unfold statusChips chipTexts
  cases hready : input.readiness with
  | none => cases ctx.readinessScore <;> split_ifs <;> simp
  | some readiness =>
    cases hlabel : readiness.mergeStateLabel with
    | none => cases ctx.readinessScore <;> split_ifs <;> simp [hlabel]
    | some label =>
      by_cases hempty : label = []
      · cases ctx.readinessScore <;> split_ifs <;> simp [hlabel, hempty]
      · cases ctx.readinessScore <;> split_ifs <;> simp [hlabel, hempty]

theorem any_filter_ne_nil (rows : List Units) (next : Option ℕ) :
    (rows.filter (· ≠ [])).any (loneReturn next) = rows.any (loneReturn next) := by
  rw [List.any_filter]
  congr 1
  funext row
  cases row <;> rfl

theorem any_escape (rows : List Units) (next : Option ℕ) :
    (rows.map escapePublicHtmlAngles).any (loneReturn next) = rows.any (loneReturn next) := by
  rw [List.any_map]
  congr 1
  funext row
  exact loneReturn_escape next row

/-- The state of the merge is the only text of the chips. -/
theorem loneReturn_statusChips (input : UnifiedReviewInput) (ctx : UnifiedCommentContext) :
    loneReturn (some newline) (statusChips platform input ctx) =
      (input.readiness.bind (·.mergeStateLabel)).toList.any (loneReturn none) := by
  have hlast : ∀ rows : List Units, ∀ row ∈ rows.map chip, row.getLast? ≠ some carriageReturn :=
    fun rows row hrow => by
      obtain ⟨text, -, rfl⟩ := List.mem_map.mp hrow
      exact getLast?_chip text
  have hchips : (loneReturn none ∘ chip) = loneReturn none := funext loneReturn_chip
  rw [statusChips_eq, loneReturn_joined (by decide) (hlast _), List.any_map, hchips,
    List.any_append, any_harmless (harmless_chipTexts input ctx), Bool.false_or, any_escape,
    any_filter_ne_nil]

/-- The reason of the verdict, or what stands for none, ends the line. -/
theorem verdictLine_eq (status : CommentStatus) (input : UnifiedReviewInput) :
    ∃ lead fallback, Harmless lead ∧ Harmless fallback ∧ verdictLine status input = lead ++
      if input.verdictReason.getD [] ≠ [] then
        utf16 " — " ++ escapePublicHtmlAngles (input.verdictReason.getD []) else fallback := by
  have htitle : ∀ {title : Units}, Harmless title →
      Harmless (units "**" ++ STATUS_ICON status ++ title) := fun h =>
    Harmless.append (Harmless.append (by decide) (harmless_icon status)) h
  unfold verdictLine
  cases status with
  | ready =>
    dsimp only
    split_ifs
    · exact ⟨_, _, htitle (by decide), (by decide : Harmless (utf16 " — all checks passed")), rfl⟩
    · exact ⟨_, _, htitle (by decide), (by decide : Harmless (utf16 " — all checks passed")), rfl⟩
    · exact ⟨_, _, htitle (by decide), (by decide : Harmless (utf16 " — safe to merge")), rfl⟩
    · exact ⟨_, _, htitle (by decide), (by decide : Harmless (utf16 " — safe to merge")), rfl⟩
  | advisory =>
    dsimp only
    split_ifs
    · exact ⟨_, _, htitle (by decide), (by decide : Harmless (utf16 " — no action taken")), rfl⟩
    · exact ⟨_, _, htitle (by decide), (by decide : Harmless (utf16 " — no action taken")), rfl⟩
  | held =>
    dsimp only
    exact ⟨_, [], htitle (by decide), by decide, rfl⟩
  | blocked =>
    refine ⟨_, [], (Harmless.append (htitle (by decide)) ?_).append (by decide), by decide, rfl⟩
    split_ifs <;> decide

/-- The reason of the verdict stands at the end of a line. -/
theorem loneReturn_verdictLine (status : CommentStatus) (input : UnifiedReviewInput) :
    loneReturn (some newline) (verdictLine status input) =
      (input.verdictReason.toList.map (· ++ [newline])).any (loneReturn none) := by
  have hreason : (input.verdictReason.toList.map (· ++ [newline])).any (loneReturn none) =
      loneReturn (some newline) (input.verdictReason.getD []) := by
    cases input.verdictReason with
    | none => rfl
    | some reason =>
      rw [Option.toList_some, List.map_singleton, List.any_cons, List.any_nil, Bool.or_false,
        loneReturn_append]
      exact Bool.or_false _
  obtain ⟨lead, fallback, hlead, hfallback, hline⟩ := verdictLine_eq status input
  rw [hline, loneReturn_behind hlead.1, hreason]
  split_ifs with hsome
  · rw [loneReturn_behind (by decide), loneReturn_escape]
  · rw [loneReturn_harmless hfallback, not_not.mp hsome]
    rfl

theorem loneReturn_summaryBlock (input : UnifiedReviewInput) :
    (summaryBlock input).any (loneReturn (some newline)) =
      [trim input.summary].any (loneReturn none) := by
  unfold summaryBlock
  split_ifs with hsummary
  · rw [List.any_cons, List.any_nil, loneReturn_behind (by decide), loneReturn_escape,
      loneReturn_trim]
    rfl
  · rw [not_not.mp hsummary]
    rfl

theorem dedupeFrom_nil (seen : List Units) (room : ℕ) : dedupeFrom platform seen room [] = [] := by
  cases room <;> rfl

theorem dedupeFrom_zero (seen items : List Units) : dedupeFrom platform seen 0 items = [] := by
  cases items <;> rfl

theorem dedupeFrom_cons (seen : List Units) (room : ℕ) (raw : Units) (rest : List Units) :
    dedupeFrom platform seen (room + 1) (raw :: rest) =
      if trim raw = [] ∨ platform.toLowerCase (trim raw) ∈ seen then
        dedupeFrom platform seen (room + 1) rest
      else trim raw :: dedupeFrom platform (platform.toLowerCase (trim raw) :: seen) room rest :=
  rfl

/-- Lines that are kept were trimmed. -/
theorem trim_of_mem_dedupeFrom {seen : List Units} {room : ℕ} {items : List Units} {line : Units}
    (h : line ∈ dedupeFrom platform seen room items) : trim line = line := by
  induction items generalizing seen room with
  | nil =>
    rw [dedupeFrom_nil] at h
    exact absurd h List.not_mem_nil
  | cons raw rest ih =>
    cases room with
    | zero =>
      rw [dedupeFrom_zero] at h
      exact absurd h List.not_mem_nil
    | succ room =>
      rw [dedupeFrom_cons] at h
      split_ifs at h
      · exact ih h
      · rcases List.mem_cons.mp h with rfl | hmem
        · exact trim_trim raw
        · exact ih hmem

/-- Lines that were kept are kept again. -/
theorem dedupeFrom_dedupeFrom (seen : List Units) (room : ℕ) (items : List Units) :
    dedupeFrom platform seen room (dedupeFrom platform seen room items) =
      dedupeFrom platform seen room items := by
  induction items generalizing seen room with
  | nil => rw [dedupeFrom_nil, dedupeFrom_nil]
  | cons raw rest ih =>
    cases room with
    | zero => rw [dedupeFrom_zero, dedupeFrom_zero]
    | succ room =>
      rw [dedupeFrom_cons]
      split_ifs with hskip
      · exact ih seen (room + 1)
      · rw [dedupeFrom_cons, trim_trim, if_neg hskip, ih]

theorem any_eq_any {Row : Type} {rows : List Row} {left right : Row → Bool}
    (h : ∀ row ∈ rows, left row = right row) : rows.any left = rows.any right := by
  induction rows with
  | nil => rfl
  | cons row rest ih =>
    obtain ⟨hrow, hrest⟩ := List.forall_mem_cons.mp h
    rw [List.any_cons, List.any_cons, hrow, ih hrest]

/-- A row for each text counts as the texts do. -/
theorem any_rows {rows : List Units} {row : Units → Units}
    (h : ∀ text ∈ rows, loneReturn (some newline) (row text) = loneReturn none text) :
    loneReturn (some newline) ([newline].intercalate (rows.map row)) =
      rows.any (loneReturn none) := by
  rw [loneReturn_rows, List.any_map]
  exact any_eq_any h

theorem loneReturn_bullet {line : Units} (h : trim line = line) :
    loneReturn (some newline) (bullet (escapePublicHtmlAngles line)) = loneReturn none line := by
  rw [bullet, loneReturn_behind (by decide), loneReturn_escape, ← h, loneReturn_trim]

theorem loneReturn_bullets (items : List Units) :
    loneReturn (some newline) (bullets platform (dedupeLines platform items)) =
      (dedupeLines platform items).any (loneReturn none) := by
  have hagain : dedupeLines platform (dedupeLines platform items) = dedupeLines platform items :=
    dedupeFrom_dedupeFrom [] 12 items
  rw [bullets, hagain]
  exact any_rows fun line hline => loneReturn_bullet (trim_of_mem_dedupeFrom hline)

theorem loneReturn_blockerBlock (status : CommentStatus) (input : UnifiedReviewInput) :
    (blockerBlock platform status input).any (loneReturn (some newline)) =
      (dedupeLines platform (input.blockers.getD [])).any (loneReturn none) := by
  unfold blockerBlock
  dsimp only
  by_cases hsome : dedupeLines platform (input.blockers.getD []) ≠ []
  · have hheading : Harmless (units "**" ++ (if status = .blocked then utf16 "Why this is blocked"
        else utf16 "Concerns raised — review before merging") ++ units "**
") := by
      split_ifs <;> decide
    rw [if_pos hsome, List.any_cons, List.any_nil, Bool.or_false, loneReturn_behind hheading.1,
      loneReturn_bullets]
  · rw [if_neg hsome, not_not.mp hsome]
    rfl

theorem escape_nil : escapePublicHtmlAngles [] = [] := rfl

theorem escape_eq_nil {text : Units} (h : escapePublicHtmlAngles text = []) : text = [] := by
  cases text with
  | nil => rfl
  | cons unit rest =>
    rw [escapePublicHtmlAngles, List.flatMap_cons] at h
    split_ifs at h
    · exact absurd h (List.cons_ne_nil _ _)
    · exact absurd h (List.cons_ne_nil _ _)
    · exact absurd h (List.cons_ne_nil _ _)

/-- A failing check is listed with its name, and with a reason when there is one. -/
theorem loneReturn_failingLine (detail : CheckFailureDetail) :
    loneReturn (some newline) (failingLine detail) =
      if trim detail.name = [] then false
      else loneReturn none (trim detail.name) ||
        loneReturn none (trim (detail.summary.getD [])) := by
  unfold failingLine
  dsimp only
  by_cases hname : trim detail.name = []
  · rw [hname, escape_nil, if_pos rfl, if_pos rfl]
    rfl
  · rw [if_neg fun h => hname (escape_eq_nil h), if_neg hname, bullet,
      loneReturn_behind (by decide)]
    by_cases hreason : trim (detail.summary.getD []) ≠ []
    · rw [if_pos hreason, loneReturn_append, loneReturn_behind (by decide), loneReturn_escape,
        loneReturn_escape, loneReturn_trim, loneReturn_trim (some newline)]
    · rw [if_neg hreason, not_not.mp hreason, List.append_nil, loneReturn_escape, loneReturn_trim]
      exact (Bool.or_false _).symm

theorem failingLine_eq_nil_iff (detail : CheckFailureDetail) :
    failingLine detail = [] ↔ trim detail.name = [] := by
  unfold failingLine
  dsimp only
  constructor
  · intro h
    by_contra hname
    rw [if_neg fun h => hname (escape_eq_nil h)] at h
    exact absurd h (List.cons_ne_nil _ _)
  · intro h
    rw [h, escape_nil, if_pos rfl]

theorem any_eraseDups (rows : List Units) (p : Units → Bool) :
    rows.eraseDups.any p = rows.any p := by
  rw [Bool.eq_iff_iff, List.any_eq_true, List.any_eq_true]
  simp only [List.mem_eraseDups]

theorem loneReturn_failingChecksBlock (readiness : Option MergeReadiness) :
    loneReturn (some newline) (failingChecksBlock readiness) =
      (failingTexts readiness).any (loneReturn none) := by
  cases readiness with
  | none => rfl
  | some readiness =>
    unfold failingChecksBlock failingTexts
    dsimp only
    by_cases hfailed : readiness.ciState ≠ .failed
    · rw [if_pos hfailed, if_pos hfailed]
      rfl
    rw [if_neg hfailed, if_neg hfailed]
    have hlines : ((readiness.failingDetails.getD []).map failingLine).filter (· ≠ []) =
        ((readiness.failingDetails.getD []).filter fun detail => trim detail.name ≠ []).map
          failingLine := by
      rw [List.filter_map]
      congr 2
      funext detail
      exact decide_eq_decide.mpr (not_congr (failingLine_eq_nil_iff detail))
    rw [hlines]
    generalize hkept : ((readiness.failingDetails.getD []).filter fun detail =>
      trim detail.name ≠ []) = kept
    by_cases hsome : kept ≠ []
    · have hnamed : ∀ detail ∈ kept, ¬trim detail.name = [] := fun detail hdetail => by
        rw [← hkept] at hdetail
        exact of_decide_eq_true (List.mem_filter.mp hdetail).2
      rw [if_pos (fun h => hsome (List.map_eq_nil_iff.mp h)), if_pos hsome, loneReturn_rows,
        List.any_map, List.any_flatMap]
      refine any_eq_any fun detail hdetail => ?_
      rw [Function.comp_apply, loneReturn_failingLine, if_neg (hnamed detail hdetail)]
      exact (congrArg _ (Bool.or_false _)).symm
    · rw [not_not.mp hsome, List.map_nil, if_neg (not_not.mpr rfl), if_neg (not_not.mpr rfl)]
      generalize hnames : ((readiness.failingChecks.getD []).map CodeUnits.trim).filter (· ≠ []) =
        names
      have hany : names.any (loneReturn none) =
          ((readiness.failingChecks.getD []).map CodeUnits.trim).any (loneReturn none) := by
        rw [← hnames]
        exact any_filter_ne_nil _ _
      have htrim : ∀ name ∈ names, trim name = name := fun name hname => by
        rw [← hnames] at hname
        obtain ⟨raw, -, rfl⟩ := List.mem_map.mp (List.mem_of_mem_filter hname)
        exact trim_trim raw
      rw [← hany]
      split_ifs with hnil
      · rw [hnil]
        rfl
      · rw [any_rows fun name hname => loneReturn_bullet (htrim name (List.mem_eraseDups.mp hname)),
          any_eraseDups]

theorem loneReturn_failingBlock (input : UnifiedReviewInput) :
    (failingBlock input).any (loneReturn (some newline)) =
      (failingTexts input.readiness).any (loneReturn none) := by
  unfold failingBlock
  dsimp only
  rw [← loneReturn_failingChecksBlock]
  split_ifs with hsome
  · rw [List.any_cons, List.any_nil, Bool.or_false, loneReturn_behind (by decide)]
  · rw [not_not.mp hsome]
    rfl

theorem harmless_signalIcon (state : SignalState) : Harmless (SIGNAL_ICON state) := by
  cases state <;> decide

/-- The three cells of a row. -/
theorem loneReturn_signalLine (first : Bool) (row : UnifiedSignalRow) :
    loneReturn (some newline) (signalLine first row) =
      ([row.label] ++ row.result.toList ++ row.evidence.toList).any (loneReturn none) := by
  have hoption : ∀ cell : Option Units, cell.toList.any (loneReturn none) =
      loneReturn none (cell.getD []) := fun cell => by
    cases cell with
    | none => rfl
    | some text => exact Bool.or_false _
  have hicon := harmless_signalIcon row.state
  obtain ⟨lead, behind, hlead, hbehind, hhead, hlabel⟩ : ∃ lead behind, Harmless lead ∧
      Harmless behind ∧ (behind.head? = some 42 ∨ behind.head? = some 32) ∧
      signalLine first row = lead ++ (escapePublicHtmlAngles row.label ++ (behind ++
        ((if row.result.getD [] ≠ [] then units " " ++ escapePublicHtmlAngles (row.result.getD [])
          else []) ++ (units " | " ++ (escapePublicHtmlAngles (row.evidence.getD []) ++
            units " |"))))) := by
    cases first
    · refine ⟨units "| ", units " | " ++ SIGNAL_ICON row.state, by decide,
        Harmless.append (by decide) hicon, Or.inr rfl, ?_⟩
      simp only [signalLine, List.append_assoc, Bool.false_eq_true, if_false]
    · refine ⟨units "| " ++ units "**", units "**" ++ (units " | " ++ SIGNAL_ICON row.state),
        by decide, Harmless.append (by decide) (Harmless.append (by decide) hicon), Or.inl rfl, ?_⟩
      simp only [signalLine, List.append_assoc, if_true]
  have hresult : ∀ rest : Units, loneReturn (some newline)
      ((if row.result.getD [] ≠ [] then units " " ++ escapePublicHtmlAngles (row.result.getD [])
        else []) ++ (units " | " ++ rest)) =
      (loneReturn none (row.result.getD []) || loneReturn (some newline) rest) := fun rest => by
    have hnext : loneReturn ((units " | " ++ rest).head?.or (some newline))
        (row.result.getD []) = loneReturn none (row.result.getD []) :=
      loneReturn_some (by decide : 32 ≠ newline) _
    rw [loneReturn_append, loneReturn_behind (by decide) (some newline) rest]
    split_ifs with hsome
    · rw [loneReturn_behind (by decide), loneReturn_escape, hnext]
    · rw [not_not.mp hsome]
      rfl
  have hnext : loneReturn ((behind ++ ((if row.result.getD [] ≠ [] then units " " ++
      escapePublicHtmlAngles (row.result.getD []) else []) ++ (units " | " ++
        (escapePublicHtmlAngles (row.evidence.getD []) ++ units " |")))).head?.or (some newline))
      (escapePublicHtmlAngles row.label) = loneReturn none row.label := by
    rw [loneReturn_escape, List.head?_append]
    rcases hhead with hhead | hhead
    · rw [hhead]
      exact loneReturn_some (by decide : 42 ≠ newline) _
    · rw [hhead]
      exact loneReturn_some (by decide : 32 ≠ newline) _
  have hevidence : loneReturn (some newline)
      (escapePublicHtmlAngles (row.evidence.getD []) ++ units " |") =
      loneReturn none (row.evidence.getD []) := by
    have hcut := loneReturn_enclosed (by decide : carriageReturn ∉ ([] : Units))
      (by decide : carriageReturn ∉ units " |") (show _ = some 32 from rfl) (by decide)
      (some newline) (escapePublicHtmlAngles (row.evidence.getD []))
    rw [List.nil_append, loneReturn_escape] at hcut
    exact hcut
  rw [hlabel, loneReturn_behind hlead.1, loneReturn_append, hnext, loneReturn_behind hbehind.1,
    hresult, hevidence, List.any_append, List.any_append, hoption, hoption, List.any_cons,
    List.any_nil, Bool.or_false, Bool.or_assoc]

theorem loneReturn_codeRow (input : UnifiedReviewInput) :
    loneReturn (some newline) (signalLine true (codeRow platform input)) = false := by
  have hcells : ∀ cell ∈ [(codeRow platform input).label] ++
      (codeRow platform input).result.toList ++ (codeRow platform input).evidence.toList,
      Harmless cell := by
    intro cell hcell
    simp only [codeRow, Option.toList_some, List.cons_append, List.nil_append,
      List.mem_cons, List.not_mem_nil, or_false] at hcell
    rcases hcell with rfl | rfl | rfl
    · decide
    · split_ifs
      · exact harmless_plural _ (by decide)
      · decide
    · split_ifs
      · exact (harmless_numberText _).append (by decide)
      · decide
  rw [loneReturn_signalLine]
  exact any_harmless hcells none

theorem loneReturn_signalTable (input : UnifiedReviewInput) (ctx : UnifiedCommentContext) :
    loneReturn (some newline) (signalTable platform input ctx) =
      ((ctx.signals.getD []).flatMap
        fun row => [row.label] ++ row.result.toList ++ row.evidence.toList).any
          (loneReturn none) := by
  rw [signalTable, loneReturn_rows, List.any_cons, List.any_cons, List.any_cons,
    loneReturn_codeRow, loneReturn_harmless (by decide), loneReturn_harmless (by decide),
    Bool.false_or, Bool.false_or, Bool.false_or, List.any_map, List.any_flatMap]
  exact any_eq_any fun row _ => loneReturn_signalLine false row

/-- The title of a collapsed part is followed by a tag, its body by a line feed. -/
theorem loneReturn_details (title body : Units) {sub : Units} (hsub : Harmless sub) :
    loneReturn (some newline) (details title body sub) =
      (loneReturn none title || loneReturn (some newline) body) := by
  have hbetween : carriageReturn ∉ units "</b>" ++ ((if sub ≠ [] then
      utf16 " — " ++ escapePublicHtmlAngles sub else []) ++ units "</summary>

") := by
    have hescape : carriageReturn ∉ escapePublicHtmlAngles sub := fun hmem => by
      obtain ⟨unit, hunit, hin⟩ := List.mem_flatMap.mp hmem
      have heq : carriageReturn = unit := by
        split_ifs at hin
        · exact absurd hin (by decide)
        · exact absurd hin (by decide)
        · exact List.mem_singleton.mp hin
      exact hsub.1 (heq ▸ hunit)
    have hdash : carriageReturn ∉ utf16 " — " := by decide
    have hclose : carriageReturn ∉ units "</b>" ∧ carriageReturn ∉ units "</summary>

" := by
      decide
    simp only [List.mem_append, not_or]
    split_ifs
    · rw [List.mem_append, not_or]
      exact ⟨hclose.1, ⟨hdash, hescape⟩, hclose.2⟩
    · exact ⟨hclose.1, List.not_mem_nil, hclose.2⟩
  have hcut : details title body sub = units "<details><summary><b>" ++
      (escapePublicHtmlAngles title ++ ((units "</b>" ++ ((if sub ≠ [] then
        utf16 " — " ++ escapePublicHtmlAngles sub else []) ++ units "</summary>\n\n")) ++
          (escapePublicHtmlAngles body ++ units "\n</details>"))) := by
    simp only [details, List.append_assoc]
  have hbody : loneReturn (some newline) (escapePublicHtmlAngles body ++ units "\n</details>") =
      loneReturn (some newline) body := by
    have hclose : loneReturn (some newline) (units "\n</details>") = false :=
      loneReturn_of_not_mem (by decide) _
    rw [loneReturn_append, hclose, Bool.or_false]
    exact loneReturn_escape (some newline) body
  rw [hcut, loneReturn_behind (by decide), loneReturn_append, loneReturn_behind hbetween, hbody,
    loneReturn_escape]
  congr 1
  exact loneReturn_some (by decide : 60 ≠ newline) title

theorem loneReturn_nitBlock (input : UnifiedReviewInput) :
    (nitBlock platform input).any (loneReturn (some newline)) =
      (dedupeLines platform (input.nits.getD [])).any (loneReturn none) := by
  unfold nitBlock
  dsimp only
  split_ifs with hsome
  · rw [List.any_cons, List.any_nil, Bool.or_false,
      loneReturn_details _ _ ((harmless_numberText _).append (by decide)),
      loneReturn_harmless (by decide), Bool.false_or, loneReturn_bullets]
  · rw [not_not.mp hsome]
    rfl

theorem loneReturn_collapsibles {ctx : UnifiedCommentContext} (h : Untrusted ctx) :
    ((shownCollapsibles ctx).map collapsible).any (loneReturn (some newline)) =
      ((shownCollapsibles ctx).flatMap fun part => [part.title, trim part.body]).any
        (loneReturn none) := by
  rw [List.any_map, List.any_flatMap]
  refine any_eq_any fun part hpart => ?_
  have hraw := h.collapsibles part (List.mem_of_mem_filter hpart)
  rw [Function.comp_apply, collapsible, hraw, if_neg Bool.false_ne_true,
    loneReturn_details _ _ (by decide), loneReturn_trim]
  exact congrArg _ (Bool.or_false _).symm

theorem harmless_replicate (status : CommentStatus) :
    Harmless (List.replicate 12 (STATUS_SQUARE status)).flatten := by
  cases status <;> decide

/-- The comment has a carriage return alone exactly when a shown text has one. -/
theorem loneReturn_blocks {ctx : UnifiedCommentContext} (h : Untrusted ctx)
    (input : UnifiedReviewInput) :
    loneReturn none ([newline, newline].intercalate (blocks platform input ctx)) =
      (shownTexts platform input ctx).any (loneReturn none) := by
  have hfooter : footerBlock ctx = [] := by
    rw [footerBlock, h.footer]
    rfl
  have hlegend : loneReturn none legend = false := loneReturn_of_not_mem (by decide) none
  rw [blocks, hfooter, List.append_nil, loneReturn_intercalate rfl (by decide), hlegend,
    Bool.or_false, shownTexts]
  simp only [List.any_append, loneReturn_collapsibles h, loneReturn_nitBlock,
    loneReturn_failingBlock, loneReturn_blockerBlock, loneReturn_summaryBlock]
  simp only [List.any_cons, List.any_nil, Bool.or_false, loneReturn_signalTable,
    loneReturn_verdictLine, loneReturn_statusChips, loneReturn_headline,
    loneReturn_harmless (harmless_replicate _), Bool.false_or, Bool.or_assoc]

end Returns

/-! ## Angle brackets -/

section Angles

variable {platform : Platform}

theorem plain_if {condition : Prop} [Decidable condition] {left right : Units} (hleft : Plain left)
    (hright : Plain right) : Plain (if condition then left else right) := by
  split_ifs
  · exact hleft
  · exact hright

theorem plain_headline (status : CommentStatus) (input : UnifiedReviewInput)
    (ctx : UnifiedCommentContext) : Plain (headline status input ctx) := by
  have hicon := (harmless_icon status).2
  have hverb := (harmless_verb status input).2
  exact (((((Plain.append (by decide) hicon).append (by decide)).append (plain_escape _)).append
    (by decide)).append hverb).append (plain_if (by decide) (by decide))

theorem plain_chip {text : Units} (h : Plain text) : Plain (chip text) :=
  Plain.append (Plain.append (by decide : Plain [96]) h) (by decide : Plain [96])

theorem plain_statusChips (input : UnifiedReviewInput) (ctx : UnifiedCommentContext) :
    Plain (statusChips platform input ctx) := by
  rw [statusChips_eq]
  refine Plain.intercalate (by decide) fun row hrow => ?_
  obtain ⟨text, htext, rfl⟩ := List.mem_map.mp hrow
  rcases List.mem_append.mp htext with hcount | hlabel
  · exact plain_chip (harmless_chipTexts input ctx text hcount).2
  · obtain ⟨label, -, rfl⟩ := List.mem_map.mp hlabel
    exact plain_chip (plain_escape label)

theorem plain_verdictLine (status : CommentStatus) (input : UnifiedReviewInput) :
    Plain (verdictLine status input) := by
  obtain ⟨lead, fallback, hlead, hfallback, hline⟩ := verdictLine_eq status input
  rw [hline]
  exact hlead.2.append (plain_if (Plain.append (by decide) (plain_escape _)) hfallback.2)

theorem plain_bullet (line : Units) : Plain (bullet (escapePublicHtmlAngles line)) :=
  Plain.append (by decide) (plain_escape line)

theorem plain_rows {rows : List Units} (h : ∀ row ∈ rows, Plain row) :
    Plain ([newline].intercalate rows) := Plain.intercalate (by decide) h

theorem plain_bullets (items : List Units) : Plain (bullets platform items) :=
  plain_rows fun row hrow => by
    obtain ⟨line, -, rfl⟩ := List.mem_map.mp hrow
    exact plain_bullet line

theorem plain_failingLine (detail : CheckFailureDetail) : Plain (failingLine detail) :=
  plain_if (by decide) (Plain.append (by decide) ((plain_escape _).append
    (plain_if (Plain.append (by decide) (plain_escape _)) (by decide))))

theorem plain_failingChecksBlock (readiness : Option MergeReadiness) :
    Plain (failingChecksBlock readiness) := by
  cases readiness with
  | none => exact (by decide : Plain [])
  | some readiness =>
    refine plain_if (by decide) (plain_if (plain_rows fun row hrow => ?_)
      (plain_if (by decide) (plain_rows fun row hrow => ?_)))
    · obtain ⟨detail, -, rfl⟩ := List.mem_map.mp (List.mem_of_mem_filter hrow)
      exact plain_failingLine detail
    · obtain ⟨name, -, rfl⟩ := List.mem_map.mp hrow
      exact plain_bullet name

theorem plain_signalLine (first : Bool) (row : UnifiedSignalRow) :
    Plain (signalLine first row) := by
  have hicon := (harmless_signalIcon row.state).2
  have hlabel : Plain (if first then units "**" ++ escapePublicHtmlAngles row.label ++ units "**"
      else escapePublicHtmlAngles row.label) :=
    plain_if (Plain.append (Plain.append (by decide) (plain_escape _)) (by decide)) (plain_escape _)
  have hresult : Plain (if row.result.getD [] ≠ [] then
      units " " ++ escapePublicHtmlAngles (row.result.getD []) else []) :=
    plain_if (Plain.append (by decide) (plain_escape _)) (by decide)
  exact (((((Plain.append (by decide) hlabel).append (by decide)).append
    (hicon.append hresult)).append (by decide)).append (plain_escape _)).append (by decide)

theorem plain_signalTable (input : UnifiedReviewInput) (ctx : UnifiedCommentContext) :
    Plain (signalTable platform input ctx) := by
  refine plain_rows fun row hrow => ?_
  simp only [List.mem_cons, List.mem_map] at hrow
  rcases hrow with rfl | rfl | rfl | ⟨signal, -, rfl⟩
  · decide
  · decide
  · exact plain_signalLine true _
  · exact plain_signalLine false signal

/-- A collapsed part has its six tags, whatever its texts are. -/
theorem tagged_details (title body sub : Units) :
    Tagged ownTexts (details title body sub) detailsTags := by
  have hsub : Plain (if sub ≠ [] then utf16 " — " ++ escapePublicHtmlAngles sub else []) :=
    plain_if (Plain.append (by decide) (plain_escape _)) (by decide)
  have hopen : Tagged ownTexts (units "<details><summary><b>")
      [.openDetails, .openSummary, .openBold] :=
    Tagged.tag OwnTag.openDetails (Tagged.tag OwnTag.openSummary (Tagged.of_tag OwnTag.openBold))
  have hclose : Tagged ownTexts (units "</summary>\n\n") [.closeSummary] :=
    Tagged.tag OwnTag.closeSummary (Plain.tagged (by decide : Plain (units "\n\n")))
  have hend : Tagged ownTexts (units "\n</details>") [.closeDetails] :=
    Tagged.append (Plain.tagged (by decide : Plain (units "\n")))
      (Tagged.of_tag OwnTag.closeDetails)
  exact (((((hopen.append (plain_escape title).tagged).append
    (Tagged.of_tag OwnTag.closeBold)).append hsub.tagged).append hclose).append
      (plain_escape body).tagged).append hend

theorem tagged_legend : Tagged ownTexts legend [.openSub, .closeSub] := by
  have hplain : Plain (STATUS_SQUARE .ready ++ utf16 " Safe / merged · " ++
      STATUS_SQUARE .advisory ++ utf16 " Advisory · " ++ STATUS_SQUARE .held ++
      utf16 " Held for review · " ++ STATUS_SQUARE .blocked ++ utf16 " Blocked / closed") := by
    decide
  have hlegend : legend = ownTexts.text OwnTag.openSub ++ ((STATUS_SQUARE .ready ++
      utf16 " Safe / merged · " ++ STATUS_SQUARE .advisory ++ utf16 " Advisory · " ++
      STATUS_SQUARE .held ++ utf16 " Held for review · " ++ STATUS_SQUARE .blocked ++
      utf16 " Blocked / closed") ++ ownTexts.text OwnTag.closeSub) := by decide
  rw [hlegend]
  exact Tagged.tag OwnTag.openSub (hplain.tagged.append (Tagged.of_tag OwnTag.closeSub))

theorem rowsTagged_collapsibles {ctx : UnifiedCommentContext} (h : Untrusted ctx) :
    RowsTagged ownTexts ((shownCollapsibles ctx).map collapsible)
      (List.replicate (shownCollapsibles ctx).length detailsTags).flatten := by
  have hparts : ∀ part ∈ shownCollapsibles ctx, Tagged ownTexts (collapsible part) detailsTags :=
    fun part hpart => by
      rw [collapsible, h.collapsibles part (List.mem_of_mem_filter hpart),
        if_neg Bool.false_ne_true]
      exact tagged_details _ _ _
  generalize shownCollapsibles ctx = parts at hparts ⊢
  induction parts with
  | nil => exact RowsTagged.nil
  | cons part rest ih =>
    obtain ⟨hpart, hrest⟩ := List.forall_mem_cons.mp hparts
    rw [List.length_cons, List.replicate_succ, List.flatten_cons]
    exact RowsTagged.cons hpart (ih hrest)

theorem rowsTagged_nitBlock (input : UnifiedReviewInput) :
    RowsTagged ownTexts (nitBlock platform input)
      (List.replicate (if dedupeLines platform (input.nits.getD []) ≠ [] then 1 else 0)
        detailsTags).flatten := by
  unfold nitBlock
  dsimp only
  split_ifs
  · exact RowsTagged.of_tagged (tagged_details _ _ _)
  · exact RowsTagged.nil

/-- The blocks of a comment have the tags of its collapsed parts and of the legend. -/
theorem tagged_blocks {ctx : UnifiedCommentContext} (h : Untrusted ctx)
    (input : UnifiedReviewInput) :
    Tagged ownTexts ([newline, newline].intercalate (blocks platform input ctx))
      (ownTags platform input ctx) := by
  have hfooter : footerBlock ctx = [] := by
    rw [footerBlock, h.footer]
    rfl
  have hoptional : ∀ {condition : Prop} [Decidable condition] {block : Units}, Plain block →
      ∀ row ∈ (if condition then [block] else []), Plain row := by
    intro condition _ block hblock row hrow
    split_ifs at hrow
    · rwa [List.mem_singleton.mp hrow]
    · exact absurd hrow List.not_mem_nil
  have hplain : ∀ row ∈ [
      (List.replicate 12 (STATUS_SQUARE (deriveUnifiedStatus input ctx))).flatten,
      headline (deriveUnifiedStatus input ctx) input ctx, statusChips platform input ctx,
      verdictLine (deriveUnifiedStatus input ctx) input] ++ summaryBlock input ++
      blockerBlock platform (deriveUnifiedStatus input ctx) input ++ failingBlock input ++
      [signalTable platform input ctx], Plain row := by
    intro row hrow
    simp only [List.mem_append, List.mem_cons, List.not_mem_nil, or_false] at hrow
    rcases hrow with (((((rfl | rfl | rfl | rfl) | hsummary) | hblockers) | hfailing) | rfl)
    · exact (harmless_replicate _).2
    · exact plain_headline _ input ctx
    · exact plain_statusChips input ctx
    · exact plain_verdictLine _ input
    · exact hoptional (Plain.append (by decide) (plain_escape _)) row hsummary
    · exact hoptional (Plain.append (Plain.append (Plain.append (by decide)
        (plain_if (by decide) (by decide))) (by decide)) (plain_bullets _)) row hblockers
    · exact hoptional (Plain.append (by decide) (plain_failingChecksBlock _)) row hfailing
    · exact plain_signalTable input ctx
  have hnits : RowsTagged ownTexts (nitBlock platform input)
      (List.replicate (if dedupeLines platform (input.nits.getD []) ≠ [] then 1 else 0)
        detailsTags).flatten := rowsTagged_nitBlock input
  have hblocks := (((RowsTagged.of_plain hplain).append hnits).append
    (rowsTagged_collapsibles h)).append (RowsTagged.of_tagged tagged_legend)
  rw [List.nil_append, ← List.flatten_append, ← List.replicate_add] at hblocks
  refine RowsTagged.intercalate (by decide) ?_
  rw [blocks, hfooter, List.append_nil]
  exact hblocks

end Angles

/-! ## The alert -/

section Alert

variable {platform : Platform}

/-- A space in front of a row that is not empty. -/
def padRow (row : Units) : Units := if row.length ≠ 0 then 32 :: row else []

/-- The rows of the alert, without the signs of the quote. -/
def alertRows (alert inner : Units) : List Units :=
  (units " [!" ++ alert ++ units "]") :: (inner.splitOn newline).map padRow

theorem asAlert_eq (alert inner : Units) :
    asAlert alert inner = quoteRows (alertRows alert inner) := by
  have hrow : ∀ row : Units, (if row.length ≠ 0 then units "> " ++ row else units ">") =
      greaterThan :: padRow row := fun row => by
    unfold padRow
    split_ifs <;> rfl
  have hrows : ((inner.splitOn newline).map padRow).map (greaterThan :: ·) ≠ [] := by
    simp [List.splitOn_ne_nil]
  have hend : units "]\n" = units "]" ++ [newline] := rfl
  rw [quoteRows, alertRows, List.map_cons, List.intercalate_cons_of_ne_nil hrows, List.map_map,
    asAlert, hend]
  simp only [hrow]
  simp only [← List.append_assoc]
  rfl

theorem loneReturn_padRow (next : Option ℕ) (row : Units) :
    loneReturn next (padRow row) = loneReturn next row := by
  unfold padRow
  split_ifs with hrow
  · exact loneReturn_cons (by decide) next row
  · rw [List.length_eq_zero_iff.mp (not_not.mp hrow)]

theorem harmless_alert (status : CommentStatus) :
    Harmless (units " [!" ++ STATUS_ALERT status ++ units "]") ∧
      newline ∉ units " [!" ++ STATUS_ALERT status ++ units "]" := by
  cases status <;> decide

/-- The alert adds no carriage return. -/
theorem loneReturn_asAlert (status : CommentStatus) (inner : Units) :
    loneReturn none (asAlert (STATUS_ALERT status) inner) = loneReturn none inner := by
  have hrows : (inner.splitOn newline).map padRow ≠ [] := by simp [List.splitOn_ne_nil]
  have hlead : carriageReturn ∉ units " [!" ++ STATUS_ALERT status ++ units "]" ++ [newline] :=
    (Harmless.append (harmless_alert status).1 (by decide)).1
  rw [asAlert_eq, loneReturn_quoteRows, alertRows, List.intercalate_cons_of_ne_nil hrows,
    loneReturn_behind hlead, loneReturn_map none loneReturn_padRow, List.intercalate_splitOn]

theorem tagged_padRow {Tag : Type} {texts : TagTexts Tag} (row : Units) (tags : List Tag)
    (h : Tagged texts row tags) : Tagged texts (padRow row) tags := by
  unfold padRow
  split_ifs with hrow
  · exact Tagged.unit (by decide) (by decide) h
  · rwa [List.length_eq_zero_iff.mp (not_not.mp hrow)] at h

theorem rowsTagged_alertRows (status : CommentStatus) {inner : Units} {tags : List OwnTag}
    (h : Tagged ownTexts inner tags) :
    RowsTagged ownTexts (alertRows (STATUS_ALERT status) inner) tags :=
  RowsTagged.cons (harmless_alert status).1.2.tagged (h.rows.map tagged_padRow)

theorem newline_not_mem_alertRows (status : CommentStatus) {inner row : Units}
    (h : row ∈ alertRows (STATUS_ALERT status) inner) : newline ∉ row := by
  rcases List.mem_cons.mp h with rfl | hmem
  · exact (harmless_alert status).2
  · obtain ⟨line, hline, rfl⟩ := List.mem_map.mp hmem
    have hfeed := not_mem_of_mem_splitOn hline
    unfold padRow
    split_ifs
    · exact fun h => (List.mem_cons.mp h).elim (by decide) hfeed
    · exact List.not_mem_nil

variable {ctx : UnifiedCommentContext}

theorem render_eq (h : Untrusted ctx) (input : UnifiedReviewInput) :
    renderUnifiedReviewComment platform input ctx =
      asAlert (STATUS_ALERT (deriveUnifiedStatus input ctx))
        ([newline, newline].intercalate (blocks platform input ctx)) := by
  rw [renderUnifiedReviewComment, h.reRun]
  rfl

/-- The angle brackets are the renderer's own, whatever the texts are. -/
theorem tagged_render (h : Untrusted ctx) (input : UnifiedReviewInput) :
    ∃ rows, renderUnifiedReviewComment platform input ctx = quoteRows rows ∧
      (∀ row ∈ rows, newline ∉ row) ∧ RowsTagged ownTexts rows (ownTags platform input ctx) :=
  ⟨_, (render_eq h input).trans (asAlert_eq _ _), fun _ hrow => newline_not_mem_alertRows _ hrow,
    rowsTagged_alertRows _ (tagged_blocks h input)⟩

/-- All lines are quoted exactly when no shown text has a carriage return alone. -/
theorem quoted_iff (h : Untrusted ctx) (input : UnifiedReviewInput) :
    (∀ line ∈ markdownLines (renderUnifiedReviewComment platform input ctx), IsQuoted line) ↔
      ∀ text ∈ shownTexts platform input ctx, loneReturn none text = false := by
  obtain ⟨rows, hrows, hfeed, htagged⟩ := @tagged_render platform ctx h input
  have hguarded : Guarded (renderUnifiedReviewComment platform input ctx) := by
    rw [hrows]
    exact guarded_quoteRows fun row hrow => ⟨hfeed row hrow, htagged.mem hrow⟩
  have hhead : (renderUnifiedReviewComment platform input ctx).head? = some greaterThan := by
    rw [render_eq h]
    rfl
  rw [all_quoted_iff hguarded hhead, render_eq h, loneReturn_asAlert, loneReturn_blocks h,
    List.any_eq_false]
  simp only [Bool.not_eq_true]

/-- The comment stays within its alert exactly when no shown text has a carriage return that no
line feed follows. -/
theorem contained_iff (h : Untrusted ctx) (input : UnifiedReviewInput) :
    Contained platform input ctx ↔
      ∀ text ∈ shownTexts platform input ctx, loneReturn none text = false := by
  obtain ⟨rows, hrows, -, htagged⟩ := @tagged_render platform ctx h input
  rw [← quoted_iff h]
  exact ⟨fun hcontained => hcontained.quoted,
    fun hlines => ⟨hlines, rows, hrows, htagged.intercalate (by decide)⟩⟩

/-- Integers in decimal digits. -/
def integerText : JsNumber → Units
  | .finite value =>
      if value < 0 then 45 :: shortest 10 value.num.natAbs else shortest 10 value.num.natAbs
  | .infinity => units "Infinity"
  | .negInfinity => units "-Infinity"
  | .nan => units "NaN"

def samplePlatform : Platform where
  numberText := integerText
  toLowerCase := DuplicateSignals.toLowerCase
  letters value := by
    have hdigit : ∀ number : ℕ, ∀ unit ∈ shortest 10 number, isNumberUnit unit = true :=
      fun number unit hunit => by
        have hbounds := isDigitIn_ten.mp (isDigitIn_of_mem_shortest (by decide) (by decide) hunit)
        simp [isNumberUnit, hbounds.1, hbounds.2]
    cases value with
    | finite value =>
      intro unit hunit
      unfold integerText at hunit
      dsimp only at hunit
      split_ifs at hunit
      · rcases List.mem_cons.mp hunit with rfl | hmem
        · decide
        · exact hdigit _ unit hmem
      · exact hdigit _ unit hunit
    | _ => exact of_decide_eq_true rfl

/-- A review of one file with the given summary. -/
def sampleInput (summary : Units) : UnifiedReviewInput where
  changedFiles := .finite 1
  reviewerCount := .finite 2
  recommendations := [.merge]
  summary := summary
  blockers := none
  nits := none
  readiness := none
  decision := none
  merged := false
  verdictReason := none
  consensusBlocker := none
  failedCount := none

def sampleContext : UnifiedCommentContext where
  brand := none
  readinessScore := none
  signals := none
  extraCollapsibles := none
  reRunLabel := none
  footerMarkdown := none
  statusOverride := none

theorem untrusted_sampleContext : Untrusted sampleContext where
  collapsibles _ hpart := absurd hpart List.not_mem_nil
  footer := rfl
  reRun := rfl

/-- A summary of two lines with tags of its own stays in the alert. -/
theorem sample_contained :
    Contained samplePlatform (sampleInput (units "All <b>good</b>\r\n</details> end"))
      sampleContext := by
  refine (contained_iff untrusted_sampleContext _).mpr ?_
  decide

/-- A summary whose lines end with a carriage return does not. -/
theorem return_leaves_alert :
    ¬Contained samplePlatform (sampleInput (units "one\rtwo")) sampleContext := by
  intro h
  have hshown := (quoted_iff untrusted_sampleContext _).mp h.quoted (trim (units "one\rtwo"))
  exact absurd (hshown (by decide)) (by decide)

end Alert

end Gittensory.UnifiedComment
