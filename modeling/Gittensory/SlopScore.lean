import Gittensory.ChangedPaths
import Gittensory.LiveGate
import Gittensory.ManifestParsing
import Gittensory.ReadinessScore
import Mathlib.Tactic.Linarith

/-!
The deterministic slop score (`signals/slop.ts`): seven signals, each with a weight, read
off the changed files and the text of a pull request. Two of them compare shares of the
changed lines with a threshold, so further files can trip them.
-/
namespace Gittensory.SlopScore

open ChangedPaths JsValue TextPattern
open LiveGate (SlopBand SlopFinding)

structure SlopChangedFile where
  path : Text
  additions : Option JsNumber := none
  deletions : Option JsNumber := none
  deriving DecidableEq, Repr

structure SlopAssessmentInput where
  changedFiles : Option (List SlopChangedFile) := none
  tests : Option (List Text) := none
  testFiles : Option (List Text) := none
  description : Option Text := none
  commitMessages : Option (List Text) := none
  inDuplicateCluster : Option Bool := none
  hasLinkedIssue : Option Bool := none
  issueDiscoveryLane : Option Bool := none
  deriving DecidableEq, Repr

structure SlopAssessment where
  slopRisk : ℕ
  band : SlopBand
  findings : List SlopFinding
  deriving DecidableEq, Repr

section Weights

def trivialWhitespaceChurnWeight : ℕ := 30

def missingTestEvidenceWeight : ℕ := 30

def nonSubstantivePaddingWeight : ℕ := 30

def emptyDescriptionWeight : ℕ := 15

def lowQualityCommitMessageWeight : ℕ := 15

def duplicateClusterMembershipWeight : ℕ := 15

def noLinkedIssueWithoutRationaleWeight : ℕ := 15

end Weights

def MIN_CHURN_LINES : ℕ := 40

def MAX_SOURCE_LINE_SHARE : ℚ := 15 / 100

def PADDING_DOMINANCE_SHARE : ℚ := 1 / 2

/-- A missing count, one that is not finite and one below zero count as zero. -/
def nonNegative : Option JsNumber → ℕ
  | some (.finite value) => ⌊value⌋₊
  | _ => 0

def SlopChangedFile.lines (file : SlopChangedFile) : ℕ :=
  nonNegative file.additions + nonNegative file.deletions

def totalLines (files : List SlopChangedFile) : ℕ := (files.map SlopChangedFile.lines).sum

def ensurePublicSafeText (text fallback : String) : String :=
  if ManifestParsing.isFocusManifestPublicSafe (CodeUnits.units text) then text else fallback

section Signals

structure PaddingLines where
  changedLineCount : ℕ := 0
  paddingLineCount : ℕ := 0
  substantiveLineCount : ℕ := 0
  deriving DecidableEq, Repr

/-- One round of the loop over the changed files. -/
def PaddingLines.add (totals : PaddingLines) (file : SlopChangedFile) : PaddingLines :=
  if file.lines = 0 then totals
  else
    let counted := { totals with changedLineCount := totals.changedLineCount + file.lines }
    let category := classifyChangedFile file.path
    if category.isPadding then
      { counted with paddingLineCount := totals.paddingLineCount + file.lines }
    else if category.isSubstantive then
      { counted with substantiveLineCount := totals.substantiveLineCount + file.lines }
    else counted

def summarizePaddingLines (changedFiles : List SlopChangedFile) : PaddingLines :=
  changedFiles.foldl PaddingLines.add {}

def buildPaddingFinding (changedLineCount paddingLineCount : ℕ) : SlopFinding where
  signal := .nonSubstantivePadding
  title := "Diff is mostly generated, vendored, or minified output"
  detail := toString paddingLineCount ++ " of " ++ toString changedLineCount ++
    " changed line(s) are in generated, vendored, or minified files with little substantive source."
  action := "Exclude generated, vendored, and minified output and keep the diff focused on " ++
    "substantive changes."

def buildNonSubstantivePaddingFinding (input : SlopAssessmentInput) : Option SlopFinding :=
  let totals := summarizePaddingLines (input.changedFiles.getD [])
  if totals.changedLineCount < MIN_CHURN_LINES then none
  else if totals.paddingLineCount = 0 then none
  else if (totals.paddingLineCount : ℚ) / totals.changedLineCount < PADDING_DOMINANCE_SHARE then
    none
  else if MAX_SOURCE_LINE_SHARE < (totals.substantiveLineCount : ℚ) / totals.changedLineCount then
    none
  else some (buildPaddingFinding totals.changedLineCount totals.paddingLineCount)

def buildEmptyDescriptionFinding (input : SlopAssessmentInput) : Option SlopFinding :=
  let codeFileCount := ((input.changedFiles.getD []).filter
    (fun file => !file.path.isEmpty && isCodeFile file.path)).length
  if codeFileCount = 0 then none
  else if 0 < (trimText (input.description.getD [])).length then none
  else some {
    signal := .emptyPrDescription
    title := "Code change has no description"
    detail := ensurePublicSafeText
      (toString codeFileCount ++ " code file(s) changed with an empty pull request description.")
      "Code changed with an empty pull request description."
    action := "Describe what changed and why so reviewers can evaluate it." }

open Pattern in
/-- A single low-effort word that is the whole subject. -/
def GENERIC_COMMIT_PATTERN : Pattern :=
  seqs [.start,
    alts [
      seqs [alts [literalNoCase "wip",
        seqs [literalNoCase "fix", opt (anyNoCase ["es", "ed", "ing"])],
        seqs [literalNoCase "updat", anyNoCase ["e", "es", "ed", "ing"]],
        seqs [literalNoCase "change", opt (anyNoCase ["s", "d"])],
        seqs [literalNoCase "edit", opt (anyNoCase ["s", "d"])], literalNoCase "patch",
        literalNoCase "minor", seqs [literalNoCase "tweak", opt (anyNoCase ["s", "d"])],
        literalNoCase "misc", literalNoCase "cleanup", literalNoCase "chore",
        literalNoCase "stuff", literalNoCase "temp", literalNoCase "tmp", literalNoCase "test",
        literalNoCase "final", literalNoCase "done", literalNoCase "commit",
        seqs [literalNoCase "asd", plus (eitherCase 'f')]], .wordBoundary],
      plus (literal ".")],
    .star (.char ⟨false, ('.', '.') :: ('!', '!') :: spaceSet.ranges⟩), .stop]

def buildLowQualityCommitMessageFinding (input : SlopAssessmentInput) : Option SlopFinding :=
  match input.commitMessages with
  | none | some [] => none
  | some messages =>
      let primary := ((messages.map trimText).filter (fun message => 0 < message.length)).head?
      if primary.any (fun subject => !test GENERIC_COMMIT_PATTERN subject) then none
      else some {
        signal := .lowQualityCommitMessage
        title := "Commit message is generic or empty"
        detail :=
          if primary = none then "The commit message is empty."
          else "The commit message is generic (e.g. wip / fix / update) with no specific detail."
        action := "Write a specific commit subject that names what changed and why " ++
          "(a Conventional Commit like 'feat(api): add cursor pagination' works well)." }

def buildDuplicateClusterFinding (input : SlopAssessmentInput) : Option SlopFinding :=
  if input.inDuplicateCluster ≠ some true then none
  else some {
    signal := .duplicateClusterMembership
    title := "Pull request duplicates other open work"
    detail := "This pull request overlaps a high-risk cluster of other open pull requests doing " ++
      "similar work."
    action := "Check for an existing pull request or issue covering this change and coordinate " ++
      "or consolidate before continuing." }

/-- The rationale is looked for in the title and the body, here with an empty title. -/
def hasClearNoIssueRationale (title body : Text) : Bool :=
  test ReadinessScore.noIssueRationalePattern (title ++ ' ' :: body)

def buildNoLinkedIssueRationaleFinding (input : SlopAssessmentInput) : Option SlopFinding :=
  if input.hasLinkedIssue ≠ some false then none
  else if input.issueDiscoveryLane = some true then none
  else if hasClearNoIssueRationale [] (input.description.getD []) then none
  else some {
    signal := .noLinkedIssueWithoutRationale
    title := "No linked issue and no rationale"
    detail := "This pull request links no issue and gives no rationale for working without one."
    action := "Link the issue this addresses, or explain in the description why no issue applies " ++
      "(e.g. a typo, docs-only, or maintenance change)." }

def hasLocalTestEvidence (tests testFiles : Option (List Text)) : Bool :=
  0 < (tests.getD []).length || (testFiles.getD []).any isTestPath

def buildMissingTestEvidenceFinding (input : SlopAssessmentInput) : Option SlopFinding :=
  let changedPaths := ((input.changedFiles.getD []).map SlopChangedFile.path).filter
    (fun path => !path.isEmpty)
  let codePaths := changedPaths.filter isCodeFile
  if codePaths.length = 0 then none
  else if changedPaths.any (fun path => isTestFile path || isTestPath path) ||
      hasLocalTestEvidence input.tests input.testFiles then none
  else some {
    signal := .missingTestEvidence
    title := "Code changes lack test evidence"
    detail := ensurePublicSafeText
      ("Changed paths include " ++ toString codePaths.length ++
        " code file(s) without accompanying test evidence.")
      "Code changes were detected without accompanying test evidence."
    action := ensurePublicSafeText
      "Add focused regression tests or explain why existing coverage is sufficient."
      "Add focused tests or explain why existing coverage is sufficient." }

structure ChangedLines where
  changedLineCount : ℕ
  sourceLineCount : ℕ
  testLineCount : ℕ
  nonCodeLineCount : ℕ
  deriving DecidableEq, Repr

def summarizeChangedLines (changedFiles : List SlopChangedFile) : ChangedLines :=
  let changedLineCount := totalLines changedFiles
  let sourceLineCount := totalLines (changedFiles.filter (fun file => isCodeFile file.path))
  let testLineCount := totalLines (changedFiles.filter (fun file => isTestFile file.path))
  { changedLineCount, sourceLineCount, testLineCount,
    nonCodeLineCount := changedLineCount - sourceLineCount - testLineCount }

def buildTrivialChurnFinding (changedLineCount nonCodeLineCount : ℕ) : SlopFinding where
  signal := .trivialWhitespaceChurn
  title := "Diff looks like trivial or whitespace-only churn"
  detail := ensurePublicSafeText
    ("The diff churns " ++ toString changedLineCount ++ " line(s) with only " ++
      toString (changedLineCount - nonCodeLineCount) ++ " substantive source line(s) touched.")
    "The diff shows high churn with minimal substantive source changes."
  action := ensurePublicSafeText
    ("Reduce whitespace-only or formatting-only churn and keep the diff focused on " ++
      "substantive changes.")
    "Reduce formatting-only churn and keep the diff focused on substantive changes."

def buildTrivialWhitespaceChurnFinding (input : SlopAssessmentInput) : Option SlopFinding :=
  let totals := summarizeChangedLines (input.changedFiles.getD [])
  if totals.changedLineCount < MIN_CHURN_LINES then none
  else if totals.sourceLineCount = 0 then
    some (buildTrivialChurnFinding totals.changedLineCount totals.nonCodeLineCount)
  else if MAX_SOURCE_LINE_SHARE < (totals.sourceLineCount : ℚ) / totals.changedLineCount then none
  else some (buildTrivialChurnFinding totals.changedLineCount totals.nonCodeLineCount)

end Signals

def slopBandFor (slopRisk : ℕ) : SlopBand :=
  if slopRisk ≤ 0 then .clean
  else if slopRisk < 25 then .low
  else if slopRisk < 60 then .elevated
  else .high

def weightOf (weight : ℕ) (finding : Option SlopFinding) : ℕ := if finding.isSome then weight else 0

def buildSlopAssessment (input : SlopAssessmentInput) : SlopAssessment :=
  let trivialChurnFinding := buildTrivialWhitespaceChurnFinding input
  let missingTestEvidenceFinding := buildMissingTestEvidenceFinding input
  let nonSubstantivePaddingFinding := buildNonSubstantivePaddingFinding input
  let emptyDescriptionFinding := buildEmptyDescriptionFinding input
  let lowQualityCommitMessageFinding := buildLowQualityCommitMessageFinding input
  let duplicateClusterFinding := buildDuplicateClusterFinding input
  let noLinkedIssueRationaleFinding := buildNoLinkedIssueRationaleFinding input
  let slopRisk := min 100 (weightOf trivialWhitespaceChurnWeight trivialChurnFinding +
    weightOf missingTestEvidenceWeight missingTestEvidenceFinding +
    weightOf nonSubstantivePaddingWeight nonSubstantivePaddingFinding +
    weightOf emptyDescriptionWeight emptyDescriptionFinding +
    weightOf lowQualityCommitMessageWeight lowQualityCommitMessageFinding +
    weightOf duplicateClusterMembershipWeight duplicateClusterFinding +
    weightOf noLinkedIssueWithoutRationaleWeight noLinkedIssueRationaleFinding)
  { slopRisk
    band := slopBandFor slopRisk
    findings := [trivialChurnFinding, missingTestEvidenceFinding, nonSubstantivePaddingFinding,
      emptyDescriptionFinding, lowQualityCommitMessageFinding, duplicateClusterFinding,
      noLinkedIssueRationaleFinding].reduceOption }

section Totals

variable (files more : List SlopChangedFile)

@[simp]
theorem totalLines_append : totalLines (files ++ more) = totalLines files + totalLines more := by
  simp [totalLines]

theorem totalLines_filter_cons (keep : SlopChangedFile → Bool) (file : SlopChangedFile) :
    totalLines ((file :: files).filter keep) =
      (if keep file then file.lines else 0) + totalLines (files.filter keep) := by
  rw [List.filter_cons]
  split_ifs <;> simp [totalLines]

def isPaddingFile (file : SlopChangedFile) : Bool := (classifyChangedFile file.path).isPadding

def isSubstantiveFile (file : SlopChangedFile) : Bool :=
  (classifyChangedFile file.path).isSubstantive

theorem PaddingLines.add_eq (totals : PaddingLines) (file : SlopChangedFile) :
    totals.add file =
      ⟨totals.changedLineCount + file.lines,
        totals.paddingLineCount + (if isPaddingFile file then file.lines else 0),
        totals.substantiveLineCount + (if isSubstantiveFile file then file.lines else 0)⟩ := by
  unfold PaddingLines.add isPaddingFile isSubstantiveFile
  by_cases hlines : file.lines = 0
  · simp [hlines]
  · rw [if_neg hlines]
    cases classifyChangedFile file.path <;>
      simp [ChangedFileCategory.isPadding, ChangedFileCategory.isSubstantive]

/-- The loop adds up the lines of each kind of file. -/
theorem foldl_add (totals : PaddingLines) :
    files.foldl PaddingLines.add totals =
      ⟨totals.changedLineCount + totalLines files,
        totals.paddingLineCount + totalLines (files.filter isPaddingFile),
        totals.substantiveLineCount + totalLines (files.filter isSubstantiveFile)⟩ := by
  induction files generalizing totals with
  | nil => simp [totalLines]
  | cons file rest ih =>
    rw [List.foldl_cons, ih, PaddingLines.add_eq, totalLines_filter_cons, totalLines_filter_cons]
    simp only [totalLines, List.map_cons, List.sum_cons, Nat.add_assoc]

theorem summarizePaddingLines_eq :
    summarizePaddingLines files =
      ⟨totalLines files, totalLines (files.filter isPaddingFile),
        totalLines (files.filter isSubstantiveFile)⟩ := by
  rw [summarizePaddingLines, foldl_add]
  simp only [Nat.zero_add]

end Totals

/-! ## Appended test files -/

def SlopAssessmentInput.withFiles (input : SlopAssessmentInput) (files : List SlopChangedFile) :
    SlopAssessmentInput :=
  { input with changedFiles := some (input.changedFiles.getD [] ++ files) }

section Thresholds

/-- The four guards of the padding signal, on the totals of a diff. -/
def TripsPadding (files : List SlopChangedFile) : Prop :=
  MIN_CHURN_LINES ≤ totalLines files ∧ totalLines (files.filter isPaddingFile) ≠ 0 ∧
    PADDING_DOMINANCE_SHARE ≤ (totalLines (files.filter isPaddingFile) : ℚ) / totalLines files ∧
    (totalLines (files.filter isSubstantiveFile) : ℚ) / totalLines files ≤ MAX_SOURCE_LINE_SHARE

theorem paddingFinding_isSome (input : SlopAssessmentInput) :
    (buildNonSubstantivePaddingFinding input).isSome = true ↔
      TripsPadding (input.changedFiles.getD []) := by
  unfold buildNonSubstantivePaddingFinding TripsPadding
  simp only [summarizePaddingLines_eq]
  split_ifs with hchurn hpadding hshare hsubstantive
  · simp [hchurn]
  · simp [hpadding]
  · simp [hshare]
  · simp [hsubstantive]
  · simp only [Option.isSome_some, true_iff]
    exact ⟨not_lt.mp hchurn, hpadding, not_lt.mp hshare, not_lt.mp hsubstantive⟩

/-- The guards of the churn signal. -/
def TripsChurn (files : List SlopChangedFile) : Prop :=
  MIN_CHURN_LINES ≤ totalLines files ∧
    (totalLines (files.filter (fun file => isCodeFile file.path)) : ℚ) / totalLines files ≤
      MAX_SOURCE_LINE_SHARE

theorem churnFinding_isSome (input : SlopAssessmentInput) :
    (buildTrivialWhitespaceChurnFinding input).isSome = true ↔
      TripsChurn (input.changedFiles.getD []) := by
  unfold buildTrivialWhitespaceChurnFinding TripsChurn
  dsimp only [summarizeChangedLines]
  split_ifs with hchurn hsource hshare
  · simp [hchurn]
  · simp only [Option.isSome_some, true_iff, hsource, Nat.cast_zero, zero_div]
    exact ⟨not_lt.mp hchurn, by norm_num [MAX_SOURCE_LINE_SHARE]⟩
  · simp [hshare]
  · simp only [Option.isSome_some, true_iff]
    exact ⟨not_lt.mp hchurn, not_lt.mp hshare⟩

variable {files tests : List SlopChangedFile}

/-- Test lines count in the total and in no source line, so the churn signal stays. -/
theorem TripsChurn.append (htests : ∀ file ∈ tests, isTestFile file.path = true)
    (h : TripsChurn files) : TripsChurn (files ++ tests) := by
  obtain ⟨hmin, hshare⟩ := h
  have hcode : tests.filter (fun file => isCodeFile file.path) = [] := by
    rw [List.filter_eq_nil_iff]
    intro file hfile
    rw [isCodeFile_of_isTestFile (htests file hfile)]
    exact Bool.false_ne_true
  unfold TripsChurn
  rw [List.filter_append, hcode, List.append_nil, totalLines_append]
  refine ⟨hmin.trans (Nat.le_add_right _ _), le_trans ?_ hshare⟩
  have hpos : (0 : ℚ) < totalLines files := by
    exact_mod_cast lt_of_lt_of_le (by decide : 0 < MIN_CHURN_LINES) hmin
  apply div_le_div_of_nonneg_left (by positivity) hpos
  exact_mod_cast Nat.le_add_right _ _

/-- Files that all count as tests cannot trip the padding signal of a diff that is long
enough for it already. -/
theorem TripsPadding.of_append (hmin : MIN_CHURN_LINES ≤ totalLines files)
    (htests : ∀ file ∈ tests, classifyChangedFile file.path = .test)
    (h : TripsPadding (files ++ tests)) : TripsPadding files := by
  have hpadding : tests.filter isPaddingFile = [] := by
    rw [List.filter_eq_nil_iff]
    intro file hfile
    rw [isPaddingFile, htests file hfile]
    exact Bool.false_ne_true
  have hsubstantive : tests.filter isSubstantiveFile = tests := by
    rw [List.filter_eq_self]
    intro file hfile
    rw [isSubstantiveFile, htests file hfile]
    rfl
  unfold TripsPadding at h
  rw [List.filter_append, List.filter_append, hpadding, hsubstantive, List.append_nil,
    totalLines_append, totalLines_append] at h
  obtain ⟨-, hsome, hdominates, hsource⟩ := h
  have hpos : (0 : ℚ) < totalLines files := by
    exact_mod_cast lt_of_lt_of_le (by decide : 0 < MIN_CHURN_LINES) hmin
  have hmore : (0 : ℚ) ≤ totalLines tests := Nat.cast_nonneg _
  have hsum : (0 : ℚ) < ((totalLines files + totalLines tests : ℕ) : ℚ) := by
    push_cast
    linarith
  rw [le_div_iff₀ hsum] at hdominates
  rw [div_le_iff₀ hsum] at hsource
  push_cast at hdominates hsource
  refine ⟨hmin, hsome, ?_, ?_⟩
  · rw [le_div_iff₀ hpos]
    unfold PADDING_DOMINANCE_SHARE at hdominates ⊢
    linarith
  · rw [div_le_iff₀ hpos]
    unfold MAX_SOURCE_LINE_SHARE at hsource ⊢
    linarith

end Thresholds

section Score

variable (input : SlopAssessmentInput) {tests : List SlopChangedFile}

theorem emptyDescription_withFiles (htests : ∀ file ∈ tests, isTestFile file.path = true) :
    buildEmptyDescriptionFinding (input.withFiles tests) = buildEmptyDescriptionFinding input := by
  have hcode : tests.filter (fun file => !file.path.isEmpty && isCodeFile file.path) = [] := by
    rw [List.filter_eq_nil_iff]
    intro file hfile
    rw [isCodeFile_of_isTestFile (htests file hfile), Bool.and_false]
    exact Bool.false_ne_true
  unfold buildEmptyDescriptionFinding SlopAssessmentInput.withFiles
  simp only [Option.getD_some, List.filter_append, hcode, List.append_nil]

/-- One changed test file is test evidence. -/
theorem missingTestEvidence_withFiles (htests : ∀ file ∈ tests, isTestFile file.path = true)
    (hne : tests ≠ []) : buildMissingTestEvidenceFinding (input.withFiles tests) = none := by
  obtain ⟨file, rest, rfl⟩ := List.exists_cons_of_ne_nil hne
  have hfile := htests file (List.mem_cons_self ..)
  have hpath := ne_nil_of_isTestFile hfile
  unfold buildMissingTestEvidenceFinding SlopAssessmentInput.withFiles
  simp only [Option.getD_some]
  split_ifs with hcode hevidence
  · rfl
  · rfl
  · exfalso
    apply hevidence
    rw [Bool.or_eq_true, List.any_eq_true]
    refine Or.inl ⟨file.path, ?_, by rw [hfile, Bool.true_or]⟩
    simp [hpath]

/-- What the four signals add that appended test files leave as they are. -/
def fixedWeight : ℕ :=
  weightOf emptyDescriptionWeight (buildEmptyDescriptionFinding input) +
    weightOf lowQualityCommitMessageWeight (buildLowQualityCommitMessageFinding input) +
    weightOf duplicateClusterMembershipWeight (buildDuplicateClusterFinding input) +
    weightOf noLinkedIssueWithoutRationaleWeight (buildNoLinkedIssueRationaleFinding input)

theorem weightOf_le (weight : ℕ) (finding : Option SlopFinding) : weightOf weight finding ≤ weight := by
  unfold weightOf
  split_ifs
  · exact le_rfl
  · exact Nat.zero_le _

theorem fixedWeight_le : fixedWeight input ≤ 60 :=
  Nat.add_le_add (Nat.add_le_add (Nat.add_le_add (weightOf_le _ _) (weightOf_le _ _))
    (weightOf_le _ _)) (weightOf_le _ _)

theorem fixedWeight_withFiles (htests : ∀ file ∈ tests, isTestFile file.path = true) :
    fixedWeight (input.withFiles tests) = fixedWeight input := by
  unfold fixedWeight
  rw [emptyDescription_withFiles input htests]
  rfl

theorem slopRisk_eq :
    (buildSlopAssessment input).slopRisk =
      min 100 (weightOf 30 (buildTrivialWhitespaceChurnFinding input) +
        weightOf 30 (buildMissingTestEvidenceFinding input) +
        weightOf 30 (buildNonSubstantivePaddingFinding input) + fixedWeight input) := by
  unfold buildSlopAssessment fixedWeight
  simp only [Nat.add_assoc]
  rfl

/-- The appended files bring the padding signal that the diff did not have. -/
def NewlyPadded (input : SlopAssessmentInput) (tests : List SlopChangedFile) : Prop :=
  (buildNonSubstantivePaddingFinding (input.withFiles tests)).isSome = true ∧
    buildNonSubstantivePaddingFinding input = none

theorem newlyPadded_cases (h : NewlyPadded input tests) :
    totalLines (input.changedFiles.getD []) < MIN_CHURN_LINES ∨
      ∃ file ∈ tests, classifyChangedFile file.path ≠ .test := by
  obtain ⟨hafter, hbefore⟩ := h
  rcases Nat.lt_or_ge (totalLines (input.changedFiles.getD [])) MIN_CHURN_LINES with hless | hmin
  · exact Or.inl hless
  refine Or.inr ?_
  by_contra hall
  push Not at hall
  have htrips := (paddingFinding_isSome _).mp hafter
  have hsome := (paddingFinding_isSome input).mpr (TripsPadding.of_append hmin hall htrips)
  rw [hbefore] at hsome
  exact Bool.false_ne_true hsome

theorem weightOf_none (weight : ℕ) : weightOf weight none = 0 := rfl

theorem weightOf_some (weight : ℕ) (finding : SlopFinding) :
    weightOf weight (some finding) = weight := rfl

theorem withFiles_nil (input : SlopAssessmentInput) :
    buildMissingTestEvidenceFinding (input.withFiles []) = buildMissingTestEvidenceFinding input ∧
      buildNonSubstantivePaddingFinding (input.withFiles []) =
        buildNonSubstantivePaddingFinding input := by
  unfold buildMissingTestEvidenceFinding buildNonSubstantivePaddingFinding
    SlopAssessmentInput.withFiles
  simp only [Option.getD_some, List.append_nil, and_self]

/-- Appended test files leave the churn signal as it is or bring it. -/
theorem churnWeight_withFiles (htests : ∀ file ∈ tests, isTestFile file.path = true)
    (hchurn : (buildTrivialWhitespaceChurnFinding (input.withFiles tests)).isSome = true →
      (buildTrivialWhitespaceChurnFinding input).isSome = true) :
    weightOf 30 (buildTrivialWhitespaceChurnFinding (input.withFiles tests)) =
      weightOf 30 (buildTrivialWhitespaceChurnFinding input) := by
  have hiff : (buildTrivialWhitespaceChurnFinding (input.withFiles tests)).isSome =
      (buildTrivialWhitespaceChurnFinding input).isSome := by
    rw [Bool.eq_iff_iff]
    refine ⟨hchurn, fun hbefore => ?_⟩
    apply (churnFinding_isSome _).mpr
    exact ((churnFinding_isSome input).mp hbefore).append htests
  rw [weightOf, hiff, weightOf]

/-- Test files that do not bring the churn signal raise the score only when they bring the
padding signal and there was no missing test evidence to make up for. -/
theorem slopRisk_withFiles_le_iff (htests : ∀ file ∈ tests, isTestFile file.path = true)
    (hchurn : (buildTrivialWhitespaceChurnFinding (input.withFiles tests)).isSome = true →
      (buildTrivialWhitespaceChurnFinding input).isSome = true) :
    ((buildSlopAssessment (input.withFiles tests)).slopRisk ≤
        (buildSlopAssessment input).slopRisk ↔
      (NewlyPadded input tests → (buildMissingTestEvidenceFinding input).isSome = true)) ∧
    (NewlyPadded input tests → totalLines (input.changedFiles.getD []) < MIN_CHURN_LINES ∨
      ∃ file ∈ tests, classifyChangedFile file.path ≠ .test) := by
  refine ⟨?_, newlyPadded_cases input⟩
  have hfixed := fixedWeight_le input
  have hweight := weightOf_le 30 (buildTrivialWhitespaceChurnFinding input)
  rw [slopRisk_eq, slopRisk_eq, churnWeight_withFiles input htests hchurn,
    fixedWeight_withFiles input htests]
  by_cases hnil : tests = []
  · obtain ⟨hmissing, hpadding⟩ := withFiles_nil input
    subst hnil
    rw [hmissing, hpadding]
    refine iff_of_true le_rfl ?_
    rintro ⟨hafter, hbefore⟩
    rw [hpadding, hbefore] at hafter
    exact absurd hafter Bool.false_ne_true
  rw [missingTestEvidence_withFiles input htests hnil, weightOf_none]
  unfold NewlyPadded
  cases hafter : buildNonSubstantivePaddingFinding (input.withFiles tests) with
  | none =>
    rw [weightOf_none]
    refine iff_of_true (by omega) ?_
    rintro ⟨habsurd, -⟩
    exact absurd habsurd Bool.false_ne_true
  | some padding =>
    rw [weightOf_some]
    cases hbefore : buildNonSubstantivePaddingFinding input with
    | some other =>
      rw [weightOf_some]
      refine iff_of_true (by omega) ?_
      rintro ⟨-, habsurd⟩
      exact absurd habsurd (Option.some_ne_none _)
    | none =>
      -- The new padding weight is paid for only by the missing test evidence that went.
      cases hmissing : buildMissingTestEvidenceFinding input with
      | none =>
        rw [weightOf_none]
        refine iff_of_false (by omega) ?_
        exact fun hpaid => absurd (hpaid ⟨rfl, rfl⟩) Bool.false_ne_true
      | some missing =>
        rw [weightOf_some, weightOf_none]
        exact iff_of_true (by omega) fun _ => rfl

end Score

def docsDiff : SlopAssessmentInput :=
  { changedFiles := some [⟨"README.md".toList, some (.finite 50), none⟩] }

def vendoredTests : List SlopChangedFile :=
  [⟨"vendor/zlib/test/suite.js".toList, some (.finite 60), none⟩]

/-- Vendored tests are padding: the score of the documentation diff goes from 30 to 60. -/
theorem vendored_tests_raise :
    ¬ ∀ (input : SlopAssessmentInput) (tests : List SlopChangedFile),
      (∀ file ∈ tests, isTestFile file.path = true) →
        (buildSlopAssessment (input.withFiles tests)).slopRisk ≤
          (buildSlopAssessment input).slopRisk := by
  intro hall
  have hle := hall docsDiff vendoredTests (List.all_eq_true.mp (by decide +kernel))
  exact absurd hle (by decide +kernel)

theorem slopRisk_vendoredTests :
    ((buildSlopAssessment (docsDiff.withFiles vendoredTests)).slopRisk ≤
        (buildSlopAssessment docsDiff).slopRisk ↔
      (NewlyPadded docsDiff vendoredTests →
        (buildMissingTestEvidenceFinding docsDiff).isSome = true)) ∧
    (NewlyPadded docsDiff vendoredTests →
      totalLines (docsDiff.changedFiles.getD []) < MIN_CHURN_LINES ∨
        ∃ file ∈ vendoredTests, classifyChangedFile file.path ≠ .test) :=
  slopRisk_withFiles_le_iff docsDiff (List.all_eq_true.mp (by decide +kernel))
    (fun _ => by decide +kernel)

end Gittensory.SlopScore
