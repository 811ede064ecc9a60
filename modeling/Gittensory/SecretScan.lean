import Gittensory.AdvisoryGate
import Gittensory.PullRequestFiles

/-!
The secret scan of a pull request (`review/secrets-scan.ts`, `review/safety.ts`): seven
patterns, of which five are concrete credential formats that block, run over the diff
that is built for the AI reviewer. That diff stops at the first file that does not fit
its bound, and the scan covers exactly the files before it.
-/
namespace Gittensory.SecretScan

open AdvisoryGate JsValue PullRequestFiles TextPattern

def alphaNum : List (Char × Char) := [('A', 'Z'), ('a', 'z'), ('0', '9')]

def oneOf (ranges : List (Char × Char)) : Pattern := .char ⟨false, ranges⟩

def letters (choices : String) : Pattern := oneOf (choices.toList.map (fun c => (c, c)))

def secretPatterns : List (String × Pattern) :=
  [("github_token", .seqs [.wordBoundary, .literal "gh", letters "pousr", .literal "_",
      .atLeast 20 (oneOf alphaNum), .wordBoundary]),
    ("github_pat", .seqs [.wordBoundary, .literal "github_pat_",
      .atLeast 20 (oneOf (alphaNum ++ [('_', '_')])), .wordBoundary]),
    ("private_key_block", .seqs [.literal "-----BEGIN",
      .opt (.alts [.literal " RSA", .literal " EC", .literal " OPENSSH", .literal " PGP",
        .literal " DSA"]), .literal " PRIVATE KEY-----"]),
    ("aws_access_key", .seqs [.wordBoundary, .literal "AKIA",
      .times 16 (oneOf [('0', '9'), ('A', 'Z')]), .wordBoundary]),
    ("slack_token", .seqs [.wordBoundary, .literal "xox", letters "baprs", .literal "-",
      .atLeast 10 (oneOf (alphaNum ++ [('-', '-')])), .wordBoundary]),
    ("seed_or_mnemonic", .seqs [.wordBoundary,
      .alts [.literalNoCase "seed phrase", .literalNoCase "mnemonic"], .wordBoundary]),
    ("bittensor_key", .seqs [.wordBoundary,
      .alts [.literalNoCase "hot", .literalNoCase "cold"], .literalNoCase "key", .wordBoundary,
      .star (.char spaceSet), letters ":="])]

structure SecretScanResult where
  found : Bool
  kinds : List String
  deriving DecidableEq, Repr

def scanForSecrets (text : String) : SecretScanResult :=
  if text = "" then ⟨false, []⟩
  else
    let kinds := (secretPatterns.filter (fun pattern => test pattern.2 text.toList)).map Prod.fst
    ⟨0 < kinds.length, kinds⟩

def hardSecretKinds : List String :=
  ["github_token", "github_pat", "private_key_block", "aws_access_key", "slack_token"]

def secretLeakFinding (diff : String) : Option AdvisoryFinding :=
  let kinds := (scanForSecrets diff).kinds.filter (fun kind => kind ∈ hardSecretKinds)
  if kinds.length = 0 then none
  else some
    { code := "secret_leak"
      severity := .critical
      title := "Possible leaked secret in the diff (" ++ ", ".intercalate kinds ++ ")"
      detail := "The PR diff matches secret pattern(s): " ++ ", ".intercalate kinds ++
        ". A committed credential must be rotated and removed from the change before merge."
      action := some
        "Remove the secret from the diff, rotate the exposed credential, then re-run the gate."
      publicText := none }

theorem secretLeakFinding_code {diff : String} {finding : AdvisoryFinding}
    (h : secretLeakFinding diff = some finding) : finding.code = "secret_leak" := by
  unfold secretLeakFinding at h
  dsimp only at h
  split_ifs at h
  rw [Option.some.injEq] at h
  rw [← h]

/-! ## The bounded diff -/

def maxDiffChars : ℕ := 60000

def storedPatch (file : PullRequestFileRecord) : String := file.patch.getD ""

def fileHeader (file : PullRequestFileRecord) : String :=
  "### " ++ file.path ++
    (if truthy file.status then " (" ++ file.status.getD "" ++ ")" else "") ++
    " +" ++ toString file.additions ++ "/-" ++ toString file.deletions

def fileBlock (file : PullRequestFileRecord) : String :=
  if storedPatch file ≠ "" then fileHeader file ++ "\n" ++ storedPatch file else fileHeader file

def truncationMarker (count : ℕ) : String :=
  "… diff truncated (" ++ toString count ++ " files total)."

/-- The loop over the files; it stops at the first block that does not fit. -/
def diffParts (count : ℕ) : ℕ → List PullRequestFileRecord → List String
  | _, [] => []
  | total, file :: rest =>
      let block := fileBlock file
      if maxDiffChars < total + jsLength block then [truncationMarker count]
      else block :: diffParts count (total + jsLength block) rest

def buildAiReviewDiff (files : List PullRequestFileRecord) : String :=
  "\n\n".intercalate (diffParts files.length 0 files)

/-! ## The scan in the review -/

structure SafetyEnv where
  reviewSafety : Option String
  reviewRepos : Option String

def isSafetyEnabled (env : SafetyEnv) : Bool :=
  test (.seqs [.start, .alts [.literalNoCase "1", .literalNoCase "true", .literalNoCase "yes",
    .literalNoCase "on"], .stop]) (env.reviewSafety.getD "").toList

def isConvergenceRepoAllowed (env : SafetyEnv) (repoFullName : String) : Bool :=
  let target := toLowerCase (trim repoFullName)
  if target = "" then false
  else ((env.reviewRepos.getD "").toList.splitOn ',').any (fun entry =>
    let candidate := toLowerCase (trim (String.ofList entry))
    candidate ≠ "" ∧ candidate = target)

structure SecretLeakArgs where
  advisory : Advisory
  repoFullName : String
  pullNumber : ℕ
  files : Option (List PullRequestFileRecord)

/-- `args.files ?? await listPullRequestFiles(...)`; `none` is a failing load. -/
def scannedFiles (args : SecretLeakArgs) (table : Option FileTable) :
    Option (List PullRequestFileRecord) :=
  match args.files with
  | some files => some files
  | none => table.map (fun rows => listPullRequestFiles rows args.repoFullName args.pullNumber)

def maybeAddSecretLeakFinding (env : SafetyEnv) (args : SecretLeakArgs)
    (table : Option FileTable) : Advisory :=
  if isSafetyEnabled env = false ∨ isConvergenceRepoAllowed env args.repoFullName = false then
    args.advisory
  else match (scannedFiles args table).bind (fun files =>
      secretLeakFinding (buildAiReviewDiff files)) with
    | none => args.advisory
    | some finding =>
        { args.advisory with findings := args.advisory.findings ++ [finding] }

/-! ## What leaks -/

/-- A concrete credential format occurs in the text. -/
def Leaks (text : String) : Prop := (secretLeakFinding text).isSome = true

instance (text : String) : Decidable (Leaks text) :=
  inferInstanceAs (Decidable ((secretLeakFinding text).isSome = true))

def hardPatterns : List Pattern :=
  (secretPatterns.filter (fun pattern => pattern.1 ∈ hardSecretKinds)).map Prod.snd

/-- No credential format has an anchor or reads across lines. -/
theorem hardPatterns_within_line :
    ∀ p ∈ hardPatterns, anchorFree p = true ∧ avoids '\n' p = true := by
  decide

/-- Every credential format contains a letter that no truncation marker has. -/
theorem hardPatterns_need :
    ∀ p ∈ hardPatterns, needs '_' p = true ∨ needs '-' p = true ∨ needs 'K' p = true := by
  decide

theorem hardPatterns_test_nil : ∀ p ∈ hardPatterns, test p [] = false := by
  decide

theorem leaks_iff (text : String) : Leaks text ↔ ∃ p ∈ hardPatterns, test p text.toList = true := by
  unfold Leaks secretLeakFinding scanForSecrets
  by_cases hempty : text = ""
  · subst hempty
    simp only [if_true, List.filter_nil, List.length_nil, Option.isSome_none,
      Bool.false_eq_true, false_iff, not_exists, not_and]
    intro p hp
    simp [hardPatterns_test_nil p hp]
  · simp only [if_neg hempty, hardPatterns]
    constructor
    · intro h
      split_ifs at h with hnone
      · simp at h
      · obtain ⟨kind, hkind⟩ := List.exists_mem_of_length_pos (Nat.pos_of_ne_zero hnone)
        obtain ⟨hmem, hhard⟩ := List.mem_filter.mp hkind
        obtain ⟨pattern, hpattern, rfl⟩ := List.mem_map.mp hmem
        obtain ⟨hlisted, htest⟩ := List.mem_filter.mp hpattern
        exact ⟨pattern.2, List.mem_map_of_mem (List.mem_filter.mpr ⟨hlisted, hhard⟩), htest⟩
    · intro h
      obtain ⟨p, hp, htest⟩ := h
      obtain ⟨pattern, hpattern, rfl⟩ := List.mem_map.mp hp
      obtain ⟨hlisted, hhard⟩ := List.mem_filter.mp hpattern
      have hkind : pattern.1 ∈ ((secretPatterns.filter (fun pattern =>
          test pattern.2 text.toList)).map Prod.fst).filter (fun kind => kind ∈ hardSecretKinds) :=
        List.mem_filter.mpr
          ⟨List.mem_map_of_mem (List.mem_filter.mpr ⟨hlisted, htest⟩), hhard⟩
      rw [if_neg (Nat.ne_of_gt (List.length_pos_of_mem hkind))]
      rfl

end Gittensory.SecretScan
