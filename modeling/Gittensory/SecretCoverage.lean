import Gittensory.SecretScan

/-!
What the secret scan covers. No credential format reads across lines, so the scan of the
bounded diff is the scan of the headers and patches of the files that fit, and the
truncation marker adds nothing. A leak behind the first file that does not fit is missed
unless one before it is found.
-/
namespace Gittensory.SecretCoverage

open AdvisoryGate JsValue PullRequestFiles SecretScan TextPattern

theorem test_newline {p : Pattern} (hp : p ∈ hardPatterns) (a b : Text) :
    test p (a ++ '\n' :: b) = true ↔ test p a = true ∨ test p b = true := by
  obtain ⟨hfree, havoid⟩ := hardPatterns_within_line p hp
  exact test_separator p '\n' a b hfree havoid (by decide)

theorem not_leaks_empty : ¬ Leaks "" := by
  rw [leaks_iff]
  intro h
  obtain ⟨p, hp, htest⟩ := h
  simp [hardPatterns_test_nil p hp] at htest

/-- Text leaks line by line. -/
theorem leaks_newline (a b : String) : Leaks (a ++ "\n" ++ b) ↔ Leaks a ∨ Leaks b := by
  have htext : (a ++ "\n" ++ b).toList = a.toList ++ '\n' :: b.toList := by simp
  simp only [leaks_iff, htext]
  constructor
  · intro h
    obtain ⟨p, hp, htest⟩ := h
    rcases (test_newline hp _ _).mp htest with h | h
    · exact Or.inl ⟨p, hp, h⟩
    · exact Or.inr ⟨p, hp, h⟩
  · intro h
    rcases h with ⟨p, hp, htest⟩ | ⟨p, hp, htest⟩
    · exact ⟨p, hp, (test_newline hp _ _).mpr (Or.inl htest)⟩
    · exact ⟨p, hp, (test_newline hp _ _).mpr (Or.inr htest)⟩

theorem leaks_blankLine (a b : String) : Leaks (a ++ "\n\n" ++ b) ↔ Leaks a ∨ Leaks b := by
  have hsplit : a ++ "\n\n" ++ b = a ++ "\n" ++ "" ++ "\n" ++ b := by
    apply String.toList_inj.mp
    simp
  rw [hsplit, leaks_newline, leaks_newline, or_assoc]
  simp only [not_leaks_empty, false_or]

/-- A joined text leaks exactly when one of its parts does. -/
theorem leaks_join (parts : List String) :
    Leaks ("\n\n".intercalate parts) ↔ ∃ part ∈ parts, Leaks part := by
  induction parts with
  | nil => simp [not_leaks_empty]
  | cons part rest ih =>
    by_cases hrest : rest = []
    · subst hrest
      simp
    · rw [String.intercalate_cons_of_ne_nil hrest, leaks_blankLine, ih,
        List.exists_mem_cons_iff]

theorem leaks_fileBlock (file : PullRequestFileRecord) :
    Leaks (fileBlock file) ↔ Leaks (fileHeader file) ∨ Leaks (storedPatch file) := by
  unfold fileBlock
  split_ifs with hpatch
  · exact leaks_newline _ _
  · rw [ne_eq, not_not] at hpatch
    rw [hpatch]
    simp only [not_leaks_empty, or_false]

theorem mem_truncationMarker {c : Char} {count : ℕ} (h : c ∈ (truncationMarker count).toList) :
    c ∈ "… diff truncated (".toList ∨ c ∈ (toString count).toList ∨
      c ∈ " files total).".toList := by
  unfold truncationMarker at h
  rw [String.toList_append, String.toList_append, List.mem_append, List.mem_append] at h
  exact or_assoc.mp h

theorem not_leaks_truncationMarker (count : ℕ) : ¬ Leaks (truncationMarker count) := by
  rw [leaks_iff]
  intro h
  obtain ⟨p, hp, htest⟩ := h
  have hmissing : ∀ c, c.isDigit = false → c ∉ "… diff truncated (".toList →
      c ∉ " files total).".toList → needs c p = true → False := by
    intro c hdigit hleft hright hneeds
    have hno : c ∉ (truncationMarker count).toList := by
      intro hmem
      rcases mem_truncationMarker hmem with h | h | h
      · exact hleft h
      · exact not_mem_toString hdigit count h
      · exact hright h
    rw [test_eq_false_of_needs hneeds hno] at htest
    exact Bool.false_ne_true htest
  rcases hardPatterns_need p hp with h | h | h
  · exact hmissing '_' (by decide) (by decide) (by decide) h
  · exact hmissing '-' (by decide) (by decide) (by decide) h
  · exact hmissing 'K' (by decide) (by decide) (by decide) h

/-! ## Files that fit -/

/-- The length the blocks of the files take in the bounded diff. -/
def diffLength (files : List PullRequestFileRecord) : ℕ :=
  (files.map (fun file => jsLength (fileBlock file))).sum

/-- The file stands in the list where everything up to it fits the bound. -/
def Scanned (files : List PullRequestFileRecord) (file : PullRequestFileRecord) : Prop :=
  ∃ before after, files = before ++ file :: after ∧ diffLength (before ++ [file]) ≤ maxDiffChars

/-- The file stands where the bound is already exceeded. -/
def CutOff (files : List PullRequestFileRecord) (file : PullRequestFileRecord) : Prop :=
  ∃ before after, files = before ++ file :: after ∧ maxDiffChars < diffLength (before ++ [file])

theorem scanned_or_cutOff {files : List PullRequestFileRecord} {file : PullRequestFileRecord}
    (hmem : file ∈ files) : Scanned files file ∨ CutOff files file := by
  obtain ⟨before, after, hfiles⟩ := List.append_of_mem hmem
  rcases Nat.lt_or_ge maxDiffChars (diffLength (before ++ [file])) with h | h
  · exact Or.inr ⟨before, after, hfiles, h⟩
  · exact Or.inl ⟨before, after, hfiles, h⟩

theorem diffLength_cons (file : PullRequestFileRecord) (rest : List PullRequestFileRecord) :
    diffLength (file :: rest) = jsLength (fileBlock file) + diffLength rest := by
  simp [diffLength]

theorem fileBlock_le_diffLength {first file : PullRequestFileRecord}
    {rest before after : List PullRequestFileRecord}
    (hfiles : first :: rest = before ++ file :: after) :
    jsLength (fileBlock first) ≤ diffLength (before ++ [file]) := by
  cases before with
  | nil =>
    simp only [List.nil_append, List.cons.injEq] at hfiles ⊢
    rw [← hfiles.1, diffLength_cons]
    omega
  | cons other before =>
    simp only [List.cons_append, List.cons.injEq] at hfiles ⊢
    rw [← hfiles.1, diffLength_cons]
    omega

/-- The parts that leak are the blocks of the files that fit after `total`. -/
theorem leaks_diffParts (count total : ℕ) (files : List PullRequestFileRecord) :
    (∃ part ∈ diffParts count total files, Leaks part) ↔
      ∃ before file after, files = before ++ file :: after ∧
        total + diffLength (before ++ [file]) ≤ maxDiffChars ∧ Leaks (fileBlock file) := by
  induction files generalizing total with
  | nil => simp [diffParts]
  | cons first rest ih =>
    unfold diffParts
    dsimp only
    split_ifs with hfull
    · simp only [List.mem_singleton, exists_eq_left, not_leaks_truncationMarker, false_iff]
      intro h
      obtain ⟨before, file, after, hfiles, hfits, _⟩ := h
      have hfirst := fileBlock_le_diffLength hfiles
      omega
    · rw [List.exists_mem_cons_iff, ih]
      constructor
      · intro h
        rcases h with hleaks | ⟨before, file, after, hfiles, hfits, hleaks⟩
        · refine ⟨[], first, rest, rfl, ?_, hleaks⟩
          rw [List.nil_append, diffLength_cons]
          simp only [diffLength, List.map_nil, List.sum_nil]
          omega
        · refine ⟨first :: before, file, after, by rw [hfiles]; rfl, ?_, hleaks⟩
          rw [List.cons_append, diffLength_cons]
          omega
      · intro h
        obtain ⟨before, file, after, hfiles, hfits, hleaks⟩ := h
        cases before with
        | nil =>
          simp only [List.nil_append, List.cons.injEq] at hfiles
          rw [hfiles.1]
          exact Or.inl hleaks
        | cons other before =>
          simp only [List.cons_append, List.cons.injEq] at hfiles hfits
          rw [← hfiles.1, diffLength_cons] at hfits
          exact Or.inr ⟨before, file, after, hfiles.2, by omega, hleaks⟩

/-- The scan of the bounded diff is the scan of the files that fit. -/
theorem leaks_buildAiReviewDiff (files : List PullRequestFileRecord) :
    Leaks (buildAiReviewDiff files) ↔ ∃ file, Scanned files file ∧
      (Leaks (fileHeader file) ∨ Leaks (storedPatch file)) := by
  unfold buildAiReviewDiff
  rw [leaks_join, leaks_diffParts]
  constructor
  · intro h
    obtain ⟨before, file, after, hfiles, hfits, hleaks⟩ := h
    refine ⟨file, ⟨before, after, hfiles, by omega⟩, (leaks_fileBlock file).mp hleaks⟩
  · intro h
    obtain ⟨file, ⟨before, after, hfiles, hfits⟩, hleaks⟩ := h
    exact ⟨before, file, after, hfiles, by omega, (leaks_fileBlock file).mpr hleaks⟩

/-! ## Coverage -/

/-- The advisory gained a `secret_leak` finding. -/
def AddsSecretLeak (original result : Advisory) : Prop :=
  ∃ finding : AdvisoryFinding, finding.code = "secret_leak" ∧
    result.findings = original.findings ++ [finding]

/-- With the scan switched on for the repository, the finding is added exactly when the
bounded diff leaks. -/
theorem addsSecretLeak_iff {env : SafetyEnv} {args : SecretLeakArgs} {table : Option FileTable}
    {files : List PullRequestFileRecord} (henabled : isSafetyEnabled env = true)
    (hallowed : isConvergenceRepoAllowed env args.repoFullName = true)
    (hfiles : scannedFiles args table = some files) :
    AddsSecretLeak args.advisory (maybeAddSecretLeakFinding env args table) ↔
      Leaks (buildAiReviewDiff files) := by
  unfold maybeAddSecretLeakFinding Leaks
  rw [if_neg (by simp [henabled, hallowed]), hfiles, Option.bind_some]
  cases hfinding : secretLeakFinding (buildAiReviewDiff files) with
  | none =>
    simp only [Option.isSome_none, Bool.false_eq_true, iff_false]
    intro h
    obtain ⟨finding, _, hfindings⟩ := h
    simp at hfindings
  | some finding =>
    simp only [Option.isSome_some, iff_true]
    exact ⟨finding, secretLeakFinding_code hfinding, rfl⟩

/-- A leak in any single stored patch is reported exactly when some file that fits the
bound leaks, by its header or its patch, or no cut-off file leaks by its patch. -/
theorem scan_covers_iff (env : SafetyEnv) (args : SecretLeakArgs) (table : Option FileTable)
    (files : List PullRequestFileRecord) (henabled : isSafetyEnabled env = true)
    (hallowed : isConvergenceRepoAllowed env args.repoFullName = true)
    (hfiles : scannedFiles args table = some files) :
    ((∃ file ∈ files, Leaks (storedPatch file)) →
        AddsSecretLeak args.advisory (maybeAddSecretLeakFinding env args table)) ↔
      (∃ file, Scanned files file ∧ (Leaks (fileHeader file) ∨ Leaks (storedPatch file))) ∨
        ∀ file, CutOff files file → ¬ Leaks (storedPatch file) := by
  rw [addsSecretLeak_iff henabled hallowed hfiles, leaks_buildAiReviewDiff]
  constructor
  · intro hcovers
    by_cases hfound : ∃ file, Scanned files file ∧
        (Leaks (fileHeader file) ∨ Leaks (storedPatch file))
    · exact Or.inl hfound
    · refine Or.inr ?_
      rintro file ⟨before, after, hsplit, _⟩ hleaks
      exact hfound (hcovers ⟨file, by simp [hsplit], hleaks⟩)
  · rintro hcondition ⟨file, hmem, hleaks⟩
    rcases hcondition with hfound | hclean
    · exact hfound
    · rcases scanned_or_cutOff hmem with hscanned | hcut
      · exact ⟨file, hscanned, Or.inr hleaks⟩
      · exact absurd hleaks (hclean file hcut)

def scanEnv : SafetyEnv := ⟨some "true", some "acme/widgets"⟩

def scanArgs (files : List PullRequestFileRecord) : SecretLeakArgs where
  advisory := advisory .pullRequest "acme/widgets#7" "acme/widgets" [] "No findings." (some 7)
    none (some "c0ffee")
  repoFullName := "acme/widgets"
  pullNumber := 7
  files := some files

def leakyFile : PullRequestFileRecord where
  repoFullName := "acme/widgets"
  pullNumber := 7
  path := "src/config.ts"
  status := some "modified"
  additions := 1
  deletions := 0
  changes := 1
  previousFilename := none
  patch := some "+const token = \"ghp_ABCDEFGHIJKLMNOPQRST\";"

theorem scan_covers_leakyFile :
    ((∃ file ∈ [leakyFile], Leaks (storedPatch file)) →
        AddsSecretLeak (scanArgs [leakyFile]).advisory
          (maybeAddSecretLeakFinding scanEnv (scanArgs [leakyFile]) none)) ↔
      (∃ file, Scanned [leakyFile] file ∧
          (Leaks (fileHeader file) ∨ Leaks (storedPatch file))) ∨
        ∀ file, CutOff [leakyFile] file → ¬ Leaks (storedPatch file) :=
  scan_covers_iff scanEnv (scanArgs [leakyFile]) none [leakyFile] (by decide) (by decide) rfl

@[simp] theorem jsLength_append (a b : String) : jsLength (a ++ b) = jsLength a + jsLength b := by
  simp [jsLength]

theorem jsLength_storedPatch_le (file : PullRequestFileRecord) :
    jsLength (storedPatch file) ≤ jsLength (fileBlock file) := by
  unfold fileBlock
  split_ifs with hpatch
  · rw [jsLength_append]
    omega
  · rw [ne_eq, not_not] at hpatch
    rw [hpatch]
    exact Nat.zero_le _

/-- A generated file with a patch of the given length. -/
def lockFile (size : ℕ) : PullRequestFileRecord :=
  { leakyFile with
    path := "pnpm-lock.yaml"
    patch := some (String.ofList (List.replicate size 'a')) }

theorem jsLength_lockFile (size : ℕ) : jsLength (storedPatch (lockFile size)) = size := by
  have hunits : unitsOf 'a' = 1 := rfl
  simp only [storedPatch, lockFile, jsLength, Option.getD_some, String.toList_ofList,
    List.map_replicate, hunits, List.sum_replicate_nat, Nat.mul_one]

theorem buildAiReviewDiff_lockFile (size : ℕ) (hsize : maxDiffChars < size)
    (rest : List PullRequestFileRecord) :
    buildAiReviewDiff (lockFile size :: rest) = truncationMarker (rest.length + 1) := by
  have hfull : maxDiffChars < 0 + jsLength (fileBlock (lockFile size)) := by
    have h := jsLength_storedPatch_le (lockFile size)
    rw [jsLength_lockFile] at h
    omega
  unfold buildAiReviewDiff diffParts
  rw [if_pos hfull, String.intercalate_singleton, List.length_cons]

/-- Put before the leaking file, it keeps the scan from finding the leak. -/
theorem lockFile_hides_leak :
    isSafetyEnabled scanEnv = true ∧ isConvergenceRepoAllowed scanEnv "acme/widgets" = true ∧
      Leaks (storedPatch leakyFile) ∧
      ¬ AddsSecretLeak (scanArgs [lockFile 60001, leakyFile]).advisory
        (maybeAddSecretLeakFinding scanEnv (scanArgs [lockFile 60001, leakyFile]) none) := by
  refine ⟨by decide, by decide, by decide +kernel, ?_⟩
  rw [addsSecretLeak_iff (by decide) (by decide) rfl,
    buildAiReviewDiff_lockFile 60001 (by decide)]
  exact not_leaks_truncationMarker 2

end Gittensory.SecretCoverage
