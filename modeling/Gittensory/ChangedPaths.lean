import Gittensory.JsValue

/-!
What kind of file a changed path names (`signals/path-matchers.ts`, and the two test
matchers of `signals/local-branch.ts` and `signals/test-evidence.ts`). A path is read by
its name only. The padding kinds come first, so that vendored tests stay vendored.
-/
namespace Gittensory.ChangedPaths

open JsValue TextPattern

def normalize (path : Text) : Text :=
  (path.map (fun c => if c = '\\' then '/' else c)).flatMap lowerChar

def basename (path : Text) : Text := ((normalize path).reverse.takeWhile (· ≠ '/')).reverse

/-- The letters after the last dot, unless that dot is the first letter of the name. -/
def extension (path : Text) : Text :=
  let base := basename path
  let after := (base.reverse.takeWhile (· ≠ '.')).reverse
  if after.length + 1 < base.length then after else []

def isOneOf (names : List String) (name : Text) : Bool :=
  names.any (fun candidate => candidate.toList = name)

def LOCKFILE_NAMES : List String :=
  ["package-lock.json", "npm-shrinkwrap.json", "yarn.lock", "pnpm-lock.yaml", "bun.lockb",
    "cargo.lock", "poetry.lock", "pipfile.lock", "composer.lock", "gemfile.lock", "go.sum",
    "uv.lock", "packages.lock.json", "flake.lock"]

def DEPENDENCY_MANIFEST_NAMES : List String :=
  ["package.json", "cargo.toml", "go.mod", "requirements.txt", "pyproject.toml", "pipfile",
    "gemfile", "composer.json", "build.gradle", "build.gradle.kts", "pom.xml"]

def DOCS_EXTENSIONS : List String := ["md", "mdx", "markdown", "rst", "adoc", "asciidoc"]

def CONFIG_FILE_NAMES : List String :=
  ["dockerfile", "makefile", ".editorconfig", ".nvmrc", ".npmrc", ".browserslistrc"]

def CONFIG_FILE_PREFIXES : List String :=
  ["tsconfig", "jsconfig", "jest.config", "vitest.config", "vite.config", "webpack.config",
    "rollup.config", "postcss.config", "tailwind.config", "next.config", ".env", ".eslint",
    ".prettier", ".babel"]

section Patterns

open Pattern

/-- `(^|\/)` -/
def segmentStart : Pattern := alts [.start, literal "/"]

def words (names : List String) : Pattern := alts (names.map literal)

/-- `[^/]+` -/
def inSegment : Pattern := plus (.char ⟨true, [('/', '/')]⟩)

/-- The five tests of `isTestFile`, which `isTestPath` repeats. -/
def testPatterns : List Pattern :=
  [seqs [segmentStart, anyNoCase ["test", "tests", "spec", "__tests__"], literal "/"],
    seqs [segmentStart, literalNoCase "src/test/"],
    seqs [segmentStart, inSegment, literalNoCase "_test.", anyNoCase ["go", "py", "rb"], .stop],
    seqs [segmentStart, inSegment, literalNoCase "_spec.rb", .stop],
    seqs [literal ".", anyNoCase ["test", "spec"], literal ".",
      anyNoCase ["ts", "tsx", "js", "jsx", "py", "rb", "rs"], .stop]]

def codePattern : Pattern :=
  seqs [literal ".",
    anyNoCase ["ts", "tsx", "js", "jsx", "py", "rb", "rs", "kt", "scala", "java", "go", "sql"],
    .stop]

def generatedPatterns : List Pattern :=
  [seqs [segmentStart, words ["__generated__", "generated"], literal "/"],
    seqs [literal ".", words ["generated", "gen"], literal ".", inSegment, .stop],
    seqs [literal ".pb.", words ["go", "ts", "js"], .stop],
    seqs [literal "_pb2.py", opt (literal "i"), .stop],
    seqs [literal ".g.dart", .stop],
    seqs [literal ".", words ["js", "jsx", "ts", "tsx", "css"], literal ".map", .stop]]

def vendoredPattern : Pattern :=
  seqs [segmentStart, words ["vendor", "vendored", "third_party", "third-party", "node_modules"],
    literal "/"]

def minifiedPattern : Pattern :=
  seqs [literal ".min.", plus (.char ⟨false, [('a', 'z'), ('0', '9')]⟩), .stop]

def docsPattern : Pattern := seqs [segmentStart, literal "doc", opt (literal "s"), literal "/"]

/-- `\.(config|rc)\.[a-z0-9]+$` -/
def dottedConfigPattern : Pattern :=
  seqs [literal ".", anyNoCase ["config", "rc"], literal ".",
    plus (.char ⟨false, [('a', 'z'), ('A', 'Z'), ('0', '9')]⟩), .stop]

/-- `^\.[^.]+rc$` -/
def dotRcPattern : Pattern :=
  seqs [.start, literal ".", plus (.char ⟨true, [('.', '.')]⟩), literalNoCase "rc", .stop]

end Patterns

def isTestFile (file : Text) : Bool := testPatterns.any (fun p => test p file)

def isTestPath (file : Text) : Bool := testPatterns.any (fun p => test p file)

def isCodeFile (file : Text) : Bool := test codePattern file && !isTestFile file

def isGeneratedFile (path : Text) : Bool :=
  generatedPatterns.any (fun p => test p (normalize path)) ||
    isOneOf ["worker-configuration.d.ts"] (basename (normalize path))

def isVendoredFile (path : Text) : Bool := test vendoredPattern (normalize path)

def isLockfile (path : Text) : Bool := isOneOf LOCKFILE_NAMES (basename path)

def isMinifiedFile (path : Text) : Bool := test minifiedPattern (normalize path)

def isDocsFile (path : Text) : Bool :=
  test docsPattern (normalize path) || isOneOf DOCS_EXTENSIONS (extension (normalize path))

def isDependencyManifestFile (path : Text) : Bool :=
  isOneOf DEPENDENCY_MANIFEST_NAMES (basename path)

def isConfigFile (path : Text) : Bool :=
  let base := basename path
  isOneOf CONFIG_FILE_NAMES base ||
    CONFIG_FILE_PREFIXES.any (fun start => start.toList.isPrefixOf base) ||
    test dottedConfigPattern base || ".rc".toList.isSuffixOf base || test dotRcPattern base

inductive ChangedFileCategory where
  | minified
  | generated
  | vendored
  | lockfile
  | dependencyManifest
  | config
  | test
  | docs
  | source
  | other
  deriving DecidableEq, Repr

def classifyChangedFile (path : Text) : ChangedFileCategory :=
  if isMinifiedFile path then .minified
  else if isGeneratedFile path then .generated
  else if isVendoredFile path then .vendored
  else if isLockfile path then .lockfile
  else if isDependencyManifestFile path then .dependencyManifest
  else if isConfigFile path then .config
  else if isTestFile path || isTestPath path then .test
  else if isDocsFile path then .docs
  else if isCodeFile path then .source
  else .other

/-- The kinds that a padded diff inflates its size with. -/
def ChangedFileCategory.isPadding : ChangedFileCategory → Bool
  | .minified | .generated | .vendored => true
  | _ => false

def ChangedFileCategory.isSubstantive : ChangedFileCategory → Bool
  | .source | .test => true
  | _ => false

theorem isCodeFile_of_isTestFile {file : Text} (h : isTestFile file = true) :
    isCodeFile file = false := by
  rw [isCodeFile, h]
  exact Bool.and_false _

theorem ne_nil_of_isTestFile {file : Text} (h : isTestFile file = true) : file ≠ [] := by
  rintro rfl
  exact absurd h (by decide)

end Gittensory.ChangedPaths
