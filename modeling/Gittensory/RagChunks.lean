import Gittensory.CodeUnits
import Gittensory.SlidingWindow
import Mathlib.Order.WithBot

/-!
Chunking a file for the code index (`review/rag.ts`). JS and TS files are cut at the lines
that start a top-level unit, and consecutive units are packed into chunks within the
budget; a unit over the budget, and any other file over it, is cut into overlapping windows
that end after a line break where there is one in their second half.
-/
namespace Gittensory.RagChunks

open CodeUnits JsValue TextPattern SlidingWindow

inductive RagKind where
  | code
  | doc
  deriving DecidableEq, Repr

/-- How a chunk was cut. -/
inductive RagBoundary where
  | file
  | function
  | «class»
  | export
  deriving DecidableEq, Repr

structure RagChunk where
  id : String
  path : String
  chunkIndex : ℕ
  kind : RagKind
  text : Units
  boundary : RagBoundary
  /-- Not in the source: where the text starts in the file. -/
  start : ℕ
  deriving DecidableEq, Repr

section Paths

/-- `(^|\/)` -/
def segmentStart : Pattern := .alts [.start, .exactly '/']

/-- `SKIP_DIR_RE` -/
def skipDirPattern : Pattern :=
  .seqs [segmentStart,
    .anyNoCase ["node_modules", "dist", "build", "out", "coverage", "vendor", ".git", ".next",
      ".turbo", ".cache", "content", "data", "fixtures", "__snapshots__", "__fixtures__",
      "testdata", "generated", "public"],
    .exactly '/']

/-- `SKIP_FILE_RE` -/
def skipFilePattern : Pattern :=
  .alts [
    .seqs [segmentStart,
      .anyNoCase ["package-lock.json", "pnpm-lock.yaml", "yarn.lock", "bun.lockb", "cargo.lock",
        "poetry.lock", "composer.lock", "go.sum"],
      .stop],
    .seqs [.exactly '.',
      .alts [.seqs [.literalNoCase "min.", .anyNoCase ["js", "css"]],
        .anyNoCase ["map", "lock", "snap"]],
      .stop]]

/-- `BINARY_EXT_RE` -/
def binaryExtPattern : Pattern :=
  .seqs [.exactly '.',
    .anyNoCase ["png", "jpeg", "jpg", "gif", "webp", "avif", "svg", "ico", "pdf", "zip", "gz",
      "tgz", "tar", "wasm", "woff2", "woff", "ttf", "eot", "mp4", "mov", "mp3", "wav", "bin",
      "exe", "dll", "so", "dylib", "node", "parquet", "onnx"],
    .stop]

/-- `CODE_EXT_RE` -/
def codeExtPattern : Pattern :=
  .seqs [.exactly '.',
    .anyNoCase ["ts", "tsx", "js", "jsx", "mjs", "cjs", "py", "go", "rs", "java", "kt", "kts",
      "rb", "php", "c", "h", "cc", "cpp", "hpp", "cs", "swift", "scala", "sh", "bash", "zsh",
      "sql", "graphql", "proto", "toml", "yaml", "yml", "json", "jsonc", "css", "scss", "less",
      "vue", "svelte", "astro", "tf", "hcl"],
    .stop]

/-- `DOC_EXT_RE` -/
def docExtPattern : Pattern :=
  .seqs [.exactly '.', .anyNoCase ["md", "mdx", "rst", "txt", "adoc"], .stop]

/-- `ALLOW_EXTLESS_RE` -/
def allowExtlessPattern : Pattern :=
  .seqs [segmentStart, .anyNoCase ["Dockerfile", "Makefile", "Justfile", "Procfile"], .stop]

/-- `none` for a path that is skipped. -/
def classifyRepoFile (path : String) : Option RagKind :=
  let letters := path.toList
  if test skipDirPattern letters ∨ test skipFilePattern letters ∨ test binaryExtPattern letters then
    none
  else if test docExtPattern letters then some .doc
  else if test codeExtPattern letters ∨ test allowExtlessPattern letters then some .code
  else none

/-- `JS_TS_RE` -/
def jsTsPattern : Pattern :=
  .seqs [.exactly '.', .anyNoCase ["ts", "tsx", "js", "jsx", "mjs", "cjs"], .stop]

end Paths

section Lines

def space : Pattern := .char spaceSet

/-- `[\w$]` -/
def nameLetter : Pattern :=
  .char ⟨false, [('a', 'z'), ('A', 'Z'), ('0', '9'), ('_', '_'), ('$', '$')]⟩

def name : Pattern := .plus nameLetter

def declarator : Pattern := .alts [.literal "const", .literal "let", .literal "var"]

/-- `BOUNDARY_RE`: a line that starts a top-level unit. -/
def boundaryPattern : Pattern :=
  .seqs [.start,
    .opt (.seqs [.literal "export", .plus space]),
    .opt (.seqs [.literal "default", .plus space]),
    .opt (.seqs [.literal "async", .plus space]),
    .alts [
      .seqs [.literal "function", .opt (.exactly '*'), .plus space, name],
      .seqs [.literal "class", .plus space, name],
      .seqs [declarator, .plus space, name, .star space,
        .opt (.seqs [.exactly ':', .plus (.char ⟨true, [('=', '='), ('\n', '\n')]⟩)]),
        .exactly '=', .star space, .opt (.seqs [.literal "async", .star space]),
        .alts [
          .seqs [.exactly '(', .star (.char ⟨true, [(')', ')')]⟩), .exactly ')'],
          name],
        .star space, .literal "=>"],
      .seqs [declarator, .plus space, name, .star space, .exactly '=', .star space,
        .opt (.seqs [.literal "async", .plus space]), .literal "function"],
      .seqs [.literal "interface", .plus space, name],
      .seqs [.literal "type", .plus space, name, .star space, .exactly '='],
      .seqs [.literal "enum", .plus space, name]]]

def isBoundary (line : Units) : Bool := test boundaryPattern (letters line)

def boundaryKind (firstLine : Units) : RagBoundary :=
  if test (.seqs [.start, .literal "export", .wordBoundary]) (letters firstLine) then .export
  else if test (.seqs [.wordBoundary, .literal "class", .plus space, name]) (letters firstLine) then
    .class
  else .function

end Lines

section Options

def CHUNK_CHARS : ℕ := 16000

def CHUNK_OVERLAP : ℕ := 1500

/-- Numbers as an option may hold them, `⊤` for `Infinity`. -/
structure ChunkOpts where
  chunkChars : Option (WithTop ℚ) := none
  chunkOverlap : Option (WithTop ℚ) := none

/-- The clamped options. The overlap is less than the budget by the clamp. -/
structure ChunkLimits where
  chunkChars : ℕ
  chunkOverlap : ℕ
  positive : 0 < chunkChars
  overlap_lt : chunkOverlap < chunkChars
  deriving DecidableEq, Repr

/-- `Math.max(low, Math.floor(value))` -/
def floorAtLeast (low : ℕ) : WithTop ℚ → WithTop ℕ
  | none => none
  | some value => some (max low ⌊value⌋.toNat)

/-- `Math.min(overlap, chunkChars - 1)` -/
def capOverlap (chunkChars : ℕ) : WithTop ℕ → ℕ
  | none => chunkChars - 1
  | some overlap => min overlap (chunkChars - 1)

theorem capOverlap_lt {chunkChars : ℕ} (h : 0 < chunkChars) (overlap : WithTop ℕ) :
    capOverlap chunkChars overlap < chunkChars := by
  cases overlap with
  | top =>
    change chunkChars - 1 < chunkChars
    omega
  | coe overlap =>
    change min overlap (chunkChars - 1) < chunkChars
    omega

/-- `none` for an infinite budget, under which every text is one chunk. -/
def chunkLimits (opts : ChunkOpts) : Option ChunkLimits :=
  match opts.chunkChars.getD ((CHUNK_CHARS : ℚ) : WithTop ℚ) with
  | none => none
  | some chars =>
      have hpos : 0 < max 1 ⌊chars⌋.toNat := by omega
      some
        { chunkChars := max 1 ⌊chars⌋.toNat
          chunkOverlap := capOverlap (max 1 ⌊chars⌋.toNat)
            (floorAtLeast 0 (opts.chunkOverlap.getD ((CHUNK_OVERLAP : ℚ) : WithTop ℚ)))
          positive := hpos
          overlap_lt := capOverlap_lt hpos _ }

/-- `length > chunkChars` -/
def exceeds (limits : Option ChunkLimits) (length : ℕ) : Bool :=
  match limits with
  | none => false
  | some limits => limits.chunkChars < length

end Options

section Chunkers

def chunkId (nameSpace path : String) (idx : ℕ) : String :=
  if nameSpace ≠ "" then nameSpace ++ "|" ++ path ++ "::" ++ toString idx
  else path ++ "::" ++ toString idx

/-- Where the window from a start ends: at the budget or the end of the text, or after the
last line break up to there if that is in the second half. -/
def windowEnd (limits : ChunkLimits) (text : Units) (start : ℕ) : ℕ :=
  let stop := min (start + limits.chunkChars) text.length
  if stop < text.length then
    match lastIndexOf text newline stop with
    | some nl => if 2 * nl > 2 * start + limits.chunkChars then nl + 1 else stop
    | none => stop
  else stop

/-- What all chunks of one file share. -/
structure ChunkContext where
  path : String
  kind : RagKind
  nameSpace : String
  limits : Option ChunkLimits

def ChunkContext.chunk (ctx : ChunkContext) (idx : ℕ) (boundary : RagBoundary) (text : Units)
    (start : ℕ) : RagChunk where
  id := chunkId ctx.nameSpace ctx.path idx
  path := ctx.path
  chunkIndex := idx
  kind := ctx.kind
  text := text
  boundary := boundary
  start := start

def sliceText (text : Units) (start stop : ℕ) : Units := (text.take stop).drop start

def windowChunks (ctx : ChunkContext) (text : Units) (found : List (ℕ × ℕ)) : List RagChunk :=
  found.mapIdx fun idx window =>
    ctx.chunk idx .file (sliceText text window.1 window.2) window.1

/-- The loop runs on `fuel`; `none` when that is used up. -/
def newlineChunks (ctx : ChunkContext) (fuel : ℕ) (text : Units) : Option (List RagChunk) :=
  match ctx.limits with
  | none => some [ctx.chunk 0 .file text 0]
  | some limits =>
      if text.length ≤ limits.chunkChars then some [ctx.chunk 0 .file text 0]
      else
        (windows text.length limits.chunkOverlap (windowEnd limits text) fuel 0).map
          (windowChunks ctx text)

structure Segmenting where
  segments : List Units := []
  current : Units := []
  started : Bool := false

def addLine (state : Segmenting) (line : Units) : Segmenting :=
  let state :=
    if state.started ∧ isBoundary line ∧ state.current ≠ [] then
      { state with segments := state.segments ++ [state.current], current := [] }
    else state
  { state with current := state.current ++ (line ++ [newline]), started := true }

/-- The lines of the text grouped by the boundary lines. -/
def segmentsOf (text : Units) : List Units :=
  let state := (splitLines text).foldl addLine {}
  if state.current ≠ [] then state.segments ++ [state.current] else state.segments

/-- The packer between two units. -/
structure Packing where
  chunks : List RagChunk := []
  buf : Units := []
  idx : ℕ := 0
  /-- Not in the source: where the next unit starts in the file. -/
  position : ℕ := 0

def flush (ctx : ChunkContext) (state : Packing) : Packing :=
  if state.buf = [] then state
  else
    let firstLine := (splitLines state.buf).headD []
    { state with
      chunks := state.chunks ++ [ctx.chunk state.idx (boundaryKind firstLine) state.buf
        (state.position - state.buf.length)]
      idx := state.idx + 1
      buf := [] }

/-- The chunks of a unit over the budget, numbered on. -/
def pushSubs (ctx : ChunkContext) (state : Packing) (subs : List RagChunk) : Packing :=
  { state with
    chunks := state.chunks ++ subs.mapIdx fun k sub =>
      { sub with
        id := chunkId ctx.nameSpace ctx.path (state.idx + k)
        chunkIndex := state.idx + k
        boundary := .function
        start := state.position + sub.start }
    idx := state.idx + subs.length }

def packSegment (ctx : ChunkContext) (fuel : ℕ) (state : Packing) (seg : Units) : Option Packing :=
  if exceeds ctx.limits seg.length then
    (newlineChunks ctx fuel seg).map fun subs =>
      let packed := pushSubs ctx (flush ctx state) subs
      { packed with position := packed.position + seg.length }
  else
    let state :=
      if exceeds ctx.limits (state.buf.length + seg.length) then flush ctx state else state
    some { state with buf := state.buf ++ seg, position := state.position + seg.length }

/-- `some none` where there is nothing useful to cut. -/
def chunkJsTs (ctx : ChunkContext) (fuel : ℕ) (text : Units) : Option (Option (List RagChunk)) :=
  let segments := segmentsOf text
  if segments.length ≤ 1 then some none
  else
    (segments.foldlM (packSegment ctx fuel) {}).map fun packed =>
      let packed := flush ctx packed
      if packed.chunks.length > 0 then some packed.chunks else none

def isBlank (text : Units) : Bool := text.all isSpace

def chunkFile (fuel : ℕ) (path : String) (text : Units) (nameSpace : String) (opts : ChunkOpts) :
    Option (List RagChunk) :=
  match classifyRepoFile path with
  | none => some []
  | some kind =>
      if isBlank text then some []
      else
        let ctx : ChunkContext := ⟨path, kind, nameSpace, chunkLimits opts⟩
        if test jsTsPattern path.toList then
          match chunkJsTs ctx fuel text with
          | none => none
          | some (some logical) => some logical
          | some none => newlineChunks ctx fuel text
        else newlineChunks ctx fuel text

end Chunkers

end Gittensory.RagChunks
