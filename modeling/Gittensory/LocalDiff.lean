import Gittensory.JsCoercion

/-!
The changed files of a local branch (`gittensory-mcp/lib/local-branch.js`,
`collectChangedFiles`). Two outputs of git are joined by the path of a file. The one spells a
rename with both paths, the other one prints it compressed, and the path is read back from a
pair of braces with something new in it. Every other rename is looked up under a path that it
is not printed with, and then counts as unchanged.
-/
namespace Gittensory.LocalDiff

open CodeUnits JsCoercion JsValue RadixNumerals

def tab : ℕ := 9

def dash : ℕ := 45

def slash : ℕ := 47

def openBrace : ℕ := 123

def closeBrace : ℕ := 125

/-! ## The reading of the two outputs -/

section Reading

def gitLines (stdout : Units) : List Units :=
  ((stdout.splitOn newline).map CodeUnits.trim).filter (· ≠ [])

/-- ` => ` -/
def arrow : Units := [32, 61, 62, 32]

/-- What stands behind the last arrow. -/
def behindLastArrow : Units → Option Units
  | [] => none
  | unit :: rest =>
      match behindLastArrow rest with
      | some found => some found
      | none =>
          if arrow.isPrefixOf (unit :: rest) then some ((unit :: rest).drop arrow.length) else none

/-- What stands before and behind the last closing brace. -/
def splitLastBrace (text : Units) : Option (Units × Units) :=
  match text.reverse.dropWhile (· ≠ closeBrace) with
  | [] => none
  | _ :: body => some (body.reverse, (text.reverse.takeWhile (· ≠ closeBrace)).reverse)

/-- The first match of `/\{.* => (.*)\}/` in a line: the text before it, its group, and the text
behind it. It starts at the first brace, and both stars read as much as they can. -/
def matchBraces (path : Units) : Option (Units × Units × Units) :=
  match path.dropWhile (· ≠ openBrace) with
  | [] => none
  | _ :: rest => do
      let (body, behind) ← splitLastBrace rest
      let middle ← behindLastArrow body
      return (path.takeWhile (· ≠ openBrace), middle, behind)

/-- `path.replace(regex, renamed[1])`; the group has no dollar sign that would stand for more than
itself in a path of letters, digits, dots, dashes, underscores and slashes. -/
def normalizeNumstatPath (path : Units) : Units :=
  match matchBraces path with
  | some (before, middle, behind) => if middle = [] then path else before ++ middle ++ behind
  | none => path

structure NumstatEntry where
  path : Units
  additions : JsNumber
  deletions : JsNumber
  binary : Bool
  deriving DecidableEq

/-- `field === "-" ? 0 : Number(field ?? 0)`, and zero for what is not finite. -/
def countOf (field : Option Units) : JsNumber :=
  if field = some [dash] then .finite 0
  else
    match (field.map stringToNumber).getD (.finite 0) with
    | .finite count => .finite count
    | _ => .finite 0

def parseNumstatRow (row : Units) : NumstatEntry :=
  let fields := row.splitOn tab
  { path := normalizeNumstatPath ([tab].intercalate (fields.drop 2))
    additions := countOf fields[0]?
    deletions := countOf fields[1]?
    binary := fields[0]? = some [dash] || fields[1]? = some [dash] }

def parseNumstat (stdout : Units) : List NumstatEntry := (gitLines stdout).map parseNumstatRow

inductive FileStatus where
  | added
  | modified
  | deleted
  | renamed
  | copied
  | unknown
  deriving DecidableEq, Repr

def statusFromCode (code : Units) : FileStatus :=
  match code.head? with
  | some 65 => .added
  | some 77 => .modified
  | some 68 => .deleted
  | some 82 => .renamed
  | some 67 => .copied
  | _ => .unknown

structure ChangedFile where
  path : Units
  previousPath : Option Units
  additions : JsNumber
  deletions : JsNumber
  status : FileStatus
  binary : Bool
  deriving DecidableEq

/-- `map.get(path)` of a map that is built from the entries: the last one with a key counts. -/
def entryAt (entries : List NumstatEntry) (path : Units) : Option NumstatEntry :=
  entries.reverse.find? (·.path = path)

def changedFile (numstat : List NumstatEntry) (row : Units) : ChangedFile :=
  let fields := row.splitOn tab
  let code := fields[0]?.getD []
  let isRename := code.head? = some 82
  let path := if isRename then (fields[2]?.or fields[1]?).getD [] else fields[1]?.getD []
  let stats := (entryAt numstat path).getD
    { path, additions := .finite 0, deletions := .finite 0, binary := false }
  { path
    previousPath := if isRename then fields[1]? else none
    additions := stats.additions
    deletions := stats.deletions
    status := statusFromCode code
    binary := stats.binary }

def collectChangedFiles (nameStatus numstat : Units) : List ChangedFile :=
  (gitLines nameStatus).map (changedFile (parseNumstat numstat))

end Reading

/-! ## The changes and how git prints them -/

section Printing

/-- Letters, digits, dot, dash, underscore and slash. -/
def isPathUnit (unit : ℕ) : Bool :=
  (48 ≤ unit && unit ≤ 57) || (65 ≤ unit && unit ≤ 90) || (97 ≤ unit && unit ≤ 122) ||
    unit = 46 || unit = 45 || unit = 95 || unit = 47

/-- How `--numstat` prints a rename: with both paths, or with what they share around braces. -/
inductive Rename where
  | whole (old new : Units)
  | braced (before oldMiddle newMiddle behind : Units)
  deriving DecidableEq

/-- The path around a middle; where that is empty, two slashes are joined into one, and none
stays in front. -/
def joinPath (before middle behind : Units) : Units :=
  if middle = [] ∧ (before = [] ∨ before.getLast? = some slash) ∧ behind.head? = some slash then
    before ++ behind.tail
  else before ++ middle ++ behind

def Rename.old : Rename → Units
  | .whole old _ => old
  | .braced before oldMiddle _ behind => joinPath before oldMiddle behind

def Rename.new : Rename → Units
  | .whole _ new => new
  | .braced before _ newMiddle behind => joinPath before newMiddle behind

def Rename.printed : Rename → Units
  | .whole old new => old ++ arrow ++ new
  | .braced before oldMiddle newMiddle behind =>
      before ++ openBrace :: (oldMiddle ++ arrow ++ newMiddle) ++ closeBrace :: behind

/-- The units of all parts are those of paths. -/
def Rename.IsPlain : Rename → Prop
  | .whole old new => ∀ unit ∈ old ++ new, isPathUnit unit = true
  | .braced before oldMiddle newMiddle behind =>
      ∀ unit ∈ before ++ oldMiddle ++ newMiddle ++ behind, isPathUnit unit = true

inductive Change where
  | added (path : Units)
  | modified (path : Units)
  | deleted (path : Units)
  | renamed (similarity : ℕ) (rename : Rename)
  deriving DecidableEq

/-- The counts of lines are git's own 64 bit integers. -/
inductive Stats where
  | text (additions deletions : UInt64)
  | binary
  deriving DecidableEq

structure FileChange where
  change : Change
  stats : Stats
  deriving DecidableEq

namespace FileChange

/-- The path that the file has now, or had when it was deleted. -/
def path (file : FileChange) : Units :=
  match file.change with
  | .added path | .modified path | .deleted path => path
  | .renamed _ rename => rename.new

def printedPath (file : FileChange) : Units :=
  match file.change with
  | .added path | .modified path | .deleted path => path
  | .renamed _ rename => rename.printed

/-- A letter and, for a rename, the similarity in percent, in three digits. -/
def code (file : FileChange) : Units :=
  match file.change with
  | .added _ => [65]
  | .modified _ => [77]
  | .deleted _ => [68]
  | .renamed similarity _ =>
      let digits := shortest 10 similarity
      82 :: (List.replicate (3 - digits.length) 48 ++ digits)

def nameStatusRow (file : FileChange) : Units :=
  match file.change with
  | .renamed _ rename => [tab].intercalate [file.code, rename.old, rename.new]
  | _ => [tab].intercalate [file.code, file.path]

def countFields (file : FileChange) : Units × Units :=
  match file.stats with
  | .text additions deletions => (shortest 10 additions.toNat, shortest 10 deletions.toNat)
  | .binary => ([dash], [dash])

def numstatRow (file : FileChange) : Units :=
  [tab].intercalate [file.countFields.1, file.countFields.2, file.printedPath]

structure WellFormed (file : FileChange) : Prop where
  nonempty : file.path ≠ []
  plain : match file.change with
    | .added path | .modified path | .deleted path => ∀ unit ∈ path, isPathUnit unit = true
    | .renamed _ rename => rename.IsPlain ∧ rename.old ≠ []

/-- The row of the file: its own path and its own counts. -/
def row (file : FileChange) : ChangedFile :=
  let (additions, deletions, binary) := match file.stats with
    | .text additions deletions =>
        (roundToDouble additions.toNat, roundToDouble deletions.toNat, false)
    | .binary => (.finite 0, .finite 0, true)
  { path := file.path
    previousPath := match file.change with
      | .renamed _ rename => some rename.old
      | _ => none
    additions
    deletions
    status := match file.change with
      | .added _ => .added
      | .modified _ => .modified
      | .deleted _ => .deleted
      | .renamed _ _ => .renamed
    binary }

/-- A rename in braces with something new between them, or no rename. -/
def KeepsPath (file : FileChange) : Prop :=
  match file.change with
  | .renamed _ (.whole _ _) => False
  | .renamed _ (.braced _ _ newMiddle _) => newMiddle ≠ []
  | _ => True

instance decidableKeepsPath (file : FileChange) : Decidable file.KeepsPath :=
  match file with
  | ⟨.renamed _ (.whole _ _), _⟩ => inferInstanceAs (Decidable False)
  | ⟨.renamed _ (.braced _ _ newMiddle _), _⟩ => inferInstanceAs (Decidable (newMiddle ≠ []))
  | ⟨.added _, _⟩ | ⟨.modified _, _⟩ | ⟨.deleted _, _⟩ => inferInstanceAs (Decidable True)

/-- Text without an added or a deleted line. -/
def NoLines (file : FileChange) : Prop := file.stats = .text 0 0

end FileChange

def output (rows : List Units) : Units := rows.flatMap fun row => row ++ [newline]

def nameStatusOutput (files : List FileChange) : Units :=
  output (files.map FileChange.nameStatusRow)

def numstatOutput (files : List FileChange) : Units := output (files.map FileChange.numstatRow)

end Printing

/-! ## Lines and fields -/

section Lines

/-- A row that comes back from the output as it was printed. -/
def IsRow (row : Units) : Prop :=
  newline ∉ row ∧ (∃ unit, row.head? = some unit ∧ isSpace unit = false) ∧
    ∃ unit, row.getLast? = some unit ∧ isSpace unit = false

theorem IsRow.trim {row : Units} (h : IsRow row) : CodeUnits.trim row = row := by
  obtain ⟨-, ⟨first, hfirst, hink⟩, last, hlast, hink'⟩ := h
  refine trim_eq_self_iff.mpr ⟨fun unit hunit => ?_, fun unit hunit => ?_⟩
  · rwa [Option.some.inj (hunit.symm.trans hfirst)]
  · rwa [Option.some.inj (hunit.symm.trans hlast)]

theorem IsRow.ne_nil {row : Units} (h : IsRow row) : row ≠ [] := by
  rintro rfl
  obtain ⟨-, ⟨unit, hunit, -⟩, -⟩ := h
  cases hunit

theorem gitLines_output {rows : List Units} (h : ∀ row ∈ rows, IsRow row) :
    gitLines (output rows) = rows := by
  induction rows with
  | nil => decide
  | cons row rest ih =>
    obtain ⟨hrow, hrest⟩ := List.forall_mem_cons.mp h
    have hsplit : (output (row :: rest)).splitOn newline =
        row :: (output rest).splitOn newline := by
      rw [output, List.flatMap_cons, List.append_assoc, List.singleton_append]
      exact List.splitOn_append_cons_self_of_not_mem hrow.1 _
    have hrows := ih hrest
    unfold gitLines at hrows ⊢
    rw [hsplit, List.map_cons, hrow.trim, List.filter_cons, if_pos (decide_eq_true hrow.ne_nil),
      hrows]

/-- No tab in any of them. -/
theorem fields_intercalate {fields : List Units} (h : ∀ field ∈ fields, tab ∉ field)
    (hne : fields ≠ []) : ([tab].intercalate fields).splitOn tab = fields :=
  List.splitOn_intercalate tab h hne

end Lines

section Visible

theorem bounds_of_isPathUnit {unit : ℕ} (h : isPathUnit unit = true) :
    (45 ≤ unit ∧ unit ≤ 57) ∨ (65 ≤ unit ∧ unit ≤ 90) ∨ (97 ≤ unit ∧ unit ≤ 122) ∨ unit = 95 := by
  simp only [isPathUnit, Bool.or_eq_true, Bool.and_eq_true, decide_eq_true_eq] at h
  omega

theorem bounds_of_digit {number unit : ℕ} (h : unit ∈ shortest 10 number) :
    48 ≤ unit ∧ unit ≤ 57 :=
  isDigitIn_ten.mp (isDigitIn_of_mem_shortest (by decide) (by decide) h)

theorem not_isSpace {unit : ℕ} (hlow : 33 ≤ unit) (hhigh : unit < 127) : isSpace unit = false := by
  have hall : ∀ unit < 127, 33 ≤ unit → isSpace unit = false := by decide +kernel
  exact hall unit hhigh hlow

/-- Letters of paths, braces, and the spaces within an arrow. -/
def IsPrinted (unit : ℕ) : Prop := 32 ≤ unit ∧ unit < 127

instance decidableIsPrinted (unit : ℕ) : Decidable (IsPrinted unit) :=
  inferInstanceAs (Decidable (_ ∧ _))

/-- A printed text that starts and ends with ink. -/
structure Printed (text : Units) : Prop where
  printed : ∀ unit ∈ text, IsPrinted unit
  nonempty : text ≠ []
  head : text.head? ≠ some 32
  last : text.getLast? ≠ some 32

theorem printed_of_ink {text : Units} (hne : text ≠ [])
    (h : ∀ unit ∈ text, 33 ≤ unit ∧ unit < 127) : Printed text where
  printed unit hunit := ⟨by have := h unit hunit; omega, (h unit hunit).2⟩
  nonempty := hne
  head hhead := absurd (h 32 (List.mem_of_head? hhead)).1 (by decide)
  last hlast := absurd (h 32 (List.mem_of_getLast? hlast)).1 (by decide)

theorem Printed.tab_not_mem {text : Units} (h : Printed text) : tab ∉ text := fun hmem =>
  absurd (h.printed tab hmem).1 (by decide)

theorem Printed.newline_not_mem {text : Units} (h : Printed text) : newline ∉ text := fun hmem =>
  absurd (h.printed newline hmem).1 (by decide)

theorem Printed.isRow {text : Units} (h : Printed text) : IsRow text := by
  have hink : ∀ {unit : ℕ}, unit ∈ text → unit ≠ 32 → isSpace unit = false := fun hmem hne => by
    obtain ⟨hlow, hhigh⟩ := h.printed _ hmem
    exact not_isSpace (by omega) hhigh
  refine ⟨h.newline_not_mem, ⟨text.head h.nonempty, List.head?_eq_some_head _, ?_⟩,
    ⟨text.getLast h.nonempty, List.getLast?_eq_some_getLast _, ?_⟩⟩
  · exact hink (List.head_mem _) fun heq => h.head (heq ▸ List.head?_eq_some_head _)
  · exact hink (List.getLast_mem _) fun heq => h.last (heq ▸ List.getLast?_eq_some_getLast _)

/-- Printed fields with tabs between them make a row. -/
theorem isRow_intercalate {fields : List Units} (h : ∀ field ∈ fields, Printed field)
    (hne : fields ≠ []) : IsRow ([tab].intercalate fields) := by
  induction fields with
  | nil => exact absurd rfl hne
  | cons field rest ih =>
    obtain ⟨hfield, hrest⟩ := List.forall_mem_cons.mp h
    cases rest with
    | nil =>
      rw [List.intercalate_singleton]
      exact hfield.isRow
    | cons next more =>
      have hmore : IsRow ([tab].intercalate (next :: more)) := ih hrest (List.cons_ne_nil _ _)
      obtain ⟨-, ⟨first, hfirst, hink⟩, -⟩ := hfield.isRow
      obtain ⟨last, hlast, hink'⟩ := hmore.2.2
      rw [List.intercalate_cons_cons]
      refine ⟨?_, ⟨first, ?_, hink⟩, ⟨last, ?_, hink'⟩⟩
      · rw [List.mem_append, List.mem_append, not_or, not_or]
        exact ⟨⟨hfield.newline_not_mem, by decide⟩, hmore.1⟩
      · rw [List.append_assoc, List.head?_append_of_ne_nil _ hfield.nonempty, hfirst]
      · rw [List.getLast?_append_of_ne_nil _ hmore.ne_nil, hlast]

end Visible

section Renames

theorem behindLastArrow_of_not_mem {text : Units} (h : 61 ∉ text) :
    behindLastArrow text = none := by
  induction text with
  | nil => rfl
  | cons unit rest ih =>
    rw [List.mem_cons, not_or] at h
    have harrow : arrow.isPrefixOf (unit :: rest) = false := by
      cases rest with
      | nil => cases hunit : (32 == unit) <;> simp [arrow, List.isPrefixOf]
      | cons next rest =>
        have hnext : (61 == next) = false := beq_false_of_ne fun heq =>
          h.2 (heq ▸ List.mem_cons_self ..)
        simp [arrow, List.isPrefixOf, hnext]
    rw [behindLastArrow, ih h.2, harrow]
    rfl

theorem behindLastArrow_arrow {text : Units} (h : 61 ∉ text) :
    behindLastArrow (arrow ++ text) = some text := by
  have hspace : behindLastArrow (32 :: text) = none :=
    behindLastArrow_of_not_mem (by rw [List.mem_cons, not_or]; exact ⟨by decide, h⟩)
  have hgreater : behindLastArrow (62 :: 32 :: text) = none :=
    behindLastArrow_of_not_mem (by
      rw [List.mem_cons, List.mem_cons, not_or, not_or]; exact ⟨by decide, by decide, h⟩)
  have hequal : behindLastArrow (61 :: 62 :: 32 :: text) = none := by
    rw [behindLastArrow, hgreater]
    rfl
  change behindLastArrow (32 :: 61 :: 62 :: 32 :: text) = some text
  rw [behindLastArrow, hequal]
  rfl

theorem behindLastArrow_append {text : Units} (before : Units) (h : 61 ∉ text) :
    behindLastArrow (before ++ arrow ++ text) = some text := by
  induction before with
  | nil => exact behindLastArrow_arrow h
  | cons unit rest ih =>
    rw [List.cons_append, List.cons_append, behindLastArrow, ih]

theorem splitLastBrace_append {body behind : Units} (h : closeBrace ∉ behind) :
    splitLastBrace (body ++ closeBrace :: behind) = some (body, behind) := by
  have hbehind : ∀ unit ∈ behind.reverse, decide (unit ≠ closeBrace) = true := fun unit hunit =>
    decide_eq_true fun heq => h (heq ▸ List.mem_reverse.mp hunit)
  have hreverse : (body ++ closeBrace :: behind).reverse =
      behind.reverse ++ closeBrace :: body.reverse := by simp
  rw [splitLastBrace, hreverse, List.dropWhile_append_of_pos hbehind,
    List.takeWhile_append_of_pos hbehind]
  simp

theorem matchBraces_of_not_mem {path : Units} (h : openBrace ∉ path) : matchBraces path = none := by
  have hdrop : path.dropWhile (· ≠ openBrace) = [] :=
    List.dropWhile_eq_nil_iff.mpr fun unit hunit => decide_eq_true fun heq => h (heq ▸ hunit)
  rw [matchBraces, hdrop]

theorem matchBraces_braced {before oldMiddle newMiddle behind : Units}
    (h : ∀ unit ∈ before ++ oldMiddle ++ newMiddle ++ behind, isPathUnit unit = true) :
    matchBraces (Rename.braced before oldMiddle newMiddle behind).printed =
      some (before, newMiddle, behind) := by
  simp only [List.mem_append, or_imp, forall_and] at h
  obtain ⟨⟨⟨hbefore, hold⟩, hnew⟩, hbehind⟩ := h
  have hopen : ∀ unit ∈ before, decide (unit ≠ openBrace) = true := fun unit hunit =>
    decide_eq_true fun heq => by
      rw [heq] at hunit
      exact absurd (hbefore _ hunit) (by decide)
  have hclose : closeBrace ∉ behind := fun hmem => absurd (hbehind _ hmem) (by decide)
  have hequal : 61 ∉ newMiddle := fun hmem => absurd (hnew _ hmem) (by decide)
  have hprinted : (Rename.braced before oldMiddle newMiddle behind).printed =
      before ++ openBrace :: ((oldMiddle ++ arrow ++ newMiddle) ++ closeBrace :: behind) := by
    simp [Rename.printed]
  have hbrace : ¬decide (openBrace ≠ openBrace) = true := by decide
  rw [matchBraces, hprinted, List.dropWhile_append_of_pos hopen,
    List.takeWhile_append_of_pos hopen, List.dropWhile_cons, if_neg hbrace, List.takeWhile_cons,
    if_neg hbrace, List.append_nil]
  dsimp only
  rw [splitLastBrace_append hclose, Option.bind_eq_bind, Option.bind_some]
  dsimp only
  rw [behindLastArrow_append oldMiddle hequal]
  rfl

/-- What `--numstat` prints is the path that the file has, unless it is a rename that is
printed whole or has nothing new between its braces. -/
theorem normalizeNumstatPath_printed {file : FileChange} (h : file.WellFormed) :
    normalizeNumstatPath file.printedPath = file.path ∧ file.KeepsPath ∨
      ¬file.KeepsPath ∧ 32 ∈ normalizeNumstatPath file.printedPath := by
  obtain ⟨change, stats⟩ := file
  have hplain : ∀ {path : Units}, (∀ unit ∈ path, isPathUnit unit = true) →
      normalizeNumstatPath path = path := fun hpath => by
    rw [normalizeNumstatPath,
      matchBraces_of_not_mem fun hmem => absurd (hpath _ hmem) (by decide)]
  have hparts := h.plain
  cases change with
  | added path => exact Or.inl ⟨hplain hparts, trivial⟩
  | modified path => exact Or.inl ⟨hplain hparts, trivial⟩
  | deleted path => exact Or.inl ⟨hplain hparts, trivial⟩
  | renamed similarity rename =>
    cases rename with
    | whole old new =>
      have hunits : ∀ unit ∈ old ++ new, isPathUnit unit = true := hparts.1
      have hbrace : openBrace ∉ old ++ arrow ++ new := by
        simp only [List.mem_append, not_or]
        simp only [List.mem_append, or_imp, forall_and] at hunits
        exact ⟨⟨fun hmem => absurd (hunits.1 _ hmem) (by decide), by decide⟩,
          fun hmem => absurd (hunits.2 _ hmem) (by decide)⟩
      refine Or.inr ⟨id, ?_⟩
      change 32 ∈ normalizeNumstatPath (old ++ arrow ++ new)
      rw [normalizeNumstatPath, matchBraces_of_not_mem hbrace]
      simp [arrow]
    | braced before oldMiddle newMiddle behind =>
      obtain ⟨hunits, -⟩ := hparts
      change normalizeNumstatPath (Rename.braced before oldMiddle newMiddle behind).printed = _ ∧
        newMiddle ≠ [] ∨ ¬newMiddle ≠ [] ∧ 32 ∈ normalizeNumstatPath
          (Rename.braced before oldMiddle newMiddle behind).printed
      rw [normalizeNumstatPath, matchBraces_braced hunits]
      dsimp only
      by_cases hempty : newMiddle = []
      · refine Or.inr ⟨not_not.mpr hempty, ?_⟩
        rw [if_pos hempty, Rename.printed]
        simp [arrow]
      · refine Or.inl ⟨?_, hempty⟩
        rw [if_neg hempty]
        exact (if_neg fun h => hempty h.1).symm

end Renames

/-! ## Counts -/

section Counts

theorem decimalNumeral_shortest (count : ℕ) :
    decimalNumeral (shortest 10 count) = some (count : ℚ) := by
  have hdigits : ∀ unit ∈ shortest 10 count, isDigitIn 10 unit = true := fun unit hunit =>
    isDigitIn_of_mem_shortest (by decide) (by decide) hunit
  have hwhole : (shortest 10 count).takeWhile (isDigitIn 10) = shortest 10 count :=
    List.takeWhile_eq_self_iff.mpr hdigits
  unfold decimalNumeral
  simp [hwhole, shortest_ne_nil, exponentOf, valueIn_shortest]

/-- Half-even rounding stays between the integers around a number. -/
theorem roundHalfEven_bounds {value : ℚ} {low high : ℤ} (hlow : (low : ℚ) ≤ value)
    (hhigh : value < high) : low ≤ roundHalfEven value ∧ roundHalfEven value ≤ high := by
  have hfloor : low ≤ ⌊value⌋ := Int.le_floor.mpr hlow
  have hceil : ⌊value⌋ < high := Int.floor_lt.mpr hhigh
  unfold roundHalfEven
  dsimp only
  split_ifs <;> omega

theorem roundToDouble_of_pos {count : ℕ} (hpos : 0 < count) (hbound : count < 2 ^ 64) :
    ∃ value, roundToDouble (count : ℚ) = .finite value ∧ value ≠ 0 := by
  have hcount : (0 : ℚ) < count := Nat.cast_pos.mpr hpos
  unfold roundToDouble
  rw [if_neg hcount.ne', abs_of_pos hcount]
  set log := Int.log 2 (count : ℚ) with hlog
  have hlow : (2 : ℚ) ^ log ≤ count := Int.zpow_log_le_self (by decide) hcount
  have hhigh : (count : ℚ) < 2 ^ (log + 1) := Int.lt_zpow_succ_log_self (by decide) _
  have hlog0 : 0 ≤ log := by
    have hone : (2 : ℚ) ^ (0 : ℤ) ≤ count := by
      rw [zpow_zero]
      exact Nat.one_le_cast.mpr hpos
    exact (Int.zpow_le_iff_le_log (by decide) hcount).mp hone
  have hlog64 : log < 64 := by
    have hlt : (count : ℚ) < 2 ^ (64 : ℤ) := by exact_mod_cast hbound
    exact (Int.lt_zpow_iff_log_lt (by decide) hcount).mp hlt
  have hexponent : max (log - 52) (-1074) = log - 52 := max_eq_left (by omega)
  rw [hexponent]
  have hscale : (0 : ℚ) < 2 ^ (log - 52) := zpow_pos two_pos _
  have hpower : ∀ digits : ℕ, (2 : ℚ) ^ digits * 2 ^ (log - 52) = 2 ^ (digits + (log - 52)) :=
    fun digits => by rw [← zpow_natCast, ← zpow_add₀ two_ne_zero]
  have hrounded : 2 ^ 52 ≤ roundHalfEven ((count : ℚ) / 2 ^ (log - 52)) ∧
      roundHalfEven ((count : ℚ) / 2 ^ (log - 52)) ≤ 2 ^ 53 := by
    refine roundHalfEven_bounds ?_ ?_
    · rw [le_div_iff₀ hscale, Int.cast_pow, Int.cast_ofNat, hpower]
      rwa [show ((52 : ℕ) : ℤ) + (log - 52) = log by omega]
    · rw [div_lt_iff₀ hscale, Int.cast_pow, Int.cast_ofNat, hpower]
      rwa [show ((53 : ℕ) : ℤ) + (log - 52) = log + 1 by omega]
  obtain ⟨hround, hround'⟩ := hrounded
  set rounded := roundHalfEven ((count : ℚ) / 2 ^ (log - 52))
  have hposround : (0 : ℚ) < rounded := by exact_mod_cast lt_of_lt_of_le (by decide) hround
  have hvalue : (0 : ℚ) < rounded * 2 ^ (log - 52) := mul_pos hposround hscale
  have hsmall : (rounded : ℚ) * 2 ^ (log - 52) < 2 ^ 1024 := by
    calc (rounded : ℚ) * 2 ^ (log - 52) ≤ 2 ^ 53 * 2 ^ (log - 52) :=
          mul_le_mul_of_nonneg_right (by exact_mod_cast hround') hscale.le
      _ = 2 ^ (((53 : ℕ) : ℤ) + (log - 52)) := hpower 53
      _ ≤ 2 ^ ((64 : ℕ) : ℤ) := zpow_le_zpow_right₀ one_le_two (by omega)
      _ = 2 ^ 64 := zpow_natCast 2 64
      _ < 2 ^ 1024 := pow_lt_pow_right₀ one_lt_two (by decide)
  have hlarge : -(2 : ℚ) ^ 1024 < rounded * 2 ^ (log - 52) :=
    (neg_lt_zero.mpr (pow_pos two_pos _)).trans hvalue
  refine ⟨rounded * 2 ^ (log - 52), ?_, hvalue.ne'⟩
  rw [if_neg (not_le.mpr hsmall), if_neg (not_le.mpr hlarge)]

theorem printed_shortest (number : ℕ) : Printed (shortest 10 number) :=
  printed_of_ink (shortest_ne_nil number) fun unit hunit => by
    have := bounds_of_digit hunit
    omega

theorem stringToNumber_shortest (count : ℕ) :
    stringToNumber (shortest 10 count) = roundToDouble count := by
  have htrim : CodeUnits.trim (shortest 10 count) = shortest 10 count :=
    (printed_shortest count).isRow.trim
  have hdecimal := decimalNumeral_shortest count
  have hdigit : ∀ unit ∈ shortest 10 count, 48 ≤ unit ∧ unit ≤ 57 := fun unit => bounds_of_digit
  rw [stringToNumber, htrim]
  dsimp only
  rw [if_neg (shortest_ne_nil count)]
  cases htext : shortest 10 count with
  | nil => exact absurd htext (shortest_ne_nil count)
  | cons first rest =>
    rw [htext] at hdecimal hdigit
    obtain ⟨hfirst, hrest⟩ := List.forall_mem_cons.mp hdigit
    have hprefixed : prefixedNumeral (first :: rest) = none := by
      unfold prefixedNumeral
      split
      · rename_i mark digits heq
        have hmark := hrest mark (by rw [(List.cons.inj heq).2]; exact List.mem_cons_self ..)
        have hhex : ¬(mark = 120 ∨ mark = 88) := by omega
        have hoctal : ¬(mark = 111 ∨ mark = 79) := by omega
        have hbinary : ¬(mark = 98 ∨ mark = 66) := by omega
        rw [if_neg hhex, if_neg hoctal, if_neg hbinary]
        exact if_neg fun h => h.1 rfl
      · rfl
    have hsign : signOf (first :: rest) = (1, first :: rest) := by
      unfold signOf
      split
      · rename_i heq
        obtain rfl := (List.cons.inj heq).1
        exact absurd hfirst (by decide)
      · rename_i heq
        obtain rfl := (List.cons.inj heq).1
        exact absurd hfirst (by decide)
      · rfl
    have hinfinity : first :: rest ≠ units "Infinity" := fun heq => by
      rw [(List.cons.inj heq).1] at hfirst
      exact absurd hfirst (by decide)
    rw [hprefixed]
    dsimp only
    rw [hsign]
    dsimp only
    rw [if_neg hinfinity, hdecimal]
    dsimp only
    rw [Int.cast_one, one_mul]

/-- A count of git is a finite number, and zero only for zero. -/
theorem roundToDouble_count (count : UInt64) :
    ∃ value, roundToDouble (count.toNat : ℚ) = .finite value ∧ (value = 0 ↔ count = 0) := by
  by_cases hzero : count = 0
  · rw [hzero]
    exact ⟨0, by simp [roundToDouble], by simp⟩
  have hpos : 0 < count.toNat := by
    rw [Nat.pos_iff_ne_zero]
    exact fun h => hzero (UInt64.toNat_inj.mp h)
  have hbound : count.toNat < 2 ^ 64 := count.toNat_lt
  obtain ⟨value, hvalue, hne⟩ := roundToDouble_of_pos hpos hbound
  exact ⟨value, hvalue, iff_of_false hne hzero⟩

theorem count_ne_dash (count : UInt64) : some (shortest 10 count.toNat) ≠ some [dash] := by
  intro heq
  have hmem : dash ∈ shortest 10 count.toNat := by
    rw [Option.some.inj heq]
    exact List.mem_singleton_self _
  exact absurd (bounds_of_digit hmem).1 (by decide)

theorem countOf_count (count : UInt64) :
    countOf (some (shortest 10 count.toNat)) = roundToDouble count.toNat := by
  obtain ⟨value, hvalue, -⟩ := roundToDouble_count count
  rw [countOf, if_neg (count_ne_dash count), Option.map_some, Option.getD_some,
    stringToNumber_shortest, hvalue]

end Counts

/-! ## Rows -/

section Rows

theorem printed_of_path {text : Units} (hne : text ≠ [])
    (h : ∀ unit ∈ text, isPathUnit unit = true) : Printed text :=
  printed_of_ink hne fun unit hunit => by
    have := bounds_of_isPathUnit (h unit hunit)
    omega

theorem mem_of_mem_joinPath {before middle behind : Units} {unit : ℕ}
    (h : unit ∈ joinPath before middle behind) : unit ∈ before ++ middle ++ behind := by
  unfold joinPath at h
  split_ifs at h with hjoin
  · rw [hjoin.1, List.append_nil]
    rcases List.mem_append.mp h with hunit | hunit
    · exact List.mem_append_left _ hunit
    · exact List.mem_append_right _ (List.mem_of_mem_tail hunit)
  · exact h

/-- Both paths of a rename are made of units of paths. -/
theorem Rename.IsPlain.paths {rename : Rename} (h : rename.IsPlain) :
    (∀ unit ∈ rename.old, isPathUnit unit = true) ∧
      ∀ unit ∈ rename.new, isPathUnit unit = true := by
  cases rename with
  | whole old new =>
    exact ⟨fun unit hunit => h unit (List.mem_append_left _ hunit),
      fun unit hunit => h unit (List.mem_append_right _ hunit)⟩
  | braced before oldMiddle newMiddle behind =>
    refine ⟨fun unit hunit => h unit ?_, fun unit hunit => h unit ?_⟩
    · have := mem_of_mem_joinPath hunit
      simp only [List.mem_append] at this ⊢
      tauto
    · have := mem_of_mem_joinPath hunit
      simp only [List.mem_append] at this ⊢
      tauto

theorem isPrinted_of_isPathUnit {unit : ℕ} (h : isPathUnit unit = true) : IsPrinted unit := by
  have := bounds_of_isPathUnit h
  unfold IsPrinted
  omega

theorem head?_ne_space {text : Units} (h : 32 ∉ text) : text.head? ≠ some 32 := fun hhead =>
  h (List.mem_of_head? hhead)

theorem getLast?_ne_space {text : Units} (h : 32 ∉ text) : text.getLast? ≠ some 32 := fun hlast =>
  h (List.mem_of_getLast? hlast)

theorem space_not_mem {text : Units} (h : ∀ unit ∈ text, isPathUnit unit = true) : 32 ∉ text :=
  fun hmem => absurd (h 32 hmem) (by decide)

theorem isPrinted_arrow : ∀ unit ∈ arrow, IsPrinted unit := by decide

theorem Rename.IsPlain.printed {rename : Rename} (h : rename.IsPlain) (hold : rename.old ≠ [])
    (hnew : rename.new ≠ []) : Printed rename.printed := by
  cases rename with
  | whole old new =>
    change old ≠ [] at hold
    change new ≠ [] at hnew
    obtain ⟨holds, hnews⟩ := h.paths
    refine ⟨fun unit hunit => ?_, by simp [Rename.printed, arrow], ?_, ?_⟩
    · simp only [Rename.printed, List.mem_append] at hunit
      rcases hunit with (hunit | hunit) | hunit
      · exact isPrinted_of_isPathUnit (holds unit hunit)
      · exact isPrinted_arrow unit hunit
      · exact isPrinted_of_isPathUnit (hnews unit hunit)
    · rw [Rename.printed, List.append_assoc, List.head?_append_of_ne_nil _ hold]
      exact head?_ne_space (space_not_mem holds)
    · rw [Rename.printed, List.getLast?_append_of_ne_nil _ hnew]
      exact getLast?_ne_space (space_not_mem hnews)
  | braced before oldMiddle newMiddle behind =>
    have hunits : ∀ unit ∈ before ++ oldMiddle ++ newMiddle ++ behind, isPathUnit unit = true := h
    simp only [List.mem_append, or_imp, forall_and] at hunits
    obtain ⟨⟨⟨hbefore, holds⟩, hnews⟩, hbehind⟩ := hunits
    refine ⟨fun unit hunit => ?_, by simp [Rename.printed], ?_, ?_⟩
    · simp only [Rename.printed, List.mem_append, List.mem_cons] at hunit
      rcases hunit with (hunit | rfl | (hunit | hunit) | hunit) | rfl | hunit
      · exact isPrinted_of_isPathUnit (hbefore unit hunit)
      · decide
      · exact isPrinted_of_isPathUnit (holds unit hunit)
      · exact isPrinted_arrow unit hunit
      · exact isPrinted_of_isPathUnit (hnews unit hunit)
      · decide
      · exact isPrinted_of_isPathUnit (hbehind unit hunit)
    · rw [Rename.printed]
      cases before with
      | nil => exact fun hhead => absurd (Option.some.inj hhead) (by decide)
      | cons first rest =>
        exact fun hhead => space_not_mem hbefore (List.mem_cons.mpr (Or.inl
          (Option.some.inj hhead).symm))
    · rw [Rename.printed, List.getLast?_append_of_ne_nil _ (List.cons_ne_nil _ _)]
      refine getLast?_ne_space fun hmem => ?_
      rcases List.mem_cons.mp hmem with heq | hmem
      · exact absurd heq (by decide)
      · exact space_not_mem hbehind hmem

theorem FileChange.WellFormed.printedPath {file : FileChange} (h : file.WellFormed) :
    Printed file.printedPath := by
  obtain ⟨change, stats⟩ := file
  have hparts := h.plain
  cases change with
  | added path => exact printed_of_path h.nonempty hparts
  | modified path => exact printed_of_path h.nonempty hparts
  | deleted path => exact printed_of_path h.nonempty hparts
  | renamed similarity rename => exact hparts.1.printed hparts.2 h.nonempty

theorem FileChange.WellFormed.path_units {file : FileChange} (h : file.WellFormed) :
    ∀ unit ∈ file.path, isPathUnit unit = true := by
  obtain ⟨change, stats⟩ := file
  have hparts := h.plain
  cases change with
  | added path => exact hparts
  | modified path => exact hparts
  | deleted path => exact hparts
  | renamed similarity rename => exact hparts.1.paths.2

theorem printed_countFields (file : FileChange) :
    Printed file.countFields.1 ∧ Printed file.countFields.2 := by
  unfold FileChange.countFields
  cases file.stats with
  | text additions deletions => exact ⟨printed_shortest _, printed_shortest _⟩
  | binary =>
    have hdash : Printed [dash] := printed_of_ink (by decide) (by decide)
    exact ⟨hdash, hdash⟩

/-- The row of a file is read with its counts, under the path that is read back. -/
theorem parseNumstatRow_numstatRow {file : FileChange} (h : file.WellFormed) :
    parseNumstatRow file.numstatRow =
      { path := normalizeNumstatPath file.printedPath
        additions := file.row.additions
        deletions := file.row.deletions
        binary := file.row.binary } := by
  have hfields : (file.numstatRow).splitOn tab =
      [file.countFields.1, file.countFields.2, file.printedPath] := by
    refine fields_intercalate ?_ (List.cons_ne_nil _ _)
    simp only [List.mem_cons, List.not_mem_nil, or_false, forall_eq_or_imp, forall_eq]
    exact ⟨(printed_countFields file).1.tab_not_mem, (printed_countFields file).2.tab_not_mem,
      h.printedPath.tab_not_mem⟩
  have hpath : [tab].intercalate [file.printedPath] = file.printedPath :=
    List.intercalate_singleton
  have hcounts : countOf (some file.countFields.1) = file.row.additions ∧
      countOf (some file.countFields.2) = file.row.deletions ∧
        (some file.countFields.1 = some [dash] ∨ some file.countFields.2 = some [dash] ↔
          file.row.binary = true) := by
    obtain ⟨change, stats⟩ := file
    cases stats with
    | text additions deletions =>
      exact ⟨countOf_count additions, countOf_count deletions,
        iff_of_false (not_or.mpr ⟨count_ne_dash additions, count_ne_dash deletions⟩)
          Bool.false_ne_true⟩
    | binary => exact ⟨rfl, rfl, iff_of_true (Or.inl rfl) rfl⟩
  obtain ⟨hadditions, hdeletions, hbinary⟩ := hcounts
  unfold parseNumstatRow
  rw [hfields]
  simp only [List.drop_succ_cons, List.drop_zero, hpath, List.getElem?_cons_zero,
    List.getElem?_cons_succ, hadditions, hdeletions]
  congr 1
  rw [Bool.eq_iff_iff, ← hbinary, Bool.or_eq_true, decide_eq_true_iff, decide_eq_true_iff]

theorem printed_code (file : FileChange) : Printed file.code := by
  refine printed_of_ink ?_ fun unit hunit => ?_
  · unfold FileChange.code
    cases file.change <;> exact List.cons_ne_nil _ _
  · unfold FileChange.code at hunit
    cases hchange : file.change with
    | renamed similarity rename =>
      rw [hchange, List.mem_cons, List.mem_append, List.mem_replicate] at hunit
      rcases hunit with rfl | ⟨-, rfl⟩ | hunit
      · decide
      · decide
      · have := bounds_of_digit hunit
        omega
    | added path | modified path | deleted path =>
      rw [hchange, List.mem_singleton] at hunit
      subst hunit
      decide

/-- The fields of the row of a file in the list of names. -/
def FileChange.nameFields (file : FileChange) : List Units :=
  match file.change with
  | .renamed _ rename => [file.code, rename.old, rename.new]
  | _ => [file.code, file.path]

theorem nameStatusRow_eq (file : FileChange) :
    file.nameStatusRow = [tab].intercalate file.nameFields := by
  unfold FileChange.nameStatusRow FileChange.nameFields
  cases file.change <;> rfl

theorem nameFields_ne_nil (file : FileChange) : file.nameFields ≠ [] := by
  unfold FileChange.nameFields
  cases file.change <;> exact List.cons_ne_nil _ _

theorem printed_nameFields {file : FileChange} (h : file.WellFormed) :
    ∀ field ∈ file.nameFields, Printed field := by
  have hpath : Printed file.path := printed_of_path h.nonempty h.path_units
  have hcode := printed_code file
  unfold FileChange.nameFields
  have hparts := h.plain
  cases hchange : file.change with
  | renamed similarity rename =>
    rw [hchange] at hparts
    have hnew : Printed rename.new := by
      have : file.path = rename.new := by rw [FileChange.path, hchange]
      rwa [← this]
    simp only [List.mem_cons, List.not_mem_nil, or_false, forall_eq_or_imp, forall_eq]
    exact ⟨hcode, printed_of_path hparts.2 hparts.1.paths.1, hnew⟩
  | added path | modified path | deleted path =>
    simp only [List.mem_cons, List.not_mem_nil, or_false, forall_eq_or_imp, forall_eq]
    exact ⟨hcode, hpath⟩

/-- The statistics that a file is given: those under its path, or none. -/
def statsAt (entries : List NumstatEntry) (path : Units) : NumstatEntry :=
  (entryAt entries path).getD
    { path, additions := .finite 0, deletions := .finite 0, binary := false }

/-- The row of a file in the list of names is read with its paths and its status. -/
theorem changedFile_nameStatusRow {file : FileChange} (h : file.WellFormed)
    (entries : List NumstatEntry) :
    changedFile entries file.nameStatusRow =
      { file.row with
        additions := (statsAt entries file.path).additions
        deletions := (statsAt entries file.path).deletions
        binary := (statsAt entries file.path).binary } := by
  have hfields : (file.nameStatusRow).splitOn tab = file.nameFields := by
    rw [nameStatusRow_eq]
    exact fields_intercalate (fun field hfield => (printed_nameFields h field hfield).tab_not_mem)
      (nameFields_ne_nil file)
  unfold changedFile
  rw [hfields]
  obtain ⟨change, stats⟩ := file
  cases change <;> rfl

end Rows

/-! ## The join -/

section Join

/-- What the row of a file is read as. -/
def FileChange.entry (file : FileChange) : NumstatEntry :=
  { path := normalizeNumstatPath file.printedPath
    additions := file.row.additions
    deletions := file.row.deletions
    binary := file.row.binary }

theorem parseNumstat_numstatOutput {files : List FileChange}
    (h : ∀ file ∈ files, file.WellFormed) :
    parseNumstat (numstatOutput files) = files.map FileChange.entry := by
  have hrows : ∀ row ∈ files.map FileChange.numstatRow, IsRow row := fun row hrow => by
    obtain ⟨file, hfile, rfl⟩ := List.mem_map.mp hrow
    refine isRow_intercalate ?_ (List.cons_ne_nil _ _)
    simp only [List.mem_cons, List.not_mem_nil, or_false, forall_eq_or_imp, forall_eq]
    exact ⟨(printed_countFields file).1, (printed_countFields file).2, (h file hfile).printedPath⟩
  rw [parseNumstat, numstatOutput, gitLines_output hrows, List.map_map]
  exact List.map_congr_left fun file hfile => parseNumstatRow_numstatRow (h file hfile)

/-- Only the row of a file can stand under its path. -/
theorem eq_of_entry_path {files : List FileChange} (h : ∀ file ∈ files, file.WellFormed)
    (hpaths : (files.map FileChange.path).Nodup) {file other : FileChange} (hfile : file ∈ files)
    (hother : other ∈ files) (hkey : other.entry.path = file.path) :
    other = file ∧ file.KeepsPath := by
  rcases normalizeNumstatPath_printed (h other hother) with ⟨hread, hkeeps⟩ | ⟨-, hspace⟩
  · obtain rfl := List.inj_on_of_nodup_map hpaths hother hfile (hread.symm.trans hkey)
    exact ⟨rfl, hkeeps⟩
  · change 32 ∈ other.entry.path at hspace
    rw [hkey] at hspace
    exact absurd hspace (space_not_mem (h file hfile).path_units)

/-- Under the path of a file stands its own row, when the path is read back from it. -/
theorem entryAt_of_keepsPath {files : List FileChange} (h : ∀ file ∈ files, file.WellFormed)
    (hpaths : (files.map FileChange.path).Nodup) {file : FileChange} (hfile : file ∈ files)
    (hkeeps : file.KeepsPath) :
    entryAt (files.map FileChange.entry) file.path = some file.entry := by
  have hkey : file.entry.path = file.path := by
    rcases normalizeNumstatPath_printed (h file hfile) with ⟨hread, -⟩ | ⟨hnot, -⟩
    · exact hread
    · exact absurd hkeeps hnot
  cases hfound : entryAt (files.map FileChange.entry) file.path with
  | none =>
    have hmem : file.entry ∈ (files.map FileChange.entry).reverse :=
      List.mem_reverse.mpr (List.mem_map_of_mem hfile)
    have hmiss := List.find?_eq_none.mp hfound file.entry hmem
    exact absurd (decide_eq_true hkey) hmiss
  | some entry =>
    obtain ⟨other, hother, rfl⟩ := List.mem_map.mp
      (List.mem_reverse.mp (List.mem_of_find?_eq_some hfound))
    have hpath : other.entry.path = file.path := of_decide_eq_true (List.find?_some hfound :)
    rw [(eq_of_entry_path h hpaths hfile hother hpath).1]

/-- Nothing stands there when it is not. -/
theorem entryAt_of_not_keepsPath {files : List FileChange} (h : ∀ file ∈ files, file.WellFormed)
    (hpaths : (files.map FileChange.path).Nodup) {file : FileChange} (hfile : file ∈ files)
    (hkeeps : ¬file.KeepsPath) : entryAt (files.map FileChange.entry) file.path = none := by
  refine List.find?_eq_none.mpr fun entry hentry hpath => ?_
  obtain ⟨other, hother, rfl⟩ := List.mem_map.mp (List.mem_reverse.mp hentry)
  exact hkeeps (eq_of_entry_path h hpaths hfile hother (of_decide_eq_true hpath)).2

/-- Only text without an added or a deleted line looks like a file that nothing is known of. -/
theorem noLines_iff (file : FileChange) :
    file.NoLines ↔ file.row.additions = .finite 0 ∧ file.row.deletions = .finite 0 ∧
      file.row.binary = false := by
  obtain ⟨change, stats⟩ := file
  cases stats with
  | text additions deletions =>
    obtain ⟨added, hadded, hadded0⟩ := roundToDouble_count additions
    obtain ⟨removed, hremoved, hremoved0⟩ := roundToDouble_count deletions
    unfold FileChange.NoLines FileChange.row
    dsimp only
    rw [hadded, hremoved, Stats.text.injEq, JsNumber.finite.injEq, JsNumber.finite.injEq, hadded0,
      hremoved0, and_iff_left rfl]
  | binary => exact iff_of_false (fun h => Stats.noConfusion h) fun h => Bool.noConfusion h.2.2

/-- The row of a file is its own exactly when its path is read back, or nothing is lost. -/
theorem changedFile_eq_row_iff {files : List FileChange} (h : ∀ file ∈ files, file.WellFormed)
    (hpaths : (files.map FileChange.path).Nodup) {file : FileChange} (hfile : file ∈ files) :
    changedFile (files.map FileChange.entry) file.nameStatusRow = file.row ↔
      file.KeepsPath ∨ file.NoLines := by
  rw [changedFile_nameStatusRow (h file hfile), statsAt]
  by_cases hkeeps : file.KeepsPath
  · rw [entryAt_of_keepsPath h hpaths hfile hkeeps]
    exact iff_of_true rfl (Or.inl hkeeps)
  · rw [entryAt_of_not_keepsPath h hpaths hfile hkeeps, or_iff_right hkeeps, noLines_iff]
    constructor
    · intro heq
      exact ⟨(congrArg ChangedFile.additions heq).symm, (congrArg ChangedFile.deletions heq).symm,
        (congrArg ChangedFile.binary heq).symm⟩
    · rintro ⟨hadditions, hdeletions, hbinary⟩
      generalize file.row = row at *
      cases row
      simp only at hadditions hdeletions hbinary
      simp only [Option.getD_none, hadditions, hdeletions, hbinary]

theorem collectChangedFiles_output {files : List FileChange}
    (h : ∀ file ∈ files, file.WellFormed) :
    collectChangedFiles (nameStatusOutput files) (numstatOutput files) =
      files.map fun file => changedFile (files.map FileChange.entry) file.nameStatusRow := by
  have hnames : ∀ row ∈ files.map FileChange.nameStatusRow, IsRow row := fun row hrow => by
    obtain ⟨file, hfile, rfl⟩ := List.mem_map.mp hrow
    rw [nameStatusRow_eq]
    exact isRow_intercalate (printed_nameFields (h file hfile)) (nameFields_ne_nil file)
  rw [collectChangedFiles, parseNumstat_numstatOutput h, nameStatusOutput, gitLines_output hnames,
    List.map_map]
  rfl

/-- The files come back in the order of the names, each with its own counts, exactly when every
rename is printed in braces with something new in them, or changes no line. -/
theorem collectChangedFiles_iff {files : List FileChange} (h : ∀ file ∈ files, file.WellFormed)
    (hpaths : (files.map FileChange.path).Nodup) :
    collectChangedFiles (nameStatusOutput files) (numstatOutput files) =
        files.map FileChange.row ↔
      ∀ file ∈ files, file.KeepsPath ∨ file.NoLines := by
  rw [collectChangedFiles_output h, List.map_inj_left]
  exact forall₂_congr fun file hfile => changedFile_eq_row_iff h hpaths hfile

/-- A directory that was renamed, and a file that was not. -/
theorem renamedDirectory_keeps_lines :
    let files : List FileChange :=
      [⟨.renamed 90 (.braced (units "src/") (units "old") (units "new") (units "/a.ts")),
          .text 3 0⟩,
        ⟨.modified (units "b.ts"), .text 1 2⟩]
    collectChangedFiles (nameStatusOutput files) (numstatOutput files) =
      files.map FileChange.row := by
  refine (collectChangedFiles_iff ?_ (by decide)).mpr ?_
  · intro file hfile
    simp only [List.mem_cons, List.not_mem_nil, or_false] at hfile
    rcases hfile with rfl | rfl
    · have hplain : Rename.IsPlain
          (.braced (units "src/") (units "old") (units "new") (units "/a.ts")) := by
        unfold Rename.IsPlain
        decide
      exact ⟨by decide, hplain, by decide⟩
    · have hplain : ∀ unit ∈ units "b.ts", isPathUnit unit = true := by decide
      exact ⟨by decide, hplain⟩
  · intro file hfile
    simp only [List.mem_cons, List.not_mem_nil, or_false] at hfile
    rcases hfile with rfl | rfl
    · exact Or.inl (by decide)
    · exact Or.inl (by decide)

/-- Three new lines in a file that was renamed at the top of the repository are not counted. -/
theorem whole_rename_loses_lines :
    let files : List FileChange :=
      [⟨.renamed 90 (.whole (units "old.ts") (units "new.ts")), .text 3 0⟩]
    (∀ file ∈ files, file.WellFormed) ∧ (files.map FileChange.path).Nodup ∧
      collectChangedFiles (nameStatusOutput files) (numstatOutput files) ≠
        files.map FileChange.row := by
  intro files
  have hplain : Rename.IsPlain (.whole (units "old.ts") (units "new.ts")) := by
    unfold Rename.IsPlain
    decide
  have hformed : ∀ file ∈ files, file.WellFormed := fun file hfile => by
    obtain rfl := List.mem_singleton.mp hfile
    exact ⟨by decide, hplain, by decide⟩
  have hpaths : (files.map FileChange.path).Nodup := by decide
  refine ⟨hformed, hpaths, fun heq => ?_⟩
  rw [collectChangedFiles_output hformed, List.map_inj_left] at heq
  have hfile : _ ∈ files := List.mem_singleton_self _
  rcases (changedFile_eq_row_iff hformed hpaths hfile).mp (heq _ hfile) with hkeeps | hlines
  · exact hkeeps
  · exact absurd (Stats.text.inj hlines).1 (by decide)

end Join

end Gittensory.LocalDiff
