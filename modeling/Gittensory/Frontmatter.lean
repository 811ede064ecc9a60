import Gittensory.CodeUnits
import Gittensory.KeyedTable
import Gittensory.SkippingScan
import Mathlib.Data.List.Induction
import Mathlib.Data.List.TakeWhile

/-!
The frontmatter of a content entry: how the block is cut out of the file, how its lines are
read into fields, and the check for keys given twice. The reader skips the lines it takes
into a value and the check skips them too, yet no such line starts a field, so both meet
exactly the lines that do.
-/
namespace Gittensory.Frontmatter

open CodeUnits KeyedTable SkippingScan

/-! ## The block -/

def carriageReturn : ℕ := 13

/-- `text.split(/\r?\n/)` -/
def splitRows : Units → List Units
  | [] => [[]]
  | unit :: rest =>
      if unit = newline then [] :: splitRows rest
      else if unit = carriageReturn ∧ rest.head? = some newline then splitRows rest
      else
        match splitRows rest with
        | [] => [[unit]]
        | row :: rows => (unit :: row) :: rows

def fence : Units := units "---"

/-- The lines that `/^---\r?\n([\s\S]*?)\r?\n---(?:\r?\n|$)/` captures: all rows behind the
opening fence up to the first fence that is not the very next row. -/
def frontmatterLines (source : Units) : Option (List Units) :=
  match splitRows source with
  | opening :: first :: later =>
      if opening = fence ∧ fence ∈ later then
        some (first :: later.takeWhile (fun row => row ≠ fence))
      else none
  | _ => none

/-! ## Lines -/

def isKeyUnit (unit : ℕ) : Bool := isLetter unit || isDigit unit || unit = 95

/-- What `.` matches: everything but a line terminator. -/
def isDot (unit : ℕ) : Bool := unit ≠ 10 && unit ≠ 13 && unit ≠ 0x2028 && unit ≠ 0x2029

def colon : ℕ := 58

/-- The groups of `/^([A-Za-z][A-Za-z0-9_]*):(.*)$/`. -/
def headOf (line : Units) : Option (Units × Units) :=
  if line.head?.any isLetter then
    match line.dropWhile isKeyUnit with
    | [] => none
    | unit :: tail =>
        if unit = colon ∧ tail.all isDot then some (line.takeWhile isKeyUnit, tail) else none
  else none

def isBlank (line : Units) : Bool := trim line = []

/-- `/^\s/` -/
def startsIndented (line : Units) : Bool := line.head?.any isSpace

/-- The lines a block scalar takes in. -/
def inBlock (line : Units) : Bool := isBlank line || startsIndented line

/-- The lines a sequence takes in. -/
def inList (line : Units) : Bool := startsIndented line && !isBlank line

/-! ## Values -/

def singleQuote : ℕ := 39

def numberSign : ℕ := 35

def enclosedBy (quote : ℕ) (text : Units) : Bool :=
  text.head? = some quote && text.getLast? = some quote

/-- `/^\s+#.*$/` -/
def startsComment (text : Units) : Bool :=
  startsIndented text &&
    match text.dropWhile isSpace with
    | [] => false
    | unit :: rest => unit = numberSign && rest.all isDot

/-- `text.replace(/\s+#.*$/, "")` -/
def cutComment : Units → Units
  | [] => []
  | unit :: rest => if startsComment (unit :: rest) then [] else unit :: cutComment rest

def unquoteYamlScalar (value : Units) : Units :=
  let trimmed := trim value
  if enclosedBy doubleQuote trimmed || enclosedBy singleQuote trimmed then
    trim (trimmed.drop 1).dropLast
  else trim (cutComment trimmed)

def bar : ℕ := 124

def greaterSign : ℕ := 62

/-- `/^[|>][+-]?\d*$/` -/
def isBlockIndicator : Units → Bool
  | [] => false
  | style :: rest =>
      (style = bar || style = greaterSign) &&
        match rest with
        | [] => true
        | sign :: digits => (sign = 43 || sign = 45 || isDigit sign) && digits.all isDigit

/-- `block.join(...).trim()` over the lines, each `line.replace(/^\s+/, "")`. -/
def blockValue (inline : Units) (block : List Units) : Units :=
  trim ((if inline.head? = some greaterSign then [space] else [newline]).intercalate
    (block.map (fun line => line.dropWhile isSpace)))

def dash : ℕ := 45

/-- `line.replace(/^\s*-\s*/, "").trim()` -/
def listItem (line : Units) : Units :=
  match line.dropWhile isSpace with
  | [] => trim line
  | unit :: rest => if unit = dash then trim (rest.dropWhile isSpace) else trim line

def listValue (items : List Units) : Units := (units ", ").intercalate (items.map listItem)

/-! ## The reader -/

theorem length_dropWhile_lt {p : Units → Bool} {line : Units} {rest : List Units} :
    (rest.dropWhile p).length < (line :: rest).length := by
  have := (rest.dropWhile_sublist p).length_le
  rw [List.length_cons]
  omega

/-- The assignments `fields[key] = ...` of the reader's loop, in its order. -/
def assignments : List Units → List (Units × Units)
  | [] => []
  | line :: rest =>
      match headOf line with
      | none => assignments rest
      | some (key, tail) =>
          let inline := trim tail
          if isBlockIndicator inline then
            (key, blockValue inline (rest.takeWhile inBlock)) ::
              assignments (rest.dropWhile inBlock)
          else if inline = [] then
            (key, listValue (rest.takeWhile inList)) :: assignments (rest.dropWhile inList)
          else (key, unquoteYamlScalar inline) :: assignments rest
termination_by lines => lines.length
decreasing_by
  all_goals first
    | exact length_dropWhile_lt
    | exact Nat.lt_succ_self _

/-- `fields[key] = value`: an old key keeps its place. -/
def setField (fields : List (Units × Units)) (assignment : Units × Units) :
    List (Units × Units) :=
  upsertWith Prod.fst (fun stored => (stored.1, assignment.2)) fields assignment

/-- The assignments over a whole file. -/
def assignmentsIn (source : Units) : List (Units × Units) :=
  match frontmatterLines source with
  | none => []
  | some lines => assignments lines

def parseSimpleFrontmatter (source : Units) : List (Units × Units) :=
  (assignmentsIn source).foldl setField []

/-- `fields[key]`, absent when it was never assigned. -/
def fieldOf (fields : List (Units × Units)) (key : Units) : Option Units :=
  (lookup Prod.fst fields key).map Prod.snd

/-! ## The check for keys given twice -/

/-- `set.add(key)` -/
def addKey (keys : List Units) (key : Units) : List Units :=
  if key ∈ keys then keys else keys ++ [key]

def duplicatesFrom (seen dupes : List Units) : List Units → List Units
  | [] => dupes
  | line :: rest =>
      match headOf line with
      | none => duplicatesFrom seen dupes rest
      | some (key, tail) =>
          let seen' := if key ∈ seen then seen else addKey seen key
          let dupes' := if key ∈ seen then addKey dupes key else dupes
          let inline := trim tail
          if isBlockIndicator inline then duplicatesFrom seen' dupes' (rest.dropWhile inBlock)
          else if inline = [] then duplicatesFrom seen' dupes' (rest.dropWhile inList)
          else duplicatesFrom seen' dupes' rest
termination_by lines => lines.length
decreasing_by
  all_goals first
    | exact length_dropWhile_lt
    | exact Nat.lt_succ_self _

def findDuplicateFrontmatterKeys (source : Units) : List Units :=
  match frontmatterLines source with
  | none => []
  | some lines => duplicatesFrom [] [] lines

/-! ## Lines that start a field -/

theorem isSpace_of_isLetter {unit : ℕ} (h : isLetter unit = true) : isSpace unit = false := by
  have hall : ∀ u < 123, isLetter u = true → isSpace u = false := by decide +kernel
  apply hall unit _ h
  simp only [isLetter, Bool.or_eq_true, Bool.and_eq_true, decide_eq_true_eq] at h
  omega

theorem startsIndented_cons (unit : ℕ) (rest : Units) :
    startsIndented (unit :: rest) = isSpace unit := rfl

theorem headOf_of_startsIndented {line : Units} (h : startsIndented line = true) :
    headOf line = none := by
  cases line with
  | nil => rfl
  | cons unit rest =>
    rw [startsIndented_cons] at h
    rw [headOf, if_neg]
    intro hletter
    rw [List.head?_cons, Option.any_some] at hletter
    rw [isSpace_of_isLetter hletter] at h
    exact Bool.false_ne_true h

theorem isBlank_iff {line : Units} : isBlank line = true ↔ ∀ unit ∈ line, isSpace unit = true := by
  rw [isBlank, decide_eq_true_eq, trim, List.reverse_eq_nil_iff, List.dropWhile_eq_nil_iff]
  constructor
  · intro h unit hunit
    rw [← List.takeWhile_append_dropWhile (p := isSpace) (l := line)] at hunit
    rcases List.mem_append.mp hunit with hunit | hunit
    · exact List.mem_takeWhile_imp hunit
    · exact h unit (List.mem_reverse.mpr hunit)
  · intro h unit hunit
    exact h unit ((List.dropWhile_sublist _).subset (List.mem_reverse.mp hunit))

/-- No line that a block scalar takes in starts a field. -/
theorem headOf_of_inBlock {line : Units} (h : inBlock line = true) : headOf line = none := by
  rcases Bool.or_eq_true_iff.mp h with hblank | hindent
  · cases line with
    | nil => rfl
    | cons unit rest =>
      apply headOf_of_startsIndented
      rw [startsIndented_cons]
      exact isBlank_iff.mp hblank unit (List.mem_cons_self ..)
  · exact headOf_of_startsIndented hindent

/-- No line that a sequence takes in starts a field. -/
theorem headOf_of_inList {line : Units} (h : inList line = true) : headOf line = none :=
  headOf_of_startsIndented (Bool.and_eq_true_iff.mp h).1

/-! ## What the reader's loop assigns -/

/-- The value of a field whose line ends in `inline`, read off the lines below it. -/
def fieldValue (inline : Units) (below : List Units) : Units :=
  if isBlockIndicator inline then blockValue inline (below.takeWhile inBlock)
  else if inline = [] then listValue (below.takeWhile inList)
  else unquoteYamlScalar inline

def assignmentOf (head : Units × Units) (below : List Units) : Units × Units :=
  (head.1, fieldValue (trim head.2) below)

/-- The loop assigns once for every line that starts a field, skipping or not. -/
theorem assignments_eq_hits (lines : List Units) :
    assignments lines = hits headOf assignmentOf lines := by
  induction lines using assignments.induct with
  | case1 => rw [assignments]; rfl
  | case2 line rest hhead ih =>
    rw [assignments, hits_cons_none headOf assignmentOf hhead, ← ih]
    simp only [hhead]
  | case3 line rest key tail hhead inline hblock ih =>
    rw [assignments, hits_cons_some headOf assignmentOf hhead]
    simp only [hhead]
    rw [if_pos hblock, ih, hits_dropWhile headOf assignmentOf fun _ => headOf_of_inBlock,
      assignmentOf, fieldValue, if_pos hblock]
  | case4 line rest key tail hhead inline hblock hempty ih =>
    rw [assignments, hits_cons_some headOf assignmentOf hhead]
    simp only [hhead]
    rw [if_neg hblock, if_pos hempty, ih,
      hits_dropWhile headOf assignmentOf fun _ => headOf_of_inList, assignmentOf, fieldValue,
      if_neg hblock, if_pos hempty]
  | case5 line rest key tail hhead inline hblock hempty ih =>
    rw [assignments, hits_cons_some headOf assignmentOf hhead]
    simp only [hhead]
    rw [if_neg hblock, if_neg hempty, ih, assignmentOf, fieldValue, if_neg hblock,
      if_neg hempty]

/-- The keys of the lines that start a field, in order. -/
def keysOf (lines : List Units) : List Units := (lines.filterMap headOf).map Prod.fst

theorem map_fst_assignments (lines : List Units) :
    (assignments lines).map Prod.fst = keysOf lines := by
  rw [assignments_eq_hits, map_hits headOf assignmentOf (g := Prod.fst) fun _ _ => rfl, keysOf]

/-- `/^[A-Za-z][A-Za-z0-9_]*$/` -/
def isKey (key : Units) : Bool := key.head?.any isLetter && key.all isKeyUnit

theorem headOf_keyLine {key : Units} (hkey : isKey key = true) (rest : Units) :
    headOf (key ++ colon :: rest) = if rest.all isDot then some (key, rest) else none := by
  obtain ⟨hletter, hunits⟩ := Bool.and_eq_true_iff.mp hkey
  have hcolon : ¬ isKeyUnit colon = true := by decide
  have hkeys := List.all_eq_true.mp hunits
  have hhead : (key ++ colon :: rest).head?.any isLetter = true := by
    cases key with
    | nil => exact absurd hletter Bool.false_ne_true
    | cons first more => exact hletter
  have hdrop : (key ++ colon :: rest).dropWhile isKeyUnit = colon :: rest := by
    rw [List.dropWhile_append_of_pos hkeys, List.dropWhile_cons_of_neg hcolon]
  have htake : (key ++ colon :: rest).takeWhile isKeyUnit = key := by
    rw [List.takeWhile_append_of_pos hkeys, List.takeWhile_cons_of_neg hcolon, List.append_nil]
  rw [headOf, if_pos hhead, hdrop, htake]
  simp only [true_and]

theorem inBlock_keyLine {key : Units} (hkey : isKey key = true) (rest : Units) :
    inBlock (key ++ rest) = false := by
  obtain ⟨hletter, _⟩ := Bool.and_eq_true_iff.mp hkey
  cases key with
  | nil => exact absurd hletter Bool.false_ne_true
  | cons first more =>
    have hink : isSpace first = false := isSpace_of_isLetter hletter
    rw [inBlock, Bool.or_eq_false_iff]
    constructor
    · by_contra hblank
      rw [isBlank_iff.mp (Bool.not_eq_false _ ▸ hblank) first (List.mem_cons_self ..)] at hink
      exact Bool.false_ne_true hink.symm
    · exact hink

/-- What the loop assigns at one line. -/
def assignedAt (line : Units) (below : List Units) : List (Units × Units) :=
  ((headOf line).map fun head => assignmentOf head below).toList

theorem assignments_cons (line : Units) (below : List Units) :
    assignments (line :: below) = assignedAt line below ++ assignments below := by
  rw [assignments_eq_hits, assignments_eq_hits, assignedAt]
  cases h : headOf line with
  | none => rw [hits_cons_none headOf assignmentOf h]; rfl
  | some head => rw [hits_cons_some headOf assignmentOf h]; rfl

/-- No value reads past a line that is neither blank nor indented, so the loop can be cut
there. -/
theorem assignments_append_cons {line : Units} (h : inBlock line = false)
    (pre post : List Units) :
    assignments (pre ++ line :: post) = assignments pre ++ assignments (line :: post) := by
  have hlist : inList line = false := by
    rw [inBlock, Bool.or_eq_false_iff] at h
    rw [inList, h.2, Bool.false_and]
  have hblock : ¬ inBlock line = true := Bool.eq_false_iff.mp h
  rw [assignments_eq_hits, assignments_eq_hits, assignments_eq_hits]
  apply hits_append_cons
  intro head rest more
  have hstop : ∀ p : Units → Bool, ¬ p line = true →
      (rest ++ line :: more).takeWhile p = rest.takeWhile p := by
    intro p hp
    rw [List.takeWhile_append, List.takeWhile_cons_of_neg hp, List.append_nil]
    split_ifs with hall
    · exact (List.takeWhile_prefix p).eq_of_length hall |>.symm
    · rfl
  rw [assignmentOf, assignmentOf, fieldValue, fieldValue, hstop inBlock hblock,
    hstop inList (Bool.eq_false_iff.mp hlist)]

theorem inBlock_of_headOf {line : Units} {head : Units × Units} (h : headOf line = some head) :
    inBlock line = false := by
  by_contra hblock
  rw [headOf_of_inBlock (Bool.not_eq_false _ ▸ hblock)] at h
  exact Option.some_ne_none head h.symm

/-! ## Quoted values -/

theorem unquoteYamlScalar_trim (value : Units) :
    unquoteYamlScalar (trim value) = unquoteYamlScalar value := by
  rw [unquoteYamlScalar, trim_trim, unquoteYamlScalar]

theorem isSpace_doubleQuote : isSpace doubleQuote = false := by decide

/-- A quoted value alone on its line is its trimmed content. -/
theorem unquoteYamlScalar_quoted {content tail : Units} (htail : isBlank tail = true) :
    unquoteYamlScalar (doubleQuote :: (content ++ doubleQuote :: tail)) = trim content := by
  have hsplit : doubleQuote :: (content ++ doubleQuote :: tail) =
      [] ++ (doubleQuote :: content ++ [doubleQuote]) ++ tail := by
    rw [List.nil_append, List.append_assoc, List.singleton_append, List.cons_append]
  have htrim : trim (doubleQuote :: (content ++ doubleQuote :: tail)) =
      doubleQuote :: content ++ [doubleQuote] := by
    rw [hsplit]
    apply trim_append (List.forall_mem_nil _) (isBlank_iff.mp htail)
    · intro unit hunit
      rw [← Option.some.inj hunit]
      exact isSpace_doubleQuote
    · intro unit hunit
      rw [List.getLast?_concat] at hunit
      rw [← Option.some.inj hunit]
      exact isSpace_doubleQuote
  have henclosed : enclosedBy doubleQuote (doubleQuote :: content ++ [doubleQuote]) = true := by
    rw [enclosedBy, List.getLast?_concat]
    rfl
  rw [unquoteYamlScalar, htrim]
  simp only [henclosed, Bool.true_or, if_true]
  rw [List.cons_append, List.drop_one, List.tail_cons, List.dropLast_concat]

theorem fieldValue_quoted {text : Units} (h : text.head? = some doubleQuote)
    (below : List Units) : fieldValue text below = unquoteYamlScalar text := by
  cases text with
  | nil => exact absurd h (Option.some_ne_none _).symm
  | cons unit rest =>
    rw [List.head?_cons, Option.some.injEq] at h
    have hblock : isBlockIndicator (unit :: rest) = false := by
      rw [h]
      rfl
    rw [fieldValue, if_neg (Bool.eq_false_iff.mp hblock), if_neg (List.cons_ne_nil _ _)]

/-! ## The value a field is left with -/

/-- What assignments in a row leave in a field. -/
def lastValue (made : List (Units × Units)) (key : Units) : Option Units :=
  fieldOf (made.foldl setField []) key

theorem lastValue_append_of_not_mem {key : Units} {later : List (Units × Units)}
    (h : key ∉ later.map Prod.fst) (made : List (Units × Units)) :
    lastValue (made ++ later) key = lastValue made key := by
  have hkept := @lookup_foldl_upsertWith_of_not_mem _ Units _ Prod.fst _
    (fun assignment stored => (stored.1, assignment.2)) id
    (fun _ _ => rfl) later (made.foldl setField []) _ h
  rw [lastValue, lastValue, List.foldl_append, fieldOf, fieldOf]
  exact congrArg (Option.map Prod.snd) hkept

theorem lastValue_append_cons {key : Units} {later : List (Units × Units)}
    (h : key ∉ later.map Prod.fst) (made : List (Units × Units)) (value : Units) :
    lastValue (made ++ (key, value) :: later) key = some value := by
  have hsplit : made ++ (key, value) :: later = (made ++ [(key, value)]) ++ later := by
    rw [List.append_assoc, List.singleton_append]
  have hset := lookup_upsertWith Prod.fst
    (fun stored => show Prod.fst (stored.1, value) = stored.1 from rfl) (made.foldl setField []) (key, value) key
  rw [if_pos rfl] at hset
  rw [hsplit, lastValue_append_of_not_mem h, lastValue, List.foldl_append, fieldOf,
    List.foldl_cons, List.foldl_nil, setField, hset]
  cases lookup Prod.fst (made.foldl setField []) key with
  | none => rfl
  | some stored => rfl

/-- A field that is assigned later keeps nothing of what came before. -/
theorem lastValue_append_of_mem {key : Units} {later : List (Units × Units)}
    (h : key ∈ later.map Prod.fst) (made made' : List (Units × Units)) :
    lastValue (made ++ later) key = lastValue (made' ++ later) key := by
  induction later using List.reverseRecOn generalizing made made' with
  | nil => exact absurd h List.not_mem_nil
  | append_singleton later last ih =>
    rw [← List.append_assoc, ← List.append_assoc]
    by_cases hlast : last.1 = key
    · have hpair : last = (key, last.2) := by rw [← hlast]
      rw [hpair, lastValue_append_cons List.not_mem_nil, lastValue_append_cons List.not_mem_nil]
    · have hother : key ∉ [last].map Prod.fst := by
        intro hmem
        exact hlast (List.mem_singleton.mp hmem).symm
      rw [lastValue_append_of_not_mem hother, lastValue_append_of_not_mem hother]
      apply ih
      rw [List.map_append, List.mem_append] at h
      exact h.resolve_right hother

theorem fieldOf_parse {source : Units} {lines : List Units}
    (h : frontmatterLines source = some lines) (key : Units) :
    fieldOf (parseSimpleFrontmatter source) key = lastValue (assignments lines) key := by
  rw [parseSimpleFrontmatter, assignmentsIn, h, lastValue]

/-- The last line that starts the field decides its value. -/
theorem fieldOf_parse_of_last {source line key tail : Units} {pre below : List Units}
    (h : frontmatterLines source = some (pre ++ line :: below))
    (hline : headOf line = some (key, tail)) (hlast : key ∉ keysOf below) :
    fieldOf (parseSimpleFrontmatter source) key = some (fieldValue (trim tail) below) := by
  rw [fieldOf_parse h, assignments_append_cons (inBlock_of_headOf hline), assignments_cons,
    assignedAt, hline, Option.map_some, Option.toList_some, List.singleton_append, assignmentOf]
  apply lastValue_append_cons
  rw [map_fst_assignments]
  exact hlast

/-! ## Rows written and split again -/

theorem splitRows_of_not_mem {row : Units} (hlf : newline ∉ row) (hcr : carriageReturn ∉ row) :
    splitRows row = [row] := by
  induction row with
  | nil => rfl
  | cons unit rest ih =>
    rw [List.mem_cons, not_or] at hlf hcr
    rw [splitRows, if_neg (Ne.symm hlf.1), if_neg fun h => hcr.1 h.1.symm, ih hlf.2 hcr.2]

theorem splitRows_append_newline {row : Units} (hlf : newline ∉ row)
    (hcr : carriageReturn ∉ row) (rest : Units) :
    splitRows (row ++ newline :: rest) = row :: splitRows rest := by
  induction row with
  | nil => rw [List.nil_append, splitRows, if_pos rfl]
  | cons unit row ih =>
    rw [List.mem_cons, not_or] at hlf hcr
    rw [List.cons_append, splitRows, if_neg (Ne.symm hlf.1), if_neg fun h => hcr.1 h.1.symm,
      ih hlf.2 hcr.2]

/-- Rows without line breaks are split as they were joined. -/
theorem splitRows_intercalate {rows : List Units} (hne : rows ≠ [])
    (h : ∀ row ∈ rows, newline ∉ row ∧ carriageReturn ∉ row) :
    splitRows ([newline].intercalate rows) = rows := by
  induction rows with
  | nil => exact absurd rfl hne
  | cons row rows ih =>
    obtain ⟨hlf, hcr⟩ := h row (List.mem_cons_self ..)
    cases rows with
    | nil => rw [List.intercalate_singleton, splitRows_of_not_mem hlf hcr]
    | cons next more =>
      rw [List.intercalate_cons_cons, List.append_assoc, List.singleton_append,
        splitRows_append_newline hlf hcr,
        ih (List.cons_ne_nil _ _) fun row hrow => h row (List.mem_cons_of_mem _ hrow)]

/-- A fenced block of rows is cut out as it was written. -/
theorem frontmatterLines_fenced {first : Units} {rows : List Units}
    (h : ∀ row ∈ first :: rows, newline ∉ row ∧ carriageReturn ∉ row) (hfence : fence ∉ rows) :
    frontmatterLines ([newline].intercalate (fence :: first :: rows ++ [fence, []])) =
      some (first :: rows) := by
  have hrows : ∀ row ∈ fence :: first :: rows ++ [fence, []],
      newline ∉ row ∧ carriageReturn ∉ row := by
    intro row hrow
    have hends : row = fence ∨ row = [] → newline ∉ row ∧ carriageReturn ∉ row := by
      rintro (rfl | rfl)
      · decide
      · decide
    rcases List.mem_append.mp hrow with hrow | hrow
    · rcases List.mem_cons.mp hrow with rfl | hrow
      · exact hends (Or.inl rfl)
      · exact h row hrow
    · rcases List.mem_cons.mp hrow with rfl | hrow
      · exact hends (Or.inl rfl)
      · exact hends (Or.inr (List.mem_singleton.mp hrow))
  have hkept : ∀ row ∈ rows, decide (row ≠ fence) = true := by
    intro row hrow
    rw [decide_eq_true_eq]
    rintro rfl
    exact hfence hrow
  rw [frontmatterLines, splitRows_intercalate (by simp) hrows, List.cons_append,
    List.cons_append]
  simp only
  rw [if_pos ⟨trivial, List.mem_append_right _ (List.mem_cons_self ..)⟩,
    List.takeWhile_append_of_pos hkept, List.takeWhile_cons_of_neg (by simp), List.append_nil]

/-! ## The two loops agree -/

theorem mem_addKey {keys : List Units} {key other : Units} :
    other ∈ addKey keys key ↔ other ∈ keys ∨ other = key := by
  rw [addKey]
  split_ifs with h
  · constructor
    · exact Or.inl
    · rintro (hother | rfl)
      · exact hother
      · exact h
  · rw [List.mem_append, List.mem_singleton]

/-- One more key met: a key seen before is doubled now, any other is seen from here on. -/
theorem repeated_cons {seen dupes keys : List Units} {key other : Units} :
    (other ∈ (if key ∈ seen then addKey dupes key else dupes) ∨
      2 ≤ keys.count other + if other ∈ (if key ∈ seen then seen else addKey seen key) then 1
        else 0) ↔
    other ∈ dupes ∨ 2 ≤ (key :: keys).count other + if other ∈ seen then 1 else 0 := by
  by_cases hseen : key ∈ seen
  · rw [if_pos hseen, if_pos hseen, mem_addKey]
    by_cases hkey : other = key
    · rw [hkey, List.count_cons_self, if_pos hseen]
      constructor
      · intro _
        right
        omega
      · intro _
        exact Or.inl (Or.inr rfl)
    · rw [List.count_cons_of_ne (Ne.symm hkey)]
      simp only [hkey, or_false]
  · rw [if_neg hseen, if_neg hseen]
    by_cases hkey : other = key
    · rw [hkey, List.count_cons_self, if_pos (mem_addKey.mpr (Or.inr rfl)), if_neg hseen]
    · rw [List.count_cons_of_ne (Ne.symm hkey)]
      simp only [mem_addKey, hkey, or_false]

theorem keysOf_cons_none {line : Units} (h : headOf line = none) (rest : List Units) :
    keysOf (line :: rest) = keysOf rest := by
  rw [keysOf, List.filterMap_cons_none h, keysOf]

theorem keysOf_cons_some {line key tail : Units} (h : headOf line = some (key, tail))
    (rest : List Units) : keysOf (line :: rest) = key :: keysOf rest := by
  rw [keysOf, List.filterMap_cons_some h, List.map_cons, keysOf]

theorem keysOf_dropWhile {skipped : Units → Bool}
    (h : ∀ line, skipped line = true → headOf line = none) (lines : List Units) :
    keysOf (lines.dropWhile skipped) = keysOf lines := by
  rw [keysOf, filterMap_dropWhile headOf h, keysOf]

/-- The check reports the keys it knows as doubled and those met twice, where a key seen
before counts as met once. -/
theorem mem_duplicatesFrom (lines seen dupes : List Units) (key : Units) :
    key ∈ duplicatesFrom seen dupes lines ↔
      key ∈ dupes ∨ 2 ≤ (keysOf lines).count key + if key ∈ seen then 1 else 0 := by
  induction seen, dupes, lines using duplicatesFrom.induct with
  | case1 seen dupes =>
    rw [duplicatesFrom, keysOf, List.filterMap_nil, List.map_nil, List.count_nil]
    split_ifs <;> simp
  | case2 seen dupes line rest hhead ih =>
    rw [duplicatesFrom, keysOf_cons_none hhead]
    simp only [hhead]
    exact ih
  | case3 seen dupes line rest first tail hhead seen' dupes' inline hblock ih =>
    rw [duplicatesFrom, keysOf_cons_some hhead]
    simp only [hhead]
    rw [if_pos hblock, ← repeated_cons, ← keysOf_dropWhile (fun _ => headOf_of_inBlock) rest]
    exact ih
  | case4 seen dupes line rest first tail hhead seen' dupes' inline hblock hempty ih =>
    rw [duplicatesFrom, keysOf_cons_some hhead]
    simp only [hhead]
    rw [if_neg hblock, if_pos hempty, ← repeated_cons,
      ← keysOf_dropWhile (fun _ => headOf_of_inList) rest]
    exact ih
  | case5 seen dupes line rest first tail hhead seen' dupes' inline hblock hempty ih =>
    rw [duplicatesFrom, keysOf_cons_some hhead]
    simp only [hhead]
    rw [if_neg hblock, if_neg hempty, ← repeated_cons]
    exact ih

/-- A key is reported as given twice exactly when the reader assigns it more than once. -/
theorem mem_findDuplicateFrontmatterKeys_iff (source key : Units) :
    key ∈ findDuplicateFrontmatterKeys source ↔
      1 < ((assignmentsIn source).map Prod.fst).count key := by
  rw [findDuplicateFrontmatterKeys, assignmentsIn]
  cases frontmatterLines source with
  | none => simp
  | some lines =>
    simp only
    rw [mem_duplicatesFrom, map_fst_assignments, if_neg List.not_mem_nil]
    constructor
    · rintro (h | h)
      · exact absurd h List.not_mem_nil
      · exact h
    · exact Or.inr

end Gittensory.Frontmatter
