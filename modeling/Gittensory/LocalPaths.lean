import Gittensory.DuplicateSignals

/-!
The redaction of local paths in diagnostics (`gittensory-mcp/lib/local-branch.js`,
`redactLocalPath`). Two replacements run one after the other; together they read a text once,
and what they take always ends where its run of path units does. A path at the root is found at
the start of a text, behind space, a quote or an equals sign. Behind a comma, a semicolon or an
opening bracket it stays.
-/
namespace Gittensory.LocalPaths

open CodeUnits
open DuplicateSignals (toLowerCase)

def slash : ℕ := 47

def quote : ℕ := 34

/-! ## The two replacements -/

section Replacements

/-- A double quote, a single quote or a backtick. -/
def isQuote (unit : ℕ) : Bool := unit = quote || unit = 39 || unit = 96

/-- A unit outside of space, quotes, comma, semicolon and closing parenthesis. -/
def isPathUnit (unit : ℕ) : Bool :=
  !(isSpace unit || isQuote unit || unit = 44 || unit = 59 || unit = 41)

/-- A path unit comes next. -/
def startsPath (text : Units) : Bool := text.head?.any isPathUnit

/-- `~/` or a drive letter with colon and backslash, and a path unit behind. -/
def startsHome : Units → Bool
  | first :: second :: rest =>
      (first = 126 && second = slash && startsPath rest) ||
        (isLetter first && second = 58 && rest.head? = some 92 && startsPath rest.tail)
  | _ => false

/-- `<local-path>` -/
def localPath : Units := units "<local-path>"

/-- The first replacement. All units of a match are path units, so it takes what is left of them;
`taking` says that a match is not over. -/
def redactHomes : Bool → Units → Units
  | _, [] => []
  | taking, unit :: rest =>
      if taking ∧ isPathUnit unit then redactHomes true rest
      else if startsHome (unit :: rest) then localPath ++ redactHomes true rest
      else unit :: redactHomes false rest

/-- The start of the text, space, a quote or an equals sign stands before. -/
def opens : Option ℕ → Bool
  | none => true
  | some unit => isSpace unit || isQuote unit || unit = 61

/-- A slash where a path may start, and a path unit behind. -/
def startsRoot (before : Option ℕ) : Units → Bool
  | [] => false
  | unit :: rest => unit = slash && startsPath rest && opens before

/-- The second replacement; `before` is the unit in front, which a match may have taken. -/
def redactRoots : Option ℕ → Bool → Units → Units
  | _, _, [] => []
  | before, taking, unit :: rest =>
      if taking ∧ isPathUnit unit then redactRoots (some unit) true rest
      else if startsRoot before (unit :: rest) then localPath ++ redactRoots (some unit) true rest
      else unit :: redactRoots (some unit) false rest

def redactLocalPath (text : Units) : Units := redactRoots none false (redactHomes false text)

end Replacements

/-! ## The status of the scorer -/

section Status

def flush (word : Units) : List Units := if word = [] then [] else [word]

/-- The matches of `/(?:[^\s"]+|"[^"]*")+/g`: a quote that is never closed parts two words. -/
def splitWords (quoted : Bool) (word : Units) : Units → List Units
  | [] => flush word
  | unit :: rest =>
      if quoted then splitWords (unit ≠ quote) (word ++ [unit]) rest
      else if unit = quote then
        if rest.contains quote then splitWords true (word ++ [unit]) rest
        else flush word ++ splitWords false [] rest
      else if isSpace unit then flush word ++ splitWords false [] rest
      else splitWords false (word ++ [unit]) rest

/-- `part.replace(/^"|"$/g, "")` -/
def unquote (part : Units) : Units :=
  let behind := if part.head? = some quote then part.tail else part
  if behind.getLast? = some quote then behind.dropLast else behind

def splitCommand (command : Units) : List Units := (splitWords false [] command).map unquote

/-- What stands behind the last slash or backslash. -/
def baseName (part : Units) : Units :=
  (part.reverse.takeWhile fun unit => unit ≠ slash && unit ≠ 92).reverse

def isScript (script : Units) : Bool :=
  [units ".mjs", units ".js", units ".cjs", units ".py"].any fun ending =>
    ending.isSuffixOf (toLowerCase script)

def redactScorerCommand (command : Units) : Units :=
  let text := trim command
  if text = [] then text
  else
    let parts := splitCommand text
    let interpreter := (parts.head?.map baseName).getD (units "command")
    let script := (parts.getLast?.map baseName).getD []
    if isScript script then interpreter ++ units " <scorer-script>/" ++ script
    else units "<configured-scorer-command>"

structure LocalScorerStatus where
  reason : Option Units
  stderr : Option Units
  scorerCommand : Option Units

/-- `value ? change(value) : undefined` -/
def changed (change : Units → Units) (value : Option Units) : Option Units :=
  (value.filter (· ≠ [])).map change

def sanitizeLocalScorerStatus (status : LocalScorerStatus) : LocalScorerStatus where
  reason := changed redactLocalPath status.reason
  stderr := changed redactLocalPath status.stderr
  scorerCommand := changed redactScorerCommand status.scorerCommand

end Status

/-! ## Redacted texts -/

section Redacted

def isDigitOrLetter (unit : ℕ) : Bool := isLetter unit || (48 ≤ unit && unit ≤ 57)

/-- A comma, a semicolon or an opening bracket. -/
def isListSign (unit : ℕ) : Bool :=
  unit = 44 || unit = 59 || unit = 40 || unit = 91 || unit = 123

/-- What a path may stand behind: a listed delimiter or the start of the text. -/
def delimits (before : Option ℕ) : Bool := opens before || before.any isListSign

/-- No path at the root and none at home, wherever it stands. -/
structure Redacted (text : Units) : Prop where
  roots : ∀ before unit behind, text = before ++ slash :: unit :: behind →
    isDigitOrLetter unit = true → delimits before.getLast? = false
  homes : ∀ before behind, text = before ++ behind → startsHome behind = false

/-- The redaction leaves no path, and nothing to do for a second one. -/
structure RedactsAll (text : Units) : Prop where
  redacted : Redacted (redactLocalPath text)
  again : redactLocalPath (redactLocalPath text) = redactLocalPath text

/-- A match of either replacement starts here. -/
def starts (before : Option ℕ) (text : Units) : Bool := startsHome text || startsRoot before text

/-- A match has started in the run of path units at the end of a text, before what is behind. -/
def Covered (front behind : Units) : Prop :=
  ∃ before run, front = before ++ run ∧ run ≠ [] ∧ (∀ unit ∈ run, isPathUnit unit = true) ∧
    starts before.getLast? (run ++ behind) = true

/-- Behind a comma, a semicolon or an opening bracket, outside of every match, a slash with a
letter or a digit that starts no path at home. -/
def Overlooked (text : Units) : Prop :=
  ∃ front unit behind, text = front ++ slash :: unit :: behind ∧ isDigitOrLetter unit = true ∧
    front.getLast?.any isListSign = true ∧ startsHome (unit :: behind) = false ∧
    ¬Covered front (slash :: unit :: behind)

end Redacted

/-! ## Both replacements in one reading -/

section OneReading

/-- What both replacements leave of a text. -/
def redacts : Option ℕ → Bool → Units → Units
  | _, _, [] => []
  | before, taking, unit :: rest =>
      if taking ∧ isPathUnit unit then redacts (some unit) true rest
      else if starts before (unit :: rest) then localPath ++ redacts (some unit) true rest
      else unit :: redacts (some unit) false rest

theorem isPathUnit_of_isLetter {unit : ℕ} (h : isLetter unit = true) : isPathUnit unit = true := by
  have hall : ∀ unit < 123, isLetter unit = true → isPathUnit unit = true := by decide +kernel
  refine hall unit ?_ h
  simp only [isLetter, Bool.or_eq_true, Bool.and_eq_true, decide_eq_true_eq] at h
  omega

theorem isPathUnit_of_isDigitOrLetter {unit : ℕ} (h : isDigitOrLetter unit = true) :
    isPathUnit unit = true := by
  have hall : ∀ unit < 123, isDigitOrLetter unit = true → isPathUnit unit = true := by
    decide +kernel
  refine hall unit ?_ h
  simp only [isDigitOrLetter, isLetter, Bool.or_eq_true, Bool.and_eq_true, decide_eq_true_eq] at h
  omega

/-- What starts a path is a path unit itself. -/
theorem isPathUnit_of_startsHome {unit : ℕ} {rest : Units}
    (h : startsHome (unit :: rest) = true) : isPathUnit unit = true := by
  cases rest with
  | nil => cases h
  | cons second rest =>
    simp only [startsHome, Bool.or_eq_true, Bool.and_eq_true, decide_eq_true_eq] at h
    rcases h with ⟨⟨rfl, -⟩, -⟩ | ⟨⟨⟨hletter, -⟩, -⟩, -⟩
    · decide
    · exact isPathUnit_of_isLetter hletter

theorem isPathUnit_slash : isPathUnit slash = true := by decide

theorem isPathUnit_of_starts {before : Option ℕ} {unit : ℕ} {rest : Units}
    (h : starts before (unit :: rest) = true) : isPathUnit unit = true := by
  rcases Bool.or_eq_true_iff.mp h with hhome | hroot
  · exact isPathUnit_of_startsHome hhome
  · simp only [startsRoot, Bool.and_eq_true, decide_eq_true_eq] at hroot
    rw [hroot.1.1]
    exact isPathUnit_slash

theorem starts_of_break {before : Option ℕ} {unit : ℕ} (h : isPathUnit unit = false)
    (rest : Units) : starts before (unit :: rest) = false := by
  by_contra hstarts
  rw [isPathUnit_of_starts (Bool.not_eq_false _ ▸ hstarts)] at h
  cases h

theorem startsHome_eq_false {before : Option ℕ} {text : Units} (h : starts before text = false) :
    startsHome text = false := (Bool.or_eq_false_iff.mp h).1

/-- The reading of a unit that a match takes, that starts one, and of any other. -/
theorem redacts_taken {unit : ℕ} (h : isPathUnit unit = true) (before : Option ℕ) (rest : Units) :
    redacts before true (unit :: rest) = redacts (some unit) true rest := if_pos ⟨rfl, h⟩

theorem redacts_break {unit : ℕ} (h : isPathUnit unit = false) (before : Option ℕ)
    (taking : Bool) (rest : Units) :
    redacts before taking (unit :: rest) = unit :: redacts (some unit) false rest := by
  rw [redacts, if_neg fun hboth => absurd (h.symm.trans hboth.2) Bool.false_ne_true,
    starts_of_break h, if_neg Bool.false_ne_true]

theorem redacts_start {before : Option ℕ} {unit : ℕ} {rest : Units}
    (h : starts before (unit :: rest) = true) :
    redacts before false (unit :: rest) = localPath ++ redacts (some unit) true rest := by
  rw [redacts, if_neg fun hboth => Bool.false_ne_true hboth.1, if_pos h]

theorem redacts_kept {before : Option ℕ} {unit : ℕ} {rest : Units}
    (h : starts before (unit :: rest) = false) :
    redacts before false (unit :: rest) = unit :: redacts (some unit) false rest := by
  rw [redacts, if_neg fun hboth => Bool.false_ne_true hboth.1, h, if_neg Bool.false_ne_true]

/-- What stands for a path is made of path units and has no slash. -/
theorem localPath_units : ∀ unit ∈ localPath, isPathUnit unit = true ∧ unit ≠ slash := by decide

/-- The last unit of a text with one more in front. -/
theorem last_cons (unit : ℕ) (front : Units) (before : Option ℕ) :
    (unit :: front).getLast?.or before = front.getLast?.or (some unit) := by
  cases front with
  | nil => rfl
  | cons next more =>
    rw [List.getLast?_cons_cons, List.getLast?_eq_some_getLast (List.cons_ne_nil _ _)]
    rfl

theorem redactRoots_append_kept {kept : Units} (h : ∀ unit ∈ kept, unit ≠ slash)
    (before : Option ℕ) (rest : Units) :
    redactRoots before false (kept ++ rest) =
      kept ++ redactRoots (kept.getLast?.or before) false rest := by
  induction kept generalizing before with
  | nil => rfl
  | cons unit kept ih =>
    obtain ⟨hunit, hkept⟩ := List.forall_mem_cons.mp h
    have hroot : startsRoot before (unit :: (kept ++ rest)) = false := by
      rw [startsRoot, decide_eq_false hunit, Bool.false_and, Bool.false_and]
    rw [List.cons_append, redactRoots, if_neg fun hboth => Bool.false_ne_true hboth.1, hroot,
      if_neg Bool.false_ne_true, ih hkept, last_cons, List.cons_append]

theorem redactRoots_append_taken {taken : Units} (h : ∀ unit ∈ taken, isPathUnit unit = true)
    (before : Option ℕ) (rest : Units) :
    ∃ last, redactRoots before true (taken ++ rest) = redactRoots last true rest := by
  induction taken generalizing before with
  | nil => exact ⟨before, rfl⟩
  | cons unit taken ih =>
    obtain ⟨hunit, htaken⟩ := List.forall_mem_cons.mp h
    obtain ⟨last, hlast⟩ := ih htaken (some unit)
    exact ⟨last, by rw [List.cons_append, redactRoots, if_pos ⟨rfl, hunit⟩, hlast]⟩

theorem startsPath_redactHomes (text : Units) :
    startsPath (redactHomes false text) = startsPath text := by
  cases text with
  | nil => rfl
  | cons unit rest =>
    rw [redactHomes, if_neg fun hboth => Bool.false_ne_true hboth.1]
    split_ifs with hhome
    · have hpath : startsPath (unit :: rest) = true := isPathUnit_of_startsHome hhome
      rw [hpath]
      rfl
    · rfl

/-- The second replacement after the first one reads a text as both in one, in every state. -/
theorem redactRoots_redactHomes (text : Units) :
    (∀ before, redactRoots before false (redactHomes false text) = redacts before false text) ∧
      (∀ before before' taking, redactRoots before taking (redactHomes true text) =
        redacts before' true text) ∧
      ∀ before before', redactRoots before true (redactHomes false text) =
        redacts before' true text := by
  induction text with
  | nil => exact ⟨fun _ => rfl, fun _ _ _ => rfl, fun _ _ => rfl⟩
  | cons unit rest ih =>
    obtain ⟨hkept, htaken, hleft⟩ := ih
    have hbreak : ∀ before taking, isPathUnit unit = false →
        redactRoots before taking (unit :: redactHomes false rest) =
          unit :: redacts (some unit) false rest := fun before taking hunit => by
      have hroot : startsRoot before (unit :: redactHomes false rest) = false :=
        (Bool.or_eq_false_iff.mp (starts_of_break hunit _)).2
      rw [redactRoots, if_neg fun hboth => absurd (hunit.symm.trans hboth.2) Bool.false_ne_true,
        hroot, if_neg Bool.false_ne_true, hkept]
    refine ⟨fun before => ?_, fun before before' taking => ?_, fun before before' => ?_⟩
    · rw [redactHomes, if_neg fun hboth => Bool.false_ne_true hboth.1]
      by_cases hhome : startsHome (unit :: rest) = true
      · have hstarts : starts before (unit :: rest) = true := by rw [starts, hhome, Bool.true_or]
        rw [if_pos hhome, redacts_start hstarts,
          redactRoots_append_kept fun unit hunit => (localPath_units unit hunit).2, htaken]
      · have hroot : startsRoot before (unit :: redactHomes false rest) =
            startsRoot before (unit :: rest) := by
          rw [startsRoot, startsRoot, startsPath_redactHomes]
        have hstarts : starts before (unit :: rest) = startsRoot before (unit :: rest) := by
          rw [starts, Bool.eq_false_iff.mpr hhome, Bool.false_or]
        have hnot : ¬(false = true ∧ isPathUnit unit = true) := fun h => Bool.false_ne_true h.1
        rw [if_neg hhome, redactRoots, redacts, if_neg hnot, if_neg hnot, hroot, hstarts,
          hleft (some unit) (some unit), hkept]
    · cases hunit : isPathUnit unit with
      | true =>
        rw [redacts_taken hunit, redactHomes, if_pos ⟨rfl, hunit⟩]
        exact htaken before (some unit) taking
      | false =>
        rw [redactHomes, if_neg fun hboth => absurd (hunit.symm.trans hboth.2) Bool.false_ne_true,
          startsHome_eq_false (starts_of_break hunit rest : starts none _ = false),
          if_neg Bool.false_ne_true, hbreak before taking hunit, redacts_break hunit]
    · rw [redactHomes, if_neg fun hboth => Bool.false_ne_true hboth.1]
      cases hunit : isPathUnit unit with
      | true =>
        rw [redacts_taken hunit]
        split_ifs with hhome
        · obtain ⟨last, hlast⟩ := redactRoots_append_taken
            (fun unit hunit => (localPath_units unit hunit).1) before (redactHomes true rest)
          rw [hlast, htaken]
        · rw [redactRoots, if_pos ⟨rfl, hunit⟩, hleft]
      | false =>
        rw [startsHome_eq_false (starts_of_break hunit rest : starts none _ = false),
          if_neg Bool.false_ne_true, hbreak before true hunit, redacts_break hunit]

theorem redactLocalPath_eq_redacts (text : Units) :
    redactLocalPath text = redacts none false text := (redactRoots_redactHomes text).1 none

end OneReading

/-! ## What is left -/

section Left

/-- No match starts in a text. -/
def Free : Option ℕ → Units → Prop
  | _, [] => True
  | before, unit :: rest => starts before (unit :: rest) = false ∧ Free (some unit) rest

theorem redacts_of_free {before : Option ℕ} {text : Units} (h : Free before text) :
    redacts before false text = text := by
  induction text generalizing before with
  | nil => rfl
  | cons unit rest ih => rw [redacts_kept h.1, ih h.2]

/-- Nothing starts where a match is replaced. -/
theorem free_localPath {before : Option ℕ} {rest : Units} (h : Free (some 62) rest) :
    Free before (localPath ++ rest) := by
  have hlast : starts (some 104) (62 :: rest) = false := by
    cases rest <;> rfl
  exact ⟨rfl, rfl, rfl, rfl, rfl, rfl, rfl, rfl, rfl, rfl, rfl, hlast, h⟩

/-- A unit that is read as it stands, unless it is the first one of a match. -/
theorem exists_of_redacts_cons {before : Option ℕ} {text behind : Units} {unit : ℕ}
    (h : redacts before false text = unit :: behind) (hunit : unit ≠ 60) :
    ∃ rest, text = unit :: rest ∧ behind = redacts (some unit) false rest := by
  cases text with
  | nil => cases h
  | cons first rest =>
    cases hstarts : starts before (first :: rest) with
    | true =>
      rw [redacts_start hstarts] at h
      exact absurd (List.cons.inj h).1.symm hunit
    | false =>
      rw [redacts_kept hstarts] at h
      obtain ⟨rfl, rfl⟩ := List.cons.inj h
      exact ⟨rest, rfl, rfl⟩

theorem startsPath_redacts (before : Option ℕ) (text : Units) :
    startsPath (redacts before false text) = startsPath text := by
  cases text with
  | nil => rfl
  | cons unit rest =>
    cases hstarts : starts before (unit :: rest) with
    | true =>
      have hpath : startsPath (unit :: rest) = true := isPathUnit_of_starts hstarts
      rw [redacts_start hstarts, hpath]
      rfl
    | false =>
      rw [redacts_kept hstarts]
      rfl

/-- What is read behind a unit does not make it start a match. -/
theorem starts_redacts {before : Option ℕ} {unit : ℕ} {rest : Units}
    (h : starts before (unit :: rest) = false) :
    starts before (unit :: redacts (some unit) false rest) = false := by
  obtain ⟨hhome, hroot⟩ := Bool.or_eq_false_iff.mp h
  refine Bool.or_eq_false_iff.mpr ⟨?_, ?_⟩
  · by_contra hstarts
    have hnew := Bool.not_eq_false _ ▸ hstarts
    generalize hout : redacts (some unit) false rest = out at hnew
    cases out with
    | nil => cases hnew
    | cons second out =>
      simp only [startsHome, Bool.or_eq_true, Bool.and_eq_true, decide_eq_true_eq] at hnew
      rcases hnew with ⟨⟨rfl, rfl⟩, hpath⟩ | ⟨⟨⟨hletter, rfl⟩, hthird⟩, hpath⟩
      · obtain ⟨more, rfl, rfl⟩ := exists_of_redacts_cons hout (by decide)
        rw [startsPath_redacts] at hpath
        have hold : startsHome (126 :: slash :: more) = true := by
          rw [startsHome, hpath]
          rfl
        exact absurd (hold.symm.trans hhome) Bool.noConfusion
      · obtain ⟨more, rfl, rfl⟩ := exists_of_redacts_cons hout (by decide)
        obtain ⟨third, hthird'⟩ : ∃ third, redacts (some 58) false more = 92 :: third := by
          cases hmore : redacts (some 58) false more with
          | nil =>
            rw [hmore] at hthird
            cases hthird
          | cons first third =>
            rw [hmore] at hthird
            obtain rfl : first = 92 := Option.some.inj hthird
            exact ⟨third, rfl⟩
        obtain ⟨last, rfl, rfl⟩ := exists_of_redacts_cons hthird' (by decide)
        rw [hthird', List.tail_cons, startsPath_redacts] at hpath
        have hold : startsHome (unit :: 58 :: 92 :: last) = true := by
          rw [startsHome, hletter, List.tail_cons, hpath]
          exact Bool.or_eq_true_iff.mpr (Or.inr rfl)
        exact absurd (hold.symm.trans hhome) Bool.noConfusion
  · rw [startsRoot, startsPath_redacts]
    exact hroot

theorem free_redacts (text : Units) :
    (∀ before, Free before (redacts before false text)) ∧
      ∀ before before', Free before (redacts before' true text) := by
  induction text with
  | nil => exact ⟨fun _ => trivial, fun _ _ => trivial⟩
  | cons unit rest ih =>
    obtain ⟨hkept, htaken⟩ := ih
    refine ⟨fun before => ?_, fun before before' => ?_⟩
    · cases hstarts : starts before (unit :: rest) with
      | true =>
        rw [redacts_start hstarts]
        exact free_localPath (htaken _ _)
      | false =>
        rw [redacts_kept hstarts]
        exact ⟨starts_redacts hstarts, hkept _⟩
    · cases hunit : isPathUnit unit with
      | true =>
        rw [redacts_taken hunit]
        exact htaken _ _
      | false =>
        rw [redacts_break hunit]
        exact ⟨starts_of_break hunit _, hkept _⟩

theorem starts_of_free {before : Option ℕ} {front behind : Units}
    (h : Free before (front ++ behind)) (hne : behind ≠ []) : starts (front.getLast?.or before) behind = false := by
  induction front generalizing before with
  | nil =>
    cases behind with
    | nil => exact absurd rfl hne
    | cons unit rest => exact h.1
  | cons unit front ih =>
    rw [last_cons]
    exact ih h.2

theorem free_redactLocalPath (text : Units) : Free none (redactLocalPath text) := by
  rw [redactLocalPath_eq_redacts]
  exact (free_redacts text).1 none

/-- A second redaction changes nothing. -/
theorem redactLocalPath_redactLocalPath (text : Units) :
    redactLocalPath (redactLocalPath text) = redactLocalPath text := by
  rw [redactLocalPath_eq_redacts (redactLocalPath text)]
  exact redacts_of_free (free_redactLocalPath text)

/-- No path at home is left. -/
theorem startsHome_of_redactLocalPath {text before behind : Units}
    (h : redactLocalPath text = before ++ behind) : startsHome behind = false := by
  cases behind with
  | nil => rfl
  | cons unit rest =>
    have hfree := free_redactLocalPath text
    rw [h] at hfree
    exact startsHome_eq_false (starts_of_free hfree (List.cons_ne_nil _ _))

/-- No path is left where the replacements look for one. -/
theorem opens_of_redactLocalPath {text before behind : Units} {unit : ℕ}
    (h : redactLocalPath text = before ++ slash :: unit :: behind)
    (hunit : isPathUnit unit = true) : opens before.getLast? = false := by
  have hfree := free_redactLocalPath text
  rw [h] at hfree
  have hroot := (Bool.or_eq_false_iff.mp (starts_of_free hfree (List.cons_ne_nil _ _))).2
  rw [Option.or_none, startsRoot] at hroot
  have hpath : startsPath (unit :: behind) = true := hunit
  rw [hpath] at hroot
  simpa using hroot

end Left

/-! ## Paths behind a list sign -/

section Listed

/-- A slash with a letter or a digit behind a list sign. -/
def showsPath (before : Option ℕ) (unit : ℕ) (rest : Units) : Bool :=
  unit = slash && rest.head?.any isDigitOrLetter && before.any isListSign

def exposed : Option ℕ → Units → Bool
  | _, [] => false
  | before, unit :: rest => showsPath before unit rest || exposed (some unit) rest

/-- Such a slash outside of every match, with no match right behind it. -/
def overlooked : Option ℕ → Bool → Units → Bool
  | _, _, [] => false
  | before, taking, unit :: rest =>
      if taking ∧ isPathUnit unit then overlooked (some unit) true rest
      else if starts before (unit :: rest) then overlooked (some unit) true rest
      else (showsPath before unit rest && !startsHome rest) || overlooked (some unit) false rest

theorem exposed_iff {before : Option ℕ} {text : Units} :
    exposed before text = true ↔ ∃ front unit behind, text = front ++ slash :: unit :: behind ∧
      isDigitOrLetter unit = true ∧ (front.getLast?.or before).any isListSign = true := by
  induction text generalizing before with
  | nil =>
    refine iff_of_false Bool.false_ne_true ?_
    rintro ⟨front, unit, behind, h, -⟩
    exact absurd h.symm (by simp)
  | cons first rest ih =>
    rw [exposed, Bool.or_eq_true, ih]
    constructor
    · rintro (hshows | ⟨front, unit, behind, rfl, hunit, hsign⟩)
      · simp only [showsPath, Bool.and_eq_true, decide_eq_true_eq] at hshows
        obtain ⟨⟨rfl, hhead⟩, hsign⟩ := hshows
        cases rest with
        | nil => cases hhead
        | cons unit behind => exact ⟨[], unit, behind, rfl, hhead, hsign⟩
      · exact ⟨first :: front, unit, behind, rfl, hunit, by rwa [last_cons]⟩
    · rintro ⟨front, unit, behind, hcut, hunit, hsign⟩
      cases front with
      | nil =>
        obtain ⟨rfl, rfl⟩ := List.cons.inj hcut
        left
        simp only [showsPath, Bool.and_eq_true, decide_eq_true_eq]
        exact ⟨⟨trivial, hunit⟩, hsign⟩
      | cons next front =>
        obtain ⟨rfl, rfl⟩ := List.cons.inj hcut
        right
        exact ⟨front, unit, behind, rfl, hunit, by rwa [last_cons] at hsign⟩

/-- What is shown behind a unit is what stood there, unless a path at home started. -/
theorem showsPath_redacts (before : Option ℕ) (unit : ℕ) (rest : Units) :
    showsPath before unit (redacts (some unit) false rest) =
      (showsPath before unit rest && !startsHome rest) := by
  unfold showsPath
  by_cases hslash : unit = slash
  · have hhead : (redacts (some unit) false rest).head?.any isDigitOrLetter =
        (rest.head?.any isDigitOrLetter && !startsHome rest) := by
      cases rest with
      | nil => rfl
      | cons first more =>
        have hstarts : starts (some unit) (first :: more) = startsHome (first :: more) := by
          have hopens : opens (some unit) = false := by
            rw [hslash]
            decide
          rw [starts, startsRoot, hopens, Bool.and_false, Bool.or_false]
        cases hhome : startsHome (first :: more) with
        | true =>
          rw [redacts_start (hstarts.trans hhome), Bool.not_true, Bool.and_false]
          rfl
        | false =>
          rw [redacts_kept (hstarts.trans hhome), Bool.not_false, Bool.and_true]
          rfl
    rw [hhead, decide_eq_true hslash, Bool.true_and, Bool.true_and, Bool.and_assoc, Bool.and_assoc,
      Bool.and_comm (!startsHome rest)]
  · rw [decide_eq_false hslash, Bool.false_and, Bool.false_and, Bool.false_and, Bool.false_and,
      Bool.false_and]

theorem exposed_localPath (before : Option ℕ) (rest : Units) :
    exposed before (localPath ++ rest) = exposed (some 62) rest := rfl

theorem exposed_redacts (text : Units) :
    (∀ before, exposed before (redacts before false text) = overlooked before false text) ∧
      ∀ before before', exposed before (redacts before' true text) =
        overlooked before' true text := by
  induction text with
  | nil => exact ⟨fun _ => rfl, fun _ _ => rfl⟩
  | cons unit rest ih =>
    obtain ⟨hkept, htaken⟩ := ih
    refine ⟨fun before => ?_, fun before before' => ?_⟩
    · rw [overlooked, if_neg fun hboth => Bool.false_ne_true hboth.1]
      cases hstarts : starts before (unit :: rest) with
      | true => rw [redacts_start hstarts, exposed_localPath, htaken, if_pos rfl]
      | false =>
        rw [redacts_kept hstarts, exposed, showsPath_redacts, hkept, if_neg Bool.false_ne_true]
    · rw [overlooked]
      cases hunit : isPathUnit unit with
      | true => rw [redacts_taken hunit, htaken before (some unit), if_pos ⟨rfl, rfl⟩]
      | false =>
        have hslash : ¬unit = slash := fun heq => by
          rw [heq, isPathUnit_slash] at hunit
          cases hunit
        have hshows : ∀ before rest, showsPath before unit rest = false := fun before rest => by
          rw [showsPath, decide_eq_false hslash, Bool.false_and, Bool.false_and]
        rw [redacts_break hunit, exposed, hkept, hshows, hshows, starts_of_break hunit,
          if_neg fun hboth => Bool.false_ne_true hboth.2, if_neg Bool.false_ne_true,
          Bool.false_and]

/-- A match is not over behind `front`. -/
def taken : Option ℕ → Bool → Units → Units → Bool
  | _, taking, [], _ => taking
  | before, taking, unit :: front, behind =>
      taken (some unit) ((taking && isPathUnit unit) || starts before (unit :: front ++ behind))
        front behind

theorem opens_of_isListSign {before : Option ℕ} (h : before.any isListSign = true) :
    opens before = false := by
  cases before with
  | none => cases h
  | some unit =>
    have hunit : isListSign unit = true := h
    simp only [isListSign, Bool.or_eq_true, decide_eq_true_eq] at hunit
    rcases hunit with (((rfl | rfl) | rfl) | rfl) | rfl <;> decide

/-- Where a path is shown behind a list sign, no match starts. -/
theorem starts_of_showsPath {before : Option ℕ} {unit : ℕ} {rest : Units}
    (h : showsPath before unit rest = true) :
    unit = slash ∧ starts before (unit :: rest) = false := by
  simp only [showsPath, Bool.and_eq_true, decide_eq_true_eq] at h
  obtain ⟨⟨rfl, -⟩, hsign⟩ := h
  refine ⟨rfl, Bool.or_eq_false_iff.mpr ⟨?_, ?_⟩⟩
  · cases rest <;> rfl
  · rw [startsRoot, opens_of_isListSign hsign, Bool.and_false]

theorem overlooked_cons (before : Option ℕ) (taking : Bool) (unit : ℕ) (rest : Units) :
    overlooked before taking (unit :: rest) =
      ((!taking && (showsPath before unit rest && !startsHome rest)) ||
        overlooked (some unit) ((taking && isPathUnit unit) || starts before (unit :: rest))
          rest) := by
  rw [overlooked]
  cases hshows : showsPath before unit rest with
  | true =>
    obtain ⟨rfl, hstarts⟩ := starts_of_showsPath hshows
    rw [hstarts, isPathUnit_slash]
    cases taking <;> simp
  | false =>
    cases taking <;> cases isPathUnit unit <;> cases starts before (unit :: rest) <;> simp

theorem overlooked_iff {before : Option ℕ} {taking : Bool} {text : Units} :
    overlooked before taking text = true ↔ ∃ front unit behind,
      text = front ++ slash :: unit :: behind ∧ isDigitOrLetter unit = true ∧
        (front.getLast?.or before).any isListSign = true ∧ startsHome (unit :: behind) = false ∧
        taken before taking front (slash :: unit :: behind) = false := by
  induction text generalizing before taking with
  | nil =>
    refine iff_of_false Bool.false_ne_true ?_
    rintro ⟨front, unit, behind, h, -⟩
    exact absurd h.symm (by simp)
  | cons first rest ih =>
    rw [overlooked_cons, Bool.or_eq_true, ih]
    constructor
    · rintro (hhere | ⟨front, unit, behind, rfl, hunit, hsign, hhome, htaken⟩)
      · simp only [showsPath, Bool.and_eq_true, Bool.not_eq_true', decide_eq_true_eq] at hhere
        obtain ⟨htaking, ⟨⟨rfl, hhead⟩, hsign⟩, hhome⟩ := hhere
        cases rest with
        | nil => cases hhead
        | cons unit behind => exact ⟨[], unit, behind, rfl, hhead, hsign, hhome, htaking⟩
      · exact ⟨first :: front, unit, behind, rfl, hunit, by rwa [last_cons], hhome, htaken⟩
    · rintro ⟨front, unit, behind, hcut, hunit, hsign, hhome, htaken⟩
      cases front with
      | nil =>
        obtain ⟨rfl, rfl⟩ := List.cons.inj hcut
        left
        simp only [showsPath, Bool.and_eq_true, Bool.not_eq_true', decide_eq_true_eq]
        exact ⟨htaken, ⟨⟨trivial, hunit⟩, hsign⟩, hhome⟩
      | cons next front =>
        obtain ⟨rfl, rfl⟩ := List.cons.inj hcut
        right
        exact ⟨front, unit, behind, rfl, hunit, by rwa [last_cons] at hsign, hhome, htaken⟩

theorem taken_append (before : Option ℕ) (taking : Bool) (front : Units) (unit : ℕ)
    (behind : Units) : taken before taking (front ++ [unit]) behind =
      ((taken before taking front (unit :: behind) && isPathUnit unit) ||
        starts (front.getLast?.or before) (unit :: behind)) := by
  induction front generalizing before taking with
  | nil => rfl
  | cons first front ih =>
    rw [List.cons_append, taken, ih, last_cons, taken]
    simp only [List.cons_append, List.append_assoc, List.nil_append]

/-- A match is not over exactly when one started in the run of path units before. -/
theorem taken_iff_covered (front behind : Units) :
    taken none false front behind = true ↔ Covered front behind := by
  induction front using List.reverseRecOn generalizing behind with
  | nil =>
    refine iff_of_false Bool.false_ne_true ?_
    rintro ⟨before, run, hcut, hne, -⟩
    exact hne (List.append_eq_nil_iff.mp hcut.symm).2
  | append_singleton front unit ih =>
    rw [taken_append, Bool.or_eq_true, Bool.and_eq_true, ih, Option.or_none]
    constructor
    · rintro (⟨⟨before, run, rfl, hne, hrun, hstarts⟩, hunit⟩ | hstarts)
      · refine ⟨before, run ++ [unit], List.append_assoc .., by simp, ?_, ?_⟩
        · intro other hother
          rcases List.mem_append.mp hother with hmem | hmem
          · exact hrun other hmem
          · rwa [List.mem_singleton.mp hmem]
        · rwa [List.append_assoc]
      · refine ⟨front, [unit], rfl, List.cons_ne_nil _ _, ?_, hstarts⟩
        exact List.forall_mem_singleton.mpr (isPathUnit_of_starts hstarts)
    · rintro ⟨before, run, hcut, hne, hrun, hstarts⟩
      rcases List.eq_nil_or_concat run with rfl | ⟨init, last, rfl⟩
      · exact absurd rfl hne
      rw [List.concat_eq_append] at hcut hrun hstarts
      rw [← List.append_assoc] at hcut
      obtain ⟨rfl, hlast⟩ := List.append_inj' hcut rfl
      obtain rfl := (List.cons.inj hlast).1
      rw [List.append_assoc, List.singleton_append] at hstarts
      by_cases hinit : init = []
      · right
        rwa [hinit, List.append_nil, ← List.nil_append (unit :: behind), ← hinit]
      · left
        refine ⟨⟨before, init, rfl, hinit, fun other hother => ?_, hstarts⟩, ?_⟩
        · exact hrun other (List.mem_append_left _ hother)
        · exact hrun unit (List.mem_append_right _ (List.mem_singleton_self _))

/-- A path is left behind a list sign exactly where the replacements do not look. -/
theorem exposed_redactLocalPath_iff (text : Units) :
    exposed none (redactLocalPath text) = true ↔ Overlooked text := by
  rw [redactLocalPath_eq_redacts, (exposed_redacts text).1, overlooked_iff]
  unfold Overlooked
  simp only [Option.or_none, ← taken_iff_covered, Bool.not_eq_true]

/-- The redaction of a text does what it should exactly when no path stands where it does not
look. -/
theorem redactsAll_iff (text : Units) : RedactsAll text ↔ ¬Overlooked text := by
  rw [← exposed_redactLocalPath_iff, exposed_iff]
  constructor
  · rintro h ⟨front, unit, behind, hcut, hunit, hsign⟩
    have hroot := h.redacted.roots front unit behind hcut hunit
    rw [Option.or_none] at hsign
    rw [delimits, hsign, Bool.or_true] at hroot
    cases hroot
  · intro h
    refine ⟨⟨fun before unit behind hcut hunit => ?_, fun before behind hcut =>
      startsHome_of_redactLocalPath hcut⟩, redactLocalPath_redactLocalPath text⟩
    have hopens := opens_of_redactLocalPath hcut (isPathUnit_of_isDigitOrLetter hunit)
    rw [delimits, hopens, Bool.false_or]
    by_contra hsign
    exact h ⟨before, unit, behind, hcut, hunit, by
      rw [Option.or_none]
      exact Bool.not_eq_false _ ▸ hsign⟩

theorem redacted_changed_iff (value : Option Units) :
    (∀ text, changed redactLocalPath value = some text → Redacted text) ↔
      ∀ text, value = some text → ¬Overlooked text := by
  have hall : ∀ text, Redacted (redactLocalPath text) ↔ ¬Overlooked text := fun text => by
    rw [← redactsAll_iff]
    exact ⟨fun h => ⟨h, redactLocalPath_redactLocalPath text⟩, RedactsAll.redacted⟩
  cases value with
  | none => exact iff_of_true (fun text h => by cases h) fun text h => by cases h
  | some text =>
    by_cases hempty : text = []
    · refine iff_of_true (fun other h => ?_) fun other h => ?_
      · rw [hempty] at h
        cases h
      · obtain rfl := Option.some.inj h
        rw [hempty]
        rintro ⟨front, unit, behind, hcut, -⟩
        exact absurd hcut.symm (by simp)
    · have hchanged : changed redactLocalPath (some text) = some (redactLocalPath text) := by
        rw [changed, Option.filter_some, if_pos (decide_eq_true hempty), Option.map_some]
      rw [hchanged]
      simp only [Option.some.injEq, forall_eq']
      exact hall text

/-- A text, and the reason and the output of a scorer, are redacted exactly when no path stands
where the redaction does not look. -/
theorem redaction_complete_iff (text : Units) (status : LocalScorerStatus) :
    (RedactsAll text ↔ ¬Overlooked text) ∧
      ((∀ shown, (sanitizeLocalScorerStatus status).reason = some shown ∨
          (sanitizeLocalScorerStatus status).stderr = some shown → Redacted shown) ↔
        ∀ given, status.reason = some given ∨ status.stderr = some given → ¬Overlooked given) := by
  refine ⟨redactsAll_iff text, ?_⟩
  simp only [or_imp, forall_and]
  exact and_congr (redacted_changed_iff _) (redacted_changed_iff _)

/-- A frame of a stack trace has its path in parentheses. -/
theorem parenthesized_path_stays : ¬RedactsAll (units "at run (/home/me/a.js)") := by
  intro h
  have hroot := h.redacted.roots (units "at run (") 104 (units "ome/me/a.js)")
    (by decide) (by decide)
  exact absurd hroot (by decide)

end Listed

end Gittensory.LocalPaths
