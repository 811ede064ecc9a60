import Gittensory.ChangeGuardrail
import Gittensory.Redaction
import Mathlib.Data.List.Induction

/-!
The compiled glob against the glob semantics its comments state. A path is read by a glob
token by token; both sides accept a path that has a reading, but they ask for different
ones: the compiled dot keeps every `**` within a line, and the semantics lets `**/` stand
for whole directories only.
-/
namespace Gittensory.GuardrailGlobs

open ChangeGuardrail Redaction TextPattern

/-- A `**` takes the slash after it along. -/
inductive Token where
  | letter (c : Char)
  | star
  | starStar
  | directories
  deriving DecidableEq, Repr

def tokens : Text → List Token
  | '*' :: '*' :: '/' :: rest => .directories :: tokens rest
  | '*' :: '*' :: rest => .starStar :: tokens rest
  | '*' :: rest => .star :: tokens rest
  | c :: rest => .letter c :: tokens rest
  | [] => []

/-! ## The glob semantics -/

/-- What a token stands for: `*` for letters other than the slash, `**` for anything, and
`**/` for directories, possibly none. -/
def Token.stands : Token → Text → Bool
  | .letter c, run => run = [c]
  | .star, run => '/' ∉ run
  | .starStar, _ => true
  | .directories, run => run = [] ∨ run.getLast? = some '/'

/-- Every way to cut a text in two. -/
def cuts (path : Text) : List (Text × Text) :=
  (List.range (path.length + 1)).map (fun n => (path.take n, path.drop n))

/-- The path falls into one stretch for each token, each of them allowed there. -/
def covers (allowed : Token → Text → Bool) : List Token → Text → Bool
  | [], path => path.isEmpty
  | token :: rest, path =>
      (cuts path).any (fun cut => allowed token cut.1 && covers allowed rest cut.2)

def globMatches (glob path : String) : Bool :=
  covers Token.stands (tokens glob.toList) path.toList

theorem mem_cuts_iff (path before after : Text) :
    (before, after) ∈ cuts path ↔ before ++ after = path := by
  simp only [cuts, List.mem_map, List.mem_range, Prod.mk.injEq]
  constructor
  · rintro ⟨n, -, rfl, rfl⟩
    exact List.take_append_drop n path
  · rintro rfl
    refine ⟨before.length, ?_, List.take_left, List.drop_left⟩
    rw [List.length_append]
    omega

theorem covers_iff (allowed : Token → Text → Bool) (parts : List Token) (path : Text) :
    covers allowed parts path = true ↔
      ∃ runs, List.Forall₂ (fun token run => allowed token run = true) parts runs ∧
        runs.flatten = path := by
  induction parts generalizing path with
  | nil =>
    rw [covers, List.isEmpty_iff]
    constructor
    · rintro rfl
      exact ⟨[], List.Forall₂.nil, rfl⟩
    · rintro ⟨runs, hruns, rfl⟩
      cases hruns
      rfl
  | cons token rest ih =>
    simp only [covers, List.any_eq_true, Bool.and_eq_true]
    constructor
    · rintro ⟨⟨run, left⟩, hcut, hrun, hrest⟩
      obtain ⟨runs, hruns, rfl⟩ := (ih left).mp hrest
      exact ⟨run :: runs, List.Forall₂.cons hrun hruns, (mem_cuts_iff _ _ _).mp hcut⟩
    · rintro ⟨runs, hruns, rfl⟩
      cases hruns with
      | @cons _ run _ runs hrun hruns =>
        exact ⟨(run, runs.flatten), (mem_cuts_iff _ _ _).mpr rfl, hrun,
          (ih runs.flatten).mpr ⟨runs, hruns, rfl⟩⟩

/-! ## The compiled glob -/

def Token.pattern : Token → Pattern
  | .letter c => Pattern.exactly c
  | .star => .star notSlash
  | .starStar => .star .dot
  | .directories => .star .dot

theorem globBody_eq (glob : Text) :
    globBody glob = Pattern.seqs ((tokens glob).map Token.pattern) := by
  induction glob using tokens.induct with
  | case1 rest ih =>
    rw [globBody, tokens, ih]
    rfl
  | case2 rest hslash ih =>
    rw [globBody.eq_2 rest hslash, tokens.eq_2 rest hslash, ih]
    rfl
  | case3 rest hslash hstar ih =>
    rw [globBody.eq_3 rest hslash hstar, tokens.eq_3 rest hslash hstar, ih]
    rfl
  | case4 c rest hslash hstar hc ih =>
    rw [globBody.eq_4 c rest hslash hstar hc, tokens.eq_4 c rest hslash hstar hc, ih]
    rfl
  | case5 => rfl

/-- The line terminators of a regular expression. -/
def isLineEnd (c : Char) : Bool := c ∈ ['\n', '\r', '\u2028', '\u2029']

def withinLine (run : Text) : Bool := run.all (fun c => !isLineEnd c)

theorem withinLine_append (before after : Text) :
    withinLine (before ++ after) = (withinLine before && withinLine after) := List.all_append

/-- What the compiled token reads. -/
def Token.scans : Token → Text → Bool
  | .letter c, run => run = [c]
  | .star, run => '/' ∉ run
  | .starStar, run => withinLine run
  | .directories, run => withinLine run

theorem accepts_exactly (c d : Char) :
    CharSet.accepts ⟨false, [(c, c)]⟩ d = true ↔ d = c := by
  simp only [CharSet.accepts, List.any_cons, List.any_nil, Bool.or_false, Bool.bne_false,
    decide_eq_true_eq]
  exact ⟨fun h => le_antisymm h.2 h.1, fun h => by rw [h]; exact ⟨le_refl c, le_refl c⟩⟩

theorem accepts_notSlash (d : Char) : CharSet.accepts ⟨true, [('/', '/')]⟩ d = true ↔ d ≠ '/' := by
  have h := accepts_exactly '/' d
  simp only [CharSet.accepts, Bool.bne_false] at h
  simp only [CharSet.accepts, Bool.bne_true, Bool.not_eq_true', ne_eq, ← h, Bool.not_eq_true]

theorem accepts_dot (d : Char) :
    CharSet.accepts ⟨true, [('\n', '\n'), ('\r', '\r'), ('\u2028', '\u2029')]⟩ d =
      !isLineEnd d := by
  have hlast : ('\u2028' ≤ d ∧ d ≤ '\u2029') ↔ d = '\u2028' ∨ d = '\u2029' := by
    simp only [Char.le_def, UInt32.le_iff_toNat_le, Char.ext_iff, UInt32.ext_iff]
    have h₁ : '\u2028'.val.toNat = 0x2028 := rfl
    have h₂ : '\u2029'.val.toNat = 0x2029 := rfl
    omega
  have hone : ∀ c : Char, (c ≤ d ∧ d ≤ c) ↔ d = c := fun c =>
    ⟨fun h => le_antisymm h.2 h.1, fun h => by rw [h]; exact ⟨le_refl c, le_refl c⟩⟩
  simp only [CharSet.accepts, List.any_cons, List.any_nil, hone, hlast]
  simp [isLineEnd]

theorem matches_pattern_iff (token : Token) (prev : Option Char) (run post : Text) :
    Matches token.pattern prev run post ↔ token.scans run = true := by
  cases token with
  | letter c =>
    simp only [Token.pattern, Token.scans, Pattern.exactly, matches_char_iff, accepts_exactly,
      decide_eq_true_eq]
    exact ⟨fun ⟨d, hrun, hd⟩ => hd ▸ hrun, fun hrun => ⟨c, hrun, rfl⟩⟩
  | star =>
    simp only [Token.pattern, Token.scans, notSlash, matches_star_char_iff, accepts_notSlash,
      decide_eq_true_eq]
    exact ⟨fun h hmem => h '/' hmem rfl, fun h c hc heq => h (heq ▸ hc)⟩
  | starStar =>
    simp only [Token.pattern, Token.scans, Pattern.dot, matches_star_char_iff, accepts_dot, withinLine,
      List.all_eq_true]
  | directories =>
    simp only [Token.pattern, Token.scans, Pattern.dot, matches_star_char_iff, accepts_dot, withinLine,
      List.all_eq_true]

theorem matches_seqs_iff (parts : List Token) (prev : Option Char) (path : Text) :
    Matches (Pattern.seqs (parts.map Token.pattern)) prev path [] ↔
      ∃ runs, List.Forall₂ (fun token run => Token.scans token run = true) parts runs ∧
        runs.flatten = path := by
  induction parts generalizing prev path with
  | nil =>
    refine matches_empty_iff.trans ⟨?_, ?_⟩
    · rintro rfl
      exact ⟨[], List.Forall₂.nil, rfl⟩
    · rintro ⟨runs, hruns, rfl⟩
      cases hruns
      rfl
  | cons token rest ih =>
    refine matches_seq_iff.trans ⟨?_, ?_⟩
    · rintro ⟨run, left, rfl, hrun, hrest⟩
      obtain ⟨runs, hruns, rfl⟩ := (ih _ left).mp hrest
      exact ⟨run :: runs, List.Forall₂.cons ((matches_pattern_iff _ _ _ _).mp hrun) hruns, rfl⟩
    · rintro ⟨runs, hruns, rfl⟩
      cases hruns with
      | @cons _ run _ runs hrun hruns =>
        exact ⟨run, runs.flatten, rfl, (matches_pattern_iff _ _ _ _).mpr hrun,
          (ih _ runs.flatten).mpr ⟨runs, hruns, rfl⟩⟩

theorem test_globToRegExp (glob path : String) :
    test (globToRegExp glob) path.toList = covers Token.scans (tokens glob.toList) path.toList := by
  rw [Bool.eq_iff_iff, globToRegExp, test_anchored_iff, globBody_eq, matches_seqs_iff, covers_iff]

/-! ## Where the two agree -/

/-- The letters before the next wildcard begin the text; without one they are all of it. -/
def begins : List Token → Text → Bool
  | [], text => text.isEmpty
  | .letter c :: rest, d :: text => c = d && begins rest text
  | .letter _ :: _, [] => false
  | .star :: _, _ => true
  | .starStar :: _, _ => true
  | .directories :: _, _ => true

/-- What may stand behind a `**/`: another wildcard, or letters that the path has only at its
start or after a slash. -/
def followsSlash (path : Text) : List Token → Bool
  | .star :: _ => true
  | .starStar :: _ => true
  | .directories :: _ => true
  | rest => (cuts path).all fun cut =>
      !begins rest cut.2 || Token.stands .directories cut.1

def directoriesEnd (path : Text) : List Token → Bool
  | [] => true
  | .directories :: rest => followsSlash path rest && directoriesEnd path rest
  | _ :: rest => directoriesEnd path rest

/-- The double stars of a glob make no difference on a path. -/
structure Plain (glob path : String) : Prop where
  lines : (∀ token ∈ tokens glob.toList, token ≠ .starStar ∧ token ≠ .directories) ∨
    withinLine path.toList = true
  directories : directoriesEnd path.toList (tokens glob.toList) = true

instance decidablePlain (glob path : String) : Decidable (Plain glob path) :=
  decidable_of_iff (((∀ token ∈ tokens glob.toList, token ≠ .starStar ∧ token ≠ .directories) ∨
      withinLine path.toList = true) ∧ directoriesEnd path.toList (tokens glob.toList) = true)
    ⟨fun h => ⟨h.1, h.2⟩, fun h => ⟨h.1, h.2⟩⟩

theorem covers_cons_iff (allowed : Token → Text → Bool) (token : Token) (rest : List Token)
    (path : Text) :
    covers allowed (token :: rest) path = true ↔
      ∃ run left, run ++ left = path ∧ allowed token run = true ∧
        covers allowed rest left = true := by
  simp only [covers, List.any_eq_true, Bool.and_eq_true]
  constructor
  · rintro ⟨⟨run, left⟩, hcut, hrun, hleft⟩
    exact ⟨run, left, (mem_cuts_iff _ _ _).mp hcut, hrun, hleft⟩
  · rintro ⟨run, left, hcut, hrun, hleft⟩
    exact ⟨(run, left), (mem_cuts_iff _ _ _).mpr hcut, hrun, hleft⟩

/-- On both sides a glob reads only what its first letters begin. -/
theorem begins_of_covers {allowed : Token → Text → Bool}
    (hletter : ∀ c run, allowed (.letter c) run = true → run = [c]) {parts : List Token}
    {path : Text} (h : covers allowed parts path = true) : begins parts path = true := by
  induction parts generalizing path with
  | nil => exact h
  | cons token rest ih =>
    cases token with
    | letter c =>
      obtain ⟨run, left, rfl, hrun, hleft⟩ := (covers_cons_iff _ _ _ _).mp h
      rw [hletter c run hrun, List.singleton_append, begins, decide_eq_true rfl, Bool.true_and]
      exact ih hleft
    | star => rfl
    | starStar => rfl
    | directories => rfl

theorem scans_letter (c : Char) (run : Text) (h : Token.scans (.letter c) run = true) :
    run = [c] := of_decide_eq_true h

theorem stands_letter (c : Char) (run : Text) (h : Token.stands (.letter c) run = true) :
    run = [c] := of_decide_eq_true h

/-- A run cut behind its last slash. -/
theorem exists_cut_at_slash (run : Text) :
    ∃ above below, above ++ below = run ∧ Token.stands .directories above = true ∧
      '/' ∉ below := by
  induction run using List.reverseRecOn with
  | nil => exact ⟨[], [], rfl, rfl, List.not_mem_nil⟩
  | append_singleton run c ih =>
    by_cases hslash : c = '/'
    · refine ⟨run ++ [c], [], List.append_nil _, ?_, List.not_mem_nil⟩
      simp [Token.stands, hslash]
    · obtain ⟨above, below, rfl, habove, hbelow⟩ := ih
      refine ⟨above, below ++ [c], (List.append_assoc ..).symm, habove, ?_⟩
      simp [hbelow, Ne.symm hslash]

/-- What follows a `**/` is read where its run stops, so there the run stops at a slash. -/
theorem stands_of_followsSlash {path before run left : Text} {rest : List Token}
    (hpath : before ++ (run ++ left) = path) (hbegins : begins rest left = true)
    (hfollows : ((cuts path).all fun cut =>
      !begins rest cut.2 || Token.stands .directories cut.1) = true) :
    Token.stands .directories run = true := by
  have hmem : (before ++ run, left) ∈ cuts path :=
    (mem_cuts_iff _ _ _).mpr (by rw [List.append_assoc, hpath])
  have hends := List.all_eq_true.mp hfollows _ hmem
  rw [hbegins, Bool.not_true, Bool.false_or] at hends
  rcases List.eq_nil_or_concat' run with rfl | ⟨init, c, rfl⟩
  · rfl
  · simpa [Token.stands, ← List.append_assoc] using hends

/-- The run before a `**/` may go to the `**/` itself. -/
theorem covers_scans_directories_append {run text : Text} {rest : List Token}
    (hrun : withinLine run = true)
    (h : covers Token.scans (.directories :: rest) text = true) :
    covers Token.scans (.directories :: rest) (run ++ text) = true := by
  obtain ⟨next, left, rfl, hnext, hleft⟩ := (covers_cons_iff _ _ _ _).mp h
  refine (covers_cons_iff _ _ _ _).mpr ⟨run ++ next, left, List.append_assoc .., ?_, hleft⟩
  rw [Token.scans, withinLine_append, Bool.and_eq_true]
  exact ⟨hrun, hnext⟩

/-- What the compiled glob reads behind the first `before` letters of the path, the glob
semantics reads too: a run of `**/` that does not end at a slash passes its rest on to the
wildcard behind it. -/
theorem covers_stands_of_scans {path before text : Text} {parts : List Token}
    (hpath : before ++ text = path) (hends : directoriesEnd path parts = true)
    (h : covers Token.scans parts text = true) : covers Token.stands parts text = true := by
  induction parts generalizing before text with
  | nil => exact h
  | cons token rest ih =>
    obtain ⟨run, left, rfl, hrun, hleft⟩ := (covers_cons_iff _ _ _ _).mp h
    have hpath' : (before ++ run) ++ left = path := by rw [List.append_assoc, hpath]
    rw [covers_cons_iff]
    cases token with
    | letter c => exact ⟨run, left, rfl, hrun, ih hpath' hends hleft⟩
    | star => exact ⟨run, left, rfl, hrun, ih hpath' hends hleft⟩
    | starStar => exact ⟨run, left, rfl, rfl, ih hpath' hends hleft⟩
    | directories =>
      rw [directoriesEnd, Bool.and_eq_true] at hends
      obtain ⟨hfollows, hends⟩ := hends
      have hbegins := begins_of_covers scans_letter hleft
      cases rest with
      | nil => exact ⟨run, left, rfl, stands_of_followsSlash hpath hbegins hfollows,
          ih hpath' hends hleft⟩
      | cons next rest =>
        cases next with
        | letter c => exact ⟨run, left, rfl, stands_of_followsSlash hpath hbegins hfollows,
            ih hpath' hends hleft⟩
        | star =>
          -- the star takes what the run has below its last slash
          obtain ⟨above, below, rfl, habove, hbelow⟩ := exists_cut_at_slash run
          obtain ⟨name, left, rfl, hname, hleft⟩ :=
            (covers_cons_iff _ _ _ _).mp (ih hpath' hends hleft)
          refine ⟨above, below ++ (name ++ left), by simp, habove, ?_⟩
          refine (covers_cons_iff _ _ _ _).mpr ⟨below ++ name, left, by simp, ?_, hleft⟩
          have hname : '/' ∉ name := of_decide_eq_true hname
          simp [Token.stands, hbelow, hname]
        | starStar =>
          obtain ⟨name, left, rfl, -, hleft⟩ :=
            (covers_cons_iff _ _ _ _).mp (ih hpath' hends hleft)
          refine ⟨[], run ++ (name ++ left), rfl, rfl, ?_⟩
          exact (covers_cons_iff _ _ _ _).mpr ⟨run ++ name, left, by simp, rfl, hleft⟩
        | directories =>
          exact ⟨[], run ++ left, rfl, rfl,
            ih hpath hends (covers_scans_directories_append hrun hleft)⟩

/-- Within a line, or without double stars, every stretch of the glob semantics is one the
compiled token reads. -/
theorem covers_scans_of_stands {path : Text} {parts : List Token}
    (hlines : (∀ token ∈ parts, token ≠ .starStar ∧ token ≠ .directories) ∨
      withinLine path = true)
    (h : covers Token.stands parts path = true) : covers Token.scans parts path = true := by
  induction parts generalizing path with
  | nil => exact h
  | cons token rest ih =>
    obtain ⟨run, left, rfl, hrun, hleft⟩ := (covers_cons_iff _ _ _ _).mp h
    rw [withinLine_append, Bool.and_eq_true] at hlines
    have hrest : covers Token.scans rest left = true :=
      ih (hlines.imp (fun h next hnext => h next (List.mem_cons_of_mem _ hnext)) And.right) hleft
    refine (covers_cons_iff _ _ _ _).mpr ⟨run, left, rfl, ?_, hrest⟩
    cases token with
    | letter c => exact hrun
    | star => exact hrun
    | starStar => exact hlines.elim (fun h => absurd rfl (h _ List.mem_cons_self).1) And.left
    | directories => exact hlines.elim (fun h => absurd rfl (h _ List.mem_cons_self).2) And.left

/-- A glob whose first letters do not begin the path reads it on neither side. -/
theorem test_eq_globMatches {glob path : String}
    (hplain : begins (tokens glob.toList) path.toList = true → Plain glob path) :
    test (globToRegExp glob) path.toList = globMatches glob path := by
  rw [test_globToRegExp, globMatches, Bool.eq_iff_iff]
  constructor
  · intro h
    have hdirectories := (hplain (begins_of_covers scans_letter h)).directories
    exact covers_stands_of_scans (List.nil_append _) hdirectories h
  · intro h
    exact covers_scans_of_stands (hplain (begins_of_covers stands_letter h)).lines h

/-! ## When the check is exact -/

/-- The paths the glob semantics asks to keep. -/
def guardedPaths (changedPaths globs : List String) : List String :=
  changedPaths.filter (fun path => path ≠ "" && globs.any (fun glob => globMatches glob path))

theorem changedPathsHittingGuardrail_eq_filter (changedPaths globs : List String) :
    changedPathsHittingGuardrail changedPaths globs =
      changedPaths.filter (fun path => path ≠ "" && matchesAny path globs) := by
  unfold changedPathsHittingGuardrail
  split_ifs with hglobs
  · simp [hglobs, matchesAny]
  · rfl

theorem changedPathsHittingGuardrail_exact_of_plain {changedPaths globs : List String}
    (hplain : ∀ path ∈ changedPaths, path ≠ "" → ∀ glob ∈ globs,
      begins (tokens glob.toList) path.toList = true → Plain glob path) :
    changedPathsHittingGuardrail changedPaths globs = guardedPaths changedPaths globs := by
  rw [changedPathsHittingGuardrail_eq_filter, guardedPaths]
  refine List.filter_congr fun path hpath => ?_
  by_cases hempty : path = ""
  · simp [hempty]
  · rw [decide_eq_true hempty, Bool.true_and, Bool.true_and, matchesAny, Bool.eq_iff_iff,
      List.any_eq_true, List.any_eq_true]
    refine exists_congr fun glob => and_congr_right fun hglob => ?_
    rw [test_eq_globMatches (hplain path hpath hempty glob hglob)]

/-- The default workflow glob, a name glob behind `**/` and one behind a directory, on paths
that have those names at the start, after a slash and inside a longer name. -/
theorem workflows_and_names_kept_exactly :
    changedPathsHittingGuardrail
        [".github/workflows/ci.yml", "src/lib/auth.ts", "auth.ts", "src/authority.md"]
        [".github/workflows/**", "**/auth.ts", "src/**/*.md"] =
      guardedPaths [".github/workflows/ci.yml", "src/lib/auth.ts", "auth.ts", "src/authority.md"]
        [".github/workflows/**", "**/auth.ts", "src/**/*.md"] :=
  changedPathsHittingGuardrail_exact_of_plain (by decide +kernel)

/-- A line terminator hides a guarded path, and `**/` runs into the middle of a name. -/
theorem changedPathsHittingGuardrail_not_exact :
    changedPathsHittingGuardrail ["scripts/a\nb.sh"] ["scripts/**"] ≠
        guardedPaths ["scripts/a\nb.sh"] ["scripts/**"] ∧
      changedPathsHittingGuardrail ["src/unauth.ts"] ["src/**/auth.ts"] ≠
        guardedPaths ["src/unauth.ts"] ["src/**/auth.ts"] := by
  decide +kernel

/-- Only a line terminator in the path lets a guarded file through: `**/` errs on the side
of keeping a path too many. -/
theorem matchesAny_of_globMatches {globs : List String} {path : String}
    (hpath : withinLine path.toList = true)
    (h : globs.any (fun glob => globMatches glob path) = true) : matchesAny path globs = true := by
  obtain ⟨glob, hglob, hmatches⟩ := List.any_eq_true.mp h
  refine List.any_eq_true.mpr ⟨glob, hglob, ?_⟩
  rw [test_globToRegExp]
  exact covers_scans_of_stands (Or.inr hpath) hmatches

end Gittensory.GuardrailGlobs
