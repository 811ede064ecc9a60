import Mathlib.Data.Char
import Mathlib.Data.List.Basic
import Mathlib.Tactic.ByContra
import Mathlib.Tactic.SplitIfs

/-!
Regular expressions as backtracking scanners use them: a match is a stretch of
the text together with what stands next to it, so that word boundaries and the
two anchors have a meaning. `Matches` is the declarative semantics; `ends` lists
the matches that start at a position, in the order a backtracking engine tries
them, and is proved to list exactly the declared ones.
-/
namespace Gittensory.TextPattern

abbrev Text := List Char

/-- A bracket expression: ranges of letters, possibly complemented. -/
structure CharSet where
  negated : Bool
  ranges : List (Char × Char)
  deriving DecidableEq, Repr

def CharSet.accepts (set : CharSet) (c : Char) : Bool :=
  set.ranges.any (fun range => range.1 ≤ c ∧ c ≤ range.2) != set.negated

inductive Pattern where
  | empty
  | char (set : CharSet)
  | seq (first second : Pattern)
  | alt (left right : Pattern)
  | star (body : Pattern)
  | wordBoundary
  | start
  | stop
  deriving DecidableEq, Repr

namespace Pattern

def exactly (c : Char) : Pattern := .char ⟨false, [(c, c)]⟩

def upperOf (c : Char) : Char :=
  if 'a' ≤ c ∧ c ≤ 'z' then Char.ofNat (c.toNat - 32) else c

def lowerOf (c : Char) : Char :=
  if 'A' ≤ c ∧ c ≤ 'Z' then Char.ofNat (c.toNat + 32) else c

/-- A letter under the ignore-case flag, which folds ASCII letters only. -/
def eitherCase (c : Char) : Pattern :=
  .char ⟨false, [(lowerOf c, lowerOf c), (upperOf c, upperOf c)]⟩

def literal (word : String) : Pattern :=
  word.toList.foldr (fun c rest => .seq (exactly c) rest) .empty

def literalNoCase (word : String) : Pattern :=
  word.toList.foldr (fun c rest => .seq (eitherCase c) rest) .empty

def seqs (parts : List Pattern) : Pattern := parts.foldr .seq .empty

/-- The empty alternative is a letter no text has. -/
def alts (choices : List Pattern) : Pattern := choices.foldr .alt (.char ⟨false, []⟩)

def opt (p : Pattern) : Pattern := .alt p .empty

def plus (p : Pattern) : Pattern := .seq p (.star p)

def times : ℕ → Pattern → Pattern
  | 0, _ => .empty
  | n + 1, p => .seq p (times n p)

def atLeast (n : ℕ) (p : Pattern) : Pattern := .seq (times n p) (.star p)

/-- At most `n` times, as often as possible. -/
def upTo : ℕ → Pattern → Pattern
  | 0, _ => .empty
  | n + 1, p => opt (.seq p (upTo n p))

def anyNoCase (words : List String) : Pattern := alts (words.map literalNoCase)

/-- `word s?` -/
def plural (word : String) : Pattern := seqs [literalNoCase word, opt (literalNoCase "s")]

/-- `.` without the `s` flag: no line terminator. -/
def dot : Pattern := .char ⟨true, [('\n', '\n'), ('\r', '\r'), ('\u2028', '\u2029')]⟩

end Pattern

/-- A literal is the list of its letters as it stands, and nothing is decoded. -/
theorem not_mem_literal {c : Char} {letters : Text} (h : c ∉ letters) :
    c ∉ (String.ofList letters).toList := by
  rwa [String.toList_ofList]

def isWordChar (c : Char) : Bool :=
  ('a' ≤ c ∧ c ≤ 'z') ∨ ('A' ≤ c ∧ c ≤ 'Z') ∨ ('0' ≤ c ∧ c ≤ '9') ∨ c = '_'

/-- The edge of the text counts as a non-word letter. -/
def wordAt : Option Char → Bool
  | none => false
  | some c => isWordChar c

/-- Only the letter before a position matters to a boundary or an anchor: the
one that is there after `prev` and the given text. -/
def before (prev : Option Char) : Text → Option Char
  | [] => prev
  | c :: rest => before (some c) rest

inductive Matches : Pattern → Option Char → Text → Text → Prop
  | empty (prev : Option Char) (post : Text) : Matches .empty prev [] post
  | char {set : CharSet} (prev : Option Char) (c : Char) (post : Text)
      (hc : set.accepts c = true) : Matches (.char set) prev [c] post
  | seq {first second : Pattern} {prev : Option Char} {m n post : Text}
      (hfirst : Matches first prev m (n ++ post))
      (hsecond : Matches second (before prev m) n post) :
      Matches (.seq first second) prev (m ++ n) post
  | altLeft {left right : Pattern} {prev : Option Char} {m post : Text}
      (h : Matches left prev m post) : Matches (.alt left right) prev m post
  | altRight {left right : Pattern} {prev : Option Char} {m post : Text}
      (h : Matches right prev m post) : Matches (.alt left right) prev m post
  | starNil {body : Pattern} (prev : Option Char) (post : Text) :
      Matches (.star body) prev [] post
  | starCons {body : Pattern} {prev : Option Char} {m n post : Text} (hne : m ≠ [])
      (hbody : Matches body prev m (n ++ post))
      (hrest : Matches (.star body) (before prev m) n post) :
      Matches (.star body) prev (m ++ n) post
  | wordBoundary (prev : Option Char) (post : Text)
      (hedge : wordAt prev ≠ wordAt post.head?) : Matches .wordBoundary prev [] post
  | start (post : Text) : Matches .start none [] post
  | stop (prev : Option Char) : Matches .stop prev [] []

/-- A match read from a position: the letters consumed and the letters left. -/
abbrev Stretch := Text × Text

def extend (m : Text) (found : Stretch) : Stretch := (m ++ found.1, found.2)

/-- Greedy repetition; an iteration that reads nothing is given up, so the
length of the text bounds the number of iterations. -/
def starEnds (body : Option Char → Text → List Stretch) :
    ℕ → Option Char → Text → List Stretch
  | 0, _, text => [([], text)]
  | fuel + 1, prev, text =>
      ((body prev text).filter (fun found => !found.1.isEmpty)).flatMap (fun found =>
        (starEnds body fuel (before prev found.1) found.2).map (extend found.1)) ++
      [([], text)]

def ends : Pattern → Option Char → Text → List Stretch
  | .empty, _, text => [([], text)]
  | .char _, _, [] => []
  | .char set, _, c :: rest => if set.accepts c then [([c], rest)] else []
  | .seq first second, prev, text =>
      (ends first prev text).flatMap (fun found =>
        (ends second (before prev found.1) found.2).map (extend found.1))
  | .alt left right, prev, text => ends left prev text ++ ends right prev text
  | .star body, prev, text => starEnds (ends body) text.length prev text
  | .wordBoundary, prev, text =>
      if wordAt prev ≠ wordAt text.head? then [([], text)] else []
  | .start, prev, text => if prev = none then [([], text)] else []
  | .stop, _, text => if text = [] then [([], text)] else []

theorem before_append (prev : Option Char) (m n : Text) :
    before prev (m ++ n) = before (before prev m) n := by
  induction m generalizing prev with
  | nil => rfl
  | cons c rest ih => exact ih (some c)

theorem mem_map_extend (m : Text) (found : Stretch) (list : List Stretch) :
    found ∈ list.map (extend m) ↔ ∃ n, found.1 = m ++ n ∧ (n, found.2) ∈ list := by
  constructor
  · intro h
    obtain ⟨⟨n, post⟩, hmem, rfl⟩ := List.mem_map.mp h
    exact ⟨n, rfl, hmem⟩
  · intro h
    obtain ⟨n, hn, hmem⟩ := h
    refine List.mem_map.mpr ⟨(n, found.2), hmem, ?_⟩
    simp only [extend, ← hn]

private theorem starEnds_sound (body : Pattern) (list : Option Char → Text → List Stretch)
    (hlist : ∀ prev text m post, (m, post) ∈ list prev text →
      text = m ++ post ∧ Matches body prev m post)
    (fuel : ℕ) (prev : Option Char) (text m post : Text)
    (h : (m, post) ∈ starEnds list fuel prev text) :
    text = m ++ post ∧ Matches (.star body) prev m post := by
  induction fuel generalizing prev text m with
  | zero =>
    simp only [starEnds, List.mem_singleton, Prod.mk.injEq] at h
    obtain ⟨rfl, rfl⟩ := h
    exact ⟨rfl, Matches.starNil prev post⟩
  | succ fuel ih =>
    simp only [starEnds, List.mem_append, List.mem_flatMap, List.mem_filter,
      List.mem_singleton, Prod.mk.injEq] at h
    rcases h with ⟨⟨first, rest⟩, ⟨hfirst, hne⟩, hmem⟩ | ⟨rfl, rfl⟩
    · obtain ⟨n, hm, hn⟩ := (mem_map_extend _ _ _).mp hmem
      obtain ⟨htext, hbody⟩ := hlist prev text first rest hfirst
      obtain ⟨hrest, hstar⟩ := ih (before prev first) rest n hn
      have hm' : m = first ++ n := hm
      subst hm' htext hrest
      have hfirstNe : first ≠ [] := by
        intro heq
        simp [heq] at hne
      exact ⟨(List.append_assoc _ _ _).symm, Matches.starCons hfirstNe hbody hstar⟩
    · exact ⟨rfl, Matches.starNil prev post⟩

/-- Everything the scanner lists is a match at that position. -/
theorem ends_sound (p : Pattern) (prev : Option Char) (text m post : Text)
    (h : (m, post) ∈ ends p prev text) : text = m ++ post ∧ Matches p prev m post := by
  induction p generalizing prev text m post with
  | empty =>
    simp only [ends, List.mem_singleton, Prod.mk.injEq] at h
    obtain ⟨rfl, rfl⟩ := h
    exact ⟨rfl, Matches.empty prev post⟩
  | char set =>
    cases text with
    | nil => simp [ends] at h
    | cons c rest =>
      by_cases hc : set.accepts c = true
      · simp only [ends, hc, if_true, List.mem_singleton, Prod.mk.injEq] at h
        obtain ⟨rfl, rfl⟩ := h
        exact ⟨rfl, Matches.char prev c post hc⟩
      · simp [ends, hc] at h
  | seq first second ihFirst ihSecond =>
    simp only [ends, List.mem_flatMap] at h
    obtain ⟨⟨m₁, rest⟩, hfirst, hmem⟩ := h
    obtain ⟨n, hm, hn⟩ := (mem_map_extend _ _ _).mp hmem
    obtain ⟨htext, hleft⟩ := ihFirst prev text m₁ rest hfirst
    obtain ⟨hrest, hright⟩ := ihSecond (before prev m₁) rest n post hn
    have hm' : m = m₁ ++ n := hm
    subst hm' htext hrest
    exact ⟨(List.append_assoc _ _ _).symm, Matches.seq hleft hright⟩
  | alt left right ihLeft ihRight =>
    rcases List.mem_append.mp h with h | h
    · obtain ⟨htext, hm⟩ := ihLeft prev text m post h
      exact ⟨htext, Matches.altLeft hm⟩
    · obtain ⟨htext, hm⟩ := ihRight prev text m post h
      exact ⟨htext, Matches.altRight hm⟩
  | star body ih => exact starEnds_sound body (ends body) ih text.length prev text m post h
  | wordBoundary =>
    simp only [ends] at h
    split_ifs at h with hedge
    · simp only [List.mem_singleton, Prod.mk.injEq] at h
      obtain ⟨rfl, rfl⟩ := h
      exact ⟨rfl, Matches.wordBoundary prev post hedge⟩
    · simp at h
  | start =>
    simp only [ends] at h
    split_ifs at h with hprev
    · simp only [List.mem_singleton, Prod.mk.injEq] at h
      obtain ⟨rfl, rfl⟩ := h
      subst hprev
      exact ⟨rfl, Matches.start post⟩
    · simp at h
  | stop =>
    simp only [ends] at h
    split_ifs at h with hempty
    · simp only [List.mem_singleton, Prod.mk.injEq] at h
      obtain ⟨rfl, rfl⟩ := h
      subst hempty
      exact ⟨rfl, Matches.stop prev⟩
    · simp at h

private theorem starEnds_complete (body : Pattern) (list : Option Char → Text → List Stretch)
    (hlist : ∀ prev m post, Matches body prev m post → (m, post) ∈ list prev (m ++ post))
    (fuel : ℕ) (prev : Option Char) (m post : Text) (hfuel : m.length ≤ fuel)
    (h : Matches (.star body) prev m post) :
    (m, post) ∈ starEnds list fuel prev (m ++ post) := by
  induction fuel generalizing prev m with
  | zero =>
    have hm : m = [] := List.length_eq_zero_iff.mp (Nat.le_zero.mp hfuel)
    subst hm
    simp [starEnds]
  | succ fuel ih =>
    simp only [starEnds, List.mem_append, List.mem_flatMap, List.mem_filter]
    cases h with
    | starNil => exact Or.inr (List.mem_singleton.mpr rfl)
    | @starCons _ _ first n _ hne hbody hrest =>
      have hpos : 0 < first.length := List.length_pos_iff.mpr hne
      have hn : n.length ≤ fuel := by
        rw [List.length_append] at hfuel
        omega
      refine Or.inl ⟨(first, n ++ post), ⟨?_, by simp [hne]⟩, ?_⟩
      · rw [List.append_assoc]
        exact hlist prev first (n ++ post) hbody
      · exact (mem_map_extend _ _ _).mpr ⟨n, rfl, ih (before prev first) n hn hrest⟩

/-- Every match at a position is listed by the scanner. -/
theorem ends_complete (p : Pattern) (prev : Option Char) (m post : Text)
    (h : Matches p prev m post) : (m, post) ∈ ends p prev (m ++ post) := by
  induction p generalizing prev m post with
  | empty =>
    cases h
    simp [ends]
  | char set =>
    cases h with
    | char _ c _ hc => simp [ends, hc]
  | seq first second ihFirst ihSecond =>
    cases h with
    | @seq _ _ _ m₁ n _ hfirst hsecond =>
      refine List.mem_flatMap.mpr ⟨(m₁, n ++ post), ?_, ?_⟩
      · rw [List.append_assoc]
        exact ihFirst prev m₁ (n ++ post) hfirst
      · exact (mem_map_extend _ _ _).mpr ⟨n, rfl, ihSecond (before prev m₁) n post hsecond⟩
  | alt left right ihLeft ihRight =>
    cases h with
    | altLeft h => exact List.mem_append.mpr (Or.inl (ihLeft prev m post h))
    | altRight h => exact List.mem_append.mpr (Or.inr (ihRight prev m post h))
  | star body ih =>
    apply starEnds_complete body (ends body) ih _ prev m post _ h
    simp
  | wordBoundary =>
    cases h with
    | wordBoundary _ _ hedge => simp [ends, hedge]
  | start =>
    cases h
    simp [ends]
  | stop =>
    cases h
    simp [ends]

theorem mem_ends_iff (p : Pattern) (prev : Option Char) (text m post : Text) :
    (m, post) ∈ ends p prev text ↔ text = m ++ post ∧ Matches p prev m post := by
  constructor
  · exact ends_sound p prev text m post
  · intro h
    obtain ⟨rfl, h⟩ := h
    exact ends_complete p prev m post h

/-! ## Searching -/

/-- Does the pattern match anywhere, given the letter before the text? -/
def testFrom (p : Pattern) : Option Char → Text → Bool
  | prev, [] => !(ends p prev []).isEmpty
  | prev, c :: rest => !(ends p prev (c :: rest)).isEmpty || testFrom p (some c) rest

def test (p : Pattern) (text : Text) : Bool := testFrom p none text

theorem ends_nonempty_iff (p : Pattern) (prev : Option Char) (text : Text) :
    (!(ends p prev text).isEmpty) = true ↔
      ∃ m post, text = m ++ post ∧ Matches p prev m post := by
  constructor
  · intro h
    have hne : ends p prev text ≠ [] := by simpa using h
    obtain ⟨⟨m, post⟩, hmem⟩ := List.exists_mem_of_ne_nil _ hne
    exact ⟨m, post, (mem_ends_iff p prev text m post).mp hmem⟩
  · intro h
    obtain ⟨m, post, hmatch⟩ := h
    have hmem := (mem_ends_iff p prev text m post).mpr hmatch
    simpa using List.ne_nil_of_mem hmem

theorem testFrom_iff (p : Pattern) (prev : Option Char) (text : Text) :
    testFrom p prev text = true ↔
      ∃ a m b, text = a ++ (m ++ b) ∧ Matches p (before prev a) m b := by
  induction text generalizing prev with
  | nil =>
    rw [testFrom, ends_nonempty_iff]
    constructor
    · intro h
      obtain ⟨m, post, htext, h⟩ := h
      exact ⟨[], m, post, htext, h⟩
    · intro h
      obtain ⟨a, m, b, htext, h⟩ := h
      have ha : a = [] := (List.append_eq_nil_iff.mp htext.symm).1
      subst ha
      exact ⟨m, b, htext, h⟩
  | cons c rest ih =>
    rw [testFrom, Bool.or_eq_true, ends_nonempty_iff, ih]
    constructor
    · intro h
      rcases h with ⟨m, post, htext, h⟩ | ⟨a, m, b, htext, h⟩
      · exact ⟨[], m, post, htext, h⟩
      · exact ⟨c :: a, m, b, by rw [htext, List.cons_append], h⟩
    · intro h
      obtain ⟨a, m, b, htext, h⟩ := h
      cases a with
      | nil => exact Or.inl ⟨m, b, htext, h⟩
      | cons d a =>
        rw [List.cons_append, List.cons.injEq] at htext
        obtain ⟨rfl, hrest⟩ := htext
        exact Or.inr ⟨a, m, b, hrest, h⟩

theorem test_iff (p : Pattern) (text : Text) :
    test p text = true ↔
      ∃ a m b, text = a ++ (m ++ b) ∧ Matches p (before none a) m b :=
  testFrom_iff p none text

/-! ## Replacing -/

/-- Global replacement from left to right: the first listed match at a position
is replaced, and after an empty match one letter is copied. -/
def replaceFrom (p : Pattern) (replacement : Text) : ℕ → Option Char → Text → Text
  | 0, _, text => text
  | fuel + 1, prev, text =>
      match ends p prev text, text with
      | (c :: m, post) :: _, _ =>
          replacement ++ replaceFrom p replacement fuel (before prev (c :: m)) post
      | ([], _) :: _, [] => replacement
      | ([], _) :: _, d :: rest =>
          replacement ++ d :: replaceFrom p replacement fuel (some d) rest
      | [], [] => []
      | [], d :: rest => d :: replaceFrom p replacement fuel (some d) rest

/-- Every round reads a letter or ends, so the length is fuel enough. -/
def replaceAll (p : Pattern) (replacement text : Text) : Text :=
  replaceFrom p replacement (text.length + 1) none text

theorem replaceFrom_of_testFrom {p : Pattern} (replacement : Text) (fuel : ℕ) {prev : Option Char}
    {text : Text} (h : testFrom p prev text = false) :
    replaceFrom p replacement fuel prev text = text := by
  induction fuel generalizing prev text with
  | zero => rfl
  | succ fuel ih =>
    cases text with
    | nil =>
      have hends : ends p prev [] = [] := by simpa [testFrom] using h
      unfold replaceFrom
      rw [hends]
    | cons c rest =>
      rw [testFrom, Bool.or_eq_false_iff] at h
      have hends : ends p prev (c :: rest) = [] := by simpa using h.1
      unfold replaceFrom
      rw [hends]
      dsimp only
      rw [ih h.2]

/-- Where nothing matches nothing is replaced. -/
theorem replaceAll_of_test_eq_false {p : Pattern} (replacement : Text) {text : Text}
    (h : test p text = false) : replaceAll p replacement text = text :=
  replaceFrom_of_testFrom replacement _ h

/-! ## Matches and their surroundings -/

def anchorFree : Pattern → Bool
  | .seq first second => anchorFree first && anchorFree second
  | .alt left right => anchorFree left && anchorFree right
  | .star body => anchorFree body
  | .start => false
  | .stop => false
  | _ => true

theorem wordAt_before_congr {prev prev' : Option Char} (h : wordAt prev = wordAt prev')
    (m : Text) : wordAt (before prev m) = wordAt (before prev' m) := by
  cases m with
  | nil => exact h
  | cons c rest => rfl

theorem wordAt_head_append_congr {post post' : Text}
    (h : wordAt post.head? = wordAt post'.head?) (n : Text) :
    wordAt (n ++ post).head? = wordAt (n ++ post').head? := by
  cases n with
  | nil => exact h
  | cons c rest => rfl

/-- Without anchors, a match sees of its surroundings only whether the two
adjacent letters are word letters. -/
theorem Matches.congr_context {p : Pattern} {prev prev' : Option Char} {m post post' : Text}
    (h : Matches p prev m post) (hfree : anchorFree p = true)
    (hprev : wordAt prev = wordAt prev')
    (hpost : wordAt post.head? = wordAt post'.head?) : Matches p prev' m post' := by
  induction h generalizing prev' post' with
  | empty => exact Matches.empty _ _
  | char prev c post hc => exact Matches.char _ c _ hc
  | seq hfirst hsecond ihFirst ihSecond =>
    simp only [anchorFree, Bool.and_eq_true] at hfree
    exact Matches.seq (ihFirst hfree.1 hprev (wordAt_head_append_congr hpost _))
      (ihSecond hfree.2 (wordAt_before_congr hprev _) hpost)
  | altLeft h ih =>
    simp only [anchorFree, Bool.and_eq_true] at hfree
    exact Matches.altLeft (ih hfree.1 hprev hpost)
  | altRight h ih =>
    simp only [anchorFree, Bool.and_eq_true] at hfree
    exact Matches.altRight (ih hfree.2 hprev hpost)
  | starNil => exact Matches.starNil _ _
  | starCons hne hbody hrest ihBody ihRest =>
    exact Matches.starCons hne (ihBody hfree hprev (wordAt_head_append_congr hpost _))
      (ihRest hfree (wordAt_before_congr hprev _) hpost)
  | wordBoundary prev post hedge =>
    exact Matches.wordBoundary _ _ (by rw [← hprev, ← hpost]; exact hedge)
  | start => simp [anchorFree] at hfree
  | stop => simp [anchorFree] at hfree

/-- No letter of the pattern accepts the separator. -/
def avoids (sep : Char) : Pattern → Bool
  | .char set => !set.accepts sep
  | .seq first second => avoids sep first && avoids sep second
  | .alt left right => avoids sep left && avoids sep right
  | .star body => avoids sep body
  | _ => true

theorem Matches.not_mem_of_avoids {p : Pattern} {prev : Option Char} {m post : Text}
    {sep : Char} (h : Matches p prev m post) (havoid : avoids sep p = true) : sep ∉ m := by
  induction h with
  | char prev c post hc =>
    intro hmem
    have hsep : sep = c := by simpa using hmem
    simp [avoids, hsep, hc] at havoid
  | seq hfirst hsecond ihFirst ihSecond =>
    simp only [avoids, Bool.and_eq_true] at havoid
    simp [ihFirst havoid.1, ihSecond havoid.2]
  | altLeft h ih =>
    simp only [avoids, Bool.and_eq_true] at havoid
    exact ih havoid.1
  | altRight h ih =>
    simp only [avoids, Bool.and_eq_true] at havoid
    exact ih havoid.2
  | starCons hne hbody hrest ihBody ihRest =>
    simp [ihBody havoid, ihRest havoid]
  | _ => simp

/-- A stretch without the separator lies on one side of it. -/
theorem split_at_separator {a b x m y : Text} {sep : Char} (hsep : sep ∉ m)
    (h : a ++ sep :: b = x ++ (m ++ y)) :
    (∃ d, a = x ++ (m ++ d) ∧ y = d ++ sep :: b) ∨
      (∃ c, x = a ++ sep :: c ∧ b = c ++ (m ++ y)) := by
  rcases List.append_eq_append_iff.mp h with ⟨c, hx, hc⟩ | ⟨c, ha, hc⟩
  · cases c with
    | nil =>
      cases m with
      | nil => exact Or.inl ⟨[], by simpa using hx.symm, by simpa using hc.symm⟩
      | cons e m =>
        simp only [List.nil_append, List.cons_append, List.cons.injEq] at hc
        simp [hc.1] at hsep
    | cons e c =>
      simp only [List.cons_append, List.cons.injEq] at hc
      obtain ⟨rfl, hb⟩ := hc
      exact Or.inr ⟨c, hx, hb⟩
  · rcases List.append_eq_append_iff.mp hc with ⟨d, hcd, hy⟩ | ⟨d, hm, hy⟩
    · exact Or.inl ⟨d, by rw [ha, hcd], hy⟩
    · cases d with
      | nil =>
        refine Or.inl ⟨[], ?_, by simpa using hy.symm⟩
        rw [ha, hm]
        simp
      | cons e d =>
        simp only [List.cons_append, List.cons.injEq] at hy
        simp [hm, ← hy.1] at hsep

/-- A search never reads across a separator that its pattern avoids. -/
theorem testFrom_separator (p : Pattern) (sep : Char) (prev : Option Char) (a b : Text)
    (hfree : anchorFree p = true) (havoid : avoids sep p = true)
    (hword : isWordChar sep = false) :
    testFrom p prev (a ++ sep :: b) = true ↔
      testFrom p prev a = true ∨ test p b = true := by
  simp only [test, testFrom_iff]
  constructor
  · intro h
    obtain ⟨x, m, y, htext, h⟩ := h
    rcases split_at_separator (h.not_mem_of_avoids havoid) htext with
      ⟨d, ha, hy⟩ | ⟨c, hx, hb⟩
    · refine Or.inl ⟨x, m, d, ha, h.congr_context hfree rfl ?_⟩
      rw [hy]
      cases d with
      | nil => exact hword
      | cons e d => rfl
    · refine Or.inr ⟨c, m, y, hb, h.congr_context hfree ?_ rfl⟩
      rw [hx, before_append]
      exact wordAt_before_congr (by simpa [before, wordAt] using hword) c
  · intro h
    rcases h with ⟨x, m, y, ha, h⟩ | ⟨x, m, y, hb, h⟩
    · refine ⟨x, m, y ++ sep :: b, by rw [ha]; simp, h.congr_context hfree rfl ?_⟩
      cases y with
      | nil => exact hword.symm
      | cons e y => rfl
    · refine ⟨a ++ sep :: x, m, y, by rw [hb]; simp, h.congr_context hfree ?_ rfl⟩
      rw [before_append]
      exact wordAt_before_congr (by simpa [before, wordAt] using hword.symm) x

theorem test_separator (p : Pattern) (sep : Char) (a b : Text)
    (hfree : anchorFree p = true) (havoid : avoids sep p = true)
    (hword : isWordChar sep = false) :
    test p (a ++ sep :: b) = true ↔ test p a = true ∨ test p b = true :=
  testFrom_separator p sep none a b hfree havoid hword

/-- Every match of the pattern contains the letter. -/
def needs (c : Char) : Pattern → Bool
  | .char set => !set.negated && set.ranges.all (fun range => range.1 = c ∧ range.2 = c)
  | .seq first second => needs c first || needs c second
  | .alt left right => needs c left && needs c right
  | _ => false

theorem CharSet.eq_of_accepts {set : CharSet} {c d : Char}
    (hneeds : needs c (.char set) = true) (hd : set.accepts d = true) : d = c := by
  simp only [needs, Bool.and_eq_true, Bool.not_eq_true', List.all_eq_true,
    decide_eq_true_eq] at hneeds
  obtain ⟨hneg, hall⟩ := hneeds
  simp only [CharSet.accepts, hneg, Bool.bne_false, List.any_eq_true, decide_eq_true_eq] at hd
  obtain ⟨range, hmem, hlow, hhigh⟩ := hd
  obtain ⟨hfirst, hlast⟩ := hall range hmem
  rw [hfirst] at hlow
  rw [hlast] at hhigh
  exact le_antisymm hhigh hlow

theorem Matches.mem_of_needs {p : Pattern} {prev : Option Char} {m post : Text} {c : Char}
    (h : Matches p prev m post) (hneeds : needs c p = true) : c ∈ m := by
  induction h with
  | char prev d post hd =>
    rw [CharSet.eq_of_accepts hneeds hd]
    exact List.mem_singleton.mpr rfl
  | seq hfirst hsecond ihFirst ihSecond =>
    simp only [needs, Bool.or_eq_true] at hneeds
    rcases hneeds with hneeds | hneeds
    · exact List.mem_append.mpr (Or.inl (ihFirst hneeds))
    · exact List.mem_append.mpr (Or.inr (ihSecond hneeds))
  | altLeft h ih =>
    simp only [needs, Bool.and_eq_true] at hneeds
    exact ih hneeds.1
  | altRight h ih =>
    simp only [needs, Bool.and_eq_true] at hneeds
    exact ih hneeds.2
  | _ => simp [needs] at hneeds

/-- A text without a needed letter cannot be hit. -/
theorem test_eq_false_of_needs {p : Pattern} {c : Char} {text : Text}
    (hneeds : needs c p = true) (hc : c ∉ text) : test p text = false := by
  by_contra h
  rw [Bool.not_eq_false, test_iff] at h
  obtain ⟨a, m, b, rfl, hm⟩ := h
  exact hc (by simp [hm.mem_of_needs hneeds])

/-- No match of the pattern is spelled with these letters alone. -/
def excludes (letters : List Char) : Pattern → Bool
  | .char set => letters.all (fun c => !set.accepts c)
  | .seq first second => excludes letters first || excludes letters second
  | .alt left right => excludes letters left && excludes letters right
  | _ => false

theorem Matches.exists_not_mem_of_excludes {p : Pattern} {prev : Option Char} {m post : Text}
    {letters : List Char} (h : Matches p prev m post) (hexcludes : excludes letters p = true) :
    ∃ c ∈ m, c ∉ letters := by
  induction h with
  | char prev c post hc =>
    refine ⟨c, List.mem_singleton.mpr rfl, fun hmem => ?_⟩
    have := List.all_eq_true.mp hexcludes c hmem
    simp [hc] at this
  | seq hfirst hsecond ihFirst ihSecond =>
    simp only [excludes, Bool.or_eq_true] at hexcludes
    rcases hexcludes with hexcludes | hexcludes
    · obtain ⟨c, hc, hnot⟩ := ihFirst hexcludes
      exact ⟨c, List.mem_append_left _ hc, hnot⟩
    · obtain ⟨c, hc, hnot⟩ := ihSecond hexcludes
      exact ⟨c, List.mem_append_right _ hc, hnot⟩
  | altLeft h ih =>
    simp only [excludes, Bool.and_eq_true] at hexcludes
    exact ih hexcludes.1
  | altRight h ih =>
    simp only [excludes, Bool.and_eq_true] at hexcludes
    exact ih hexcludes.2
  | _ => simp [excludes] at hexcludes

theorem test_eq_false_of_excludes {p : Pattern} {letters : List Char} {text : Text}
    (hexcludes : excludes letters p = true) (htext : ∀ c ∈ text, c ∈ letters) :
    test p text = false := by
  by_contra h
  rw [Bool.not_eq_false, test_iff] at h
  obtain ⟨a, m, b, rfl, hm⟩ := h
  obtain ⟨c, hc, hnot⟩ := hm.exists_not_mem_of_excludes hexcludes
  exact hnot (htext c (by simp [hc]))

end Gittensory.TextPattern
