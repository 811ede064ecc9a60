import Gittensory.Redaction

/-!
Where two matches can meet. A pattern is read letter by letter: `steps` are its first
letters with what is left to read, `tails` are what can be left once some letters are read.
Two patterns are apart when no match of the one shares a letter with a match of the other,
which the first letters of what is left decide.
-/
namespace Gittensory.PatternOverlap

open Redaction TextPattern

variable {p q : Pattern} {prev prev' : Option Char} {m n post post' : Text}

/-! ## Reading a pattern letter by letter -/

/-- False only where no match is empty. -/
def nullable : Pattern → Bool
  | .char _ => false
  | .seq first second => nullable first && nullable second
  | .alt left right => nullable left || nullable right
  | _ => true

theorem nullable_of_matches_nil (h : Matches p prev m post) (hm : m = []) : nullable p = true := by
  induction h with
  | char prev c post hc => cases hm
  | seq hfirst hsecond ihFirst ihSecond =>
    obtain ⟨hx, hy⟩ := List.append_eq_nil_iff.mp hm
    rw [nullable, ihFirst hx, ihSecond hy, Bool.and_self]
  | altLeft h ih => rw [nullable, ih hm, Bool.true_or]
  | altRight h ih => rw [nullable, ih hm, Bool.or_true]
  | _ => rfl

theorem ne_nil_of_matches (h : Matches p prev m post) (hnullable : nullable p = false) :
    m ≠ [] := by
  rintro rfl
  rw [nullable_of_matches_nil h rfl] at hnullable
  cases hnullable

/-- The letters that a match can start with, each with what is left to read. -/
def steps : Pattern → List (CharSet × Pattern)
  | .char set => [(set, .empty)]
  | .seq first second =>
      ((steps first).map fun step => (step.1, .seq step.2 second)) ++
        if nullable first then steps second else []
  | .alt left right => steps left ++ steps right
  | .star body => (steps body).map fun step => (step.1, .seq step.2 (.star body))
  | _ => []

theorem exists_step (h : Matches p prev m post) {c : Char} {rest : Text} (hm : m = c :: rest) :
    ∃ step ∈ steps p, step.1.accepts c = true ∧ Matches step.2 (some c) rest post := by
  induction h generalizing c rest with
  | @char set prev d post hd =>
    obtain ⟨rfl, rfl⟩ := List.cons.inj hm
    exact ⟨(set, .empty), List.mem_singleton_self _, hd, Matches.empty _ _⟩
  | @seq first second prev x y post hfirst hsecond ihFirst ihSecond =>
    cases x with
    | nil =>
      obtain ⟨step, hstep, haccepts, hrest⟩ := ihSecond hm
      refine ⟨step, ?_, haccepts, hrest⟩
      rw [steps, if_pos (nullable_of_matches_nil hfirst rfl)]
      exact List.mem_append_right _ hstep
    | cons d x =>
      obtain ⟨rfl, rfl⟩ := List.cons.inj hm
      obtain ⟨step, hstep, haccepts, hrest⟩ := ihFirst rfl
      exact ⟨(step.1, .seq step.2 second),
        List.mem_append_left _ (List.mem_map.mpr ⟨step, hstep, rfl⟩), haccepts,
        Matches.seq hrest hsecond⟩
  | altLeft h ih =>
    obtain ⟨step, hstep, hrest⟩ := ih hm
    exact ⟨step, List.mem_append_left _ hstep, hrest⟩
  | altRight h ih =>
    obtain ⟨step, hstep, hrest⟩ := ih hm
    exact ⟨step, List.mem_append_right _ hstep, hrest⟩
  | @starCons body prev x y post hne hbody hrest ihBody ihRest =>
    cases x with
    | nil => exact absurd rfl hne
    | cons d x =>
      obtain ⟨rfl, rfl⟩ := List.cons.inj hm
      obtain ⟨step, hstep, haccepts, hleft⟩ := ihBody rfl
      exact ⟨(step.1, .seq step.2 (.star body)), List.mem_map.mpr ⟨step, hstep, rfl⟩, haccepts,
        Matches.seq hleft hrest⟩
  | _ => cases hm

/-- What can be left to read after some letters, each with the set of the last one read. -/
def tails : Pattern → List (CharSet × Pattern)
  | .char set => [(set, .empty)]
  | .seq first second => ((tails first).map fun tail => (tail.1, .seq tail.2 second)) ++ tails second
  | .alt left right => tails left ++ tails right
  | .star body => (tails body).map fun tail => (tail.1, .seq tail.2 (.star body))
  | _ => []

/-- A match read up to a place within it. -/
def Tail (tail : CharSet × Pattern) (prev : Option Char) (u v post : Text) : Prop :=
  (∃ c, u.getLast? = some c ∧ tail.1.accepts c = true) ∧ Matches tail.2 (before prev u) v post

/-- A match of a sequence, read up to a place within its first part. -/
theorem exists_tail_seq {first second : Pattern} {x y u z : Text}
    (hfirst : ∃ tail ∈ tails first, Tail tail prev u z (y ++ post)) (hx : x = u ++ z)
    (hsecond : Matches second (before prev x) y post) :
    ∃ tail ∈ (tails first).map fun tail => (tail.1, .seq tail.2 second),
      Tail tail prev u (z ++ y) post := by
  obtain ⟨tail, htail, hlast, hrest⟩ := hfirst
  rw [hx, before_append] at hsecond
  exact ⟨(tail.1, .seq tail.2 second), List.mem_map.mpr ⟨tail, htail, rfl⟩, hlast,
    Matches.seq hrest hsecond⟩

theorem tail_append {tail : CharSet × Pattern} {x z v : Text}
    (h : Tail tail (before prev x) z v post) : Tail tail prev (x ++ z) v post := by
  obtain ⟨⟨c, hlast, hc⟩, hrest⟩ := h
  refine ⟨⟨c, ?_, hc⟩, by rwa [before_append]⟩
  rw [List.getLast?_append, hlast, Option.some_or]

theorem exists_tail (h : Matches p prev m post) {u v : Text} (hm : m = u ++ v) (hu : u ≠ []) :
    ∃ tail ∈ tails p, Tail tail prev u v post := by
  induction h generalizing u v with
  | @char set prev c post hc =>
    cases u with
    | nil => exact absurd rfl hu
    | cons d u =>
      obtain ⟨rfl, hrest⟩ := List.cons.inj hm
      obtain ⟨rfl, rfl⟩ := List.append_eq_nil_iff.mp hrest.symm
      exact ⟨(set, .empty), List.mem_singleton_self _, ⟨c, rfl, hc⟩, Matches.empty _ _⟩
  | @seq first second prev x y post hfirst hsecond ihFirst ihSecond =>
    rcases List.append_eq_append_iff.mp hm with ⟨z, hux, hy⟩ | ⟨z, hx, hv⟩
    · by_cases hz : z = []
      · rw [hz, List.append_nil] at hux
        rw [hz, List.nil_append] at hy
        have hx : x = u ++ [] := by rw [List.append_nil, hux]
        obtain ⟨tail, htail, hrest⟩ := exists_tail_seq (ihFirst hx hu) hx hsecond
        rw [List.nil_append, hy] at hrest
        exact ⟨tail, List.mem_append_left _ htail, hrest⟩
      · obtain ⟨tail, htail, hrest⟩ := ihSecond hy hz
        rw [hux]
        exact ⟨tail, List.mem_append_right _ htail, tail_append hrest⟩
    · obtain ⟨tail, htail, hrest⟩ := exists_tail_seq (ihFirst hx hu) hx hsecond
      rw [hv]
      exact ⟨tail, List.mem_append_left _ htail, hrest⟩
  | altLeft h ih =>
    obtain ⟨tail, htail, hrest⟩ := ih hm hu
    exact ⟨tail, List.mem_append_left _ htail, hrest⟩
  | altRight h ih =>
    obtain ⟨tail, htail, hrest⟩ := ih hm hu
    exact ⟨tail, List.mem_append_right _ htail, hrest⟩
  | @starCons body prev x y post hne hbody hrest ihBody ihRest =>
    rcases List.append_eq_append_iff.mp hm with ⟨z, hux, hy⟩ | ⟨z, hx, hv⟩
    · by_cases hz : z = []
      · rw [hz, List.append_nil] at hux
        rw [hz, List.nil_append] at hy
        have hx : x = u ++ [] := by rw [List.append_nil, hux]
        have hleft := exists_tail_seq (ihBody hx hu) hx hrest
        rw [List.nil_append, hy] at hleft
        exact hleft
      · obtain ⟨tail, htail, hleft⟩ := ihRest hy hz
        rw [hux]
        exact ⟨tail, htail, tail_append hleft⟩
    · rw [hv]
      exact exists_tail_seq (ihBody hx hu) hx hrest
  | _ =>
    rw [List.nil_eq, List.append_eq_nil_iff] at hm
    exact absurd hm.1 hu

/-! ## Matches that share a letter -/

/-- False only where no letter is in both sets. -/
def meets (set other : CharSet) : Bool :=
  set.negated || other.negated || set.ranges.any fun range =>
    other.ranges.any fun range' =>
      range.1.toNat.ble range'.2.toNat && range'.1.toNat.ble range.2.toNat

theorem meets_of_accepts {set other : CharSet} {c : Char} (h : set.accepts c = true)
    (h' : other.accepts c = true) : meets set other = true := by
  unfold meets
  cases hset : set.negated with
  | true => rfl
  | false =>
    cases hother : other.negated with
    | true => rfl
    | false =>
      simp only [CharSet.accepts, hset, Bool.bne_false, List.any_eq_true,
        decide_eq_true_eq] at h
      simp only [CharSet.accepts, hother, Bool.bne_false, List.any_eq_true,
        decide_eq_true_eq] at h'
      obtain ⟨range, hrange, hlow, hhigh⟩ := h
      obtain ⟨range', hrange', hlow', hhigh'⟩ := h'
      simp only [Bool.false_or, List.any_eq_true, Bool.and_eq_true, Nat.ble_eq]
      have hfirst : range.1 ≤ range'.2 := le_trans hlow hhigh'
      have hsecond : range'.1 ≤ range.2 := le_trans hlow' hhigh
      exact ⟨range, hrange, range', hrange', hfirst, hsecond⟩

/-- False only where no text starts with a match of each, neither of them empty. -/
def clash : ℕ → Pattern → Pattern → Bool
  | 0, _, _ => true
  | depth + 1, p, q => (steps p).any fun step => (steps q).any fun step' =>
      meets step.1 step'.1 &&
        (nullable step.2 || nullable step'.2 || clash depth step.2 step'.2)

theorem clash_of_matches (depth : ℕ) (hm : m ≠ []) (hn : n ≠ []) (hp : Matches p prev m post)
    (hq : Matches q prev' n post') (htext : m ++ post = n ++ post') : clash depth p q = true := by
  induction depth generalizing p q prev prev' m n with
  | zero => rfl
  | succ depth ih =>
    obtain ⟨c, x, rfl⟩ := List.exists_cons_of_ne_nil hm
    obtain ⟨d, y, rfl⟩ := List.exists_cons_of_ne_nil hn
    obtain ⟨rfl, hrest⟩ := List.cons.inj htext
    obtain ⟨step, hstep, haccepts, hleft⟩ := exists_step hp rfl
    obtain ⟨step', hstep', haccepts', hleft'⟩ := exists_step hq rfl
    rw [clash, List.any_eq_true]
    refine ⟨step, hstep, List.any_eq_true.mpr ⟨step', hstep', ?_⟩⟩
    rw [meets_of_accepts haccepts haccepts', Bool.true_and]
    by_cases hx : x = []
    · rw [nullable_of_matches_nil hleft hx, Bool.true_or, Bool.true_or]
    · by_cases hy : y = []
      · rw [nullable_of_matches_nil hleft' hy, Bool.or_true, Bool.true_or]
      · rw [ih hx hy hleft hleft' hrest, Bool.or_true]

/-- How many letters are compared before two patterns count as meeting. -/
def clashDepth : ℕ := 40

/-- No match of `q` starts within a match of `p`, after its first letter. -/
def Unentered (p q : Pattern) : Prop := ∀ tail ∈ tails p, clash clashDepth tail.2 q = false

instance (p q : Pattern) : Decidable (Unentered p q) :=
  inferInstanceAs (Decidable (∀ tail ∈ tails p, clash clashDepth tail.2 q = false))

/-- No match of `q` starts there where a word does. -/
def UnenteredAtEdges (p q : Pattern) : Prop :=
  ∀ tail ∈ tails p, wordSet tail.1 = false → clash clashDepth tail.2 q = false

instance (p q : Pattern) : Decidable (UnenteredAtEdges p q) :=
  inferInstanceAs (Decidable (∀ tail ∈ tails p,
    wordSet tail.1 = false → clash clashDepth tail.2 q = false))

variable {u v : Text}

theorem Unentered.not_inside (h : Unentered p q) (hp : Matches p prev m post)
    (hm : m = u ++ v) (hu : u ≠ []) (hv : v ≠ []) (hn : n ≠ []) (hq : Matches q prev' n post') :
    v ++ post ≠ n ++ post' := by
  intro htext
  obtain ⟨tail, htail, -, hrest⟩ := exists_tail hp hm hu
  have hclash := clash_of_matches clashDepth hv hn hrest hq htext
  rw [h tail htail] at hclash
  cases hclash

theorem UnenteredAtEdges.not_inside (h : UnenteredAtEdges p q) (hp : Matches p prev m post)
    (hm : m = u ++ v) (hu : u ≠ []) (hv : v ≠ []) (hn : n ≠ []) (hq : Matches q prev' n post')
    (hedge : wordAt (before prev u) = false) : v ++ post ≠ n ++ post' := by
  intro htext
  obtain ⟨tail, htail, ⟨c, hlast, hc⟩, hrest⟩ := exists_tail hp hm hu
  have hclash := clash_of_matches clashDepth hv hn hrest hq htext
  have hset : wordSet tail.1 = false := by
    rw [before_of_getLast? hlast] at hedge
    cases hset : wordSet tail.1 with
    | false => rfl
    | true =>
      have hword : isWordChar c = true := isWordChar_of_wordSet hset hc
      rw [wordAt, hword] at hedge
      cases hedge
  rw [h tail htail hset] at hclash
  cases hclash

/-- No match of `q` starts at a letter of a match of `p`. -/
structure Sealed (p q : Pattern) : Prop where
  together : clash clashDepth p q = false
  after : Unentered p q

instance (p q : Pattern) : Decidable (Sealed p q) :=
  decidable_of_iff (clash clashDepth p q = false ∧ Unentered p q)
    ⟨fun h => ⟨h.1, h.2⟩, fun h => ⟨h.together, h.after⟩⟩

theorem Sealed.not_within (h : Sealed p q) (hp : Matches p prev m post) (hm : m = u ++ v)
    (hv : v ≠ []) (hn : n ≠ []) (hq : Matches q prev' n post') : v ++ post ≠ n ++ post' := by
  by_cases hu : u = []
  · rw [hu, List.nil_append] at hm
    subst hm
    intro htext
    have hclash := clash_of_matches clashDepth hv hn hp hq htext
    rw [h.together] at hclash
    cases hclash
  · exact h.after.not_inside hp hm hu hv hn hq

/-! ## Patterns of one length -/

/-- How long every match is, where the pattern tells. -/
def fixedLength : Pattern → Option ℕ
  | .char _ => some 1
  | .seq first second => do return (← fixedLength first) + (← fixedLength second)
  | .star _ => none
  | .alt left right => if fixedLength left = fixedLength right then fixedLength left else none
  | _ => some 0

theorem length_of_fixedLength {length : ℕ} (hp : fixedLength p = some length)
    (h : Matches p prev m post) : m.length = length := by
  induction h generalizing length with
  | char => exact Option.some.inj hp
  | seq hfirst hsecond ihFirst ihSecond =>
    rw [fixedLength] at hp
    obtain ⟨first, hf, hp⟩ := Option.bind_eq_some_iff.mp hp
    obtain ⟨second, hs, hp⟩ := Option.bind_eq_some_iff.mp hp
    rw [List.length_append, ihFirst hf, ihSecond hs]
    exact Option.some.inj hp
  | altLeft h ih =>
    rw [fixedLength] at hp
    split_ifs at hp
    exact ih hp
  | altRight h ih =>
    rw [fixedLength] at hp
    split_ifs at hp with hsame
    exact ih (hsame.symm.trans hp)
  | starNil => cases hp
  | starCons => cases hp
  | _ => exact Option.some.inj hp

/-- Two matches that start together are one. -/
theorem eq_of_fixedLength {length : ℕ} (hp : fixedLength p = some length)
    (hq : fixedLength q = some length) (h : Matches p prev m post) (h' : Matches q prev' n post')
    (htext : m ++ post = n ++ post') : m = n ∧ post = post' :=
  List.append_inj htext (by rw [length_of_fixedLength hp h, length_of_fixedLength hq h'])

end Gittensory.PatternOverlap
