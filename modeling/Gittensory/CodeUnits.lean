import Gittensory.JsValue
import Gittensory.WordRuns
import Mathlib.Data.List.TakeWhile

/-!
Text as JavaScript indexes it: the list of its UTF-16 code units. Positions, lengths and
slices are those of the list, so a slice may part a surrogate pair. For a pattern each unit
stands as one letter, half a pair as the replacement letter, which no character class of
the modelled patterns tells from other letters outside ASCII.
-/
namespace Gittensory.CodeUnits

open JsValue TextPattern WordRuns

abbrev Units := List ℕ

/-- Membership in a list of texts is decided unit by unit. -/
instance : LawfulBEq Units := inferInstance

def unitChar (unit : ℕ) : Char :=
  if 0xD800 ≤ unit ∧ unit < 0xE000 then '\uFFFD' else Char.ofNat unit

def letters (text : Units) : Text := text.map unitChar

/-- What `trim` removes at the ends. -/
def isSpace (unit : ℕ) : Bool := spaceSet.accepts (unitChar unit)

def isLetter (unit : ℕ) : Bool := (65 ≤ unit && unit ≤ 90) || (97 ≤ unit && unit ≤ 122)

def isDigit (unit : ℕ) : Bool := 48 ≤ unit && unit ≤ 57

def newline : ℕ := 10

def backslash : ℕ := 92

def doubleQuote : ℕ := 34

/-- `text.lastIndexOf(unit, position)` -/
def lastIndexOf (text : Units) (unit : ℕ) : ℕ → Option ℕ
  | 0 => if text[0]? = some unit then some 0 else none
  | position + 1 =>
      if text[position + 1]? = some unit then some (position + 1)
      else lastIndexOf text unit position

theorem lastIndexOf_eq_some {text : Units} {unit position index : ℕ} :
    lastIndexOf text unit position = some index ↔ text[index]? = some unit ∧ index ≤ position ∧
      ∀ later, index < later → later ≤ position → text[later]? ≠ some unit := by
  induction position with
  | zero =>
    unfold lastIndexOf
    by_cases h : text[0]? = some unit
    · rw [if_pos h, Option.some.injEq]
      constructor
      · rintro rfl
        exact ⟨h, le_rfl, fun later hlow hhigh => by omega⟩
      · intro hindex
        have := hindex.2.1
        omega
    · rw [if_neg h]
      constructor
      · nofun
      · intro hindex
        have hzero : index = 0 := Nat.le_zero.mp hindex.2.1
        rw [hzero] at hindex
        exact absurd hindex.1 h
  | succ position ih =>
    unfold lastIndexOf
    by_cases h : text[position + 1]? = some unit
    · rw [if_pos h, Option.some.injEq]
      constructor
      · rintro rfl
        exact ⟨h, le_rfl, fun later hlow hhigh => by omega⟩
      · intro hindex
        by_contra hne
        have hle := hindex.2.1
        exact hindex.2.2 (position + 1) (by omega) le_rfl h
    · rw [if_neg h, ih]
      constructor
      · intro hindex
        refine ⟨hindex.1, by omega, fun later hlow hhigh => ?_⟩
        by_cases hlast : later = position + 1
        · rw [hlast]
          exact h
        · exact hindex.2.2 later hlow (by omega)
      · intro hindex
        have hne : index ≠ position + 1 := by
          intro heq
          rw [heq] at hindex
          exact h hindex.1
        have hle := hindex.2.1
        exact ⟨hindex.1, by omega, fun later hlow hhigh => hindex.2.2 later hlow (by omega)⟩

theorem exists_lastIndexOf {text : Units} {unit position index : ℕ}
    (h : text[index]? = some unit) (hle : index ≤ position) :
    ∃ last, lastIndexOf text unit position = some last ∧ index ≤ last := by
  induction position with
  | zero =>
    have hzero : index = 0 := Nat.le_zero.mp hle
    rw [hzero] at h
    exact ⟨0, by rw [lastIndexOf, if_pos h], by omega⟩
  | succ position ih =>
    unfold lastIndexOf
    by_cases hlast : text[position + 1]? = some unit
    · exact ⟨position + 1, if_pos hlast, hle⟩
    · rw [if_neg hlast]
      apply ih
      have hne : index ≠ position + 1 := by
        intro heq
        rw [heq] at h
        exact hlast h
      omega

/-- `text.split("\n")` -/
def splitLines : Units → List Units
  | [] => [[]]
  | unit :: rest =>
      if unit = newline then [] :: splitLines rest
      else
        match splitLines rest with
        | [] => [[unit]]
        | line :: lines => (unit :: line) :: lines

theorem splitLines_ne_nil (text : Units) : splitLines text ≠ [] := by
  cases text with
  | nil => simp [splitLines]
  | cons unit rest =>
    unfold splitLines
    by_cases h : unit = newline
    · rw [if_pos h]
      exact List.cons_ne_nil _ _
    · rw [if_neg h]
      cases splitLines rest with
      | nil => exact List.cons_ne_nil _ _
      | cons line lines => exact List.cons_ne_nil _ _

/-- The lines, each with a line break, make up the text with one more. -/
theorem flatMap_splitLines (text : Units) :
    (splitLines text).flatMap (fun line => line ++ [newline]) = text ++ [newline] := by
  induction text with
  | nil => rfl
  | cons unit rest ih =>
    unfold splitLines
    by_cases h : unit = newline
    · rw [if_pos h, List.flatMap_cons, ih, h]
      rfl
    · rw [if_neg h]
      cases hlines : splitLines rest with
      | nil => exact absurd hlines (splitLines_ne_nil rest)
      | cons line lines =>
        rw [hlines, List.flatMap_cons] at ih
        rw [List.flatMap_cons, List.cons_append, List.cons_append, ih]
        rfl

/-- The units of a text of basic letters. -/
def units (text : String) : Units := text.toList.map Char.toNat

/-! ## `trim` -/

def trim (text : Units) : Units :=
  ((text.dropWhile isSpace).reverse.dropWhile isSpace).reverse

theorem head?_dropWhile_isSpace {text : Units} {unit : ℕ}
    (h : (text.dropWhile isSpace).head? = some unit) : isSpace unit = false := by
  have hnot := List.head?_dropWhile_not isSpace text
  rw [h] at hnot
  simpa using hnot

theorem head?_trim {text : Units} {unit : ℕ} (h : (trim text).head? = some unit) :
    isSpace unit = false := by
  have hsuffix : ((text.dropWhile isSpace).reverse.dropWhile isSpace) <:+
      (text.dropWhile isSpace).reverse := List.dropWhile_suffix _
  have hfront : trim text <+: text.dropWhile isSpace := by
    rw [← List.reverse_suffix, trim, List.reverse_reverse]
    exact hsuffix
  obtain ⟨rest, hrest⟩ := hfront
  have hhead : (text.dropWhile isSpace).head? = some unit := by
    rw [← hrest, List.head?_append, h]
    rfl
  exact head?_dropWhile_isSpace hhead

theorem getLast?_trim {text : Units} {unit : ℕ} (h : (trim text).getLast? = some unit) :
    isSpace unit = false := by
  rw [trim, List.getLast?_reverse] at h
  exact head?_dropWhile_isSpace h

theorem dropWhile_eq_self {text : Units}
    (h : ∀ unit, text.head? = some unit → isSpace unit = false) :
    text.dropWhile isSpace = text := dropWhile_eq_self_of_head h

/-- A text without space at its ends is trimmed. -/
theorem trim_eq_self_iff {text : Units} :
    trim text = text ↔ (∀ unit, text.head? = some unit → isSpace unit = false) ∧
      ∀ unit, text.getLast? = some unit → isSpace unit = false := by
  constructor
  · intro h
    rw [← h]
    exact ⟨fun _ => head?_trim, fun _ => getLast?_trim⟩
  · rintro ⟨hhead, hlast⟩
    rw [trim, dropWhile_eq_self hhead, dropWhile_eq_self, List.reverse_reverse]
    intro unit hunit
    rw [List.head?_reverse] at hunit
    exact hlast unit hunit

theorem length_trim_le (text : Units) : (trim text).length ≤ text.length := by
  have hback := ((text.dropWhile isSpace).reverse.dropWhile_sublist isSpace).length_le
  have hfront := (text.dropWhile_sublist isSpace).length_le
  rw [List.length_reverse] at hback
  rw [trim, List.length_reverse]
  exact hback.trans hfront

theorem trim_trim (text : Units) : trim (trim text) = trim text :=
  trim_eq_self_iff.mpr ⟨fun _ => head?_trim, fun _ => getLast?_trim⟩

theorem dropWhile_append_of_space {lead : Units} (h : ∀ unit ∈ lead, isSpace unit = true)
    (text : Units) : (lead ++ text).dropWhile isSpace = text.dropWhile isSpace :=
  dropWhile_append_of_forall h text

theorem trim_append_of_space {lead : Units} (h : ∀ unit ∈ lead, isSpace unit = true)
    (text : Units) : trim (lead ++ text) = trim text := by
  rw [trim, dropWhile_append_of_space h, trim]

/-- Spaces before and after a text with none at its ends are what `trim` takes away. -/
theorem trim_append {lead text trail : Units} (hlead : ∀ unit ∈ lead, isSpace unit = true)
    (htrail : ∀ unit ∈ trail, isSpace unit = true)
    (hhead : ∀ unit, text.head? = some unit → isSpace unit = false)
    (hlast : ∀ unit, text.getLast? = some unit → isSpace unit = false) :
    trim (lead ++ text ++ trail) = text := stripped_append hlead htrail hhead hlast

/-- What `trim` takes away is spaces at either end. -/
theorem exists_trim_eq (text : Units) : ∃ lead trail, (∀ unit ∈ lead, isSpace unit = true) ∧
    (∀ unit ∈ trail, isSpace unit = true) ∧ text = lead ++ trim text ++ trail := by
  have hfront := List.takeWhile_append_dropWhile (p := isSpace) (l := text)
  have hback := List.takeWhile_append_dropWhile (p := isSpace)
    (l := (text.dropWhile isSpace).reverse)
  refine ⟨text.takeWhile isSpace, ((text.dropWhile isSpace).reverse.takeWhile isSpace).reverse,
    fun unit hunit => List.mem_takeWhile_imp hunit,
    fun unit hunit => List.mem_takeWhile_imp (List.mem_reverse.mp hunit), ?_⟩
  rw [List.append_assoc, trim, ← List.reverse_append, hback, List.reverse_reverse, hfront]

theorem mem_of_mem_trim {text : Units} {unit : ℕ} (h : unit ∈ trim text) : unit ∈ text := by
  obtain ⟨lead, trail, _, _, heq⟩ := exists_trim_eq text
  rw [heq]
  exact List.mem_append_left _ (List.mem_append_right _ h)

theorem head?_trim_of_head?_dropWhile {text : Units} {unit : ℕ}
    (h : (text.dropWhile isSpace).head? = some unit) : (trim text).head? = some unit := by
  cases hrest : text.dropWhile isSpace with
  | nil =>
    rw [hrest] at h
    exact absurd h (Option.some_ne_none unit).symm
  | cons first rest =>
    rw [hrest, List.head?_cons, Option.some.injEq] at h
    have hink : ¬ isSpace first = true := by
      have hdrop : (text.dropWhile isSpace).head? = some first := by
        rw [hrest]
        rfl
      rw [head?_dropWhile_isSpace hdrop]
      exact Bool.false_ne_true
    rw [trim, hrest, List.head?_reverse, List.reverse_cons, List.dropWhile_append]
    split_ifs with hempty
    · rw [List.dropWhile_cons_of_neg hink, h]
      rfl
    · rw [List.getLast?_append_of_ne_nil _ (List.cons_ne_nil _ _), h]
      rfl

/-! ## Runs of white space -/

def space : ℕ := 32

def isInk (unit : ℕ) : Bool := !isSpace unit

/-- `text.replace(/[^kept]+/g, " ").trim()` is the kept words with a space between. -/
theorem trim_replaceRuns {kept : ℕ → Bool} (hkept : ∀ unit, kept unit = true → isSpace unit = false)
    (text : Units) :
    trim (replaceRuns kept space text) = [space].intercalate (words kept text) := by
  obtain ⟨lead, trail, hlead, htrail, heq⟩ := @replaceRuns_eq _ kept space text
  rw [heq]
  have hspace : ∀ unit, unit = space → isSpace unit = true := by
    intro unit hunit
    rw [hunit]
    decide
  apply trim_append
  · exact fun unit hunit => hspace unit (hlead unit hunit)
  · exact fun unit hunit => hspace unit (htrail unit hunit)
  · exact fun unit hunit =>
      hkept unit (kept_ends_intercalate (fun word hword => mem_words hword) (Or.inl hunit))
  · exact fun unit hunit =>
      hkept unit (kept_ends_intercalate (fun word hword => mem_words hword) (Or.inr hunit))

/-- `text.replace(/\s+/g, " ").trim()` -/
def collapseSpaces (text : Units) : Units := trim (replaceRuns isInk space text)

theorem not_isSpace_of_isInk (unit : ℕ) (h : isInk unit = true) : isSpace unit = false := by
  simpa [isInk] using h

/-- Two texts look alike after collapsing when they have the same words. -/
theorem collapseSpaces_eq_iff {left right : Units} :
    collapseSpaces left = collapseSpaces right ↔ words isInk left = words isInk right := by
  rw [collapseSpaces, collapseSpaces, trim_replaceRuns not_isSpace_of_isInk,
    trim_replaceRuns not_isSpace_of_isInk]
  constructor
  · intro h
    have hwords := congrArg (words isInk) h
    have hspace : isInk space = false := by decide
    rwa [words_intercalate hspace fun _ => mem_words,
      words_intercalate hspace fun _ => mem_words] at hwords
  · intro h
    rw [h]

theorem words_trim {kept : ℕ → Bool} (hkept : ∀ unit, kept unit = true → isSpace unit = false)
    (text : Units) : words kept (trim text) = words kept text := by
  obtain ⟨lead, trail, hlead, htrail, heq⟩ := exists_trim_eq text
  have hnot : ∀ unit, isSpace unit = true → kept unit = false := by
    intro unit hunit
    by_contra h
    rw [hkept unit (Bool.not_eq_false _ ▸ h)] at hunit
    exact Bool.false_ne_true hunit
  conv_rhs => rw [heq]
  rw [words_append_of_not_right kept fun unit hunit => hnot unit (htrail unit hunit),
    words_append_of_not_left kept fun unit hunit => hnot unit (hlead unit hunit)]

/-! ## Joining -/

theorem mem_intercalate {separator : Units} {lines : List Units} {unit : ℕ}
    (h : unit ∈ separator.intercalate lines) : unit ∈ separator ∨ ∃ line ∈ lines, unit ∈ line := by
  induction lines with
  | nil => exact absurd h List.not_mem_nil
  | cons line rest ih =>
    cases rest with
    | nil =>
      rw [List.intercalate_singleton] at h
      exact Or.inr ⟨line, List.mem_cons_self .., h⟩
    | cons next more =>
      rw [List.intercalate_cons_cons, List.mem_append, List.mem_append] at h
      rcases h with (h | h) | h
      · exact Or.inr ⟨line, List.mem_cons_self .., h⟩
      · exact Or.inl h
      · rcases ih h with h | ⟨later, hlater, hunit⟩
        · exact Or.inl h
        · exact Or.inr ⟨later, List.mem_cons_of_mem _ hlater, hunit⟩

end Gittensory.CodeUnits
