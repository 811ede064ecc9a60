import Gittensory.CodeUnits

/-!
Text as `JSON.stringify` writes it. A surrogate pair stands for itself; half a pair, a
control character, a quote and a backslash are escaped, and every other unit is kept.
-/
namespace Gittensory.JsonText

open CodeUnits

def hexDigit (digit : ℕ) : ℕ := if digit < 10 then 48 + digit else 87 + digit

/-- `\u` and four hexadecimal digits. -/
def unicodeEscape (unit : ℕ) : Units :=
  [backslash, 117, hexDigit (unit / 4096 % 16), hexDigit (unit / 256 % 16),
    hexDigit (unit / 16 % 16), hexDigit (unit % 16)]

def isHighSurrogate (unit : ℕ) : Bool := 0xD800 ≤ unit && unit < 0xDC00

def isLowSurrogate (unit : ℕ) : Bool := 0xDC00 ≤ unit && unit < 0xE000

/-- How `JSON.stringify` writes a unit that is no half of a surrogate pair. -/
def jsonUnit (unit : ℕ) : Units :=
  if unit = doubleQuote ∨ unit = backslash then [backslash, unit]
  else if unit = 8 then [backslash, 98]
  else if unit = 9 then [backslash, 116]
  else if unit = 10 then [backslash, 110]
  else if unit = 12 then [backslash, 102]
  else if unit = 13 then [backslash, 114]
  else if unit < 32 ∨ isHighSurrogate unit ∨ isLowSurrogate unit then unicodeEscape unit
  else [unit]

/-- The text between the quotes of `JSON.stringify`; `paired` says that the first unit is the
second half of a surrogate pair. -/
def jsonEscapeFrom : Bool → Units → Units
  | _, [] => []
  | paired, unit :: rest =>
      if paired then unit :: jsonEscapeFrom false rest
      else if isHighSurrogate unit ∧ rest.head?.any isLowSurrogate then
        unit :: jsonEscapeFrom true rest
      else jsonUnit unit ++ jsonEscapeFrom false rest

def jsonEscape (text : Units) : Units := jsonEscapeFrom false text

/-- `JSON.stringify(text)` -/
def jsonQuoted (text : Units) : Units := doubleQuote :: jsonEscape text ++ [doubleQuote]

/-- The units of a text, each with whether it is half of a surrogate pair. -/
def marked : Bool → Units → List (Bool × ℕ)
  | _, [] => []
  | paired, unit :: rest =>
      if paired then (true, unit) :: marked false rest
      else if isHighSurrogate unit ∧ rest.head?.any isLowSurrogate then
        (true, unit) :: marked true rest
      else (false, unit) :: marked false rest

theorem map_snd_marked (paired : Bool) (text : Units) :
    (marked paired text).map Prod.snd = text := by
  induction text generalizing paired with
  | nil => rfl
  | cons unit rest ih =>
    rw [marked]
    split_ifs <;> rw [List.map_cons, ih]

def jsonMark (mark : Bool × ℕ) : Units := if mark.1 then [mark.2] else jsonUnit mark.2

theorem jsonEscapeFrom_eq (paired : Bool) (text : Units) :
    jsonEscapeFrom paired text = (marked paired text).flatMap jsonMark := by
  induction text generalizing paired with
  | nil => rfl
  | cons unit rest ih =>
    rw [marked, jsonEscapeFrom]
    split_ifs <;> rw [List.flatMap_cons, ih] <;> rfl

theorem surrogate_of_marked {paired : Bool} {text : Units}
    (hpaired : paired = true → text.head?.any isLowSurrogate = true) {unit : ℕ}
    (h : (true, unit) ∈ marked paired text) : 0xD800 ≤ unit ∧ unit < 0xE000 := by
  induction text generalizing paired with
  | nil => exact absurd h List.not_mem_nil
  | cons first rest ih =>
    have hlater : false = true → rest.head?.any isLowSurrogate = true :=
      fun hf => absurd hf Bool.false_ne_true
    rw [marked] at h
    split_ifs at h with hp hhigh
    · rcases List.mem_cons.mp h with heq | h
      · have hlow := hpaired hp
        rw [List.head?_cons, Option.any_some, ← (Prod.mk.inj heq).2, isLowSurrogate,
          Bool.and_eq_true, decide_eq_true_eq, decide_eq_true_eq] at hlow
        omega
      · exact ih hlater h
    · rcases List.mem_cons.mp h with heq | h
      · have hunit := hhigh.1
        rw [← (Prod.mk.inj heq).2, isHighSurrogate, Bool.and_eq_true, decide_eq_true_eq,
          decide_eq_true_eq] at hunit
        omega
      · exact ih (fun _ => hhigh.2) h
    · rcases List.mem_cons.mp h with heq | h
      · exact absurd (Prod.mk.inj heq).1 (by decide)
      · exact ih hlater h

/-- The escape puts a backslash before quotes and backslashes and changes nothing else. -/
def quoteUnit (unit : ℕ) : Units :=
  if unit = doubleQuote ∨ unit = backslash then [backslash, unit] else [unit]

/-- What a JSON string spells with letters: a control character or half a pair. -/
def isSpelled (unit : ℕ) : Bool := unit < 32 || isHighSurrogate unit || isLowSurrogate unit

theorem isSpelled_iff {unit : ℕ} :
    isSpelled unit = true ↔ unit < 32 ∨ 0xD800 ≤ unit ∧ unit < 0xE000 := by
  simp only [isSpelled, isHighSurrogate, isLowSurrogate, Bool.or_eq_true, Bool.and_eq_true,
    decide_eq_true_eq]
  omega

theorem jsonUnit_of_not_isSpelled {unit : ℕ} (h : isSpelled unit = false) :
    jsonUnit unit = quoteUnit unit := by
  have hrange : 32 ≤ unit := by
    by_contra hlow
    rw [isSpelled_iff.mpr (Or.inl (by omega))] at h
    exact Bool.false_ne_true h.symm
  have hnot : ¬ (unit < 32 ∨ isHighSurrogate unit = true ∨ isLowSurrogate unit = true) := by
    simp only [isSpelled, Bool.or_eq_false_iff, decide_eq_false_iff_not] at h
    simp only [h.1.1, h.1.2, h.2, or_false, Bool.false_eq_true, not_false_eq_true]
  rw [jsonUnit, quoteUnit, if_neg (by omega : ¬ unit = 8), if_neg (by omega : ¬ unit = 9),
    if_neg (by omega : ¬ unit = 10), if_neg (by omega : ¬ unit = 12),
    if_neg (by omega : ¬ unit = 13), if_neg hnot]

end Gittensory.JsonText
