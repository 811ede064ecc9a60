import Gittensory.JsValue
import Mathlib.Tactic.IntervalCases

/-!
Timestamps as text: `new Date(ms).toISOString()` and the order of strings by code units,
which the code compares timestamps with. Fields of fixed width make the order of the text
the order of the fields, and that is the order of time, as long as the years have four
digits. A later year gets a sign and six digits, and the sign sorts before every digit.
-/
namespace Gittensory.IsoTimestamp

section Text

/-- The UTF-16 code units of a character. -/
def unitValues (c : Char) : List ℕ :=
  if c.toNat < 0x10000 then [c.toNat]
  else [0xD800 + (c.toNat - 0x10000) / 0x400, 0xDC00 + (c.toNat - 0x10000) % 0x400]

def codeUnits (text : String) : List ℕ := text.toList.flatMap unitValues

/-- `left < right` on strings. -/
def textLt (left right : String) : Bool := codeUnits left < codeUnits right

/-- `left <= right` on strings. -/
def textLe (left right : String) : Bool := !textLt right left

def ofCodes (codes : List ℕ) : String := String.ofList (codes.map Char.ofNat)

theorem codeUnits_ofCodes (codes : List ℕ) (h : ∀ code ∈ codes, code < 128) :
    codeUnits (ofCodes codes) = codes := by
  rw [codeUnits, ofCodes, String.toList_ofList]
  induction codes with
  | nil => rfl
  | cons code rest ih =>
    have hcode : code < 128 := h code (List.mem_cons_self ..)
    have hvalid : (Char.ofNat code).toNat = code := by
      have hbound : code.isValidChar := Or.inl (by omega)
      rw [Char.ofNat, dif_pos hbound]
      rfl
    rw [List.map_cons, List.flatMap_cons, ih (fun other hother => h other (List.mem_cons_of_mem _ hother)),
      unitValues, hvalid, if_pos (by omega), List.singleton_append]

end Text

section Fields

/-- The decimal digits of a number in a field of this width, as character codes. -/
def digitCodes : ℕ → ℕ → List ℕ
  | 0, _ => []
  | width + 1, value => digitCodes width (value / 10) ++ [48 + value % 10]

theorem digitCodes_length (width value : ℕ) : (digitCodes width value).length = width := by
  induction width generalizing value with
  | zero => rfl
  | succ width ih => rw [digitCodes, List.length_append, ih, List.length_singleton]

theorem digitCodes_ascii (width value : ℕ) : ∀ code ∈ digitCodes width value, code < 128 := by
  induction width generalizing value with
  | zero => exact nofun
  | succ width ih =>
    intro code hcode
    rcases List.mem_append.mp hcode with h | h
    · exact ih _ code h
    · rw [List.mem_singleton.mp h]
      omega

theorem append_lt_append {a b : List ℕ} (hlength : a.length = b.length) (h : a < b)
    (c d : List ℕ) : a ++ c < b ++ d := by
  induction a generalizing b with
  | nil =>
    cases b with
    | nil => exact absurd h (by simp)
    | cons _ _ => cases hlength
  | cons x a ih =>
    cases b with
    | nil => cases hlength
    | cons y b =>
      rw [List.cons_lt_cons_iff] at h
      rw [List.cons_append, List.cons_append, List.cons_lt_cons_iff]
      rcases h with h | ⟨heq, h⟩
      · exact Or.inl h
      · exact Or.inr ⟨heq, ih (by simpa using hlength) h⟩

/-- In a field that is wide enough the digits are ordered like the numbers. -/
theorem digitCodes_lt (width : ℕ) {m n : ℕ} (h : m < n) (hfits : n < 10 ^ width) :
    digitCodes width m < digitCodes width n := by
  induction width generalizing m n with
  | zero =>
    rw [pow_zero] at hfits
    omega
  | succ width ih =>
    rw [digitCodes, digitCodes]
    by_cases htens : m / 10 < n / 10
    · have hless : n / 10 < 10 ^ width := by
        rw [pow_succ] at hfits
        omega
      exact append_lt_append (by rw [digitCodes_length, digitCodes_length]) (ih htens hless) _ _
    · have heq : m / 10 = n / 10 := by omega
      rw [heq]
      apply List.append_left_lt
      rw [List.cons_lt_cons_iff]
      exact Or.inl (by omega)

/-- Fields of given widths, each followed by its separator. -/
def render : List (ℕ × ℕ) → List ℕ → List ℕ
  | (width, separator) :: formats, value :: values =>
      digitCodes width value ++ separator :: render formats values
  | _, _ => []

theorem render_ascii (formats : List (ℕ × ℕ)) (values : List ℕ)
    (h : ∀ format ∈ formats, format.2 < 128) : ∀ code ∈ render formats values, code < 128 := by
  induction formats generalizing values with
  | nil => cases values <;> exact nofun
  | cons format formats ih =>
    cases values with
    | nil => exact nofun
    | cons value values =>
      intro code hcode
      rcases List.mem_append.mp hcode with hdigit | hrest
      · exact digitCodes_ascii _ _ code hdigit
      · rcases List.mem_cons.mp hrest with rfl | hlater
        · exact h format (List.mem_cons_self ..)
        · exact ih values (fun other hother => h other (List.mem_cons_of_mem _ hother)) code hlater

/-- Values that fit into the fields of these formats. -/
def Fits : List (ℕ × ℕ) → List ℕ → Prop
  | (width, _) :: formats, value :: values => value < 10 ^ width ∧ Fits formats values
  | [], [] => True
  | _, _ => False

/-- Rendered values are ordered like the values. -/
theorem render_lt (formats : List (ℕ × ℕ)) {values values' : List ℕ} (hfits : Fits formats values)
    (hfits' : Fits formats values') (h : values < values') :
    render formats values < render formats values' := by
  induction formats generalizing values values' with
  | nil =>
    cases values with
    | cons _ _ => exact hfits.elim
    | nil =>
      cases values' with
      | cons _ _ => exact hfits'.elim
      | nil => exact absurd h (by simp)
  | cons format formats ih =>
    cases values with
    | nil => exact hfits.elim
    | cons value values =>
      cases values' with
      | nil => exact hfits'.elim
      | cons value' values' =>
        rw [List.cons_lt_cons_iff] at h
        rcases h with hless | ⟨heq, hrest⟩
        · apply append_lt_append
          · rw [digitCodes_length, digitCodes_length]
          · exact digitCodes_lt _ hless hfits'.1
        · rw [render, render, heq]
          apply List.append_left_lt
          rw [List.cons_lt_cons_iff]
          exact Or.inr ⟨rfl, ih hfits.2 hfits'.2 hrest⟩

end Fields

section Calendar

/-- The day a year starts on, counted from the first of January 1970. -/
def dayFromYear (year : ℤ) : ℤ :=
  365 * (year - 1970) + (year - 1969) / 4 - (year - 1901) / 100 + (year - 1601) / 400

/-- The year of a day: the mean length of a year gives it up to one. -/
def yearOf (day : ℤ) : ℤ :=
  let guess := 1970 + day * 400 / 146097
  if dayFromYear (guess + 1) ≤ day then guess + 1
  else if dayFromYear guess ≤ day then guess
  else guess - 1

theorem yearOf_spec (day : ℤ) :
    dayFromYear (yearOf day) ≤ day ∧ day < dayFromYear (yearOf day + 1) := by
  unfold yearOf
  dsimp only
  have hlow : dayFromYear (1970 + day * 400 / 146097 - 1) ≤ day := by
    unfold dayFromYear
    omega
  have hhigh : day < dayFromYear (1970 + day * 400 / 146097 + 1 + 1) := by
    unfold dayFromYear
    omega
  by_cases hnext : dayFromYear (1970 + day * 400 / 146097 + 1) ≤ day
  · rw [if_pos hnext]
    exact ⟨hnext, hhigh⟩
  · rw [if_neg hnext]
    by_cases hsame : dayFromYear (1970 + day * 400 / 146097) ≤ day
    · rw [if_pos hsame]
      exact ⟨hsame, by omega⟩
    · rw [if_neg hsame]
      rw [sub_add_cancel]
      exact ⟨hlow, by omega⟩

theorem dayFromYear_mono {a b : ℤ} (h : a ≤ b) : dayFromYear a ≤ dayFromYear b := by
  unfold dayFromYear
  omega

theorem yearOf_mono {day day' : ℤ} (h : day ≤ day') : yearOf day ≤ yearOf day' := by
  by_contra hless
  have hmono : dayFromYear (yearOf day' + 1) ≤ dayFromYear (yearOf day) :=
    dayFromYear_mono (by omega)
  have hstart := (yearOf_spec day).1
  have hstop := (yearOf_spec day').2
  omega

def isLeap (year : ℤ) : Bool := year % 4 = 0 ∧ (year % 100 ≠ 0 ∨ year % 400 = 0)

def monthLengths (leap : Bool) : List ℕ :=
  [31, if leap then 29 else 28, 31, 30, 31, 30, 31, 31, 30, 31, 30, 31]

/-- The month and the day of the month of a day of the year, both counted from one. -/
def monthDate : List ℕ → ℕ → ℕ → ℕ × ℕ
  | [], month, day => (month, day + 1)
  | length :: rest, month, day =>
      if day < length then (month, day + 1) else monthDate rest (month + 1) (day - length)

theorem monthDate_month_ge (lengths : List ℕ) (month day : ℕ) :
    month ≤ (monthDate lengths month day).1 := by
  induction lengths generalizing month day with
  | nil => exact le_rfl
  | cons length rest ih =>
    rw [monthDate]
    by_cases h : day < length
    · rw [if_pos h]
    · rw [if_neg h]
      have := ih (month + 1) (day - length)
      omega

theorem monthDate_lt (lengths : List ℕ) (month : ℕ) {day day' : ℕ} (h : day < day') :
    (monthDate lengths month day).1 < (monthDate lengths month day').1 ∨
      ((monthDate lengths month day).1 = (monthDate lengths month day').1 ∧
        (monthDate lengths month day).2 < (monthDate lengths month day').2) := by
  induction lengths generalizing month day day' with
  | nil => exact Or.inr ⟨rfl, Nat.succ_lt_succ h⟩
  | cons length rest ih =>
    rw [monthDate, monthDate]
    by_cases hfirst : day < length
    · rw [if_pos hfirst]
      by_cases hsecond : day' < length
      · rw [if_pos hsecond]
        exact Or.inr ⟨rfl, Nat.succ_lt_succ h⟩
      · rw [if_neg hsecond]
        have := monthDate_month_ge rest (month + 1) (day' - length)
        exact Or.inl (by dsimp only; omega)
    · rw [if_neg hfirst, if_neg (by omega)]
      exact ih (month + 1) (by omega)

theorem monthDate_bounds (lengths : List ℕ) (month day : ℕ) (hlengths : ∀ length ∈ lengths, length ≤ 31)
    (hday : day < lengths.sum) :
    (monthDate lengths month day).1 < month + lengths.length ∧
      (monthDate lengths month day).2 ≤ 31 := by
  induction lengths generalizing month day with
  | nil => exact absurd hday (Nat.not_lt_zero _)
  | cons length rest ih =>
    have hlength := hlengths length (List.mem_cons_self ..)
    rw [List.sum_cons] at hday
    rw [monthDate, List.length_cons]
    by_cases h : day < length
    · rw [if_pos h]
      exact ⟨by dsimp only; omega, by dsimp only; omega⟩
    · rw [if_neg h]
      obtain ⟨hmonth, hdate⟩ := ih (month + 1) (day - length)
        (fun other hother => hlengths other (List.mem_cons_of_mem _ hother)) (by omega)
      exact ⟨by omega, hdate⟩

theorem monthLengths_sum (year : ℤ) :
    ((monthLengths (isLeap year)).sum : ℤ) = dayFromYear (year + 1) - dayFromYear year := by
  unfold dayFromYear isLeap monthLengths
  by_cases h : year % 4 = 0 ∧ (year % 100 ≠ 0 ∨ year % 400 = 0)
  · rw [decide_eq_true h]
    simp only [if_true, List.sum_cons, List.sum_nil]
    omega
  · rw [decide_eq_false h]
    simp only [Bool.false_eq_true, if_false, List.sum_cons, List.sum_nil]
    omega

end Calendar

section Timestamps

def MS_PER_DAY : ℤ := 86400000

def MAX_TIME : ℤ := 8640000000000000

def timestampYear (ms : ℤ) : ℤ := yearOf (ms / MS_PER_DAY)

def timestampMonthDate (ms : ℤ) : ℕ × ℕ :=
  let day := ms / MS_PER_DAY
  monthDate (monthLengths (isLeap (timestampYear ms))) 1
    (day - dayFromYear (timestampYear ms)).toNat

/-- Month, day, hours, minutes, seconds, milliseconds. -/
def timestampRest (ms : ℤ) : List ℕ :=
  let time := (ms % MS_PER_DAY).toNat
  [(timestampMonthDate ms).1, (timestampMonthDate ms).2, time / 3600000, time / 60000 % 60,
    time / 1000 % 60, time % 1000]

/-- `-MM-DDTHH:mm:ss.sssZ` after the year and its separator. -/
def restFormats : List (ℕ × ℕ) := [(2, 45), (2, 84), (2, 58), (2, 58), (2, 46), (3, 90)]

/-- Four digits, or a sign and six digits for a year that needs more. -/
def yearCodes (year : ℤ) : List ℕ :=
  if 0 ≤ year ∧ year ≤ 9999 then digitCodes 4 year.toNat
  else (if year < 0 then 45 else 43) :: digitCodes 6 year.natAbs

def isoCodes (ms : ℤ) : List ℕ :=
  yearCodes (timestampYear ms) ++ 45 :: render restFormats (timestampRest ms)

/-- `new Date(ms).toISOString()`; a time out of range throws a `RangeError`. -/
def toISOString (ms : ℤ) : Option String :=
  if -MAX_TIME ≤ ms ∧ ms ≤ MAX_TIME then some (ofCodes (isoCodes ms)) else none

def FourDigitYear (ms : ℤ) : Prop := 0 ≤ timestampYear ms ∧ timestampYear ms ≤ 9999

instance (ms : ℤ) : Decidable (FourDigitYear ms) :=
  inferInstanceAs (Decidable (_ ∧ _))

theorem timestampMonthDate_bounds (ms : ℤ) :
    (timestampMonthDate ms).1 ≤ 12 ∧ (timestampMonthDate ms).2 ≤ 31 := by
  have hspec := yearOf_spec (ms / MS_PER_DAY)
  have hsum := monthLengths_sum (timestampYear ms)
  have hday : (ms / MS_PER_DAY - dayFromYear (timestampYear ms)).toNat <
      (monthLengths (isLeap (timestampYear ms))).sum := by
    unfold timestampYear at *
    omega
  have hbounds := monthDate_bounds (monthLengths (isLeap (timestampYear ms))) 1 _
    (by cases isLeap (timestampYear ms) <;> decide) hday
  have hlength : (monthLengths (isLeap (timestampYear ms))).length = 12 := rfl
  rw [hlength] at hbounds
  unfold timestampMonthDate
  dsimp only
  omega

theorem timestampRest_fits (ms : ℤ) : Fits restFormats (timestampRest ms) := by
  obtain ⟨hmonth, hdate⟩ := timestampMonthDate_bounds ms
  have htime : (ms % MS_PER_DAY).toNat < 86400000 := by
    unfold MS_PER_DAY
    omega
  simp only [Fits, restFormats, timestampRest, and_true]
  refine ⟨by omega, by omega, by omega, by omega, by omega, by omega⟩

theorem toISOString_of_fourDigitYear {ms : ℤ} (h : FourDigitYear ms) :
    toISOString ms = some (ofCodes (isoCodes ms)) := by
  unfold toISOString
  rw [if_pos]
  have hspec := yearOf_spec (ms / MS_PER_DAY)
  unfold FourDigitYear timestampYear at h
  have hlow := dayFromYear_mono h.1
  have hhigh := dayFromYear_mono (show yearOf (ms / MS_PER_DAY) + 1 ≤ 10000 by omega)
  have hzero : dayFromYear 0 = -719528 := by decide
  have hlast : dayFromYear 10000 = 2932897 := by decide
  unfold MAX_TIME
  unfold MS_PER_DAY at *
  omega

theorem isoCodes_of_fourDigitYear {ms : ℤ} (h : FourDigitYear ms) :
    isoCodes ms = render ((4, 45) :: restFormats) ((timestampYear ms).toNat :: timestampRest ms) := by
  have hyear : yearCodes (timestampYear ms) = digitCodes 4 (timestampYear ms).toNat := if_pos h
  rw [isoCodes, hyear]
  rfl

/-- The fields of an earlier time come first in order. -/
theorem fields_lt {ms ms' : ℤ} (hyear : 0 ≤ timestampYear ms) (h : ms < ms') :
    (timestampYear ms).toNat :: timestampRest ms <
      (timestampYear ms').toNat :: timestampRest ms' := by
  have hdays : ms / MS_PER_DAY ≤ ms' / MS_PER_DAY := by
    unfold MS_PER_DAY
    omega
  have hyears : timestampYear ms ≤ timestampYear ms' := yearOf_mono hdays
  rw [List.cons_lt_cons_iff]
  by_cases hsame : timestampYear ms = timestampYear ms'
  · refine Or.inr ⟨by rw [hsame], ?_⟩
    simp only [timestampRest, List.cons_lt_cons_iff]
    by_cases hday : ms / MS_PER_DAY = ms' / MS_PER_DAY
    · have hdate : timestampMonthDate ms = timestampMonthDate ms' := by
        rw [timestampMonthDate, timestampMonthDate, hday, hsame]
      rw [hdate]
      unfold MS_PER_DAY at *
      simp only [lt_irrefl, false_or, true_and]
      omega
    · -- the same year, an earlier day
      have hspec := (yearOf_spec (ms / MS_PER_DAY)).1
      have hless : (ms / MS_PER_DAY - dayFromYear (timestampYear ms)).toNat <
          (ms' / MS_PER_DAY - dayFromYear (timestampYear ms)).toNat := by
        unfold timestampYear
        omega
      have hdate : (timestampMonthDate ms).1 < (timestampMonthDate ms').1 ∨
          ((timestampMonthDate ms).1 = (timestampMonthDate ms').1 ∧
            (timestampMonthDate ms).2 < (timestampMonthDate ms').2) := by
        rw [timestampMonthDate, timestampMonthDate, ← hsame]
        exact monthDate_lt _ 1 hless
      rcases hdate with hmonth | ⟨hmonth, hdate⟩
      · exact Or.inl hmonth
      · exact Or.inr ⟨hmonth, Or.inl hdate⟩
  · exact Or.inl (by omega)

/-- Between years of four digits the text is ordered like the time. -/
theorem iso_lt {ms ms' : ℤ} (hms : FourDigitYear ms) (hms' : FourDigitYear ms') (h : ms < ms') :
    textLt (ofCodes (isoCodes ms)) (ofCodes (isoCodes ms')) = true := by
  have hascii : ∀ ms, FourDigitYear ms → ∀ code ∈ isoCodes ms, code < 128 := by
    intro ms hms
    rw [isoCodes_of_fourDigitYear hms]
    exact render_ascii _ _ (by decide)
  have hfits : ∀ ms, FourDigitYear ms →
      Fits ((4, 45) :: restFormats) ((timestampYear ms).toNat :: timestampRest ms) := by
    intro ms hms
    refine ⟨?_, timestampRest_fits ms⟩
    have := hms.2
    omega
  rw [textLt, decide_eq_true_eq, codeUnits_ofCodes _ (hascii ms hms),
    codeUnits_ofCodes _ (hascii ms' hms'), isoCodes_of_fourDigitYear hms,
    isoCodes_of_fourDigitYear hms']
  exact render_lt _ (hfits ms hms) (hfits ms' hms') (fields_lt hms.1 h)

/-- A deadline that is no longer ahead in the text is no longer ahead in time. -/
theorem deadline_reached {now deadline : ℤ} {nowIso deadlineIso : String}
    (hnow : toISOString now = some nowIso) (hdeadline : toISOString deadline = some deadlineIso)
    (hyear : FourDigitYear now) (hyear' : FourDigitYear deadline)
    (h : textLt nowIso deadlineIso = false) : deadline ≤ now := by
  by_contra hahead
  rw [toISOString_of_fourDigitYear hyear, Option.some.injEq] at hnow
  rw [toISOString_of_fourDigitYear hyear', Option.some.injEq] at hdeadline
  have hless := iso_lt hyear hyear' (show now < deadline by omega)
  rw [hnow, hdeadline, h] at hless
  cases hless

example : toISOString 253402300799999 = some "9999-12-31T23:59:59.999Z" := by decide +kernel

end Timestamps

end Gittensory.IsoTimestamp
