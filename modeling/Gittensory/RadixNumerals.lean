import Gittensory.JsonText
import Mathlib.Data.Nat.Digits.Lemmas

/-!
Numerals as runs of code units: the digit a unit stands for, the number a run denotes in a
radix up to sixteen, the longest run at the front of a text, and the shortest numeral of a
number.
-/
namespace Gittensory.RadixNumerals

open CodeUnits JsonText

/-- The digit a unit stands for, letters in either case. -/
def digitOf (unit : ℕ) : Option ℕ :=
  if 48 ≤ unit ∧ unit ≤ 57 then some (unit - 48)
  else if 97 ≤ unit ∧ unit ≤ 102 then some (unit - 87)
  else if 65 ≤ unit ∧ unit ≤ 70 then some (unit - 55)
  else none

def isDigitIn (radix unit : ℕ) : Bool := (digitOf unit).any (fun digit => digit < radix)

/-- The number a run of digits denotes, the first digit the highest. -/
def valueIn (radix : ℕ) (text : Units) : ℕ := Nat.ofDigits radix (text.filterMap digitOf).reverse

theorem digitOf_eq_some_iff {unit digit : ℕ} :
    digitOf unit = some digit ↔ (digit < 10 ∧ unit = 48 + digit) ∨
      (10 ≤ digit ∧ digit < 16 ∧ (unit = 87 + digit ∨ unit = 55 + digit)) := by
  unfold digitOf
  split_ifs <;> simp only [Option.some.injEq, false_iff] <;> omega

theorem isDigitIn_iff {radix unit : ℕ} :
    isDigitIn radix unit = true ↔ ∃ digit < radix, digitOf unit = some digit := by
  unfold isDigitIn
  cases digitOf unit with
  | none => simp
  | some digit => simp

theorem isDigitIn_mono {small large unit : ℕ} (hle : small ≤ large)
    (h : isDigitIn small unit = true) : isDigitIn large unit = true := by
  obtain ⟨digit, hlt, hdigit⟩ := isDigitIn_iff.mp h
  exact isDigitIn_iff.mpr ⟨digit, hlt.trans_le hle, hdigit⟩

theorem isDigitIn_ten {unit : ℕ} : isDigitIn 10 unit = true ↔ 48 ≤ unit ∧ unit ≤ 57 := by
  rw [isDigitIn_iff]
  constructor
  · rintro ⟨digit, hlt, hdigit⟩
    have := digitOf_eq_some_iff.mp hdigit
    omega
  · intro h
    exact ⟨unit - 48, by omega, digitOf_eq_some_iff.mpr (Or.inl ⟨by omega, by omega⟩)⟩

/-! ## Runs of digits -/

/-- Text whose units are the given digits. -/
def Digits (text : Units) (digits : List ℕ) : Prop :=
  List.Forall₂ (fun unit digit => digitOf unit = some digit) text digits

theorem Digits.filterMap {text : Units} {digits : List ℕ} (h : Digits text digits) :
    text.filterMap digitOf = digits := by
  unfold Digits at h
  induction h with
  | nil => rfl
  | cons hunit hrest ih => rw [List.filterMap_cons_some hunit, ih]

theorem Digits.valueIn {text : Units} {digits : List ℕ} (h : Digits text digits) (radix : ℕ) :
    valueIn radix text = Nat.ofDigits radix digits.reverse := by
  rw [RadixNumerals.valueIn, h.filterMap]

theorem Digits.all_isDigitIn {text : Units} {digits : List ℕ} {radix : ℕ}
    (h : Digits text digits) (hlt : ∀ digit ∈ digits, digit < radix) :
    ∀ unit ∈ text, isDigitIn radix unit = true := by
  unfold Digits at h
  induction h with
  | nil => nofun
  | cons hunit hrest ih =>
    intro unit hmem
    rcases List.mem_cons.mp hmem with rfl | hmem
    · exact isDigitIn_iff.mpr ⟨_, hlt _ (List.mem_cons_self ..), hunit⟩
    · exact ih (fun digit hdigit => hlt digit (List.mem_cons_of_mem _ hdigit)) unit hmem

/-- A run of digits is read up to the first unit that is none. -/
theorem takeWhile_digits {radix : ℕ} {run rest : Units}
    (hrun : ∀ unit ∈ run, isDigitIn radix unit = true)
    (hrest : ∀ unit, rest.head? = some unit → isDigitIn radix unit = false) :
    (run ++ rest).takeWhile (isDigitIn radix) = run ∧
      (run ++ rest).dropWhile (isDigitIn radix) = rest := by
  rw [List.takeWhile_append_of_pos hrun, List.dropWhile_append_of_pos hrun]
  cases rest with
  | nil => simp
  | cons unit rest =>
    have hnot : ¬ isDigitIn radix unit = true := by
      rw [hrest unit rfl]
      exact Bool.false_ne_true
    rw [List.takeWhile_cons_of_neg hnot, List.dropWhile_cons_of_neg hnot, List.append_nil]
    exact ⟨rfl, rfl⟩

/-! ## The shortest numeral -/

/-- `number.toString(radix)`: no leading zero, small letters. -/
def shortest (radix number : ℕ) : Units :=
  if number = 0 then [hexDigit 0] else (Nat.digits radix number).reverse.map hexDigit

theorem digitOf_hexDigit {digit : ℕ} (h : digit < 16) : digitOf (hexDigit digit) = some digit := by
  rw [digitOf_eq_some_iff, hexDigit]
  split_ifs <;> omega

theorem digits_map_hexDigit {digits : List ℕ} (h : ∀ digit ∈ digits, digit < 16) :
    Digits (digits.map hexDigit) digits := by
  induction digits with
  | nil => exact List.Forall₂.nil
  | cons digit rest ih =>
    exact List.Forall₂.cons (digitOf_hexDigit (h digit (List.mem_cons_self ..)))
      (ih fun d hd => h d (List.mem_cons_of_mem _ hd))

variable {radix : ℕ}

/-- The digits of the shortest numeral. -/
theorem exists_digits_shortest (hlow : 1 < radix) (hhigh : radix ≤ 16) (number : ℕ) :
    ∃ digits, Digits (shortest radix number) digits ∧ digits ≠ [] ∧
      (∀ digit ∈ digits, digit < radix) ∧ (digits.head? = some 0 → digits = [0]) ∧
      Nat.ofDigits radix digits.reverse = number := by
  unfold shortest
  split_ifs with hzero
  · refine ⟨[0], List.Forall₂.cons (digitOf_hexDigit (by omega)) List.Forall₂.nil,
      List.cons_ne_nil _ _, ?_, fun _ => rfl, ?_⟩
    · intro digit hdigit
      rw [List.mem_singleton.mp hdigit]
      omega
    · rw [hzero]
      rfl
  · have hne : Nat.digits radix number ≠ [] := Nat.digits_ne_nil_iff_ne_zero.mpr hzero
    have hlt : ∀ digit ∈ (Nat.digits radix number).reverse, digit < radix :=
      fun digit hdigit => Nat.digits_lt_base hlow (List.mem_reverse.mp hdigit)
    refine ⟨(Nat.digits radix number).reverse,
      digits_map_hexDigit fun digit hdigit => (hlt digit hdigit).trans_le hhigh,
      fun h => hne (List.reverse_eq_nil_iff.mp h), hlt, ?_, ?_⟩
    · intro hhead
      rw [List.head?_reverse, List.getLast?_eq_some_getLast hne, Option.some.injEq] at hhead
      exact absurd hhead (Nat.getLast_digit_ne_zero radix hzero)
    · rw [List.reverse_reverse, Nat.ofDigits_digits]

theorem valueIn_shortest (hlow : 1 < radix) (hhigh : radix ≤ 16) (number : ℕ) :
    valueIn radix (shortest radix number) = number := by
  obtain ⟨digits, hdigits, _, _, _, hvalue⟩ := exists_digits_shortest hlow hhigh number
  rw [hdigits.valueIn, hvalue]

theorem isDigitIn_of_mem_shortest (hlow : 1 < radix) (hhigh : radix ≤ 16) {number unit : ℕ}
    (h : unit ∈ shortest radix number) : isDigitIn radix unit = true := by
  obtain ⟨digits, hdigits, _, hlt, _, _⟩ := exists_digits_shortest hlow hhigh number
  exact hdigits.all_isDigitIn hlt unit h

/-- Small digits only. -/
def isLowerHex (unit : ℕ) : Bool := (48 ≤ unit && unit ≤ 57) || (97 ≤ unit && unit ≤ 102)

theorem isLowerHex_hexDigit {digit : ℕ} (h : digit < 16) : isLowerHex (hexDigit digit) = true := by
  unfold isLowerHex hexDigit
  simp only [Bool.or_eq_true, Bool.and_eq_true, decide_eq_true_eq]
  split_ifs <;> omega

theorem isLowerHex_of_mem_shortest (hlow : 1 < radix) (hhigh : radix ≤ 16) {number unit : ℕ}
    (h : unit ∈ shortest radix number) : isLowerHex unit = true := by
  unfold shortest at h
  split_ifs at h with hzero
  · rw [List.mem_singleton.mp h]
    decide
  · obtain ⟨digit, hdigit, rfl⟩ := List.mem_map.mp h
    exact isLowerHex_hexDigit
      ((Nat.digits_lt_base hlow (List.mem_reverse.mp hdigit)).trans_le hhigh)

theorem length_shortest_le (hlow : 1 < radix) {number count : ℕ} (hcount : 1 ≤ count)
    (h : number < radix ^ count) : (shortest radix number).length ≤ count := by
  unfold shortest
  split_ifs
  · simpa using hcount
  · rw [List.length_map, List.length_reverse]
    exact (Nat.digits_length_le_iff hlow number).mpr h

theorem shortest_ne_nil (number : ℕ) : shortest radix number ≠ [] := by
  unfold shortest
  split_ifs with hzero
  · exact List.cons_ne_nil _ _
  · intro h
    exact hzero (Nat.digits_eq_nil_iff_eq_zero.mp (List.reverse_eq_nil_iff.mp
      (List.map_eq_nil_iff.mp h)))

/-- A number of four digits. -/
theorem shortest_of_four (hlow : 1 < radix) {number : ℕ} (hlarge : radix ^ 3 ≤ number)
    (hsmall : number < radix ^ 4) :
    shortest radix number = [hexDigit (number / radix / radix / radix),
      hexDigit (number / radix / radix % radix), hexDigit (number / radix % radix),
      hexDigit (number % radix)] := by
  have hpos : 0 < radix := by omega
  have hthird : radix ≤ number / radix / radix := by
    rw [Nat.div_div_eq_div_mul, Nat.le_div_iff_mul_le (by positivity)]
    calc radix * (radix * radix) = radix ^ 3 := by ring
      _ ≤ number := hlarge
  have hfirst : number / radix / radix / radix < radix := by
    rw [Nat.div_div_eq_div_mul, Nat.div_div_eq_div_mul, Nat.div_lt_iff_lt_mul (by positivity)]
    calc number < radix ^ 4 := hsmall
      _ = radix * (radix * (radix * radix)) := by ring
  have hsecond : radix ≤ number / radix := by
    have := Nat.div_le_self (number / radix) radix
    omega
  have hwhole : radix ≤ number := by
    have := Nat.div_le_self number radix
    omega
  have htop : 0 < number / radix / radix / radix := Nat.div_pos hthird hpos
  have hne : number ≠ 0 := by omega
  rw [shortest, if_neg hne, Nat.digits_def' hlow (by omega), Nat.digits_def' hlow (by omega),
    Nat.digits_def' hlow (by omega), Nat.digits_of_lt radix _ htop.ne' hfirst]
  simp only [List.reverse_cons, List.reverse_nil, List.nil_append, List.cons_append,
    List.map_cons, List.map_nil]

end Gittensory.RadixNumerals
