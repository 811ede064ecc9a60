import Gittensory.SafeUrl

/-!
Which addresses a literal names, apart from how the guard reads it: the parts of an IPv4
literal and what they fill, the reading of the C library, the private blocks, and IPv6
addresses with their canonical text. The guard decodes every spelling to its address and
recognizes every private one.
-/
namespace Gittensory.AddressLiterals

open CodeUnits RadixNumerals SafeUrl
open DuplicateSignals (toLowerCase lowerUnit)

/-! ## Spellings of IPv4 addresses -/

/-- One part of a literal and the number it stands for. -/
inductive PartSpelling : Units → ℕ → Prop
  | decimal {text : Units} {digits : List ℕ} (h : Digits text digits) (hne : digits ≠ [])
      (hlt : ∀ digit ∈ digits, digit < 10) (hlead : digits.head? = some 0 → digits = [0]) :
      PartSpelling text (Nat.ofDigits 10 digits.reverse)
  | octal {text : Units} {digits : List ℕ} (h : Digits text digits) (hne : digits ≠ [])
      (hlt : ∀ digit ∈ digits, digit < 8) :
      PartSpelling (48 :: text) (Nat.ofDigits 8 digits.reverse)
  | hex {x : ℕ} {text : Units} {digits : List ℕ} (hx : x = 120 ∨ x = 88)
      (h : Digits text digits) (hne : digits ≠ []) (hlt : ∀ digit ∈ digits, digit < 16) :
      PartSpelling (48 :: x :: text) (Nat.ofDigits 16 digits.reverse)

/-- The address of one to four parts: one byte each, the last one the bytes that are left. -/
def fillAddress : List ℕ → Option ℕ
  | [d] => if d < 2 ^ 32 then some d else none
  | [a, d] => if a < 2 ^ 8 ∧ d < 2 ^ 24 then some (a * 2 ^ 24 + d) else none
  | [a, b, d] =>
      if a < 2 ^ 8 ∧ b < 2 ^ 8 ∧ d < 2 ^ 16 then some (a * 2 ^ 24 + b * 2 ^ 16 + d) else none
  | [a, b, c, d] =>
      if a < 2 ^ 8 ∧ b < 2 ^ 8 ∧ c < 2 ^ 8 ∧ d < 2 ^ 8 then
        some (a * 2 ^ 24 + b * 2 ^ 16 + c * 2 ^ 8 + d)
      else none
  | _ => none

/-- The text is one of the spellings of the address. -/
def Spells (text : Units) (address : ℕ) : Prop :=
  ∃ parts values, text = [dot].intercalate parts ∧ List.Forall₂ PartSpelling parts values ∧
    fillAddress values = some address

theorem fillAddress_eq_some {values : List ℕ} {address : ℕ} (h : fillAddress values = some address) :
    1 ≤ values.length ∧ values.length ≤ 4 ∧ address < 2 ^ 32 := by
  match values with
  | [] => nomatch h
  | [d] =>
    rw [fillAddress, Option.ite_none_right_eq_some, Option.some.injEq] at h
    exact ⟨by simp, by simp, by omega⟩
  | [a, d] =>
    rw [fillAddress, Option.ite_none_right_eq_some, Option.some.injEq] at h
    exact ⟨by simp, by simp, by omega⟩
  | [a, b, d] =>
    rw [fillAddress, Option.ite_none_right_eq_some, Option.some.injEq] at h
    exact ⟨by simp, by simp, by omega⟩
  | [a, b, c, d] =>
    rw [fillAddress, Option.ite_none_right_eq_some, Option.some.injEq] at h
    exact ⟨by simp, by simp, by omega⟩
  | _ :: _ :: _ :: _ :: _ :: _ => nomatch h

/-- The checks of the guard against the bounds of the parts. -/
theorem guarded_eq {above : Bool} {last limit sum whole : ℕ} {fits : Prop} [Decidable fits]
    (hfits : fits ↔ above = false ∧ last ≤ limit) (hsum : sum = whole)
    (hlt : fits → whole < 2 ^ 32) :
    (if above then none else if last > limit then none
      else if sum > 0xffffffff then none else some (sum % 2 ^ 32)) =
      if fits then some whole else none := by
  by_cases h : fits
  · obtain ⟨hover, hlast⟩ := hfits.mp h
    have hwhole := hlt h
    rw [if_pos h, hover, if_neg Bool.false_ne_true, if_neg (by omega), if_neg (by omega), hsum,
      Nat.mod_eq_of_lt hwhole]
  · rw [if_neg h]
    split_ifs with hover hlast
    · rfl
    · rfl
    · rfl
    · exact absurd (hfits.mpr ⟨by simpa using hover, by omega⟩) h

/-- The guard joins the parts to the address they fill. -/
theorem joinParts_eq_fillAddress {vals : List ℕ} (hlow : 1 ≤ vals.length) (hhigh : vals.length ≤ 4) :
    joinParts vals = fillAddress vals := by
  match vals with
  | [] => exact absurd hlow (by simp)
  | [d] =>
    apply guarded_eq
    · show _ ↔ false = false ∧ d ≤ 0xffffffff
      simp only [true_and]
      omega
    · rfl
    · omega
  | [a, d] =>
    apply guarded_eq
    · show _ ↔ (decide (a > 255) || false) = false ∧ d ≤ 0xffffff
      simp only [Bool.or_false, decide_eq_false_iff_not]
      omega
    · show addLeading 0 d [a] = _
      rw [addLeading, addLeading]
      omega
    · omega
  | [a, b, d] =>
    apply guarded_eq
    · show _ ↔ (decide (a > 255) || (decide (b > 255) || false)) = false ∧ d ≤ 0xffff
      simp only [Bool.or_false, Bool.or_eq_false_iff, decide_eq_false_iff_not]
      omega
    · show addLeading 0 d [a, b] = _
      rw [addLeading, addLeading, addLeading]
      omega
    · omega
  | [a, b, c, d] =>
    apply guarded_eq
    · show _ ↔ (decide (a > 255) || (decide (b > 255) || (decide (c > 255) || false))) = false ∧
        d ≤ 0xff
      simp only [Bool.or_false, Bool.or_eq_false_iff, decide_eq_false_iff_not]
      omega
    · show addLeading 0 d [a, b, c] = _
      rw [addLeading, addLeading, addLeading, addLeading]
      omega
    · omega
  | _ :: _ :: _ :: _ :: _ :: _ =>
    simp only [List.length_cons] at hhigh
    omega

/-! ## The parts -/

theorem toLowerCase_eq_hexPrefix {left right : ℕ} :
    toLowerCase [left, right] = units "0x" ↔ left = 48 ∧ (right = 120 ∨ right = 88) := by
  have hflat : toLowerCase [left, right] = lowerUnit left ++ lowerUnit right := by
    simp [toLowerCase]
  rw [hflat, show units "0x" = [48, 120] from rfl]
  unfold lowerUnit
  split_ifs <;> simp <;> omega

theorem isHexNumeral_iff {part : Units} : isHexNumeral part = true ↔
    ∃ x text, part = 48 :: x :: text ∧ (x = 120 ∨ x = 88) ∧ text ≠ [] ∧
      ∀ unit ∈ text, isDigitIn 16 unit = true := by
  match part with
  | [] => simp [isHexNumeral]
  | [unit] => simp [isHexNumeral]
  | left :: x :: text =>
    simp only [isHexNumeral, List.take_succ_cons, List.take_zero, List.drop_succ_cons,
      List.drop_zero, Bool.and_eq_true, decide_eq_true_eq, toLowerCase_eq_hexPrefix,
      List.all_eq_true, List.cons.injEq]
    constructor
    · rintro ⟨⟨⟨hleft, hx⟩, hne⟩, hall⟩
      exact ⟨x, text, ⟨hleft, rfl, rfl⟩, hx, hne, hall⟩
    · rintro ⟨_, _, ⟨hleft, rfl, rfl⟩, hx, hne, hall⟩
      exact ⟨⟨⟨hleft, hx⟩, hne⟩, hall⟩

/-- A run of decimal digits is no hexadecimal numeral. -/
theorem isHexNumeral_of_digits {part : Units} (h : ∀ unit ∈ part, isDigitIn 10 unit = true) :
    isHexNumeral part = false := by
  by_contra hhex
  obtain ⟨x, text, rfl, hx, _, _⟩ := isHexNumeral_iff.mp (Bool.not_eq_false _ ▸ hhex)
  have := isDigitIn_ten.mp (h x (by simp))
  omega

theorem parseIpv4Component_of_spelling {part : Units} {value : ℕ} (h : PartSpelling part value) :
    parseIpv4Component part = some value := by
  unfold parseIpv4Component
  cases h with
  | @decimal _ digits h hne hlt hlead =>
    have hall := h.all_isDigitIn hlt
    have hlength : part.length = digits.length := h.length_eq
    have hsingle : part.head? = some 48 → part = [48] := by
      intro hhead
      cases h with
      | nil => nomatch hhead
      | @cons unit digit text rest hunit hrest =>
        rw [List.head?_cons, Option.some.injEq] at hhead
        have hzero : digit = 0 := by
          have := digitOf_eq_some_iff.mp hunit
          omega
        have hrest' : rest = [] := by simpa [hzero] using hlead
        subst hrest'
        cases hrest
        rw [hhead]
    have hoctal : isOctalNumeral part = false := by
      by_contra htrue
      simp only [isOctalNumeral, Bool.not_eq_false, Bool.and_eq_true, decide_eq_true_eq] at htrue
      rw [hsingle htrue.1.1] at htrue
      exact htrue.1.2 rfl
    have hdecimal : isDecimalNumeral part = true := by
      simp only [isDecimalNumeral, Bool.or_eq_true, Bool.and_eq_true, decide_eq_true_eq,
        List.all_eq_true]
      by_cases hhead : part.head? = some 48
      · exact Or.inl (hsingle hhead)
      · refine Or.inr ⟨⟨hhead, ?_⟩, hall⟩
        intro hnil
        rw [hnil] at hlength
        exact hne (List.length_eq_zero_iff.mp hlength.symm)
    rw [isHexNumeral_of_digits hall, hoctal, hdecimal, if_neg Bool.false_ne_true,
      if_neg Bool.false_ne_true, if_pos rfl, h.valueIn]
  | @octal text digits h hne hlt =>
    have hall := h.all_isDigitIn hlt
    have hzero : Digits (48 :: text) (0 :: digits) := List.Forall₂.cons rfl h
    have hhex : isHexNumeral (48 :: text) = false := by
      apply isHexNumeral_of_digits
      intro unit hunit
      rcases List.mem_cons.mp hunit with rfl | hunit
      · rfl
      · exact isDigitIn_mono (by norm_num) (hall unit hunit)
    have htext : text ≠ [] := by
      rintro rfl
      cases h
      exact hne rfl
    have hoctal : isOctalNumeral (48 :: text) = true := by
      simpa [isOctalNumeral, htext] using hall
    rw [hhex, hoctal, hzero.valueIn, List.reverse_cons, Nat.ofDigits_append]
    simp
  | @hex x text digits hx h hne hlt =>
    have htext : text ≠ [] := by
      rintro rfl
      cases h
      exact hne rfl
    have hhex : isHexNumeral (48 :: x :: text) = true :=
      isHexNumeral_iff.mpr ⟨x, text, rfl, hx, htext, h.all_isDigitIn hlt⟩
    rw [hhex, List.drop_succ_cons, List.drop_succ_cons, List.drop_zero, h.valueIn]
    rfl

theorem isDigitIn_dot {radix : ℕ} (h : radix ≤ 16) : isDigitIn radix dot = false := by
  have hdot : isDigitIn 16 dot = false := by decide
  by_contra htrue
  rw [isDigitIn_mono h (Bool.not_eq_false _ ▸ htrue)] at hdot
  nomatch hdot

/-- A part the guard reads holds digits and the letter of the prefix only. -/
theorem mem_of_parse {part : Units} {value unit : ℕ} (h : parseIpv4Component part = some value)
    (hmem : unit ∈ part) : isDigitIn 16 unit = true ∨ unit = 120 ∨ unit = 88 := by
  unfold parseIpv4Component at h
  split_ifs at h with hhex hoctal hdecimal
  · obtain ⟨x, text, rfl, hx, _, hall⟩ := isHexNumeral_iff.mp hhex
    rcases List.mem_cons.mp hmem with rfl | hmem
    · exact Or.inl rfl
    · rcases List.mem_cons.mp hmem with rfl | hmem
      · exact Or.inr hx
      · exact Or.inl (hall unit hmem)
  · simp only [isOctalNumeral, Bool.and_eq_true, decide_eq_true_eq, List.all_eq_true] at hoctal
    obtain ⟨⟨hhead, _⟩, hall⟩ := hoctal
    rw [← List.cons_head?_tail hhead] at hmem
    rcases List.mem_cons.mp hmem with rfl | hmem
    · exact Or.inl rfl
    · exact Or.inl (isDigitIn_mono (by norm_num) (hall unit hmem))
  · simp only [isDecimalNumeral, Bool.or_eq_true, Bool.and_eq_true, decide_eq_true_eq,
      List.all_eq_true] at hdecimal
    rcases hdecimal with rfl | ⟨_, hall⟩
    · rw [List.mem_singleton.mp hmem]
      exact Or.inl rfl
    · exact Or.inl (isDigitIn_mono (by norm_num) (hall unit hmem))

/-- Parts that the guard reads as the given numbers. -/
def Parsed (parts : List Units) (values : List ℕ) : Prop :=
  List.Forall₂ (fun part value => parseIpv4Component part = some value) parts values

theorem mapM_eq_some_iff {parts : List Units} {values : List ℕ} :
    parts.mapM parseIpv4Component = some values ↔ Parsed parts values := by
  unfold Parsed
  induction parts generalizing values with
  | nil => simp [eq_comm]
  | cons part rest ih =>
    rw [List.mapM_cons, List.forall₂_cons_left_iff]
    constructor
    · intro h
      cases hpart : parseIpv4Component part with
      | none => simp [hpart] at h
      | some value =>
        cases hrest : rest.mapM parseIpv4Component with
        | none => simp [hpart, hrest] at h
        | some more =>
          refine ⟨value, more, rfl, ih.mp hrest, ?_⟩
          simpa [hpart, hrest, eq_comm] using h
    · rintro ⟨value, more, hpart, hrest, rfl⟩
      rw [hpart, ih.mpr hrest]
      rfl

theorem Parsed.mem_units {parts : List Units} {values : List ℕ} (h : Parsed parts values)
    {part : Units} (hpart : part ∈ parts) {unit : ℕ} (hunit : unit ∈ part) :
    isDigitIn 16 unit = true ∨ unit = 120 ∨ unit = 88 := by
  unfold Parsed at h
  induction h with
  | nil => exact absurd hpart List.not_mem_nil
  | cons hfirst hrest ih =>
    rcases List.mem_cons.mp hpart with rfl | hpart
    · exact mem_of_parse hfirst hunit
    · exact ih hpart

theorem Parsed.dot_not_mem {parts : List Units} {values : List ℕ} (h : Parsed parts values) :
    ∀ part ∈ parts, dot ∉ part := by
  intro part hpart hdot
  have hkind := h.mem_units hpart hdot
  rw [isDigitIn_dot le_rfl] at hkind
  revert hkind
  decide

theorem ipv4ToInt_intercalate {parts : List Units} {values : List ℕ} (h : Parsed parts values)
    (hlow : 1 ≤ values.length) (hhigh : values.length ≤ 4) :
    ipv4ToInt ([dot].intercalate parts) = fillAddress values := by
  have hlength : parts.length = values.length := h.length_eq
  have hsplit : ([dot].intercalate parts).splitOn dot = parts := by
    apply List.splitOn_intercalate _ h.dot_not_mem
    rintro rfl
    simp only [List.length_nil] at hlength
    omega
  unfold ipv4ToInt
  simp only [hsplit]
  rw [if_neg (by omega), mapM_eq_some_iff.mpr h, Option.bind_some,
    joinParts_eq_fillAddress hlow hhigh]

/-- A text the guard decodes has one to four parts, each read as a number. -/
theorem exists_parsed_of_ipv4ToInt {text : Units} {address : ℕ} (h : ipv4ToInt text = some address) :
    ∃ parts values, text = [dot].intercalate parts ∧ Parsed parts values ∧
      fillAddress values = some address := by
  unfold ipv4ToInt at h
  simp only at h
  split_ifs at h with hcount
  obtain ⟨values, hvalues, hjoin⟩ := Option.bind_eq_some_iff.mp h
  have hparsed := mapM_eq_some_iff.mp hvalues
  have hlength : (text.splitOn dot).length = values.length := hparsed.length_eq
  rw [joinParts_eq_fillAddress (by omega) (by omega)] at hjoin
  exact ⟨text.splitOn dot, values, (List.intercalate_splitOn dot).symm, hparsed, hjoin⟩

theorem ipv4ToInt_of_spells {text : Units} {address : ℕ} (h : Spells text address) :
    ipv4ToInt text = some address := by
  obtain ⟨parts, values, rfl, hparts, hfill⟩ := h
  obtain ⟨hlow, hhigh, _⟩ := fillAddress_eq_some hfill
  have hparsed : Parsed parts values := hparts.imp fun _ _ => parseIpv4Component_of_spelling
  rw [ipv4ToInt_intercalate hparsed hlow hhigh, hfill]

/-! ## The reading of the C library -/

/-- A run of digits at the front of a text and what follows it. -/
def readDigits (radix : ℕ) (text : Units) : ℕ × Units :=
  (valueIn radix (text.takeWhile (isDigitIn radix)), text.dropWhile (isDigitIn radix))

/-- The number at the front of a text: hexadecimal after `0x`, octal after `0`, else decimal. -/
def readNumber (text : Units) : Option (ℕ × Units) :=
  match text with
  | [] => none
  | first :: rest =>
      if isDigitIn 10 first = false then none
      else if first ≠ 48 then some (readDigits 10 text)
      else
        match rest with
        | x :: more =>
            if (x = 120 ∨ x = 88) ∧ more.head?.any (isDigitIn 16) then some (readDigits 16 more)
            else some (readDigits 8 text)
        | [] => some (readDigits 8 text)

/-- At most so many numbers with dots between them, up to the end or a space. -/
def readParts : ℕ → Units → Option (List ℕ)
  | 0, _ => none
  | count + 1, text =>
      match readNumber text with
      | none => none
      | some (value, []) => some [value]
      | some (value, unit :: rest) =>
          if unit = dot then (readParts count rest).map (fun more => value :: more)
          else if unit = 32 ∨ (9 ≤ unit ∧ unit ≤ 13) then some [value]
          else none

/-- The address a text denotes for `inet_aton`. -/
def inetAton (text : Units) : Option ℕ := (readParts 4 text).bind fillAddress

/-- The end of a part: the text is over or goes on with a dot. -/
def PartEnd (rest : Units) : Prop := ∀ unit, rest.head? = some unit → unit = dot

theorem readDigits_append {radix : ℕ} {run rest : Units} (hradix : radix ≤ 16)
    (hrun : ∀ unit ∈ run, isDigitIn radix unit = true) (hrest : PartEnd rest) :
    readDigits radix (run ++ rest) = (valueIn radix run, rest) := by
  have hstop : ∀ unit, rest.head? = some unit → isDigitIn radix unit = false := by
    intro unit hunit
    rw [hrest unit hunit, isDigitIn_dot hradix]
  obtain ⟨htake, hdrop⟩ := takeWhile_digits hrun hstop
  rw [readDigits, htake, hdrop]

/-- Octal digits after a zero are read whole, as no digit is the letter of the prefix. -/
theorem readNumber_octal {run rest : Units} (hrun : ∀ unit ∈ run, isDigitIn 8 unit = true)
    (hrest : PartEnd rest) :
    readNumber (48 :: run ++ rest) = some (valueIn 8 (48 :: run), rest) := by
  have hall : ∀ unit ∈ 48 :: run, isDigitIn 8 unit = true := by
    intro unit hunit
    rcases List.mem_cons.mp hunit with rfl | hunit
    · rfl
    · exact hrun unit hunit
  have hread := readDigits_append (by norm_num) hall hrest
  rw [List.cons_append] at hread ⊢
  unfold readNumber
  simp only
  rw [if_neg (by decide), if_neg (by simp)]
  split
  · rename_i x more hmore
    have hx : ¬ (x = 120 ∨ x = 88) := by
      cases run with
      | nil =>
        have := hrest x (by rw [List.nil_append] at hmore; rw [hmore]; rfl)
        rw [this]
        decide
      | cons unit run =>
        rw [List.cons_append, List.cons.injEq] at hmore
        have := isDigitIn_ten.mp (isDigitIn_mono (by norm_num)
          (hrun unit (List.mem_cons_self ..)))
        omega
    rw [if_neg fun h => hx h.1, hread]
  · rw [hread]

theorem readNumber_append {part rest : Units} {value : ℕ}
    (h : parseIpv4Component part = some value) (hrest : PartEnd rest) :
    readNumber (part ++ rest) = some (value, rest) := by
  unfold parseIpv4Component at h
  split_ifs at h with hhex hoctal hdecimal
  · obtain ⟨x, text, rfl, hx, hne, hall⟩ := isHexNumeral_iff.mp hhex
    rw [Option.some.injEq] at h
    obtain ⟨unit, more, rfl⟩ := List.exists_cons_of_ne_nil hne
    have hread := readDigits_append (by norm_num) hall hrest
    have hunit := hall unit (List.mem_cons_self ..)
    rw [List.cons_append, List.cons_append, List.cons_append, readNumber]
    rw [if_neg (by decide), if_neg (by simp)]
    simp only [List.head?_cons, Option.any_some, hunit, and_true]
    rw [if_pos hx, ← List.cons_append, hread, ← h]
    rfl
  · simp only [isOctalNumeral, Bool.and_eq_true, decide_eq_true_eq, List.all_eq_true] at hoctal
    obtain ⟨⟨hhead, _⟩, hall⟩ := hoctal
    rw [Option.some.injEq, ← List.cons_head?_tail hhead] at h
    rw [← List.cons_head?_tail hhead, readNumber_octal hall hrest, h]
  · simp only [isDecimalNumeral, Bool.or_eq_true, Bool.and_eq_true, decide_eq_true_eq,
      List.all_eq_true] at hdecimal
    rw [Option.some.injEq] at h
    rcases hdecimal with rfl | ⟨⟨hhead, hne⟩, hall⟩
    · rw [readNumber_octal (List.forall_mem_nil _) hrest, ← h]
      rfl
    · obtain ⟨unit, more, rfl⟩ := List.exists_cons_of_ne_nil (of_decide_eq_true (by simpa using hne))
      have hunit := hall unit (List.mem_cons_self ..)
      have hread := readDigits_append (by norm_num) hall hrest
      have hzero : unit ≠ 48 := by simpa using hhead
      rw [List.cons_append] at hread ⊢
      unfold readNumber
      simp only
      rw [if_neg (by rw [hunit]; decide), if_pos hzero, hread, h]

theorem readParts_intercalate {parts : List Units} {values : List ℕ} (h : Parsed parts values)
    (hne : parts ≠ []) {count : ℕ} (hcount : parts.length ≤ count) :
    readParts count ([dot].intercalate parts) = some values := by
  unfold Parsed at h
  induction h generalizing count with
  | nil => exact absurd rfl hne
  | @cons part value rest more hpart hrest ih =>
    obtain ⟨count, rfl⟩ : ∃ less, count = less + 1 := by
      rw [List.length_cons] at hcount
      exact ⟨count - 1, by omega⟩
    cases hrest with
    | nil =>
      have hend : PartEnd [] := nofun
      have hread := readNumber_append hpart hend
      rw [List.append_nil] at hread
      rw [List.intercalate_singleton, readParts, hread]
    | @cons next number others numbers hnext hothers =>
      have hend : PartEnd (dot :: [dot].intercalate (next :: others)) :=
        fun unit hunit => (Option.some.inj hunit).symm
      have hread := readNumber_append hpart hend
      have hrestCount : (next :: others).length ≤ count := by simpa using hcount
      have hlater := ih (List.cons_ne_nil _ _) hrestCount
      rw [List.intercalate_cons_cons, List.append_assoc, List.singleton_append, readParts, hread]
      simp only [if_true, hlater, Option.map_some]

/-- What the guard decodes, the C library decodes to the same address. -/
theorem inetAton_of_ipv4ToInt {text : Units} {address : ℕ} (h : ipv4ToInt text = some address) :
    inetAton text = some address := by
  obtain ⟨parts, values, rfl, hparsed, hfill⟩ := exists_parsed_of_ipv4ToInt h
  obtain ⟨hlow, hhigh, _⟩ := fillAddress_eq_some hfill
  have hlength : parts.length = values.length := hparsed.length_eq
  have hne : parts ≠ [] := by
    rintro rfl
    simp only [List.length_nil] at hlength
    omega
  rw [inetAton, readParts_intercalate hparsed hne (by omega), Option.bind_some, hfill]

end Gittensory.AddressLiterals
