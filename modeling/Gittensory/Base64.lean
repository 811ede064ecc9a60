import Gittensory.CodeUnits
import Mathlib.Data.List.DropRight

/-!
Base64 as `btoa` and `atob` have it. Three bytes are four letters, a last group of one or two
bytes is two or three letters with padding behind; the decoder drops white space and padding
and refuses a single letter at the end.
-/
namespace Gittensory.Base64

open CodeUnits

section Letters

/-- The letter of a number below 64. -/
def letter (value : ℕ) : ℕ :=
  if value < 26 then 65 + value
  else if value < 52 then 71 + value
  else if value < 62 then value - 4
  else if value = 62 then 43
  else 47

def valueOf (unit : ℕ) : Option ℕ :=
  if 65 ≤ unit ∧ unit ≤ 90 then some (unit - 65)
  else if 97 ≤ unit ∧ unit ≤ 122 then some (unit - 71)
  else if 48 ≤ unit ∧ unit ≤ 57 then some (unit + 4)
  else if unit = 43 then some 62
  else if unit = 47 then some 63
  else none

def padding : ℕ := 61

theorem valueOf_letter {value : ℕ} (h : value < 64) : valueOf (letter value) = some value := by
  unfold letter valueOf
  split_ifs <;> first | rfl | (simp only [Option.some.injEq]; omega) | omega

/-- A letter of the alphabet: no padding and no white space. -/
def IsLetter (unit : ℕ) : Prop :=
  (65 ≤ unit ∧ unit ≤ 90) ∨ (97 ≤ unit ∧ unit ≤ 122) ∨ (48 ≤ unit ∧ unit ≤ 57) ∨ unit = 43 ∨
    unit = 47

theorem isLetter_letter {value : ℕ} (h : value < 64) : IsLetter (letter value) := by
  unfold letter IsLetter
  split_ifs <;> omega

end Letters

section Groups

/-- The bytes in groups of six bits, the last one filled up with zeros. -/
def sextets : List UInt8 → List ℕ
  | [] => []
  | [a] => [a.toNat / 4, a.toNat % 4 * 16]
  | [a, b] => [a.toNat / 4, a.toNat % 4 * 16 + b.toNat / 16, b.toNat % 16 * 4]
  | a :: b :: c :: rest =>
      a.toNat / 4 :: (a.toNat % 4 * 16 + b.toNat / 16) :: (b.toNat % 16 * 4 + c.toNat / 64) ::
        c.toNat % 64 :: sextets rest

/-- The bytes of groups of six bits; the bits left over are dropped. -/
def fromSextets : List ℕ → Option (List UInt8)
  | [] => some []
  | [_] => none
  | [x, y] => some [UInt8.ofNat (x * 4 + y / 16)]
  | [x, y, z] => some [UInt8.ofNat (x * 4 + y / 16), UInt8.ofNat (y % 16 * 16 + z / 4)]
  | x :: y :: z :: w :: rest =>
      (fromSextets rest).map fun bytes =>
        UInt8.ofNat (x * 4 + y / 16) :: UInt8.ofNat (y % 16 * 16 + z / 4) ::
          UInt8.ofNat (z % 4 * 64 + w) :: bytes

theorem sextets_lt : ∀ (bytes : List UInt8), ∀ value ∈ sextets bytes, value < 64
  | [], _, h => absurd h List.not_mem_nil
  | [a], value, h => by
      have ha := a.toNat_lt
      simp only [sextets, List.mem_cons, List.not_mem_nil, or_false] at h
      omega
  | [a, b], value, h => by
      have ha := a.toNat_lt
      have hb := b.toNat_lt
      simp only [sextets, List.mem_cons, List.not_mem_nil, or_false] at h
      omega
  | a :: b :: c :: rest, value, h => by
      have ha := a.toNat_lt
      have hb := b.toNat_lt
      have hc := c.toNat_lt
      simp only [sextets, List.mem_cons] at h
      rcases h with h | h | h | h | h
      · omega
      · omega
      · omega
      · omega
      · exact sextets_lt rest value h

theorem length_sextets : ∀ bytes : List UInt8, (sextets bytes).length % 4 ≠ 1
  | [] => Nat.zero_ne_one
  | [_] => by simp [sextets]
  | [_, _] => by simp [sextets]
  | a :: b :: c :: rest => by
      have ih := length_sextets rest
      simp only [sextets, List.length_cons]
      omega

theorem ofNat_eq (byte : UInt8) {value : ℕ} (h : value = byte.toNat) :
    UInt8.ofNat value = byte := by
  rw [h, UInt8.ofNat_toNat]

theorem fromSextets_sextets : ∀ bytes : List UInt8, fromSextets (sextets bytes) = some bytes
  | [] => rfl
  | [a] => by
      rw [sextets, fromSextets, ofNat_eq a (by omega)]
  | [a, b] => by
      have hb := b.toNat_lt
      rw [sextets, fromSextets, ofNat_eq a (by omega), ofNat_eq b (by omega)]
  | a :: b :: c :: rest => by
      have hb := b.toNat_lt
      have hc := c.toNat_lt
      rw [sextets, fromSextets, fromSextets_sextets rest, Option.map_some,
        ofNat_eq a (by omega), ofNat_eq b (by omega),
        ofNat_eq c (by omega)]

end Groups

section Texts

/-- The padding that fills up a text of this many letters. -/
def paddingFor (length : ℕ) : Units := List.replicate ((4 - length % 4) % 4) padding

def btoa (bytes : List UInt8) : Units :=
  (sextets bytes).map letter ++ paddingFor (sextets bytes).length

/-- Tab, line feed, form feed, carriage return, space. -/
def isAsciiSpace (unit : ℕ) : Bool :=
  unit = 9 || unit = 10 || unit = 12 || unit = 13 || unit = 32

/-- Of a text whose length is a multiple of four, one or two paddings at the end. -/
def dropPadding (text : Units) : Units :=
  if text.length % 4 ≠ 0 then text
  else if text.getLast? ≠ some padding then text
  else if text.dropLast.getLast? ≠ some padding then text.dropLast
  else text.dropLast.dropLast

/-- `none` where `atob` throws. -/
def atob (text : Units) : Option (List UInt8) :=
  ((dropPadding (text.filter fun unit => !isAsciiSpace unit)).mapM valueOf).bind fromSextets

/-- Letters without padding in between, as many as bytes can be written with. -/
structure Unpadded (text : Units) : Prop where
  letters : ∀ unit ∈ text, IsLetter unit
  length : text.length % 4 ≠ 1

theorem IsLetter.ne_padding {unit : ℕ} (h : IsLetter unit) : unit ≠ padding := by
  unfold IsLetter at h
  unfold padding
  omega

theorem IsLetter.not_isAsciiSpace {unit : ℕ} (h : IsLetter unit) :
    (!isAsciiSpace unit) = true := by
  unfold IsLetter at h
  simp only [isAsciiSpace, Bool.not_eq_true', Bool.or_eq_false_iff, decide_eq_false_iff_not]
  omega

theorem unpadded_sextets (bytes : List UInt8) : Unpadded ((sextets bytes).map letter) where
  letters unit hunit := by
    obtain ⟨value, hvalue, rfl⟩ := List.mem_map.mp hunit
    exact isLetter_letter (sextets_lt bytes value hvalue)
  length := by
    rw [List.length_map]
    exact length_sextets bytes

theorem getLast?_ne_padding {text : Units} (h : ∀ unit ∈ text, IsLetter unit) :
    text.getLast? ≠ some padding := fun hlast =>
  (h padding (List.mem_of_getLast? hlast)).ne_padding rfl

theorem dropPadding_append {text : Units} (h : Unpadded text) :
    dropPadding (text ++ paddingFor text.length) = text := by
  have hlast := getLast?_ne_padding h.letters
  have hcases : text.length % 4 = 0 ∨ text.length % 4 = 2 ∨ text.length % 4 = 3 := by
    have := h.length
    omega
  unfold paddingFor dropPadding
  rcases hcases with hmod | hmod | hmod
  · rw [hmod, Nat.sub_zero, Nat.mod_self, List.replicate_zero, List.append_nil,
      if_neg (not_not.mpr hmod), if_pos hlast]
  · have hfull : (text ++ [padding, padding]).length % 4 = 0 := by
      rw [List.length_append, List.length_cons, List.length_singleton]
      omega
    have htwo : text ++ [padding, padding] = text ++ [padding] ++ [padding] := by simp
    have hpadding : List.replicate ((4 - text.length % 4) % 4) padding = [padding, padding] := by
      rw [hmod]
      rfl
    rw [hpadding, if_neg (not_not.mpr hfull), htwo, if_neg (by simp), List.dropLast_concat,
      if_neg (by simp), List.dropLast_concat]
  · have hfull : (text ++ [padding]).length % 4 = 0 := by
      rw [List.length_append, List.length_singleton]
      omega
    have hpadding : List.replicate ((4 - text.length % 4) % 4) padding = [padding] := by
      rw [hmod]
      rfl
    rw [hpadding, if_neg (not_not.mpr hfull), if_neg (by simp), List.dropLast_concat, if_pos hlast]

theorem filter_append_padding {text : Units} (h : Unpadded text) :
    (text ++ paddingFor text.length).filter (fun unit => !isAsciiSpace unit) =
      text ++ paddingFor text.length := by
  refine List.filter_eq_self.mpr fun unit hunit => ?_
  rcases List.mem_append.mp hunit with hletter | hpadding
  · exact (h.letters unit hletter).not_isAsciiSpace
  · rw [List.eq_of_mem_replicate hpadding]
    rfl

/-- Padded letters are read as the groups of bits they stand for. -/
theorem atob_append {text : Units} (h : Unpadded text) :
    atob (text ++ paddingFor text.length) = (text.mapM valueOf).bind fromSextets := by
  rw [atob, filter_append_padding h, dropPadding_append h]

theorem mapM_valueOf_map_letter {values : List ℕ} (h : ∀ value ∈ values, value < 64) :
    (values.map letter).mapM valueOf = some values := by
  induction values with
  | nil => rfl
  | cons value rest ih =>
    obtain ⟨hvalue, hrest⟩ := List.forall_mem_cons.mp h
    rw [List.map_cons, List.mapM_cons, valueOf_letter hvalue, ih hrest]
    rfl

/-- What is written is read back, from the letters alone with the padding restored. -/
theorem atob_letters (bytes : List UInt8) :
    atob ((sextets bytes).map letter ++ paddingFor ((sextets bytes).map letter).length) =
      some bytes := by
  rw [atob_append (unpadded_sextets bytes), mapM_valueOf_map_letter (sextets_lt bytes)]
  exact fromSextets_sextets bytes

end Texts

end Gittensory.Base64
