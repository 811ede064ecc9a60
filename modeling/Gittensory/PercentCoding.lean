import Gittensory.TextPattern
import Mathlib.Data.List.Basic

/-!
Texts with their bytes written as percent escapes, the way `encodeURIComponent` and
`decodeURIComponent` have it. What is encoded consists of unreserved letters and percent signs
only, and decoding gives the text back.
-/
namespace Gittensory.PercentCoding

open TextPattern (Text)

def isUnreserved (c : Char) : Bool :=
  ('a' ≤ c && c ≤ 'z') || ('A' ≤ c && c ≤ 'Z') || ('0' ≤ c && c ≤ '9') ||
    ['-', '_', '.', '!', '~', '*', '\'', '(', ')'].contains c

def hexDigit (digit : ℕ) : Char := Char.ofNat (if digit < 10 then 48 + digit else 55 + digit)

def hexValue (c : Char) : Option ℕ :=
  if '0' ≤ c ∧ c ≤ '9' then some (c.toNat - 48)
  else if 'A' ≤ c ∧ c ≤ 'F' then some (c.toNat - 55)
  else if 'a' ≤ c ∧ c ≤ 'f' then some (c.toNat - 87)
  else none

def escape (byte : UInt8) : Text := ['%', hexDigit (byte.toNat / 16), hexDigit (byte.toNat % 16)]

def encodeChar (c : Char) : Text :=
  if isUnreserved c then [c] else (String.utf8EncodeChar c).flatMap escape

def encode (text : Text) : Text := text.flatMap encodeChar

def readBytes (bytes : List UInt8) : Option Text :=
  (String.fromUTF8? ⟨bytes.toArray⟩).map String.toList

/-- The escapes that stand side by side are read as one run of bytes. -/
def decodeFrom : List UInt8 → Text → Option Text
  | bytes, [] => readBytes bytes
  | bytes, c :: rest =>
      if c = '%' then
        match rest with
        | high :: low :: rest =>
            match hexValue high, hexValue low with
            | some high, some low => decodeFrom (bytes ++ [UInt8.ofNat (16 * high + low)]) rest
            | _, _ => none
        | _ => none
      else
        match readBytes bytes, decodeFrom [] rest with
        | some front, some rest => some (front ++ c :: rest)
        | _, _ => none

def decode (text : Text) : Option Text := decodeFrom [] text

def utf8 (text : Text) : List UInt8 := text.flatMap String.utf8EncodeChar

theorem readBytes_utf8 (text : Text) : readBytes (utf8 text) = some text := by
  have hbytes : (⟨(utf8 text).toArray⟩ : ByteArray) = (String.ofList text).toByteArray :=
    ByteArray.ext (by simp [utf8, List.utf8Encode])
  have hread : String.fromUTF8? (String.ofList text).toByteArray = some (String.ofList text) := by
    rw [String.fromUTF8?, dif_pos (String.ofList text).isValidUTF8]
    rfl
  rw [readBytes, hbytes, hread, Option.map_some, String.toList_ofList]

theorem hexValue_hexDigit {digit : ℕ} (h : digit < 16) :
    hexValue (hexDigit digit) = some digit := by
  have hall : ∀ digit < 16, hexValue (hexDigit digit) = some digit := by decide
  exact hall digit h

theorem isUnreserved_hexDigit {digit : ℕ} (h : digit < 16) :
    isUnreserved (hexDigit digit) = true := by
  have hall : ∀ digit < 16, isUnreserved (hexDigit digit) = true := by decide
  exact hall digit h

theorem decodeFrom_cons {c : Char} (h : c ≠ '%') (bytes : List UInt8) (rest : Text) :
    decodeFrom bytes (c :: rest) =
      match readBytes bytes, decodeFrom [] rest with
      | some front, some rest => some (front ++ c :: rest)
      | _, _ => none := by
  rw [decodeFrom.eq_def]
  exact if_neg h

theorem decodeFrom_escape (bytes : List UInt8) (byte : UInt8) (rest : Text) :
    decodeFrom bytes (escape byte ++ rest) = decodeFrom (bytes ++ [byte]) rest := by
  have hlt : byte.toNat < 256 := byte.toNat_lt
  have hvalue : UInt8.ofNat (16 * (byte.toNat / 16) + byte.toNat % 16) = byte := by
    rw [Nat.div_add_mod, UInt8.ofNat_toNat]
  rw [escape, List.cons_append, List.cons_append, List.cons_append, List.nil_append, decodeFrom,
    if_pos rfl]
  simp only [hexValue_hexDigit (show byte.toNat / 16 < 16 by omega),
    hexValue_hexDigit (show byte.toNat % 16 < 16 by omega), hvalue]

theorem decodeFrom_escapes (bytes more : List UInt8) (rest : Text) :
    decodeFrom bytes (more.flatMap escape ++ rest) = decodeFrom (bytes ++ more) rest := by
  induction more generalizing bytes with
  | nil => rw [List.flatMap_nil, List.nil_append, List.append_nil]
  | cons byte more ih =>
    rw [List.flatMap_cons, List.append_assoc, decodeFrom_escape, ih, List.append_assoc]
    rfl

theorem decodeFrom_utf8 (front text : Text) :
    decodeFrom (utf8 front) (encode text) = some (front ++ text) := by
  induction text generalizing front with
  | nil =>
    rw [encode, List.flatMap_nil, List.append_nil]
    exact readBytes_utf8 front
  | cons c text ih =>
    rw [encode, List.flatMap_cons, encodeChar]
    by_cases hplain : isUnreserved c = true
    · have hmark : c ≠ '%' := by
        rintro rfl
        exact absurd hplain (by decide)
      have hrest := ih []
      rw [utf8, List.flatMap_nil, List.nil_append, encode] at hrest
      rw [if_pos hplain, List.singleton_append, decodeFrom_cons hmark, readBytes_utf8, hrest]
    · have hfront : utf8 front ++ String.utf8EncodeChar c = utf8 (front ++ [c]) := by
        rw [utf8, utf8, List.flatMap_append, List.flatMap_singleton]
      rw [if_neg hplain, decodeFrom_escapes, hfront]
      have hrest := ih (front ++ [c])
      rw [encode] at hrest
      rw [hrest, List.append_assoc]
      rfl

theorem decode_encode (text : Text) : decode (encode text) = some text :=
  decodeFrom_utf8 [] text

theorem coded_of_mem_encode {text : Text} {c : Char} (h : c ∈ encode text) :
    isUnreserved c = true ∨ c = '%' := by
  obtain ⟨letter, -, hmem⟩ := List.mem_flatMap.mp h
  unfold encodeChar at hmem
  split_ifs at hmem with hplain
  · rw [List.mem_singleton.mp hmem]
    exact Or.inl hplain
  · obtain ⟨byte, -, hbyte⟩ := List.mem_flatMap.mp hmem
    have hlt : byte.toNat < 256 := byte.toNat_lt
    simp only [escape, List.mem_cons, List.not_mem_nil, or_false] at hbyte
    rcases hbyte with rfl | rfl | rfl
    · exact Or.inr rfl
    · exact Or.inl (isUnreserved_hexDigit (by omega))
    · exact Or.inl (isUnreserved_hexDigit (by omega))

/-- A letter that is written as an escape stands in no encoded text. -/
theorem not_mem_encode {text : Text} {c : Char} (h : isUnreserved c = false) (hmark : c ≠ '%') :
    c ∉ encode text := by
  intro hmem
  rcases coded_of_mem_encode hmem with hplain | rfl
  · rw [h] at hplain
    cases hplain
  · exact hmark rfl

end Gittensory.PercentCoding
