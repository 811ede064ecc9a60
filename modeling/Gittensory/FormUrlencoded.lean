import Gittensory.RadixNumerals

/-!
Queries of the form `name=value&name=value`. A text is written byte by byte: letters, digits
and four marks as they are, a space as a plus sign, every other byte as a percent sign and
two capital hexadecimal digits. Reading a query back gives what was written, and when the
query was put into small letters in between, it gives the texts in small letters: a digit of
a percent triple means the same in either case.
-/
namespace Gittensory.FormUrlencoded

open CodeUnits RadixNumerals

/-! ## Small letters -/

/-- The ASCII capitals are lowered, all other units and bytes are kept. -/
def lowerLetter (unit : ℕ) : ℕ := if 65 ≤ unit ∧ unit ≤ 90 then unit + 32 else unit

def lowerAscii (text : Units) : Units := text.map lowerLetter

theorem lowerLetter_lowerLetter (unit : ℕ) : lowerLetter (lowerLetter unit) = lowerLetter unit := by
  unfold lowerLetter
  split_ifs <;> omega

theorem lowerAscii_lowerAscii (text : Units) : lowerAscii (lowerAscii text) = lowerAscii text := by
  unfold lowerAscii
  rw [List.map_map]
  exact List.map_congr_left fun unit _ => lowerLetter_lowerLetter unit

theorem lowerAscii_append (left right : Units) :
    lowerAscii (left ++ right) = lowerAscii left ++ lowerAscii right := List.map_append

/-! ## The encoding of texts as bytes -/

structure Codec where
  encode : Units → List ℕ
  decode : List ℕ → Units

/-- A text that its bytes are read back to; it has no half of a surrogate pair. -/
def Codec.WellFormed (codec : Codec) (text : Units) : Prop :=
  codec.decode (codec.encode text) = text

/-- What holds of UTF-8: a decoded text is well formed, and the bytes below 128 are the ASCII
units, in whatever surroundings. -/
structure Codec.Lawful (codec : Codec) : Prop where
  encode_lt : ∀ text, ∀ byte ∈ codec.encode text, byte < 256
  wellFormed_decode : ∀ bytes, codec.WellFormed (codec.decode bytes)
  encode_lower : ∀ text, codec.encode (lowerAscii text) = (codec.encode text).map lowerLetter
  decode_lower : ∀ bytes, codec.decode (bytes.map lowerLetter) = lowerAscii (codec.decode bytes)

variable {codec : Codec}

theorem Codec.Lawful.wellFormed_lower (h : codec.Lawful) {text : Units}
    (htext : codec.WellFormed text) : codec.WellFormed (lowerAscii text) := by
  unfold Codec.WellFormed at htext ⊢
  rw [h.encode_lower, h.decode_lower, htext]

/-! ## Bytes -/

/-- Letters, digits and `*-._`. -/
def isPlain (byte : ℕ) : Bool :=
  (48 ≤ byte && byte ≤ 57) || (65 ≤ byte && byte ≤ 90) || (97 ≤ byte && byte ≤ 122) ||
    byte = 42 || byte = 45 || byte = 46 || byte = 95

def capitalHexDigit (digit : ℕ) : ℕ := if digit < 10 then 48 + digit else 55 + digit

def percent : ℕ := 37

def plus : ℕ := 43

def encodeByte (byte : ℕ) : Units :=
  if byte = 32 then [plus]
  else if isPlain byte then [byte]
  else [percent, capitalHexDigit (byte / 16), capitalHexDigit (byte % 16)]

/-- The bytes of a percent-encoded text; a percent sign before anything else stays. -/
def percentDecode : Units → List ℕ
  | 37 :: high :: low :: rest =>
      match digitOf high, digitOf low with
      | some high, some low => (16 * high + low) :: percentDecode rest
      | _, _ => 37 :: percentDecode (high :: low :: rest)
  | unit :: rest => unit :: percentDecode rest
  | [] => []

def plusToSpace (text : Units) : Units := text.map fun unit => if unit = plus then 32 else unit

theorem percentDecode_cons {unit : ℕ} (h : unit ≠ percent) (rest : Units) :
    percentDecode (unit :: rest) = unit :: percentDecode rest := by
  rw [percentDecode]
  intro high low tail heq
  exact absurd heq h

theorem percentDecode_triple {high low : ℕ} {first second : ℕ} (hfirst : digitOf first = some high)
    (hsecond : digitOf second = some low) (rest : Units) :
    percentDecode (percent :: first :: second :: rest) =
      (16 * high + low) :: percentDecode rest := by
  rw [percent, percentDecode, hfirst, hsecond]

theorem digitOf_lower_capital {digit : ℕ} (h : digit < 16) :
    digitOf (lowerLetter (capitalHexDigit digit)) = some digit := by
  rw [digitOf_eq_some_iff, lowerLetter, capitalHexDigit]
  split_ifs <;> omega

theorem plusToSpace_of_digit {unit digit : ℕ} (h : digitOf unit = some digit) :
    (if unit = plus then 32 else unit) = unit := by
  apply if_neg
  intro hplus
  rw [hplus] at h
  cases h

/-- One byte is read back from its small letters, itself in small letters. -/
theorem percentDecode_encodeByte {byte : ℕ} (hlt : byte < 256) (rest : Units) :
    percentDecode (plusToSpace (lowerAscii (encodeByte byte)) ++ rest) =
      lowerLetter byte :: percentDecode rest := by
  unfold encodeByte
  split_ifs with hspace hplain
  · rw [hspace]
    exact percentDecode_cons (by decide) rest
  · have hne : lowerLetter byte ≠ plus ∧ lowerLetter byte ≠ percent := by
      simp only [isPlain, Bool.or_eq_true, Bool.and_eq_true, decide_eq_true_eq] at hplain
      unfold lowerLetter plus percent
      split_ifs <;> omega
    have hsame : plusToSpace (lowerAscii [byte]) = [lowerLetter byte] := by
      simp [plusToSpace, lowerAscii, hne.1]
    rw [hsame]
    exact percentDecode_cons hne.2 rest
  · have hfirst := digitOf_lower_capital (show byte / 16 < 16 by omega)
    have hsecond := digitOf_lower_capital (show byte % 16 < 16 by omega)
    have hsame : plusToSpace (lowerAscii [percent, capitalHexDigit (byte / 16),
        capitalHexDigit (byte % 16)]) = [percent, lowerLetter (capitalHexDigit (byte / 16)),
          lowerLetter (capitalHexDigit (byte % 16))] := by
      simp only [plusToSpace, lowerAscii, List.map_cons, List.map_nil,
        plusToSpace_of_digit hfirst, plusToSpace_of_digit hsecond]
      rfl
    have hbyte : lowerLetter byte = byte := by
      simp only [isPlain, Bool.or_eq_true, Bool.and_eq_true, decide_eq_true_eq] at hplain
      unfold lowerLetter
      split_ifs <;> omega
    rw [hsame]
    refine (percentDecode_triple hfirst hsecond rest).trans ?_
    rw [hbyte, Nat.div_add_mod]

theorem percentDecode_encodeBytes {bytes : List ℕ} (hlt : ∀ byte ∈ bytes, byte < 256) :
    percentDecode (plusToSpace (lowerAscii (bytes.flatMap encodeByte))) =
      bytes.map lowerLetter := by
  induction bytes with
  | nil => rfl
  | cons byte bytes ih =>
    have hsplit : plusToSpace (lowerAscii ((byte :: bytes).flatMap encodeByte)) =
        plusToSpace (lowerAscii (encodeByte byte)) ++
          plusToSpace (lowerAscii (bytes.flatMap encodeByte)) := by
      rw [List.flatMap_cons, lowerAscii_append]
      exact List.map_append
    rw [hsplit, percentDecode_encodeByte (hlt byte (List.mem_cons_self ..)),
      ih fun other hother => hlt other (List.mem_cons_of_mem _ hother), List.map_cons]

/-- What a written byte consists of: no separator of a query. -/
def isEncodedUnit (unit : ℕ) : Bool := isPlain unit || unit = plus || unit = percent

theorem isEncodedUnit_of_mem_encodeByte {byte unit : ℕ} (hlt : byte < 256)
    (h : unit ∈ encodeByte byte) : isEncodedUnit unit = true := by
  unfold encodeByte at h
  split_ifs at h with hspace hplain
  · rw [List.mem_singleton.mp h]
    decide
  · rw [List.mem_singleton.mp h, isEncodedUnit, hplain]
    rfl
  · have hdigit : ∀ digit < 16, isEncodedUnit (capitalHexDigit digit) = true := by decide
    rcases List.mem_cons.mp h with rfl | h
    · decide
    · rcases List.mem_cons.mp h with rfl | h
      · exact hdigit _ (by omega)
      · rw [List.mem_singleton.mp h]
        exact hdigit _ (by omega)

theorem isEncodedUnit_lowerLetter {unit : ℕ} (h : isEncodedUnit unit = true) :
    isEncodedUnit (lowerLetter unit) = true := by
  unfold lowerLetter
  split_ifs with hcapital
  · have hletter : isPlain (unit + 32) = true := by
      simp only [isPlain, Bool.or_eq_true, Bool.and_eq_true, decide_eq_true_eq]
      omega
    rw [isEncodedUnit, hletter]
    rfl
  · exact h

/-- A capital letter is written as it is, so its case is that of the written text. -/
theorem lowerAscii_encodeByte_lowerLetter (byte : ℕ) :
    lowerAscii (encodeByte (lowerLetter byte)) = lowerAscii (encodeByte byte) := by
  by_cases hcapital : 65 ≤ byte ∧ byte ≤ 90
  · have hlower : lowerLetter byte = byte + 32 := if_pos hcapital
    have hplain : isPlain byte = true ∧ isPlain (byte + 32) = true := by
      simp only [isPlain, Bool.or_eq_true, Bool.and_eq_true, decide_eq_true_eq]
      omega
    rw [hlower, encodeByte, if_neg (by omega), if_pos hplain.2, encodeByte, if_neg (by omega),
      if_pos hplain.1]
    change [lowerLetter (byte + 32)] = [lowerLetter byte]
    rw [← hlower, lowerLetter_lowerLetter]
  · rw [show lowerLetter byte = byte from if_neg hcapital]

/-! ## Texts -/

def encodeText (codec : Codec) (text : Units) : Units := (codec.encode text).flatMap encodeByte

def decodeText (codec : Codec) (text : Units) : Units :=
  codec.decode (percentDecode (plusToSpace text))

theorem decodeText_lower_encodeText (h : codec.Lawful) {text : Units}
    (htext : codec.WellFormed text) :
    decodeText codec (lowerAscii (encodeText codec text)) = lowerAscii text := by
  unfold decodeText encodeText
  rw [percentDecode_encodeBytes (h.encode_lt text), h.decode_lower, htext]

theorem isEncodedUnit_of_mem_encodeText (h : codec.Lawful) {text : Units} {unit : ℕ}
    (hunit : unit ∈ encodeText codec text) : isEncodedUnit unit = true := by
  obtain ⟨byte, hbyte, hunit⟩ := List.mem_flatMap.mp hunit
  exact isEncodedUnit_of_mem_encodeByte (h.encode_lt text byte hbyte) hunit

theorem lowerAscii_flatMap (bytes : List ℕ) :
    lowerAscii (bytes.flatMap encodeByte) = bytes.flatMap fun byte => lowerAscii (encodeByte byte) :=
  List.map_flatMap ..

theorem lowerAscii_encodeText_lowerAscii (h : codec.Lawful) (text : Units) :
    lowerAscii (encodeText codec (lowerAscii text)) = lowerAscii (encodeText codec text) := by
  unfold encodeText
  rw [h.encode_lower, lowerAscii_flatMap, lowerAscii_flatMap, List.flatMap_map]
  exact List.flatMap_congr fun byte _ => lowerAscii_encodeByte_lowerLetter byte

/-! ## Queries -/

def ampersand : ℕ := 38

def equalSign : ℕ := 61

def pieceOf (codec : Codec) (entry : Units × Units) : Units :=
  encodeText codec entry.1 ++ equalSign :: encodeText codec entry.2

def serialize (codec : Codec) (entries : List (Units × Units)) : Units :=
  [ampersand].intercalate (entries.map (pieceOf codec))

/-- The name goes up to the first equals sign, or is the whole piece. -/
def entryOf (codec : Codec) (piece : Units) : Units × Units :=
  (decodeText codec (piece.takeWhile fun unit => unit ≠ equalSign),
    decodeText codec (piece.dropWhile fun unit => unit ≠ equalSign).tail)

def parse (codec : Codec) (text : Units) : List (Units × Units) :=
  ((text.splitOn ampersand).filter fun piece => piece ≠ []).map (entryOf codec)

def lowerEntry (entry : Units × Units) : Units × Units :=
  (lowerAscii entry.1, lowerAscii entry.2)

theorem lowerEntry_lowerEntry (entry : Units × Units) :
    lowerEntry (lowerEntry entry) = lowerEntry entry :=
  Prod.ext (lowerAscii_lowerAscii _) (lowerAscii_lowerAscii _)

/-- Both texts of an entry are well formed. -/
def WellFormedEntry (codec : Codec) (entry : Units × Units) : Prop :=
  codec.WellFormed entry.1 ∧ codec.WellFormed entry.2

theorem wellFormedEntry_of_mem_parse (h : codec.Lawful) {text : Units} {entry : Units × Units}
    (hentry : entry ∈ parse codec text) : WellFormedEntry codec entry := by
  obtain ⟨piece, -, rfl⟩ := List.mem_map.mp hentry
  exact ⟨h.wellFormed_decode _, h.wellFormed_decode _⟩

theorem WellFormedEntry.lower (h : codec.Lawful) {entry : Units × Units}
    (hentry : WellFormedEntry codec entry) : WellFormedEntry codec (lowerEntry entry) :=
  ⟨h.wellFormed_lower hentry.1, h.wellFormed_lower hentry.2⟩

theorem lowerAscii_pieceOf (entry : Units × Units) :
    lowerAscii (pieceOf codec entry) =
      lowerAscii (encodeText codec entry.1) ++ equalSign :: lowerAscii (encodeText codec entry.2) :=
  lowerAscii_append _ _

theorem ne_equalSign_of_mem_lower (h : codec.Lawful) {text : Units} {unit : ℕ}
    (hunit : unit ∈ lowerAscii (encodeText codec text)) : isEncodedUnit unit = true := by
  obtain ⟨capital, hcapital, rfl⟩ := List.mem_map.mp hunit
  exact isEncodedUnit_lowerLetter (isEncodedUnit_of_mem_encodeText h hcapital)

theorem entryOf_lower_pieceOf (h : codec.Lawful) {entry : Units × Units}
    (hentry : WellFormedEntry codec entry) :
    entryOf codec (lowerAscii (pieceOf codec entry)) = lowerEntry entry := by
  have hname : ∀ unit ∈ lowerAscii (encodeText codec entry.1),
      (decide (unit ≠ equalSign)) = true := by
    intro unit hunit
    have hencoded := ne_equalSign_of_mem_lower h hunit
    apply decide_eq_true
    rintro rfl
    exact absurd hencoded (by decide)
  rw [entryOf, lowerAscii_pieceOf, List.takeWhile_append_of_pos hname,
    List.dropWhile_append_of_pos hname, List.takeWhile_cons_of_neg (by simp),
    List.dropWhile_cons_of_neg (by simp), List.append_nil, List.tail_cons,
    decodeText_lower_encodeText h hentry.1, decodeText_lower_encodeText h hentry.2]
  rfl

theorem ampersand_not_mem_lower_pieceOf (h : codec.Lawful) (entry : Units × Units) :
    ampersand ∉ lowerAscii (pieceOf codec entry) := by
  rw [lowerAscii_pieceOf]
  intro hmem
  rcases List.mem_append.mp hmem with hmem | hmem
  · exact absurd (ne_equalSign_of_mem_lower h hmem) (by decide)
  · rcases List.mem_cons.mp hmem with heq | hmem
    · exact absurd heq (by decide)
    · exact absurd (ne_equalSign_of_mem_lower h hmem) (by decide)

theorem lowerAscii_serialize (entries : List (Units × Units)) :
    lowerAscii (serialize codec entries) =
      [ampersand].intercalate (entries.map fun entry => lowerAscii (pieceOf codec entry)) := by
  have hmap : ∀ pieces : List Units, lowerAscii ([ampersand].intercalate pieces) =
      [ampersand].intercalate (pieces.map lowerAscii) := by
    intro pieces
    induction pieces with
    | nil => rfl
    | cons piece rest ih =>
      cases rest with
      | nil => simp
      | cons other rest =>
        rw [List.intercalate_cons_cons, lowerAscii_append, lowerAscii_append, ih, List.map_cons,
          List.map_cons, List.map_cons, List.intercalate_cons_cons]
        rfl
  rw [serialize, hmap, List.map_map]
  rfl

/-- A written query in small letters is read as its entries in small letters. -/
theorem parse_lower_serialize (h : codec.Lawful) {entries : List (Units × Units)}
    (hentries : ∀ entry ∈ entries, WellFormedEntry codec entry) :
    parse codec (lowerAscii (serialize codec entries)) = entries.map lowerEntry := by
  rw [lowerAscii_serialize]
  by_cases hnil : entries = []
  · rw [hnil]
    rfl
  · have hpieces : ∀ piece ∈ entries.map (fun entry => lowerAscii (pieceOf codec entry)),
        ampersand ∉ piece := by
      intro piece hpiece
      obtain ⟨entry, -, rfl⟩ := List.mem_map.mp hpiece
      exact ampersand_not_mem_lower_pieceOf h entry
    have hsplit := List.splitOn_intercalate ampersand hpieces (by simpa using hnil)
    have hne : ∀ piece ∈ entries.map (fun entry => lowerAscii (pieceOf codec entry)),
        (decide (piece ≠ [])) = true := by
      intro piece hpiece
      obtain ⟨entry, -, rfl⟩ := List.mem_map.mp hpiece
      rw [lowerAscii_pieceOf]
      exact decide_eq_true (List.append_ne_nil_of_right_ne_nil _ (List.cons_ne_nil _ _))
    rw [parse, hsplit, List.filter_eq_self.mpr hne, List.map_map]
    exact List.map_congr_left fun entry hentry => entryOf_lower_pieceOf h (hentries entry hentry)

/-- The case of the entries does not show in the small letters of the query. -/
theorem lowerAscii_serialize_lower (h : codec.Lawful) (entries : List (Units × Units)) :
    lowerAscii (serialize codec (entries.map lowerEntry)) = lowerAscii (serialize codec entries) := by
  rw [lowerAscii_serialize, lowerAscii_serialize, List.map_map]
  congr 1
  apply List.map_congr_left
  intro entry _
  rw [Function.comp_apply, lowerAscii_pieceOf, lowerAscii_pieceOf, lowerEntry,
    lowerAscii_encodeText_lowerAscii h, lowerAscii_encodeText_lowerAscii h]

/-- What a written query consists of. -/
def isQueryUnit (unit : ℕ) : Bool := isEncodedUnit unit || unit = ampersand || unit = equalSign

theorem isQueryUnit_of_mem_serialize (h : codec.Lawful) {entries : List (Units × Units)} {unit : ℕ}
    (hunit : unit ∈ serialize codec entries) : isQueryUnit unit = true := by
  have hencoded : ∀ text, unit ∈ encodeText codec text → isQueryUnit unit = true := by
    intro text htext
    rw [isQueryUnit, isEncodedUnit_of_mem_encodeText h htext]
    rfl
  have hpiece : ∀ entry, unit ∈ pieceOf codec entry → isQueryUnit unit = true := by
    intro entry hmem
    rcases List.mem_append.mp hmem with hmem | hmem
    · exact hencoded _ hmem
    · rcases List.mem_cons.mp hmem with rfl | hmem
      · decide
      · exact hencoded _ hmem
  rcases mem_intercalate hunit with hmem | ⟨piece, hmem, hunit⟩
  · rw [List.mem_singleton.mp hmem]
    decide
  · obtain ⟨entry, -, rfl⟩ := List.mem_map.mp hmem
    exact hpiece entry hunit

end Gittensory.FormUrlencoded
