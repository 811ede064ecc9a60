import Gittensory.BalancedText
import Gittensory.RadixNumerals
import Gittensory.UpstreamRuleset

/-!
What the canonical text of a JSON value tells about the value. Strings, numbers and
bracketed lists are read back from the text, whatever stands next to them; of an object the
members come back in one order, so its text gives them up to a permutation.
-/
namespace Gittensory.CanonicalText

open BalancedText CodeUnits JsValue JsonRecord JsonText UpstreamSources UpstreamRuleset

/-- Numbers as `Number.prototype.toString` writes them. -/
structure NumberTexts (platform : Platform) : Prop where
  injective : Function.Injective platform.numberText
  nonempty : ∀ value, platform.numberText value ≠ []
  /-- Digits, signs, the point and the exponent mark. -/
  letters : ∀ value, ∀ unit ∈ platform.numberText value,
    (48 ≤ unit ∧ unit ≤ 57) ∨ unit = 43 ∨ unit = 45 ∨ unit = 46 ∨ unit = 101

def jsonMarks : Marks ℕ where
  quote := doubleQuote
  escape := backslash
  opens unit := unit = 91 || unit = 123
  closes unit := unit = 93 || unit = 125
  distinct := by decide

/-- What may follow a value. -/
def endsValue (unit : ℕ) : Bool := unit = comma || unit = 93 || unit = 125

def endsKey (unit : ℕ) : Bool := unit = colon

section Strings

variable {stop : ℕ → Bool}

theorem hexDigit_ne (digit : ℕ) :
    hexDigit (digit % 16) ≠ doubleQuote ∧ hexDigit (digit % 16) ≠ backslash := by
  unfold hexDigit doubleQuote backslash
  split_ifs <;> omega

theorem quoted_jsonUnit (unit : ℕ) : Quoted jsonMarks stop (jsonUnit unit) := by
  unfold jsonUnit unicodeEscape
  split_ifs with hquote
  · exact quoted_escape unit
  · exact quoted_escape 98
  · exact quoted_escape 116
  · exact quoted_escape 110
  · exact quoted_escape 102
  · exact quoted_escape 114
  · have hdigit : ∀ digit, Quoted jsonMarks stop [hexDigit (digit % 16)] :=
      fun digit => quoted_letter (hexDigit_ne digit).1 (hexDigit_ne digit).2
    exact (quoted_escape 117).append ((((hdigit _).append (hdigit _)).append (hdigit _)).append
      (hdigit _))
  · rw [not_or] at hquote
    exact quoted_letter hquote.1 hquote.2

theorem quoted_jsonMark {text : Units} {mark : Bool × ℕ} (h : mark ∈ marked false text) :
    Quoted jsonMarks stop (jsonMark mark) := by
  obtain ⟨half, unit⟩ := mark
  cases half with
  | false => exact quoted_jsonUnit unit
  | true =>
    have hrange := surrogate_of_marked (fun hf => absurd hf Bool.false_ne_true) h
    have hquote : unit ≠ jsonMarks.quote := by
      change unit ≠ 34
      omega
    have hescape : unit ≠ jsonMarks.escape := by
      change unit ≠ 92
      omega
    exact quoted_letter hquote hescape

theorem quoted_flatMap {α : Type*} {items : List α} {code : α → Units}
    (h : ∀ item ∈ items, Quoted jsonMarks stop (code item)) :
    Quoted jsonMarks stop (items.flatMap code) := by
  induction items with
  | nil => exact quoted_nil
  | cons item rest ih =>
    obtain ⟨hitem, hrest⟩ := List.forall_mem_cons.mp h
    rw [List.flatMap_cons]
    exact hitem.append (ih hrest)

theorem closed_jsonQuoted (hstop : stop doubleQuote = false) (text : Units) :
    Closed jsonMarks stop (jsonQuoted text) := by
  refine closed_quoted hstop ?_
  rw [jsonEscape, jsonEscapeFrom_eq]
  exact quoted_flatMap fun mark hmark => quoted_jsonMark hmark

def hexValue (unit : ℕ) : ℕ := if unit < 58 then unit - 48 else unit - 87

/-- The first unit that a JSON string spells, and what follows it. -/
def readUnit : Units → ℕ × Units
  | 92 :: 117 :: a :: b :: c :: d :: rest =>
      (hexValue a * 4096 + hexValue b * 256 + hexValue c * 16 + hexValue d, rest)
  | 92 :: 98 :: rest => (8, rest)
  | 92 :: 116 :: rest => (9, rest)
  | 92 :: 110 :: rest => (10, rest)
  | 92 :: 102 :: rest => (12, rest)
  | 92 :: 114 :: rest => (13, rest)
  | 92 :: unit :: rest => (unit, rest)
  | unit :: rest => (unit, rest)
  | [] => (0, [])

theorem hexValue_hexDigit (digit : ℕ) : hexValue (hexDigit (digit % 16)) = digit % 16 := by
  unfold hexValue hexDigit
  split_ifs <;> omega

theorem readUnit_cons {unit : ℕ} (h : unit ≠ backslash) (rest : Units) :
    readUnit (unit :: rest) = (unit, rest) := by
  unfold readUnit
  split <;> simp_all [backslash]

theorem readUnit_jsonUnit (unit : ℕ) (rest : Units) :
    readUnit (jsonUnit unit ++ rest) = (unit, rest) := by
  unfold jsonUnit
  split_ifs with hquote h8 h9 h10 h12 h13 hspelled
  · rcases hquote with rfl | rfl <;> rfl
  · rw [h8]
    rfl
  · rw [h9]
    rfl
  · rw [h10]
    rfl
  · rw [h12]
    rfl
  · rw [h13]
    rfl
  · have hbound : unit < 65536 := by
      simp only [isHighSurrogate, isLowSurrogate, Bool.and_eq_true, decide_eq_true_eq] at hspelled
      omega
    have hread : readUnit (unicodeEscape unit ++ rest) =
        (hexValue (hexDigit (unit / 4096 % 16)) * 4096 + hexValue (hexDigit (unit / 256 % 16)) * 256 +
          hexValue (hexDigit (unit / 16 % 16)) * 16 + hexValue (hexDigit (unit % 16)), rest) := rfl
    rw [hread]
    simp only [hexValue_hexDigit, Prod.mk.injEq, and_true]
    omega
  · rw [not_or] at hquote
    exact readUnit_cons hquote.2 rest

theorem readUnit_jsonMark {text : Units} {mark : Bool × ℕ} (h : mark ∈ marked false text)
    (rest : Units) : readUnit (jsonMark mark ++ rest) = (mark.2, rest) := by
  obtain ⟨half, unit⟩ := mark
  cases half with
  | false => exact readUnit_jsonUnit unit rest
  | true =>
    have hrange := surrogate_of_marked (fun hf => absurd hf Bool.false_ne_true) h
    refine readUnit_cons ?_ rest
    change unit ≠ 92
    omega

theorem jsonMark_ne_nil {text : Units} {mark : Bool × ℕ} (h : mark ∈ marked false text) :
    jsonMark mark ≠ [] := by
  intro hnil
  -- An empty code would leave the first unit to the text behind it.
  have hzero := readUnit_jsonMark h [0]
  have hone := readUnit_jsonMark h [1]
  rw [hnil] at hzero hone
  have heq : (0, ([] : Units)) = (1, ([] : Units)) :=
    Prod.ext ((congrArg Prod.fst hzero).trans (congrArg Prod.fst hone).symm) rfl
  exact absurd heq (by decide)

theorem map_snd_of_flatMap {marks marks' : List (Bool × ℕ)}
    (h : ∀ mark ∈ marks, ∀ rest, readUnit (jsonMark mark ++ rest) = (mark.2, rest))
    (h' : ∀ mark ∈ marks', ∀ rest, readUnit (jsonMark mark ++ rest) = (mark.2, rest))
    (hne : ∀ mark ∈ marks, jsonMark mark ≠ []) (hne' : ∀ mark ∈ marks', jsonMark mark ≠ [])
    (heq : marks.flatMap jsonMark = marks'.flatMap jsonMark) :
    marks.map Prod.snd = marks'.map Prod.snd := by
  induction marks generalizing marks' with
  | nil =>
    cases marks' with
    | nil => rfl
    | cons mark' rest' =>
      rw [List.flatMap_nil, List.flatMap_cons] at heq
      exact absurd (List.append_eq_nil_iff.mp heq.symm).1 (hne' mark' (List.mem_cons_self ..))
  | cons mark rest ih =>
    obtain ⟨hmark, hrest⟩ := List.forall_mem_cons.mp h
    cases marks' with
    | nil =>
      rw [List.flatMap_nil, List.flatMap_cons] at heq
      exact absurd (List.append_eq_nil_iff.mp heq).1 (hne mark (List.mem_cons_self ..))
    | cons mark' rest' =>
      obtain ⟨hmark', hrest'⟩ := List.forall_mem_cons.mp h'
      rw [List.flatMap_cons, List.flatMap_cons] at heq
      have hread := congrArg readUnit heq
      rw [hmark, hmark', Prod.mk.injEq] at hread
      rw [List.map_cons, List.map_cons, hread.1, ih hrest hrest'
        (List.forall_mem_cons.mp hne).2 (List.forall_mem_cons.mp hne').2 hread.2]

theorem jsonQuoted_inj {text text' : Units} (h : jsonQuoted text = jsonQuoted text') :
    text = text' := by
  have hbody : jsonEscape text = jsonEscape text' := by
    unfold jsonQuoted at h
    rw [List.cons_append, List.cons_append] at h
    exact List.append_cancel_right (List.cons.inj h).2
  rw [jsonEscape, jsonEscape, jsonEscapeFrom_eq, jsonEscapeFrom_eq] at hbody
  rw [← map_snd_marked false text, ← map_snd_marked false text']
  exact map_snd_of_flatMap (fun mark hmark => readUnit_jsonMark hmark)
    (fun mark hmark => readUnit_jsonMark hmark) (fun mark hmark => jsonMark_ne_nil hmark)
    (fun mark hmark => jsonMark_ne_nil hmark) hbody

theorem units_inj {text text' : String} (h : units text = units text') : text = text' := by
  apply String.toList_inj.mp
  exact List.map_injective_iff.mpr (fun a b hab => Char.toNat_inj.mp hab) h

end Strings

section Values

variable {platform : Platform}

theorem stringifyItems_eq (items : List JsonValue) :
    stringifyItems platform items = items.map (stableStringify platform) := by
  induction items with
  | nil => rfl
  | cons item rest ih => rw [stringifyItems, ih, List.map_cons]

theorem stringifyFields_eq (fields : Record) :
    stringifyFields platform fields =
      fields.map (fun field => (field.1, stableStringify platform field.2)) := by
  induction fields with
  | nil => rfl
  | cons field rest ih =>
    obtain ⟨key, value⟩ := field
    rw [stringifyFields, ih, List.map_cons]

/-- One member of an object, as it stands in the text. -/
def memberText (field : String × Units) : Units := jsonQuoted (units field.1) ++ colon :: field.2

theorem memberText_injective : Function.Injective memberText := by
  rintro ⟨key, text⟩ ⟨key', text'⟩ h
  have hclosed : ∀ text, Closed jsonMarks endsKey (jsonQuoted text) :=
    closed_jsonQuoted (by decide)
  obtain ⟨hkey, htext⟩ := (hclosed (units key)).eq_of_append (hclosed (units key'))
    (stopped_cons (by decide) text) (stopped_cons (by decide) text') h
  rw [units_inj (jsonQuoted_inj hkey), (List.cons.inj htext).2]

theorem closed_memberText {field : String × Units} (h : Closed jsonMarks endsValue field.2) :
    Closed jsonMarks endsValue (memberText field) := by
  have hcolon : Closed jsonMarks endsValue [colon] :=
    closed_plain fun unit hunit => by
      rw [List.mem_singleton.mp hunit]
      exact ⟨⟨by decide, by decide, by decide⟩, by decide⟩
  exact (closed_jsonQuoted (by decide) _).append (hcolon.append h)

theorem closed_bracketText {first last : ℕ} (hfirst : first = 91 ∨ first = 123)
    (hlast : last = 93 ∨ last = 125) {items : List Units}
    (h : ∀ item ∈ items, Closed jsonMarks endsValue item) :
    Closed jsonMarks endsValue (first :: [comma].intercalate items ++ [last]) := by
  have hcomma : IsPlain jsonMarks comma := ⟨by decide, by decide, by decide⟩
  have hinner : Inner jsonMarks endsValue ([comma].intercalate items) :=
    inner_intercalate hcomma h
  rcases hfirst with rfl | rfl <;> rcases hlast with rfl | rfl <;>
    exact closed_bracketed (by decide) (by decide) (by decide) (by decide) (by decide)
      (by decide) hinner

/-- The members of an object in the order of their keys. -/
def sortedFields (platform : Platform) (fields : Record) : List (String × Units) :=
  (stringifyFields platform fields).insertionSort fun left right =>
    platform.localeCompare (units left.1) (units right.1) ≠ .gt

theorem perm_sortedFields (fields : Record) :
    (sortedFields platform fields).Perm (stringifyFields platform fields) :=
  List.perm_insertionSort _ _

theorem stableStringify_object (fields : Record) :
    stableStringify platform (.object fields) =
      123 :: [comma].intercalate ((sortedFields platform fields).map memberText) ++ [125] := by
  rw [stableStringify]
  rfl

theorem stableStringify_array (items : List JsonValue) :
    stableStringify platform (.array items) =
      91 :: [comma].intercalate (stringifyItems platform items) ++ [93] := by
  rw [stableStringify]
  rfl

/-- The letters a plain value is written with. -/
theorem closed_letters {text : Units}
    (h : ∀ unit ∈ text, 43 ≤ unit ∧ unit ≠ 44 ∧ unit ≤ 57 ∨ 97 ≤ unit ∧ unit ≤ 122) :
    Closed jsonMarks endsValue text := by
  refine closed_plain fun unit hunit => ?_
  have hrange := h unit hunit
  refine ⟨⟨?_, ?_, ?_⟩, ?_⟩
  · change unit ≠ 34
    omega
  · simp only [jsonMarks, Bool.or_eq_false_iff, decide_eq_false_iff_not]
    omega
  · simp only [jsonMarks, Bool.or_eq_false_iff, decide_eq_false_iff_not]
    omega
  · simp only [endsValue, Bool.or_eq_false_iff, decide_eq_false_iff_not]
    unfold comma
    omega

theorem closed_null : Closed jsonMarks endsValue (units "null") ∧ units "null" ≠ [] :=
  ⟨closed_letters (by decide), by decide⟩

theorem closed_numberText (hnumbers : NumberTexts platform) (value : ℚ) :
    Closed jsonMarks endsValue (platform.numberText value) := by
  refine closed_letters fun unit hunit => ?_
  have := hnumbers.letters value unit hunit
  omega

mutual

theorem closed_stableStringify (hnumbers : NumberTexts platform) : ∀ value : JsonValue,
    Closed jsonMarks endsValue (stableStringify platform value) ∧
      stableStringify platform value ≠ []
  | .null => closed_null
  | .bool value => by
      rw [stableStringify]
      cases value
      · exact ⟨closed_letters (by decide), by decide⟩
      · exact ⟨closed_letters (by decide), by decide⟩
  | .number (.finite value) => by
      rw [stableStringify]
      exact ⟨closed_numberText hnumbers value, hnumbers.nonempty value⟩
  | .number .nan => closed_null
  | .number .infinity => closed_null
  | .number .negInfinity => closed_null
  | .string text => by
      rw [stableStringify]
      exact ⟨closed_jsonQuoted (by decide) text, List.cons_ne_nil _ _⟩
  | .array items => by
      rw [stableStringify_array]
      exact ⟨closed_bracketText (Or.inl rfl) (Or.inl rfl) (closed_stringifyItems hnumbers items),
        List.cons_ne_nil _ _⟩
  | .object fields => by
      rw [stableStringify_object]
      refine ⟨closed_bracketText (Or.inr rfl) (Or.inr rfl) fun item hitem => ?_,
        List.cons_ne_nil _ _⟩
      obtain ⟨field, hfield, rfl⟩ := List.mem_map.mp hitem
      exact closed_memberText
        (closed_stringifyFields hnumbers fields field ((List.mem_insertionSort _).mp hfield))

theorem closed_stringifyItems (hnumbers : NumberTexts platform) : ∀ items : List JsonValue,
    ∀ text ∈ stringifyItems platform items, Closed jsonMarks endsValue text
  | [], _, h => absurd h List.not_mem_nil
  | item :: rest, text, h => by
      rw [stringifyItems] at h
      rcases List.mem_cons.mp h with rfl | hrest
      · exact (closed_stableStringify hnumbers item).1
      · exact closed_stringifyItems hnumbers rest text hrest

theorem closed_stringifyFields (hnumbers : NumberTexts platform) : ∀ fields : Record,
    ∀ field ∈ stringifyFields platform fields, Closed jsonMarks endsValue field.2
  | [], _, h => absurd h List.not_mem_nil
  | (key, value) :: rest, field, h => by
      rw [stringifyFields] at h
      rcases List.mem_cons.mp h with rfl | hrest
      · exact (closed_stableStringify hnumbers value).1
      · exact closed_stringifyFields hnumbers rest field hrest

end

/-- The text of an array gives the texts of its items. -/
theorem array_texts (hnumbers : NumberTexts platform) {items items' : List JsonValue}
    (h : stableStringify platform (.array items) = stableStringify platform (.array items')) :
    items.map (stableStringify platform) = items'.map (stableStringify platform) := by
  rw [stableStringify_array, stableStringify_array, List.cons_append, List.cons_append,
    stringifyItems_eq, stringifyItems_eq] at h
  have hitems : ∀ items : List JsonValue, ∀ text ∈ items.map (stableStringify platform),
      Closed jsonMarks endsValue text ∧ text ≠ [] := by
    intro items text htext
    obtain ⟨item, -, rfl⟩ := List.mem_map.mp htext
    exact closed_stableStringify hnumbers item
  exact intercalate_inj (by decide) (by decide) (by decide) (hitems items) (hitems items')
    (List.cons.inj h).2

/-- The text of an object gives its members, in some order. -/
theorem object_members (hnumbers : NumberTexts platform) {fields fields' : Record}
    (h : stableStringify platform (.object fields) = stableStringify platform (.object fields')) :
    (fields.map fun field => (field.1, stableStringify platform field.2)).Perm
      (fields'.map fun field => (field.1, stableStringify platform field.2)) := by
  rw [stableStringify_object, stableStringify_object, List.cons_append, List.cons_append] at h
  have hitems : ∀ fields : Record, ∀ text ∈ (sortedFields platform fields).map memberText,
      Closed jsonMarks endsValue text ∧ text ≠ [] := by
    intro fields text htext
    obtain ⟨field, hfield, rfl⟩ := List.mem_map.mp htext
    have hclosed := closed_stringifyFields hnumbers fields field
      ((List.mem_insertionSort _).mp hfield)
    exact ⟨closed_memberText hclosed, List.cons_ne_nil _ _⟩
  have hsorted := List.map_injective_iff.mpr memberText_injective
    (intercalate_inj (by decide) (by decide) (by decide) (hitems fields) (hitems fields')
      (List.cons.inj h).2)
  rw [← stringifyFields_eq, ← stringifyFields_eq]
  refine (perm_sortedFields fields).symm.trans ?_
  rw [hsorted]
  exact perm_sortedFields fields'

/-- Objects with one text have one text under each key. -/
theorem member_text (hnumbers : NumberTexts platform) {fields fields' : Record}
    (hkeys : (fields'.map Prod.fst).Nodup)
    (h : stableStringify platform (.object fields) = stableStringify platform (.object fields'))
    {key : String} {value value' : JsonValue} (hvalue : (key, value) ∈ fields)
    (hvalue' : (key, value') ∈ fields') :
    stableStringify platform value = stableStringify platform value' := by
  have hmem : (key, stableStringify platform value) ∈
      fields'.map fun field => (field.1, stableStringify platform field.2) := by
    apply (object_members hnumbers h).subset
    exact List.mem_map.mpr ⟨(key, value), hvalue, rfl⟩
  obtain ⟨⟨other, found⟩, hfound, heq⟩ := List.mem_map.mp hmem
  obtain ⟨rfl, htext⟩ := Prod.mk.inj heq
  have hsame := List.inj_on_of_nodup_map hkeys hfound hvalue' rfl
  rw [← htext, ← (Prod.mk.inj hsame).2]

end Values

end Gittensory.CanonicalText
