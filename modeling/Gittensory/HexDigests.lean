import Gittensory.RadixNumerals

/-!
The comparison of digests in hexadecimal (`utils/crypto.ts`, `timingSafeEqualHex`). Both
texts are decoded and the differences of their bytes are gathered, so that texts compare
equal exactly if they decode alike. A malformed text decodes to no bytes, and so two of them
compare equal; where one side is a digest the comparison is exact.
-/
namespace Gittensory.HexDigests

open CodeUnits JsonText RadixNumerals

/-- `/^[0-9a-f]+$/i` -/
def isHexText (hex : Units) : Bool := hex ≠ [] && hex.all (isDigitIn 16)

def hexToBytes (hex : Units) : List UInt8 :=
  if !isHexText hex || hex.length % 2 ≠ 0 then []
  else (List.range (hex.length / 2)).map fun index =>
    UInt8.ofNat (valueIn 16 ((hex.drop (index * 2)).take 2))

def timingSafeEqualHex (left right : Units) : Bool :=
  let leftBytes := hexToBytes left
  let rightBytes := hexToBytes right
  if leftBytes.length ≠ rightBytes.length then false
  else
    (List.range leftBytes.length).foldl
      (fun result index => result ||| (leftBytes.getD index 0 ^^^ rightBytes.getD index 0)) 0 == 0

/-! ## Texts that spell bytes -/

/-- Two digits a byte, in either case. -/
inductive Spells : Units → List UInt8 → Prop
  | nil : Spells [] []
  | cons {high low highDigit lowDigit : ℕ} {text : Units} {bytes : List UInt8}
      (hhigh : digitOf high = some highDigit) (hlow : digitOf low = some lowDigit)
      (hrest : Spells text bytes) :
      Spells (high :: low :: text) (UInt8.ofNat (16 * highDigit + lowDigit) :: bytes)

/-- Nonempty, of even length, and all hexadecimal digits. -/
def IsDigest (text : Units) : Prop :=
  text ≠ [] ∧ text.length % 2 = 0 ∧ ∀ unit ∈ text, isDigitIn 16 unit = true

/-- Both are digests, of the same bytes. -/
def SameDigest (left right : Units) : Prop :=
  IsDigest left ∧ IsDigest right ∧ ∃ bytes, Spells left bytes ∧ Spells right bytes

section Spelling

variable {text : Units} {bytes bytes' : List UInt8}

theorem Spells.unique (h : Spells text bytes) (h' : Spells text bytes') : bytes = bytes' := by
  induction h generalizing bytes' with
  | nil => cases h'; rfl
  | cons hhigh hlow hrest ih =>
    cases h' with
    | cons hhigh' hlow' hrest' =>
      rw [Option.some.inj (hhigh.symm.trans hhigh'), Option.some.inj (hlow.symm.trans hlow'),
        ih hrest']

/-- The bytes that the loop of `hexToBytes` reads. -/
def pairBytes (text : Units) : List UInt8 :=
  (List.range (text.length / 2)).map fun index =>
    UInt8.ofNat (valueIn 16 ((text.drop (index * 2)).take 2))

theorem pairBytes_cons (high low : ℕ) (text : Units) :
    pairBytes (high :: low :: text) = UInt8.ofNat (valueIn 16 [high, low]) :: pairBytes text := by
  have hlength : (high :: low :: text).length / 2 = text.length / 2 + 1 := by
    simp only [List.length_cons]
    omega
  rw [pairBytes, hlength, List.range_succ_eq_map, List.map_cons, List.map_map]
  refine congrArg₂ List.cons rfl (List.map_congr_left fun index _ => ?_)
  have hdrop : (index + 1) * 2 = index * 2 + 1 + 1 := by omega
  simp only [Function.comp_apply, Nat.succ_eq_add_one, hdrop, List.drop_succ_cons]

theorem valueIn_pair {high low highDigit lowDigit : ℕ} (hhigh : digitOf high = some highDigit)
    (hlow : digitOf low = some lowDigit) : valueIn 16 [high, low] = 16 * highDigit + lowDigit := by
  have hdigits : Digits [high, low] [highDigit, lowDigit] :=
    List.Forall₂.cons hhigh (List.Forall₂.cons hlow List.Forall₂.nil)
  rw [hdigits.valueIn]
  simp only [List.reverse_cons, List.reverse_nil, List.nil_append, List.cons_append,
    Nat.ofDigits_cons, Nat.ofDigits_nil]
  omega

/-- Hexadecimal text of even length spells the bytes that the loop reads. -/
theorem spells_pairBytes : ∀ {text : Units}, text.length % 2 = 0 →
    (∀ unit ∈ text, isDigitIn 16 unit = true) → Spells text (pairBytes text)
  | [], _, _ => Spells.nil
  | [_], hlength, _ => absurd hlength Nat.one_ne_zero
  | high :: low :: text, hlength, hdigits => by
      obtain ⟨hhigh, hdigits⟩ := List.forall_mem_cons.mp hdigits
      obtain ⟨hlow, hdigits⟩ := List.forall_mem_cons.mp hdigits
      obtain ⟨highDigit, -, hhigh⟩ := isDigitIn_iff.mp hhigh
      obtain ⟨lowDigit, -, hlow⟩ := isDigitIn_iff.mp hlow
      have hrest : Spells text (pairBytes text) := by
        refine spells_pairBytes ?_ hdigits
        simp only [List.length_cons] at hlength
        omega
      rw [pairBytes_cons, valueIn_pair hhigh hlow]
      exact Spells.cons hhigh hlow hrest

theorem isHexText_iff : isHexText text = true ↔
    text ≠ [] ∧ ∀ unit ∈ text, isDigitIn 16 unit = true := by
  simp [isHexText]

theorem hexToBytes_of_isDigest (h : IsDigest text) : hexToBytes text = pairBytes text := by
  have hhex : isHexText text = true := isHexText_iff.mpr ⟨h.1, h.2.2⟩
  rw [hexToBytes, hhex, h.2.1]
  rfl

theorem hexToBytes_of_not_isDigest (h : ¬IsDigest text) : hexToBytes text = [] := by
  refine if_pos ?_
  by_contra hhex
  simp only [Bool.or_eq_true, Bool.not_eq_true', decide_eq_true_eq, not_or, Bool.not_eq_false,
    not_not] at hhex
  obtain ⟨hne, hdigits⟩ := isHexText_iff.mp hhex.1
  exact h ⟨hne, hhex.2, hdigits⟩

theorem hexToBytes_eq_nil_iff : hexToBytes text = [] ↔ ¬IsDigest text := by
  refine ⟨fun hnil hdigest => ?_, hexToBytes_of_not_isDigest⟩
  have hspells := spells_pairBytes hdigest.2.1 hdigest.2.2
  rw [← hexToBytes_of_isDigest hdigest, hnil] at hspells
  cases hspells
  exact hdigest.1 rfl

theorem spells_hexToBytes (h : IsDigest text) : Spells text (hexToBytes text) := by
  rw [hexToBytes_of_isDigest h]
  exact spells_pairBytes h.2.1 h.2.2

end Spelling

/-! ## The comparison -/

section Comparison

variable {left right : Units}

/-- Differences gathered with `|=` vanish together only. -/
theorem foldl_or_eq_zero_iff {α : Type*} (difference : α → UInt8) (items : List α)
    (gathered : UInt8) :
    items.foldl (fun result item => result ||| difference item) gathered = 0 ↔
      gathered = 0 ∧ ∀ item ∈ items, difference item = 0 := by
  induction items generalizing gathered with
  | nil => simp
  | cons item rest ih => rw [List.foldl_cons, ih, UInt8.or_eq_zero_iff, List.forall_mem_cons, and_assoc]

theorem timingSafeEqualHex_iff :
    timingSafeEqualHex left right = true ↔ hexToBytes left = hexToBytes right := by
  dsimp only [timingSafeEqualHex]
  split_ifs with hlength
  · exact iff_of_false id fun heq => hlength (congrArg List.length heq)
  · rw [not_not] at hlength
    rw [beq_iff_eq, foldl_or_eq_zero_iff, and_iff_right rfl]
    constructor
    · intro hzero
      refine List.ext_getElem hlength fun index hleft hright => ?_
      have hsame := UInt8.xor_eq_zero_iff.mp (hzero index (List.mem_range.mpr hleft))
      rwa [List.getD_eq_getElem?_getD, List.getD_eq_getElem?_getD, List.getElem?_eq_getElem hleft,
        List.getElem?_eq_getElem hright] at hsame
    · intro heq index _
      rw [heq]
      exact UInt8.xor_self

theorem sameDigest_iff :
    SameDigest left right ↔ IsDigest left ∧ hexToBytes left = hexToBytes right := by
  constructor
  · rintro ⟨hleft, hright, bytes, hspells, hspells'⟩
    exact ⟨hleft, ((spells_hexToBytes hleft).unique hspells).trans
      ((spells_hexToBytes hright).unique hspells').symm⟩
  · rintro ⟨hleft, heq⟩
    have hright : IsDigest right := by
      by_contra hnot
      exact hexToBytes_eq_nil_iff.mp (heq.trans (hexToBytes_eq_nil_iff.mpr hnot)) hleft
    refine ⟨hleft, hright, hexToBytes left, spells_hexToBytes hleft, ?_⟩
    rw [heq]
    exact spells_hexToBytes hright

/-- With a digest on one side the comparison is exact. -/
theorem comparison_exact (h : IsDigest left ∨ IsDigest right) :
    timingSafeEqualHex left right = true ↔ SameDigest left right := by
  rw [timingSafeEqualHex_iff, sameDigest_iff]
  refine ⟨fun heq => ⟨?_, heq⟩, fun hsame => hsame.2⟩
  by_contra hnot
  have hnil := hexToBytes_of_not_isDigest hnot
  rw [hnil, eq_comm, hexToBytes_eq_nil_iff] at heq
  exact h.elim hnot heq

/-- The comparison is exact if and only if one of its sides is a digest. -/
theorem comparison_exact_iff (left right : Units) :
    (timingSafeEqualHex left right = true ↔ SameDigest left right) ↔
      IsDigest left ∨ IsDigest right := by
  refine ⟨fun hexact => ?_, comparison_exact⟩
  by_contra hneither
  obtain ⟨hleft, hright⟩ := not_or.mp hneither
  have hequal : timingSafeEqualHex left right = true := by
    rw [timingSafeEqualHex_iff, hexToBytes_of_not_isDigest hleft, hexToBytes_of_not_isDigest hright]
  exact hleft (hexact.mp hequal).1

/-- Texts that spell nothing, and compare equal all the same. -/
theorem malformed_compare_equal :
    ¬(timingSafeEqualHex (units "") (units "sha256") = true ↔
      SameDigest (units "") (units "sha256")) := by
  intro h
  have hequal : timingSafeEqualHex (units "") (units "sha256") = true := by decide
  exact (h.mp hequal).1.1 rfl

end Comparison

/-! ## Signatures of webhooks -/

section Signatures

-- The bytes of the HMAC of a body under a secret.
variable (hmac : Units → Units → List UInt8)

/-- `byte.toString(16).padStart(2, "0")` -/
def hexByte (byte : UInt8) : Units := [hexDigit (byte.toNat / 16), hexDigit (byte.toNat % 16)]

def verifyGitHubSignature (rawBody : Units) (signatureHeader : Option Units) (secret : Units) :
    Bool :=
  match signatureHeader with
  | none => false
  | some header =>
      if !(units "sha256=").isPrefixOf header then false
      else if secret = [] then false
      else
        timingSafeEqualHex ((hmac secret rawBody).flatMap hexByte)
          (header.drop (units "sha256=").length)

theorem spells_flatMap_hexByte (bytes : List UInt8) : Spells (bytes.flatMap hexByte) bytes := by
  induction bytes with
  | nil => exact Spells.nil
  | cons byte rest ih =>
    have hsize : byte.toNat < 256 := byte.toNat_lt
    have hbyte : UInt8.ofNat (16 * (byte.toNat / 16) + byte.toNat % 16) = byte := by
      rw [Nat.div_add_mod, UInt8.ofNat_toNat]
    have hspells := Spells.cons (digitOf_hexDigit (by omega : byte.toNat / 16 < 16))
      (digitOf_hexDigit (by omega : byte.toNat % 16 < 16)) ih
    rwa [hbyte] at hspells

theorem Spells.isDigest {text : Units} {bytes : List UInt8} (h : Spells text bytes)
    (hne : bytes ≠ []) : IsDigest text := by
  have hdigits : text.length % 2 = 0 ∧ ∀ unit ∈ text, isDigitIn 16 unit = true := by
    clear hne
    induction h with
    | nil => exact ⟨rfl, fun _ hunit => absurd hunit List.not_mem_nil⟩
    | cons hhigh hlow hrest ih =>
      have hdigit : ∀ {unit digit : ℕ}, digitOf unit = some digit →
          isDigitIn 16 unit = true := fun h => by
        have := digitOf_eq_some_iff.mp h
        exact isDigitIn_iff.mpr ⟨_, by omega, h⟩
      refine ⟨?_, List.forall_mem_cons.mpr ⟨hdigit hhigh,
        List.forall_mem_cons.mpr ⟨hdigit hlow, ih.2⟩⟩⟩
      simp only [List.length_cons]
      omega
  refine ⟨?_, hdigits⟩
  rintro rfl
  cases h
  exact hne rfl

/-- A signature is accepted exactly if it spells the bytes of the HMAC: the side that the
check computes is a digest. -/
theorem verifyGitHubSignature_iff (hbytes : ∀ secret rawBody, hmac secret rawBody ≠ [])
    (rawBody : Units) (signatureHeader : Option Units) (secret : Units) :
    verifyGitHubSignature hmac rawBody signatureHeader secret = true ↔
      secret ≠ [] ∧ ∃ text, signatureHeader = some (units "sha256=" ++ text) ∧
        Spells text (hmac secret rawBody) := by
  have hhmac := spells_flatMap_hexByte (hmac secret rawBody)
  have hdigest := hhmac.isDigest (hbytes secret rawBody)
  have hsame : ∀ text, timingSafeEqualHex ((hmac secret rawBody).flatMap hexByte) text = true ↔
      Spells text (hmac secret rawBody) := by
    intro text
    rw [(comparison_exact (Or.inl hdigest))]
    constructor
    · rintro ⟨-, -, bytes, hleft, hright⟩
      rwa [hleft.unique hhmac] at hright
    · intro hspells
      exact ⟨hdigest, hspells.isDigest (hbytes secret rawBody), _, hhmac, hspells⟩
  cases signatureHeader with
  | none => exact iff_of_false Bool.false_ne_true fun ⟨_, _, htext, _⟩ => nomatch htext
  | some header =>
    rw [verifyGitHubSignature]
    split_ifs with hmarked hsecret
    · refine iff_of_false id fun ⟨_, text, htext, _⟩ => ?_
      rw [Option.some.inj htext, List.isPrefixOf_iff_prefix.mpr (List.prefix_append _ _)] at hmarked
      cases hmarked
    · exact iff_of_false id fun h => h.1 hsecret
    · rw [Bool.not_eq_true', Bool.not_eq_false, List.isPrefixOf_iff_prefix] at hmarked
      obtain ⟨text, rfl⟩ := hmarked
      rw [List.drop_left, hsame, and_iff_right hsecret]
      refine ⟨fun hspells => ⟨text, rfl, hspells⟩, fun ⟨other, hother, hspells⟩ => ?_⟩
      rwa [List.append_cancel_left (Option.some.inj hother)]

end Signatures

end Gittensory.HexDigests
