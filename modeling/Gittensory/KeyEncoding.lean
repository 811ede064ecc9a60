import Gittensory.Base64
import Gittensory.DerReader
import Mathlib.Tactic.IntervalCases
import Mathlib.Tactic.Ring

/-!
How keys and tokens are written (`utils/crypto.ts`): base64 for URLs without padding, and an
RSA key of PKCS#1 wrapped into the envelope of PKCS#8. The padding comes back from the length
of the text alone, and every length in the envelope describes exactly what follows.
-/
namespace Gittensory.KeyEncoding

open Base64 CodeUnits DerReader

/-! ## Base64 for URLs -/

/-- A plus is written as a dash, a slash as an underscore. -/
def urlUnit (unit : ℕ) : ℕ := if unit = 43 then 45 else if unit = 47 then 95 else unit

/-- A dash is read as a plus, an underscore as a slash. -/
def plainUnit (unit : ℕ) : ℕ := if unit = 45 then 43 else if unit = 95 then 47 else unit

def base64UrlEncode (bytes : List UInt8) : Units :=
  ((btoa bytes).map urlUnit).rdropWhile (· = padding)

/-- `none` where `atob` throws. -/
def base64UrlDecode (value : Units) : Option (List UInt8) :=
  atob (value.map plainUnit ++ paddingFor value.length)

theorem plainUnit_urlUnit {unit : ℕ} (h : IsLetter unit) : plainUnit (urlUnit unit) = unit := by
  unfold IsLetter at h
  unfold plainUnit urlUnit
  split_ifs <;> omega

theorem urlUnit_ne_padding {unit : ℕ} (h : IsLetter unit) : urlUnit unit ≠ padding := by
  unfold IsLetter at h
  unfold urlUnit padding
  split_ifs <;> omega

theorem rdropWhile_append_replicate {text : Units} (count : ℕ) (h : padding ∉ text) :
    (text ++ List.replicate count padding).rdropWhile (· = padding) = text := by
  rw [List.rdropWhile, List.reverse_append, List.reverse_replicate,
    List.dropWhile_append_of_pos fun unit hunit =>
      decide_eq_true (List.eq_of_mem_replicate hunit)]
  refine (congrArg List.reverse (List.dropWhile_eq_self_iff.mpr fun hpos heq => h ?_)).trans
    (List.reverse_reverse text)
  rw [← of_decide_eq_true heq]
  exact List.mem_reverse.mp (List.getElem_mem hpos)

/-- The letters are kept and the padding is gone. -/
theorem base64UrlEncode_eq (bytes : List UInt8) :
    base64UrlEncode bytes = ((sextets bytes).map letter).map urlUnit := by
  rw [base64UrlEncode, btoa, paddingFor, List.map_append, List.map_replicate]
  refine rdropWhile_append_replicate _ fun hmem => ?_
  obtain ⟨unit, hunit, heq⟩ := List.mem_map.mp hmem
  exact urlUnit_ne_padding ((unpadded_sextets bytes).letters unit hunit) heq

theorem base64UrlDecode_encode (bytes : List UInt8) :
    base64UrlDecode (base64UrlEncode bytes) = some bytes := by
  have hplain : (((sextets bytes).map letter).map urlUnit).map plainUnit =
      (sextets bytes).map letter := by
    rw [List.map_map]
    exact List.map_congr_left (fun unit hunit =>
      plainUnit_urlUnit ((unpadded_sextets bytes).letters unit hunit)) |>.trans (List.map_id _)
  rw [base64UrlDecode, base64UrlEncode_eq, hplain, List.length_map]
  exact atob_letters bytes

/-! ## The envelope of a private key -/

/-- `remaining >>= 8`: the number is first reduced to 32 bits with a sign. -/
def shiftOctet (remaining : ℤ) : ℤ := remaining.bmod (2 ^ 32) / 256

theorem shiftOctet_lt {remaining : ℤ} (h : 0 < remaining) :
    (shiftOctet remaining).toNat < remaining.toNat := by
  rw [shiftOctet, Int.bmod_def]
  split_ifs <;> omega

/-- Below 2^31 the shift is a division. -/
theorem shiftOctet_natCast {length : ℕ} (h : length < 2 ^ 31) :
    shiftOctet length = (length / 256 : ℕ) := by
  rw [shiftOctet, Int.bmod_def]
  split_ifs <;> omega

def lengthOctets (remaining : ℤ) (octets : Bytes) : Bytes :=
  if h : 0 < remaining then
    have := shiftOctet_lt h
    lengthOctets (shiftOctet remaining) (UInt8.ofNat (remaining % 256).toNat :: octets)
  else octets
termination_by remaining.toNat

def derLength (length : ℕ) : Bytes :=
  if length < 0x80 then [UInt8.ofNat length]
  else
    let octets := lengthOctets length []
    UInt8.ofNat (0x80 ||| octets.length) :: octets

def concatBytes (chunks : List Bytes) : Bytes := chunks.flatten

def der (tag : UInt8) (content : Bytes) : Bytes :=
  concatBytes [[tag], derLength content.length, content]

def rsaEncryptionOid : Bytes :=
  [0x06, 0x09, 0x2a, 0x86, 0x48, 0x86, 0xf7, 0x0d, 0x01, 0x01, 0x01]

def nullParam : Bytes := [0x05, 0x00]

def wrapPkcs1RsaPrivateKey (pkcs1Der : Bytes) : Bytes :=
  let version := der 0x02 [0]
  let algorithm := der 0x30 (concatBytes [rsaEncryptionOid, nullParam])
  let privateKey := der 0x04 pkcs1Der
  der 0x30 (concatBytes [version, algorithm, privateKey])

section Lengths

theorem bigEndian_from (octets : Bytes) (value : ℕ) :
    octets.foldl (fun value octet => value * 256 + octet.toNat) value =
      value * 256 ^ octets.length + bigEndian octets := by
  induction octets generalizing value with
  | nil => simp [bigEndian]
  | cons octet rest ih =>
    have hcons : bigEndian (octet :: rest) =
        (0 * 256 + octet.toNat) * 256 ^ rest.length + bigEndian rest := ih _
    rw [List.foldl_cons, ih, hcons, List.length_cons, pow_succ]
    ring

theorem bigEndian_cons (octet : UInt8) (octets : Bytes) :
    bigEndian (octet :: octets) = octet.toNat * 256 ^ octets.length + bigEndian octets := by
  rw [bigEndian, List.foldl_cons, bigEndian_from, Nat.zero_mul, Nat.zero_add, bigEndian]

theorem lengthOctets_zero (octets : Bytes) : lengthOctets (0 : ℕ) octets = octets := by
  rw [lengthOctets]
  exact dif_neg (lt_irrefl _)

theorem lengthOctets_of_pos {length : ℕ} (hpos : 0 < length) (h : length < 2 ^ 31)
    (octets : Bytes) :
    lengthOctets length octets =
      lengthOctets (length / 256 : ℕ) (UInt8.ofNat (length % 256) :: octets) := by
  have hoctet : ((length : ℤ) % 256).toNat = length % 256 := by omega
  have hshift : shiftOctet length = (length / 256 : ℕ) := shiftOctet_natCast h
  rw [lengthOctets, dif_pos (Int.natCast_pos.mpr hpos)]
  exact congrArg₂ lengthOctets hshift (congrArg (UInt8.ofNat · :: octets) hoctet)

/-- The octets of a length spell it, with none in front that is zero. -/
theorem lengthOctets_spec (length : ℕ) (h : length < 2 ^ 31) (octets : Bytes) :
    bigEndian (lengthOctets length octets) = length * 256 ^ octets.length + bigEndian octets ∧
      (0 < length → (lengthOctets length octets).head?.any (· ≠ 0) = true) ∧
      ∀ count, length < 256 ^ count →
        (lengthOctets length octets).length ≤ count + octets.length := by
  induction length using Nat.strong_induction_on generalizing octets with
  | _ length ih =>
    rcases Nat.eq_zero_or_pos length with rfl | hpos
    · rw [lengthOctets_zero, Nat.zero_mul, Nat.zero_add]
      exact ⟨rfl, fun h => absurd h (lt_irrefl 0), fun count _ => Nat.le_add_left ..⟩
    have hless : length / 256 < length := Nat.div_lt_self hpos (by decide)
    obtain ⟨hvalue, hhead, hcount⟩ := ih (length / 256) hless (hless.trans h)
      (UInt8.ofNat (length % 256) :: octets)
    have hoctet : (UInt8.ofNat (length % 256)).toNat = length % 256 := by
      rw [UInt8.toNat_ofNat', Nat.mod_mod]
    rw [lengthOctets_of_pos hpos h]
    refine ⟨?_, fun _ => ?_, fun count hbound => ?_⟩
    · rw [hvalue, bigEndian_cons, hoctet, List.length_cons, pow_succ]
      calc length / 256 * (256 ^ octets.length * 256) +
            (length % 256 * 256 ^ octets.length + bigEndian octets)
          = (256 * (length / 256) + length % 256) * 256 ^ octets.length + bigEndian octets := by
            ring
        _ = length * 256 ^ octets.length + bigEndian octets := by rw [Nat.div_add_mod]
    · rcases Nat.eq_zero_or_pos (length / 256) with hzero | hmore
      · rw [hzero, lengthOctets_zero]
        have hne : UInt8.ofNat (length % 256) ≠ 0 := by
          intro heq
          have hzero := congrArg UInt8.toNat heq
          rw [hoctet] at hzero
          change length % 256 = 0 at hzero
          omega
        simpa using hne
      · exact hhead hmore
    · cases count with
      | zero => omega
      | succ count =>
        have := hcount count (Nat.div_lt_of_lt_mul (by rwa [pow_succ, Nat.mul_comm] at hbound))
        rw [List.length_cons] at this
        omega

theorem toNat_longForm {count : ℕ} (h : count ≤ 4) :
    (UInt8.ofNat (0x80 ||| count)).toNat = 128 + count := by
  interval_cases count <;> rfl

/-- A length that is written is read back, whatever stands behind it. -/
theorem readLength_derLength {length : ℕ} (h : length < 2 ^ 31) (rest : Bytes) :
    readLength (derLength length ++ rest) = some (length, rest) := by
  unfold derLength
  split_ifs with hshort
  · have hoctet : (UInt8.ofNat length).toNat = length := by
      rw [UInt8.toNat_ofNat']
      omega
    rw [List.singleton_append, readLength, hoctet, if_pos hshort]
  · have hpos : 0 < length := by omega
    obtain ⟨hvalue, hhead, hcount⟩ := lengthOctets_spec length h []
    have hfour : (lengthOctets length []).length ≤ 4 := hcount 4 (by omega)
    have hfirst := toNat_longForm hfour
    have hoctets : IsLongLength (lengthOctets length []).length (lengthOctets length []) := by
      refine ⟨rfl, hhead hpos, ?_⟩
      rw [hvalue]
      simp only [List.length_nil, pow_zero, Nat.mul_one]
      omega
    dsimp only
    rw [List.cons_append, readLength, hfirst, if_neg (by omega), Nat.add_sub_cancel_left]
    dsimp only
    rw [List.take_left, List.drop_left, if_pos hoctets, hvalue]
    simp [bigEndian]

theorem encodes_der (tag : UInt8) {content : Bytes} (h : content.length < 2 ^ 31) :
    Encodes (der tag content) { tag, content } := by
  have heq : der tag content = tag :: derLength content.length ++ content := by
    simp [der, concatBytes]
  rw [heq]
  exact encodes_of_length (readLength_derLength h)

theorem length_derLength_le {length : ℕ} (h : length < 2 ^ 31) :
    (derLength length).length ≤ 5 := by
  unfold derLength
  split_ifs
  · exact Nat.le_add_left 1 4
  · have hcount := (lengthOctets_spec length h []).2.2 4 (by omega)
    exact Nat.succ_le_succ hcount

theorem length_der_le (tag : UInt8) {content : Bytes} (h : content.length < 2 ^ 31) :
    (der tag content).length ≤ content.length + 6 := by
  have hlength := length_derLength_le h
  simp only [der, concatBytes, List.flatten_cons, List.flatten_nil, List.append_nil,
    List.length_append, List.length_singleton]
  omega

/-- One element and nothing behind it. -/
theorem readElements_der (tag : UInt8) {content : Bytes} (h : content.length < 2 ^ 31) :
    readElements (der tag content) = some [{ tag, content }] := by
  have hread := readElements_flatten (List.Forall₂.cons (encodes_der tag h) List.Forall₂.nil)
  rwa [List.flatten_singleton] at hread

end Lengths

section Envelope

def rsaEncryption : List ℕ := [1, 2, 840, 113549, 1, 1, 1]

/-- `rsaEncryption`, with `NULL` for its parameters. -/
def isRsaAlgorithm (content : Bytes) : Bool :=
  match readElements content with
  | some [algorithm, parameters] =>
      algorithm.tag = 0x06 && readObjectIdentifier algorithm.content = some rsaEncryption &&
        parameters = { tag := 0x05, content := [] }
  | _ => false

/-- The octets of the private key in a PKCS#8 envelope of version 0 for an RSA key. -/
def readPrivateKey (bytes : Bytes) : Option Bytes :=
  match readElements bytes with
  | some [{ tag := 0x30, content }] =>
      match readElements content with
      | some [{ tag := 0x02, content := [0] }, { tag := 0x30, content := algorithm },
          { tag := 0x04, content := privateKey }] =>
          if isRsaAlgorithm algorithm then some privateKey else none
      | _ => none
  | _ => none

theorem readPrivateKey_wrap {pkcs1Der : Bytes} (h : pkcs1Der.length < 2 ^ 30) :
    readPrivateKey (wrapPkcs1RsaPrivateKey pkcs1Der) = some pkcs1Der := by
  have hkey : pkcs1Der.length < 2 ^ 31 := h.trans (by decide)
  have hversion : Encodes (der 0x02 [0]) { tag := 0x02, content := [0] } :=
    encodes_der 0x02 (by decide)
  have halgorithm : Encodes (der 0x30 (concatBytes [rsaEncryptionOid, nullParam]))
      { tag := 0x30, content := concatBytes [rsaEncryptionOid, nullParam] } :=
    encodes_der 0x30 (by decide)
  have hbody : readElements (concatBytes [der 0x02 [0],
      der 0x30 (concatBytes [rsaEncryptionOid, nullParam]), der 0x04 pkcs1Der]) =
      some [{ tag := 0x02, content := [0] },
        { tag := 0x30, content := concatBytes [rsaEncryptionOid, nullParam] },
        { tag := 0x04, content := pkcs1Der }] :=
    readElements_flatten (List.Forall₂.cons hversion (List.Forall₂.cons halgorithm
      (List.Forall₂.cons (encodes_der 0x04 hkey) List.Forall₂.nil)))
  have hlength : (concatBytes [der 0x02 [0],
      der 0x30 (concatBytes [rsaEncryptionOid, nullParam]), der 0x04 pkcs1Der]).length < 2 ^ 31 := by
    have hfixed : (der 0x02 [0]).length = 3 ∧
        (der 0x30 (concatBytes [rsaEncryptionOid, nullParam])).length = 15 := by decide
    have hoctets := length_der_le 0x04 hkey
    simp only [concatBytes, List.flatten_cons, List.flatten_nil, List.append_nil,
      List.length_append] at hfixed hoctets ⊢
    omega
  have hrsa : isRsaAlgorithm (concatBytes [rsaEncryptionOid, nullParam]) = true := by decide
  simp only [readPrivateKey, wrapPkcs1RsaPrivateKey, readElements_der 0x30 hlength, hbody]
  exact if_pos hrsa

/-- Every token is read back from its base64, and every key of PKCS#1 from its envelope. -/
theorem encodings_read_back :
    (∀ bytes, base64UrlDecode (base64UrlEncode bytes) = some bytes) ∧
      ∀ pkcs1Der : Bytes, pkcs1Der.length < 2 ^ 30 →
        readPrivateKey (wrapPkcs1RsaPrivateKey pkcs1Der) = some pkcs1Der :=
  ⟨base64UrlDecode_encode, fun _ h => readPrivateKey_wrap h⟩

/-- A key whose length takes two octets. -/
theorem longKey_read_back :
    base64UrlDecode (base64UrlEncode [251, 255, 1]) = some [251, 255, 1] ∧
      readPrivateKey (wrapPkcs1RsaPrivateKey (List.replicate 200 7)) =
        some (List.replicate 200 7) := by
  have hread := encodings_read_back
  exact ⟨hread.1 _, hread.2 _ (by rw [List.length_replicate]; decide)⟩

end Envelope

end Gittensory.KeyEncoding
