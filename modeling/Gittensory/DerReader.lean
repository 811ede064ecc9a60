import Mathlib.Data.List.Basic

/-!
A reader of the distinguished encoding rules: an element is a tag, the length of its content
and the content. A length below 128 is one octet, a longer one is the number of its octets and
the octets, no more than it takes. Elements that stand one behind the other are read one by
one.
-/
namespace Gittensory.DerReader

abbrev Bytes := List UInt8

structure Element where
  tag : UInt8
  content : Bytes
  deriving DecidableEq, Repr

/-- The number that octets spell, the highest first. -/
def bigEndian (octets : Bytes) : ℕ := octets.foldl (fun value octet => value * 256 + octet.toNat) 0

/-- Octets of a length in the long form, as few as it takes, and not for a short length. -/
def IsLongLength (count : ℕ) (octets : Bytes) : Prop :=
  octets.length = count ∧ octets.head?.any (· ≠ 0) = true ∧ 128 ≤ bigEndian octets

instance (count : ℕ) (octets : Bytes) : Decidable (IsLongLength count octets) :=
  inferInstanceAs (Decidable (_ ∧ _ ∧ _))

def readLength : Bytes → Option (ℕ × Bytes)
  | [] => none
  | first :: rest =>
      if first.toNat < 128 then some (first.toNat, rest)
      else
        let count := first.toNat - 128
        if IsLongLength count (rest.take count) then
          some (bigEndian (rest.take count), rest.drop count)
        else none

def readElement : Bytes → Option (Element × Bytes)
  | [] => none
  | tag :: rest =>
      match readLength rest with
      | none => none
      | some (length, rest) =>
          if length ≤ rest.length then some ({ tag, content := rest.take length }, rest.drop length)
          else none

def readElementsFrom : ℕ → Bytes → Option (List Element)
  | _, [] => some []
  | 0, _ :: _ => none
  | fuel + 1, bytes =>
      match readElement bytes with
      | none => none
      | some (element, rest) => (readElementsFrom fuel rest).map (element :: ·)

/-- The elements that make up the bytes, with nothing left over. -/
def readElements (bytes : Bytes) : Option (List Element) := readElementsFrom bytes.length bytes

/-- The bytes of an element, whatever stands behind it. -/
def Encodes (bytes : Bytes) (element : Element) : Prop :=
  ∀ rest, readElement (bytes ++ rest) = some (element, rest)

section Elements

variable {bytes rest : Bytes} {element : Element} {elements : List Element}

theorem Encodes.ne_nil (h : Encodes bytes element) : bytes ≠ [] := by
  rintro rfl
  exact absurd (h []) (by simp [readElement])

theorem readElementsFrom_succ (fuel : ℕ) (byte : UInt8) (bytes : Bytes) :
    readElementsFrom (fuel + 1) (byte :: bytes) =
      match readElement (byte :: bytes) with
      | none => none
      | some (element, rest) => (readElementsFrom fuel rest).map (element :: ·) := rfl

theorem readElementsFrom_append {fuel : ℕ} (h : Encodes bytes element)
    (hrest : readElementsFrom fuel rest = some elements) :
    readElementsFrom (fuel + 1) (bytes ++ rest) = some (element :: elements) := by
  cases bytes with
  | nil => exact absurd rfl h.ne_nil
  | cons byte bytes =>
    have hread := h rest
    rw [List.cons_append] at hread ⊢
    rw [readElementsFrom_succ, hread]
    exact congrArg (Option.map (element :: ·)) hrest

theorem readElementsFrom_mono {fuel more : ℕ} (hle : fuel ≤ more)
    (h : readElementsFrom fuel bytes = some elements) :
    readElementsFrom more bytes = some elements := by
  induction fuel generalizing more bytes elements with
  | zero =>
    cases bytes with
    | nil => cases more <;> exact h
    | cons byte bytes => cases h
  | succ fuel ih =>
    cases bytes with
    | nil => cases more <;> exact h
    | cons byte bytes =>
      cases more with
      | zero => exact absurd hle (Nat.not_succ_le_zero fuel)
      | succ more =>
        rw [readElementsFrom_succ] at h ⊢
        cases hread : readElement (byte :: bytes) with
        | none => rw [hread] at h; cases h
        | some found =>
          rw [hread] at h
          obtain ⟨tail, htail, rfl⟩ := Option.map_eq_some_iff.mp h
          exact congrArg (Option.map (found.1 :: ·)) (ih (Nat.le_of_succ_le_succ hle) htail)

/-- Encoded elements one behind the other are read one by one. -/
theorem readElements_flatten {chunks : List Bytes} (h : List.Forall₂ Encodes chunks elements) :
    readElements chunks.flatten = some elements := by
  induction h with
  | nil => rfl
  | @cons chunk element chunks elements hchunk hchunks ih =>
    have hone : 1 ≤ chunk.length := List.length_pos_iff.mpr hchunk.ne_nil
    rw [List.flatten_cons, readElements]
    refine readElementsFrom_mono ?_ (readElementsFrom_append hchunk ih)
    rw [List.length_append]
    omega

/-- Length octets before a content of that length, behind a tag. -/
theorem encodes_of_length {tag : UInt8} {length content : Bytes}
    (h : ∀ rest, readLength (length ++ rest) = some (content.length, rest)) :
    Encodes (tag :: length ++ content) { tag, content } := by
  intro rest
  rw [List.append_assoc, List.cons_append, readElement, h]
  simp

end Elements

section ObjectIdentifiers

/-- Numbers of seven bits an octet; every octet but a number's last has its high bit set, and
a number starts with no empty one. -/
def readArcs : Option ℕ → Bytes → Option (List ℕ)
  | none, [] => some []
  | some _, [] => none
  | started, octet :: rest =>
      let value := started.getD 0 * 128 + octet.toNat % 128
      if octet.toNat < 128 then (readArcs none rest).map (value :: ·)
      else if started = none ∧ octet.toNat = 128 then none
      else readArcs (some value) rest

/-- The numbers of an object identifier; the first octets hold two of them. -/
def readObjectIdentifier (content : Bytes) : Option (List ℕ) :=
  match readArcs none content with
  | none | some [] => none
  | some (first :: rest) =>
      some (if first < 80 then first / 40 :: first % 40 :: rest else 2 :: (first - 80) :: rest)

end ObjectIdentifiers

end Gittensory.DerReader
