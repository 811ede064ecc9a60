import Gittensory.AddressLiterals

/-!
The guard against private networks recognizes every spelling of a private address: the IPv4
blocks in any notation, the unspecified and the loopback address, the local blocks of IPv6,
and IPv4 addresses mapped into IPv6. Of the addresses in plain dotted decimals it takes
nothing else.
-/
namespace Gittensory.PrivateAddresses

open CodeUnits RadixNumerals SafeUrl AddressLiterals
open DuplicateSignals (toLowerCase lowerUnit)

/-! ## Private blocks of IPv4 -/

def octets (a b c d : ℕ) : ℕ := a * 2 ^ 24 + b * 2 ^ 16 + c * 2 ^ 8 + d

/-- The addresses that share the leading bits of a base address. -/
structure Block where
  base : ℕ
  bits : ℕ

def Block.Contains (block : Block) (address : ℕ) : Prop :=
  address / 2 ^ (32 - block.bits) = block.base / 2 ^ (32 - block.bits)

def privateBlocks : List Block := [
  ⟨octets 0 0 0 0, 8⟩,
  ⟨octets 10 0 0 0, 8⟩,
  ⟨octets 127 0 0 0, 8⟩,
  ⟨octets 169 254 0 0, 16⟩,
  ⟨octets 172 16 0 0, 12⟩,
  ⟨octets 192 168 0 0, 16⟩]

def PrivateAddress (address : ℕ) : Prop := ∃ block ∈ privateBlocks, block.Contains address

theorem privateAddress_iff (address : ℕ) : PrivateAddress address ↔
    address / 2 ^ 24 = 0 ∨ address / 2 ^ 24 = 10 ∨ address / 2 ^ 24 = 127 ∨
      address / 2 ^ 16 = 169 * 256 + 254 ∨ address / 2 ^ 20 = 172 * 16 + 1 ∨
      address / 2 ^ 16 = 192 * 256 + 168 := by
  unfold PrivateAddress privateBlocks Block.Contains octets
  simp only [List.mem_cons, List.not_mem_nil, or_false, exists_eq_or_imp, exists_eq_left]
  omega

/-- The comparison of the two leading bytes finds exactly the private blocks. -/
theorem ipv4IsPrivateOrLocal_iff {host : Units} {address : ℕ} (h : ipv4ToInt host = some address)
    (hlt : address < 2 ^ 32) : ipv4IsPrivateOrLocal host = true ↔ PrivateAddress address := by
  rw [privateAddress_iff, ipv4IsPrivateOrLocal, h]
  simp only
  split_ifs
  · simp only [true_iff]
    omega
  · simp only [true_iff]
    omega
  · simp only [true_iff]
    omega
  · simp only [decide_eq_true_eq]
    omega

/-! ## Lower case of a spelling -/

theorem lowerUnit_of_not_capital {unit : ℕ} (h : unit ≤ 64 ∨ 91 ≤ unit ∧ unit ≤ 122) :
    lowerUnit unit = [unit] := by
  rw [lowerUnit, if_neg (by omega), if_neg (by omega), if_neg (by omega)]

theorem toLowerCase_eq_self {text : Units}
    (h : ∀ unit ∈ text, unit ≤ 64 ∨ 91 ≤ unit ∧ unit ≤ 122) : toLowerCase text = text := by
  induction text with
  | nil => rfl
  | cons unit rest ih =>
    have hrest := ih fun u hu => h u (List.mem_cons_of_mem _ hu)
    rw [toLowerCase] at hrest
    rw [toLowerCase, List.flatMap_cons, lowerUnit_of_not_capital (h unit (List.mem_cons_self ..)),
      hrest, List.singleton_append]

theorem toLowerCase_append (left right : Units) :
    toLowerCase (left ++ right) = toLowerCase left ++ toLowerCase right := List.flatMap_append

theorem digitOf_lowerUnit {unit digit : ℕ} (h : digitOf unit = some digit) :
    ∃ lower, lowerUnit unit = [lower] ∧ digitOf lower = some digit := by
  have hunit := digitOf_eq_some_iff.mp h
  unfold lowerUnit
  split_ifs with hcapital hdotted hkelvin
  · exact ⟨unit + 32, rfl, digitOf_eq_some_iff.mpr (by omega)⟩
  · omega
  · omega
  · exact ⟨unit, rfl, h⟩

theorem digits_toLowerCase {text : Units} {digits : List ℕ} (h : Digits text digits) :
    Digits (toLowerCase text) digits := by
  unfold Digits at h
  induction h with
  | nil => exact List.Forall₂.nil
  | @cons unit digit text digits hunit hrest ih =>
    obtain ⟨lower, hlower, hdigit⟩ := digitOf_lowerUnit hunit
    rw [← List.singleton_append, toLowerCase_append, toLowerCase, List.flatMap_singleton, hlower]
    exact List.Forall₂.cons hdigit ih

theorem partSpelling_toLowerCase {part : Units} {value : ℕ} (h : PartSpelling part value) :
    PartSpelling (toLowerCase part) value := by
  cases h with
  | decimal h hne hlt hlead => exact PartSpelling.decimal (digits_toLowerCase h) hne hlt hlead
  | octal h hne hlt => exact PartSpelling.octal (digits_toLowerCase h) hne hlt
  | hex hx h hne hlt =>
    rcases hx with rfl | rfl
    · exact PartSpelling.hex (Or.inl rfl) (digits_toLowerCase h) hne hlt
    · exact PartSpelling.hex (Or.inl rfl) (digits_toLowerCase h) hne hlt

theorem toLowerCase_intercalate (parts : List Units) :
    toLowerCase ([dot].intercalate parts) = [dot].intercalate (parts.map toLowerCase) := by
  induction parts with
  | nil => rfl
  | cons part rest ih =>
    cases rest with
    | nil => simp
    | cons next more =>
      rw [List.intercalate_cons_cons, toLowerCase_append, toLowerCase_append, ih, List.map_cons,
        List.map_cons, List.map_cons, List.intercalate_cons_cons]
      rfl

theorem Spells.toLowerCase {text : Units} {address : ℕ} (h : Spells text address) :
    Spells (toLowerCase text) address := by
  obtain ⟨parts, values, rfl, hparts, hfill⟩ := h
  refine ⟨parts.map DuplicateSignals.toLowerCase, values, toLowerCase_intercalate parts, ?_, hfill⟩
  rw [List.forall₂_map_left_iff]
  exact hparts.imp fun _ _ => partSpelling_toLowerCase

theorem colon_not_mem_of_ipv4ToInt {text : Units} {address : ℕ}
    (h : ipv4ToInt text = some address) : colon ∉ text := by
  obtain ⟨parts, values, rfl, hparsed, _⟩ := exists_parsed_of_ipv4ToInt h
  intro hmem
  rcases mem_intercalate hmem with hdot | ⟨part, hpart, hunit⟩
  · exact absurd (List.mem_singleton.mp hdot) (by decide)
  · have hkind := hparsed.mem_units hpart hunit
    revert hkind
    decide

theorem Spells.lt {text : Units} {address : ℕ} (h : Spells text address) : address < 2 ^ 32 := by
  obtain ⟨_, _, _, _, hfill⟩ := h
  exact (fillAddress_eq_some hfill).2.2

theorem ipv4IsPrivateOrLocal_of_spells {text : Units} {address : ℕ} (h : Spells text address)
    (hprivate : PrivateAddress address) : ipv4IsPrivateOrLocal text = true :=
  (ipv4IsPrivateOrLocal_iff (ipv4ToInt_of_spells h) (Spells.lt h)).mpr hprivate

/-- Every spelling of a private address is recognized, in capitals or not. -/
theorem hostIsPrivateOrLocal_of_spells {text : Units} {address : ℕ} (h : Spells text address)
    (hprivate : PrivateAddress address) : hostIsPrivateOrLocal text = true := by
  have hlower := Spells.toLowerCase h
  have hcolon := colon_not_mem_of_ipv4ToInt (ipv4ToInt_of_spells hlower)
  unfold hostIsPrivateOrLocal
  simp only
  split_ifs
  · rfl
  · rfl
  · exact ipv4IsPrivateOrLocal_of_spells hlower hprivate

/-! ## Dotted decimals -/

theorem partSpelling_shortest (number : ℕ) : PartSpelling (shortest 10 number) number := by
  obtain ⟨digits, hdigits, hne, hlt, hlead, hvalue⟩ :=
    exists_digits_shortest (show 1 < 10 by norm_num) (by norm_num) number
  have hpart := PartSpelling.decimal hdigits hne hlt hlead
  rwa [hvalue] at hpart

theorem spells_dottedDecimal {a b c d : ℕ} (ha : a < 256) (hb : b < 256) (hc : c < 256)
    (hd : d < 256) : Spells (dottedDecimal a b c d) (octets a b c d) := by
  refine ⟨_, [a, b, c, d], rfl, ?_, if_pos ⟨ha, hb, hc, hd⟩⟩
  exact List.Forall₂.cons (partSpelling_shortest a) (List.Forall₂.cons (partSpelling_shortest b)
    (List.Forall₂.cons (partSpelling_shortest c) (List.Forall₂.cons (partSpelling_shortest d)
      List.Forall₂.nil)))

theorem mem_dottedDecimal {a b c d unit : ℕ} (h : unit ∈ dottedDecimal a b c d) :
    isDigitIn 10 unit = true ∨ unit = dot := by
  rcases mem_intercalate h with hdot | ⟨part, hpart, hunit⟩
  · exact Or.inr (List.mem_singleton.mp hdot)
  · left
    simp only [List.mem_cons, List.not_mem_nil, or_false] at hpart
    rcases hpart with rfl | rfl | rfl | rfl <;>
      exact isDigitIn_of_mem_shortest (by norm_num) (by norm_num) hunit

theorem range_of_mem_dottedDecimal {a b c d unit : ℕ} (h : unit ∈ dottedDecimal a b c d) :
    46 ≤ unit ∧ unit ≤ 57 := by
  rcases mem_dottedDecimal h with hdigit | rfl
  · have := isDigitIn_ten.mp hdigit
    omega
  · decide

/-- Of the dotted decimals nothing but the private addresses is taken. -/
theorem hostIsPrivateOrLocal_dottedDecimal {a b c d : ℕ} (ha : a < 256) (hb : b < 256)
    (hc : c < 256) (hd : d < 256) (hpublic : ¬ PrivateAddress (octets a b c d)) :
    hostIsPrivateOrLocal (dottedDecimal a b c d) = false := by
  have hspells := spells_dottedDecimal ha hb hc hd
  have hint := ipv4ToInt_of_spells hspells
  have hrange : ∀ {unit}, unit ∈ dottedDecimal a b c d → 46 ≤ unit ∧ unit ≤ 57 :=
    range_of_mem_dottedDecimal
  have hletter : 108 ∉ dottedDecimal a b c d := fun hmem => by
    have := hrange hmem
    omega
  have hcolon : colon ∉ dottedDecimal a b c d := colon_not_mem_of_ipv4ToInt hint
  unfold hostIsPrivateOrLocal
  simp only
  rw [toLowerCase_eq_self fun unit hmem => Or.inl ((hrange hmem).2.trans (by norm_num))]
  rw [if_neg, if_neg, if_neg hcolon]
  · by_contra htrue
    exact hpublic ((ipv4IsPrivateOrLocal_iff hint (Spells.lt hspells)).mp
      (Bool.not_eq_false _ ▸ htrue))
  · rintro (hzero | hloop | hloop)
    · rw [hzero] at hint
      have haddress : octets a b c d = 0 := Option.some.inj (hint.symm.trans (by decide +kernel))
      rw [haddress] at hpublic
      exact hpublic ((privateAddress_iff 0).mpr (Or.inl rfl))
    · rw [hloop] at hcolon
      exact hcolon (by decide)
    · rw [hloop] at hcolon
      exact hcolon (by decide)
  · rintro (hname | hsuffix | hsuffix)
    · rw [hname] at hletter
      exact hletter (by decide)
    · exact hletter (hsuffix.subset (by decide))
    · exact hletter (hsuffix.subset (by decide))

/-! ## IPv6 addresses -/

/-- The eight pieces of an address. -/
structure Ipv6Address where
  pieces : List ℕ
  length_eq : pieces.length = 8
  lt : ∀ piece ∈ pieces, piece < 2 ^ 16

/-- How many pieces from an index on are zero. -/
def zeroRun (pieces : List ℕ) (index : ℕ) : ℕ :=
  ((pieces.drop index).takeWhile (fun piece => piece = 0)).length

/-- Where the first longest run of at least two zero pieces starts. -/
def compressed (pieces : List ℕ) : Option ℕ :=
  let longest := ((List.range pieces.length).map (zeroRun pieces)).foldr max 0
  if longest ≤ 1 then none
  else (List.range pieces.length).find? (fun index => zeroRun pieces index = longest)

def groupText (pieces : List ℕ) : Units := [colon].intercalate (pieces.map (shortest 16))

/-- The canonical text of the pieces: small digits, no leading zeros, one run of zeros left
out. -/
def serializePieces (pieces : List ℕ) : Units :=
  match compressed pieces with
  | none => groupText pieces
  | some index =>
      groupText (pieces.take index) ++ [colon, colon] ++
        groupText (pieces.drop (index + zeroRun pieces index))

def serialize (address : Ipv6Address) : Units := serializePieces address.pieces

/-- The addresses a request must not go to: unspecified, loopback, unique local (fc00::/7),
link local (fe80::/10), and private IPv4 addresses mapped into IPv6. -/
inductive PrivateIpv6 : List ℕ → Prop
  | unspecified : PrivateIpv6 [0, 0, 0, 0, 0, 0, 0, 0]
  | loopback : PrivateIpv6 [0, 0, 0, 0, 0, 0, 0, 1]
  | uniqueLocal {first : ℕ} {rest : List ℕ} (h : first / 2 ^ 9 = 0xfc00 / 2 ^ 9) :
      PrivateIpv6 (first :: rest)
  | linkLocal {first : ℕ} {rest : List ℕ} (h : first / 2 ^ 6 = 0xfe80 / 2 ^ 6) :
      PrivateIpv6 (first :: rest)
  | mapped {hi lo : ℕ} (h : PrivateAddress (hi * 2 ^ 16 + lo)) :
      PrivateIpv6 [0, 0, 0, 0, 0, 0xffff, hi, lo]

theorem mem_groupText {pieces : List ℕ} {unit : ℕ} (h : unit ∈ groupText pieces) :
    isLowerHex unit = true ∨ unit = colon := by
  rcases mem_intercalate h with hcolon | ⟨part, hpart, hunit⟩
  · exact Or.inr (List.mem_singleton.mp hcolon)
  · obtain ⟨piece, _, rfl⟩ := List.mem_map.mp hpart
    exact Or.inl (isLowerHex_of_mem_shortest (by norm_num) (by norm_num) hunit)

theorem mem_serializePieces {pieces : List ℕ} {unit : ℕ} (h : unit ∈ serializePieces pieces) :
    isLowerHex unit = true ∨ unit = colon := by
  unfold serializePieces at h
  split at h
  · exact mem_groupText h
  · rw [List.mem_append, List.mem_append] at h
    rcases h with (h | h) | h
    · exact mem_groupText h
    · right
      simpa using h
    · exact mem_groupText h

theorem groupText_singleton (piece : ℕ) : groupText [piece] = shortest 16 piece := by
  rw [groupText, List.map_singleton, List.intercalate_singleton]

theorem groupText_cons_cons (first next : ℕ) (rest : List ℕ) :
    groupText (first :: next :: rest) = shortest 16 first ++ colon :: groupText (next :: rest) := by
  rw [groupText, List.map_cons, List.map_cons, List.intercalate_cons_cons, groupText, List.map_cons,
    List.append_assoc, List.singleton_append]

theorem zeroRun_zero {first : ℕ} (hfirst : first ≠ 0) (rest : List ℕ) :
    zeroRun (first :: rest) 0 = 0 := by
  rw [zeroRun, List.drop_zero, List.takeWhile_cons_of_neg (by simpa using hfirst), List.length_nil]

/-- A run that starts at a piece other than zero is not left out. -/
theorem compressed_ne_zero {first index : ℕ} (hfirst : first ≠ 0) {rest : List ℕ}
    (h : compressed (first :: rest) = some index) : index ≠ 0 := by
  rintro rfl
  unfold compressed at h
  simp only at h
  split_ifs at h with hshort
  have hlongest := List.find?_some h
  rw [decide_eq_true_eq, zeroRun_zero hfirst] at hlongest
  omega

/-- A first piece other than zero stands in front of the first colon. -/
theorem serializePieces_of_ne_zero {first next : ℕ} (hfirst : first ≠ 0) (rest : List ℕ) :
    ∃ tail, serializePieces (first :: next :: rest) = shortest 16 first ++ colon :: tail := by
  unfold serializePieces
  split
  · exact ⟨_, groupText_cons_cons first next rest⟩
  · rename_i index hindex
    obtain ⟨before, rfl⟩ := Nat.exists_eq_succ_of_ne_zero (compressed_ne_zero hfirst hindex)
    rw [List.take_succ_cons]
    cases before with
    | zero =>
      rw [List.take_zero, groupText_singleton]
      exact ⟨_, List.append_assoc _ _ _⟩
    | succ before =>
      rw [List.take_succ_cons, groupText_cons_cons, List.append_assoc, List.append_assoc,
        List.cons_append]
      exact ⟨_, rfl⟩

/-! ## The guard on IPv6 hosts -/

/-- The form of an address as host of a URL. -/
def bracketed (text : Units) : Units := openBracket :: text ++ [closeBracket]

theorem stripBrackets_bracketed (text : Units) : stripBrackets (bracketed text) = text := by
  unfold stripBrackets bracketed
  rw [List.cons_append, List.head?_cons, if_pos rfl, List.tail_cons]
  simp only
  rw [List.getLast?_concat, if_pos rfl, List.dropLast_concat]

theorem stripBrackets_eq_self {text : Units} (hopen : openBracket ∉ text)
    (hclose : closeBracket ∉ text) : stripBrackets text = text := by
  have hhead : ¬ text.head? = some openBracket := fun h => hopen (List.mem_of_mem_head? h)
  have hlast : ¬ text.getLast? = some closeBracket := fun h => hclose (List.mem_of_getLast? h)
  unfold stripBrackets
  rw [if_neg hhead]
  exact if_neg hlast

/-- Units of the text of an IPv6 address, with the last two pieces in decimals or not. -/
def IsAddressText (text : Units) : Prop :=
  colon ∈ text ∧ ∀ unit ∈ text, isLowerHex unit = true ∨ unit = colon ∨ unit = dot

theorem not_bracket {unit : ℕ} (h : isLowerHex unit = true ∨ unit = colon ∨ unit = dot) :
    unit ≤ 58 ∨ 97 ≤ unit ∧ unit ≤ 102 := by
  rcases h with h | rfl | rfl
  · simp only [isLowerHex, Bool.or_eq_true, Bool.and_eq_true, decide_eq_true_eq] at h
    omega
  · decide
  · decide

theorem IsAddressText.stripBrackets {text : Units} (h : IsAddressText text) :
    stripBrackets text = text := by
  apply stripBrackets_eq_self
  · intro hmem
    exact absurd (not_bracket (h.2 _ hmem)) (by decide)
  · intro hmem
    exact absurd (not_bracket (h.2 _ hmem)) (by decide)

/-- The guard takes the two forms of a host alike. -/
theorem hostIsPrivateOrLocal_of_ipv6 {text host : Units} (htext : IsAddressText text)
    (h : ipv6IsPrivateOrLocal text = true) (hhost : host = text ∨ host = bracketed text) :
    hostIsPrivateOrLocal host = true := by
  have hstrip : stripBrackets host = text := by
    rcases hhost with rfl | rfl
    · exact htext.stripBrackets
    · exact stripBrackets_bracketed text
  have hsame : ipv6IsPrivateOrLocal host = ipv6IsPrivateOrLocal text := by
    unfold ipv6IsPrivateOrLocal
    rw [hstrip, htext.stripBrackets]
  have hunits : ∀ unit ∈ host, unit ≤ 64 ∨ 91 ≤ unit ∧ unit ≤ 122 := by
    have hinner : ∀ unit ∈ text, unit ≤ 64 ∨ 91 ≤ unit ∧ unit ≤ 122 := fun unit hunit => by
      have := not_bracket (htext.2 unit hunit)
      omega
    rcases hhost with rfl | rfl
    · exact hinner
    · intro unit hunit
      simp only [bracketed, List.cons_append, List.mem_cons, List.mem_append, List.not_mem_nil,
        or_false] at hunit
      rcases hunit with rfl | hunit | rfl
      · decide
      · exact hinner unit hunit
      · decide
  have hcolon : colon ∈ host := by
    rcases hhost with rfl | rfl
    · exact htext.1
    · exact List.mem_append_left _ (List.mem_cons_of_mem _ htext.1)
  unfold hostIsPrivateOrLocal
  simp only [toLowerCase_eq_self hunits]
  split_ifs
  · rfl
  · rfl
  · rw [hsame, h]

theorem dottedMapped_eq_none {text : Units} (h : dot ∉ text) : dottedMapped text = none := by
  unfold dottedMapped
  rw [List.findSome?_eq_none_iff]
  intro rest hrest
  have hno : dot ∉ rest.drop 7 := fun hmem =>
    h ((List.mem_tails _ _ |>.mp hrest).subset (List.mem_of_mem_drop hmem))
  rw [if_neg]
  rintro ⟨_, hquad⟩
  simp [isDottedQuad, List.splitOn_eq_singleton hno] at hquad

theorem isAddressText_serializePieces {pieces : List ℕ} (h : colon ∈ serializePieces pieces) :
    IsAddressText (serializePieces pieces) :=
  ⟨h, fun _ hunit => (mem_serializePieces hunit).imp_right Or.inl⟩

theorem dot_not_mem_serializePieces (pieces : List ℕ) : dot ∉ serializePieces pieces := by
  intro hmem
  have hkind := mem_serializePieces hmem
  revert hkind
  decide

theorem colon_not_mem_shortest (number : ℕ) : colon ∉ shortest 16 number := by
  intro hmem
  have := isLowerHex_of_mem_shortest (by norm_num) (by norm_num) hmem
  revert this
  decide

/-- Apart from the two special addresses and the mapped ones the first piece decides. -/
theorem ipv6IsPrivateOrLocal_of_first {first next : ℕ} {rest : List ℕ} (hlow : 16 ^ 3 ≤ first)
    (hhigh : first < 16 ^ 4) (h : units "fc" <+: shortest 16 first ∨ units "fd" <+: shortest 16 first ∨
      (shortest 16 first).take 2 = units "fe" ∧
        (shortest 16 first)[2]?.any (fun unit => [56, 57, 97, 98].contains unit) = true) :
    colon ∈ serializePieces (first :: next :: rest) ∧
      ipv6IsPrivateOrLocal (serializePieces (first :: next :: rest)) = true := by
  have hfirst : first ≠ 0 := by omega
  have hdot := dot_not_mem_serializePieces (first :: next :: rest)
  have hstrip : colon ∈ serializePieces (first :: next :: rest) → _ := fun hcolon =>
    (isAddressText_serializePieces hcolon).stripBrackets
  obtain ⟨tail, htail⟩ := @serializePieces_of_ne_zero first next hfirst rest
  have hcolon : colon ∈ serializePieces (first :: next :: rest) := by
    rw [htail]
    exact List.mem_append_right _ (List.mem_cons_self ..)
  have hmapped : hexMapped (serializePieces (first :: next :: rest)) = none := by
    unfold hexMapped
    rw [if_neg]
    rintro ⟨more, hmore⟩
    rw [htail, shortest_of_four (by norm_num) hlow hhigh] at hmore
    have hunit := (List.cons.inj hmore).1
    have hdigit : first / 16 / 16 / 16 < 16 := by omega
    have hhex := isLowerHex_hexDigit hdigit
    rw [← hunit] at hhex
    revert hhex
    decide
  refine ⟨hcolon, ?_⟩
  unfold ipv6IsPrivateOrLocal
  simp only [hstrip hcolon, dottedMapped_eq_none hdot, hmapped]
  rw [htail] at hcolon ⊢
  rw [List.splitOn_append_cons_self_of_not_mem (colon_not_mem_shortest first), List.headD_cons, if_neg (not_not.mpr hcolon)]
  split_ifs with hspecial hlocal
  · rfl
  · rfl
  · rcases h with h | h | h
    · exact absurd (Or.inl h) hlocal
    · exact absurd (Or.inr h) hlocal
    · simpa using h

theorem ipv6IsPrivateOrLocal_uniqueLocal {first next : ℕ} {rest : List ℕ}
    (h : first / 2 ^ 9 = 0xfc00 / 2 ^ 9) : colon ∈ serializePieces (first :: next :: rest) ∧
      ipv6IsPrivateOrLocal (serializePieces (first :: next :: rest)) = true := by
  have hlow : 16 ^ 3 ≤ first := by omega
  have hhigh : first < 16 ^ 4 := by omega
  apply ipv6IsPrivateOrLocal_of_first hlow hhigh
  rw [shortest_of_four (by norm_num) hlow hhigh, show first / 16 / 16 / 16 = 15 by omega]
  have hsecond : first / 16 / 16 % 16 = 12 ∨ first / 16 / 16 % 16 = 13 := by omega
  rcases hsecond with hc | hd
  · rw [hc]
    exact Or.inl ⟨_, rfl⟩
  · rw [hd]
    exact Or.inr (Or.inl ⟨_, rfl⟩)

theorem ipv6IsPrivateOrLocal_linkLocal {first next : ℕ} {rest : List ℕ}
    (h : first / 2 ^ 6 = 0xfe80 / 2 ^ 6) : colon ∈ serializePieces (first :: next :: rest) ∧
      ipv6IsPrivateOrLocal (serializePieces (first :: next :: rest)) = true := by
  have hlow : 16 ^ 3 ≤ first := by omega
  have hhigh : first < 16 ^ 4 := by omega
  apply ipv6IsPrivateOrLocal_of_first hlow hhigh
  rw [shortest_of_four (by norm_num) hlow hhigh, show first / 16 / 16 / 16 = 15 by omega,
    show first / 16 / 16 % 16 = 14 by omega]
  have hthird : first / 16 % 16 = 8 ∨ first / 16 % 16 = 9 ∨ first / 16 % 16 = 10 ∨
      first / 16 % 16 = 11 := by omega
  refine Or.inr (Or.inr ⟨rfl, ?_⟩)
  rcases hthird with h | h | h | h <;> rw [h] <;> rfl

/-! ## IPv4 addresses mapped into IPv6 -/

theorem compressed_mapped (hi lo : ℕ) : compressed [0, 0, 0, 0, 0, 0xffff, hi, lo] = some 0 := by
  have hruns : (List.range 8).map (zeroRun [0, 0, 0, 0, 0, 0xffff, hi, lo]) =
      [5, 4, 3, 2, 1, 0, zeroRun [hi, lo] 0, zeroRun [lo] 0] := rfl
  have hpair : zeroRun [hi, lo] 0 ≤ 2 := (List.takeWhile_sublist _).length_le
  have hsingle : zeroRun [lo] 0 ≤ 1 := (List.takeWhile_sublist _).length_le
  have hlongest : ((List.range 8).map (zeroRun [0, 0, 0, 0, 0, 0xffff, hi, lo])).foldr max 0 = 5 := by
    rw [hruns]
    simp only [List.foldr_cons, List.foldr_nil]
    omega
  unfold compressed
  rw [show [0, 0, 0, 0, 0, 0xffff, hi, lo].length = 8 from rfl, hlongest]
  rfl

theorem serializePieces_mapped (hi lo : ℕ) : serializePieces [0, 0, 0, 0, 0, 0xffff, hi, lo] =
    mappedPrefix ++ (shortest 16 hi ++ colon :: shortest 16 lo) := by
  unfold serializePieces
  rw [compressed_mapped]
  simp only [show zeroRun [0, 0, 0, 0, 0, 0xffff, hi, lo] 0 = 5 from rfl, List.take_zero, Nat.zero_add, List.drop_succ_cons, List.drop_zero]
  rw [groupText_cons_cons, groupText_cons_cons, shortest_of_four (by norm_num) (by norm_num)
    (by norm_num), groupText_singleton]
  rfl

theorem isHexGroup_shortest {piece : ℕ} (h : piece < 2 ^ 16) :
    isHexGroup (shortest 16 piece) = true := by
  have hlt : piece < 16 ^ 4 := h.trans_eq (by norm_num)
  have hlength := length_shortest_le (by norm_num) (by norm_num) hlt
  have hpos := List.length_pos_iff.mpr (@shortest_ne_nil 16 piece)
  simp only [isHexGroup, Bool.and_eq_true, decide_eq_true_eq, List.all_eq_true]
  exact ⟨⟨hpos, hlength⟩, fun unit hunit =>
    isLowerHex_of_mem_shortest (by norm_num) (by norm_num) hunit⟩

theorem ipv6IsPrivateOrLocal_mapped {hi lo : ℕ} (hhi : hi < 2 ^ 16) (hlo : lo < 2 ^ 16)
    (h : PrivateAddress (hi * 2 ^ 16 + lo)) :
    colon ∈ serializePieces [0, 0, 0, 0, 0, 0xffff, hi, lo] ∧
      ipv6IsPrivateOrLocal (serializePieces [0, 0, 0, 0, 0, 0xffff, hi, lo]) = true := by
  have hdot := dot_not_mem_serializePieces [0, 0, 0, 0, 0, 0xffff, hi, lo]
  have hcolon : colon ∈ serializePieces [0, 0, 0, 0, 0, 0xffff, hi, lo] := by
    rw [serializePieces_mapped]
    exact List.mem_append_left _ (by decide)
  have hmapped : hexMapped (serializePieces [0, 0, 0, 0, 0, 0xffff, hi, lo]) =
      some (shortest 16 hi, shortest 16 lo) := by
    rw [serializePieces_mapped, hexMapped, if_pos (List.prefix_append _ _),
      show 7 = mappedPrefix.length from rfl, List.drop_left,
      List.splitOn_append_cons_self_of_not_mem (colon_not_mem_shortest hi),
      List.splitOn_eq_singleton (colon_not_mem_shortest lo)]
    exact if_pos ⟨isHexGroup_shortest hhi, isHexGroup_shortest hlo⟩
  have hspells := spells_dottedDecimal (a := hi / 256 % 256) (b := hi % 256) (c := lo / 256 % 256)
    (d := lo % 256) (by omega) (by omega) (by omega) (by omega)
  have haddress : octets (hi / 256 % 256) (hi % 256) (lo / 256 % 256) (lo % 256) =
      hi * 2 ^ 16 + lo := by
    unfold octets
    omega
  rw [haddress] at hspells
  refine ⟨hcolon, ?_⟩
  unfold ipv6IsPrivateOrLocal
  simp only [(isAddressText_serializePieces hcolon).stripBrackets, dottedMapped_eq_none hdot,
    hmapped]
  rw [if_neg (not_not.mpr hcolon)]
  split_ifs
  · rfl
  · rw [valueIn_shortest (by norm_num) (by norm_num), valueIn_shortest (by norm_num) (by norm_num)]
    exact ipv4IsPrivateOrLocal_of_spells hspells h

/-- The serialized private addresses are recognized. -/
theorem ipv6IsPrivateOrLocal_serialize {address : Ipv6Address} (h : PrivateIpv6 address.pieces) :
    IsAddressText (serialize address) ∧ ipv6IsPrivateOrLocal (serialize address) = true := by
  have hlength := address.length_eq
  have hlt := address.lt
  suffices hboth : colon ∈ serialize address ∧ ipv6IsPrivateOrLocal (serialize address) = true from
    ⟨isAddressText_serializePieces hboth.1, hboth.2⟩
  unfold serialize
  generalize address.pieces = pieces at h hlength hlt
  cases h with
  | unspecified => exact ⟨by decide +kernel, by decide +kernel⟩
  | loopback => exact ⟨by decide +kernel, by decide +kernel⟩
  | @uniqueLocal first rest h =>
    obtain ⟨next, rest, rfl⟩ := List.exists_cons_of_ne_nil (l := rest) (by rintro rfl; simp at hlength)
    exact ipv6IsPrivateOrLocal_uniqueLocal h
  | @linkLocal first rest h =>
    obtain ⟨next, rest, rfl⟩ := List.exists_cons_of_ne_nil (l := rest) (by rintro rfl; simp at hlength)
    exact ipv6IsPrivateOrLocal_linkLocal h
  | mapped h => exact ipv6IsPrivateOrLocal_mapped (hlt _ (by simp)) (hlt _ (by simp)) h

/-- The text of a mapped address with the IPv4 address in decimals. -/
def dottedMappedText (a b c d : ℕ) : Units := mappedPrefix ++ dottedDecimal a b c d

theorem isDottedQuad_dottedDecimal {a b c d : ℕ} (ha : a < 256) (hb : b < 256) (hc : c < 256)
    (hd : d < 256) : isDottedQuad (dottedDecimal a b c d) = true := by
  have hpart : ∀ {number : ℕ}, number < 256 → 1 ≤ (shortest 10 number).length ∧
      (shortest 10 number).length ≤ 3 ∧ ∀ unit ∈ shortest 10 number, isDigitIn 10 unit = true := by
    intro number hnumber
    exact ⟨List.length_pos_iff.mpr (shortest_ne_nil number),
      length_shortest_le (by norm_num) (by norm_num) (hnumber.trans (by norm_num)),
      fun unit hunit => isDigitIn_of_mem_shortest (by norm_num) (by norm_num) hunit⟩
  have hsplit : (dottedDecimal a b c d).splitOn dot =
      [shortest 10 a, shortest 10 b, shortest 10 c, shortest 10 d] := by
    apply List.splitOn_intercalate _ _ (List.cons_ne_nil _ _)
    intro part hpart
    have hfree : ∀ {number : ℕ}, dot ∉ shortest 10 number := fun hmem => by
      have hdigit := isDigitIn_of_mem_shortest (by norm_num) (by norm_num) hmem
      revert hdigit
      decide
    simp only [List.mem_cons, List.not_mem_nil, or_false] at hpart
    rcases hpart with rfl | rfl | rfl | rfl <;> exact hfree
  unfold isDottedQuad
  simp only [hsplit, Bool.and_eq_true, decide_eq_true_eq, List.all_eq_true, List.mem_cons,
    List.not_mem_nil, or_false]
  refine ⟨rfl, ?_⟩
  rintro part (rfl | rfl | rfl | rfl)
  · exact ⟨⟨(hpart ha).1, (hpart ha).2.1⟩, (hpart ha).2.2⟩
  · exact ⟨⟨(hpart hb).1, (hpart hb).2.1⟩, (hpart hb).2.2⟩
  · exact ⟨⟨(hpart hc).1, (hpart hc).2.1⟩, (hpart hc).2.2⟩
  · exact ⟨⟨(hpart hd).1, (hpart hd).2.1⟩, (hpart hd).2.2⟩

theorem ipv6IsPrivateOrLocal_dottedMapped {a b c d : ℕ} (ha : a < 256) (hb : b < 256)
    (hc : c < 256) (hd : d < 256) (h : PrivateAddress (octets a b c d)) :
    IsAddressText (dottedMappedText a b c d) ∧
      ipv6IsPrivateOrLocal (dottedMappedText a b c d) = true := by
  have htext : IsAddressText (dottedMappedText a b c d) := by
    refine ⟨List.mem_append_left _ (by decide), fun unit hunit => ?_⟩
    rcases List.mem_append.mp hunit with hunit | hunit
    · have hmapped : ∀ unit ∈ mappedPrefix, isLowerHex unit = true ∨ unit = colon := by decide
      exact (hmapped unit hunit).imp_right Or.inl
    · rcases mem_dottedDecimal hunit with hdigit | hdot
      · have hrange := isDigitIn_ten.mp hdigit
        left
        simp [isLowerHex, hrange]
      · exact Or.inr (Or.inr hdot)
  have hdotted : dottedMapped (dottedMappedText a b c d) = some (dottedDecimal a b c d) := by
    have hdrop : (dottedMappedText a b c d).drop 7 = dottedDecimal a b c d := by
      rw [dottedMappedText, show 7 = mappedPrefix.length from rfl, List.drop_left]
    obtain ⟨unit, rest, hcons⟩ := List.exists_cons_of_ne_nil (List.ne_nil_of_mem htext.1)
    unfold dottedMapped
    rw [hcons, List.tails_cons, List.findSome?_cons, ← hcons, hdrop, if_pos
      ⟨List.prefix_append _ _, isDottedQuad_dottedDecimal ha hb hc hd⟩]
  refine ⟨htext, ?_⟩
  unfold ipv6IsPrivateOrLocal
  simp only [htext.stripBrackets, hdotted]
  rw [if_neg (not_not.mpr htext.1)]
  split_ifs
  · rfl
  · exact ipv4IsPrivateOrLocal_of_spells (spells_dottedDecimal ha hb hc hd) h

/-- The guard decodes every spelling of an IPv4 address to it and nothing that the C library
reads otherwise, takes every private address in each of its forms, and of the dotted decimals
no other. -/
theorem guard_covers_literals :
    (∀ text address, Spells text address → ipv4ToInt text = some address) ∧
    (∀ text, ipv4ToInt text = none ∨ ipv4ToInt text = inetAton text) ∧
    (∀ text address, Spells text address → PrivateAddress address →
      hostIsPrivateOrLocal text = true) ∧
    (∀ address : Ipv6Address, PrivateIpv6 address.pieces →
      hostIsPrivateOrLocal (serialize address) = true ∧
      hostIsPrivateOrLocal (bracketed (serialize address)) = true) ∧
    (∀ a < 256, ∀ b < 256, ∀ c < 256, ∀ d < 256, PrivateAddress (octets a b c d) →
      hostIsPrivateOrLocal (dottedMappedText a b c d) = true ∧
      hostIsPrivateOrLocal (bracketed (dottedMappedText a b c d)) = true) ∧
    (∀ a < 256, ∀ b < 256, ∀ c < 256, ∀ d < 256, ¬ PrivateAddress (octets a b c d) →
      hostIsPrivateOrLocal (dottedDecimal a b c d) = false) := by
  refine ⟨fun _ _ => ipv4ToInt_of_spells, fun text => ?_, fun _ _ => hostIsPrivateOrLocal_of_spells,
    fun address h => ?_, fun a ha b hb c hc d hd h => ?_, fun a ha b hb c hc d hd h => ?_⟩
  · cases hint : ipv4ToInt text with
    | none => exact Or.inl rfl
    | some address => exact Or.inr (inetAton_of_ipv4ToInt hint).symm
  · obtain ⟨htext, hprivate⟩ := ipv6IsPrivateOrLocal_serialize h
    exact ⟨hostIsPrivateOrLocal_of_ipv6 htext hprivate (Or.inl rfl),
      hostIsPrivateOrLocal_of_ipv6 htext hprivate (Or.inr rfl)⟩
  · obtain ⟨htext, hprivate⟩ := ipv6IsPrivateOrLocal_dottedMapped ha hb hc hd h
    exact ⟨hostIsPrivateOrLocal_of_ipv6 htext hprivate (Or.inl rfl),
      hostIsPrivateOrLocal_of_ipv6 htext hprivate (Or.inr rfl)⟩
  · exact hostIsPrivateOrLocal_dottedDecimal ha hb hc hd h

example : hostIsPrivateOrLocal (units "0xA9.0376.43518") = true := by decide +kernel

example : hostIsPrivateOrLocal (units "172.32.0.1") = false := by decide +kernel

end Gittensory.PrivateAddresses
