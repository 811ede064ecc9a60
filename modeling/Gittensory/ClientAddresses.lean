import Gittensory.SafeUrl

/-!
The address of a client as a key of the rate limiter (`auth/rate-limit.ts`, `clientIp`). IPv4
addresses are read exactly. The check of IPv6 addresses counts the pieces between colons and
lets any of them be empty: some addresses are not known to it, and some texts that are none
pass. Both kinds are described here by the pieces of a text.
-/
namespace Gittensory.ClientAddresses

open CodeUnits RadixNumerals
open SafeUrl (colon dot openBracket closeBracket)

/-! ## The check of the header -/

section Checks

/-- `/^\d{1,3}$/` and a number up to 255, in each of four parts. -/
def isValidIpv4 (value : Units) : Bool :=
  let parts := value.splitOn dot
  parts.length = 4 && parts.all fun part =>
    1 ≤ part.length && part.length ≤ 3 && part.all (isDigitIn 10) && valueIn 10 part ≤ 255

def withoutBrackets (value : Units) : Units :=
  if value.head? = some openBracket ∧ value.getLast? = some closeBracket then value.tail.dropLast
  else value

/-- How many pairs `split("::")` cuts at. It reads from the left and takes no colon twice. -/
def pairCount : Units → ℕ
  | 58 :: 58 :: rest => pairCount rest + 1
  | _ :: rest => pairCount rest
  | [] => 0

/-- `/^[0-9a-fA-F]{1,4}$/` -/
def isHexSegment (segment : Units) : Bool :=
  1 ≤ segment.length && segment.length ≤ 4 && segment.all (isDigitIn 16)

def isValidIpv6 (value : Units) : Bool :=
  let candidate := withoutBrackets value
  let segments := candidate.splitOn colon
  candidate.contains colon &&
    candidate.all (fun unit => isDigitIn 16 unit || unit = colon || unit = dot) &&
    pairCount candidate + 1 ≤ 2 && segments.length ≤ 8 &&
    segments.all (fun segment => segment = [] || isHexSegment segment) &&
    segments.any (· ≠ [])

def isValidIpAddress (value : Units) : Bool := isValidIpv4 value || isValidIpv6 value

def normalizeIpAddress (value : Option Units) : Option Units :=
  match value.map CodeUnits.trim with
  | none => none
  | some trimmed =>
      if trimmed = [] ∨ isValidIpAddress trimmed = false then none
      else some (withoutBrackets trimmed)

/-- The header that Cloudflare sets, or one key for everyone else. -/
def clientIp (header : Option Units) : Units :=
  (normalizeIpAddress header).getD (units "unknown-ip")

end Checks

/-! ## Addresses -/

section Addresses

structure IsOctet (part : Units) : Prop where
  pos : 1 ≤ part.length
  le : part.length ≤ 3
  digits : ∀ unit ∈ part, isDigitIn 10 unit = true
  value : valueIn 10 part ≤ 255

def IsIpv4 (text : Units) : Prop :=
  ∃ parts : List Units, parts.length = 4 ∧ (∀ part ∈ parts, IsOctet part) ∧
    text = [dot].intercalate parts

/-- Sixteen bits in one to four digits. -/
structure IsGroup (part : Units) : Prop where
  pos : 1 ≤ part.length
  le : part.length ≤ 4
  digits : ∀ unit ∈ part, isDigitIn 16 unit = true

/-- Parts of an address up to its end, and how many groups they stand for. -/
inductive IsTail : List Units → ℕ → Prop
  | groups {parts : List Units} : (∀ part ∈ parts, IsGroup part) → IsTail parts parts.length
  | quad {parts : List Units} {last : Units} : (∀ part ∈ parts, IsGroup part) → IsIpv4 last →
      IsTail (parts ++ [last]) (parts.length + 2)

/-- Eight groups, or fewer around a pair of colons that stands for at least one. -/
inductive IsIpv6 : Units → Prop
  | full {parts : List Units} : IsTail parts 8 → IsIpv6 ([colon].intercalate parts)
  | compressed {left right : List Units} {width : ℕ} : (∀ part ∈ left, IsGroup part) →
      IsTail right width → left.length + width ≤ 7 →
      IsIpv6 ([colon].intercalate left ++ colon :: colon :: [colon].intercalate right)

def IsIpAddress (text : Units) : Prop :=
  IsIpv4 text ∨ IsIpv6 text ∨
    ∃ inner, text = openBracket :: inner ++ [closeBracket] ∧ (IsIpv4 inner ∨ IsIpv6 inner)

/-- The check is exact on a text, and an address does not share the common key. -/
structure AcceptsExactly (text : Units) : Prop where
  defined_iff : (normalizeIpAddress (some text)).isSome = true ↔ IsIpAddress text
  unpooled : IsIpAddress text → clientIp (some text) ≠ units "unknown-ip"

end Addresses

/-! ## Pieces of a text -/

section Pieces

/-- The empty pieces that are not at an edge: one less than the colons, for each run of them. -/
def gaps (pieces : List Units) : ℕ := pieces.tail.dropLast.countP (· = [])

/-- A single colon in front. -/
def LeadsLone (pieces : List Units) : Prop := pieces.head? = some [] ∧ pieces[1]?.getD [] ≠ []

instance decidableLeadsLone (pieces : List Units) : Decidable (LeadsLone pieces) :=
  inferInstanceAs (Decidable (_ ∧ _))

/-- What the check asks of a text without its brackets. -/
structure Passes (text : Units) : Prop where
  two_le : 2 ≤ (text.splitOn colon).length
  le : (text.splitOn colon).length ≤ 8
  parts : ∀ part ∈ text.splitOn colon, part = [] ∨ IsGroup part
  some : ∃ part ∈ text.splitOn colon, part ≠ []
  pairs : pairCount text ≤ 1

/-- Too few groups without a pair of colons, three colons in a row or two pairs, or a single colon
at an end. -/
def Misshapen (pieces : List Units) : Prop :=
  gaps pieces = 0 ∧ pieces.length < 8 ∨ 2 ≤ gaps pieces ∨ LeadsLone pieces ∨
    LeadsLone pieces.reverse

instance decidableMisshapen (pieces : List Units) : Decidable (Misshapen pieces) :=
  inferInstanceAs (Decidable (_ ∨ _ ∨ _ ∨ _))

/-- An IPv4 address in brackets; or an IPv6 address that ends as an IPv4 address, is all zero and
without a digit, or has seven groups and its pair of colons at an end. -/
def Overlooked (text : Units) : Prop :=
  let inner := withoutBrackets text
  (inner ≠ text ∧ IsIpv4 inner) ∨
    IsIpv6 inner ∧ (dot ∈ inner ∨ inner = [colon, colon] ∨ 8 < (inner.splitOn colon).length)

/-- Up to eight pieces of digits or nothing that are no address. -/
def Overread (text : Units) : Prop :=
  let inner := withoutBrackets text
  Passes inner ∧ Misshapen (inner.splitOn colon)

end Pieces

/-! ## The check by pieces -/

section PieceLemmas

theorem intercalate_pieces (text : Units) : [colon].intercalate (text.splitOn colon) = text :=
  List.intercalate_splitOn colon

theorem length_splitOn_pos (text : Units) : 1 ≤ (text.splitOn colon).length :=
  List.length_pos_iff.mpr (List.splitOn_ne_nil _ _)

theorem two_le_length_splitOn_iff (text : Units) :
    2 ≤ (text.splitOn colon).length ↔ colon ∈ text := by
  constructor
  · intro h
    by_contra hmem
    rw [List.splitOn_eq_singleton hmem, List.length_singleton] at h
    exact absurd h (by decide)
  · intro hmem
    obtain ⟨before, behind, rfl⟩ := List.append_of_mem hmem
    rw [List.splitOn_append_cons_self, List.length_append]
    have := length_splitOn_pos before
    have := length_splitOn_pos behind
    omega

theorem isHexSegment_iff {segment : Units} : isHexSegment segment = true ↔ IsGroup segment := by
  unfold isHexSegment
  simp only [Bool.and_eq_true, decide_eq_true_eq, List.all_eq_true]
  exact ⟨fun ⟨⟨hpos, hle⟩, hdigits⟩ => ⟨hpos, hle, hdigits⟩, fun h => ⟨⟨h.pos, h.le⟩, h.digits⟩⟩

theorem Passes.mem {text : Units} (h : Passes text) {unit : ℕ} (hunit : unit ∈ text) :
    isDigitIn 16 unit = true ∨ unit = colon := by
  rw [← intercalate_pieces text] at hunit
  rcases mem_intercalate hunit with hmem | ⟨part, hpart, hmem⟩
  · exact Or.inr (List.mem_singleton.mp hmem)
  · rcases h.parts part hpart with rfl | hgroup
    · exact absurd hmem List.not_mem_nil
    · exact Or.inl (hgroup.digits unit hmem)

theorem isValidIpv6_iff (value : Units) :
    isValidIpv6 value = true ↔ Passes (withoutBrackets value) := by
  unfold isValidIpv6
  simp only [Bool.and_eq_true, Bool.or_eq_true, decide_eq_true_eq, List.all_eq_true,
    List.any_eq_true, isHexSegment_iff, List.contains_iff_mem]
  constructor
  · rintro ⟨⟨⟨⟨⟨hcolon, -⟩, hpairs⟩, hle⟩, hparts⟩, hsome⟩
    exact ⟨(two_le_length_splitOn_iff _).mpr hcolon, hle, hparts, hsome, by omega⟩
  · intro h
    refine ⟨⟨⟨⟨⟨(two_le_length_splitOn_iff _).mp h.two_le, fun unit hunit => ?_⟩, ?_⟩, h.le⟩,
      h.parts⟩, h.some⟩
    · exact Or.inl (h.mem hunit)
    · have := h.pairs
      omega

theorem isValidIpv4_iff (value : Units) : isValidIpv4 value = true ↔ IsIpv4 value := by
  unfold isValidIpv4
  simp only [Bool.and_eq_true, decide_eq_true_eq, List.all_eq_true]
  constructor
  · rintro ⟨hlength, hparts⟩
    refine ⟨value.splitOn dot, hlength, fun part hpart => ?_, (List.intercalate_splitOn dot).symm⟩
    obtain ⟨⟨⟨hpos, hle⟩, hdigits⟩, hvalue⟩ := hparts part hpart
    exact ⟨hpos, hle, hdigits, hvalue⟩
  · rintro ⟨parts, hlength, hparts, rfl⟩
    have hdot : ∀ part ∈ parts, dot ∉ part := fun part hpart hmem =>
      absurd ((hparts part hpart).digits dot hmem) (by decide)
    have hne : parts ≠ [] := fun heq => by
      rw [heq] at hlength
      exact absurd hlength (by decide)
    rw [List.splitOn_intercalate dot hdot hne]
    refine ⟨hlength, fun part hpart => ?_⟩
    have hoctet := hparts part hpart
    exact ⟨⟨⟨hoctet.pos, hoctet.le⟩, hoctet.digits⟩, hoctet.value⟩

theorem splitOn_colon_cons (rest : Units) :
    (colon :: rest).splitOn colon = [] :: rest.splitOn colon :=
  List.splitOn_append_cons_self_of_not_mem List.not_mem_nil rest

/-- A unit that is no colon goes to the first piece. -/
theorem tail_splitOn_cons {unit : ℕ} (hunit : unit ≠ colon) (rest : Units) :
    ((unit :: rest).splitOn colon).tail = (rest.splitOn colon).tail := by
  rw [List.splitOn_cons_eq_if_modifyHead, if_neg (by simpa using hunit)]
  cases rest.splitOn colon <;> rfl

theorem gaps_le_countP (pieces : List Units) : gaps pieces ≤ pieces.dropLast.countP (· = []) := by
  cases pieces with
  | nil => exact le_rfl
  | cons first rest =>
    cases rest with
    | nil => exact Nat.zero_le _
    | cons next rest =>
      rw [gaps, List.tail_cons, List.dropLast_cons_cons]
      exact List.Sublist.countP_le (List.sublist_cons_self _ _)

/-- A colon in front of a text turns its first piece into an inner one, if it has two. -/
theorem gaps_colon_cons (rest : Units) :
    gaps (rest.splitOn colon) ≤ gaps ((colon :: rest).splitOn colon) := by
  rw [splitOn_colon_cons]
  exact gaps_le_countP (rest.splitOn colon)

/-- A pair that is cut has a piece of its own between its colons. -/
theorem pairCount_le_gaps (text : Units) : pairCount text ≤ gaps (text.splitOn colon) := by
  induction text using pairCount.induct with
  | case1 rest ih =>
    have hcut : ((58 :: 58 :: rest).splitOn colon) = [] :: [] :: rest.splitOn colon := by
      rw [show (58 : ℕ) = colon from rfl, splitOn_colon_cons, splitOn_colon_cons]
    have hsub := gaps_le_countP (rest.splitOn colon)
    have hgaps : gaps ([] :: [] :: rest.splitOn colon) =
        (rest.splitOn colon).dropLast.countP (· = []) + 1 := by
      unfold gaps
      rw [List.tail_cons, List.dropLast_cons_of_ne_nil (List.splitOn_ne_nil _ _),
        List.countP_cons_of_pos (by decide)]
    rw [pairCount, hcut, hgaps]
    omega
  | case2 unit rest hpair ih =>
    have hcount : pairCount (unit :: rest) = pairCount rest := by
      rw [pairCount]
      exact hpair
    rw [hcount]
    by_cases hunit : unit = colon
    · rw [hunit]
      exact ih.trans (gaps_colon_cons rest)
    · refine ih.trans (le_of_eq ?_)
      unfold gaps
      rw [tail_splitOn_cons hunit]
  | case3 => exact Nat.zero_le _

end PieceLemmas

/-! ## The pieces of an address -/

section Shapes

theorem IsGroup.ne_nil {part : Units} (h : IsGroup part) : part ≠ [] :=
  List.length_pos_iff.mp h.pos

theorem IsGroup.colon_not_mem {part : Units} (h : IsGroup part) : colon ∉ part := fun hmem =>
  absurd (h.digits colon hmem) (by decide)

theorem IsIpv4.mem {text : Units} (h : IsIpv4 text) {unit : ℕ} (hunit : unit ∈ text) :
    isDigitIn 10 unit = true ∨ unit = dot := by
  obtain ⟨parts, -, hparts, rfl⟩ := h
  rcases mem_intercalate hunit with hmem | ⟨part, hpart, hmem⟩
  · exact Or.inr (List.mem_singleton.mp hmem)
  · exact Or.inl ((hparts part hpart).digits unit hmem)

theorem IsIpv4.colon_not_mem {text : Units} (h : IsIpv4 text) : colon ∉ text := fun hmem => by
  rcases h.mem hmem with hdigit | heq
  · exact absurd hdigit (by decide)
  · exact absurd heq (by decide)

theorem IsIpv4.dot_mem {text : Units} (h : IsIpv4 text) : dot ∈ text := by
  obtain ⟨parts, hlength, -, rfl⟩ := h
  match parts, hlength with
  | first :: second :: rest, _ =>
    rw [List.intercalate_cons_cons]
    exact List.mem_append_left _ (List.mem_append_right _ (List.mem_singleton_self _))

/-- The pieces that groups make between colons, with an empty one for none. -/
def edge (parts : List Units) : List Units := if parts = [] then [[]] else parts

theorem edge_of_ne_nil {parts : List Units} (h : parts ≠ []) : edge parts = parts := if_neg h

theorem length_le_edge (parts : List Units) : parts.length ≤ (edge parts).length := by
  unfold edge
  split_ifs with h
  · rw [h]
    exact Nat.zero_le _
  · exact le_rfl

theorem edge_ne_nil (parts : List Units) : edge parts ≠ [] := by
  unfold edge
  split_ifs with h
  · exact List.cons_ne_nil _ _
  · exact h

theorem edge_reverse (parts : List Units) : (edge parts).reverse = edge parts.reverse := by
  unfold edge
  by_cases h : parts = []
  · rw [h]
    rfl
  · rw [if_neg h, if_neg fun heq => h (List.reverse_eq_nil_iff.mp heq)]

theorem intercalate_edge (parts : List Units) :
    [colon].intercalate (edge parts) = [colon].intercalate parts := by
  unfold edge
  split_ifs with h
  · rw [h]
    rfl
  · rfl

theorem splitOn_intercalate_edge {parts : List Units} (h : ∀ part ∈ parts, colon ∉ part) :
    ([colon].intercalate parts).splitOn colon = edge parts := by
  by_cases hne : parts = []
  · rw [hne]
    rfl
  · rw [edge_of_ne_nil hne, List.splitOn_intercalate colon h hne]

theorem splitOn_compressed {left right : List Units} (hleft : ∀ part ∈ left, colon ∉ part)
    (hright : ∀ part ∈ right, colon ∉ part) :
    ([colon].intercalate left ++ colon :: colon :: [colon].intercalate right).splitOn colon =
      edge left ++ [] :: edge right := by
  rw [List.splitOn_append_cons_self, splitOn_colon_cons, splitOn_intercalate_edge hleft,
    splitOn_intercalate_edge hright]

theorem intercalate_append {left right : List Units} (hleft : left ≠ []) (hright : right ≠ []) :
    [colon].intercalate (left ++ right) =
      [colon].intercalate left ++ colon :: [colon].intercalate right := by
  induction left with
  | nil => exact absurd rfl hleft
  | cons first rest ih =>
    cases rest with
    | nil =>
      rw [List.singleton_append, List.intercalate_cons_of_ne_nil hright,
        List.intercalate_singleton, List.append_assoc, List.singleton_append]
    | cons next rest =>
      rw [List.cons_append, List.cons_append, List.intercalate_cons_cons, ← List.cons_append,
        ih (List.cons_ne_nil _ _), List.intercalate_cons_cons]
      simp only [List.append_assoc]

theorem intercalate_compressed (left right : List Units) :
    [colon].intercalate (edge left ++ [] :: edge right) =
      [colon].intercalate left ++ colon :: colon :: [colon].intercalate right := by
  have hright := edge_ne_nil right
  rw [intercalate_append (edge_ne_nil left) (List.cons_ne_nil _ _), intercalate_edge,
    List.intercalate_cons_of_ne_nil hright, intercalate_edge]
  rfl

/-- One gap, and it is next to an edge that is empty. -/
theorem gaps_compressed {left right : List Units} (hleft : ∀ part ∈ left, part ≠ [])
    (hright : ∀ part ∈ right, part ≠ []) : gaps (edge left ++ [] :: edge right) = 1 := by
  have htail : ∀ part ∈ (edge left).tail, part ≠ [] := fun part hpart => by
    unfold edge at hpart
    split_ifs at hpart with h
    · exact absurd hpart List.not_mem_nil
    · exact hleft part (List.mem_of_mem_tail hpart)
  have hlast : ∀ part ∈ (edge right).dropLast, part ≠ [] := fun part hpart => by
    unfold edge at hpart
    split_ifs at hpart with h
    · exact absurd hpart List.not_mem_nil
    · exact hright part (List.mem_of_mem_dropLast hpart)
  have hcut : (edge left ++ [] :: edge right).tail.dropLast =
      (edge left).tail ++ [] :: (edge right).dropLast := by
    rw [List.tail_append_of_ne_nil (edge_ne_nil left),
      List.dropLast_append_of_ne_nil (List.cons_ne_nil _ _),
      List.dropLast_cons_of_ne_nil (edge_ne_nil right)]
  have hnone : ∀ {parts : List Units}, (∀ part ∈ parts, part ≠ []) →
      parts.countP (· = []) = 0 := fun h =>
    List.countP_eq_zero.mpr fun part hpart => by simpa using h part hpart
  rw [gaps, hcut, List.countP_append, List.countP_cons_of_pos (by decide), hnone htail,
    hnone hlast]

theorem not_leadsLone_edge {left rest : List Units} (hleft : ∀ part ∈ left, part ≠ []) :
    ¬LeadsLone (edge left ++ [] :: rest) := by
  rintro ⟨hhead, hnext⟩
  cases left with
  | nil => exact hnext rfl
  | cons first more =>
    exact hleft first (List.mem_cons_self ..) (Option.some.inj hhead)

theorem reverse_compressed (left right : List Units) :
    (edge left ++ [] :: edge right).reverse = edge right.reverse ++ [] :: edge left.reverse := by
  rw [List.reverse_append, List.reverse_cons, edge_reverse, edge_reverse, List.append_assoc,
    List.singleton_append]

theorem not_misshapen_compressed {left right : List Units} (hleft : ∀ part ∈ left, part ≠ [])
    (hright : ∀ part ∈ right, part ≠ []) : ¬Misshapen (edge left ++ [] :: edge right) := by
  have hgaps := gaps_compressed hleft hright
  rintro (⟨hzero, -⟩ | htwo | hlead | hlead)
  · omega
  · omega
  · exact not_leadsLone_edge hleft hlead
  · rw [reverse_compressed] at hlead
    exact not_leadsLone_edge (fun part hpart => hright part (List.mem_reverse.mp hpart)) hlead

theorem gaps_full {parts : List Units} (hparts : ∀ part ∈ parts, part ≠ []) : gaps parts = 0 :=
  List.countP_eq_zero.mpr fun part hpart => by
    simpa using hparts part (List.mem_of_mem_tail (List.mem_of_mem_dropLast hpart))

theorem not_misshapen_full {parts : List Units} (hparts : ∀ part ∈ parts, part ≠ [])
    (hlength : parts.length = 8) : ¬Misshapen parts := by
  have hgaps := gaps_full hparts
  have hlead : ∀ {pieces : List Units}, (∀ part ∈ pieces, part ≠ []) → ¬LeadsLone pieces :=
    fun h hlone => h [] (List.mem_of_head? hlone.1) rfl
  rintro (⟨-, hlt⟩ | htwo | hlone | hlone)
  · omega
  · omega
  · exact hlead hparts hlone
  · exact hlead (fun part hpart => hparts part (List.mem_reverse.mp hpart)) hlone

theorem mem_intercalate_of_mem {parts : List Units} {part : Units} {unit : ℕ}
    (hpart : part ∈ parts) (hunit : unit ∈ part) : unit ∈ [colon].intercalate parts := by
  obtain ⟨before, behind, rfl⟩ := List.append_of_mem hpart
  have hrest : unit ∈ [colon].intercalate (part :: behind) := by
    cases behind with
    | nil => rwa [List.intercalate_singleton]
    | cons next rest =>
      rw [List.intercalate_cons_cons]
      exact List.mem_append_left _ (List.mem_append_left _ hunit)
  by_cases hbefore : before = []
  · rwa [hbefore]
  · rw [intercalate_append hbefore (List.cons_ne_nil _ _)]
    exact List.mem_append_right _ (List.mem_cons_of_mem _ hrest)

theorem IsTail.groups_of_no_dot {parts : List Units} {width : ℕ} (h : IsTail parts width)
    (hdot : dot ∉ [colon].intercalate parts) :
    (∀ part ∈ parts, IsGroup part) ∧ parts.length = width := by
  cases h with
  | groups hparts => exact ⟨hparts, rfl⟩
  | quad hparts hlast =>
    exact absurd (mem_intercalate_of_mem (List.mem_append_right _ (List.mem_singleton_self _))
      hlast.dot_mem) hdot

/-- The pieces of an address that has no part of an IPv4 address. -/
inductive HexPieces (text : Units) : Prop
  | full : (∀ part ∈ text.splitOn colon, IsGroup part) → (text.splitOn colon).length = 8 →
      HexPieces text
  | compressed (left right : List Units) : (∀ part ∈ left, IsGroup part) →
      (∀ part ∈ right, IsGroup part) → left.length + right.length ≤ 7 →
      text.splitOn colon = edge left ++ [] :: edge right → HexPieces text

theorem IsIpv6.hexPieces {text : Units} (h : IsIpv6 text) (hdot : dot ∉ text) :
    HexPieces text := by
  cases h with
  | @full parts htail =>
    obtain ⟨hparts, hlength⟩ := htail.groups_of_no_dot hdot
    have hne : parts ≠ [] := fun heq => by
      rw [heq] at hlength
      exact absurd hlength (by decide)
    have hsplit : ([colon].intercalate parts).splitOn colon = parts :=
      List.splitOn_intercalate colon (fun part hpart => (hparts part hpart).colon_not_mem) hne
    exact HexPieces.full (hsplit.symm ▸ hparts) (hsplit.symm ▸ hlength)
  | @compressed left right width hleft htail hwidth =>
    have hdot' : dot ∉ [colon].intercalate right := fun hmem => hdot (List.mem_append_right _
      (List.mem_cons_of_mem _ (List.mem_cons_of_mem _ hmem)))
    obtain ⟨hright, rfl⟩ := htail.groups_of_no_dot hdot'
    exact HexPieces.compressed left right hleft hright hwidth
      (splitOn_compressed (fun part hpart => (hleft part hpart).colon_not_mem)
        fun part hpart => (hright part hpart).colon_not_mem)

theorem HexPieces.isIpv6 {text : Units} (h : HexPieces text) : IsIpv6 text := by
  rw [← intercalate_pieces text]
  cases h with
  | full hparts hlength =>
    have htail := IsTail.groups hparts
    rw [hlength] at htail
    exact IsIpv6.full htail
  | compressed left right hleft hright hwidth hsplit =>
    rw [hsplit, intercalate_compressed]
    exact IsIpv6.compressed hleft (IsTail.groups hright) hwidth

theorem HexPieces.not_misshapen {text : Units} (h : HexPieces text) :
    ¬Misshapen (text.splitOn colon) := by
  cases h with
  | full hparts hlength =>
    exact not_misshapen_full (fun part hpart => (hparts part hpart).ne_nil) hlength
  | compressed left right hleft hright hwidth hsplit =>
    rw [hsplit]
    exact not_misshapen_compressed (fun part hpart => (hleft part hpart).ne_nil)
      fun part hpart => (hright part hpart).ne_nil

/-- An address passes the check when it has a digit and at most eight pieces. -/
theorem HexPieces.passes {text : Units} (h : HexPieces text) (hdigit : text ≠ [colon, colon])
    (hle : (text.splitOn colon).length ≤ 8) : Passes text := by
  have hpairs := pairCount_le_gaps text
  cases h with
  | full hparts hlength =>
    rw [gaps_full fun part hpart => (hparts part hpart).ne_nil] at hpairs
    have hpos : 0 < (text.splitOn colon).length := by omega
    obtain ⟨first, hmem⟩ := List.exists_mem_of_length_pos hpos
    exact ⟨by omega, hle, fun part hpart => Or.inr (hparts part hpart),
      ⟨first, hmem, (hparts first hmem).ne_nil⟩, by omega⟩
  | compressed left right hleft hright hwidth hsplit =>
    rw [hsplit, gaps_compressed (fun part hpart => (hleft part hpart).ne_nil)
      fun part hpart => (hright part hpart).ne_nil] at hpairs
    have hedge : ∀ {parts : List Units} {part : Units}, (∀ part ∈ parts, IsGroup part) →
        part ∈ edge parts → part = [] ∨ IsGroup part := fun {parts part} hparts hpart => by
      unfold edge at hpart
      split_ifs at hpart with hnil
      · exact Or.inl (List.mem_singleton.mp hpart)
      · exact Or.inr (hparts part hpart)
    have hsome : ∃ part ∈ left ++ right, IsGroup part := by
      cases hboth : left ++ right with
      | nil =>
        obtain ⟨rfl, rfl⟩ := List.append_eq_nil_iff.mp hboth
        refine absurd ?_ hdigit
        rw [← intercalate_pieces text, hsplit]
        decide
      | cons first rest =>
        have hfirst : first ∈ left ++ right := hboth ▸ List.mem_cons_self ..
        refine ⟨first, List.mem_cons_self .., ?_⟩
        rcases List.mem_append.mp hfirst with hmem | hmem
        · exact hleft first hmem
        · exact hright first hmem
    refine ⟨?_, hle, fun part hpart => ?_, ?_, hpairs⟩
    · rw [hsplit, List.length_append, List.length_cons]
      have := List.length_pos_iff.mpr (edge_ne_nil left)
      omega
    · rw [hsplit, List.mem_append, List.mem_cons] at hpart
      rcases hpart with hpart | rfl | hpart
      · exact hedge hleft hpart
      · exact Or.inl rfl
      · exact hedge hright hpart
    · obtain ⟨part, hpart, hgroup⟩ := hsome
      refine ⟨part, ?_, hgroup.ne_nil⟩
      rw [hsplit, List.mem_append, List.mem_cons]
      rcases List.mem_append.mp hpart with hmem | hmem
      · exact Or.inl (by rwa [edge_of_ne_nil (List.ne_nil_of_mem hmem)])
      · exact Or.inr (Or.inr (by rwa [edge_of_ne_nil (List.ne_nil_of_mem hmem)]))

end Shapes

/-! ## Texts that pass and are well shaped -/

section Reading

/-- Without a single colon in front, the pieces before a gap are those of some groups. -/
theorem exists_edge {first : Units} {inner rest : List Units} (hinner : ∀ part ∈ inner, part ≠ [])
    (hlone : ¬LeadsLone (first :: (inner ++ [] :: rest))) :
    ∃ parts, edge parts = first :: inner ∧ ∀ part ∈ parts, part ∈ first :: inner ∧ part ≠ [] := by
  by_cases hfirst : first = []
  · have hnil : inner = [] := by
      cases inner with
      | nil => rfl
      | cons next more =>
        refine absurd ⟨congrArg some hfirst, ?_⟩ hlone
        exact hinner next (List.mem_cons_self ..)
    rw [hfirst, hnil]
    exact ⟨[], rfl, fun part hpart => absurd hpart List.not_mem_nil⟩
  · refine ⟨first :: inner, edge_of_ne_nil (List.cons_ne_nil _ _), fun part hpart => ⟨hpart, ?_⟩⟩
    rcases List.mem_cons.mp hpart with rfl | hmem
    · exact hfirst
    · exact hinner part hmem

theorem first_ne_nil {first : Units} {inner rest : List Units} (hne : inner ≠ [])
    (hinner : ∀ part ∈ inner, part ≠ []) (hlone : ¬LeadsLone (first :: (inner ++ rest))) :
    first ≠ [] := by
  intro hfirst
  cases inner with
  | nil => exact hne rfl
  | cons next more => exact hlone ⟨congrArg some hfirst, hinner next (List.mem_cons_self ..)⟩

theorem exists_ends {pieces : List Units} (h : 2 ≤ pieces.length) :
    ∃ first inner last, pieces = first :: (inner ++ [last]) := by
  match pieces, h with
  | first :: next :: rest, _ =>
    refine ⟨first, (next :: rest).dropLast, (next :: rest).getLast (List.cons_ne_nil _ _), ?_⟩
    rw [List.dropLast_concat_getLast]

theorem gaps_ends (first last : Units) (inner : List Units) :
    gaps (first :: (inner ++ [last])) = inner.countP (· = []) := by
  rw [gaps, List.tail_cons, List.dropLast_concat]

theorem reverse_ends (first last : Units) (inner : List Units) :
    (first :: (inner ++ [last])).reverse = last :: (inner.reverse ++ [first]) := by
  rw [List.reverse_cons, List.reverse_append, List.reverse_singleton, List.append_assoc,
    List.singleton_append]

/-- A text that passes is an address, unless its pieces are misshapen. -/
theorem Passes.hexPieces {text : Units} (h : Passes text)
    (hshape : ¬Misshapen (text.splitOn colon)) : HexPieces text := by
  obtain ⟨htwo, hle, hparts, -, -⟩ := h
  obtain ⟨first, inner, last, hends⟩ := exists_ends htwo
  unfold Misshapen at hshape
  rw [hends, reverse_ends, gaps_ends, not_or, not_or, not_or] at hshape
  obtain ⟨hfew, hmany, hlead, htrail⟩ := hshape
  have hgroup : ∀ part ∈ first :: (inner ++ [last]), part ≠ [] → IsGroup part :=
    fun part hpart hne => (hparts part (hends ▸ hpart)).resolve_left hne
  rw [hends] at hle
  have hcount : inner.countP (· = []) = 0 ∨ inner.countP (· = []) = 1 := by omega
  rcases hcount with hzero | hone
  · have hinner : ∀ part ∈ inner, part ≠ [] := fun part hpart => by
      simpa using List.countP_eq_zero.mp hzero part hpart
    have hlength : (first :: (inner ++ [last])).length = 8 := by omega
    have hne : inner ≠ [] := fun heq => by
      rw [heq, List.nil_append, List.length_cons, List.length_singleton] at hlength
      exact absurd hlength (by decide)
    have hfirst := first_ne_nil hne hinner hlead
    have hlast := first_ne_nil (by simpa using hne)
      (fun part hpart => hinner part (List.mem_reverse.mp hpart)) htrail
    refine HexPieces.full (fun part hpart => ?_) (hends ▸ hlength)
    rw [hends] at hpart
    refine hgroup part hpart ?_
    simp only [List.mem_cons, List.mem_append, List.not_mem_nil, or_false] at hpart
    rcases hpart with rfl | hmem | rfl
    · exact hfirst
    · exact hinner part hmem
    · exact hlast
  · have hmem : ([] : Units) ∈ inner := by
      obtain ⟨part, hpart, hnil⟩ := List.countP_pos_iff.mp (hone ▸ Nat.one_pos)
      rwa [of_decide_eq_true hnil] at hpart
    obtain ⟨before, behind, rfl, -⟩ := List.eq_append_cons_of_mem hmem
    rw [List.countP_append, List.countP_cons_of_pos (by decide)] at hone
    have hbefore : ∀ part ∈ before, part ≠ [] := fun part hpart => by
      simpa using List.countP_eq_zero.mp (by omega : before.countP (· = []) = 0) part hpart
    have hbehind : ∀ part ∈ behind.reverse, part ≠ [] := fun part hpart => by
      simpa using List.countP_eq_zero.mp (by omega : behind.countP (· = []) = 0) part
        (List.mem_reverse.mp hpart)
    rw [List.append_assoc, List.cons_append] at hlead
    rw [List.reverse_append, List.reverse_cons, List.append_assoc, List.append_assoc,
      List.singleton_append] at htrail
    obtain ⟨left, hleft, hleftMem⟩ := exists_edge hbefore hlead
    obtain ⟨right, hright, hrightMem⟩ := exists_edge hbehind htrail
    have hsplit : text.splitOn colon = edge left ++ [] :: edge right.reverse := by
      rw [hends, hleft, ← edge_reverse, hright, List.reverse_cons, List.reverse_reverse]
      simp only [List.cons_append, List.append_assoc]
    refine HexPieces.compressed left right.reverse (fun part hpart => ?_) (fun part hpart => ?_) ?_
      hsplit
    · obtain ⟨hmem, hne⟩ := hleftMem part hpart
      refine (hparts part ?_).resolve_left hne
      rw [hsplit, hleft]
      exact List.mem_append_left _ hmem
    · obtain ⟨hmem, hne⟩ := hrightMem part (List.mem_reverse.mp hpart)
      refine (hparts part ?_).resolve_left hne
      rw [hsplit, ← edge_reverse, hright]
      exact List.mem_append_right _ (List.mem_cons_of_mem _ (List.mem_reverse.mpr hmem))
    · rw [← hends, hsplit, List.length_append, List.length_cons] at hle
      have := length_le_edge left
      have := length_le_edge right.reverse
      omega

end Reading

/-! ## The check of an address -/

section Exactness

theorem withoutBrackets_bracketed (inner : Units) :
    withoutBrackets (openBracket :: inner ++ [closeBracket]) = inner := by
  rw [withoutBrackets, if_pos ⟨rfl, List.getLast?_concat ..⟩, List.cons_append, List.tail_cons,
    List.dropLast_concat]

theorem withoutBrackets_eq_self {text : Units} (h : openBracket ∉ text) :
    withoutBrackets text = text :=
  if_neg fun hboth => h (List.mem_of_head? hboth.1)

/-- A text that loses its brackets had them around what is left. -/
theorem eq_bracketed {text : Units} (h : withoutBrackets text ≠ text) :
    text = openBracket :: withoutBrackets text ++ [closeBracket] := by
  have hboth : text.head? = some openBracket ∧ text.getLast? = some closeBracket := by
    by_contra hnot
    exact h (if_neg hnot)
  rw [withoutBrackets, if_pos hboth]
  obtain ⟨hhead, hlast⟩ := hboth
  cases text with
  | nil => cases hhead
  | cons first rest =>
    obtain rfl : first = openBracket := Option.some.inj hhead
    cases rest using List.reverseRec with
    | nil => exact absurd (Option.some.inj hlast) (by decide)
    | append_singleton inner last =>
      rw [← List.cons_append, List.getLast?_concat] at hlast
      obtain rfl : last = closeBracket := Option.some.inj hlast
      rw [List.tail_cons, List.dropLast_concat, List.cons_append]

theorem IsTail.mem {parts : List Units} {width : ℕ} (h : IsTail parts width) {part : Units}
    (hpart : part ∈ parts) : IsGroup part ∨ IsIpv4 part := by
  cases h with
  | groups hparts => exact Or.inl (hparts part hpart)
  | quad hparts hlast =>
    rcases List.mem_append.mp hpart with hmem | hmem
    · exact Or.inl (hparts part hmem)
    · rw [List.mem_singleton.mp hmem]
      exact Or.inr hlast

theorem IsTail.width_le {parts : List Units} {width : ℕ} (h : IsTail parts width) :
    width ≤ parts.length + 1 := by
  cases h with
  | groups hparts => exact Nat.le_succ _
  | quad hparts hlast =>
    rw [List.length_append, List.length_singleton]

/-- An address has a colon, and no unit but digits, colons and dots. -/
theorem IsIpv6.mem {text : Units} (h : IsIpv6 text) {unit : ℕ} (hunit : unit ∈ text) :
    isDigitIn 16 unit = true ∨ unit = colon ∨ unit = dot := by
  have hjoined : ∀ {parts : List Units}, (∀ part ∈ parts, IsGroup part ∨ IsIpv4 part) →
      unit ∈ [colon].intercalate parts → isDigitIn 16 unit = true ∨ unit = colon ∨ unit = dot := by
    intro parts hparts hmem
    rcases mem_intercalate hmem with hcolon | ⟨part, hpart, hin⟩
    · exact Or.inr (Or.inl (List.mem_singleton.mp hcolon))
    · rcases hparts part hpart with hgroup | hquad
      · exact Or.inl (hgroup.digits unit hin)
      · rcases hquad.mem hin with hdigit | hdot
        · exact Or.inl (isDigitIn_mono (by decide) hdigit)
        · exact Or.inr (Or.inr hdot)
  cases h with
  | full htail => exact hjoined (fun part hpart => htail.mem hpart) hunit
  | compressed hleft htail hwidth =>
    simp only [List.mem_append, List.mem_cons] at hunit
    rcases hunit with hmem | hcolon | hcolon | hmem
    · exact hjoined (fun part hpart => Or.inl (hleft part hpart)) hmem
    · exact Or.inr (Or.inl hcolon)
    · exact Or.inr (Or.inl hcolon)
    · exact hjoined (fun part hpart => htail.mem hpart) hmem

theorem IsIpv6.colon_mem {text : Units} (h : IsIpv6 text) : colon ∈ text := by
  cases h with
  | @full parts htail =>
    have hlength : 2 ≤ parts.length := by
      have := htail.width_le
      omega
    match parts, hlength with
    | first :: second :: rest, _ =>
      rw [List.intercalate_cons_cons]
      exact List.mem_append_left _ (List.mem_append_right _ (List.mem_singleton_self _))
  | compressed hleft htail hwidth => exact List.mem_append_right _ (List.mem_cons_self ..)

theorem openBracket_not_mem_of_isIpv6 {text : Units} (h : IsIpv6 text) : openBracket ∉ text :=
  fun hmem => by rcases h.mem hmem with hunit | hunit | hunit <;> exact absurd hunit (by decide)

theorem openBracket_not_mem_of_isIpv4 {text : Units} (h : IsIpv4 text) : openBracket ∉ text :=
  fun hmem => by rcases h.mem hmem with hunit | hunit <;> exact absurd hunit (by decide)

/-- Addresses by what is left of them without brackets. -/
theorem isIpAddress_iff (text : Units) : IsIpAddress text ↔
    IsIpv4 text ∨ (withoutBrackets text ≠ text ∧ IsIpv4 (withoutBrackets text)) ∨
      IsIpv6 (withoutBrackets text) := by
  constructor
  · rintro (hquad | hgroups | ⟨inner, rfl, hinner⟩)
    · exact Or.inl hquad
    · rw [withoutBrackets_eq_self (openBracket_not_mem_of_isIpv6 hgroups)]
      exact Or.inr (Or.inr hgroups)
    · rw [withoutBrackets_bracketed]
      refine Or.inr (hinner.imp (fun hquad => ⟨fun heq => ?_, hquad⟩) id)
      have hlength := congrArg List.length heq
      rw [List.length_append, List.length_cons, List.length_singleton] at hlength
      omega
  · rintro (hquad | ⟨hne, hquad⟩ | hgroups)
    · exact Or.inl hquad
    · exact Or.inr (Or.inr ⟨_, eq_bracketed hne, Or.inl hquad⟩)
    · by_cases hne : withoutBrackets text = text
      · rw [hne] at hgroups
        exact Or.inr (Or.inl hgroups)
      · exact Or.inr (Or.inr ⟨_, eq_bracketed hne, Or.inr hgroups⟩)

theorem isSome_normalizeIpAddress {text : Units} (htrim : CodeUnits.trim text = text) :
    (normalizeIpAddress (some text)).isSome = true ↔
      IsIpv4 text ∨ Passes (withoutBrackets text) := by
  rw [← isValidIpv4_iff, ← isValidIpv6_iff, ← Bool.or_eq_true]
  change _ ↔ isValidIpAddress text = true
  rw [normalizeIpAddress, Option.map_some, htrim]
  dsimp only
  by_cases hvalid : isValidIpAddress text = true
  · have hne : text ≠ [] := fun heq => by
      rw [heq] at hvalid
      exact absurd hvalid (by decide)
    rw [if_neg (by simp [hne, hvalid])]
    exact iff_of_true rfl hvalid
  · rw [if_pos (Or.inr (Bool.eq_false_iff.mpr hvalid))]
    exact iff_of_false Bool.false_ne_true hvalid

/-- What is read as an address is not the common key. -/
theorem clientIp_ne_unknown {text : Units} (htrim : CodeUnits.trim text = text)
    (h : (normalizeIpAddress (some text)).isSome = true) :
    clientIp (some text) ≠ units "unknown-ip" := by
  have hread : clientIp (some text) = withoutBrackets text := by
    obtain ⟨address, haddress⟩ := Option.isSome_iff_exists.mp h
    rw [clientIp, haddress, Option.getD_some]
    rw [normalizeIpAddress, Option.map_some, htrim] at haddress
    dsimp only at haddress
    split_ifs at haddress
    exact (Option.some.inj haddress).symm
  rw [hread]
  intro heq
  have hmem : 117 ∈ withoutBrackets text := by
    rw [heq]
    decide
  rcases (isSome_normalizeIpAddress htrim).mp h with hquad | hpasses
  · rw [withoutBrackets_eq_self (openBracket_not_mem_of_isIpv4 hquad)] at hmem
    rcases hquad.mem hmem with hunit | hunit <;> exact absurd hunit (by decide)
  · rcases hpasses.mem hmem with hunit | hunit <;> exact absurd hunit (by decide)

/-- Which addresses pass. -/
theorem passes_iff_of_isIpv6 {text : Units} (h : IsIpv6 text) :
    Passes text ↔
      ¬(dot ∈ text ∨ text = [colon, colon] ∨ 8 < (text.splitOn colon).length) := by
  rw [not_or, not_or, not_lt]
  constructor
  · intro hpasses
    refine ⟨fun hdot => ?_, fun heq => ?_, hpasses.le⟩
    · rcases hpasses.mem hdot with hunit | hunit <;> exact absurd hunit (by decide)
    · obtain ⟨part, hpart, hne⟩ := hpasses.some
      rw [heq] at hpart
      have hnil : ∀ part ∈ [colon, colon].splitOn colon, part = [] := by decide
      exact hne (hnil part hpart)
  · rintro ⟨hdot, hdigit, hle⟩
    exact (h.hexPieces hdot).passes hdigit hle

/-- Which texts that pass are addresses. -/
theorem isIpv6_iff_of_passes {text : Units} (h : Passes text) :
    IsIpv6 text ↔ ¬Misshapen (text.splitOn colon) := by
  constructor
  · intro hgroups
    refine (hgroups.hexPieces fun hdot => ?_).not_misshapen
    rcases h.mem hdot with hunit | hunit <;> exact absurd hunit (by decide)
  · exact fun hshape => (h.hexPieces hshape).isIpv6

theorem normalizeIpAddress_exact_iff {text : Units} (htrim : CodeUnits.trim text = text) :
    ((normalizeIpAddress (some text)).isSome = true ↔ IsIpAddress text) ↔
      ¬Overlooked text ∧ ¬Overread text := by
  rw [isSome_normalizeIpAddress htrim, isIpAddress_iff]
  unfold Overlooked Overread
  dsimp only
  have hnoColon : ∀ {inner : Units}, IsIpv4 inner → ¬Passes inner ∧ ¬IsIpv6 inner := fun h =>
    ⟨fun hpasses => h.colon_not_mem ((two_le_length_splitOn_iff _).mp hpasses.two_le),
      fun hgroups => h.colon_not_mem hgroups.colon_mem⟩
  by_cases hquad : IsIpv4 text
  · have hnot := hnoColon hquad
    rw [withoutBrackets_eq_self (openBracket_not_mem_of_isIpv4 hquad)]
    refine iff_of_true (iff_of_true (Or.inl hquad) (Or.inl hquad)) ⟨?_, fun h => hnot.1 h.1⟩
    rintro (⟨hne, -⟩ | ⟨hgroups, -⟩)
    · exact hne rfl
    · exact hnot.2 hgroups
  by_cases hinner : withoutBrackets text ≠ text ∧ IsIpv4 (withoutBrackets text)
  · refine iff_of_false (fun h => ?_) fun h => h.1 (Or.inl hinner)
    rcases h.mpr (Or.inr (Or.inl hinner)) with hread | hread
    · exact hquad hread
    · exact (hnoColon hinner.2).1 hread
  rw [or_iff_right hquad, or_iff_right hquad, or_iff_right hinner, or_iff_right hinner]
  constructor
  · intro h
    exact ⟨fun ⟨hgroups, hkind⟩ => (passes_iff_of_isIpv6 hgroups).mp (h.mpr hgroups) hkind,
      fun ⟨hpasses, hshape⟩ => (isIpv6_iff_of_passes hpasses).mp (h.mp hpasses) hshape⟩
  · rintro ⟨hover, hread⟩
    exact ⟨fun hpasses => (isIpv6_iff_of_passes hpasses).mpr fun hshape => hread ⟨hpasses, hshape⟩,
      fun hgroups => (passes_iff_of_isIpv6 hgroups).mpr fun hkind => hover ⟨hgroups, hkind⟩⟩

/-- The check is exact on the texts that are neither overlooked nor overread. -/
theorem acceptsExactly_iff {text : Units} (htrim : CodeUnits.trim text = text) :
    AcceptsExactly text ↔ ¬Overlooked text ∧ ¬Overread text := by
  rw [← normalizeIpAddress_exact_iff htrim]
  exact ⟨fun h => h.defined_iff,
    fun h => ⟨h, fun haddress => clientIp_ne_unknown htrim (h.mpr haddress)⟩⟩

/-- A compressed address is read, and keeps its own key. -/
theorem acceptsExactly_compressed : AcceptsExactly (units "2001:db8::1") := by
  refine (acceptsExactly_iff (by decide)).mpr ⟨?_, fun h => absurd h.2 (by decide)⟩
  rintro (⟨hne, -⟩ | ⟨-, hkind⟩)
  · exact hne (by decide)
  · exact absurd hkind (by decide)

/-- The address with only zeros is not read, and three groups are. -/
theorem zeros_unread_and_groups_read :
    ¬AcceptsExactly (units "::") ∧ ¬AcceptsExactly (units "1:2:3") := by
  constructor
  · intro h
    have hnone : ∀ part ∈ ([] : List Units), IsGroup part := fun part hpart =>
      absurd hpart List.not_mem_nil
    have hgroups : IsIpv6 (units "::") :=
      IsIpv6.compressed hnone (IsTail.groups hnone) (by decide)
    exact absurd (h.defined_iff.mpr (Or.inr (Or.inl hgroups))) (by decide)
  · intro h
    have hread : (normalizeIpAddress (some (units "1:2:3"))).isSome = true := by decide +kernel
    have hself : withoutBrackets (units "1:2:3") = units "1:2:3" := by decide
    rcases (isIpAddress_iff _).mp (h.defined_iff.mp hread) with hquad | ⟨hne, -⟩ | hgroups
    · exact hquad.colon_not_mem (by decide)
    · exact hne hself
    · rw [hself] at hgroups
      exact (hgroups.hexPieces (by decide)).not_misshapen (by decide)

end Exactness

end Gittensory.ClientAddresses
