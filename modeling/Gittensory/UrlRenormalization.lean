import Gittensory.CanonicalUrl

/-!
What a second normalization does to a normalized URL. The normalized text is read as a record
again, its parts in small letters. Its host, its path and the order of its entries are then
treated once more, and the text stays the same exactly when none of the three changes: the
host has no second `www.`, the path no second default document, and the entries are in order
also by their keys in small letters.
-/
namespace Gittensory.UrlRenormalization

open CodeUnits FormUrlencoded PublicUrl CanonicalUrl
open DuplicateSignals (toLowerCase slash)

variable {platform : Platform}

/-! ## Two normalizations -/

variable (platform) in
/-- Nothing is left for a second normalization to take away: behind the host there is no other
host that starts with `www.`, the path ends in no other default document, and the entries are
in the order of their keys also in small letters. -/
structure SettlesAtOnce (url : UrlRecord) : Prop where
  host : ∀ rest, strippedHost platform url.hostname = units "www." ++ rest →
    platform.parseHost rest = none
  path : ¬EndsInIndex (trimmedPath url.pathname)
  order : ((sortedParams platform url).map lowerEntry).Pairwise (KeyLe platform)

theorem stripWww_of_lowered {hostname : Units} (h : toLowerCase hostname = hostname) :
    stripWww hostname = hostname ∧ (∀ rest, hostname ≠ units "www." ++ rest) ∨
      hostname = units "www." ++ stripWww hostname := by
  unfold stripWww
  have htake : toLowerCase (hostname.take 4) = hostname.take 4 :=
    toLowerCase_of_subset h fun unit hunit => List.mem_of_mem_take hunit
  rw [htake]
  split_ifs with hwww
  · right
    rw [← hwww, List.take_append_drop]
  · left
    refine ⟨rfl, ?_⟩
    rintro rest rfl
    exact hwww rfl

/-- A canonical host is stripped to itself, unless its rest is a host too. -/
theorem strippedHost_eq_self_iff (hurl : Standard platform) {url : UrlRecord}
    (h : IsUrl platform url) :
    strippedHost platform url.hostname = url.hostname ↔
      ∀ rest, url.hostname = units "www." ++ rest → platform.parseHost rest = none := by
  rcases stripWww_of_lowered (hurl.hostname_lower h) with ⟨hsame, hnone⟩ | hwww
  · rw [strippedHost, hsame, hurl.hostname_parsed h]
    exact ⟨fun _ rest hrest => absurd hrest (hnone rest), fun _ => rfl⟩
  · constructor
    · intro hfixed rest hrest
      have hrest' : stripWww url.hostname = rest :=
        List.append_cancel_left (hwww.symm.trans hrest)
      match hparse : platform.parseHost rest with
      | none => rfl
      | some host =>
          rw [strippedHost, hrest', hparse, Option.getD_some] at hfixed
          exact absurd (hfixed.trans hrest) (hurl.rest_ne hparse)
    · intro hnone
      rw [strippedHost, hnone _ hwww]
      rfl

theorem lower_trimmedPath_iff {pathname : Units} (hascii : ∀ unit ∈ trimmedPath pathname, unit < 128) :
    toLowerCase (trimmedPath (toLowerCase (trimmedPath pathname))) =
        toLowerCase (trimmedPath pathname) ↔
      ¬EndsInIndex (trimmedPath pathname) := by
  have hlower := toLowerCase_eq_lowerAscii hascii
  constructor
  · intro h hindex
    rw [← endsInIndex_lowerAscii, ← hlower] at hindex
    obtain ⟨hlength, hsubset⟩ := trimmedPath_of_index hindex
    rw [toLowerCase_of_subset (toLowerCase_toLowerCase _) hsubset] at h
    rw [h] at hlength
    exact absurd hlength (lt_irrefl _)
  · intro hindex
    have hnot : ¬EndsInIndex (toLowerCase (trimmedPath pathname)) := by
      rw [hlower, endsInIndex_lowerAscii]
      exact hindex
    rw [trimmedPath_eq_self hnot, toLowerCase_toLowerCase]
    rcases getLast?_trimmedPath pathname with hroot | ⟨hne, hlast⟩
    · left
      rw [hroot]
      rfl
    · right
      rw [hlower, ne_eq, ne_eq, getLast?_lowerAscii]
      exact ⟨fun hnil => hne (List.map_eq_nil_iff.mp hnil), hlast⟩

theorem insertionSort_eq_self_iff (hurl : Standard platform) (params : List (Units × Units)) :
    params.insertionSort (KeyLe platform) = params ↔ params.Pairwise (KeyLe platform) := by
  have : Std.Total (KeyLe platform) := ⟨hurl.le_total⟩
  have : IsTrans (Units × Units) (KeyLe platform) := ⟨fun _ _ _ => hurl.le_trans⟩
  constructor
  · intro h
    rw [← h]
    exact List.pairwise_insertionSort (KeyLe platform) params
  · exact List.Pairwise.insertionSort_eq

theorem toLowerCase_protocol {protocol : Units} (h : protocol ∈ PUBLIC_PROTOCOLS) :
    toLowerCase protocol = protocol := by
  have hall : ∀ known ∈ PUBLIC_PROTOCOLS, toLowerCase known = known := by decide +kernel
  exact hall protocol h

theorem keptPort_lower_canonical (hurl : Standard platform) {url : UrlRecord}
    (h : IsUrl platform url) :
    keptPort (lowerRecord (canonical platform url)) = keptPort url := by
  have hprotocol := toLowerCase_protocol h.public_protocol
  rw [canonical_eq hurl h]
  simp only [keptPort, lowerRecord, hprotocol]
  split_ifs <;> rfl

theorem hostname_lower_canonical (hurl : Standard platform) {url : UrlRecord}
    (h : IsUrl platform url) :
    (lowerRecord (canonical platform url)).hostname = strippedHost platform url.hostname := by
  have hlower := hurl.hostname_lower (isUrl_canonical hurl h)
  rw [canonical_eq hurl h] at hlower ⊢
  exact hlower

theorem pathname_lower_canonical (hurl : Standard platform) {url : UrlRecord}
    (h : IsUrl platform url) :
    (lowerRecord (canonical platform url)).pathname = toLowerCase (trimmedPath url.pathname) := by
  rw [canonical_eq hurl h]
  rfl

theorem query_lower_canonical (hurl : Standard platform) {url : UrlRecord}
    (h : IsUrl platform url) :
    (lowerRecord (canonical platform url)).query =
      (writtenQuery platform.codec (sortedParams platform url)).map toLowerCase := by
  rw [canonical_eq hurl h]
  rfl

theorem host_settles_iff (hurl : Standard platform) {url : UrlRecord} (h : IsUrl platform url) :
    (lowerRecord (canonical platform (lowerRecord (canonical platform url)))).hostname =
        (lowerRecord (canonical platform url)).hostname ↔
      ∀ rest, strippedHost platform url.hostname = units "www." ++ rest →
        platform.parseHost rest = none := by
  have hlower := hurl.lower (isUrl_canonical hurl h)
  rw [hostname_lower_canonical hurl hlower, strippedHost_eq_self_iff hurl hlower,
    hostname_lower_canonical hurl h]

theorem path_settles_iff (hurl : Standard platform) {url : UrlRecord} (h : IsUrl platform url) :
    (lowerRecord (canonical platform (lowerRecord (canonical platform url)))).pathname =
        (lowerRecord (canonical platform url)).pathname ↔
      ¬EndsInIndex (trimmedPath url.pathname) := by
  have hascii : ∀ unit ∈ trimmedPath url.pathname, unit < 128 := by
    intro unit hunit
    have hmem : unit ∈ (canonical platform url).toText := by
      rw [canonical_eq hurl h]
      simp [UrlRecord.toText, hunit]
    have := hurl.visible (isUrl_canonical hurl h) unit hmem
    omega
  rw [pathname_lower_canonical hurl (hurl.lower (isUrl_canonical hurl h)),
    pathname_lower_canonical hurl h]
  exact lower_trimmedPath_iff hascii

theorem query_settles_iff (hurl : Standard platform) {url : UrlRecord} (h : IsUrl platform url) :
    (lowerRecord (canonical platform (lowerRecord (canonical platform url)))).query =
        (lowerRecord (canonical platform url)).query ↔
      ((sortedParams platform url).map lowerEntry).Pairwise (KeyLe platform) := by
  have hlower := hurl.lower (isUrl_canonical hurl h)
  have hfixed : ∀ entry ∈ (sortedParams platform url).map lowerEntry, lowerEntry entry = entry := by
    intro entry hentry
    obtain ⟨original, -, rfl⟩ := List.mem_map.mp hentry
    exact lowerEntry_lowerEntry original
  have hsorted : (sortedParams platform (lowerRecord (canonical platform url))).map lowerEntry =
      ((sortedParams platform url).map lowerEntry).insertionSort (KeyLe platform) := by
    rw [sortedParams_lower_canonical hurl h]
    conv_rhs => rw [← List.map_id (List.insertionSort _ _)]
    exact List.map_congr_left fun entry hentry =>
      hfixed entry ((List.mem_insertionSort _).mp hentry)
  rw [query_lower_canonical hurl hlower, query_lower_canonical hurl h,
    lower_writtenQuery_inj hurl (fun _ => wellFormed_of_mem_sortedParams hurl)
      (fun _ => wellFormed_of_mem_sortedParams hurl), hsorted]
  exact insertionSort_eq_self_iff hurl _

/-- A second normalization keeps the record exactly when it was settled by the first. -/
theorem renormalized_eq_iff (hurl : Standard platform) {url : UrlRecord} (h : IsUrl platform url) :
    lowerRecord (canonical platform (lowerRecord (canonical platform url))) =
        lowerRecord (canonical platform url) ↔ SettlesAtOnce platform url := by
  have hlower := hurl.lower (isUrl_canonical hurl h)
  constructor
  · intro hsame
    exact {
      host := (host_settles_iff hurl h).mp (by rw [hsame])
      path := (path_settles_iff hurl h).mp (by rw [hsame])
      order := (query_settles_iff hurl h).mp (by rw [hsame]) }
  · intro hsettles
    apply UrlRecord.ext
    · rw [canonical_eq hurl hlower]
      exact toLowerCase_protocol hlower.public_protocol
    · rw [canonical_eq hurl hlower, canonical_eq hurl h]
      exact toLowerCase_toLowerCase _
    · exact (host_settles_iff hurl h).mpr hsettles.host
    · have hport := keptPort_lower_canonical hurl h
      rw [canonical_eq hurl hlower]
      exact hport.trans (by rw [canonical_eq hurl h]; rfl)
    · exact (path_settles_iff hurl h).mpr hsettles.path
    · exact (query_settles_iff hurl h).mpr hsettles.order
    · rw [canonical_eq hurl hlower, canonical_eq hurl h]
      rfl

theorem trim_toText (hurl : Standard platform) {url : UrlRecord} (h : IsUrl platform url) :
    trim url.toText = url.toText := by
  have hspace : ∀ unit ∈ url.toText, isSpace unit = false := by
    have hvisible : ∀ unit < 127, 33 ≤ unit → isSpace unit = false := by decide +kernel
    intro unit hunit
    have hbounds := hurl.visible h unit hunit
    exact hvisible unit (by omega) hbounds.1
  exact trim_eq_self_iff.mpr ⟨fun unit hunit => hspace unit (List.mem_of_head? hunit),
    fun unit hunit => hspace unit (List.mem_of_getLast? hunit)⟩

theorem toText_inj {left right : UrlRecord} (hleft : IsUrl platform left)
    (hright : IsUrl platform right) (h : left.toText = right.toText) : left = right := by
  have hparsed := hleft.parsed
  rw [h, hright.parsed] at hparsed
  exact (Option.some.inj hparsed).symm

theorem normalizePublicUrl_toText {url : UrlRecord} (h : IsUrl platform url)
    (htrim : trim url.toText = url.toText) :
    normalizePublicUrl platform (.string url.toText) =
      some (lowerRecord (canonical platform url)).toText := by
  rw [normalizePublicUrl, htrim, h.parsed, ← toLowerCase_toText]
  exact if_neg (not_not.mpr h.public_protocol)

/-- The record behind a result. -/
theorem exists_record (hurl : Standard platform) {text key : Units}
    (h : normalizePublicUrl platform (.string text) = some key) :
    ∃ url, platform.parse (trim text) = some url ∧ IsUrl platform url ∧
      key = (lowerRecord (canonical platform url)).toText := by
  rw [normalizePublicUrl] at h
  split at h
  · cases h
  · rename_i url hparse
    split_ifs at h with hprotocol
    exact ⟨url, hparse, hurl.reads_back hparse hprotocol,
      by rw [← toLowerCase_toText, Option.some.inj h]⟩

/-- Normalizing a normalized URL changes nothing, if and only if it was settled at once. -/
theorem normalizePublicUrl_idempotent_iff (hurl : Standard platform) {text key : Units}
    (h : normalizePublicUrl platform (.string text) = some key) :
    normalizePublicUrl platform (.string key) = some key ↔
      ∀ url, platform.parse (trim text) = some url → SettlesAtOnce platform url := by
  obtain ⟨url, hparse, hpublic, rfl⟩ := exists_record hurl h
  have hlower := hurl.lower (isUrl_canonical hurl hpublic)
  have htwice := hurl.lower (isUrl_canonical hurl hlower)
  rw [normalizePublicUrl_toText hlower (trim_toText hurl hlower), Option.some.injEq]
  constructor
  · intro hsame other hother
    rw [hparse, Option.some.injEq] at hother
    rw [← hother]
    exact (renormalized_eq_iff hurl hpublic).mp (toText_inj htwice hlower hsame)
  · intro hsettles
    rw [(renormalized_eq_iff hurl hpublic).mpr (hsettles url hparse)]

/-! ## Plain URLs -/

/-- Small letters, digits, dots and dashes. -/
def isHostUnit (unit : ℕ) : Bool :=
  (97 ≤ unit && unit ≤ 122) || (48 ≤ unit && unit ≤ 57) || unit = 46 || unit = 45

/-- Letters, digits, dots, dashes, underscores and slashes. -/
def isPathUnit (unit : ℕ) : Bool :=
  isHostUnit unit || (65 ≤ unit && unit ≤ 90) || unit = 95 || unit = slash

def questionMark : ℕ := 63

/-- A public URL without credentials, port and fragment, in units that need no encoding. -/
structure Plain (url : UrlRecord) : Prop where
  public_protocol : url.protocol ∈ PUBLIC_PROTOCOLS
  credentials : url.credentials = []
  hostname_ne_nil : url.hostname ≠ []
  hostname : ∀ unit ∈ url.hostname, isHostUnit unit = true
  port : url.port = none
  pathname_head : url.pathname.head? = some slash
  pathname : ∀ unit ∈ url.pathname, isPathUnit unit = true
  query : ∀ text ∈ url.query, ∀ unit ∈ text, isQueryUnit unit = true
  hash : url.hash = none

instance (url : UrlRecord) : Decidable (Plain url) :=
  decidable_of_iff (url.protocol ∈ PUBLIC_PROTOCOLS ∧ url.credentials = [] ∧ url.hostname ≠ [] ∧
      (∀ unit ∈ url.hostname, isHostUnit unit = true) ∧ url.port = none ∧
      url.pathname.head? = some slash ∧ (∀ unit ∈ url.pathname, isPathUnit unit = true) ∧
      (∀ text ∈ url.query, ∀ unit ∈ text, isQueryUnit unit = true) ∧ url.hash = none)
    ⟨fun ⟨h1, h2, h3, h4, h5, h6, h7, h8, h9⟩ => ⟨h1, h2, h3, h4, h5, h6, h7, h8, h9⟩,
      fun h => ⟨h.public_protocol, h.credentials, h.hostname_ne_nil, h.hostname, h.port,
        h.pathname_head, h.pathname, h.query, h.hash⟩⟩

/-- The parts of `scheme://host/path?query`. -/
def plainParts (raw : Units) : UrlRecord :=
  let protocol := raw.takeWhile fun unit => unit ≠ slash
  let rest := (raw.drop protocol.length).drop 2
  let hostname := rest.takeWhile fun unit => unit ≠ slash
  let tail := rest.drop hostname.length
  let pathname := tail.takeWhile fun unit => unit ≠ questionMark
  { protocol := protocol
    credentials := []
    hostname := hostname
    port := none
    pathname := pathname
    query := if pathname.length < tail.length then some (tail.drop (pathname.length + 1)) else none
    hash := none }

/-- A text that is the text of its plain parts. -/
def parsePlain (raw : Units) : Option UrlRecord :=
  if Plain (plainParts raw) ∧ (plainParts raw).toText = raw then some (plainParts raw) else none

theorem parsePlain_eq_some {raw : Units} {url : UrlRecord} (h : parsePlain raw = some url) :
    Plain url ∧ url.toText = raw := by
  unfold parsePlain at h
  split_ifs at h with hplain
  rw [← Option.some.inj h]
  exact hplain

/-- A run is read up to the first unit that stops it. -/
theorem takeWhile_append_stop {p : ℕ → Bool} {run rest : Units} (hrun : ∀ unit ∈ run, p unit = true)
    (hrest : ∀ unit, rest.head? = some unit → p unit = false) :
    (run ++ rest).takeWhile p = run := by
  rw [List.takeWhile_append_of_pos hrun]
  cases rest with
  | nil => exact List.append_nil _
  | cons unit rest =>
    rw [List.takeWhile_cons_of_neg (by simp [hrest unit rfl]), List.append_nil]

theorem Plain.toText_eq {url : UrlRecord} (h : Plain url) :
    url.toText = url.protocol ++ slash :: slash ::
      (url.hostname ++ (url.pathname ++ marked questionMark url.query)) := by
  simp [UrlRecord.toText, h.credentials, h.port, h.hash, portText, marked, questionMark,
    show units "//" = [slash, slash] from rfl]

theorem plainParts_toText {url : UrlRecord} (h : Plain url) : plainParts url.toText = url := by
  have hprotocol : ∀ unit ∈ url.protocol, decide (unit ≠ slash) = true := by
    have hall : ∀ known ∈ PUBLIC_PROTOCOLS, ∀ unit ∈ known, decide (unit ≠ slash) = true := by
      decide +kernel
    exact hall _ h.public_protocol
  have hhost : ∀ unit ∈ url.hostname, decide (unit ≠ slash) = true := by
    intro unit hunit
    have hletter := h.hostname unit hunit
    apply decide_eq_true
    rintro rfl
    exact absurd hletter (by decide)
  have hpath : ∀ unit ∈ url.pathname, decide (unit ≠ questionMark) = true := by
    intro unit hunit
    have hletter := h.pathname unit hunit
    apply decide_eq_true
    rintro rfl
    exact absurd hletter (by decide)
  have htail : ∀ unit, (url.pathname ++ marked questionMark url.query).head? = some unit →
      decide (unit ≠ slash) = false := by
    intro unit hunit
    rw [List.head?_append, h.pathname_head, Option.some_or, Option.some.injEq] at hunit
    simp [← hunit]
  have hmark : ∀ unit, (marked questionMark url.query).head? = some unit →
      decide (unit ≠ questionMark) = false := by
    intro unit hunit
    cases hquery : url.query with
    | none =>
      rw [hquery] at hunit
      cases hunit
    | some query =>
      rw [hquery, marked, List.head?_cons, Option.some.injEq] at hunit
      simp [← hunit]
  have hscheme : ∀ unit, (slash :: slash ::
      (url.hostname ++ (url.pathname ++ marked questionMark url.query))).head? = some unit →
      decide (unit ≠ slash) = false := by
    intro unit hunit
    rw [List.head?_cons, Option.some.injEq] at hunit
    simp [← hunit]
  rw [h.toText_eq, plainParts]
  simp only [takeWhile_append_stop hprotocol hscheme, List.drop_left, List.drop_succ_cons,
    List.drop_zero, takeWhile_append_stop hhost htail, takeWhile_append_stop hpath hmark]
  apply UrlRecord.ext
  · rfl
  · exact h.credentials.symm
  · rfl
  · exact h.port.symm
  · rfl
  · cases hquery : url.query with
    | none => simp [marked]
    | some query => simp [marked]
  · exact h.hash.symm

theorem parsePlain_toText {url : UrlRecord} (h : Plain url) :
    parsePlain url.toText = some url := by
  rw [parsePlain, plainParts_toText h, if_pos ⟨h, rfl⟩]

/-- On ASCII text UTF-8 is the identity; other units are left out here. -/
def asciiCodec : Codec where
  encode text := text.filter fun unit => unit < 128
  decode bytes := bytes.filter fun byte => byte < 128

theorem filter_lowerAscii (text : Units) :
    (lowerAscii text).filter (fun unit => decide (unit < 128)) =
      lowerAscii (text.filter fun unit => decide (unit < 128)) := by
  rw [lowerAscii, List.filter_map]
  congr 1
  apply List.filter_congr
  intro unit _
  rw [Function.comp_apply, decide_eq_decide, lowerLetter]
  split_ifs <;> omega

theorem lawful_asciiCodec : asciiCodec.Lawful where
  encode_lt text byte hbyte := by
    have := of_decide_eq_true (List.mem_filter.mp hbyte).2
    omega
  wellFormed_decode bytes := by
    simp [Codec.WellFormed, asciiCodec, List.filter_filter]
  encode_lower := filter_lowerAscii
  decode_lower := filter_lowerAscii

/-- A platform that knows plain URLs only. -/
def plainPlatform : Platform where
  parse := parsePlain
  parseHost host := if host ≠ [] ∧ ∀ unit ∈ host, isHostUnit unit = true then some host else none
  parsePath path := if path.head? = some slash ∧ ∀ unit ∈ path, isPathUnit unit = true then path
    else [slash]
  codec := asciiCodec
  localeCompare left right := if left = right then .eq else if left < right then .lt else .gt

theorem isUrl_plainPlatform {url : UrlRecord} : IsUrl plainPlatform url ↔ Plain url := by
  constructor
  · intro h
    exact (parsePlain_eq_some h.parsed).1
  · intro h
    exact ⟨parsePlain_toText h, h.public_protocol⟩

theorem Plain.visible {url : UrlRecord} (h : Plain url) :
    ∀ unit ∈ url.toText, 33 ≤ unit ∧ unit ≤ 126 := by
  have hprotocol : ∀ known ∈ PUBLIC_PROTOCOLS, ∀ unit ∈ known, 33 ≤ unit ∧ unit ≤ 126 := by
    decide +kernel
  have hhost : ∀ unit, isHostUnit unit = true → 33 ≤ unit ∧ unit ≤ 126 := by
    intro unit hunit
    simp only [isHostUnit, Bool.or_eq_true, Bool.and_eq_true, decide_eq_true_eq] at hunit
    omega
  have hpath : ∀ unit, isPathUnit unit = true → 33 ≤ unit ∧ unit ≤ 126 := by
    intro unit hunit
    simp only [isPathUnit, isHostUnit, Bool.or_eq_true, Bool.and_eq_true, decide_eq_true_eq] at hunit
    unfold slash at hunit
    omega
  have hquery : ∀ unit, isQueryUnit unit = true → 33 ≤ unit ∧ unit ≤ 126 := by
    intro unit hunit
    simp only [isQueryUnit, isEncodedUnit, isPlain, Bool.or_eq_true, Bool.and_eq_true,
      decide_eq_true_eq] at hunit
    unfold plus percent ampersand equalSign at hunit
    omega
  intro unit hunit
  rw [h.toText_eq] at hunit
  simp only [List.mem_append, List.mem_cons] at hunit
  rcases hunit with hunit | rfl | rfl | hunit | hunit | hunit
  · exact hprotocol _ h.public_protocol unit hunit
  · decide
  · decide
  · exact hhost unit (h.hostname unit hunit)
  · exact hpath unit (h.pathname unit hunit)
  · cases htext : url.query with
    | none =>
      rw [htext] at hunit
      cases hunit
    | some text =>
      rw [htext] at hunit
      rcases List.mem_cons.mp hunit with rfl | hunit
      · decide
      · exact hquery unit (h.query text htext unit hunit)

theorem isPathUnit_lowerLetter {unit : ℕ} (h : isPathUnit unit = true) :
    isPathUnit (lowerLetter unit) = true ∧ unit < 128 := by
  simp only [isPathUnit, isHostUnit, Bool.or_eq_true, Bool.and_eq_true, decide_eq_true_eq] at h ⊢
  unfold lowerLetter slash at *
  split_ifs <;> omega

theorem isQueryUnit_lowerLetter {unit : ℕ} (h : isQueryUnit unit = true) :
    isQueryUnit (lowerLetter unit) = true ∧ unit < 128 := by
  simp only [isQueryUnit, isEncodedUnit, isPlain, Bool.or_eq_true, Bool.and_eq_true,
    decide_eq_true_eq] at h ⊢
  unfold plus percent ampersand equalSign at *
  unfold lowerLetter
  split_ifs <;> omega

theorem toLowerCase_hostname {hostname : Units} (h : ∀ unit ∈ hostname, isHostUnit unit = true) :
    toLowerCase hostname = hostname := by
  apply PrivateAddresses.toLowerCase_eq_self
  intro unit hunit
  have hletter := h unit hunit
  simp only [isHostUnit, Bool.or_eq_true, Bool.and_eq_true, decide_eq_true_eq] at hletter
  omega

/-- Units of a text in small letters, when small letters keep a property of units. -/
theorem forall_mem_toLowerCase {allowed : ℕ → Bool} {text : Units}
    (hlower : ∀ {unit}, allowed unit = true → allowed (lowerLetter unit) = true ∧ unit < 128)
    (h : ∀ unit ∈ text, allowed unit = true) : ∀ unit ∈ toLowerCase text, allowed unit = true := by
  intro unit hunit
  rw [toLowerCase_eq_lowerAscii fun other hother => (hlower (h other hother)).2] at hunit
  obtain ⟨original, horiginal, rfl⟩ := List.mem_map.mp hunit
  exact (hlower (h original horiginal)).1

theorem Plain.lower {url : UrlRecord} (h : Plain url) : Plain (lowerRecord url) where
  public_protocol := by
    rw [lowerRecord, toLowerCase_protocol h.public_protocol]
    exact h.public_protocol
  credentials := by
    rw [lowerRecord, h.credentials]
    rfl
  hostname_ne_nil := by
    rw [lowerRecord, toLowerCase_hostname h.hostname]
    exact h.hostname_ne_nil
  hostname := by
    rw [lowerRecord, toLowerCase_hostname h.hostname]
    exact h.hostname
  port := h.port
  pathname_head := by
    have hascii : ∀ unit ∈ url.pathname, unit < 128 :=
      fun unit hunit => (isPathUnit_lowerLetter (h.pathname unit hunit)).2
    rw [lowerRecord, toLowerCase_eq_lowerAscii hascii, lowerAscii, List.head?_map, h.pathname_head]
    rfl
  pathname := forall_mem_toLowerCase isPathUnit_lowerLetter h.pathname
  query := by
    intro text htext
    obtain ⟨original, horiginal, rfl⟩ := Option.mem_map.mp htext
    exact forall_mem_toLowerCase isQueryUnit_lowerLetter (h.query original horiginal)
  hash := by
    rw [lowerRecord, h.hash]
    rfl

theorem parseHost_eq_some {text host : Units} (h : plainPlatform.parseHost text = some host) :
    host = text ∧ text ≠ [] ∧ ∀ unit ∈ text, isHostUnit unit = true := by
  simp only [plainPlatform] at h
  split_ifs at h with hplain
  exact ⟨(Option.some.inj h).symm, hplain⟩

theorem parsePath_of_plain {path : Units} (hhead : path.head? = some slash)
    (hunits : ∀ unit ∈ path, isPathUnit unit = true) : plainPlatform.parsePath path = path :=
  if_pos ⟨hhead, hunits⟩

theorem parsePath_is_plain (text : Units) :
    (plainPlatform.parsePath text).head? = some slash ∧
      ∀ unit ∈ plainPlatform.parsePath text, isPathUnit unit = true := by
  simp only [plainPlatform]
  split_ifs with hplain
  · exact hplain
  · refine ⟨rfl, ?_⟩
    intro unit hunit
    rw [List.mem_singleton.mp hunit]
    decide

theorem Plain.folder_parsed {url : UrlRecord} (h : Plain url) {front back : Units}
    (hsplit : url.pathname = front ++ slash :: back) :
    plainPlatform.parsePath (front ++ [slash]) = front ++ [slash] ∧
      plainPlatform.parsePath front = rooted front := by
  have hfront : ∀ unit ∈ front, isPathUnit unit = true := by
    intro unit hunit
    apply h.pathname
    rw [hsplit]
    exact List.mem_append_left _ hunit
  have hfolder : ∀ unit ∈ front ++ [slash], isPathUnit unit = true := by
    intro unit hunit
    rcases List.mem_append.mp hunit with hunit | hunit
    · exact hfront unit hunit
    · rw [List.mem_singleton.mp hunit]
      decide
  have hhead := h.pathname_head
  rw [hsplit] at hhead
  cases front with
  | nil => exact ⟨rfl, rfl⟩
  | cons unit front =>
    rw [List.cons_append, List.head?_cons] at hhead
    exact ⟨parsePath_of_plain hhead hfolder, parsePath_of_plain hhead hfront⟩

theorem keyLe_plainPlatform (left right : Units × Units) :
    KeyLe plainPlatform left right ↔ left.1 ≤ right.1 := by
  simp only [KeyLe, plainPlatform]
  split_ifs with heq hlt
  · simp [heq]
  · simpa using hlt.le
  · simpa using lt_of_le_of_ne (not_lt.mp hlt) (Ne.symm heq)

theorem standard_plainPlatform : Standard plainPlatform where
  codec := lawful_asciiCodec
  reads_back hparse _ := by
    have hplain := (parsePlain_eq_some hparse).1
    exact isUrl_plainPlatform.mpr hplain
  visible h := (isUrl_plainPlatform.mp h).visible
  hostname_lower h := toLowerCase_hostname (isUrl_plainPlatform.mp h).hostname
  hostname_parsed h :=
    if_pos ⟨(isUrl_plainPlatform.mp h).hostname_ne_nil, (isUrl_plainPlatform.mp h).hostname⟩
  rest_ne := by
    intro rest host hparse heq
    have hlength := congrArg List.length (heq.symm.trans (parseHost_eq_some hparse).1)
    rw [List.length_append] at hlength
    have hwww : (units "www.").length = 4 := rfl
    omega
  pathname_ne_nil h hnil := by
    have hhead := (isUrl_plainPlatform.mp h).pathname_head
    rw [hnil] at hhead
    cases hhead
  pathname_parsed h :=
    parsePath_of_plain (isUrl_plainPlatform.mp h).pathname_head (isUrl_plainPlatform.mp h).pathname
  folder_parsed h hsplit := (isUrl_plainPlatform.mp h).folder_parsed hsplit
  lower h := isUrl_plainPlatform.mpr (isUrl_plainPlatform.mp h).lower
  without_hash h := isUrl_plainPlatform.mpr { isUrl_plainPlatform.mp h with hash := rfl }
  without_port h := isUrl_plainPlatform.mpr { isUrl_plainPlatform.mp h with port := rfl }
  with_hostname h hparse := by
    obtain ⟨rfl, hne, hunits⟩ := parseHost_eq_some hparse
    exact isUrl_plainPlatform.mpr
      { isUrl_plainPlatform.mp h with hostname_ne_nil := hne, hostname := hunits }
  with_pathname text h := isUrl_plainPlatform.mpr { isUrl_plainPlatform.mp h with
    pathname_head := (parsePath_is_plain text).1
    pathname := (parsePath_is_plain text).2 }
  with_query h hquery := isUrl_plainPlatform.mpr { isUrl_plainPlatform.mp h with query := hquery }
  le_total left right := by
    rw [keyLe_plainPlatform, keyLe_plainPlatform]
    exact le_total left.1 right.1
  le_trans hfirst hsecond := by
    rw [keyLe_plainPlatform] at hfirst hsecond ⊢
    exact hfirst.trans hsecond

/-- A `www.`, a slash at the end, a tracking parameter and two entries out of order. -/
theorem settled_example :
    normalizePublicUrl plainPlatform (.string (units "https://example.com/app?a=1&b=2")) =
        some (units "https://example.com/app?a=1&b=2") ↔
      ∀ url, plainPlatform.parse (trim
          (units "https://www.example.com/app/?b=2&utm_source=news&a=1")) = some url →
        SettlesAtOnce plainPlatform url :=
  @normalizePublicUrl_idempotent_iff plainPlatform standard_plainPlatform
    (units "https://www.example.com/app/?b=2&utm_source=news&a=1") _ (by decide +kernel)

/-- With a slash behind it a default document stays in the key, and a second normalization takes
it away. -/
theorem indexed_not_idempotent :
    normalizePublicUrl plainPlatform (.string (units "https://example.com/docs/index.html/")) =
        some (units "https://example.com/docs/index.html") ∧
      normalizePublicUrl plainPlatform (.string (units "https://example.com/docs/index.html")) ≠
        some (units "https://example.com/docs/index.html") := by
  decide +kernel

end Gittensory.UrlRenormalization
