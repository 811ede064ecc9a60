import Gittensory.PrivateAddresses
import Gittensory.PublicUrl

/-!
One normalization of a public URL, part by part. What the URL standard says of such URLs is
collected in `Standard`; under it the path that the setters leave is the path without its
default document and its last slashes, the result is a URL again, and the entries of its query
are read back in small letters.
-/
namespace Gittensory.CanonicalUrl

open CodeUnits RadixNumerals FormUrlencoded PublicUrl
open DuplicateSignals (toLowerCase lowerUnit dropSlashes slash)
open PrivateAddresses (toLowerCase_append toLowerCase_eq_self)

/-! ## Small letters -/

theorem lowerUnit_of_mem_toLowerCase {text : Units} {unit : ℕ} (h : unit ∈ toLowerCase text) :
    lowerUnit unit = [unit] := by
  obtain ⟨capital, -, hunit⟩ := List.mem_flatMap.mp h
  have hsmall : (unit ≤ 64 ∨ 91 ≤ unit) ∧ unit ≠ 0x130 ∧ unit ≠ 0x212A := by
    unfold lowerUnit at hunit
    split_ifs at hunit <;> simp only [List.mem_cons, List.not_mem_nil, or_false] at hunit <;> omega
  rw [lowerUnit, if_neg (by omega), if_neg hsmall.2.1, if_neg hsmall.2.2]

theorem toLowerCase_of_lowered {text : Units} (h : ∀ unit ∈ text, lowerUnit unit = [unit]) :
    toLowerCase text = text := by
  induction text with
  | nil => rfl
  | cons unit rest ih =>
    have hrest := ih fun other hother => h other (List.mem_cons_of_mem _ hother)
    rw [toLowerCase] at hrest
    rw [toLowerCase, List.flatMap_cons, h unit (List.mem_cons_self ..), hrest,
      List.singleton_append]

theorem toLowerCase_toLowerCase (text : Units) :
    toLowerCase (toLowerCase text) = toLowerCase text :=
  toLowerCase_of_lowered fun _ => lowerUnit_of_mem_toLowerCase

/-- Cut out of a text in small letters. -/
theorem toLowerCase_of_subset {part text : Units} (htext : toLowerCase text = text)
    (hpart : ∀ unit ∈ part, unit ∈ text) : toLowerCase part = part := by
  apply toLowerCase_of_lowered
  intro unit hunit
  have hmem := hpart unit hunit
  rw [← htext] at hmem
  exact lowerUnit_of_mem_toLowerCase hmem

theorem lowerUnit_lowerLetter (unit : ℕ) : lowerUnit (lowerLetter unit) = lowerUnit unit := by
  unfold lowerUnit lowerLetter
  split_ifs <;> first | rfl | omega

theorem toLowerCase_lowerAscii (text : Units) :
    toLowerCase (lowerAscii text) = toLowerCase text := by
  unfold toLowerCase lowerAscii
  rw [List.flatMap_map]
  exact List.flatMap_congr fun unit _ => lowerUnit_lowerLetter unit

/-- On ASCII text both ways to lower letters agree. -/
theorem toLowerCase_eq_lowerAscii {text : Units} (h : ∀ unit ∈ text, unit < 128) :
    toLowerCase text = lowerAscii text := by
  induction text with
  | nil => rfl
  | cons unit rest ih =>
    have hunit : lowerUnit unit = [lowerLetter unit] := by
      have hlt := h unit (List.mem_cons_self ..)
      unfold lowerUnit lowerLetter
      split_ifs <;> first | rfl | omega
    rw [lowerAscii, List.map_cons, toLowerCase, List.flatMap_cons, hunit, List.singleton_append]
    exact congrArg _ (ih fun other hother => h other (List.mem_cons_of_mem _ hother))

def lowerRecord (url : UrlRecord) : UrlRecord where
  protocol := toLowerCase url.protocol
  credentials := toLowerCase url.credentials
  hostname := toLowerCase url.hostname
  port := url.port
  pathname := toLowerCase url.pathname
  query := url.query.map toLowerCase
  hash := url.hash.map toLowerCase

theorem toLowerCase_portText (port : Option ℕ) : toLowerCase (portText port) = portText port := by
  cases port with
  | none => rfl
  | some port =>
    apply toLowerCase_eq_self
    intro unit hunit
    rcases List.mem_cons.mp hunit with rfl | hunit
    · omega
    · have hdigit := isDigitIn_of_mem_shortest (by omega) (by omega) hunit
      have := isDigitIn_ten.mp hdigit
      omega

theorem toLowerCase_marked {mark : ℕ} (hmark : mark ≤ 64) (part : Option Units) :
    toLowerCase (marked mark part) = marked mark (part.map toLowerCase) := by
  cases part with
  | none => rfl
  | some text =>
    rw [marked, ← List.singleton_append, toLowerCase_append, toLowerCase_eq_self (by simp [hmark])]
    rfl

theorem toLowerCase_toText (url : UrlRecord) :
    toLowerCase url.toText = (lowerRecord url).toText := by
  simp only [UrlRecord.toText, lowerRecord, toLowerCase_append, toLowerCase_portText,
    toLowerCase_marked (show 63 ≤ 64 by omega), toLowerCase_marked (show 35 ≤ 64 by omega)]
  rfl

/-! ## The URL parser -/

variable {platform : Platform}

variable (platform) in
/-- A public URL as the parser returns it: the record its own text is parsed to. -/
structure IsUrl (url : UrlRecord) : Prop where
  parsed : platform.parse url.toText = some url
  public_protocol : url.protocol ∈ PUBLIC_PROTOCOLS

/-- A path is never empty. -/
def rooted (pathname : Units) : Units := if pathname = [] then [slash] else pathname

variable (platform) in
/-- What the standards say of public URLs and of the order of texts. A URL is read back from its
text, which is visible ASCII, with a host in small letters and a path that is not empty. It
stays a URL in small letters, without a fragment or port, with another host or path as the
parser writes them, and with a query of form data. A path cut at a slash is a path. From what
follows a `www.` the host parser does not make the host with that `www.` again. -/
structure Standard : Prop where
  codec : platform.codec.Lawful
  reads_back : ∀ {raw url}, platform.parse raw = some url → url.protocol ∈ PUBLIC_PROTOCOLS →
    IsUrl platform url
  visible : ∀ {url}, IsUrl platform url → ∀ unit ∈ url.toText, 33 ≤ unit ∧ unit ≤ 126
  hostname_lower : ∀ {url}, IsUrl platform url → toLowerCase url.hostname = url.hostname
  hostname_parsed : ∀ {url}, IsUrl platform url →
    platform.parseHost url.hostname = some url.hostname
  rest_ne : ∀ {rest host}, platform.parseHost rest = some host → host ≠ units "www." ++ rest
  pathname_ne_nil : ∀ {url}, IsUrl platform url → url.pathname ≠ []
  pathname_parsed : ∀ {url}, IsUrl platform url → platform.parsePath url.pathname = url.pathname
  folder_parsed : ∀ {url front back}, IsUrl platform url → url.pathname = front ++ slash :: back →
    platform.parsePath (front ++ [slash]) = front ++ [slash] ∧
      platform.parsePath front = rooted front
  lower : ∀ {url}, IsUrl platform url → IsUrl platform (lowerRecord url)
  without_hash : ∀ {url}, IsUrl platform url → IsUrl platform { url with hash := none }
  without_port : ∀ {url}, IsUrl platform url → IsUrl platform { url with port := none }
  with_hostname : ∀ {url text host}, IsUrl platform url → platform.parseHost text = some host →
    IsUrl platform { url with hostname := host }
  with_pathname : ∀ {url} text, IsUrl platform url →
    IsUrl platform { url with pathname := platform.parsePath text }
  with_query : ∀ {url query}, IsUrl platform url →
    (∀ text ∈ query, ∀ unit ∈ text, isQueryUnit unit = true) →
    IsUrl platform { url with query := query }
  le_total : ∀ left right, KeyLe platform left right ∨ KeyLe platform right left
  le_trans : ∀ {first second third}, KeyLe platform first second →
    KeyLe platform second third → KeyLe platform first third

/-! ## Paths -/

theorem head_slash_of_lower {text rest : Units} (h : toLowerCase text = slash :: rest) :
    ∃ back, text = slash :: back := by
  cases text with
  | nil => cases h
  | cons unit back =>
    rw [toLowerCase, List.flatMap_cons, lowerUnit] at h
    split_ifs at h <;> simp only [List.cons_append, List.nil_append, List.cons.injEq] at h
    · have := h.1
      unfold slash at this
      omega
    · exact absurd h.1 (by decide)
    · exact absurd h.1 (by decide)
    · exact ⟨back, by rw [h.1]⟩

/-- A default document stands behind a slash. -/
theorem front_of_endsWithName {name pathname : Units} {first : ℕ} {rest : Units}
    (hname : name = slash :: first :: rest) (h : endsWithName name pathname = true) :
    ∃ back, back ≠ [] ∧
      pathname = pathname.take (pathname.length - name.length) ++ slash :: back := by
  have hlower := of_decide_eq_true h
  obtain ⟨back, hback⟩ := head_slash_of_lower (hlower.trans hname)
  refine ⟨back, ?_, ?_⟩
  · rintro rfl
    rw [hback, hname] at hlower
    exact absurd hlower (by simp [toLowerCase, lowerUnit, slash])
  · rw [← hback, List.take_append_drop]

/-- The path names a default document. -/
def EndsInIndex (pathname : Units) : Prop :=
  endsWithName (units "/index.html") pathname = true ∨
    endsWithName (units "/index.htm") pathname = true

instance (pathname : Units) : Decidable (EndsInIndex pathname) :=
  inferInstanceAs (Decidable (_ ∨ _))

/-- A default document is cut off behind the slash before it, and nothing else is. -/
theorem replaceIndex_cases (pathname : Units) :
    (¬EndsInIndex pathname ∧ replaceIndex pathname = pathname) ∨
      ∃ front back, EndsInIndex pathname ∧ back ≠ [] ∧ pathname = front ++ slash :: back ∧
        replaceIndex pathname = front ++ [slash] := by
  unfold replaceIndex EndsInIndex
  split_ifs with hhtml hhtm
  · right
    obtain ⟨back, hback, hsplit⟩ := front_of_endsWithName rfl hhtml
    exact ⟨_, back, Or.inl hhtml, hback, hsplit, rfl⟩
  · right
    obtain ⟨back, hback, hsplit⟩ := front_of_endsWithName rfl hhtm
    exact ⟨_, back, Or.inr hhtm, hback, hsplit, rfl⟩
  · left
    exact ⟨by simp [hhtml, hhtm], rfl⟩

theorem exists_slashes (pathname : Units) :
    ∃ slashes : Units, pathname = dropSlashes pathname ++ slashes ∧
      ∀ unit ∈ slashes, unit = slash := by
  refine ⟨(pathname.reverse.takeWhile fun unit => unit = slash).reverse, ?_, ?_⟩
  · rw [dropSlashes, ← List.reverse_append, List.takeWhile_append_dropWhile, List.reverse_reverse]
  · intro unit hunit
    simpa using List.mem_takeWhile_imp (List.mem_reverse.mp hunit)

theorem getLast?_dropSlashes (pathname : Units) :
    (dropSlashes pathname).getLast? ≠ some slash := by
  intro h
  rw [dropSlashes, List.getLast?_reverse] at h
  have hhead := List.head?_dropWhile_not (fun unit : ℕ => decide (unit = slash)) pathname.reverse
  rw [h] at hhead
  simp at hhead

theorem dropSlashes_eq_self {pathname : Units} (h : pathname.getLast? ≠ some slash) :
    dropSlashes pathname = pathname := by
  obtain ⟨slashes, hsplit, hslashes⟩ := exists_slashes pathname
  cases hback : slashes.reverse with
  | nil =>
    rw [List.reverse_eq_nil_iff.mp hback, List.append_nil] at hsplit
    exact hsplit.symm
  | cons unit rest =>
    have hlast : pathname.getLast? = some unit := by
      rw [hsplit, List.getLast?_append, ← List.head?_reverse, hback]
      rfl
    have hmem : unit ∈ slashes := List.mem_reverse.mp (hback ▸ List.mem_cons_self ..)
    rw [hslashes unit hmem] at hlast
    exact absurd hlast h

theorem dropSlashes_concat_slash (front : Units) :
    dropSlashes (front ++ [slash]) = dropSlashes front := by
  rw [dropSlashes, List.reverse_append, List.reverse_singleton, List.singleton_append,
    List.dropWhile_cons_of_pos (by simp)]
  rfl

theorem dropSlashes_subset {pathname : Units} {unit : ℕ} (h : unit ∈ dropSlashes pathname) :
    unit ∈ pathname := by
  obtain ⟨slashes, hsplit, -⟩ := exists_slashes pathname
  rw [hsplit]
  exact List.mem_append_left _ h

theorem length_dropSlashes_le (pathname : Units) :
    (dropSlashes pathname).length ≤ pathname.length := by
  have hle := (pathname.reverse.dropWhile_sublist fun unit => unit = slash).length_le
  rw [List.length_reverse] at hle
  rw [dropSlashes, List.length_reverse]
  exact hle

/-- The path that is left of one. -/
def trimmedPath (pathname : Units) : Units := rooted (dropSlashes (replaceIndex pathname))

theorem getLast?_trimmedPath (pathname : Units) :
    trimmedPath pathname = [slash] ∨
      (trimmedPath pathname ≠ [] ∧ (trimmedPath pathname).getLast? ≠ some slash) := by
  unfold trimmedPath rooted
  split_ifs with hnil
  · exact Or.inl rfl
  · exact Or.inr ⟨hnil, getLast?_dropSlashes _⟩

/-- Without a default document a trimmed path is trimmed already. -/
theorem trimmedPath_eq_self {pathname : Units} (hindex : ¬EndsInIndex pathname)
    (h : pathname = [slash] ∨ (pathname ≠ [] ∧ pathname.getLast? ≠ some slash)) :
    trimmedPath pathname = pathname := by
  have hsame : replaceIndex pathname = pathname := by
    rcases replaceIndex_cases pathname with ⟨-, hsame⟩ | ⟨front, back, hends, -⟩
    · exact hsame
    · exact absurd hends hindex
  rw [trimmedPath, hsame]
  rcases h with rfl | ⟨hne, hlast⟩
  · rfl
  · rw [dropSlashes_eq_self hlast, rooted, if_neg hne]

/-- With one it gets shorter, and its units stay those it had. -/
theorem trimmedPath_of_index {pathname : Units} (hindex : EndsInIndex pathname) :
    (trimmedPath pathname).length < pathname.length ∧
      ∀ unit ∈ trimmedPath pathname, unit ∈ pathname := by
  rcases replaceIndex_cases pathname with ⟨hnot, -⟩ | ⟨front, back, -, hback, hsplit, hcut⟩
  · exact absurd hindex hnot
  · have hlength := List.length_pos_iff.mpr hback
    have hslash : slash ∈ pathname := by
      rw [hsplit]
      exact List.mem_append_right _ (List.mem_cons_self ..)
    have hfront : ∀ unit ∈ front, unit ∈ pathname := by
      intro unit hunit
      rw [hsplit]
      exact List.mem_append_left _ hunit
    have htotal : pathname.length = front.length + (back.length + 1) := by
      rw [hsplit, List.length_append, List.length_cons]
    have hle := length_dropSlashes_le front
    unfold trimmedPath
    rw [hcut, dropSlashes_concat_slash, rooted]
    split_ifs
    · refine ⟨by simp only [List.length_singleton]; omega, ?_⟩
      intro unit hunit
      rw [List.mem_singleton.mp hunit]
      exact hslash
    · exact ⟨by omega, fun unit hunit => hfront unit (dropSlashes_subset hunit)⟩

theorem endsWithName_lowerAscii (name pathname : Units) :
    endsWithName name (lowerAscii pathname) = endsWithName name pathname := by
  unfold endsWithName
  rw [show (lowerAscii pathname).length = pathname.length from List.length_map _,
    show (lowerAscii pathname).drop (pathname.length - name.length) =
      lowerAscii (pathname.drop (pathname.length - name.length)) from (List.map_drop ..).symm,
    toLowerCase_lowerAscii]

theorem endsInIndex_lowerAscii (pathname : Units) :
    EndsInIndex (lowerAscii pathname) ↔ EndsInIndex pathname := by
  unfold EndsInIndex
  rw [endsWithName_lowerAscii, endsWithName_lowerAscii]

theorem lowerLetter_eq_slash {unit : ℕ} : lowerLetter unit = slash ↔ unit = slash := by
  unfold lowerLetter slash
  split_ifs <;> omega

theorem getLast?_lowerAscii (pathname : Units) :
    (lowerAscii pathname).getLast? = some slash ↔ pathname.getLast? = some slash := by
  rw [lowerAscii, List.getLast?_map]
  cases pathname.getLast? with
  | none => simp
  | some unit => simp [lowerLetter_eq_slash]

/-! ## One normalization -/

variable (platform) in
/-- The host after the setter has seen it without its `www.`. -/
def strippedHost (hostname : Units) : Units :=
  (platform.parseHost (stripWww hostname)).getD hostname

def keptPort (url : UrlRecord) : Option ℕ :=
  if url.port = some (defaultPort url.protocol) then none else url.port

def writtenQuery (codec : Codec) (params : List (Units × Units)) : Option Units :=
  if params = [] then none else some (serialize codec params)

theorem setHostname_stripWww (url : UrlRecord) :
    setHostname platform url (stripWww url.hostname) =
      { url with hostname := strippedHost platform url.hostname } := by
  unfold setHostname strippedHost
  cases platform.parseHost (stripWww url.hostname) <;> rfl

variable (hurl : Standard platform)

include hurl

theorem isUrl_setHostname {url : UrlRecord} (h : IsUrl platform url) (hostname : Units) :
    IsUrl platform (setHostname platform url hostname) := by
  unfold setHostname
  split
  · exact h
  · exact hurl.with_hostname h ‹_›

theorem parsePath_replaceIndex {url : UrlRecord} (h : IsUrl platform url) :
    platform.parsePath (replaceIndex url.pathname) = replaceIndex url.pathname := by
  rcases replaceIndex_cases url.pathname with ⟨-, hsame⟩ | ⟨front, back, -, -, hsplit, hcut⟩
  · rw [hsame]
    exact hurl.pathname_parsed h
  · rw [hcut]
    exact (hurl.folder_parsed h hsplit).1

/-- What is left of a path without its last slashes is parsed to itself. -/
theorem parsePath_dropSlashes {url : UrlRecord} (h : IsUrl platform url) :
    platform.parsePath (dropSlashes url.pathname) = rooted (dropSlashes url.pathname) := by
  obtain ⟨slashes, hsplit, hslashes⟩ := exists_slashes url.pathname
  cases slashes with
  | nil =>
    rw [List.append_nil] at hsplit
    rw [← hsplit, hurl.pathname_parsed h, rooted, if_neg (hurl.pathname_ne_nil h)]
  | cons unit rest =>
    rw [hslashes unit (List.mem_cons_self ..)] at hsplit
    exact (hurl.folder_parsed h hsplit).2

/-- The path of a canonical URL, without the parser. -/
theorem setPathname_trimmedPath {url : UrlRecord} (h : IsUrl platform url) :
    (let url := setPathname platform url (replaceIndex url.pathname)
      if url.pathname ≠ [slash] then setPathname platform url (dropSlashes url.pathname)
      else url) = { url with pathname := trimmedPath url.pathname } := by
  have hcut := hurl.with_pathname (replaceIndex url.pathname) h
  have hdropped := parsePath_dropSlashes hurl hcut
  simp only [parsePath_replaceIndex hurl h] at hdropped
  simp only [setPathname, parsePath_replaceIndex hurl h]
  split_ifs with hroot
  · rw [hdropped, trimmedPath]
  · rw [trimmedPath, not_not.mp hroot]
    rfl

/-- A URL up to its port, as it is when the path comes to be treated. -/
theorem isUrl_keptPort {url : UrlRecord} (h : IsUrl platform url) :
    IsUrl platform { url with
      hostname := strippedHost platform url.hostname
      port := keptPort url
      hash := none } := by
  have hhash := hurl.without_hash h
  have hhost : IsUrl platform
      { url with hostname := strippedHost platform url.hostname, hash := none } := by
    have hset := isUrl_setHostname hurl hhash (stripWww url.hostname)
    rw [setHostname_stripWww] at hset
    exact hset
  unfold keptPort
  split_ifs
  · exact hurl.without_port hhost
  · exact hhost

theorem canonical_eq {url : UrlRecord} (h : IsUrl platform url) :
    canonical platform url = { url with
      hostname := strippedHost platform url.hostname
      port := keptPort url
      pathname := trimmedPath url.pathname
      query := writtenQuery platform.codec (sortedParams platform url)
      hash := none } := by
  have hpath := setPathname_trimmedPath hurl (isUrl_keptPort hurl h)
  have hport : (if url.port = some (defaultPort url.protocol)
      then ({ url with hostname := strippedHost platform url.hostname, port := none, hash := none } :
        UrlRecord)
      else { url with hostname := strippedHost platform url.hostname, hash := none }) =
      { url with
        hostname := strippedHost platform url.hostname
        port := keptPort url
        hash := none } := by
    unfold keptPort
    split_ifs <;> rfl
  unfold canonical
  dsimp only at hpath ⊢
  rw [setHostname_stripWww]
  dsimp only
  rw [hport, hpath]
  rfl

omit hurl

theorem isUrl_canonical (hurl : Standard platform) {url : UrlRecord} (h : IsUrl platform url) :
    IsUrl platform (canonical platform url) := by
  have hpath : IsUrl platform { url with
      hostname := strippedHost platform url.hostname
      port := keptPort url
      pathname := trimmedPath url.pathname
      hash := none } := by
    have hkept := isUrl_keptPort hurl h
    have hcut := hurl.with_pathname (dropSlashes (replaceIndex url.pathname))
      (hurl.with_pathname (replaceIndex url.pathname) hkept)
    have hdropped := parsePath_dropSlashes hurl (hurl.with_pathname (replaceIndex url.pathname) hkept)
    simp only [parsePath_replaceIndex hurl h] at hdropped
    rw [hdropped] at hcut
    exact hcut
  rw [canonical_eq hurl h]
  apply hurl.with_query hpath
  intro text htext unit hunit
  unfold writtenQuery at htext
  split_ifs at htext
  · cases htext
  · rw [Option.mem_some_iff.mp htext |>.symm] at hunit
    exact isQueryUnit_of_mem_serialize hurl.codec hunit

/-! ## Entries -/

theorem foldl_delete (keys : List Units) (params : List (Units × Units)) :
    (keys.foldl (fun left key =>
      if isTracking key then left.filter fun entry => entry.1 ≠ key else left) params) =
        params.filter fun entry => !(isTracking entry.1 && decide (entry.1 ∈ keys)) := by
  induction keys generalizing params with
  | nil => simp
  | cons key keys ih =>
    rw [List.foldl_cons]
    split_ifs with htracking
    · rw [ih, List.filter_filter]
      apply List.filter_congr
      intro entry _
      by_cases hkey : entry.1 = key
      · simp [hkey, htracking]
      · simp [hkey]
    · rw [ih]
      apply List.filter_congr
      intro entry _
      by_cases hkey : entry.1 = key
      · simp [hkey, htracking]
      · simp [hkey]

theorem deleteTracking_eq_filter (params : List (Units × Units)) :
    deleteTracking params = params.filter fun entry => !isTracking entry.1 := by
  unfold deleteTracking
  rw [foldl_delete]
  apply List.filter_congr
  intro entry hentry
  have hkey : entry.1 ∈ params.map Prod.fst := List.mem_map_of_mem hentry
  simp [hkey]

theorem isTracking_lowerAscii (key : Units) : isTracking (lowerAscii key) = isTracking key := by
  unfold isTracking
  rw [toLowerCase_lowerAscii]

theorem mem_sortedParams {url : UrlRecord} {entry : Units × Units}
    (h : entry ∈ sortedParams platform url) :
    entry ∈ searchParams platform url ∧ isTracking entry.1 = false := by
  rw [sortedParams, List.mem_insertionSort, deleteTracking_eq_filter] at h
  simpa using h

theorem wellFormed_of_mem_sortedParams (hurl : Standard platform) {url : UrlRecord}
    {entry : Units × Units} (h : entry ∈ sortedParams platform url) :
    WellFormedEntry platform.codec entry :=
  wellFormedEntry_of_mem_parse hurl.codec (mem_sortedParams h).1

theorem toLowerCase_serialize (hurl : Standard platform) (params : List (Units × Units)) :
    toLowerCase (serialize platform.codec params) =
      lowerAscii (serialize platform.codec params) := by
  apply toLowerCase_eq_lowerAscii
  intro unit hunit
  have hquery := isQueryUnit_of_mem_serialize hurl.codec hunit
  simp only [isQueryUnit, isEncodedUnit, isPlain, Bool.or_eq_true, Bool.and_eq_true,
    decide_eq_true_eq] at hquery
  unfold plus percent ampersand equalSign at hquery
  omega

theorem getD_writtenQuery (codec : Codec) (params : List (Units × Units)) :
    (writtenQuery codec params).getD [] = serialize codec params := by
  unfold writtenQuery
  split_ifs with hnil
  · rw [hnil]
    rfl
  · rfl

/-- The entries of the normalized URL when it is read again. -/
theorem searchParams_lower_canonical (hurl : Standard platform) {url : UrlRecord}
    (h : IsUrl platform url) :
    searchParams platform (lowerRecord (canonical platform url)) =
      (sortedParams platform url).map lowerEntry := by
  have hquery : (lowerRecord (canonical platform url)).query.getD [] =
      lowerAscii (serialize platform.codec (sortedParams platform url)) := by
    rw [canonical_eq hurl h, ← toLowerCase_serialize hurl, ← getD_writtenQuery]
    simp only [lowerRecord]
    cases writtenQuery platform.codec (sortedParams platform url) <;> rfl
  rw [searchParams, hquery]
  exact parse_lower_serialize hurl.codec fun entry hentry =>
    wellFormed_of_mem_sortedParams hurl hentry

theorem sortedParams_lower_canonical (hurl : Standard platform) {url : UrlRecord}
    (h : IsUrl platform url) :
    sortedParams platform (lowerRecord (canonical platform url)) =
      ((sortedParams platform url).map lowerEntry).insertionSort (KeyLe platform) := by
  rw [sortedParams, searchParams_lower_canonical hurl h, deleteTracking_eq_filter,
    List.filter_eq_self.mpr]
  intro entry hentry
  obtain ⟨original, horiginal, rfl⟩ := List.mem_map.mp hentry
  rw [lowerEntry, isTracking_lowerAscii, (mem_sortedParams horiginal).2]
  rfl

/-- Written in small letters, two lists of entries in small letters are the same list. -/
theorem lower_writtenQuery_inj (hurl : Standard platform) {left right : List (Units × Units)}
    (hleft : ∀ entry ∈ left, WellFormedEntry platform.codec entry)
    (hright : ∀ entry ∈ right, WellFormedEntry platform.codec entry) :
    (writtenQuery platform.codec left).map toLowerCase =
        (writtenQuery platform.codec right).map toLowerCase ↔
      left.map lowerEntry = right.map lowerEntry := by
  have hlower : ∀ params : List (Units × Units),
      (∀ entry ∈ params, WellFormedEntry platform.codec entry) →
      parse platform.codec (((writtenQuery platform.codec params).map toLowerCase).getD []) =
        params.map lowerEntry := by
    intro params hparams
    rw [← parse_lower_serialize hurl.codec hparams, ← toLowerCase_serialize hurl,
      ← getD_writtenQuery]
    cases writtenQuery platform.codec params <;> rfl
  constructor
  · intro h
    rw [← hlower left hleft, ← hlower right hright, h]
  · intro h
    have hnil : left = [] ↔ right = [] := by
      rw [← List.map_eq_nil_iff (f := lowerEntry), h, List.map_eq_nil_iff]
    unfold writtenQuery
    split_ifs with hleftNil hrightNil hrightNil
    · rfl
    · exact absurd (hnil.mp hleftNil) hrightNil
    · exact absurd (hnil.mpr hrightNil) hleftNil
    · rw [Option.map_some, Option.map_some, toLowerCase_serialize hurl,
        toLowerCase_serialize hurl, ← lowerAscii_serialize_lower hurl.codec left, h,
        lowerAscii_serialize_lower hurl.codec right]

end Gittensory.CanonicalUrl
