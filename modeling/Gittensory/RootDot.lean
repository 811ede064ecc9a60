import Gittensory.SafeUrl

/-!
A DNS name with the dot of the root behind it names the same machine. The guard compares the
names kept for local machines without that dot and lets their dotted spelling pass; every
other name gets the same verdict in both spellings.
-/
namespace Gittensory.RootDot

open CodeUnits RadixNumerals SafeUrl
open DuplicateSignals (UrlApi toLowerCase lowerUnit)

/-- A label that makes a URL parser read the host as an address. -/
def isNumber (label : Units) : Bool :=
  (label ≠ [] && label.all (isDigitIn 10)) ||
    (toLowerCase (label.take 2) = units "0x" && (label.drop 2).all (isDigitIn 16))

/-- A host that is a name, as the URL parser returns it, without the dot of the root. -/
structure DnsName (host : Units) : Prop where
  lower_case : toLowerCase host = host
  not_ipv6 : colon ∉ host
  last_ne_nil : (host.splitOn dot).getLast? ≠ some []
  last_not_number : ∀ label, (host.splitOn dot).getLast? = some label → isNumber label = false

instance (host : Units) : Decidable (DnsName host) :=
  decidable_of_iff (toLowerCase host = host ∧ colon ∉ host ∧
      (host.splitOn dot).getLast? ≠ some [] ∧
      ∀ label ∈ (host.splitOn dot).getLast?, isNumber label = false)
    ⟨fun h => ⟨h.1, h.2.1, h.2.2.1, h.2.2.2⟩,
      fun h => ⟨h.lower_case, h.not_ipv6, h.last_ne_nil, h.last_not_number⟩⟩

/-- The names kept for local machines. -/
def LocalName (host : Units) : Prop :=
  host = units "localhost" ∨ units ".local" <:+ host ∨ units ".internal" <:+ host

instance (host : Units) : Decidable (LocalName host) :=
  inferInstanceAs (Decidable (_ ∨ _ ∨ _))

/-! ## Names are no addresses -/

/-- What the guard reads as a number, the URL parser does. -/
theorem isNumber_of_parse {label : Units} {value : ℕ} (h : parseIpv4Component label = some value) :
    isNumber label = true := by
  unfold parseIpv4Component at h
  unfold isNumber
  split_ifs at h with hhex hoctal hdecimal
  · simp only [isHexNumeral, Bool.and_eq_true, decide_eq_true_eq] at hhex
    simp [hhex.1.1, hhex.2]
  · simp only [isOctalNumeral, Bool.and_eq_true, decide_eq_true_eq, List.all_eq_true] at hoctal
    obtain ⟨⟨hhead, _⟩, hall⟩ := hoctal
    rw [← List.cons_head?_tail hhead, Bool.or_eq_true]
    left
    simp only [List.all_cons, Bool.and_eq_true, decide_eq_true_eq, List.all_eq_true]
    exact ⟨List.cons_ne_nil _ _, rfl, fun unit hunit => isDigitIn_mono (by norm_num) (hall unit hunit)⟩
  · simp only [isDecimalNumeral, Bool.or_eq_true, Bool.and_eq_true, decide_eq_true_eq] at hdecimal
    rcases hdecimal with rfl | ⟨⟨_, hne⟩, hall⟩
    · rfl
    · simpa [hne] using Or.inl (List.all_eq_true.mp hall)

theorem mapM_eq_none_of_last {parts : List Units} {label : Units}
    (hlast : parts.getLast? = some label) (h : parseIpv4Component label = none) :
    parts.mapM parseIpv4Component = none := by
  obtain ⟨front, rfl⟩ := List.getLast?_eq_some_iff.mp hlast
  rw [List.mapM_append, List.mapM_cons, h]
  cases front.mapM parseIpv4Component <;> rfl

theorem ipv4IsPrivateOrLocal_of_last {host label : Units}
    (hlast : (host.splitOn dot).getLast? = some label) (h : parseIpv4Component label = none) :
    ipv4IsPrivateOrLocal host = false := by
  have hnone : ipv4ToInt host = none := by
    unfold ipv4ToInt
    simp only [mapM_eq_none_of_last hlast h, Option.bind_none, ite_self]
  rw [ipv4IsPrivateOrLocal, hnone]

theorem exists_last (host : Units) : ∃ label, (host.splitOn dot).getLast? = some label :=
  ⟨_, List.getLast?_eq_some_getLast (List.splitOn_ne_nil dot host)⟩

theorem DnsName.ipv4 {host : Units} (h : DnsName host) : ipv4IsPrivateOrLocal host = false := by
  obtain ⟨label, hlast⟩ := exists_last host
  apply ipv4IsPrivateOrLocal_of_last hlast
  cases hparse : parseIpv4Component label with
  | none => rfl
  | some value =>
    have hnumber := isNumber_of_parse hparse
    rw [h.last_not_number label hlast] at hnumber
    nomatch hnumber

/-- With the dot of the root the last label is empty. -/
theorem ipv4IsPrivateOrLocal_dotted (host : Units) :
    ipv4IsPrivateOrLocal (host ++ [dot]) = false := by
  have hlast : ((host ++ [dot]).splitOn dot).getLast? = some [] := by
    rw [List.splitOn_append_cons_self, List.splitOn_nil, List.getLast?_concat]
  exact ipv4IsPrivateOrLocal_of_last hlast rfl

/-! ## The verdicts -/

/-- Of the names only those of local machines are taken. -/
theorem hostIsPrivateOrLocal_name {host : Units} (h : DnsName host) :
    hostIsPrivateOrLocal host = true ↔ LocalName host := by
  unfold hostIsPrivateOrLocal LocalName
  simp only [h.lower_case]
  split_ifs with hlocal hliteral hcolon
  · exact iff_of_true rfl hlocal
  · rcases hliteral with rfl | rfl | rfl
    · exact absurd (h.last_not_number (units "0") (by decide)) (by decide)
    · exact absurd h.not_ipv6 (by decide)
    · exact absurd h.not_ipv6 (by decide)
  · exact absurd hcolon h.not_ipv6
  · rw [h.ipv4]
    exact iff_of_false Bool.false_ne_true hlocal

theorem not_suffix_dotted {suffix : Units} (hlast : suffix.getLast? ≠ some dot)
    (hne : suffix ≠ []) (host : Units) : ¬ suffix <:+ host ++ [dot] := by
  rintro ⟨front, hfront⟩
  have hend := congrArg List.getLast? hfront
  rw [List.getLast?_append_of_ne_nil _ hne, List.getLast?_concat] at hend
  exact hlast hend

theorem DnsName.lower_case_dotted {host : Units} (h : DnsName host) :
    toLowerCase (host ++ [dot]) = host ++ [dot] := by
  have hhost := h.lower_case
  unfold toLowerCase at hhost ⊢
  rw [List.flatMap_append, hhost]
  rfl

/-- No name is taken with the dot of the root behind it. -/
theorem hostIsPrivateOrLocal_dotted {host : Units} (h : DnsName host) :
    hostIsPrivateOrLocal (host ++ [dot]) = false := by
  have hother : ∀ text : Units, text.getLast? ≠ some dot → host ++ [dot] ≠ text := by
    rintro text hlast rfl
    exact hlast List.getLast?_concat
  have hcolon : colon ∉ host ++ [dot] := by
    rw [List.mem_append, not_or]
    exact ⟨h.not_ipv6, by decide⟩
  unfold hostIsPrivateOrLocal
  simp only [h.lower_case_dotted]
  rw [if_neg, if_neg, if_neg hcolon, ipv4IsPrivateOrLocal_dotted]
  · rintro (hzero | hloop | hloop)
    · exact hother _ (by decide) hzero
    · exact hother _ (by decide) hloop
    · exact hother _ (by decide) hloop
  · rintro (hname | hsuffix | hsuffix)
    · exact hother _ (by decide) hname
    · exact not_suffix_dotted (by decide) (by decide) host hsuffix
    · exact not_suffix_dotted (by decide) (by decide) host hsuffix

variable {URL : Type} (api : UrlApi URL)

/-- A text that the parser takes for an https URL with the given host. -/
def NamesHost (raw host : Units) : Prop :=
  ∃ url, api.parse raw = some url ∧ api.protocol url = units "https:" ∧ api.hostname url = host

/-- The guard gives a host and its dotted spelling one verdict, and rejects both when they
name a local machine. -/
def IgnoresRootDot (raw rawDotted host : Units) : Prop :=
  isSafeHttpUrl api raw = isSafeHttpUrl api rawDotted ∧
    isSafeEndpointUrl api raw = isSafeEndpointUrl api rawDotted ∧
    (LocalName host →
      isSafeHttpUrl api raw = false ∧ isSafeHttpUrl api rawDotted = false ∧
        isSafeEndpointUrl api raw = false ∧ isSafeEndpointUrl api rawDotted = false)

variable {api}

theorem NamesHost.verdicts {raw host : Units} (h : NamesHost api raw host)
    (hlower : toLowerCase host = host) :
    isSafeHttpUrl api raw = !hostIsPrivateOrLocal host ∧
      isSafeEndpointUrl api raw = !hostIsPrivateOrLocal host := by
  obtain ⟨url, hparse, hprotocol, rfl⟩ := h
  unfold isSafeHttpUrl isSafeEndpointUrl
  simp only [hparse, hprotocol, hlower]
  exact ⟨rfl, rfl⟩

/-- The guard ignores the dot of the root exactly for the names of no local machine. -/
theorem ignoresRootDot_iff {raw rawDotted host : Units} (hname : DnsName host)
    (hraw : NamesHost api raw host) (hdotted : NamesHost api rawDotted (host ++ [dot])) :
    IgnoresRootDot api raw rawDotted host ↔ ¬ LocalName host := by
  obtain ⟨hhttp, hendpoint⟩ := hraw.verdicts hname.lower_case
  obtain ⟨hhttp', hendpoint'⟩ := hdotted.verdicts hname.lower_case_dotted
  rw [hostIsPrivateOrLocal_dotted hname] at hhttp' hendpoint'
  unfold IgnoresRootDot
  rw [hhttp, hendpoint, hhttp', hendpoint', ← hostIsPrivateOrLocal_name hname]
  cases hostIsPrivateOrLocal host <;> simp

theorem example_ignoresRootDot :
    IgnoresRootDot plainUrls (units "https://a.io/") (units "https://a.io./") (units "a.io") :=
  (ignoresRootDot_iff (by decide) ⟨⟨units "https", units "a.io", units "/"⟩, by decide, by decide,
      by decide⟩ ⟨⟨units "https", units "a.io.", units "/"⟩, by decide, by decide, by decide⟩).mpr
    (by decide)

/-- `https://localhost./` is accepted. -/
theorem localhost_not_ignoresRootDot :
    DnsName (units "localhost") ∧
      NamesHost plainUrls (units "https://localhost/") (units "localhost") ∧
      NamesHost plainUrls (units "https://localhost./") (units "localhost" ++ [dot]) ∧
      ¬ IgnoresRootDot plainUrls (units "https://localhost/") (units "https://localhost./")
        (units "localhost") := by
  refine ⟨by decide, ⟨⟨units "https", units "localhost", units "/"⟩, by decide, by decide,
    by decide⟩, ⟨⟨units "https", units "localhost.", units "/"⟩, by decide, by decide, by decide⟩, ?_⟩
  intro h
  exact absurd h.1 (by decide)

end Gittensory.RootDot
