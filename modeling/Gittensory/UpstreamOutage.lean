import Gittensory.UpstreamDrift

/-!
Refreshes while the tracked files stay as they are and requests fail. What is parsed survives
every outcome of a request, so of all that the semantic hash is taken from only the content
hash of the language weights can change: it is lost when both requests for that file fail and
comes back with the next answer, and each time drift is reported.
-/
namespace Gittensory.UpstreamOutage

open CodeUnits JsonRecord StoredJson UpstreamSources UpstreamFetch UpstreamRuleset UpstreamDrift

section Outage

variable (platform : Platform) (upstream : SourceKey → Option Units)

/-- What is parsed out of a file; `none` is a file no request has ever returned. -/
def keptRecord (source : SourceKey) : Record :=
  ((upstream source).map (parseTrackedSource platform source)).getD []

/-- A stored snapshot is one of the file, fetched at some time or carried on since. -/
def Reflects (source : SourceKey) : Option UpstreamSourceSnapshotRecord → Prop
  | none => upstream source = none
  | some snapshot => snapshot.parsed = storedFields (keptRecord platform upstream source) ∧
      ∀ hash, snapshot.contentSha256.join = some hash →
        (upstream source).map (sha256Hex platform) = some hash

def latestHash (store : UpstreamStore) : Option (Option Units) :=
  hashOf (latestSourcesByKey store.sources .programmingLanguages)

/-- The stored content hash of the language weights. -/
def languagesHash (store : UpstreamStore) : Option Units := (latestHash store).join

/-- The stored snapshots are of the files, and the newest ruleset is theirs. -/
structure Consistent (store : UpstreamStore) : Prop where
  reflects : ∀ source,
    Reflects platform upstream source (latestSourcesByKey store.sources source)
  ruleset : store.rulesets.head?.map (fun ruleset => ruleset.semanticHash) =
    some (semanticHashOf platform (rulesetPayloadOf
      (fun source => parsedOf (latestSourcesByKey store.sources source)) (latestHash store)))

/-- Every request that succeeds returns the file. -/
def SameContent (answers : UpstreamAnswers) : Prop :=
  ∀ source,
    (∀ blobSha etag content, readApi platform (answers.api source) = .content blobSha etag content →
      upstream source = some content) ∧
    ∀ content, readRaw (answers.raw source) = .ok content → upstream source = some content

/-- The contents API says that the file is not modified. -/
def notModified (answers : UpstreamAnswers) (source : SourceKey) : Bool :=
  match readApi platform (answers.api source) with
  | .notModified => true
  | _ => false

/-- One of the two requests returns the file. -/
def delivers (answers : UpstreamAnswers) (source : SourceKey) : Bool :=
  match readApi platform (answers.api source), readRaw (answers.raw source) with
  | .content _ _ _, _ => true
  | _, .ok _ => true
  | _, .error _ => false

/-- The requests for the language weights leave the presence of the content hash as it is. -/
def KeepsHash (hash : Option Units) (answers : UpstreamAnswers) : Prop :=
  notModified platform answers .programmingLanguages = true ∨
    delivers platform answers .programmingLanguages = hash.isSome

/-- A refresh with the ruleset that was the newest before it. -/
structure Run where
  previous : Option UpstreamRulesetSnapshotRecord
  refresh : UpstreamRefresh

/-- The refreshes one after another. -/
def history (store : UpstreamStore) : List UpstreamAnswers → List Run
  | [] => []
  | answers :: later =>
      let result := refreshUpstreamDrift platform store answers
      ⟨store.rulesets.head?, result.1⟩ :: history result.2 later

/-- The new ruleset has the semantic hash of the one before, and no drift is reported. -/
def NoDrift (run : Run) : Prop :=
  run.previous.map (fun ruleset => ruleset.semanticHash) = some run.refresh.ruleset.semanticHash ∧
    run.refresh.drift = none

/-- No refresh of a sequence reports drift. -/
def NeverReportsDrift (store : UpstreamStore) (runs : List UpstreamAnswers) : Prop :=
  ∀ run ∈ history platform store runs, NoDrift run

/-- Every refresh of a sequence keeps the content hash as it is stored at the start. -/
def HashKept (store : UpstreamStore) (runs : List UpstreamAnswers) : Prop :=
  ∀ answers ∈ runs, KeepsHash platform (languagesHash store) answers

/-- Every request of a sequence that succeeds returns the file. -/
def ContentKept (runs : List UpstreamAnswers) : Prop :=
  ∀ answers ∈ runs, SameContent platform upstream answers

/-- The semantic hash with a content hash of the language weights, or without one. -/
def keptHash (hash : Option Units) : Units :=
  semanticHashOf platform (rulesetPayloadOf (keptRecord platform upstream) (some hash))

/-- The digests of the two texts, with the content hash and without it, are the same. -/
def HashesCollide : Prop :=
  ∃ content, upstream .programmingLanguages = some content ∧
    keptHash platform upstream (some (sha256Hex platform content)) = keptHash platform upstream none

end Outage

/-! ## What one fetch leaves -/

variable {platform : Platform} {upstream : SourceKey → Option Units}

/-- The flags of a source file are booleans, which are stored as they are. -/
theorem storedFields_keptRecord {source : SourceKey}
    (h : source = .mirrorScoring ∨ source = .issueDiscoveryScan ∨ source = .mirrorModels) :
    storedFields (keptRecord platform upstream source) = keptRecord platform upstream source := by
  unfold keptRecord
  cases upstream source with
  | none => rfl
  | some content => rcases h with rfl | rfl | rfl <;> rfl

/-- A record that is the parsed one, or that one after it was stored. -/
def IsKept (platform : Platform) (upstream : SourceKey → Option Units) (source : SourceKey)
    (record : Record) : Prop :=
  record = keptRecord platform upstream source ∨
    record = storedFields (keptRecord platform upstream source)

theorem storedFields_of_isKept {source : SourceKey} {record : Record}
    (h : IsKept platform upstream source record) :
    storedFields record = storedFields (keptRecord platform upstream source) := by
  rcases h with rfl | rfl
  · rfl
  · exact storedFields_storedFields _

theorem eq_of_isKept {source : SourceKey} {record : Record}
    (hsource : source = .mirrorScoring ∨ source = .issueDiscoveryScan ∨ source = .mirrorModels)
    (h : IsKept platform upstream source record) :
    record = keptRecord platform upstream source := by
  rcases h with rfl | rfl
  · rfl
  · exact storedFields_keptRecord hsource

/-- A reader that reads the same from a stored value reads the same from both records. -/
theorem read_of_isKept {α : Type} {source : SourceKey} {record : Record}
    (h : IsKept platform upstream source record) (read : Option JsonValue → α)
    (hread : ∀ value, read (value.map stored) = read value) (key : String) :
    read (record.lookup key) = read ((keptRecord platform upstream source).lookup key) := by
  rcases h with rfl | rfl
  · rfl
  · rw [lookup_storedFields, hread]

/-- All that drift is about is read from either record alike. -/
theorem semanticHashOf_of_isKept {parsed : SourceKey → Record}
    (h : ∀ source, IsKept platform upstream source (parsed source)) (hash : Option (Option Units)) :
    semanticHashOf platform (rulesetPayloadOf parsed hash) =
      keptHash platform upstream hash.join := by
  have hconstants := read_of_isKept (h .constants) _ numericRecord_map_stored "constants"
  have hregistry := read_of_isKept (h .registry) _ registryPayload_map_stored "registry"
  have hcount := read_of_isKept (h .programmingLanguages)
    (fun value => (recordPayload value).length) length_recordPayload_map_stored "weights"
  have hscoring := eq_of_isKept (Or.inl rfl) (h .mirrorScoring)
  have hscan := eq_of_isKept (Or.inr (Or.inl rfl)) (h .issueDiscoveryScan)
  have hmodels := eq_of_isKept (Or.inr (Or.inr rfl)) (h .mirrorModels)
  have hpayload : semanticPayload (rulesetPayloadOf parsed hash) =
      semanticPayload (rulesetPayloadOf (keptRecord platform upstream) (some hash.join)) := by
    simp only [semanticPayload, rulesetPayloadOf, hconstants, hregistry, hcount, hscoring, hscan,
      hmodels, Option.join_some]
  rw [keptHash, semanticHashOf, semanticHashOf, hpayload]

/-- The content hash after a fetch: kept, taken from the file, or lost. -/
def carriedHash (platform : Platform) (upstream : SourceKey → Option Units)
    (answers : UpstreamAnswers) (source : SourceKey) (hash : Option Units) : Option Units :=
  if notModified platform answers source then hash
  else if delivers platform answers source then (upstream source).map (sha256Hex platform)
  else none

structure Fetched (platform : Platform) (upstream : SourceKey → Option Units) (source : SourceKey)
    (hash : Option Units) (snapshot : UpstreamSourceSnapshotRecord) : Prop where
  sourceKey : snapshot.sourceKey = source
  parsed : IsKept platform upstream source snapshot.parsed
  contentSha256 : snapshot.contentSha256.join = hash

theorem fetched_of_content {source : SourceKey} {content : Units}
    (h : upstream source = some content) (commitSha blobSha etag : Option Units)
    (status : UpstreamSourceStatus) (warnings : List Units) :
    Fetched platform upstream source ((upstream source).map (sha256Hex platform))
      (sourceSnapshotFromContent platform source commitSha blobSha etag content status
        warnings) where
  sourceKey := rfl
  parsed := by
    refine Or.inl ?_
    rw [keptRecord, h]
    rfl
  contentSha256 := by
    rw [h]
    rfl

theorem isKept_parsedOf {source : SourceKey} {previous : Option UpstreamSourceSnapshotRecord}
    (h : Reflects platform upstream source previous) :
    IsKept platform upstream source (parsedOf previous) := by
  cases previous with
  | none =>
    refine Or.inl ?_
    have habsent : upstream source = none := h
    rw [keptRecord, habsent]
    rfl
  | some snapshot => exact Or.inr h.1

/-- The raw address answers with the file or keeps what was parsed before. -/
theorem fetched_fetchRaw {source : SourceKey} {previous : Option UpstreamSourceSnapshotRecord}
    (hprevious : Reflects platform upstream source previous) {raw : RawOutcome}
    (hraw : ∀ content, readRaw raw = .ok content → upstream source = some content)
    (commitSha : Option Units) (warning : Units) :
    Fetched platform upstream source
      (match readRaw raw with
        | .ok _ => (upstream source).map (sha256Hex platform)
        | .error _ => none)
      (fetchRaw platform source commitSha previous raw warning) := by
  unfold fetchRaw
  cases hread : readRaw raw with
  | ok content => exact fetched_of_content (hraw content hread) commitSha none none .fallback _
  | error message => exact ⟨rfl, isKept_parsedOf hprevious, rfl⟩

/-- Each outcome of the two requests keeps what is parsed and carries the content hash over,
takes it from the file or drops it. -/
theorem fetched_fetchTrackedSource {answers : UpstreamAnswers}
    (hsame : SameContent platform upstream answers) {source : SourceKey}
    {previous : Option UpstreamSourceSnapshotRecord}
    (hkey : ∀ snapshot, previous = some snapshot → snapshot.sourceKey = source)
    (hprevious : Reflects platform upstream source previous) (commitSha : Option Units) :
    Fetched platform upstream source
      (carriedHash platform upstream answers source (hashOf previous).join)
      (fetchTrackedSource platform source commitSha previous (answers.api source)
        (answers.raw source)) := by
  obtain ⟨hapi, hraw⟩ := hsame source
  unfold fetchTrackedSource carriedHash notModified delivers
  cases hread : readApi platform (answers.api source) with
  | notModified =>
    cases previous with
    | none =>
      -- A file that was never returned: the raw address has nothing to answer with either.
      have hfetched := fetched_fetchRaw hprevious hraw commitSha
        (units "GitHub contents API failed (304); raw fallback used.")
      refine ⟨hfetched.sourceKey, hfetched.parsed, ?_⟩
      rw [hfetched.contentSha256]
      cases hfile : readRaw (answers.raw source) with
      | ok content =>
        have habsent : upstream source = none := hprevious
        rw [hraw content hfile] at habsent
        cases habsent
      | error message => rfl
    | some snapshot => exact ⟨hkey snapshot rfl, isKept_parsedOf hprevious, rfl⟩
  | content blobSha etag content =>
    exact fetched_of_content (hapi blobSha etag content hread) commitSha blobSha etag .fetched []
  | failed warning =>
    have hfetched := fetched_fetchRaw hprevious hraw commitSha warning
    refine ⟨hfetched.sourceKey, hfetched.parsed, ?_⟩
    rw [hfetched.contentSha256]
    cases readRaw (answers.raw source) <;> rfl

theorem sourceKey_of_latest {rows : List UpstreamSourceSnapshotRecord} {source : SourceKey} :
    ∀ snapshot, latestSourcesByKey rows source = some snapshot → snapshot.sourceKey = source := by
  intro snapshot h
  simpa using List.find?_some h

theorem sourceOf_map {fetch : SourceKey → UpstreamSourceSnapshotRecord}
    (hkey : ∀ source, (fetch source).sourceKey = source) (source : SourceKey) :
    sourceOf (TRACKED_SOURCES.map fetch) source = some (fetch source) := by
  cases source <;> simp [sourceOf, TRACKED_SOURCES, hkey]

theorem latestSourcesByKey_map {fetch : SourceKey → UpstreamSourceSnapshotRecord}
    (hkey : ∀ source, (fetch source).sourceKey = source)
    (rows : List UpstreamSourceSnapshotRecord) (source : SourceKey) :
    latestSourcesByKey ((TRACKED_SOURCES.map fetch).map persisted ++ rows) source =
      some (persisted (fetch source)) := by
  have hfind : ((TRACKED_SOURCES.map fetch).map persisted).find?
      (fun row => row.sourceKey = source) = some (persisted (fetch source)) := by
    cases source <;> simp [TRACKED_SOURCES, persisted, hkey]
  have htake : ((TRACKED_SOURCES.map fetch).map persisted).take 200 =
      (TRACKED_SOURCES.map fetch).map persisted := rfl
  rw [latestSourcesByKey, List.take_append, htake, List.find?_append, hfind, Option.some_or]

/-! ## What one refresh leaves -/

/-- The content hash of a source after a refresh. -/
def hashAfter (platform : Platform) (upstream : SourceKey → Option Units) (store : UpstreamStore)
    (answers : UpstreamAnswers) (source : SourceKey) : Option Units :=
  carriedHash platform upstream answers source
    (hashOf (latestSourcesByKey store.sources source)).join

theorem map_of_carriedHash {answers : UpstreamAnswers} {source : SourceKey}
    {previous : Option UpstreamSourceSnapshotRecord}
    (hprevious : Reflects platform upstream source previous) {hash : Units}
    (h : carriedHash platform upstream answers source (hashOf previous).join = some hash) :
    (upstream source).map (sha256Hex platform) = some hash := by
  unfold carriedHash at h
  split_ifs at h
  · cases previous with
    | none => cases h
    | some snapshot => exact hprevious.2 hash h
  · exact h

theorem reflects_persisted {source : SourceKey} {hash : Option Units}
    {snapshot : UpstreamSourceSnapshotRecord}
    (h : Fetched platform upstream source hash snapshot)
    (hhash : ∀ text, hash = some text → (upstream source).map (sha256Hex platform) = some text) :
    Reflects platform upstream source (some (persisted snapshot)) := by
  refine ⟨storedFields_of_isKept h.parsed, fun text htext => hhash text ?_⟩
  rw [← h.contentSha256, ← htext]
  rfl

section Refresh

variable {store : UpstreamStore} {answers : UpstreamAnswers}

/-- The snapshots of a refresh, one for each source. -/
def fetchedSource (platform : Platform) (store : UpstreamStore) (answers : UpstreamAnswers)
    (source : SourceKey) : UpstreamSourceSnapshotRecord :=
  fetchTrackedSource platform source answers.commitSha (latestSourcesByKey store.sources source)
    (answers.api source) (answers.raw source)

theorem fetched_fetchedSource (hstore : Consistent platform upstream store)
    (hsame : SameContent platform upstream answers) (source : SourceKey) :
    Fetched platform upstream source (hashAfter platform upstream store answers source)
      (fetchedSource platform store answers source) :=
  fetched_fetchTrackedSource hsame sourceKey_of_latest (hstore.reflects source) answers.commitSha

theorem semanticHash_of_consistent (hstore : Consistent platform upstream store) :
    store.rulesets.head?.map (fun ruleset => ruleset.semanticHash) =
      some (keptHash platform upstream (languagesHash store)) := by
  rw [hstore.ruleset,
    semanticHashOf_of_isKept fun source => isKept_parsedOf (hstore.reflects source)]
  rfl

theorem semanticHash_of_fetched {hash : SourceKey → Option Units} (hfetched : ∀ source, Fetched
      platform upstream source (hash source) (fetchedSource platform store answers source)) :
    (refreshUpstreamDrift platform store answers).1.ruleset.semanticHash =
      keptHash platform upstream (hash .programmingLanguages) := by
  have hsource := sourceOf_map fun source => (hfetched source).sourceKey
  have hparsed : ∀ source, IsKept platform upstream source (parsedOf
      (sourceOf (TRACKED_SOURCES.map (fetchedSource platform store answers)) source)) := by
    intro source
    rw [hsource]
    exact (hfetched source).parsed
  have hhash : (hashOf (sourceOf (TRACKED_SOURCES.map (fetchedSource platform store answers))
      .programmingLanguages)).join = hash .programmingLanguages := by
    rw [hsource]
    exact (hfetched .programmingLanguages).contentSha256
  rw [← hhash]
  exact semanticHashOf_of_isKept hparsed _

/-- After six fetches of the files the tables are of the files, and their ruleset is theirs. -/
theorem consistent_of_fetched {hash : SourceKey → Option Units} (hfetched : ∀ source, Fetched
      platform upstream source (hash source) (fetchedSource platform store answers source))
    (hhash : ∀ source text, hash source = some text →
      (upstream source).map (sha256Hex platform) = some text) :
    Consistent platform upstream (refreshUpstreamDrift platform store answers).2 ∧
      languagesHash (refreshUpstreamDrift platform store answers).2 =
        hash .programmingLanguages := by
  have hlatest : ∀ source, latestSourcesByKey
      (refreshUpstreamDrift platform store answers).2.sources source =
        some (persisted (fetchedSource platform store answers source)) :=
    latestSourcesByKey_map (fun source => (hfetched source).sourceKey) store.sources
  have hreflects : ∀ source, Reflects platform upstream source
      (latestSourcesByKey (refreshUpstreamDrift platform store answers).2.sources source) := by
    intro source
    rw [hlatest]
    exact reflects_persisted (hfetched source) (hhash source)
  have hlanguages : languagesHash (refreshUpstreamDrift platform store answers).2 =
      hash .programmingLanguages := by
    rw [languagesHash, latestHash, hlatest]
    exact (hfetched .programmingLanguages).contentSha256
  refine ⟨⟨hreflects, ?_⟩, hlanguages⟩
  rw [semanticHashOf_of_isKept fun source => isKept_parsedOf (hreflects source)]
  exact congrArg some ((semanticHash_of_fetched hfetched).trans
    (congrArg (keptHash platform upstream) hlanguages.symm))

/-- The ruleset of a refresh has the semantic hash the content hash after it gives. -/
theorem semanticHash_refresh (hstore : Consistent platform upstream store)
    (hsame : SameContent platform upstream answers) :
    (refreshUpstreamDrift platform store answers).1.ruleset.semanticHash = keptHash platform
      upstream (hashAfter platform upstream store answers .programmingLanguages) := by
  exact semanticHash_of_fetched (fetched_fetchedSource hstore hsame)

/-- A refresh keeps the tables consistent. -/
theorem consistent_refresh (hstore : Consistent platform upstream store)
    (hsame : SameContent platform upstream answers) :
    Consistent platform upstream (refreshUpstreamDrift platform store answers).2 ∧
      languagesHash (refreshUpstreamDrift platform store answers).2 =
        hashAfter platform upstream store answers .programmingLanguages := by
  exact consistent_of_fetched (fetched_fetchedSource hstore hsame) fun source _ htext =>
    map_of_carriedHash (hstore.reflects source) htext

/-- A report is made exactly when the hashes differ. -/
theorem buildUpstreamDriftReport_eq_none_iff (current previous : UpstreamRulesetSnapshotRecord) :
    buildUpstreamDriftReport platform current (some previous) = none ↔
      current.semanticHash = previous.semanticHash := by
  unfold buildUpstreamDriftReport
  constructor
  · intro h
    by_contra hne
    simp only [if_neg hne] at h
    cases h
  · intro h
    simp only [if_pos h]

/-- One refresh is free of drift when the content hash after it gives the same digest. -/
theorem noDrift_refresh_iff (hstore : Consistent platform upstream store)
    (hsame : SameContent platform upstream answers) :
    NoDrift ⟨store.rulesets.head?, (refreshUpstreamDrift platform store answers).1⟩ ↔
      keptHash platform upstream (hashAfter platform upstream store answers .programmingLanguages) =
        keptHash platform upstream (languagesHash store) := by
  have hcurrent := semanticHash_refresh hstore hsame
  obtain ⟨previous, hprevious, hhash⟩ :=
    Option.map_eq_some_iff.mp (semanticHash_of_consistent hstore)
  have hdrift : (refreshUpstreamDrift platform store answers).1.drift =
      buildUpstreamDriftReport platform (refreshUpstreamDrift platform store answers).1.ruleset
        store.rulesets.head? := by
    rw [List.head?_eq_getElem?]
    rfl
  unfold NoDrift
  dsimp only
  rw [hdrift, hprevious, buildUpstreamDriftReport_eq_none_iff, Option.map_some, Option.some.injEq,
    hcurrent, hhash]
  constructor
  · intro h
    exact h.2
  · intro h
    exact ⟨h.symm, h⟩

/-- The stored content hash is that of the file, when there is one. -/
theorem hash_of_consistent (hstore : Consistent platform upstream store) {hash : Units}
    (h : languagesHash store = some hash) :
    (upstream .programmingLanguages).map (sha256Hex platform) = some hash := by
  have hreflects := hstore.reflects .programmingLanguages
  unfold languagesHash latestHash hashOf at h
  cases hlatest : latestSourcesByKey store.sources .programmingLanguages with
  | none =>
    rw [hlatest] at h
    cases h
  | some snapshot =>
    rw [hlatest] at h hreflects
    exact hreflects.2 hash h

theorem hashAfter_eq_iff (hstore : Consistent platform upstream store)
    (hsame : SameContent platform upstream answers) :
    hashAfter platform upstream store answers .programmingLanguages = languagesHash store ↔
      KeepsHash platform (languagesHash store) answers := by
  have hfile : delivers platform answers .programmingLanguages = true →
      (upstream .programmingLanguages).isSome = true := by
    obtain ⟨hapi, hraw⟩ := hsame .programmingLanguages
    unfold delivers
    intro h
    split at h
    · rename_i hread
      rw [hapi _ _ _ hread, Option.isSome_some]
    · rename_i hread _
      rw [hraw _ hread, Option.isSome_some]
    · cases h
  have hcarried : hashAfter platform upstream store answers .programmingLanguages =
      carriedHash platform upstream answers .programmingLanguages (languagesHash store) := rfl
  rw [hcarried]
  unfold carriedHash KeepsHash
  cases notModified platform answers .programmingLanguages with
  | true => simp only [if_true, true_or]
  | false =>
    cases hdelivers : delivers platform answers .programmingLanguages with
    | true =>
      obtain ⟨content, hcontent⟩ := Option.isSome_iff_exists.mp (hfile hdelivers)
      cases hkept : languagesHash store with
      | none => simp [hcontent]
      | some hash => simp [hash_of_consistent hstore hkept]
    | false =>
      cases languagesHash store <;> simp

/-- Two content hashes of the file give one semantic hash when they are the same, or else when
the two digests are. -/
theorem keptHash_eq_iff {hash hash' : Option Units}
    (h : ∀ text, hash = some text →
      (upstream .programmingLanguages).map (sha256Hex platform) = some text)
    (h' : ∀ text, hash' = some text →
      (upstream .programmingLanguages).map (sha256Hex platform) = some text) :
    keptHash platform upstream hash = keptHash platform upstream hash' ↔
      hash = hash' ∨ HashesCollide platform upstream := by
  constructor
  · intro heq
    cases hash with
    | none =>
      cases hash' with
      | none => exact Or.inl rfl
      | some text =>
        obtain ⟨content, hcontent, hsha⟩ := Option.map_eq_some_iff.mp (h' text rfl)
        exact Or.inr ⟨content, hcontent, by rw [hsha, heq]⟩
    | some text =>
      cases hash' with
      | none =>
        obtain ⟨content, hcontent, hsha⟩ := Option.map_eq_some_iff.mp (h text rfl)
        exact Or.inr ⟨content, hcontent, by rw [hsha, heq]⟩
      | some text' => exact Or.inl ((h text rfl).symm.trans (h' text' rfl))
  · rintro (rfl | ⟨content, hcontent, hcollide⟩)
    · rfl
    · have hnone : ∀ text : Option Units, (∀ hash, text = some hash →
          (upstream .programmingLanguages).map (sha256Hex platform) = some hash) →
          keptHash platform upstream text = keptHash platform upstream none := by
        intro text htext
        cases text with
        | none => rfl
        | some hash =>
          rw [← htext hash rfl, hcontent]
          exact hcollide
      rw [hnone hash h, hnone hash' h']

/-- One refresh is free of drift exactly when the content hash is kept, or the digests of the
texts with it and without it are the same. -/
theorem noDrift_iff (hstore : Consistent platform upstream store)
    (hsame : SameContent platform upstream answers) :
    NoDrift ⟨store.rulesets.head?, (refreshUpstreamDrift platform store answers).1⟩ ↔
      KeepsHash platform (languagesHash store) answers ∨ HashesCollide platform upstream := by
  obtain ⟨hnext, hafter⟩ := consistent_refresh hstore hsame
  have hcarried : ∀ text,
      hashAfter platform upstream store answers .programmingLanguages = some text →
      (upstream .programmingLanguages).map (sha256Hex platform) = some text := by
    intro text htext
    exact hash_of_consistent hnext (hafter.trans htext)
  rw [noDrift_refresh_iff hstore hsame,
    keptHash_eq_iff hcarried fun text => hash_of_consistent hstore, hashAfter_eq_iff hstore hsame]

end Refresh

/-- Refreshes of unchanged files report no drift exactly when each of them keeps the content
hash of the language weights as it is stored: it is there, and the contents API says that the
file is not modified or one of the two requests returns it; or it is not there, and both fail. -/
theorem neverReportsDrift_iff {store : UpstreamStore} (hstore : Consistent platform upstream store)
    {runs : List UpstreamAnswers} (hruns : ContentKept platform upstream runs) :
    NeverReportsDrift platform store runs ↔
      HashKept platform store runs ∨ HashesCollide platform upstream := by
  unfold NeverReportsDrift HashKept
  induction runs generalizing store with
  | nil => simp [history]
  | cons answers later ih =>
    unfold ContentKept at hruns
    rw [List.forall_mem_cons] at hruns
    obtain ⟨hfirst, hlater⟩ := hruns
    obtain ⟨hnext, hafter⟩ := consistent_refresh hstore hfirst
    rw [history, List.forall_mem_cons, noDrift_iff hstore hfirst, ih hnext hlater,
      List.forall_mem_cons, hafter]
    by_cases hcollide : HashesCollide platform upstream
    · simp only [hcollide, or_true, and_self]
    · simp only [hcollide, or_false]
      refine and_congr_right fun hkeeps => ?_
      rw [(hashAfter_eq_iff hstore hfirst).mpr hkeeps]

/-! ## An outage -/

/-- The text the semantic hash of six empty JSON objects is taken from. -/
def emptyRulesetText (contentHash : String) : Units :=
  units "\x7b\"issueDiscovery\":\x7b\"branchEligibilityRequired\":false\x7d," ++
  units "\"languageWeights\":\x7b\"contentHash\":" ++ units contentHash ++
  units ",\"count\":0\x7d,\"mirrorLinkage\":\x7b\"solvedByPrRequired\":false\x7d," ++
  units "\"registry\":\x7b\"repoCount\":0,\"repositories\":[],\"totalEmissionShare\":0\x7d," ++
  units "\"scoring\":\x7b\"activeModel\":\"unknown\",\"constants\":\x7b\x7d," ++
  units "\"semanticFlags\":\x7b\"usesDensityModel\":false," ++
  units "\"usesExponentialSaturation\":false,\"usesSaturationModel\":false\x7d\x7d\x7d"

/-- SHA-256 of the three texts that are hashed below. -/
def digestTable : List (Units × List ℕ) := [
  (units "\x7b\x7d",
    [68, 19, 111, 163, 85, 179, 103, 138, 17, 70, 173, 22, 247, 232, 100, 158, 148, 251, 79, 194,
      31, 231, 126, 131, 16, 192, 96, 246, 28, 170, 255, 138]),
  (emptyRulesetText "\"44136fa355b3678a1146ad16f7e8649e94fb4fc21fe77e8310c060f61caaff8a\"",
    [237, 155, 165, 202, 250, 79, 23, 8, 195, 93, 103, 96, 102, 81, 128, 225, 218, 244, 42, 228,
      138, 125, 141, 186, 160, 232, 32, 69, 18, 214, 231, 128]),
  (emptyRulesetText "null",
    [220, 141, 72, 242, 53, 43, 24, 225, 125, 4, 133, 32, 225, 225, 91, 143, 234, 91, 130, 242, 105,
      21, 240, 163, 36, 110, 207, 69, 54, 5, 20, 212])]

/-- The platform on the texts of the outage below. -/
def outagePlatform : Platform where
  parseJson := fun text => if text = units "\x7b\x7d" then some (.object []) else none
  readNumber := fun _ => .nan
  numberText := fun value => units (JsValue.JsNumber.toText (.finite value))
  add := fun left right =>
    match left, right with
    | .finite left, .finite right => .finite (left + right)
    | _, _ => .nan
  localeCompare := fun left right => if left = right then .eq else if left < right then .lt else .gt
  atob := fun text =>
    if text = units "e30=" then .ok (units "\x7b\x7d") else .error (units "Invalid character")
  utf8Decode := id
  digest := fun text => (digestTable.lookup text).getD []

def outageFiles (_ : SourceKey) : Option Units := some (units "\x7b\x7d")

def delivery : ApiOutcome :=
  .answered 200 (.ok ⟨some (units "e30="), some (units "base64"), none⟩) (some (units "W/1"))

def failedRequest : RawOutcome := .threw (units "fetch failed")

/-- Every source is returned. -/
def allDelivered : UpstreamAnswers := ⟨none, fun _ => delivery, fun _ => failedRequest⟩

/-- Both requests for some sources fail; the others are not modified. -/
def outage (fails : SourceKey → Bool) : UpstreamAnswers where
  commitSha := none
  api := fun source =>
    if fails source then .threw (units "fetch failed") else .answered 304 (.error []) none
  raw := fun _ => failedRequest

def languagesOutage : UpstreamAnswers := outage fun source => source = .programmingLanguages

/-- The language weights alone are answered for. -/
def otherOutage : UpstreamAnswers := outage fun source => source ≠ .programmingLanguages

/-- The tables after a first refresh. -/
def storedRefresh : UpstreamStore := (refreshUpstreamDrift outagePlatform ⟨[], []⟩ allDelivered).2

theorem consistent_storedRefresh : Consistent outagePlatform outageFiles storedRefresh :=
  (consistent_of_fetched
    (fun _ => fetched_of_content rfl none none (some (units "W/1")) .fetched []) fun _ _ h => h).1

theorem sameContent_outage (fails : SourceKey → Bool) :
    SameContent outagePlatform outageFiles (outage fails) := by
  intro source
  constructor
  · intro blobSha etag content h
    unfold outage at h
    dsimp only at h
    split at h <;> cases h
  · intro content h
    cases h

theorem sameContent_allDelivered : SameContent outagePlatform outageFiles allDelivered := by
  intro source
  constructor
  · intro blobSha etag content h
    have hread : readApi outagePlatform (allDelivered.api source) =
        .content none (some (units "W/1")) (units "\x7b\x7d") := rfl
    rw [hread] at h
    cases h
    rfl
  · intro content h
    cases h

theorem contentKept_outage (fails : SourceKey → Bool) :
    ContentKept outagePlatform outageFiles [outage fails, allDelivered] := by
  intro answers hanswers
  rcases List.mem_pair.mp hanswers with rfl | rfl
  · exact sameContent_outage fails
  · exact sameContent_allDelivered

theorem hashKept_otherOutage :
    HashKept outagePlatform storedRefresh [otherOutage, allDelivered] := by
  intro answers hanswers
  rcases List.mem_pair.mp hanswers with rfl | rfl
  · exact Or.inl rfl
  · exact Or.inr rfl

/-- An outage of the other five sources goes by without a report. -/
theorem otherOutage_neverReportsDrift :
    NeverReportsDrift outagePlatform storedRefresh [otherOutage, allDelivered] :=
  (neverReportsDrift_iff consistent_storedRefresh (contentKept_outage _)).mpr
    (Or.inl hashKept_otherOutage)

/-- The outage and the refresh after it each report that the language weights changed. -/
theorem outage_reports_drift :
    Consistent outagePlatform outageFiles storedRefresh ∧
    ContentKept outagePlatform outageFiles [languagesOutage, allDelivered] ∧
    (history outagePlatform storedRefresh [languagesOutage, allDelivered]).map
        (fun run => run.refresh.drift.map fun report => report.changes) =
      [some [units "programming language weights changed"],
        some [units "programming language weights changed"]] :=
  ⟨consistent_storedRefresh, contentKept_outage _, by decide +kernel⟩

end Gittensory.UpstreamOutage
