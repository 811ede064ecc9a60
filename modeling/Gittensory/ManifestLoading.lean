import Gittensory.KeyedTable
import Gittensory.ManifestSnapshot
import Gittensory.Retention
import Gittensory.WorkerPool

/-!
How focus manifests are stored and loaded (`signals/focus-manifest-loader.ts`). A load reads the
latest snapshot and on a miss fetches the file of the repository, which takes its time: other
loads, records of maintainers and the pruning of old snapshots come between. Loads for the
public never read a maintainer's record and store nothing. Where the parser throws, a fetch falls
back to the empty manifest, and a maintainer's record is not stored.
-/
namespace Gittensory.ManifestLoading

open CodeUnits GuardedRun JsonRecord ManifestParsing Retention WorkerPool
open ManifestSnapshot (exists_reload)

def REPO_FOCUS_MANIFEST_MAX_AGE_MS : ℤ := 6 * 60 * 60 * 1000

def REPO_FOCUS_MANIFEST_MAX_CONCURRENT_LOADS : ℕ := 4

/-- A snapshot of the type of focus manifests, its time in milliseconds. -/
structure SignalSnapshotRecord where
  targetKey : String
  payload : JsonValue
  generatedAt : ℤ

/-- The latest first. -/
def listSignalSnapshots (rows : List SignalSnapshotRecord) (targetKey : String) :
    List SignalSnapshotRecord :=
  ((rows.filter fun row => row.targetKey = targetKey).mergeSort
    fun row other => other.generatedAt ≤ row.generatedAt).take 100

/-- `payload.source` of a payload that is a mapping -/
def explicitSource : JsonValue → Option JsonValue
  | .object record => record.lookup "source"
  | _ => none

def isText (text : String) : Option JsonValue → Bool
  | some (.string value) => value = units text
  | _ => false

structure LoadCall where
  repoFullName : String
  publicOnly : Bool := false
  refresh : Bool := false
  maxAgeMs : ℤ := REPO_FOCUS_MANIFEST_MAX_AGE_MS
  deriving DecidableEq

/-- The manifest in store, `some none` on a miss, or nothing when the parser throws. -/
def readCachedManifest (rows : List SignalSnapshotRecord) (call : LoadCall) (now : ℤ) :
    Option (Option FocusManifest) :=
  match (listSignalSnapshots rows call.repoFullName).head? with
  | none => some none
  | some latest =>
      (parseFocusManifest (some latest.payload) none).map fun manifest =>
        if call.publicOnly && !isText "repo_file" (explicitSource latest.payload) then none
        else if isText "api_record" (explicitSource latest.payload) then some manifest
        else if call.maxAgeMs < now - latest.generatedAt then none
        else some manifest

/-- What the loader is configured with; `selfManifest` is the text built into the worker for its
own repository. -/
structure Loader where
  parsers : ContentParsers
  selfRepoFullName : String
  selfManifest : Units

/-- What a fetch comes to: the text of the file, none where there is no file, or a throw. -/
inductive Fetch where
  | content (text : Option Units)
  | failed

/-- What throws is caught, and the manifest is that of no file. -/
def fetchedManifest (loader : Loader) (repoFullName : String) (fetch : Fetch) : FocusManifest :=
  let parsed := match fetch with
    | .failed => none
    | .content (some text) => parseFocusManifestContent loader.parsers (some text) .repoFile
    | .content none =>
        if JsValue.toLowerCase repoFullName = JsValue.toLowerCase loader.selfRepoFullName then
          parseFocusManifestContent loader.parsers (some loader.selfManifest) .repoFile
        else parseFocusManifest none none
  parsed.getD (emptyManifest .none [])

/-- The loads whose fetch has not settled are `waiting`. -/
structure State where
  rows : List SignalSnapshotRecord
  waiting : List LoadCall

def start : State := ⟨[], []⟩

inductive Event where
  | load (call : LoadCall) (now : ℤ)
  | fetched (call : LoadCall) (fetch : Fetch) (now : ℤ)
  | upsertRepoFocusManifest (repoFullName : String) (raw : Option JsonValue) (now : ℤ)
  | prune (cutoff : ℤ) (limit : ℕ)

/-- What a load returns at once; on a miss it goes on to fetch the file. -/
def cached (state : State) (call : LoadCall) (now : ℤ) : Option (Option FocusManifest) :=
  if call.refresh then some none else readCachedManifest state.rows call now

def persistRepoFocusManifest (rows : List SignalSnapshotRecord) (repoFullName : String)
    (manifest : FocusManifest) (now : ℤ) : List SignalSnapshotRecord :=
  rows ++ [⟨repoFullName, manifestToJson manifest, now⟩]

def step (loader : Loader) (state : State) : Event → State
  | .load call now =>
      match cached state call now with
      | some none => { state with waiting := call :: state.waiting }
      | _ => state
  | .fetched call fetch now =>
      if call ∈ state.waiting then
        { waiting := state.waiting.erase call
          rows :=
            if call.publicOnly then state.rows
            else persistRepoFocusManifest state.rows call.repoFullName
              (fetchedManifest loader call.repoFullName fetch) now }
      else state
  | .upsertRepoFocusManifest repoFullName raw now =>
      match parseFocusManifest raw (some .apiRecord) with
      | none => state
      | some manifest =>
          { state with rows := persistRepoFocusManifest state.rows repoFullName manifest now }
  | .prune cutoff limit =>
      { state with rows := deleteFirst (fun row => row.generatedAt < cutoff) limit state.rows }

variable (loader : Loader)

theorem step_load_of_miss {state : State} {call : LoadCall} {now : ℤ}
    (h : cached state call now = some none) :
    step loader state (.load call now) = { state with waiting := call :: state.waiting } := by
  rw [step, h]

theorem step_load_of_found {state : State} {call : LoadCall} {now : ℤ}
    (h : cached state call now ≠ some none) : step loader state (.load call now) = state := by
  rw [step]
  split
  · exact absurd ‹_› h
  · rfl

/-! ## What the public can tell -/

/-- The same event, or records of the same maintainer's call with other contents, which the parser
accepts both or neither. -/
inductive Alike : Event → Event → Prop
  | same (event : Event) : Alike event event
  | record (repoFullName : String) (raw raw' : Option JsonValue) (now : ℤ)
      (haccepted : (parseFocusManifest raw (some .apiRecord)).isSome =
        (parseFocusManifest raw' (some .apiRecord)).isSome) :
      Alike (.upsertRepoFocusManifest repoFullName raw now)
        (.upsertRepoFocusManifest repoFullName raw' now)

/-- The payload of a stored record. -/
def IsRecord (payload : JsonValue) : Prop :=
  ∃ manifest : FocusManifest, manifest.source = .apiRecord ∧ payload = manifestToJson manifest

/-- Of the same repository and time, and of the same payload unless both are records. -/
structure RowAlike (row row' : SignalSnapshotRecord) : Prop where
  targetKey : row.targetKey = row'.targetKey
  generatedAt : row.generatedAt = row'.generatedAt
  payload : row.payload = row'.payload ∨ (IsRecord row.payload ∧ IsRecord row'.payload)

structure StateAlike (state state' : State) : Prop where
  rows : ∃ pairs : List (SignalSnapshotRecord × SignalSnapshotRecord),
    (∀ pair ∈ pairs, RowAlike pair.1 pair.2) ∧ state.rows = pairs.map Prod.fst ∧
      state'.rows = pairs.map Prod.snd
  waiting : state.waiting = state'.waiting

theorem deleteFirst_map {α β : Type*} {f : α → β} {condition : β → Bool} {condition' : α → Bool}
    (limit : ℕ) (l : List α) (h : ∀ a ∈ l, condition (f a) = condition' a) :
    deleteFirst condition limit (l.map f) = (deleteFirst condition' limit l).map f := by
  fun_induction deleteFirst condition' limit l with
  | case1 => simp [deleteFirst]
  | case2 => simp [deleteFirst]
  | case3 limit row rows hrow ih =>
    have hhead := h row List.mem_cons_self
    simp [deleteFirst, hhead, hrow, ih fun a ha => h a (List.mem_cons_of_mem _ ha)]
  | case4 limit row rows hrow ih =>
    have hhead := h row List.mem_cons_self
    simp [deleteFirst, hhead, hrow, ih fun a ha => h a (List.mem_cons_of_mem _ ha)]

theorem mem_of_mem_deleteFirst {α : Type*} {condition : α → Bool} {limit : ℕ} {l : List α} {a : α}
    (h : a ∈ deleteFirst condition limit l) : a ∈ l := by
  fun_induction deleteFirst condition limit l with
  | case1 => exact h
  | case2 => exact h
  | case3 limit row rows hrow ih => exact List.mem_cons_of_mem _ (ih h)
  | case4 limit row rows hrow ih =>
    rcases List.mem_cons.mp h with rfl | hrest
    · exact List.mem_cons_self
    · exact List.mem_cons_of_mem _ (ih hrest)

/-- The latest snapshots of two alike states are alike. -/
theorem StateAlike.latest {state state' : State} (h : StateAlike state state')
    (targetKey : String) :
    ((listSignalSnapshots state.rows targetKey).head? = none ∧
        (listSignalSnapshots state'.rows targetKey).head? = none) ∨
      ∃ row row', (listSignalSnapshots state.rows targetKey).head? = some row ∧
        (listSignalSnapshots state'.rows targetKey).head? = some row' ∧ RowAlike row row' := by
  obtain ⟨pairs, halike, hrows, hrows'⟩ := h.rows
  let listed := ((pairs.filter fun pair => pair.1.targetKey = targetKey).mergeSort
    fun pair other => other.1.generatedAt ≤ pair.1.generatedAt).take 100
  have hfirst : listSignalSnapshots state.rows targetKey = listed.map Prod.fst := by
    rw [listSignalSnapshots, hrows, List.filter_map, List.map_take]
    refine congrArg (List.take 100) (List.map_mergeSort fun pair _ other _ => ?_).symm
    rfl
  have hsecond : listSignalSnapshots state'.rows targetKey = listed.map Prod.snd := by
    have hfilter : (pairs.filter ((fun row => decide (row.targetKey = targetKey)) ∘ Prod.snd)) =
        pairs.filter fun pair => pair.1.targetKey = targetKey :=
      List.filter_congr fun pair hpair => by
        simp only [Function.comp_apply, (halike pair hpair).targetKey]
    rw [listSignalSnapshots, hrows', List.filter_map, List.map_take, hfilter]
    refine congrArg (List.take 100) (List.map_mergeSort fun pair hpair other hother => ?_).symm
    rw [(halike pair (List.mem_of_mem_filter hpair)).generatedAt,
      (halike other (List.mem_of_mem_filter hother)).generatedAt]
  rw [hfirst, hsecond, List.head?_map, List.head?_map]
  rcases hlisted : listed.head? with _ | pair
  · exact Or.inl ⟨rfl, rfl⟩
  · have hpair : pair ∈ pairs := by
      have hmem := List.mem_of_mem_take (List.mem_of_mem_head? hlisted)
      exact List.mem_of_mem_filter ((List.mem_mergeSort).mp hmem)
    exact Or.inr ⟨pair.1, pair.2, rfl, rfl, halike pair hpair⟩

/-- A record is no file of the repository. -/
theorem not_isText_repo_file {value : Option JsonValue} (h : isText "api_record" value = true) :
    isText "repo_file" value = false := by
  unfold isText at h ⊢
  split at h
  · rw [decide_eq_true_eq] at h
    subst h
    decide
  · cases h

theorem explicitSource_manifestToJson (manifest : FocusManifest) :
    explicitSource (manifestToJson manifest) = some (.string (sources.write manifest.source)) := rfl

theorem IsRecord.isText {payload : JsonValue} (h : IsRecord payload) :
    isText "api_record" (explicitSource payload) = true := by
  obtain ⟨manifest, hsource, rfl⟩ := h
  rw [explicitSource_manifestToJson, hsource]
  decide

/-- A record is no answer to the public, and any other load gets it. -/
theorem IsRecord.read {rows : List SignalSnapshotRecord} {call : LoadCall}
    {latest : SignalSnapshotRecord} (h : IsRecord latest.payload)
    (hlatest : (listSignalSnapshots rows call.repoFullName).head? = some latest) (now : ℤ) :
    ∃ manifest, parseFocusManifest (some latest.payload) none = some manifest ∧
      readCachedManifest rows call now =
        some (if call.publicOnly then none else some manifest) := by
  have hrecord := h.isText
  obtain ⟨stored, -, hpayload⟩ := h
  obtain ⟨manifest, hmanifest, -⟩ := exists_reload stored
  rw [reload, ← hpayload] at hmanifest
  refine ⟨manifest, hmanifest, ?_⟩
  rw [readCachedManifest, hlatest]
  simp only [hmanifest, hrecord, not_isText_repo_file hrecord]
  cases call.publicOnly <;> rfl

/-- Loads of the public get the same manifest, and other loads miss together. -/
theorem StateAlike.cached {state state' : State} (h : StateAlike state state') (call : LoadCall)
    (now : ℤ) : (cached state call now = some none ↔ cached state' call now = some none) ∧
      (call.publicOnly = true → cached state call now = cached state' call now) := by
  unfold ManifestLoading.cached
  split_ifs with hrefresh
  · exact ⟨Iff.rfl, fun _ => rfl⟩
  rcases h.latest call.repoFullName with ⟨hnone, hnone'⟩ | ⟨row, row', hrow, hrow', halike⟩
  · rw [readCachedManifest, readCachedManifest, hnone, hnone']
    exact ⟨Iff.rfl, fun _ => rfl⟩
  · rcases halike.payload with hpayload | ⟨hrecord, hrecord'⟩
    · rw [readCachedManifest, readCachedManifest, hrow, hrow']
      simp [hpayload, halike.generatedAt]
    · obtain ⟨manifest, -, hread⟩ := hrecord.read hrow now
      obtain ⟨manifest', -, hread'⟩ := hrecord'.read hrow' now
      rw [hread, hread']
      cases call.publicOnly <;> simp

theorem parseFocusManifest_source {raw : Option JsonValue} {source : FocusManifestSource}
    {manifest : FocusManifest} (h : parseFocusManifest raw (some source) = some manifest) :
    manifest.source = source := by
  rcases raw with _ | raw
  · rw [← Option.some.inj h]
    rfl
  · cases raw with
    | object record =>
      obtain ⟨warnings, -, rfl⟩ := Option.map_eq_some_iff.mp h
      dsimp only
      split_ifs <;> rfl
    | _ =>
      rw [← Option.some.inj h]
      rfl

theorem isRecord_of_parsed {raw : Option JsonValue} {manifest : FocusManifest}
    (h : parseFocusManifest raw (some .apiRecord) = some manifest) :
    IsRecord (manifestToJson manifest) :=
  ⟨manifest, parseFocusManifest_source h, rfl⟩

theorem StateAlike.append {state state' : State} (h : StateAlike state state')
    {row row' : SignalSnapshotRecord} (hrow : RowAlike row row') {waiting : List LoadCall} :
    StateAlike ⟨state.rows ++ [row], waiting⟩ ⟨state'.rows ++ [row'], waiting⟩ := by
  obtain ⟨pairs, halike, hrows, hrows'⟩ := h.rows
  refine ⟨⟨pairs ++ [(row, row')], ?_, ?_, ?_⟩, rfl⟩
  · intro pair hpair
    rcases List.mem_append.mp hpair with hold | hnew
    · exact halike pair hold
    · rw [List.mem_singleton.mp hnew]
      exact hrow
  · rw [List.map_append, ← hrows]
    rfl
  · rw [List.map_append, ← hrows']
    rfl

/-- Two records are both put, or the parser throws on both. -/
theorem StateAlike.record {state state' : State} (h : StateAlike state state')
    (repoFullName : String) (now : ℤ) {raw raw' : Option JsonValue}
    (haccepted : (parseFocusManifest raw (some .apiRecord)).isSome =
      (parseFocusManifest raw' (some .apiRecord)).isSome) :
    StateAlike (step loader state (.upsertRepoFocusManifest repoFullName raw now))
      (step loader state' (.upsertRepoFocusManifest repoFullName raw' now)) := by
  simp only [step]
  rcases hparsed : parseFocusManifest raw (some .apiRecord) with _ | manifest
  · rw [hparsed] at haccepted
    have hparsed' : parseFocusManifest raw' (some .apiRecord) = none := by
      simpa using haccepted.symm
    rw [hparsed']
    exact h
  · rw [hparsed] at haccepted
    obtain ⟨manifest', hparsed'⟩ := Option.isSome_iff_exists.mp haccepted.symm
    rw [hparsed', h.waiting]
    have hrow : RowAlike ⟨repoFullName, manifestToJson manifest, now⟩
        ⟨repoFullName, manifestToJson manifest', now⟩ :=
      ⟨rfl, rfl, Or.inr ⟨isRecord_of_parsed hparsed, isRecord_of_parsed hparsed'⟩⟩
    exact h.append hrow

theorem StateAlike.prune {state state' : State} (h : StateAlike state state') (cutoff : ℤ)
    (limit : ℕ) :
    StateAlike (step loader state (.prune cutoff limit))
      (step loader state' (.prune cutoff limit)) := by
  obtain ⟨pairs, hpairs, hrows, hrows'⟩ := h.rows
  refine ⟨⟨deleteFirst (fun pair => pair.1.generatedAt < cutoff) limit pairs, ?_, ?_, ?_⟩,
    h.waiting⟩
  · exact fun pair hpair => hpairs pair (mem_of_mem_deleteFirst hpair)
  · rw [step, hrows]
    exact deleteFirst_map limit pairs fun _ _ => rfl
  · rw [step, hrows']
    refine deleteFirst_map limit pairs fun pair hpair => ?_
    rw [(hpairs pair hpair).generatedAt]

theorem stateAlike_step {state state' : State} {event event' : Event}
    (h : StateAlike state state') (halike : Alike event event') :
    StateAlike (step loader state event) (step loader state' event') := by
  obtain ⟨rows, waiting⟩ := state
  obtain ⟨rows', waiting'⟩ := state'
  obtain rfl : waiting = waiting' := h.waiting
  cases halike with
  | record repoFullName raw raw' now haccepted => exact h.record loader repoFullName now haccepted
  | same =>
    cases event with
    | load call now =>
      have hmiss := (h.cached call now).1
      by_cases hcached : cached ⟨rows, waiting⟩ call now = some none
      · rw [step_load_of_miss loader hcached, step_load_of_miss loader (hmiss.mp hcached)]
        exact ⟨h.rows, rfl⟩
      · rw [step_load_of_found loader hcached,
          step_load_of_found loader fun hmissed => hcached (hmiss.mpr hmissed)]
        exact h
    | fetched call fetch now =>
      simp only [step]
      split_ifs
      · exact ⟨h.rows, rfl⟩
      · exact h.append ⟨rfl, rfl, Or.inl rfl⟩
      · exact h
    | upsertRepoFocusManifest repoFullName raw now => exact h.record loader repoFullName now rfl
    | prune cutoff limit => exact h.prune loader cutoff limit

/-- What maintainers put into their records makes no difference to what the public is answered,
then or later: not to a manifest, and not to whether one is in store. -/
theorem public_answers_alike {events events' : List Event} (h : List.Forall₂ Alike events events')
    {call : LoadCall} (hcall : call.publicOnly = true) (now : ℤ) :
    cached (run (step loader) start events) call now =
      cached (run (step loader) start events') call now := by
  suffices halike : ∀ {state state' : State}, StateAlike state state' →
      StateAlike (run (step loader) state events) (run (step loader) state' events') by
    exact ((halike ⟨⟨[], by simp, rfl, rfl⟩, rfl⟩).cached call now).2 hcall
  induction h with
  | nil => exact fun h => h
  | cons hevent _ ih => exact fun h => ih (stateAlike_step loader h hevent)

/-- A maintainer changes a record; nothing waits and nothing else is stored. -/
def secretRun (blocked : String) : List Event :=
  [.upsertRepoFocusManifest "acme/app"
    (some (.object [("blockedPaths", .array [.string (units blocked)])])) 5]

/-- A loader without a parser for what it fetches. -/
def emptyLoader : Loader := ⟨⟨fun _ => none, fun _ => none⟩, "acme/gittensory", []⟩

theorem acme_answers_alike :
    cached (run (step emptyLoader) start (secretRun "src/"))
        ⟨"acme/app", true, false, 1000⟩ 6 =
      cached (run (step emptyLoader) start (secretRun "docs/"))
        ⟨"acme/app", true, false, 1000⟩ 6 :=
  public_answers_alike emptyLoader (.cons (.record _ _ _ _ (by decide +kernel)) .nil) rfl 6

/-! ## A maintainer's record -/

/-- What may store another snapshot of the repository, or prune those of the time `now`. -/
def Disturbs (repoFullName : String) (now : ℤ) : Event → Prop
  | .load call _ =>
      call.repoFullName = repoFullName ∧ call.publicOnly = false ∧ call.refresh = true
  | .fetched .. => False
  | .upsertRepoFocusManifest other _ _ => other = repoFullName
  | .prune cutoff _ => now < cutoff

/-- The record is the latest snapshot of its repository, and no waiting load will store one. -/
structure Held (record : SignalSnapshotRecord) (state : State) : Prop where
  mem : record ∈ state.rows
  latest : ∀ row ∈ state.rows, row.targetKey = record.targetKey →
    row = record ∨ row.generatedAt < record.generatedAt
  waiting : ∀ call ∈ state.waiting, call.repoFullName = record.targetKey → call.publicOnly = true

theorem Held.head {record : SignalSnapshotRecord} {state : State} (h : Held record state) :
    (listSignalSnapshots state.rows record.targetKey).head? = some record := by
  let listed := (state.rows.filter fun row => row.targetKey = record.targetKey).mergeSort
    fun row other => other.generatedAt ≤ row.generatedAt
  have hsorted : listed.Pairwise fun row other => decide (other.generatedAt ≤ row.generatedAt) :=
    List.pairwise_mergeSort
      (fun _ _ _ h h' => by simpa using Int.le_trans (of_decide_eq_true h') (of_decide_eq_true h))
      (fun row other => by simpa using Int.le_total other.generatedAt row.generatedAt) _
  have hrecord : record ∈ listed := by
    rw [List.mem_mergeSort, List.mem_filter]
    exact ⟨h.mem, decide_eq_true rfl⟩
  have hhead : listed.head? = some record := by
    rcases hlisted : listed with _ | ⟨first, others⟩
    · rw [hlisted] at hrecord
      exact absurd hrecord List.not_mem_nil
    · rw [hlisted] at hrecord hsorted
      have hfirst : first ∈ listed := hlisted ▸ List.mem_cons_self
      rw [List.mem_mergeSort, List.mem_filter] at hfirst
      obtain ⟨hstored, hkey⟩ := hfirst
      rcases h.latest first hstored (of_decide_eq_true hkey) with rfl | holder
      · rfl
      · rcases List.mem_cons.mp hrecord with rfl | hothers
        · rfl
        · have hle := of_decide_eq_true ((List.pairwise_cons.mp hsorted).1 record hothers)
          omega
  rw [listSignalSnapshots, List.head?_take, if_neg (by decide)]
  exact hhead

/-- A full load without `refresh` gets a record however old it is. -/
theorem Held.cached {record : SignalSnapshotRecord} {state : State} (h : Held record state)
    (hrecord : IsRecord record.payload) {call : LoadCall}
    (hname : call.repoFullName = record.targetKey) (hpublic : call.publicOnly = false)
    (hrefresh : call.refresh = false) (now : ℤ) :
    ∃ manifest, parseFocusManifest (some record.payload) none = some manifest ∧
      cached state call now = some (some manifest) := by
  have hhead := h.head
  rw [← hname] at hhead
  obtain ⟨manifest, hmanifest, hread⟩ := hrecord.read hhead now
  rw [hpublic] at hread
  rw [ManifestLoading.cached, hrefresh]
  exact ⟨manifest, hmanifest, hread⟩

theorem mem_deleteFirst_of_kept {α : Type*} {condition : α → Bool} {limit : ℕ} {l : List α} {a : α}
    (ha : a ∈ l) (hkept : condition a = false) : a ∈ deleteFirst condition limit l := by
  fun_induction deleteFirst condition limit l with
  | case1 => exact ha
  | case2 => exact ha
  | case3 limit row rows hrow ih =>
    rcases List.mem_cons.mp ha with rfl | hrest
    · rw [hkept] at hrow
      cases hrow
    · exact ih hrest
  | case4 limit row rows hrow ih =>
    rcases List.mem_cons.mp ha with rfl | hrest
    · exact List.mem_cons_self
    · exact List.mem_cons_of_mem _ (ih hrest)

theorem Held.append {record row : SignalSnapshotRecord} {state : State} (h : Held record state)
    (hother : row.targetKey ≠ record.targetKey) {waiting : List LoadCall}
    (hwaiting : ∀ call ∈ waiting, call ∈ state.waiting) :
    Held record ⟨state.rows ++ [row], waiting⟩ := by
  refine ⟨List.mem_append_left _ h.mem, fun stored hstored hkey => ?_, fun call hcall => ?_⟩
  · rcases List.mem_append.mp hstored with hold | hnew
    · exact h.latest stored hold hkey
    · exact absurd (List.mem_singleton.mp hnew ▸ hkey) hother
  · exact h.waiting call (hwaiting call hcall)

theorem held_step {record : SignalSnapshotRecord} {state : State} {event : Event}
    (hrecord : IsRecord record.payload) (h : Held record state)
    (hevent : ¬ Disturbs record.targetKey record.generatedAt event) :
    Held record (step loader state event) := by
  cases event with
  | load call now =>
    by_cases hcached : ManifestLoading.cached state call now = some none
    · rw [step_load_of_miss loader hcached]
      refine ⟨h.mem, h.latest, fun other hother hname => ?_⟩
      rcases List.mem_cons.mp hother with rfl | hold
      · by_contra hpublic
        rw [Bool.not_eq_true] at hpublic
        by_cases hrefresh : other.refresh = true
        · exact hevent ⟨hname, hpublic, hrefresh⟩
        · obtain ⟨manifest, -, hfound⟩ :=
            h.cached hrecord hname hpublic (by simpa using hrefresh) now
          rw [hfound] at hcached
          cases hcached
      · exact h.waiting other hold hname
    · rw [step_load_of_found loader hcached]
      exact h
  | fetched call fetch now =>
    simp only [step]
    split_ifs with hcall hpublic
    · exact ⟨h.mem, h.latest, fun other hother => h.waiting other (List.mem_of_mem_erase hother)⟩
    · exact h.append (fun hname => hpublic (h.waiting call hcall hname))
        fun _ => List.mem_of_mem_erase
    · exact h
  | upsertRepoFocusManifest other raw now =>
    have hother : other ≠ record.targetKey := hevent
    simp only [step]
    split
    · exact h
    · exact h.append hother fun _ => id
  | prune cutoff limit =>
    have hkept : ¬ record.generatedAt < cutoff := hevent
    refine ⟨mem_deleteFirst_of_kept h.mem (decide_eq_false hkept), fun row hrow => ?_, h.waiting⟩
    exact h.latest row (mem_of_mem_deleteFirst hrow)

/-- Once a maintainer put a record that the parser accepts for a repository whose snapshots are all
older and that no full load waits for, every full load without `refresh` gets that record, at any
later time and for any age it asks for, until another record is put, a full load refreshes or the
record is pruned. -/
theorem record_stays {state : State} {repoFullName : String} {now : ℤ} {raw : Option JsonValue}
    {manifest : FocusManifest} (hraw : parseFocusManifest raw (some .apiRecord) = some manifest)
    (hrows : ∀ row ∈ state.rows, row.targetKey = repoFullName → row.generatedAt < now)
    (hwaiting : ∀ call ∈ state.waiting, call.repoFullName = repoFullName → call.publicOnly = true)
    {rest : List Event} (hrest : ∀ event ∈ rest, ¬ Disturbs repoFullName now event)
    {call : LoadCall} (hname : call.repoFullName = repoFullName) (hpublic : call.publicOnly = false)
    (hrefresh : call.refresh = false) (later : ℤ) :
    ∃ record, reload manifest = some record ∧
      cached (run (step loader)
        (step loader state (.upsertRepoFocusManifest repoFullName raw now)) rest) call later =
          some (some record) := by
  let record : SignalSnapshotRecord := ⟨repoFullName, manifestToJson manifest, now⟩
  have hrecord : IsRecord record.payload := isRecord_of_parsed hraw
  have hput : Held record (step loader state (.upsertRepoFocusManifest repoFullName raw now)) := by
    simp only [step, hraw]
    refine ⟨List.mem_append_right _ (List.mem_singleton.mpr rfl), ?_, hwaiting⟩
    intro row hrow hkey
    rcases List.mem_append.mp hrow with hold | hnew
    · exact Or.inr (hrows row hold hkey)
    · exact Or.inl (List.mem_singleton.mp hnew)
  have hrun : ∀ {state : State}, Held record state →
      Held record (run (step loader) state rest) := by
    induction rest with
    | nil => exact fun h => h
    | cons event rest ih =>
      intro state h
      exact ih (fun later hlater => hrest later (List.mem_cons_of_mem _ hlater))
        (held_step loader hrecord h (hrest event List.mem_cons_self))
  exact (hrun hput).cached hrecord hname hpublic hrefresh later

theorem empty_record_stays :
    ∃ record, reload (emptyManifest .apiRecord []) = some record ∧
      cached (run (step emptyLoader)
        (step emptyLoader start (.upsertRepoFocusManifest "acme/app" none 5))
        [.load ⟨"acme/app", true, false, 0⟩ 7, .fetched ⟨"acme/app", true, false, 0⟩ .failed 8,
          .prune 4 500]) ⟨"acme/app", false, false, 0⟩ 90000000 = some (some record) := by
  refine record_stays emptyLoader rfl (fun row hrow => absurd hrow List.not_mem_nil)
    (fun call hcall => absurd hcall List.not_mem_nil) (fun event hevent => ?_) rfl rfl rfl _
  simp only [List.mem_cons, List.not_mem_nil, or_false] at hevent
  rcases hevent with rfl | rfl | rfl <;> simp [Disturbs]

/-! ## Many repositories at once -/

section Bulk

variable {ε : Type*} (repoFullNames : List String) (loaded : ℕ → Except ε FocusManifest)

/-- The entry of the name at a position, whose load comes to `loaded`. -/
def entry (index : ℕ) : Except ε (String × FocusManifest) :=
  (loaded index).map fun manifest => (JsValue.toLowerCase (repoFullNames[index]?.getD ""), manifest)

def loadPool (order : List ℕ) : Pool (String × FocusManifest) :=
  settled (entry repoFullNames loaded) repoFullNames.length REPO_FOCUS_MANIFEST_MAX_CONCURRENT_LOADS
    order

/-- `new Map(entries)` -/
def newMap (entries : List (String × FocusManifest)) : List (String × FocusManifest) :=
  entries.foldl (KeyedTable.upsert Prod.fst) []

instance decidableResolved {α : Type*} (pool : Pool α) : Decidable (Resolved pool) :=
  inferInstanceAs (Decidable (∀ worker ∈ pool.workers, worker = .finished))

/-- The map, once every worker is done; a load that throws rejects the whole. -/
def loadRepoFocusManifests (order : List ℕ) : Option (List (String × FocusManifest)) :=
  let pool := loadPool repoFullNames loaded order
  if Resolved pool then some (newMap (pool.results.filterMap id)) else none

variable {repoFullNames loaded}

/-- What the map of a finished pool is made of. -/
theorem exists_manifests {order : List ℕ} (h : Resolved (loadPool repoFullNames loaded order)) :
    ∃ manifests : List FocusManifest, manifests.length = repoFullNames.length ∧
      (∀ index manifest, manifests[index]? = some manifest → loaded index = .ok manifest) ∧
      (loadPool repoFullNames loaded order).results.filterMap id =
        (repoFullNames.map JsValue.toLowerCase).zip manifests := by
  obtain ⟨-, hlength, hresults⟩ := resolved_results (by decide) h
  have hentry : ∀ index (hindex : index < repoFullNames.length), ∃ manifest,
      loaded index = .ok manifest ∧ (loadPool repoFullNames loaded order).results[index]? =
        some (some (JsValue.toLowerCase repoFullNames[index], manifest)) := by
    intro index hindex
    obtain ⟨value, hvalue, hresult⟩ := hresults index hindex
    rcases hloaded : loaded index with error | manifest
    · simp [entry, hloaded, Except.map] at hvalue
    · refine ⟨manifest, rfl, ?_⟩
      rw [entry, hloaded, List.getElem?_eq_getElem hindex] at hvalue
      cases hvalue
      exact hresult
  choose manifest hloaded hresult using hentry
  refine ⟨List.ofFn fun index : Fin repoFullNames.length => manifest index index.2,
    List.length_ofFn, fun index found hfound => ?_, ?_⟩
  · rw [List.getElem?_ofFn] at hfound
    split_ifs at hfound with hindex
    cases hfound
    exact hloaded index hindex
  · have hall : (loadPool repoFullNames loaded order).results =
        ((repoFullNames.map JsValue.toLowerCase).zip
          (List.ofFn fun index : Fin repoFullNames.length => manifest index index.2)).map some := by
      refine List.ext_getElem? fun index => ?_
      by_cases hindex : index < repoFullNames.length
      · rw [hresult index hindex]
        simp [hindex]
      · rw [List.getElem?_eq_none (hlength ▸ Nat.le_of_not_lt hindex)]
        simp [hindex]
    rw [hall, List.filterMap_map]
    exact List.filterMap_some

/-- At most four loads wait at a time. The map holds for each lower-cased name what the last
listed name of that spelling came to, each name having been loaded once and in their order; and
where no load throws, the map is there as soon as each of them settled, in whatever order. -/
theorem loadRepoFocusManifests_spec (repoFullNames : List String)
    (loaded : ℕ → Except ε FocusManifest) (order : List ℕ) :
    (loadPool repoFullNames loaded order).workers.length ≤ 4 ∧
      (∀ map, loadRepoFocusManifests repoFullNames loaded order = some map →
        (loadPool repoFullNames loaded order).calls = List.range repoFullNames.length ∧
          (map.map Prod.fst).Nodup ∧
          ∃ manifests : List FocusManifest, manifests.length = repoFullNames.length ∧
            (∀ index manifest, manifests[index]? = some manifest → loaded index = .ok manifest) ∧
            ∀ key, KeyedTable.lookup Prod.fst map key =
              (((repoFullNames.map JsValue.toLowerCase).zip manifests).filter
                fun entry => entry.1 = key).getLast?) ∧
      ((∀ index < repoFullNames.length, ∃ manifest, loaded index = .ok manifest) →
        Prompt (entry repoFullNames loaded) repoFullNames.length
          (launch repoFullNames.length REPO_FOCUS_MANIFEST_MAX_CONCURRENT_LOADS) order →
        order.length ≤ repoFullNames.length ∧
          ((loadRepoFocusManifests repoFullNames loaded order).isSome ↔
            order.length = repoFullNames.length)) := by
  refine ⟨?_, fun map hmap => ?_, fun hok hprompt => ?_⟩
  · rw [loadPool, length_workers]
    exact Nat.min_le_left _ _
  · unfold loadRepoFocusManifests at hmap
    simp only [Option.ite_none_right_eq_some, Option.some.injEq] at hmap
    obtain ⟨hresolved, rfl⟩ := hmap
    obtain ⟨manifests, hlength, hloaded, hentries⟩ := exists_manifests hresolved
    refine ⟨(resolved_results (by decide) hresolved).1, ?_, manifests, hlength, hloaded, ?_⟩
    · exact KeyedTable.nodup_foldl_upsert Prod.fst _ List.nodup_nil
    · intro key
      rw [newMap, KeyedTable.lookup_foldl_upsert, hentries]
      exact Option.or_none
  · have hentries : ∀ index < repoFullNames.length, ∃ value,
        entry repoFullNames loaded index = .ok value := by
      intro index hindex
      obtain ⟨manifest, hmanifest⟩ := hok index hindex
      exact ⟨_, by rw [entry, hmanifest]; rfl⟩
    obtain ⟨hlength, hresolved⟩ := resolved_iff_length hentries _ hprompt (by decide)
    refine ⟨hlength, Iff.trans ?_ hresolved⟩
    unfold loadRepoFocusManifests
    simp [loadPool]

end Bulk

/-- Two spellings of one repository, the second loaded first. -/
theorem spellings_loaded :
    (loadRepoFocusManifests ["acme/App", "acme/app"]
      (fun _ => .ok (emptyManifest .none []) : ℕ → Except Unit FocusManifest)
      [1, 0]).isSome = true :=
  ((loadRepoFocusManifests_spec _ _ [1, 0]).2.2 (fun _ _ => ⟨_, rfl⟩)
    ⟨⟨1, rfl⟩, ⟨0, rfl⟩, trivial⟩).2.mpr rfl

end Gittensory.ManifestLoading
