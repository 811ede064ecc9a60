import Gittensory.RagNamespace

/-!
The two index jobs of a repository (`review/rag-index.ts`): the full index and the
re-index of changed paths. A job counts the chunks it has stored and stops at the cap. In
its loop it reads nothing of the index, so it is told by the batches it hands on and by
what becomes of each.
-/
namespace Gittensory.RagIndexing

open CodeUnits KeyedTable RagChunks RagNamespace

section Model

def MAX_CHUNKS_PER_REPO : ℕ := 1500

def MAX_FILE_BYTES : ℕ := 1000000

def UPSERT_BATCH : ℕ := 50

structure TreeEntry where
  path : String
  size : Option ℕ
  deriving DecidableEq, Repr

def isIndexablePath (path : String) (size : Option ℕ) : Bool :=
  if size.any (fun bytes => MAX_FILE_BYTES < bytes) then false
  else classifyRepoFile path ≠ none

def filePriority (path : String) : ℕ := if classifyRepoFile path = some .code then 0 else 1

def splitRepo (repoFullName : String) : String × String :=
  match repoFullName.toList.span (· ≠ '/') with
  | (_, []) => ("", repoFullName)
  | (owner, _ :: name) => (String.ofList owner, String.ofList name)

/-- What the calls of a job come to: whether the vector index and the inference are there,
the text of each file, or none, and what becomes of each batch of a file's chunks. -/
structure IndexCalls where
  ready : Bool
  fileText : String → Option Units
  upsert : String → ℕ → UpsertOutcome

/-- A batch handed to `upsertChunks`. -/
structure Write where
  chunks : List RagChunk
  outcome : UpsertOutcome

/-- What `upsertChunks` returns. -/
def Write.count (write : Write) : ℕ := if write.outcome = .stored then write.chunks.length else 0

/-- The loop over the batches, with the number of chunks stored and the batches. -/
def upsertRounds (outcome : ℕ → UpsertOutcome) : ℕ → ℕ → List RagChunk → ℕ → ℕ × List Write
  | 0, _, _, _ => (0, [])
  | rounds + 1, round, chunks, stored =>
      if chunks = [] ∨ MAX_CHUNKS_PER_REPO ≤ stored then (0, [])
      else
        let remaining := MAX_CHUNKS_PER_REPO - stored
        let write : Write := ⟨chunks.take (min UPSERT_BATCH remaining), outcome round⟩
        let rest := upsertRounds outcome rounds (round + 1) (chunks.drop UPSERT_BATCH)
          (stored + write.count)
        (write.count + rest.1, write :: rest.2)

/-- Every round drops a chunk at least, so that there are no more rounds than chunks. -/
def upsertChunksCapped (outcome : ℕ → UpsertOutcome) (chunks : List RagChunk)
    (alreadyStored : ℕ) : ℕ × List Write :=
  upsertRounds outcome chunks.length 0 chunks alreadyStored

/-- The counters of a job's loop. -/
structure Indexing where
  stored : ℕ
  upserted : ℕ := 0
  filesIndexed : ℕ := 0
  capped : Bool := false
  /-- Not in the source: the batches handed on so far, in order. -/
  writes : List Write := []

/-- The chunks of a file under the default options. -/
def fileChunks (nameSpace path : String) (text : Units) : List RagChunk :=
  (chunkFile (text.length + 2) path text nameSpace {}).getD []

/-- The counters after a file of which some chunks were handed on. -/
def Indexing.addFile (state : Indexing) (done : ℕ × List Write) : Indexing where
  stored := state.stored + done.1
  upserted := state.upserted + done.1
  filesIndexed := if 0 < done.1 then state.filesIndexed + 1 else state.filesIndexed
  capped := state.capped
  writes := state.writes ++ done.2

def indexPaths (nameSpace : String) (calls : IndexCalls) : List String → Indexing → Indexing
  | [], state => state
  | path :: rest, state =>
      if MAX_CHUNKS_PER_REPO ≤ state.stored then { state with capped := true }
      else match calls.fileText path with
        | none => indexPaths nameSpace calls rest state
        | some text =>
            let chunks := fileChunks nameSpace path text
            if chunks = [] then indexPaths nameSpace calls rest state
            else
              indexPaths nameSpace calls rest
                (state.addFile (upsertChunksCapped (calls.upsert path) chunks state.stored))

structure IndexRepoResult where
  indexed : ℕ
  files : ℕ
  capped : Bool
  deriving DecidableEq, Repr

def Indexing.result (state : Indexing) : IndexRepoResult :=
  ⟨state.upserted, state.filesIndexed, state.capped⟩

/-- `localeLe` stands for `a.localeCompare(b) <= 0`. -/
def indexableTree (localeLe : String → String → Bool) (tree : List TreeEntry) : List TreeEntry :=
  (tree.filter fun entry => isIndexablePath entry.path entry.size).mergeSort fun a b =>
    filePriority a.path < filePriority b.path ||
      (filePriority a.path = filePriority b.path && localeLe a.path b.path)

def countRepoChunks (project repo : String) (store : RagStore) : ℕ :=
  (store.rows.filter fun row => row.project = project && row.repo = repo).length

/-- The batches on the store, one after another. -/
def carryOut (project repo : String) (writes : List Write) (store : RagStore) : RagStore :=
  writes.foldl (fun store write => upsertChunks write.outcome project repo write.chunks store) store

variable (localeLe : String → String → Bool) (project repoFullName : String)

def jobNamespace : String := ragNamespace project (splitRepo repoFullName).2

/-- The loop of `indexRepo`; a tree that cannot be read is the empty list. -/
def indexRun (calls : IndexCalls) (tree : List TreeEntry) : Indexing :=
  if calls.ready then
    indexPaths (jobNamespace project repoFullName) calls
      ((indexableTree localeLe tree).map TreeEntry.path) { stored := 0 }
  else { stored := 0 }

def indexRepo (calls : IndexCalls) (tree : List TreeEntry) (store : RagStore) :
    RagStore × IndexRepoResult :=
  let state := indexRun localeLe project repoFullName calls tree
  (carryOut project (splitRepo repoFullName).2 state.writes store, state.result)

/-- `[...new Set(paths)]` of the nonempty ones. -/
def uniquePaths (paths : List String) : List String := (paths.filter (· ≠ "")).eraseDups

/-- How far the deletion of a changed path's chunks gets, and whether the count after it is
answered; a count that fails is taken for zero. -/
structure ReindexCalls extends IndexCalls where
  vectorsGone : ℕ
  rowsGone : ℕ
  countAnswered : Bool

def reindexStart (calls : ReindexCalls) (paths : List String) (store : RagStore) : RagStore :=
  if uniquePaths paths = [] ∨ calls.ready = false then store
  else deleteChunksForPaths calls.vectorsGone calls.rowsGone project (splitRepo repoFullName).2
    (uniquePaths paths) store

/-- The loop of `reindexChangedPaths` from a count. -/
def reindexRun (calls : ReindexCalls) (paths : List String) (stored : ℕ) : Indexing :=
  if calls.ready then
    indexPaths (jobNamespace project repoFullName) calls.toIndexCalls
      ((uniquePaths paths).filter fun path => isIndexablePath path none) { stored := stored }
  else { stored := stored }

def reindexChangedPaths (calls : ReindexCalls) (paths : List String) (store : RagStore) :
    RagStore × IndexRepoResult :=
  let dropped := reindexStart project repoFullName calls paths store
  let stored :=
    if calls.countAnswered then countRepoChunks project (splitRepo repoFullName).2 dropped else 0
  let state := reindexRun project repoFullName calls paths stored
  (carryOut project (splitRepo repoFullName).2 state.writes dropped, state.result)

end Model

/-! ## What a loop stores -/

/-- The chunks of the batches that were stored. -/
def writtenChunks (writes : List Write) : List RagChunk :=
  (writes.filter fun write => write.outcome = .stored).flatMap Write.chunks

theorem writtenChunks_append (writes more : List Write) :
    writtenChunks (writes ++ more) = writtenChunks writes ++ writtenChunks more := by
  unfold writtenChunks
  rw [List.filter_append, List.flatMap_append]

theorem writtenChunks_cons (write : Write) (writes : List Write) :
    writtenChunks (write :: writes) =
      (if write.outcome = .stored then write.chunks else []) ++ writtenChunks writes := by
  unfold writtenChunks
  rw [List.filter_cons]
  split_ifs with h h' h'
  · rw [List.flatMap_cons]
  · exact absurd (of_decide_eq_true h) h'
  · exact absurd (decide_eq_true h') h
  · rfl

/-- The loop over the batches counts what it stores, and stops at the cap. -/
theorem upsertRounds_spec (outcome : ℕ → UpsertOutcome) (rounds round : ℕ)
    (chunks : List RagChunk) (stored : ℕ) :
    let done := upsertRounds outcome rounds round chunks stored
    done.1 = (writtenChunks done.2).length ∧
      (stored ≤ MAX_CHUNKS_PER_REPO → stored + done.1 ≤ MAX_CHUNKS_PER_REPO) := by
  induction rounds generalizing round chunks stored with
  | zero => exact ⟨rfl, fun h => h⟩
  | succ rounds ih =>
    rw [upsertRounds]
    split_ifs with hend
    · exact ⟨rfl, fun h => h⟩
    · rw [not_or, not_le] at hend
      dsimp only
      generalize hwrite : (⟨chunks.take (min UPSERT_BATCH (MAX_CHUNKS_PER_REPO - stored)),
        outcome round⟩ : Write) = write
      obtain ⟨hcount, hcap⟩ := ih (round + 1) (chunks.drop UPSERT_BATCH) (stored + write.count)
      have hfits : write.count ≤ MAX_CHUNKS_PER_REPO - stored := by
        rw [← hwrite, Write.count]
        split_ifs
        · exact (List.length_take_le _ _).trans (min_le_right _ _)
        · exact Nat.zero_le _
      refine ⟨?_, fun _ => ?_⟩
      · rw [writtenChunks_cons, List.length_append, ← hcount, Write.count]
        split_ifs <;> rfl
      · have hnext := hcap (by omega)
        omega

/-- The later state has added batches, counted what they store, and kept to the cap. -/
def Extends (state after : Indexing) : Prop :=
  ∃ writes, after.writes = state.writes ++ writes ∧
    after.stored = state.stored + (writtenChunks writes).length ∧
    (state.stored ≤ MAX_CHUNKS_PER_REPO → after.stored ≤ MAX_CHUNKS_PER_REPO)

theorem Extends.of_same {state after : Indexing} (hwrites : after.writes = state.writes)
    (hstored : after.stored = state.stored) : Extends state after :=
  ⟨[], by rw [hwrites, List.append_nil], by simp [hstored, writtenChunks], fun h => hstored ▸ h⟩

theorem Extends.trans {state mid after : Indexing} (h : Extends state mid)
    (hmore : Extends mid after) : Extends state after := by
  obtain ⟨writes, hwrites, hstored, hcap⟩ := h
  obtain ⟨more, hwrites', hstored', hcap'⟩ := hmore
  refine ⟨writes ++ more, ?_, ?_, fun hstart => hcap' (hcap hstart)⟩
  · rw [hwrites', hwrites, List.append_assoc]
  · rw [hstored', hstored, writtenChunks_append, List.length_append, Nat.add_assoc]

theorem extends_addFile (state : Indexing) (outcome : ℕ → UpsertOutcome)
    (chunks : List RagChunk) :
    Extends state (state.addFile (upsertChunksCapped outcome chunks state.stored)) := by
  obtain ⟨hcount, hcap⟩ := upsertRounds_spec outcome chunks.length 0 chunks state.stored
  refine ⟨_, rfl, ?_, hcap⟩
  rw [Indexing.addFile, upsertChunksCapped, hcount]

theorem extends_indexPaths (nameSpace : String) (calls : IndexCalls) (paths : List String)
    (state : Indexing) : Extends state (indexPaths nameSpace calls paths state) := by
  induction paths generalizing state with
  | nil => exact Extends.of_same rfl rfl
  | cons path rest ih =>
    rw [indexPaths]
    split_ifs with hcap
    · exact Extends.of_same rfl rfl
    · cases calls.fileText path with
      | none => exact ih state
      | some text =>
        dsimp only
        split_ifs
        · exact ih state
        · exact (extends_addFile state _ _).trans (ih _)

/-! ## What a job does to the rows -/

theorem carryOut_append (project repo : String) (writes more : List Write) (store : RagStore) :
    carryOut project repo (writes ++ more) store =
      carryOut project repo more (carryOut project repo writes store) := List.foldl_append

theorem carryOut_rows (project repo : String) (writes : List Write) (store : RagStore) :
    (carryOut project repo writes store).rows =
      upsertRows project repo (writtenChunks writes) store.rows := by
  induction writes generalizing store with
  | nil => rfl
  | cons write writes ih =>
    rw [carryOut, List.foldl_cons, ← carryOut, ih, writtenChunks_cons]
    cases houtcome : write.outcome with
    | failed => rfl
    | vectorsOnly => rfl
    | stored =>
      rw [if_pos rfl]
      unfold upsertRows
      rw [List.foldl_append]
      rfl

/-- The ids of the rows are distinct, as the primary key wants it. -/
def KeyedRows (store : RagStore) : Prop := (store.rows.map ChunkRow.id).Nodup

theorem updateRow_id (chunk : RagChunk) (stored : ChunkRow) :
    (updateRow chunk stored).id = stored.id := rfl

theorem keyedRows_carryOut {project repo : String} (writes : List Write) {store : RagStore}
    (h : KeyedRows store) : KeyedRows (carryOut project repo writes store) := by
  unfold KeyedRows
  rw [carryOut_rows]
  exact nodup_foldl_upsertWith ChunkRow.id updateRow_id _ h

theorem keyedRows_delete {project repo : String} {vectorsGone rowsGone : ℕ} {paths : List String}
    {store : RagStore} (h : KeyedRows store) :
    KeyedRows (deleteChunksForPaths vectorsGone rowsGone project repo paths store) :=
  h.sublist (List.filter_sublist.map ChunkRow.id)

theorem mem_ids_carryOut (project repo : String) (writes : List Write) (store : RagStore)
    (id : String) :
    id ∈ (carryOut project repo writes store).rows.map ChunkRow.id ↔
      id ∈ store.rows.map ChunkRow.id ∨ id ∈ (writtenChunks writes).map RagChunk.id := by
  rw [carryOut_rows]
  exact @mem_keys_foldl_upsertWith _ _ _ ChunkRow.id _ updateRow (rowOf project repo) updateRow_id _ _ id

/-- The rows that a list of chunks leaves alone. -/
def leftOver (chunks : List RagChunk) (rows : List ChunkRow) : List ChunkRow :=
  rows.filter fun row => row.id ∉ chunks.map RagChunk.id

/-- After the batches there are the rows left alone and one row for each chunk id. -/
theorem length_carryOut (project repo : String) (writes : List Write) {store : RagStore}
    (h : KeyedRows store) :
    (carryOut project repo writes store).rows.length =
      (leftOver (writtenChunks writes) store.rows).length +
        ((writtenChunks writes).map RagChunk.id).dedup.length := by
  rw [carryOut_rows]
  exact @length_foldl_upsertWith _ _ _ ChunkRow.id _ updateRow (rowOf project repo) updateRow_id _ _ h

/-! ## Ids tell files apart -/

/-- The number after the last colons and the path before them can be read off an id. -/
theorem chunkId_path_injective {nameSpace path path' : String} {idx idx' : ℕ}
    (h : chunkId nameSpace path idx = chunkId nameSpace path' idx') : path = path' := by
  have hsuffix : path ++ "::" ++ toString idx = path' ++ "::" ++ toString idx' := by
    unfold chunkId at h
    split_ifs at h with hname
    · simpa only [String.append_assoc, String.append_right_inj] using h
    · exact h
  have hlist := congrArg (fun text : String => text.toList.reverse) hsuffix
  have hcolons : "::".toList.reverse = [':', ':'] := by decide
  simp only [String.toList_append, List.reverse_append, hcolons] at hlist
  have hfar : ∀ n : ℕ, ':' ∉ (toString n).toList.reverse := fun n hmem =>
    JsValue.not_mem_toString rfl n (List.mem_reverse.mp hmem)
  have hrest := ((append_separator_inj (hfar idx) (hfar idx')).mp hlist).2
  exact String.toList_inj.mp (List.reverse_injective (List.cons.inj hrest).2)

/-! ## Which chunks a job can store -/

/-- The chunks of a path's file, none where it cannot be fetched. -/
def chunksOfPath (nameSpace : String) (calls : IndexCalls) (path : String) : List RagChunk :=
  match calls.fileText path with
  | none => []
  | some text => fileChunks nameSpace path text

theorem mem_writtenChunks_upsertRounds {outcome : ℕ → UpsertOutcome} {rounds round stored : ℕ}
    {chunks : List RagChunk} {chunk : RagChunk}
    (h : chunk ∈ writtenChunks (upsertRounds outcome rounds round chunks stored).2) :
    chunk ∈ chunks := by
  induction rounds generalizing round chunks stored with
  | zero => exact absurd h List.not_mem_nil
  | succ rounds ih =>
    rw [upsertRounds] at h
    split_ifs at h
    · exact absurd h List.not_mem_nil
    · dsimp only at h
      rw [writtenChunks_cons, List.mem_append] at h
      rcases h with hnow | hlater
      · split_ifs at hnow
        · exact List.mem_of_mem_take hnow
        · exact absurd hnow List.not_mem_nil
      · exact List.mem_of_mem_drop (ih hlater)

/-- Whatever fails, the loop stores chunks of the files it fetched only. -/
theorem mem_writtenChunks_indexPaths (nameSpace : String) (calls : IndexCalls)
    (paths : List String) (state : Indexing) :
    ∃ writes, (indexPaths nameSpace calls paths state).writes = state.writes ++ writes ∧
      ∀ chunk ∈ writtenChunks writes, chunk ∈ paths.flatMap (chunksOfPath nameSpace calls) := by
  induction paths generalizing state with
  | nil => exact ⟨[], (List.append_nil _).symm, nofun⟩
  | cons path rest ih =>
    have hskip : ∀ state : Indexing, ∃ writes,
        (indexPaths nameSpace calls rest state).writes = state.writes ++ writes ∧
          ∀ chunk ∈ writtenChunks writes,
            chunk ∈ (path :: rest).flatMap (chunksOfPath nameSpace calls) := by
      intro state
      obtain ⟨writes, hwrites, hmem⟩ := ih state
      refine ⟨writes, hwrites, fun chunk hchunk => ?_⟩
      rw [List.flatMap_cons]
      exact List.mem_append_right _ (hmem chunk hchunk)
    rw [indexPaths]
    split_ifs with hcap
    · exact ⟨[], (List.append_nil _).symm, nofun⟩
    · cases htext : calls.fileText path with
      | none => exact hskip state
      | some text =>
        dsimp only
        split_ifs with hempty
        · exact hskip state
        · obtain ⟨writes, hwrites, hmem⟩ := hskip (state.addFile
            (upsertChunksCapped (calls.upsert path) (fileChunks nameSpace path text)
              state.stored))
          refine ⟨_, by rw [hwrites, Indexing.addFile, List.append_assoc], ?_⟩
          intro chunk hchunk
          rw [writtenChunks_append, List.mem_append] at hchunk
          rcases hchunk with hown | hlater
          · rw [List.flatMap_cons, chunksOfPath, htext]
            exact List.mem_append_left _ (mem_writtenChunks_upsertRounds hown)
          · exact hmem chunk hlater

/-! ## Jobs in which nothing fails -/

theorem writtenChunks_upsertRounds {outcome : ℕ → UpsertOutcome}
    (hstored : ∀ round, outcome round = .stored) (rounds round : ℕ) {chunks : List RagChunk}
    (hrounds : chunks.length ≤ rounds) {stored : ℕ}
    (hroom : stored + chunks.length ≤ MAX_CHUNKS_PER_REPO) :
    writtenChunks (upsertRounds outcome rounds round chunks stored).2 = chunks := by
  induction rounds generalizing round chunks stored with
  | zero =>
    rw [List.length_eq_zero_iff.mp (Nat.le_zero.mp hrounds)]
    rfl
  | succ rounds ih =>
    rw [upsertRounds]
    by_cases hchunks : chunks = []
    · rw [if_pos (Or.inl hchunks), hchunks]
      rfl
    · have hpos : 0 < chunks.length := List.length_pos_iff.mpr hchunks
      have htake : chunks.take (min UPSERT_BATCH (MAX_CHUNKS_PER_REPO - stored)) =
          chunks.take UPSERT_BATCH := by
        rw [List.take_eq_take_iff]
        omega
      rw [if_neg (by rw [not_or]; exact ⟨hchunks, by omega⟩)]
      dsimp only
      rw [htake, hstored round, writtenChunks_cons, if_pos rfl]
      have hcount : (Write.count ⟨chunks.take UPSERT_BATCH, .stored⟩) =
          min UPSERT_BATCH chunks.length := by
        rw [Write.count, if_pos rfl, List.length_take]
      have hbatch : UPSERT_BATCH = 50 := rfl
      rw [hcount, ih (round + 1) (by rw [List.length_drop]; omega)
        (by rw [List.length_drop]; omega)]
      exact List.take_append_drop _ _

/-- Where every batch is stored and there is room for the chunks of all files read, the
loop stores them all. -/
theorem writtenChunks_indexPaths {nameSpace : String} {calls : IndexCalls}
    (hstored : ∀ path round, calls.upsert path round = .stored) (paths : List String)
    {state : Indexing} (hroom : state.stored +
      (paths.flatMap (chunksOfPath nameSpace calls)).length ≤ MAX_CHUNKS_PER_REPO) :
    ∃ writes, (indexPaths nameSpace calls paths state).writes = state.writes ++ writes ∧
      writtenChunks writes = paths.flatMap (chunksOfPath nameSpace calls) := by
  induction paths generalizing state with
  | nil => exact ⟨[], (List.append_nil _).symm, rfl⟩
  | cons path rest ih =>
    rw [List.flatMap_cons, List.length_append] at hroom
    rw [indexPaths, List.flatMap_cons]
    split_ifs with hcap
    · have hpath : chunksOfPath nameSpace calls path = [] :=
        List.length_eq_zero_iff.mp (by omega)
      have hrest : rest.flatMap (chunksOfPath nameSpace calls) = [] :=
        List.length_eq_zero_iff.mp (by omega)
      exact ⟨[], (List.append_nil _).symm, by rw [hpath, hrest]; rfl⟩
    · cases htext : calls.fileText path with
      | none =>
        have hnone : chunksOfPath nameSpace calls path = [] := by rw [chunksOfPath, htext]
        rw [hnone] at hroom ⊢
        exact ih (by simpa using hroom)
      | some text =>
        have hchunks : chunksOfPath nameSpace calls path = fileChunks nameSpace path text := by
          rw [chunksOfPath, htext]
        rw [hchunks] at hroom ⊢
        dsimp only
        split_ifs with hempty
        · rw [hempty] at hroom ⊢
          exact ih (by simpa using hroom)
        · obtain ⟨hcount, -⟩ := upsertRounds_spec (calls.upsert path)
            (fileChunks nameSpace path text).length 0 (fileChunks nameSpace path text) state.stored
          have hfits : state.stored + (fileChunks nameSpace path text).length ≤
              MAX_CHUNKS_PER_REPO := by omega
          have hwritten := writtenChunks_upsertRounds (hstored path) _ 0 le_rfl hfits
          rw [hwritten] at hcount
          have hroom' : (state.addFile (upsertChunksCapped (calls.upsert path)
              (fileChunks nameSpace path text) state.stored)).stored +
                (rest.flatMap (chunksOfPath nameSpace calls)).length ≤ MAX_CHUNKS_PER_REPO := by
            rw [Indexing.addFile, upsertChunksCapped, hcount]
            dsimp only
            omega
          obtain ⟨writes, hwrites, hrest⟩ := ih hroom'
          refine ⟨(upsertChunksCapped (calls.upsert path) (fileChunks nameSpace path text)
            state.stored).2 ++ writes, ?_, ?_⟩
          · rw [hwrites, Indexing.addFile, List.append_assoc]
          · rw [writtenChunks_append, hrest, upsertChunksCapped, hwritten]

end Gittensory.RagIndexing
