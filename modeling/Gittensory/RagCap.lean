import Gittensory.GuardedRun
import Gittensory.RagIndexing

/-!
The cap on a repository's stored chunks over a run of index jobs. A job keeps its own
counter below the cap, but a full index starts the counter at zero whatever is stored, and
so does a re-index whose count fails. The cap holds all along a run in which each such job
starts on an empty index, or on one whose rows fit together with the chunks of its files.
-/
namespace Gittensory.RagCap

open ChunkWindows GuardedRun KeyedTable RagChunks RagIndexing RagNamespace TextPattern

inductive IndexJob where
  | indexRepo (calls : IndexCalls) (tree : List TreeEntry)
  | reindexChangedPaths (calls : ReindexCalls) (paths : List String)

section Runs

variable (localeLe : String → String → Bool) (project repoFullName : String)

def runJob (store : RagStore) : IndexJob → RagStore
  | .indexRepo calls tree => (indexRepo localeLe project repoFullName calls tree store).1
  | .reindexChangedPaths calls paths =>
      (reindexChangedPaths project repoFullName calls paths store).1

def rowCount (store : RagStore) : ℕ := countRepoChunks project (splitRepo repoFullName).2 store

/-- The batches of a re-index that starts from a store. -/
def reindexWrites (calls : ReindexCalls) (paths : List String) (store : RagStore) : List Write :=
  (reindexRun project repoFullName calls paths
    (if calls.countAnswered then rowCount project repoFullName store else 0)).writes

/-- In every store the job passes through, after any part of its deletions and batches, the
repository's rows are within the cap. -/
def StaysWithinCap (store : RagStore) : IndexJob → Prop
  | .indexRepo calls tree =>
      ∀ earlier, earlier <+: (indexRun localeLe project repoFullName calls tree).writes →
        rowCount project repoFullName (carryOut project (splitRepo repoFullName).2 earlier store) ≤
          MAX_CHUNKS_PER_REPO
  | .reindexChangedPaths calls paths =>
      (∀ vectorsGone rowsGone, vectorsGone ≤ calls.vectorsGone → rowsGone ≤ calls.rowsGone →
        rowCount project repoFullName (reindexStart project repoFullName
          { calls with vectorsGone := vectorsGone, rowsGone := rowsGone } paths store) ≤
            MAX_CHUNKS_PER_REPO) ∧
      let dropped := reindexStart project repoFullName calls paths store
      ∀ earlier, earlier <+: reindexWrites project repoFullName calls paths dropped →
        rowCount project repoFullName (carryOut project (splitRepo repoFullName).2 earlier dropped) ≤
          MAX_CHUNKS_PER_REPO

/-- The chunks of the files that are fetched for an index of these paths. -/
def chunksOfPaths (calls : IndexCalls) (paths : List String) : List RagChunk :=
  paths.flatMap (chunksOfPath (jobNamespace project repoFullName) calls)

/-- No rows are there, or those that the chunks do not replace are within the cap together with
the chunks. -/
def Fit (chunks : List RagChunk) (rows : List ChunkRow) : Prop :=
  rows = [] ∨
    (leftOver chunks rows).length + (chunks.map RagChunk.id).dedup.length ≤ MAX_CHUNKS_PER_REPO

/-- A job whose counter starts at zero has room beside the rows that are there. -/
def HasRoom (store : RagStore) : IndexJob → Prop
  | .indexRepo calls tree =>
      calls.ready = true → Fit (chunksOfPaths project repoFullName calls
        ((indexableTree localeLe tree).map TreeEntry.path)) store.rows
  | .reindexChangedPaths calls paths =>
      calls.ready = true → calls.countAnswered = false →
        Fit (chunksOfPaths project repoFullName calls.toIndexCalls
          ((uniquePaths paths).filter fun path => isIndexablePath path none))
          (reindexStart project repoFullName calls paths store).rows

/-- The index holds rows of the repository only, one for each id. -/
structure OwnIndex (store : RagStore) : Prop where
  keyed : KeyedRows store
  own : ∀ row ∈ store.rows, row.project = project ∧ row.repo = (splitRepo repoFullName).2

variable {localeLe project repoFullName}

theorem OwnIndex.rowCount_eq {store : RagStore} (h : OwnIndex project repoFullName store) :
    rowCount project repoFullName store = store.rows.length := by
  unfold rowCount countRepoChunks
  rw [List.filter_eq_self.mpr]
  intro row hrow
  obtain ⟨hproject, hrepo⟩ := h.own row hrow
  simp [hproject, hrepo]

theorem OwnIndex.carryOut {store : RagStore} (h : OwnIndex project repoFullName store)
    (writes : List Write) :
    OwnIndex project repoFullName (carryOut project (splitRepo repoFullName).2 writes store) where
  keyed := keyedRows_carryOut writes h.keyed
  own := by
    rw [carryOut_rows]
    unfold upsertRows
    apply forall_foldl_upsertWith _ updateRow _
      (fun row => row.project = project ∧ row.repo = (splitRepo repoFullName).2)
    · exact fun chunk _ => ⟨rfl, rfl⟩
    · exact fun chunk _ stored hstored _ => hstored
    · exact h.own

theorem OwnIndex.reindexStart {store : RagStore} (h : OwnIndex project repoFullName store)
    (calls : ReindexCalls) (paths : List String) :
    OwnIndex project repoFullName (reindexStart project repoFullName calls paths store) := by
  unfold RagIndexing.reindexStart
  split_ifs
  · exact h
  · exact ⟨keyedRows_delete h.keyed, fun row hrow => h.own row (List.mem_of_mem_filter hrow)⟩

theorem length_reindexStart (calls : ReindexCalls) (paths : List String) (store : RagStore) :
    (RagIndexing.reindexStart project repoFullName calls paths store).rows.length ≤
      store.rows.length := by
  unfold RagIndexing.reindexStart
  split_ifs
  · exact le_rfl
  · exact List.length_filter_le _ _

/-! ## What a job comes to -/

theorem length_le_carryOut (project repo : String) (writes : List Write) (store : RagStore) :
    store.rows.length ≤ (RagIndexing.carryOut project repo writes store).rows.length := by
  rw [carryOut_rows]
  exact length_le_foldl_upsertWith ChunkRow.id _ _

/-- Rows are only added along the batches, so that the last store tells of them all. -/
theorem forall_prefix_of_last {store : RagStore} (h : OwnIndex project repoFullName store)
    {writes : List Write}
    (hlast : (RagIndexing.carryOut project (splitRepo repoFullName).2 writes store).rows.length ≤
      MAX_CHUNKS_PER_REPO) {earlier : List Write} (hearlier : earlier <+: writes) :
    rowCount project repoFullName (RagIndexing.carryOut project (splitRepo repoFullName).2 earlier
      store) ≤ MAX_CHUNKS_PER_REPO := by
  obtain ⟨later, rfl⟩ := hearlier
  rw [carryOut_append] at hlast
  rw [(h.carryOut earlier).rowCount_eq]
  exact (length_le_carryOut project (splitRepo repoFullName).2 later _).trans hlast

/-- Each chunk adds one row at most. -/
theorem length_carryOut_le (project repo : String) (writes : List Write) {store : RagStore}
    (h : KeyedRows store) :
    (RagIndexing.carryOut project repo writes store).rows.length ≤
      store.rows.length + (writtenChunks writes).length := by
  rw [length_carryOut project repo writes h]
  have hleft : (leftOver (writtenChunks writes) store.rows).length ≤ store.rows.length :=
    List.length_filter_le _ _
  have hnew := (List.dedup_sublist ((writtenChunks writes).map RagChunk.id)).length_le
  rw [List.length_map] at hnew
  omega

/-- Batches of chunks that fit leave an index within the cap. -/
theorem length_carryOut_le_of_fit {repo : String} {writes : List Write} {chunks : List RagChunk}
    {store : RagStore} (h : KeyedRows store)
    (hchunks : ∀ chunk ∈ writtenChunks writes, chunk ∈ chunks)
    (hcap : (writtenChunks writes).length ≤ MAX_CHUNKS_PER_REPO) (hfit : Fit chunks store.rows) :
    (RagIndexing.carryOut project repo writes store).rows.length ≤ MAX_CHUNKS_PER_REPO := by
  rcases hfit with hnone | hfit
  · have hle := length_carryOut_le project repo writes h
    rw [hnone, List.length_nil, Nat.zero_add] at hle
    exact hle.trans hcap
  · have hsubset : (RagIndexing.carryOut project repo writes store).rows.map ChunkRow.id ⊆
        (leftOver chunks store.rows).map ChunkRow.id ++ (chunks.map RagChunk.id).dedup := by
      intro id hid
      rw [List.mem_append, List.mem_dedup]
      by_cases hnew : id ∈ chunks.map RagChunk.id
      · exact Or.inr hnew
      · rcases (mem_ids_carryOut project repo writes store id).mp hid with hrow | hwritten
        · obtain ⟨row, hstored, rfl⟩ := List.mem_map.mp hrow
          exact Or.inl (List.mem_map_of_mem (List.mem_filter.mpr ⟨hstored, decide_eq_true hnew⟩))
        · obtain ⟨chunk, hchunk, rfl⟩ := List.mem_map.mp hwritten
          exact absurd (List.mem_map_of_mem (hchunks chunk hchunk)) hnew
    have hkeyed : ((RagIndexing.carryOut project repo writes store).rows.map
        ChunkRow.id).Nodup := keyedRows_carryOut writes h
    have hlength := (List.subperm_of_subset hkeyed hsubset).length_le
    rw [List.length_map, List.length_append, List.length_map] at hlength
    exact hlength.trans hfit

/-- A loop whose counter starts at zero. -/
theorem indexPaths_zero_spec (calls : IndexCalls) (paths : List String) :
    let writes := (indexPaths (jobNamespace project repoFullName) calls paths
      { stored := 0 }).writes
    (∀ chunk ∈ writtenChunks writes, chunk ∈ chunksOfPaths project repoFullName calls paths) ∧
      (writtenChunks writes).length ≤ MAX_CHUNKS_PER_REPO := by
  obtain ⟨writes, hwrites, hmem⟩ := mem_writtenChunks_indexPaths
    (jobNamespace project repoFullName) calls paths { stored := 0 }
  obtain ⟨counted, hcounted, hstored, hcap⟩ := extends_indexPaths
    (jobNamespace project repoFullName) calls paths { stored := 0 }
  obtain rfl : writes = counted := List.append_cancel_left (hwrites.symm.trans hcounted)
  rw [hwrites]
  refine ⟨hmem, ?_⟩
  have hlast := hcap (Nat.zero_le _)
  rw [hstored] at hlast
  exact (Nat.le_add_left _ _).trans hlast

theorem reindexRun_fits (calls : ReindexCalls) (paths : List String) {stored : ℕ}
    (h : stored ≤ MAX_CHUNKS_PER_REPO) :
    stored + (writtenChunks (reindexRun project repoFullName calls paths stored).writes).length ≤
      MAX_CHUNKS_PER_REPO := by
  unfold reindexRun
  split_ifs
  · obtain ⟨writes, hwrites, hstored, hcap⟩ := extends_indexPaths
      (jobNamespace project repoFullName) calls.toIndexCalls
      ((uniquePaths paths).filter fun path => isIndexablePath path none) { stored := stored }
    have hlast := hcap h
    rw [hstored] at hlast
    rw [hwrites]
    exact hlast
  · exact h

/-- A full index with room leaves the index within the cap. -/
theorem length_indexRun_le {store : RagStore} (h : OwnIndex project repoFullName store)
    (hcap : store.rows.length ≤ MAX_CHUNKS_PER_REPO) {calls : IndexCalls} {tree : List TreeEntry}
    (hroom : HasRoom localeLe project repoFullName store (.indexRepo calls tree)) :
    (RagIndexing.carryOut project (splitRepo repoFullName).2
      (indexRun localeLe project repoFullName calls tree).writes store).rows.length ≤
        MAX_CHUNKS_PER_REPO := by
  unfold indexRun
  split_ifs with hready
  · obtain ⟨hchunks, hlength⟩ := @indexPaths_zero_spec project repoFullName calls
      ((indexableTree localeLe tree).map TreeEntry.path)
    exact length_carryOut_le_of_fit h.keyed hchunks hlength (hroom hready)
  · exact hcap

/-- A re-index that counts the rows, or has room, leaves the index within the cap. -/
theorem length_reindexWrites_le {store : RagStore} (h : OwnIndex project repoFullName store)
    (hcap : store.rows.length ≤ MAX_CHUNKS_PER_REPO) {calls : ReindexCalls} {paths : List String}
    (hroom : HasRoom localeLe project repoFullName store (.reindexChangedPaths calls paths)) :
    let dropped := RagIndexing.reindexStart project repoFullName calls paths store
    (RagIndexing.carryOut project (splitRepo repoFullName).2
      (reindexWrites project repoFullName calls paths dropped) dropped).rows.length ≤
        MAX_CHUNKS_PER_REPO := by
  have hown := h.reindexStart calls paths
  have hdropped : (RagIndexing.reindexStart project repoFullName calls paths store).rows.length ≤
      MAX_CHUNKS_PER_REPO := (length_reindexStart calls paths store).trans hcap
  dsimp only
  by_cases hcount : calls.countAnswered = true
  · rw [reindexWrites, if_pos hcount]
    refine (length_carryOut_le _ _ _ hown.keyed).trans ?_
    rw [← hown.rowCount_eq]
    exact reindexRun_fits calls paths (hown.rowCount_eq ▸ hdropped)
  · rw [reindexWrites, if_neg hcount]
    unfold reindexRun
    split_ifs with hready
    · obtain ⟨hchunks, hlength⟩ := @indexPaths_zero_spec project repoFullName calls.toIndexCalls
        ((uniquePaths paths).filter fun path => isIndexablePath path none)
      exact length_carryOut_le_of_fit hown.keyed hchunks hlength
        (hroom hready (Bool.eq_false_iff.mpr hcount))
    · exact hdropped

/-- From an index within the cap, a job with room stays within it. -/
theorem staysWithinCap_of_hasRoom {store : RagStore} (h : OwnIndex project repoFullName store)
    (hcap : store.rows.length ≤ MAX_CHUNKS_PER_REPO) {job : IndexJob}
    (hroom : HasRoom localeLe project repoFullName store job) :
    StaysWithinCap localeLe project repoFullName store job := by
  cases job with
  | indexRepo calls tree =>
    exact fun earlier => forall_prefix_of_last h (length_indexRun_le h hcap hroom)
  | reindexChangedPaths calls paths =>
    constructor
    · intro vectorsGone rowsGone _ _
      rw [(h.reindexStart _ paths).rowCount_eq]
      exact (length_reindexStart _ paths store).trans hcap
    · exact fun earlier => forall_prefix_of_last (h.reindexStart calls paths)
        (length_reindexWrites_le h hcap hroom)

theorem OwnIndex.runJob {store : RagStore} (h : OwnIndex project repoFullName store)
    (job : IndexJob) :
    OwnIndex project repoFullName (runJob localeLe project repoFullName store job) := by
  cases job with
  | indexRepo calls tree => exact h.carryOut _
  | reindexChangedPaths calls paths => exact (h.reindexStart calls paths).carryOut _

theorem rowCount_runJob_le {store : RagStore} {job : IndexJob}
    (h : StaysWithinCap localeLe project repoFullName store job) :
    rowCount project repoFullName (runJob localeLe project repoFullName store job) ≤
      MAX_CHUNKS_PER_REPO := by
  cases job with
  | indexRepo calls tree => exact h _ (List.prefix_refl _)
  | reindexChangedPaths calls paths => exact h.2 _ (List.prefix_refl _)

theorem ownIndex_empty : OwnIndex project repoFullName {} := ⟨List.nodup_nil, nofun⟩

end Runs

/-! ## Two full indexes of different trees -/

section Overfull

/-- `zz/Makefile`, with as many letters in the name of the directory as the number says. -/
def makefile (n : ℕ) : String := String.ofList (List.replicate n 'z' ++ "/Makefile".toList)

theorem makefile_toList (n : ℕ) :
    (makefile n).toList = List.replicate n 'z' ++ "/Makefile".toList := String.toList_ofList

theorem makefile_injective : Function.Injective makefile := by
  intro m n h
  have hlength := congrArg (fun path : String => path.toList.length) h
  simp only [makefile_toList, List.length_append, List.length_replicate] at hlength
  omega

theorem test_makefile {p : Pattern} (h : excludes "z/Makefile".toList p = true) (n : ℕ) :
    test p (makefile n).toList = false := by
  apply test_eq_false_of_excludes h
  rw [makefile_toList]
  intro c hc
  rcases List.mem_append.mp hc with hc | hc
  · rw [(List.mem_replicate.mp hc).2]
    decide
  · exact List.mem_cons_of_mem _ hc

theorem classify_makefile (n : ℕ) : classifyRepoFile (makefile n) = some .code := by
  have hextless : test allowExtlessPattern (makefile n).toList = true := by
    rw [test_iff, makefile_toList]
    refine ⟨List.replicate n 'z', "/Makefile".toList, [], by simp, ?_⟩
    have hmatch : ∀ prev ∈ [none, some 'z'],
        ("/Makefile".toList, []) ∈ ends allowExtlessPattern prev "/Makefile".toList := by
      decide +kernel
    refine ((mem_ends_iff _ _ _ _ _).mp (hmatch _ ?_)).2
    cases n with
    | zero => exact List.mem_cons_self
    | succ n =>
      rw [List.replicate_succ', before_append]
      exact List.mem_cons_of_mem _ List.mem_cons_self
  unfold classifyRepoFile
  simp only [test_makefile (p := skipDirPattern) (by decide +kernel),
    test_makefile (p := skipFilePattern) (by decide +kernel),
    test_makefile (p := binaryExtPattern) (by decide +kernel),
    test_makefile (p := docExtPattern) (by decide +kernel), hextless]
  simp

/-- Every file holds one letter and every batch is stored. -/
def letterFiles : IndexCalls where
  ready := true
  fileText := fun _ => some [120]
  upsert := fun _ _ => .stored

def makefileTree (numbers : List ℕ) : List TreeEntry :=
  numbers.map fun n => ⟨makefile n, some 1⟩

theorem chunksOfPath_makefile (nameSpace : String) (n : ℕ) :
    ∃ chunk, chunksOfPath nameSpace letterFiles (makefile n) = [chunk] ∧
      chunk.id = chunkId nameSpace (makefile n) 0 := by
  have hblank : isBlank [120] = false := by decide
  have hfits : exceeds (chunkLimits {}) [120].length = false := by decide +kernel
  have hjs : test jsTsPattern (makefile n).toList = false := test_makefile (by decide +kernel) n
  refine ⟨ChunkContext.chunk ⟨makefile n, .code, nameSpace, chunkLimits {}⟩ 0 .file [120] 0, ?_,
    rfl⟩
  unfold chunksOfPath letterFiles fileChunks
  dsimp only
  rw [chunkFile_of_cut (classify_makefile n) hblank]
  dsimp only
  rw [if_neg (by simp [hjs]), newlineChunks_of_fits hfits, Option.getD_some]

theorem paths_makefileTree (localeLe : String → String → Bool) (numbers : List ℕ) :
    (((indexableTree localeLe (makefileTree numbers)).map TreeEntry.path)).Perm
      (numbers.map makefile) := by
  have hall : (makefileTree numbers).filter (fun entry => isIndexablePath entry.path entry.size) =
      makefileTree numbers := by
    refine List.filter_eq_self.mpr fun entry hentry => ?_
    obtain ⟨n, -, rfl⟩ := List.mem_map.mp hentry
    simp [isIndexablePath, classify_makefile, MAX_FILE_BYTES]
  unfold indexableTree
  rw [hall]
  refine ((List.mergeSort_perm _ _).map TreeEntry.path).trans ?_
  rw [makefileTree, List.map_map]
  rfl

/-- A full index of up to 1500 one-letter files stores a chunk of each. -/
theorem mem_writtenChunks_makefiles (localeLe : String → String → Bool)
    (project repoFullName : String) {numbers : List ℕ}
    (hnumbers : numbers.length ≤ MAX_CHUNKS_PER_REPO) {n : ℕ} (hn : n ∈ numbers) :
    chunkId (jobNamespace project repoFullName) (makefile n) 0 ∈
      (writtenChunks (indexRun localeLe project repoFullName letterFiles
        (makefileTree numbers)).writes).map RagChunk.id := by
  have hpaths := paths_makefileTree localeLe numbers
  generalize hlist : (indexableTree localeLe (makefileTree numbers)).map TreeEntry.path = paths
    at hpaths
  have hone : ∀ path ∈ paths, (chunksOfPath (jobNamespace project repoFullName) letterFiles
      path).length = 1 := by
    intro path hpath
    obtain ⟨m, -, rfl⟩ := List.mem_map.mp (hpaths.mem_iff.mp hpath)
    obtain ⟨chunk, hchunks, -⟩ := chunksOfPath_makefile (jobNamespace project repoFullName) m
    rw [hchunks, List.length_singleton]
  have hlength : (paths.flatMap (chunksOfPath (jobNamespace project repoFullName)
      letterFiles)).length = numbers.length := by
    have hpathCount : paths.length = numbers.length := by
      rw [hpaths.length_eq, List.length_map]
    rw [List.length_flatMap, List.map_congr_left hone]
    simp [hpathCount]
  have hroom : (Indexing.stored { stored := 0 }) + (paths.flatMap
      (chunksOfPath (jobNamespace project repoFullName) letterFiles)).length ≤
        MAX_CHUNKS_PER_REPO := by
    rw [hlength]
    exact (Nat.zero_add _).trans_le hnumbers
  obtain ⟨writes, hwrites, hwritten⟩ := writtenChunks_indexPaths (fun _ _ => rfl) paths hroom
  have hrun : (indexRun localeLe project repoFullName letterFiles (makefileTree numbers)).writes =
      writes := by
    rw [indexRun, if_pos (show letterFiles.ready = true from rfl), hlist, hwrites]
    rfl
  obtain ⟨chunk, hchunks, hid⟩ := chunksOfPath_makefile (jobNamespace project repoFullName) n
  rw [hrun, hwritten, ← hid]
  refine List.mem_map_of_mem (List.mem_flatMap.mpr ⟨makefile n, ?_, ?_⟩)
  · exact hpaths.mem_iff.mpr (List.mem_map_of_mem hn)
  · rw [hchunks]
    exact List.mem_singleton.mpr rfl

/-- The files of the first tree have all been replaced by another one in the second, but
their rows stay. -/
def movedTree : List IndexJob :=
  [.indexRepo letterFiles (makefileTree (List.range 1500)),
    .indexRepo letterFiles (makefileTree [1500])]

end Overfull

end Gittensory.RagCap
