import Gittensory.RagCap

/-!
What a full index leaves in the table when nothing fails and the cap is not reached. The
upsert overwrites the rows whose ids come up again and deletes none, so the repository's
rows are the chunks of the current files exactly when every earlier row was one of these
chunks' rows already.
-/
namespace Gittensory.RagFreshness

open ChunkCoverage ChunkWindows KeyedTable RagCap RagChunks RagIndexing RagNamespace

section Freshness

variable (project repoFullName : String) (calls : IndexCalls) (tree : List TreeEntry)

/-- What `chunkFile` yields for the indexable files of the tree, which are read unless the
fetch of one fails. -/
def currentChunks : List RagChunk :=
  ((tree.filter fun entry => isIndexablePath entry.path entry.size).map TreeEntry.path).flatMap
    (chunksOfPath (jobNamespace project repoFullName) calls)

/-- The repository's rows are those of the chunks, and no others. -/
def HoldsExactly (chunks : List RagChunk) (store : RagStore) : Prop :=
  ∀ row, (row ∈ store.rows ∧ row.project = project ∧ row.repo = (splitRepo repoFullName).2) ↔
    ∃ chunk ∈ chunks, row = rowOf project (splitRepo repoFullName).2 chunk

/-- Every earlier row of the repository has the id and the path of a chunk, and no other
repository's row has the id of one. -/
structure OnlyCurrent (chunks : List RagChunk) (store : RagStore) : Prop where
  own : ∀ row ∈ store.rows, row.project = project → row.repo = (splitRepo repoFullName).2 →
    ∃ chunk ∈ chunks, chunk.id = row.id ∧ chunk.path = row.path
  foreign : ∀ row ∈ store.rows, ∀ chunk ∈ chunks, row.id = chunk.id →
    row.project = project ∧ row.repo = (splitRepo repoFullName).2

variable {project repoFullName calls tree}

/-! ## One chunk for each id -/

theorem fileChunks_named {nameSpace path : String} {text : CodeUnits.Units} {chunk : RagChunk}
    (h : chunk ∈ fileChunks nameSpace path text) :
    chunk.id = chunkId nameSpace path chunk.chunkIndex := by
  obtain ⟨chunks, hchunks⟩ :=
    Option.isSome_iff_exists.mp (chunkFile_default_isSome path text nameSpace)
  rw [fileChunks, hchunks, Option.getD_some] at h
  exact chunkFile_named hchunks chunk h

theorem fileChunks_nodup (nameSpace path : String) (text : CodeUnits.Units) :
    ((fileChunks nameSpace path text).map RagChunk.id).Nodup := by
  obtain ⟨chunks, hchunks⟩ :=
    Option.isSome_iff_exists.mp (chunkFile_default_isSome path text nameSpace)
  rw [fileChunks, hchunks, Option.getD_some]
  by_cases hkind : classifyRepoFile path = none
  · rw [chunkFile_eq_nil (Or.inl hkind) hchunks]
    exact List.nodup_nil
  · exact (chunkFile_lossless hkind hchunks).distinct

theorem chunk_eq_of_id {nameSpace path path' : String} {chunk chunk' : RagChunk}
    (h : chunk ∈ chunksOfPath nameSpace calls path)
    (h' : chunk' ∈ chunksOfPath nameSpace calls path') (hid : chunk.id = chunk'.id) :
    chunk = chunk' := by
  unfold chunksOfPath at h h'
  cases htext : calls.fileText path with
  | none =>
    rw [htext] at h
    exact absurd h List.not_mem_nil
  | some text =>
    cases htext' : calls.fileText path' with
    | none =>
      rw [htext'] at h'
      exact absurd h' List.not_mem_nil
    | some text' =>
      rw [htext] at h
      rw [htext'] at h'
      have hpath : path = path' := by
        have hids := hid
        rw [fileChunks_named h, fileChunks_named h'] at hids
        exact chunkId_path_injective hids
      subst hpath
      obtain rfl := Option.some.inj (htext.symm.trans htext')
      exact List.inj_on_of_nodup_map (fileChunks_nodup nameSpace path text) h h' hid

theorem currentChunks_one : ∀ chunk ∈ currentChunks project repoFullName calls tree,
    ∀ other ∈ currentChunks project repoFullName calls tree, chunk.id = other.id →
      chunk = other := by
  intro chunk hchunk other hother hid
  obtain ⟨path, -, hmem⟩ := List.mem_flatMap.mp hchunk
  obtain ⟨path', -, hmem'⟩ := List.mem_flatMap.mp hother
  exact chunk_eq_of_id hmem hmem' hid

/-! ## The rows after an upsert of all chunks -/

section Upsert

variable {repo : String} {chunks : List RagChunk} {store : RagStore}

theorem lookup_upsertRows_of_mem
    (hone : ∀ chunk ∈ chunks, ∀ other ∈ chunks, chunk.id = other.id → chunk = other)
    {chunk : RagChunk} (hchunk : chunk ∈ chunks) (rows : List ChunkRow) :
    lookup ChunkRow.id (upsertRows project repo chunks rows) chunk.id =
      some (((lookup ChunkRow.id rows chunk.id).map (updateRow chunk)).getD
        (rowOf project repo chunk)) :=
  @lookup_foldl_upsertWith_of_mem _ _ _ ChunkRow.id _ updateRow (rowOf project repo) updateRow_id
    (fun _ => rfl) (fun _ _ => rfl) _ hone rows _ hchunk

theorem lookup_upsertRows_of_not_mem {id : String} (h : id ∉ chunks.map RagChunk.id)
    (rows : List ChunkRow) :
    lookup ChunkRow.id (upsertRows project repo chunks rows) id = lookup ChunkRow.id rows id :=
  @lookup_foldl_upsertWith_of_not_mem _ _ _ ChunkRow.id _ updateRow (rowOf project repo) updateRow_id
    _ _ _ h

theorem updateRow_eq_rowOf {chunk : RagChunk} {stored : ChunkRow} :
    updateRow chunk stored = rowOf project repo chunk ↔
      stored.id = chunk.id ∧ stored.project = project ∧ stored.repo = repo ∧
        stored.path = chunk.path := by
  cases stored
  simp [updateRow, rowOf]

/-- The upsert of all chunks leaves exactly their rows when the earlier rows were theirs. -/
theorem holdsExactly_upsertRows_iff
    (hone : ∀ chunk ∈ chunks, ∀ other ∈ chunks, chunk.id = other.id → chunk = other)
    (hstore : KeyedRows store) {after : RagStore}
    (hafter : after.rows = upsertRows project (splitRepo repoFullName).2 chunks store.rows) :
    HoldsExactly project repoFullName chunks after ↔
      OnlyCurrent project repoFullName chunks store := by
  have hkeyed : KeyedRows after := by
    unfold KeyedRows
    rw [hafter]
    exact nodup_foldl_upsertWith ChunkRow.id updateRow_id _ hstore
  have hmem : ∀ row, row ∈ after.rows ↔ lookup ChunkRow.id
      (upsertRows project (splitRepo repoFullName).2 chunks store.rows) row.id = some row := by
    intro row
    rw [← hafter, lookup_eq_some_iff ChunkRow.id hkeyed]
    exact (and_iff_left rfl).symm
  have hupdated : ∀ row ∈ store.rows, ∀ chunk ∈ chunks, row.id = chunk.id →
      updateRow chunk row ∈ after.rows := by
    intro row hrow chunk hchunk hid
    have hold := (lookup_eq_some_iff ChunkRow.id hstore).mpr ⟨hrow, hid⟩
    rw [hmem, updateRow_id, hid, lookup_upsertRows_of_mem hone hchunk, hold]
    rfl
  have hkept : ∀ row ∈ store.rows, row.id ∉ chunks.map RagChunk.id → row ∈ after.rows := by
    intro row hrow hid
    rw [hmem, lookup_upsertRows_of_not_mem hid]
    exact (lookup_eq_some_iff ChunkRow.id hstore).mpr ⟨hrow, rfl⟩
  constructor
  · intro h
    refine ⟨fun row hrow hproject hrepo => ?_, fun row hrow chunk hchunk hid => ?_⟩
    · by_cases hid : row.id ∈ chunks.map RagChunk.id
      · obtain ⟨chunk, hchunk, heq⟩ := List.mem_map.mp hid
        obtain ⟨current, hcurrent, hrowOf⟩ :=
          (h _).mp ⟨hupdated row hrow chunk hchunk heq.symm, hproject, hrepo⟩
        exact ⟨current, hcurrent, (congrArg ChunkRow.id hrowOf).symm,
          (congrArg ChunkRow.path hrowOf).symm⟩
      · obtain ⟨current, hcurrent, hrowOf⟩ := (h row).mp ⟨hkept row hrow hid, hproject, hrepo⟩
        exact ⟨current, hcurrent, (congrArg ChunkRow.id hrowOf).symm,
          (congrArg ChunkRow.path hrowOf).symm⟩
    · obtain ⟨hin, -⟩ := (h _).mpr ⟨chunk, hchunk, rfl⟩
      have hsame := List.inj_on_of_nodup_map hkeyed hin (hupdated row hrow chunk hchunk hid) hid.symm
      obtain ⟨-, hproject, hrepo, -⟩ := updateRow_eq_rowOf.mp hsame.symm
      exact ⟨hproject, hrepo⟩
  · rintro ⟨hown, hforeign⟩ row
    constructor
    · rintro ⟨hrow, hproject, hrepo⟩
      have hlookup := (hmem row).mp hrow
      by_cases hid : row.id ∈ chunks.map RagChunk.id
      · obtain ⟨chunk, hchunk, heq⟩ := List.mem_map.mp hid
        rw [← heq, lookup_upsertRows_of_mem hone hchunk, Option.some.injEq] at hlookup
        refine ⟨chunk, hchunk, ?_⟩
        cases hold : lookup ChunkRow.id store.rows chunk.id with
        | none =>
          rw [hold] at hlookup
          exact hlookup.symm
        | some stored =>
          rw [hold, Option.map_some, Option.getD_some] at hlookup
          obtain ⟨hstored, hsame⟩ := mem_of_lookup ChunkRow.id hold
          have hfields : stored.project = project ∧ stored.repo = (splitRepo repoFullName).2 :=
            ⟨(congrArg ChunkRow.project hlookup).trans hproject,
              (congrArg ChunkRow.repo hlookup).trans hrepo⟩
          obtain ⟨current, hcurrent, hcurrentId, hpath⟩ := hown stored hstored hfields.1 hfields.2
          obtain rfl := hone current hcurrent chunk hchunk (hcurrentId.trans hsame)
          rw [← hlookup]
          exact updateRow_eq_rowOf.mpr ⟨hsame, hfields.1, hfields.2, hpath.symm⟩
      · rw [lookup_upsertRows_of_not_mem hid] at hlookup
        obtain ⟨chunk, hchunk, heq, -⟩ :=
          hown row (mem_of_lookup ChunkRow.id hlookup).1 hproject hrepo
        exact absurd (heq ▸ List.mem_map_of_mem hchunk) hid
    · rintro ⟨chunk, hchunk, rfl⟩
      refine ⟨?_, rfl, rfl⟩
      have hid : (rowOf project (splitRepo repoFullName).2 chunk).id = chunk.id := rfl
      rw [hmem, hid, lookup_upsertRows_of_mem hone hchunk]
      cases hold : lookup ChunkRow.id store.rows chunk.id with
      | none => rfl
      | some stored =>
        obtain ⟨hstored, hsame⟩ := mem_of_lookup ChunkRow.id hold
        obtain ⟨hproject, hrepo⟩ := hforeign stored hstored chunk hchunk hsame
        obtain ⟨current, hcurrent, hcurrentId, hpath⟩ := hown stored hstored hproject hrepo
        obtain rfl := hone current hcurrent chunk hchunk (hcurrentId.trans hsame)
        rw [Option.map_some, Option.getD_some,
          updateRow_eq_rowOf.mpr ⟨hsame, hproject, hrepo, hpath.symm⟩]

end Upsert

/-! ## A full index without failures -/

theorem indexableTree_perm (localeLe : String → String → Bool) :
    ((indexableTree localeLe tree).map TreeEntry.path).Perm
      ((tree.filter fun entry => isIndexablePath entry.path entry.size).map TreeEntry.path) :=
  (List.mergeSort_perm _ _).map TreeEntry.path

/-- The sort changes the order of the files only. -/
theorem mem_sorted_chunks (localeLe : String → String → Bool) (chunk : RagChunk) :
    chunk ∈ ((indexableTree localeLe tree).map TreeEntry.path).flatMap
        (chunksOfPath (jobNamespace project repoFullName) calls) ↔
      chunk ∈ currentChunks project repoFullName calls tree := by
  simp only [currentChunks, List.mem_flatMap, (indexableTree_perm localeLe).mem_iff]

theorem holdsExactly_congr {chunks chunks' : List RagChunk}
    (h : ∀ chunk, chunk ∈ chunks ↔ chunk ∈ chunks') (store : RagStore) :
    HoldsExactly project repoFullName chunks store ↔
      HoldsExactly project repoFullName chunks' store := by
  simp only [HoldsExactly, h]

theorem onlyCurrent_congr {chunks chunks' : List RagChunk}
    (h : ∀ chunk, chunk ∈ chunks ↔ chunk ∈ chunks') (store : RagStore) :
    OnlyCurrent project repoFullName chunks store ↔
      OnlyCurrent project repoFullName chunks' store := by
  constructor
  · rintro ⟨hown, hforeign⟩
    exact ⟨by simpa only [h] using hown, by simpa only [h] using hforeign⟩
  · rintro ⟨hown, hforeign⟩
    exact ⟨by simpa only [h] using hown, by simpa only [h] using hforeign⟩

/-- A full index in which every batch is stored and all chunks find room leaves exactly the
current code when it found nothing else of the repository, and no other repository's rows in
the way. -/
theorem indexRepo_fresh_iff (localeLe : String → String → Bool) (hready : calls.ready = true)
    (hstored : ∀ path round, calls.upsert path round = .stored)
    (hroom : (currentChunks project repoFullName calls tree).length ≤ MAX_CHUNKS_PER_REPO)
    {store : RagStore} (hstore : KeyedRows store) :
    HoldsExactly project repoFullName (currentChunks project repoFullName calls tree)
        (indexRepo localeLe project repoFullName calls tree store).1 ↔
      OnlyCurrent project repoFullName (currentChunks project repoFullName calls tree) store := by
  have hlength : (((indexableTree localeLe tree).map TreeEntry.path).flatMap
      (chunksOfPath (jobNamespace project repoFullName) calls)).length ≤ MAX_CHUNKS_PER_REPO := by
    rw [((indexableTree_perm localeLe).flatMap_right _).length_eq]
    exact hroom
  have hroom' : (Indexing.stored { stored := 0 }) +
      (((indexableTree localeLe tree).map TreeEntry.path).flatMap
        (chunksOfPath (jobNamespace project repoFullName) calls)).length ≤ MAX_CHUNKS_PER_REPO := by
    rwa [Nat.zero_add]
  obtain ⟨writes, hwrites, hwritten⟩ := writtenChunks_indexPaths hstored _ hroom'
  have hrun : (indexRun localeLe project repoFullName calls tree).writes = writes := by
    rw [indexRun, if_pos hready, hwrites]
    rfl
  have hrows : (indexRepo localeLe project repoFullName calls tree store).1.rows =
      upsertRows project (splitRepo repoFullName).2
        (((indexableTree localeLe tree).map TreeEntry.path).flatMap
          (chunksOfPath (jobNamespace project repoFullName) calls)) store.rows := by
    rw [← hwritten, ← hrun]
    exact carryOut_rows _ _ _ _
  have hsame : ∀ chunk, chunk ∈ ((indexableTree localeLe tree).map TreeEntry.path).flatMap
      (chunksOfPath (jobNamespace project repoFullName) calls) ↔
        chunk ∈ currentChunks project repoFullName calls tree := mem_sorted_chunks localeLe
  rw [← holdsExactly_congr hsame, ← onlyCurrent_congr hsame]
  refine holdsExactly_upsertRows_iff (fun chunk hchunk other hother hid => ?_) hstore hrows
  exact currentChunks_one chunk ((hsame chunk).mp hchunk) other ((hsame other).mp hother) hid

end Freshness

/-! ## A deleted file -/

theorem currentChunks_makefile (n : ℕ) :
    ∃ chunk, currentChunks "acme" "acme/widgets" letterFiles (makefileTree [n]) = [chunk] ∧
      chunk.id = chunkId (jobNamespace "acme" "acme/widgets") (makefile n) 0 := by
  obtain ⟨chunk, hchunks, hid⟩ := chunksOfPath_makefile (jobNamespace "acme" "acme/widgets") n
  refine ⟨chunk, ?_, hid⟩
  simp [currentChunks, makefileTree, isIndexablePath, classify_makefile, MAX_FILE_BYTES, hchunks]

/-- The first tree's file is gone from the second, and its row is still there. -/
theorem deleted_file_stays :
    ¬ HoldsExactly "acme" "acme/widgets"
      (currentChunks "acme" "acme/widgets" letterFiles (makefileTree [2]))
      (indexRepo (fun a b => a ≤ b) "acme" "acme/widgets" letterFiles (makefileTree [2])
        (indexRepo (fun a b => a ≤ b) "acme" "acme/widgets" letterFiles
          (makefileTree [1]) {}).1).1 := by
  intro h
  have hown : OwnIndex "acme" "acme/widgets" (runJob (fun a b => a ≤ b) "acme" "acme/widgets"
      (runJob (fun a b => a ≤ b) "acme" "acme/widgets" {}
        (.indexRepo letterFiles (makefileTree [1])))
      (.indexRepo letterFiles (makefileTree [2]))) := (ownIndex_empty.runJob _).runJob _
  have hid := (mem_ids_carryOut "acme" "widgets" (indexRun (fun a b => a ≤ b) "acme" "acme/widgets"
    letterFiles (makefileTree [2])).writes _ _).mpr (Or.inl ((mem_ids_carryOut "acme" "widgets" _ {}
      _).mpr (Or.inr (@mem_writtenChunks_makefiles (fun a b => a ≤ b) "acme" "acme/widgets" [1]
        (by decide) _ (List.mem_singleton.mpr rfl)))))
  obtain ⟨row, hrow, hrowId⟩ := List.mem_map.mp hid
  obtain ⟨chunk, hchunk, rfl⟩ := (h row).mp ⟨hrow, hown.own row hrow⟩
  obtain ⟨current, hcurrent, hcurrentId⟩ := currentChunks_makefile 2
  rw [hcurrent, List.mem_singleton] at hchunk
  rw [hchunk] at hrowId
  have hpath := chunkId_path_injective (hcurrentId.symm.trans hrowId)
  exact absurd (makefile_injective hpath) (by decide)

theorem indexRepo_fresh_empty :
    HoldsExactly "acme" "acme/widgets"
      (currentChunks "acme" "acme/widgets" letterFiles (makefileTree [1]))
      (indexRepo (fun a b => a ≤ b) "acme" "acme/widgets" letterFiles (makefileTree [1]) {}).1 := by
  have hroom : (currentChunks "acme" "acme/widgets" letterFiles (makefileTree [1])).length ≤
      MAX_CHUNKS_PER_REPO := by
    obtain ⟨chunk, hchunks, -⟩ := currentChunks_makefile 1
    rw [hchunks]
    exact (by decide : 1 ≤ MAX_CHUNKS_PER_REPO)
  have hempty : KeyedRows {} := List.nodup_nil
  exact (indexRepo_fresh_iff (fun a b => a ≤ b) rfl (fun _ _ => rfl) hroom hempty).mpr
    ⟨nofun, nofun⟩

end Gittensory.RagFreshness
