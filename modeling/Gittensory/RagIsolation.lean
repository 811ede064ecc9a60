import Gittensory.RagNamespace

/-!
When the index keeps two repositories apart. Every id in it starts with the namespace of the
repository it was made for, so two repositories of different namespaces share no id, and
no job or retrieval for one comes upon the other's chunks.
-/
namespace Gittensory.RagIsolation

open JsValue CodeUnits KeyedTable RagChunks ChunkCoverage RagNamespace

section Ids

/-- The id starts with the namespace and a bar. -/
def Owned (nameSpace id : String) : Prop := ∃ rest, id.toList = nameSpace.toList ++ '|' :: rest

theorem nameSpace_ne_empty (repository : Repository) : repository.nameSpace ≠ "" := by
  intro h
  have hlist := repository.nameSpace_toList
  rw [h] at hlist
  exact List.append_ne_nil_of_right_ne_nil _ (List.cons_ne_nil _ _) hlist.symm

theorem owned_chunkId (repository : Repository) (path : String) (idx : ℕ) :
    Owned repository.nameSpace (chunkId repository.nameSpace path idx) := by
  unfold chunkId
  rw [if_pos (nameSpace_ne_empty repository)]
  refine ⟨(path ++ "::" ++ toString idx).toList, ?_⟩
  simp only [String.toList_append, List.append_assoc]
  rfl

theorem nameSpace_eq_of_owned {p q : Repository} {id : String} (hp : Owned p.nameSpace id)
    (hq : Owned q.nameSpace id) : p.nameSpace = q.nameSpace := by
  obtain ⟨rest, hrest⟩ := hp
  obtain ⟨rest', hrest'⟩ := hq
  rw [hrest] at hrest'
  exact String.toList_inj.mp ((append_separator_inj p.bar_not_mem q.bar_not_mem).mp hrest').1

/-- A chunk that is made of some file of the repository. -/
def Produced (repository : Repository) (chunk : RagChunk) : Prop :=
  ∃ fuel path text opts chunks,
    chunkFile fuel path text repository.nameSpace opts = some chunks ∧ chunk ∈ chunks

theorem Produced.owned {repository : Repository} {chunk : RagChunk}
    (h : Produced repository chunk) : Owned repository.nameSpace chunk.id := by
  obtain ⟨fuel, path, text, opts, chunks, hchunks, hmem⟩ := h
  rw [chunkFile_named hchunks chunk hmem]
  exact owned_chunkId repository path _

end Ids

section Stores

/-- The vector stands under an id of the repository it is stored for. -/
def VectorFiled (vector : VectorRow) : Prop :=
  ∃ owner : Repository, vector.nameSpace = owner.nameSpace ∧ Owned owner.nameSpace vector.id

def RowFiled (row : ChunkRow) : Prop :=
  ∃ owner : Repository,
    row.project = owner.project ∧ row.repo = owner.repo ∧ Owned owner.nameSpace row.id

structure Filed (store : RagStore) : Prop where
  vectors : ∀ vector ∈ store.vectors, VectorFiled vector
  rows : ∀ row ∈ store.rows, RowFiled row

variable {p q : Repository} {store : RagStore} {chunks : List RagChunk}

theorem upsertVectors_eq (nameSpace : String) (chunks : List RagChunk)
    (vectors : List VectorRow) :
    upsertVectors nameSpace chunks vectors =
      chunks.foldl
        (fun vectors chunk => upsertWith (·.id) (fun _ => vectorOf nameSpace chunk) vectors
          (vectorOf nameSpace chunk)) vectors := rfl

theorem vectorFiled_vectorOf {chunk : RagChunk} (h : Produced p chunk) :
    VectorFiled (vectorOf p.nameSpace chunk) := ⟨p, rfl, h.owned⟩

theorem rowFiled_rowOf {chunk : RagChunk} (h : Produced p chunk) :
    RowFiled (rowOf p.project p.repo chunk) := ⟨p, rfl, rfl, h.owned⟩

theorem Filed.upsertVectors (h : Filed store) (hchunks : ∀ chunk ∈ chunks, Produced p chunk) :
    ∀ vector ∈ upsertVectors p.nameSpace chunks store.vectors, VectorFiled vector := by
  rw [upsertVectors_eq]
  apply forall_foldl_upsertWith _ (fun chunk _ => vectorOf p.nameSpace chunk) _ VectorFiled
  · exact fun chunk hchunk => vectorFiled_vectorOf (hchunks chunk hchunk)
  · exact fun chunk hchunk _ _ _ => vectorFiled_vectorOf (hchunks chunk hchunk)
  · exact h.vectors

theorem Filed.upsertRows (h : Filed store) (hchunks : ∀ chunk ∈ chunks, Produced p chunk) :
    ∀ row ∈ upsertRows p.project p.repo chunks store.rows, RowFiled row := by
  unfold RagNamespace.upsertRows
  apply forall_foldl_upsertWith _ updateRow _ RowFiled
  · exact fun chunk hchunk => rowFiled_rowOf (hchunks chunk hchunk)
  · exact fun chunk hchunk stored hstored _ => hstored
  · exact h.rows

theorem Filed.upsertChunks (h : Filed store) (outcome : UpsertOutcome)
    (hchunks : ∀ chunk ∈ chunks, Produced p chunk) :
    Filed (upsertChunks outcome p.project p.repo chunks store) := by
  cases outcome with
  | failed => exact h
  | vectorsOnly => exact ⟨h.upsertVectors hchunks, h.rows⟩
  | stored => exact ⟨h.upsertVectors hchunks, h.upsertRows hchunks⟩

theorem Filed.deleteChunksForPaths (h : Filed store) (vectorsGone rowsGone : ℕ)
    (paths : List String) :
    Filed (deleteChunksForPaths vectorsGone rowsGone p.project p.repo paths store) :=
  ⟨fun vector hvector => h.vectors vector (List.mem_of_mem_filter hvector),
    fun row hrow => h.rows row (List.mem_of_mem_filter hrow)⟩

theorem produced_of_part {fuel : ℕ} {path : String} {text : Units} {opts : ChunkOpts}
    (h : chunkFile fuel path text p.nameSpace opts = some chunks) (skipped taken : ℕ) :
    ∀ chunk ∈ (chunks.drop skipped).take taken, Produced p chunk := by
  intro chunk hchunk
  exact ⟨fuel, path, text, opts, chunks, h, List.mem_of_mem_drop (List.mem_of_mem_take hchunk)⟩

/-- A job leaves the store as it is, upserts chunks of the repository or deletes some. -/
theorem apply_cases (p : Repository) (job : RagJob) (store : RagStore) :
    job.apply p store = store ∨
      (∃ outcome chunks, (∀ chunk ∈ chunks, Produced p chunk) ∧
        job.apply p store = upsertChunks outcome p.project p.repo chunks store) ∨
      ∃ vectorsGone rowsGone paths, job.apply p store =
        deleteChunksForPaths vectorsGone rowsGone p.project p.repo paths store := by
  cases job with
  | index fuel path text opts skipped taken outcome =>
    unfold RagJob.apply
    cases hchunks : chunkFile fuel path text p.nameSpace opts with
    | none => exact Or.inl (by dsimp only; rw [hchunks])
    | some chunks =>
      exact Or.inr (Or.inl ⟨outcome, _, produced_of_part hchunks skipped taken, by
        dsimp only; rw [hchunks]⟩)
  | delete vectorsGone rowsGone paths =>
    exact Or.inr (Or.inr ⟨vectorsGone, rowsGone, paths, rfl⟩)

theorem Filed.apply (h : Filed store) (p : Repository) (job : RagJob) :
    Filed (job.apply p store) := by
  rcases apply_cases p job store with hsame | ⟨outcome, chunks, hchunks, hupsert⟩ |
    ⟨vectorsGone, rowsGone, paths, hdelete⟩
  · rw [hsame]
    exact h
  · rw [hupsert]
    exact h.upsertChunks outcome hchunks
  · rw [hdelete]
    exact h.deleteChunksForPaths vectorsGone rowsGone paths

theorem filed_runJobs (jobs : List (Repository × RagJob)) : Filed (runJobs jobs) := by
  have hstart : Filed {} := ⟨nofun, nofun⟩
  unfold runJobs
  generalize ({} : RagStore) = store at hstart ⊢
  induction jobs generalizing store with
  | nil => exact hstart
  | cons job jobs ih => exact ih _ (hstart.apply job.1 job.2)

end Stores

section Frames

variable {p q : Repository} {store : RagStore} {chunks : List RagChunk}

theorem vectorIsOf_vectorOf (hne : p.nameSpace ≠ q.nameSpace) (chunk : RagChunk) :
    vectorIsOf q (vectorOf p.nameSpace chunk) = false := decide_eq_false hne

theorem rowIsOf_eq_false (hne : p.nameSpace ≠ q.nameSpace) {row : ChunkRow}
    (h : RowFiled row) (howned : Owned p.nameSpace row.id) : rowIsOf q row = false := by
  apply decide_eq_false
  intro hsame
  obtain ⟨owner, hproject, hrepo, howner⟩ := h
  have heq := nameSpace_eq_of_owned howner howned
  have hq : owner.nameSpace = q.nameSpace := by
    unfold Repository.nameSpace
    rw [← hproject, ← hrepo, hsame.1, hsame.2]
  exact hne (heq.symm.trans hq)

theorem vectorIsOf_eq_false (hne : p.nameSpace ≠ q.nameSpace) {vector : VectorRow}
    (h : VectorFiled vector) (howned : Owned p.nameSpace vector.id) :
    vectorIsOf q vector = false := by
  apply decide_eq_false
  intro hsame
  obtain ⟨owner, hnamespace, howner⟩ := h
  have heq := nameSpace_eq_of_owned howner howned
  exact hne (heq.symm.trans (hnamespace.symm.trans hsame))

theorem chunksOf_upsertVectors (h : Filed store) (hne : p.nameSpace ≠ q.nameSpace)
    (hchunks : ∀ chunk ∈ chunks, Produced p chunk) :
    (upsertVectors p.nameSpace chunks store.vectors).filter (vectorIsOf q) =
      store.vectors.filter (vectorIsOf q) := by
  rw [upsertVectors_eq]
  apply filter_foldl_upsertWith _ (fun chunk _ => vectorOf p.nameSpace chunk) _ VectorFiled
  · exact fun chunk hchunk =>
      ⟨vectorFiled_vectorOf (hchunks chunk hchunk), vectorIsOf_vectorOf hne chunk⟩
  · intro chunk hchunk stored hstored hkey
    have howned : Owned p.nameSpace stored.id := by
      rw [hkey]
      exact (hchunks chunk hchunk).owned
    exact ⟨vectorFiled_vectorOf (hchunks chunk hchunk), vectorIsOf_eq_false hne hstored howned,
      vectorIsOf_vectorOf hne chunk⟩
  · exact h.vectors

theorem chunksOf_upsertRows (h : Filed store) (hne : p.nameSpace ≠ q.nameSpace)
    (hchunks : ∀ chunk ∈ chunks, Produced p chunk) :
    (upsertRows p.project p.repo chunks store.rows).filter (rowIsOf q) =
      store.rows.filter (rowIsOf q) := by
  unfold RagNamespace.upsertRows
  apply filter_foldl_upsertWith _ updateRow _ RowFiled
  · intro chunk hchunk
    have hfiled := rowFiled_rowOf (hchunks chunk hchunk)
    exact ⟨hfiled, rowIsOf_eq_false hne hfiled (hchunks chunk hchunk).owned⟩
  · intro chunk hchunk stored hstored hkey
    have howned : Owned p.nameSpace stored.id := by
      rw [hkey]
      exact (hchunks chunk hchunk).owned
    have hnot := rowIsOf_eq_false hne hstored howned
    exact ⟨hstored, hnot, hnot⟩
  · exact h.rows

/-- What is deleted for one repository stands under its ids. -/
theorem chunksOf_delete (h : Filed store) (hne : p.nameSpace ≠ q.nameSpace)
    (vectorsGone rowsGone : ℕ) (paths : List String) :
    chunksOf q (deleteChunksForPaths vectorsGone rowsGone p.project p.repo paths store) =
      chunksOf q store := by
  have hids : ∀ id ∈ (store.rows.filter fun row =>
      row.project = p.project ∧ row.repo = p.repo ∧ row.path ∈ paths).map (·.id),
      Owned p.nameSpace id := by
    intro id hid
    obtain ⟨row, hrow, rfl⟩ := List.mem_map.mp hid
    obtain ⟨hmem, hsame⟩ := List.mem_filter.mp hrow
    obtain ⟨hproject, hrepo, -⟩ := of_decide_eq_true hsame
    obtain ⟨owner, hproject', hrepo', howned⟩ := h.rows row hmem
    have heq : owner.nameSpace = p.nameSpace := by
      unfold Repository.nameSpace
      rw [← hproject', ← hrepo', hproject, hrepo]
    rwa [heq] at howned
  apply Prod.ext
  · apply filter_filter_of_imp
    intro vector hvector hq
    apply decide_eq_true
    intro hid
    have howned := hids _ (List.mem_of_mem_take hid)
    rw [vectorIsOf_eq_false hne (h.vectors vector hvector) howned] at hq
    cases hq
  · apply filter_filter_of_imp
    intro row hrow hq
    apply decide_eq_true
    intro hid
    have howned := hids _ (List.mem_of_mem_take hid)
    rw [rowIsOf_eq_false hne (h.rows row hrow) howned] at hq
    cases hq

theorem chunksOf_apply (h : Filed store) (hne : p.nameSpace ≠ q.nameSpace) (job : RagJob) :
    chunksOf q (job.apply p store) = chunksOf q store := by
  rcases apply_cases p job store with hsame | ⟨outcome, chunks, hchunks, hupsert⟩ |
    ⟨vectorsGone, rowsGone, paths, hdelete⟩
  · rw [hsame]
  · have hvectors := chunksOf_upsertVectors h hne hchunks
    have hrows := chunksOf_upsertRows h hne hchunks
    rw [hupsert]
    cases outcome with
    | failed => rfl
    | vectorsOnly => exact Prod.ext hvectors rfl
    | stored => exact Prod.ext hvectors hrows
  · rw [hdelete]
    exact chunksOf_delete h hne vectorsGone rowsGone paths

/-- A vector of one repository leads to no row of the other. -/
theorem lookup_without (h : Filed store) (hne : p.nameSpace ≠ q.nameSpace) {vector : VectorRow}
    (hmem : vector ∈ store.vectors) (hmine : vector.nameSpace = p.nameSpace) :
    lookup ChunkRow.id (withoutChunksOf q store).rows vector.id =
      lookup ChunkRow.id store.rows vector.id := by
  obtain ⟨owner, hnamespace, howned⟩ := h.vectors vector hmem
  rw [← hnamespace, hmine] at howned
  apply lookup_filter
  intro row hrow hid
  have hrowned : Owned p.nameSpace row.id := by
    rw [hid]
    exact howned
  rw [rowIsOf_eq_false hne (h.rows row hrow) hrowned]
  rfl

/-- What is retrieved for one repository is the same without the other's chunks. -/
theorem retrieveChunks_without (h : Filed store) (hne : p.nameSpace ≠ q.nameSpace)
    (chosen : VectorRow → Bool) :
    retrieveChunks chosen p.project p.repo (withoutChunksOf q store) =
      retrieveChunks chosen p.project p.repo store := by
  have hvectors : (withoutChunksOf q store).vectors.filter
        (fun vector => vector.nameSpace = ragNamespace p.project p.repo ∧ chosen vector) =
      store.vectors.filter
        fun vector => vector.nameSpace = ragNamespace p.project p.repo ∧ chosen vector := by
    apply filter_filter_of_imp
    intro vector _ hp
    have hmine : vector.nameSpace = p.nameSpace := (of_decide_eq_true hp).1
    unfold vectorIsOf
    rw [hmine, decide_eq_false hne]
    rfl
  have hrows : ∀ vector ∈ store.vectors.filter
        (fun vector => vector.nameSpace = ragNamespace p.project p.repo ∧ chosen vector),
      (lookup ChunkRow.id (withoutChunksOf q store).rows vector.id).map
          (fun row => (vector.path, row.text)) =
        (lookup ChunkRow.id store.rows vector.id).map fun row => (vector.path, row.text) := by
    intro vector hvector
    obtain ⟨hmem, hp⟩ := List.mem_filter.mp hvector
    rw [lookup_without h hne hmem (of_decide_eq_true hp).1]
  unfold retrieveChunks
  dsimp only
  rw [hvectors, List.filterMap_congr hrows]

end Frames

section Isolation

/-- One repository's chunks are kept apart from the other's: the namespaces differ, no id is
made for both, and in no store that jobs lead to does a job for the one change what is
stored of the other, or a retrieval for the one see it. -/
structure Isolated (p q : Repository) : Prop where
  namespaces : p.nameSpace ≠ q.nameSpace
  ids : ∀ chunk chunk', Produced p chunk → Produced q chunk' → chunk.id ≠ chunk'.id
  untouched : ∀ jobs (job : RagJob),
    chunksOf q (job.apply p (runJobs jobs)) = chunksOf q (runJobs jobs)
  unseen : ∀ jobs chosen,
    retrieveChunks chosen p.project p.repo (withoutChunksOf q (runJobs jobs)) =
      retrieveChunks chosen p.project p.repo (runJobs jobs)

theorem isolated_of_ne {p q : Repository} (hne : p.nameSpace ≠ q.nameSpace) : Isolated p q where
  namespaces := hne
  ids := by
    intro chunk chunk' hp hq hid
    have howned := hq.owned
    rw [← hid] at howned
    exact hne (nameSpace_eq_of_owned hp.owned howned)
  untouched := fun jobs job => chunksOf_apply (filed_runJobs jobs) hne job
  unseen := fun jobs chosen => retrieveChunks_without (filed_runJobs jobs) hne chosen

/-- Two repositories are kept apart exactly if their owners differ or their own names differ
as far as the namespace has room for them. -/
theorem isolated_iff (p q : Repository) :
    Isolated p q ↔ toLowerCase p.project ≠ toLowerCase q.project ∨
      (toLowerCase p.repo).toList.take (room p) ≠ (toLowerCase q.repo).toList.take (room q) := by
  rw [← not_and_or, ← nameSpace_eq_iff]
  exact ⟨fun h => h.namespaces, isolated_of_ne⟩

/-- The two repositories of one owner. -/
theorem sample_names :
    ("acme".toList.all ownerLetter = true ∧ "acme".toList.length ≤ 39) ∧
    ("payments-reconciliation-service-for-european-marketplaces-v2-staging".toList.all
        nameLetter = true ∧
      "payments-reconciliation-service-for-european-marketplaces-v2-staging".toList.length ≤
        100) ∧
    ("payments-reconciliation-service-for-european-marketplaces-v2-production".toList.all
        nameLetter = true ∧
      "payments-reconciliation-service-for-european-marketplaces-v2-production".toList.length ≤
        100) ∧
    ("payments-reconciliation-service-for-european-marketplaces-v2-staging".toList.flatMap
        lowerChar ≠
      "payments-reconciliation-service-for-european-marketplaces-v2-production".toList.flatMap
        lowerChar) := by
  repeat rw [String.toList_ofList]
  decide +kernel

def stagingRepository : Repository where
  project := "acme"
  repo := "payments-reconciliation-service-for-european-marketplaces-v2-staging"
  project_letters := List.all_eq_true.mp sample_names.1.1
  project_short := sample_names.1.2
  repo_letters := List.all_eq_true.mp sample_names.2.1.1
  repo_short := sample_names.2.1.2

def productionRepository : Repository where
  project := "acme"
  repo := "payments-reconciliation-service-for-european-marketplaces-v2-production"
  project_letters := List.all_eq_true.mp sample_names.1.1
  project_short := sample_names.1.2
  repo_letters := List.all_eq_true.mp sample_names.2.2.1.1
  repo_short := sample_names.2.2.1.2

theorem long_names_share_namespace :
    stagingRepository.nameSpace = productionRepository.nameSpace := by
  apply (nameSpace_eq_iff _ _).mpr
  refine ⟨rfl, ?_⟩
  unfold toLowerCase
  rw [String.toList_ofList, String.toList_ofList]
  decide +kernel

/-- The two names agree in the 59 letters that are left after the owner. -/
theorem long_names_not_isolated :
    toLowerCase stagingRepository.repo ≠ toLowerCase productionRepository.repo ∧
      ¬ Isolated stagingRepository productionRepository :=
  ⟨fun heq => sample_names.2.2.2 (String.ofList_injective heq),
    fun h => h.namespaces long_names_share_namespace⟩

end Isolation

end Gittensory.RagIsolation
