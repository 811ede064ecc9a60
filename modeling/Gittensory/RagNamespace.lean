import Gittensory.ChunkCoverage
import Gittensory.KeyedTable

/-!
The chunks of several repositories in one index (`review/rag.ts`). Vectors and rows are
keyed by chunk id alone; an id starts with the repository's namespace, the lowercased
`project:repo` cut to 64 characters.
-/
namespace Gittensory.RagNamespace

open CodeUnits JsValue TextPattern KeyedTable RagChunks ChunkCoverage

section Names

def ownerLetter (c : Char) : Bool := c.isAlphanum || c == '-' || c == '_'

def nameLetter (c : Char) : Bool := ownerLetter c || c == '.'

/-- A repository under the owner's and its own name as GitHub allows them; the project is
the owner. -/
structure Repository where
  project : String
  repo : String
  project_letters : ∀ c ∈ project.toList, ownerLetter c = true
  project_short : project.toList.length ≤ 39
  repo_letters : ∀ c ∈ repo.toList, nameLetter c = true
  repo_short : repo.toList.length ≤ 100

/-- For names in ASCII, where a letter is one UTF-16 unit. -/
def ragNamespace (project repo : String) : String :=
  String.ofList ((toLowerCase (project ++ ":" ++ repo)).toList.take 64)

def Repository.nameSpace (repository : Repository) : String :=
  ragNamespace repository.project repository.repo

/-- What comes before the first separator is told from what comes after. -/
theorem append_separator_inj {α : Type*} {sep : α} {first second rest rest' : List α}
    (hfirst : sep ∉ first) (hsecond : sep ∉ second) :
    first ++ sep :: rest = second ++ sep :: rest' ↔ first = second ∧ rest = rest' := by
  constructor
  · intro h
    induction first generalizing second with
    | nil =>
      cases second with
      | nil => exact ⟨rfl, (List.cons.inj h).2⟩
      | cons c second => exact absurd ((List.cons.inj h).1 ▸ List.mem_cons_self) hsecond
    | cons c first ih =>
      cases second with
      | nil => exact absurd ((List.cons.inj h).1 ▸ List.mem_cons_self) hfirst
      | cons c' second =>
        obtain ⟨hhead, htail⟩ := List.cons.inj h
        obtain ⟨hinit, hrest⟩ := ih (fun hmem => hfirst (List.mem_cons_of_mem _ hmem))
          (fun hmem => hsecond (List.mem_cons_of_mem _ hmem)) htail
        exact ⟨by rw [hhead, hinit], hrest⟩
  · rintro ⟨rfl, rfl⟩
    rfl

theorem lowerOf_ne {c : Char} (hcolon : c ≠ ':') (hbar : c ≠ '|') :
    Pattern.lowerOf c ≠ ':' ∧ Pattern.lowerOf c ≠ '|' := by
  unfold Pattern.lowerOf
  split_ifs with h
  · have hcapital : ∀ n ≤ 90, 65 ≤ n → Char.ofNat (n + 32) ≠ ':' ∧ Char.ofNat (n + 32) ≠ '|' := by
      decide
    exact hcapital c.toNat h.2 h.1
  · exact ⟨hcolon, hbar⟩

theorem lowerChar_letter {c : Char} (h : nameLetter c = true) :
    ∃ lower, lowerChar c = [lower] ∧ lower ≠ ':' ∧ lower ≠ '|' := by
  have hne : ∀ other, nameLetter other = false → c ≠ other := by
    rintro other hother rfl
    rw [h] at hother
    cases hother
  unfold lowerChar
  rw [if_neg (hne _ (by decide)), if_neg (hne _ (by decide))]
  exact ⟨_, rfl, lowerOf_ne (hne _ (by decide)) (hne _ (by decide))⟩

theorem lower_letters {name : List Char} (h : ∀ c ∈ name, nameLetter c = true) :
    (name.flatMap lowerChar).length = name.length ∧ ':' ∉ name.flatMap lowerChar ∧
      '|' ∉ name.flatMap lowerChar := by
  induction name with
  | nil => simp
  | cons c name ih =>
    obtain ⟨lower, hlower, hcolon, hbar⟩ := lowerChar_letter (h c List.mem_cons_self)
    obtain ⟨hlength, hnocolon, hnobar⟩ := ih fun c hc => h c (List.mem_cons_of_mem _ hc)
    rw [List.flatMap_cons, hlower, List.singleton_append, List.length_cons, List.length_cons,
      hlength]
    refine ⟨rfl, ?_, ?_⟩
    · exact fun hmem => (List.mem_cons.mp hmem).elim (fun heq => hcolon heq.symm) hnocolon
    · exact fun hmem => (List.mem_cons.mp hmem).elim (fun heq => hbar heq.symm) hnobar

theorem Repository.lower_project (repository : Repository) :
    (toLowerCase repository.project).toList.length = repository.project.toList.length ∧
      ':' ∉ (toLowerCase repository.project).toList ∧
      '|' ∉ (toLowerCase repository.project).toList := by
  unfold toLowerCase
  rw [String.toList_ofList]
  apply lower_letters
  intro c hc
  unfold nameLetter
  rw [repository.project_letters c hc, Bool.true_or]

theorem Repository.lower_repo (repository : Repository) :
    '|' ∉ (toLowerCase repository.repo).toList := by
  unfold toLowerCase
  rw [String.toList_ofList]
  exact (lower_letters repository.repo_letters).2.2

/-- How much of a repository's own name the namespace has room for. -/
def room (repository : Repository) : ℕ := 63 - repository.project.toList.length

theorem Repository.nameSpace_toList (repository : Repository) :
    repository.nameSpace.toList = (toLowerCase repository.project).toList ++
      ':' :: (toLowerCase repository.repo).toList.take (room repository) := by
  have hshort := repository.project_short
  have hlength := repository.lower_project.1
  have hwhole : (toLowerCase (repository.project ++ ":" ++ repository.repo)).toList =
      (toLowerCase repository.project).toList ++ ':' :: (toLowerCase repository.repo).toList := by
    unfold toLowerCase
    simp only [String.toList_ofList, String.toList_append, List.flatMap_append]
    rw [List.append_assoc]
    rfl
  unfold Repository.nameSpace ragNamespace room
  rw [String.toList_ofList, hwhole, List.take_append, hlength,
    List.take_of_length_le (by omega)]
  obtain ⟨left, hleft⟩ : ∃ left, 64 - repository.project.toList.length = left + 1 :=
    ⟨63 - repository.project.toList.length, by omega⟩
  have hroom : 63 - repository.project.toList.length = left := by omega
  rw [hleft, hroom, List.take_succ_cons]

theorem Repository.bar_not_mem (repository : Repository) : '|' ∉ repository.nameSpace.toList := by
  rw [repository.nameSpace_toList]
  intro h
  rcases List.mem_append.mp h with hproject | hrest
  · exact repository.lower_project.2.2 hproject
  · rcases List.mem_cons.mp hrest with hsep | hrepo
    · exact absurd hsep (by decide)
    · exact repository.lower_repo (List.mem_of_mem_take hrepo)

/-- Two repositories share a namespace if their owners agree and their names agree as far as
it has room, in lower case. -/
theorem nameSpace_eq_iff (p q : Repository) :
    p.nameSpace = q.nameSpace ↔ toLowerCase p.project = toLowerCase q.project ∧
      (toLowerCase p.repo).toList.take (room p) = (toLowerCase q.repo).toList.take (room q) := by
  rw [← String.toList_inj, p.nameSpace_toList, q.nameSpace_toList,
    append_separator_inj p.lower_project.2.1 q.lower_project.2.1, String.toList_inj]

end Names

section Store

/-- A row of `repo_chunks`; `id` is its key. -/
structure ChunkRow where
  id : String
  project : String
  repo : String
  path : String
  chunkIndex : ℕ
  kind : RagKind
  text : Units
  deriving DecidableEq, Repr

/-- A vector of the index; `id` is its key. Its values are left out, and with them the
order in which a query ranks the vectors. -/
structure VectorRow where
  id : String
  nameSpace : String
  path : String
  chunkIndex : ℕ
  kind : RagKind
  deriving DecidableEq, Repr

structure RagStore where
  vectors : List VectorRow := []
  rows : List ChunkRow := []

def vectorOf (nameSpace : String) (chunk : RagChunk) : VectorRow where
  id := chunk.id
  nameSpace := nameSpace
  path := chunk.path
  chunkIndex := chunk.chunkIndex
  kind := chunk.kind

def rowOf (project repo : String) (chunk : RagChunk) : ChunkRow where
  id := chunk.id
  project := project
  repo := repo
  path := chunk.path
  chunkIndex := chunk.chunkIndex
  kind := chunk.kind
  text := chunk.text

/-- `ON CONFLICT(id) DO UPDATE`: project, repo and path stay. -/
def updateRow (chunk : RagChunk) (stored : ChunkRow) : ChunkRow :=
  { stored with text := chunk.text, kind := chunk.kind, chunkIndex := chunk.chunkIndex }

def upsertVectors (nameSpace : String) (chunks : List RagChunk) (vectors : List VectorRow) :
    List VectorRow :=
  chunks.foldl (fun vectors chunk => upsert (·.id) vectors (vectorOf nameSpace chunk)) vectors

def upsertRows (project repo : String) (chunks : List RagChunk) (rows : List ChunkRow) :
    List ChunkRow :=
  chunks.foldl
    (fun rows chunk => upsertWith (·.id) (updateRow chunk) rows (rowOf project repo chunk)) rows

/-- How far an upsert gets: the embedding or the index may fail, or the batch of rows. -/
inductive UpsertOutcome where
  | failed
  | vectorsOnly
  | stored
  deriving DecidableEq, Repr

def upsertChunks (outcome : UpsertOutcome) (project repo : String) (chunks : List RagChunk)
    (store : RagStore) : RagStore :=
  let vectors := upsertVectors (ragNamespace project repo) chunks store.vectors
  match outcome with
  | .failed => store
  | .vectorsOnly => { store with vectors := vectors }
  | .stored => { vectors := vectors, rows := upsertRows project repo chunks store.rows }

/-- The deletion goes through the ids in batches and may fail in between, so that the first
`vectorsGone` of them are deleted in the index and the first `rowsGone` in the table. -/
def deleteChunksForPaths (vectorsGone rowsGone : ℕ) (project repo : String) (paths : List String)
    (store : RagStore) : RagStore :=
  let ids := (store.rows.filter fun row =>
    row.project = project ∧ row.repo = repo ∧ row.path ∈ paths).map (·.id)
  { vectors := store.vectors.filter fun vector => vector.id ∉ ids.take vectorsGone
    rows := store.rows.filter fun row => row.id ∉ ids.take rowsGone }

/-- The paths and texts found for a repository, where `chosen` stands for the query's rank,
score and excluded paths. -/
def retrieveChunks (chosen : VectorRow → Bool) (project repo : String) (store : RagStore) :
    List (String × Units) :=
  let found := (store.vectors.filter fun vector =>
      vector.nameSpace = ragNamespace project repo ∧ chosen vector).filterMap fun vector =>
    (lookup ChunkRow.id store.rows vector.id).map fun row => (vector.path, row.text)
  found.filter fun chunk => chunk.2 ≠ []

/-- What a job does to the store for its repository: it indexes a part of the chunks of one
file, or deletes the chunks of some paths. -/
inductive RagJob where
  | index (fuel : ℕ) (path : String) (text : Units) (opts : ChunkOpts) (skipped taken : ℕ)
      (outcome : UpsertOutcome)
  | delete (vectorsGone rowsGone : ℕ) (paths : List String)

def RagJob.apply (repository : Repository) (job : RagJob) (store : RagStore) : RagStore :=
  match job with
  | .index fuel path text opts skipped taken outcome =>
      match chunkFile fuel path text repository.nameSpace opts with
      | none => store
      | some chunks =>
          upsertChunks outcome repository.project repository.repo
            ((chunks.drop skipped).take taken) store
  | .delete vectorsGone rowsGone paths =>
      deleteChunksForPaths vectorsGone rowsGone repository.project repository.repo paths store

/-- The store after a run of jobs, of any repositories. -/
def runJobs (jobs : List (Repository × RagJob)) : RagStore :=
  jobs.foldl (fun store job => job.2.apply job.1 store) {}

def vectorIsOf (repository : Repository) (vector : VectorRow) : Bool :=
  vector.nameSpace = repository.nameSpace

def rowIsOf (repository : Repository) (row : ChunkRow) : Bool :=
  row.project = repository.project ∧ row.repo = repository.repo

/-- What the store holds of a repository. -/
def chunksOf (repository : Repository) (store : RagStore) : List VectorRow × List ChunkRow :=
  (store.vectors.filter (vectorIsOf repository), store.rows.filter (rowIsOf repository))

/-- The store as it would be without a repository's chunks. -/
def withoutChunksOf (repository : Repository) (store : RagStore) : RagStore where
  vectors := store.vectors.filter fun vector => !vectorIsOf repository vector
  rows := store.rows.filter fun row => !rowIsOf repository row

end Store

end Gittensory.RagNamespace
