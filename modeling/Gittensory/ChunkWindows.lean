import Gittensory.RagChunks

/-!
When chunking a file comes to an end. A window ends after a line break in its second half,
and the next window starts the overlap before that: with an overlap of more than half the
budget this may be where the window itself started, and the loop stands still.
-/
namespace Gittensory.ChunkWindows

open CodeUnits JsValue TextPattern SlidingWindow RagChunks

section WindowEnd

variable {limits : ChunkLimits} {text : Units} {start : ℕ}

/-- The line break that ends the window from a start. -/
structure BreaksAt (limits : ChunkLimits) (text : Units) (start nl : ℕ) : Prop where
  breaks : text[nl]? = some newline
  within : nl ≤ start + limits.chunkChars
  last : ∀ later, nl < later → later ≤ start + limits.chunkChars → text[later]? ≠ some newline
  late : 2 * start + limits.chunkChars < 2 * nl

theorem windowEnd_of_rest (h : text.length ≤ start + limits.chunkChars) :
    windowEnd limits text start = text.length := by
  unfold windowEnd
  rw [min_eq_right h]
  exact if_neg (lt_irrefl _)

theorem windowEnd_of_break {nl : ℕ} (hmore : start + limits.chunkChars < text.length)
    (h : BreaksAt limits text start nl) : windowEnd limits text start = nl + 1 := by
  have hlast := lastIndexOf_eq_some.mpr ⟨h.breaks, h.within, h.last⟩
  have hlate := h.late
  unfold windowEnd
  rw [min_eq_left hmore.le]
  dsimp only
  rw [if_pos hmore, hlast]
  exact if_pos (by omega)

theorem windowEnd_of_unbroken (hmore : start + limits.chunkChars < text.length)
    (h : ∀ nl, ¬ BreaksAt limits text start nl) :
    windowEnd limits text start = start + limits.chunkChars := by
  unfold windowEnd
  rw [min_eq_left hmore.le]
  dsimp only
  rw [if_pos hmore]
  cases hlast : lastIndexOf text newline (start + limits.chunkChars) with
  | none => rfl
  | some nl =>
    obtain ⟨hbreak, hwithin, hlater⟩ := lastIndexOf_eq_some.mp hlast
    apply if_neg
    intro hlate
    exact h nl ⟨hbreak, hwithin, hlater, by omega⟩

/-- Everything a window's end can be. -/
theorem windowEnd_cases (limits : ChunkLimits) (text : Units) (start : ℕ) :
    (text.length ≤ start + limits.chunkChars ∧ windowEnd limits text start = text.length) ∨
      start + limits.chunkChars < text.length ∧
        ((∃ nl, BreaksAt limits text start nl ∧ windowEnd limits text start = nl + 1) ∨
          (∀ nl, ¬ BreaksAt limits text start nl) ∧
            windowEnd limits text start = start + limits.chunkChars) := by
  rcases Nat.lt_or_ge (start + limits.chunkChars) text.length with hmore | hrest
  · refine .inr ⟨hmore, ?_⟩
    by_cases h : ∃ nl, BreaksAt limits text start nl
    · obtain ⟨nl, hnl⟩ := h
      exact .inl ⟨nl, hnl, windowEnd_of_break hmore hnl⟩
    · have hnone : ∀ nl, ¬ BreaksAt limits text start nl := fun nl hnl => h ⟨nl, hnl⟩
      exact .inr ⟨hnone, windowEnd_of_unbroken hmore hnone⟩
  · exact .inl ⟨hrest, windowEnd_of_rest hrest⟩

theorem windowEnd_le_length (limits : ChunkLimits) (text : Units) (start : ℕ) :
    windowEnd limits text start ≤ text.length := by
  rcases windowEnd_cases limits text start with
    ⟨-, hend⟩ | ⟨hmore, ⟨nl, hnl, hend⟩ | ⟨-, hend⟩⟩
  · omega
  · have := hnl.within
    omega
  · omega

/-- A line break in the second half of a window is at or before the one that ends it. -/
theorem exists_breaksAt {nl : ℕ} (hbreak : text[nl]? = some newline)
    (hwithin : nl ≤ start + limits.chunkChars) (hlate : 2 * start + limits.chunkChars < 2 * nl) :
    ∃ last, BreaksAt limits text start last ∧ nl ≤ last := by
  obtain ⟨last, hlast, hle⟩ := exists_lastIndexOf hbreak hwithin
  obtain ⟨hat, hin, hlater⟩ := lastIndexOf_eq_some.mp hlast
  exact ⟨last, ⟨hat, hin, hlater, by omega⟩, hle⟩

/-- A later window does not end earlier. -/
theorem windowEnd_monotone (limits : ChunkLimits) (text : Units) :
    Monotone (windowEnd limits text) := by
  intro first second hle
  rcases windowEnd_cases limits text second with
    ⟨-, hsecond⟩ | ⟨hmore, hsecond⟩
  · rw [hsecond]
    exact windowEnd_le_length limits text first
  · rcases windowEnd_cases limits text first with
      ⟨hrest, -⟩ | ⟨-, ⟨nl, hnl, hfirst⟩ | ⟨hnone, hfirst⟩⟩
    · omega
    · rcases hsecond with ⟨nl', hnl', hsecond⟩ | ⟨hnone', hsecond⟩
      · have hnot : ¬ nl' < nl := by
          intro hlt
          have := hnl.within
          exact hnl'.last nl hlt (by omega) hnl.breaks
        omega
      · -- the later window passes the break by: it is not in its second half
        have hnot : ¬ first + limits.chunkChars = nl ∨ first ≠ second := by
          by_contra hboth
          push Not at hboth
          rw [← hboth.2] at hnone'
          exact hnone' nl hnl
        have := hnl.within
        omega
    · rcases hsecond with ⟨nl', hnl', hsecond⟩ | ⟨-, hsecond⟩
      · have hnot : ¬ nl' ≤ first + limits.chunkChars := by
          intro hin
          have := hnl'.late
          obtain ⟨last, hlast, -⟩ := exists_breaksAt hnl'.breaks hin (by omega)
          exact hnone last hlast
        omega
      · omega

end WindowEnd

section Traps

variable {limits : ChunkLimits} {text : Units}

/-- A line break that ends the window starting the overlap before its end. -/
structure Trap (limits : ChunkLimits) (text : Units) (nl : ℕ) : Prop where
  more : nl + 1 - limits.chunkOverlap + limits.chunkChars < text.length
  ends : BreaksAt limits text (nl + 1 - limits.chunkOverlap) nl

theorem Trap.not_ends {nl : ℕ} (h : Trap limits text nl) :
    ¬ Ends text.length limits.chunkOverlap (windowEnd limits text) := by
  have hend := windowEnd_of_break h.more h.ends
  have hwithin := h.ends.within
  have hmore := h.more
  have hlt := limits.overlap_lt
  have hstuck : windowEnd limits text (nl + 1 - limits.chunkOverlap) < text.length := by omega
  apply not_ends_of_stuck (windowEnd_monotone limits text) hstuck
  unfold nextStart
  omega

/-- A window that does not move the loop forward ends at a trap. -/
theorem exists_trap {start : ℕ} (hmore : windowEnd limits text start < text.length)
    (hback : nextStart limits.chunkOverlap (windowEnd limits text) start ≤ start) :
    ∃ nl, Trap limits text nl := by
  have hlt := limits.overlap_lt
  unfold nextStart at hback
  rcases windowEnd_cases limits text start with
    ⟨-, hend⟩ | ⟨hin, ⟨nl, hnl, hend⟩ | ⟨-, hend⟩⟩
  · omega
  · have hlate := hnl.late
    have hwithin := hnl.within
    have hstart : nl + 1 - limits.chunkOverlap ≤ start := by omega
    exact ⟨nl, by omega, hnl.breaks, by omega,
      fun later hlow hhigh => hnl.last later hlow (by omega), by omega⟩
  · omega

theorem advances_iff : Advances text.length limits.chunkOverlap (windowEnd limits text) ↔
    ∀ nl, ¬ Trap limits text nl := by
  constructor
  · intro h nl htrap
    exact htrap.not_ends (ends_of_advances h)
  · intro h start _ hmore
    by_contra hback
    obtain ⟨nl, htrap⟩ := exists_trap hmore (by omega)
    exact h nl htrap

/-- With an overlap of at most half the budget there is none. -/
theorem Trap.lt_overlap {nl : ℕ} (h : Trap limits text nl) :
    limits.chunkChars < 2 * limits.chunkOverlap := by
  have := h.ends.late
  omega

end Traps

section Segments

theorem addLine_flatten (state : Segmenting) (line : Units) :
    (addLine state line).segments.flatten ++ (addLine state line).current =
      state.segments.flatten ++ state.current ++ (line ++ [newline]) := by
  unfold addLine
  by_cases h : state.started ∧ isBoundary line ∧ state.current ≠ []
  · simp [h]
  · simp [h]

theorem addLine_ne_nil {state : Segmenting} (h : ∀ seg ∈ state.segments, seg ≠ [])
    (line : Units) : ∀ seg ∈ (addLine state line).segments, seg ≠ [] := by
  unfold addLine
  by_cases hboundary : state.started ∧ isBoundary line ∧ state.current ≠ []
  · intro seg hseg
    simp only [hboundary, ne_eq, not_false_eq_true, and_self, ↓reduceIte,
      List.mem_append, List.mem_singleton] at hseg
    rcases hseg with hseg | rfl
    · exact h seg hseg
    · exact hboundary.2.2
  · simpa [hboundary] using h

theorem addLines_flatten (lines : List Units) (state : Segmenting) :
    (lines.foldl addLine state).segments.flatten ++ (lines.foldl addLine state).current =
      state.segments.flatten ++ state.current ++ lines.flatMap fun line => line ++ [newline] := by
  induction lines generalizing state with
  | nil => simp
  | cons line lines ih =>
    rw [List.foldl_cons, ih, addLine_flatten, List.flatMap_cons, List.append_assoc]

theorem addLines_ne_nil (lines : List Units) {state : Segmenting}
    (h : ∀ seg ∈ state.segments, seg ≠ []) :
    ∀ seg ∈ (lines.foldl addLine state).segments, seg ≠ [] := by
  induction lines generalizing state with
  | nil => exact h
  | cons line lines ih => exact ih (addLine_ne_nil h line)

/-- The units make up the text, with a line break at its end. -/
theorem segmentsOf_flatten (text : Units) : (segmentsOf text).flatten = text ++ [newline] := by
  have h := addLines_flatten (splitLines text) {}
  rw [flatMap_splitLines, List.flatten_nil, List.append_nil, List.nil_append] at h
  unfold segmentsOf
  dsimp only
  by_cases hcurrent : ((splitLines text).foldl addLine {}).current = []
  · rw [if_neg (not_not.mpr hcurrent), ← h, hcurrent, List.append_nil]
  · rw [if_pos hcurrent, List.flatten_append, List.flatten_singleton, h]

theorem segmentsOf_ne_nil (text : Units) : ∀ seg ∈ segmentsOf text, seg ≠ [] := by
  have h : ∀ seg ∈ ((splitLines text).foldl addLine {}).segments, seg ≠ [] :=
    addLines_ne_nil (splitLines text) nofun
  intro seg hseg
  unfold segmentsOf at hseg
  dsimp only at hseg
  by_cases hcurrent : ((splitLines text).foldl addLine {}).current = []
  · rw [if_neg (not_not.mpr hcurrent)] at hseg
    exact h seg hseg
  · rw [if_pos hcurrent, List.mem_append, List.mem_singleton] at hseg
    rcases hseg with hseg | rfl
    · exact h seg hseg
    · exact hcurrent

theorem length_le_of_mem_segmentsOf {text seg : Units} (h : seg ∈ segmentsOf text) :
    seg.length ≤ text.length + 1 := by
  have := (List.sublist_flatten_of_mem h).length_le
  rwa [segmentsOf_flatten, List.length_append] at this

end Segments

section Termination

variable {ctx : ChunkContext} {fuel : ℕ}

theorem newlineChunks_of_fits {text : Units} (h : exceeds ctx.limits text.length = false) :
    newlineChunks ctx fuel text = some [ctx.chunk 0 .file text 0] := by
  unfold newlineChunks
  unfold exceeds at h
  cases hlimits : ctx.limits with
  | none => rfl
  | some limits =>
    rw [hlimits] at h
    exact if_pos (by simpa using h)

theorem newlineChunks_of_exceeds {limits : ChunkLimits} {text : Units}
    (hlimits : ctx.limits = some limits) (h : limits.chunkChars < text.length) :
    newlineChunks ctx fuel text =
      (windows text.length limits.chunkOverlap (windowEnd limits text) fuel 0).map
        (windowChunks ctx text) := by
  unfold newlineChunks
  rw [hlimits]
  exact if_neg (by omega)

theorem exceeds_some {limits : ChunkLimits} {length : ℕ} :
    exceeds (some limits) length = true ↔ limits.chunkChars < length := decide_eq_true_iff

theorem exists_limits {budget : Option ChunkLimits} {length : ℕ}
    (h : exceeds budget length = true) :
    ∃ limits, budget = some limits ∧ limits.chunkChars < length := by
  cases budget with
  | none => cases h
  | some limits => exact ⟨limits, rfl, exceeds_some.mp h⟩

theorem newlineChunks_ne_nil {text : Units} (htext : text ≠ []) {found : List RagChunk}
    (h : newlineChunks ctx fuel text = some found) : found ≠ [] := by
  cases hexceeds : exceeds ctx.limits text.length with
  | false =>
    rw [newlineChunks_of_fits hexceeds, Option.some.injEq] at h
    rw [← h]
    exact List.cons_ne_nil _ _
  | true =>
    obtain ⟨limits, hlimits, hlt⟩ := exists_limits hexceeds
    rw [newlineChunks_of_exceeds hlimits hlt] at h
    obtain ⟨cut, hcut, rfl⟩ := Option.map_eq_some_iff.mp h
    have hpos : 0 < text.length := List.length_pos_iff.mpr htext
    have hfirst := exists_window_of_reached hpos hcut Reached.first
    intro hnil
    have hempty : cut = [] := List.mapIdx_eq_nil_iff.mp hnil
    rw [hempty] at hfirst
    exact absurd hfirst List.not_mem_nil

/-- Something is packed or buffered. -/
def Occupied (state : Packing) : Prop := state.chunks ≠ [] ∨ state.buf ≠ []

theorem packSegment_isSome (state : Packing) (seg : Units)
    (h : (newlineChunks ctx fuel seg).isSome) : (packSegment ctx fuel state seg).isSome := by
  unfold packSegment
  by_cases hexceeds : exceeds ctx.limits seg.length = true
  · rw [if_pos hexceeds, Option.isSome_map]
    exact h
  · rw [if_neg hexceeds]
    rfl

theorem newlineChunks_isSome_of_packSegment {state next : Packing} {seg : Units}
    (h : packSegment ctx fuel state seg = some next) : (newlineChunks ctx fuel seg).isSome := by
  cases hexceeds : exceeds ctx.limits seg.length with
  | true =>
    unfold packSegment at h
    rw [if_pos hexceeds] at h
    obtain ⟨subs, hsubs, -⟩ := Option.map_eq_some_iff.mp h
    rw [hsubs]
    rfl
  | false =>
    rw [newlineChunks_of_fits hexceeds]
    rfl

theorem occupied_of_packSegment {state next : Packing} {seg : Units} (hseg : seg ≠ [])
    (h : packSegment ctx fuel state seg = some next) : Occupied next := by
  unfold packSegment at h
  by_cases hexceeds : exceeds ctx.limits seg.length = true
  · rw [if_pos hexceeds] at h
    obtain ⟨subs, hsubs, rfl⟩ := Option.map_eq_some_iff.mp h
    have hne := newlineChunks_ne_nil hseg hsubs
    apply Or.inl
    intro hnil
    have hmapped := (List.append_eq_nil_iff.mp hnil).2
    exact hne (List.mapIdx_eq_nil_iff.mp hmapped)
  · rw [if_neg hexceeds, Option.some.injEq] at h
    rw [← h]
    apply Or.inr
    intro hnil
    exact hseg (List.append_eq_nil_iff.mp hnil).2

theorem flush_chunks_ne_nil {state : Packing} (h : Occupied state) :
    (flush ctx state).chunks ≠ [] := by
  unfold flush
  by_cases hbuf : state.buf = []
  · rw [if_pos hbuf]
    exact h.resolve_right (not_not.mpr hbuf)
  · rw [if_neg hbuf]
    simp

theorem packSegments_isSome_iff (segments : List Units) (state : Packing) :
    (segments.foldlM (packSegment ctx fuel) state).isSome ↔
      ∀ seg ∈ segments, (newlineChunks ctx fuel seg).isSome := by
  induction segments generalizing state with
  | nil => simp [List.foldlM]
  | cons seg segments ih =>
    rw [List.foldlM_cons, List.forall_mem_cons]
    cases hnext : packSegment ctx fuel state seg with
    | none =>
      constructor
      · nofun
      · intro h
        have := packSegment_isSome state seg h.1
        rw [hnext] at this
        cases this
    | some next =>
      rw [Option.bind_eq_bind, Option.bind_some, ih next]
      exact (and_iff_right (newlineChunks_isSome_of_packSegment hnext)).symm

theorem occupied_of_packSegments {segments : List Units} (hne : segments ≠ [])
    (hsegs : ∀ seg ∈ segments, seg ≠ []) {state packed : Packing}
    (h : segments.foldlM (packSegment ctx fuel) state = some packed) : Occupied packed := by
  induction segments generalizing state with
  | nil => exact absurd rfl hne
  | cons seg segments ih =>
    rw [List.foldlM_cons, Option.bind_eq_bind, Option.bind_eq_some_iff] at h
    obtain ⟨next, hnext, hrest⟩ := h
    cases segments with
    | nil =>
      have hdone : next = packed := Option.some.inj hrest
      rw [← hdone]
      exact occupied_of_packSegment (hsegs seg List.mem_cons_self) hnext
    | cons seg' segments =>
      exact ih (List.cons_ne_nil _ _)
        (fun seg hseg => hsegs seg (List.mem_cons_of_mem _ hseg)) hrest

/-- The texts a file is cut into before any window is. -/
def cutTexts (path : String) (text : Units) : List Units :=
  if test jsTsPattern path.toList ∧ 1 < (segmentsOf text).length then segmentsOf text else [text]

theorem mem_cutTexts_length {path : String} {text unit : Units} (h : unit ∈ cutTexts path text) :
    unit.length ≤ text.length + 1 := by
  unfold cutTexts at h
  split_ifs at h with hlogical
  · exact length_le_of_mem_segmentsOf h
  · rw [List.mem_singleton.mp h]
    omega

/-- The packer over at least two units. -/
theorem chunkJsTs_of_units {text : Units} (h : 1 < (segmentsOf text).length) :
    chunkJsTs ctx fuel text =
      ((segmentsOf text).foldlM (packSegment ctx fuel) {}).map fun packed =>
        some (flush ctx packed).chunks := by
  unfold chunkJsTs
  dsimp only
  rw [if_neg (by omega)]
  cases hpacked : (segmentsOf text).foldlM (packSegment ctx fuel) {} with
  | none => rfl
  | some packed =>
    have hne : segmentsOf text ≠ [] := by
      intro hnil
      rw [hnil] at h
      cases h
    have hocc := occupied_of_packSegments hne (segmentsOf_ne_nil text) hpacked
    have hpos : 0 < (flush ctx packed).chunks.length :=
      List.length_pos_iff.mpr (flush_chunks_ne_nil hocc)
    rw [Option.map_some, Option.map_some, if_pos hpos]

/-- What is cut of a file that is neither skipped nor blank. -/
theorem chunkFile_of_cut {path nameSpace : String} {text : Units} {opts : ChunkOpts}
    {kind : RagKind} (hkind : classifyRepoFile path = some kind) (hblank : isBlank text = false) :
    chunkFile fuel path text nameSpace opts =
      let ctx : ChunkContext := ⟨path, kind, nameSpace, chunkLimits opts⟩
      if test jsTsPattern path.toList ∧ 1 < (segmentsOf text).length then
        ((segmentsOf text).foldlM (packSegment ctx fuel) {}).map fun packed =>
          (flush ctx packed).chunks
      else newlineChunks ctx fuel text := by
  unfold chunkFile
  rw [hkind, hblank]
  dsimp only
  rw [if_neg Bool.false_ne_true]
  by_cases hjs : test jsTsPattern path.toList = true
  · rw [if_pos hjs]
    by_cases hunits : 1 < (segmentsOf text).length
    · rw [if_pos ⟨hjs, hunits⟩, chunkJsTs_of_units hunits]
      cases (segmentsOf text).foldlM (packSegment ⟨path, kind, nameSpace, chunkLimits opts⟩ fuel) {}
      <;> rfl
    · have hnone : chunkJsTs ⟨path, kind, nameSpace, chunkLimits opts⟩ fuel text = some none := by
        unfold chunkJsTs
        exact if_pos (by omega)
      rw [if_neg (fun h => hunits h.2), hnone]
  · rw [if_neg hjs, if_neg (fun h => hjs h.1)]

theorem chunkFile_isSome_iff {path nameSpace : String} {text : Units} {opts : ChunkOpts}
    {kind : RagKind} (hkind : classifyRepoFile path = some kind) (hblank : isBlank text = false) :
    (chunkFile fuel path text nameSpace opts).isSome ↔
      ∀ unit ∈ cutTexts path text,
        (newlineChunks ⟨path, kind, nameSpace, chunkLimits opts⟩ fuel unit).isSome := by
  rw [chunkFile_of_cut hkind hblank]
  unfold cutTexts
  dsimp only
  split_ifs with h
  · rw [Option.isSome_map]
    exact packSegments_isSome_iff _ _
  · exact (List.forall_mem_singleton (p := fun unit => (newlineChunks _ fuel unit).isSome)).symm

/-- The texts the window loop runs over: those that exceed the budget. -/
def loopedTexts (path : String) (text : Units) (opts : ChunkOpts) : List Units :=
  if classifyRepoFile path = none ∨ isBlank text then []
  else (cutTexts path text).filter fun unit => exceeds (chunkLimits opts) unit.length

/-- The loop of the windows moves forward in every round, on every text it runs over, and
the file's chunks come out. -/
def Terminates (path : String) (text : Units) (nameSpace : String) (opts : ChunkOpts) : Prop :=
  (∃ fuel chunks, chunkFile fuel path text nameSpace opts = some chunks) ∧
    ∀ limits, chunkLimits opts = some limits → ∀ looped ∈ loopedTexts path text opts,
      Advances looped.length limits.chunkOverlap (windowEnd limits looped)

/-- Two rounds more than the file has characters are enough. -/
theorem chunkFile_isSome_of_advances {path nameSpace : String} {text : Units} {opts : ChunkOpts}
    (h : ∀ limits, chunkLimits opts = some limits → ∀ looped ∈ loopedTexts path text opts,
      Advances looped.length limits.chunkOverlap (windowEnd limits looped)) :
    (chunkFile (text.length + 2) path text nameSpace opts).isSome := by
  cases hkind : classifyRepoFile path with
  | none =>
    rw [chunkFile, hkind]
    rfl
  | some kind =>
    cases hblank : isBlank text with
    | true =>
      rw [chunkFile, hkind, hblank]
      rfl
    | false =>
      apply (chunkFile_isSome_iff hkind hblank).mpr
      intro unit hunit
      cases hexceeds : exceeds (chunkLimits opts) unit.length with
      | false =>
        rw [newlineChunks_of_fits hexceeds]
        rfl
      | true =>
        obtain ⟨limits, hlimits, hlt⟩ := exists_limits hexceeds
        have hlooped : unit ∈ loopedTexts path text opts := by
          unfold loopedTexts
          rw [hkind, hblank, if_neg (by simp)]
          exact List.mem_filter.mpr ⟨hunit, hexceeds⟩
        have hlength := mem_cutTexts_length hunit
        obtain ⟨found, hfound⟩ := windows_of_advances (h limits hlimits unit hlooped)
          (text.length + 2) 0 Reached.first (by omega)
        rw [newlineChunks_of_exceeds hlimits hlt, hfound]
        rfl

theorem chunks_of_advances {path nameSpace : String} {text : Units} {opts : ChunkOpts}
    (h : ∀ limits, chunkLimits opts = some limits → ∀ looped ∈ loopedTexts path text opts,
      Advances looped.length limits.chunkOverlap (windowEnd limits looped)) :
    ∃ fuel chunks, chunkFile fuel path text nameSpace opts = some chunks :=
  ⟨text.length + 2, Option.isSome_iff_exists.mp (chunkFile_isSome_of_advances h)⟩

theorem advances_of_overlap {opts : ChunkOpts}
    (h : ∀ limits, chunkLimits opts = some limits → 2 * limits.chunkOverlap ≤ limits.chunkChars)
    (path : String) (text : Units) : ∀ limits, chunkLimits opts = some limits →
      ∀ looped ∈ loopedTexts path text opts,
        Advances looped.length limits.chunkOverlap (windowEnd limits looped) := by
  intro limits hlimits looped _
  apply advances_iff.mpr
  intro nl htrap
  have := htrap.lt_overlap
  have := h limits hlimits
  omega

/-- With an overlap of at most half the budget, as by default, every file is chunked. -/
theorem terminates_of_overlap {opts : ChunkOpts}
    (h : ∀ limits, chunkLimits opts = some limits → 2 * limits.chunkOverlap ≤ limits.chunkChars)
    (path : String) (text : Units) (nameSpace : String) : Terminates path text nameSpace opts :=
  ⟨chunks_of_advances (advances_of_overlap h path text), advances_of_overlap h path text⟩

theorem overlap_of_default (limits : ChunkLimits) (hlimits : chunkLimits {} = some limits) :
    2 * limits.chunkOverlap ≤ limits.chunkChars := by
  have hdefault : chunkLimits {} = some ⟨16000, 1500, by decide, by decide⟩ := by decide +kernel
  rw [hdefault, Option.some.injEq] at hlimits
  rw [← hlimits]
  decide

theorem chunkFile_default_isSome (path : String) (text : Units) (nameSpace : String) :
    (chunkFile (text.length + 2) path text nameSpace {}).isSome :=
  chunkFile_isSome_of_advances (advances_of_overlap overlap_of_default path text)

example (path : String) (text : Units) : Terminates path text "" {} :=
  terminates_of_overlap overlap_of_default path text ""

/-- The chunking ends, moving forward in every round, exactly if no text the loop runs over
holds a trap. -/
theorem terminates_iff_no_trap (path : String) (text : Units) (nameSpace : String)
    (opts : ChunkOpts) :
    Terminates path text nameSpace opts ↔
      ∀ limits, chunkLimits opts = some limits → ∀ looped ∈ loopedTexts path text opts, ∀ nl,
        ¬ Trap limits looped nl := by
  constructor
  · intro h limits hlimits looped hlooped
    exact advances_iff.mp (h.2 limits hlimits looped hlooped)
  · intro h
    have hadvances : ∀ limits, chunkLimits opts = some limits →
        ∀ looped ∈ loopedTexts path text opts,
          Advances looped.length limits.chunkOverlap (windowEnd limits looped) :=
      fun limits hlimits looped hlooped => advances_iff.mpr (h limits hlimits looped hlooped)
    exact ⟨chunks_of_advances hadvances, hadvances⟩

/-- An overlap of eight in a budget of ten. -/
def wideOverlap : ChunkOpts where
  chunkChars := some ((10 : ℚ) : WithTop ℚ)
  chunkOverlap := some ((8 : ℚ) : WithTop ℚ)

/-- Nine letters, a line break and ten more. -/
def brokenLine : Units := List.replicate 9 97 ++ newline :: List.replicate 10 97

/-- The window from position 2 ends after the line break, eight characters before which is
position 2 again. -/
theorem chunking_stands_still : ¬ Terminates "README.md" brokenLine "" wideOverlap := by
  intro h
  let limits : ChunkLimits := ⟨10, 8, by decide, by decide⟩
  have hlimits : chunkLimits wideOverlap = some limits := by decide +kernel
  have hlooped : brokenLine ∈ loopedTexts "README.md" brokenLine wideOverlap := by decide +kernel
  have hfirst : Reached brokenLine.length 8 (windowEnd limits brokenLine) 2 :=
    Reached.next Reached.first (by decide +kernel)
  have hforward := h.2 limits hlimits brokenLine hlooped 2 hfirst (by decide +kernel)
  have hstill : nextStart 8 (windowEnd limits brokenLine) 2 = 2 := by decide +kernel
  exact absurd hforward (by rw [hstill]; exact lt_irrefl 2)

end Termination

end Gittensory.ChunkWindows
