import Gittensory.ChunkWindows
import Mathlib.Data.List.Nodup

/-!
What the chunks of a file hold. They are cut from the file's stretch of characters, in
order and without a gap between them; only a window ending after a line break right behind
the budget is longer than the budget.
-/
namespace Gittensory.ChunkCoverage

open CodeUnits JsValue TextPattern SlidingWindow RagChunks ChunkWindows

variable {ctx : ChunkContext} {full : Units}

section Cuts

/-- A text stands in the file at a start, and has the budget's length at most unless a line
break follows the budget there. -/
structure Sits (limits : Option ChunkLimits) (full : Units) (start : ℕ) (text : Units) : Prop where
  stands : text <+: full.drop start
  fits : ∀ allowed, limits = some allowed → full[start + allowed.chunkChars]? ≠ some newline →
    text.length ≤ allowed.chunkChars

/-- The chunks cover a stretch of the file in the order of their starts, numbered on from a
first index. -/
structure Cut (ctx : ChunkContext) (full : Units) (first low high : ℕ) (chunks : List RagChunk) :
    Prop where
  sits : ∀ chunk ∈ chunks, Sits ctx.limits full chunk.start chunk.text
  covers : ∀ i, low ≤ i → i < high →
    ∃ chunk ∈ chunks, chunk.start ≤ i ∧ i < chunk.start + chunk.text.length
  inside : ∀ chunk ∈ chunks, low ≤ chunk.start ∧ chunk.start < high
  ordered : chunks.Pairwise fun earlier later => earlier.start < later.start
  numbered : ∀ k chunk, chunks[k]? = some chunk → chunk.chunkIndex = first + k
  named : ∀ chunk ∈ chunks, chunk.id = chunkId ctx.nameSpace ctx.path chunk.chunkIndex

theorem sits_of_fits {start : ℕ} {text : Units} (hstands : text <+: full.drop start)
    (h : exceeds ctx.limits text.length = false) : Sits ctx.limits full start text := by
  refine ⟨hstands, fun allowed hlimits _ => ?_⟩
  by_contra hlong
  rw [hlimits, exceeds_some.mpr (by omega)] at h
  cases h

/-- What stands in a part of the file stands in the file. -/
theorem Sits.shift {limits : Option ChunkLimits} {part text : Units} {start position : ℕ}
    (h : Sits limits part start text) (hpart : part <+: full.drop position) :
    Sits limits full (position + start) text := by
  obtain ⟨rest, hrest⟩ := hpart
  refine ⟨?_, fun allowed hlimits hnext => ?_⟩
  · rw [← List.drop_drop, ← hrest, List.drop_append]
    exact h.stands.trans (List.prefix_append _ _)
  · apply h.fits allowed hlimits
    intro hbreak
    apply hnext
    have hlt := (List.getElem?_eq_some_iff.mp hbreak).1
    rw [Nat.add_assoc, ← List.getElem?_drop, ← hrest, List.getElem?_append_left hlt, hbreak]

theorem Cut.nil (first low : ℕ) : Cut ctx full first low low [] where
  sits := nofun
  covers := fun i hlow hhigh => by omega
  inside := nofun
  ordered := List.Pairwise.nil
  numbered := nofun
  named := nofun

theorem Cut.append {first low mid high : ℕ} {chunks more : List RagChunk}
    (h : Cut ctx full first low mid chunks) (hlow : low ≤ mid) (hmid : mid ≤ high)
    (hmore : Cut ctx full (first + chunks.length) mid high more) :
    Cut ctx full first low high (chunks ++ more) where
  sits := by
    intro chunk hchunk
    rcases List.mem_append.mp hchunk with hin | hin
    · exact h.sits chunk hin
    · exact hmore.sits chunk hin
  covers := by
    intro i hi hhigh
    rcases Nat.lt_or_ge i mid with hlt | hge
    · obtain ⟨chunk, hin, hspan⟩ := h.covers i hi hlt
      exact ⟨chunk, List.mem_append_left _ hin, hspan⟩
    · obtain ⟨chunk, hin, hspan⟩ := hmore.covers i hge hhigh
      exact ⟨chunk, List.mem_append_right _ hin, hspan⟩
  inside := by
    intro chunk hchunk
    rcases List.mem_append.mp hchunk with hin | hin
    · have := h.inside chunk hin
      omega
    · have := hmore.inside chunk hin
      omega
  ordered := by
    refine List.pairwise_append.mpr ⟨h.ordered, hmore.ordered, fun earlier hin later hin' => ?_⟩
    have := (h.inside earlier hin).2
    have := (hmore.inside later hin').1
    omega
  numbered := by
    intro k chunk hk
    rcases Nat.lt_or_ge k chunks.length with hlt | hge
    · rw [List.getElem?_append_left hlt] at hk
      exact h.numbered k chunk hk
    · rw [List.getElem?_append_right hge] at hk
      have := hmore.numbered _ chunk hk
      omega
  named := by
    intro chunk hchunk
    rcases List.mem_append.mp hchunk with hin | hin
    · exact h.named chunk hin
    · exact hmore.named chunk hin

theorem Cut.single (first : ℕ) (boundary : RagBoundary) {low : ℕ} {text : Units}
    (hne : text ≠ []) (h : Sits ctx.limits full low text) :
    Cut ctx full first low (low + text.length) [ctx.chunk first boundary text low] where
  sits := by
    intro chunk hchunk
    rw [List.mem_singleton.mp hchunk]
    exact h
  covers := fun i hlow hhigh => ⟨_, List.mem_singleton_self _, hlow, hhigh⟩
  inside := by
    intro chunk hchunk
    rw [List.mem_singleton.mp hchunk]
    have := List.length_pos_iff.mpr hne
    change low ≤ low ∧ low < low + text.length
    omega
  ordered := List.pairwise_singleton _ _
  numbered := by
    intro k chunk hk
    obtain ⟨hzero, hchunk⟩ := List.getElem?_eq_some_iff.mp hk
    have hfirst : k = 0 := Nat.lt_one_iff.mp hzero
    subst hfirst
    rw [← hchunk]
    rfl
  named := by
    intro chunk hchunk
    rw [List.mem_singleton.mp hchunk]
    rfl

/-- The chunks of a part of the file, numbered on and moved to where the part stands. -/
theorem Cut.shift (first : ℕ) {part : Units} {position : ℕ} {subs : List RagChunk}
    (h : Cut ctx part 0 0 part.length subs) (hpart : part <+: full.drop position) :
    Cut ctx full first position (position + part.length)
      (subs.mapIdx fun k sub =>
        { sub with
          id := chunkId ctx.nameSpace ctx.path (first + k)
          chunkIndex := first + k
          boundary := .function
          start := position + sub.start }) where
  sits := by
    intro chunk hchunk
    obtain ⟨k, hk, rfl⟩ := List.mem_mapIdx.mp hchunk
    exact (h.sits _ (List.getElem_mem hk)).shift hpart
  covers := by
    intro i hlow hhigh
    obtain ⟨chunk, hin, hspan⟩ := h.covers (i - position) (Nat.zero_le _) (by omega)
    obtain ⟨k, hk, rfl⟩ := List.getElem_of_mem hin
    refine ⟨_, List.mem_mapIdx.mpr ⟨k, hk, rfl⟩, ?_⟩
    dsimp only
    omega
  inside := by
    intro chunk hchunk
    obtain ⟨k, hk, rfl⟩ := List.mem_mapIdx.mp hchunk
    have := h.inside _ (List.getElem_mem hk)
    dsimp only
    omega
  ordered := by
    apply List.pairwise_iff_getElem.mpr
    intro j k hj hk hjk
    rw [List.getElem_mapIdx, List.getElem_mapIdx]
    rw [List.length_mapIdx] at hj hk
    have := List.pairwise_iff_getElem.mp h.ordered j k hj hk hjk
    dsimp only
    omega
  numbered := by
    intro k chunk hk
    rw [List.getElem?_mapIdx] at hk
    obtain ⟨sub, -, rfl⟩ := Option.map_eq_some_iff.mp hk
    rfl
  named := by
    intro chunk hchunk
    obtain ⟨k, hk, rfl⟩ := List.mem_mapIdx.mp hchunk
    rfl

/-- A longer file is covered over the same stretch. -/
theorem Cut.widen {part : Units} {first low high : ℕ} {chunks : List RagChunk}
    (h : Cut ctx part first low high chunks) (hpart : part <+: full) :
    Cut ctx full first low high chunks :=
  { h with
    sits := fun chunk hchunk => by
      have hshift : Sits ctx.limits full (0 + chunk.start) chunk.text :=
        (h.sits chunk hchunk).shift hpart
      rwa [Nat.zero_add] at hshift }

end Cuts

section Windows

variable {limits : ChunkLimits} {text : Units} {fuel : ℕ}

/-- A window is one character longer than the budget only after a line break. -/
theorem windowEnd_fits {start : ℕ} (hnext : text[start + limits.chunkChars]? ≠ some newline) :
    windowEnd limits text start ≤ start + limits.chunkChars := by
  rcases windowEnd_cases limits text start with
    ⟨hrest, hend⟩ | ⟨-, ⟨nl, hnl, hend⟩ | ⟨-, hend⟩⟩
  · omega
  · have hne : nl ≠ start + limits.chunkChars := by
      intro heq
      rw [← heq] at hnext
      exact hnext hnl.breaks
    have := hnl.within
    omega
  · omega

theorem sliceText_prefix_drop (text : Units) (start stop : ℕ) :
    sliceText text start stop <+: text.drop start := by
  unfold sliceText
  rw [List.drop_take]
  exact List.take_prefix _ _

theorem sliceText_length {start stop : ℕ} (h : stop ≤ text.length) :
    (sliceText text start stop).length = stop - start := by
  unfold sliceText
  rw [List.length_drop, List.length_take, min_eq_left h]

theorem windowChunks_cut (hlimits : ctx.limits = some limits) {found : List (ℕ × ℕ)}
    (h : windows text.length limits.chunkOverlap (windowEnd limits text) fuel 0 = some found) :
    Cut ctx text 0 0 text.length (windowChunks ctx text found) := by
  have hends : Ends text.length limits.chunkOverlap (windowEnd limits text) := ⟨fuel, found, h⟩
  have hadvances := advances_of_ends (windowEnd_monotone limits text) hends
  have hwindow : ∀ window ∈ found, window.1 < text.length ∧
      window.2 = windowEnd limits text window.1 ∧ window.2 ≤ text.length := by
    intro window hin
    obtain ⟨-, hlt, hend⟩ := window_reached h Reached.first hin
    exact ⟨hlt, hend, by rw [hend]; exact windowEnd_le_length limits text _⟩
  have hchunk : ∀ chunk ∈ windowChunks ctx text found, ∃ k, ∃ window ∈ found,
      chunk = ctx.chunk k .file (sliceText text window.1 window.2) window.1 := by
    intro chunk hin
    obtain ⟨k, hk, rfl⟩ := List.mem_mapIdx.mp hin
    exact ⟨k, _, List.getElem_mem hk, rfl⟩
  refine
    { sits := ?_, covers := ?_, inside := ?_, ordered := ?_, numbered := ?_, named := ?_ }
  · intro chunk hin
    obtain ⟨k, window, hmem, rfl⟩ := hchunk chunk hin
    obtain ⟨-, hend, hle⟩ := hwindow window hmem
    refine ⟨sliceText_prefix_drop text _ _, fun allowed hallowed hnext => ?_⟩
    rw [hlimits, Option.some.injEq] at hallowed
    rw [← hallowed] at hnext ⊢
    change (sliceText text window.1 window.2).length ≤ limits.chunkChars
    rw [sliceText_length hle, hend]
    have := windowEnd_fits hnext
    change windowEnd limits text window.1 ≤ window.1 + limits.chunkChars at this
    omega
  · intro i _ hi
    obtain ⟨window, hmem, hlow, hhigh⟩ := exists_window h (Nat.zero_le i) hi
    obtain ⟨k, hk, rfl⟩ := List.getElem_of_mem hmem
    refine ⟨_, List.mem_mapIdx.mpr ⟨k, hk, rfl⟩, hlow, ?_⟩
    change i < found[k].1 + (sliceText text found[k].1 found[k].2).length
    rw [sliceText_length (hwindow _ hmem).2.2]
    omega
  · intro chunk hin
    obtain ⟨k, window, hmem, rfl⟩ := hchunk chunk hin
    exact ⟨Nat.zero_le _, (hwindow window hmem).1⟩
  · apply List.pairwise_iff_getElem.mpr
    intro j k hj hk hjk
    have hj' : j < found.length := by rwa [windowChunks, List.length_mapIdx] at hj
    have hk' : k < found.length := by rwa [windowChunks, List.length_mapIdx] at hk
    have hsorted := (windows_sorted hadvances h Reached.first).2
    have hlt := List.pairwise_iff_getElem.mp hsorted j k hj' hk' hjk
    simp only [windowChunks, List.getElem_mapIdx]
    exact hlt
  · intro k chunk hk
    unfold windowChunks at hk
    rw [List.getElem?_mapIdx] at hk
    obtain ⟨window, -, rfl⟩ := Option.map_eq_some_iff.mp hk
    exact (Nat.zero_add k).symm
  · intro chunk hin
    obtain ⟨k, window, hmem, rfl⟩ := hchunk chunk hin
    rfl

theorem newlineChunks_cut (hne : text ≠ []) {found : List RagChunk}
    (h : newlineChunks ctx fuel text = some found) : Cut ctx text 0 0 text.length found := by
  cases hexceeds : exceeds ctx.limits text.length with
  | false =>
    rw [newlineChunks_of_fits hexceeds, Option.some.injEq] at h
    rw [← h]
    have hcut : Cut ctx text 0 0 (0 + text.length) [ctx.chunk 0 .file text 0] :=
      Cut.single 0 .file hne (sits_of_fits (List.prefix_refl text) hexceeds)
    rwa [Nat.zero_add] at hcut
  | true =>
    obtain ⟨limits, hlimits, hlt⟩ := exists_limits hexceeds
    rw [newlineChunks_of_exceeds hlimits hlt] at h
    obtain ⟨cut, hcut, rfl⟩ := Option.map_eq_some_iff.mp h
    exact windowChunks_cut hlimits hcut

end Windows

section Packing

variable {fuel : ℕ}

/-- Between two units: what is packed and buffered is cut from the file up to where the next
unit starts, and the rest of the file is still to come. -/
structure Packed (ctx : ChunkContext) (full rest : Units) (state : Packing) : Prop where
  cut : Cut ctx full 0 0 (state.position - state.buf.length) state.chunks
  count : state.idx = state.chunks.length
  buffered : full.drop (state.position - state.buf.length) = state.buf ++ rest
  placed : state.buf.length ≤ state.position
  within : exceeds ctx.limits state.buf.length = false

theorem exceeds_zero (limits : Option ChunkLimits) : exceeds limits 0 = false := by
  cases limits with
  | none => rfl
  | some limits => exact decide_eq_false (Nat.not_lt_zero limits.chunkChars)

theorem packed_start (ctx : ChunkContext) (full : Units) : Packed ctx full full {} where
  cut := Cut.nil 0 0
  count := rfl
  buffered := rfl
  placed := le_rfl
  within := exceeds_zero ctx.limits

theorem flush_buf (state : Packing) : (flush ctx state).buf = [] := by
  unfold flush
  by_cases hbuf : state.buf = []
  · rw [if_pos hbuf, hbuf]
  · rw [if_neg hbuf]

theorem flush_position (state : Packing) : (flush ctx state).position = state.position := by
  unfold flush
  by_cases hbuf : state.buf = []
  · rw [if_pos hbuf]
  · rw [if_neg hbuf]

theorem Packed.flush {rest : Units} {state : Packing} (h : Packed ctx full rest state) :
    Packed ctx full rest (flush ctx state) := by
  unfold RagChunks.flush
  by_cases hbuf : state.buf = []
  · rw [if_pos hbuf]
    exact h
  · rw [if_neg hbuf]
    have hsits : Sits ctx.limits full (state.position - state.buf.length) state.buf := by
      apply sits_of_fits _ h.within
      rw [h.buffered]
      exact List.prefix_append _ _
    have hplaced := h.placed
    have hsingle := Cut.single state.idx (boundaryKind ((splitLines state.buf).headD [])) hbuf hsits
    rw [Nat.sub_add_cancel hplaced, h.count, ← Nat.zero_add state.chunks.length] at hsingle
    have hcut := h.cut.append (Nat.zero_le _) (Nat.sub_le _ _) hsingle
    refine ⟨?_, ?_, ?_, Nat.zero_le _, exceeds_zero _⟩
    · rw [Nat.zero_add, ← h.count] at hcut
      exact hcut
    · rw [List.length_append, h.count]
      rfl
    · change full.drop state.position = rest
      have hdrop := congrArg (List.drop state.buf.length) h.buffered
      rwa [List.drop_drop, Nat.sub_add_cancel hplaced, List.drop_left] at hdrop

/-- What is buffered and the next unit stand in a row. -/
theorem Packed.addUnit {seg rest : Units} {state : Packing}
    (h : Packed ctx full (seg ++ rest) state)
    (hfits : exceeds ctx.limits (state.buf.length + seg.length) = false) :
    Packed ctx full rest
      { state with buf := state.buf ++ seg, position := state.position + seg.length } := by
  have hplaced := h.placed
  have hlow : state.position + seg.length - (state.buf ++ seg).length =
      state.position - state.buf.length := by
    rw [List.length_append]
    omega
  refine ⟨?_, h.count, ?_, ?_, ?_⟩
  · dsimp only
    rw [hlow]
    exact h.cut
  · dsimp only
    rw [hlow, h.buffered, List.append_assoc]
  · dsimp only
    rw [List.length_append]
    omega
  · dsimp only
    rwa [List.length_append]

theorem Packed.pushSubs {seg rest : Units} {state : Packing} {subs : List RagChunk}
    (h : Packed ctx full (seg ++ rest) state) (hbuf : state.buf = [])
    (hsubs : Cut ctx seg 0 0 seg.length subs) :
    let packed := pushSubs ctx state subs
    Packed ctx full rest { packed with position := packed.position + seg.length } := by
  have hbuffered := h.buffered
  have hcut := h.cut
  rw [hbuf, List.length_nil, Nat.sub_zero] at hbuffered hcut
  have hseg : seg <+: full.drop state.position := by
    rw [hbuffered]
    exact List.prefix_append _ _
  have hmore := hsubs.shift state.idx hseg
  rw [h.count, ← Nat.zero_add state.chunks.length] at hmore
  have hboth := hcut.append (Nat.zero_le _) (Nat.le_add_right _ _) hmore
  rw [Nat.zero_add, ← h.count] at hboth
  refine ⟨?_, ?_, ?_, ?_, h.within⟩
  · change Cut ctx full 0 0 (state.position + seg.length - state.buf.length) _
    rw [hbuf]
    exact hboth
  · change state.idx + subs.length = (state.chunks ++ List.mapIdx _ subs).length
    rw [List.length_append, List.length_mapIdx, h.count]
  · change full.drop (state.position + seg.length - state.buf.length) = state.buf ++ rest
    rw [hbuf, List.length_nil, Nat.sub_zero, ← List.drop_drop, hbuffered, List.nil_append,
      List.nil_append, List.drop_left]
  · change state.buf.length ≤ _
    rw [hbuf]
    exact Nat.zero_le _

theorem packSegment_packed {seg rest : Units} (hseg : seg ≠ []) {state next : Packing}
    (h : Packed ctx full (seg ++ rest) state) (hnext : packSegment ctx fuel state seg = some next) :
    Packed ctx full rest next := by
  unfold packSegment at hnext
  by_cases hexceeds : exceeds ctx.limits seg.length = true
  · rw [if_pos hexceeds] at hnext
    obtain ⟨subs, hsubs, rfl⟩ := Option.map_eq_some_iff.mp hnext
    exact h.flush.pushSubs (flush_buf state) (newlineChunks_cut hseg hsubs)
  · rw [if_neg hexceeds, Option.some.injEq] at hnext
    rw [← hnext]
    by_cases hfull : exceeds ctx.limits (state.buf.length + seg.length) = true
    · rw [if_pos hfull]
      apply h.flush.addUnit
      rw [flush_buf, List.length_nil, Nat.zero_add]
      exact Bool.eq_false_iff.mpr hexceeds
    · rw [if_neg hfull]
      exact h.addUnit (Bool.eq_false_iff.mpr hfull)

theorem packSegments_packed {segments : List Units} (hsegs : ∀ seg ∈ segments, seg ≠ [])
    {state packed : Packing} (h : Packed ctx full segments.flatten state)
    (hpacked : segments.foldlM (packSegment ctx fuel) state = some packed) :
    Packed ctx full [] packed := by
  induction segments generalizing state with
  | nil =>
    have hdone : state = packed := Option.some.inj hpacked
    rw [← hdone]
    exact h
  | cons seg segments ih =>
    rw [List.foldlM_cons, Option.bind_eq_bind, Option.bind_eq_some_iff] at hpacked
    obtain ⟨next, hnext, hrest⟩ := hpacked
    have hsegne := hsegs seg List.mem_cons_self
    exact ih (fun seg hseg => hsegs seg (List.mem_cons_of_mem _ hseg))
      (packSegment_packed hsegne h hnext) hrest

/-- The packed chunks reach the end of the file. -/
theorem Packed.cut_all {state : Packing} (h : Packed ctx full [] state) :
    ∃ high, full.length ≤ high ∧ Cut ctx full 0 0 high (RagChunks.flush ctx state).chunks := by
  have hflushed := h.flush
  refine ⟨state.position, ?_, ?_⟩
  · have hdrop := hflushed.buffered
    rw [flush_buf, flush_position] at hdrop
    exact List.drop_eq_nil_iff.mp hdrop
  · have hcut := hflushed.cut
    rwa [flush_buf, flush_position] at hcut

end Packing

section Files

variable {fuel : ℕ} {path nameSpace : String} {text : Units} {opts : ChunkOpts}
  {chunks : List RagChunk}

theorem chunkId_injective (nameSpace path : String) :
    Function.Injective (chunkId nameSpace path) := by
  intro first second h
  have hnumber : first.repr = second.repr := by
    unfold chunkId at h
    split_ifs at h with hname
    · exact (String.append_right_inj _).mp h
    · exact (String.append_right_inj _).mp h
  have hdigits := congrArg String.toList hnumber
  rw [Nat.toList_repr, Nat.toList_repr] at hdigits
  have hvalue := congrArg (Nat.ofDigitChars 10 · 0) hdigits
  rwa [Nat.ofDigitChars_ten_toDigits, Nat.ofDigitChars_ten_toDigits] at hvalue

/-- Nothing of the file is lost in its chunks, which stand in the order of their starts and
are told apart by their numbers. The file is read with the line break that the cutting at
units puts after its last line. -/
structure Lossless (limits : Option ChunkLimits) (text : Units) (chunks : List RagChunk) :
    Prop where
  stands : ∀ chunk ∈ chunks, chunk.text <+: (text ++ [newline]).drop chunk.start
  covers : ∀ i unit, text[i]? = some unit → isSpace unit = false →
    ∃ chunk ∈ chunks, chunk.start ≤ i ∧ i < chunk.start + chunk.text.length
  ordered : chunks.Pairwise fun earlier later => earlier.start < later.start
  numbered : chunks.map (·.chunkIndex) = List.range chunks.length
  distinct : (chunks.map (·.id)).Nodup
  fits : ∀ allowed, limits = some allowed → ∀ chunk ∈ chunks,
    (text ++ [newline])[chunk.start + allowed.chunkChars]? ≠ some newline →
      chunk.text.length ≤ allowed.chunkChars

theorem Cut.numbers {high : ℕ} (h : Cut ctx full 0 0 high chunks) :
    chunks.map (·.chunkIndex) = List.range chunks.length := by
  apply List.ext_getElem
  · rw [List.length_map, List.length_range]
  · intro k hk _
    rw [List.length_map] at hk
    have hnumber := h.numbered k _ (List.getElem?_eq_getElem hk)
    rw [List.getElem_map, List.getElem_range, hnumber, Nat.zero_add]

theorem Cut.distinct {high : ℕ} (h : Cut ctx full 0 0 high chunks) :
    (chunks.map (·.id)).Nodup := by
  have hids : chunks.map (·.id) =
      (chunks.map (·.chunkIndex)).map (chunkId ctx.nameSpace ctx.path) := by
    rw [List.map_map]
    exact List.map_congr_left fun chunk hchunk => h.named chunk hchunk
  rw [hids, h.numbers]
  exact List.Nodup.map (chunkId_injective _ _) List.nodup_range

theorem Cut.lossless {high : ℕ} (h : Cut ctx (text ++ [newline]) 0 0 high chunks)
    (hhigh : text.length ≤ high) : Lossless ctx.limits text chunks where
  stands := fun chunk hchunk => (h.sits chunk hchunk).stands
  covers := by
    intro i unit hunit _
    have hlt := (List.getElem?_eq_some_iff.mp hunit).1
    exact h.covers i (Nat.zero_le _) (by omega)
  ordered := h.ordered
  numbered := h.numbers
  distinct := h.distinct
  fits := fun allowed hlimits chunk hchunk => (h.sits chunk hchunk).fits allowed hlimits

theorem lossless_of_blank (limits : Option ChunkLimits) (h : isBlank text = true) :
    Lossless limits text [] where
  stands := nofun
  covers := by
    intro i unit hunit hspace
    have := List.all_eq_true.mp h unit (List.mem_of_getElem? hunit)
    rw [hspace] at this
    cases this
  ordered := List.Pairwise.nil
  numbered := rfl
  distinct := List.nodup_nil
  fits := nofun

theorem chunkFile_cut {kind : RagKind} (hkind : classifyRepoFile path = some kind)
    (hblank : isBlank text = false)
    (h : chunkFile fuel path text nameSpace opts = some chunks) :
    ∃ high, text.length ≤ high ∧
      Cut ⟨path, kind, nameSpace, chunkLimits opts⟩ (text ++ [newline]) 0 0 high chunks := by
  rw [chunkFile_of_cut hkind hblank] at h
  dsimp only at h
  split_ifs at h with hlogical
  · obtain ⟨packed, hpacked, rfl⟩ := Option.map_eq_some_iff.mp h
    have hstart := packed_start ⟨path, kind, nameSpace, chunkLimits opts⟩ (segmentsOf text).flatten
    obtain ⟨high, hhigh, hcut⟩ :=
      (packSegments_packed (segmentsOf_ne_nil text) hstart hpacked).cut_all
    rw [segmentsOf_flatten] at hhigh hcut
    rw [List.length_append] at hhigh
    exact ⟨high, by omega, hcut⟩
  · have htext : text ≠ [] := by
      rintro rfl
      cases hblank
    have hcut := newlineChunks_cut htext h
    exact ⟨text.length, le_rfl, hcut.widen (List.prefix_append text [newline])⟩

theorem chunkFile_eq_nil (hnone : classifyRepoFile path = none ∨ isBlank text = true)
    (h : chunkFile fuel path text nameSpace opts = some chunks) : chunks = [] := by
  unfold chunkFile at h
  cases hkind : classifyRepoFile path with
  | none =>
    rw [hkind] at h
    exact (Option.some.inj h).symm
  | some kind =>
    have hblank : isBlank text = true := hnone.resolve_left (by rw [hkind]; exact nofun)
    rw [hkind, hblank] at h
    exact (Option.some.inj h).symm

/-- Every chunk's id is made of the namespace, the path and the chunk's number. -/
theorem chunkFile_named (h : chunkFile fuel path text nameSpace opts = some chunks) :
    ∀ chunk ∈ chunks, chunk.id = chunkId nameSpace path chunk.chunkIndex := by
  by_cases hnone : classifyRepoFile path = none ∨ isBlank text = true
  · rw [chunkFile_eq_nil hnone h]
    nofun
  · push Not at hnone
    obtain ⟨kind, hkind⟩ := Option.ne_none_iff_exists'.mp hnone.1
    obtain ⟨high, -, hcut⟩ := chunkFile_cut hkind (Bool.eq_false_iff.mpr hnone.2) h
    exact hcut.named

/-- Chunking a file that is not skipped loses nothing. -/
theorem chunkFile_lossless (hkind : classifyRepoFile path ≠ none)
    (h : chunkFile fuel path text nameSpace opts = some chunks) :
    Lossless (chunkLimits opts) text chunks := by
  obtain ⟨kind, hkind⟩ := Option.ne_none_iff_exists'.mp hkind
  cases hblank : isBlank text with
  | true =>
    rw [chunkFile_eq_nil (Or.inr hblank) h]
    exact lossless_of_blank _ hblank
  | false =>
    obtain ⟨high, hhigh, hcut⟩ := chunkFile_cut hkind hblank h
    exact hcut.lossless hhigh

/-- An overlap of two in a budget of ten. -/
def narrowOverlap : ChunkOpts where
  chunkChars := some ((10 : ℚ) : WithTop ℚ)
  chunkOverlap := some ((2 : ℚ) : WithTop ℚ)

theorem readme_lossless :
    Lossless (chunkLimits narrowOverlap) brokenLine
      ((chunkFile 4 "README.md" brokenLine "acme:docs" narrowOverlap).getD []) :=
  chunkFile_lossless (show classifyRepoFile "README.md" ≠ none by decide +kernel)
    (show chunkFile 4 "README.md" brokenLine "acme:docs" narrowOverlap = some _ by decide +kernel)

/-- Of a skipped file no chunk is made. -/
theorem skipped_file_lost :
    chunkFile 1 "dist/index.js" [97] "" {} = some [] ∧ ¬ Lossless (chunkLimits {}) [97] [] := by
  refine ⟨by decide +kernel, fun h => ?_⟩
  obtain ⟨chunk, hchunk, -⟩ := h.covers 0 97 rfl (by decide +kernel)
  exact absurd hchunk List.not_mem_nil

/-- With a budget of nine the line break behind it makes a chunk of ten. -/
example : ((chunkFile 4 "README.md" brokenLine ""
    ⟨some ((9 : ℚ) : WithTop ℚ), some ((2 : ℚ) : WithTop ℚ)⟩).getD []).map (·.text.length) =
      [10, 9, 5] := by
  decide +kernel

end Files

end Gittensory.ChunkCoverage
