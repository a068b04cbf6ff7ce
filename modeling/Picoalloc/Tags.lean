import Picoalloc.FreeLists

/-!
Boundary tags: the `prev_chunk_size` and `size` fields of the headers describe the
tiling. A state represents a heap, or a heap with a gap while an operation is at
work; every block of an operation takes one gap to the next.
-/

namespace Picoalloc
open CheckedMachine Tilings

variable {build : Build} {σ : Type} {total : Nat} {s s' : AllocatorState build σ}

/-- The header at a place tags a chunk after one of `before` units. -/
def Tagged (s : AllocatorState build σ) (place before : Nat) (chunk : Chunk) : Prop :=
  view s .prevChunkSize place = before ∧ view s .size place = chunk.tag

structure Represents (total : Nat) (s : AllocatorState build σ) (heap : Heap) : Prop where
  placed : Placed total s
  valid : heap.Valid build.target total
  space : heap.allocatedSpace = s.allocatedSpace
  index : Index s heap.bins
  tags : Laid Chunk.size (Tagged s) 0 0 heap.chunks

/-- The chunk after a gap need not know yet what precedes it. -/
structure Opened (total : Nat) (s : AllocatorState build σ) (gap : Gap) : Prop where
  placed : Placed total s
  valid : gap.Valid build.target total s.allocatedSpace
  index : Index s gap.bins
  left : Laid Chunk.size (Tagged s) 0 0 gap.before
  right : ∃ previous, Laid Chunk.size (Tagged s) (gap.start + gap.size) previous gap.after

section Tags

@[simp] theorem Chunk.tag_size (chunk : Chunk) : ChunkSize.size chunk.tag = chunk.size := by
  obtain ⟨size, allocated⟩ := chunk
  cases allocated
  · exact size_free size
  · exact size_allocated size

@[simp] theorem Chunk.tag_isAllocated (chunk : Chunk) :
    ChunkSize.isAllocated chunk.tag = chunk.isAllocated := by
  obtain ⟨size, allocated⟩ := chunk
  cases allocated
  · exact isAllocated_free size
  · exact isAllocated_allocated size

theorem laid_kept {start before : Nat} {chunks : List Chunk}
    (same : ∀ place chunk, ChunkAt start chunks place chunk →
      view s' .prevChunkSize place = view s .prevChunkSize place ∧
        view s' .size place = view s .size place)
    (laid : Laid Chunk.size (Tagged s) start before chunks) :
    Laid Chunk.size (Tagged s') start before chunks := by
  refine laid_congr (fun place before chunk here tagged => ?_) laid
  obtain ⟨prev, size⟩ := same place chunk here
  exact ⟨prev.trans tagged.1, size.trans tagged.2⟩

theorem tagged_relinked {touched : Nat → Prop} (relinked : Relinked touched s s') :
    Tagged s' = Tagged s := by
  funext place before chunk
  simp only [Tagged, relinked.prevChunkSize, relinked.size]

end Tags

section Opening

variable {heap : Heap}

theorem Represents.seam {left right : List Chunk} (represents : Represents total s heap)
    (here : heap.chunks = left ++ right) :
    Opened total s { before := left, size := 0, after := right, bins := heap.bins } where
  placed := represents.placed
  valid := represents.space ▸ represents.valid.seam here
  index := represents.index
  left := ((laid_append _ 0 0 left right).mp (here ▸ represents.tags)).1
  right := ⟨_, by simpa [Gap.start] using
    ((laid_append _ 0 0 left right).mp (here ▸ represents.tags)).2⟩

theorem Represents.around {before after : List Chunk} {chunk : Chunk}
    (represents : Represents total s heap) (here : heap.chunks = before ++ chunk :: after) :
    Laid Chunk.size (Tagged s) 0 0 before ∧
      Tagged s (span Chunk.size before) (lastSize Chunk.size 0 before) chunk ∧
      Laid Chunk.size (Tagged s) (span Chunk.size before + chunk.size) chunk.size after := by
  have laid := (laid_append _ 0 0 before (chunk :: after)).mp (here ▸ represents.tags)
  rw [Nat.zero_add] at laid
  exact ⟨laid.1, laid.2.1, laid.2.2⟩

theorem Represents.materialized {place : Nat} {chunk : Chunk}
    (represents : Represents total s heap) (here : ChunkAt 0 heap.chunks place chunk) :
    place < s.allocatedSpace ∧ (chunk.isAllocated = true → place + chunk.size ≤ s.allocatedSpace) :=
  represents.space ▸ represents.valid.materialized place chunk here

theorem Represents.openAt {before after : List Chunk} {size : Nat}
    (represents : Represents total s heap)
    (here : heap.chunks = before ++ ⟨size, true⟩ :: after) :
    Opened total s { before, size, after, bins := heap.bins } where
  placed := represents.placed
  valid := represents.space ▸ represents.valid.openAt here
  index := represents.index
  left := (represents.around here).1
  right := ⟨_, (represents.around here).2.2⟩

end Opening

section Steps

variable {gap : Gap}

theorem Opened.frame (opened : Opened total s gap) {place : Nat} (listed : Listed gap.bins place) :
    Outside s.allocatedSpace gap.Room place := by
  obtain ⟨bin, member⟩ := listed
  obtain ⟨size, here, _⟩ := (opened.valid.registered bin place).mp member
  exact Gap.outside_of_chunkAt opened.valid here

theorem Opened.relink {gap' : Gap} {touched : Nat → Prop} (opened : Opened total s gap)
    (relinked : Relinked touched s s') (index : Index s' gap'.bins)
    (valid : gap'.Valid build.target total s.allocatedSpace)
    (left : Laid Chunk.size (Tagged s) 0 0 gap'.before)
    (right : ∃ previous, Laid Chunk.size (Tagged s) (gap'.start + gap'.size) previous gap'.after) :
    Opened total s' gap' where
  placed := relinked.frame.placed opened.placed
  valid := relinked.frame.allocatedSpace ▸ valid
  index := index
  left := tagged_relinked relinked ▸ left
  right := tagged_relinked relinked ▸ right

theorem unregisterNext_ok {next : Nat} {rest : List Chunk} (opened : Opened total s gap)
    (here : gap.after = ⟨next, false⟩ :: rest) :
    ∃ s', unregisterFreeSpace build (s.unit (gap.start + gap.size))
        (BitMask.index build.target.maskBits (Bins.binOf build.target next)) s = .ok ((), s') ∧
      Opened total s' (gap.absorbNext build.target) ∧
      Frame (Outside s.allocatedSpace gap.chunkAt) s s' := by
  obtain ⟨before, size, after, bins⟩ := gap
  obtain rfl : after = ⟨next, false⟩ :: rest := here
  have here : Gap.chunkAt ⟨before, size, ⟨next, false⟩ :: rest, bins⟩
      (span Chunk.size before + size) ⟨next, false⟩ := Or.inr (Or.inl ⟨rfl, rfl⟩)
  obtain ⟨previous, ⟨_, tag⟩, laid⟩ := opened.right
  have member : span Chunk.size before + size ∈ bins (Bins.binOf build.target next) :=
    (opened.valid.registered _ _).mpr ⟨next, here, rfl⟩
  obtain ⟨s', run, index, relinked⟩ := unregisterFreeSpace_ok opened.placed opened.index
    member (by simp only [Gap.start] at tag; rw [tag, Chunk.tag_isAllocated])
  exact ⟨s', run, opened.relink relinked index (Gap.absorbNext_valid opened.valid)
    opened.left ⟨next, by simpa [Gap.absorbNext, Gap.start, Nat.add_assoc] using laid⟩,
    relinked.frame.mono fun _ listed => (opened.frame listed).around⟩

/-- `mergeNextFree` is `absorbNext`. -/
theorem mergeNextFree_ok (opened : Opened total s gap) :
    ∃ s', mergeNextFree build (s.unit (gap.start + gap.size)) (s.unit total) gap.size s =
        .ok ((gap.absorbNext build.target).size, s') ∧
      Opened total s' (gap.absorbNext build.target) ∧
      Frame (Outside s.allocatedSpace gap.chunkAt) s s' := by
  obtain ⟨before, size, after, bins⟩ := gap
  have small := opened.placed.small
  simp only [unitLimit] at small
  cases after with
  | nil =>
      have tiles := opened.valid.tiles
      refine ⟨s, ?_, opened, Frame.refl _ _⟩
      rw [mergeNextFree, if_neg (by rw [unit_lt, ← tiles]; exact Nat.lt_irrefl _)]
      rfl
  | cons chunk rest =>
      obtain ⟨next, allocated⟩ := chunk
      have tiles := opened.valid.tiles
      have here : Gap.chunkAt ⟨before, size, ⟨next, allocated⟩ :: rest, bins⟩
          (span Chunk.size before + size) ⟨next, allocated⟩ := Or.inr (Or.inl ⟨rfl, rfl⟩)
      have inside := (opened.valid.materialized _ _ here).1
      have wide : 0 < next := opened.valid.positive ⟨next, allocated⟩ (Or.inr List.mem_cons_self)
      obtain ⟨previous, ⟨_, tag⟩, _⟩ := opened.right
      simp only [Gap.start, span_cons] at tag tiles ⊢
      have reading : mergeNextFree build (s.unit (span Chunk.size before + size)) (s.unit total)
          size s = (if allocated = true then pure size else do
            unregisterFreeSpace build (s.unit (span Chunk.size before + size))
              (BitMask.index build.target.maskBits (Bins.binOf build.target next))
            Size.uncheckedAdd build size next : Run build σ Nat) s := by
        rw [mergeNextFree, if_pos (unit_lt.mpr (by omega)),
          bind_ok (paranoidCheckAccess_ok opened.placed inside (by decide)),
          bind_ok (load_ok opened.placed inside _), tag, Chunk.tag_isAllocated, Chunk.tag_size]
        cases allocated
        · exact bind_ok (sizeToBinRoundDown_ok next)
        · rfl
      rw [reading]
      cases allocated with
      | true => exact ⟨s, rfl, opened, Frame.refl _ _⟩
      | false =>
          obtain ⟨s', run, opened', frame⟩ := unregisterNext_ok opened rfl
          refine ⟨s', ?_, opened', frame⟩
          rw [if_neg Bool.false_ne_true]
          refine (bind_ok run).trans ?_
          exact lift_ok (uncheckedAdd_ok (by omega)) s'

/-- `mergePrevFree` is `absorbPrev`. -/
theorem mergePrevFree_ok (opened : Opened total s gap) :
    ∃ s', mergePrevFree build (s.unit gap.start) (lastSize Chunk.size 0 gap.before) gap.size s =
        .ok ((s.unit (gap.absorbPrev build.target).start,
          lastSize Chunk.size 0 (gap.absorbPrev build.target).before,
          (gap.absorbPrev build.target).size), s') ∧
      Opened total s' (gap.absorbPrev build.target) ∧
      Frame (Outside s.allocatedSpace gap.chunkAt) s s' := by
  obtain ⟨before, size, after, bins⟩ := gap
  have small := opened.placed.small
  have tiles := opened.valid.tiles
  simp only [unitLimit, Gap.start] at small tiles
  have offset := offset_of_unit opened.placed (v := span Chunk.size before) (by omega)
  rcases List.eq_nil_or_concat before with rfl | ⟨init, ⟨prev, allocated⟩, rfl⟩
  · refine ⟨s, ?_, opened, Frame.refl _ _⟩
    rw [mergePrevFree, bind_ok (get_apply s)]
    exact (bind_ok (lift_ok offset s)).trans rfl
  rw [List.concat_eq_append] at *
  have here : Gap.chunkAt ⟨init ++ [⟨prev, allocated⟩], size, after, bins⟩
      (span Chunk.size init) ⟨prev, allocated⟩ :=
    Or.inl (chunkAt_here rfl)
  have inside := (opened.valid.materialized _ _ here).1
  have wide : 0 < prev := opened.valid.positive ⟨prev, allocated⟩ (Or.inl (by simp))
  have laid := (laid_append _ 0 0 init [⟨prev, allocated⟩]).mp opened.left
  obtain ⟨before_, tag⟩ := laid.2.1
  rw [Nat.zero_add] at before_ tag
  have width : span Chunk.size (init ++ [⟨prev, allocated⟩]) = span Chunk.size init + prev := by simp
  have back := sub_units opened.placed (span Chunk.size init + prev) prev (by omega)
    (by omega)
  rw [Nat.add_sub_cancel] at back
  have nonempty : (!Size.isEmpty (span Chunk.size init + prev)) = true := by
    simp [Size.isEmpty, wide.ne']
  have last : lastSize Chunk.size 0 (init ++ [⟨prev, allocated⟩]) = prev := by simp [lastSize]
  -- what the source reads is the header of the chunk before the gap, which is materialized
  have reading : mergePrevFree build (s.unit (span Chunk.size init + prev)) prev size s =
      (if allocated = true then pure (s.unit (span Chunk.size init + prev), prev, size) else do
        unregisterFreeSpace build (s.unit (span Chunk.size init))
          (BitMask.index build.target.maskBits (Bins.binOf build.target prev))
        let size ← Size.uncheckedAdd build size prev
        return (s.unit (span Chunk.size init), lastSize Chunk.size 0 init, size) :
          Run build σ (Nat × Nat × Nat)) s := by
    rw [width] at offset
    rw [mergePrevFree, bind_ok (get_apply s), bind_ok (lift_ok offset s), if_pos nonempty, back,
      bind_ok (paranoidCheckAccess_ok opened.placed inside (by decide)),
      bind_ok (load_ok opened.placed inside _), tag, Chunk.tag_size,
      bind_ok (paranoidAssert_ok (by simp)), Chunk.tag_isAllocated]
    cases allocated
    · rw [if_neg Bool.false_ne_true, bind_ok (load_ok opened.placed inside _), before_]
      exact (bind_ok (sizeToBinRoundDown_ok prev)).trans (by rw [back]; rfl)
    · rfl
  simp only [Gap.start, width, last]
  rw [reading]
  cases allocated with
  | true =>
      refine ⟨s, ?_, ?_, Frame.refl _ _⟩
      · simp [Gap.absorbPrev, pure_apply, last]
      · simpa [Gap.absorbPrev] using opened
  | false =>
      have member : span Chunk.size init ∈ bins (Bins.binOf build.target prev) :=
        (opened.valid.registered _ _).mpr ⟨prev, here, rfl⟩
      obtain ⟨s', run, index, relinked⟩ := unregisterFreeSpace_ok opened.placed opened.index
        member (by rw [tag, Chunk.tag_isAllocated])
      have valid := Gap.absorbPrev_valid opened.valid
      obtain ⟨previous, right⟩ := opened.right
      rw [Gap.absorbPrev_concat] at valid ⊢
      refine ⟨s', ?_, opened.relink relinked index valid laid.1 ⟨previous, ?_⟩,
        relinked.frame.mono fun _ listed => (opened.frame listed).around⟩
      · rw [if_neg Bool.false_ne_true, bind_ok run,
          bind_ok (lift_ok (uncheckedAdd_ok (by omega)) s')]
        rfl
      · simpa [Gap.start, width, Nat.add_assoc, Nat.add_comm, Nat.add_left_comm] using right

theorem Opened.end_le (opened : Opened total s gap) : gap.start + gap.size ≤ total :=
  (Nat.le_add_right _ _).trans_eq opened.valid.tiles

theorem Opened.last_small (opened : Opened total s gap) :
    lastSize Chunk.size 0 gap.before < unitLimit := by
  have small := opened.placed.small
  have tiles := opened.valid.tiles
  have last := lastSize_le_span Chunk.size gap.before
  simp only [Gap.start] at tiles
  omega

theorem place_end {target : Target} {chunk : Chunk} (fits : chunk.size ≤ gap.size) :
    (gap.place target chunk).start + (gap.place target chunk).size = gap.start + gap.size := by
  simp only [Gap.place, Gap.start, span_append, span_cons, span_nil]
  omega

theorem Opened.tag {chunk : Chunk} (opened : Opened total s gap) (placed : Placed total s')
    (space : s'.allocatedSpace = s.allocatedSpace)
    (index : Index s' (gap.place build.target chunk).bins)
    (valid : (gap.place build.target chunk).Valid build.target total s.allocatedSpace)
    (positive : 0 < chunk.size) (fits : chunk.size ≤ gap.size)
    (prevs : view s' .prevChunkSize = Function.update (view s .prevChunkSize) gap.start
      (lastSize Chunk.size 0 gap.before))
    (sizes : view s' .size = Function.update (view s .size) gap.start chunk.tag) :
    Opened total s' (gap.place build.target chunk) := by
  have kept : ∀ place, place ≠ gap.start →
      view s' .prevChunkSize place = view s .prevChunkSize place ∧
        view s' .size place = view s .size place := by
    intro place other
    rw [prevs, sizes]
    exact ⟨Function.update_of_ne other _ _, Function.update_of_ne other _ _⟩
  obtain ⟨previous, right⟩ := opened.right
  refine ⟨placed, space ▸ valid, index, (laid_append _ 0 0 gap.before [chunk]).mpr ⟨?_, ?_⟩,
    previous, ?_⟩
  · exact laid_kept (fun place other here =>
      kept place (Gap.before_lt opened.valid here).1.ne) opened.left
  · simp only [Laid, Tagged, and_true, prevs, sizes, Nat.zero_add]
    exact ⟨Function.update_self _ _ _, Function.update_self _ _ _⟩
  · rw [place_end fits]
    refine laid_kept (fun place other here => kept place ?_) right
    have := Gap.after_ge here
    omega

theorem registerFreeSpace_place (opened : Opened total s gap) {size : Nat} (fits : size ≤ gap.size)
    (header : size ≠ 0 → gap.start < s.allocatedSpace) (closed : size ≠ 0 → gap.ClosedLeft) :
    ∃ s', registerFreeSpace build (s.unit gap.start) (lastSize Chunk.size 0 gap.before) size s =
        .ok (lastSize Chunk.size 0 (gap.placeFree build.target size).before, s') ∧
      Opened total s' (gap.placeFree build.target size) ∧
      Frame (Outside s.allocatedSpace gap.Room) s s' := by
  by_cases empty : size = 0
  · subst empty
    exact ⟨s, rfl, opened, Frame.refl _ _⟩
  · have small := opened.placed.small
    have tiles := opened.valid.tiles
    have inside := header empty
    have unlisted : ¬ Listed gap.bins gap.start := by
      rintro ⟨bin, member⟩
      obtain ⟨other, here, _⟩ := (opened.valid.registered bin _).mp member
      exact Gap.not_chunkAt opened.valid (Nat.le_refl _) (by omega) here
    have narrow : size < unitLimit := by omega
    obtain ⟨s', run, index, frame, prevs, sizes⟩ := registerFreeSpace_ok opened.placed opened.index
      (Nat.pos_of_ne_zero empty) narrow opened.last_small unlisted inside
    have valid := Gap.place_valid opened.valid ⟨size, false⟩ (Nat.pos_of_ne_zero empty)
      fits inside (fun impossible => absurd impossible Bool.false_ne_true)
      (fun last member => Or.inl (closed empty last member))
    rw [Gap.placeFree, if_neg empty]
    refine ⟨s', ?_, opened.tag (frame.placed opened.placed) frame.allocatedSpace index valid
      (Nat.pos_of_ne_zero empty) fits prevs sizes, frame.mono ?_⟩
    · rw [run]
      simp [Gap.place, lastSize]
    · rintro place (rfl | listed)
      · exact Gap.outside_start opened.valid inside
      · exact opened.frame listed

theorem registerAllocation_place (opened : Opened total s gap) {size : Nat} (positive : 0 < size)
    (fits : size ≤ gap.size) (payload : gap.start + size ≤ s.allocatedSpace) :
    ∃ s', registerAllocation build (s.unit gap.start) (lastSize Chunk.size 0 gap.before) size s =
        .ok ((), s') ∧
      Opened total s' (gap.place build.target ⟨size, true⟩) ∧
      Frame (Outside s.allocatedSpace gap.Room) s s' := by
  have small := opened.placed.small
  have tiles := opened.valid.tiles
  have inside : gap.start < s.allocatedSpace := by omega
  have last := opened.last_small
  have narrow : size < unitLimit := by omega
  have frame : Frame (Outside s.allocatedSpace gap.Room) s _ :=
    frame_putTags s (lastSize Chunk.size 0 gap.before) (2 * size + 1)
      (Gap.outside_start opened.valid inside)
  have tagSmall : 2 * size + 1 < 2 ^ 32 := by
    simp only [unitLimit] at narrow
    omega
  obtain ⟨prevs, sizes, nexts, prevLinks⟩ :=
    views_putTags s gap.start (last.trans (by decide)) tagSmall
  have valid := Gap.place_valid opened.valid ⟨size, true⟩ positive fits inside
    (fun _ => payload) (fun _ _ => Or.inr rfl)
  exact ⟨_, registerAllocation_ok opened.placed narrow inside _,
    opened.tag (frame.placed opened.placed) rfl (opened.index.congr rfl rfl rfl rfl nexts prevLinks)
      valid positive fits prevs sizes, frame⟩

theorem storeSize_resize (opened : Opened total s gap) {init : List Chunk} {old new : Nat}
    (ends : gap.before = init ++ [⟨old, true⟩]) (positive : 0 < new) (fits : new ≤ gap.size + old)
    (payload : span Chunk.size init + new ≤ s.allocatedSpace) :
    ∃ s', store build (s.unit (span Chunk.size init)) .size (ChunkSize.newAllocated new) s =
        .ok ((), s') ∧
      Opened total s' (gap.resize init old new) ∧
      Frame (fun place => place = span Chunk.size init) s s' := by
  have small := opened.placed.small
  have tiles := opened.valid.tiles
  have start : gap.start = span Chunk.size init + old := by
    rw [Gap.start, ends]
    simp
  have tagSmall : 2 * new + 1 < 2 ^ 32 := by
    simp only [unitLimit] at small
    omega
  have sizes : view (put s .size (span Chunk.size init) (2 * new + 1)) .size =
      Function.update (view s .size) (span Chunk.size init) (2 * new + 1) :=
    view_put_same s _ (Nat.lt_of_lt_of_le tagSmall (pow_length _ _))
  have others : ∀ field, field ≠ .size →
      view (put s .size (span Chunk.size init) (2 * new + 1)) field = view s field :=
    fun field other => view_put_other s _ _ (Ne.symm other)
  have kept : ∀ place, place ≠ span Chunk.size init →
      view (put s .size (span Chunk.size init) (2 * new + 1)) .prevChunkSize place =
          view s .prevChunkSize place ∧
        view (put s .size (span Chunk.size init) (2 * new + 1)) .size place =
          view s .size place := by
    intro place other
    rw [sizes, others _ (by decide)]
    exact ⟨rfl, Function.update_of_ne other _ _⟩
  -- One header is written, between the ones before the chunk and those behind the gap.
  have laid := (laid_append _ 0 0 init [⟨old, true⟩]).mp (ends ▸ opened.left)
  obtain ⟨previous, right⟩ := opened.right
  have oldPositive : 0 < old :=
    opened.valid.positive ⟨old, true⟩ (Or.inl (by rw [ends]; simp))
  refine ⟨put s .size (span Chunk.size init) (2 * new + 1), ?_,
    ⟨opened.placed.congr rfl rfl rfl, Gap.resize_valid opened.valid ends positive fits payload,
      opened.index.congr rfl rfl rfl rfl (others _ (by decide)) (others _ (by decide)),
      (laid_append _ 0 0 init [⟨new, true⟩]).mpr ⟨laid_kept (fun place chunk here => ?_) laid.1, ?_⟩,
      previous, ?_⟩, Frame.put s .size _ rfl⟩
  · rw [newAllocated_eq (by omega)]
    exact store_ok opened.placed (by omega) _ _
  · have wide := opened.valid.positive chunk
      (Or.inl (by rw [ends]; exact List.mem_append_left _ (tileAt_mem here)))
    have := (tileAt_bounds here).2
    exact kept place (by omega)
  · obtain ⟨prev, _⟩ := laid.2.1
    simp only [Laid, Tagged, and_true, Nat.zero_add] at prev ⊢
    rw [others _ (by decide), sizes]
    exact ⟨prev, Function.update_self _ _ _⟩
  · have same : (gap.resize init old new).start + (gap.resize init old new).size =
        gap.start + gap.size := by
      simp only [Gap.resize, Gap.start, span_append, span_cons, span_nil] at start ⊢
      omega
    rw [same]
    refine laid_kept (fun place chunk here => kept place ?_) right
    have := Gap.after_ge here
    omega

/-- Telling the chunk after a filled gap what precedes it closes the heap. -/
theorem storeFinalPrevSize_close (opened : Opened total s gap) (filled : gap.size = 0)
    (separated : ∀ last ∈ gap.before.getLast?, ∀ first ∈ gap.after.head?, Separated last first)
    {bytes : Nat} (fits : bytes ≤ 32) :
    ∃ s', storeFinalPrevSize build (s.unit gap.start) (s.unit total) bytes
        (lastSize Chunk.size 0 gap.before) s = .ok ((), s') ∧
      Represents total s' (gap.heap s.allocatedSpace) ∧
      Frame (Outside s.allocatedSpace gap.chunkAt) s s' := by
  have valid := Gap.heap_valid opened.valid filled separated
  have tiles := opened.valid.tiles
  have last := opened.last_small
  obtain ⟨before, size, after, bins⟩ := gap
  obtain rfl : size = 0 := filled
  obtain ⟨previous, right⟩ := opened.right
  simp only [Gap.start, Nat.add_zero] at right tiles last
  cases after with
  | nil =>
      -- at the end of the space there is no chunk to tell
      refine ⟨s, ?_, ⟨opened.placed, valid, rfl, opened.index, ?_⟩, Frame.refl _ _⟩
      · rw [storeFinalPrevSize, if_neg (by rw [unit_lt, ← tiles]; exact Nat.lt_irrefl _)]
        rfl
      · simpa [Gap.heap] using opened.left
  | cons first rest =>
      have here : Gap.chunkAt ⟨before, 0, first :: rest, bins⟩ (span Chunk.size before) first :=
        Or.inr (Or.inl ⟨rfl, rfl⟩)
      have inside := (opened.valid.materialized _ _ here).1
      have wide : 0 < first.size := opened.valid.positive first (Or.inr List.mem_cons_self)
      simp only [span_cons] at tiles
      have prevs : view (put s .prevChunkSize (span Chunk.size before)
          (lastSize Chunk.size 0 before)) .prevChunkSize = _ :=
        view_put_same s _ (Nat.lt_of_lt_of_le (last.trans (by decide)) (pow_length _ _))
      have others : ∀ field, field ≠ .prevChunkSize →
          view (put s .prevChunkSize (span Chunk.size before) (lastSize Chunk.size 0 before)) field =
            view s field :=
        fun field other => view_put_other s _ _ (Ne.symm other)
      have kept : ∀ place, place ≠ span Chunk.size before →
          view (put s .prevChunkSize (span Chunk.size before) (lastSize Chunk.size 0 before))
              .prevChunkSize place = view s .prevChunkSize place ∧
            view (put s .prevChunkSize (span Chunk.size before) (lastSize Chunk.size 0 before))
              .size place = view s .size place := by
        intro place other
        rw [prevs, others _ (by decide)]
        exact ⟨Function.update_of_ne other _ _, rfl⟩
      refine ⟨put s .prevChunkSize (span Chunk.size before) (lastSize Chunk.size 0 before), ?_,
        ⟨opened.placed.congr rfl rfl rfl, valid, rfl,
        opened.index.congr rfl rfl rfl rfl (others _ (by decide)) (others _ (by decide)),
        (laid_append _ 0 0 before (first :: rest)).mpr
          ⟨laid_kept (fun place chunk at' => kept place (Gap.before_lt opened.valid at').1.ne)
            opened.left, ⟨?_, ?_⟩, laid_kept (fun place chunk at' => kept place ?_) ?_⟩⟩,
        Frame.put s .prevChunkSize _ (Gap.outside_of_chunkAt opened.valid here).around⟩
      · rw [storeFinalPrevSize, if_pos (unit_lt.mpr (by simp only [Gap.start]; omega))]
        refine (bind_ok (paranoidCheckAccess_ok opened.placed inside fits)).trans ?_
        exact store_ok opened.placed inside _ _
      · rw [Nat.zero_add, prevs]
        exact Function.update_self _ _ _
      · rw [Nat.zero_add, others _ (by decide)]
        exact right.1.2
      · have := (tileAt_bounds at').1
        omega
      · simpa using right.2

end Steps

section ParanoidCheck

variable {heap : Heap}

theorem checkPrevChunk_ok (represents : Represents total s heap) {before after : List Chunk}
    {chunk : Chunk} (here : heap.chunks = before ++ chunk :: after) :
    checkPrevChunk build (s.unit (span Chunk.size before)) chunk.isAllocated s.baseAddress
      (lastSize Chunk.size 0 before) s = .ok ((), s) := by
  have tiles := represents.valid.tiles
  rcases List.eq_nil_or_concat before with rfl | ⟨init, prev, rfl⟩
  · rw [checkPrevChunk, if_pos (by rfl)]
    exact assertTrue_ok (by simp [State.unit])
  · rw [List.concat_eq_append] at *
    have wide : 0 < prev.size := represents.valid.positive prev (by rw [here]; simp)
    have chunks : heap.chunks = init ++ prev :: chunk :: after := by
      rw [here, List.append_assoc]
      rfl
    have inside := (represents.materialized (chunkAt_here chunks)).1
    have tagged := (represents.around chunks).2.1
    have separated : Separated prev chunk :=
      (List.isChain_append.mp (here ▸ represents.valid.separated)).2.2 prev (by simp) chunk rfl
    have last : lastSize Chunk.size 0 (init ++ [prev]) = prev.size := by simp [lastSize]
    have width : span Chunk.size (init ++ [prev]) = span Chunk.size init + prev.size := by simp
    rw [here, span_append, width] at tiles
    have back := sub_units represents.placed (span Chunk.size init + prev.size) prev.size (by omega)
      (by omega)
    rw [Nat.add_sub_cancel] at back
    have above : s.baseAddress ≤ s.unit (span Chunk.size init) := Nat.le_add_right _ _
    rw [checkPrevChunk, last, width, if_neg (by simp [Size.isEmpty, wide.ne']), back,
      bind_ok (assertTrue_ok (by simpa using above)),
      bind_ok (load_ok represents.placed inside _), tagged.2, Chunk.tag_size, Chunk.tag_isAllocated,
      bind_ok (assertTrue_ok (by simp))]
    refine assertTrue_ok ?_
    rcases separated with allocated | allocated <;> simp [allocated]

theorem checkNextChunk_ok (represents : Represents total s heap) {before after : List Chunk}
    {chunk : Chunk} (here : heap.chunks = before ++ chunk :: after) :
    checkNextChunk build (s.unit (span Chunk.size before)) chunk.isAllocated (s.unit total)
      chunk.size s = .ok ((), s) := by
  have tiles := represents.valid.tiles
  rw [here, span_append, span_cons] at tiles
  rw [checkNextChunk, add_units represents.placed _ _ (by omega)]
  cases after with
  | nil =>
      simp only [span_nil, Nat.add_zero] at tiles
      rw [if_neg (by rw [unit_lt]; omega)]
      exact assertTrue_ok (by simp [tiles])
  | cons next rest =>
      have wide : 0 < next.size := represents.valid.positive next (by rw [here]; simp)
      have chunks : heap.chunks = (before ++ [chunk]) ++ next :: rest := by simp [here]
      have tagged := (represents.around chunks).2.1
      have inside := (represents.materialized (chunkAt_here chunks)).1
      have separated : Separated chunk next :=
        (List.isChain_cons.mp (List.isChain_append.mp (here ▸ represents.valid.separated)).2.1).1
          next rfl
      have last : lastSize Chunk.size 0 (before ++ [chunk]) = chunk.size := by simp [lastSize]
      have width : span Chunk.size (before ++ [chunk]) = span Chunk.size before + chunk.size := by
        simp
      rw [width] at inside
      rw [width, last] at tagged
      simp only [span_cons] at tiles
      rw [if_pos (unit_lt.mpr (by omega)), bind_ok (load_ok represents.placed inside _), tagged.1,
        bind_ok (assertTrue_ok (by simp)), bind_ok (load_ok represents.placed inside _), tagged.2,
        Chunk.tag_isAllocated]
      refine assertTrue_ok ?_
      rcases separated with allocated | allocated <;> simp [allocated]

/-- The paranoid check passes at every chunk and at the end of the space. -/
theorem paranoidCheckChunk_ok {E : Env σ} (constant : ∀ e, E.totalSpace e = total)
    (represents : Represents total s heap) {left right : List Chunk}
    (here : heap.chunks = left ++ right) :
    paranoidCheckChunk build E (s.unit (span Chunk.size left)) s = .ok ((), s) := by
  rw [paranoidCheckChunk]
  split
  · have placed := represents.placed
    have tiles := represents.valid.tiles
    have baseNonnull : Pointer.isNull s.baseAddress = false := by
      simpa [State.unit] using unit_nonnull placed 0
    have above : s.baseAddress ≤ s.unit (span Chunk.size left) := Nat.le_add_right _ _
    rw [bind_ok (assertTrue_ok (by simp [unit_nonnull placed])), bind_ok (get_apply s),
      bind_ok (assertTrue_ok (by simp [baseNonnull])),
      bind_ok (assertTrue_ok (by simpa using above)), bind_ok (endOfAddressSpace_ok placed constant)]
    cases right with
    | nil =>
        rw [here, List.append_nil] at tiles
        rw [tiles, if_pos rfl]
        rfl
    | cons chunk after =>
        have wide : 0 < chunk.size := represents.valid.positive chunk (by rw [here]; simp)
        have bound := placed.inside
        have inside := (represents.materialized (chunkAt_here here)).1
        have tagged := (represents.around here).2.1
        rw [here, span_append, span_cons] at tiles
        have fits : (s.unit (span Chunk.size left) + chunkHeaderBytes) %
            2 ^ build.target.addressBits ≤ s.unit total := by
          simp only [State.unit, chunkHeaderBytes]
          rw [Nat.mod_eq_of_lt (by omega)]
          omega
        rw [if_neg (by rw [unit_inj]; omega),
          bind_ok (assertTrue_ok (by simp only [decide_eq_true_eq, unit_lt]; omega)),
          bind_ok (assertTrue_ok (by simpa using fits)),
          bind_ok (paranoidCheckAccess_ok placed inside (by decide)),
          bind_ok (load_ok placed inside _), tagged.2, Chunk.tag_isAllocated, Chunk.tag_size,
          bind_ok (load_ok placed inside _), tagged.1, bind_ok (checkPrevChunk_ok represents here)]
        exact checkNextChunk_ok represents here
  · rfl

end ParanoidCheck

end Picoalloc
