import Picoalloc.Allotments
import Picoalloc.Tags

/-!
Every operation refines its policy. On a state that represents a heap, an
operation on an allocated chunk does not fault, ends in a state that represents
the heap its policy says, and writes headers and links outside the payloads of
the other chunks only.
-/

namespace Picoalloc
open CheckedMachine ByteMemory Tilings

variable {build : Build} {σ : Type} {E : Env σ} {total : Nat} {s : AllocatorState build σ}

section Gaps

variable {gap : Gap}

/-- Registering the rest of a gap and telling the chunk after it closes the heap. -/
theorem fill_ok (opened : Opened total s gap)
    (header : gap.size ≠ 0 → gap.start < s.allocatedSpace) (left : gap.ClosedLeft)
    (right : gap.ClosedRight) {bytes : Nat} (fits : bytes ≤ 32) :
    ∃ s₁ s', registerFreeSpace build (s.unit gap.start) (lastSize Chunk.size 0 gap.before) gap.size
          s = .ok (lastSize Chunk.size 0 (gap.fill build.target).before, s₁) ∧
      Frame (Outside s.allocatedSpace gap.chunkAt) s s₁ ∧
      storeFinalPrevSize build (s.unit (gap.start + gap.size)) (s.unit total) bytes
          (lastSize Chunk.size 0 (gap.fill build.target).before) s₁ = .ok ((), s') ∧
      Represents total s' ((gap.fill build.target).heap s.allocatedSpace) ∧
      Frame (Outside s.allocatedSpace gap.chunkAt) s s' := by
  obtain ⟨s₁, register, opened₁, frame₁⟩ :=
    registerFreeSpace_place opened (Nat.le_refl _) header fun _ => left
  have frame₁ := frame₁.mono fun _ outside => outside.around
  obtain ⟨s', close, represents, frame'⟩ := storeFinalPrevSize_close opened₁
    (Gap.fill_size build.target gap) (Gap.fill_separated build.target gap right) fits
  rw [frame₁.allocatedSpace] at represents frame'
  refine ⟨s₁, s', register, frame₁, ?_, represents, frame₁.trans (frame'.mono fun place outside =>
    outside.mono fun p n here =>
      ⟨n, Nat.le_refl _, Gap.placeFree_chunkAt build.target gap.size (Nat.le_refl _) p _ here⟩)⟩
  rw [← close, ← frame₁.unit (gap.start + gap.size), ← frame₁.unit total, ← Gap.fill_start build.target]
  rfl

theorem fill_checked (constant : ∀ e, E.totalSpace e = total) (opened : Opened total s gap)
    {init : List Chunk} {size : Nat} (ends : gap.before = init ++ [⟨size, true⟩])
    (header : gap.size ≠ 0 → gap.start < s.allocatedSpace) (right : gap.ClosedRight) {bytes : Nat}
    (fits : bytes ≤ 32) :
    ∃ s₁ s', registerFreeSpace build (s.unit gap.start) size gap.size s =
          .ok (lastSize Chunk.size 0 (gap.fill build.target).before, s₁) ∧
      Frame (Outside s.allocatedSpace gap.chunkAt) s s₁ ∧
      storeFinalPrevSize build (s.unit (gap.start + gap.size)) (s.unit total) bytes
          (lastSize Chunk.size 0 (gap.fill build.target).before) s₁ = .ok ((), s') ∧
      Represents total s' ((gap.fill build.target).heap s.allocatedSpace) ∧
      Frame (Outside s.allocatedSpace gap.chunkAt) s s' ∧
      ∀ left rest, left ++ rest = gap.before ∨ left = (gap.fill build.target).before →
        paranoidCheckChunk build E (s.unit (span Chunk.size left)) s' = .ok ((), s') := by
  have left : gap.ClosedLeft := by
    rw [Gap.ClosedLeft, ends]
    simp
  have last : lastSize Chunk.size 0 gap.before = size := by
    rw [ends]
    simp [lastSize]
  obtain ⟨s₁, s', register, frame₁, close, represents, frame⟩ :=
    fill_ok opened header left right fits
  rw [last] at register
  refine ⟨s₁, s', register, frame₁, close, represents, frame, fun left rest boundary => ?_⟩
  obtain ⟨filler, filled⟩ := Gap.fill_before build.target gap
  rw [← frame.unit]
  rcases boundary with early | rfl
  · refine paranoidCheckChunk_ok constant represents
      (show _ = left ++ (rest ++ filler ++ (gap.fill build.target).after) from ?_)
    rw [Gap.heap, filled, ← early]
    simp
  · exact paranoidCheckChunk_ok constant represents rfl

theorem fillBehind_ok (constant : ∀ e, E.totalSpace e = total) {s₂ : AllocatorState build σ}
    (opened : Opened total s₂ gap) (unit : ∀ place, s₂.unit place = s.unit place)
    {before : List Chunk} {new size : Nat} (ends : gap.before = before ++ [⟨new, true⟩])
    (sized : gap.size = size) (header : size ≠ 0 → span Chunk.size before + new < s₂.allocatedSpace)
    (right : gap.ClosedRight) :
    ∃ s₃ s', registerFreeSpace build (s.unit (span Chunk.size before + new)) new size s₂ =
          .ok (lastSize Chunk.size 0 (gap.fill build.target).before, s₃) ∧
      storeFinalPrevSize build (s.unit (span Chunk.size before + new + size)) (s.unit total)
          chunkHeaderBytes (lastSize Chunk.size 0 (gap.fill build.target).before) s₃ = .ok ((), s') ∧
      Represents total s' ((gap.fill build.target).heap s₂.allocatedSpace) ∧
      Frame (Outside s₂.allocatedSpace gap.chunkAt) s₂ s' ∧
      paranoidCheckChunk build E (s.unit (span Chunk.size before)) s' = .ok ((), s') ∧
      paranoidCheckChunk build E (s.unit (span Chunk.size before + new)) s' = .ok ((), s') ∧
      paranoidCheckChunk build E (s.unit (span Chunk.size before + new + size)) s' = .ok ((), s') := by
  subst sized
  have start : gap.start = span Chunk.size before + new := by
    rw [Gap.start, ends]
    simp
  obtain ⟨s₃, s', register, _, close, represents, frame, check⟩ := fill_checked constant opened ends
    (fun remains => start ▸ header remains) right (show chunkHeaderBytes ≤ 32 by decide)
  rw [unit, start] at register
  rw [unit, unit, start] at close
  refine ⟨s₃, s', register, close, represents, frame, ?_, ?_, ?_⟩
  · rw [← unit]
    exact check before [⟨new, true⟩] (Or.inl ends.symm)
  · rw [← unit, ← start]
    exact check gap.before [] (Or.inl (List.append_nil _))
  · rw [← unit, ← start, ← Gap.fill_start build.target]
    exact check (gap.fill build.target).before [] (Or.inr rfl)

end Gaps

section Free

variable {heap : Heap} {before after : List Chunk} {size : Nat}

structure Holds (total : Nat) (s : AllocatorState build σ) (before : List Chunk) (size : Nat)
    (after : List Chunk) : Prop where
  positive : 0 < size
  granted : span Chunk.size before + size ≤ s.allocatedSpace
  tiles : span Chunk.size before + size + span Chunk.size after = total
  prevChunkSize : view s .prevChunkSize (span Chunk.size before) = lastSize Chunk.size 0 before
  tag : view s .size (span Chunk.size before) = Chunk.tag ⟨size, true⟩
  header : Pointer.uncheckedSub build.target (s.unit (span Chunk.size before + headerSize))
    headerSize = s.unit (span Chunk.size before)

theorem Represents.holds (represents : Represents total s heap)
    (here : heap.chunks = before ++ ⟨size, true⟩ :: after) : Holds total s before size after := by
  have wide : 0 < size := represents.valid.positive ⟨size, true⟩ (by rw [here]; simp)
  have tiles : span Chunk.size before + size + span Chunk.size after = total := by
    rw [← represents.valid.tiles, here, span_append, span_cons, Nat.add_assoc]
  obtain ⟨prev, tag⟩ := (represents.around here).2.1
  refine ⟨wide, (represents.materialized (chunkAt_here here)).2 rfl, tiles, prev, tag, ?_⟩
  simp only [headerSize]
  rw [sub_units represents.placed _ _ (by omega) (by omega), Nat.add_sub_cancel]

/-- `free` gives the chunk and its free neighbours back as one free chunk. -/
theorem free_ok (constant : ∀ e, E.totalSpace e = total) (represents : Represents total s heap)
    (here : heap.chunks = before ++ ⟨size, true⟩ :: after) :
    ∃ s', free build E (s.unit (span Chunk.size before + headerSize)) s = .ok ((), s') ∧
      Represents total s' (heap.free build.target (span Chunk.size before)) ∧
      Frame (Outside s.allocatedSpace (heap.Others (span Chunk.size before))) s s' := by
  have placed := represents.placed
  have holds := represents.holds here
  have wide := holds.positive
  have granted := holds.granted
  have inside : span Chunk.size before < s.allocatedSpace := by omega
  have baseNonnull : Pointer.isNull s.baseAddress = false := by
    simpa [State.unit] using unit_nonnull placed 0
  -- The heap is opened at the chunk, which takes over both neighbours.
  have opened := represents.openAt here
  have closed := Gap.absorbPrev_closed opened.valid
  have low := Gap.absorbPrev_start build.target ⟨before, size, after, heap.bins⟩
  have wide₁ := Gap.absorbPrev_size build.target ⟨before, size, after, heap.bins⟩
  obtain ⟨s₁, mergePrev, opened₁, frame₁⟩ := mergePrevFree_ok opened
  generalize shape₁ : Gap.absorbPrev build.target ⟨before, size, after, heap.bins⟩ = gap₁ at *
  have closedNext := Gap.absorbNext_closed opened₁.valid
  have wide₂ := Gap.absorbNext_size build.target gap₁
  have before₂ := Gap.absorbNext_before build.target gap₁
  obtain ⟨s₂, mergeNext, opened₂, frame₂⟩ := mergeNextFree_ok opened₁
  generalize shape₂ : gap₁.absorbNext build.target = gap₂ at *
  have start₂ : gap₂.start = gap₁.start := by rw [Gap.start, Gap.start, before₂]
  have nonempty : gap₂.size ≠ 0 := by
    simp only at wide₁
    omega
  have inside₂ : gap₂.start < s₂.allocatedSpace := by
    simp only [Gap.start] at low
    rw [frame₂.allocatedSpace, frame₁.allocatedSpace, start₂, Gap.start]
    omega
  obtain ⟨s₃, s₄, register, _, close, represents₄, frame₄⟩ := fill_ok opened₂ (fun _ => inside₂)
    (by rw [Gap.ClosedLeft, before₂]; exact closed) closedNext (freeChunkHeader_fits build.target)
  have unit₁ := frame₁.unit
  have unit₂ : ∀ place, s₂.unit place = s.unit place := fun place =>
    (frame₂.unit place).trans (unit₁ place)
  have unit₄ : ∀ place, s₄.unit place = s.unit place := fun place =>
    (frame₄.unit place).trans (unit₂ place)
  have last := Gap.fill_last build.target gap₂ nonempty
  rw [unit₁, unit₁] at mergeNext
  rw [unit₂, start₂, before₂, last] at register
  rw [unit₂, unit₂, start₂, last] at close
  obtain ⟨rest, filled⟩ := Gap.fill_before build.target gap₂
  have check := paranoidCheckChunk_ok constant represents₄
    (show _ = gap₂.before ++ (rest ++ (gap₂.fill build.target).after) by
      rw [Gap.heap, filled, List.append_assoc])
  rw [unit₄, ← Gap.start, start₂] at check
  have space₂ : s₂.allocatedSpace = s.allocatedSpace :=
    frame₂.allocatedSpace.trans frame₁.allocatedSpace
  have end₂ := opened₂.end_le
  rw [start₂] at end₂
  refine ⟨s₄, ?_, ?_, ?_⟩
  · rw [Picoalloc.free, bind_ok (get_apply s), bind_ok (paranoidAssert_ok (by simp [baseNonnull])),
      holds.header, bind_ok (paranoidCheckChunk_ok constant represents here),
      bind_ok (load_ok placed inside _), bind_ok (load_ok placed inside _), holds.tag,
      holds.prevChunkSize, Chunk.tag_isAllocated, bind_ok (paranoidAssert_ok rfl), Chunk.tag_size]
    refine (bind_ok mergePrev).trans ?_
    simp only []
    rw [bind_ok (endOfAddressSpace_ok opened₁.placed constant), unit₁,
      add_units placed _ _ opened₁.end_le, bind_ok mergeNext, bind_ok register,
      add_units placed _ _ end₂, bind_ok close]
    exact check
  · rw [Heap.free, Heap.split_here represents.valid here, represents.space]
    simp only [shape₁, shape₂]
    rw [← space₂]
    exact represents₄
  · rw [space₂] at frame₄
    rw [frame₁.allocatedSpace] at frame₂
    refine (frame₁.mono fun v outside => ?_).trans
      ((frame₂.mono fun v outside => ?_).trans (frame₄.mono fun v outside => ?_))
    · exact outside.mono fun p n other => ⟨n, Nat.le_refl _, Heap.others_gap here other _⟩
    · refine outside.mono fun p n other => ⟨n, Nat.le_refl _, ?_⟩
      rw [← shape₁]
      exact Gap.absorbPrev_allocated _ p n (Heap.others_gap here other _)
    · refine outside.mono fun p n other => ⟨n, Nat.le_refl _, ?_⟩
      rw [← shape₂, ← shape₁]
      exact Gap.absorbNext_allocated _ p n (Gap.absorbPrev_allocated _ p n (Heap.others_gap here other _))

end Free

section Requests

def State.ask (E : Env σ) (s : AllocatorState build σ) (need : Nat) :
    Bool × AllocatorState build σ :=
  if s.allocatedSpace < need then
    let (isOk, env) := E.expandMemoryUntil s.env s.baseAddress need
    (isOk, { s with env, trace := .expandMemoryUntil s.baseAddress need isOk :: s.trace
                    allocatedSpace := if isOk then need else s.allocatedSpace })
  else (true, s)

theorem expandTo_ok (need : Nat) :
    expandTo build E need s = .ok ((s.ask E need).1, (s.ask E need).2) := by
  rw [expandTo, bind_ok (get_apply s), State.ask]
  by_cases short : s.allocatedSpace < need
  · rw [if_pos short, if_pos short]
    rcases answer : E.expandMemoryUntil s.env s.baseAddress need with ⟨isOk, env⟩
    have asked : expandMemoryUntil build E s.baseAddress need s = .ok (isOk,
        { s with env, trace := .expandMemoryUntil s.baseAddress need isOk :: s.trace }) := by
      rw [expandMemoryUntil, bind_ok (get_apply s), answer]
      rfl
    rw [bind_ok asked]
    cases isOk <;> rfl
  · rw [if_neg short, if_neg short]
    rfl

section Answers

variable (E) (s) (need : Nat)

@[simp] theorem ask_baseAddress : (s.ask E need).2.baseAddress = s.baseAddress := by
  rw [State.ask]
  split <;> rfl

@[simp] theorem ask_memory : (s.ask E need).2.memory = s.memory := by
  rw [State.ask]
  split <;> rfl

@[simp] theorem ask_mask : (s.ask E need).2.freeListsWithUnallocatedMemory =
    s.freeListsWithUnallocatedMemory := by
  rw [State.ask]
  split <;> rfl

@[simp] theorem ask_firstInFreeList : (s.ask E need).2.firstInFreeList = s.firstInFreeList := by
  rw [State.ask]
  split <;> rfl

@[simp] theorem ask_payloadWrites : (s.ask E need).2.payloadWrites = s.payloadWrites := by
  rw [State.ask]
  split <;> rfl

@[simp] theorem ask_unit (place : Nat) : (s.ask E need).2.unit place = s.unit place := by
  simp [State.unit]

@[simp] theorem ask_view (field : Field) : view (s.ask E need).2 field = view s field := by
  funext place
  simp [view]

theorem ask_allocatedSpace : (s.ask E need).2.allocatedSpace =
    if (s.ask E need).1 then max s.allocatedSpace need else s.allocatedSpace := by
  rw [State.ask]
  split
  · next short =>
      rcases E.expandMemoryUntil s.env s.baseAddress need with ⟨_ | _, env⟩
      · rfl
      · exact (max_eq_right short.le).symm
  · next enough => exact (max_eq_left (Nat.le_of_not_lt enough)).symm

end Answers

theorem ask_zero (E : Env σ) (s : AllocatorState build σ) : s.ask E 0 = (true, s) := by
  simp [State.ask]

theorem ask_placed (placed : Placed total s) {need : Nat} (inside : need ≤ total) :
    Placed total (s.ask E need).2 := by
  rw [State.ask]
  split
  · next short =>
      have mark := placed.granted_eq
      have request : granted s.baseAddress s.trace < need := mark ▸ short
      rcases E.expandMemoryUntil s.env s.baseAddress need with ⟨_ | _, env⟩
      · exact ⟨placed.nonnull, placed.aligned, placed.inside, placed.small, mark, placed.within,
          request, inside, placed.requests⟩
      · refine ⟨placed.nonnull, placed.aligned, placed.inside, placed.small, ?_, inside, request,
          inside, placed.requests⟩
        simp only [granted, if_true, mark]
        exact max_eq_left short.le
  · exact placed

theorem Represents.asked {heap : Heap} (represents : Represents total s heap) {need : Nat}
    (inside : need ≤ total) :
    Represents total (s.ask E need).2
      (if (s.ask E need).1 then heap.expand need else heap) := by
  have grown : s.allocatedSpace ≤ (s.ask E need).2.allocatedSpace := by
    rw [ask_allocatedSpace]
    split <;> omega
  have placed := ask_placed (E := E) represents.placed inside
  have valid := represents.valid
  have space := represents.space
  refine ⟨placed, ?_, ?_, ?_, ?_⟩
  · split
    · exact ⟨valid.positive, valid.tiles, valid.separated, valid.registered, valid.nodup,
        materialized_mono (Nat.le_max_left _ _) (fun _ _ at' => at') valid.materialized,
        max_le valid.within inside⟩
    · exact valid
  · rw [ask_allocatedSpace]
    split
    · rw [Heap.expand, space]
    · exact space
  · have index : Index (s.ask E need).2 heap.bins := by
      have old := represents.index
      refine ⟨by simpa using old.mask, ?_, ?_, old.nodup, old.apart, fun bin place member =>
        (old.granted bin place member).trans_le grown⟩
      · intro bin small
        rw [ask_firstInFreeList, old.first bin small, link_congr (ask_baseAddress E s need)]
      · intro bin
        rw [ask_view, ask_view, link_congr (ask_baseAddress E s need)]
        exact old.linked bin
    split <;> exact index
  · have tags : Laid Chunk.size (Tagged (s.ask E need).2) 0 0 heap.chunks :=
      laid_kept (fun place chunk _ => by simp) represents.tags
    split <;> exact tags

theorem withFreeHeader_ok {offset freeSpace : Nat} (fits : offset + 1 < 2 ^ 32) :
    withFreeHeader build offset freeSpace = .ok (endOffset offset freeSpace) := by
  rw [withFreeHeader, endOffset]
  by_cases filled : freeSpace = 0
  · simp [filled, Size.isEmpty]
  · rw [if_pos (by simpa [Size.isEmpty] using filled), if_neg filled]
    exact uncheckedAdd_ok fits

/-- An operation that decides first, asks for memory next and commits last: it fails
in place when it decides to or is refused, else it ends as decided. -/
def Settles {α : Type} (E : Env σ) (total : Nat) (kept : Nat → Chunk → Prop)
    (run : Run build σ (Option α)) (finish : AllocatorState build σ → AllocatorState build σ)
    (s : AllocatorState build σ) : Option (Nat × α × Heap) → Prop
  | none => run s = .ok (none, s)
  | some (need, result, heap) =>
      need ≤ total ∧
        if (s.ask E need).1 then
          ∃ s', run s = .ok (some result, finish s') ∧ Represents total s' heap ∧
            Frame (Outside (s.ask E need).2.allocatedSpace kept) (s.ask E need).2 s'
        else run s = .ok (none, (s.ask E need).2)

theorem Settles.commit {α : Type} {kept : Nat → Chunk → Prop} {run : Run build σ (Option α)}
    {finish : AllocatorState build σ → AllocatorState build σ} {need : Nat} {result : α}
    {heap : Heap} (commit : Run build σ α) (inside : need ≤ total)
    (decided : run s = (do
      let isOk ← expandTo build E need
      if !isOk then return none
      else do
        let a ← commit
        return some a : Run build σ (Option α)) s)
    (done : (s.ask E need).1 = true →
      ∃ s', commit (s.ask E need).2 = .ok (result, finish s') ∧ Represents total s' heap ∧
        Frame (Outside (s.ask E need).2.allocatedSpace kept) (s.ask E need).2 s') :
    Settles E total kept run finish s (some (need, result, heap)) := by
  refine ⟨inside, ?_⟩
  rw [decided, bind_ok (expandTo_ok need)]
  cases answer : (s.ask E need).1 with
  | false => rfl
  | true =>
      obtain ⟨s', committed, represents, frame⟩ := done answer
      exact ⟨s', bind_ok committed, represents, frame⟩

end Requests

section Resize

variable {heap : Heap} {before after : List Chunk} {old : Nat}

theorem shrinkInplace_reads (constant : ∀ e, E.totalSpace e = total)
    (represents : Represents total s heap) (here : heap.chunks = before ++ ⟨old, true⟩ :: after)
    {newSize new : Nat} (nonempty : newSize ≠ 0)
    (added : Size.uncheckedAdd build newSize headerSize = .ok new) :
    shrinkInplace build E (s.unit (span Chunk.size before + headerSize)) newSize s =
      (if new ≥ old then return ()
      else do
        let freeSpace ← Size.uncheckedSub build old new
        store build (s.unit (span Chunk.size before)) .size (ChunkSize.newAllocated new)
        let endOfSpace ← endOfAddressSpace build E
        let freeSpace ← mergeNextFree build
          (Pointer.uncheckedAdd build.target (s.unit (span Chunk.size before)) old) endOfSpace freeSpace
        let nextChunk := Pointer.uncheckedAdd build.target (s.unit (span Chunk.size before)) new
        let _ ← registerFreeSpace build nextChunk new freeSpace
        let finalChunk := Pointer.uncheckedAdd build.target nextChunk freeSpace
        storeFinalPrevSize build finalChunk endOfSpace chunkHeaderBytes freeSpace
        paranoidCheckChunk build E (s.unit (span Chunk.size before))
        paranoidCheckChunk build E nextChunk
        paranoidCheckChunk build E finalChunk : Run build σ Unit) s := by
  have holds := represents.holds here
  have wide := holds.positive
  have granted := holds.granted
  have inside : span Chunk.size before < s.allocatedSpace := by omega
  rw [shrinkInplace, if_neg (by simpa [Size.isEmpty] using nonempty), bind_ok (lift_ok added s),
    holds.header, bind_ok (paranoidCheckChunk_ok constant represents here),
    bind_ok (load_ok represents.placed inside _), holds.tag, Chunk.tag_isAllocated,
    bind_ok (paranoidAssert_ok rfl), Chunk.tag_size]

theorem shrinkInplace_covered (constant : ∀ e, E.totalSpace e = total)
    (represents : Represents total s heap) (here : heap.chunks = before ++ ⟨old, true⟩ :: after)
    {new : Nat} (nonempty : new ≠ 0) (bound : new + headerSize < 2 ^ sizeBits)
    (covered : old ≤ new + headerSize) :
    shrinkInplace build E (s.unit (span Chunk.size before + headerSize)) new s = .ok ((), s) := by
  rw [shrinkInplace_reads constant represents here nonempty (uncheckedAdd_ok bound), if_pos covered]
  rfl

/-- `shrink_inplace` cuts the end of the chunk off as free space. -/
theorem shrinkInplace_ok (constant : ∀ e, E.totalSpace e = total)
    (represents : Represents total s heap) (here : heap.chunks = before ++ ⟨old, true⟩ :: after)
    {new : Nat} (nonempty : new ≠ 0) (bound : new + headerSize < 2 ^ sizeBits) :
    ∃ s', shrinkInplace build E (s.unit (span Chunk.size before + headerSize)) new s = .ok ((), s') ∧
      Represents total s' (heap.shrink build.target (span Chunk.size before) new) ∧
      Frame (Outside s.allocatedSpace (heap.Kept (span Chunk.size before)
        (min old (new + headerSize)))) s s' := by
  have placed := represents.placed
  have holds := represents.holds here
  have wide := holds.positive
  have granted := holds.granted
  have inside : span Chunk.size before < s.allocatedSpace := by omega
  have split := Heap.split_here represents.valid here
  have positive : 0 < new + headerSize := Nat.succ_pos new
  rw [shrinkInplace_reads constant represents here nonempty (uncheckedAdd_ok bound)]
  simp only [Heap.shrink, split]
  generalize new + headerSize = new at *
  by_cases large : new ≥ old
  · rw [if_pos large, if_pos large]
    exact ⟨s, rfl, represents, Frame.refl _ _⟩
  rw [if_neg large, if_neg large, Nat.min_eq_right (by omega)]
  -- The heap is opened behind the chunk, which is cut and lets the gap grow.
  have opened := represents.seam (show heap.chunks = (before ++ [⟨old, true⟩]) ++ after by simp [here])
  have commuted := Gap.absorbNext_resize build.target
    (show (Gap.mk (before ++ [⟨old, true⟩]) 0 after heap.bins).before = _ from rfl)
    (show new ≤ 0 + old by omega)
  have keeps : ∀ p n, heap.Kept (span Chunk.size before) new p ⟨n, true⟩ →
      (Gap.resize before old new ⟨before ++ [⟨old, true⟩], 0, after, heap.bins⟩).chunkAt
        p ⟨n, true⟩ := fun p n kept => Heap.kept_resize here (by omega) kept
  obtain ⟨s₁, store, opened₁, frame₁⟩ := storeSize_resize opened rfl positive
    (by simp only; omega) (by omega)
  have start₁ : (Gap.resize before old new ⟨before ++ [⟨old, true⟩], 0, after, heap.bins⟩).start =
      span Chunk.size before + new := by
    simp [Gap.start, Gap.resize]
  have size₁ : (Gap.resize before old new ⟨before ++ [⟨old, true⟩], 0, after, heap.bins⟩).size =
      old - new := by
    simp [Gap.resize]
  have ends₁ : (Gap.resize before old new ⟨before ++ [⟨old, true⟩], 0, after, heap.bins⟩).before =
      before ++ [⟨new, true⟩] := rfl
  generalize Gap.resize before old new ⟨before ++ [⟨old, true⟩], 0, after, heap.bins⟩ = gap₁ at *
  have closed₂ := Gap.absorbNext_closed opened₁.valid
  have wide₂ := Gap.absorbNext_size build.target gap₁
  have before₂ := Gap.absorbNext_before build.target gap₁
  have keeps₂ : ∀ p n, gap₁.chunkAt p ⟨n, true⟩ →
      (gap₁.absorbNext build.target).chunkAt p ⟨n, true⟩ := Gap.absorbNext_allocated build.target
  obtain ⟨s₂, mergeNext, opened₂, frame₂⟩ := mergeNextFree_ok opened₁
  generalize gap₁.absorbNext build.target = gap₂ at *
  have start₂ : gap₂.start = span Chunk.size before + new := by rw [Gap.start, before₂, ← start₁]; rfl
  have space₁ := frame₁.allocatedSpace
  have space₂ := frame₂.allocatedSpace.trans space₁
  have unit₁ := frame₁.unit
  have unit₂ : ∀ place, s₂.unit place = s.unit place := fun place =>
    (frame₂.unit place).trans (unit₁ place)
  obtain ⟨s₃, s₄, register, close, represents₄, frame₄, checkHere, checkNext, checkFinal⟩ :=
    fillBehind_ok constant opened₂ unit₂ (before₂.trans ends₁) rfl (fun _ => by rw [space₂]; omega)
      closed₂
  have last := Gap.fill_last build.target gap₂ (by omega)
  have end₂ := opened₂.end_le
  have behind : span Chunk.size before + new + (old - new) = span Chunk.size before + old := by omega
  rw [start₁, size₁, unit₁, unit₁, behind] at mergeNext
  rw [last] at register close
  rw [start₂] at end₂
  refine ⟨s₄, ?_, ?_, ?_⟩
  · rw [bind_ok (lift_ok (uncheckedSub_ok (by omega)) s), bind_ok store,
      bind_ok (endOfAddressSpace_ok opened₁.placed constant), unit₁,
      add_units placed _ _ (by omega), bind_ok mergeNext, add_units placed _ _ (by omega),
      bind_ok register, add_units placed _ _ end₂, bind_ok close, bind_ok checkHere,
      bind_ok checkNext]
    exact checkFinal
  · rw [Heap.resize, split, represents.space, ← space₂]
    simp only [← commuted]
    exact represents₄
  · rw [space₁] at frame₂
    rw [space₂] at frame₄
    have head : Outside s.allocatedSpace gap₁.chunkAt (span Chunk.size before) := by
      rw [← space₁]
      exact (Gap.outside_of_chunkAt opened₁.valid (keeps _ new (Or.inl ⟨rfl, rfl⟩))).around
    refine (frame₁.mono fun v same => ?_).trans
      ((frame₂.mono fun v outside => ?_).trans (frame₄.mono fun v outside => ?_))
    · rw [same]
      exact head.mono fun p n kept => ⟨n, Nat.le_refl _, keeps p n kept⟩
    · exact outside.mono fun p n kept => ⟨n, Nat.le_refl _, keeps p n kept⟩
    · exact outside.mono fun p n kept => ⟨n, Nat.le_refl _, keeps₂ p n (keeps p n kept)⟩

section Grow

variable {new next : Nat} {rest : List Chunk}

theorem commitGrow_ok (constant : ∀ e, E.totalSpace e = total) (represents : Represents total s heap)
    (here : heap.chunks = before ++ ⟨old, true⟩ :: ⟨next, false⟩ :: rest) (larger : old < new)
    (enough : new ≤ old + next)
    (space : endOffset (span Chunk.size before + new) (old + next - new) ≤ s.allocatedSpace) :
    ∃ s', commitGrow build E (s.unit (span Chunk.size before)) new
        (s.unit (span Chunk.size before + old)) next (s.unit (span Chunk.size before + new))
        (old + next - new) (s.unit total) s = .ok (new - headerSize, s') ∧
      Represents total s' (heap.resize build.target (span Chunk.size before) new) ∧
      Frame (Outside s.allocatedSpace (ChunkAt 0 heap.chunks)) s s' := by
  have placed := represents.placed
  have holds := represents.holds here
  have tiles := holds.tiles
  simp only [span_cons] at tiles
  -- The heap is opened behind the chunk, the gap takes over the free chunk and the chunk grows.
  have chunks : heap.chunks = (before ++ [⟨old, true⟩]) ++ ⟨next, false⟩ :: rest := by simp [here]
  have opened := represents.seam chunks
  have around : ∀ p n, ChunkAt 0 heap.chunks p ⟨n, true⟩ →
      Gap.chunkAt ⟨before ++ [⟨old, true⟩], 0, ⟨next, false⟩ :: rest, heap.bins⟩ p ⟨n, true⟩ := by
    intro p n at'
    rw [chunks] at at'
    simpa [Gap.chunkAt, Gap.start] using (tileAt_append 0 p _ _ _).mp at'
  have start₀ : (Gap.mk (before ++ [⟨old, true⟩]) 0 (⟨next, false⟩ :: rest) heap.bins).start =
      span Chunk.size before + old := by simp [Gap.start]
  have resized : heap.resize build.target (span Chunk.size before) new =
      ((((Gap.mk (before ++ [⟨old, true⟩]) 0 (⟨next, false⟩ :: rest) heap.bins).absorbNext
        build.target).resize before old new).fill build.target).heap heap.allocatedSpace := by
    rw [Heap.resize, Heap.split_here represents.valid here]
  obtain ⟨s₁, unregister, opened₁, frame₁⟩ := unregisterNext_ok opened rfl
  have size₁ : ((Gap.mk (before ++ [⟨old, true⟩]) 0 (⟨next, false⟩ :: rest) heap.bins).absorbNext
      build.target).size = next := Nat.zero_add next
  have ends₁ : ((Gap.mk (before ++ [⟨old, true⟩]) 0 (⟨next, false⟩ :: rest) heap.bins).absorbNext
      build.target).before = before ++ [⟨old, true⟩] := rfl
  have closed₁ := Gap.absorbNext_closed opened.valid
  have keeps₁ := fun p n at' => Gap.absorbNext_allocated build.target p n (around p n at')
  generalize (Gap.mk (before ++ [⟨old, true⟩]) 0 (⟨next, false⟩ :: rest) heap.bins).absorbNext
    build.target = gap₁ at *
  have start₁ : gap₁.start = span Chunk.size before + old := by
    rw [Gap.start, ends₁]
    simp
  have fits : new ≤ gap₁.size + old := by omega
  have above : span Chunk.size before + new ≤ s.allocatedSpace :=
    (Nat.le_add_right _ _).trans space
  obtain ⟨s₂, store, opened₂, frame₂⟩ := storeSize_resize opened₁ ends₁ (by omega) fits
    (by rw [frame₁.allocatedSpace]; exact above)
  have start₂ : (gap₁.resize before old new).start = span Chunk.size before + new := by
    simp [Gap.resize, Gap.start]
  have size₂ : (gap₁.resize before old new).size = old + next - new := by
    simp only [Gap.resize, size₁]
    omega
  have ends₂ : (gap₁.resize before old new).before = before ++ [⟨new, true⟩] := rfl
  have closed₂ : (gap₁.resize before old new).ClosedRight := closed₁
  have keeps₂ := fun p n at' =>
    Gap.resize_wider ends₁ fits larger.le (keeps₁ p n at')
  generalize gap₁.resize before old new = gap₂ at *
  have space₂ : s₂.allocatedSpace = s.allocatedSpace :=
    frame₂.allocatedSpace.trans frame₁.allocatedSpace
  have unit₁ := frame₁.unit
  have unit₂ : ∀ place, s₂.unit place = s.unit place := fun place =>
    (frame₂.unit place).trans (unit₁ place)
  -- what remains behind the grown chunk has its header inside the space that was asked for
  obtain ⟨s₃, s₄, register, close, represents₄, frame₄, checkHere, checkNext, checkFinal⟩ :=
    fillBehind_ok constant opened₂ unit₂ ends₂ size₂ (fun remains => by
      rw [space₂]
      rw [endOffset, if_neg (by omega), freeChunkHeaderSize] at space
      omega) closed₂
  have end₂ := opened₂.end_le
  rw [start₀, Nat.add_zero] at unregister
  rw [unit₁] at store
  rw [start₂, size₂] at end₂
  refine ⟨s₄, ?_, ?_, ?_⟩
  · rw [commitGrow, bind_ok (sizeToBinRoundDown_ok next), bind_ok unregister, bind_ok store,
      bind_ok register, add_units placed _ _ end₂, bind_ok close, bind_ok checkHere,
      bind_ok checkNext, bind_ok checkFinal]
    exact lift_ok (uncheckedSub_ok (by simp only [headerSize]; omega)) s₄
  · rw [resized, represents.space, ← space₂]
    exact represents₄
  · rw [space₂] at frame₄
    refine (frame₁.mono fun v outside => ?_).trans
      ((frame₂.mono fun v same => ?_).trans (frame₄.mono fun v outside => ?_))
    · exact outside.mono fun p n at' => ⟨n, Nat.le_refl _, around p n at'⟩
    · rw [same]
      exact (Gap.outside_of_chunkAt opened.valid (around _ old (chunkAt_here here))).around.mono
        fun p n at' => ⟨n, Nat.le_refl _, around p n at'⟩
    · exact outside.mono keeps₂

theorem growInto_ok (constant : ∀ e, E.totalSpace e = total) (represents : Represents total s heap)
    (here : heap.chunks = before ++ ⟨old, true⟩ :: ⟨next, false⟩ :: rest) (larger : old < new)
    (enough : new ≤ old + next) :
    Settles E total (ChunkAt 0 heap.chunks)
      (growInto build E (s.unit (span Chunk.size before)) new old
        (s.unit (span Chunk.size before + old)) next (s.unit total)) id s
      (some (endOffset (span Chunk.size before + new) (old + next - new), new - headerSize,
        (heap.expand (endOffset (span Chunk.size before + new) (old + next - new))).resize
          build.target (span Chunk.size before) new)) := by
  have placed := represents.placed
  have small := placed.small
  have holds := represents.holds here
  have wide := holds.positive
  have tiles := holds.tiles
  simp only [unitLimit, span_cons] at small tiles
  have limit : endOffset (span Chunk.size before + new) (old + next - new) ≤
      span Chunk.size before + (old + next) := by
    rw [endOffset, freeChunkHeaderSize]
    split <;> omega
  refine Settles.commit (commitGrow build E (s.unit (span Chunk.size before)) new
    (s.unit (span Chunk.size before + old)) next (s.unit (span Chunk.size before + new))
    (old + next - new) (s.unit total)) (by omega) ?_ fun granted => ?_
  · rw [growInto, bind_ok (lift_ok (uncheckedAdd_ok (by omega)) s), if_neg (by omega),
      bind_ok (lift_ok (uncheckedSub_ok (by omega)) s), bind_ok (get_apply s),
      add_units placed _ _ (by omega), bind_ok (lift_ok (offset_of_unit placed (by omega)) s),
      bind_ok (lift_ok (withFreeHeader_ok (by omega)) s)]
  · generalize need_eq : endOffset (span Chunk.size before + new) (old + next - new) = need at *
    have represents' := represents.asked (E := E) (show need ≤ total by omega)
    have space : need ≤ (s.ask E need).2.allocatedSpace := by
      rw [ask_allocatedSpace, if_pos granted]
      exact le_max_right _ _
    rw [if_pos granted] at represents'
    have committed := commitGrow_ok constant represents'
      (show (heap.expand need).chunks = _ from here) larger enough (by rw [need_eq]; exact space)
    simp only [ask_unit] at committed
    exact committed

theorem growInplace_reads (constant : ∀ e, E.totalSpace e = total)
    (represents : Represents total s heap) (here : heap.chunks = before ++ ⟨old, true⟩ :: after)
    (newSize : Nat) :
    growInplace build E (s.unit (span Chunk.size before + headerSize)) newSize s =
      (if newSize + headerSize ≥ 2 ^ sizeBits then return none
      else if old ≥ newSize + headerSize then do
        let usable ← Size.uncheckedSub build old headerSize
        return some usable
      else do
        let endOfSpace ← endOfAddressSpace build E
        if Pointer.uncheckedAdd build.target (s.unit (span Chunk.size before)) old ≥ endOfSpace then
          return none
        else do
          paranoidCheckChunk build E
            (Pointer.uncheckedAdd build.target (s.unit (span Chunk.size before)) old)
          let oldNextSize ← load build
            (Pointer.uncheckedAdd build.target (s.unit (span Chunk.size before)) old) .size
          if ChunkSize.isAllocated oldNextSize then
            return none
          else
            growInto build E (s.unit (span Chunk.size before)) (newSize + headerSize) old
              (Pointer.uncheckedAdd build.target (s.unit (span Chunk.size before)) old)
              (ChunkSize.size oldNextSize) endOfSpace : Run build σ (Option Nat)) s := by
  have holds := represents.holds here
  have wide := holds.positive
  have granted := holds.granted
  have inside : span Chunk.size before < s.allocatedSpace := by omega
  have checked : Size.checkedAdd newSize headerSize =
      if newSize + headerSize ≥ 2 ^ sizeBits then none else some (newSize + headerSize) := by
    rw [Size.checkedAdd]
    split <;> split <;> first | rfl | omega
  by_cases overflow : newSize + headerSize ≥ 2 ^ sizeBits
  · simp only [growInplace, checked, if_pos overflow, pure_apply]
  · simp only [growInplace, checked, if_neg overflow]
    rw [holds.header, bind_ok (paranoidCheckChunk_ok constant represents here),
      bind_ok (load_ok represents.placed inside _), holds.tag, Chunk.tag_isAllocated,
      bind_ok (paranoidAssert_ok rfl), Chunk.tag_size]

theorem growInplace_covered (constant : ∀ e, E.totalSpace e = total)
    (represents : Represents total s heap) (here : heap.chunks = before ++ ⟨old, true⟩ :: after)
    {newSize : Nat} (fits : newSize + headerSize < 2 ^ sizeBits) (covered : newSize + headerSize ≤ old) :
    growInplace build E (s.unit (span Chunk.size before + headerSize)) newSize s =
      .ok (some (old - headerSize), s) := by
  rw [growInplace_reads constant represents here, if_neg (Nat.not_le_of_lt fits), if_pos covered,
    bind_ok (lift_ok (uncheckedSub_ok (by simp only [headerSize] at *; omega)) s)]
  rfl

/-- `grow_inplace` fails in place or grows by its policy. -/
theorem growInplace_ok (constant : ∀ e, E.totalSpace e = total)
    (represents : Represents total s heap) (here : heap.chunks = before ++ ⟨old, true⟩ :: after)
    (newSize : Nat) :
    Settles E total (ChunkAt 0 heap.chunks)
      (growInplace build E (s.unit (span Chunk.size before + headerSize)) newSize) id s
      (heap.growth build.target (span Chunk.size before) newSize) := by
  have placed := represents.placed
  have holds := represents.holds here
  have wide := holds.positive
  have granted := holds.granted
  have tiles := holds.tiles
  have reading := growInplace_reads constant represents here newSize
  rw [Heap.growth, Heap.split_here represents.valid here]
  simp only []
  -- The policy takes the same branches as the code, from the overflow down to the free neighbour.
  by_cases overflow : newSize + headerSize ≥ 2 ^ sizeBits
  · rw [if_pos overflow] at reading ⊢
    exact reading
  rw [if_neg overflow] at reading ⊢
  generalize newSize + headerSize = new at *
  by_cases covered : old ≥ new
  · rw [if_pos covered]
    rw [if_pos covered, bind_ok (lift_ok (uncheckedSub_ok (by simp only [headerSize]; omega)) s)]
      at reading
    refine ⟨Nat.zero_le _, ?_⟩
    rw [ask_zero, if_pos rfl]
    exact ⟨s, reading, represents, Frame.refl _ _⟩
  rw [if_neg covered]
  rw [if_neg covered, bind_ok (endOfAddressSpace_ok placed constant),
    add_units placed _ _ (by omega)] at reading
  cases after with
  | nil =>
      simp only [span_nil, Nat.add_zero] at tiles
      rw [if_pos (by rw [tiles])] at reading
      exact reading
  | cons chunk rest =>
      obtain ⟨next, allocated⟩ := chunk
      have chunks : heap.chunks = (before ++ [⟨old, true⟩]) ++ ⟨next, allocated⟩ :: rest := by
        simp [here]
      have wideNext : 0 < next := represents.valid.positive ⟨next, allocated⟩ (by simp [here])
      have end₁ : span Chunk.size (before ++ [⟨old, true⟩]) = span Chunk.size before + old := by simp
      have insideNext := (represents.materialized (chunkAt_here chunks)).1
      have tagNext := (represents.around chunks).2.1.2
      have check := paranoidCheckChunk_ok constant represents chunks
      rw [end₁] at insideNext tagNext check
      simp only [span_cons] at tiles
      rw [if_neg (by simp only [State.unit, ge_iff_le, not_le]; omega), bind_ok check,
        bind_ok (load_ok placed insideNext _), tagNext, Chunk.tag_isAllocated, Chunk.tag_size]
        at reading
      dsimp only at reading
      cases allocated with
      | true => exact reading
      | false =>
          simp only
          by_cases short : old + next < new
          · rw [if_pos short]
            have small := placed.small
            simp only [unitLimit] at small
            rw [if_neg Bool.false_ne_true, growInto,
              bind_ok (lift_ok (uncheckedAdd_ok (by omega)) s), if_pos short] at reading
            exact reading
          · rw [if_neg short]
            rw [if_neg Bool.false_ne_true] at reading
            have settles := growInto_ok constant represents here (by omega) (Nat.le_of_not_lt short)
            simp only [Settles] at settles ⊢
            rw [reading]
            exact settles

end Grow

end Resize

end Picoalloc
