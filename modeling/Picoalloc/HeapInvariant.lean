import Picoalloc.Sessions

/-!
What a debugger would see of a heap: the chunks met by walking its headers and the
chunks met by following each free list. In every session that permitted calls lead
to, these structures are well formed and agree with each other.
-/

namespace Picoalloc
open CheckedMachine ByteMemory IntrusiveLists Tilings

variable {build : Build} {σ : Type} {E : Env σ} {total : Nat} {memory : Memory}

def readChunk (s : AllocatorState build σ) (place : Nat) : Chunk :=
  ⟨ChunkSize.size (view s .size place), ChunkSize.isAllocated (view s .size place)⟩

/-- The chunks met from the base on. Each takes a unit at least, so `total` steps do. -/
def State.chunks (s : AllocatorState build σ) (total : Nat) : List Chunk :=
  walk Chunk.size (readChunk s) total total 0

def nextOf (s : AllocatorState build σ) (chunk : Nat) : Nat :=
  readWord s.memory (chunk + Field.offset build.target .nextInList)
    (Field.length build.target .nextInList)

def prevOf (s : AllocatorState build σ) (chunk : Nat) : Nat :=
  readWord s.memory (chunk + Field.offset build.target .prevInList)
    (Field.length build.target .prevInList)

def State.freeList (s : AllocatorState build σ) (bin steps : Nat) : List Nat :=
  follow (nextOf s) Pointer.null steps (s.firstInFreeList.getD bin Pointer.null)

def State.binBit (s : AllocatorState build σ) (bin : Nat) : Bool :=
  (s.freeListsWithUnallocatedMemory.secondaryMasks.getD (bin / build.target.maskBits) 0).getLsbD
    (bin % build.target.maskBits)

structure WellFormed (total : Nat) (s : AllocatorState build σ) : Prop where
  positive : ∀ chunk ∈ s.chunks total, 0 < chunk.size
  tiles : span Chunk.size (s.chunks total) = total
  prevChunkSize : ∀ before chunk after, s.chunks total = before ++ chunk :: after →
    view s .prevChunkSize (span Chunk.size before) = lastSize Chunk.size 0 before ∧
      (view s .prevChunkSize (span Chunk.size before) = 0 ↔ before = [])
  separated : ∀ before chunk next after, s.chunks total = before ++ chunk :: next :: after →
    ¬ (chunk.isAllocated = false ∧ next.isAllocated = false)
  ends : ∀ bin < (Bins.binConfig build.target).binCount, ∀ steps ≥ total,
    s.freeList bin steps = s.freeList bin total
  nodup : ∀ bin < (Bins.binConfig build.target).binCount, (s.freeList bin total).Nodup
  listed : ∀ bin < (Bins.binConfig build.target).binCount, ∀ pointer,
    pointer ∈ s.freeList bin total ↔ ∃ place size, ChunkAt 0 (s.chunks total) place ⟨size, false⟩ ∧
      pointer = s.unit place ∧
      sizeToBinRoundDown build size s = .ok (BitMask.index build.target.maskBits bin, s)
  prevInList : ∀ bin < (Bins.binConfig build.target).binCount, ∀ left pointer right,
    s.freeList bin total = left ++ pointer :: right →
      prevOf s pointer = left.getLast?.getD Pointer.null
  secondary : ∀ bin < (Bins.binConfig build.target).binCount,
    (s.binBit bin = true ↔ s.freeList bin total ≠ [])
  primary : ∀ i < build.target.maskBits,
    (s.freeListsWithUnallocatedMemory.primaryMask.getLsbD i = true ↔
      s.freeListsWithUnallocatedMemory.secondaryMasks.getD i 0 ≠ 0)

section Walks

variable {s : AllocatorState build σ} {heap : Heap}

theorem Represents.readChunk (represents : Represents total s heap) {place : Nat} {chunk : Chunk}
    (here : ChunkAt 0 heap.chunks place chunk) : readChunk s place = chunk := by
  obtain ⟨before, tagged⟩ := laid_at represents.tags here
  rw [Picoalloc.readChunk, tagged.2, Chunk.tag_size, Chunk.tag_isAllocated]

theorem Represents.chunks (represents : Represents total s heap) : s.chunks total = heap.chunks := by
  have tiles := represents.valid.tiles
  refine walk_tiles (fun place chunk here => represents.readChunk here) represents.valid.positive
    (by omega) ?_
  rw [← tiles]
  exact length_le_span represents.valid.positive

theorem Represents.bin_length (represents : Represents total s heap) (bin : Nat) :
    (heap.bins bin).length ≤ total := by
  have inside : heap.bins bin ⊆ List.range total := fun place member =>
    List.mem_range.mpr ((represents.index.granted bin place member).trans_le represents.placed.within)
  have shorter := (List.subperm_of_subset (represents.valid.nodup bin) inside).length_le
  rwa [List.length_range] at shorter

/-- Following a free list meets the chunks of its bin. -/
theorem Represents.freeList (represents : Represents total s heap) {bin steps : Nat}
    (small : bin < (Bins.binConfig build.target).binCount) (enough : total ≤ steps) :
    s.freeList bin steps = (heap.bins bin).map s.unit := by
  have head : s.firstInFreeList.getD bin Pointer.null = s.link (heap.bins bin).head? := by
    rw [List.getD_eq_getElem?_getD, represents.index.first bin small, Option.getD_some]
  rw [State.freeList, head]
  refine follow_segment rfl (fun place _ => ?_) (fun place _ => rfl) (represents.index.linked bin)
    ((represents.bin_length bin).trans enough)
  have nonnull := unit_nonnull represents.placed place
  simpa [Pointer.isNull, Pointer.null, State.link] using nonnull

theorem Represents.binBit (represents : Represents total s heap) {bin : Nat}
    (small : bin < (Bins.binConfig build.target).binCount) :
    s.binBit bin = true ↔ heap.bins bin ≠ [] := by
  rw [binCount_eq] at small
  have positive : 0 < build.target.maskBits := by cases build.target <;> decide
  obtain ⟨word, here, bits⟩ := represents.index.mask.word (bin / build.target.maskBits)
    (Nat.div_lt_of_lt_mul small)
  rw [State.binBit, List.getD_eq_getElem?_getD, here, Option.getD_some, bits _ (Nat.mod_lt _ positive),
    Nat.div_add_mod]

theorem Represents.primaryBit (represents : Represents total s heap) {i : Nat}
    (small : i < build.target.maskBits) :
    s.freeListsWithUnallocatedMemory.primaryMask.getLsbD i = true ↔
      s.freeListsWithUnallocatedMemory.secondaryMasks.getD i 0 ≠ 0 := by
  have mask := represents.index.mask
  rw [mask.primary i small, List.getD_eq_getElem?_getD]
  by_cases inside : i < secondaryWords build.target
  · obtain ⟨word, here, bits⟩ := mask.word i inside
    rw [here, Option.getD_some]
    constructor
    · rintro ⟨j, below, member⟩ rfl
      have bit := (bits j below).mpr member
      simp at bit
    · intro nonzero
      by_contra none_set
      push Not at none_set
      refine nonzero (BitVec.eq_of_getLsbD_eq fun j below => ?_)
      rw [BitVec.ofNat_eq_ofNat, BitVec.getLsbD_zero, Bool.eq_false_iff]
      exact fun bit => (bits j below).mp bit (none_set j below)
  · rw [List.getElem?_eq_none (by rw [mask.length_eq]; exact Nat.le_of_not_lt inside)]
    refine iff_of_false ?_ (by simp)
    rintro ⟨j, _, member⟩
    have bound := mask.inside _ member
    have order := Nat.mul_le_mul_left build.target.maskBits (Nat.le_of_not_lt inside)
    omega

theorem Represents.wellFormed (represents : Represents total s heap) : WellFormed total s := by
  have chunks := represents.chunks
  have valid := represents.valid
  have lists : ∀ bin < (Bins.binConfig build.target).binCount, ∀ steps ≥ total,
      s.freeList bin steps = (heap.bins bin).map s.unit := fun bin small steps enough =>
    represents.freeList small enough
  refine ⟨by rw [chunks]; exact valid.positive, by rw [chunks]; exact valid.tiles, ?_, ?_,
    fun bin small steps enough => (lists bin small steps enough).trans
      (lists bin small total (Nat.le_refl _)).symm, ?_, ?_, ?_, ?_,
    fun i small => represents.primaryBit small⟩
  · intro before chunk after here
    rw [chunks] at here
    have prev := (represents.around here).2.1.1
    refine ⟨prev, ?_⟩
    rw [prev]
    rcases List.eq_nil_or_concat before with rfl | ⟨init, last, rfl⟩
    · simp [lastSize]
    · have wide := valid.positive last (by simp [here])
      simp [lastSize, wide.ne']
  · intro before chunk next after here
    rw [chunks] at here
    -- of two neighbours one is allocated, which the flag of its header says
    have chain := (List.isChain_append.mp (here ▸ valid.separated)).2.1
    rcases (List.isChain_cons.mp chain).1 next rfl with allocated | allocated <;> simp [allocated]
  · intro bin small
    rw [lists bin small total (Nat.le_refl _)]
    exact (valid.nodup bin).map fun v w same => unit_inj.mp same
  · intro bin small pointer
    rw [lists bin small total (Nat.le_refl _), List.mem_map, chunks]
    constructor
    · rintro ⟨place, member, rfl⟩
      obtain ⟨size, here, rfl⟩ := (valid.registered bin place).mp member
      exact ⟨place, size, here, rfl, sizeToBinRoundDown_ok size⟩
    · rintro ⟨place, size, here, rfl, round⟩
      refine ⟨place, (valid.registered bin place).mpr ⟨size, here, ?_⟩, rfl⟩
      rw [sizeToBinRoundDown_ok size] at round
      have same := congrArg BitIndex.index (Prod.mk.inj (Except.ok.inj round)).1
      simpa only [BitMask.index_index] using same
  · intro bin small left pointer right here
    rw [lists bin small total (Nat.le_refl _)] at here
    obtain ⟨before, rest, split, rfl, tail⟩ := List.map_eq_append_iff.mp here
    obtain ⟨place, after, rfl, rfl, rfl⟩ := List.map_eq_cons_iff.mp tail
    have linked := (linked_at before (split ▸ represents.index.linked bin)).1
    rw [show prevOf s (s.unit place) = view s .prevInList place from rfl, linked, List.getLast?_map]
    cases before.getLast? <;> rfl
  · intro bin small
    rw [lists bin small total (Nat.le_refl _), represents.binBit small]
    simp

end Walks

section WellFormed

variable {session : Session build σ}

theorem Sound.represents (sound : Sound total memory session)
    (initialized : session.allocator.baseAddress ≠ Pointer.null) :
    ∃ heap, Serves total memory session heap :=
  sound.resolve_left fun idle => initialized idle.untouched.baseAddress

/-- Once initialized, the heap is well formed after every call of a session. -/
theorem heap_well_formed (lawful : E.Lawful build.target total)
    (inplace : build.reallocInplace = true) (reached : Reached build E memory session)
    (initialized : session.allocator.baseAddress ≠ Pointer.null) :
    WellFormed total session.allocator := by
  obtain ⟨heap, serves⟩ := (reached.sound lawful inplace).represents initialized
  exact serves.represents.wellFormed

theorem heap_well_formed_allocated : ∃ session outcome,
    step sampleEnv (.alloc 1 2) sampleStart = .ok (outcome, session) ∧
      WellFormed 8 session.allocator := by
  obtain ⟨session, outcome, run, initialized, reached⟩ := sample_based
  exact ⟨session, outcome, run, heap_well_formed sample_lawful rfl reached initialized⟩

end WellFormed

end Picoalloc
