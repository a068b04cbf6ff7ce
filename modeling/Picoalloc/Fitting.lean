import Picoalloc.Resizing
import Picoalloc.Rounding

/-!
Which chunk an allocation is cut from, and when there is none. The search takes the
head of the lowest bin in which every chunk is large enough; only when those bins are
empty does it try the head of the bin below, which may or may not be.
-/

namespace Picoalloc
open CheckedMachine ByteMemory IntrusiveLists Tilings Grids

namespace Bins

variable {mantissaBits size c : Nat} {target : Target}

theorem binStart_up_le (positive : 0 < size) :
    binStart mantissaBits (binIndex mantissaBits true size) ≤ size + size / 2 ^ mantissaBits := by
  obtain ⟨shift, mantissa, rest, sizeEq, low, -, small, leading, index⟩ :=
    size_decodes mantissaBits positive
  obtain ⟨shift', mantissa', split, start, -, small', leading'⟩ :=
    binStart_decodes mantissaBits (binIndex mantissaBits true size)
  by_cases exact : rest = 0
  · have same : binIndex mantissaBits true size = binIndex mantissaBits false size := by
      have up := index true
      have down := index false
      simp only [exact, ne_eq, not_true_eq_false, and_false, ↓reduceIte] at up down
      omega
    rw [same]
    exact ((le_down_iff positive).mp (Nat.le_refl _)).trans (Nat.le_add_right _ _)
  have deep : shift ≠ 0 := by
    rintro rfl
    omega
  have wide : 2 ^ mantissaBits ≤ mantissa := leading.resolve_left deep
  have up := index true
  rw [if_pos ⟨rfl, exact⟩, split] at up
  -- The next mantissa, or the carry into the next exponent.
  have next : mantissa' * 2 ^ shift' = (mantissa + 1) * 2 ^ shift := by
    generalize 2 ^ mantissaBits = width at *
    rcases Nat.lt_trichotomy shift shift' with less | rfl | more
    · obtain ⟨extra, rfl⟩ := Nat.exists_eq_add_of_lt less
      have wide' : width ≤ mantissa' := leading'.resolve_left (by omega)
      have expand : (shift + extra + 1) * width = shift * width + extra * width + width := by ring
      obtain rfl : extra = 0 := by
        by_contra more
        have scaled := Nat.mul_le_mul_right width (Nat.pos_of_ne_zero more)
        omega
      obtain rfl : mantissa' = width := by omega
      obtain rfl : mantissa = 2 * mantissa' - 1 := by omega
      rw [Nat.sub_add_cancel (by omega), Nat.add_zero, Nat.pow_succ]
      ring
    · rw [show mantissa' = mantissa + 1 by omega]
    · obtain ⟨extra, rfl⟩ := Nat.exists_eq_add_of_lt more
      have expand : (shift' + extra + 1) * width = shift' * width + extra * width + width := by ring
      omega
  have quantum : 2 ^ shift ≤ size / 2 ^ mantissaBits := by
    rw [Nat.le_div_iff_mul_le (Nat.two_pow_pos _), Nat.mul_comm]
    exact (Nat.mul_le_mul_right _ wide).trans (by omega)
  calc binStart mantissaBits (binIndex mantissaBits true size) = mantissa * 2 ^ shift + 2 ^ shift := by
        rw [start, next, Nat.succ_mul]
    _ ≤ size + size / 2 ^ mantissaBits := by omega

theorem top_even (target : Target) : binIndex (binConfig target).mantissaBits true maxAllocationSize =
    binIndex (binConfig target).mantissaBits false maxAllocationSize := by
  cases target <;> decide +kernel

theorem clampToMax_of_le (small : size ≤ maxAllocationSize) : clampToMax size = size :=
  if_neg (Nat.not_lt.mpr small)

theorem binOf_mono (positive : 0 < size) (order : size ≤ c) : binOf target size ≤ binOf target c := by
  have grid := bins_grid (mantissaBits_pos target)
  have top : 0 < maxAllocationSize := by decide
  refine grid.down_mono ?_ ?_
  · rw [binStart_zero (mantissaBits_pos target), clampToMax]
    split <;> omega
  · simp only [clampToMax]
    split <;> split <;> omega

theorem binOf_le_binFrom (positive : 0 < size) (small : size ≤ maxAllocationSize) :
    binOf target size ≤ binFrom target size ∧ binFrom target size ≤ binOf target size + 1 := by
  have grid := bins_grid (mantissaBits_pos target)
  have inside : binStart (binConfig target).mantissaBits 0 ≤ clampToMax size := by
    rw [binStart_zero (mantissaBits_pos target), clampToMax_of_le small]
    exact positive
  exact ⟨grid.down_le_up inside, grid.up_le_succ_down inside⟩

theorem binFrom_le_binOf (positive : 0 < size) (small : size ≤ maxAllocationSize)
    (enough : size + size / 2 ^ (binConfig target).mantissaBits ≤ c) :
    binFrom target size ≤ binOf target c := by
  have grid := bins_grid (mantissaBits_pos target)
  rw [binFrom, binOf, clampToMax_of_le small]
  by_cases large : c ≤ maxAllocationSize
  · rw [clampToMax_of_le large]
    have some_ : 0 < c := positive.trans_le ((Nat.le_add_right _ _).trans enough)
    exact (le_down_iff some_).mpr ((binStart_up_le positive).trans enough)
  · rw [clampToMax, if_pos (Nat.lt_of_not_le large), ← top_even]
    exact grid.up_mono small

theorem le_of_binFrom_le (positive : 0 < c) (small : size ≤ maxAllocationSize)
    (order : binFrom target size ≤ binOf target c) : size ≤ c := by
  have grid := bins_grid (mantissaBits_pos target)
  have top : 0 < maxAllocationSize := by decide
  have inside : binStart (binConfig target).mantissaBits 0 ≤ clampToMax c := by
    rw [binStart_zero (mantissaBits_pos target), clampToMax]
    split <;> omega
  rw [binFrom, clampToMax_of_le small] at order
  calc size ≤ binStart (binConfig target).mantissaBits (binOf target c) := (up_le_iff size).mp order
    _ ≤ clampToMax c := grid.point_down_le inside
    _ ≤ c := by
      rw [clampToMax]
      split <;> omega

end Bins

variable {build : Build} {σ : Type} {E : Env σ} {total : Nat} {s : AllocatorState build σ}

def sizeOf (s : AllocatorState build σ) (chunk : Nat) : Nat :=
  ChunkSize.size (readWord s.memory (chunk + Field.offset build.target .size)
    (Field.length build.target .size))

structure LowestBin (total : Nat) (s : AllocatorState build σ) (least bin : Nat) : Prop where
  above : least ≤ bin
  small : bin < (Bins.binConfig build.target).binCount
  occupied : s.freeList bin total ≠ []
  lowest : ∀ other, least ≤ other → other < bin → s.freeList other total = []

def NoneFrom (total : Nat) (s : AllocatorState build σ) (least : Nat) : Prop :=
  ∀ bin < (Bins.binConfig build.target).binCount, least ≤ bin → s.freeList bin total = []

/-- Nothing fits: the bins that surely fit are empty, and the next head is too small. -/
def NothingFits (total : Nat) (s : AllocatorState build σ) (up down m : Nat) : Prop :=
  NoneFrom total s up ∧ ∀ chunk, (s.freeList down total).head? = some chunk → sizeOf s chunk < m

inductive Candidate (total : Nat) (s : AllocatorState build σ) (up down chunk : Nat) : Prop where
  | above {bin : Nat} (lowest : LowestBin total s up bin)
      (head : (s.freeList bin total).head? = some chunk)
  | below (none : NoneFrom total s up) (head : (s.freeList down total).head? = some chunk)

/-- An allocation is declined: an alignment that is no power of two, a size out of range,
nothing that fits, or memory that is not granted. -/
def Declines (E : Env σ) (total : Nat) (s : AllocatorState build σ) (align size up down : Nat) : Prop :=
  (¬ ∃ k, align = 2 ^ k) ∨
    2 ^ sizeBits ≤ Heap.minSize align size ∨ maxAllocationSize < Heap.minSize align size ∨
    NothingFits total s up down (Heap.minSize align size) ∨
    ∃ chunk cut, Candidate total s up down chunk ∧
      cutChunk build chunk (sizeOf s chunk) align size s = .ok (cut, s) ∧ ¬ Grants E s cut.endOffset

/-- Exactly when an allocation succeeds, and what it is cut from. -/
structure AllocatesExactly (E : Env σ) (total : Nat) (s : AllocatorState build σ) (align size : Nat)
    (up down : Nat) (result : Option Nat) (s' : AllocatorState build σ) : Prop where
  refused : result = none ↔ Declines E total s align size up down
  carved : ∀ data, result = some data → ∃ chunk cut before after, Candidate total s up down chunk ∧
    Heap.minSize align size ≤ sizeOf s chunk ∧
    cutChunk build chunk (sizeOf s chunk) align size s = .ok (cut, s) ∧
    chunk = s.unit (span Chunk.size before) ∧ data = s.unit cut.dataOffset ∧
    s.chunks total = before ++ ⟨sizeOf s chunk, false⟩ :: after ∧
    s'.chunks total = before ++ (freeChunk cut.freeSpaceLhs ++ ⟨size + headerSize, true⟩ ::
      (freeChunk cut.freeSpaceRhs ++ after))
  goodFit : (∃ k, align = 2 ^ k) → Heap.minSize align size ≤ maxAllocationSize →
    (∀ need ≤ total, Grants E s need) → ∀ place c, ChunkAt 0 (s.chunks total) place ⟨c, false⟩ →
    Heap.minSize align size + Heap.minSize align size / 2 ^ (Bins.binConfig build.target).mantissaBits
      ≤ c ∨ Heap.minSize align size ≤ c ∧
        (up = down ∨ ∃ bin < (Bins.binConfig build.target).binCount,
          (s.freeList bin total).head? = some (s.unit place)) →
    result.isSome = true

section Searching

variable {heap : Heap} {least bin up down chunk : Nat}

theorem Represents.freeList_nil (represents : Represents total s heap)
    (small : bin < (Bins.binConfig build.target).binCount) :
    s.freeList bin total = [] ↔ heap.bins bin = [] := by
  rw [represents.freeList small (Nat.le_refl _), List.map_eq_nil_iff]

theorem Represents.freeList_head (represents : Represents total s heap)
    (small : bin < (Bins.binConfig build.target).binCount) :
    (s.freeList bin total).head? = (heap.bins bin).head?.map s.unit := by
  rw [represents.freeList small (Nat.le_refl _), List.head?_map]

theorem Represents.sizeOf (represents : Represents total s heap) {place : Nat} {chunk : Chunk}
    (here : ChunkAt 0 heap.chunks place chunk) : sizeOf s (s.unit place) = chunk.size :=
  congrArg Chunk.size (represents.readChunk here)

/-- The search of the abstract heap finds the lowest bin. -/
theorem Represents.leastBin (represents : Represents total s heap) :
    heap.leastBin build.target least = some bin ↔ LowestBin total s least bin := by
  rw [Heap.leastBin, List.find?_range_eq_some]
  constructor
  · rintro ⟨found, listed, before⟩
    have small := List.mem_range.mp listed
    obtain ⟨above, occupied⟩ : least ≤ bin ∧ heap.bins bin ≠ [] := by simpa using found
    refine ⟨above, small, (represents.freeList_nil small).not.mpr occupied, fun other later less => ?_⟩
    rw [represents.freeList_nil (less.trans small)]
    simpa [later] using before other less
  · rintro ⟨above, small, occupied, lowest⟩
    have occupied := (represents.freeList_nil small).not.mp occupied
    refine ⟨by simpa [above] using occupied, List.mem_range.mpr small, fun other less => ?_⟩
    by_cases later : least ≤ other
    · simpa [later] using (represents.freeList_nil (less.trans small)).mp (lowest other later less)
    · simp [later]

theorem Represents.leastBin_none (represents : Represents total s heap) :
    heap.leastBin build.target least = none ↔ NoneFrom total s least := by
  rw [Heap.leastBin, List.find?_range_eq_none]
  refine forall₂_congr fun bin small => ?_
  rw [represents.freeList_nil small]
  by_cases above : least ≤ bin <;> simp [above]

theorem Represents.chooseBin (represents : Represents total s heap) {m : Nat} (positive : 0 < m)
    (small : m ≤ maxAllocationSize) : heap.chooseBin build.target m = some bin ↔
      LowestBin total s (Bins.binFrom build.target m) bin ∨
        NoneFrom total s (Bins.binFrom build.target m) ∧ bin = Bins.binOf build.target m ∧
          s.freeList bin total ≠ [] := by
  have bounds : Bins.binOf build.target m ≤ Bins.binFrom build.target m ∧
      Bins.binFrom build.target m ≤ Bins.binOf build.target m + 1 :=
    Bins.binOf_le_binFrom positive small
  rw [Heap.chooseBin, Option.or_eq_some_iff, represents.leastBin, represents.leastBin_none,
    represents.leastBin]
  refine or_congr_right (and_congr_right fun none => ⟨fun lowest => ?_, ?_⟩)
  · have outside : ¬ Bins.binFrom build.target m ≤ bin := fun later =>
      lowest.occupied (none bin lowest.small later)
    exact ⟨by have := lowest.above; omega, lowest.occupied⟩
  · rintro ⟨rfl, occupied⟩
    exact ⟨Nat.le_refl _, Bins.binOf_lt _ _, occupied, fun other later less => by omega⟩

theorem Represents.candidate (represents : Represents total s heap) {m : Nat} (positive : 0 < m)
    (small : m ≤ maxAllocationSize) :
    Candidate total s (Bins.binFrom build.target m) (Bins.binOf build.target m) chunk ↔
      ∃ bin, heap.chooseBin build.target m = some bin ∧
        (s.freeList bin total).head? = some chunk := by
  constructor
  · rintro (⟨lowest, head⟩ | ⟨none, head⟩)
    · exact ⟨_, (represents.chooseBin positive small).mpr (Or.inl lowest), head⟩
    · refine ⟨_, (represents.chooseBin positive small).mpr (Or.inr ⟨none, rfl, ?_⟩), head⟩
      intro empty
      rw [empty] at head
      cases head
  · rintro ⟨bin, found, head⟩
    rcases (represents.chooseBin positive small).mp found with lowest | ⟨none, rfl, -⟩
    · exact .above lowest head
    · exact .below none head

end Searching

section Allocating

variable {heap : Heap} {align size : Nat} {fit : Fit}

theorem Fit.Pieces.allocate_shape {target : Target} {phase : Nat}
    (pieces : fit.Pieces align size phase) :
    (heap.allocate target fit size).chunks = fit.before ++ (freeChunk fit.cut.freeSpaceLhs ++
      ⟨size + headerSize, true⟩ :: (freeChunk fit.cut.freeSpaceRhs ++ fit.after)) := by
  have whole := pieces.whole
  have placed : ((fit.gap heap.bins).placeFree target fit.cut.freeSpaceLhs).before =
        fit.before ++ freeChunk fit.cut.freeSpaceLhs ∧
      ((fit.gap heap.bins).placeFree target fit.cut.freeSpaceLhs).size =
        fit.chunkSize - fit.cut.freeSpaceLhs ∧
      ((fit.gap heap.bins).placeFree target fit.cut.freeSpaceLhs).after = fit.after := by
    rw [Gap.placeFree, freeChunk]
    split
    · next empty => simp [Fit.gap, empty]
    · simp [Fit.gap, Gap.place]
  obtain ⟨before, rest, after⟩ := placed
  have width : (fit.carved target heap.bins size).size = fit.cut.freeSpaceRhs := by
    rw [Fit.carved, Gap.place, rest]
    simp only
    omega
  rw [Heap.allocate, (Gap.fill_heap target _ _).1, width, Fit.carved, Gap.place, before, after]
  simp

theorem Represents.chooseFit_none (represents : Represents total s heap) {phase : Nat}
    (small : Heap.minSize align size ≤ maxAllocationSize) :
    heap.chooseFit build.target phase align size = none ↔
      NothingFits total s (Bins.binFrom build.target (Heap.minSize align size))
        (Bins.binOf build.target (Heap.minSize align size)) (Heap.minSize align size) := by
  have positive : 0 < Heap.minSize align size := by simp only [Heap.minSize, headerSize]; omega
  rw [Heap.chooseFit, if_neg (Nat.not_lt.mpr small)]
  generalize Heap.minSize align size = m at *
  cases found : heap.chooseBin build.target m with
  | none =>
      obtain ⟨above, below⟩ := Option.or_eq_none_iff.mp found
      have none := represents.leastBin_none.mp above
      have empty := represents.leastBin_none.mp below _ (Bins.binOf_lt _ _) (Nat.le_refl _)
      refine iff_of_true rfl ⟨none, fun chunk head => ?_⟩
      rw [empty] at head
      cases head
  | some bin =>
      obtain ⟨before, chunkSize, after, chunks, head, same⟩ := chooseBin_head represents.valid found
      have here := chunkAt_here chunks
      have wide : 0 < chunkSize := represents.valid.positive _ (tileAt_mem here)
      have read := represents.sizeOf here
      have first : (s.freeList bin total).head? = some (s.unit (span Chunk.size before)) := by
        rw [represents.freeList_head (same ▸ Bins.binOf_lt _ _), head]
        rfl
      simp only [head, Heap.split_here represents.valid chunks]
      rcases (represents.chooseBin positive small).mp found with lowest | ⟨none, rfl, -⟩
      · have enough : m ≤ chunkSize :=
          Bins.le_of_binFrom_le wide small (same ▸ lowest.above)
        rw [if_neg (Nat.not_lt.mpr enough)]
        refine iff_of_false (Option.some_ne_none _) ?_
        rintro ⟨none, -⟩
        exact lowest.occupied (none bin lowest.small lowest.above)
      · rw [NothingFits, first]
        split
        · next short =>
          refine iff_of_true rfl ⟨none, ?_⟩
          rintro chunk ⟨⟩
          rwa [read]
        · next enough =>
          refine iff_of_false (Option.some_ne_none _) ?_
          rintro ⟨-, short⟩
          have less := short _ rfl
          rw [read] at less
          exact enough less

/-- Some chunks are large enough to be found, wherever else there are chunks. -/
theorem Represents.fits (represents : Represents total s heap) {m place c : Nat} (positive : 0 < m)
    (small : m ≤ maxAllocationSize) (here : ChunkAt 0 heap.chunks place ⟨c, false⟩)
    (large : m + m / 2 ^ (Bins.binConfig build.target).mantissaBits ≤ c ∨
      m ≤ c ∧ (Bins.binFrom build.target m = Bins.binOf build.target m ∨
        ∃ bin < (Bins.binConfig build.target).binCount,
          (s.freeList bin total).head? = some (s.unit place))) :
    ¬ NothingFits total s (Bins.binFrom build.target m) (Bins.binOf build.target m) m := by
  rintro ⟨none, short⟩
  have bounds : Bins.binOf build.target m ≤ Bins.binFrom build.target m ∧
      Bins.binFrom build.target m ≤ Bins.binOf build.target m + 1 :=
    Bins.binOf_le_binFrom positive small
  have listed : place ∈ heap.bins (Bins.binOf build.target c) :=
    (represents.valid.registered _ _).mpr ⟨c, here, rfl⟩
  have below : Bins.binOf build.target c < Bins.binFrom build.target m := by
    by_contra above
    have empty := none _ (Bins.binOf_lt build.target c) (Nat.le_of_not_lt above)
    rw [represents.freeList_nil (Bins.binOf_lt _ _)] at empty
    rw [empty] at listed
    cases listed
  have order : m ≤ c → Bins.binOf build.target m ≤ Bins.binOf build.target c :=
    Bins.binOf_mono positive
  rcases large with enough | ⟨enough, even | ⟨bin, inside, head⟩⟩
  · exact absurd (Bins.binFrom_le_binOf positive small enough) (Nat.not_le.mpr below)
  · have later := order enough
    omega
  · rw [represents.freeList_head inside] at head
    obtain ⟨first, first_head, same⟩ := Option.map_eq_some_iff.mp head
    obtain rfl : first = place := unit_inj.mp same
    have member : first ∈ heap.bins bin := List.mem_of_head? first_head
    obtain rfl := represents.index.apart _ _ _ member listed
    have later := order enough
    have there : Bins.binOf build.target c = Bins.binOf build.target m := by omega
    have size := short (s.unit first) (by
      rw [← there, represents.freeList_head (Bins.binOf_lt _ _), first_head]
      rfl)
    rw [represents.sizeOf here] at size
    exact absurd size (Nat.not_lt.mpr enough)

theorem Represents.fit_candidate (represents : Represents total s heap) {phase : Nat}
    (valid : fit.Valid build.target phase align size heap)
    (small : Heap.minSize align size ≤ maxAllocationSize) (chunk : Nat) :
    Candidate total s (Bins.binFrom build.target (Heap.minSize align size))
      (Bins.binOf build.target (Heap.minSize align size)) chunk ↔ chunk = s.unit fit.place := by
  have positive : 0 < Heap.minSize align size := by simp only [Heap.minSize, headerSize]; omega
  obtain ⟨rest, head⟩ := valid.head
  have first : (s.freeList fit.bin total).head? = some (s.unit fit.place) := by
    rw [represents.freeList_head (valid.bin ▸ Bins.binOf_lt _ _), head]
    rfl
  rw [represents.candidate positive small]
  constructor
  · rintro ⟨bin, found, other⟩
    obtain rfl := Option.some.inj (valid.found.symm.trans found)
    exact Option.some.inj (other.symm.trans first)
  · rintro rfl
    exact ⟨fit.bin, valid.found, first⟩

theorem allocImpl_cases (constant : ∀ e, E.totalSpace e = total) (represents : Represents total s heap)
    (align size : Nat) (isCalloc : Bool) :
    ∃ result s', allocImpl build E align size isCalloc s = .ok (result, s') ∧
      AllocatesExactly E total s align size
        (Bins.binFrom build.target (Heap.minSize align size))
        (Bins.binOf build.target (Heap.minSize align size)) result s' := by
  have mask : maxAllocationSize < 2 ^ sizeBits := by decide
  have positive : 0 < Heap.minSize align size := by simp only [Heap.minSize, headerSize]; omega
  have chunks := represents.chunks
  by_cases rejected : align = 0 ∨ (!isPowerOfTwo align) = true
  · have odd : ¬ ∃ k, align = 2 ^ k := by
      rw [← isPowerOfTwo_iff]
      rcases rejected with rfl | not_power
      · decide
      · simpa using not_power
    refine ⟨none, s, by rw [allocImpl, if_pos rejected]; rfl, ?_, ?_, fun power => absurd power odd⟩
    · exact iff_of_true rfl (Or.inl odd)
    · intro data impossible
      cases impossible
  obtain ⟨k, power⟩ := isPowerOfTwo_iff.mp (by simpa using (not_or.mp rejected).2)
  have reading : allocImpl build E align size isCalloc s =
      allocInitialized build E align size isCalloc s := by
    rw [allocImpl, if_neg rejected, bind_ok (initializeAllocator_again represents.placed),
      if_neg (show ¬ (!true) = true from Bool.false_ne_true)]
  rw [reading]
  cases chosen : heap.chooseFit build.target (s.baseAddress / 32) align size with
  | none =>
      refine ⟨none, s, allocInitialized_none constant represents (power ▸ Nat.two_pow_pos k) isCalloc
        chosen, ?_, ?_, fun _ small _ place c here large => ?_⟩
      · refine iff_of_true rfl (Or.inr (Or.inr ?_))
        by_cases small : Heap.minSize align size ≤ maxAllocationSize
        · exact Or.inr (Or.inl ((represents.chooseFit_none small).mp chosen))
        · exact Or.inl (Nat.lt_of_not_le small)
      · intro data impossible
        cases impossible
      · rw [chunks] at here
        exact absurd ((represents.chooseFit_none small).mp chosen)
          (represents.fits positive small here large)
  | some fit =>
      obtain ⟨inside, settled⟩ := allocInitialized_some (E := E) constant represents power isCalloc chosen
      obtain ⟨valid, small⟩ := chooseFit_valid represents.valid chosen
      have pieces := valid.pieces (power ▸ Nat.two_pow_pos k)
      -- the fit of the policy is what the mask and the list lead to
      have candidate := represents.fit_candidate valid small
      have read : sizeOf s (s.unit fit.place) = fit.chunkSize :=
        represents.sizeOf (chunkAt_here valid.chunks)
      have cut : cutChunk build (s.unit fit.place) fit.chunkSize align size s = .ok (fit.cut, s) := by
        rw [cutChunk_ok represents.placed power (small_align small) (valid.fits represents) valid.enough,
          ← valid.cut]
      have asks := ask_grants (E := E) (s := s) fit.cut.endOffset
      cases answer : (s.ask E fit.cut.endOffset).1 with
      | false =>
          rw [answer, if_neg Bool.false_ne_true] at settled
          rw [answer] at asks
          refine ⟨none, _, settled, ?_, ?_, fun _ _ grants => ?_⟩
          · refine iff_of_true rfl (Or.inr (Or.inr (Or.inr (Or.inr ?_))))
            exact ⟨_, _, (candidate _).mpr rfl, read ▸ cut, fun granted => by simpa using asks.mpr granted⟩
          · intro data impossible
            cases impossible
          · exact absurd (asks.mpr (grants _ inside)) Bool.false_ne_true
      | true =>
          rw [answer, if_pos rfl] at settled
          obtain ⟨s', run, represents', frame⟩ := settled
          refine ⟨_, _, run, ?_, ?_, fun _ _ _ _ _ _ _ => rfl⟩
          · refine iff_of_false (Option.some_ne_none _) ?_
            rintro (odd | wide | large | nothing | ⟨chunk, cut', tried, cut_eq, refused⟩)
            · exact odd ⟨k, power⟩
            · omega
            · omega
            · rw [(represents.chooseFit_none small).mpr nothing] at chosen
              cases chosen
            · obtain rfl := (candidate chunk).mp tried
              rw [read, cut] at cut_eq
              cases cut_eq
              exact refused (asks.mp answer)
          · rintro data ⟨⟩
            refine ⟨_, _, fit.before, fit.after, (candidate _).mpr rfl, read ▸ valid.enough, read ▸ cut,
              rfl, rfl, by rw [chunks, read, valid.chunks], ?_⟩
            have here := (Heap.allocate_allots represents.valid valid pieces).mpr (Or.inl ⟨rfl, rfl⟩)
            have overwritten := zeroed_overwritten (decide (s.allocatedSpace > fit.cut.dataOffset) &&
              isCalloc) fit.cut.headerOffset size s'
            rw [frame.unit, ask_unit, ← pieces.behind] at overwritten
            rw [(represents'.overwritten here overwritten).chunks, pieces.allocate_shape]

end Allocating

section Success

variable {memory : Memory} {session : Session build σ}

/-- An allocation fails exactly when nothing fits, and is cut from the chunk that the
two roundings point to. -/
theorem alloc_exact (lawful : E.Lawful build.target total) (inplace : build.reallocInplace = true)
    (reached : Reached build E memory session)
    (initialized : session.allocator.baseAddress ≠ Pointer.null) (align size : Nat) (isCalloc : Bool) :
    ∃ up down,
      sizeToBinRoundUp build (Heap.minSize align size) session.allocator =
        .ok (BitMask.index build.target.maskBits up, session.allocator) ∧
      sizeToBinRoundDown build (Heap.minSize align size) session.allocator =
        .ok (BitMask.index build.target.maskBits down, session.allocator) ∧
      ∃ result s', allocImpl build E align size isCalloc session.allocator = .ok (result, s') ∧
        AllocatesExactly E total session.allocator align size up down result s' := by
  obtain ⟨heap, serves⟩ := (reached.sound lawful inplace).represents initialized
  exact ⟨_, _, sizeToBinRoundUp_ok _, sizeToBinRoundDown_ok _,
    allocImpl_cases lawful.constant serves.represents align size isCalloc⟩

theorem alloc_exact_sample : ∃ session outcome,
    step sampleEnv (.alloc 1 2) sampleStart = .ok (outcome, session) ∧
      ∃ up down,
        sizeToBinRoundUp sampleBuild 4 session.allocator =
          .ok (BitMask.index 64 up, session.allocator) ∧
        sizeToBinRoundDown sampleBuild 4 session.allocator =
          .ok (BitMask.index 64 down, session.allocator) ∧
        ∃ result s', allocImpl sampleBuild sampleEnv 2 2 false session.allocator = .ok (result, s') ∧
          AllocatesExactly sampleEnv 8 session.allocator 2 2 up down result s' := by
  obtain ⟨session, outcome, run, initialized, reached⟩ := sample_based
  exact ⟨session, outcome, run, alloc_exact sample_lawful rfl reached initialized 2 2 false⟩

end Success

end Picoalloc
