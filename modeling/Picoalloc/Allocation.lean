import Picoalloc.Operations

/-!
`alloc_impl` refines its policy: the alignment arithmetic, the two searches for a
bin, the cut of the chunk that was found and its carving.
-/

namespace Picoalloc
open CheckedMachine ByteMemory Tilings

variable {build : Build} {σ : Type} {E : Env σ} {total : Nat} {s : AllocatorState build σ}

section Alignment

variable {align : Nat} (phase x : Nat)

theorem isPowerOfTwo_iff : isPowerOfTwo align = true ↔ ∃ k, align = 2 ^ k := by
  simp only [isPowerOfTwo, Bool.and_eq_true, bne_iff_ne, beq_iff_eq]
  constructor
  · exact fun power => ⟨_, power.2.symm⟩
  · rintro ⟨k, rfl⟩
    exact ⟨(Nat.two_pow_pos k).ne', by rw [Nat.log2_two_pow]⟩

theorem and_complement {sum width k : Nat} (order : k ≤ width) (fits : sum < 2 ^ width) :
    sum &&& (2 ^ width - 1 - (2 ^ k - 1)) = sum / 2 ^ k * 2 ^ k := by
  have low : 2 ^ k - 1 < 2 ^ width :=
    (Nat.sub_lt (Nat.two_pow_pos k) Nat.one_pos).trans_le (Nat.pow_le_pow_right (by decide) order)
  rw [Nat.sub_sub, Nat.add_comm 1]
  refine Nat.eq_of_testBit_eq fun i => ?_
  rw [Nat.testBit_and, Nat.testBit_two_pow_sub_succ low, Nat.testBit_two_pow_sub_one,
    Nat.testBit_mul_two_pow, Nat.testBit_div_two_pow]
  by_cases high : k ≤ i
  · rw [Nat.sub_add_cancel high]
    by_cases inside : i < width
    · simp [high, inside, Nat.not_lt.mpr high]
    · have off : sum.testBit i = false := Nat.testBit_lt_two_pow
        (fits.trans_le (Nat.pow_le_pow_right (by decide) (Nat.le_of_not_lt inside)))
      simp [off]
  · simp [high, Nat.lt_of_not_le high]

theorem alignUp_spec (positive : 0 < align) :
    (phase + alignUp phase align x) % align = 0 ∧ x ≤ alignUp phase align x ∧
      alignUp phase align x ≤ x + (align - 1) := by
  have split := Nat.div_add_mod (phase + x + (align - 1)) align
  have rest := Nat.mod_lt (phase + x + (align - 1)) positive
  have sum : phase + alignUp phase align x = (phase + x + (align - 1)) / align * align := by
    rw [alignUp, Nat.mul_comm]
    omega
  rw [Nat.mul_comm] at split
  exact ⟨by rw [sum, Nat.mul_mod_left], by omega, by omega⟩

theorem alignUp_congr {phase' : Nat} (positive : 0 < align)
    (same : phase % align = phase' % align) : alignUp phase align x = alignUp phase' align x := by
  obtain ⟨zero, low, high⟩ := alignUp_spec phase x positive
  obtain ⟨zero', low', high'⟩ := alignUp_spec phase' x positive
  have ahead : (alignUp phase align x) ≡ (alignUp phase' align x) [MOD align] := by
    have first : phase + alignUp phase align x ≡ phase' + alignUp phase' align x [MOD align] :=
      zero.trans zero'.symm
    exact Nat.ModEq.add_left_cancel same first
  rcases Nat.le_total (alignUp phase align x) (alignUp phase' align x) with order | order
  · have gap := (Nat.modEq_iff_dvd' order).mp ahead
    have := Nat.eq_zero_of_dvd_of_lt gap (by omega)
    omega
  · have gap := (Nat.modEq_iff_dvd' order).mp ahead.symm
    have := Nat.eq_zero_of_dvd_of_lt gap (by omega)
    omega

theorem alignOffset_ok {base k : Nat} (power : align = 2 ^ k) (small : align ≤ 2 ^ 25)
    (inside : x ≤ 2 ^ 27) (address : base < 2 ^ build.target.addressBits) :
    alignOffset build x align base = .ok (alignUp (base / 32) align x) := by
  have positive : 0 < align := power ▸ Nat.two_pow_pos k
  have order : k ≤ 25 := by
    rw [power] at small
    exact (Nat.pow_le_pow_iff_right (by decide)).mp small
  have wide := usizeBits_ge build.target
  have bits := addressBits_ge build.target
  have address' : base < 2 ^ build.target.usizeBits :=
    address.trans_le (Nat.pow_le_pow_right (by decide) wide)
  have room : 2 ^ 32 ≤ 2 ^ build.target.usizeBits :=
    Nat.pow_le_pow_right (by decide) (bits.trans wide)
  obtain ⟨_, low, high⟩ := alignUp_spec (base / 32) x positive
  have shifted : base >>> allocationSizeShift = base / 32 := by
    simp [allocationSizeShift, Nat.shiftRight_eq_div_pow]
  have sum : base / 32 + x + (align - 1) < 2 ^ build.target.usizeBits := by omega
  have masked := and_complement (k := k) (by omega : k ≤ build.target.usizeBits) sum
  have back : base / 32 ≤ (base / 32 + x + (align - 1)) / align * align := by
    have split := Nat.div_add_mod (base / 32 + x + (align - 1)) align
    have rest := Nat.mod_lt (base / 32 + x + (align - 1)) positive
    rw [Nat.mul_comm] at split
    omega
  simp only [alignOffset]
  rw [sub_ok positive, shifted]
  simp only [bind, Except.bind]
  rw [add_ok (by omega)]
  simp only
  rw [add_ok sum]
  simp only
  rw [← power] at masked
  rw [masked, sub_ok back]
  simp only [pure, Except.pure, Except.ok.injEq]
  rw [← alignUp, Nat.mod_eq_of_lt (by simp only [sizeBits]; omega)]

end Alignment

section Search

variable {heap : Heap} {bins : Nat → List Nat}

theorem leastBin_ok (index : Index s heap.bins) {least : Nat} {found : Option BitIndex}
    (first : BitMask.FirstFrom build.target.maskBits (fun bin => heap.bins bin ≠ []) least found) :
    found = (heap.leastBin build.target least).map (BitMask.index build.target.maskBits) := by
  cases found with
  | none =>
      have nothing : heap.leastBin build.target least = none := by
        rw [Heap.leastBin, List.find?_range_eq_none]
        intro bin _
        by_cases above : least ≤ bin
        · simpa [above] using first bin above
        · simp [above]
      rw [nothing]
      rfl
  | some found =>
      obtain ⟨canonical, above, occupied, none_before⟩ := first
      have here : heap.leastBin build.target least = some found.index := by
        rw [Heap.leastBin, List.find?_range_eq_some]
        refine ⟨by simpa [above] using occupied,
          List.mem_range.mpr (index.bin_lt occupied), fun bin before => ?_⟩
        by_cases later : least ≤ bin
        · simpa [later] using none_before bin later before
        · simp [later]
      rw [here]
      exact congrArg some canonical

theorem findFirstBin_ok (index : Index s heap.bins) {least : Nat}
    (inside : least < (Bins.binConfig build.target).binCount) :
    findFirstBin build (BitMask.index build.target.maskBits least) s =
      .ok ((heap.leastBin build.target least).map (BitMask.index build.target.maskBits), s) := by
  rw [binCount_eq] at inside
  obtain ⟨found, run, first⟩ := BitMask.findFirst_ok (maskBits_power _) build.overflowChecks
    (secondaryWords_lt _) (maskBits_narrow _) index.mask inside
  rw [findFirstBin, bind_ok (get_apply s), ← leastBin_ok index first]
  exact lift_ok run s

theorem findBin_ok (index : Index s heap.bins) (minSize : Nat) :
    findBin build minSize s =
      .ok ((heap.chooseBin build.target minSize).map (BitMask.index build.target.maskBits), s) := by
  rw [findBin, bind_ok (sizeToBinRoundUp_ok minSize), bind_ok (sizeToBinRoundDown_ok minSize),
    bind_ok (findFirstBin_ok index (Bins.binFrom_lt _ _)), Heap.chooseBin]
  cases heap.leastBin build.target (Bins.binFrom build.target minSize) with
  | none => simpa using findFirstBin_ok index (Bins.binOf_lt _ _)
  | some bin => rfl

theorem leastBin_occupied {target : Target} {least bin : Nat}
    (found : heap.leastBin target least = some bin) : heap.bins bin ≠ [] := by
  rw [Heap.leastBin, List.find?_range_eq_some] at found
  have marked := (Bool.and_eq_true_iff.mp found.1).2
  simpa using marked

theorem chooseBin_occupied {target : Target} {minSize bin : Nat}
    (found : heap.chooseBin target minSize = some bin) : heap.bins bin ≠ [] := by
  rw [Heap.chooseBin, Option.or_eq_some_iff] at found
  rcases found with found | ⟨_, found⟩
  · exact leastBin_occupied found
  · exact leastBin_occupied found

end Search

section Fits

variable {heap : Heap} {target : Target} {phase align size : Nat} {fit : Fit}

structure Fit.Valid (target : Target) (phase align size : Nat) (heap : Heap) (fit : Fit) : Prop where
  chunks : heap.chunks = fit.before ++ ⟨fit.chunkSize, false⟩ :: fit.after
  head : ∃ rest, heap.bins fit.bin = fit.place :: rest
  bin : fit.bin = Bins.binOf target fit.chunkSize
  enough : Heap.minSize align size ≤ fit.chunkSize
  cut : fit.cut = cutOf phase fit.place fit.chunkSize align size
  found : heap.chooseBin target (Heap.minSize align size) = some fit.bin

theorem chooseBin_head (valid : heap.Valid target total) {minSize bin : Nat}
    (found : heap.chooseBin target minSize = some bin) :
    ∃ before chunkSize after, heap.chunks = before ++ ⟨chunkSize, false⟩ :: after ∧
      (heap.bins bin).head? = some (span Chunk.size before) ∧
      bin = Bins.binOf target chunkSize := by
  obtain ⟨place, rest, shape⟩ := List.exists_cons_of_ne_nil (chooseBin_occupied found)
  obtain ⟨chunkSize, here, same⟩ :=
    (valid.registered bin place).mp (shape ▸ List.mem_cons_self)
  obtain ⟨before, after, chunks, at'⟩ := tileAt_split here
  rw [Nat.zero_add] at at'
  exact ⟨before, chunkSize, after, chunks, by rw [shape, ← at']; rfl, same.symm⟩

theorem chooseFit_valid (valid : heap.Valid target total)
    (chosen : heap.chooseFit target phase align size = some fit) :
    fit.Valid target phase align size heap ∧ Heap.minSize align size ≤ maxAllocationSize := by
  simp only [Heap.chooseFit] at chosen
  split at chosen
  · cases chosen
  next small =>
  cases found : heap.chooseBin target (Heap.minSize align size) with
  | none => simp [found] at chosen
  | some bin =>
      obtain ⟨before, chunkSize, after, chunks, head, same⟩ := chooseBin_head valid found
      simp only [found, head, Heap.split_here valid chunks] at chosen
      split at chosen
      · cases chosen
      next enough =>
      cases chosen
      obtain ⟨first, rest, shape⟩ := List.exists_cons_of_ne_nil (chooseBin_occupied found)
      rw [shape, List.head?_cons, Option.some.injEq] at head
      exact ⟨⟨chunks, ⟨rest, by rw [shape, head]; rfl⟩, same, Nat.le_of_not_lt enough, rfl,
        found⟩,
        Nat.le_of_not_lt small⟩

/-- The pieces of a cut make up the chunk. -/
theorem cutOf_spec (phase place : Nat) {chunkSize : Nat} (positive : 0 < align)
    (enough : Heap.minSize align size ≤ chunkSize) :
    (cutOf phase place chunkSize align size).dataOffset =
        alignUp phase align (place + headerSize) ∧
      (cutOf phase place chunkSize align size).headerOffset =
        place + (cutOf phase place chunkSize align size).freeSpaceLhs ∧
      (cutOf phase place chunkSize align size).dataOffset =
        (cutOf phase place chunkSize align size).headerOffset + headerSize ∧
      (cutOf phase place chunkSize align size).freeSpaceLhs + (size + headerSize) +
        (cutOf phase place chunkSize align size).freeSpaceRhs = chunkSize := by
  obtain ⟨_, low, high⟩ := alignUp_spec phase (place + headerSize) positive
  simp only [cutOf, Heap.minSize, headerSize] at *
  refine ⟨trivial, ?_, ?_, ?_⟩ <;> omega

theorem cutChunk_ok (placed : Placed total s) {k place chunkSize : Nat} (power : align = 2 ^ k)
    (small : align ≤ 2 ^ 25) (inside : place + chunkSize ≤ total)
    (enough : Heap.minSize align size ≤ chunkSize) :
    cutChunk build (s.unit place) chunkSize align size s =
      .ok (cutOf (s.baseAddress / 32) place chunkSize align size, s) := by
  have positive : 0 < align := power ▸ Nat.two_pow_pos k
  have limit := placed.small
  have address := placed.inside
  obtain ⟨data, header, behind, whole⟩ := cutOf_spec (s.baseAddress / 32) place positive enough
  simp only [unitLimit, headerSize] at *
  have rest : chunkSize - size - (cutOf (s.baseAddress / 32) place chunkSize align size).freeSpaceLhs
      - 1 = (cutOf (s.baseAddress / 32) place chunkSize align size).freeSpaceRhs := rfl
  have lhs : (cutOf (s.baseAddress / 32) place chunkSize align size).headerOffset - place =
      (cutOf (s.baseAddress / 32) place chunkSize align size).freeSpaceLhs := rfl
  have wanted : alignUp (s.baseAddress / 32) align (place + 1) - 1 =
      (cutOf (s.baseAddress / 32) place chunkSize align size).headerOffset := rfl
  rw [cutChunk, bind_ok (get_apply s), bind_ok (lift_ok (offset_of_unit placed (by omega)) s)]
  simp only [headerSize]
  rw [bind_ok (lift_ok (add_ok (by simp only [sizeBits]; omega)) s),
    bind_ok (lift_ok (alignOffset_ok _ power small (by omega) (by omega)) s),
    bind_ok (lift_ok (uncheckedSub_ok (by omega)) s), wanted,
    bind_ok (paranoidAssert_ok (by simp only [decide_eq_true_eq]; omega)),
    bind_ok (lift_ok (uncheckedSub_ok (by omega)) s), lhs,
    bind_ok (lift_ok (uncheckedSub_ok (by omega)) s),
    bind_ok (lift_ok (uncheckedSub_ok (by omega)) s),
    bind_ok (lift_ok (uncheckedSub_ok (by omega)) s), rest, ← data,
    bind_ok (lift_ok (uncheckedAdd_ok (by omega)) s),
    bind_ok (lift_ok (withFreeHeader_ok (by omega)) s)]
  rfl

structure Fit.Pieces (align size : Nat) (phase : Nat) (fit : Fit) : Prop where
  data : fit.cut.dataOffset = alignUp phase align (fit.place + headerSize)
  header : fit.cut.headerOffset = fit.place + fit.cut.freeSpaceLhs
  behind : fit.cut.dataOffset = fit.cut.headerOffset + headerSize
  whole : fit.cut.freeSpaceLhs + (size + headerSize) + fit.cut.freeSpaceRhs = fit.chunkSize
  need : fit.cut.endOffset = endOffset (fit.cut.dataOffset + size) fit.cut.freeSpaceRhs

theorem Fit.Valid.pieces (valid : fit.Valid target phase align size heap) (positive : 0 < align) :
    fit.Pieces align size phase := by
  obtain ⟨data, header, behind, whole⟩ := cutOf_spec phase fit.place positive valid.enough
  rw [← valid.cut] at data header behind whole
  exact ⟨data, header, behind, whole, by rw [valid.cut]; rfl⟩

theorem allocate_chunks (target : Target) (heap : Heap) (fit : Fit) (size : Nat) :
    ∃ before after, (heap.allocate target fit size).chunks =
        before ++ ⟨size + headerSize, true⟩ :: after ∧
      span Chunk.size before = fit.place + fit.cut.freeSpaceLhs := by
  obtain ⟨rest, filled⟩ := Gap.fill_before target (fit.carved target heap.bins size)
  refine ⟨((fit.gap heap.bins).placeFree target fit.cut.freeSpaceLhs).before,
    rest ++ fit.after, ?_, ?_⟩
  · rw [Heap.allocate, Gap.heap, filled, Gap.fill_after]
    simp [Fit.carved, Gap.place, Gap.placeFree_after, Fit.gap]
  · exact Gap.placeFree_start target _ _

theorem Fit.Valid.gap_allots (valid : fit.Valid target phase align size heap)
    (heapValid : heap.Valid target total) (bins : Nat → List Nat) {p n : Nat} :
    (fit.gap bins).chunkAt p ⟨n, true⟩ ↔ heap.Allots p n := by
  refine (Heap.openAt_allots heapValid valid.chunks _).trans
    ⟨fun other => other.1, fun here => ⟨here, ?_⟩⟩
  rintro rfl
  have unique := tileAt_unique heapValid.positive here (chunkAt_here valid.chunks)
  cases unique

theorem Heap.allocate_allots (heapValid : heap.Valid target total)
    (valid : fit.Valid target phase align size heap) (pieces : fit.Pieces align size phase)
    {p n : Nat} : (heap.allocate target fit size).Allots p n ↔
      (p = fit.cut.headerOffset ∧ n = size + headerSize) ∨ heap.Allots p n := by
  have whole := pieces.whole
  have lhs : fit.cut.freeSpaceLhs ≤ (fit.gap heap.bins).size := by
    simp only [Fit.gap]
    omega
  have room : size + headerSize ≤
      ((fit.gap heap.bins).placeFree target fit.cut.freeSpaceLhs).size := by
    rw [Gap.placeFree_size]
    simp only [Fit.gap]
    omega
  rw [Heap.allocate, Gap.fill_allots, Fit.carved, Gap.place_chunkAt target _ room,
    Gap.placeFree_allots lhs, valid.gap_allots heapValid, Gap.placeFree_start, pieces.header]
  simp [Fit.gap, Gap.start, Fit.place]

end Fits

section Carve

variable {heap : Heap} {align size : Nat} {fit : Fit}

theorem unregisterFit_ok (represents : Represents total s heap)
    (valid : fit.Valid build.target (s.baseAddress / 32) align size heap) :
    ∃ s', unregisterFreeSpaceFirstChunk build (s.unit fit.place)
        (BitMask.index build.target.maskBits fit.bin) s = .ok ((), s') ∧
      Opened total s' (fit.gap heap.bins) ∧ (fit.gap heap.bins).ClosedLeft ∧
      (fit.gap heap.bins).ClosedRight ∧
      Frame (Outside s.allocatedSpace (fit.gap heap.bins).Room) s s' := by
  obtain ⟨rest, head⟩ := valid.head
  obtain ⟨left, tagged, right⟩ := represents.around valid.chunks
  have opened := represents.valid.openAt valid.chunks
  simp only [Bool.false_eq_true, ↓reduceIte, ← valid.bin, represents.space] at opened
  obtain ⟨s', run, index, relinked⟩ := unregisterFreeSpaceFirstChunk_ok represents.placed
    represents.index head (by rw [Fit.place, tagged.2, Chunk.tag_isAllocated])
  have chains := List.isChain_append.mp (valid.chunks ▸ represents.valid.separated)
  refine ⟨s', run, ⟨relinked.frame.placed represents.placed, ?_, index,
    tagged_relinked relinked ▸ left, _, tagged_relinked relinked ▸ right⟩, ?_, ?_,
    relinked.frame.mono ?_⟩
  · rw [relinked.frame.allocatedSpace]
    exact opened
  · exact fun last member => (chains.2.2 last member _ rfl).resolve_right Bool.false_ne_true
  · exact fun first member =>
      ((List.isChain_cons.mp chains.2.1).1 first member).resolve_left Bool.false_ne_true
  · rintro place ⟨bin, member⟩
    obtain ⟨free, here, _⟩ := (represents.valid.registered bin place).mp member
    by_cases same : place = fit.place
    · subst same
      exact Gap.outside_start opened (represents.materialized here).1
    · exact Gap.outside_of_chunkAt opened (Heap.others_gap valid.chunks ⟨here, same⟩ _)

theorem Fit.Pieces.carved {phase : Nat} (pieces : fit.Pieces align size phase) (target : Target)
    (bins : Nat → List Nat) :
    (fit.carved target bins size).start = fit.cut.dataOffset + size ∧
      (fit.carved target bins size).size = fit.cut.freeSpaceRhs ∧
      ∃ rest, (fit.carved target bins size).before =
          (fit.before ++ rest) ++ [⟨size + headerSize, true⟩] ∧
        span Chunk.size (fit.before ++ rest) = fit.cut.headerOffset := by
  obtain ⟨-, header, behind, whole, -⟩ := pieces
  have start := Gap.placeFree_start target (fit.gap bins) fit.cut.freeSpaceLhs
  have room := Gap.placeFree_size target (fit.gap bins) fit.cut.freeSpaceLhs
  have start₁ : (fit.gap bins).start = fit.place := rfl
  have size₁ : (fit.gap bins).size = fit.chunkSize := rfl
  obtain ⟨rest, left⟩ : ∃ rest, ((fit.gap bins).placeFree target fit.cut.freeSpaceLhs).before =
      fit.before ++ rest := by
    rw [Gap.placeFree]
    split
    · exact ⟨[], (List.append_nil _).symm⟩
    · exact ⟨_, rfl⟩
  rw [Fit.carved]
  generalize (fit.gap bins).placeFree target fit.cut.freeSpaceLhs = gap at *
  have next : (gap.place target ⟨size + headerSize, true⟩).start = gap.start + (size + headerSize) := by
    simp [Gap.place, Gap.start]
  refine ⟨by omega, ?_, rest, ?_, ?_⟩
  · simp only [Gap.place]
    omega
  · rw [← left]
    rfl
  · rw [← left, ← Gap.start]
    omega

/-- The chunk that was found is unlinked, and what precedes the free space on its right is
written: free space on its left and the header of the new chunk. -/
theorem carveLeft_ok (represents : Represents total s heap) (positive : 0 < align)
    (valid : fit.Valid build.target (s.baseAddress / 32) align size heap)
    (space : fit.cut.dataOffset + size ≤ s.allocatedSpace) :
    ∃ s₁ s₂ s₃ prevChunkSize,
      unregisterFreeSpaceFirstChunk build (s.unit fit.place)
        (BitMask.index build.target.maskBits fit.bin) s = .ok ((), s₁) ∧
      registerFreeSpace build (s.unit fit.place) (lastSize Chunk.size 0 fit.before)
        fit.cut.freeSpaceLhs s₁ = .ok (prevChunkSize, s₂) ∧
      registerAllocation build (s.unit fit.cut.headerOffset) prevChunkSize (size + headerSize) s₂ =
        .ok ((), s₃) ∧
      Opened total s₃ (fit.carved build.target heap.bins size) ∧
      (fit.carved build.target heap.bins size).ClosedRight ∧
      Frame (Outside s.allocatedSpace (ChunkAt 0 (heap.allocate build.target fit size).chunks)) s s₃ := by
  have pieces := valid.pieces positive
  obtain ⟨-, header, behind, whole, -⟩ := id pieces
  have inside : fit.place < s.allocatedSpace := (represents.materialized (chunkAt_here valid.chunks)).1
  simp only [headerSize] at header behind whole
  obtain ⟨s₁, unlink, opened₁, closedLeft, closedRight, frame₁⟩ := unregisterFit_ok represents valid
  have start₁ : (fit.gap heap.bins).start = fit.place := rfl
  have size₁ : (fit.gap heap.bins).size = fit.chunkSize := rfl
  have keeps₁ : ∀ p n, heap.Allots p n → (fit.gap heap.bins).chunkAt p ⟨n, true⟩ := fun p n =>
    (valid.gap_allots represents.valid _).mpr
  have allots : ∀ p n, (heap.allocate build.target fit size).Allots p n →
      (p = fit.cut.headerOffset ∧ n = size + headerSize) ∨ heap.Allots p n := fun p n =>
    (Heap.allocate_allots represents.valid valid pieces).mp
  obtain ⟨s₂, left, opened₂, frame₂⟩ := registerFreeSpace_place opened₁
    (show fit.cut.freeSpaceLhs ≤ _ by rw [size₁]; omega)
    (fun _ => by rw [frame₁.allocatedSpace, start₁]; exact inside) (fun _ => closedLeft)
  have start₂ := Gap.placeFree_start build.target (fit.gap heap.bins) fit.cut.freeSpaceLhs
  have size₂ := Gap.placeFree_size build.target (fit.gap heap.bins) fit.cut.freeSpaceLhs
  have after₂ := Gap.placeFree_after build.target (fit.gap heap.bins) fit.cut.freeSpaceLhs
  have keeps₂ := fun p n here => Gap.placeFree_chunkAt build.target fit.cut.freeSpaceLhs
    (show _ ≤ (fit.gap heap.bins).size by rw [size₁]; omega) p ⟨n, true⟩ (keeps₁ p n here)
  rw [Fit.carved]
  generalize (fit.gap heap.bins).placeFree build.target fit.cut.freeSpaceLhs = gap₂ at *
  have space₂ : s₂.allocatedSpace = s.allocatedSpace :=
    frame₂.allocatedSpace.trans frame₁.allocatedSpace
  rw [start₁] at start₂
  rw [size₁] at size₂
  obtain ⟨s₃, allocate, opened₃, frame₃⟩ := registerAllocation_place opened₂
    (Nat.succ_pos size) (by omega) (by rw [space₂]; omega)
  rw [frame₁.unit, start₁] at left
  rw [frame₂.unit, frame₁.unit, start₂, ← header] at allocate
  refine ⟨s₁, s₂, s₃, _, unlink, left, allocate, opened₃, ?_, ?_⟩
  · simp only [Gap.ClosedRight, Gap.place, after₂]
    exact closedRight
  -- Old chunks stay in place at every step; the new one lies in the room that is left.
  · rw [frame₁.allocatedSpace] at frame₂
    rw [space₂] at frame₃
    refine (frame₁.mono fun v outside => ?_).trans ((frame₂.mono fun v outside => ?_).trans
      (frame₃.mono fun v outside => ?_))
    all_goals
      refine outside.mono fun p n here => ⟨n, Nat.le_refl _, ?_⟩
      rcases allots p n here with ⟨rfl, rfl⟩ | old
    · exact Or.inr (by simp only [start₁, size₁, headerSize]; omega)
    · exact Or.inl (keeps₁ p n old)
    · exact Or.inr (by simp only [start₁, size₁, headerSize]; omega)
    · exact Or.inl (keeps₁ p n old)
    · exact Or.inr (by simp only [start₂, size₂, headerSize]; omega)
    · exact Or.inl (keeps₂ p n old)

theorem carveChunk_ok (constant : ∀ e, E.totalSpace e = total)
    (represents : Represents total s heap) (positive : 0 < align)
    (valid : fit.Valid build.target (s.baseAddress / 32) align size heap)
    (space : fit.cut.endOffset ≤ s.allocatedSpace) :
    ∃ s', carveChunk build E (s.unit fit.place) (BitMask.index build.target.maskBits fit.bin) size
        fit.cut s = .ok (s.unit fit.cut.headerOffset, s') ∧
      Represents total s' (heap.allocate build.target fit size) ∧
      Frame (Outside s.allocatedSpace (ChunkAt 0 (heap.allocate build.target fit size).chunks)) s s' := by
  have placed := represents.placed
  have limit := placed.small
  have within := placed.within
  have fits : fit.place + fit.chunkSize ≤ total := by
    rw [← represents.valid.tiles, valid.chunks, span_append, span_cons]
    simp only [Fit.place]
    omega
  have inside : fit.place < s.allocatedSpace := (represents.materialized (chunkAt_here valid.chunks)).1
  have tagged := (represents.around valid.chunks).2.1
  have pieces := valid.pieces positive
  obtain ⟨-, header, behind, whole, need⟩ := id pieces
  have above : fit.cut.dataOffset + size ≤ s.allocatedSpace := by
    rw [need] at space
    exact (Nat.le_add_right _ _).trans space
  -- The left piece and the new chunk stand before a gap, which the right piece fills.
  obtain ⟨s₁, s₂, s₃, prevChunkSize, unlink, left, allocate, opened, closed, frame₃⟩ :=
    carveLeft_ok represents positive valid above
  obtain ⟨start, rest, filler, ends, ahead⟩ := pieces.carved build.target heap.bins
  have result : heap.allocate build.target fit size =
      ((fit.carved build.target heap.bins size).fill build.target).heap
        (max heap.allocatedSpace fit.cut.endOffset) := rfl
  have allots : ∀ p n, (heap.allocate build.target fit size).Allots p n →
      (fit.carved build.target heap.bins size).chunkAt p ⟨n, true⟩ := fun p n =>
    Gap.fill_allots.mp
  generalize fit.carved build.target heap.bins size = gap at *
  obtain ⟨s₄, s₅, register, frame₄, close, represents₅, frame₅, check⟩ := fill_checked constant opened
    ends (fun remains => by
      rw [rest] at remains
      rw [need, endOffset, if_neg remains, freeChunkHeaderSize] at space
      rw [frame₃.allocatedSpace]
      omega) closed (freeChunkHeader_fits build.target)
  -- The three checks at the end look at the new chunk, the first of the pieces and the last one.
  have checkHere := check (fit.before ++ filler) [⟨size + headerSize, true⟩] (Or.inl ends.symm)
  have checkFirst := check fit.before (filler ++ [⟨size + headerSize, true⟩])
    (Or.inl (by rw [ends, List.append_assoc]))
  have checkNext := check gap.before [] (Or.inl (List.append_nil _))
  rw [frame₃.unit] at checkHere checkFirst checkNext
  rw [ahead] at checkHere
  rw [← Fit.place] at checkFirst
  rw [← Gap.start, start] at checkNext
  rw [frame₃.unit, start, rest] at register
  rw [frame₃.unit, frame₃.unit, start, rest] at close
  simp only [headerSize, unitLimit] at *
  have behindChunk : fit.cut.headerOffset + 1 + size = fit.cut.dataOffset + size := by omega
  refine ⟨s₅, ?_, ?_, ?_⟩
  · rw [carveChunk, bind_ok (get_apply s), base_add_units placed (by omega),
      bind_ok (load_ok placed inside _), Fit.place, tagged.1, ← Fit.place, bind_ok unlink]
    refine (bind_ok left).trans ?_
    rw [bind_ok (lift_ok (uncheckedAdd_ok (by simp only [headerSize]; omega)) s₂)]
    simp only [headerSize]
    rw [bind_ok allocate, add_units placed _ _ (by omega), add_units placed _ _ (by omega),
      behindChunk, bind_ok register, add_units placed _ _ (by omega),
      bind_ok (endOfAddressSpace_ok (frame₄.placed opened.placed) constant), frame₄.unit, frame₃.unit,
      bind_ok close, bind_ok checkHere, sub_units placed _ _ (by omega) (by omega), header,
      Nat.add_sub_cancel, bind_ok checkFirst, bind_ok checkNext]
    rfl
  · rw [result, max_eq_left (by rw [represents.space]; exact space), represents.space,
      ← frame₃.allocatedSpace]
    exact represents₅
  · rw [frame₃.allocatedSpace] at frame₅
    exact frame₃.trans (frame₅.mono fun v outside =>
      outside.mono fun p n here => ⟨n, Nat.le_refl _, allots p n here⟩)

def State.zeroed {width : Nat} (zeroMemory : Bool) (address length : Nat) (s : State width σ) :
    State width σ :=
  if zeroMemory then
    { s with memory := fill s.memory address length 0
             payloadWrites := (address, length) :: s.payloadWrites }
  else s

theorem aligned_data (placed : Placed total s) (phase_zero : (s.baseAddress / 32 +
    fit.cut.dataOffset) % align = 0) (small : align ≤ 2 ^ 25) :
    s.unit fit.cut.dataOffset % Size.bytes align = 0 := by
  have units : s.unit fit.cut.dataOffset = 32 * (s.baseAddress / 32 + fit.cut.dataOffset) := by
    have aligned := placed.aligned
    simp only [State.unit]
    omega
  rw [units, bytes_eq (by simp only [unitLimit]; omega), Nat.mul_mod_mul_left, phase_zero, Nat.mul_zero]

theorem finishAlloc_ok (constant : ∀ e, E.totalSpace e = total)
    (represents : Represents total s (heap.allocate build.target fit size))
    (pieces : fit.Pieces align size (s.baseAddress / 32)) (positive : 0 < align)
    (small : align ≤ 2 ^ 25) (zeroMemory : Bool) :
    finishAlloc build E (s.unit fit.cut.headerOffset) align size zeroMemory s =
      .ok (s.unit fit.cut.dataOffset,
        s.zeroed zeroMemory (s.unit fit.cut.dataOffset) (32 * size)) := by
  have placed := represents.placed
  have limit := placed.small
  have within := placed.within
  obtain ⟨before, after, chunks, start⟩ := allocate_chunks build.target heap fit size
  rw [← pieces.header] at start
  obtain ⟨_, granted, tiles, _, tag, header⟩ := represents.holds chunks
  have check := paranoidCheckChunk_ok constant represents chunks
  rw [start] at granted tiles tag header check
  have aligned := aligned_data placed
    (by rw [pieces.data]; exact (alignUp_spec _ _ positive).1) small
  rw [pieces.behind] at aligned ⊢
  simp only [unitLimit, headerSize] at *
  have checkSize : checkSizeOfChunk build (s.unit fit.cut.headerOffset) size s = .ok ((), s) := by
    rw [checkSizeOfChunk]
    split
    · rw [bind_ok (load_ok placed (by omega) _), tag, Chunk.tag_size,
        bind_ok (lift_ok (uncheckedAdd_ok (by simp only [headerSize]; omega)) s)]
      exact assertTrue_ok (by simp [headerSize])
    · rfl
  rw [finishAlloc, bind_ok checkSize]
  simp only [headerSize]
  rw [add_units placed _ _ (by omega), bind_ok (paranoidAssert_ok (by simpa using aligned)), header,
    bind_ok check, bytes_eq (by simp only [unitLimit]; omega)]
  cases zeroMemory with
  | false => rfl
  | true =>
      have mapped : s.mapped (s.unit (fit.cut.headerOffset + 1)) (32 * size) = true :=
        mapped_units placed (by omega)
      have zero : zeroPayload build (s.unit (fit.cut.headerOffset + 1)) (32 * size) s =
          .ok ((), s.zeroed true (s.unit (fit.cut.headerOffset + 1)) (32 * size)) := by
        rw [zeroPayload, if_pos mapped]
        rfl
      exact bind_ok zero

end Carve

section Alloc

variable {heap : Heap} {align size minSize bin : Nat} {fit : Fit}

theorem minSizeFor_ok (positive : 0 < align) :
    minSizeFor build align size s =
      .ok (if Heap.minSize align size < 2 ^ 32 then some (Heap.minSize align size) else none, s) := by
  rw [minSizeFor, Heap.minSize]
  cases first : Size.checkedAdd size headerSize with
  | none =>
      rw [Size.checkedAdd, sizeBits] at first
      split at first
      · cases first
      · rw [if_neg (by omega)]
        rfl
  | some sum =>
      obtain ⟨_, rfl⟩ := checkedAdd_eq_some.mp first
      refine (bind_ok (lift_ok (uncheckedSub_ok positive) s)).trans ?_
      rfl

theorem checkBinOfChunk_ok {chunkSize : Nat} (same : bin = Bins.binOf build.target chunkSize) :
    checkBinOfChunk build chunkSize (BitMask.index build.target.maskBits bin) s = .ok ((), s) := by
  rw [checkBinOfChunk]
  split
  · have equal : BitIndex.eq build.paranoid (BitMask.index build.target.maskBits bin)
        (BitMask.index build.target.maskBits bin) = .ok true := by simp [BitIndex.eq]
    rw [bind_ok (sizeToBinRoundDown_ok chunkSize), ← same, bind_ok (lift_ok equal s)]
    rfl
  · rfl

theorem allocFrom_reads (constant : ∀ e, E.totalSpace e = total)
    (represents : Represents total s heap) {before after : List Chunk} {chunkSize : Nat}
    (here : heap.chunks = before ++ ⟨chunkSize, false⟩ :: after)
    (head : (heap.bins bin).head? = some (span Chunk.size before))
    (same : bin = Bins.binOf build.target chunkSize) (isCalloc : Bool) :
    allocFrom build E (BitMask.index build.target.maskBits bin) minSize align size isCalloc s =
      (if chunkSize < minSize then return none
      else do
        let cut ← cutChunk build (s.unit (span Chunk.size before)) chunkSize align size
        let s' ← get
        let zeroMemory := decide (s'.allocatedSpace > cut.dataOffset) && isCalloc
        let isOk ← expandTo build E cut.endOffset
        if !isOk then
          return none
        else do
          let data ← commitAlloc build E (s.unit (span Chunk.size before))
            (BitMask.index build.target.maskBits bin) align size cut zeroMemory
          return some data : Run build σ (Option Nat)) s := by
  have inside := (represents.materialized (chunkAt_here here)).1
  have tagged := (represents.around here).2.1
  have first := represents.index.first bin (same ▸ Bins.binOf_lt _ _)
  rw [head] at first
  rw [allocFrom, BitMask.index_index, bind_ok (getFirst_ok first)]
  simp only [State.link]
  rw [bind_ok (paranoidCheckChunk_ok constant represents here),
    bind_ok (load_ok represents.placed inside _), tagged.2, Chunk.tag_isAllocated,
    bind_ok (paranoidAssert_ok (show (!false) = true from rfl)), Chunk.tag_size,
    bind_ok (checkBinOfChunk_ok same)]

theorem allocate_expand (target : Target) (heap : Heap) (fit : Fit) (size : Nat) :
    (heap.expand fit.cut.endOffset).allocate target fit size = heap.allocate target fit size := by
  simp [Heap.allocate, Heap.expand]

theorem Fit.Valid.fits (valid : fit.Valid build.target (s.baseAddress / 32) align size heap)
    (represents : Represents total s heap) : fit.place + fit.chunkSize ≤ total := by
  rw [← represents.valid.tiles, valid.chunks, span_append, span_cons]
  simp only [Fit.place]
  omega

theorem commitAlloc_ok (constant : ∀ e, E.totalSpace e = total)
    (represents : Represents total s heap) (positive : 0 < align) (small : align ≤ 2 ^ 25)
    (valid : fit.Valid build.target (s.baseAddress / 32) align size heap)
    (space : fit.cut.endOffset ≤ s.allocatedSpace) (zeroMemory : Bool) :
    ∃ s', commitAlloc build E (s.unit fit.place) (BitMask.index build.target.maskBits fit.bin) align
        size fit.cut zeroMemory s = .ok (s.unit fit.cut.dataOffset,
          s'.zeroed zeroMemory (s.unit fit.cut.dataOffset) (32 * size)) ∧
      Represents total s' (heap.allocate build.target fit size) ∧
      Frame (Outside s.allocatedSpace (ChunkAt 0 (heap.allocate build.target fit size).chunks)) s s' := by
  obtain ⟨s', carve, represents', frame⟩ :=
    carveChunk_ok constant represents positive valid space
  have finish := finishAlloc_ok constant represents'
    (by rw [frame.baseAddress]; exact valid.pieces positive) positive small zeroMemory
  rw [frame.unit, frame.unit] at finish
  refine ⟨s', ?_, represents', frame⟩
  rw [commitAlloc, bind_ok carve, finish]

theorem small_align (fits : Heap.minSize align size ≤ maxAllocationSize) : align ≤ 2 ^ 25 := by
  have top : maxAllocationSize = 2 ^ 25 := by decide
  simp only [Heap.minSize, headerSize] at fits
  omega

/-- With a fit, `alloc_impl` settles as decided. -/
theorem allocInitialized_some (constant : ∀ e, E.totalSpace e = total)
    (represents : Represents total s heap) {k : Nat} (power : align = 2 ^ k) (isCalloc : Bool)
    (chosen : heap.chooseFit build.target (s.baseAddress / 32) align size = some fit) :
    Settles E total (ChunkAt 0 (heap.allocate build.target fit size).chunks)
      (allocInitialized build E align size isCalloc)
      (State.zeroed (decide (s.allocatedSpace > fit.cut.dataOffset) && isCalloc)
        (s.unit fit.cut.dataOffset) (32 * size)) s
      (some (fit.cut.endOffset, s.unit fit.cut.dataOffset,
        heap.allocate build.target fit size)) := by
  obtain ⟨valid, limit⟩ := chooseFit_valid represents.valid chosen
  have positive : 0 < align := power ▸ Nat.two_pow_pos k
  have small := small_align limit
  have fits := valid.fits represents
  obtain ⟨data, header, behind, whole, need⟩ := valid.pieces positive
  have top : maxAllocationSize = 2 ^ 25 := by decide
  obtain ⟨rest, head⟩ := valid.head
  have inside : fit.cut.endOffset ≤ total := by
    have bound := endOffset_le (fit.cut.dataOffset + size) fit.cut.freeSpaceRhs
    simp only [headerSize] at *
    omega
  refine Settles.commit (commitAlloc build E (s.unit fit.place)
    (BitMask.index build.target.maskBits fit.bin) align size fit.cut
    (decide (s.allocatedSpace > fit.cut.dataOffset) && isCalloc)) inside ?_ fun granted => ?_
  · rw [allocInitialized, bind_ok (minSizeFor_ok positive), if_pos (by omega)]
    simp only
    rw [if_neg (Nat.not_lt.mpr limit), bind_ok (findBin_ok represents.index _), valid.found]
    simp only [Option.map_some]
    rw [allocFrom_reads constant represents valid.chunks (by rw [head]; rfl) valid.bin,
      if_neg (Nat.not_lt.mpr valid.enough)]
    refine (bind_ok (cutChunk_ok represents.placed power small fits valid.enough)).trans ?_
    rw [← valid.cut, bind_ok (get_apply s)]
    rfl
  · have represents' := represents.asked (E := E) inside
    rw [if_pos granted] at represents'
    have space : fit.cut.endOffset ≤ (s.ask E fit.cut.endOffset).2.allocatedSpace := by
      rw [ask_allocatedSpace, if_pos granted]
      exact le_max_right _ _
    have committed := commitAlloc_ok constant represents' positive small
      (by rw [ask_baseAddress]; exact ⟨valid.chunks, valid.head, valid.bin, valid.enough, valid.cut,
        valid.found⟩) space (decide (s.allocatedSpace > fit.cut.dataOffset) && isCalloc)
    simp only [ask_unit, allocate_expand] at committed
    exact committed

theorem allocInitialized_none (constant : ∀ e, E.totalSpace e = total)
    (represents : Represents total s heap) (positive : 0 < align) (isCalloc : Bool)
    (chosen : heap.chooseFit build.target (s.baseAddress / 32) align size = none) :
    allocInitialized build E align size isCalloc s = .ok (none, s) := by
  have top : maxAllocationSize = 2 ^ 25 := by decide
  rw [allocInitialized, bind_ok (minSizeFor_ok positive)]
  by_cases wide : Heap.minSize align size < 2 ^ 32
  · rw [if_pos wide]
    simp only
    by_cases limit : Heap.minSize align size > maxAllocationSize
    · rw [if_pos limit]
      rfl
    rw [if_neg limit, bind_ok (findBin_ok represents.index _)]
    simp only [Heap.chooseFit, if_neg limit] at chosen
    cases found : heap.chooseBin build.target (Heap.minSize align size) with
    | none => rfl
    | some bin =>
        obtain ⟨before, chunkSize, after, chunks, head, same⟩ := chooseBin_head represents.valid found
        simp only [found, head, Heap.split_here represents.valid chunks] at chosen
        have short : chunkSize < Heap.minSize align size := by
          by_contra enough
          rw [if_neg enough] at chosen
          cases chosen
        simp only [Option.map_some]
        rw [allocFrom_reads constant represents chunks head same, if_pos short]
        rfl
  · rw [if_neg wide]
    rfl

end Alloc

end Picoalloc
