import Picoalloc.Fitting
import Picoalloc.Footprints
import Picoalloc.Integrity
import Picoalloc.Twins

/-!
Zeroed allocations from an array that is not zero. `alloc_zeroed` fills what lies below
the allocated space and takes the rest for zero, so it returns zeros in every session
exactly when the array holds zeros from its second unit on: a session that fills the
array up to a unit gets that unit as it was.
-/

namespace Picoalloc
open CheckedMachine ByteMemory Tilings

variable {build : Build} {σ : Type} {E : Env σ} {total : Nat} {memory : Memory}

/-- What `alloc_zeroed` returns is zero in every session over a memory. -/
def ReturnsZeros (build : Build) (E : Env σ) (memory : Memory) : Prop :=
  ∀ session : Session build σ, Reached build E memory session → ∀ align size session' pointer length,
    step E (.allocZeroed align size) session = .ok (.pointer (some pointer), session') →
    usableSize build pointer session'.allocator = .ok (length, session'.allocator) →
    ∀ i < length, session'.allocator.memory (pointer + i) = 0

/-- The units of an array that payloads can take hold zeros: all but the first, which is
the header of the first chunk. -/
def ZeroArray (memory : Memory) (pointer total : Nat) : Prop :=
  ∀ i, 32 ≤ i → i < 32 * total → memory (pointer + i) = 0

section Base

variable {target : Target} {pointer size : Nat} {s s' : AllocatorState build Unit}

/-- The base is the array once there is one, which takes an array of a unit at least. -/
def AtArray (pointer total : Nat) (s : AllocatorState build σ) : Prop :=
  s.baseAddress = Pointer.null ∨ s.baseAddress = pointer ∧ 0 < total

instance atArray_anchored (pointer total : Nat) :
    Anchored (AtArray pointer total : AllocatorState build σ → Prop) where
  congr _ _ base _ _ placed := by
    rw [AtArray, base]
    exact placed

instance atArray_overwrites (pointer total : Nat) :
    Overwrites (AtArray pointer total : AllocatorState build σ → Prop) where
  overwrite _ _ _ placed := placed

instance atArray_expands (pointer total : Nat) :
    Expands E (AtArray pointer total : AllocatorState build σ → Prop) where
  expand _ _ _ placed := placed

theorem initializeImpl_atArray {isOk : Bool} (units : Size.fromBytesUsize target size = some total)
    (idle : s.baseAddress = Pointer.null)
    (ran : initializeImpl build (arrayPointer target pointer size) s = .ok (isOk, s')) :
    AtArray pointer total s' ∧ (isOk = true → 0 < total) := by
  obtain ⟨base, s₁, reserve, ran⟩ := bind_done ran
  obtain ⟨placed₁, here⟩ : AtArray pointer total s₁ ∧ base = pointer := by
    cases reserve
    exact ⟨Or.inl idle, rfl⟩
  split at ran
  · cases ran
    exact ⟨placed₁, fun impossible => nomatch impossible⟩
  obtain ⟨_, s₂, aligned, ran⟩ := bind_done ran
  have placed₂ : AtArray pointer total s₂ := Maintains.keeps s₁ _ s₂ placed₁ aligned
  obtain ⟨_, s₃, pointerAligned, ran⟩ := bind_done ran
  have placed₃ : AtArray pointer total s₃ := Maintains.keeps s₂ _ s₃ placed₂ pointerAligned
  obtain ⟨granted, s₄, request, ran⟩ := bind_done ran
  obtain ⟨rfl, rfl⟩ := Prod.mk.inj (Except.ok.inj request)
  split at ran
  · obtain ⟨_, s₅, given, ran⟩ := bind_done ran
    cases given
    cases ran
    exact ⟨placed₃, fun impossible => nomatch impossible⟩
  next answer =>
  have positive : 0 < total := by
    simpa [arrayPointer, units, freeChunkHeaderSize, Nat.pos_iff_ne_zero] using answer
  obtain ⟨_, s₅, registered, ran⟩ := bind_done ran
  cases ran
  exact ⟨registerFirstChunk_keeps (Or.inr ⟨here, positive⟩) registered, fun _ => positive⟩

theorem initializeAllocator_atArray {isOk : Bool} (units : Size.fromBytesUsize target size = some total)
    (placed : AtArray pointer total s)
    (ran : initializeAllocator build (arrayPointer target pointer size) s = .ok (isOk, s')) :
    AtArray pointer total s' ∧ (isOk = true → 0 < total) := by
  rw [initializeAllocator, bind_ok (get_apply s)] at ran
  split at ran
  · next null => exact initializeImpl_atArray units (by simpa [Pointer.isNull, Pointer.null] using null) ran
  · next based =>
    have nonnull : s.baseAddress ≠ Pointer.null := by simpa [Pointer.isNull, Pointer.null] using based
    cases ran
    exact ⟨placed, fun _ => (placed.resolve_left nonnull).2⟩

theorem Reached.atArray {session : Session build Unit}
    (units : Size.fromBytesUsize target size = some total)
    (reached : Reached build (arrayPointer target pointer size) memory session) :
    AtArray pointer total session.allocator := by
  have starts : Maintains (AtArray pointer total)
      (initializeAllocator build (arrayPointer target pointer size)) :=
    ⟨fun _ _ _ placed ran => (initializeAllocator_atArray units placed ran).1⟩
  refine Reachable.invariant (fun session => AtArray pointer total session.allocator) ?_ ?_ reached
  · rintro _ ⟨env, rfl⟩
    exact Or.inl rfl
  · intro s op outcome s' placed _ ran
    exact step_maintains placed ran

theorem allocImpl_positive {align requestedSize data : Nat} {isCalloc : Bool}
    (units : Size.fromBytesUsize target size = some total) (placed : AtArray pointer total s)
    (ran : allocImpl build (arrayPointer target pointer size) align requestedSize isCalloc s =
      .ok (some data, s')) : 0 < total := by
  rw [allocImpl] at ran
  split at ran
  · cases ran
  obtain ⟨isOk, s₁, began, ran⟩ := bind_done ran
  split at ran
  · cases ran
  next initialized =>
  exact (initializeAllocator_atArray units placed began).2 (by simpa using initialized)

theorem returnsZeros_of_zeroArray (inplace : build.reallocInplace = true)
    (units : Size.fromBytesUsize build.target size = some total) (small : total < unitLimit)
    (aligned : pointer % 32 = 0) (inside : pointer + 32 * total < 2 ^ build.target.addressBits)
    (zero : ZeroArray memory pointer total) :
    ReturnsZeros build (arrayPointer build.target pointer size) memory := by
  intro session reached align requested session' data length ran sized
  have placed := reached.atArray units
  have positive : 0 < total := by
    obtain ⟨⟨result, s'⟩, called, ran⟩ := result_done ran
    cases ran
    exact allocImpl_positive units placed called
  have lawful := arrayPointer_lawful positive units small aligned inside
  obtain ⟨place, rfl, covered, placed', usable, bytes⟩ :=
    (reached.sound lawful inplace).zeroed lawful ran
  cases sized.symm.trans usable
  intro i bound
  rcases bytes i bound with filled | same
  · exact filled
  rw [same]
  -- The base does not move: the payload lies in the array, behind its first unit.
  have reached' : Reached build (arrayPointer build.target pointer size) memory session' :=
    reached.step (allocation_permitted true align requested session) ran
  have based := ((reached'.atArray units).resolve_left placed'.nonnull.ne').1
  have within := placed'.within
  rw [State.unit, based, Nat.add_assoc]
  simp only [headerSize] at *
  exact zero _ (by omega) (by omega)

end Base

section Frontier

variable {heap : Heap} {fit : Fit} {front size phase : Nat}

/-- A heap filled up to a unit: allocated chunks, then free space of which no more than its
header is granted. -/
structure Heap.Frontier (total front : Nat) (heap : Heap) : Prop where
  chunks : ∃ before, heap.chunks = before ++ [⟨total - front, false⟩] ∧
    span Chunk.size before = front ∧ ∀ chunk ∈ before, chunk.isAllocated = true
  space : heap.allocatedSpace = front + freeChunkHeaderSize

theorem fresh_frontier (target : Target) (total : Nat) : (Heap.fresh target total).Frontier total 0 :=
  ⟨⟨[], rfl, rfl, fun _ member => nomatch member⟩, rfl⟩

theorem loose_unique {before before' after' : List Chunk} {free free' : Chunk}
    (allocated : ∀ chunk ∈ before, chunk.isAllocated = true) (loose : free'.isAllocated = false)
    (same : before ++ [free] = before' ++ free' :: after') :
    before' = before ∧ free' = free ∧ after' = [] := by
  rcases List.append_eq_append_iff.mp same with ⟨middle, left, right⟩ | ⟨middle, left, right⟩
  · cases middle with
    | nil =>
        obtain ⟨head, tail⟩ := List.cons.inj right
        exact ⟨by simpa using left, head.symm, tail.symm⟩
    | cons chunk rest => simp at right
  · cases middle with
    | nil =>
        obtain ⟨head, tail⟩ := List.cons.inj right
        exact ⟨by simpa using left.symm, head, by simpa using tail⟩
    | cons chunk rest =>
        obtain ⟨rfl, -⟩ := List.cons.inj right
        have marked := allocated free' (left ▸ by simp)
        rw [loose] at marked
        cases marked

structure Fit.AtFront (total front size : Nat) (heap : Heap) (fit : Fit) : Prop where
  pieces : ∃ phase, fit.Pieces 1 size phase
  place : fit.place = front
  data : fit.cut.dataOffset = front + headerSize
  left : fit.cut.freeSpaceLhs = 0
  right : size + headerSize + fit.cut.freeSpaceRhs = total - front
  before : ∀ chunk ∈ fit.before, chunk.isAllocated = true
  last : fit.after = []

theorem Heap.Frontier.atFront (frontier : heap.Frontier total front)
    (valid : fit.Valid build.target phase 1 size heap) : fit.AtFront total front size heap := by
  obtain ⟨before, chunks, behind, allocated⟩ := frontier.chunks
  obtain ⟨here, free, last⟩ := loose_unique allocated rfl (chunks.symm.trans valid.chunks)
  have width : fit.chunkSize = total - front := congrArg Chunk.size free
  have place : fit.place = front := by rw [Fit.place, here, behind]
  have pieces := valid.pieces Nat.one_pos
  obtain ⟨-, low, high⟩ := alignUp_spec phase (fit.place + headerSize) Nat.one_pos
  rw [← pieces.data, place] at low high
  have header := pieces.header
  have data := pieces.behind
  have whole := pieces.whole
  exact ⟨⟨phase, pieces⟩, place, by omega, by omega, by omega, here ▸ allocated, last⟩

theorem Fit.AtFront.frontier (target : Target) (atFront : fit.AtFront total front size heap)
    (frontier : heap.Frontier total front) (room : front + (size + headerSize) < total) :
    (heap.allocate target fit size).Frontier total (front + (size + headerSize)) := by
  obtain ⟨phase, pieces⟩ := atFront.pieces
  have place := atFront.place
  have data := atFront.data
  have right := atFront.right
  have rest : fit.cut.freeSpaceRhs ≠ 0 := by omega
  constructor
  · refine ⟨fit.before ++ [⟨size + headerSize, true⟩], ?_, ?_, ?_⟩
    · rw [pieces.allocate_shape, atFront.left, atFront.last, freeChunk, if_pos rfl, freeChunk,
        if_neg rest]
      have width : fit.cut.freeSpaceRhs = total - (front + (size + headerSize)) := by omega
      simp [width]
    · rw [Fit.place] at place
      simp [place]
    · intro chunk member
      rcases List.mem_append.mp member with old | new
      · exact atFront.before chunk old
      · rw [List.mem_singleton.mp new]
  · have space : (heap.allocate target fit size).allocatedSpace =
      max heap.allocatedSpace fit.cut.endOffset := rfl
    rw [space, frontier.space, pieces.need, endOffset, if_neg rest]
    simp only [freeChunkHeaderSize, headerSize] at *
    omega

variable {s : AllocatorState build σ} {session : Session build σ}

/-- An allocation of up to a unit from a filled heap is cut at the front and not filled. -/
theorem Represents.fills (constant : ∀ e, E.totalSpace e = total) (represents : Represents total s heap)
    (grants : ∀ need ≤ total, Grants E s need) (frontier : heap.Frontier total front) (small : size ≤ 1)
    (room : front + (size + headerSize) ≤ total) (isCalloc : Bool) :
    ∃ fit s', fit.AtFront total front size heap ∧
      allocImpl build E 1 size isCalloc s = .ok (some (s.unit (front + headerSize)), s') ∧
      Represents total s' (heap.allocate build.target fit size) := by
  obtain ⟨before, chunks, behind, -⟩ := frontier.chunks
  have here : ChunkAt 0 heap.chunks front ⟨total - front, false⟩ := by
    have free := chunkAt_here chunks
    rwa [behind] at free
  have least : Heap.minSize 1 size = size + 1 := rfl
  have top : maxAllocationSize = 2 ^ 25 := by decide
  have slack : (size + 1) / 2 ^ (Bins.binConfig build.target).mantissaBits = 0 := by
    rw [Bins.binConfig_eq]
    apply Nat.div_eq_of_lt
    split <;> simp only <;> omega
  have bounded : Heap.minSize 1 size ≤ maxAllocationSize := by omega
  have fits := represents.fits (by omega) bounded here
    (Or.inl (by rw [least, slack]; simp only [headerSize] at room; omega))
  have found : heap.chooseFit build.target (s.baseAddress / 32) 1 size ≠ none :=
    mt (represents.chooseFit_none bounded).mp fits
  obtain ⟨fit, chosen⟩ := Option.ne_none_iff_exists'.mp found
  have atFront := frontier.atFront (chooseFit_valid represents.valid chosen).1
  obtain ⟨inside, settled⟩ :=
    allocInitialized_some (E := E) constant represents (Nat.pow_zero 2).symm isCalloc chosen
  rw [(ask_grants _).mpr (grants _ inside), if_pos rfl] at settled
  obtain ⟨s', run, represents', -⟩ := settled
  have skipped : decide (s.allocatedSpace > fit.cut.dataOffset) = false := by
    rw [← represents.space, frontier.space, atFront.data]
    simp [freeChunkHeaderSize, headerSize]
  rw [skipped, atFront.data] at run
  refine ⟨fit, s', atFront, ?_, represents'⟩
  rw [allocImpl, if_neg (by decide), bind_ok (initializeAllocator_again represents.placed)]
  exact run

def Filled (E : Env σ) (total : Nat) (memory : Memory) (front : Nat) (session : Session build σ) : Prop :=
  ∃ s₁ heap, (∀ size isCalloc, allocImpl build E 1 size isCalloc session.allocator =
      allocImpl build E 1 size isCalloc s₁) ∧
    Serves total memory { session with allocator := s₁ } heap ∧ heap.Frontier total front

theorem start_filled (lawful : E.Lawful build.target total) {env : σ}
    (starts : (Session.start build env memory).allocator.starts E = true) :
    Filled E total memory 0 (Session.start build env memory) := by
  obtain ⟨s₁, represents, frame, same⟩ :=
    allocImpl_starts lawful (new_uninitialized env memory) starts
  exact ⟨s₁, _, fun size isCalloc => same 1 size isCalloc (by decide),
    (start_idle env memory).started represents frame, fresh_frontier build.target total⟩

theorem Filled.allocates (constant : ∀ e, E.totalSpace e = total)
    (grants : ∀ (s : AllocatorState build σ), ∀ need ≤ total, Grants E s need)
    (filled : Filled E total memory front session) (small : size ≤ 1)
    (room : front + (size + headerSize) ≤ total) (isCalloc : Bool) :
    ∃ s₁ heap fit session', heap.Frontier total front ∧ fit.AtFront total front size heap ∧
      Serves total memory { session with allocator := s₁ } heap ∧
      step E (Op.allocation isCalloc 1 size) session =
        .ok (.pointer (some (s₁.unit (front + headerSize))), session') ∧
      Turn total { session with allocator := s₁ } heap (Op.allocation isCalloc 1 size)
        (.pointer (some (s₁.unit (front + headerSize)))) session' (heap.allocate build.target fit size) ∧
      Serves total memory session' (heap.allocate build.target fit size) := by
  obtain ⟨s₁, heap, same, serves, frontier⟩ := filled
  obtain ⟨fit, s', atFront, run, represents'⟩ :=
    serves.represents.fills constant (grants s₁) frontier small room isCalloc
  have reading : ∀ s : AllocatorState build σ, allocImpl build E 1 size isCalloc s =
      .ok (some (s₁.unit (front + headerSize)), s') →
      step E (Op.allocation isCalloc 1 size) { session with allocator := s } =
        .ok (.pointer (some (s₁.unit (front + headerSize))),
          session.allocated (some (s₁.unit (front + headerSize))) s') := by
    intro s done
    rw [allocation_reads, done]
    rfl
  obtain ⟨heap', turn, serves'⟩ := serves.turn constant (allocation_permitted isCalloc 1 size _)
    (allocation_copies E isCalloc 1 size _) (reading s₁ run)
  obtain rfl := represents'.unique serves'.represents
  exact ⟨s₁, heap, fit, _, frontier, atFront, serves, reading session.allocator ((same _ _).trans run),
    turn, serves'⟩

theorem Filled.next (constant : ∀ e, E.totalSpace e = total)
    (grants : ∀ (s : AllocatorState build σ), ∀ need ≤ total, Grants E s need)
    (filled : Filled E total memory front session) (room : front + 1 < total) :
    ∃ outcome session', step E (.alloc 1 0) session = .ok (outcome, session') ∧
      Filled E total memory (front + 1) session' := by
  obtain ⟨s₁, heap, fit, session', frontier, atFront, -, ran, -, serves'⟩ :=
    filled.allocates constant grants (Nat.zero_le 1) room.le false
  exact ⟨_, session', ran, session'.allocator, _, fun _ _ => rfl, serves',
    atFront.frontier build.target frontier room⟩

theorem Filled.exposes (constant : ∀ e, E.totalSpace e = total)
    (grants : ∀ (s : AllocatorState build σ), ∀ need ≤ total, Grants E s need)
    (filled : Filled E total memory front session) (room : front + 2 ≤ total) :
    ∃ pointer session', step E (.allocZeroed 1 1) session = .ok (.pointer (some pointer), session') ∧
      Placed total session'.allocator ∧
      pointer = session'.allocator.unit (front + headerSize) ∧
      usableSize build pointer session'.allocator = .ok (32, session'.allocator) ∧
      ∀ i < 32, session'.allocator.memory (pointer + i) = memory (pointer + i) := by
  obtain ⟨s₁, heap, fit, session', frontier, atFront, serves, ran, turn, serves'⟩ :=
    filled.allocates constant grants (Nat.le_refl 1) room true
  obtain ⟨place, s', same, rfl, effect, returned⟩ := turn.returned
  obtain rfl : place = front := by
    have units := unit_inj.mp same
    omega
  have space : s₁.allocatedSpace = place + headerSize :=
    serves.represents.space.symm.trans frontier.space
  have here := (effect.allots place (1 + headerSize)).mpr (Or.inl rfl)
  have usable := usableSize_ok effect.represents here
  rw [effect.keeps.unit] at usable
  refine ⟨_, _, ran, effect.represents.placed, (effect.keeps.unit _).symm, usable, fun i inside => ?_⟩
  have skipped := returned.filled i inside
  simp only [space, gt_iff_lt, Nat.lt_irrefl, decide_false, Bool.false_and, Bool.false_eq_true,
    if_false] at skipped
  refine skipped.trans (serves.fresh _ ?_)
  simp only [space, State.unit]
  omega

/-- Every unit but the last comes to the front. -/
theorem reached_filled (lawful : E.Lawful build.target total)
    (grants : ∀ (s : AllocatorState build σ), ∀ need ≤ total, Grants E s need) {env : σ}
    (starts : (Session.start build env memory).allocator.starts E = true) :
    ∀ front < total, ∃ session : Session build σ, Reached build E memory session ∧
      Filled E total memory front session := by
  intro front
  induction front with
  | zero => exact fun _ => ⟨_, .start ⟨env, rfl⟩, start_filled lawful starts⟩
  | succ front ih =>
      intro room
      obtain ⟨session, reached, filled⟩ := ih (by omega)
      obtain ⟨outcome, session', ran, filled'⟩ := filled.next lawful.constant grants room
      exact ⟨session', reached.step (allocation_permitted false 1 0 session) ran, filled'⟩

end Frontier

section Zeros

variable {pointer size : Nat}

/-- A session that filled the array up to a unit shows that unit. -/
theorem zeroArray_of_returnsZeros (units : Size.fromBytesUsize build.target size = some total)
    (small : total < unitLimit) (aligned : pointer % 32 = 0) (nonnull : pointer ≠ Pointer.null)
    (inside : pointer + 32 * total < 2 ^ build.target.addressBits)
    (zeros : ReturnsZeros build (arrayPointer build.target pointer size) memory) :
    ZeroArray memory pointer total := by
  intro i low high
  have positive : 0 < total := by omega
  have lawful := arrayPointer_lawful positive units small aligned inside
  have grants : ∀ s : AllocatorState build Unit, ∀ need ≤ total,
      Grants (arrayPointer build.target pointer size) s need := by
    intro s need enough _
    simpa [arrayPointer, units] using enough
  have starts : (Session.start build () memory).allocator.starts
      (arrayPointer build.target pointer size) = true := by
    simp only [State.starts, State.reserved, State.firstAnswer, arrayPointer, units, Option.getD_some,
      freeChunkHeaderSize, Bool.and_eq_true, bne_iff_ne, ne_eq, decide_eq_true_eq]
    exact ⟨nonnull, positive⟩
  obtain ⟨session, reached, filled⟩ := reached_filled lawful grants starts (i / 32 - 1) (by omega)
  obtain ⟨data, session', ran, placed, rfl, usable, bytes⟩ :=
    filled.exposes lawful.constant grants (by omega)
  have reached' : Reached build (arrayPointer build.target pointer size) memory session' :=
    reached.step (allocation_permitted true 1 1 session) ran
  have based := ((reached'.atArray units).resolve_left placed.nonnull.ne').1
  have zero := zeros session reached 1 1 session' _ 32 ran usable (i % 32) (Nat.mod_lt i (by decide))
  rw [bytes (i % 32) (Nat.mod_lt i (by decide)), State.unit, based] at zero
  have byte : pointer + 32 * (i / 32 - 1 + headerSize) + i % 32 = pointer + i := by
    simp only [headerSize]
    omega
  rwa [byte] at zero

/-- `alloc_zeroed` returns zeros exactly where the array holds them, its first unit apart. -/
theorem returnsZeros_iff (inplace : build.reallocInplace = true)
    (units : Size.fromBytesUsize build.target size = some total) (fits : size ≤ 2 ^ 32 - 32)
    (aligned : pointer % 32 = 0) (nonnull : pointer ≠ Pointer.null)
    (inside : pointer + 32 * total < 2 ^ build.target.addressBits) :
    ReturnsZeros build (arrayPointer build.target pointer size) memory ↔
      ZeroArray memory pointer total := by
  have small : total < unitLimit := by
    have tight := (fromBytesUsize_eq units).2.1
    simp only [unitLimit]
    omega
  exact ⟨zeroArray_of_returnsZeros units small aligned nonnull inside,
    returnsZeros_of_zeroArray inplace units small aligned inside⟩

theorem returnsZeros_sample : ReturnsZeros sampleBuild sampleEnv (fun _ => 0) :=
  (returnsZeros_iff rfl rfl (by decide) rfl (by decide) (by decide)).mpr fun _ _ _ => rfl

/-- An array that an allocator was dropped from shows what its client wrote. -/
theorem reused_array_shows : ∃ session s', Reached sampleBuild sampleEnv (fun _ => 0) session ∧
    drop sampleBuild sampleEnv session.allocator = .ok ((), s') ∧
    ¬ ReturnsZeros sampleBuild sampleEnv s'.memory := by
  obtain ⟨⟨outcome, first⟩, allocated, passed⟩ := check_ok
    (show check (fun first => first.1 == .pointer (some 64) && check (fun second =>
        check (fun third => third.1 == .pointer (some 64) && third.2.allocator.memory 64 == 7)
          (step sampleEnv (.allocZeroed 1 2) (Session.start sampleBuild () second.2.allocator.memory)))
        (step sampleEnv (.write 0 0 7) first.2))
      (step sampleEnv (.alloc 1 2) sampleStart) = true by decide +kernel)
  obtain ⟨rfl, passed⟩ : outcome = .pointer (some 64) ∧ _ := by simpa using passed
  obtain ⟨⟨_, second⟩, wrote, passed⟩ := check_ok passed
  obtain ⟨⟨outcome, third⟩, zeroed, passed⟩ := check_ok passed
  obtain ⟨rfl, seven⟩ : outcome = .pointer (some 64) ∧ _ := by simpa using passed
  have reached : Reached sampleBuild sampleEnv (fun _ => 0) first :=
    sample_reached.step (show Permitted (.alloc 1 2) sampleStart from trivial) allocated
  obtain ⟨live, -, usable⟩ := (sample_reached.sound sample_lawful rfl).granted sample_lawful
    (show step sampleEnv (Op.allocation false 1 2) sampleStart = _ from allocated)
  have permitted : Permitted (.write 0 0 7) first := ⟨64, _, live, usable, by decide⟩
  refine ⟨second, _, reached.step permitted wrote, rfl, fun zeros => ?_⟩
  have again : Reached sampleBuild sampleEnv second.allocator.memory
    (Session.start sampleBuild () second.allocator.memory) := .start ⟨(), rfl⟩
  obtain ⟨-, -, sized⟩ := (again.sound sample_lawful rfl).granted sample_lawful
    (show step sampleEnv (Op.allocation true 1 2) _ = _ from zeroed)
  have zero := zeros _ again 1 2 third 64 _ zeroed sized 0 (by decide)
  exact absurd (seven.symm.trans zero) (by decide)

end Zeros

end Picoalloc
