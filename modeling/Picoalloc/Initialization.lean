import Picoalloc.Allocation

/-!
The first allocation reserves the address space. It fails with the allocator as
new and the address space given back, or leaves a heap of one free chunk.
-/

namespace Picoalloc
open CheckedMachine IntrusiveLists Tilings

variable {build : Build} {σ : Type} {E : Env σ} {total : Nat} {s : AllocatorState build σ}

/-- What the allocator expects of an environment: a constant size, and bases that
are null or aligned and do not wrap. -/
structure Env.Lawful (E : Env σ) (target : Target) (total : Nat) : Prop where
  constant : ∀ e, E.totalSpace e = total
  positive : 0 < total
  small : total < unitLimit
  base : ∀ e, (E.allocateAddressSpace e).1 = Pointer.null ∨
    (E.allocateAddressSpace e).1 % 32 = 0 ∧
      (E.allocateAddressSpace e).1 + 32 * total < 2 ^ target.addressBits

/-- The environment `ArrayPointer<SIZE>`, which hands out the array at `pointer`. -/
def arrayPointer (target : Target) (pointer size : Nat) : Env Unit where
  totalSpace _ := (Size.fromBytesUsize target size).getD 0
  allocateAddressSpace _ := (pointer, ())
  expandMemoryUntil _ _ requested :=
    (decide (requested ≤ (Size.fromBytesUsize target size).getD 0), ())
  freeAddressSpace _ _ := ()

theorem arrayPointer_lawful {target : Target} {pointer size total : Nat} (positive : 0 < total)
    (units : Size.fromBytesUsize target size = some total) (small : total < unitLimit)
    (aligned : pointer % 32 = 0) (inside : pointer + 32 * total < 2 ^ target.addressBits) :
    (arrayPointer target pointer size).Lawful target total where
  constant _ := by simp [arrayPointer, units]
  positive := positive
  small := small
  base _ := Or.inr ⟨aligned, inside⟩

structure Uninitialized (total : Nat) (s : AllocatorState build σ) : Prop where
  allocatedSpace : s.allocatedSpace = 0
  baseAddress : s.baseAddress = Pointer.null
  mask : s.freeListsWithUnallocatedMemory =
    BitMask.new build.target.maskBits (secondaryWords build.target)
  first : s.firstInFreeList =
    List.replicate (Bins.binConfig build.target).binCount Pointer.null
  granted : ∀ base, granted base s.trace = 0
  requests : Requests total s.trace

def GivenBack (before after : List Event) : Prop :=
  after = .allocateAddressSpace Pointer.null :: before ∨
    ∃ base, after = .freeAddressSpace base ::
      .expandMemoryUntil base freeChunkHeaderSize false :: .allocateAddressSpace base :: before

theorem new_uninitialized (env : σ) (memory : ByteMemory.Memory) :
    Uninitialized total (Allocator.new build env memory) where
  allocatedSpace := rfl
  baseAddress := rfl
  mask := rfl
  first := rfl
  granted _ := rfl
  requests := trivial

section Failure

variable (E) (s)

def State.reserved : Nat := (E.allocateAddressSpace s.env).1

def State.firstAnswer : Bool × σ :=
  E.expandMemoryUntil (E.allocateAddressSpace s.env).2 (s.reserved E) freeChunkHeaderSize

def State.declined : AllocatorState build σ :=
  if s.reserved E = Pointer.null then
    { s with env := (E.allocateAddressSpace s.env).2
             trace := .allocateAddressSpace (s.reserved E) :: s.trace }
  else
    { s with env := E.freeAddressSpace (s.firstAnswer E).2 (s.reserved E)
             trace := .freeAddressSpace (s.reserved E) ::
               .expandMemoryUntil (s.reserved E) freeChunkHeaderSize false ::
                 .allocateAddressSpace (s.reserved E) :: s.trace }

def State.started : AllocatorState build σ :=
  { s with env := (s.firstAnswer E).2
           trace := .expandMemoryUntil (s.reserved E) freeChunkHeaderSize true ::
             .allocateAddressSpace (s.reserved E) :: s.trace
           baseAddress := s.reserved E
           allocatedSpace := freeChunkHeaderSize }

def State.starts : Bool := s.reserved E != Pointer.null && (s.firstAnswer E).1

end Failure

theorem declined_uninitialized (lawful : E.Lawful build.target total)
    (untouched : Uninitialized total s) : Uninitialized total (s.declined E) := by
  obtain ⟨space, base, mask, first, granted, requests⟩ := untouched
  have positive := lawful.positive
  rw [State.declined]
  split
  · exact ⟨space, base, mask, first, granted, requests⟩
  · refine ⟨space, base, mask, first, fun other => ?_, ?_⟩
    · simp only [Picoalloc.granted]
      split
      · rfl
      · exact granted other
    · simp only [Requests, Picoalloc.granted, freeChunkHeaderSize]
      exact ⟨by rw [granted]; exact Nat.one_pos, positive, requests⟩

theorem declined_givenBack : GivenBack s.trace (s.declined E).trace := by
  rw [State.declined]
  split
  · next null => exact Or.inl (by rw [null])
  · exact Or.inr ⟨_, rfl⟩

theorem declined_memory : (s.declined E).memory = s.memory := by
  rw [State.declined]
  split <;> rfl

theorem started_placed (lawful : E.Lawful build.target total) (untouched : Uninitialized total s)
    (starts : s.starts E = true) : Placed total (s.started E) := by
  obtain ⟨nonnull, _⟩ := Bool.and_eq_true_iff.mp starts
  have nonnull : s.reserved E ≠ Pointer.null := by simpa using nonnull
  obtain ⟨aligned, inside⟩ := (lawful.base s.env).resolve_left nonnull
  have positive := lawful.positive
  refine ⟨Nat.pos_of_ne_zero nonnull, aligned, inside, lawful.small, ?_, positive, ?_⟩
  · simp [State.started, granted, untouched.granted]
  · refine ⟨?_, positive, untouched.requests⟩
    simp [granted, untouched.granted, freeChunkHeaderSize]

theorem fresh_valid (target : Target) (positive : 0 < total) :
    (Heap.fresh target total).Valid target total := by
  have empty : Gap.Valid target total freeChunkHeaderSize ⟨[], total, [], fun _ => []⟩ := by
    refine ⟨by simp, by simp [Gap.start], List.isChain_nil, List.isChain_nil, fun bin place => ?_,
      fun bin => List.nodup_nil, fun place chunk here => ?_, positive⟩
    · simp [Gap.chunkAt]
    · simp [Gap.chunkAt] at here
  have placed := Gap.place_valid empty ⟨total, false⟩ positive (Nat.le_refl _)
    (by simp [Gap.start, freeChunkHeaderSize]) (fun impossible => absurd impossible Bool.false_ne_true)
    (fun last member => by simp at member)
  exact Gap.heap_valid placed (Nat.sub_self total) (fun _ _ first member => by
    simp [Gap.place] at member)

theorem started_index (untouched : Uninitialized total s) : Index (s.started E) (fun _ => []) where
  mask := by
    rw [State.started, untouched.mask]
    exact represents_congr (by simp) (BitMask.new_represents _ _)
  first bin small := by
    simp [State.started, untouched.first, small, State.link]
  linked _ := trivial
  nodup _ := List.nodup_nil
  apart _ _ _ member := by simp at member
  granted _ _ member := by simp at member

theorem initializeImpl_reads (lawful : E.Lawful build.target total) :
    initializeImpl build E s =
      if s.starts E = true then
        (do registerFirstChunk build E (s.reserved E); return true : Run build σ Bool)
          { s with env := (s.firstAnswer E).2
                   trace := .expandMemoryUntil (s.reserved E) freeChunkHeaderSize true ::
                     .allocateAddressSpace (s.reserved E) :: s.trace }
      else .ok (false, s.declined E) := by
  have reserve : allocateAddressSpace build E s = .ok (s.reserved E,
      { s with env := (E.allocateAddressSpace s.env).2
               trace := .allocateAddressSpace (s.reserved E) :: s.trace }) := rfl
  rw [initializeImpl, bind_ok reserve]
  by_cases null : s.reserved E = Pointer.null
  · rw [if_pos (by simp [null, Pointer.isNull, Pointer.null]), if_neg (by simp [State.starts, null]),
      State.declined, if_pos null]
    rfl
  obtain ⟨aligned, _⟩ := (lawful.base s.env).resolve_left null
  have aligned : s.reserved E % 32 = 0 := aligned
  have bytes : s.reserved E % build.target.addressBytes = 0 := by
    cases build.target <;> simp only [Target.addressBytes] <;> omega
  rw [if_neg (by simpa [Pointer.isNull, Pointer.null] using null),
    bind_ok (paranoidAssert_ok (by simp [allocationGranularity, aligned])),
    bind_ok (paranoidAssert_ok (by simp [bytes]))]
  have request : expandMemoryUntil build E (s.reserved E) freeChunkHeaderSize
      { s with env := (E.allocateAddressSpace s.env).2
               trace := .allocateAddressSpace (s.reserved E) :: s.trace } =
      .ok ((s.firstAnswer E).1,
        { s with env := (s.firstAnswer E).2
                 trace := .expandMemoryUntil (s.reserved E) freeChunkHeaderSize (s.firstAnswer E).1 ::
                   .allocateAddressSpace (s.reserved E) :: s.trace }) := rfl
  rw [bind_ok request]
  cases answer : (s.firstAnswer E).1 with
  | false =>
      rw [if_pos (show (!false) = true from rfl), if_neg (by simp [State.starts, answer]),
        State.declined, if_neg null]
      rfl
  | true =>
      rw [if_neg (show ¬ (!true) = true from Bool.false_ne_true),
        if_pos (by simp [State.starts, answer, null])]

theorem registerFirstChunk_ok (lawful : E.Lawful build.target total)
    (untouched : Uninitialized total s) (starts : s.starts E = true) :
    ∃ s', registerFirstChunk build E (s.reserved E)
        { s with env := (s.firstAnswer E).2
                 trace := .expandMemoryUntil (s.reserved E) freeChunkHeaderSize true ::
                   .allocateAddressSpace (s.reserved E) :: s.trace } = .ok ((), s') ∧
      Represents total s' (Heap.fresh build.target total) ∧
      Frame (fun place => place = 0) (s.started E) s' := by
  have placed := started_placed lawful untouched starts
  have index := started_index (E := E) untouched
  have small := lawful.small
  have inside : 0 < (s.started E).allocatedSpace := Nat.one_pos
  have binSmall := Bins.binOf_lt build.target total
  obtain ⟨mask, run, rep⟩ := setBin_ok index.mask binSmall
  -- the states after the mask, the header and the head of the list are written
  let s₁ : AllocatorState build σ := { s.started E with freeListsWithUnallocatedMemory := mask }
  let s₂ := putFree s₁ 0 0 (2 * total) Pointer.null Pointer.null
  let s₃ : AllocatorState build σ :=
    { s₂ with firstInFreeList := s₂.firstInFreeList.set (Bins.binOf build.target total) (s.reserved E) }
  have placed₁ : Placed total s₁ := placed.congr rfl rfl rfl
  have placed₃ : Placed total s₃ := placed.congr rfl rfl rfl
  have head : s₂.firstInFreeList[Bins.binOf build.target total]? = some Pointer.null :=
    index.first _ binSmall
  have written : Frame (fun place => place = 0) s₁ s₂ :=
    frame_putFree s₁ 0 (2 * total) Pointer.null Pointer.null rfl
  have frame : Frame (fun place => place = 0) (s.started E) s₃ :=
    ⟨rfl, rfl, rfl, rfl, rfl, written.bytes⟩
  have nullFits : Pointer.null < 256 ^ build.target.addressBytes := Nat.pow_pos (by decide)
  simp only [unitLimit] at small
  obtain ⟨prevs, sizes, nexts, prevLinks⟩ :=
    views_putFree s₁ 0 (Nat.two_pow_pos 32) (show 2 * total < 2 ^ 32 by omega) nullFits nullFits
  have views₁ : ∀ field, view s₁ field = view (s.started E) field := fun _ => rfl
  have views₃ : ∀ field, view s₃ field = view s₂ field := fun _ => rfl
  rw [views₁, ← views₃] at prevs sizes nexts prevLinks
  have index₃ : Index s₃ (insertFree (fun _ => []) (Bins.binOf build.target total) 0) := by
    refine index_push index binSmall (fun _ => List.not_mem_nil) inside rfl rfl nexts ?_ rfl rep
    rw [List.head?_nil, relink_none]
    exact prevLinks
  have represents : Represents total s₃ (Heap.fresh build.target total) := by
    refine ⟨placed₃, fresh_valid build.target lawful.positive, rfl, index₃, ⟨?_, ?_⟩, trivial⟩
    · rw [prevs]
      exact Function.update_self _ _ _
    · rw [sizes]
      exact Function.update_self _ _ _
  have check := paranoidCheckChunk_ok lawful.constant represents
    (show (Heap.fresh build.target total).chunks = [] ++ [⟨total, false⟩] from rfl)
  refine ⟨s₃, ?_, represents, frame⟩
  have entered : (modify fun s' =>
      { s' with baseAddress := s.reserved E, allocatedSpace := freeChunkHeaderSize } : Run build σ Unit)
        { s with env := (s.firstAnswer E).2
                 trace := .expandMemoryUntil (s.reserved E) freeChunkHeaderSize true ::
                   .allocateAddressSpace (s.reserved E) :: s.trace } = .ok ((), s.started E) := rfl
  rw [registerFirstChunk, bind_ok entered]
  refine (bind_ok (paranoidCheckAccess_ok placed inside (freeChunkHeader_fits _))).trans ?_
  rw [bind_ok (get_apply _), lawful.constant, bind_ok (sizeToBinRoundDown_ok total)]
  refine (bind_ok run).trans ?_
  rw [newUnallocated_eq (by omega)]
  refine (bind_ok (writeFreeChunkHeader_ok placed₁ inside 0 (2 * total) _ _)).trans ?_
  rw [BitMask.index_index]
  exact (bind_ok (setFirst_ok head _)).trans check

/-- An initialization fails and leaves nothing behind, or makes the fresh heap. -/
theorem initializeAllocator_ok (lawful : E.Lawful build.target total)
    (untouched : Uninitialized total s) :
    if s.starts E = true then
      ∃ s', initializeAllocator build E s = .ok (true, s') ∧
        Represents total s' (Heap.fresh build.target total) ∧
        Frame (fun place => place = 0) (s.started E) s'
    else initializeAllocator build E s = .ok (false, s.declined E) := by
  have reading : initializeAllocator build E s = initializeImpl build E s := by
    rw [initializeAllocator, bind_ok (get_apply s), untouched.baseAddress]
    rfl
  rw [reading, initializeImpl_reads lawful]
  by_cases starts : s.starts E = true
  · rw [if_pos starts, if_pos starts]
    obtain ⟨s', run, represents, frame⟩ := registerFirstChunk_ok lawful untouched starts
    exact ⟨s', bind_ok run, represents, frame⟩
  · rw [if_neg starts, if_neg starts]

theorem initializeAllocator_again (placed : Placed total s) :
    initializeAllocator build E s = .ok (true, s) := by
  have nonnull : Pointer.isNull s.baseAddress = false := unit_nonnull placed 0
  rw [initializeAllocator, bind_ok (get_apply s), if_neg (by simp [nonnull])]
  rfl

/-- Every allocation with an alignment that is accepted begins with the same first chunk. -/
theorem allocImpl_starts (lawful : E.Lawful build.target total) (untouched : Uninitialized total s)
    (starts : s.starts E = true) :
    ∃ s₁, Represents total s₁ (Heap.fresh build.target total) ∧
      Frame (fun place => place = 0) (s.started E) s₁ ∧
      ∀ align size isCalloc, ¬ (align = 0 ∨ (!isPowerOfTwo align) = true) →
        allocImpl build E align size isCalloc s = allocImpl build E align size isCalloc s₁ := by
  have begun := initializeAllocator_ok lawful untouched
  rw [if_pos starts] at begun
  obtain ⟨s₁, run, represents, frame⟩ := begun
  refine ⟨s₁, represents, frame, fun align size isCalloc accepted => ?_⟩
  rw [allocImpl, if_neg accepted, bind_ok run, bind_ok (initializeAllocator_again represents.placed)]

theorem allocImpl_first (lawful : E.Lawful build.target total) (untouched : Uninitialized total s)
    (align size : Nat) (isCalloc : Bool) :
    (∃ s', allocImpl build E align size isCalloc s = .ok (none, s') ∧
        (s' = s ∨ s' = s.declined E)) ∨
      ∃ s₁, Represents total s₁ (Heap.fresh build.target total) ∧
        Frame (fun place => place = 0) (s.started E) s₁ ∧
        allocImpl build E align size isCalloc s = allocImpl build E align size isCalloc s₁ := by
  by_cases rejected : align = 0 ∨ (!isPowerOfTwo align) = true
  · refine Or.inl ⟨s, ?_, Or.inl rfl⟩
    rw [allocImpl, if_pos rejected]
    rfl
  by_cases starts : s.starts E = true
  · obtain ⟨s₁, represents, frame, same⟩ := allocImpl_starts lawful untouched starts
    exact Or.inr ⟨s₁, represents, frame, same align size isCalloc rejected⟩
  · have begun := initializeAllocator_ok lawful untouched
    rw [if_neg starts] at begun
    refine Or.inl ⟨_, ?_, Or.inr rfl⟩
    rw [allocImpl, if_neg rejected, bind_ok begun]
    rfl

end Picoalloc
