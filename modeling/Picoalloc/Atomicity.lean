import Picoalloc.Contracts

/-!
Calls that fail. On an initialized allocator they change nothing but the environment; the
first allocation may leave an initialized, empty heap behind, and gives back what it
reserved otherwise.
-/

namespace Picoalloc
open CheckedMachine ByteMemory Tilings

variable {build : Build} {σ : Type} {E : Env σ} {total : Nat} {memory : Memory}
  {session session' : Session build σ}

inductive Fails : Op → Outcome → Prop where
  | alloc {align size} : Fails (.alloc align size) (.pointer none)
  | allocZeroed {align size} : Fails (.allocZeroed align size) (.pointer none)
  | growInplace {handle newSize} : Fails (.growInplace handle newSize) (.usable none)
  | realloc {handle align newSize} (nonempty : newSize ≠ 0) :
      Fails (.realloc handle align newSize) (.pointer none)

def SameLive (session session' : Session build σ) : Prop :=
  ∀ handle pointer length, session.live handle = some pointer →
    usableSize build pointer session.allocator = .ok (length, session.allocator) →
    session'.live handle = some pointer ∧
      usableSize build pointer session'.allocator = .ok (length, session'.allocator)

/-- The fields of `Allocator::new`, with nothing reserved that was not given back. -/
structure Untouched (s s' : AllocatorState build σ) : Prop where
  allocatedSpace : s'.allocatedSpace = 0
  baseAddress : s'.baseAddress = Pointer.null
  mask : s'.freeListsWithUnallocatedMemory =
    BitMask.new build.target.maskBits (secondaryWords build.target)
  first : s'.firstInFreeList =
    List.replicate (Bins.binConfig build.target).binCount Pointer.null
  memory : s'.memory = s.memory
  givenBack : s'.trace = s.trace ∨ GivenBack s.trace s'.trace

/-- One free chunk of the whole space, of which one unit is granted. -/
structure FreshHeap (total : Nat) (s' : AllocatorState build σ) : Prop where
  initialized : s'.baseAddress ≠ Pointer.null
  chunks : s'.chunks total = [⟨total, false⟩]
  allocatedSpace : s'.allocatedSpace = freeChunkHeaderSize
  wellFormed : WellFormed total s'

/-- What a failed call leaves behind. -/
structure Atomic (total : Nat) (session session' : Session build σ) : Prop where
  initialized : session.allocator.baseAddress ≠ Pointer.null →
    Unchanged session.allocator session'.allocator ∧ SameLive session session'
  uninitialized : session.allocator.baseAddress = Pointer.null →
    Untouched session.allocator session'.allocator ∨ FreshHeap total session'.allocator

section Failing

variable {heap heap' : Heap} {op : Op} {outcome : Outcome}

theorem Turn.unchanged (turn : Turn total session heap op outcome session' heap')
    (fails : Fails op outcome) :
    Unchanged session.allocator session'.allocator ∧ heap' = heap ∧
      ∀ handle ≠ session.calls, session'.live handle = session.live handle := by
  cases turn with
  | refused call unchanged =>
      exact ⟨unchanged, rfl, fun handle other => Function.update_of_ne other _ _⟩
  | failed live call unchanged => exact ⟨unchanged, rfl, fun _ _ => rfl⟩
  | freed here live call effect =>
      rcases call with ⟨rfl | rfl, rfl⟩ | ⟨_, rfl, rfl⟩
      · cases fails
      · cases fails
      · cases fails
        contradiction
  | granted | shrunk | grown | moved | wrote => cases fails

theorem Serves.sameLive (serves : Serves total memory session heap)
    (serves' : Serves total memory session' heap)
    (unchanged : Unchanged session.allocator session'.allocator)
    (kept : ∀ handle ≠ session.calls, session'.live handle = session.live handle) :
    SameLive session session' := by
  intro handle pointer length live sized
  obtain ⟨place, size, here, -, -, rfl, usable⟩ := serves.usable live
  cases sized.symm.trans usable
  have numbered : handle ≠ session.calls :=
    (serves.numbered handle (by rw [live]; exact Option.some_ne_none _)).ne
  have usable' := usableSize_ok serves'.represents here
  rw [unchanged.unit] at usable'
  exact ⟨(kept handle numbered).trans live, usable'⟩

theorem Represents.freshHeap {s : AllocatorState build σ}
    (represents : Represents total s (Heap.fresh build.target total)) : FreshHeap total s where
  initialized := represents.placed.nonnull.ne'
  chunks := represents.chunks
  allocatedSpace := represents.space.symm
  wellFormed := represents.wellFormed

theorem Idle.atomic {s' : AllocatorState build σ} (idle : Idle total memory session)
    (idle' : Idle total memory (session.allocated none s'))
    (which : s' = session.allocator ∨ s' = session.allocator.declined E) :
    Atomic total session (session.allocated none s') := by
  refine ⟨fun initialized => absurd idle.untouched.baseAddress initialized, fun _ => Or.inl ?_⟩
  have untouched := idle'.untouched
  refine ⟨untouched.allocatedSpace, untouched.baseAddress, untouched.mask, untouched.first,
    idle'.memory_eq.trans idle.memory_eq.symm, ?_⟩
  rcases which with rfl | rfl
  · exact Or.inl rfl
  · exact Or.inr declined_givenBack

/-- A failed call leaves the heap as it was, or as initialization made it. -/
theorem Turn.atomic {s₁ : AllocatorState build σ}
    (turn : Turn total { session with allocator := s₁ } heap op outcome session' heap')
    (serves : Serves total memory { session with allocator := s₁ } heap)
    (serves' : Serves total memory session' heap')
    (origin : s₁ = session.allocator ∨
      Idle total memory session ∧ heap = Heap.fresh build.target total)
    (fails : Fails op outcome) : Atomic total session session' := by
  obtain ⟨unchanged, rfl, kept⟩ := turn.unchanged fails
  rcases origin with rfl | ⟨idle, rfl⟩
  · refine ⟨fun _ => ⟨unchanged, serves.sameLive serves' unchanged kept⟩, fun null => ?_⟩
    exact absurd null serves.represents.placed.nonnull.ne'
  · exact ⟨fun initialized => absurd idle.untouched.baseAddress initialized,
      fun _ => Or.inr serves'.represents.freshHeap⟩

theorem Sound.atomic (lawful : E.Lawful build.target total) (sound : Sound total memory session)
    (permitted : Permitted op session) (copies : Copies E op session)
    (ran : step E op session = .ok (outcome, session')) (fails : Fails op outcome) :
    Atomic total session session' := by
  rcases sound.turn lawful permitted copies ran with
    ⟨idle, idle', -, s', rfl, which⟩ | ⟨s₁, heap, heap', origin, serves₁, turn, serves'⟩
  · exact idle.atomic idle' which
  · exact turn.atomic serves₁ serves' origin fails

/-- Failed calls are atomic. -/
theorem failed_atomic (lawful : E.Lawful build.target total) (inplace : build.reallocInplace = true)
    (reached : Reached build E memory session) (permitted : Permitted op session)
    (ran : step E op session = .ok (outcome, session')) (fails : Fails op outcome) :
    Atomic total session session' :=
  (reached.sound lawful inplace).atomic lawful permitted (copies_inplace inplace op session) ran fails

/-- An allocation that the array has no room for. -/
theorem failed_atomic_sample : ∃ session session' outcome,
    step sampleEnv (.alloc 1 2) sampleStart = .ok (outcome, session) ∧
      step sampleEnv (.alloc 1 9) session = .ok (.pointer none, session') ∧
      Atomic 8 session session' := by
  obtain ⟨⟨outcome, session⟩, run, refused⟩ := check_ok
    (show check (fun result => check (fun next => next.1 == .pointer none)
        (step sampleEnv (.alloc 1 9) result.2))
      (step sampleEnv (.alloc 1 2) sampleStart) = true by decide +kernel)
  obtain ⟨⟨answer, session'⟩, again, declined⟩ := check_ok refused
  obtain rfl : answer = .pointer none := by simpa using declined
  have reached : Reached sampleBuild sampleEnv (fun _ => 0) session :=
    .step sample_reached (show Permitted (.alloc 1 2) sampleStart from trivial) run
  have permitted : Permitted (.alloc 1 9) session := trivial
  exact ⟨session, session', outcome, run, again,
    failed_atomic sample_lawful rfl reached permitted again .alloc⟩

end Failing

end Picoalloc
